import CopyMint.Access.Decisions
import CopyMint.Library.Fallible

/-!
# Access decisions under the row policies

A transaction that has set the user and the workspace may write every row of that
workspace, so an approval is never refused. An audit row without a workspace may
be inserted, but the insertion reads back the row's timestamp, and no setting
makes such a row readable: rejections, unauthorized attempts and revocations of
users without a workspace are always refused.
-/

namespace CopyMint

open Hexadecimal Relational RowSecurity Fallible AccessDatabase

/-- Row-level security refuses the operation. -/
def Violates {α : Type} (result : Except AccessFailure α) : Prop :=
  ∃ table, result = .error (.rowSecurityViolation table)

/-- Failures that are no refusals. -/
theorem not_violates_of_failsOnly {α : Type} {expected : AccessFailure → Prop}
    {result : Except AccessFailure α} (fails : FailsOnly expected result)
    (never : ∀ table, ¬expected (.rowSecurityViolation table)) : ¬Violates result := by
  rintro ⟨table, refused⟩
  exact never table (fails _ refused)

/-- A refused statement refuses the operation. -/
theorem Violates.bind {α β : Type} {first : Except AccessFailure α}
    {next : α → Except AccessFailure β} (refused : Violates first) :
    Violates (first >>= next) := by
  rcases refused with ⟨table, rfl⟩
  exact ⟨table, rfl⟩

theorem violates_map_iff {α β : Type} {change : α → β} {result : Except AccessFailure α} :
    Violates (change <$> result) ↔ Violates result := by
  cases result with
  | error failure => simp [Violates, Functor.map, Except.map]
  | ok value => simp [Violates, Functor.map, Except.map]

/-- The failures of a computation that has none. -/
def Never (_ : AccessFailure) : Prop := False

variable {isoformat : ℤ → Text} {settings : SessionSettings} {db : AccessDatabase}

theorem failsOnly_updateWorkspace {workspaceId : ℕ} {status : WorkspaceStatus} :
    FailsOnly Never (updateWorkspace migratedPolicies settings workspaceId status db) := by
  rcases exists_updateSelected_isolation settings workspaceClause db.workspaces
    (fun row => row.id = workspaceId) (fun row => { row with status })
    (fun _ admitted => admitted) with ⟨_, updated⟩
  simp [updateWorkspace, migratedPolicies, updated, secured, bind, Except.bind]

/-- A user can always lock or create the personal workspace, unless its name is too long. -/
theorem failsOnly_personalWorkspace {user : PlatformUser}
    (own : settings.userId = some user.id) :
    FailsOnly (fun failure => failure = .stringTooLong "workspaces.name" ∧
        lockedWorkspace migratedPolicies settings user.id db = none ∧
        120 < (workspaceName user).length)
      (personalWorkspace migratedPolicies settings user db) := by
  simp only [personalWorkspace]
  split
  · rename_i unlocked
    split_ifs with tooLong
    · exact failsOnly_error_iff.mpr ⟨rfl, unlocked, tooLong⟩
    · have admitted : ∀ workspace : Workspace, workspace.personalOwnerUserId = user.id →
          workspaceClause settings workspace = true := by
        intro workspace owner
        simp [workspaceClause, own, owner]
      rw [migratedPolicies, insertReturning_isolation (admitted _ rfl)]
      exact failsOnly_ok _
  · exact (failsOnly_updateWorkspace.mono fun _ never => never.elim).bind
      fun _ _ => failsOnly_ok _

theorem failsOnly_activateMembership {workspaceId userId : ℕ}
    (own : settings.workspaceId = some workspaceId) :
    FailsOnly Never (activateMembership migratedPolicies settings workspaceId userId db) := by
  simp only [activateMembership, migratedPolicies]
  split
  · have admitted : ∀ membership : WorkspaceMembership, membership.workspaceId = workspaceId →
        membershipClause settings membership = true := by
      intro membership same
      simp [membershipClause, own, same]
    rw [insertReturning_isolation (admitted _ rfl)]
    exact failsOnly_ok _
  · rename_i membership _
    rcases exists_updateSelected_isolation settings membershipClause db.memberships
      (fun row => row.id = membership.id)
      (fun row => { row with status := .active, revokedAt := none })
      (fun _ admitted => admitted) with ⟨_, updated⟩
    rw [updated]
    exact failsOnly_ok _

theorem failsOnly_enableDestination {workspaceId : ℕ} {telegramChatId : ℤ}
    (own : settings.workspaceId = some workspaceId) :
    FailsOnly Never
      (enableDestination migratedPolicies settings workspaceId telegramChatId db) := by
  simp only [enableDestination, migratedPolicies]
  split
  · have admitted : ∀ destination : NotificationDestination,
        destination.workspaceId = workspaceId →
          destinationClause settings destination = true := by
      intro destination same
      simp [destinationClause, own, same]
    rw [insertReturning_isolation (admitted _ rfl)]
    exact failsOnly_ok _
  · rename_i destination _
    rcases exists_updateSelected_isolation settings destinationClause db.destinations
      (fun row => row.id = destination.id) (fun row => { row with enabled := true })
      (fun _ admitted => admitted) with
      ⟨_, updated⟩
    rw [updated]
    exact failsOnly_ok _

theorem failsOnly_ensureStrategy {workspaceId : ℕ}
    (own : settings.workspaceId = some workspaceId) :
    FailsOnly Never (ensureStrategy migratedPolicies settings workspaceId db) := by
  simp only [ensureStrategy, migratedPolicies]
  split
  · have admitted : ∀ strategy : WorkspaceStrategy, strategy.workspaceId = workspaceId →
        strategyClause settings strategy = true := by
      intro strategy same
      simp [strategyClause, own, same]
    rw [insertReturning_isolation (admitted _ rfl)]
    exact failsOnly_ok _
  · exact failsOnly_ok _

theorem failsOnly_suspendWorkspace {workspaceId userId : ℕ} {revokedAt : ℤ} :
    FailsOnly Never
      (suspendWorkspace migratedPolicies settings workspaceId userId revokedAt db) := by
  refine failsOnly_updateWorkspace.bind fun db _ => ?_
  rcases exists_updateSelected_isolation settings membershipClause db.memberships
    (fun row => row.workspaceId = workspaceId && row.userId = userId)
    (fun row => { row with status := .revoked, revokedAt := some revokedAt })
    (fun _ admitted => admitted) with ⟨memberships, updated⟩
  rcases exists_updateSelected_isolation settings destinationClause db.destinations
    (fun row => row.workspaceId = workspaceId) (fun row => { row with enabled := false })
    (fun _ admitted => admitted) with
    ⟨destinations, disabled⟩
  simp [migratedPolicies, updated, disabled, secured, bind, Except.bind]

/-- An audit row of the workspace of the transaction is inserted. -/
theorem failsOnly_insertAudit {audit : AuditLog}
    (own : sqlEqual audit.workspaceId settings.workspaceId = true) :
    FailsOnly Never (insertAudit migratedPolicies settings audit db) := by
  simp [insertAudit, migratedPolicies, insertReturning, auditPolicy, own, secured, bind,
    Except.bind]

/-- An audit row of no workspace is refused. -/
theorem violates_insertAudit {audit : AuditLog} (unowned : audit.workspaceId = none) :
    Violates (insertAudit migratedPolicies settings audit db) := by
  simp [Violates, insertAudit, migratedPolicies, insertReturning, auditPolicy, unowned, secured,
    bind, Except.bind]

/-- Acting for a platform owner touches no request. -/
theorem pendingRequest_platformActor (telegramUserId now : ℤ) (requestId : ℕ) :
    pendingRequest requestId (platformActor telegramUserId now db).1 =
      pendingRequest requestId db := by
  simp only [platformActor]
  split
  · split_ifs <;> rfl
  · rfl

theorem workspaces_platformActor (db : AccessDatabase) (telegramUserId now : ℤ) :
    (platformActor telegramUserId now db).1.workspaces = db.workspaces := by
  simp only [platformActor]
  split
  · split_ifs <;> rfl
  · rfl

/-- The workspace of the user of an approved request exists, or can be named. -/
def NameFits (requestId : ℕ) (actorTelegramUserId decidedAt : ℤ) (db : AccessDatabase) : Prop :=
  ∀ accessRequest, pendingRequest requestId db = .ok accessRequest →
    let acting := platformActor actorTelegramUserId decidedAt db
    let approving := approvedUser accessRequest acting.2.id decidedAt acting.1
    lockedWorkspace migratedPolicies { userId := some approving.2.id } approving.2.id
      approving.1 = none → (workspaceName approving.2).length ≤ 120

/-- Whether a workspace can be named is decided by the request, which determines its user. -/
instance (requestId : ℕ) (actorTelegramUserId decidedAt : ℤ) (db : AccessDatabase) :
    Decidable (NameFits requestId actorTelegramUserId decidedAt db) :=
  match pending : pendingRequest requestId db with
  | .error _ => .isTrue fun _ found => by cases pending.symm.trans found
  | .ok accessRequest =>
      let acting := platformActor actorTelegramUserId decidedAt db
      let approving := approvedUser accessRequest acting.2.id decidedAt acting.1
      decidable_of_iff (lockedWorkspace migratedPolicies { userId := some approving.2.id }
          approving.2.id approving.1 = none → (workspaceName approving.2).length ≤ 120)
        ⟨fun fits other found => by
            cases pending.symm.trans found
            exact fits,
          fun fits => fits accessRequest pending⟩

/-- An approval fails on a request that is not pending, and on a name that is too long. -/
theorem failsOnly_approveRequest {requestId : ℕ} {actorTelegramUserId : ℤ} {correlationId : ℕ}
    {decidedAt : ℤ} :
    FailsOnly (fun failure => pendingRequest requestId db = .error failure ∨
        failure = .stringTooLong "workspaces.name" ∧
          ¬NameFits requestId actorTelegramUserId decidedAt db)
      (approveRequest migratedPolicies requestId actorTelegramUserId correlationId decidedAt
        db) := by
  simp only [approveRequest, pendingRequest_platformActor]
  refine FailsOnly.bind (fun _ raised => .inl raised) fun accessRequest pending => ?_
  refine ((failsOnly_personalWorkspace rfl).mono ?_).bind fun result _ => ?_
  · rintro failure ⟨tooLong, unlocked, long⟩
    exact .inr ⟨tooLong, fun fits => absurd (fits accessRequest pending unlocked) (by omega)⟩
  · suffices fails : FailsOnly Never _ from fails.mono fun _ never => never.elim
    refine (failsOnly_activateMembership rfl).bind fun _ _ => ?_
    refine (failsOnly_enableDestination rfl).bind fun _ _ => ?_
    refine (failsOnly_ensureStrategy rfl).bind fun _ _ => ?_
    exact (failsOnly_insertAudit (by simp [approvalAudit])).bind fun _ _ => failsOnly_ok _

theorem failsOnly_pendingRequest {requestId : ℕ} :
    FailsOnly (fun failure => failure = .accessRequestNotFound ∨
      failure = .accessRequestNotPending) (pendingRequest requestId db) := by
  simp only [pendingRequest]
  split
  · simp
  · split_ifs <;> simp

/-- An approval is never refused. -/
theorem not_violates_approveRequest {requestId : ℕ} {actorTelegramUserId : ℤ}
    {correlationId : ℕ} {decidedAt : ℤ} :
    ¬Violates (approveRequest migratedPolicies requestId actorTelegramUserId
      correlationId decidedAt db) := by
  refine not_violates_of_failsOnly failsOnly_approveRequest ?_
  rintro table (raised | ⟨impossible, _⟩)
  · have notFound := failsOnly_pendingRequest _ raised
    simp at notFound
  · cases impossible

/-- The rejection of a pending request is refused. -/
theorem violates_rejectRequest {requestId : ℕ} {actorTelegramUserId : ℤ}
    {correlationId : ℕ} {reason : Option Text} {decidedAt : ℤ} {cooldownUntil : Option ℤ}
    {accessRequest : AccessRequest} (pending : pendingRequest requestId db = .ok accessRequest) :
    Violates (rejectRequest isoformat migratedPolicies requestId actorTelegramUserId
      correlationId reason decidedAt cooldownUntil db) := by
  simp only [rejectRequest, pendingRequest_platformActor, pending, ok_bind]
  refine Violates.bind ?_
  exact violates_insertAudit rfl

/-- The row of the user that a revocation is about. -/
def revokedUser (targetTelegramUserId actorTelegramUserId revokedAt : ℤ) (db : AccessDatabase) :
    Option PlatformUser :=
  (platformActor actorTelegramUserId revokedAt db).1.user targetTelegramUserId

/-- A user locks its personal workspace if it has one. -/
theorem lockedWorkspace_eq_none_iff {userId : ℕ} (own : settings.userId = some userId) :
    lockedWorkspace migratedPolicies settings userId db = none ↔
      ∀ workspace ∈ db.workspaces, workspace.personalOwnerUserId ≠ userId := by
  simp only [lockedWorkspace, List.find?_eq_none, lockable, migratedPolicies, Policy.isolation,
    Bool.and_self, List.mem_filter, decide_eq_true_eq, and_imp]
  constructor
  · intro unlocked workspace workspace_mem owner
    exact unlocked workspace workspace_mem (by simp [workspaceClause, own, owner]) owner
  · exact fun absent workspace workspace_mem _ => absent workspace workspace_mem

section Revocation

variable {targetTelegramUserId actorTelegramUserId : ℤ} {correlationId : ℕ}
  {reason : Option Text} {revokedAt : ℤ} {user : PlatformUser}

/-- The revocation of a user who owns a workspace never fails. -/
theorem failsOnly_revokeUser
    (found : revokedUser targetTelegramUserId actorTelegramUserId revokedAt db = some user)
    (owns : ∃ workspace ∈ db.workspaces, workspace.personalOwnerUserId = user.id) :
    FailsOnly Never (revokeUser migratedPolicies targetTelegramUserId actorTelegramUserId
      correlationId reason revokedAt db) := by
  rw [revokedUser] at found
  rw [← workspaces_platformActor db actorTelegramUserId revokedAt] at owns
  simp only [revokeUser, found]
  split
  · rename_i unlocked
    rcases owns with ⟨workspace, workspace_mem, owner⟩
    exact absurd owner ((lockedWorkspace_eq_none_iff rfl).mp unlocked workspace workspace_mem)
  · refine failsOnly_suspendWorkspace.bind fun _ _ => failsOnly_insertAudit ?_
    simp [revocationAudit]

/-- The revocation of a user without a workspace is refused. -/
theorem violates_revokeUser
    (found : revokedUser targetTelegramUserId actorTelegramUserId revokedAt db = some user)
    (owns : ¬∃ workspace ∈ db.workspaces, workspace.personalOwnerUserId = user.id) :
    Violates (revokeUser migratedPolicies targetTelegramUserId actorTelegramUserId
      correlationId reason revokedAt db) := by
  rw [revokedUser] at found
  rw [← workspaces_platformActor db actorTelegramUserId revokedAt] at owns
  have unlocked : lockedWorkspace migratedPolicies { userId := some user.id } user.id
      (platformActor actorTelegramUserId revokedAt db).1 = none := by
    refine (lockedWorkspace_eq_none_iff rfl).mpr fun workspace workspace_mem owner => ?_
    exact owns ⟨workspace, workspace_mem, owner⟩
  simp only [revokeUser, found, unlocked]
  exact violates_insertAudit rfl

end Revocation

/-- A call of one of the operations, with its arguments. -/
inductive AccessCall where
  | approve (requestId : ℕ) (actorTelegramUserId : ℤ) (correlationId : ℕ) (decidedAt : ℤ)
  | reject (requestId : ℕ) (actorTelegramUserId : ℤ) (correlationId : ℕ) (reason : Option Text)
      (decidedAt : ℤ) (cooldownUntil : Option ℤ)
  | revoke (targetTelegramUserId actorTelegramUserId : ℤ) (correlationId : ℕ)
      (reason : Option Text) (revokedAt : ℤ)
  | unauthorized (identity : TelegramIdentity) (action code : Text) (correlationId : ℕ)
  deriving DecidableEq

namespace AccessCall

/-- The database that a call leaves behind. -/
def run (isoformat : ℤ → Text) (policies : AccessPolicies) (db : AccessDatabase) :
    AccessCall → Except AccessFailure AccessDatabase
  | approve requestId actor correlationId decidedAt =>
      Prod.fst <$> approveRequest policies requestId actor correlationId decidedAt db
  | reject requestId actor correlationId reason decidedAt cooldownUntil =>
      Prod.fst <$> rejectRequest isoformat policies requestId actor correlationId reason decidedAt
        cooldownUntil db
  | revoke target actor correlationId reason revokedAt =>
      revokeUser policies target actor correlationId reason revokedAt db
  | unauthorized identity action code correlationId =>
      unauthorizedAttempt policies identity action code correlationId db

/-- The arguments pass the checks that the operation itself makes. -/
def passesChecks (db : AccessDatabase) : AccessCall → Bool
  | approve requestId _ _ _ => (pendingRequest requestId db).isOk
  | reject requestId _ _ _ _ _ => (pendingRequest requestId db).isOk
  | revoke target actor _ _ revokedAt => (revokedUser target actor revokedAt db).isSome
  | unauthorized _ _ _ _ => true

/-- The operation writes its audit row within a workspace. -/
def HasWorkspace (db : AccessDatabase) : AccessCall → Prop
  | approve _ _ _ _ => True
  | reject _ _ _ _ _ _ => False
  | revoke target actor _ _ revokedAt =>
      ∃ user, revokedUser target actor revokedAt db = some user ∧
        ∃ workspace ∈ db.workspaces, workspace.personalOwnerUserId = user.id
  | unauthorized _ _ _ _ => False

/-- An approval finds the workspace of its user, or can name a new one. -/
def NameFits (db : AccessDatabase) : AccessCall → Prop
  | approve requestId actor _ decidedAt => CopyMint.NameFits requestId actor decidedAt db
  | _ => True

instance (db : AccessDatabase) (call : AccessCall) : Decidable (call.HasWorkspace db) :=
  match call with
  | approve _ _ _ _ => inferInstanceAs (Decidable True)
  | reject _ _ _ _ _ _ | unauthorized _ _ _ _ => inferInstanceAs (Decidable False)
  | revoke target actor _ _ revokedAt =>
      match found : revokedUser target actor revokedAt db with
      | none =>
          .isFalse (by
            rintro ⟨_, other, _⟩
            cases found.symm.trans other)
      | some user =>
          decidable_of_iff (∃ workspace ∈ db.workspaces, workspace.personalOwnerUserId = user.id)
            ⟨fun owns => ⟨user, found, owns⟩, fun ⟨_, other, owns⟩ => by
              cases found.symm.trans other
              exact owns⟩

instance (db : AccessDatabase) (call : AccessCall) : Decidable (call.NameFits db) :=
  match call with
  | approve requestId actor _ decidedAt =>
      inferInstanceAs (Decidable (CopyMint.NameFits requestId actor decidedAt db))
  | reject _ _ _ _ _ _ | unauthorized _ _ _ _ | revoke _ _ _ _ _ =>
      inferInstanceAs (Decidable True)

end AccessCall

theorem exists_pendingRequest {requestId : ℕ} (passes : (pendingRequest requestId db).isOk = true) :
    ∃ accessRequest, pendingRequest requestId db = .ok accessRequest := by
  cases found : pendingRequest requestId db with
  | error failure => simp [found, Except.isOk, Except.toBool] at passes
  | ok accessRequest => exact ⟨accessRequest, rfl⟩

/--
A call that passes the checks of its operation satisfies row-level security
exactly if the operation writes its audit row within a workspace.
-/
theorem not_violates_run_iff {call : AccessCall} (passes : call.passesChecks db = true) :
    ¬Violates (call.run isoformat migratedPolicies db) ↔ call.HasWorkspace db := by
  cases call with
  | approve requestId actor correlationId decidedAt =>
      refine iff_of_true ?_ trivial
      rw [AccessCall.run, violates_map_iff]
      exact not_violates_approveRequest
  | reject requestId actor correlationId reason decidedAt cooldownUntil =>
      refine iff_of_false (not_not.mpr ?_) id
      rcases exists_pendingRequest passes with ⟨accessRequest, pending⟩
      rw [AccessCall.run, violates_map_iff]
      exact violates_rejectRequest pending
  | revoke target actor correlationId reason revokedAt =>
      rcases Option.isSome_iff_exists.mp passes with ⟨user, found⟩
      have same : (AccessCall.revoke target actor correlationId reason revokedAt).HasWorkspace db ↔
          ∃ workspace ∈ db.workspaces, workspace.personalOwnerUserId = user.id := by
        simp [AccessCall.HasWorkspace, found]
      rw [same]
      constructor
      · exact fun admitted => not_not.mp (mt (violates_revokeUser found) admitted)
      · exact fun owns => not_violates_of_failsOnly (failsOnly_revokeUser found owns) fun _ => id
  | unauthorized identity action code correlationId =>
      exact iff_of_false (not_not.mpr (violates_insertAudit rfl)) id

variable (isoformat) in
/-- A call that passes its checks within a workspace, and can name it, takes effect. -/
theorem exists_run_eq_ok {call : AccessCall} (passes : call.passesChecks db = true)
    (workspace : call.HasWorkspace db) (fits : call.NameFits db) :
    ∃ next, call.run isoformat migratedPolicies db = .ok next := by
  cases call with
  | approve requestId actor correlationId decidedAt =>
      rcases exists_pendingRequest passes with ⟨accessRequest, pending⟩
      have returns : ∃ result, approveRequest migratedPolicies requestId actor correlationId
          decidedAt db = .ok result := by
        refine failsOnly_approveRequest.exists_eq_ok ?_
        rintro failure (raised | ⟨_, misfit⟩)
        · cases pending.symm.trans raised
        · exact misfit fits
      rcases returns with ⟨result, returned⟩
      exact ⟨result.1, by rw [AccessCall.run, returned]; rfl⟩
  | reject requestId actor correlationId reason decidedAt cooldownUntil => exact workspace.elim
  | revoke target actor correlationId reason revokedAt =>
      rcases workspace with ⟨user, found, owns⟩
      exact (failsOnly_revokeUser found owns).exists_eq_ok fun _ => id
  | unauthorized identity action code correlationId => exact workspace.elim

section Samples

/-- No account has asked for access yet. -/
def emptyAccess : AccessDatabase where
  platformUsers := []
  accessRequests := []
  workspaces := []
  memberships := []
  destinations := []
  strategies := []
  auditLogs := []
  nextId := 0

/-- A user in the private chat. -/
def sampleIdentity : TelegramIdentity where
  telegramUserId := 99
  chatId := 99
  chatType := privateChat
  displayName := some "Tester".toList

/-- The database after the first request for access. -/
def requestedDatabase : AccessDatabase :=
  (getOrCreatePendingRequest sampleIdentity 1000 emptyAccess).1

end Samples

/-- The owner approves the first request for access. -/
theorem sampleApproval_admitted :
    ¬Violates ((AccessCall.approve 0 1 7 2000).run Json.decimal migratedPolicies
      requestedDatabase) :=
  (not_violates_run_iff (by decide)).mpr trivial

/-- The databases that the operations can produce from an empty one. -/
inductive AccessReachable (isoformat : ℤ → Text) (policies : AccessPolicies) :
    AccessDatabase → Prop
  | empty : AccessReachable isoformat policies emptyAccess
  | requested {db : AccessDatabase} (reachable : AccessReachable isoformat policies db)
      (identity : TelegramIdentity) (requestedAt : ℤ) :
      AccessReachable isoformat policies (getOrCreatePendingRequest identity requestedAt db).1
  | called {db next : AccessDatabase} (reachable : AccessReachable isoformat policies db)
      (call : AccessCall) (returned : call.run isoformat policies db = .ok next) :
      AccessReachable isoformat policies next

/-- The first request for access cannot be rejected. -/
theorem firstRejection_violates :
    ¬∀ db, AccessReachable Json.decimal migratedPolicies db → ∀ call : AccessCall,
      call.passesChecks db = true → ¬Violates (call.run Json.decimal migratedPolicies db) := by
  intro claimed
  have reachable : AccessReachable Json.decimal migratedPolicies requestedDatabase :=
    .requested .empty sampleIdentity 1000
  refine claimed requestedDatabase reachable (.reject 0 1 7 none 2000 none) (by decide)
    ⟨"audit_logs", ?_⟩
  rfl

end CopyMint
