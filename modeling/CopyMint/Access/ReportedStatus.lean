import CopyMint.Access.Authorization

/-!
# What users are told about their access

`access_status` and `request_access` answer from the user row and the latest request, while
a context depends on the workspace and the membership as well. The answers differ for a
revoked user, whose approved request remains the latest one, and for an owner who has a
user row from a decision but no workspace.
-/

namespace CopyMint

open Hexadecimal Relational RowSecurity Locking Interleaving

/-- What a user is told about access. -/
structure AccessRequestOutcome where
  state : Text
  requestId : Option ℕ
  created : Bool := false
  deriving DecidableEq

section Answers

variable (identity : TelegramIdentity) (latest : Option AccessRequest) (db : AccessDatabase)

/-- The account of the sender is active. -/
def isActiveUser : Bool :=
  (findPrincipal identity.telegramUserId db).any fun principal => principal.userStatus = .active

/-- `AccessService.access_status`, with the latest request of the account. -/
def accessStatus : Except AccessError AccessRequestOutcome := do
  identity.requirePrivateChat
  if isActiveUser identity db then .ok { state := "active".toList, requestId := none }
  else
    match latest with
    | none => .ok { state := "not_requested".toList, requestId := none }
    | some request => .ok { state := request.status.value, requestId := some request.id }

/-- `AccessService.request_access`, with the latest request of the account. -/
def requestAccess (now : ℤ) : Except AccessError (AccessDatabase × AccessRequestOutcome) := do
  identity.requirePrivateChat
  if isActiveUser identity db then .ok (db, { state := "active".toList, requestId := none })
  else
    match latest.filter fun request => request.status = .pending with
    | some request => .ok (db, { state := "pending".toList, requestId := some request.id })
    | none =>
        match latest.filter fun request => request.cooldownUntil.any (now < ·) with
        | some request => .ok (db, { state := "cooldown".toList, requestId := some request.id })
        | none =>
            let (db, record, created) := getOrCreatePendingRequest identity now db
            .ok (db, { state := "pending".toList, requestId := some record.id, created })

variable (ownerIds : List ℤ) (correlationId : ℕ)

/-- Whoever is told that access is active or approved gets a context. -/
def StatusHonoured : Prop :=
  ∀ outcome, accessStatus identity latest db = .ok outcome →
    outcome.state = "active".toList ∨ outcome.state = "approved".toList →
      ∃ context, resolveContext ownerIds identity correlationId latest db = .ok context

/-- Whoever is told to be active gets a context with a workspace. -/
def ActiveUsable (now : ℤ) : Prop :=
  ∀ next outcome, requestAccess identity latest db now = .ok (next, outcome) →
    outcome.state = "active".toList →
      ∃ context, resolveContext ownerIds identity correlationId latest db = .ok context ∧
        ∃ workspaceId, context.requireWorkspace = .ok workspaceId

end Answers

section Accounts

variable {ownerIds : List ℤ} {state : AccessState} {identity : TelegramIdentity}
  {correlationId : ℕ} {latest : Option AccessRequest} {user : PlatformUser} {db : AccessDatabase}

theorem isActiveUser_iff :
    isActiveUser identity db = true ↔
      ∃ user, db.user identity.telegramUserId = some user ∧ user.status = .active := by
  simp [isActiveUser, findPrincipal, Option.any_map, Option.any_eq_true]

theorem requirePrivateChat_of_isPrivateChat (isPrivate : identity.isPrivateChat = true) :
    identity.requirePrivateChat = .ok () := if_pos isPrivate

theorem isPrivateChat_of_requirePrivateChat {passed : Unit}
    (required : identity.requirePrivateChat = .ok passed) : identity.isPrivateChat = true := by
  rw [TelegramIdentity.requirePrivateChat] at required
  split_ifs at required with isPrivate
  exact isPrivate

/-- An active user with a workspace has an active membership in it. -/
theorem AccessSound.activeMembership (sound : AccessSound ownerIds state) {telegramUserId : ℤ}
    {workspace : Workspace} (found : state.db.user telegramUserId = some user)
    (active : user.status = .active) (owned : state.db.workspaceOf user.id = some workspace) :
    (activeMembership user.id state.db).isSome := by
  rcases sound.accounts.accounts telegramUserId user workspace found owned with ⟨good, _⟩ | out
  · rcases good.membership with ⟨row, row_eq, rowActive⟩
    have row_mem := lookup_eq_some_mem row_eq
    have workspace_mem := lookup_eq_some_mem owned
    simp only [WorkspaceMembership.key, Prod.mk.injEq] at row_mem
    simp only [CopyMint.activeMembership, List.find?_isSome]
    refine ⟨row, ?_, ?_⟩
    · refine List.mem_filter.mpr ⟨row_mem.1, ?_⟩
      simp [migratedPolicies, Policy.isolation, membershipClause, row_mem.2.2]
    · simp only [Bool.and_eq_true, decide_eq_true_eq, List.any_eq_true]
      refine ⟨⟨row_mem.2.2, rowActive⟩, workspace, List.mem_filter.mpr ⟨workspace_mem.1, ?_⟩,
        row_mem.2.1.symm, good.activeWorkspace⟩
      simp [migratedPolicies, Policy.isolation, workspaceClause, workspace_mem.2]
  · cases active.symm.trans out.revokedUser

/-- An active user in a private chat gets a context, with a membership or as an owner. -/
theorem resolveContext_of_active (isPrivate : identity.isPrivateChat = true)
    (found : db.user identity.telegramUserId = some user) (active : user.status = .active)
    (standing : (activeMembership user.id db).isSome ∨ identity.telegramUserId ∈ ownerIds) :
    ∃ context, resolveContext ownerIds identity correlationId latest db = .ok context ∧
      context.identity.isPrivateChat = true ∧
        context.workspaceId =
          (activeMembership user.id db).map WorkspaceMembership.workspaceId := by
  have admitted : ¬((activeMembership user.id db = none) ∧ identity.telegramUserId ∉ ownerIds) := by
    rintro ⟨absent, unowned⟩
    rcases standing with member | configured
    · simp [absent] at member
    · exact unowned configured
  simp only [resolveContext, requirePrivateChat_of_isPrivateChat isPrivate, findPrincipal, found,
    Option.map_some, Fallible.ok_bind, active, ne_eq, not_true_eq_false, if_false,
    Option.map_eq_none_iff, or_self, if_neg admitted]
  exact ⟨_, rfl, isPrivate, rfl⟩

theorem resolveContext_of_revoked (isPrivate : identity.isPrivateChat = true)
    (found : db.user identity.telegramUserId = some user) (revoked : user.status ≠ .active) :
    resolveContext ownerIds identity correlationId latest db =
      .error (.accessDenied "CopyMint access has been revoked.") := by
  simp only [resolveContext, requirePrivateChat_of_isPrivateChat isPrivate, findPrincipal, found,
    Option.map_some, Fallible.ok_bind, if_pos revoked]

/-- A context from a private chat passes the check if it carries a workspace. -/
theorem requireWorkspace_of_workspaceId {context : RequestContext} {workspaceId : ℕ}
    (isPrivate : context.identity.isPrivateChat = true)
    (carries : context.workspaceId = some workspaceId) :
    context.requireWorkspace = .ok workspaceId := by
  simp only [RequestContext.requireWorkspace, RequestContext.requirePrivateChat,
    requirePrivateChat_of_isPrivateChat isPrivate, Fallible.ok_bind, carries]

theorem AccessRequestStatus.eq_approved_of_value {status : AccessRequestStatus}
    (value : status.value = "active".toList ∨ status.value = "approved".toList) :
    status = .approved := by
  revert value
  cases status <;> decide

/-- Whoever has a user row but no workspace is a configured owner. -/
theorem AccessSound.standing (sound : AccessSound ownerIds state) {telegramUserId : ℤ}
    (found : state.db.user telegramUserId = some user) (active : user.status = .active) :
    (CopyMint.activeMembership user.id state.db).isSome ∨ telegramUserId ∈ ownerIds := by
  by_cases configured : telegramUserId ∈ ownerIds
  · exact .inr configured
  · rcases sound.links.users found configured with ⟨workspace, owned⟩
    exact .inl (sound.activeMembership found active owned)

/-- Who is not told to be active may be told to be approved, as the latest request is. -/
theorem accessStatus_eq_ok {outcome : AccessRequestOutcome}
    (answered : accessStatus identity latest db = .ok outcome)
    (state : outcome.state = "active".toList ∨ outcome.state = "approved".toList) :
    isActiveUser identity db = true ∨
      ∃ request, latest = some request ∧ request.status = .approved := by
  rcases Fallible.bind_eq_ok_iff.mp answered with ⟨_, _, answered⟩
  split_ifs at answered with active
  · exact .inl active
  · right
    cases latest with
    | none =>
        cases answered
        simp at state
    | some request =>
        cases answered
        exact ⟨request, rfl, AccessRequestStatus.eq_approved_of_value state⟩

theorem accessStatus_of_inactive {request : AccessRequest}
    (isPrivate : identity.isPrivateChat = true)
    (inactive : isActiveUser identity db ≠ true) :
    accessStatus identity (some request) db =
      .ok { state := request.status.value, requestId := some request.id } := by
  simp only [accessStatus, requirePrivateChat_of_isPrivateChat isPrivate, Fallible.ok_bind,
    if_neg inactive]

/-- Only active users are told to be active. -/
theorem requestAccess_eq_ok {now : ℤ} {next : AccessDatabase} {outcome : AccessRequestOutcome}
    (answered : requestAccess identity latest db now = .ok (next, outcome))
    (state : outcome.state = "active".toList) :
    identity.isPrivateChat = true ∧ isActiveUser identity db = true := by
  rcases Fallible.bind_eq_ok_iff.mp answered with ⟨_, required, answered⟩
  refine ⟨isPrivateChat_of_requirePrivateChat required, ?_⟩
  split_ifs at answered with active
  · exact active
  · split at answered
    · cases answered
      simp at state
    · split at answered <;>
        · cases answered
          simp at state

/-- A revoked user whose latest request was approved is told so, and gets no context. -/
theorem not_statusHonoured {request : AccessRequest} (isPrivate : identity.isPrivateChat = true)
    (found : db.user identity.telegramUserId = some user) (revoked : user.status = .revoked)
    (approved : request.status = .approved) :
    ¬StatusHonoured identity (some request) db ownerIds correlationId := by
  intro honoured
  have inactive : isActiveUser identity db ≠ true := by
    rw [ne_eq, isActiveUser_iff]
    rintro ⟨same, same_eq, active⟩
    cases found.symm.trans same_eq
    cases revoked.symm.trans active
  have answered : accessStatus identity (some request) db =
      .ok { state := request.status.value, requestId := some request.id } :=
    accessStatus_of_inactive isPrivate inactive
  rcases honoured _ answered (.inr (congrArg AccessRequestStatus.value approved)) with
    ⟨context, resolved⟩
  rw [resolveContext_of_revoked isPrivate found (by simp [revoked])] at resolved
  cases resolved

/-- An active user is told so, and needs a membership to make use of it. -/
theorem ActiveUsable.activeMembership {now : ℤ}
    (usable : ActiveUsable identity latest db ownerIds correlationId now)
    (isPrivate : identity.isPrivateChat = true)
    (found : db.user identity.telegramUserId = some user) (active : user.status = .active)
    (standing : (CopyMint.activeMembership user.id db).isSome ∨
      identity.telegramUserId ∈ ownerIds) :
    (CopyMint.activeMembership user.id db).isSome := by
  have answered : requestAccess identity latest db now =
      .ok (db, { state := "active".toList, requestId := none }) := by
    simp only [requestAccess, requirePrivateChat_of_isPrivateChat isPrivate, Fallible.ok_bind,
      if_pos (isActiveUser_iff.mpr ⟨user, found, active⟩)]
  rcases usable _ _ answered rfl with ⟨context, resolved, workspaceId, passed⟩
  rcases resolveContext_of_active isPrivate found active standing with ⟨same, same_eq, _, carries⟩
  cases resolved.symm.trans same_eq
  rw [workspaceId_of_requireWorkspace passed] at carries
  rcases Option.map_eq_some_iff.mp carries.symm with ⟨row, row_eq, _⟩
  rw [row_eq]
  rfl

end Accounts

section Reachable

variable {ownerIds : List ℤ} {isoformat : ℤ → Text} {auditLogs : Policy SessionSettings AuditLog}
  {world : World (Locked AccessState AccessKey) AccessProcess} {identity : TelegramIdentity}
  {latest : Option AccessRequest}

/--
In every state that is reached, what `access_status` tells an identity is honoured unless
the user is revoked and the latest request is the approved one.
-/
theorem status_honoured_iff
    (run : (accessService ownerIds isoformat auditLogs).Reaches Unrestricted initialAccess world)
    (isPrivate : identity.isPrivateChat = true)
    (isLatest : isLatestRequest identity.telegramUserId world.store.committed.db latest = true)
    (correlationId : ℕ) :
    StatusHonoured identity latest world.store.committed.db ownerIds correlationId ↔
      ¬∃ user request, world.store.committed.db.user identity.telegramUserId = some user ∧
        user.status = .revoked ∧ latest = some request ∧ request.status = .approved := by
  have sound := (accessWorld_of_reaches run).sound
  constructor
  · rintro honoured ⟨user, request, found, revoked, rfl, approved⟩
    exact not_statusHonoured isPrivate found revoked approved honoured
  · intro excluded outcome answered state
    rcases accessStatus_eq_ok answered state with active | ⟨request, rfl, approved⟩
    · rcases isActiveUser_iff.mp active with ⟨user, found, active⟩
      rcases resolveContext_of_active isPrivate found active (sound.standing found active) with
        ⟨context, resolved, _⟩
      exact ⟨context, resolved⟩
    · simp only [isLatestRequest, Bool.and_eq_true, decide_eq_true_eq] at isLatest
      rcases sound.links.approved request isLatest.1.1 approved with ⟨user, found⟩
      rw [isLatest.1.2] at found
      cases status : user.status with
      | active =>
          rcases resolveContext_of_active isPrivate found status (sound.standing found status) with
            ⟨context, resolved, _⟩
          exact ⟨context, resolved⟩
      | revoked => exact absurd ⟨user, request, found, status, rfl, approved⟩ excluded

/-- The user of the approved request is told so, and that is honoured. -/
theorem sampleApproval_honoured :
    ∃ world latest, (accessService [1] Json.decimal auditPolicy).Reaches Unrestricted initialAccess
        world ∧ isLatestRequest 99 world.store.committed.db (some latest) = true ∧
      StatusHonoured sampleIdentity (some latest) world.store.committed.db [1] 9 := by
  have reached : ((accessService [1] Json.decimal auditPolicy).execute initialAccess
      approvalSchedule).any (fun world =>
        (world.store.committed.db.accessRequests.any fun latest =>
          isLatestRequest 99 world.store.committed.db (some latest)) &&
        (world.store.committed.db.user 99).any fun user => user.status = .active) = true := by
    decide +kernel
  rcases (Option.any_eq_true _ _).mp reached with ⟨world, executed, facts⟩
  rcases Bool.and_eq_true_iff.mp facts with ⟨requested, isActive⟩
  rcases List.any_eq_true.mp requested with ⟨latest, _, isLatest⟩
  rcases (Option.any_eq_true _ _).mp isActive with ⟨user, found, active⟩
  have run := Program.reaches_of_execute executed (Program.meets_unrestricted _ _)
  refine ⟨world, latest, run, isLatest, (status_honoured_iff run rfl isLatest 9).mpr ?_⟩
  rintro ⟨same, _, same_eq, revoked, _⟩
  cases found.symm.trans same_eq
  cases revoked.symm.trans (of_decide_eq_true active)

/-- A user is approved and then revoked. -/
def revocationSchedule : List (ℕ × AccessEvent) :=
  approvalSchedule ++ decidingAs 2 (.revoke 99 none) 3000 15 none

/-- The revoked user is still told to be approved. -/
theorem revokedUser_toldApproved :
    ¬∀ world, (accessService [1] Json.decimal auditPolicy).Reaches Unrestricted initialAccess
        world → ∀ identity latest, identity.isPrivateChat = true →
      isLatestRequest identity.telegramUserId world.store.committed.db latest = true →
        ∀ correlationId,
          StatusHonoured identity latest world.store.committed.db [1] correlationId := by
  intro claimed
  have reached : ((accessService [1] Json.decimal auditPolicy).execute initialAccess
      revocationSchedule).any (fun world =>
        (world.store.committed.db.accessRequests.any fun latest =>
          isLatestRequest 99 world.store.committed.db (some latest) && latest.status = .approved) &&
        (world.store.committed.db.user 99).any fun user => user.status = .revoked) = true := by
    decide +kernel
  rcases (Option.any_eq_true _ _).mp reached with ⟨world, executed, facts⟩
  rcases Bool.and_eq_true_iff.mp facts with ⟨requested, isRevoked⟩
  rcases List.any_eq_true.mp requested with ⟨latest, _, requested⟩
  rcases Bool.and_eq_true_iff.mp requested with ⟨isLatest, approved⟩
  rcases (Option.any_eq_true _ _).mp isRevoked with ⟨user, found, revoked⟩
  have run := Program.reaches_of_execute executed (Program.meets_unrestricted _ _)
  have honoured := claimed world run sampleIdentity (some latest) rfl isLatest 9
  exact not_statusHonoured rfl found (of_decide_eq_true revoked) (of_decide_eq_true approved)
    honoured

/--
In every state that is reached, an identity that is told to be active can use that, unless
it is a configured owner with a user row and no workspace.
-/
theorem active_usable_iff
    (run : (accessService ownerIds isoformat auditLogs).Reaches Unrestricted initialAccess world)
    (identity : TelegramIdentity) (latest : Option AccessRequest) (correlationId : ℕ) (now : ℤ) :
    ActiveUsable identity latest world.store.committed.db ownerIds correlationId now ↔
      ¬(identity.isPrivateChat = true ∧ identity.telegramUserId ∈ ownerIds ∧
        ∃ user, world.store.committed.db.user identity.telegramUserId = some user ∧
          world.store.committed.db.workspaceOf user.id = none) := by
  have sound := (accessWorld_of_reaches run).sound
  constructor
  · rintro usable ⟨isPrivate, configured, user, found, unowned⟩
    have active := sound.accounts.owners found configured
    have member := usable.activeMembership isPrivate found active (.inr configured)
    rcases Option.isSome_iff_exists.mp member with ⟨row, row_eq⟩
    rcases sound.workspaceOf_activeMembership row_eq with ⟨workspace, owned, _⟩
    cases unowned.symm.trans owned
  · intro excluded next outcome answered state
    rcases requestAccess_eq_ok answered state with ⟨isPrivate, active⟩
    rcases isActiveUser_iff.mp active with ⟨user, found, active⟩
    cases owned : world.store.committed.db.workspaceOf user.id with
    | none =>
        refine absurd ⟨isPrivate, ?_, user, found, owned⟩ excluded
        by_contra unconfigured
        rcases sound.links.users found unconfigured with ⟨workspace, other⟩
        cases owned.symm.trans other
    | some workspace =>
        have member := sound.activeMembership found active owned
        rcases resolveContext_of_active isPrivate found active (.inl member) with
          ⟨context, resolved, ownChat, carries⟩
        rcases Option.isSome_iff_exists.mp member with ⟨row, row_eq⟩
        refine ⟨context, resolved, row.workspaceId, requireWorkspace_of_workspaceId ownChat ?_⟩
        rw [carries, row_eq, Option.map_some]

/-- The user whom the owner has approved can use that. -/
theorem sampleApproval_usable :
    ∃ world, (accessService [1] Json.decimal auditPolicy).Reaches Unrestricted initialAccess world ∧
      isActiveUser sampleIdentity world.store.committed.db = true ∧
        ActiveUsable sampleIdentity none world.store.committed.db [1] 9 3000 := by
  have reached : ((accessService [1] Json.decimal auditPolicy).execute initialAccess
      approvalSchedule).any (fun world =>
        isActiveUser sampleIdentity world.store.committed.db) = true := by
    decide +kernel
  rcases (Option.any_eq_true _ _).mp reached with ⟨world, executed, active⟩
  have run := Program.reaches_of_execute executed (Program.meets_unrestricted _ _)
  refine ⟨world, run, active, (active_usable_iff run sampleIdentity none 9 3000).mpr ?_⟩
  rintro ⟨_, configured, _⟩
  exact absurd configured (by decide)

/-- The owner who has approved a request is told to be active, and has no workspace. -/
theorem actingOwner_unusable :
    ¬∀ world, (accessService [1] Json.decimal auditPolicy).Reaches Unrestricted initialAccess
        world → ∀ identity latest correlationId now,
      ActiveUsable identity latest world.store.committed.db [1] correlationId now := by
  intro claimed
  have reached : ((accessService [1] Json.decimal auditPolicy).execute initialAccess
      approvalSchedule).any (fun world =>
        (world.store.committed.db.user 1).any fun user => user.status = .active &&
          (activeMembership user.id world.store.committed.db).isNone) = true := by
    decide +kernel
  rcases (Option.any_eq_true _ _).mp reached with ⟨world, executed, acted⟩
  rcases (Option.any_eq_true _ _).mp acted with ⟨user, found, facts⟩
  rcases Bool.and_eq_true_iff.mp facts with ⟨active, absent⟩
  have run := Program.reaches_of_execute executed (Program.meets_unrestricted _ _)
  have usable := claimed world run ownerIdentity none 9 3000
  have member := usable.activeMembership rfl found (of_decide_eq_true active) (.inr (by decide))
  rw [Option.isNone_iff_eq_none.mp absent] at member
  cases member

end Reachable

end CopyMint
