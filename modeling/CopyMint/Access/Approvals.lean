import CopyMint.Access.Agreement
import CopyMint.Access.Constraints

/-!
# Which requests can be approved

A request stores a name of up to 255 characters, and the workspace that its approval
creates takes a name of 120, twelve of which are not the user's. The approval of a pending
request commits in a state that can be reached exactly if the user has a workspace already
or if the name leaves room for the rest.
-/

namespace CopyMint

open Hexadecimal Relational RowSecurity Fallible AccessDatabase AbiEncoding Interleaving Locking

/-- The transaction returns, and the database that it leaves satisfies its constraints. -/
def Commits (db : AccessDatabase)
    (result : Except AccessFailure (AccessDatabase × AccessDecisionResult)) : Prop :=
  ∃ next decision, result = .ok (next, decision) ∧ (Constraints db → Constraints next)

/-- The user of a Telegram account has a personal workspace. -/
def OwnsWorkspace (telegramUserId : ℤ) (db : AccessDatabase) : Prop :=
  ∃ user, db.user telegramUserId = some user ∧
    ∃ workspace ∈ db.workspaces, workspace.personalOwnerUserId = user.id

/-- What a workspace is named after: the name of the request, or its user name or number. -/
def AccessRequest.label (row : AccessRequest) : Text :=
  ((nonempty row.displayName).or (nonempty row.username)).getD (Json.decimal row.telegramUserId)

variable {db next : AccessDatabase} {requestId : ℕ} {actor decidedAt : ℤ} {correlationId : ℕ}
  {row : AccessRequest} {result : AccessDecisionResult}

section Constraints

theorem length_uuidText (id : ℕ) : (uuidText id).length = 36 := by
  simp [uuidText]

theorem length_decimal_le {value : ℤ} (big : IsBigInteger value) :
    (Json.decimal value).length ≤ 20 := by
  have digits : (Nat.toDigits 10 value.natAbs).length ≤ 19 := by
    rw [Nat.length_toDigits_le_iff (by omega) (by omega)]
    simp only [IsBigInteger] at big
    omega
  simp only [Json.decimal]
  split_ifs
  · simp only [List.length_cons]
    omega
  · omega

/-- The audit row of an approval fits. -/
theorem fits_approvalAudit {id workspaceId userId : ℕ} (big : IsBigInteger actor)
    (workspace : db.HasWorkspace workspaceId) :
    (approvalAudit id workspaceId userId requestId actor correlationId).Fits db := by
  constructor
  · intro other same
    cases same
    exact workspace
  · exact (length_decimal_le big).trans (by omega)
  · exact show "access_request_approved".toList.length ≤ 128 by decide
  · exact show "access_request".toList.length ≤ 64 by decide
  · simp only [approvalAudit, length_uuidText]
    omega

/-- What an approval writes satisfies the constraints. -/
theorem approveRequest_constraints (big : IsBigInteger actor) (constraints : Constraints db)
    (returned : approveRequest migratedPolicies requestId actor correlationId decidedAt db =
      .ok (next, result)) : Constraints next := by
  simp only [approveRequest] at returned
  rcases bind_eq_ok_iff.mp returned with ⟨row, pending, returned⟩
  rcases bind_eq_ok_iff.mp returned with ⟨⟨owning, workspace⟩, owned, returned⟩
  rcases bind_eq_ok_iff.mp returned with ⟨joining, joined, returned⟩
  rcases bind_eq_ok_iff.mp returned with ⟨notifying, notified, returned⟩
  rcases bind_eq_ok_iff.mp returned with ⟨configuring, configured, returned⟩
  rcases bind_eq_ok_iff.mp returned with ⟨_, audited, equal⟩
  cases equal
  rcases @keeps_platformActor db actor decidedAt big with ⟨acting, actorHas⟩
  have acted := acting.constraints constraints
  have row_mem := (lookup_eq_some_mem (pendingRequest_eq_ok pending)).1
  have rowFits := acted.requests.valid row row_mem
  rcases @keeps_approvedUser _ row _ decidedAt rowFits actorHas with ⟨approving, userHas⟩
  rcases keeps_personalWorkspace rfl userHas owned with ⟨creating, workspaceHas⟩
  have userKept := creating.retains.users _ userHas
  have joins := keeps_activateMembership rfl workspaceHas userKept joined
  have workspaceJoined := joins.retains.workspaces _ workspaceHas
  have notifies := keeps_enableDestination rfl workspaceJoined rowFits.telegramUserId notified
  have workspaceNotified := notifies.retains.workspaces _ workspaceJoined
  have configures := keeps_ensureStrategy rfl workspaceNotified configured
  have workspaceConfigured := configures.retains.workspaces _ workspaceNotified
  have before := ((approving.trans creating).trans joins).trans (notifies.trans configures)
  have decides := @keeps_decideRequest configuring requestId _ decidedAt
    (before.retains.users _ actorHas)
  have audits := keeps_insertAudit
    (fits_approvalAudit big (decides.retains.workspaces _ workspaceConfigured)) rfl audited
  exact ((before.trans decides).trans audits).constraints acted

end Constraints

section Names

/-- Acting keeps the identifiers of users, or inserts the actor under the next one. -/
theorem user_platformActor (db : AccessDatabase) (actor decidedAt telegramUserId : ℤ) :
    let acting := (platformActor actor decidedAt db).1
    (db.user telegramUserId = none ∧ acting.user telegramUserId = none ∧
        db.nextId ≤ acting.nextId) ∨
      ∃ user, acting.user telegramUserId = some user ∧
        ((∃ old, db.user telegramUserId = some old ∧ user.id = old.id) ∨
          db.user telegramUserId = none ∧ user.id = db.nextId) := by
  simp only [platformActor]
  cases acts : db.user actor with
  | none =>
      simp only [AccessDatabase.user, insertUser] at acts ⊢
      by_cases same : telegramUserId = actor
      · rw [same, acts]
        exact .inr ⟨_, lookup_append_new rfl acts, .inr ⟨rfl, rfl⟩⟩
      · rw [lookup_append_other (Ne.symm same)]
        cases lookup PlatformUser.telegramUserId telegramUserId db.platformUsers with
        | none => exact .inl ⟨rfl, rfl, Nat.le_succ _⟩
        | some user => exact .inr ⟨user, rfl, .inl ⟨user, rfl, rfl⟩⟩
  | some old =>
      dsimp only
      split_ifs
      · have kept : ∀ row, (reactivated row).telegramUserId = row.telegramUserId := fun _ => rfl
        simp only [AccessDatabase.user, updateUser]
        rw [lookup_updateWhere kept]
        cases lookup PlatformUser.telegramUserId telegramUserId db.platformUsers with
        | none => exact .inl ⟨rfl, rfl, le_rfl⟩
        | some user =>
            refine .inr ⟨_, rfl, .inl ⟨user, rfl, ?_⟩⟩
            dsimp only
            split_ifs <;> rfl
      · cases db.user telegramUserId with
        | none => exact .inl ⟨rfl, rfl, le_rfl⟩
        | some user => exact .inr ⟨user, rfl, .inl ⟨user, rfl, rfl⟩⟩

/-- The user of a request keeps an identifier, or gets one that has not been drawn. -/
theorem id_approvedUser (db : AccessDatabase) (row : AccessRequest) (actor decidedAt : ℤ)
    (actorId : ℕ) :
    let approving := approvedUser row actorId decidedAt (platformActor actor decidedAt db).1
    (∃ user, db.user row.telegramUserId = some user ∧ approving.2.id = user.id) ∨
      db.user row.telegramUserId = none ∧ db.nextId ≤ approving.2.id := by
  simp only [approvedUser]
  rcases user_platformActor db actor decidedAt row.telegramUserId with
    ⟨unknown, absent, later⟩ | ⟨user, found, origin⟩
  · rw [absent]
    exact .inr ⟨unknown, later⟩
  · rw [found]
    rcases origin with ⟨old, known, same⟩ | ⟨unknown, new⟩
    · exact .inl ⟨old, known, same⟩
    · exact .inr ⟨unknown, new.ge⟩

theorem workspaces_approvedUser (db : AccessDatabase) (row : AccessRequest) (actorId : ℕ)
    (decidedAt : ℤ) : (approvedUser row actorId decidedAt db).1.workspaces = db.workspaces := by
  simp only [approvedUser]
  split <;> rfl

theorem workspaceName_approvedUser (db : AccessDatabase) (row : AccessRequest) (actorId : ℕ)
    (decidedAt : ℤ) :
    (workspaceName (approvedUser row actorId decidedAt db).2).length = row.label.length + 12 := by
  have fields : workspaceLabel (approvedUser row actorId decidedAt db).2 = row.label := by
    simp only [approvedUser]
    split
    · rfl
    · rename_i user found
      simp only [workspaceLabel, approved, AccessRequest.label]
      rw [(lookup_eq_some_mem found).2]
  have suffix : "'s workspace".toList.length = 12 := by decide
  rw [workspaceName, fields, List.length_append, suffix]

/-- A pending request can be named if its user has a workspace, or a name that is short enough. -/
theorem nameFits_iff (drawn : Drawn db) (pending : pendingRequest requestId db = .ok row) :
    NameFits requestId actor decidedAt db ↔
      OwnsWorkspace row.telegramUserId db ∨ row.label.length ≤ 108 := by
  generalize acts : platformActor actor decidedAt db = acting
  generalize approves : approvedUser row acting.2.id decidedAt acting.1 = approving
  have identifier := id_approvedUser db row actor decidedAt acting.2.id
  have workspaces := workspaces_approvedUser acting.1 row acting.2.id decidedAt
  have length := workspaceName_approvedUser acting.1 row acting.2.id decidedAt
  have acted := workspaces_platformActor db actor decidedAt
  simp only [acts, approves] at identifier workspaces length acted
  have unlocked_iff : lockedWorkspace migratedPolicies { userId := some approving.2.id }
      approving.2.id approving.1 = none ↔
        ∀ workspace ∈ db.workspaces, workspace.personalOwnerUserId ≠ approving.2.id := by
    rw [lockedWorkspace_eq_none_iff rfl, workspaces, acted]
  have named : NameFits requestId actor decidedAt db ↔
      ((∀ workspace ∈ db.workspaces, workspace.personalOwnerUserId ≠ approving.2.id) →
        row.label.length ≤ 108) := by
    simp only [NameFits, pending, Except.ok.injEq, forall_eq', acts, approves, unlocked_iff, length]
    exact imp_congr_right fun _ => by omega
  rw [named]
  generalize approving.2.id = userId at identifier
  rcases identifier with ⟨user, known, rfl⟩ | ⟨unknown, new⟩
  · have owns_iff : OwnsWorkspace row.telegramUserId db ↔
        ∃ workspace ∈ db.workspaces, workspace.personalOwnerUserId = user.id := by
      simp [OwnsWorkspace, known]
    rw [owns_iff, imp_iff_not_or]
    simp
  · have unowned : ∀ workspace ∈ db.workspaces, workspace.personalOwnerUserId ≠ userId := by
      intro workspace workspace_mem same
      have owner := drawn.owners workspace workspace_mem
      omega
    have without : ¬OwnsWorkspace row.telegramUserId db := by
      rintro ⟨user, known, _⟩
      cases unknown.symm.trans known
    rw [or_iff_right without]
    exact forall_prop_of_true unowned

/-- An approval that returns has found a workspace or named one. -/
theorem nameFits_of_approveRequest
    (returned : approveRequest migratedPolicies requestId actor correlationId decidedAt db =
      .ok (next, result)) : NameFits requestId actor decidedAt db := by
  simp only [approveRequest, pendingRequest_platformActor] at returned
  rcases bind_eq_ok_iff.mp returned with ⟨row, pending, returned⟩
  rcases bind_eq_ok_iff.mp returned with ⟨_, owned, _⟩
  intro other found
  cases pending.symm.trans found
  intro acting approving unlocked
  simp only [personalWorkspace] at owned
  rw [unlocked] at owned
  dsimp only at owned
  split_ifs at owned with tooLong
  · cases owned
  · exact not_lt.mp tooLong

end Names

variable {ownerIds : List ℤ} {isoformat : ℤ → Text} {auditLogs : Policy SessionSettings AuditLog}
  {world : World (Locked AccessState AccessKey) AccessProcess}

/--
In every state that is reached, the approval of a pending request commits exactly if its
user has a workspace, or a name of at most 108 characters.
-/
theorem approval_commits_iff
    (run : (accessService ownerIds isoformat auditLogs).Reaches Unrestricted initialAccess world)
    (pending : pendingRequest requestId world.store.committed.db = .ok row)
    (big : IsBigInteger actor) (correlationId : ℕ) (decidedAt : ℤ) :
    Commits world.store.committed.db
        (approveRequest migratedPolicies requestId actor correlationId decidedAt
          world.store.committed.db) ↔
      OwnsWorkspace row.telegramUserId world.store.committed.db ∨ row.label.length ≤ 108 := by
  have drawn := (accessWorld_of_reaches run).drawn
  rw [← @nameFits_iff _ requestId actor decidedAt row drawn pending]
  constructor
  · rintro ⟨next, decision, returned, _⟩
    exact nameFits_of_approveRequest returned
  · intro fits
    have fails := @failsOnly_approveRequest world.store.committed.db requestId actor correlationId
      decidedAt
    have returns : ∃ value, approveRequest migratedPolicies requestId actor correlationId decidedAt
        world.store.committed.db = .ok value := by
      refine fails.exists_eq_ok ?_
      rintro failure (raised | ⟨_, misfit⟩)
      · cases pending.symm.trans raised
      · exact misfit fits
    rcases returns with ⟨⟨next, decision⟩, returned⟩
    refine ⟨next, decision, returned, fun constraints => ?_⟩
    exact approveRequest_constraints big constraints returned

section Samples

/-- The sample user under a name of 120 characters. -/
def longNamedIdentity : TelegramIdentity :=
  { sampleIdentity with displayName := some (List.replicate 120 'x') }

theorem eq_ok_of_toOption {ε α : Type} {result : Except ε α} {value : α}
    (found : result.toOption = some value) : result = .ok value := by
  cases result with
  | error => cases found
  | ok other =>
      cases found
      rfl

end Samples

/-- The owner can approve the request of the sample user. -/
theorem sampleApproval_commits :
    ∃ world, (accessService [1] Json.decimal auditPolicy).Reaches Unrestricted initialAccess world ∧
      Commits world.store.committed.db
        (approveRequest migratedPolicies 0 1 7 2000 world.store.committed.db) := by
  have reached : ((accessService [1] Json.decimal auditPolicy).execute initialAccess
      (requesting 0 sampleIdentity none 1000)).any (fun world =>
        (pendingRequest 0 world.store.committed.db).toOption.any
          fun row => row.label.length ≤ 108) = true := by
    decide +kernel
  rcases (Option.any_eq_true _ _).mp reached with ⟨world, executed, short⟩
  rcases (Option.any_eq_true _ _).mp short with ⟨row, found, short⟩
  have run := Program.reaches_of_execute executed (Program.meets_unrestricted _ _)
  have pending := eq_ok_of_toOption found
  refine ⟨world, run, (approval_commits_iff run pending (by decide) 7 2000).mpr (.inr ?_)⟩
  exact of_decide_eq_true short

/-- The approval of a name of 120 characters raises. -/
theorem longName_notApproved :
    ¬∀ world, (accessService [1] Json.decimal auditPolicy).Reaches Unrestricted initialAccess
        world → ∀ requestId row, pendingRequest requestId world.store.committed.db = .ok row →
      (∀ name ∈ row.username, name.length ≤ 64) → (∀ name ∈ row.displayName, name.length ≤ 255) →
      Commits world.store.committed.db
        (approveRequest migratedPolicies requestId 1 7 2000 world.store.committed.db) := by
  intro claimed
  have reached : ((accessService [1] Json.decimal auditPolicy).execute initialAccess
      (requesting 0 longNamedIdentity none 1000)).any (fun world =>
        (pendingRequest 0 world.store.committed.db).toOption.any (fun row =>
          row.username.all (·.length ≤ 64) && row.displayName.all (·.length ≤ 255)) &&
        !(approveRequest migratedPolicies 0 1 7 2000 world.store.committed.db).isOk) = true := by
    decide +kernel
  rcases (Option.any_eq_true _ _).mp reached with ⟨world, executed, raises⟩
  rw [Bool.and_eq_true] at raises
  rcases raises with ⟨stored, raises⟩
  rcases (Option.any_eq_true _ _).mp stored with ⟨row, found, fits⟩
  simp only [Bool.and_eq_true, Option.all_eq_true, decide_eq_true_eq] at fits
  have run := Program.reaches_of_execute executed (Program.meets_unrestricted _ _)
  rcases claimed world run 0 row (eq_ok_of_toOption found) fits.1 fits.2 with
    ⟨next, decision, returned, _⟩
  rw [returned] at raises
  cases raises

end CopyMint
