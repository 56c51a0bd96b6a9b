import CopyMint.Access.RowPolicies

/-!
# What access decisions leave behind

A decided request stays decided, users keep their identifiers and the audit log
only grows. After each decision its effect can therefore be read off the
database, also when other decisions have followed.
-/

namespace CopyMint

open Hexadecimal Relational RowSecurity Fallible AccessDatabase

/-- What no operation on accounts undoes. -/
structure AccountsGrow (before after : AccessDatabase) : Prop where
  decided : ∀ {requestId request}, before.request requestId = some request →
    request.status ≠ .pending →
      ∃ later, after.request requestId = some later ∧ later.status ≠ .pending
  users : ∀ {telegramUserId user}, before.user telegramUserId = some user →
    ∃ later, after.user telegramUserId = some later ∧ later.id = user.id
  audits : before.auditLogs ⊆ after.auditLogs

namespace AccountsGrow

variable {first second third : AccessDatabase}

protected theorem refl (db : AccessDatabase) : AccountsGrow db db :=
  ⟨fun found decided => ⟨_, found, decided⟩, fun found => ⟨_, found, rfl⟩, List.Subset.refl _⟩

theorem trans (begins : AccountsGrow first second) (continues : AccountsGrow second third) :
    AccountsGrow first third where
  decided := by
    intro requestId request found decided
    rcases begins.decided found decided with ⟨later, laterFound, laterDecided⟩
    exact continues.decided laterFound laterDecided
  users := by
    intro telegramUserId user found
    rcases begins.users found with ⟨later, laterFound, same⟩
    rcases continues.users laterFound with ⟨last, lastFound, lastSame⟩
    exact ⟨last, lastFound, lastSame.trans same⟩
  audits := List.Subset.trans begins.audits continues.audits

end AccountsGrow

/-- The operation touches neither users nor requests nor the audit log. -/
structure SameAccounts (before after : AccessDatabase) : Prop where
  users : after.platformUsers = before.platformUsers
  requests : after.accessRequests = before.accessRequests
  audits : after.auditLogs = before.auditLogs

namespace SameAccounts

variable {first second third : AccessDatabase}

theorem trans (begins : SameAccounts first second) (continues : SameAccounts second third) :
    SameAccounts first third :=
  ⟨continues.users.trans begins.users, continues.requests.trans begins.requests,
    continues.audits.trans begins.audits⟩

theorem request (same : SameAccounts first second) (requestId : ℕ) :
    second.request requestId = first.request requestId := by
  rw [AccessDatabase.request, same.requests, AccessDatabase.request]

theorem user (same : SameAccounts first second) (telegramUserId : ℤ) :
    second.user telegramUserId = first.user telegramUserId := by
  rw [AccessDatabase.user, same.users, AccessDatabase.user]

theorem grow (same : SameAccounts first second) : AccountsGrow first second where
  decided := fun found decided => ⟨_, (same.request _).trans found, decided⟩
  users := fun found => ⟨_, (same.user _).trans found, rfl⟩
  audits := same.audits ▸ List.Subset.refl _

end SameAccounts

section Frames

variable {isoformat : ℤ → Text} {policies : AccessPolicies} {settings : SessionSettings}
  {db next : AccessDatabase}

theorem sameAccounts_updateWorkspace {workspaceId : ℕ} {status : WorkspaceStatus}
    (returned : updateWorkspace policies settings workspaceId status db = .ok next) :
    SameAccounts db next := by
  rcases bind_eq_ok_iff.mp returned with ⟨_, _, equal⟩
  cases equal
  exact ⟨rfl, rfl, rfl⟩

theorem sameAccounts_personalWorkspace {user : PlatformUser} {workspace : Workspace}
    (returned : personalWorkspace policies settings user db = .ok (next, workspace)) :
    SameAccounts db next := by
  simp only [personalWorkspace] at returned
  split at returned
  · split_ifs at returned
    · cases returned
    · rcases bind_eq_ok_iff.mp returned with ⟨_, _, equal⟩
      cases equal
      exact ⟨rfl, rfl, rfl⟩
  · rcases bind_eq_ok_iff.mp returned with ⟨_, updated, equal⟩
    cases equal
    exact sameAccounts_updateWorkspace updated

theorem sameAccounts_activateMembership {workspaceId userId : ℕ}
    (returned : activateMembership policies settings workspaceId userId db = .ok next) :
    SameAccounts db next := by
  simp only [activateMembership] at returned
  split at returned <;>
    · rcases bind_eq_ok_iff.mp returned with ⟨_, _, equal⟩
      cases equal
      exact ⟨rfl, rfl, rfl⟩

theorem sameAccounts_enableDestination {workspaceId : ℕ} {telegramChatId : ℤ}
    (returned : enableDestination policies settings workspaceId telegramChatId db = .ok next) :
    SameAccounts db next := by
  simp only [enableDestination] at returned
  split at returned <;>
    · rcases bind_eq_ok_iff.mp returned with ⟨_, _, equal⟩
      cases equal
      exact ⟨rfl, rfl, rfl⟩

theorem sameAccounts_ensureStrategy {workspaceId : ℕ}
    (returned : ensureStrategy policies settings workspaceId db = .ok next) :
    SameAccounts db next := by
  simp only [ensureStrategy] at returned
  split at returned
  · rcases bind_eq_ok_iff.mp returned with ⟨_, _, equal⟩
    cases equal
    exact ⟨rfl, rfl, rfl⟩
  · cases returned
    exact ⟨rfl, rfl, rfl⟩

theorem sameAccounts_suspendWorkspace {workspaceId userId : ℕ} {revokedAt : ℤ}
    (returned : suspendWorkspace policies settings workspaceId userId revokedAt db = .ok next) :
    SameAccounts db next := by
  rcases bind_eq_ok_iff.mp returned with ⟨_, updated, returned⟩
  rcases bind_eq_ok_iff.mp returned with ⟨_, _, returned⟩
  rcases bind_eq_ok_iff.mp returned with ⟨_, _, equal⟩
  cases equal
  exact (sameAccounts_updateWorkspace updated).trans ⟨rfl, rfl, rfl⟩

/-- An audit row that is inserted is the only thing that changes in the accounts. -/
theorem insertAudit_eq_ok {audit : AuditLog}
    (returned : insertAudit policies settings audit db = .ok next) :
    next.platformUsers = db.platformUsers ∧ next.accessRequests = db.accessRequests ∧
      next.auditLogs = db.auditLogs ++ [audit] := by
  rcases bind_eq_ok_iff.mp returned with ⟨auditLogs, inserted, equal⟩
  cases equal
  refine ⟨rfl, rfl, ?_⟩
  simp only [secured, insertReturning] at inserted
  split_ifs at inserted
  cases inserted
  rfl

end Frames

section Accounts

variable {db : AccessDatabase}

/-- A change of a user that keeps the identifier and the Telegram account. -/
theorem accountsGrow_updateUser (telegramUserId : ℤ) {change : PlatformUser → PlatformUser}
    (sameAccount : ∀ user, (change user).telegramUserId = user.telegramUserId)
    (sameId : ∀ user, (change user).id = user.id) :
    AccountsGrow db (db.updateUser telegramUserId change) where
  decided := fun found decided => ⟨_, found, decided⟩
  users := by
    intro account user found
    simp only [AccessDatabase.user] at found
    simp only [AccessDatabase.user, updateUser, lookup_updateWhere sameAccount, found]
    by_cases selected : user.telegramUserId = telegramUserId <;> simp [selected, sameId]
  audits := List.Subset.refl _

theorem accountsGrow_insertUser (user : PlatformUser) : AccountsGrow db (db.insertUser user) where
  decided := fun found decided => ⟨_, found, decided⟩
  users := by
    intro account other found
    simp only [AccessDatabase.user] at found
    exact ⟨other, by simp [AccessDatabase.user, insertUser, lookup_append, found], rfl⟩
  audits := List.Subset.refl _

theorem accountsGrow_updateRequest {requestId : ℕ} {change : AccessRequest → AccessRequest}
    (sameId : ∀ request, (change request).id = request.id)
    (decides : ∀ request, (change request).status ≠ .pending) :
    AccountsGrow db (db.updateRequest requestId change) where
  decided := by
    intro other request found decided
    simp only [AccessDatabase.request] at found
    simp only [AccessDatabase.request, updateRequest, lookup_updateWhere sameId, found]
    by_cases selected : request.id = requestId <;> simp [selected, decides, decided]
  users := fun found => ⟨_, found, rfl⟩
  audits := List.Subset.refl _

theorem accountsGrow_platformActor (db : AccessDatabase) (telegramUserId now : ℤ) :
    AccountsGrow db (platformActor telegramUserId now db).1 := by
  simp only [platformActor]
  split
  · split_ifs
    · exact accountsGrow_updateUser _ (fun _ => rfl) fun _ => rfl
    · exact .refl db
  · exact accountsGrow_insertUser _

theorem accountsGrow_approvedUser (accessRequest : AccessRequest) (actorId : ℕ) (decidedAt : ℤ) :
    AccountsGrow db (approvedUser accessRequest actorId decidedAt db).1 := by
  simp only [approvedUser]
  split
  · exact accountsGrow_insertUser _
  · exact accountsGrow_updateUser _ (fun _ => rfl) fun _ => rfl

theorem accountsGrow_insertAudit {policies : AccessPolicies} {settings : SessionSettings}
    {audit : AuditLog} {next : AccessDatabase}
    (returned : insertAudit policies settings audit db = .ok next) : AccountsGrow db next := by
  rcases insertAudit_eq_ok returned with ⟨users, requests, audits⟩
  refine ⟨fun found decided => ⟨_, ?_, decided⟩, fun found => ⟨_, ?_, rfl⟩, ?_⟩
  · rw [AccessDatabase.request, requests]
    exact found
  · rw [AccessDatabase.user, users]
    exact found
  · rw [audits]
    exact List.subset_append_left _ _

end Accounts

section Calls

variable {isoformat : ℤ → Text} {policies : AccessPolicies} {db next : AccessDatabase}

theorem pendingRequest_eq_ok {requestId : ℕ} {accessRequest : AccessRequest}
    (found : pendingRequest requestId db = .ok accessRequest) :
    db.request requestId = some accessRequest := by
  simp only [pendingRequest] at found
  split at found
  · cases found
  · split_ifs at found
    cases found
    assumption

theorem request_updateRequest {requestId : ℕ} {change : AccessRequest → AccessRequest}
    (sameId : ∀ request, (change request).id = request.id) :
    (db.updateRequest requestId change).request requestId =
      (db.request requestId).map change := by
  simp only [AccessDatabase.request, updateRequest, lookup_updateWhere sameId]
  cases found : lookup AccessRequest.id requestId db.accessRequests with
  | none => rfl
  | some request => simp [(lookup_eq_some_mem found).2]

/-- Creating or updating the user of a request touches no request. -/
theorem request_approvedUser {accessRequest : AccessRequest} {actorId : ℕ} {decidedAt : ℤ}
    (requestId : ℕ) :
    (approvedUser accessRequest actorId decidedAt db).1.request requestId =
      db.request requestId := by
  simp only [approvedUser]
  split <;> rfl

/-- A request that is decided and audited has been decided. -/
theorem decided_of_insertAudit {settings : SessionSettings} {audit : AuditLog} {requestId : ℕ}
    {change : AccessRequest → AccessRequest} {accessRequest : AccessRequest}
    (audited : insertAudit policies settings audit (db.updateRequest requestId change) = .ok next)
    (found : db.request requestId = some accessRequest)
    (sameId : ∀ request, (change request).id = request.id)
    (decides : ∀ request, (change request).status ≠ .pending) :
    AccountsGrow db next ∧
      ∃ request, next.request requestId = some request ∧ request.status ≠ .pending := by
  have grows := accountsGrow_insertAudit audited
  constructor
  · exact (accountsGrow_updateRequest sameId decides).trans grows
  · refine grows.decided ?_ (decides accessRequest)
    rw [request_updateRequest sameId, found]
    rfl

/-- An approval leaves its request decided. -/
theorem approveRequest_eq_ok {requestId : ℕ} {actorTelegramUserId : ℤ} {correlationId : ℕ}
    {decidedAt : ℤ} {result : AccessDecisionResult}
    (returned : approveRequest policies requestId actorTelegramUserId correlationId decidedAt db =
      .ok (next, result)) :
    AccountsGrow db next ∧
      ∃ request, next.request requestId = some request ∧ request.status ≠ .pending := by
  simp only [approveRequest] at returned
  rcases bind_eq_ok_iff.mp returned with ⟨accessRequest, pending, returned⟩
  rcases bind_eq_ok_iff.mp returned with ⟨⟨_, workspace⟩, owned, returned⟩
  rcases bind_eq_ok_iff.mp returned with ⟨_, joined, returned⟩
  rcases bind_eq_ok_iff.mp returned with ⟨_, notified, returned⟩
  rcases bind_eq_ok_iff.mp returned with ⟨prepared, configured, returned⟩
  rcases bind_eq_ok_iff.mp returned with ⟨_, audited, equal⟩
  cases equal
  have same := (((sameAccounts_personalWorkspace owned).trans
    (sameAccounts_activateMembership joined)).trans
    (sameAccounts_enableDestination notified)).trans (sameAccounts_ensureStrategy configured)
  have found : prepared.request requestId = some accessRequest := by
    rw [same.request, request_approvedUser]
    exact pendingRequest_eq_ok pending
  rcases decided_of_insertAudit audited found (fun _ => rfl)
    (fun _ impossible => by cases impossible) with ⟨grows, decided⟩
  exact ⟨(((accountsGrow_platformActor _ _ _).trans (accountsGrow_approvedUser _ _ _)).trans
    same.grow).trans grows, decided⟩

/-- A rejection leaves its request decided. -/
theorem rejectRequest_eq_ok {requestId : ℕ} {actorTelegramUserId : ℤ} {correlationId : ℕ}
    {reason : Option Text} {decidedAt : ℤ} {cooldownUntil : Option ℤ}
    {result : AccessDecisionResult}
    (returned : rejectRequest isoformat policies requestId actorTelegramUserId correlationId reason
      decidedAt cooldownUntil db = .ok (next, result)) :
    AccountsGrow db next ∧
      ∃ request, next.request requestId = some request ∧ request.status ≠ .pending := by
  simp only [rejectRequest] at returned
  rcases bind_eq_ok_iff.mp returned with ⟨accessRequest, pending, returned⟩
  rcases bind_eq_ok_iff.mp returned with ⟨_, audited, equal⟩
  cases equal
  rcases decided_of_insertAudit audited (pendingRequest_eq_ok pending) (fun _ => rfl)
    (fun _ impossible => by cases impossible) with ⟨grows, decided⟩
  exact ⟨(accountsGrow_platformActor _ _ _).trans grows, decided⟩

/-- The audit log says that a user has been revoked. -/
def Revoked (telegramUserId : ℤ) (db : AccessDatabase) : Prop :=
  ∃ user, db.user telegramUserId = some user ∧ ∃ audit ∈ db.auditLogs,
    audit.action = "platform_user_revoked".toList ∧ audit.resourceId = uuidText user.id

theorem revoked_of_insertAudit {settings : SessionSettings} {audit : AuditLog}
    {telegramUserId : ℤ} {change : PlatformUser → PlatformUser} {user : PlatformUser}
    (audited : insertAudit policies settings audit (db.updateUser telegramUserId change) = .ok next)
    (found : db.user telegramUserId = some user)
    (sameAccount : ∀ user, (change user).telegramUserId = user.telegramUserId)
    (sameId : ∀ user, (change user).id = user.id)
    (action : audit.action = "platform_user_revoked".toList)
    (resource : audit.resourceId = uuidText user.id) :
    AccountsGrow db next ∧ Revoked telegramUserId next := by
  have grows := (accountsGrow_updateUser telegramUserId sameAccount sameId).trans
    (accountsGrow_insertAudit audited)
  rcases grows.users found with ⟨later, laterFound, same⟩
  refine ⟨grows, later, laterFound, audit, ?_, action, same ▸ resource⟩
  rw [(insertAudit_eq_ok audited).2.2]
  exact List.mem_append_right _ (List.mem_singleton_self audit)

/-- A revocation leaves its audit row. -/
theorem revokeUser_eq_ok {targetTelegramUserId actorTelegramUserId : ℤ} {correlationId : ℕ}
    {reason : Option Text} {revokedAt : ℤ}
    (returned : revokeUser policies targetTelegramUserId actorTelegramUserId correlationId reason
      revokedAt db = .ok next) :
    AccountsGrow db next ∧ Revoked targetTelegramUserId next := by
  simp only [revokeUser] at returned
  split at returned
  · cases returned
  · rename_i user found
    have acts := accountsGrow_platformActor db actorTelegramUserId revokedAt
    split at returned
    · rcases revoked_of_insertAudit returned found (fun _ => rfl) (fun _ => rfl) rfl rfl with
        ⟨grows, revoked⟩
      exact ⟨acts.trans grows, revoked⟩
    · rcases bind_eq_ok_iff.mp returned with ⟨_, suspended, audited⟩
      have same := sameAccounts_suspendWorkspace suspended
      rcases revoked_of_insertAudit audited ((same.user _).trans found) (fun _ => rfl)
        (fun _ => rfl) rfl rfl with ⟨grows, revoked⟩
      exact ⟨(acts.trans same.grow).trans grows, revoked⟩

theorem Revoked.grow {telegramUserId : ℤ} (revoked : Revoked telegramUserId db)
    (grows : AccountsGrow db next) : Revoked telegramUserId next := by
  rcases revoked with ⟨user, found, audit, audit_mem, action, resource⟩
  rcases grows.users found with ⟨later, laterFound, same⟩
  exact ⟨later, laterFound, audit, grows.audits audit_mem, action, same ▸ resource⟩

namespace AccessCall

/-- The effect of a call can be read off the database. -/
def TookEffect (db : AccessDatabase) : AccessCall → Prop
  | approve requestId _ _ _ | reject requestId _ _ _ _ _ =>
      ∃ request, db.request requestId = some request ∧ request.status ≠ .pending
  | revoke target _ _ _ _ => Revoked target db
  | unauthorized _ _ _ _ => True

/-- A call that returns has taken effect, and has undone nothing. -/
theorem run_eq_ok {call : AccessCall} (returned : call.run isoformat policies db = .ok next) :
    AccountsGrow db next ∧ call.TookEffect next := by
  cases call with
  | approve requestId actor correlationId decidedAt =>
      rcases map_eq_ok_iff.mp returned with ⟨⟨_, result⟩, approved, rfl⟩
      exact approveRequest_eq_ok approved
  | reject requestId actor correlationId reason decidedAt cooldownUntil =>
      rcases map_eq_ok_iff.mp returned with ⟨⟨_, result⟩, rejected, rfl⟩
      exact rejectRequest_eq_ok rejected
  | revoke target actor correlationId reason revokedAt => exact revokeUser_eq_ok returned
  | unauthorized identity action code correlationId =>
      exact ⟨accountsGrow_insertAudit returned, trivial⟩

theorem TookEffect.grow {call : AccessCall} (took : call.TookEffect db)
    (grows : AccountsGrow db next) : call.TookEffect next := by
  cases call with
  | approve | reject =>
      rcases took with ⟨request, found, decided⟩
      exact grows.decided found decided
  | revoke => exact Revoked.grow took grows
  | unauthorized => trivial

end AccessCall

end Calls

end CopyMint
