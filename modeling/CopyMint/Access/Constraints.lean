import CopyMint.Access.Outcomes
import CopyMint.Library.TableConstraints

/-!
# The constraints of the access tables

Columns of text have a length, Telegram's identifiers are integers of 64 bits, references
point to rows that exist, and keys are unique. The parts of an approval keep all of this:
what they insert is new and fits, and what they rewrite keeps its keys.
-/

namespace CopyMint

open Hexadecimal Relational RowSecurity Fallible AccessDatabase

/-- A value that a column of type `BigInteger` can hold. -/
def IsBigInteger (value : ℤ) : Prop := -2 ^ 63 ≤ value ∧ value < 2 ^ 63

instance (value : ℤ) : Decidable (IsBigInteger value) := inferInstanceAs (Decidable (_ ∧ _))

namespace AccessDatabase

/-- There is an account with the number. -/
def HasUser (db : AccessDatabase) : ℕ → Prop := Has PlatformUser.id db.platformUsers

/-- There is a workspace with the number. -/
def HasWorkspace (db : AccessDatabase) : ℕ → Prop := Has Workspace.id db.workspaces

/-- What has been drawn and what can be referred to remains so. -/
structure Retains (before after : AccessDatabase) : Prop where
  users : ∀ id, before.HasUser id → after.HasUser id
  workspaces : ∀ id, before.HasWorkspace id → after.HasWorkspace id
  nextId : before.nextId ≤ after.nextId

theorem Retains.refl (db : AccessDatabase) : Retains db db := ⟨fun _ => id, fun _ => id, le_rfl⟩

theorem Retains.trans {first second third : AccessDatabase} (begins : Retains first second)
    (continues : Retains second third) : Retains first third :=
  ⟨fun id has => continues.users id (begins.users id has),
    fun id has => continues.workspaces id (begins.workspaces id has),
    begins.nextId.trans continues.nextId⟩

end AccessDatabase

variable (db : AccessDatabase)

/-- What the constraints of `platform_users` ask of a row, apart from its unique keys. -/
structure PlatformUser.Fits (row : PlatformUser) : Prop where
  telegramUserId : IsBigInteger row.telegramUserId
  username : ∀ text ∈ row.username, text.length ≤ 64
  displayName : ∀ text ∈ row.displayName, text.length ≤ 255
  approvedBy : ∀ id ∈ row.approvedByUserId, db.HasUser id
  revokedBy : ∀ id ∈ row.revokedByUserId, db.HasUser id

/-- What the constraints of `access_requests` ask of a row, apart from its unique keys. -/
structure AccessRequest.Fits (row : AccessRequest) : Prop where
  telegramUserId : IsBigInteger row.telegramUserId
  username : ∀ text ∈ row.username, text.length ≤ 64
  displayName : ∀ text ∈ row.displayName, text.length ≤ 255
  decidedBy : ∀ id ∈ row.decidedByUserId, db.HasUser id

/-- What the constraints of `workspaces` ask of a row, apart from its unique keys. -/
structure Workspace.Fits (row : Workspace) : Prop where
  name : row.name.length ≤ 120
  owner : db.HasUser row.personalOwnerUserId

/-- What the constraints of `workspace_memberships` ask of a row, apart from its unique keys. -/
structure WorkspaceMembership.Fits (row : WorkspaceMembership) : Prop where
  workspace : db.HasWorkspace row.workspaceId
  user : db.HasUser row.userId

/-- What the constraints of `notification_destinations` ask of a row, apart from its unique keys. -/
structure NotificationDestination.Fits (row : NotificationDestination) : Prop where
  workspace : db.HasWorkspace row.workspaceId
  telegramChatId : IsBigInteger row.telegramChatId
  chatType : row.chatType.length ≤ 16

/-- What the constraints of `workspace_strategies` ask of a row, apart from its unique keys. -/
structure WorkspaceStrategy.Fits (row : WorkspaceStrategy) : Prop where
  workspace : db.HasWorkspace row.workspaceId
  version : 0 < row.version

/-- What the constraints of `audit_logs` ask of a row. -/
structure AuditLog.Fits (row : AuditLog) : Prop where
  workspace : ∀ id ∈ row.workspaceId, db.HasWorkspace id
  actorId : row.actorId.length ≤ 128
  action : row.action.length ≤ 128
  resourceType : row.resourceType.length ≤ 64
  resourceId : row.resourceId.length ≤ 128

/-- The tables satisfy their constraints, with their references into another state. -/
structure ConstraintsOver (target : AccessDatabase) (db : AccessDatabase) : Prop where
  users : Admitted (PlatformUser.Fits target) PlatformUser.id PlatformUser.telegramUserId
    target.nextId db.platformUsers
  requests : Admitted (AccessRequest.Fits target) AccessRequest.id AccessRequest.id
    target.nextId db.accessRequests
  /-- `uq_access_requests_one_pending_per_telegram_user`. -/
  pending : Unique AccessRequest.telegramUserId
    (db.accessRequests.filter fun row => row.status = .pending)
  workspaces : Admitted (Workspace.Fits target) Workspace.id Workspace.personalOwnerUserId
    target.nextId db.workspaces
  memberships : Admitted (WorkspaceMembership.Fits target) WorkspaceMembership.id
    (fun row => (row.workspaceId, row.userId)) target.nextId db.memberships
  destinations : Admitted (NotificationDestination.Fits target) NotificationDestination.id
    (fun row => (row.workspaceId, row.telegramChatId)) target.nextId db.destinations
  strategies : Admitted (WorkspaceStrategy.Fits target) WorkspaceStrategy.id
    (fun row => (row.workspaceId, row.version)) target.nextId db.strategies
  auditLogs : Admitted (AuditLog.Fits target) AuditLog.id AuditLog.id target.nextId db.auditLogs

/-- The constraints of the access tables hold. -/
def Constraints (db : AccessDatabase) : Prop := ConstraintsOver db db

variable {db}

section Extension

variable {target later next : AccessDatabase}

theorem PlatformUser.Fits.mono {row : PlatformUser} (fits : row.Fits target)
    (retains : Retains target later) : row.Fits later :=
  { fits with
    approvedBy := fun id found => retains.users id (fits.approvedBy id found)
    revokedBy := fun id found => retains.users id (fits.revokedBy id found) }

/-- References that have been in order are so once there is more to refer to. -/
theorem ConstraintsOver.mono (constraints : ConstraintsOver target db)
    (retains : Retains target later) : ConstraintsOver later db where
  users := constraints.users.mono (fun _ fits => fits.mono retains) retains.nextId
  requests := constraints.requests.mono
    (fun _ fits => { fits with
      decidedBy := fun id found => retains.users id (fits.decidedBy id found) }) retains.nextId
  pending := constraints.pending
  workspaces := constraints.workspaces.mono
    (fun _ fits => ⟨fits.name, retains.users _ fits.owner⟩) retains.nextId
  memberships := constraints.memberships.mono
    (fun _ fits => ⟨retains.workspaces _ fits.workspace, retains.users _ fits.user⟩)
    retains.nextId
  destinations := constraints.destinations.mono
    (fun _ fits => ⟨retains.workspaces _ fits.workspace, fits.telegramChatId, fits.chatType⟩)
    retains.nextId
  strategies := constraints.strategies.mono
    (fun _ fits => ⟨retains.workspaces _ fits.workspace, fits.version⟩) retains.nextId
  auditLogs := constraints.auditLogs.mono
    (fun _ fits => { fits with
      workspace := fun id found => retains.workspaces id (fits.workspace id found) })
    retains.nextId

end Extension

section Users

variable {telegramUserId now : ℤ}

/-- A part of an operation keeps the constraints and takes nothing away. -/
structure Keeps (before after : AccessDatabase) : Prop where
  constraints : Constraints before → Constraints after
  retains : Retains before after

theorem Keeps.refl (db : AccessDatabase) : Keeps db db := ⟨id, .refl db⟩

theorem Keeps.trans {first second third : AccessDatabase} (begins : Keeps first second)
    (continues : Keeps second third) : Keeps first third :=
  ⟨fun constraints => continues.constraints (begins.constraints constraints),
    begins.retains.trans continues.retains⟩

theorem retains_updateUser {change : PlatformUser → PlatformUser}
    (sameId : ∀ row, (change row).id = row.id) :
    Retains db (db.updateUser telegramUserId change) where
  users := fun _ has => has.updateWhere sameId _
  workspaces := fun _ has => has
  nextId := le_rfl

theorem keeps_updateUser {change : PlatformUser → PlatformUser}
    (sameId : ∀ row, (change row).id = row.id)
    (sameKey : ∀ row, (change row).telegramUserId = row.telegramUserId)
    (fits : ∀ row, row.Fits db → (change row).Fits db) :
    Keeps db (db.updateUser telegramUserId change) := by
  have retains : Retains db (db.updateUser telegramUserId change) := retains_updateUser sameId
  refine ⟨fun constraints => ?_, retains⟩
  have carried := constraints.mono retains
  refine { carried with users := carried.users.updateWhere sameId sameKey ?_ }
  intro row row_mem _
  exact (fits row (constraints.users.valid row row_mem)).mono retains

theorem keeps_insertUser {user : PlatformUser} (fits : user.Fits db) (new : user.id = db.nextId)
    (absent : db.user user.telegramUserId = none) :
    Keeps db (db.insertUser user) := by
  have retains : Retains db (db.insertUser user) :=
    ⟨fun _ has => has.append [user], fun _ has => has, Nat.le_succ _⟩
  refine ⟨fun constraints => ?_, retains⟩
  have users := constraints.users.append fits new (lookup_eq_none_iff.mp absent)
  exact { constraints.mono retains with
    users := users.mono (fun _ fits => fits.mono retains) le_rfl }

/-- The actor of a decision has a row when the decision begins. -/
theorem keeps_platformActor (big : IsBigInteger telegramUserId) :
    Keeps db (platformActor telegramUserId now db).1 ∧
      (platformActor telegramUserId now db).1.HasUser
        (platformActor telegramUserId now db).2.id := by
  simp only [platformActor]
  cases found : db.user telegramUserId with
  | none =>
      refine ⟨keeps_insertUser ?_ rfl found, has_append_singleton _ _⟩
      constructor
      · exact big
      all_goals
        intro _ impossible
        cases impossible
  | some actor =>
      have has : db.HasUser actor.id := ⟨actor, (lookup_eq_some_mem found).1, rfl⟩
      dsimp only
      split_ifs
      · have keeps : Keeps db (db.updateUser telegramUserId reactivated) := by
          refine keeps_updateUser (fun _ => rfl) (fun _ => rfl) fun row fits => ?_
          refine { fits with revokedBy := ?_ }
          intro _ impossible
          cases impossible
        exact ⟨keeps, keeps.retains.users _ has⟩
      · exact ⟨.refl db, has⟩

/-- The user of an approved request has a row, which takes its text from the request. -/
theorem keeps_approvedUser {accessRequest : AccessRequest} {actorId : ℕ} {decidedAt : ℤ}
    (fits : accessRequest.Fits db) (actor : db.HasUser actorId) :
    Keeps db (approvedUser accessRequest actorId decidedAt db).1 ∧
      (approvedUser accessRequest actorId decidedAt db).1.HasUser
        (approvedUser accessRequest actorId decidedAt db).2.id := by
  have approvedBy : ∀ id ∈ some actorId, db.HasUser id := by
    intro id same
    cases same
    exact actor
  have revokedBy : ∀ id ∈ (none : Option ℕ), db.HasUser id := by
    intro _ impossible
    cases impossible
  simp only [approvedUser]
  cases found : db.user accessRequest.telegramUserId with
  | none =>
      refine ⟨keeps_insertUser ?_ rfl found, has_append_singleton _ _⟩
      exact ⟨fits.telegramUserId, fits.username, fits.displayName, approvedBy, revokedBy⟩
  | some user =>
      have keeps : Keeps db (db.updateUser accessRequest.telegramUserId
          (approved accessRequest actorId decidedAt)) := by
        refine keeps_updateUser (fun _ => rfl) (fun _ => rfl) fun row fitted => ?_
        exact ⟨fitted.telegramUserId, fits.username, fits.displayName, approvedBy, revokedBy⟩
      refine ⟨keeps, keeps.retains.users _ ?_⟩
      exact ⟨user, (lookup_eq_some_mem found).1, rfl⟩

end Users

section Inserts

theorem keeps_insertWorkspace {workspace : Workspace} (fits : workspace.Fits db)
    (new : workspace.id = db.nextId)
    (free : ∀ row ∈ db.workspaces, row.personalOwnerUserId ≠ workspace.personalOwnerUserId) :
    Keeps db
      { db with workspaces := db.workspaces ++ [workspace], nextId := db.nextId + 1 } := by
  have retains : Retains db
      { db with workspaces := db.workspaces ++ [workspace], nextId := db.nextId + 1 } :=
    ⟨fun _ => id, fun _ has => has.append [workspace], Nat.le_succ _⟩
  refine ⟨fun constraints => ?_, retains⟩
  have workspaces := constraints.workspaces.append fits new free
  exact { constraints.mono retains with
    workspaces := workspaces.mono
      (fun _ fits => ⟨fits.name, retains.users _ fits.owner⟩) le_rfl }

theorem keeps_insertMembership {membership : WorkspaceMembership} (fits : membership.Fits db)
    (new : membership.id = db.nextId)
    (free : ∀ row ∈ db.memberships,
      (row.workspaceId, row.userId) ≠ (membership.workspaceId, membership.userId)) :
    Keeps db
      { db with memberships := db.memberships ++ [membership], nextId := db.nextId + 1 } := by
  have retains : Retains db
      { db with memberships := db.memberships ++ [membership], nextId := db.nextId + 1 } :=
    ⟨fun _ => id, fun _ => id, Nat.le_succ _⟩
  refine ⟨fun constraints => ?_, retains⟩
  exact { constraints.mono retains with
    memberships := (constraints.memberships.append fits new free).mono
      (fun _ fits => ⟨fits.workspace, fits.user⟩) le_rfl }

theorem keeps_insertDestination {destination : NotificationDestination}
    (fits : destination.Fits db) (new : destination.id = db.nextId)
    (free : ∀ row ∈ db.destinations, (row.workspaceId, row.telegramChatId) ≠
      (destination.workspaceId, destination.telegramChatId)) :
    Keeps db
      { db with destinations := db.destinations ++ [destination], nextId := db.nextId + 1 } := by
  have retains : Retains db
      { db with destinations := db.destinations ++ [destination], nextId := db.nextId + 1 } :=
    ⟨fun _ => id, fun _ => id, Nat.le_succ _⟩
  refine ⟨fun constraints => ?_, retains⟩
  exact { constraints.mono retains with
    destinations := (constraints.destinations.append fits new free).mono
      (fun _ fits => ⟨fits.workspace, fits.telegramChatId, fits.chatType⟩) le_rfl }

theorem keeps_insertStrategy {strategy : WorkspaceStrategy} (fits : strategy.Fits db)
    (new : strategy.id = db.nextId)
    (free : ∀ row ∈ db.strategies,
      (row.workspaceId, row.version) ≠ (strategy.workspaceId, strategy.version)) :
    Keeps db
      { db with strategies := db.strategies ++ [strategy], nextId := db.nextId + 1 } := by
  have retains : Retains db
      { db with strategies := db.strategies ++ [strategy], nextId := db.nextId + 1 } :=
    ⟨fun _ => id, fun _ => id, Nat.le_succ _⟩
  refine ⟨fun constraints => ?_, retains⟩
  exact { constraints.mono retains with
    strategies := (constraints.strategies.append fits new free).mono
      (fun _ fits => ⟨fits.workspace, fits.version⟩) le_rfl }

theorem secured_eq_ok {α : Type} {table : String} {result : Option α} {value : α}
    (returned : secured table result = .ok value) : result = some value := by
  cases result with
  | none => cases returned
  | some other =>
      cases returned
      rfl

theorem keeps_insertAudit {settings : SessionSettings} {audit : AuditLog} {next : AccessDatabase}
    (fits : audit.Fits db) (new : audit.id = db.nextId)
    (returned : insertAudit migratedPolicies settings audit db = .ok next) : Keeps db next := by
  rcases bind_eq_ok_iff.mp returned with ⟨auditLogs, inserted, equal⟩
  cases equal
  cases insertReturning_eq_some (secured_eq_ok inserted)
  have retains : Retains db
      { db with auditLogs := db.auditLogs ++ [audit], nextId := db.nextId + 1 } :=
    ⟨fun _ => id, fun _ => id, Nat.le_succ _⟩
  refine ⟨fun constraints => ?_, retains⟩
  have free : ∀ row ∈ db.auditLogs, row.id ≠ audit.id := by
    intro row row_mem same
    have drawn := constraints.auditLogs.drawn row row_mem
    omega
  exact { constraints.mono retains with
    auditLogs := (constraints.auditLogs.append fits new free).mono
      (fun _ fits => { fits with workspace := fits.workspace }) le_rfl }

end Inserts

section Updates

variable {settings : SessionSettings} {workspaceId userId : ℕ} {next : AccessDatabase}

theorem keeps_updateWorkspace {policies : AccessPolicies} {status : WorkspaceStatus}
    (returned : updateWorkspace policies settings workspaceId status db = .ok next) :
    Keeps db next := by
  rcases bind_eq_ok_iff.mp returned with ⟨workspaces, updated, equal⟩
  cases equal
  rcases updateSelected_eq_some (secured_eq_ok updated) with ⟨reached, rfl⟩
  have sameId : ∀ row : Workspace, ({ row with status } : Workspace).id = row.id := fun _ => rfl
  have retains : Retains db { db with
      workspaces := updateWhere reached (fun row => { row with status }) db.workspaces } :=
    ⟨fun _ => id, fun _ has => has.updateWhere sameId reached, le_rfl⟩
  refine ⟨fun constraints => ?_, retains⟩
  have carried := constraints.mono retains
  refine { carried with workspaces := carried.workspaces.updateWhere sameId (fun _ => rfl) ?_ }
  intro row row_mem _
  have fits := carried.workspaces.valid row row_mem
  exact ⟨fits.name, fits.owner⟩

/-- Rewriting what does not refer to other rows keeps the constraints of the memberships. -/
theorem keeps_updateMemberships {reached : WorkspaceMembership → Bool}
    {change : WorkspaceMembership → WorkspaceMembership}
    (same : ∀ row, (change row).id = row.id ∧ (change row).workspaceId = row.workspaceId ∧
      (change row).userId = row.userId) :
    Keeps db { db with memberships := updateWhere reached change db.memberships } := by
  have retains : Retains db { db with memberships := updateWhere reached change db.memberships } :=
    ⟨fun _ => id, fun _ => id, le_rfl⟩
  refine ⟨fun constraints => ?_, retains⟩
  have carried := constraints.mono retains
  refine { carried with
    memberships := carried.memberships.updateWhere (fun row => (same row).1) ?_ ?_ }
  · intro row
    rw [(same row).2.1, (same row).2.2]
  · intro row row_mem _
    have fits := carried.memberships.valid row row_mem
    exact ⟨(same row).2.1 ▸ fits.workspace, (same row).2.2 ▸ fits.user⟩

theorem keeps_updateDestinations {reached : NotificationDestination → Bool}
    {change : NotificationDestination → NotificationDestination}
    (same : ∀ row, (change row).id = row.id ∧ (change row).workspaceId = row.workspaceId ∧
      (change row).telegramChatId = row.telegramChatId ∧
        (change row).chatType = row.chatType) :
    Keeps db { db with destinations := updateWhere reached change db.destinations } := by
  have retains : Retains db
      { db with destinations := updateWhere reached change db.destinations } :=
    ⟨fun _ => id, fun _ => id, le_rfl⟩
  refine ⟨fun constraints => ?_, retains⟩
  have carried := constraints.mono retains
  refine { carried with
    destinations := carried.destinations.updateWhere (fun row => (same row).1) ?_ ?_ }
  · intro row
    rw [(same row).2.1, (same row).2.2.1]
  · intro row row_mem _
    have fits := carried.destinations.valid row row_mem
    exact ⟨(same row).2.1 ▸ fits.workspace, (same row).2.2.1 ▸ fits.telegramChatId,
      (same row).2.2.2 ▸ fits.chatType⟩

theorem keeps_decideRequest {requestId actorId : ℕ} {decidedAt : ℤ} (has : db.HasUser actorId) :
    Keeps db (db.updateRequest requestId (AccessRequest.decided .approved decidedAt actorId)) := by
  have retains : Retains db
      (db.updateRequest requestId (AccessRequest.decided .approved decidedAt actorId)) :=
    ⟨fun _ => id, fun _ => id, le_rfl⟩
  refine ⟨fun constraints => ?_, retains⟩
  have carried := constraints.mono retains
  refine { carried with
    requests := carried.requests.updateWhere (fun _ => rfl) (fun _ => rfl) ?_
    pending := carried.pending.filter_updateWhere fun _ => rfl }
  intro row row_mem _
  have fits := carried.requests.valid row row_mem
  refine { fits with decidedBy := ?_ }
  intro id same
  cases same
  exact has

end Updates

section Parts

variable {settings : SessionSettings} {workspaceId userId : ℕ} {next : AccessDatabase}

/-- A user who can lock no personal workspace has none, and gets one whose name fits. -/
theorem keeps_personalWorkspace {user : PlatformUser} {workspace : Workspace}
    (own : settings.userId = some user.id) (has : db.HasUser user.id)
    (returned : personalWorkspace migratedPolicies settings user db = .ok (next, workspace)) :
    Keeps db next ∧ next.HasWorkspace workspace.id := by
  simp only [personalWorkspace] at returned
  split at returned
  · rename_i unlocked
    split_ifs at returned with tooLong
    · cases returned
    · rcases bind_eq_ok_iff.mp returned with ⟨workspaces, inserted, equal⟩
      cases equal
      cases insertReturning_eq_some (secured_eq_ok inserted)
      have free := (lockedWorkspace_eq_none_iff own).mp unlocked
      refine ⟨keeps_insertWorkspace ⟨not_lt.mp tooLong, has⟩ rfl free, ?_⟩
      exact has_append_singleton _ _
  · rename_i locked found
    rcases bind_eq_ok_iff.mp returned with ⟨_, updated, equal⟩
    cases equal
    have keeps := keeps_updateWorkspace updated
    refine ⟨keeps, keeps.retains.workspaces _ ⟨locked, ?_, rfl⟩⟩
    exact List.mem_of_mem_filter (List.mem_of_find?_eq_some found)

/-- A query that finds no visible row of a key under which all rows are visible finds none. -/
theorem free_of_find?_eq_none {Row Key : Type} {policy : Policy SessionSettings Row}
    {rows : List Row} {own : Row → Bool} {key : Row → Key} {value : Key}
    (absent : (visible policy settings rows).find? own = none)
    (owned : ∀ row, key row = value → own row = true)
    (readable : ∀ row, key row = value → policy.readable settings row = true) :
    ∀ row ∈ rows, key row ≠ value := by
  intro row row_mem same
  refine List.find?_eq_none.mp absent row (List.mem_filter.mpr ⟨row_mem, ?_⟩) (owned row same)
  exact readable row same

theorem keeps_activateMembership (within : settings.workspaceId = some workspaceId)
    (workspace : db.HasWorkspace workspaceId) (user : db.HasUser userId)
    (returned : activateMembership migratedPolicies settings workspaceId userId db = .ok next) :
    Keeps db next := by
  simp only [activateMembership] at returned
  split at returned
  · rename_i absent
    rcases bind_eq_ok_iff.mp returned with ⟨memberships, inserted, equal⟩
    cases equal
    cases insertReturning_eq_some (secured_eq_ok inserted)
    refine keeps_insertMembership ⟨workspace, user⟩ rfl (free_of_find?_eq_none absent ?_ ?_)
    · intro row same
      simpa using same
    · intro row same
      simp only [Prod.mk.injEq] at same
      simp [migratedPolicies, Policy.isolation, membershipClause, within, same]
  · rcases bind_eq_ok_iff.mp returned with ⟨memberships, updated, equal⟩
    cases equal
    rcases updateSelected_eq_some (secured_eq_ok updated) with ⟨reached, rfl⟩
    exact keeps_updateMemberships (fun _ => ⟨rfl, rfl, rfl⟩)

theorem keeps_enableDestination {telegramChatId : ℤ}
    (within : settings.workspaceId = some workspaceId) (workspace : db.HasWorkspace workspaceId)
    (big : IsBigInteger telegramChatId)
    (returned : enableDestination migratedPolicies settings workspaceId telegramChatId db =
      .ok next) : Keeps db next := by
  simp only [enableDestination] at returned
  split at returned
  · rename_i absent
    rcases bind_eq_ok_iff.mp returned with ⟨destinations, inserted, equal⟩
    cases equal
    cases insertReturning_eq_some (secured_eq_ok inserted)
    have short : privateChat.length ≤ 16 := by decide
    refine keeps_insertDestination ⟨workspace, big, short⟩ rfl
      (free_of_find?_eq_none absent ?_ ?_)
    · intro row same
      simpa using same
    · intro row same
      simp only [Prod.mk.injEq] at same
      simp [migratedPolicies, Policy.isolation, destinationClause, within, same]
  · rcases bind_eq_ok_iff.mp returned with ⟨destinations, updated, equal⟩
    cases equal
    rcases updateSelected_eq_some (secured_eq_ok updated) with ⟨reached, rfl⟩
    exact keeps_updateDestinations (fun _ => ⟨rfl, rfl, rfl, rfl⟩)

theorem keeps_ensureStrategy (within : settings.workspaceId = some workspaceId)
    (workspace : db.HasWorkspace workspaceId)
    (returned : ensureStrategy migratedPolicies settings workspaceId db = .ok next) :
    Keeps db next := by
  simp only [ensureStrategy] at returned
  split at returned
  · rename_i absent
    rcases bind_eq_ok_iff.mp returned with ⟨strategies, inserted, equal⟩
    cases equal
    cases insertReturning_eq_some (secured_eq_ok inserted)
    refine keeps_insertStrategy ⟨workspace, Nat.one_pos⟩ rfl (free_of_find?_eq_none absent ?_ ?_)
    · intro row same
      simpa using same
    · intro row same
      simp only [Prod.mk.injEq] at same
      simp [migratedPolicies, Policy.isolation, strategyClause, within, same]
  · cases returned
    exact .refl db

end Parts

end CopyMint
