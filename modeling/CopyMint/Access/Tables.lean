import CopyMint.Access.Isolation

/-!
# What the parts of a decision write

Each part of a decision writes one table. The lemmas here say what the part leaves in
that table and that the unique constraints of the table are kept.
-/

namespace CopyMint

open Hexadecimal Relational RowSecurity Locking

namespace AccessDatabase

/-- The row of a user's personal workspace. -/
def workspaceOf (db : AccessDatabase) (userId : ℕ) : Option Workspace :=
  lookup Workspace.personalOwnerUserId userId db.workspaces

theorem ownWorkspace_eq (db : AccessDatabase) (userId : ℕ) :
    db.ownWorkspace userId = (db.workspaceOf userId).map Workspace.id := rfl

end AccessDatabase

/-- The unique constraints of the access tables. -/
structure AccessKeyed (db : AccessDatabase) : Prop where
  users : Unique PlatformUser.telegramUserId db.platformUsers
  userIds : Unique PlatformUser.id db.platformUsers
  workspaces : Unique Workspace.personalOwnerUserId db.workspaces
  workspaceIds : Unique Workspace.id db.workspaces
  memberships : Unique WorkspaceMembership.key db.memberships
  destinations : Unique NotificationDestination.key db.destinations

/-- No user and no workspace has an identifier from a range. -/
structure Unused (first last : ℕ) (db : AccessDatabase) : Prop where
  users : ∀ user ∈ db.platformUsers, user.id < first ∨ last ≤ user.id
  workspaces : ∀ workspace ∈ db.workspaces, workspace.id < first ∨ last ≤ workspace.id
  owners : ∀ workspace ∈ db.workspaces,
    workspace.personalOwnerUserId < first ∨ last ≤ workspace.personalOwnerUserId

section Users

variable {state after : AccessState} {nextId rest last : ℕ} {user : PlatformUser}

/-- A part of a decision that has found or inserted the row of a user. -/
structure UserStored (telegramUserId : ℤ) (nextId rest : ℕ) (user : PlatformUser)
    (state after : AccessState) : Prop where
  onlyUsers : ∃ change, after = writeUsers change state
  found : after.db.user telegramUserId = some user
  others : ∀ {other}, other ≠ telegramUserId → after.db.user other = state.db.user other
  identifier : (∃ old, state.db.user telegramUserId = some old ∧ old.id = user.id ∧ rest = nextId) ∨
    state.db.user telegramUserId = none ∧ user.id = nextId ∧ rest = nextId + 1
  unique : Unique PlatformUser.telegramUserId after.db.platformUsers
  uniqueIds : Unique PlatformUser.id after.db.platformUsers
  within : ∀ row ∈ after.db.platformUsers, row.id = nextId ∧ rest = nextId + 1 ∨
    ∃ old ∈ state.db.platformUsers, row.id = old.id

theorem userStored_insert {telegramUserId : ℤ} (same : user.telegramUserId = telegramUserId)
    (keyed : AccessKeyed state.db) (unused : Unused nextId last state.db) (bound : nextId < last)
    (absent : state.db.user telegramUserId = none) (identifier : user.id = nextId) :
    UserStored telegramUserId nextId (nextId + 1) user state
      (writeUsers (· ++ [user]) state) where
  onlyUsers := ⟨_, rfl⟩
  found := lookup_append_new same absent
  others := fun different => lookup_append_other (same ▸ Ne.symm different) _
  identifier := .inr ⟨absent, identifier, rfl⟩
  unique := keyed.users.append (same ▸ absent)
  uniqueIds := by
    apply keyed.userIds.append
    rw [lookup_eq_none_iff]
    intro row row_mem same
    have free := unused.users row row_mem
    omega
  within := by
    intro row row_mem
    rcases List.mem_append.mp row_mem with old | new
    · exact .inr ⟨row, old, rfl⟩
    · rw [List.mem_singleton.mp new]
      exact .inl ⟨identifier, rfl⟩

theorem userStored_update {telegramUserId : ℤ} {rewrite : PlatformUser → PlatformUser}
    (kept : ∀ row, (rewrite row).telegramUserId = row.telegramUserId)
    (keptIds : ∀ row, (rewrite row).id = row.id) (keyed : AccessKeyed state.db)
    (present : state.db.user telegramUserId = some user) :
    UserStored telegramUserId nextId nextId (rewrite user) state
      (writeUsers (updateWhere (fun row => row.telegramUserId = telegramUserId) rewrite)
        state) where
  onlyUsers := ⟨_, rfl⟩
  found :=
    lookup_updateWhere_selected kept present (decide_eq_true (lookup_eq_some_mem present).2)
  others := by
    intro other different
    apply lookup_updateWhere_of_unselected kept
    intro row same
    exact decide_eq_false fun equal => different (same.symm.trans equal)
  identifier := .inl ⟨user, present, (keptIds user).symm, rfl⟩
  unique := keyed.users.updateWhere kept
  uniqueIds := keyed.userIds.updateWhere keptIds
  within := by
    intro row row_mem
    rcases mem_updateWhere.mp row_mem with ⟨old, old_mem, rfl⟩
    refine .inr ⟨old, old_mem, ?_⟩
    split_ifs
    · exact keptIds old
    · rfl

theorem userScript_spec {accessRequest : AccessRequest} {actorId : ℕ} {decidedAt : ℤ}
    (keyed : AccessKeyed state.db) (unused : Unused nextId last state.db) (bound : nextId < last)
    (ran : (userScript accessRequest actorId decidedAt nextId).run state =
      .ok (after, user, rest)) :
    UserStored accessRequest.telegramUserId nextId rest user state after ∧
      user.status = .active ∧ user.telegramUserId = accessRequest.telegramUserId := by
  simp only [userScript, Script.run_bind, Script.run_getOrCreate] at ran
  cases present : state.db.user accessRequest.telegramUserId with
  | none =>
      simp only [present, Script.run_bind, Script.run_update, Script.run_pure] at ran
      cases ran
      exact ⟨userStored_insert rfl keyed unused bound present rfl, rfl, rfl⟩
  | some old =>
      simp only [present, Script.run_bind, Script.run_update, Script.run_pure] at ran
      cases ran
      refine ⟨userStored_update (fun _ => rfl) (fun _ => rfl) keyed present, rfl, ?_⟩
      exact (lookup_eq_some_mem present).2

end Users

section Workspaces

variable {state after : AccessState} {nextId rest last workspaceId userId : ℕ}

/-- A part of a decision that has found or inserted the personal workspace of a user. -/
structure WorkspaceStored (userId : ℕ) (nextId rest workspaceId : ℕ) (status : WorkspaceStatus)
    (state after : AccessState) : Prop where
  onlyWorkspaces : ∃ change, after = writeWorkspaces change state
  found : ∃ workspace, after.db.workspaceOf userId = some workspace ∧
    workspace.id = workspaceId ∧ workspace.status = status
  unique : Unique Workspace.personalOwnerUserId after.db.workspaces
  uniqueIds : Unique Workspace.id after.db.workspaces
  remains : ∀ {id workspace}, state.db.workspace id = some workspace →
    ∃ later, after.db.workspace id = some later ∧
      later.personalOwnerUserId = workspace.personalOwnerUserId
  within : ∀ row ∈ after.db.workspaces,
    row.id = nextId ∧ row.personalOwnerUserId = userId ∧ rest = nextId + 1 ∨
      ∃ old ∈ state.db.workspaces, row.id = old.id ∧
        row.personalOwnerUserId = old.personalOwnerUserId

theorem workspaceStored_status {workspace : Workspace} (keyed : AccessKeyed state.db)
    (present : state.db.workspaceOf userId = some workspace) (status : WorkspaceStatus) :
    WorkspaceStored userId nextId nextId workspace.id status state
      (setWorkspaceStatus workspace.id status state) where
  onlyWorkspaces := ⟨_, rfl⟩
  found := by
    refine ⟨{ workspace with status }, ?_, rfl, rfl⟩
    refine lookup_updateWhere_selected ?_ present ?_
    · exact fun _ => rfl
    · exact decide_eq_true rfl
  unique := keyed.workspaces.updateWhere fun _ => rfl
  uniqueIds := keyed.workspaceIds.updateWhere fun _ => rfl
  remains := by
    intro id row found
    have rewritten : (setWorkspaceStatus workspace.id status state).db.workspace id =
        (state.db.workspace id).map _ := lookup_updateWhere (by exact fun _ => rfl) id _
    rw [found, Option.map_some] at rewritten
    refine ⟨_, rewritten, ?_⟩
    split_ifs <;> rfl
  within := by
    intro row row_mem
    rcases mem_updateWhere.mp row_mem with ⟨old, old_mem, rfl⟩
    refine .inr ⟨old, old_mem, ?_⟩
    split_ifs <;> exact ⟨rfl, rfl⟩

theorem workspaceStored_insert {workspace : Workspace} (keyed : AccessKeyed state.db)
    (unused : Unused nextId last state.db) (bound : nextId < last)
    (absent : state.db.workspaceOf workspace.personalOwnerUserId = none)
    (identifier : workspace.id = nextId) :
    WorkspaceStored workspace.personalOwnerUserId nextId (nextId + 1) nextId workspace.status state
      (writeWorkspaces (· ++ [workspace]) state) where
  onlyWorkspaces := ⟨_, rfl⟩
  found := by
    exact ⟨workspace, lookup_append_new rfl absent, identifier, rfl⟩
  unique := keyed.workspaces.append absent
  uniqueIds := by
    apply keyed.workspaceIds.append
    rw [lookup_eq_none_iff]
    intro row row_mem same
    have free := unused.workspaces row row_mem
    omega
  remains := by
    intro id row found
    refine ⟨row, ?_, rfl⟩
    rw [AccessDatabase.workspace] at found
    rw [AccessDatabase.workspace, writeWorkspaces, lookup_append, found, Option.some_or]
  within := by
    intro row row_mem
    rcases List.mem_append.mp row_mem with old | new
    · exact .inr ⟨row, old, rfl, rfl⟩
    · rw [List.mem_singleton.mp new]
      exact .inl ⟨identifier, rfl, rfl⟩

theorem workspaceScript_spec {user : PlatformUser} (keyed : AccessKeyed state.db)
    (unused : Unused nextId last state.db) (bound : nextId < last)
    (ran : (workspaceScript user nextId).run state = .ok (after, workspaceId, rest)) :
    WorkspaceStored user.id nextId rest workspaceId .active state after := by
  simp only [workspaceScript, Script.run_bind, Script.run_getOrCreate,
    AccessDatabase.ownWorkspace_eq] at ran
  cases present : state.db.workspaceOf user.id with
  | none =>
      simp only [present, Option.map_none] at ran
      split_ifs at ran
      · cases ran
      · cases ran
        have inserted : WorkspaceStored (newWorkspace nextId user).personalOwnerUserId nextId
            (nextId + 1) nextId (newWorkspace nextId user).status state _ :=
          workspaceStored_insert keyed unused bound present rfl
        exact inserted
  | some workspace =>
      simp only [present, Option.map_some, Script.run_bind, Script.run_locked, Script.run_update,
        Script.run_pure] at ran
      cases ran
      exact workspaceStored_status keyed present .active

end Workspaces

section Tables

variable {state after : AccessState} {nextId rest workspaceId userId : ℕ}

theorem membershipScript_spec (keyed : AccessKeyed state.db)
    (ran : (membershipScript workspaceId userId nextId).run state = .ok (after, rest)) :
    (∃ change, after = writeMemberships change state) ∧
      (∃ row, after.db.membership workspaceId userId = some row ∧ row.status = .active) ∧
        Unique WorkspaceMembership.key after.db.memberships := by
  simp only [membershipScript, Script.run_bind, Script.run_select] at ran
  cases present : state.db.membership workspaceId userId with
  | none =>
      simp only [present, Script.run_bind, Script.run_update, Script.run_pure] at ran
      cases ran
      refine ⟨⟨_, rfl⟩, ⟨newMembership nextId workspaceId userId, ?_, rfl⟩, ?_⟩
      · exact lookup_append_new rfl present
      · exact keyed.memberships.append present
  | some row =>
      simp only [present, Script.run_bind, Script.run_update, Script.run_pure] at ran
      cases ran
      have same : row.key = (workspaceId, userId) := (lookup_eq_some_mem present).2
      refine ⟨⟨_, rfl⟩, ⟨{ row with status := .active, revokedAt := none }, ?_, rfl⟩, ?_⟩
      · refine lookup_updateWhere_selected ?_ present ?_
        · exact fun _ => rfl
        · exact decide_eq_true same
      · exact keyed.memberships.updateWhere fun _ => rfl

theorem membershipScript_others
    (ran : (membershipScript workspaceId userId nextId).run state = .ok (after, rest))
    {key : ℕ × ℕ} (different : key ≠ (workspaceId, userId)) :
    lookup WorkspaceMembership.key key after.db.memberships =
      lookup WorkspaceMembership.key key state.db.memberships := by
  simp only [membershipScript, Script.run_bind, Script.run_select] at ran
  cases present : state.db.membership workspaceId userId with
  | none =>
      simp only [present, Script.run_bind, Script.run_update, Script.run_pure] at ran
      cases ran
      have other : (newMembership nextId workspaceId userId).key ≠ key := Ne.symm different
      exact lookup_append_other other _
  | some row =>
      simp only [present, Script.run_bind, Script.run_update, Script.run_pure] at ran
      cases ran
      refine lookup_updateWhere_of_unselected ?_ ?_ _
      · exact fun _ => rfl
      · intro other same
        exact decide_eq_false fun own => different (same.symm.trans own)

theorem destinationScript_spec {telegramChatId : ℤ} (keyed : AccessKeyed state.db)
    (ran : (destinationScript workspaceId telegramChatId nextId).run state = .ok (after, rest)) :
    (∃ change, after = writeDestinations change state) ∧
      (∃ row, after.db.destination workspaceId telegramChatId = some row ∧ row.enabled = true) ∧
        Unique NotificationDestination.key after.db.destinations := by
  simp only [destinationScript, Script.run_bind, Script.run_select] at ran
  cases present : state.db.destination workspaceId telegramChatId with
  | none =>
      simp only [present, Script.run_bind, Script.run_update, Script.run_pure] at ran
      cases ran
      refine ⟨⟨_, rfl⟩, ⟨newDestination nextId workspaceId telegramChatId, ?_, rfl⟩, ?_⟩
      · exact lookup_append_new rfl present
      · exact keyed.destinations.append present
  | some row =>
      simp only [present, Script.run_bind, Script.run_update, Script.run_pure] at ran
      cases ran
      have same : row.key = (workspaceId, telegramChatId) := (lookup_eq_some_mem present).2
      refine ⟨⟨_, rfl⟩, ⟨{ row with enabled := true }, ?_, rfl⟩, ?_⟩
      · refine lookup_updateWhere_selected ?_ present ?_
        · exact fun _ => rfl
        · exact decide_eq_true same
      · exact keyed.destinations.updateWhere fun _ => rfl

theorem strategyScript_spec
    (ran : (strategyScript workspaceId nextId).run state = .ok (after, rest)) :
    ∃ change, after = writeStrategies change state := by
  simp only [strategyScript, Script.run_bind, Script.run_select] at ran
  cases present : state.db.strategy workspaceId 1 with
  | none =>
      simp only [present, Script.run_bind, Script.run_update, Script.run_pure] at ran
      cases ran
      exact ⟨_, rfl⟩
  | some row =>
      simp only [present, Script.run_pure] at ran
      cases ran
      exact ⟨id, rfl⟩

end Tables

section Frames

variable {state after : AccessState} {nextId rest workspaceId userId : ℕ}

theorem frame_workspaceScript {user : PlatformUser}
    (ran : (workspaceScript user nextId).run state = .ok (after, workspaceId, rest))
    {key : AccessKey} (notOwner : key ≠ .owner user.id)
    (notWorkspace : key ≠ .workspace workspaceId) :
    accessFootprint.agrees key state after := by
  have guarded : (workspaceScript user nextId).Guarded accessFootprint [] fun larger result =>
      larger = [.workspace result.1, .owner user.id] := guarded_workspaceScript fun _ => rfl
  rcases guarded.frame ran with ⟨larger, _, rfl, agree⟩
  exact agree key (by simp [notOwner, notWorkspace])

theorem frame_membershipScript
    (ran : (membershipScript workspaceId userId nextId).run state = .ok (after, rest))
    {key : AccessKey} (notWorkspace : key ≠ .workspace workspaceId) :
    accessFootprint.agrees key state after := by
  have guarded : (membershipScript workspaceId userId nextId).Guarded accessFootprint
      [.workspace workspaceId] fun larger _ => larger = [.workspace workspaceId] :=
    guarded_membershipScript List.mem_cons_self fun _ => rfl
  rcases guarded.frame ran with ⟨larger, _, rfl, agree⟩
  exact agree key (by simpa using notWorkspace)

theorem frame_destinationScript {telegramChatId : ℤ}
    (ran : (destinationScript workspaceId telegramChatId nextId).run state = .ok (after, rest))
    {key : AccessKey} (notWorkspace : key ≠ .workspace workspaceId) :
    accessFootprint.agrees key state after := by
  have guarded : (destinationScript workspaceId telegramChatId nextId).Guarded accessFootprint
      [.workspace workspaceId] fun larger _ => larger = [.workspace workspaceId] :=
    guarded_destinationScript List.mem_cons_self fun _ => rfl
  rcases guarded.frame ran with ⟨larger, _, rfl, agree⟩
  exact agree key (by simpa using notWorkspace)

theorem frame_strategyScript
    (ran : (strategyScript workspaceId nextId).run state = .ok (after, rest))
    {key : AccessKey} (notWorkspace : key ≠ .workspace workspaceId) :
    accessFootprint.agrees key state after := by
  have guarded : (strategyScript workspaceId nextId).Guarded accessFootprint
      [.workspace workspaceId] fun larger _ => larger = [.workspace workspaceId] :=
    guarded_strategyScript List.mem_cons_self fun _ => rfl
  rcases guarded.frame ran with ⟨larger, _, rfl, agree⟩
  exact agree key (by simpa using notWorkspace)

theorem frame_suspendScript {revokedAt : ℤ} {found : Option ℕ}
    (ran : (suspendScript userId revokedAt).run state = .ok (after, found))
    {key : AccessKey} (notOwner : key ≠ .owner userId)
    (notWorkspace : ∀ workspaceId ∈ found, key ≠ .workspace workspaceId) :
    accessFootprint.agrees key state after := by
  have guarded : (suspendScript userId revokedAt).Guarded accessFootprint [] fun larger result =>
      larger = (result.map AccessKey.workspace).toList ++ [.owner userId] :=
    guarded_suspendScript fun _ => rfl
  rcases guarded.frame ran with ⟨larger, _, rfl, agree⟩
  apply agree
  cases found with
  | none => simpa using notOwner
  | some workspaceId => simp [notOwner, notWorkspace workspaceId rfl]

end Frames

end CopyMint
