import CopyMint.Access.Standing

/-!
# How the access tables refer to each other

Everybody but a configured owner has a personal workspace with the user row, a
membership is one in the personal workspace of its user, and the account of an
approved request exists.
-/

namespace CopyMint

open Relational Locking

/-- Rows of a workspace belong to the account that owns it. -/
structure AccessLinked (ownerIds : List ℤ) (state : AccessState) : Prop where
  members : ∀ {workspaceId userId row}, state.db.membership workspaceId userId = some row →
    ∃ workspace, state.db.workspace workspaceId = some workspace ∧
      workspace.personalOwnerUserId = userId
  users : ∀ {telegramUserId user}, state.db.user telegramUserId = some user →
    telegramUserId ∉ ownerIds → ∃ workspace, state.db.workspaceOf user.id = some workspace
  approved : ∀ row ∈ state.db.accessRequests, row.status = .approved →
    ∃ user, state.db.user row.telegramUserId = some user

variable {ownerIds : List ℤ} {telegramUserId : ℤ} {account : PlatformUser}
  {before after : AccessState} {first last : ℕ}

/-- Whoever has a personal workspace keeps it. -/
theorem AccessExtends.workspaceOf (extends_ : AccessExtends first last before after)
    (keyed : AccessKeyed before.db) {userId : ℕ} {workspace : Workspace}
    (owned : before.db.workspaceOf userId = some workspace) :
    ∃ later, after.db.workspaceOf userId = some later := by
  have row := (workspaceOf_eq_some_iff keyed).mp owned
  rcases extends_.workspaces row.1 with ⟨later, later_eq, sameOwner⟩
  cases found : after.db.workspaceOf userId with
  | some other => exact ⟨other, rfl⟩
  | none =>
      have absent := lookup_eq_none_iff.mp found later (lookup_eq_some_mem later_eq).1
      exact absurd (sameOwner.trans row.2) absent

/-- Writing the account of one user keeps the tables linked. -/
theorem AccessLinked.written (linked : AccessLinked ownerIds before)
    (keyed : AccessKeyed before.db) (written : AccountWritten telegramUserId account before after)
    (extends_ : AccessExtends first last before after)
    (mine : telegramUserId ∉ ownerIds →
      ∃ workspace, after.db.workspaceOf account.id = some workspace)
    (requests : ∀ row ∈ after.db.accessRequests, row.status = .approved →
      row ∈ before.db.accessRequests ∨ row.telegramUserId = telegramUserId) :
    AccessLinked ownerIds after where
  members := by
    intro workspaceId userId row member
    have kept : before.db.membership workspaceId userId = some row →
        ∃ workspace, after.db.workspace workspaceId = some workspace ∧
          workspace.personalOwnerUserId = userId := by
      intro old
      rcases linked.members old with ⟨workspace, found, owner⟩
      rcases extends_.workspaces found with ⟨later, later_eq, sameOwner⟩
      exact ⟨later, later_eq, sameOwner.trans owner⟩
    by_cases same : userId = account.id
    · by_cases own : ∃ workspace, after.db.workspaceOf account.id = some workspace ∧
          workspace.id = workspaceId
      · rcases own with ⟨workspace, owned, rfl⟩
        have found := (workspaceOf_eq_some_iff written.keyed).mp owned
        exact ⟨workspace, found.1, found.2.trans same.symm⟩
      · have agree : accessFootprint.agrees (.workspace workspaceId) before after :=
          written.only.workspaces fun owned mine => own ⟨_, owned, mine⟩
        exact kept ((agree.2.1 userId).trans member)
    · exact kept ((written.only.members same).symm.trans member)
  users := by
    intro other user found unconfigured
    by_cases same : other = telegramUserId
    · subst same
      cases written.found.symm.trans found
      exact mine unconfigured
    · rcases linked.users ((written.others same).symm.trans found) unconfigured with
        ⟨workspace, owned⟩
      exact extends_.workspaceOf keyed owned
  approved := by
    intro row row_mem isApproved
    rcases requests row row_mem isApproved with old | own
    · rcases linked.approved row old isApproved with ⟨user, found⟩
      rcases extends_.users found with ⟨later, later_eq, _⟩
      exact ⟨later, later_eq⟩
    · exact ⟨account, own ▸ written.found⟩

/-- A configured owner who acts keeps the tables linked. -/
theorem AccessLinked.actor {nextId rest : ℕ} (linked : AccessLinked ownerIds before)
    (keyed : AccessKeyed before.db) (configured : telegramUserId ∈ ownerIds)
    (stored : UserStored telegramUserId nextId rest account before after)
    (extends_ : AccessExtends first last before after) : AccessLinked ownerIds after := by
  refine linked.written keyed (stored.written keyed) extends_ (absurd configured) ?_
  rcases stored.onlyUsers with ⟨change, rfl⟩
  exact fun row row_mem _ => .inl row_mem

/-- A new request is pending, so that it keeps the tables linked. -/
theorem AccessLinked.request (linked : AccessLinked ownerIds before) {created : AccessRequest}
    (pending : created.status = .pending) {nextId : ℕ}
    (written : after.db =
      { before.db with accessRequests := before.db.accessRequests ++ [created], nextId }) :
    AccessLinked ownerIds after := by
  constructor
  · intro workspaceId userId row member
    rw [written] at member ⊢
    exact linked.members member
  · intro telegramUserId user found unconfigured
    rw [written] at found ⊢
    exact linked.users found unconfigured
  · intro row row_mem isApproved
    rw [written] at row_mem ⊢
    rcases List.mem_append.mp row_mem with old | new
    · exact linked.approved row old isApproved
    · rw [List.mem_singleton.mp new, pending] at isApproved
      cases isApproved

end CopyMint
