import CopyMint.Access.Tables

/-!
# Extensions of the access tables

Nothing is deleted, decided requests are left alone, and no identifiers are used but
those that were drawn.
-/

namespace CopyMint

open Hexadecimal Relational Locking

/-- The state goes on from an earlier one with identifiers from a range. -/
structure AccessExtends (first last : ℕ) (before after : AccessState) : Prop where
  users : ∀ {telegramUserId user}, before.db.user telegramUserId = some user →
    ∃ later, after.db.user telegramUserId = some later ∧ later.id = user.id
  workspaces : ∀ {workspaceId workspace}, before.db.workspace workspaceId = some workspace →
    ∃ later, after.db.workspace workspaceId = some later ∧
      later.personalOwnerUserId = workspace.personalOwnerUserId
  decided : ∀ {requestId row}, before.db.request requestId = some row → row.status ≠ .pending →
    after.db.request requestId = some row
  userIds : ∀ row ∈ after.db.platformUsers, first ≤ row.id ∧ row.id < last ∨
    ∃ old ∈ before.db.platformUsers, row.id = old.id
  workspaceIds : ∀ row ∈ after.db.workspaces, first ≤ row.id ∧ row.id < last ∨
    ∃ old ∈ before.db.workspaces, row.id = old.id
  owners : ∀ row ∈ after.db.workspaces,
    (first ≤ row.personalOwnerUserId ∧ row.personalOwnerUserId < last ∨
      ∃ old ∈ before.db.platformUsers, row.personalOwnerUserId = old.id) ∨
      ∃ old ∈ before.db.workspaces, row.personalOwnerUserId = old.personalOwnerUserId
  requestIds : ∀ row ∈ after.db.accessRequests, ∃ old ∈ before.db.accessRequests, row.id = old.id
  nextId : after.db.nextId = before.db.nextId

namespace AccessExtends

variable {first last : ℕ} {before middle after : AccessState}

/-- Nothing that counts has changed. -/
theorem of_tables (users : after.db.platformUsers = before.db.platformUsers)
    (workspaces : after.db.workspaces = before.db.workspaces)
    (requests : after.db.accessRequests = before.db.accessRequests)
    (nextId : after.db.nextId = before.db.nextId) : AccessExtends first last before after where
  users := fun found => ⟨_, by rw [AccessDatabase.user, users]; exact found, rfl⟩
  workspaces := fun found => ⟨_, by rw [AccessDatabase.workspace, workspaces]; exact found, rfl⟩
  decided := fun found _ => by rw [AccessDatabase.request, requests]; exact found
  userIds := fun row row_mem => .inr ⟨row, users ▸ row_mem, rfl⟩
  workspaceIds := fun row row_mem => .inr ⟨row, workspaces ▸ row_mem, rfl⟩
  owners := fun row row_mem => .inr ⟨row, workspaces ▸ row_mem, rfl⟩
  requestIds := fun row row_mem => ⟨row, requests ▸ row_mem, rfl⟩
  nextId := nextId

theorem trans (begins : AccessExtends first last before middle)
    (continues : AccessExtends first last middle after) :
    AccessExtends first last before after where
  users := by
    intro telegramUserId user found
    rcases begins.users found with ⟨later, later_eq, same⟩
    rcases continues.users later_eq with ⟨final, final_eq, sameFinal⟩
    exact ⟨final, final_eq, sameFinal.trans same⟩
  workspaces := by
    intro workspaceId workspace found
    rcases begins.workspaces found with ⟨later, later_eq, same⟩
    rcases continues.workspaces later_eq with ⟨final, final_eq, sameFinal⟩
    exact ⟨final, final_eq, sameFinal.trans same⟩
  decided := fun found final => continues.decided (begins.decided found final) final
  userIds := by
    intro row row_mem
    rcases continues.userIds row row_mem with new | ⟨old, old_mem, same⟩
    · exact .inl new
    · rw [same]
      exact begins.userIds old old_mem
  workspaceIds := by
    intro row row_mem
    rcases continues.workspaceIds row row_mem with new | ⟨old, old_mem, same⟩
    · exact .inl new
    · rw [same]
      exact begins.workspaceIds old old_mem
  owners := by
    intro row row_mem
    rcases continues.owners row row_mem with (new | ⟨old, old_mem, same⟩) | ⟨old, old_mem, same⟩
    · exact .inl (.inl new)
    · rw [same]
      exact .inl (begins.userIds old old_mem)
    · rw [same]
      exact begins.owners old old_mem
  requestIds := by
    intro row row_mem
    rcases continues.requestIds row row_mem with ⟨old, old_mem, same⟩
    rw [same]
    exact begins.requestIds old old_mem
  nextId := continues.nextId.trans begins.nextId

/-- Identifiers that are drawn for others remain unused. -/
theorem unused {low high : ℕ} (extends_ : AccessExtends first last before after)
    (unused : Unused low high before.db) (disjoint : last ≤ low ∨ high ≤ first) :
    Unused low high after.db where
  users := by
    intro row row_mem
    rcases extends_.userIds row row_mem with new | ⟨old, old_mem, same⟩
    · omega
    · rw [same]
      exact unused.users old old_mem
  workspaces := by
    intro row row_mem
    rcases extends_.workspaceIds row row_mem with new | ⟨old, old_mem, same⟩
    · omega
    · rw [same]
      exact unused.workspaces old old_mem
  owners := by
    intro row row_mem
    rcases extends_.owners row row_mem with (new | ⟨old, old_mem, same⟩) | ⟨old, old_mem, same⟩
    · omega
    · rw [same]
      exact unused.users old old_mem
    · rw [same]
      exact unused.owners old old_mem

theorem storedUser {telegramUserId : ℤ} {nextId rest : ℕ} {user : PlatformUser}
    (stored : UserStored telegramUserId nextId rest user before after)
    (range : rest = nextId + 1 → first ≤ nextId ∧ nextId < last) :
    AccessExtends first last before after := by
  rcases stored.onlyUsers with ⟨change, rfl⟩
  have same : AccessExtends first last before before := of_tables rfl rfl rfl rfl
  refine ⟨?_, same.workspaces, same.decided, ?_, same.workspaceIds, same.owners, same.requestIds,
    rfl⟩
  · intro other old found
    by_cases mine : other = telegramUserId
    · subst mine
      rcases stored.identifier with ⟨present, present_eq, same, _⟩ | ⟨absent, _⟩
      · cases present_eq.symm.trans found
        exact ⟨user, stored.found, same.symm⟩
      · cases absent.symm.trans found
    · exact ⟨old, (stored.others mine).trans found, rfl⟩
  · intro row row_mem
    rcases stored.within row row_mem with ⟨new, drawn⟩ | old
    · rw [new]
      exact .inl (range drawn)
    · exact .inr old

theorem storedWorkspace {userId nextId rest workspaceId : ℕ} {status : WorkspaceStatus}
    (stored : WorkspaceStored userId nextId rest workspaceId status before after)
    (owner : rest = nextId + 1 → ∃ user ∈ before.db.platformUsers, user.id = userId)
    (range : rest = nextId + 1 → first ≤ nextId ∧ nextId < last) :
    AccessExtends first last before after := by
  rcases stored.onlyWorkspaces with ⟨change, rfl⟩
  have same : AccessExtends first last before before := of_tables rfl rfl rfl rfl
  refine ⟨same.users, stored.remains, same.decided, same.userIds, ?_, ?_, same.requestIds, rfl⟩
  · intro row row_mem
    rcases stored.within row row_mem with ⟨new, _, drawn⟩ | ⟨old, old_mem, same, _⟩
    · rw [new]
      exact .inl (range drawn)
    · exact .inr ⟨old, old_mem, same⟩
  · intro row row_mem
    rcases stored.within row row_mem with ⟨_, mine, drawn⟩ | ⟨old, old_mem, _, same⟩
    · rcases owner drawn with ⟨user, user_mem, user_eq⟩
      exact .inl (.inr ⟨user, user_mem, mine.trans user_eq.symm⟩)
    · exact .inr ⟨old, old_mem, same⟩

/-- The requests are rewritten, but not those that are decided. -/
theorem settled {requestId : ℕ} {row : AccessRequest} {rewrite : AccessRequest → AccessRequest}
    (kept : ∀ other, (rewrite other).id = other.id)
    (found : before.db.request requestId = some row) (pending : row.status = .pending) :
    AccessExtends first last before
      (writeRequests (updateWhere (fun other => other.id = requestId) rewrite) before) := by
  have same : AccessExtends first last before before := of_tables rfl rfl rfl rfl
  refine ⟨same.users, same.workspaces, ?_, same.userIds, same.workspaceIds, same.owners, ?_, rfl⟩
  · intro other old old_eq decided
    have different : other ≠ requestId := by
      rintro rfl
      cases found.symm.trans old_eq
      exact decided pending
    rw [← old_eq]
    apply lookup_updateWhere_of_unselected kept
    intro candidate candidate_eq
    exact decide_eq_false fun equal => different (candidate_eq.symm.trans equal)
  · intro other other_mem
    rcases mem_updateWhere.mp other_mem with ⟨old, old_mem, rfl⟩
    refine ⟨old, old_mem, ?_⟩
    split_ifs
    · exact kept old
    · rfl

end AccessExtends

end CopyMint
