import CopyMint.Access.Agreement

/-!
# Requests that have been overtaken

`request_access` asks for the user and for the latest request before it makes a new one,
and an approval can be committed in between. An owner who decides something becomes an
active user as well, whether or not a request of the owner is pending. Active users have
nothing pending in the runs in which neither happens.
-/

namespace CopyMint

open Hexadecimal Relational RowSecurity Locking Interleaving

/-- No active user has a pending request. -/
def ActivesSettled (db : AccessDatabase) : Prop :=
  ∀ row ∈ db.accessRequests, row.status = .pending →
    ∀ user, db.user row.telegramUserId = some user → user.status ≠ .active

/--
A request is made for a user who is not active, and whoever decides has no pending
request but the one that is decided.
-/
def AccessProcess.isTimely (db : AccessDatabase) : AccessProcess → AccessEvent → Bool
  | .eligible identity _, .getOrCreatePendingRequest =>
      !(db.user identity.telegramUserId).any fun user => user.status = .active
  | .deciding actor operation _ _, .commit =>
      db.accessRequests.all fun row =>
        row.status ≠ .pending || row.telegramUserId ≠ actor.telegramUserId ||
          operation.requestId = some row.id
  | _, _ => true

/-- The state is such that the action does not overtake a request. -/
def Timely : Condition (Locked AccessState AccessKey) AccessProcess AccessEvent :=
  fun world index event => (world.process index).isTimely world.store.committed.db event = true

instance (world : World (Locked AccessState AccessKey) AccessProcess) (index : ℕ)
    (event : AccessEvent) : Decidable (Timely world index event) :=
  inferInstanceAs (Decidable (_ = true))

variable {ownerIds : List ℤ} {isoformat : ℤ → Text} {auditLogs : Policy SessionSettings AuditLog}
  {before after : AccessState} {process : AccessProcess} {event : AccessEvent}
  {world : World (Locked AccessState AccessKey) AccessProcess}

/-- A decision keeps active users without pending requests, if the actor has none left. -/
theorem ActivesSettled.decided {actor : ℤ} {operation : AccessOperation}
    (settled : ActivesSettled before.db) (requests : RequestsSound before)
    (decided : Decided actor operation before after)
    (timely : ∀ row ∈ before.db.accessRequests, row.status = .pending →
      row.telegramUserId = actor → operation.requestId = some row.id) :
    ActivesSettled after.db := by
  intro row row_mem pending user found active
  rcases decided.pending row row_mem pending with ⟨old_mem, undecided⟩
  rcases decided.actives found active with
    mine | ⟨old, old_eq, wasActive⟩ | ⟨other, approved, other_eq, otherPending, same⟩
  · exact undecided (timely row old_mem pending mine)
  · exact settled row old_mem pending old old_eq wasActive
  · have other_mem := (lookup_eq_some_mem other_eq).1
    have id_eq := requests.pending other_mem old_mem otherPending pending same
    refine undecided ?_
    rw [approved, ← id_eq]
    rfl

/-- A request for a user who is not active keeps active users without pending requests. -/
theorem ActivesSettled.request {identity : TelegramIdentity} {now : ℤ} {db : AccessDatabase}
    (settled : ActivesSettled db)
    (inactive : ∀ user, db.user identity.telegramUserId = some user → user.status ≠ .active) :
    ActivesSettled (getOrCreatePendingRequest identity now db).1 := by
  simp only [getOrCreatePendingRequest]
  split
  · exact settled
  · intro row row_mem pending user found
    rcases List.mem_append.mp row_mem with old | new
    · exact settled row old pending user found
    · rw [List.mem_singleton.mp new] at found
      exact inactive user found

theorem ActivesSettled.change (settled : ActivesSettled before.db)
    (requests : RequestsSound before) (timely : process.isTimely before.db event = true)
    (change : AccessChange ownerIds before process event after) : ActivesSettled after.db := by
  cases change with
  | kept => exact settled
  | decided _ effect =>
      refine settled.decided requests effect.decided fun row row_mem pending mine => ?_
      have passes := List.all_eq_true.mp timely row row_mem
      simpa [pending, mine] using passes
  | requested =>
      refine settled.request fun user found active => ?_
      simp [AccessProcess.isTimely, found, active] at timely

/-- A request for an active user is pending, or was so before. -/
theorem not_settled_of_request {identity : TelegramIdentity} {now : ℤ} {db : AccessDatabase}
    {user : PlatformUser} (found : db.user identity.telegramUserId = some user)
    (active : user.status = .active) :
    ¬ActivesSettled (getOrCreatePendingRequest identity now db).1 := by
  simp only [getOrCreatePendingRequest]
  split
  · rename_i row existing
    have row_mem := List.mem_of_find?_eq_some existing
    have chosen := List.find?_some existing
    simp only [Bool.and_eq_true, decide_eq_true_eq] at chosen
    exact fun settled => settled row row_mem chosen.2 user (chosen.1 ▸ found) active
  · intro settled
    exact settled _ (List.mem_append_right _ (List.mem_singleton_self _)) rfl user found active

/-- An action that overtakes a request leaves an active user with a pending one. -/
theorem not_settled_of_overtakes {index : ℕ}
    {next : World (Locked AccessState AccessKey) AccessProcess} (holds : AccessWorld ownerIds world)
    (overtakes : ¬Timely world index event)
    (acted : (accessService ownerIds isoformat auditLogs).act world index event = some next) :
    ¬ActivesSettled next.store.committed.db := by
  rcases holds.act acted with ⟨after, change⟩
  rcases Program.act_eq_some_iff.mp acted with ⟨store, state, stepped, rfl⟩
  simp only [Timely] at overtakes
  generalize world.process index = process at change stepped overtakes
  unfold AccessProcess.isTimely at overtakes
  split at overtakes
  · rename_i identity now
    simp only [Bool.not_eq_true', Bool.not_eq_false, Option.any_eq_true,
      decide_eq_true_eq] at overtakes
    rcases overtakes with ⟨user, found, active⟩
    simp only [accessService] at stepped
    split_ifs at stepped
    cases stepped
    exact not_settled_of_request found active
  · rename_i actor operation firstId running
    simp only [List.all_eq_true, not_forall] at overtakes
    rcases overtakes with ⟨row, row_mem, left_over⟩
    simp only [Bool.or_eq_true, decide_eq_true_eq, not_or, not_not] at left_over
    rcases left_over with ⟨⟨pending, mine⟩, undecided⟩
    rcases change.committed with ⟨configured, effect⟩
    rcases effect.decided.acted with ⟨user, found⟩
    have active := effect.sound.accounts.owners found configured
    have row_after := effect.decided.remaining row row_mem undecided
    exact fun settled => settled row row_after pending user (mine ▸ found) active
  · exact absurd rfl overtakes

/--
In every run whose actions overtake no request, no active user has a pending one in any
state that is reached.
-/
theorem actives_settled
    (run : (accessService ownerIds isoformat auditLogs).Reaches Timely initialAccess world) :
    ActivesSettled world.store.committed.db := by
  refine (run.invariant (fun reached => AccessWorld ownerIds reached ∧
    ActivesSettled reached.store.committed.db) ?_ ⟨accessWorld_initially, ?_⟩).2
  · rintro reached next index event ⟨holds, settled⟩ timely acted
    rcases holds.act acted with ⟨after, change⟩
    exact ⟨after, settled.change holds.sound.requests timely change⟩
  · intro row row_mem
    cases row_mem

/-- Once the request is approved, nothing is pending. -/
theorem sampleApproval_settled :
    ∃ world, (accessService [1] Json.decimal auditPolicy).Reaches Timely initialAccess world ∧
      world.store.committed.db.platformUsers.map PlatformUser.status = [.active, .active] ∧
        ActivesSettled world.store.committed.db := by
  have reached : ((accessService [1] Json.decimal auditPolicy).execute initialAccess
      approvalSchedule).any (fun world =>
        world.store.committed.db.platformUsers.map PlatformUser.status =
          [.active, .active]) = true := by
    decide +kernel
  rcases (Option.any_eq_true _ _).mp reached with ⟨world, executed, active⟩
  have meets : (accessService [1] Json.decimal auditPolicy).Meets Timely initialAccess
      approvalSchedule := by
    decide +kernel
  have run := Program.reaches_of_execute executed meets
  exact ⟨world, run, of_decide_eq_true active, actives_settled run⟩

/-- Two requests of one user, of which the second is made once the first has been approved. -/
def overtakenSchedule : List (ℕ × AccessEvent) :=
  (requesting 0 sampleIdentity none 1000).take 3 ++ approvalSchedule.map (Prod.map (· + 1) id) ++
    [(0, .getOrCreatePendingRequest)]

theorem overtakenRequest_pending :
    ¬∀ world, (accessService [1] Json.decimal auditPolicy).Reaches Unrestricted initialAccess
      world → ActivesSettled world.store.committed.db := by
  intro claimed
  have reached : ((accessService [1] Json.decimal auditPolicy).execute initialAccess
      overtakenSchedule).any (fun world => world.store.committed.db.accessRequests.any fun row =>
        row.status = .pending &&
          (world.store.committed.db.user row.telegramUserId).any fun user =>
            user.status = .active) = true := by
    decide +kernel
  rcases (Option.any_eq_true _ _).mp reached with ⟨world, executed, stale⟩
  rcases List.any_eq_true.mp stale with ⟨row, row_mem, stale⟩
  simp only [Bool.and_eq_true, decide_eq_true_eq, Option.any_eq_true] at stale
  rcases stale with ⟨pending, user, found, active⟩
  have run := Program.reaches_of_execute executed (Program.meets_unrestricted _ _)
  exact claimed world run row row_mem pending user found active

end CopyMint
