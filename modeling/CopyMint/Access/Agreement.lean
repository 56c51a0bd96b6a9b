import CopyMint.Access.Reachable

/-!
# Access tables that agree with each other

However the calls are interleaved, a user has at most one pending request and one
workspace, a decided request stays as it is and has one decision, and the five tables of
an account say the same about it.
-/

namespace CopyMint

open Hexadecimal Relational RowSecurity Locking Interleaving

/-- The workspace is out of service, with every destination that it has. -/
structure Disabled (db : AccessDatabase) (user : PlatformUser) (workspace : Workspace) :
    Prop extends OutOfService db user workspace where
  silent : ∀ row ∈ db.destinations, row.workspaceId = workspace.id → row.enabled = false

/-- The decision of a request, with its audit row. -/
structure DecidedOnce (state : AccessState) (row : AccessRequest) : Prop where
  decision : ∃ decision, state.history.filter (·.concerns row.id) = [decision] ∧
    decision.Decides row
  audit : ∃ audit, state.db.auditLogs.filter (·.concerns row.id) = [audit] ∧ audit.Records row

/-- What the tables of access say together. -/
structure AccessAgrees (state : AccessState) : Prop where
  pending : ∀ first ∈ state.db.accessRequests, ∀ second ∈ state.db.accessRequests,
    first.status = .pending → second.status = .pending →
      first.telegramUserId = second.telegramUserId → first = second
  decided : ∀ row ∈ state.db.accessRequests, row.status = .approved ∨ row.status = .rejected →
    DecidedOnce state row
  workspaces : ∀ first ∈ state.db.workspaces, ∀ second ∈ state.db.workspaces,
    first.personalOwnerUserId = second.personalOwnerUserId → first = second
  standing : ∀ user ∈ state.db.platformUsers, ∀ workspace ∈ state.db.workspaces,
    workspace.personalOwnerUserId = user.id →
      InGoodStanding state.db user workspace ∨ Disabled state.db user workspace

variable {ownerIds : List ℤ} {isoformat : ℤ → Text} {auditLogs : Policy SessionSettings AuditLog}
  {before after : AccessState} {process : AccessProcess} {event : AccessEvent}
  {world later : World (Locked AccessState AccessKey) AccessProcess}

theorem ne_pending_of_decided {row : AccessRequest}
    (decided : row.status = .approved ∨ row.status = .rejected) : row.status ≠ .pending := by
  rcases decided with status | status <;> simp [status]

theorem AccessSound.agrees (sound : AccessSound ownerIds before) : AccessAgrees before where
  pending := by
    intro first first_mem second second_mem first_pending second_pending same
    apply sound.requests.unique.eq_of_key_eq first_mem second_mem
    exact sound.requests.pending first_mem second_mem first_pending second_pending same
  decided := by
    intro row row_mem decided
    have recorded := sound.requests.recorded (sound.requests.bounded row row_mem)
    have once := recorded.decided (sound.requests.unique.lookup_of_mem row_mem)
      (ne_pending_of_decided decided)
    exact ⟨once.1, once.2⟩
  workspaces := fun _ first_mem _ second_mem =>
    sound.accounts.keyed.workspaces.eq_of_key_eq first_mem second_mem
  standing := by
    intro user user_mem workspace workspace_mem owns
    have keyed := sound.accounts.keyed
    have found : before.db.user user.telegramUserId = some user :=
      keyed.users.lookup_of_mem user_mem
    have owned : before.db.workspaceOf user.id = some workspace :=
      owns ▸ keyed.workspaces.lookup_of_mem workspace_mem
    rcases sound.accounts.accounts _ user workspace found owned with ⟨good, _⟩ | out
    · exact .inl good
    · refine .inr ⟨out, fun row row_mem same => ?_⟩
      have stored : before.db.destination row.workspaceId row.telegramChatId = some row :=
        keyed.destinations.lookup_of_mem row_mem
      exact out.destinations (same ▸ stored)

/-- A decided request stays as it is. -/
theorem AccessChange.request_of_decided (change : AccessChange ownerIds before process event after)
    {row : AccessRequest} (found : before.db.request row.id = some row)
    (decided : row.status ≠ .pending) : after.db.request row.id = some row := by
  cases change with
  | kept => exact found
  | decided _ effect => exact effect.extends_.decided found decided
  | @requested identity now =>
      rcases getOrCreatePendingRequest_spec identity now before.db with
        same | ⟨created, _, _, _, written⟩
      · rw [same]
        exact found
      · rw [written]
        simp only [AccessDatabase.request] at found
        simp only [AccessDatabase.request, lookup_append, found, Option.some_or]

/--
In every state that the calls can reach, by any interleaving of their statements, the
tables of access agree, and what has been decided by then stays so.
-/
theorem accessState_agrees
    (run : (accessService ownerIds isoformat auditLogs).Reaches Unrestricted initialAccess world) :
    AccessAgrees world.store.committed ∧
      ∀ {later}, (accessService ownerIds isoformat auditLogs).Reaches Unrestricted world later →
        ∀ row ∈ world.store.committed.db.accessRequests,
          row.status = .approved ∨ row.status = .rejected →
            later.store.committed.db.request row.id = some row := by
  have holds := accessWorld_of_reaches run
  refine ⟨holds.sound.agrees, fun continues row row_mem decided => ?_⟩
  refine (continues.invariant (fun reached => AccessWorld ownerIds reached ∧
    reached.store.committed.db.request row.id = some row) ?_ ⟨holds, ?_⟩).2
  · rintro reached next index event ⟨holds, found⟩ _ acted
    rcases holds.act acted with ⟨after, change⟩
    exact ⟨after, change.request_of_decided found (ne_pending_of_decided decided)⟩
  · exact holds.sound.requests.unique.lookup_of_mem row_mem

section Samples

/-- The owner in the private chat. -/
def ownerIdentity : TelegramIdentity where
  telegramUserId := 1
  chatId := 1
  chatType := privateChat

/-- An identity asks for access, and gets a request. -/
def requesting (index : ℕ) (identity : TelegramIdentity) (latest : Option AccessRequest)
    (now : ℤ) : List (ℕ × AccessEvent) :=
  [(index, .requestAccess identity), (index, .findPrincipal),
    (index, .findLatestRequest latest now), (index, .getOrCreatePendingRequest)]

/-- The owner decides, in a transaction of some statements. -/
def decidingAs (index : ℕ) (operation : AccessOperation) (now : ℤ) (statements : ℕ)
    (latest : Option AccessRequest) : List (ℕ × AccessEvent) :=
  [(index, .resolveContext ownerIdentity 7 latest), (index, .decide operation now)] ++
    List.replicate statements (index, .statement) ++ [(index, .commit)]

/-- A user asks for access, and the owner approves it. -/
def approvalSchedule : List (ℕ × AccessEvent) :=
  requesting 0 sampleIdentity none 1000 ++ decidingAs 1 (.approve 0) 2000 25 none

end Samples

/-- The request that the owner approves has one decision, and the account agrees. -/
theorem sampleApproval_agrees :
    ∃ world, (accessService [1] Json.decimal auditPolicy).Reaches Unrestricted initialAccess world ∧
      (world.store.committed.db.accessRequests.map AccessRequest.status) = [.approved] ∧
        AccessAgrees world.store.committed := by
  have reached : ((accessService [1] Json.decimal auditPolicy).execute initialAccess
      approvalSchedule).any (fun world =>
        world.store.committed.db.accessRequests.map AccessRequest.status = [.approved]) = true := by
    decide +kernel
  rcases (Option.any_eq_true _ _).mp reached with ⟨world, executed, approved⟩
  have run := Program.reaches_of_execute executed (Program.meets_unrestricted _ _)
  exact ⟨world, run, of_decide_eq_true approved, (accessState_agrees run).1⟩

end CopyMint
