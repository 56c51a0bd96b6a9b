import CopyMint.Access.Consistency

/-!
# The states that access can be in

In every world that is reached the committed state is sound, and each decision under way
is one of a configured owner with identifiers that nobody else has drawn. An action leaves
the committed state alone but for the next identifier, commits a whole decision, or makes
a request.
-/

namespace CopyMint

open Hexadecimal Relational RowSecurity Locking Interleaving

/-- The identifiers that are in use have been drawn. -/
structure Drawn (db : AccessDatabase) : Prop where
  users : ∀ row ∈ db.platformUsers, row.id < db.nextId
  workspaces : ∀ row ∈ db.workspaces, row.id < db.nextId
  owners : ∀ row ∈ db.workspaces, row.personalOwnerUserId < db.nextId
  requests : ∀ row ∈ db.accessRequests, row.id < db.nextId

/-- A decision under way is one of a configured owner, and has used no identifier yet. -/
structure Deciding (ownerIds : List ℤ) (db : AccessDatabase) (actor : ℤ)
    (operation : AccessOperation) (firstId : ℕ)
    (origin : AccessScript (Option AccessDecisionResult)) : Prop where
  configured : actor ∈ ownerIds
  transaction : OwnerTransaction ownerIds actor firstId operation origin
  unused : Unused firstId (firstId + decisionIds) db
  drawn : firstId + decisionIds ≤ db.nextId

namespace AccessProcess

/-- What a caller goes by is right. -/
def Sound (ownerIds : List ℤ) (db : AccessDatabase) : AccessProcess → Prop
  | authorized context =>
      context.isPlatformOwner = true → context.telegramUserId ∈ ownerIds
  | deciding context operation firstId running =>
      Deciding ownerIds db context.telegramUserId operation firstId running.origin
  | _ => True

/-- The first identifier that was drawn for a decision. -/
def firstId : AccessProcess → Option ℕ
  | deciding _ _ firstId _ => some firstId
  | _ => none

/-- An identifier has been drawn for both. -/
def Overlaps (left right : AccessProcess) : Prop :=
  ∃ low high, left.firstId = some low ∧ right.firstId = some high ∧
    low < high + decisionIds ∧ high < low + decisionIds

theorem Overlaps.symm {left right : AccessProcess} (overlaps : left.Overlaps right) :
    right.Overlaps left := by
  rcases overlaps with ⟨low, high, left_eq, right_eq, low_lt, high_lt⟩
  exact ⟨high, low, right_eq, left_eq, high_lt, low_lt⟩

theorem firstId_eq_none {process : AccessProcess} (absent : process.transaction = none) :
    process.firstId = none := by
  cases process <;> first | rfl | cases absent

end AccessProcess

/-- What holds in every world that is reached. -/
structure AccessWorld (ownerIds : List ℤ)
    (world : World (Locked AccessState AccessKey) AccessProcess) : Prop where
  sound : AccessSound ownerIds world.store.committed
  drawn : Drawn world.store.committed.db
  isolated : Isolated accessFootprint world.store fun index => (world.process index).transaction
  processes : ∀ index, (world.process index).Sound ownerIds world.store.committed.db
  disjoint : ∀ first second, (world.process first).Overlaps (world.process second) →
    first = second

/-- What an action does to the committed state. -/
inductive AccessChange (ownerIds : List ℤ) (before : AccessState) :
    AccessProcess → AccessEvent → AccessState → Prop
  | kept {process event nextId} (uncommitted : event ≠ .commit) :
      AccessChange ownerIds before process event { before with db := { before.db with nextId } }
  | decided {context operation firstId running after}
      (configured : context.telegramUserId ∈ ownerIds)
      (effect : DecisionEffect ownerIds context.telegramUserId operation firstId before after) :
      AccessChange ownerIds before (.deciding context operation firstId running) .commit after
  | requested {identity now} :
      AccessChange ownerIds before (.eligible identity now) .getOrCreatePendingRequest
        { before with db := (getOrCreatePendingRequest identity now before.db).1 }

variable {ownerIds : List ℤ} {world : World (Locked AccessState AccessKey) AccessProcess}
  {index : ℕ}

/-- A commit is one of a whole decision of a configured owner. -/
theorem AccessChange.committed {before after : AccessState} {context : RequestContext}
    {operation : AccessOperation} {firstId : ℕ}
    {running : Running AccessState AccessKey TransactionFailure (Option AccessDecisionResult)}
    (change : AccessChange ownerIds before (.deciding context operation firstId running) .commit
      after) :
    context.telegramUserId ∈ ownerIds ∧
      DecisionEffect ownerIds context.telegramUserId operation firstId before after := by
  cases change with
  | kept uncommitted => exact absurd rfl uncommitted
  | decided configured effect => exact ⟨configured, effect⟩

/-- The users and the workspaces are what they were, and no identifier is given back. -/
structure SameOwners (before after : AccessDatabase) : Prop where
  users : after.platformUsers = before.platformUsers
  workspaces : after.workspaces = before.workspaces
  nextId : before.nextId ≤ after.nextId

theorem SameOwners.sound {before after : AccessDatabase} (same : SameOwners before after)
    {process : AccessProcess} (sound : process.Sound ownerIds before) :
    process.Sound ownerIds after := by
  cases process with
  | deciding context operation firstId running =>
      rcases same with ⟨users, workspaces, nextId⟩
      rcases sound with ⟨configured, transaction, unused, drawn⟩
      refine ⟨configured, transaction, ⟨?_, ?_, ?_⟩, by omega⟩
      · rw [users]
        exact unused.users
      · rw [workspaces]
        exact unused.workspaces
      · rw [workspaces]
        exact unused.owners
  | authorized => exact sound
  | idle | requesting | inactive | eligible => trivial

/-- One process moves on. -/
theorem AccessWorld.update (holds : AccessWorld ownerIds world)
    {store : Locked AccessState AccessKey} {state : AccessProcess}
    (sound : AccessSound ownerIds store.committed) (drawn : Drawn store.committed.db)
    (isolated : Isolated accessFootprint store fun other =>
      (Function.update world.process index state other).transaction)
    (mine : state.Sound ownerIds store.committed.db)
    (others : ∀ other, other ≠ index → (world.process other).Sound ownerIds store.committed.db)
    (fresh : ∀ other, other ≠ index → ¬state.Overlaps (world.process other)) :
    AccessWorld ownerIds ⟨store, Function.update world.process index state⟩ where
  sound := sound
  drawn := drawn
  isolated := isolated
  processes := by
    intro other
    dsimp only
    by_cases same : other = index
    · rw [same, Function.update_self]
      exact mine
    · rw [Function.update_of_ne same]
      exact others other same
  disjoint := fun _ _ =>
    exclusive_update AccessProcess.Overlaps AccessProcess.Overlaps.symm _ fresh holds.disjoint

section Steps

variable {isoformat : ℤ → Text} {auditLogs : Policy SessionSettings AuditLog}
  {before after : AccessState} {state : AccessProcess}

theorem transaction_update_of_ne {processes : ℕ → AccessProcess} {other : ℕ}
    (different : other ≠ index) :
    (Function.update processes index state other).transaction = (processes other).transaction := by
  rw [Function.update_of_ne different]

theorem transaction_update_self (processes : ℕ → AccessProcess) :
    (Function.update processes index state index).transaction = state.transaction := by
  rw [Function.update_self]

theorem not_overlaps_of_firstId_eq_none {other : AccessProcess} (absent : state.firstId = none) :
    ¬state.Overlaps other := by
  rintro ⟨low, high, found, _⟩
  cases absent.symm.trans found

/-- Another range of identifiers remains unused after a decision. -/
theorem Deciding.sound {actor : ℤ} {operation : AccessOperation} {low : ℕ}
    {origin : AccessScript (Option AccessDecisionResult)} {first : ℕ}
    (deciding : Deciding ownerIds before.db actor operation low origin)
    (extends_ : AccessExtends first (first + 7) before after)
    (disjoint : first + 7 ≤ low ∨ low + 7 ≤ first) :
    Deciding ownerIds after.db actor operation low origin := by
  refine ⟨deciding.configured, deciding.transaction, extends_.unused deciding.unused disjoint, ?_⟩
  rw [extends_.nextId]
  exact deciding.drawn

/-- A decision uses identifiers that have been drawn. -/
theorem Drawn.extended {first : ℕ} (drawn : Drawn before.db)
    (extends_ : AccessExtends first (first + 7) before after)
    (bound : first + decisionIds ≤ before.db.nextId) : Drawn after.db := by
  rw [decisionIds] at bound
  constructor
  · intro row row_mem
    rw [extends_.nextId]
    rcases extends_.userIds row row_mem with new | ⟨old, old_mem, same⟩
    · omega
    · rw [same]
      exact drawn.users old old_mem
  · intro row row_mem
    rw [extends_.nextId]
    rcases extends_.workspaceIds row row_mem with new | ⟨old, old_mem, same⟩
    · omega
    · rw [same]
      exact drawn.workspaces old old_mem
  · intro row row_mem
    rw [extends_.nextId]
    rcases extends_.owners row row_mem with (new | ⟨old, old_mem, same⟩) | ⟨old, old_mem, same⟩
    · omega
    · rw [same]
      exact drawn.users old old_mem
    · rw [same]
      exact drawn.owners old old_mem
  · intro row row_mem
    rw [extends_.nextId]
    rcases extends_.requestIds row row_mem with ⟨old, old_mem, same⟩
    rw [same]
    exact drawn.requests old old_mem

theorem Drawn.mono {before after : AccessDatabase} (drawn : Drawn before)
    (requests : after.accessRequests = before.accessRequests) (same : SameOwners before after) :
    Drawn after := by
  rcases same with ⟨users, workspaces, nextId⟩
  refine ⟨?_, ?_, ?_, ?_⟩
  · rw [users]
    exact fun row row_mem => (drawn.users row row_mem).trans_le nextId
  · rw [workspaces]
    exact fun row row_mem => (drawn.workspaces row row_mem).trans_le nextId
  · rw [workspaces]
    exact fun row row_mem => (drawn.owners row row_mem).trans_le nextId
  · rw [requests]
    exact fun row row_mem => (drawn.requests row row_mem).trans_le nextId

/-- The identifiers of a decision under way have been drawn. -/
theorem AccessProcess.Sound.drawn {db : AccessDatabase} {low : ℕ} (sound : state.Sound ownerIds db)
    (found : state.firstId = some low) : low + decisionIds ≤ db.nextId := by
  cases state with
  | deciding =>
      cases found
      exact Deciding.drawn sound
  | _ => cases found

/-- A decision that goes on keeps its identifiers for itself. -/
theorem AccessWorld.fresh (holds : AccessWorld ownerIds world)
    (same : (world.process index).firstId = state.firstId) (other : ℕ) (different : other ≠ index) :
    ¬state.Overlaps (world.process other) := by
  rintro ⟨low, high, low_eq, overlaps⟩
  exact different (holds.disjoint index other ⟨low, high, same.trans low_eq, overlaps⟩).symm

/-- No decision under way reads the next identifier. -/
theorem agreesOn_nextId (held : List AccessKey) (nextId : ℕ) :
    accessFootprint.AgreesOn held before { before with db := { before.db with nextId } } := by
  refine ⟨⟨fun _ => id, fun _ => id, fun _ => id⟩, fun key _ => ?_⟩
  exact accessFootprint.refl key before

/-- The accounts do not depend on the requests. -/
theorem AccountsSound.unwritten_requests (sound : AccountsSound ownerIds before)
    (accessRequests : List AccessRequest) (nextId : ℕ) :
    AccountsSound ownerIds { before with db := { before.db with accessRequests, nextId } } where
  keyed := ⟨sound.keyed.users, sound.keyed.userIds, sound.keyed.workspaces,
    sound.keyed.workspaceIds, sound.keyed.memberships, sound.keyed.destinations⟩
  owners := sound.owners
  accounts := by
    intro telegramUserId user workspace found owns
    have agree := accessFootprint.refl (.workspace workspace.id) before
    rcases sound.accounts telegramUserId user workspace found owns with ⟨good, endorsed⟩ | out
    · exact .inl ⟨good.agree agree, endorsed⟩
    · exact .inr (out.agree agree)

theorem AccessSound.nextId (sound : AccessSound ownerIds before) (nextId : ℕ) :
    AccessSound ownerIds { before with db := { before.db with nextId } } where
  accounts := sound.accounts.unwritten_requests _ nextId
  requests := ⟨sound.requests.unique, sound.requests.bounded, sound.requests.pending,
    fun bound =>
      ⟨(sound.requests.recorded bound).decided, (sound.requests.recorded bound).undecided⟩⟩
  links := ⟨sound.links.members, sound.links.users, sound.links.approved⟩

/-- What the request of a user does to a world. -/
structure Requested (before after : AccessState) : Prop where
  history : after.history = before.history
  owners : SameOwners before.db after.db
  agrees : ∀ held, accessFootprint.AgreesOn held before after
  drawn : Drawn before.db → Drawn after.db

theorem requested (identity : TelegramIdentity) (now : ℤ) (before : AccessState) :
    Requested before
      { before with db := (getOrCreatePendingRequest identity now before.db).1 } := by
  rcases getOrCreatePendingRequest_spec identity now before.db with
    same | ⟨created, id_eq, created_pending, unpending, written⟩
  · rw [same]
    exact ⟨rfl, ⟨rfl, rfl, le_rfl⟩, fun held => agreesOn_nextId held _, id⟩
  · rw [written]
    refine ⟨rfl, ⟨rfl, rfl, by simp⟩, fun held => ⟨⟨fun _ => id, ?_, fun _ => id⟩, ?_⟩, ?_⟩
    · intro requestId present
      simp only [AccessDatabase.request, lookup_append, Option.isSome_or] at present ⊢
      simp [present]
    · intro key _
      cases key with
      | request requestId =>
          intro row found
          simp only [AccessDatabase.request] at found
          simp [AccessDatabase.request, lookup_append, found]
      | user telegramUserId => exact accessFootprint.refl (.user telegramUserId) before
      | owner userId => exact accessFootprint.refl (.owner userId) before
      | workspace workspaceId => exact accessFootprint.refl (.workspace workspaceId) before
    · intro drawn
      refine ⟨?_, ?_, ?_, ?_⟩
      · exact fun row row_mem => (drawn.users row row_mem).trans (Nat.lt_succ_self _)
      · exact fun row row_mem => (drawn.workspaces row row_mem).trans (Nat.lt_succ_self _)
      · exact fun row row_mem => (drawn.owners row row_mem).trans (Nat.lt_succ_self _)
      · intro row row_mem
        rcases List.mem_append.mp row_mem with old | new
        · exact (drawn.requests row old).trans (Nat.lt_succ_self _)
        · rw [List.mem_singleton.mp new, id_eq]
          exact Nat.lt_succ_self _

theorem AccessSound.request (sound : AccessSound ownerIds before) (drawn : Drawn before.db)
    (bound : before.db.nextId < 2 ^ 128) (identity : TelegramIdentity) (now : ℤ) :
    AccessSound ownerIds
      { before with db := (getOrCreatePendingRequest identity now before.db).1 } := by
  refine ⟨?_, sound.requests.request identity now drawn.requests bound, ?_⟩
  · rcases getOrCreatePendingRequest_spec identity now before.db with
      same | ⟨created, _, _, _, written⟩
    · rw [same]
      exact sound.accounts
    · rw [written]
      exact sound.accounts.unwritten_requests _ _
  · rcases getOrCreatePendingRequest_spec identity now before.db with
      same | ⟨created, _, pending, _, written⟩
    · rw [same]
      exact sound.links
    · exact sound.links.request pending written

/-- A caller can leave at any time. -/
theorem AccessWorld.leave (holds : AccessWorld ownerIds world) (index : ℕ) :
    AccessWorld ownerIds ⟨world.store, Function.update world.process index .idle⟩ := by
  refine holds.update holds.sound holds.drawn ?_ trivial (fun other _ => holds.processes other)
    fun _ _ => not_overlaps_of_firstId_eq_none rfl
  exact holds.isolated.stop transaction_update_of_ne (transaction_update_self world.process)

/-- An action keeps what holds in every world, and changes the committed state in few ways. -/
theorem AccessWorld.act {world next : World (Locked AccessState AccessKey) AccessProcess}
    {event : AccessEvent} (holds : AccessWorld ownerIds world)
    (acted : (accessService ownerIds isoformat auditLogs).act world index event = some next) :
    AccessWorld ownerIds next ∧
      AccessChange ownerIds world.store.committed (world.process index) event
        next.store.committed := by
  rcases Program.act_eq_some_iff.mp acted with ⟨store, state, stepped, rfl⟩
  have elsewhere : ∀ {other}, other ≠ index →
      (Function.update world.process index state other).transaction =
        (world.process other).transaction := transaction_update_of_ne
  have here : (Function.update world.process index state index).transaction = state.transaction :=
    transaction_update_self world.process
  have before := holds.processes index
  generalize found : world.process index = process at stepped before
  cases accessTransition stepped with
  | moved uncommitted _ none_after resolved =>
      refine ⟨holds.update holds.sound holds.drawn ?_ ?_ ?_ ?_, .kept uncommitted⟩
      · exact holds.isolated.stop elsewhere (here.trans none_after)
      · cases state with
        | authorized context =>
            intro owner
            rcases resolved context rfl with ⟨identity, correlationId, latest, resolved⟩
            rcases resolveContext_eq_ok resolved with ⟨_, same, configured, _⟩
            rw [same]
            exact configured (of_decide_eq_true owner)
        | deciding => cases none_after
        | idle | requesting | inactive | eligible => trivial
      · exact fun other _ => holds.processes other
      · exact fun other _ =>
          not_overlaps_of_firstId_eq_none (AccessProcess.firstId_eq_none none_after)
  | started owner transaction bound =>
      have same : SameOwners world.store.committed.db
          (drawIds decisionIds world.store).committed.db := ⟨rfl, rfl, Nat.le_add_right _ _⟩
      refine ⟨holds.update (holds.sound.nextId _) ?_ ?_ ?_ ?_ ?_, .kept nofun⟩
      · exact holds.drawn.mono rfl same
      · refine (holds.isolated.start transaction.guarded elsewhere here).change fun held => ?_
        exact agreesOn_nextId held _
      · refine ⟨before owner, transaction, ?_, le_rfl⟩
        exact ⟨fun row row_mem => .inl (holds.drawn.users row row_mem),
          fun row row_mem => .inl (holds.drawn.workspaces row row_mem),
          fun row row_mem => .inl (holds.drawn.owners row row_mem)⟩
      · exact fun other _ => same.sound (holds.processes other)
      · rintro other _ ⟨low, high, low_eq, high_eq, overlaps, _⟩
        cases low_eq
        exact absurd ((holds.processes other).drawn high_eq) (by omega)
  | stepped moved =>
      rcases holds.isolated.step (by rw [found]; rfl) moved elsewhere here with
        ⟨isolated, committed_eq⟩
      refine ⟨holds.update ?_ ?_ isolated ?_ ?_ ?_, ?_⟩
      · exact committed_eq ▸ holds.sound
      · exact committed_eq ▸ holds.drawn
      · rw [committed_eq]
        exact ⟨before.configured, (Running.step_origin moved).symm ▸ before.transaction,
          before.unused, Deciding.drawn before⟩
      · exact fun other _ => committed_eq ▸ holds.processes other
      · apply holds.fresh
        rw [found]
        rfl
      · dsimp only
        rw [committed_eq]
        exact .kept nofun
  | @committed context operation firstId running _ _ committed =>
      rcases holds.isolated.commit (by rw [found]; rfl) committed elsewhere here with
        ⟨isolated, ran⟩
      have effect := before.transaction.effect before.configured holds.sound before.unused ran
      refine ⟨holds.update effect.sound ?_ isolated trivial ?_ ?_,
        .decided before.configured effect⟩
      · exact holds.drawn.extended effect.extends_ (Deciding.drawn before)
      · intro other different
        have sound := holds.processes other
        cases process : world.process other with
        | deciding another operation otherId running =>
            rw [process] at sound
            refine Deciding.sound sound effect.extends_ ?_
            have apart := mt (holds.disjoint other index) different
            by_contra overlaps
            refine apart ⟨otherId, firstId, ?_, ?_, ?_⟩
            · rw [process]
              rfl
            · rw [found]
              rfl
            · simp only [decisionIds]
              omega
        | authorized another =>
            rw [process] at sound
            exact sound
        | idle | requesting | inactive | eligible => trivial
      · exact fun other _ => not_overlaps_of_firstId_eq_none rfl
  | aborted =>
      refine ⟨holds.update holds.sound holds.drawn ?_ trivial ?_ ?_, .kept nofun⟩
      · exact holds.isolated.abort (by rw [found]; rfl) elsewhere here
      · exact fun other _ => holds.processes other
      · exact fun other _ => not_overlaps_of_firstId_eq_none rfl
  | @requested identity now bound =>
      have asks := requested identity now world.store.committed
      refine ⟨holds.update (holds.sound.request holds.drawn bound identity now) ?_ ?_ trivial ?_ ?_,
        .requested⟩
      · exact asks.drawn holds.drawn
      · exact (holds.isolated.stop elsewhere here).change asks.agrees
      · exact fun other _ => asks.owners.sound (holds.processes other)
      · exact fun other _ => not_overlaps_of_firstId_eq_none rfl

/-- Nobody has an account or a request at first. -/
theorem accessSound_empty : AccessSound ownerIds emptyAccessState where
  accounts := by
    refine ⟨?_, fun found => ?_, fun _ _ _ found => ?_⟩
    · exact ⟨unique_nil, unique_nil, unique_nil, unique_nil, unique_nil, unique_nil⟩
    · cases found
    · cases found
  requests := by
    refine ⟨unique_nil, fun _ => nofun, fun first_mem => ?_, fun _ => ⟨fun found => ?_, ?_⟩⟩
    · cases first_mem
    · cases found
    · exact fun _ => ⟨rfl, rfl⟩
  links := by
    refine ⟨fun member => ?_, fun found => ?_, fun _ => nofun⟩
    · cases member
    · cases found

theorem accessWorld_initially : AccessWorld ownerIds initialAccess where
  sound := accessSound_empty
  drawn := by
    refine ⟨?_, ?_, ?_, ?_⟩ <;>
      · intro row row_mem
        cases row_mem
  isolated := by
    refine ⟨fun found => ?_, fun found => ?_, fun found => ?_⟩ <;> cases found
  processes := fun _ => trivial
  disjoint := fun _ _ overlaps => absurd overlaps (not_overlaps_of_firstId_eq_none rfl)

theorem accessWorld_of_reaches
    {allowed : Condition (Locked AccessState AccessKey) AccessProcess AccessEvent}
    (run : (accessService ownerIds isoformat auditLogs).Reaches allowed initialAccess world) :
    AccessWorld ownerIds world :=
  run.invariant (AccessWorld ownerIds) (fun holds _ acted => (holds.act acted).1)
    accessWorld_initially

end Steps

end CopyMint
