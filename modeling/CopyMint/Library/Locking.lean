import CopyMint.Library.Relational
import Mathlib.Logic.Function.Basic
import Mathlib.Tactic.SplitIfs

/-!
# Transactions under row locks

A transaction is a script of statements: it locks keys, queries the store and
writes to it, and in the end it is done or fails. Many transactions run at once at
the level of single statements. Each query sees the committed store under the
transaction's own writes, and sees it as it is at the time of that query. Locks are
kept to the end, and the writes are committed all at once.

Nothing orders the statements of different transactions but their locks. If every
query reads only what is guarded by keys that are locked by then, or the
transaction fails in the end where the answer has changed, and if every write is
confined to such keys, a commit nevertheless does what its script, run as a whole
on the committed store, would do at that moment.
-/

namespace Locking

universe u v w x

/-- The statements of a transaction, each with the rest of it. -/
inductive Script (Store : Type u) (Key : Type v) (Failure : Type w) (Result : Type x) where
  | done (result : Result)
  | fail (failure : Failure)
  | lock (key : Key) (next : Script Store Key Failure Result)
  | query (next : Store → Script Store Key Failure Result)
  | write (change : Store → Store) (next : Script Store Key Failure Result)

namespace Script

variable {Store : Type u} {Key : Type v} {Failure : Type w} {Result Other : Type x}

/-- One script after another. -/
protected def bind : Script Store Key Failure Result →
    (Result → Script Store Key Failure Other) → Script Store Key Failure Other
  | done result, rest => rest result
  | fail failure, _ => fail failure
  | lock key next, rest => lock key (next.bind rest)
  | query next, rest => query fun store => (next store).bind rest
  | write change next, rest => write change (next.bind rest)

instance : Monad (Script Store Key Failure) where
  pure := done
  bind := Script.bind

/-- Lock a key. -/
def locked (key : Key) : Script Store Key Failure PUnit := lock key (done ⟨⟩)

/-- Read from the store. -/
def select (read : Store → Result) : Script Store Key Failure Result :=
  query fun store => done (read store)

/-- Read from the store, or fail. -/
def require (read : Store → Except Failure Result) : Script Store Key Failure Result :=
  query fun store =>
    match read store with
    | .error failure => fail failure
    | .ok result => done result

/-- A statement that writes. -/
def update (change : Store → Store) : Script Store Key Failure PUnit := write change (done ⟨⟩)

/-- The whole script at once. -/
def run : Script Store Key Failure Result → Store → Except Failure (Store × Result)
  | done result, store => .ok (store, result)
  | fail failure, _ => .error failure
  | lock _ next, store => next.run store
  | query next, store => (next store).run store
  | write change next, store => next.run (change store)

theorem run_bind (script : Script Store Key Failure Result)
    (rest : Result → Script Store Key Failure Other) (store : Store) :
    (script >>= rest).run store =
      match script.run store with
      | .error failure => .error failure
      | .ok (after, result) => (rest result).run after := by
  induction script generalizing store with
  | done result => rfl
  | fail failure => rfl
  | lock key next ih => exact ih store
  | query next ih => exact ih store store
  | write change next ih => exact ih (change store)

@[simp]
theorem run_pure (result : Result) (store : Store) :
    (pure result : Script Store Key Failure Result).run store = .ok (store, result) := rfl

@[simp]
theorem run_locked (key : Key) (store : Store) :
    (locked key : Script Store Key Failure PUnit).run store = .ok (store, ⟨⟩) := rfl

@[simp]
theorem run_select (read : Store → Result) (store : Store) :
    (select read : Script Store Key Failure Result).run store = .ok (store, read store) := rfl

theorem run_require (read : Store → Except Failure Result) (store : Store) :
    (require read : Script Store Key Failure Result).run store =
      match read store with
      | .error failure => .error failure
      | .ok result => .ok (store, result) := by
  simp only [require, run]
  cases read store <;> rfl

@[simp]
theorem run_update (change : Store → Store) (store : Store) :
    (update change : Script Store Key Failure PUnit).run store = .ok (change store, ⟨⟩) := rfl

theorem run_bind_eq_ok {script : Script Store Key Failure Result}
    {rest : Result → Script Store Key Failure Other} {store final : Store} {other : Other} :
    (script >>= rest).run store = .ok (final, other) ↔
      ∃ after result, script.run store = .ok (after, result) ∧
        (rest result).run after = .ok (final, other) := by
  rw [run_bind]
  cases ran : script.run store with
  | error failure => simp
  | ok reached =>
      rcases reached with ⟨after, result⟩
      simp only [Except.ok.injEq, Prod.mk.injEq]
      constructor
      · exact fun ran => ⟨after, result, ⟨rfl, rfl⟩, ran⟩
      · rintro ⟨_, _, ⟨rfl, rfl⟩, ran⟩
        exact ran

/-- The script does what the other one does, unless it fails. -/
inductive Refines : Script Store Key Failure Result → Script Store Key Failure Result → Prop
  | refl (script) : Refines script script
  | fail (failure other) : Refines (fail failure) other
  | lock (key) {next other} (rest : Refines next other) : Refines (lock key next) (lock key other)
  | query {next other} (rest : ∀ store, Refines (next store) (other store)) :
      Refines (query next) (query other)
  | write (change) {next other} (rest : Refines next other) :
      Refines (write change next) (write change other)

section Refinement

variable {script other third : Script Store Key Failure Result}

theorem Refines.done_left {result : Result} (refines : (Script.done result).Refines other) :
    other = Script.done result := by
  cases refines
  rfl

theorem Refines.lock_left {key : Key} (refines : (Script.lock key script).Refines other) :
    ∃ next, other = Script.lock key next ∧ script.Refines next := by
  cases refines with
  | refl => exact ⟨script, rfl, .refl _⟩
  | lock _ rest => exact ⟨_, rfl, rest⟩

theorem Refines.query_left {next : Store → Script Store Key Failure Result}
    (refines : (Script.query next).Refines other) :
    ∃ rest, other = Script.query rest ∧ ∀ store, (next store).Refines (rest store) := by
  cases refines with
  | refl => exact ⟨next, rfl, fun _ => .refl _⟩
  | query rest => exact ⟨_, rfl, rest⟩

theorem Refines.write_left {change : Store → Store}
    (refines : (Script.write change script).Refines other) :
    ∃ next, other = Script.write change next ∧ script.Refines next := by
  cases refines with
  | refl => exact ⟨script, rfl, .refl _⟩
  | write _ rest => exact ⟨_, rfl, rest⟩

theorem Refines.trans (first : script.Refines other) (second : other.Refines third) :
    script.Refines third := by
  induction first generalizing third with
  | refl => exact second
  | fail failure => exact .fail failure third
  | lock key _ ih =>
      rcases second.lock_left with ⟨next, rfl, rest⟩
      exact .lock key (ih rest)
  | query _ ih =>
      rcases second.query_left with ⟨next, rfl, rest⟩
      exact .query fun store => ih store (rest store)
  | write change _ ih =>
      rcases second.write_left with ⟨next, rfl, rest⟩
      exact .write change (ih rest)

theorem Refines.bind (refines : script.Refines other)
    (rest : Result → Script Store Key Failure Other) :
    (script >>= rest).Refines (other >>= rest) := by
  induction refines with
  | refl => exact .refl _
  | fail failure => exact .fail failure _
  | lock key _ ih => exact .lock key ih
  | query _ ih => exact .query ih
  | write change _ ih => exact .write change ih

end Refinement

end Script

/--
What of a store a key guards, as a relation between two stores that agree on it, and
how a store can grow without any key.
-/
structure Footprint (Store : Type u) (Key : Type v) where
  agrees : Key → Store → Store → Prop
  grows : Store → Store → Prop
  refl : ∀ key store, agrees key store store
  trans : ∀ {key first second third}, agrees key first second → agrees key second third →
    agrees key first third
  grows_refl : ∀ store, grows store store
  grows_trans : ∀ {first second third}, grows first second → grows second third →
    grows first third

section Guards

variable {Store : Type u} {Key : Type v} {Failure : Type w} {Result Other : Type x}
  (footprint : Footprint Store Key)

/-- The later store has grown from the other one and agrees with it on what the keys guard. -/
structure Footprint.AgreesOn (held : List Key) (before after : Store) : Prop where
  grows : footprint.grows before after
  agrees : ∀ key ∈ held, footprint.agrees key before after

/-- A change is confined to what the keys guard, and says the same where stores agree. -/
structure Footprint.Confined (held : List Key) (change : Store → Store) : Prop where
  respects : ∀ {key before after}, footprint.agrees key before after →
    footprint.agrees key (change before) (change after)
  confined : ∀ {key}, key ∉ held → ∀ store, footprint.agrees key store (change store)
  monotone : ∀ {before after}, footprint.grows before after →
    footprint.grows (change before) (change after)
  grows : ∀ store, footprint.grows store (change store)

/--
Queries depend only on what is guarded by the keys that are held, unless the script
fails later, and writes are confined to it. The last condition is about the keys and
the result at the end.
-/
def Script.Guarded : List Key → Script Store Key Failure Result →
    (List Key → Result → Prop) → Prop
  | held, .done result, atEnd => atEnd held result
  | _, .fail _, _ => True
  | held, .lock key next, atEnd => Guarded (key :: held) next atEnd
  | held, .query next, atEnd =>
      (∀ before after, footprint.AgreesOn held before after →
        (next before).Refines (next after)) ∧ ∀ store, Guarded held (next store) atEnd
  | held, .write change next, atEnd =>
      footprint.Confined held change ∧ Guarded held next atEnd

variable {footprint} {held : List Key}

theorem Footprint.Confined.view {change : Store → Store}
    (confined : footprint.Confined held change) {before after : Store}
    (agree : footprint.AgreesOn held before after) :
    footprint.AgreesOn held (change before) (change after) :=
  ⟨confined.monotone agree.grows, fun key mem => confined.respects (agree.agrees key mem)⟩

theorem Footprint.confined_id : footprint.Confined held id :=
  ⟨id, fun _ => footprint.refl _, id, footprint.grows_refl⟩

theorem Footprint.Confined.comp {larger : List Key} {first second : Store → Store}
    (before : footprint.Confined held first) (after : footprint.Confined larger second)
    (larger_superset : held ⊆ larger) : footprint.Confined larger (second ∘ first) where
  respects := fun agree => after.respects (before.respects agree)
  confined := fun free store => footprint.trans
    (before.confined (fun key_mem => free (larger_superset key_mem)) store)
    (after.confined free (first store))
  monotone := fun grows => after.monotone (before.monotone grows)
  grows := fun store => footprint.grows_trans (before.grows store) (after.grows (first store))

namespace Script

theorem Guarded.bind {script : Script Store Key Failure Result}
    {rest : Result → Script Store Key Failure Other} {atEnd : List Key → Other → Prop}
    (guarded : script.Guarded footprint held fun held result =>
      (rest result).Guarded footprint held atEnd) :
    (script >>= rest).Guarded footprint held atEnd := by
  induction script generalizing held with
  | done result => exact guarded
  | fail failure => trivial
  | lock key next ih => exact ih guarded
  | query next ih =>
      refine ⟨fun before after agree => ?_, fun store => ih store (guarded.2 store)⟩
      exact (guarded.1 before after agree).bind rest
  | write change next ih => exact ⟨guarded.1, ih guarded.2⟩

theorem Guarded.mono {script : Script Store Key Failure Result}
    {weaker atEnd : List Key → Result → Prop} (guarded : script.Guarded footprint held atEnd)
    (implies : ∀ {held result}, atEnd held result → weaker held result) :
    script.Guarded footprint held weaker := by
  induction script generalizing held with
  | done result => exact implies guarded
  | fail failure => trivial
  | lock key next ih => exact ih guarded
  | query next ih => exact ⟨guarded.1, fun store => ih store (guarded.2 store)⟩
  | write change next ih => exact ⟨guarded.1, ih guarded.2⟩

/-- A script leaves alone what is guarded by the keys that it has not locked in the end. -/
theorem Guarded.frame {script : Script Store Key Failure Result}
    {atEnd : List Key → Result → Prop} (guarded : script.Guarded footprint held atEnd)
    {store after : Store} {result : Result} (ran : script.run store = .ok (after, result)) :
    ∃ larger, held ⊆ larger ∧ atEnd larger result ∧
      ∀ key, key ∉ larger → footprint.agrees key store after := by
  induction script generalizing held store with
  | done value =>
      cases ran
      exact ⟨held, List.Subset.refl _, guarded, fun key _ => footprint.refl key _⟩
  | fail failure => cases ran
  | lock key next ih =>
      rcases ih guarded ran with ⟨larger, superset, holds, agree⟩
      exact ⟨larger, fun _ mem => superset (List.mem_cons_of_mem _ mem), holds, agree⟩
  | query next ih => exact ih store (guarded.2 store) ran
  | write change next ih =>
      rcases ih guarded.2 ran with ⟨larger, superset, holds, agree⟩
      refine ⟨larger, superset, holds, fun key free => ?_⟩
      exact footprint.trans (guarded.1.confined (fun mem => free (superset mem)) store)
        (agree key free)

theorem guarded_select {read : Store → Result} {atEnd : List Key → Result → Prop}
    (same : ∀ {before after}, footprint.AgreesOn held before after → read before = read after)
    (holds : ∀ store, atEnd held (read store)) :
    (select read : Script Store Key Failure Result).Guarded footprint held atEnd := by
  refine ⟨fun before after agree => ?_, holds⟩
  simp only [same agree]
  exact .refl _

theorem guarded_require {read : Store → Except Failure Result}
    {atEnd : List Key → Result → Prop}
    (same : ∀ {before after result}, footprint.AgreesOn held before after →
      read before = .ok result → read after = .ok result)
    (holds : ∀ {store result}, read store = .ok result → atEnd held result) :
    (require read : Script Store Key Failure Result).Guarded footprint held atEnd := by
  constructor
  · intro before after agree
    cases found : read before with
    | error failure =>
        simp only [found]
        exact .fail failure _
    | ok result =>
        simp only [found, same agree found]
        exact .refl _
  · intro store
    cases found : read store with
    | error failure =>
        simp only [found]
        trivial
    | ok result =>
        simp only [found]
        exact holds found

theorem guarded_update {change : Store → Store} {atEnd : List Key → PUnit → Prop}
    (confined : footprint.Confined held change) (holds : atEnd held ⟨⟩) :
    (update change : Script Store Key Failure PUnit).Guarded footprint held atEnd :=
  ⟨confined, holds⟩

/--
Look for a row in order to insert it where there is none. The query locks a row that
it sees, and reads it again once it has the lock. It cannot lock a row that is not
there; the insertion then takes the key in the unique index, and fails if somebody
else has inserted the row in between.
-/
def getOrCreate (key : Key) (read : Store → Option Result) (violation : Failure) :
    Script Store Key Failure (Option Result) :=
  query fun seen => lock key <| require fun store =>
    match read store with
    | none => .ok none
    | some row => if (read seen).isSome then .ok (some row) else .error violation

/-- Lock a row that a query sees, and check it as it is once it is locked. -/
def getExisting (key : Key) (read : Store → Option Other) (absent : Failure)
    (check : Store → Except Failure Result) : Script Store Key Failure Result :=
  query fun seen => if (read seen).isSome then lock key (require check) else fail absent

theorem run_getOrCreate (key : Key) (read : Store → Option Result) (violation : Failure)
    (store : Store) : (getOrCreate key read violation).run store = .ok (store, read store) := by
  simp only [getOrCreate, run, run_require]
  cases read store <;> rfl

theorem run_getExisting {key : Key} {read : Store → Option Other} {absent : Failure}
    {check : Store → Except Failure Result} {store : Store}
    (absence : read store = none → check store = .error absent) :
    (getExisting key read absent check).run store =
      match check store with
      | .error failure => .error failure
      | .ok result => .ok (store, result) := by
  simp only [getExisting, run]
  cases found : read store with
  | none => simp [absence found, run]
  | some row => simp [run, run_require]

theorem guarded_getOrCreate {key : Key} {read : Store → Option Result} {violation : Failure}
    {atEnd : List Key → Option Result → Prop}
    (remains : ∀ {before after}, footprint.grows before after →
      (read before).isSome → (read after).isSome)
    (same : ∀ {before after}, footprint.agrees key before after → read before = read after)
    (holds : ∀ found, atEnd (key :: held) found) :
    (getOrCreate key read violation).Guarded footprint held atEnd := by
  refine ⟨fun before after agree => .lock key (.query fun store => ?_), fun store => ?_⟩
  · cases seen : (read before).isSome with
    | true =>
        simp only [remains agree.grows seen]
        exact .refl _
    | false =>
        -- Who inserts the row fails where the others find it.
        cases found : read store with
        | none =>
            simp only [found]
            exact .refl _
        | some row =>
            simp only [found]
            exact .fail _ _
  · apply guarded_require
    · intro first second result agree returned
      rw [← same (agree.agrees key List.mem_cons_self)]
      exact returned
    · intro final result _
      exact holds result

theorem guarded_getExisting {key : Key} {read : Store → Option Other} {absent : Failure}
    {check : Store → Except Failure Result} {atEnd : List Key → Result → Prop}
    (remains : ∀ {before after}, footprint.grows before after →
      (read before).isSome → (read after).isSome)
    (same : ∀ {before after result}, footprint.agrees key before after →
      check before = .ok result → check after = .ok result)
    (holds : ∀ {store result}, check store = .ok result → atEnd (key :: held) result) :
    (getExisting key read absent check).Guarded footprint held atEnd := by
  refine ⟨fun before after agree => ?_, fun store => ?_⟩
  · dsimp only
    split_ifs with seen remaining
    · exact .refl _
    · exact absurd (remains agree.grows seen) remaining
    · exact .fail _ _
    · exact .fail _ _
  · dsimp only
    split_ifs
    · apply guarded_require
      · exact fun agree => same (agree.agrees key List.mem_cons_self)
      · exact holds
    · trivial

end Script

end Guards

section Views

open Relational

variable {Store : Type u} {Index : Type v} {Row : Type w} {Table : Type x}
  {view : Index → Store → Option Row} {selected : Index → Prop} {change : Store → Store}

/-- A change of the store rewrites selected rows of a view, each by itself. -/
def MapsOn (view : Index → Store → Option Row) (selected : Index → Prop)
    (change : Store → Store) : Prop :=
  ∃ effect : Index → Row → Row,
    (∀ index store, view index (change store) = (view index store).map (effect index)) ∧
      ∀ index, ¬selected index → effect index = id

/-- A change of the store rewrites or inserts selected rows of a view, each by itself. -/
def ActsOn (view : Index → Store → Option Row) (selected : Index → Prop)
    (change : Store → Store) : Prop :=
  ∃ effect : Index → Option Row → Option Row,
    (∀ index store, view index (change store) = effect index (view index store)) ∧
      (∀ index, ¬selected index → effect index = id) ∧
        ∀ index row, (effect index (some row)).isSome

theorem mapsOn_unchanged (same : ∀ index store, view index (change store) = view index store) :
    MapsOn view selected change := by
  refine ⟨fun _ => id, fun index store => ?_, fun _ _ => rfl⟩
  rw [same, Option.map_id, id]

theorem MapsOn.actsOn (maps : MapsOn view selected change) : ActsOn view selected change := by
  rcases maps with ⟨effect, equal, kept⟩
  refine ⟨fun index => Option.map (effect index), equal, fun index free => ?_, fun _ _ => rfl⟩
  simp only [kept index free]
  exact Option.map_id

variable {index : Index} {before after : Store}

/-- Rows that remain the same are rewritten in the same way. -/
theorem MapsOn.respects (maps : MapsOn view selected change)
    (remains : ∀ row, view index before = some row → view index after = some row) (row : Row)
    (found : view index (change before) = some row) : view index (change after) = some row := by
  rcases maps with ⟨effect, equal, _⟩
  rw [equal, Option.map_eq_some_iff] at found ⊢
  rcases found with ⟨old, old_eq, rewritten⟩
  exact ⟨old, remains old old_eq, rewritten⟩

namespace ActsOn

theorem pointwise (acts : ActsOn view selected change)
    (same : view index before = view index after) :
    view index (change before) = view index (change after) := by
  rcases acts with ⟨effect, equal, _⟩
  rw [equal, equal, same]

theorem kept (acts : ActsOn view selected change) (free : ¬selected index) (store : Store) :
    view index store = view index (change store) := by
  rcases acts with ⟨effect, equal, kept, _⟩
  rw [equal, kept index free, id]

theorem grows (acts : ActsOn view selected change) (index : Index) (store : Store)
    (present : (view index store).isSome) : (view index (change store)).isSome := by
  rcases acts with ⟨effect, equal, _, present_effect⟩
  rcases Option.isSome_iff_exists.mp present with ⟨row, found⟩
  rw [equal, found]
  exact present_effect index row

theorem monotone (acts : ActsOn view selected change)
    (remains : (view index before).isSome → (view index after).isSome)
    (present : (view index (change before)).isSome) : (view index (change after)).isSome := by
  cases found : view index after with
  | some row =>
      apply acts.grows
      rw [found]
      rfl
  | none =>
      have absent : view index before = none := by
        apply Option.not_isSome_iff_eq_none.mp
        intro seen
        simpa [found] using remains seen
      rw [← acts.pointwise (absent.trans found.symm)]
      exact present

end ActsOn

variable [DecidableEq Index] {key : Row → Index} {table : Store → List Row}

theorem mapsOn_updateWhere {chosen : Row → Bool} {rewrite : Row → Row}
    (written : ∀ store, table (change store) = updateWhere chosen rewrite (table store))
    (kept : ∀ row, key (rewrite row) = key row)
    (within : ∀ row, chosen row = true → selected (key row)) :
    MapsOn (fun index store => lookup key index (table store)) selected change := by
  classical
  refine ⟨fun index row => if selected index ∧ chosen row = true then rewrite row else row, ?_, ?_⟩
  · intro index store
    simp only [written, lookup_updateWhere kept]
    apply Option.map_congr
    intro row found
    have same : key row = index := (lookup_eq_some_mem found).2
    by_cases chooses : chosen row = true
    · rw [if_pos chooses, if_pos ⟨same ▸ within row chooses, chooses⟩]
    · rw [if_neg chooses, if_neg fun both => chooses both.2]
  · intro index free
    funext row
    exact if_neg fun both => free both.1

theorem actsOn_append {row : Row}
    (written : ∀ store, table (change store) = table store ++ [row]) (locked : selected (key row)) :
    ActsOn (fun index store => lookup key index (table store)) selected change := by
  refine ⟨fun index found => found.or (lookup key index [row]), ?_, ?_, fun _ _ => rfl⟩
  · intro index store
    simp only [written, lookup_append]
  · intro index free
    have different : key row ≠ index := by
      rintro rfl
      exact free locked
    funext found
    simp only [lookup_singleton, if_neg different, Option.or_none, id]

end Views

/-- A transaction under way. -/
structure Running (Store : Type u) (Key : Type v) (Failure : Type w) (Result : Type x) where
  /-- The whole script. -/
  origin : Script Store Key Failure Result
  /-- The statements that are left. -/
  script : Script Store Key Failure Result
  held : List Key
  /-- What the transaction has written, and nobody else sees. -/
  change : Store → Store

/-- The committed store and the keys that are locked by anybody. -/
structure Locked (Store : Type u) (Key : Type v) where
  committed : Store
  locks : List Key

namespace Running

variable {Store : Type u} {Key : Type v} {Failure : Type w} {Result : Type x} [DecidableEq Key]

/-- A script before its first statement. -/
def start (script : Script Store Key Failure Result) : Running Store Key Failure Result :=
  ⟨script, script, [], id⟩

/-- Execute the next statement, which waits where it needs a key that somebody else holds. -/
def step (locked : Locked Store Key) (running : Running Store Key Failure Result) :
    Option (Locked Store Key × Running Store Key Failure Result) :=
  match running.script with
  | .done _ | .fail _ => none
  | .lock key next =>
      if key ∈ locked.locks ∧ key ∉ running.held then none
      else
        some ({ locked with locks := key :: locked.locks },
          { running with script := next, held := key :: running.held })
  | .query next =>
      some (locked, { running with script := next (running.change locked.committed) })
  | .write change next =>
      some (locked, { running with script := next, change := change ∘ running.change })

theorem step_origin {locked nextLocked : Locked Store Key}
    {running next : Running Store Key Failure Result}
    (stepped : running.step locked = some (nextLocked, next)) : next.origin = running.origin := by
  simp only [step] at stepped
  split at stepped
  · cases stepped
  · cases stepped
  · split_ifs at stepped
    cases stepped
    rfl
  · cases stepped
    rfl
  · cases stepped
    rfl

/-- The locks that are left when a transaction ends. -/
def release (locked : Locked Store Key) (running : Running Store Key Failure Result) : List Key :=
  locked.locks.filter fun key => key ∉ running.held

/-- Commit the writes of a transaction that is done. -/
def commit (locked : Locked Store Key) (running : Running Store Key Failure Result) :
    Option (Locked Store Key × Result) :=
  match running.script with
  | .done result =>
      some (⟨running.change locked.committed, running.release locked⟩, result)
  | _ => none

/-- Roll a transaction back, which can happen at any time. -/
def abort (locked : Locked Store Key) (running : Running Store Key Failure Result) :
    Locked Store Key :=
  { locked with locks := running.release locked }

end Running

section Serialization

variable {Store : Type u} {Key : Type v} {Failure : Type w} {Result : Type x}

/--
How a script comes to its rest on one and the same store, with the keys that it has
locked and the changes that it has made on the way.
-/
inductive Progress (store : Store) (origin : Script Store Key Failure Result) :
    List Key → Script Store Key Failure Result → (Store → Store) → Prop
  | start : Progress store origin [] origin id
  | lock {held key next change} (before : Progress store origin held (.lock key next) change) :
      Progress store origin (key :: held) next change
  | query {held next change} (before : Progress store origin held (.query next) change) :
      Progress store origin held (next (change store)) change
  | write {held next change new} (before : Progress store origin held (.write new next) change) :
      Progress store origin held next (new ∘ change)

namespace Progress

variable {footprint : Footprint Store Key} {store after : Store} {held : List Key}
  {origin script : Script Store Key Failure Result} {change : Store → Store}
  {atEnd : List Key → Result → Prop}

/-- The rest of a script does to the changed store what the whole does to the store. -/
theorem run_eq (progress : Progress store origin held script change) :
    origin.run store = script.run (change store) := by
  induction progress with
  | start => rfl
  | lock _ ih => exact ih
  | query _ ih => exact ih
  | write _ ih => exact ih

/-- A guarded script stays guarded, and its changes are confined to the keys it holds. -/
theorem guarded (progress : Progress store origin held script change)
    (guards : origin.Guarded footprint [] atEnd) :
    script.Guarded footprint held atEnd ∧ footprint.Confined held change := by
  induction progress with
  | start => exact ⟨guards, footprint.confined_id⟩
  | lock _ ih => exact ⟨ih.1, ih.2.comp footprint.confined_id (List.subset_cons_self _ _)⟩
  | query _ ih => exact ⟨ih.1.2 _, ih.2⟩
  | write _ ih => exact ⟨ih.1.2, ih.2.comp ih.1.1 (List.Subset.refl _)⟩

/-- A script comes to the same rest on any later store that agrees, unless it fails. -/
theorem stable (progress : Progress store origin held script change)
    (guards : origin.Guarded footprint [] atEnd) (agree : footprint.AgreesOn held store after) :
    ∃ rest, Progress after origin held rest change ∧ script.Refines rest := by
  induction progress with
  | start => exact ⟨origin, .start, .refl _⟩
  | lock before ih =>
      rcases ih ⟨agree.grows, fun key mem => agree.agrees key (List.mem_cons_of_mem _ mem)⟩ with
        ⟨rest, same, refines⟩
      rcases refines.lock_left with ⟨next, rfl, onwards⟩
      exact ⟨next, same.lock, onwards⟩
  | @query held next change before ih =>
      rcases ih agree with ⟨rest, same, refines⟩
      rcases refines.query_left with ⟨later, rfl, onwards⟩
      have reads := (same.guarded guards).1.1
      have views := (before.guarded guards).2.view agree
      exact ⟨_, same.query, (onwards _).trans (reads _ _ views)⟩
  | write before ih =>
      rcases ih agree with ⟨rest, same, refines⟩
      rcases refines.write_left with ⟨next, rfl, onwards⟩
      exact ⟨next, same.write, onwards⟩

end Progress

variable (footprint : Footprint Store Key)

/-- A transaction has got where its script would have got on the committed store, or fails. -/
def Running.Serial (committed : Store) (running : Running Store Key Failure Result) : Prop :=
  running.origin.Guarded footprint [] (fun _ _ => True) ∧
    ∃ rest, Progress committed running.origin running.held rest running.change ∧
      running.script.Refines rest

/-- No two transactions hold a key, and each could have run on the committed store alone. -/
structure Isolated (locked : Locked Store Key)
    (transactions : ℕ → Option (Running Store Key Failure Result)) : Prop where
  locks : ∀ {index running}, transactions index = some running →
    ∀ key ∈ running.held, key ∈ locked.locks
  exclusive : ∀ {first second running other key}, transactions first = some running →
    transactions second = some other → key ∈ running.held → key ∈ other.held → first = second
  serial : ∀ {index running}, transactions index = some running →
    running.Serial footprint locked.committed

variable {footprint} {locked : Locked Store Key}
  {transactions after : ℕ → Option (Running Store Key Failure Result)} {index : ℕ}

theorem Running.Serial.stable {committed next : Store}
    {running : Running Store Key Failure Result} (serial : running.Serial footprint committed)
    (agree : footprint.AgreesOn running.held committed next) : running.Serial footprint next := by
  rcases serial with ⟨guards, script, progress, refines⟩
  rcases progress.stable guards agree with ⟨rest, same, further⟩
  exact ⟨guards, rest, same, refines.trans further⟩

namespace Isolated

/--
The transaction of one process is replaced, in a way that leaves the keys of the
others, and what they guard, alone.
-/
theorem replace (isolated : Isolated footprint locked transactions) {next : Locked Store Key}
    (others : ∀ {other}, other ≠ index → after other = transactions other)
    (grows : footprint.grows locked.committed next.committed)
    (locks : ∀ {other running key}, other ≠ index → transactions other = some running →
      key ∈ running.held → key ∈ next.locks ∧ footprint.agrees key locked.committed next.committed)
    (mine : ∀ {running}, after index = some running →
      (∀ key ∈ running.held, key ∈ next.locks) ∧ running.Serial footprint next.committed ∧
        ∀ {other another key}, other ≠ index → transactions other = some another →
          key ∈ running.held → key ∉ another.held) :
    Isolated footprint next after := by
  constructor
  · intro other running found key held
    by_cases acting : other = index
    · subst acting
      exact (mine found).1 key held
    · rw [others acting] at found
      exact (locks acting found held).1
  · intro first second running other key found foundOther held heldOther
    by_cases first_acts : first = index
    · by_cases second_acts : second = index
      · rw [first_acts, second_acts]
      · subst first_acts
        rw [others second_acts] at foundOther
        exact absurd heldOther ((mine found).2.2 second_acts foundOther held)
    · rw [others first_acts] at found
      by_cases second_acts : second = index
      · subst second_acts
        exact absurd held ((mine foundOther).2.2 first_acts found heldOther)
      · rw [others second_acts] at foundOther
        exact isolated.exclusive found foundOther held heldOther
  · intro other running found
    by_cases acting : other = index
    · subst acting
      exact (mine found).2.1
    · rw [others acting] at found
      exact (isolated.serial found).stable ⟨grows, fun key held => (locks acting found held).2⟩

/-- A change that no key guards against disturbs nobody. -/
theorem change (isolated : Isolated footprint locked transactions) {committed : Store}
    (agree : ∀ held, footprint.AgreesOn held locked.committed committed) :
    Isolated footprint { locked with committed } transactions where
  locks := isolated.locks
  exclusive := isolated.exclusive
  serial := fun found => (isolated.serial found).stable (agree _)

theorem start (isolated : Isolated footprint locked transactions)
    {script : Script Store Key Failure Result}
    (guards : script.Guarded footprint [] fun _ _ => True)
    (others : ∀ {other}, other ≠ index → after other = transactions other)
    (started : after index = some (.start script)) : Isolated footprint locked after := by
  refine isolated.replace others (footprint.grows_refl _) ?_ ?_
  · exact fun _ found held => ⟨isolated.locks found _ held, footprint.refl _ _⟩
  · intro running found
    cases started.symm.trans found
    refine ⟨fun key held => ?_, ⟨guards, script, .start, .refl _⟩, fun _ _ held => ?_⟩ <;>
      exact absurd held List.not_mem_nil

/-- A process without a transaction has no part in the isolation. -/
theorem stop (isolated : Isolated footprint locked transactions)
    (others : ∀ {other}, other ≠ index → after other = transactions other)
    (stopped : after index = none) : Isolated footprint locked after := by
  refine isolated.replace others (footprint.grows_refl _) ?_ ?_
  · exact fun _ found held => ⟨isolated.locks found _ held, footprint.refl _ _⟩
  · intro running found
    cases stopped.symm.trans found

variable [DecidableEq Key] {running next : Running Store Key Failure Result}
  {nextLocked : Locked Store Key}

theorem mem_release (isolated : Isolated footprint locked transactions)
    (found : transactions index = some running) {other : ℕ} (different : other ≠ index)
    {another : Running Store Key Failure Result} (foundOther : transactions other = some another)
    {key : Key} (held : key ∈ another.held) :
    key ∈ running.release locked ∧ key ∉ running.held := by
  have free : key ∉ running.held := fun mine =>
    different (isolated.exclusive foundOther found held mine)
  exact ⟨List.mem_filter.mpr ⟨isolated.locks foundOther key held, by simpa using free⟩, free⟩

omit [DecidableEq Key] in
/-- The transaction of one process goes on without taking further keys. -/
theorem proceed (isolated : Isolated footprint locked transactions)
    (found : transactions index = some running) (same : next.held = running.held)
    (serial : next.Serial footprint locked.committed)
    (others : ∀ {other}, other ≠ index → after other = transactions other)
    (moved : after index = some next) : Isolated footprint locked after := by
  refine isolated.replace others (footprint.grows_refl _) ?_ ?_
  · exact fun _ foundOther held => ⟨isolated.locks foundOther _ held, footprint.refl _ _⟩
  · intro current foundCurrent
    cases moved.symm.trans foundCurrent
    rw [same]
    refine ⟨isolated.locks found, serial, ?_⟩
    exact fun different foundOther held heldOther =>
      different (isolated.exclusive foundOther found heldOther held)

theorem step (isolated : Isolated footprint locked transactions)
    (found : transactions index = some running)
    (stepped : running.step locked = some (nextLocked, next))
    (others : ∀ {other}, other ≠ index → after other = transactions other)
    (moved : after index = some next) :
    Isolated footprint nextLocked after ∧ nextLocked.committed = locked.committed := by
  rcases isolated.serial found with ⟨guards, reached, progress, refines⟩
  simp only [Running.step] at stepped
  split at stepped
  · cases stepped
  · cases stepped
  · rename_i key rest script_eq
    split_ifs at stepped with waits
    cases stepped
    rw [script_eq] at refines
    rcases refines.lock_left with ⟨later, rfl, onwards⟩
    refine ⟨isolated.replace others (footprint.grows_refl _) ?_ ?_, rfl⟩
    · exact fun _ foundOther held =>
        ⟨List.mem_cons_of_mem _ (isolated.locks foundOther _ held), footprint.refl _ _⟩
    · intro current foundCurrent
      cases moved.symm.trans foundCurrent
      refine ⟨fun other held => ?_, ⟨guards, later, progress.lock, onwards⟩, ?_⟩
      · rcases List.mem_cons.mp held with rfl | earlier
        · exact List.mem_cons_self
        · exact List.mem_cons_of_mem _ (isolated.locks found _ earlier)
      · intro other another taken different foundOther held heldOther
        rcases List.mem_cons.mp held with rfl | earlier
        · -- The key was free, or the transaction itself held it before.
          by_cases mine : taken ∈ running.held
          · exact different (isolated.exclusive foundOther found heldOther mine)
          · exact waits ⟨isolated.locks foundOther _ heldOther, mine⟩
        · exact different (isolated.exclusive foundOther found heldOther earlier)
  · rename_i rest script_eq
    cases stepped
    rw [script_eq] at refines
    rcases refines.query_left with ⟨later, rfl, onwards⟩
    refine ⟨isolated.proceed found ?_ ?_ others moved, rfl⟩
    · rfl
    · exact ⟨guards, _, progress.query, onwards (running.change locked.committed)⟩
  · rename_i new rest script_eq
    cases stepped
    rw [script_eq] at refines
    rcases refines.write_left with ⟨later, rfl, onwards⟩
    refine ⟨isolated.proceed found ?_ ?_ others moved, rfl⟩
    · rfl
    · exact ⟨guards, later, progress.write, onwards⟩

/-- A commit does what the whole script does to the committed store at that moment. -/
theorem commit (isolated : Isolated footprint locked transactions)
    (found : transactions index = some running) {result : Result}
    (committed : running.commit locked = some (nextLocked, result))
    (others : ∀ {other}, other ≠ index → after other = transactions other)
    (ended : after index = none) :
    Isolated footprint nextLocked after ∧
      running.origin.run locked.committed = .ok (nextLocked.committed, result) := by
  simp only [Running.commit] at committed
  split at committed
  · rename_i value script_eq
    cases committed
    rcases isolated.serial found with ⟨guards, reached, progress, refines⟩
    rw [script_eq] at refines
    cases refines.done_left
    have confined := (progress.guarded guards).2
    constructor
    · refine isolated.replace others (confined.grows _) ?_ ?_
      · intro other another key different foundOther held
        have released := isolated.mem_release found different foundOther held
        exact ⟨released.1, confined.confined released.2 _⟩
      · intro current foundCurrent
        cases ended.symm.trans foundCurrent
    · rw [progress.run_eq]
      rfl
  · cases committed

theorem abort (isolated : Isolated footprint locked transactions)
    (found : transactions index = some running)
    (others : ∀ {other}, other ≠ index → after other = transactions other)
    (ended : after index = none) : Isolated footprint (running.abort locked) after := by
  refine isolated.replace others (footprint.grows_refl _) ?_ ?_
  · intro other another key different foundOther held
    exact ⟨(isolated.mem_release found different foundOther held).1, footprint.refl _ _⟩
  · intro current foundCurrent
    cases ended.symm.trans foundCurrent

end Isolated

end Serialization

end Locking
