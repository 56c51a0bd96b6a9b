import CopyMint.Library.Interleaving

/-!
# Programs that call services

An interaction is the code of a process as a tree: it ends, or it makes a call and goes on with
what the call returns or raises. Every call is one atomic action on a store that other processes
share, so that the store may be another one at the next call.

A contract tells which calls may be made after what has been exchanged before, and what is known
about their results. `Ensures` is the weakest precondition of an interaction among any others
that keep to the contract, and what it says of an interaction holds of all histories of its runs.
-/

namespace Interleaving

universe u v w x

/-- A call and what it has returned or raised. -/
structure Exchange (Call : Type u) (Answer : Call → Type v) (Failure : Type v) where
  call : Call
  result : Except Failure (Answer call)

/-- A program that makes calls one after another, or that fails. -/
inductive Interaction (Call : Type u) (Answer : Call → Type v) (Failure α : Type v) where
  | done (value : α)
  | fail (failure : Failure)
  | ask (call : Call) (next : Except Failure (Answer call) → Interaction Call Answer Failure α)

section Programs

variable {Call : Type u} {Answer : Call → Type v} {Failure α β : Type v} {γ : Type w}

namespace Interaction

/-- Make a call, and fail with what it raises. -/
def ofCall (call : Call) : Interaction Call Answer Failure (Answer call) :=
  .ask call fun
    | .ok answer => .done answer
    | .error failure => .fail failure

/-- Go on with a value, or fail. -/
def ofExcept : Except Failure α → Interaction Call Answer Failure α
  | .ok value => .done value
  | .error failure => .fail failure

/-- One interaction after another. -/
def bind : Interaction Call Answer Failure α → (α → Interaction Call Answer Failure β) →
    Interaction Call Answer Failure β
  | .done value, next => next value
  | .fail failure, _ => .fail failure
  | .ask call more, next => .ask call fun result => (more result).bind next

instance : Monad (Interaction Call Answer Failure) where
  pure := .done
  bind := bind

/-- Catch whatever is raised. -/
def attempt : Interaction Call Answer Failure α → Interaction Call Answer Failure (Except Failure α)
  | .done value => .done (.ok value)
  | .fail failure => .done (.error failure)
  | .ask call more => .ask call fun result => (more result).attempt

/-- `for item in items`. -/
def forEach (body : γ → Interaction Call Answer Failure PUnit) :
    List γ → Interaction Call Answer Failure PUnit
  | [] => .done .unit
  | item :: items => (body item).bind fun _ => forEach body items

/-- Whatever its calls return or raise, all of them are of a kind. -/
def Only (kind : Call → Prop) : Interaction Call Answer Failure α → Prop
  | .done _ | .fail _ => True
  | .ask call next => kind call ∧ ∀ result, (next result).Only kind

variable {kind wider : Call → Prop} {program : Interaction Call Answer Failure α}

theorem Only.mono (only : program.Only kind) (implies : ∀ call, kind call → wider call) :
    program.Only wider := by
  induction program with
  | done | fail => trivial
  | ask call more ih => exact ⟨implies call only.1, fun result => ih result (only.2 result)⟩

theorem only_ofCall {call : Call} (own : kind call) :
    (ofCall call : Interaction Call Answer Failure (Answer call)).Only kind := by
  refine ⟨own, fun result => ?_⟩
  cases result <;> trivial

theorem only_ofExcept (result : Except Failure α) :
    (ofExcept result : Interaction Call Answer Failure α).Only kind := by
  cases result <;> trivial

theorem only_bind {next : α → Interaction Call Answer Failure β} (first : program.Only kind)
    (others : ∀ value, (next value).Only kind) : (program >>= next).Only kind := by
  induction program with
  | done value => exact others value
  | fail => trivial
  | ask call more ih => exact ⟨first.1, fun result => ih result (first.2 result)⟩

theorem only_attempt (only : program.Only kind) : program.attempt.Only kind := by
  induction program with
  | done | fail => trivial
  | ask call more ih => exact ⟨only.1, fun result => ih result (only.2 result)⟩

theorem only_forEach {body : γ → Interaction Call Answer Failure PUnit} {items : List γ}
    (turn : ∀ item ∈ items, (body item).Only kind) : (forEach body items).Only kind := by
  induction items with
  | nil => trivial
  | cons item items ih =>
      apply only_bind (turn item List.mem_cons_self)
      intro _
      exact ih fun other other_mem => turn other (List.mem_cons_of_mem _ other_mem)

end Interaction

end Programs

/-- Which calls may be made, and what is known about their results. -/
structure Contract (Store : Type w) (Origin : Type x) (Call : Type u) (Answer : Call → Type v)
    (Failure : Type v) where
  /-- What the actions of all processes together do to the store. -/
  later : Store → Store → Prop
  /-- A process with an origin and a history may make a call. -/
  allowed : Origin → Store → List (Exchange Call Answer Failure) → Call → Prop
  /-- A call has the result in the store. -/
  answered : Store → (call : Call) → Except Failure (Answer call) → Prop
  refl : ∀ store, later store store
  trans : ∀ {first second third}, later first second → later second third → later first third
  allowed_later : ∀ {origin before after history call}, later before after →
    allowed origin before history call → allowed origin after history call
  answered_later : ∀ {before after call result}, later before after →
    answered before call result → answered after call result

namespace Contract

variable {Store : Type w} {Origin : Type x} {Call : Type u} {Answer : Call → Type v}
  {Failure : Type v} (contract : Contract Store Origin Call Answer Failure) (origin : Origin)

/-- What an interaction comes to, with the store and the history at its end. -/
abbrev Outcome (Store : Type w) (Call : Type u) (Answer : Call → Type v) (Failure α : Type v) :=
  Store → List (Exchange Call Answer Failure) → Except Failure α → Prop

/-- All calls are allowed, and what the interaction comes to is as it should be. -/
def Ensures {α : Type v} : Interaction Call Answer Failure α →
    Outcome Store Call Answer Failure α → Store → List (Exchange Call Answer Failure) → Prop
  | .done value, outcome, store, history =>
      ∀ store', contract.later store store' → outcome store' history (.ok value)
  | .fail failure, outcome, store, history =>
      ∀ store', contract.later store store' → outcome store' history (.error failure)
  | .ask call next, outcome, store, history =>
      contract.allowed origin store history call ∧
        ∀ store' result, contract.later store store' → contract.answered store' call result →
          Ensures (next result) outcome store' (history ++ [⟨call, result⟩])

variable {contract origin} {α β : Type v} {γ : Type w} {store store' : Store}
  {history : List (Exchange Call Answer Failure)}
  {program : Interaction Call Answer Failure α} {outcome : Outcome Store Call Answer Failure α}

namespace Ensures

/-- What is ensured is ensured in later stores. -/
theorem later (ensures : contract.Ensures origin program outcome store history)
    (moved : contract.later store store') :
    contract.Ensures origin program outcome store' history := by
  cases program with
  | done | fail => exact fun store'' further => ensures store'' (contract.trans moved further)
  | ask call next =>
      refine ⟨contract.allowed_later moved ensures.1, fun store'' result further => ?_⟩
      exact ensures.2 store'' result (contract.trans moved further)

theorem mono {weaker : Outcome Store Call Answer Failure α}
    (implies : ∀ {store history result}, outcome store history result →
      weaker store history result)
    (ensures : contract.Ensures origin program outcome store history) :
    contract.Ensures origin program weaker store history := by
  induction program generalizing store history with
  | done | fail => exact fun store' moved => implies (ensures store' moved)
  | ask call next ih =>
      refine ⟨ensures.1, fun store' result moved answered => ?_⟩
      exact ih result (ensures.2 store' result moved answered)

/-- What comes after a value has to ensure the rest. -/
theorem bind {next : α → Interaction Call Answer Failure β}
    {last : Outcome Store Call Answer Failure β}
    (ensures : contract.Ensures origin program (fun store history result =>
      match result with
      | .ok value => contract.Ensures origin (next value) last store history
      | .error failure => last store history (.error failure)) store history) :
    contract.Ensures origin (program >>= next) last store history := by
  induction program generalizing store history with
  | done value => exact ensures store (contract.refl store)
  | fail failure => exact ensures
  | ask call more ih =>
      refine ⟨ensures.1, fun store' result moved answered => ?_⟩
      exact ih result (ensures.2 store' result moved answered)

theorem attempt {last : Outcome Store Call Answer Failure (Except Failure α)}
    (ensures : contract.Ensures origin program (fun store history result =>
      last store history (.ok result)) store history) :
    contract.Ensures origin program.attempt last store history := by
  induction program generalizing store history with
  | done | fail => exact ensures
  | ask call more ih =>
      refine ⟨ensures.1, fun store' result moved answered => ?_⟩
      exact ih result (ensures.2 store' result moved answered)

theorem ofCall {call : Call} {outcome : Outcome Store Call Answer Failure (Answer call)}
    (allowed : contract.allowed origin store history call)
    (holds : ∀ store' result, contract.later store store' → contract.answered store' call result →
      outcome store' (history ++ [⟨call, result⟩]) result) :
    contract.Ensures origin (.ofCall call) outcome store history := by
  refine ⟨allowed, fun store' result moved answered => ?_⟩
  cases result with
  | ok answer | error failure =>
      intro store'' further
      exact holds store'' _ (contract.trans moved further)
        (contract.answered_later further answered)

/-- What a history needs for calls of a kind is kept by them, whatever they return or raise. -/
theorem of_only {kind : Call → Prop} {ready : List (Exchange Call Answer Failure) → Prop}
    (allowed : ∀ {store history call}, ready history → kind call →
      contract.allowed origin store history call)
    (kept : ∀ {history call result}, ready history → kind call →
      ready (history ++ [⟨call, result⟩]))
    (only : program.Only kind) (holds : ready history) :
    contract.Ensures origin program (fun _ later _ => ready later) store history := by
  induction program generalizing store history with
  | done | fail => exact fun _ _ => holds
  | ask call next ih =>
      refine ⟨allowed holds only.1, fun store' result _ _ => ?_⟩
      exact ih result (only.2 result) (kept holds only.1)

/-- The store moves on, and the history only grows. -/
theorem grows (ensures : contract.Ensures origin program outcome store history) :
    contract.Ensures origin program (fun store' later result =>
      contract.later store store' ∧ history <+: later ∧ outcome store' later result) store
        history := by
  induction program generalizing store history with
  | done | fail => exact fun store' moved => ⟨moved, List.prefix_rfl, ensures store' moved⟩
  | ask call next ih =>
      refine ⟨ensures.1, fun store' result moved answered => ?_⟩
      refine (ih result (ensures.2 store' result moved answered)).mono ?_
      rintro _ later _ ⟨further, grown, holds⟩
      exact ⟨contract.trans moved further, (List.prefix_append history _).trans grown, holds⟩

end Ensures

/-- What holds where an interaction returns. -/
def Returning {α : Type v} (returned : Store → List (Exchange Call Answer Failure) → α → Prop) :
    Outcome Store Call Answer Failure α :=
  fun store history result => ∀ value, result = .ok value → returned store history value

section Returning

variable {first : Store → List (Exchange Call Answer Failure) → α → Prop}
  {last : Store → List (Exchange Call Answer Failure) → β → Prop}
  {next : α → Interaction Call Answer Failure β}

theorem Ensures.andThen (ensures : contract.Ensures origin program (Returning first) store history)
    (continues : ∀ {store' later value}, contract.later store store' → history <+: later →
      first store' later value →
        contract.Ensures origin (next value) (Returning last) store' later) :
    contract.Ensures origin (program >>= next) (Returning last) store history := by
  refine ensures.grows.mono ?_ |>.bind
  rintro store' later (failure | value) ⟨moved, grown, holds⟩
  · exact nofun
  · exact continues moved grown (holds value rfl)

theorem Ensures.ofExcept_andThen {result : Except Failure α}
    (continues : ∀ value, result = .ok value →
      contract.Ensures origin (next value) (Returning last) store history) :
    contract.Ensures origin (Interaction.ofExcept result >>= next) (Returning last) store
      history := by
  cases result with
  | error failure => exact fun _ _ => nofun
  | ok value => exact continues value rfl

theorem Ensures.ofCall_andThen {call : Call}
    {next : Answer call → Interaction Call Answer Failure β}
    (allowed : contract.allowed origin store history call)
    (continues : ∀ {store'} answer, contract.later store store' →
      contract.answered store' call (.ok answer) →
        contract.Ensures origin (next answer) (Returning last) store'
          (history ++ [⟨call, .ok answer⟩])) :
    contract.Ensures origin (Interaction.ofCall call >>= next) (Returning last) store history := by
  refine ⟨allowed, fun store' result moved answered => ?_⟩
  cases result with
  | error failure => exact fun _ _ => nofun
  | ok answer => exact continues answer moved answered

/-- What is caught goes on. -/
theorem Ensures.attempt_andThen
    {next : Except Failure α → Interaction Call Answer Failure β}
    (ensures : contract.Ensures origin program (Returning first) store history)
    (continues : ∀ {store' later value}, contract.later store store' → history <+: later →
      first store' later value →
        contract.Ensures origin (next (.ok value)) (Returning last) store' later)
    (recovers : ∀ {store' later} failure, contract.later store store' → history <+: later →
      contract.Ensures origin (next (.error failure)) (Returning last) store' later) :
    contract.Ensures origin (program.attempt >>= next) (Returning last) store history := by
  have caught : contract.Ensures origin program.attempt (fun store' later result =>
      ∃ inner, result = .ok inner ∧ contract.later store store' ∧ history <+: later ∧
        Returning first store' later inner) store history :=
    (ensures.grows.mono fun holds => ⟨_, rfl, holds⟩).attempt
  refine (caught.mono ?_).bind
  rintro store' later _ ⟨inner, rfl, moved, grown, holds⟩
  cases inner with
  | error failure => exact recovers failure moved grown
  | ok value => exact continues moved grown (holds value rfl)

/-- What holds before a loop is there in every turn. -/
theorem Ensures.forEach_returning {body : γ → Interaction Call Answer Failure PUnit}
    {items : List γ}
    (turn : ∀ item ∈ items, ∀ {store' later}, contract.later store store' → history <+: later →
      contract.Ensures origin (body item) (Returning fun _ _ _ => True) store' later) :
    contract.Ensures origin (.forEach body items) (Returning fun _ _ _ => True) store history := by
  induction items generalizing store history with
  | nil => exact fun _ _ _ _ => trivial
  | cons item items ih =>
      refine Ensures.andThen (turn item List.mem_cons_self (contract.refl store) List.prefix_rfl) ?_
      intro store' later _ moved grown _
      apply ih
      intro other other_mem store'' longer further extends_
      exact turn other (List.mem_cons_of_mem _ other_mem) (contract.trans moved further)
        (grown.trans extends_)

end Returning

end Contract

section Sessions

variable {Store : Type w} {Origin : Type x} {Call : Type u} {Answer : Call → Type v}
  {Failure Result : Type v} {Event : Type v}

/-- What a process was started with, what it has exchanged, and what is left of its program. -/
structure Session (Origin : Type x) (Call : Type u) (Answer : Call → Type v)
    (Failure Result : Type v) where
  origin : Origin
  history : List (Exchange Call Answer Failure)
  rest : Interaction Call Answer Failure Result

/-- A session begins, or a call of it is served. -/
inductive SessionEvent (Origin : Type x) (Event : Type v) where
  | start (origin : Origin)
  | serve (event : Event)

/-- How the store serves a call, or `none` where an event does not belong to the call. -/
abbrev Service (Store : Type w) (Origin : Type x) (Call : Type u) (Answer : Call → Type v)
    (Failure : Type v) (Event : Type v) :=
  Origin → (call : Call) → Event → Store → Option (Store × Except Failure (Answer call))

/-- Every call may raise, and has taken effect then or has not. -/
def Service.unreliable (serve : Service Store Origin Call Answer Failure Event)
    (fails : Event → Option (Failure × Bool)) : Service Store Origin Call Answer Failure Event :=
  fun origin call event store =>
    match fails event with
    | none => serve origin call event store
    | some (failure, false) => some (store, .error failure)
    | some (failure, true) =>
        (serve origin call event store).map fun result => (result.1, .error failure)

variable (handle : Origin → Interaction Call Answer Failure Result)
  (serve : Service Store Origin Call Answer Failure Event)

/-- Every process handles one origin, call by call. -/
def sessions : Program Store (Option (Session Origin Call Answer Failure Result))
    (SessionEvent Origin Event) where
  step store
    | none, .start origin => some (store, some ⟨origin, [], handle origin⟩)
    | some ⟨origin, history, .ask call next⟩, .serve event =>
        (serve origin call event store).map fun (store, result) =>
          (store, some ⟨origin, history ++ [⟨call, result⟩], next result⟩)
    | _, _ => none

end Sessions

namespace Contract

variable {Store : Type w} {Origin : Type x} {Call : Type u} {Answer : Call → Type v}
  {Failure Result : Type v} {Event : Type v} (contract : Contract Store Origin Call Answer Failure)

/-- Every call of a history was allowed when it was made. -/
def Justifies (origin : Origin) (store : Store) (history : List (Exchange Call Answer Failure)) :
    Prop :=
  ∀ earlier exchange, earlier ++ [exchange] <+: history →
    contract.allowed origin store earlier exchange.call

/-- The store serves the calls that are allowed as the contract says. -/
def ServedBy (holds : Store → Prop) (serve : Service Store Origin Call Answer Failure Event) :
    Prop :=
  ∀ {origin store history call event after result}, holds store →
    contract.allowed origin store history call →
      serve origin call event store = some (after, result) →
        holds after ∧ contract.later store after ∧ contract.answered after call result

variable {contract} {holds : Store → Prop} {serve : Service Store Origin Call Answer Failure Event}

/-- A contract that says nothing about failures is kept by a service that fails at any time. -/
theorem ServedBy.unreliable (served : contract.ServedBy holds serve)
    (fails : Event → Option (Failure × Bool))
    (raised : ∀ store call failure, contract.answered store call (.error failure)) :
    contract.ServedBy holds (serve.unreliable fails) := by
  intro origin store history call event after result sound allowed serves
  simp only [Service.unreliable] at serves
  split at serves
  · exact served sound allowed serves
  · cases serves
    exact ⟨sound, contract.refl store, raised store call _⟩
  · rcases Option.map_eq_some_iff.mp serves with ⟨⟨stored, answer⟩, performed, same⟩
    cases same
    rcases served sound allowed performed with ⟨sound, moved, _⟩
    exact ⟨sound, moved, raised stored call _⟩

variable {handle : Origin → Interaction Call Answer Failure Result}
  {outcome : Origin → Outcome Store Call Answer Failure Result}

/-- The history of a session is justified, and it comes to what it should. -/
def Honours (contract : Contract Store Origin Call Answer Failure)
    (outcome : Origin → Outcome Store Call Answer Failure Result) (store : Store) :
    Option (Session Origin Call Answer Failure Result) → Prop
  | none => True
  | some session => contract.Justifies session.origin store session.history ∧
      contract.Ensures session.origin session.rest (outcome session.origin) store session.history

/-- A session that has returned has come to what it should. -/
theorem Honours.returned {store : Store} {origin : Origin}
    {history : List (Exchange Call Answer Failure)} {value : Result}
    (honours : contract.Honours outcome store (some ⟨origin, history, .done value⟩)) :
    outcome origin store history (.ok value) :=
  honours.2 store (contract.refl store)

theorem Justifies.later {origin : Origin} {store store' : Store}
    {history : List (Exchange Call Answer Failure)}
    (justifies : contract.Justifies origin store history) (moved : contract.later store store') :
    contract.Justifies origin store' history :=
  fun earlier exchange before => contract.allowed_later moved (justifies earlier exchange before)

theorem Justifies.append {origin : Origin} {store : Store}
    {history : List (Exchange Call Answer Failure)}
    (justifies : contract.Justifies origin store history)
    {exchange : Exchange Call Answer Failure}
    (allowed : contract.allowed origin store history exchange.call) :
    contract.Justifies origin store (history ++ [exchange]) := by
  intro earlier other before
  rcases List.prefix_concat_iff.mp before with same | old
  · rcases List.append_inj' same rfl with ⟨rfl, equal⟩
    cases equal
    exact allowed
  · exact justifies earlier other old

theorem Honours.later {store store' : Store}
    {session : Option (Session Origin Call Answer Failure Result)}
    (honours : contract.Honours outcome store session) (moved : contract.later store store') :
    contract.Honours outcome store' session := by
  cases session with
  | none => trivial
  | some session => exact ⟨honours.1.later moved, honours.2.later moved⟩

/-- One action of a session keeps to the contract. -/
theorem Honours.step (served : contract.ServedBy holds serve)
    (starts : ∀ origin store, holds store →
      contract.Ensures origin (handle origin) (outcome origin) store [])
    {store after : Store} {session next : Option (Session Origin Call Answer Failure Result)}
    {event : SessionEvent Origin Event} (sound : holds store)
    (honours : contract.Honours outcome store session)
    (stepped : (sessions handle serve).step store session event = some (after, next)) :
    holds after ∧ contract.later store after ∧ contract.Honours outcome after next := by
  match session, event with
  | none, .start origin =>
      cases stepped
      refine ⟨sound, contract.refl store, fun earlier exchange impossible => ?_,
        starts origin store sound⟩
      have empty := List.prefix_nil.mp impossible
      cases (List.append_eq_nil_iff.mp empty).2
  | some ⟨origin, history, .ask call more⟩, .serve event =>
      rcases Option.map_eq_some_iff.mp stepped with ⟨⟨after, result⟩, serves, same⟩
      cases same
      rcases honours with ⟨justifies, allowed, continues⟩
      rcases served sound allowed serves with ⟨sound, moved, answered⟩
      refine ⟨sound, moved, (justifies.append allowed).later moved, ?_⟩
      exact continues _ _ moved answered
  | none, .serve _ | some ⟨_, _, .done _⟩, _ | some ⟨_, _, .fail _⟩, _ |
      some ⟨_, _, .ask _ _⟩, .start _ => cases stepped

/--
In every run of sessions that ensure a contract, on a store that serves them by it, the
invariant of the store holds and everything that a session has done was justified.
-/
theorem honours_of_reaches (served : contract.ServedBy holds serve)
    (starts : ∀ origin store, holds store →
      contract.Ensures origin (handle origin) (outcome origin) store [])
    {first last : World Store (Option (Session Origin Call Answer Failure Result))}
    (run : (sessions handle serve).Reaches Unrestricted first last) (initially : holds first.store)
    (idle : ∀ index, first.process index = none) :
    holds last.store ∧ ∀ index, contract.Honours outcome last.store (last.process index) := by
  refine run.invariant (fun world => holds world.store ∧
    ∀ index, contract.Honours outcome world.store (world.process index)) ?_
    ⟨initially, fun index => ?_⟩
  · rintro world next index event ⟨sound, honours⟩ _ acted
    refine Program.act_local holds (contract.Honours outcome) acted ?_ ?_ honours
    · intro store state stepped
      rcases (honours index).step served starts sound stepped with ⟨sound, _, honours⟩
      exact ⟨sound, honours⟩
    · intro store state other stepped others
      exact others.later ((honours index).step served starts sound stepped).2.1
  · rw [idle index]
    trivial

end Contract

end Interleaving
