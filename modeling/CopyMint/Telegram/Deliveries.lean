import CopyMint.Telegram.Updates

/-!
# Deliveries of one update

A delivery that runs holds its update: the row is received, and no other
delivery runs for it. This is what keeps the unconditional marks from
overwriting the outcome of another delivery, and it gives at most one handler at
a time and none after a success.

A duplicate is acknowledged before the outcome of the running delivery is known.
An acknowledged update is therefore lost if that delivery fails, or had already
failed. In the runs in which neither happens no update is lost.
-/

namespace CopyMint

open Relational Interleaving TelegramUpdates

/-- The delivery won the claim of an update and is not over. -/
def Delivery.Runs (key : UpdateKey) (delivery : Delivery) : Prop :=
  ∃ handlers, delivery = .running key handlers

@[simp]
theorem Delivery.not_runs_ended {key other : UpdateKey} {completed : Bool}
    {answer : Option WebhookAnswer} : ¬(Delivery.ended other completed answer).Runs key := by
  rintro ⟨_, impossible⟩
  cases impossible

@[simp]
theorem Delivery.runs_running_iff {key other : UpdateKey} {handlers : HandlerState} :
    (Delivery.running other handlers).Runs key ↔ other = key := by
  simp [Delivery.Runs]

/-- What an action does to the statuses of the updates. -/
inductive DeliveryTransition (updates : TelegramUpdates) :
    Delivery → DeliveryEvent → TelegramUpdates → Delivery → Prop
  | wins {key : UpdateKey} {id correlationId : ℕ} {after : TelegramUpdates}
      (available : updates.status key = none ∨ updates.status key = some .failed)
      (received : ∀ other, after.status other =
        if other = key then some .received else updates.status other) :
      DeliveryTransition updates .idle (.claim key id correlationId) after
        (.running key .dispatching)
  | loses {key : UpdateKey} {id correlationId : ℕ} {after : TelegramUpdates}
      (taken : updates.status key = some .received ∨ updates.status key = some .processed)
      (unchanged : ∀ other, after.status other = updates.status other) :
      DeliveryTransition updates .idle (.claim key id correlationId) after
        (.ended key false (some .duplicate))
  | claimFails {key : UpdateKey} {id correlationId : ℕ} {committed : Bool}
      {after : TelegramUpdates}
      (received : ∀ other, after.status other = updates.status other ∨
        (updates.status other = none ∨ updates.status other = some .failed) ∧
          after.status other = some .received) :
      DeliveryTransition updates .idle (.claimError key id correlationId committed) after
        (.ended key false (some .serverError))
  | succeeds {key : UpdateKey} :
      DeliveryTransition updates (.running key .dispatching) .succeed updates
        (.running key .completed)
  | raises {key : UpdateKey} :
      DeliveryTransition updates (.running key .dispatching) .raise updates (.running key .raised)
  | marks {key : UpdateKey} {handlers : HandlerState} {event : DeliveryEvent}
      {answer : WebhookAnswer} (done : handlers ≠ .dispatching)
      (marked : event = .mark ∧ answer = .afterMark (handlers = .completed) ∨
        event = .markError true ∧ answer = .serverError) :
      DeliveryTransition updates (.running key handlers) event
        (updates.markAfter key (handlers = .completed))
        (.ended key (handlers = .completed) (some answer))
  | stops {key : UpdateKey} {handlers : HandlerState} {event : DeliveryEvent}
      {answer : Option WebhookAnswer}
      (stopped : event = .crash ∧ answer = none ∨
        event = .markError false ∧ answer = some .serverError) :
      DeliveryTransition updates (.running key handlers) event updates
        (.ended key (handlers = .completed) answer)

variable {updates after : TelegramUpdates} {delivery next : Delivery} {event : DeliveryEvent}
  {key : UpdateKey}

theorem status_eq_of_not_available
    (taken : ¬(updates.status key = none ∨ updates.status key = some .failed)) :
    updates.status key = some .received ∨ updates.status key = some .processed := by
  cases found : updates.status key with
  | none => exact absurd (.inl found) taken
  | some stored =>
      cases stored with
      | received => exact .inl rfl
      | processed => exact .inr rfl
      | failed => exact absurd (.inr found) taken

/-- The status of every update after a claim that may have been lost to an error. -/
theorem status_after_claim {id correlationId : ℕ} (other : UpdateKey) :
    (updates.claim key id correlationId).1.status other = updates.status other ∨
      (updates.status other = none ∨ updates.status other = some .failed) ∧
        (updates.claim key id correlationId).1.status other = some .received := by
  rw [status_claim]
  split_ifs with wins
  · exact .inr ⟨wins.1 ▸ claim_wins_iff.mp wins.2, rfl⟩
  · exact .inl rfl

theorem deliveryTransition_of_finish {handlers : HandlerState}
    (done : handlers ≠ .dispatching)
    (stepped : finishDelivery updates key (handlers = .completed) event = some (after, next)) :
    DeliveryTransition updates (.running key handlers) event after next := by
  cases event with
  | mark =>
      cases stepped
      exact .marks done (.inl ⟨rfl, rfl⟩)
  | markError committed =>
      cases committed with
      | true =>
          cases stepped
          exact .marks done (.inr ⟨rfl, rfl⟩)
      | false =>
          cases stepped
          exact .stops (.inr ⟨rfl, rfl⟩)
  | crash =>
      cases stepped
      exact .stops (.inl ⟨rfl, rfl⟩)
  | claim | claimError | succeed | raise => cases stepped

theorem deliveryTransition_of_step
    (stepped : deliveryStep updates delivery event = some (after, next)) :
    DeliveryTransition updates delivery event after next := by
  cases delivery with
  | idle =>
      cases event with
      | claim key id correlationId =>
          simp only [deliveryStep, Option.ite_none_right_eq_some, Option.some.injEq,
            Prod.mk.injEq] at stepped
          rcases stepped with ⟨_, rfl, rfl⟩
          by_cases wins : (updates.claim key id correlationId).2 = true
          · rw [if_pos wins]
            refine .wins (claim_wins_iff.mp wins) fun other => ?_
            simp [status_claim, wins]
          · rw [if_neg wins]
            refine .loses (status_eq_of_not_available (mt claim_wins_iff.mpr wins))
              fun other => ?_
            simp [status_claim, wins]
      | claimError key id correlationId committed =>
          simp only [deliveryStep, Option.some.injEq, Prod.mk.injEq] at stepped
          rcases stepped with ⟨rfl, rfl⟩
          refine .claimFails fun other => ?_
          split_ifs
          · exact status_after_claim other
          · exact .inl rfl
      | succeed | raise | mark | markError | crash => cases stepped
  | running key handlers =>
      cases handlers with
      | dispatching =>
          cases event with
          | succeed =>
              cases stepped
              exact .succeeds
          | raise =>
              cases stepped
              exact .raises
          | crash =>
              cases stepped
              exact .stops (.inl ⟨rfl, rfl⟩)
          | claim | claimError | mark | markError => cases stepped
      | completed => exact deliveryTransition_of_finish (by simp) stepped
      | raised => exact deliveryTransition_of_finish (by simp) stepped
  | ended => cases stepped

theorem status_markAfter (updates : TelegramUpdates) (key : UpdateKey) (completed : Bool)
    (other : UpdateKey) :
    (updates.markAfter key completed).status other =
      if other = key then
        (updates.status other).map fun _ => if completed then .processed else .failed
      else updates.status other := by
  cases completed <;> exact status_mark _ _

/-- A running delivery holds its update against all other deliveries. -/
def Exclusive (world : World TelegramUpdates Delivery) : Prop :=
  ∀ key index, (world.process index).Runs key →
    world.store.status key = some .received ∧
      ∀ other, (world.process other).Runs key → other = index

section

variable {world : World TelegramUpdates Delivery} {index : ℕ}

/-- A delivery that starts to run for no update leaves the others exclusive. -/
theorem Exclusive.update (holds : Exclusive world)
    (runs : ∀ key, next.Runs key → (world.process index).Runs key)
    (received : ∀ key, world.store.status key = some .received →
      ((world.process index).Runs key → next.Runs key) → after.status key = some .received) :
    Exclusive ⟨after, Function.update world.process index next⟩ := by
  intro key other runsOther
  by_cases same : other = index
  · subst same
    simp only [Function.update_self] at runsOther
    rcases holds key other (runs key runsOther) with ⟨status_eq, unique⟩
    refine ⟨received key status_eq fun _ => runsOther, fun third runsThird => ?_⟩
    by_cases again : third = other
    · exact again
    · exact unique third (by simpa [Function.update_of_ne again] using runsThird)
  · simp only [Function.update_of_ne same] at runsOther
    rcases holds key other runsOther with ⟨status_eq, unique⟩
    refine ⟨received key status_eq fun runsIndex => absurd (unique index runsIndex).symm same,
      fun third runsThird => ?_⟩
    by_cases again : third = index
    · subst again
      simp only [Function.update_self] at runsThird
      exact unique third (runs key runsThird)
    · exact unique third (by simpa [Function.update_of_ne again] using runsThird)

/-- A claim wins only where no delivery runs, and so keeps the deliveries exclusive. -/
theorem Exclusive.win (holds : Exclusive world) {handlers : HandlerState}
    (available : world.store.status key = none ∨ world.store.status key = some .failed)
    (received : ∀ other, after.status other =
      if other = key then some .received else world.store.status other) :
    Exclusive ⟨after, Function.update world.process index (.running key handlers)⟩ := by
  have free : ∀ other, ¬(world.process other).Runs key := by
    intro other runs
    rcases available with missing | failed
    · cases missing.symm.trans (holds key other runs).1
    · cases failed.symm.trans (holds key other runs).1
  intro third other runsOther
  by_cases same : other = index
  · subst same
    simp only [Function.update_self, Delivery.runs_running_iff] at runsOther
    subst runsOther
    refine ⟨by simp [received], fun another runsAnother => ?_⟩
    by_contra different
    exact free another (by simpa [Function.update_of_ne different] using runsAnother)
  · simp only [Function.update_of_ne same] at runsOther
    rcases holds third other runsOther with ⟨status_eq, unique⟩
    have different : third ≠ key := by
      rintro rfl
      exact free other runsOther
    refine ⟨by simpa [received, different] using status_eq, fun another runsAnother => ?_⟩
    by_cases again : another = index
    · subst again
      simp only [Function.update_self, Delivery.runs_running_iff] at runsAnother
      exact absurd runsAnother.symm different
    · exact unique another (by simpa [Function.update_of_ne again] using runsAnother)

/-- Every action keeps the deliveries exclusive. -/
theorem DeliveryTransition.exclusive
    (moved : DeliveryTransition world.store delivery event after next)
    (own : world.process index = delivery) (holds : Exclusive world) :
    Exclusive ⟨after, Function.update world.process index next⟩ := by
  cases moved with
  | wins available received => exact holds.win available received
  | loses _ unchanged =>
      refine holds.update (by simp) fun other status_eq _ => ?_
      rw [unchanged, status_eq]
  | claimFails received =>
      refine holds.update (by simp) fun other status_eq _ => ?_
      rcases received other with same | ⟨_, now⟩
      · rw [same, status_eq]
      · exact now
  | succeeds | raises => exact holds.update (by simp [own]) fun _ status_eq _ => status_eq
  | @marks key _ _ _ =>
      refine holds.update (by simp) fun other status_eq keeps => ?_
      have different : other ≠ key := by
        rintro rfl
        exact Delivery.not_runs_ended (keeps (by simp [own]))
      simpa [status_markAfter, different] using status_eq
  | stops => exact holds.update (by simp) fun _ status_eq _ => status_eq

/-- No action changes the row of a processed update. -/
theorem DeliveryTransition.processed
    (moved : DeliveryTransition world.store delivery event after next)
    (own : world.process index = delivery) (holds : Exclusive world)
    (processed : world.store.status key = some .processed) :
    after.status key = some .processed := by
  cases moved with
  | @wins claimed _ _ _ available received =>
      have different : key ≠ claimed := by
        rintro rfl
        simp [processed] at available
      simpa [received, different] using processed
  | loses _ unchanged => rw [unchanged, processed]
  | claimFails received =>
      rcases received key with same | ⟨available, _⟩
      · rw [same, processed]
      · simp [processed] at available
  | @marks marked _ _ _ =>
      have different : key ≠ marked := by
        rintro rfl
        cases processed.symm.trans (holds key index (by simp [own])).1
      simpa [status_markAfter, different] using processed
  | succeeds | raises | stops => exact processed

end

/-- The statuses in which an update stays once it is there. -/
def KeepsProcessed (before after : TelegramUpdates) : Prop :=
  ∀ key, before.status key = some .processed → after.status key = some .processed

theorem Exclusive.act {world finish : World TelegramUpdates Delivery} {index : ℕ}
    (holds : Exclusive world) (acted : webhookProgram.act world index event = some finish) :
    Exclusive finish ∧ KeepsProcessed world.store finish.store := by
  rcases Program.act_eq_some_iff.mp acted with ⟨after, next, stepped, rfl⟩
  have moved := deliveryTransition_of_step stepped
  exact ⟨moved.exclusive rfl holds, fun _ processed => moved.processed rfl holds processed⟩

theorem Exclusive.run {allowed : Condition TelegramUpdates Delivery DeliveryEvent}
    {start finish : World TelegramUpdates Delivery} (holds : Exclusive start)
    (run : webhookProgram.Reaches allowed start finish) :
    Exclusive finish ∧ KeepsProcessed start.store finish.store :=
  run.relates (fun _ _ processed => processed)
    (fun first second key processed => second key (first key processed))
    (fun holds _ acted => holds.act acted) holds

theorem exclusive_uniform (updates : TelegramUpdates) :
    Exclusive (World.uniform updates .idle) := by
  rintro key index ⟨_, impossible⟩
  cases impossible

/--
At most one delivery dispatches an update at a time. Once its row is processed
it stays so, no claim wins any more and no delivery dispatches the update again.
-/
theorem delivery_exclusive {world : World TelegramUpdates Delivery}
    (run : webhookProgram.Reaches Unrestricted (World.uniform updates .idle) world) :
    (∀ first second, (world.process first).Runs key → (world.process second).Runs key →
      first = second) ∧
    (world.store.status key = some .processed →
      ∀ later, webhookProgram.Reaches Unrestricted world later →
        later.store.status key = some .processed ∧
        (∀ index, ¬(later.process index).Runs key) ∧
        ∀ id correlationId, (later.store.claim key id correlationId).2 = false) := by
  have holds := ((exclusive_uniform updates).run run).1
  constructor
  · intro first second runsFirst runsSecond
    exact (holds key second runsSecond).2 first runsFirst
  · intro processed later further
    rcases holds.run further with ⟨laterHolds, keeps⟩
    have stays := keeps key processed
    refine ⟨stays, fun index runs => ?_, fun id correlationId => ?_⟩
    · cases stays.symm.trans (laterHolds key index runs).1
    · rw [← Bool.not_eq_true, claim_wins_iff]
      simp [stays]

section Samples

/-- The first update of a bot. -/
def sampleUpdate : UpdateKey := ("123456", 1)

/-- A failed delivery with a duplicate, and one that retries it. -/
def retrySchedule : List (ℕ × DeliveryEvent) :=
  [(0, .claim sampleUpdate 10 20), (1, .claim sampleUpdate 11 21), (0, .raise), (0, .mark),
    (2, .claim sampleUpdate 12 22), (2, .succeed), (2, .mark)]

theorem retriedDelivery_exclusive :
    ∃ world, webhookProgram.Reaches Unrestricted (World.uniform [] .idle) world ∧
      ∀ later, webhookProgram.Reaches Unrestricted world later →
        ∀ index, ¬(later.process index).Runs sampleUpdate := by
  have processed : (webhookProgram.execute (World.uniform [] .idle) retrySchedule).bind
      (fun world => world.store.status sampleUpdate) = some .processed := by decide +kernel
  rcases Option.bind_eq_some_iff.mp processed with ⟨world, executed, processed⟩
  have run := Program.reaches_of_execute executed (Program.meets_unrestricted _ _)
  exact ⟨world, run, fun later further =>
    ((delivery_exclusive run).2 processed later further).2.1⟩

end Samples

/-- Some delivery of the update was answered with 200. -/
def Acknowledged (key : UpdateKey) (world : World TelegramUpdates Delivery) : Prop :=
  ∃ index completed answer, world.process index = .ended key completed (some answer) ∧
    answer.isOk = true

/-- The handlers of some delivery of the update ran to completion. -/
def Handled (key : UpdateKey) (world : World TelegramUpdates Delivery) : Prop :=
  ∃ index answer, world.process index = .ended key true answer

/-- A delivery runs for the update whose handlers have not raised. -/
def MayComplete (key : UpdateKey) (world : World TelegramUpdates Delivery) : Prop :=
  ∃ index handlers, world.process index = .running key handlers ∧ handlers ≠ .raised

/-- With no delivery running, an acknowledged update is processed and was handled. -/
def NotLost (key : UpdateKey) (world : World TelegramUpdates Delivery) : Prop :=
  (∀ index, ¬(world.process index).Runs key) → Acknowledged key world →
    world.store.status key = some .processed ∧ Handled key world

/-- The handlers or the mark fail, or the process dies. -/
def DeliveryEvent.fails : DeliveryEvent → Bool
  | .raise | .crash | .markError false => true
  | _ => false

/--
A duplicate of the update is answered only while its row is processed or a
delivery may still complete, and no running delivery fails once the update is
acknowledged.
-/
def AcknowledgesSafely (key : UpdateKey) : Condition TelegramUpdates Delivery DeliveryEvent :=
  fun world index event =>
    ((∃ id correlationId, event = .claim key id correlationId) →
      world.store.status key = some .received → MayComplete key world) ∧
    ((world.process index).Runs key → event.fails = true → ¬Acknowledged key world)

/-- What acknowledging safely maintains of one update. -/
structure Outcome (key : UpdateKey) (world : World TelegramUpdates Delivery) : Prop where
  exclusive : Exclusive world
  handled : world.store.status key = some .processed → Handled key world
  acknowledged : Acknowledged key world →
    world.store.status key = some .processed ∨ MayComplete key world

section

variable {world : World TelegramUpdates Delivery} {index : ℕ}

theorem Handled.update (handled : Handled key world)
    (going : ∀ answer, world.process index ≠ .ended key true answer) :
    Handled key ⟨after, Function.update world.process index next⟩ := by
  rcases handled with ⟨other, answer, ended⟩
  have different : other ≠ index := by
    rintro rfl
    exact going answer ended
  exact ⟨other, answer, by simpa [Function.update_of_ne different] using ended⟩

theorem Acknowledged.of_update
    (acknowledged : Acknowledged key ⟨after, Function.update world.process index next⟩)
    (unanswered : ∀ completed answer, next = .ended key completed (some answer) →
      answer.isOk = false) : Acknowledged key world := by
  rcases acknowledged with ⟨other, completed, answer, ended, ok⟩
  by_cases same : other = index
  · subst same
    simp only [Function.update_self] at ended
    simp [unanswered completed answer ended] at ok
  · exact ⟨other, completed, answer, by simpa [Function.update_of_ne same] using ended, ok⟩

theorem MayComplete.update (mayComplete : MayComplete key world)
    (keeps : (world.process index).Runs key →
      ∃ handlers, next = .running key handlers ∧ handlers ≠ .raised) :
    MayComplete key ⟨after, Function.update world.process index next⟩ := by
  rcases mayComplete with ⟨other, handlers, running, notRaised⟩
  by_cases same : other = index
  · subst same
    rcases keeps ⟨handlers, running⟩ with ⟨later, now, stillNotRaised⟩
    exact ⟨other, later, by simpa using now, stillNotRaised⟩
  · exact ⟨other, handlers, by simpa [Function.update_of_ne same] using running, notRaised⟩

theorem DeliveryTransition.going
    (moved : DeliveryTransition updates delivery event after next) {completed : Bool}
    {answer : Option WebhookAnswer} : delivery ≠ .ended key completed answer := by
  cases moved <;> simp

/-- Where an action acknowledges nothing and ends no delivery of the update, its outcome stays. -/
theorem Outcome.unanswered (holds : Outcome key world)
    (moved : DeliveryTransition world.store delivery event after next)
    (own : world.process index = delivery)
    (processed : after.status key = some .processed → world.store.status key = some .processed)
    (answers : ∀ completed answer, next = .ended key completed (some answer) →
      answer.isOk = false)
    (keeps : Acknowledged key world → (world.process index).Runs key →
      ∃ handlers, next = .running key handlers ∧ handlers ≠ .raised) :
    Outcome key ⟨after, Function.update world.process index next⟩ where
  exclusive := moved.exclusive own holds.exclusive
  handled := fun now => (holds.handled (processed now)).update fun _ => own ▸ moved.going
  acknowledged := by
    intro acknowledged
    have before := acknowledged.of_update answers
    rcases holds.acknowledged before with was | mayComplete
    · exact .inl (moved.processed own holds.exclusive was)
    · exact .inr (mayComplete.update (keeps before))

/-- Every safe action maintains the outcome of the update. -/
theorem DeliveryTransition.outcome
    (moved : DeliveryTransition world.store delivery event after next)
    (own : world.process index = delivery) (safe : AcknowledgesSafely key world index event)
    (holds : Outcome key world) :
    Outcome key ⟨after, Function.update world.process index next⟩ := by
  have again := moved
  cases moved with
  | @wins claimed _ _ _ available received =>
      refine holds.unanswered again own ?_ (by simp) (by simp [own, Delivery.Runs])
      intro processed
      rw [received] at processed
      split_ifs at processed
      · cases processed
      · exact processed
  | @loses claimed id correlationId _ taken unchanged =>
      have mayComplete : world.store.status key = some .received → claimed = key →
          MayComplete key ⟨after, Function.update world.process index
            (.ended claimed false (some .duplicate))⟩ := by
        rintro received rfl
        exact (safe.1 ⟨id, correlationId, rfl⟩ received).update (by simp [own, Delivery.Runs])
      by_cases same : claimed = key
      · subst same
        refine ⟨again.exclusive own holds.exclusive, fun processed => ?_, fun _ => ?_⟩
        · rw [unchanged] at processed
          exact (holds.handled processed).update fun _ => own ▸ again.going
        · rcases taken with received | processed
          · exact .inr (mayComplete received rfl)
          · exact .inl ((unchanged claimed).trans processed)
      · exact holds.unanswered again own (fun processed => (unchanged key).symm.trans processed)
          (by simp [same]) (by simp [own, Delivery.Runs])
  | claimFails received =>
      refine holds.unanswered again own ?_ (by simp [WebhookAnswer.isOk])
        (by simp [own, Delivery.Runs])
      intro processed
      rcases received key with same | ⟨_, now⟩
      · rw [← same, processed]
      · cases now.symm.trans processed
  | succeeds => exact holds.unanswered again own id (by simp) (by simp [own])
  | raises =>
      exact holds.unanswered again own id (by simp)
        fun acknowledged runs => absurd acknowledged (safe.2 runs rfl)
  | @marks marked handlers _ answer done finished =>
      by_cases same : marked = key
      · subst same
        rcases holds.exclusive marked index (by simp [own]) with ⟨received, unique⟩
        have status_eq := status_markAfter world.store marked (handlers = .completed) marked
        simp only [if_true, received, Option.map_some] at status_eq
        cases handlers with
        | dispatching => exact absurd rfl done
        | completed =>
            exact ⟨again.exclusive own holds.exclusive, fun _ => ⟨index, some answer, by simp⟩,
              fun _ => .inl status_eq⟩
        | raised =>
            have refused : answer.isOk = false := by
              rcases finished with ⟨_, rfl⟩ | ⟨_, rfl⟩ <;> rfl
            have unacknowledged : ¬Acknowledged marked world := by
              intro acknowledged
              rcases holds.acknowledged acknowledged with processed | ⟨other, _, running, notRaised⟩
              · cases received.symm.trans processed
              · cases unique other ⟨_, running⟩
                cases own.symm.trans running
                exact notRaised rfl
            refine ⟨again.exclusive own holds.exclusive, fun processed => ?_,
              fun acknowledged => absurd (acknowledged.of_update ?_) unacknowledged⟩
            · cases status_eq.symm.trans processed
            · rintro _ _ ended
              cases ended
              exact refused
      · refine holds.unanswered again own ?_ (by simp [same]) (by simp [own, same])
        intro processed
        simpa [status_markAfter, Ne.symm same] using processed
  | stops stopped =>
      have failed : event.fails = true := by
        rcases stopped with ⟨rfl, _⟩ | ⟨rfl, _⟩ <;> rfl
      refine holds.unanswered again own id ?_
        fun acknowledged runs => absurd acknowledged (safe.2 runs failed)
      rcases stopped with ⟨_, rfl⟩ | ⟨_, rfl⟩ <;> simp [WebhookAnswer.isOk]

end

theorem Outcome.notLost {world : World TelegramUpdates Delivery} (holds : Outcome key world) :
    NotLost key world := by
  intro idle acknowledged
  rcases holds.acknowledged acknowledged with processed | ⟨index, handlers, running, _⟩
  · exact ⟨processed, holds.handled processed⟩
  · exact absurd ⟨handlers, running⟩ (idle index)

theorem outcome_uniform (unclaimed : updates.status key = none) :
    Outcome key (World.uniform updates .idle) where
  exclusive := exclusive_uniform updates
  handled := by simp [unclaimed]
  acknowledged := by
    rintro ⟨_, _, _, impossible, _⟩
    cases impossible

theorem Outcome.run {start finish : World TelegramUpdates Delivery} (holds : Outcome key start)
    (run : webhookProgram.Reaches (AcknowledgesSafely key) start finish) : Outcome key finish := by
  refine run.invariant (Outcome key) ?_ holds
  intro world next index event holds safe acted
  rcases Program.act_eq_some_iff.mp acted with ⟨store, state, stepped, rfl⟩
  exact (deliveryTransition_of_step stepped).outcome rfl safe holds

/-- Where an update is only acknowledged safely, it is never lost. -/
theorem safeDeliveries_notLost {world : World TelegramUpdates Delivery}
    (unclaimed : updates.status key = none)
    (run : webhookProgram.Reaches (AcknowledgesSafely key) (World.uniform updates .idle) world) :
    NotLost key world :=
  ((outcome_uniform unclaimed).run run).notLost

section Samples

/-- A delivery that succeeds, and a duplicate after it. -/
def deliverySchedule : List (ℕ × DeliveryEvent) :=
  [(0, .claim sampleUpdate 10 20), (0, .succeed), (0, .mark), (1, .claim sampleUpdate 11 21)]

theorem sampleDelivery_notLost :
    ∃ world, webhookProgram.Reaches (AcknowledgesSafely sampleUpdate) (World.uniform [] .idle)
        world ∧ world.process 1 = .ended sampleUpdate false (some .duplicate) ∧
      NotLost sampleUpdate world := by
  have answered : (webhookProgram.execute (World.uniform [] .idle) deliverySchedule).map
      (fun world => world.process 1) = some (.ended sampleUpdate false (some .duplicate)) := by
    decide +kernel
  have meets : webhookProgram.Meets (fun world _ event => event.fails = false ∧
      (world.store.status sampleUpdate = some .received → event = .succeed ∨ event = .mark))
      (World.uniform [] .idle) deliverySchedule := by
    decide +kernel
  rcases Option.map_eq_some_iff.mp answered with ⟨world, executed, answered⟩
  have run : webhookProgram.Reaches (AcknowledgesSafely sampleUpdate) (World.uniform [] .idle)
      world := by
    refine (Program.reaches_of_execute executed meets).mono ?_
    rintro _ _ event ⟨succeeds, whileReceived⟩
    refine ⟨?_, fun _ fails => by simp [succeeds] at fails⟩
    rintro ⟨_, _, rfl⟩ received
    simpa using whileReceived received
  exact ⟨world, run, answered, safeDeliveries_notLost rfl run⟩

/-- A duplicate that is answered before the delivery it duplicates fails. -/
def lostSchedule : List (ℕ × DeliveryEvent) :=
  [(0, .claim sampleUpdate 10 20), (1, .claim sampleUpdate 11 21), (0, .raise), (0, .mark)]

end Samples

/-- The first delivery fails after its duplicate was acknowledged, and the update is lost. -/
theorem duplicateDelivery_lost :
    ¬∀ world, webhookProgram.Reaches Unrestricted (World.uniform [] .idle) world →
      NotLost sampleUpdate world := by
  intro claimed
  have ended : (webhookProgram.execute (World.uniform [] .idle) lostSchedule).map
      (fun world => (world.process 0, world.process 1, world.store.status sampleUpdate)) =
      some (.ended sampleUpdate false (some .dispatchFailed),
        .ended sampleUpdate false (some .duplicate), some .failed) := by
    decide +kernel
  rcases Option.map_eq_some_iff.mp ended with ⟨world, executed, ended⟩
  simp only [Prod.mk.injEq] at ended
  rcases ended with ⟨first, second, failed⟩
  have others : ∀ index, index ≠ 0 → index ≠ 1 → world.process index = .idle := by
    intro index notFirst notSecond
    exact Program.execute_process_of_notMem executed (by simp [lostSchedule, notFirst, notSecond])
  have ended : ∀ index, ¬(world.process index).Runs sampleUpdate := by
    rintro index ⟨handlers, running⟩
    by_cases isFirst : index = 0
    · subst isFirst
      cases first.symm.trans running
    · by_cases isSecond : index = 1
      · subst isSecond
        cases second.symm.trans running
      · cases (others index isFirst isSecond).symm.trans running
  have processed := (claimed world
    (Program.reaches_of_execute executed (Program.meets_unrestricted _ _)) ended
    ⟨1, false, .duplicate, second, rfl⟩).1
  cases failed.symm.trans processed

end CopyMint
