import CopyMint.Domain.Enums
import CopyMint.Library.Interleaving
import CopyMint.Library.Relational
import Mathlib.Data.Int.Basic

/-!
# Telegram webhook deliveries

A delivery claims its update, dispatches it to the handlers, and marks the row of
the update as processed or failed. The claim is one conditional upsert: it wins
on a new update and on one whose last dispatch failed, and loses otherwise. Both
marks overwrite the row unconditionally.

The handlers may succeed or raise, a mark may raise with or without having been
committed, and the process may crash at any point.
-/

namespace CopyMint

open Relational Interleaving

/-- A bot and the number of one of its updates. -/
abbrev UpdateKey := String × ℤ

/-- A row of `telegram_updates`. -/
structure TelegramUpdate where
  id : ℕ
  botId : String
  updateId : ℤ
  status : TelegramUpdateStatus
  correlationId : ℕ
  failureCode : Option String
  deriving DecidableEq

/-- The unique constraint of updates. -/
def TelegramUpdate.key (row : TelegramUpdate) : UpdateKey := (row.botId, row.updateId)

/-- The table `telegram_updates`. -/
abbrev TelegramUpdates := List TelegramUpdate

namespace TelegramUpdates

/-- The status of an update. -/
def status (updates : TelegramUpdates) (key : UpdateKey) : Option TelegramUpdateStatus :=
  (lookup TelegramUpdate.key key updates).map TelegramUpdate.status

/-- The row that a claim inserts. -/
def received (key : UpdateKey) (id correlationId : ℕ) : TelegramUpdate :=
  { id
    botId := key.1
    updateId := key.2
    status := .received
    correlationId
    failureCode := none }

/-- The conflict action of a claim. -/
def reclaimed (correlationId : ℕ) (row : TelegramUpdate) : TelegramUpdate :=
  if row.status = .failed then
    { row with status := .received, correlationId, failureCode := none }
  else row

/-- Insert the update, or take over the row if its dispatch failed. -/
def claim (key : UpdateKey) (id correlationId : ℕ) (updates : TelegramUpdates) :
    TelegramUpdates × Bool :=
  match lookup TelegramUpdate.key key updates with
  | none => (updates ++ [received key id correlationId], true)
  | some stored =>
      (updateWhere (fun row => row.key = key) (reclaimed correlationId) updates,
        stored.status = .failed)

/-- The row with another status. -/
def setStatus (status : TelegramUpdateStatus) (failureCode : Option String)
    (row : TelegramUpdate) : TelegramUpdate :=
  { row with status, failureCode }

/-- Overwrite the status of an update, whatever it is. -/
def mark (key : UpdateKey) (status : TelegramUpdateStatus) (failureCode : Option String)
    (updates : TelegramUpdates) : TelegramUpdates :=
  updateWhere (fun row => row.key = key) (setStatus status failureCode) updates

/-- `mark_processed`. -/
def markProcessed (key : UpdateKey) : TelegramUpdates → TelegramUpdates :=
  mark key .processed none

/-- `mark_failed`. -/
def markFailed (key : UpdateKey) (failureCode : String) : TelegramUpdates → TelegramUpdates :=
  mark key .failed (some failureCode)

variable {updates : TelegramUpdates} {key other : UpdateKey}

@[simp]
theorem key_received (id correlationId : ℕ) : (received key id correlationId).key = key := rfl

theorem key_reclaimed (correlationId : ℕ) (row : TelegramUpdate) :
    (reclaimed correlationId row).key = row.key := by
  simp only [reclaimed]
  split <;> rfl

theorem key_setStatus (status : TelegramUpdateStatus) (failureCode : Option String)
    (row : TelegramUpdate) : (setStatus status failureCode row).key = row.key := rfl

theorem status_mark (status : TelegramUpdateStatus) (failureCode : Option String) :
    TelegramUpdates.status (mark key status failureCode updates) other =
      if other = key then (TelegramUpdates.status updates other).map fun _ => status
      else TelegramUpdates.status updates other := by
  simp only [TelegramUpdates.status, mark,
    lookup_updateWhere (key_setStatus status failureCode)]
  cases found : lookup TelegramUpdate.key other updates with
  | none => simp
  | some row =>
      have row_key := (lookup_eq_some_mem found).2
      by_cases same : other = key
      · subst same
        simp [row_key, setStatus]
      · simp [row_key, same]

/-- A claim wins exactly on a new update and on a failed one. -/
theorem claim_wins_iff {id correlationId : ℕ} :
    (claim key id correlationId updates).2 = true ↔
      status updates key = none ∨ status updates key = some .failed := by
  cases found : lookup TelegramUpdate.key key updates with
  | none => simp [claim, status, found]
  | some row => simp [claim, status, found]

/-- A claim that wins leaves the update received; one that loses changes no status. -/
theorem status_claim {id correlationId : ℕ} :
    status (claim key id correlationId updates).1 other =
      if other = key ∧ (claim key id correlationId updates).2 = true then some .received
      else status updates other := by
  cases found : lookup TelegramUpdate.key key updates with
  | none =>
      simp only [claim, status, found, lookup_append, lookup_singleton, key_received]
      by_cases same : other = key
      · subst same
        simp [found, received]
      · have different : key ≠ other := Ne.symm same
        simp [same, different]
  | some stored =>
      simp only [claim, status, found, lookup_updateWhere (key_reclaimed correlationId)]
      cases foundOther : lookup TelegramUpdate.key other updates with
      | none =>
          have different : other ≠ key := by
            rintro rfl
            cases found.symm.trans foundOther
          simp [different]
      | some row =>
          have row_key := (lookup_eq_some_mem foundOther).2
          by_cases same : other = key
          · subst same
            cases found.symm.trans foundOther
            by_cases failed : stored.status = .failed <;> simp [row_key, reclaimed, failed]
          · simp [row_key, same]

end TelegramUpdates

/-- The answers of the webhook to a delivery that it has parsed. -/
inductive WebhookAnswer where
  /-- 200 with status `processed`. -/
  | processed
  /-- 200 with status `duplicate`. -/
  | duplicate
  /-- 503 with code `telegram_dispatch_failed`. -/
  | dispatchFailed
  /-- 500, where a mark raised. -/
  | serverError
  deriving DecidableEq

/-- Telegram takes the update as delivered. -/
def WebhookAnswer.isOk (answer : WebhookAnswer) : Bool :=
  answer = .processed || answer = .duplicate

/-- What the handlers of a running delivery have come to. -/
inductive HandlerState where
  | dispatching
  | completed
  | raised
  deriving DecidableEq

/-- How far a delivery has come. -/
inductive Delivery where
  | idle
  | running (key : UpdateKey) (handlers : HandlerState)
  /-- The delivery is over; its handlers ran to completion or not, and it was answered or not. -/
  | ended (key : UpdateKey) (completed : Bool) (answer : Option WebhookAnswer)
  deriving DecidableEq

/-- What a delivery does next. -/
inductive DeliveryEvent where
  | claim (key : UpdateKey) (id correlationId : ℕ)
  | claimError (key : UpdateKey) (id correlationId : ℕ) (committed : Bool)
  | succeed
  | raise
  | mark
  | markError (committed : Bool)
  | crash
  deriving DecidableEq

/-- The bounds that the deduplicator checks before a claim. -/
def UpdateKey.isValid (key : UpdateKey) : Bool :=
  key.1 ≠ "" && key.1.length ≤ 32 && 0 ≤ key.2

/-- The mark that a delivery makes once its handlers are done. -/
def TelegramUpdates.markAfter (key : UpdateKey) (completed : Bool) :
    TelegramUpdates → TelegramUpdates :=
  if completed then markProcessed key else markFailed key "dispatch_failed"

/-- The answer of a delivery after its mark. -/
def WebhookAnswer.afterMark (completed : Bool) : WebhookAnswer :=
  if completed then .processed else .dispatchFailed

/-- The end of a delivery that won its claim. -/
def finishDelivery (updates : TelegramUpdates) (key : UpdateKey) (completed : Bool) :
    DeliveryEvent → Option (TelegramUpdates × Delivery)
  | .mark =>
      some (updates.markAfter key completed, .ended key completed (some (.afterMark completed)))
  | .markError committed =>
      some (if committed then updates.markAfter key completed else updates,
        .ended key completed (some .serverError))
  | .crash => some (updates, .ended key completed none)
  | _ => none

/-- One action of a delivery. -/
def deliveryStep (updates : TelegramUpdates) :
    Delivery → DeliveryEvent → Option (TelegramUpdates × Delivery)
  | .idle, .claim key id correlationId =>
      if key.isValid then
        let result := updates.claim key id correlationId
        some (result.1,
          if result.2 then .running key .dispatching else .ended key false (some .duplicate))
      else none
  | .idle, .claimError key id correlationId committed =>
      some (if committed && key.isValid then (updates.claim key id correlationId).1 else updates,
        .ended key false (some .serverError))
  | .running key .dispatching, .succeed => some (updates, .running key .completed)
  | .running key .dispatching, .raise => some (updates, .running key .raised)
  | .running key .dispatching, .crash => some (updates, .ended key false none)
  | .running key .completed, event => finishDelivery updates key true event
  | .running key .raised, event => finishDelivery updates key false event
  | _, _ => none

/-- The webhook as a program of deliveries over the table of updates. -/
def webhookProgram : Program TelegramUpdates Delivery DeliveryEvent where
  step := deliveryStep

end CopyMint
