import CopyMint.Access.RowPolicies
import CopyMint.Bot.Challenges
import CopyMint.Wallets.Service

/-!
# Callback handlers

A callback consumes its challenge in a transaction of its own and acts only then:
a decision is one more transaction, and a wallet is created by a call that takes
several, in two services. The handler may be killed between any two of them. A
callback that is delivered again is handled by another process.

The commands by which accounts request access and by which challenges are issued
run beside the callbacks; the reads that decide whether a request is stored are
left out, so that it may be stored at any time. What follows an action, the answer
to the callback and the notifications, touches no database.
-/

namespace CopyMint

open Hexadecimal Interleaving

/-- `CALLBACK_PREFIX` of the access handlers, with the colon behind it. -/
def accessCallbackPrefix : Text := "access:v1:".toList

/-- What the data of the wallet button begins with. -/
def walletCallbackPrefix : Text := "wallet:v1:create:".toList

/-- `text.split(":", maxsplit=maxsplit)`. -/
def splitColons : ℕ → Text → List Text
  | 0, text => [text]
  | maxsplit + 1, text =>
      match text.span (· ≠ ':') with
      | (part, []) => [part]
      | (part, _ :: rest) => part :: splitColons maxsplit rest

example : splitColons 3 "access:v1:approve:a:b".toList =
    ["access".toList, "v1".toList, "approve".toList, "a:b".toList] := by
  decide

/-- The actions by their names in callback data. -/
def accessActions : List (Text × ChallengeAction) :=
  [("approve".toList, .approveAccess), ("reject".toList, .rejectAccess),
    ("revoke".toList, .revokeAccess)]

/-- The action and the token of a callback, unless no handler takes it. -/
def requestedAction (data : Text) : Option (Except AccessError (ChallengeAction × Text)) :=
  if accessCallbackPrefix.isPrefixOf data then
    match splitColons 3 data with
    | [_, _, actionName, token] =>
        match accessActions.lookup actionName with
        | some action => some (.ok (action, token))
        | none => some (.error (.invalidChallenge "Unknown confirmation action."))
    | _ => some (.error (.invalidChallenge "Malformed confirmation."))
  else if walletCallbackPrefix.isPrefixOf data then
    some (.ok (.createWallet, removePrefix walletCallbackPrefix data))
  else none

/-- `require_context`. -/
def requireContext (context : Option RequestContext) (error : Option AccessError) :
    Except AccessError RequestContext :=
  match context, error with
  | some context, _ => .ok context
  | none, some error => .error error
  | none, none => .error (.accessError "Authorization context is unavailable.")

/-- What a consumed challenge calls for. -/
inductive ConfirmedAction where
  | decision (call : AccessCall)
  | wallet (idempotencyKey : Text)

/-- The account that a revocation is about; Python counts booleans as integers. -/
def CallbackChallenge.target (challenge : CallbackChallenge) : Option ℤ :=
  match challenge.payload "target_telegram_user_id" with
  | some (.int target) => some target
  | some (.bool target) => some target.toNat
  | _ => none

/-- The idempotency key in the payload of a challenge, if it is a text. -/
def CallbackChallenge.idempotencyKey (challenge : CallbackChallenge) : Option Text :=
  match challenge.payload "idempotency_key" with
  | some (.str idempotencyKey) => some idempotencyKey
  | _ => none

/-- The checks of a handler and of its service before the action. -/
def confirmedAction (platformOwnerIds : List ℤ) (context : RequestContext)
    (challenge : CallbackChallenge) (now : ℤ) : Except AccessError ConfirmedAction :=
  match challenge.action with
  | .approveAccess => do
      context.requirePlatformOwner
      .ok (.decision (.approve challenge.resourceId context.telegramUserId context.correlationId
        now))
  | .rejectAccess => do
      context.requirePlatformOwner
      .ok (.decision (.reject challenge.resourceId context.telegramUserId context.correlationId
        none now none))
  | .revokeAccess => do
      match challenge.target with
      | none => .error (.invalidChallenge "Revocation target is invalid.")
      | some target =>
          context.requirePlatformOwner
          if target ∈ platformOwnerIds then
            .error (.accessDenied
              "A configured platform owner cannot be revoked through the bot.")
          else
            .ok (.decision (.revoke target context.telegramUserId context.correlationId none
              now))
  | .createWallet => do
      let workspaceId ← context.requireWorkspace
      if challenge.resourceId ≠ workspaceId then
        .error (.accessError "Wallet confirmation does not belong to this workspace.")
      else
        match challenge.idempotencyKey with
        | none => .error (.accessError "Wallet confirmation payload is invalid.")
        | some idempotencyKey => .ok (.wallet idempotencyKey)

/-- What handlers read and write. -/
structure BotStore where
  access : AccessDatabase
  challenges : CallbackChallenges
  wallets : WalletStore

/-- The services behind the handlers. -/
structure Bot where
  challenges : ChallengeService
  platformOwnerIds : List ℤ
  wallets : WalletService
  owned : platformOwnerIds ≠ []

variable (primitives : Primitives)

/-- How far the handling of an update has come. -/
inductive Confirmation where
  | idle
  | consumed (context : RequestContext) (challenge : CallbackChallenge)
  | creating (challenge : CallbackChallenge) (creation : WalletCreation primitives)
  | decided (challenge : CallbackChallenge)
  | failed (challenge : CallbackChallenge)
  | ended (failure : Option CallbackFailure)

/-- What a user or an owner does next. -/
inductive BotEvent where
  | request (identity : TelegramIdentity) (requestedAt : ℤ)
  | issue (actor : RequestContext) (values : ChallengeService.Issue) (id : ℕ) (rawToken : Text)
      (now : ℤ)
  | confirm (context : Option RequestContext) (error : Option AccessError) (data : Text) (now : ℤ)
  | act (now : ℤ)
  | create (event : CreationEvent)
  | crash

variable {primitives} (isoformat : ℤ → Text) (signer : SignerPrimitives) (bot : Bot)

variable (primitives) in
/-- The consumption that a callback asks for. -/
def confirm (context : Option RequestContext) (error : Option AccessError)
    (requested : Except AccessError (ChallengeAction × Text)) (now : ℤ)
    (challenges : CallbackChallenges) :
    Except CallbackFailure (CallbackChallenges × RequestContext × CallbackChallenge) := do
  let context ← (requireContext context error).mapError .access
  let (action, token) ← requested.mapError .access
  let (challenges, challenge) ←
    ChallengeService.consume primitives context token action now challenges
  .ok (challenges, context, challenge)

/-- The action of a consumed challenge, or the first transaction of its call. -/
def performAction (store : BotStore) (context : RequestContext) (challenge : CallbackChallenge)
    (now : ℤ) : Option (BotStore × Confirmation primitives) :=
  match confirmedAction bot.platformOwnerIds context challenge now with
  | .error _ => some (store, .failed challenge)
  | .ok (.decision call) =>
      match call.run isoformat migratedPolicies store.access with
      | .error _ => some (store, .failed challenge)
      | .ok access => some ({ store with access }, .decided challenge)
  | .ok (.wallet idempotencyKey) =>
      (creationStep signer bot.wallets store.wallets ⟨.idle, .idle⟩
        (.call context idempotencyKey)).map fun result =>
          ({ store with wallets := result.1 }, .creating challenge result.2)

/-- A transaction or another atomic action of the bot. -/
def botStep (store : BotStore) :
    Confirmation primitives → BotEvent → Option (BotStore × Confirmation primitives)
  | .idle, .request identity requestedAt =>
      match identity.requirePrivateChat with
      | .error error => some (store, .ended (some (.access error)))
      | .ok _ =>
          let access := (getOrCreatePendingRequest identity requestedAt store.access).1
          some ({ store with access }, .ended none)
  | .idle, .issue actor values id rawToken now =>
      match bot.challenges.issue primitives actor values id rawToken now store.challenges with
      | .error failure => some (store, .ended (some failure))
      | .ok challenges => some ({ store with challenges }, .ended none)
  | .idle, .confirm context error data now =>
      (requestedAction data).map fun requested =>
        match confirm primitives context error requested now store.challenges with
        | .error failure => (store, .ended (some failure))
        | .ok (challenges, context, challenge) =>
            ({ store with challenges }, .consumed context challenge)
  | .consumed context challenge, .act now =>
      performAction isoformat signer bot store context challenge now
  | .consumed _ challenge, .crash => some (store, .failed challenge)
  | .creating challenge creation, .create event =>
      (creationStep signer bot.wallets store.wallets creation event).map fun result =>
        ({ store with wallets := result.1 }, .creating challenge result.2)
  | _, _ => none

/-- The handling of updates as a program of processes over all databases. -/
def botProgram : Program BotStore (Confirmation primitives) BotEvent where
  step := botStep isoformat signer bot

namespace Confirmation

/-- The challenge that a process has consumed. -/
def challenge : Confirmation primitives → Option CallbackChallenge
  | .consumed _ challenge | .creating challenge _ | .decided challenge | .failed challenge =>
      some challenge
  | .idle | .ended _ => none

/-- A handler is between the consumption of its challenge and the end of its action. -/
def running : Confirmation primitives → Bool
  | .consumed _ _ => true
  | .creating _ ⟨.counting _, _⟩ | .creating _ ⟨.awaiting _, _⟩ |
      .creating _ ⟨.saving _ _, _⟩ => true
  | _ => false

/-- The challenge whose action a process has committed. -/
def committed : Confirmation primitives → Option CallbackChallenge
  | .decided challenge | .creating challenge ⟨.returned _ _ _, _⟩ => some challenge
  | _ => none

end Confirmation

end CopyMint
