import CopyMint.Bot.Handlers
import CopyMint.Library.AbiDecoding
import CopyMint.Library.PythonText
import CopyMint.Signer.Authentication

/-!
# What handlers reply

The handlers of callbacks and of the command that asks for a revocation, with what they
send. A handler catches access errors and answers with their message; everything else that
its body raises leaves the handler. Its transactions are apart from each other, so that each
is given the state of the database that it finds.
-/

namespace CopyMint

open Hexadecimal Fallible

/-- `str(exc)`. -/
def AccessError.message : AccessError → String
  | accessError message | privateChatRequired message | accessPending message |
      accessDenied message | platformOwnerRequired message | workspaceRequired message |
      walletLimitReached message | invalidChallenge message => message

/-- A request to Telegram. Buttons have a label and the data of their callback. -/
inductive TelegramCall where
  | answerCallback (text : Text) (showAlert : Bool)
  | sendMessage (chatId : ℤ) (text : Text)
  | editMessageText (chatId messageId : ℤ) (text : Text)
  | answerMessage (text : Text) (buttons : List (Text × Text))
  deriving DecidableEq

/-- The update is answered, so that its sender sees something. -/
def TelegramCall.isAnswer : TelegramCall → Bool
  | answerCallback _ _ | answerMessage _ _ => true
  | sendMessage _ _ | editMessageText _ _ _ => false

/-- What the body of a handler raises. -/
inductive HandlerFailure where
  | access (error : AccessError)
  | raised (error : Raised)
  | decision (failure : AccessFailure)
  deriving DecidableEq

/-- What a refused challenge is for a handler. -/
def CallbackFailure.toHandlerFailure : CallbackFailure → HandlerFailure
  | access error => .access error
  | raised error => .raised error

/-- What a handler sends, unless it raises. -/
abbrev Replies := Except HandlerFailure (List TelegramCall)

/-- `try: body`, `except AccessError as exc: answer(str(exc))`, and what follows the body. -/
def catchAccess {α : Type} (answer : Text → TelegramCall) (body : Except HandlerFailure α)
    (after : α → Replies) : Replies :=
  match body with
  | .error (.access error) => .ok [answer error.message.toList]
  | .error failure => .error failure
  | .ok value => after value

/-- The message with the button of a callback. -/
structure CallbackMessage where
  chatId : ℤ
  messageId : ℤ

/-- What a handler reads of a callback query. -/
structure CallbackQuery where
  data : Option Text
  message : Option CallbackMessage

/-- The message with the button is edited if the query has it. -/
def CallbackQuery.edit (query : CallbackQuery) (text : Text) : List TelegramCall :=
  (query.message.map fun message =>
    TelegramCall.editMessageText message.chatId message.messageId text).toList

/-- `callback_data`. -/
def callbackData (action token : Text) : Except Raised Text :=
  let value := accessCallbackPrefix ++ action ++ ":".toList ++ token
  if 64 < (Json.utf8 value).length then
    .error (.valueError "Telegram callback data exceeds 64 bytes")
  else .ok value

/-- A digit of base 64 in the alphabet for URLs. -/
def urlsafeDigit (value : ℕ) : Char :=
  if value < 26 then Char.ofNat (65 + value)
  else if value < 52 then Char.ofNat (71 + value)
  else if value < 62 then Char.ofNat (value - 4)
  else if value = 62 then '-'
  else '_'

/-- `secrets.token_urlsafe(32)`: the 256 bits and two more, six to a digit. -/
def tokenUrlsafe (bytes : BytesOf 32) : Text :=
  let bits := 4 * AbiEncoding.fromBigEndian bytes.val
  (List.range 43).map fun place => urlsafeDigit (bits / 64 ^ (42 - place) % 64)

variable (primitives : Primitives) (isoformat : ℤ → Text) (policies : AccessPolicies)
  (unicode : UnicodeDigits) (bot : Bot)

/-- The action and the token in the data of an access callback. -/
def requestedDecision (data : Text) : Except AccessError (ChallengeAction × Text) :=
  match splitColons 3 data with
  | [_, _, actionName, token] =>
      match accessActions.lookup actionName with
      | some action => .ok (action, token)
      | none => .error (.invalidChallenge "Unknown confirmation action.")
  | _ => .error (.invalidChallenge "Malformed confirmation.")

/-- What is said about a decision: the answer, and the message to whom it is about. -/
structure DecisionReply where
  response : Text
  notificationTarget : ℤ
  targetMessage : Text

/-- `approve`, `reject` or `revoke` of the access service, as a consumed challenge says. -/
def confirmDecision (context : RequestContext) (challenge : CallbackChallenge) (decidedAt : ℤ)
    (db : AccessDatabase) : ChallengeAction → Except HandlerFailure DecisionReply
  | .approveAccess => do
      context.requirePlatformOwner.mapError .access
      let (_, result) ← (approveRequest policies challenge.resourceId context.telegramUserId
        context.correlationId decidedAt db).mapError .decision
      .ok
        { response := "Approved Telegram ID ".toList ++ Json.decimal result.telegramUserId ++
            ".".toList
          notificationTarget := result.telegramUserId
          targetMessage :=
            "Your CopyMint access request was approved. Use /help to begin.".toList }
  | .rejectAccess => do
      context.requirePlatformOwner.mapError .access
      let (_, result) ← (rejectRequest isoformat policies challenge.resourceId
        context.telegramUserId context.correlationId none decidedAt none db).mapError .decision
      .ok
        { response := "Rejected Telegram ID ".toList ++ Json.decimal result.telegramUserId ++
            ".".toList
          notificationTarget := result.telegramUserId
          targetMessage := "Your CopyMint access request was not approved.".toList }
  | .revokeAccess | .createWallet =>
      match challenge.target with
      | none => .error (.access (.invalidChallenge "Revocation target is invalid."))
      | some target => do
          context.requirePlatformOwner.mapError .access
          if target ∈ bot.platformOwnerIds then
            .error (.access (.accessDenied
              "A configured platform owner cannot be revoked through the bot."))
          else do
            let _ ← (revokeUser policies target context.telegramUserId context.correlationId
              none decidedAt db).mapError .decision
            .ok
              { response := "Revoked Telegram ID ".toList ++
                  unicode.strGet (challenge.payload "target_telegram_user_id") ++ ".".toList
                notificationTarget := target
                targetMessage := "Your CopyMint access has been revoked.".toList }

/-- `access_callback`, with the challenges and the accounts as its transactions find them. -/
def accessCallback (context : Option RequestContext) (error : Option AccessError)
    (query : CallbackQuery) (challenges : CallbackChallenges) (consumedAt : ℤ)
    (db : AccessDatabase) (decidedAt : ℤ) : Replies :=
  catchAccess (.answerCallback · true)
    (do
      let context ← (requireContext context error).mapError .access
      let (action, token) ← (requestedDecision (query.data.getD [])).mapError .access
      let (_, challenge) ← (ChallengeService.consume primitives context token action consumedAt
        challenges).mapError CallbackFailure.toHandlerFailure
      confirmDecision isoformat policies unicode bot context challenge decidedAt db action)
    fun reply =>
      .ok (.answerCallback reply.response true ::
        .sendMessage reply.notificationTarget reply.targetMessage :: query.edit reply.response)

/-- What a wallet creation finds in its transactions, and what the signer answers. -/
structure CreationVisit where
  lookedUp : WalletStore
  counted : WalletStore
  signerResult : SignerWalletResult
  saved : WalletStore
  walletId : ℕ
  auditId : ℕ

/-- `create_wallet` of the wallet service. -/
def WalletService.createWallet (service : WalletService) (context : RequestContext)
    (idempotencyKey : Text) (visit : CreationVisit) :
    Except HandlerFailure (WalletRecord × Bool) := do
  let workspaceId ← context.requireWorkspace.mapError .access
  match context.userId with
  | none => .error (.access (.accessError "An approved user identity is required."))
  | some userId =>
      let keyHash ← (hashIdempotencyKey primitives idempotencyKey).mapError .raised
      match visit.lookedUp.findByIdempotency workspaceId keyHash with
      | some existing => .ok (existing.record, false)
      | none =>
          if service.maxWalletsPerWorkspace ≤ visit.counted.countActive workspaceId then
            .error (.access (.walletLimitReached (limitMessage service.maxWalletsPerWorkspace)))
          else if visit.signerResult.workspaceId ≠ workspaceId ∨
              visit.signerResult.chainId ≠ service.chainId then
            .error (.raised (.runtimeError "signer returned a mismatched wallet binding"))
          else
            let checksum ←
              (primitives.toChecksumAddress visit.signerResult.address).mapError .raised
            let (_, wallet, created) ← (visit.saved.saveOrGet visit.walletId visit.auditId
              { visit.signerResult with address := checksum } keyHash userId
              context.correlationId).mapError .raised
            .ok (wallet, created)

/-- `create_wallet_callback`. -/
def createWalletCallback (context : Option RequestContext) (error : Option AccessError)
    (query : CallbackQuery) (challenges : CallbackChallenges) (consumedAt : ℤ)
    (visit : CreationVisit) : Replies :=
  catchAccess (.answerCallback · true)
    (do
      let context ← (requireContext context error).mapError .access
      let token := removePrefix walletCallbackPrefix (query.data.getD [])
      let (_, challenge) ← (ChallengeService.consume primitives context token .createWallet
        consumedAt challenges).mapError CallbackFailure.toHandlerFailure
      let workspaceId ← context.requireWorkspace.mapError .access
      if challenge.resourceId ≠ workspaceId then
        .error (.access (.accessError "Wallet confirmation does not belong to this workspace."))
      else
        match challenge.idempotencyKey with
        | none => .error (.access (.accessError "Wallet confirmation payload is invalid."))
        | some idempotencyKey =>
            bot.wallets.createWallet primitives context idempotencyKey visit)
    fun (wallet, created) =>
      let state := if created then "created".toList else "already created".toList
      .ok (.answerCallback ("Execution wallet ".toList ++ state ++ ".".toList) true ::
        query.edit ("Ethereum execution wallet ".toList ++ state ++ ":\n".toList ++
          wallet.address ++
          "\n\nSigning and broadcasting remain disabled in Release 1.".toList))

/-- What a challenge is issued with: random bytes, identifiers and the time. -/
structure IssueDraw where
  token : BytesOf 32
  id : ℕ
  resourceId : ℕ
  now : ℤ

/-- `admin_revoke`. -/
def adminRevoke (context : Option RequestContext) (error : Option AccessError)
    (text : Option Text) (draw : IssueDraw) (challenges : CallbackChallenges) : Replies :=
  catchAccess (.answerMessage · [])
    (do
      let context ← (requireContext context error).mapError .access
      context.requirePlatformOwner.mapError .access
      match unicode.splitOnce (text.getD []) with
      | [_, argument] =>
          if unicode.isdigit argument then
            match unicode.int .ten argument with
            | none => .error (.raised (.valueError "invalid literal for int() with base 10"))
            | some targetId => do
                let values : ChallengeService.Issue :=
                  { action := .revokeAccess
                    resourceType := "platform_user".toList
                    resourceId := draw.resourceId
                    authoritativePayload := [("target_telegram_user_id".toList, .int targetId)] }
                let _ ← (bot.challenges.issue primitives context values draw.id
                  (tokenUrlsafe draw.token) draw.now challenges).mapError
                    CallbackFailure.toHandlerFailure
                .ok (some targetId)
          else .ok none
      | _ => .ok none)
    fun
      | none =>
          .ok [.answerMessage "Usage: /admin_revoke <numeric_telegram_user_id>".toList []]
      | some targetId => do
          let data ← (callbackData "revoke".toList (tokenUrlsafe draw.token)).mapError .raised
          .ok [.answerMessage ("Revoke CopyMint access for Telegram ID ".toList ++
            Json.decimal targetId ++ "?".toList) [("Confirm revocation".toList, data)]]

section Steps

variable {primitives isoformat policies unicode bot}

/-- The data that the handler takes is read as its transactions are modelled to read it. -/
theorem requestedAction_of_access {data : Text}
    (access : accessCallbackPrefix.isPrefixOf data = true) :
    requestedAction data = some (requestedDecision data) := by
  rw [requestedAction, if_pos access, requestedDecision]
  rcases splitColons 3 data with _ | ⟨_, _ | ⟨_, _ | ⟨actionName, _ | ⟨_, _ | _⟩⟩⟩⟩
  case cons.cons.cons.cons.nil =>
    dsimp only
    cases accessActions.lookup actionName <;> rfl
  all_goals rfl

variable {store : BotStore} {context : RequestContext} {challenge : CallbackChallenge}

/-- A decision is replied to exactly if its transaction commits. -/
theorem exists_reply_iff {α : Type} {result : Except AccessFailure α} {reply : α → DecisionReply}
    {committed : α → AccessDatabase} :
    (∃ said, result.mapError HandlerFailure.decision >>= (fun value => .ok (reply value)) =
        .ok said) ↔
      ∃ after, (match committed <$> result with
        | .error _ => some (store, Confirmation.failed challenge)
        | .ok access => some ({ store with access }, .decided challenge) :
          Option (BotStore × Confirmation primitives)) = some (after, .decided challenge) := by
  cases result with
  | error failure =>
      refine iff_of_false ?_ ?_
      · rintro ⟨_, impossible⟩
        cases impossible
      · rintro ⟨_, impossible⟩
        cases impossible
  | ok value => exact iff_of_true ⟨_, rfl⟩ ⟨_, rfl⟩

/-- The handler replies to a decision exactly if it is decided in the steps of the bot. -/
theorem confirmDecision_iff_performAction {signer : SignerPrimitives} {now : ℤ}
    (decides : challenge.action ≠ .createWallet) :
    (∃ reply, confirmDecision isoformat migratedPolicies unicode bot context challenge now
        store.access challenge.action = .ok reply) ↔
      ∃ after, performAction isoformat signer bot store context challenge now =
        some (after, (.decided challenge : Confirmation primitives)) := by
  simp only [performAction, confirmedAction]
  cases action : challenge.action with
  | createWallet => exact absurd action decides
  | approveAccess =>
      simp only [confirmDecision]
      cases context.requirePlatformOwner with
      | error refused => simp [Except.mapError, bind, Except.bind]
      | ok passed => exact exists_reply_iff
  | rejectAccess =>
      simp only [confirmDecision]
      cases context.requirePlatformOwner with
      | error refused => simp [Except.mapError, bind, Except.bind]
      | ok passed => exact exists_reply_iff
  | revokeAccess =>
      simp only [confirmDecision]
      cases challenge.target with
      | none => simp
      | some target =>
          cases context.requirePlatformOwner with
          | error refused => simp [Except.mapError, bind, Except.bind]
          | ok passed =>
              simp only [mapError_ok, ok_bind]
              split_ifs
              · simp
              · cases decided : revokeUser migratedPolicies target context.telegramUserId
                  context.correlationId none now store.access <;>
                  simp [Except.mapError, bind, Except.bind, AccessCall.run, decided]

/-- What the signer answers, as its client reads it. -/
def WalletDescriptor.result (descriptor : WalletDescriptor) : SignerWalletResult where
  signerKeyId := descriptor.signerKeyId
  workspaceId := descriptor.workspaceId
  chainId := descriptor.chainId
  address := descriptor.address
  created := descriptor.created

/-- The handler creates a wallet as the steps of a call do that nothing stops. -/
theorem callSteps_of_createWallet {service : WalletService} {idempotencyKey : Text}
    {visit : CreationVisit} {descriptor : WalletDescriptor} {wallet : WalletRecord} {created : Bool}
    (answered : visit.signerResult = descriptor.result)
    (returned : service.createWallet primitives context idempotencyKey visit =
      .ok (wallet, created)) (handler : HandlerPhase primitives) :
    ∃ request : CreationRequest primitives,
      callStep service visit.lookedUp handler .idle (.call context idempotencyKey) =
          some (visit.lookedUp, ⟨.returned request wallet created, handler⟩) ∨
        callStep service visit.lookedUp handler .idle (.call context idempotencyKey) =
            some (visit.lookedUp, ⟨.counting request, handler⟩) ∧
          callStep service visit.counted handler (.counting request) .count =
            some (visit.counted, ⟨.awaiting request, .received request⟩) ∧
          ∃ result, callStep service visit.counted (.answered request descriptor)
              (.awaiting request) .receive =
            some (visit.counted, ⟨.saving request result, .answered request descriptor⟩) ∧
          ∃ after, callStep service visit.saved (.answered request descriptor)
              (.saving request result) (.save visit.walletId visit.auditId) =
            some (after, ⟨.returned request wallet created, .answered request descriptor⟩) := by
  rcases bind_eq_ok_iff.mp returned with ⟨workspaceId, workspace, returned⟩
  rw [mapError_eq_ok_iff] at workspace
  cases user : context.userId with
  | none =>
      rw [user] at returned
      cases returned
  | some userId =>
      rw [user] at returned
      rcases bind_eq_ok_iff.mp returned with ⟨keyHash, hashed, returned⟩
      rw [mapError_eq_ok_iff] at hashed
      let request : CreationRequest primitives :=
        { workspaceId, userId, correlationId := context.correlationId, idempotencyKey, keyHash
          hashed }
      have begun : beginCreation primitives context idempotencyKey = .ok request := by
        simp only [beginCreation, workspace, user]
        split
        · rename_i raised
          cases hashed.symm.trans raised
        · rename_i other
          cases hashed.symm.trans other
          rfl
      refine ⟨request, ?_⟩
      simp only [callStep, begun]
      have sameKey : visit.lookedUp.findByIdempotency request.workspaceId request.keyHash =
        visit.lookedUp.findByIdempotency workspaceId keyHash := rfl
      rw [sameKey]
      cases found : visit.lookedUp.findByIdempotency workspaceId keyHash with
      | some existing =>
          rw [found] at returned
          cases returned
          exact .inl rfl
      | none =>
          rw [found] at returned
          dsimp only at returned
          split_ifs at returned with full mismatched
          rcases bind_eq_ok_iff.mp returned with ⟨checksum, spelled, returned⟩
          rw [mapError_eq_ok_iff] at spelled
          rcases bind_eq_ok_iff.mp returned with ⟨⟨after, stored, new⟩, saved, equal⟩
          rw [mapError_eq_ok_iff] at saved
          cases equal
          rw [answered] at mismatched spelled saved
          refine .inr ⟨rfl, if_neg full, { descriptor.result with address := checksum }, ?_, after,
            ?_⟩
          · have bound : ¬(descriptor.workspaceId ≠ request.workspaceId ∨
                descriptor.chainId ≠ service.chainId) := mismatched
            have sameAddress : primitives.toChecksumAddress descriptor.address = .ok checksum :=
              spelled
            rw [if_neg bound, sameAddress]
            rfl
          · have sameRow : visit.saved.saveOrGet visit.walletId visit.auditId
                { descriptor.result with address := checksum } request.keyHash request.userId
                request.correlationId = .ok (after, stored, new) := saved
            rw [sameRow]

end Steps

end CopyMint
