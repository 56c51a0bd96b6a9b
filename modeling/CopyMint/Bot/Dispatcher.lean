import CopyMint.Access.ReportedStatus
import CopyMint.Bot.Listings
import CopyMint.Bot.RateLimits
import CopyMint.Library.Interaction

/-!
# The handling of an update

What the bot does with an update as a program that calls its repositories: the handler that the
routers choose, within the middlewares that the dispatcher puts around it, over the services.
Every call is an action of its own. What a call returns or raises is not known to the program,
and any number of updates are handled at once.

How the text of a message names a command is up to the library of the bot.
-/

namespace CopyMint

open Hexadecimal Interleaving

section Calls

/-- A request to Telegram, with the buttons below a message. -/
inductive TelegramRequest where
  | answerMessage (text : Text) (buttons : List (Text × Text))
  | answerCallback (text : Text)
  | sendMessage (chatId : ℤ) (text : Text) (buttons : List (Text × Text))
  | editMessageText (chatId messageId : ℤ) (text : Text)

/-- The columns of a challenge that its repository is given. -/
structure NewChallenge where
  tokenHash : BytesOf 32
  action : ChallengeAction
  expectedActorTelegramUserId : ℤ
  expectedChatId : ℤ
  resourceType : Text
  resourceId : ℕ
  authoritativePayload : List (Text × Json)
  expiresAt : ℤ

/-- The row of a challenge that is issued. -/
def NewChallenge.row (values : NewChallenge) (id : ℕ) : CallbackChallenge where
  id
  tokenHash := values.tokenHash
  action := values.action
  expectedActorTelegramUserId := values.expectedActorTelegramUserId
  expectedChatId := values.expectedChatId
  resourceType := values.resourceType
  resourceId := values.resourceId
  authoritativePayload := values.authoritativePayload
  expiresAt := values.expiresAt
  consumedAt := none

/-- The calls of the services and the handlers. -/
inductive BotCall where
  | findPrincipal (telegramUserId : ℤ)
  | findLatestRequest (telegramUserId : ℤ)
  | getOrCreatePendingRequest (identity : TelegramIdentity) (requestedAt : ℤ)
  | listPendingRequests (limit : ℕ)
  | approveRequest (requestId : ℕ) (actorTelegramUserId : ℤ) (correlationId : ℕ) (decidedAt : ℤ)
  | rejectRequest (requestId : ℕ) (actorTelegramUserId : ℤ) (correlationId : ℕ) (decidedAt : ℤ)
  | revokeUser (targetTelegramUserId actorTelegramUserId : ℤ) (correlationId : ℕ) (revokedAt : ℤ)
  | unauthorizedAttempt (identity : TelegramIdentity) (action code : Text) (correlationId : ℕ)
  | createChallenge (values : NewChallenge)
  /-- The repository is given the account and the chat of the actor. -/
  | consumeChallenge (tokenHash : BytesOf 32) (action : ChallengeAction) (actor : RequestContext)
      (consumedAt : ℤ)
  | hit (scope subject : Text) (limit windowSeconds : ℕ)
  | findByIdempotency (workspaceId : ℕ) (keyHash : BytesOf 32)
  | countActive (workspaceId : ℕ)
  | signerCreateWallet (workspaceId chainId : ℕ) (idempotencyKey : Text) (correlationId : ℕ)
  | saveOrGet (result : SignerWalletResult) (keyHash : BytesOf 32)
      (actorUserId correlationId : ℕ)
  | listWallets (workspaceId : ℕ)
  | requestRefresh (workspaceId walletId : ℕ)
  | addOrGet (workspaceId actorUserId : ℕ) (address : Text) (label : Option Text)
      (correlationId : ℕ)
  | findByAddress (workspaceId : ℕ) (address : Text)
  | listCollections (workspaceId : ℕ)
  | requestScan (workspaceId collectionId : ℕ)
  | uuid7
  | utcNow
  | tokenUrlsafe
  | telegram (request : TelegramRequest)

/-- What a call returns. -/
abbrev BotAnswer : BotCall → Type
  | .findPrincipal _ => Option Principal
  | .findLatestRequest _ => Option AccessRequest
  | .getOrCreatePendingRequest _ _ => AccessRequest × Bool
  | .listPendingRequests _ => List AccessRequest
  | .approveRequest _ _ _ _ | .rejectRequest _ _ _ _ => AccessDecisionResult
  | .createChallenge _ => CallbackChallenge
  | .consumeChallenge _ _ _ _ => Option CallbackChallenge
  | .hit _ _ _ _ => RateLimitDecision
  | .findByIdempotency _ _ => Option WalletRecord
  | .countActive _ => ℕ
  | .signerCreateWallet _ _ _ _ => SignerWalletResult
  | .saveOrGet _ _ _ _ => WalletRecord × Bool
  | .listWallets _ => List WalletRecord
  | .addOrGet _ _ _ _ _ => WorkspaceCollectionRecord × Bool
  | .findByAddress _ _ => Option WorkspaceCollectionRecord
  | .listCollections _ => List WorkspaceCollectionRecord
  | .uuid7 => ℕ
  | .utcNow => ℤ
  | .tokenUrlsafe => BytesOf 32
  | .revokeUser _ _ _ _ | .unauthorizedAttempt _ _ _ _ | .requestRefresh _ _ | .requestScan _ _
  | .telegram _ => Unit

/-- What the services and the handlers raise, and what a call outside of them may raise. -/
inductive BotFailure where
  | access (error : AccessError)
  | invalidCollectionInput (message : String)
  | collectionNotFound (message : String)
  | raised (error : Raised)
  | decision (failure : AccessFailure)
  | unavailable

/-- `str(exc)` of an access error, which is what handlers catch. -/
def BotFailure.accessMessage : BotFailure → Option Text
  | access error => some error.message.toList
  | invalidCollectionInput message | collectionNotFound message => some message.toList
  | raised _ | decision _ | unavailable => none

/-- What a refused registration is for a handler. -/
def RegistrationFailure.botFailure : RegistrationFailure → BotFailure
  | access error => .access error
  | invalidCollectionInput message => .invalidCollectionInput message
  | raised error => .raised error
  | stopped => .unavailable

/-- What the handling of an update does: calls, and what depends on their answers. -/
abbrev BotAction := Interaction BotCall BotAnswer BotFailure

/-- One call. -/
def ask (call : BotCall) : BotAction (BotAnswer call) := .ofCall call

/-- A check that raises an access error. -/
def demand {α : Type} (result : Except AccessError α) : BotAction α :=
  .ofExcept (result.mapError .access)

/-- A computation that may raise. -/
def evaluate {α : Type} (result : Except Raised α) : BotAction α :=
  .ofExcept (result.mapError .raised)

/-- One request to Telegram. -/
def telegram (request : TelegramRequest) : BotAction Unit := ask (.telegram request)

end Calls

/-- An update for which a handler may be registered. -/
inductive BotUpdate where
  | message (fromUser : Option TelegramUser) (chat : TelegramChat) (text caption : Option Text)
  | callbackQuery (fromUser : TelegramUser) (origin : Option (TelegramChat × ℤ))
      (data : Option Text)

/-- What the middlewares see of an update. -/
def BotUpdate.event : BotUpdate → TelegramEvent
  | message fromUser chat text _ => .message fromUser chat text
  | callbackQuery fromUser origin _ => .callbackQuery fromUser (origin.map Prod.fst)

/-- What the dispatcher is created with. -/
structure Dispatcher extends Bot where
  primitives : Primitives
  unicode : UnicodeDigits
  /-- The command that the text of a message carries, as the filter of the library reads it. -/
  commandName : Text → Option Text
  userRateLimitPerMinute : ℕ
  workspaceRateLimitPerMinute : ℕ
  /-- The queue for balance refreshes is configured. -/
  balanceRefresh : Bool

namespace Dispatcher

variable (dispatcher : Dispatcher)

section Access

/-- `AccessService.resolve_context`. -/
def resolveContext (identity : TelegramIdentity) : BotAction RequestContext := do
  demand identity.requirePrivateChat
  let correlationId ← ask .uuid7
  let principal ← ask (.findPrincipal identity.telegramUserId)
  match principal with
  | none =>
      if identity.telegramUserId ∈ dispatcher.platformOwnerIds then do
        let ownCorrelationId ← ask .uuid7
        return .platformOwner identity ownCorrelationId
      else do
        let latest ← ask (.findLatestRequest identity.telegramUserId)
        if latest.any fun request => request.status = .pending then
          demand (.error (.accessPending "Access request is awaiting owner approval."))
        else
          demand (.error (.accessDenied "This Telegram account is not approved for CopyMint."))
  | some principal =>
      let isOwner := identity.telegramUserId ∈ dispatcher.platformOwnerIds
      if principal.userStatus ≠ .active then
        demand (.error (.accessDenied "CopyMint access has been revoked."))
      else if (principal.workspaceId = none ∨ principal.workspaceRole = none) ∧ ¬isOwner then
        demand (.error (.accessDenied "The approved account has no active workspace."))
      else
        return {
          telegramUserId := identity.telegramUserId
          chatId := identity.chatId
          chatType := identity.chatType
          correlationId
          userId := some principal.userId
          workspaceId := principal.workspaceId
          workspaceRole := principal.workspaceRole
          platformRole := if isOwner then some .platformOwner else none }

/-- The latest request, unless the account is active. -/
def latestOfInactive (identity : TelegramIdentity) :
    BotAction (Option (Option AccessRequest)) := do
  demand identity.requirePrivateChat
  let principal ← ask (.findPrincipal identity.telegramUserId)
  if principal.any fun principal => principal.userStatus = .active then return none
  else do
    let latest ← ask (.findLatestRequest identity.telegramUserId)
    return some latest

/-- `AccessService.request_access`. -/
def requestAccess (identity : TelegramIdentity) : BotAction AccessRequestOutcome := do
  let found ← latestOfInactive identity
  match found with
  | none => return { state := "active".toList, requestId := none }
  | some latest =>
      let now ← ask .utcNow
      match latest.filter fun request => request.status = .pending with
      | some request => return { state := "pending".toList, requestId := some request.id }
      | none =>
          match latest.filter fun request => request.cooldownUntil.any (now < ·) with
          | some request => return { state := "cooldown".toList, requestId := some request.id }
          | none => do
              let (record, created) ← ask (.getOrCreatePendingRequest identity now)
              return { state := "pending".toList, requestId := some record.id, created }

/-- `AccessService.access_status`. -/
def accessStatus (identity : TelegramIdentity) : BotAction AccessRequestOutcome := do
  let found ← latestOfInactive identity
  match found with
  | none => return { state := "active".toList, requestId := none }
  | some none => return { state := "not_requested".toList, requestId := none }
  | some (some latest) =>
      return { state := latest.status.value, requestId := some latest.id }

/-- `AccessService.pending_requests`. -/
def pendingRequests (actor : RequestContext) : BotAction (List AccessRequest) := do
  demand actor.requirePlatformOwner
  ask (.listPendingRequests 20)

/-- `AccessService.approve`. -/
def approve (actor : RequestContext) (requestId : ℕ) : BotAction AccessDecisionResult := do
  demand actor.requirePlatformOwner
  let now ← ask .utcNow
  ask (.approveRequest requestId actor.telegramUserId actor.correlationId now)

/-- `AccessService.reject`. -/
def reject (actor : RequestContext) (requestId : ℕ) : BotAction AccessDecisionResult := do
  demand actor.requirePlatformOwner
  let now ← ask .utcNow
  ask (.rejectRequest requestId actor.telegramUserId actor.correlationId now)

/-- `AccessService.revoke`. -/
def revoke (actor : RequestContext) (targetTelegramUserId : ℤ) : BotAction Unit := do
  demand actor.requirePlatformOwner
  if targetTelegramUserId ∈ dispatcher.platformOwnerIds then
    demand (.error (.accessDenied
      "A configured platform owner cannot be revoked through the bot."))
  else do
    let now ← ask .utcNow
    ask (.revokeUser targetTelegramUserId actor.telegramUserId actor.correlationId now)

end Access

section Challenges

/-- `issue` of the challenge service, which returns the token. -/
def issue (actor : RequestContext) (values : ChallengeService.Issue) : BotAction Text := do
  demand (requireActor actor values.action)
  let bytes ← ask .tokenUrlsafe
  let tokenHash ← evaluate (hashChallengeToken dispatcher.primitives (tokenUrlsafe bytes))
  let now ← ask .utcNow
  let _ ← ask (.createChallenge
    { tokenHash
      action := values.action
      expectedActorTelegramUserId := actor.telegramUserId
      expectedChatId := actor.chatId
      resourceType := values.resourceType
      resourceId := values.resourceId
      authoritativePayload := values.authoritativePayload
      expiresAt := now + dispatcher.challenges.defaultTtl })
  return tokenUrlsafe bytes

/-- `ChallengeService.consume`. -/
def consume (actor : RequestContext) (token : Text) (expectedAction : ChallengeAction) :
    BotAction CallbackChallenge := do
  demand (requireActor actor expectedAction)
  let now ← ask .utcNow
  let tokenHash ← evaluate (hashChallengeToken dispatcher.primitives token)
  let record ← ask (.consumeChallenge tokenHash expectedAction actor now)
  match record with
  | some record => return record
  | none =>
      demand (.error (.invalidChallenge
        "The confirmation is invalid, expired, or already consumed."))

end Challenges

section Wallets

/-- `WalletService.create_wallet`. -/
def createWallet (context : RequestContext) (idempotencyKey : Text) :
    BotAction (WalletRecord × Bool) := do
  let workspaceId ← demand context.requireWorkspace
  match context.userId with
  | none => demand (.error (.accessError "An approved user identity is required."))
  | some userId => do
      let keyHash ← evaluate (hashIdempotencyKey dispatcher.primitives idempotencyKey)
      let existing ← ask (.findByIdempotency workspaceId keyHash)
      match existing with
      | some existing => return (existing, false)
      | none => do
          let count ← ask (.countActive workspaceId)
          if dispatcher.wallets.maxWalletsPerWorkspace ≤ count then
            demand (.error (.walletLimitReached
              (limitMessage dispatcher.wallets.maxWalletsPerWorkspace)))
          else do
            let result ← ask (.signerCreateWallet workspaceId dispatcher.wallets.chainId
              idempotencyKey context.correlationId)
            if result.workspaceId ≠ workspaceId ∨
                result.chainId ≠ dispatcher.wallets.chainId then
              evaluate (.error (.runtimeError "signer returned a mismatched wallet binding"))
            else do
              let checksum ← evaluate (dispatcher.primitives.toChecksumAddress result.address)
              ask (.saveOrGet { result with address := checksum } keyHash userId
                context.correlationId)

/-- Whatever the queue raises for a wallet is logged. -/
def listWallets (context : RequestContext) : BotAction (List WalletRecord) := do
  let workspaceId ← demand context.requireWorkspace
  let wallets ← ask (.listWallets workspaceId)
  if dispatcher.balanceRefresh then do
    Interaction.forEach (fun wallet : WalletRecord => do
      let _ ← (ask (.requestRefresh workspaceId wallet.id)).attempt
      return ()) wallets
    return wallets
  else return wallets

end Wallets

section Collections

/-- `_queue`. -/
def queueScan (workspaceId collectionId : ℕ) : BotAction Bool := do
  let sent ← (ask (.requestScan workspaceId collectionId)).attempt
  return sent.isOk

/-- `CollectionService.add_collection`. -/
def addCollection (context : RequestContext) (address : Text) (label : Option Text) :
    BotAction (WorkspaceCollectionRecord × Bool × Bool) := do
  let workspaceId ← demand context.requireWorkspace
  match context.userId with
  | none => demand (.error (.accessError "An approved user identity is required."))
  | some userId => do
      let checksum ← Interaction.ofExcept ((normalizeAddress dispatcher.primitives address).mapError
        RegistrationFailure.botFailure)
      let label ← Interaction.ofExcept
        ((normalizeLabel label).mapError RegistrationFailure.botFailure)
      let (collection, created) ←
        ask (.addOrGet workspaceId userId checksum label context.correlationId)
      let queued ← queueScan workspaceId collection.collectionId
      return (collection, created, queued)

/-- `CollectionService.request_scan`. -/
def requestScan (context : RequestContext) (address : Text) :
    BotAction (WorkspaceCollectionRecord × Bool) := do
  let workspaceId ← demand context.requireWorkspace
  let checksum ← Interaction.ofExcept ((normalizeAddress dispatcher.primitives address).mapError
    RegistrationFailure.botFailure)
  let found ← ask (.findByAddress workspaceId checksum)
  match found with
  | none =>
      Interaction.fail (.collectionNotFound
        "That collection is not saved in your workspace. Use /add_collection first.")
  | some collection => do
      let queued ← queueScan workspaceId collection.collectionId
      return (collection, queued)

/-- `CollectionService.list_collections`. -/
def listCollections (context : RequestContext) :
    BotAction (List WorkspaceCollectionRecord) := do
  let workspaceId ← demand context.requireWorkspace
  ask (.listCollections workspaceId)

end Collections

section Handlers

/-- `try: body`, `except AccessError as exc: answer(str(exc))`, and what follows the body. -/
def answering {α : Type} (answer : Text → BotAction Unit) (body : BotAction α)
    (after : α → BotAction Unit) : BotAction Unit := do
  let result ← body.attempt
  match result with
  | .ok value => after value
  | .error failure =>
      match failure.accessMessage with
      | some message => answer message
      | none => Interaction.fail failure

/-- `message.answer`. -/
def answerMessage (text : Text) : BotAction Unit := telegram (.answerMessage text [])

/-- `callback.answer`, as an alert. -/
def answerCallback (text : Text) : BotAction Unit := telegram (.answerCallback text)

/-- `require_identity`. -/
def requireIdentity (data : HandlerData) : BotAction TelegramIdentity :=
  match data.telegramIdentity with
  | some identity => return identity
  | none => demand (.error (.accessError "Telegram identity is unavailable for this update."))

/-- The context that authorization has resolved, or its error. -/
def authorized (data : HandlerData) : BotAction RequestContext :=
  demand (requireContext data.requestContext data.accessError)

/-- A challenge for a decision of an owner about a request. -/
def decisionIssue (action : ChallengeAction) (requestId : ℕ) : ChallengeService.Issue where
  action
  resourceType := "access_request".toList
  resourceId := requestId
  authoritativePayload := []

/-- `owner_keyboard`: two buttons, each with a challenge of its own. -/
def ownerKeyboard (requestId : ℕ) (ownerId : ℤ) : BotAction (List (Text × Text)) := do
  let correlationId ← ask .uuid7
  let owner : RequestContext :=
    .platformOwner { telegramUserId := ownerId, chatId := ownerId, chatType := privateChat }
      correlationId
  let approval ← dispatcher.issue owner (decisionIssue .approveAccess requestId)
  let rejection ← dispatcher.issue owner (decisionIssue .rejectAccess requestId)
  let approvalData ← evaluate (callbackData "approve".toList approval)
  let rejectionData ← evaluate (callbackData "reject".toList rejection)
  return [("Approve".toList, approvalData), ("Reject".toList, rejectionData)]

/-- What an owner is told about a request. -/
def requestText (requestId : ℕ) (identity : TelegramIdentity) : Text :=
  joinLines ["COPYMINT ACCESS REQUEST".toList, "Request: ".toList ++ uuidText requestId,
    "Telegram ID: ".toList ++ Json.decimal identity.telegramUserId,
    match nonempty identity.username with
    | some username => "Username: @".toList ++ username
    | none => "Username: none".toList,
    "Name: ".toList ++ (nonempty identity.displayName).getD "not provided".toList]

/-- `/start`. -/
def start (data : HandlerData) : BotAction Unit :=
  answering answerMessage
    (do
      let identity ← requireIdentity data
      let outcome ← requestAccess identity
      return (identity, outcome))
    fun (identity, outcome) =>
      if outcome.state = "active".toList then
        answerMessage "Your CopyMint access is active. Use /help to see commands.".toList
      else if outcome.state = "cooldown".toList then
        answerMessage "Your previous request was rejected. Please try again later.".toList
      else do
        answerMessage
          "Access request received. You will be notified after owner review.".toList
        match outcome.created, outcome.requestId with
        | true, some requestId =>
            Interaction.forEach (fun ownerId => do
              let keyboard ← dispatcher.ownerKeyboard requestId ownerId
              telegram (.sendMessage ownerId (requestText requestId identity) keyboard))
              dispatcher.platformOwnerIds
        | _, _ => return ()

/-- `/access_status`. -/
def accessStatusCommand (data : HandlerData) : BotAction Unit :=
  answering answerMessage
    (do
      let identity ← requireIdentity data
      accessStatus identity)
    fun outcome => answerMessage ("CopyMint access status: ".toList ++ outcome.state ++ ".".toList)

/-- The text of `/help`. -/
def helpText : Text :=
  joinLines ["CopyMint Release 1 commands:".toList,
    "/access_status — view approval status".toList,
    "/create_wallet — review custody notice and create a wallet".toList,
    "/wallets — list your private execution wallets".toList,
    "/status — system status".toList, [],
    "Collection, analytics, and paper commands unlock in later phases.".toList]

/-- `/admin_requests`. -/
def adminRequests (data : HandlerData) : BotAction Unit :=
  answering answerMessage
    (do
      let context ← authorized data
      let pending ← pendingRequests context
      return (context, pending))
    fun (context, pending) =>
      if pending = [] then answerMessage "There are no pending access requests.".toList
      else
        Interaction.forEach (fun request : AccessRequest => do
          let keyboard ← dispatcher.ownerKeyboard request.id context.telegramUserId
          telegram (.answerMessage ("Request ".toList ++ uuidText request.id ++
            "\nTelegram ID: ".toList ++ Json.decimal request.telegramUserId) keyboard)) pending

/-- The account that a command names, if it names one. -/
def revocationTarget (text : Text) : Except Raised (Option ℤ) :=
  match dispatcher.unicode.splitOnce text with
  | [_, argument] =>
      if dispatcher.unicode.isdigit argument then
        match dispatcher.unicode.int .ten argument with
        | some targetId => .ok (some targetId)
        | none => .error (.valueError "invalid literal for int() with base 10")
      else .ok none
  | _ => .ok none

/-- A challenge for the revocation of an account. -/
def revocationIssue (resourceId : ℕ) (targetId : ℤ) : ChallengeService.Issue where
  action := .revokeAccess
  resourceType := "platform_user".toList
  resourceId
  authoritativePayload := [("target_telegram_user_id".toList, .int targetId)]

/-- `/admin_revoke`. -/
def adminRevokeCommand (data : HandlerData) (text : Text) : BotAction Unit :=
  answering answerMessage
    (do
      let context ← authorized data
      demand context.requirePlatformOwner
      let target ← evaluate (dispatcher.revocationTarget text)
      match target with
      | none => return none
      | some targetId => do
          let resourceId ← ask .uuid7
          let token ← dispatcher.issue context (revocationIssue resourceId targetId)
          return some (targetId, token))
    fun
      | none => answerMessage "Usage: /admin_revoke <numeric_telegram_user_id>".toList
      | some (targetId, token) => do
          let data ← evaluate (callbackData "revoke".toList token)
          telegram (.answerMessage ("Revoke CopyMint access for Telegram ID ".toList ++
            Json.decimal targetId ++ "?".toList) [("Confirm revocation".toList, data)])

/-- Decide what a consumed challenge stands for. -/
def decide (context : RequestContext) (challenge : CallbackChallenge) :
    ChallengeAction → BotAction DecisionReply
  | .approveAccess => do
      let result ← approve context challenge.resourceId
      return {
        response := "Approved Telegram ID ".toList ++ Json.decimal result.telegramUserId ++
          ".".toList
        notificationTarget := result.telegramUserId
        targetMessage :=
          "Your CopyMint access request was approved. Use /help to begin.".toList }
  | .rejectAccess => do
      let result ← reject context challenge.resourceId
      return {
        response := "Rejected Telegram ID ".toList ++ Json.decimal result.telegramUserId ++
          ".".toList
        notificationTarget := result.telegramUserId
        targetMessage := "Your CopyMint access request was not approved.".toList }
  | .revokeAccess | .createWallet =>
      match challenge.target with
      | none => demand (.error (.invalidChallenge "Revocation target is invalid."))
      | some target => do
          dispatcher.revoke context target
          return {
            response := "Revoked Telegram ID ".toList ++
              dispatcher.unicode.strGet (challenge.payload "target_telegram_user_id") ++
                ".".toList
            notificationTarget := target
            targetMessage := "Your CopyMint access has been revoked.".toList }

/-- Replace the text of the message with the buttons. -/
def editOrigin (origin : Option (TelegramChat × ℤ)) (text : Text) : BotAction Unit :=
  match origin with
  | some (chat, messageId) => telegram (.editMessageText chat.id messageId text)
  | none => return ()

/-- The decision that a callback confirms. -/
def confirmedDecision (data : HandlerData) (callback : Text) : BotAction DecisionReply := do
  let context ← authorized data
  let (action, token) ← demand (requestedDecision callback)
  let challenge ← dispatcher.consume context token action
  dispatcher.decide context challenge action

/-- `access_callback`. -/
def accessCallbackHandler (data : HandlerData) (origin : Option (TelegramChat × ℤ))
    (callback : Text) : BotAction Unit :=
  answering answerCallback (dispatcher.confirmedDecision data callback)
    fun reply => do
      answerCallback reply.response
      telegram (.sendMessage reply.notificationTarget reply.targetMessage [])
      editOrigin origin reply.response

/-- What is said before a wallet is created. -/
def custodyNotice : Text :=
  ("CopyMint will create a custodial Ethereum wallet. Its private key is encrypted inside " ++
    "the isolated signer and will never be sent through Telegram. Do not fund this wallet " ++
    "until the production custody and recovery policy is approved. Release 1 cannot sign or " ++
    "broadcast transactions.").toList

/-- `wallet_callback_data`, which checks the length of the other data as well. -/
def walletCallbackData (token : Text) : Except Raised Text := do
  let value := walletCallbackPrefix ++ token
  let _ ← callbackData "create".toList token
  if 64 < (Json.utf8 value).length then
    .error (.valueError "Telegram callback data exceeds 64 bytes")
  else .ok value

/-- A challenge for a wallet of a workspace. -/
def walletCreationIssue (workspaceId idempotencyId : ℕ) : ChallengeService.Issue where
  action := .createWallet
  resourceType := "workspace".toList
  resourceId := workspaceId
  authoritativePayload :=
    [("idempotency_key".toList, .str ("wallet-".toList ++ uuidText idempotencyId)),
      ("chain_id".toList, .int 1)]

/-- `/create_wallet`. -/
def createWalletCommand (data : HandlerData) : BotAction Unit :=
  answering answerMessage
    (do
      let context ← authorized data
      let workspaceId ← demand context.requireWorkspace
      let idempotencyId ← ask .uuid7
      dispatcher.issue context (walletCreationIssue workspaceId idempotencyId))
    fun token => do
      let data ← evaluate (walletCallbackData token)
      telegram (.answerMessage custodyNotice [("I understand — create wallet".toList, data)])

/-- The callback of the button under the custody notice. -/
def createWalletCallbackHandler (data : HandlerData) (origin : Option (TelegramChat × ℤ))
    (callback : Text) : BotAction Unit :=
  answering answerCallback
    (do
      let context ← authorized data
      let challenge ← dispatcher.consume context (removePrefix walletCallbackPrefix callback)
        .createWallet
      let workspaceId ← demand context.requireWorkspace
      if challenge.resourceId ≠ workspaceId then
        demand (.error (.accessError "Wallet confirmation does not belong to this workspace."))
      else
        match challenge.idempotencyKey with
        | none => demand (.error (.accessError "Wallet confirmation payload is invalid."))
        | some idempotencyKey => dispatcher.createWallet context idempotencyKey)
    fun (wallet, created) => do
      let state := if created then "created".toList else "already created".toList
      answerCallback ("Execution wallet ".toList ++ state ++ ".".toList)
      editOrigin origin ("Ethereum execution wallet ".toList ++ state ++ ":\n".toList ++
        wallet.address ++ "\n\nSigning and broadcasting remain disabled in Release 1.".toList)

/-- `/wallets`. -/
def walletsCommand (data : HandlerData) : BotAction Unit :=
  answering answerMessage
    (do
      let context ← authorized data
      dispatcher.listWallets context)
    fun wallets => answerMessage (walletsText wallets)

/-- `text.partition(" ")`, without the blank. -/
def partitionBlank (text : Text) : Text × Text :=
  let (head, tail) := text.span (· ≠ ' ')
  (head, tail.drop 1)

/-- `str.strip`. -/
def stripped (text : Text) : Text :=
  ((text.dropWhile isWhitespace).reverse.dropWhile isWhitespace).reverse

/-- The text behind a command. -/
def commandArguments (text : Text) : Text := stripped (partitionBlank text).2

/-- `/add_collection`. -/
def addCollectionCommand (data : HandlerData) (text : Text) : BotAction Unit :=
  let arguments := commandArguments text
  if arguments = [] then
    answerMessage "Usage: /add_collection <Ethereum address> [private label]".toList
  else
    let (address, label) := partitionBlank arguments
    answering answerMessage
      (do
        let context ← authorized data
        dispatcher.addCollection context address (nonempty (some label)))
      fun (collection, created, queued) =>
        let state := if created then "saved".toList else "already saved".toList
        let scan := if queued then "Scan queued.".toList
          else "Saved, but scan queue is unavailable.".toList
        answerMessage ("Collection ".toList ++ state ++ " for your workspace:\n".toList ++
          collection.address ++ "\n".toList ++ scan ++
          " Creating this entry does not mint an NFT or move funds.".toList)

/-- `/scan`. -/
def scanCollectionCommand (data : HandlerData) (text : Text) : BotAction Unit :=
  let address := commandArguments text
  if address = [] then
    answerMessage "Usage: /scan <saved Ethereum collection address>".toList
  else
    answering answerMessage
      (do
        let context ← authorized data
        dispatcher.requestScan context address)
      fun (collection, queued) =>
        answerMessage
          (if queued then "Scan queued for ".toList ++ collection.address ++ ".".toList
          else "The collection is saved, but the scan queue is unavailable.".toList)

/-- `/collections`. -/
def collectionsCommand (data : HandlerData) : BotAction Unit :=
  answering answerMessage
    (do
      let context ← authorized data
      listCollections context)
    fun collections => answerMessage (collectionsText collections)

end Handlers

section Routing

/-- The handler of a command: those of the routers in their order. -/
def commandHandler (name text : Text) : Option (HandlerData → BotAction Unit) :=
  if name = "start".toList then some dispatcher.start
  else if name = "access_status".toList then some accessStatusCommand
  else if name = "help".toList then some fun _ => answerMessage helpText
  else if name = "admin_requests".toList then some dispatcher.adminRequests
  else if name = "admin_revoke".toList then
    some fun data => dispatcher.adminRevokeCommand data text
  else if name = "create_wallet".toList then some dispatcher.createWalletCommand
  else if name = "wallets".toList then some dispatcher.walletsCommand
  else if name = "add_collection".toList then
    some fun data => dispatcher.addCollectionCommand data text
  else if name = "scan".toList then
    some fun data => dispatcher.scanCollectionCommand data text
  else if name = "collections".toList then some collectionsCommand
  else none

/-- The handler of a callback, by what its data begins with. -/
def callbackHandler (origin : Option (TelegramChat × ℤ)) (data : Text) :
    Option (HandlerData → BotAction Unit) :=
  if accessCallbackPrefix.isPrefixOf data then
    some fun handlerData => dispatcher.accessCallbackHandler handlerData origin data
  else if walletCallbackPrefix.isPrefixOf data then
    some fun handlerData => dispatcher.createWalletCallbackHandler handlerData origin data
  else none

/-- The filter of a command reads the caption of a message without text. -/
def handler : BotUpdate → Option (HandlerData → BotAction Unit)
  | .message _ _ text caption => do
      let filtered ← (nonempty text).or (nonempty caption)
      let name ← dispatcher.commandName filtered
      dispatcher.commandHandler name (text.getD [])
  | .callbackQuery _ origin data => data.bind (dispatcher.callbackHandler origin)

/-- `RequestContextMiddleware`. -/
def authorization (event : TelegramEvent) (handler : HandlerData → BotAction Unit) :
    BotAction Unit :=
  match identityFromEvent event with
  | none => handler {}
  | some identity => do
      let resolved ← (dispatcher.resolveContext identity).attempt
      match resolved with
      | .ok context => handler ⟨some identity, some context, none⟩
      | .error (.access error) =>
          let data : HandlerData := ⟨some identity, none, some error⟩
          if event.isPublicMessage then handler data
          else do
            let correlationId ← ask .uuid7
            ask (.unauthorizedAttempt identity event.typeName error.code correlationId)
            handler data
      | .error failure => Interaction.fail failure

/-- `TelegramRateLimitMiddleware._reject`. -/
def rejectUpdate (event : TelegramEvent) (decision : RateLimitDecision) : BotAction Unit :=
  let text := "Too many requests. Try again in ".toList ++
    Json.decimal decision.retryAfterSeconds ++ " seconds.".toList
  match event with
  | .message _ _ _ => answerMessage text
  | .callbackQuery _ _ => answerCallback text

/-- `TelegramRateLimitMiddleware`. -/
def rateLimit (event : TelegramEvent) (handler : HandlerData → BotAction Unit)
    (data : HandlerData) : BotAction Unit :=
  match data.telegramIdentity with
  | none => handler data
  | some identity => do
      let decision ← ask (.hit "telegram_user".toList (Json.decimal identity.telegramUserId)
        dispatcher.userRateLimitPerMinute 60)
      if decision.allowed then
        match data.requestContext.bind RequestContext.workspaceId with
        | none => handler data
        | some workspaceId => do
            let decision ← ask (.hit "workspace".toList (uuidText workspaceId)
              dispatcher.workspaceRateLimitPerMinute 60)
            if decision.allowed then handler data else rejectUpdate event decision
      else rejectUpdate event decision

/-- What is done with an update; one that no handler takes is ignored. -/
def handle (update : BotUpdate) : BotAction Unit :=
  match dispatcher.handler update with
  | none => return ()
  | some handler =>
      dispatcher.authorization update.event (dispatcher.rateLimit update.event handler)

end Routing

end Dispatcher

end CopyMint
