import CopyMint.Access.Context
import CopyMint.Access.Decisions
import CopyMint.Ethereum.Ports
import CopyMint.Library.Reading

/-!
# Rate limits of Telegram events

The handlers of a router are wrapped in its middlewares. That the first one which is
registered is the outermost is an assumption about aiogram, and the only one that is made
about the framework. Authorization is registered before the rate limit. It
resolves the context of an event, and it records an unauthorized attempt where there
is none, before the event is counted at all: the limit holds back what reaches the
handlers, and the attempts that are recorded are all that are made.

Redis counts the events of a user in a window that begins with the first of them.
-/

namespace CopyMint

open Hexadecimal RowSecurity

/-- The value of a key, and the time in milliseconds at which it expires. -/
structure RateCounter where
  count : ℕ
  expiresAt : ℕ
  deriving DecidableEq

/-- The counters of the limiter by their keys. -/
abbrev RateKeys := Text → Option RateCounter

/-- `RateLimitDecision`. -/
structure RateLimitDecision where
  allowed : Bool
  count : ℕ
  limit : ℕ
  retryAfterSeconds : ℕ
  deriving DecidableEq

/-- The limiter, with the environment that its constructor asks for. -/
structure RedisRateLimiter where
  environment : Text
  named : environment ≠ []

namespace RedisRateLimiter

variable (limiter : RedisRateLimiter)

/-- The key of a counter. -/
def key (scope subject : Text) : Text :=
  "copymint:".toList ++ limiter.environment ++ ":rate:".toList ++ scope ++ ':' :: subject

/-- Count a hit: a key that has expired is gone, and only a new one is given an expiry. -/
def hit (now : ℕ) (scope subject : Text) (limit windowSeconds : ℕ) (keys : RateKeys) :
    Except Raised (RateKeys × RateLimitDecision) :=
  if scope = [] ∨ subject = [] then
    .error (.valueError "rate-limit scope and subject are required")
  else if limit < 1 ∨ windowSeconds < 1 then
    .error (.valueError "rate-limit and window must be positive")
  else
    let key := limiter.key scope subject
    let counter : RateCounter :=
      match (keys key).filter fun counter => now < counter.expiresAt with
      | some counter => { counter with count := counter.count + 1 }
      | none => ⟨1, now + windowSeconds * 1000⟩
    .ok (Function.update keys key (some counter),
      { allowed := counter.count ≤ limit
        count := counter.count
        limit
        retryAfterSeconds := max ((counter.expiresAt - now + 500) / 1000) 1 })

end RedisRateLimiter

/-- The user that an update comes from. -/
structure TelegramUser where
  id : ℤ
  username : Option Text
  firstName : Text
  lastName : Option Text
  deriving DecidableEq

/-- The chat that an update comes from. -/
structure TelegramChat where
  id : ℤ
  type : Text
  deriving DecidableEq

/-- An event for which a handler is registered, with the chat of its message. -/
inductive TelegramEvent where
  | message (fromUser : Option TelegramUser) (chat : TelegramChat) (text : Option Text)
  | callbackQuery (fromUser : TelegramUser) (chat : Option TelegramChat)
  deriving DecidableEq

/-- The names that are there and not empty, with a blank between them. -/
def TelegramUser.displayName (user : TelegramUser) : Text :=
  match user.firstName, user.lastName.getD [] with
  | [], last => last
  | first, [] => first
  | first, last => first ++ ' ' :: last

/-- The identity of a user in a chat. -/
def TelegramUser.identity (user : TelegramUser) (chat : TelegramChat) : TelegramIdentity where
  telegramUserId := user.id
  chatId := chat.id
  chatType := chat.type
  username := user.username
  displayName := if user.displayName = [] then none else some user.displayName

/-- `identity_from_event`. -/
def identityFromEvent : TelegramEvent → Option TelegramIdentity
  | .message fromUser chat _ => fromUser.map fun user => user.identity chat
  | .callbackQuery fromUser chat => chat.map fun chat => fromUser.identity chat

/-- `type(event).__name__`. -/
def TelegramEvent.typeName : TelegramEvent → Text
  | .message _ _ _ => "Message".toList
  | .callbackQuery _ _ => "CallbackQuery".toList

/-- `PUBLIC_COMMANDS`. -/
def publicCommands : List Text :=
  ["/start".toList, "/access_status".toList, "/help".toList]

/-- `RequestContextMiddleware._is_public_message`. -/
def TelegramEvent.isPublicMessage : TelegramEvent → Bool
  | .message _ _ text => publicCommands.any fun command => command.isPrefixOf (text.getD [])
  | .callbackQuery _ _ => false

/-- The `code` of an access error. -/
def AccessError.code : AccessError → Text
  | .accessError _ => "access_error".toList
  | .privateChatRequired _ => "private_chat_required".toList
  | .accessPending _ => "access_pending".toList
  | .accessDenied _ => "access_denied".toList
  | .platformOwnerRequired _ => "platform_owner_required".toList
  | .workspaceRequired _ => "workspace_required".toList
  | .walletLimitReached _ => "wallet_limit_reached".toList
  | .invalidChallenge _ => "invalid_challenge".toList

/-- An audit row with the time that the database fills in. -/
structure RecordedAttempt where
  occurredAt : ℕ
  audit : AuditLog

/-- The keys of Redis, and the unauthorized attempts in the audit log. -/
structure DispatchState where
  keys : RateKeys
  attempts : List RecordedAttempt

/-- An event on its way to a handler, and what the environment decides about it. -/
structure Arrival where
  now : ℕ
  event : TelegramEvent
  /-- What `resolve_context` returns or raises. -/
  resolved : Except AccessError RequestContext
  auditId : ℕ
  correlationId : ℕ

/-- What the middlewares hand on to the handler. -/
structure HandlerData where
  telegramIdentity : Option TelegramIdentity := none
  requestContext : Option RequestContext := none
  accessError : Option AccessError := none

/-- How an event ends. -/
inductive DispatchOutcome where
  | handled (data : HandlerData)
  | rejected (retryAfterSeconds : ℕ)
  | raised (error : Raised)
  | refused (failure : AccessFailure)

/-- What handles an update, with the data that the middlewares have gathered. -/
abbrev EventHandler := Arrival → HandlerData → DispatchState → DispatchState × DispatchOutcome

/-- `BaseMiddleware.__call__`: a handler around another one. -/
abbrev Middleware := EventHandler → EventHandler

variable (policies : AccessPolicies) (limiter : RedisRateLimiter) (userLimit workspaceLimit : ℕ)

/-- The audit row of an unauthorized attempt. -/
def Arrival.audit (arrival : Arrival) (identity : TelegramIdentity) (error : AccessError) :
    AuditLog :=
  attemptAudit arrival.auditId identity arrival.event.typeName error.code arrival.correlationId

/-- `RequestContextMiddleware`. -/
def requestContextMiddleware : Middleware := fun handler arrival data state =>
  match identityFromEvent arrival.event with
  | none => handler arrival data state
  | some identity =>
      match arrival.resolved with
      | .ok context =>
          handler arrival ⟨some identity, some context, none⟩ state
      | .error error =>
          let data : HandlerData := ⟨some identity, none, some error⟩
          if arrival.event.isPublicMessage then handler arrival data state
          else
            let audit := arrival.audit identity error
            match secured "audit_logs" (insertReturning policies.auditLogs {} audit
                (state.attempts.map RecordedAttempt.audit)) with
            | .error failure => (state, .refused failure)
            | .ok _ =>
                handler arrival data
                  { state with attempts := state.attempts ++ [⟨arrival.now, audit⟩] }

/-- `TelegramRateLimitMiddleware`. -/
def telegramRateLimitMiddleware : Middleware := fun handler arrival data state =>
  match data.telegramIdentity with
  | none => handler arrival data state
  | some identity =>
      match limiter.hit arrival.now "telegram_user".toList (Json.decimal identity.telegramUserId)
          userLimit 60 state.keys with
      | .error error => (state, .raised error)
      | .ok (keys, decision) =>
          let state := { state with keys }
          if decision.allowed then
            match data.requestContext.bind RequestContext.workspaceId with
            | none => handler arrival data state
            | some workspaceId =>
                match limiter.hit arrival.now "workspace".toList (uuidText workspaceId)
                    workspaceLimit 60 state.keys with
                | .error error => (state, .raised error)
                | .ok (keys, decision) =>
                    let state := { state with keys }
                    if decision.allowed then handler arrival data state
                    else (state, .rejected decision.retryAfterSeconds)
          else (state, .rejected decision.retryAfterSeconds)

/--
`MiddlewareManager.wrap_middlewares` of aiogram, by the one thing that is assumed of it: the
middleware that is registered first is the outermost.
-/
def wrapMiddlewares (middlewares : List Middleware) (handler : EventHandler) : EventHandler :=
  middlewares.foldr (fun middleware inner => middleware inner) handler

/-- The middlewares in the order in which `create_dispatcher` registers them. -/
def routerMiddlewares : List Middleware :=
  [requestContextMiddleware policies,
    telegramRateLimitMiddleware limiter userLimit workspaceLimit]

/-- Dispatch an event; what the handler itself does is about other tables. -/
def dispatch (arrival : Arrival) (state : DispatchState) : DispatchState × DispatchOutcome :=
  wrapMiddlewares (routerMiddlewares policies limiter userLimit workspaceLimit)
    (fun _ data state => (state, .handled data)) arrival {} state

/-- The state after a sequence of events. -/
def dispatchAll (arrivals : List Arrival) (state : DispatchState) : DispatchState :=
  arrivals.foldl
    (fun state arrival => (dispatch policies limiter userLimit workspaceLimit arrival state).1)
    state

/-- No key is set yet, and no attempt has been recorded. -/
def DispatchState.initial : DispatchState := ⟨fun _ => none, []⟩

/-- The database admits the audit row of an unauthorized attempt, and returns its columns. -/
def AccessPolicies.admitsAttempt (audit : AuditLog) : Bool :=
  policies.auditLogs.insertable {} audit && policies.auditLogs.readable {} audit

/-- The audit row that an event leaves, if it is unauthorized and the database admits the row. -/
def Arrival.recorded (arrival : Arrival) : Option RecordedAttempt :=
  match identityFromEvent arrival.event, arrival.resolved with
  | some identity, .error error =>
      let audit := arrival.audit identity error
      if !arrival.event.isPublicMessage && policies.admitsAttempt audit then
        some ⟨arrival.now, audit⟩
      else none
  | _, _ => none

/-- A time lies in the minute before a key expires. -/
def InWindow (expiresAt time : ℕ) : Prop := expiresAt ≤ time + 60 * 1000 ∧ time < expiresAt

instance (expiresAt time : ℕ) : Decidable (InWindow expiresAt time) :=
  inferInstanceAs (Decidable (_ ∧ _))

/-- The attempts of a user that are recorded in a window. -/
def DispatchState.attemptsIn (state : DispatchState) (telegramUserId : ℤ) (expiresAt : ℕ) : ℕ :=
  state.attempts.countP fun attempt =>
    attempt.audit.actorId = Json.decimal telegramUserId && InWindow expiresAt attempt.occurredAt

/-- A window of a user that Redis has kept at some point of a sequence of events. -/
def IsWindow (arrivals : List Arrival) (telegramUserId : ℤ) (expiresAt : ℕ) : Prop :=
  ∃ earlier, earlier <+: arrivals ∧ ∃ count,
    (dispatchAll policies limiter userLimit workspaceLimit earlier .initial).keys
      (limiter.key "telegram_user".toList (Json.decimal telegramUserId)) =
        some ⟨count, expiresAt⟩

/--
The event is an attempt of the user in a window: it has an identity without a context,
it is no public command, and the database admits its audit row.
-/
def Arrival.isAttempt (arrival : Arrival) (telegramUserId : ℤ) (expiresAt : ℕ) : Bool :=
  match identityFromEvent arrival.event, arrival.resolved with
  | some identity, .error error =>
      identity.telegramUserId = telegramUserId && InWindow expiresAt arrival.now &&
        (!arrival.event.isPublicMessage && policies.admitsAttempt (arrival.audit identity error))
  | _, _ => false

variable {policies limiter userLimit workspaceLimit}

/-- The rate limit leaves the recorded attempts alone, whatever it decides. -/
theorem attempts_rateLimit (arrival : Arrival) (data : HandlerData) (state : DispatchState) :
    (telegramRateLimitMiddleware limiter userLimit workspaceLimit
      (fun _ data state => (state, DispatchOutcome.handled data)) arrival data state).1.attempts =
        state.attempts := by
  unfold telegramRateLimitMiddleware
  split
  · rfl
  · split
    · rfl
    · dsimp only
      split_ifs
      · split
        · rfl
        · split
          · rfl
          · split_ifs <;> rfl
      · rfl

/-- Every unauthorized event is recorded, whether the rate limit lets it pass or not. -/
theorem attempts_dispatch (arrival : Arrival) (state : DispatchState) :
    (dispatch policies limiter userLimit workspaceLimit arrival state).1.attempts =
      state.attempts ++ (arrival.recorded policies).toList := by
  simp only [dispatch, wrapMiddlewares, routerMiddlewares, List.foldr_cons, List.foldr_nil,
    requestContextMiddleware, Arrival.recorded]
  cases identityFromEvent arrival.event with
  | none => simp [attempts_rateLimit]
  | some identity =>
      cases arrival.resolved with
      | ok context => simp [attempts_rateLimit]
      | error error =>
          dsimp only
          cases isPublic : arrival.event.isPublicMessage with
          | true => simp [attempts_rateLimit]
          | false =>
              simp only [Bool.false_eq_true, if_false, insertReturning, Bool.not_false,
                Bool.true_and, AccessPolicies.admitsAttempt]
              split_ifs with admitted
              · simp [secured, attempts_rateLimit]
              · simp [secured]

/-- The recorded attempts are those of the events, in their order. -/
theorem attempts_dispatchAll (arrivals : List Arrival) (state : DispatchState) :
    (dispatchAll policies limiter userLimit workspaceLimit arrivals state).attempts =
      state.attempts ++ arrivals.filterMap (Arrival.recorded policies) := by
  induction arrivals generalizing state with
  | nil => simp [dispatchAll]
  | cons arrival arrivals ih =>
      have stepped := ih (dispatch policies limiter userLimit workspaceLimit arrival state).1
      rw [attempts_dispatch] at stepped
      cases recorded : arrival.recorded policies with
      | none => simpa [dispatchAll, recorded] using stepped
      | some attempt => simpa [dispatchAll, recorded] using stepped

/-- What is recorded of a user in a window are the attempts that the user made in it. -/
theorem attemptsIn_dispatchAll (arrivals : List Arrival) (telegramUserId : ℤ) (expiresAt : ℕ) :
    (dispatchAll policies limiter userLimit workspaceLimit arrivals .initial).attemptsIn
        telegramUserId expiresAt =
      arrivals.countP fun arrival => arrival.isAttempt policies telegramUserId expiresAt := by
  simp only [DispatchState.attemptsIn, attempts_dispatchAll, DispatchState.initial,
    List.nil_append, List.countP_filterMap]
  apply List.countP_congr
  intro arrival _
  simp only [Arrival.recorded, Arrival.isAttempt]
  cases identityFromEvent arrival.event with
  | none => simp
  | some identity =>
      cases arrival.resolved with
      | ok context => simp
      | error error =>
          have actor : (arrival.audit identity error).actorId =
              Json.decimal telegramUserId ↔ identity.telegramUserId = telegramUserId := by
            constructor
            · exact Json.decimal_injective
            · exact congrArg Json.decimal
          cases recorded : !arrival.event.isPublicMessage &&
              policies.admitsAttempt (arrival.audit identity error) with
          | false => simp [recorded]
          | true => simp [recorded, actor]

/--
The attempts of a user that are recorded in a window stay within the limit exactly if
those that the user makes in it do: the rate limit has no part in it.
-/
theorem attempts_withinLimit_iff (policies : AccessPolicies) (limiter : RedisRateLimiter)
    (userLimit workspaceLimit : ℕ) (arrivals : List Arrival) (telegramUserId : ℤ) :
    (∀ expiresAt, IsWindow policies limiter userLimit workspaceLimit arrivals telegramUserId
        expiresAt →
      (dispatchAll policies limiter userLimit workspaceLimit arrivals .initial).attemptsIn
        telegramUserId expiresAt ≤ userLimit) ↔
      ∀ expiresAt, IsWindow policies limiter userLimit workspaceLimit arrivals telegramUserId
          expiresAt →
        (arrivals.countP fun arrival => arrival.isAttempt policies telegramUserId expiresAt) ≤
          userLimit := by
  simp only [attemptsIn_dispatchAll]

/-- Where the policies of the migrations apply, no attempt is ever recorded. -/
theorem attempts_migratedPolicies (arrivals : List Arrival) :
    (dispatchAll migratedPolicies limiter userLimit workspaceLimit arrivals .initial).attempts =
      [] := by
  have unrecorded : ∀ arrival ∈ arrivals, arrival.recorded migratedPolicies = none := by
    intro arrival _
    simp only [Arrival.recorded]
    split
    · simp [AccessPolicies.admitsAttempt, migratedPolicies, auditPolicy, Arrival.audit,
        attemptAudit]
    · rfl
  rw [attempts_dispatchAll, List.filterMap_eq_nil_iff.mpr unrecorded]
  rfl

section Samples

/-- A role that row-level security does not apply to, as a superuser. -/
def exemptPolicies : AccessPolicies where
  workspaces := .isolation fun _ _ => true
  memberships := .isolation fun _ _ => true
  destinations := .isolation fun _ _ => true
  strategies := .isolation fun _ _ => true
  auditLogs := .isolation fun _ _ => true

/-- A limiter of the test environment. -/
def sampleLimiter : RedisRateLimiter := ⟨"test".toList, by decide⟩

/-- A user without access presses a button. -/
def sampleCallback (now : ℕ) : Arrival where
  now
  event := .callbackQuery ⟨99, none, [], none⟩ (some ⟨99, privateChat⟩)
  resolved := .error (.accessDenied "This Telegram account is not approved for CopyMint.")
  auditId := now
  correlationId := now

end Samples

/-- With a limit of one event in a minute, two attempts are recorded in it. -/
theorem callbacks_exceedLimit :
    ¬∀ arrivals : List Arrival,
      (∀ arrival ∈ arrivals, (identityFromEvent arrival.event).map
        TelegramIdentity.telegramUserId = some 99 ∧ arrival.resolved.isOk = false) →
      ∀ expiresAt, IsWindow exemptPolicies sampleLimiter 1 120 arrivals 99 expiresAt →
        (dispatchAll exemptPolicies sampleLimiter 1 120 arrivals .initial).attemptsIn 99
          expiresAt ≤ 1 := by
  intro claimed
  have unauthorized : ∀ arrival ∈ [sampleCallback 0, sampleCallback 1000],
      (identityFromEvent arrival.event).map TelegramIdentity.telegramUserId = some 99 ∧
        arrival.resolved.isOk = false := by
    simp [sampleCallback, identityFromEvent, TelegramUser.identity, Except.isOk, Except.toBool]
  have window : IsWindow exemptPolicies sampleLimiter 1 120
      [sampleCallback 0, sampleCallback 1000] 99 60000 := by
    refine ⟨_, List.prefix_rfl, 2, ?_⟩
    decide +kernel
  have within := claimed _ unauthorized 60000 window
  have exceeds : (dispatchAll exemptPolicies sampleLimiter 1 120
      [sampleCallback 0, sampleCallback 1000] .initial).attemptsIn 99 60000 = 2 := by
    decide +kernel
  rw [exceeds] at within
  exact absurd within (by decide)

end CopyMint
