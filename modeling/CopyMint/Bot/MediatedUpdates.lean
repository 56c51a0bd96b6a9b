import CopyMint.Bot.MediatedServices

/-!
# The handling of updates is mediated

The middlewares establish what the handlers are given: the context belongs to the sender, and the
limits were not exceeded. A handler that is given no context goes no further than its first
check, and what it answers goes back to where the update comes from.
-/

namespace CopyMint

open Hexadecimal Interleaving Contract Fallible

section Answers

variable {dispatcher : Dispatcher} {update : BotUpdate} {store : DispatcherStore}
  {history : BotHistory} {α : Type} {data : HandlerData}

/-- Where nothing needs to be known about what an action returns. -/
abbrev Harmlessly {α : Type} (_ : DispatcherStore) (_ : BotHistory) (_ : α) : Prop := True

/-- An access error is answered, and everything else goes on or is raised. -/
theorem answering_mediated {answer : Text → BotAction Unit} {body : BotAction α}
    {next : α → BotAction Unit} {first : DispatcherStore → BotHistory → α → Prop}
    (answers : ∀ {store' longer} text,
      Mediated dispatcher update longer (answer text) Harmlessly store')
    (does : Mediated dispatcher update history body first store)
    (continues : ∀ {store' longer value}, history <+: longer → first store' longer value →
      Mediated dispatcher update longer (next value) Harmlessly store') :
    Mediated dispatcher update history (Dispatcher.answering answer body next) Harmlessly
      store := by
  refine does.attempt_andThen ?_ ?_
  · exact fun _ grown known => continues grown known
  · intro store' longer failure _ _
    dsimp only
    split
    · exact answers _
    · exact fun _ _ _ => nofun

theorem answering_harmlessly {answer : Text → BotAction Unit} {body : BotAction α}
    {next : α → BotAction Unit}
    (answers : ∀ {store' longer} text,
      Mediated dispatcher update longer (answer text) Harmlessly store')
    (does : Mediated dispatcher update history body Harmlessly store)
    (continues : ∀ {store' longer} value, history <+: longer →
      Mediated dispatcher update longer (next value) Harmlessly store') :
    Mediated dispatcher update history (Dispatcher.answering answer body next) Harmlessly
      store :=
  answering_mediated answers does fun grown _ => continues _ grown

theorem telegram_mediated {request : TelegramRequest}
    (addressed : MayAddress dispatcher update history request) :
    Mediated dispatcher update history (telegram request) Harmlessly store :=
  ask_returning addressed fun _ _ _ _ => trivial

/-- Owners are written to, and those who have been decided about. -/
theorem sendMessage_mediated {chatId : ℤ} {text : Text} {buttons : List (Text × Text)}
    (known : chatId ∈ dispatcher.platformOwnerIds ∨ DecidedAbout history chatId) :
    Mediated dispatcher update history (telegram (.sendMessage chatId text buttons)) Harmlessly
      store :=
  telegram_mediated known

theorem authorized_andThen {β : Type} {next : RequestContext → BotAction β}
    {last : DispatcherStore → BotHistory → β → Prop}
    (briefed : Briefed dispatcher update history data)
    (continues : ∀ context, Cleared dispatcher update history context →
      Mediated dispatcher update history (next context) last store) :
    Mediated dispatcher update history (Dispatcher.authorized data >>= next) last store := by
  refine demand_andThen fun context required => ?_
  exact continues context (briefed.context context (requireContext_eq_ok_iff.mp required))

theorem requireIdentity_andThen {β : Type} {next : TelegramIdentity → BotAction β}
    {last : DispatcherStore → BotHistory → β → Prop}
    (briefed : Briefed dispatcher update history data)
    (continues : ∀ identity, identityFromEvent update.event = some identity →
      WithinUserLimit dispatcher history identity.telegramUserId →
        Mediated dispatcher update history (next identity) last store) :
    Mediated dispatcher update history (Dispatcher.requireIdentity data >>= next) last store := by
  cases given : data.telegramIdentity with
  | none =>
      simp only [Dispatcher.requireIdentity, given]
      exact demand_andThen fun _ => nofun
  | some identity =>
      simp only [Dispatcher.requireIdentity, given]
      rcases briefed.identity identity given with ⟨sender, within⟩
      exact continues identity sender within

/-- An owner is asked to decide a request that it may be shown. -/
theorem ownerKeyboard_mediated {requestId : ℕ} {ownerId : ℤ}
    (owner : ownerId ∈ dispatcher.platformOwnerIds)
    (shown : StoredRequest update history requestId ∨
      Listed dispatcher update history ownerId requestId) :
    Mediated dispatcher update history (dispatcher.ownerKeyboard requestId ownerId) Harmlessly
      store := by
  have may (action : ChallengeAction) (decides : action = .approveAccess ∨ action = .rejectAccess) :
      MayAsk dispatcher update history ownerId requestId action := by
    rcases decides with rfl | rfl <;> exact ⟨owner, shown⟩
  refine ask_andThen trivial fun correlationId _ first _ _ => ?_
  refine (issue_mediated rfl fun _ => (may .approveAccess (.inl rfl)).mono first).andThen ?_
  intro _ _ approval _ second _
  have longer := first.trans second
  refine (issue_mediated rfl fun _ => (may .rejectAccess (.inr rfl)).mono longer).andThen ?_
  intro _ _ rejection _ _ _
  refine evaluate_andThen fun approvalData _ => evaluate_andThen fun rejectionData _ => ?_
  exact returning fun _ => trivial

end Answers

section Handlers

variable {dispatcher : Dispatcher} {update : BotUpdate} {store : DispatcherStore}
  {history : BotHistory} {data : HandlerData} {context : RequestContext}

/-- A member passes the check for a wallet and not the one for a decision. -/
theorem ne_createWallet_of_requestedDecision {callback token : Text} {action : ChallengeAction}
    (requested : requestedDecision callback = .ok (action, token)) : action ≠ .createWallet := by
  rintro rfl
  let member : RequestContext :=
    { telegramUserId := 1, chatId := 1, chatType := privateChat, correlationId := 0,
      workspaceId := some 0 }
  have same : requireActor member .createWallet = member.requirePlatformOwner :=
    requireActor_of_requestedDecision requested
  exact absurd same (by decide)

/-- A decision is about the account that the consumed challenge stands for. -/
theorem decide_mediated {challenge : CallbackChallenge} {action : ChallengeAction}
    (cleared : Cleared dispatcher update history context) (decides : action ≠ .createWallet)
    (confirmed : Confirmed store history context.telegramUserId action
      fun issued => ∃ consumedAt, challenge = issued.consumed consumedAt) :
    Mediated dispatcher update history (dispatcher.decide context challenge action)
      (fun _ longer reply => DecidedAbout longer reply.notificationTarget) store := by
  cases action with
  | createWallet => exact absurd rfl decides
  | approveAccess =>
      have about : Confirmed store history context.telegramUserId .approveAccess fun issued =>
          issued.resourceId = challenge.resourceId :=
        confirmed.imp fun issued ⟨consumedAt, same⟩ => same ▸ rfl
      refine (approve_mediated cleared about).andThen ?_
      exact fun _ _ decided => returning fun _ => decided
  | rejectAccess =>
      have about : Confirmed store history context.telegramUserId .rejectAccess fun issued =>
          issued.resourceId = challenge.resourceId :=
        confirmed.imp fun issued ⟨consumedAt, same⟩ => same ▸ rfl
      refine (reject_mediated cleared about).andThen ?_
      exact fun _ _ decided => returning fun _ => decided
  | revokeAccess =>
      simp only [Dispatcher.decide]
      split
      · exact refused
      · rename_i target found
        have about : Confirmed store history context.telegramUserId .revokeAccess fun issued =>
            issued.target = some target :=
          confirmed.imp fun issued ⟨consumedAt, same⟩ => by rw [← found, same]; rfl
        refine (revoke_mediated cleared about).andThen ?_
        exact fun _ _ decided => returning fun _ => decided

theorem DecidedAbout.mono {longer : BotHistory} {telegramUserId : ℤ}
    (decided : DecidedAbout history telegramUserId) (grown : history <+: longer) :
    DecidedAbout longer telegramUserId := by
  rcases decided with ⟨requestId, actor, correlationId, decidedAt, result, returned, same⟩ |
    ⟨actor, correlationId, revokedAt, returned⟩
  · exact .inl ⟨requestId, actor, correlationId, decidedAt, result,
      returned.imp (Returned.mono · grown) (Returned.mono · grown), same⟩
  · exact .inr ⟨actor, correlationId, revokedAt, returned.mono grown⟩

section Callbacks

variable {fromUser : TelegramUser} {origin : Option (TelegramChat × ℤ)} {sent : Option Text}
  (isCallback : update = .callbackQuery fromUser origin sent)
include isCallback

theorem answerCallback_mediated (text : Text) :
    Mediated dispatcher update history (Dispatcher.answerCallback text) Harmlessly store :=
  telegram_mediated ⟨fromUser, origin, sent, isCallback⟩

theorem editOrigin_mediated (text : Text) :
    Mediated dispatcher update history (Dispatcher.editOrigin origin text) Harmlessly store := by
  match origin, isCallback with
  | none, _ => exact returning fun _ => trivial
  | some (chat, messageId), isCallback =>
      exact telegram_mediated ⟨fromUser, chat, sent, isCallback, rfl⟩

omit isCallback in
theorem confirmedDecision_mediated {callback : Text}
    (briefed : Briefed dispatcher update history data) :
    Mediated dispatcher update history (dispatcher.confirmedDecision data callback)
      (fun _ longer reply => DecidedAbout longer reply.notificationTarget) store := by
  refine authorized_andThen briefed fun context cleared => ?_
  refine demand_andThen fun requestedPair requested => ?_
  rcases requestedPair with ⟨action, token⟩
  refine (consume_mediated cleared).andThen fun _ grown confirmed => ?_
  exact decide_mediated (cleared.mono grown) (ne_createWallet_of_requestedDecision requested)
    confirmed

theorem accessCallbackHandler_mediated {callback : Text}
    (briefed : Briefed dispatcher update history data) :
    Mediated dispatcher update history (dispatcher.accessCallbackHandler data origin callback)
      Harmlessly store := by
  refine answering_mediated (answerCallback_mediated isCallback)
    (confirmedDecision_mediated briefed) fun _ decided => ?_
  refine (answerCallback_mediated isCallback _).andThen fun _ grown _ => ?_
  refine (sendMessage_mediated (.inr (decided.mono grown))).andThen fun _ _ _ => ?_
  exact editOrigin_mediated isCallback _

/-- A wallet is created once the workspace of the sender is the one of the challenge. -/
theorem createWalletCallbackHandler_mediated {callback : Text}
    (briefed : Briefed dispatcher update history data) :
    Mediated dispatcher update history
      (dispatcher.createWalletCallbackHandler data origin callback) Harmlessly store := by
  refine answering_harmlessly (answerCallback_mediated isCallback) ?_ ?_
  · refine authorized_andThen briefed fun context cleared => ?_
    refine (consume_mediated cleared).andThen fun _ grown confirmed => ?_
    refine demand_andThen fun workspaceId required => ?_
    split_ifs with other
    · exact refused
    · split
      · exact refused
      · rename_i challenge _ idempotencyKey carried
        refine createWallet_mediated (cleared.mono grown) fun workspace again => ?_
        refine confirmed.imp fun issued ⟨consumedAt, same⟩ => ?_
        subst same
        cases required.symm.trans again
        exact ⟨not_not.mp other, carried⟩
  · intro store' longer value _
    refine (answerCallback_mediated isCallback _).andThen fun _ _ _ => ?_
    exact editOrigin_mediated isCallback _

end Callbacks

section Commands

variable (isMessage : ∃ fromUser chat text caption, update = .message fromUser chat text caption)
include isMessage

theorem answerMessage_mediated (text : Text) :
    Mediated dispatcher update history (Dispatcher.answerMessage text) Harmlessly store :=
  telegram_mediated isMessage

theorem start_mediated (briefed : Briefed dispatcher update history data) :
    Mediated dispatcher update history (dispatcher.start data) Harmlessly store := by
  have requests : Mediated dispatcher update history (do
      let identity ← Dispatcher.requireIdentity data
      let outcome ← Dispatcher.requestAccess identity
      return (identity, outcome))
      (fun _ longer result => result.2.created = true → ∀ requestId,
        result.2.requestId = some requestId → StoredRequest update longer requestId) store := by
    refine requireIdentity_andThen briefed fun identity sender within => ?_
    refine (requestAccess_mediated sender within).andThen fun _ _ stored => ?_
    exact returning fun _ => stored
  refine answering_mediated (answerMessage_mediated isMessage) requests ?_
  intro store' longer (identity, outcome) _ stored
  dsimp only
  split_ifs
  · exact answerMessage_mediated isMessage _
  · exact answerMessage_mediated isMessage _
  · refine (answerMessage_mediated isMessage _).andThen fun {_ further _} _ grown _ => ?_
    split
    · rename_i requestId created known
      have stored := (stored created requestId known).mono grown
      refine Ensures.forEach_returning fun ownerId owner _ _ _ reached => ?_
      refine (ownerKeyboard_mediated owner (.inl (stored.mono reached))).andThen fun _ _ _ => ?_
      exact sendMessage_mediated (.inl owner)
    · exact returning fun _ => trivial

theorem accessStatusCommand_mediated (briefed : Briefed dispatcher update history data) :
    Mediated dispatcher update history (Dispatcher.accessStatusCommand data) Harmlessly
      store := by
  refine answering_harmlessly (answerMessage_mediated isMessage) ?_ fun _ _ =>
    answerMessage_mediated isMessage _
  exact requireIdentity_andThen briefed fun identity sender _ => accessStatus_mediated sender

theorem adminRequests_mediated (briefed : Briefed dispatcher update history data) :
    Mediated dispatcher update history (dispatcher.adminRequests data) Harmlessly store := by
  have lists : Mediated dispatcher update history (do
      let context ← Dispatcher.authorized data
      let pending ← Dispatcher.pendingRequests context
      return (context, pending))
      (fun _ longer result => FromOwner dispatcher update longer result.1.telegramUserId ∧
        Returned longer (.listPendingRequests 20) result.2) store := by
    refine authorized_andThen briefed fun context cleared => ?_
    refine (pendingRequests_mediated cleared).andThen fun _ _ listed => ?_
    exact returning fun _ => listed
  refine answering_mediated (answerMessage_mediated isMessage) lists ?_
  rintro store' longer ⟨context, pending⟩ _ ⟨owner, listed⟩
  dsimp only
  split_ifs
  · exact answerMessage_mediated isMessage _
  · refine Ensures.forEach_returning fun request request_mem _ _ _ grown => ?_
    have shown : Listed dispatcher update _ context.telegramUserId request.id :=
      ⟨owner.mono grown, 20, pending, listed.mono grown, request, request_mem, rfl⟩
    refine (ownerKeyboard_mediated owner.2.1 (.inr shown)).andThen fun _ _ _ => ?_
    exact telegram_mediated isMessage

theorem adminRevokeCommand_mediated {text : Text}
    (briefed : Briefed dispatcher update history data) :
    Mediated dispatcher update history (dispatcher.adminRevokeCommand data text) Harmlessly
      store := by
  refine answering_harmlessly (answerMessage_mediated isMessage) ?_ ?_
  · refine authorized_andThen briefed fun context cleared => ?_
    refine demand_andThen fun _ passed => evaluate_andThen fun target _ => ?_
    cases target with
    | none => exact returning fun _ => trivial
    | some targetId =>
        refine ask_andThen trivial fun resourceId _ grown _ _ => ?_
        have owner := (cleared.mono grown).fromOwner passed
        refine Ensures.andThen (issue_mediated cleared.sameChat fun _ => ?_) ?_
        · exact owner
        · exact fun _ _ _ => returning fun _ => trivial
  · intro store' longer value _
    match value with
    | none => exact answerMessage_mediated isMessage _
    | some (targetId, token) =>
        exact evaluate_andThen fun callback _ => telegram_mediated isMessage

theorem createWalletCommand_mediated (briefed : Briefed dispatcher update history data) :
    Mediated dispatcher update history (dispatcher.createWalletCommand data) Harmlessly
      store := by
  refine answering_harmlessly (answerMessage_mediated isMessage) ?_ ?_
  · refine authorized_andThen briefed fun context cleared => ?_
    refine demand_andThen fun workspaceId required => ?_
    refine ask_andThen trivial fun idempotencyId _ grown _ _ => ?_
    rcases (cleared.mono grown).fromMember required with ⟨userId, _, member⟩
    exact issue_mediated cleared.sameChat fun _ => ⟨userId, member⟩
  · exact fun token _ => evaluate_andThen fun callback _ => telegram_mediated isMessage

theorem walletsCommand_mediated (briefed : Briefed dispatcher update history data) :
    Mediated dispatcher update history (dispatcher.walletsCommand data) Harmlessly store := by
  refine answering_harmlessly (answerMessage_mediated isMessage) ?_ fun _ _ =>
    answerMessage_mediated isMessage _
  exact authorized_andThen briefed fun context cleared => listWallets_mediated cleared

theorem addCollectionCommand_mediated {text : Text}
    (briefed : Briefed dispatcher update history data) :
    Mediated dispatcher update history (dispatcher.addCollectionCommand data text) Harmlessly
      store := by
  simp only [Dispatcher.addCollectionCommand]
  split_ifs
  · exact answerMessage_mediated isMessage _
  · refine answering_harmlessly (answerMessage_mediated isMessage) ?_ fun _ _ =>
      answerMessage_mediated isMessage _
    exact authorized_andThen briefed fun context cleared => addCollection_mediated cleared

theorem scanCollectionCommand_mediated {text : Text}
    (briefed : Briefed dispatcher update history data) :
    Mediated dispatcher update history (dispatcher.scanCollectionCommand data text) Harmlessly
      store := by
  simp only [Dispatcher.scanCollectionCommand]
  split_ifs
  · exact answerMessage_mediated isMessage _
  · refine answering_harmlessly (answerMessage_mediated isMessage) ?_ fun _ _ =>
      answerMessage_mediated isMessage _
    exact authorized_andThen briefed fun context cleared => requestScan_mediated cleared

theorem collectionsCommand_mediated (briefed : Briefed dispatcher update history data) :
    Mediated dispatcher update history (Dispatcher.collectionsCommand data) Harmlessly
      store := by
  refine answering_harmlessly (answerMessage_mediated isMessage) ?_ fun _ _ =>
    answerMessage_mediated isMessage _
  exact authorized_andThen briefed fun context cleared => listCollections_mediated cleared

end Commands

end Handlers

section Routing

variable {dispatcher : Dispatcher} {update : BotUpdate} {store : DispatcherStore}
  {history : BotHistory} {data : HandlerData}

theorem commandHandler_mediated {name text : Text} {handler : HandlerData → BotAction Unit}
    (isMessage : ∃ fromUser chat text caption, update = .message fromUser chat text caption)
    (routed : dispatcher.commandHandler name text = some handler)
    (briefed : Briefed dispatcher update history data) :
    Mediated dispatcher update history (handler data) Harmlessly store := by
  simp only [Dispatcher.commandHandler] at routed
  split_ifs at routed <;> cases routed
  · exact start_mediated isMessage briefed
  · exact accessStatusCommand_mediated isMessage briefed
  · exact answerMessage_mediated isMessage _
  · exact adminRequests_mediated isMessage briefed
  · exact adminRevokeCommand_mediated isMessage briefed
  · exact createWalletCommand_mediated isMessage briefed
  · exact walletsCommand_mediated isMessage briefed
  · exact addCollectionCommand_mediated isMessage briefed
  · exact scanCollectionCommand_mediated isMessage briefed
  · exact collectionsCommand_mediated isMessage briefed

/-- Whatever the routers choose keeps to the contract. -/
theorem handler_mediated {handler : HandlerData → BotAction Unit}
    (routed : dispatcher.handler update = some handler)
    (briefed : Briefed dispatcher update history data) :
    Mediated dispatcher update history (handler data) Harmlessly store := by
  cases update with
  | message fromUser chat text caption =>
      rcases Option.bind_eq_some_iff.mp routed with ⟨filtered, _, routed⟩
      rcases Option.bind_eq_some_iff.mp routed with ⟨name, _, routed⟩
      exact commandHandler_mediated ⟨fromUser, chat, text, caption, rfl⟩ routed briefed
  | callbackQuery fromUser origin sent =>
      rcases Option.bind_eq_some_iff.mp routed with ⟨callback, _, routed⟩
      simp only [Dispatcher.callbackHandler] at routed
      split_ifs at routed <;> cases routed
      · exact accessCallbackHandler_mediated rfl briefed
      · exact createWalletCallbackHandler_mediated rfl briefed

theorem rejectUpdate_mediated {decision : RateLimitDecision} :
    Mediated dispatcher update history (Dispatcher.rejectUpdate update.event decision) Harmlessly
      store := by
  cases update with
  | message fromUser chat text caption =>
      exact answerMessage_mediated ⟨fromUser, chat, text, caption, rfl⟩ _
  | callbackQuery fromUser origin sent => exact answerCallback_mediated rfl _

/-- What the middleware for authorization leaves in the data of a handler. -/
structure Authenticated (dispatcher : Dispatcher) (update : BotUpdate) (history : BotHistory)
    (data : HandlerData) : Prop where
  identity : ∀ identity, data.telegramIdentity = some identity →
    identityFromEvent update.event = some identity
  context : ∀ context, data.requestContext = some context →
    Resolved dispatcher update history context ∧
      ∃ identity, data.telegramIdentity = some identity ∧
        identity.telegramUserId = context.telegramUserId

theorem Authenticated.mono {longer : BotHistory}
    (authenticated : Authenticated dispatcher update history data) (grown : history <+: longer) :
    Authenticated dispatcher update longer data := by
  refine ⟨authenticated.identity, fun context given => ?_⟩
  exact (authenticated.context context given).imp (Resolved.mono · grown) id

/-- The limits are those of the only sender and the only workspace. -/
theorem Authenticated.briefed (authenticated : Authenticated dispatcher update history data)
    {identity : TelegramIdentity} (sender : data.telegramIdentity = some identity)
    (withinUser : WithinUserLimit dispatcher history identity.telegramUserId)
    (withinWorkspace : ∀ workspaceId,
      data.requestContext.bind RequestContext.workspaceId = some workspaceId →
        WithinWorkspaceLimit dispatcher history workspaceId) :
    Briefed dispatcher update history data := by
  refine ⟨fun other given => ?_, fun context given => ?_⟩
  · cases sender.symm.trans given
    exact ⟨authenticated.identity identity sender, withinUser⟩
  · rcases authenticated.context context given with ⟨resolved, other, named, same⟩
    cases sender.symm.trans named
    refine ⟨resolved, same ▸ withinUser, fun workspaceId carried => ?_⟩
    exact withinWorkspace workspaceId (Option.bind_eq_some_iff.mpr ⟨context, given, carried⟩)

variable {handler : HandlerData → BotAction Unit}
  (handles : ∀ {store history data}, Briefed dispatcher update history data →
    Mediated dispatcher update history (handler data) Harmlessly store)
include handles

/-- A handler is reached within the limits of the sender and of its workspace. -/
theorem rateLimit_mediated (authenticated : Authenticated dispatcher update history data) :
    Mediated dispatcher update history (dispatcher.rateLimit update.event handler data)
      Harmlessly store := by
  cases given : data.telegramIdentity with
  | none =>
      simp only [Dispatcher.rateLimit, given]
      refine handles ⟨fun identity other => ?_, fun context other => ?_⟩
      · cases given.symm.trans other
      · rcases (authenticated.context context other).2 with ⟨identity, other, _⟩
        cases given.symm.trans other
  | some identity =>
      simp only [Dispatcher.rateLimit, given]
      have sender := authenticated.identity identity given
      refine ask_andThen ⟨identity, sender, .inl ⟨rfl, rfl⟩⟩ fun decision _ first counted _ => ?_
      split_ifs with allowed
      · have withinUser : WithinUserLimit dispatcher _ identity.telegramUserId :=
          ⟨decision, counted, allowed⟩
        have authenticated := authenticated.mono first
        cases carried : data.requestContext.bind RequestContext.workspaceId with
        | none =>
            refine handles (authenticated.briefed given withinUser fun workspaceId other => ?_)
            cases carried.symm.trans other
        | some workspaceId =>
            rcases Option.bind_eq_some_iff.mp carried with ⟨context, resolved, member⟩
            rcases authenticated.context context resolved with ⟨known, other, named, same⟩
            rcases known.member workspaceId member with ⟨userId, _, names⟩
            cases given.symm.trans named
            have names : Names _ identity.telegramUserId userId workspaceId := same ▸ names
            refine ask_andThen ⟨identity, sender, .inr ⟨userId, workspaceId, names, rfl, rfl⟩⟩ ?_
            intro _ _ decision _ second counted _
            split_ifs with allowed
            · have authenticated := authenticated.mono second
              refine handles (authenticated.briefed given (withinUser.mono second) ?_)
              intro other carries
              cases carried.symm.trans carries
              exact ⟨decision, counted, allowed⟩
            · exact rejectUpdate_mediated
      · exact rejectUpdate_mediated

/-- A context is that of the sender, and without one there is only the error. -/
theorem authorization_mediated :
    Mediated dispatcher update [] (dispatcher.authorization update.event
      (dispatcher.rateLimit update.event handler)) Harmlessly store := by
  cases sender : identityFromEvent update.event with
  | none =>
      simp only [Dispatcher.authorization, sender]
      exact rateLimit_mediated handles ⟨nofun, nofun⟩
  | some identity =>
      simp only [Dispatcher.authorization, sender]
      have sent {other : TelegramIdentity} (same : some identity = some other) :
          identityFromEvent update.event = some other := by
        cases same
        exact sender
      have refused {error : AccessError} {longer : BotHistory} :
          Authenticated dispatcher update longer ⟨some identity, none, some error⟩ :=
        ⟨fun other => sent, nofun⟩
      refine (resolveContext_mediated sender).attempt_andThen ?_ ?_
      · rintro store' longer context _ _ ⟨resolved, same⟩
        refine rateLimit_mediated handles ⟨fun other => sent, fun other given => ?_⟩
        cases given
        exact ⟨resolved, identity, rfl, same.symm⟩
      · intro store' longer failure _ _
        cases failure with
        | access error =>
            dsimp only
            split_ifs
            · exact rateLimit_mediated handles refused
            · refine ask_andThen trivial fun correlationId _ _ _ _ => ?_
              exact ask_andThen sender fun _ _ _ _ _ => rateLimit_mediated handles refused
        | _ => exact fun _ _ _ => nofun

end Routing

section Runs

variable {dispatcher : Dispatcher} {isoformat : ℤ → Text} {limiter : RedisRateLimiter}

/-- The handling of every update keeps to the contract from its beginning. -/
theorem handle_mediated (dispatcher : Dispatcher) (update : BotUpdate) (store : DispatcherStore) :
    Mediated dispatcher update [] (dispatcher.handle update) Harmlessly store := by
  simp only [Dispatcher.handle]
  split
  · exact returning fun _ => trivial
  · rename_i handler routed
    exact authorization_mediated fun briefed => handler_mediated routed briefed

/--
Any number of updates are handled at once, and everything that has been done for one of them was
justified when it was done. Every challenge was issued by an update that may ask its actor.
-/
theorem updates_mediated {access : AccessDatabase} {keys : RateKeys}
    {world : World DispatcherStore (Option (Session BotUpdate BotCall BotAnswer BotFailure Unit))}
    (run : (updateSessions isoformat limiter dispatcher).Reaches Unrestricted
      (initialUpdates access keys) world) :
    (∀ index session, world.process index = some session → ∀ before exchange,
      before ++ [exchange] <+: session.history →
        Justified dispatcher session.origin world.store before exchange.call) ∧
    ∀ issuer challenge, (issuer, challenge) ∈ world.store.issued →
      RightlyIssued dispatcher issuer challenge := by
  have initially : ChallengesIssued dispatcher (initialUpdates access keys).store :=
    ⟨fun row row_mem => absurd row_mem List.not_mem_nil,
      fun issuer challenge issued => absurd issued List.not_mem_nil⟩
  have starts (update : BotUpdate) (store : DispatcherStore) :
      (mediation dispatcher).Ensures update (dispatcher.handle update) (fun _ _ _ => True) store
        [] :=
    (handle_mediated dispatcher update store).mono fun _ => trivial
  rcases honours_of_reaches (mediation_servedBy dispatcher) (fun update store _ =>
    starts update store) run initially (fun _ => rfl) with ⟨sound, honours⟩
  refine ⟨fun index session found before exchange made => ?_, sound.rightly⟩
  have honoured := honours index
  rw [found] at honoured
  exact honoured.1 before exchange made

section Samples

/-- A dispatcher of a bot with one owner. -/
def sampleDispatcher : Dispatcher where
  toBot := sampleBot
  primitives := tokenHashes
  unicode := superscriptDigits
  commandName text := if text.head? = some '/' then some text.tail else none
  userRateLimitPerMinute := 20
  workspaceRateLimitPerMinute := 60
  balanceRefresh := false

/-- The turns are told apart by the identifiers and the tokens that are drawn. -/
def sampleOutcome (turn : ℕ) : CallOutcome where
  now := turn
  id := turn
  answers
    | .uuid7 => some turn
    | .utcNow => some 1000
    | .tokenUrlsafe => some ⟨List.replicate 32 (if turn = 10 then 0 else 1), by simp⟩
    | .findLatestRequest _ => some none
    | .telegram _ => some ()
    | _ => none

/-- An account asks for access, and the owner confirms the approval. -/
def askedApproval : List (ℕ × SessionEvent BotUpdate CallOutcome) :=
  (0, .start (.message (some ⟨7, none, [], none⟩) ⟨7, privateChat⟩ (some "/start".toList) none)) ::
    (List.range 17).map (fun turn => (0, .serve (sampleOutcome turn))) ++
  (1, .start (.callbackQuery ⟨1, none, [], none⟩ (some (⟨1, privateChat⟩, 3))
    (some ("access:v1:approve:".toList ++ sampleToken)))) ::
    (List.range 11).map (fun turn => (1, .serve (sampleOutcome turn)))

/-- The call approves the first request as the owner. -/
def isApproval : BotCall → Bool
  | .approveRequest 0 1 _ _ => true
  | _ => false

end Samples

/-- The approval of the request was justified when it was made. -/
theorem sampleApproval_justified :
    ∃ world, (updateSessions Json.decimal sampleLimiter sampleDispatcher).Reaches Unrestricted
        (initialUpdates emptyAccess fun _ => none) world ∧
      ∃ session before exchange, world.process 1 = some session ∧
        before ++ [exchange] <+: session.history ∧ isApproval exchange.call = true ∧
          Justified sampleDispatcher session.origin world.store before exchange.call := by
  have reached : ((updateSessions Json.decimal sampleLimiter sampleDispatcher).execute
      (initialUpdates emptyAccess fun _ => none) askedApproval).any
      (fun world => (world.process 1).any fun session =>
        session.history.any fun exchange => isApproval exchange.call) = true := by
    decide +kernel
  rcases (Option.any_eq_true _ _).mp reached with ⟨world, executed, approves⟩
  rcases (Option.any_eq_true _ _).mp approves with ⟨session, found, approves⟩
  rcases List.any_eq_true.mp approves with ⟨exchange, exchange_mem, approval⟩
  rcases List.append_of_mem exchange_mem with ⟨before, after, same⟩
  have made : before ++ [exchange] <+: session.history :=
    ⟨after, by rw [same, List.append_assoc, List.singleton_append]⟩
  have run := Program.reaches_of_execute executed (Program.meets_unrestricted _ _)
  exact ⟨world, run, session, before, exchange, found, made, approval,
    (updates_mediated run).1 1 session found before exchange made⟩

end Runs

end CopyMint
