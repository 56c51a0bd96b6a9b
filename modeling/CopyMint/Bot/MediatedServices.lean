import CopyMint.Bot.Mediation

/-!
# The services of the bot are mediated

Every service keeps to the contract of the bot when it is given a context that was resolved for
the sender of the update, in its private chat, and when the limits of the sender were not
exceeded. What a service returns is known from the history afterwards.
-/

namespace CopyMint

open Hexadecimal Interleaving Contract Fallible

section Senders

variable (dispatcher : Dispatcher) (update : BotUpdate) (history : BotHistory)

/-- An action keeps to the contract, and so much is known where it returns. -/
abbrev Mediated {α : Type} (action : BotAction α)
    (returned : DispatcherStore → BotHistory → α → Prop) (store : DispatcherStore) : Prop :=
  (mediation dispatcher).Ensures update action (Returning returned) store history

/-- The context was resolved for the sender of the update. -/
structure Resolved (context : RequestContext) : Prop where
  sent : SentPrivately update context.telegramUserId
  sameChat : context.chatId = context.telegramUserId
  owner : context.isPlatformOwner = true → context.telegramUserId ∈ dispatcher.platformOwnerIds
  member : ∀ workspaceId, context.workspaceId = some workspaceId →
    ∃ userId, context.userId = some userId ∧
      Names history context.telegramUserId userId workspaceId

/-- The limits of the sender and its workspace were not exceeded either. -/
structure Cleared (context : RequestContext) : Prop
    extends Resolved dispatcher update history context where
  withinUser : WithinUserLimit dispatcher history context.telegramUserId
  withinWorkspace : ∀ workspaceId, context.workspaceId = some workspaceId →
    WithinWorkspaceLimit dispatcher history workspaceId

/-- What a handler is given by the middlewares. -/
structure Briefed (data : HandlerData) : Prop where
  identity : ∀ identity, data.telegramIdentity = some identity →
    identityFromEvent update.event = some identity ∧
      WithinUserLimit dispatcher history identity.telegramUserId
  context : ∀ context, data.requestContext = some context →
    Cleared dispatcher update history context

end Senders

section Evidence

variable {dispatcher : Dispatcher} {update : BotUpdate} {store : DispatcherStore}
  {history longer : BotHistory} {context : RequestContext} {workspaceId : ℕ}

theorem Names.mono {telegramUserId : ℤ} {userId : ℕ}
    (names : Names history telegramUserId userId workspaceId) (grown : history <+: longer) :
    Names longer telegramUserId userId workspaceId := by
  rcases names with ⟨principal, returned, facts⟩
  exact ⟨principal, returned.mono grown, facts⟩

theorem Resolved.mono (resolved : Resolved dispatcher update history context)
    (grown : history <+: longer) : Resolved dispatcher update longer context := by
  refine ⟨resolved.sent, resolved.sameChat, resolved.owner, fun workspaceId carried => ?_⟩
  rcases resolved.member workspaceId carried with ⟨userId, known, names⟩
  exact ⟨userId, known, names.mono grown⟩

theorem Cleared.mono (cleared : Cleared dispatcher update history context)
    (grown : history <+: longer) : Cleared dispatcher update longer context := by
  refine ⟨cleared.toResolved.mono grown, cleared.withinUser.mono grown, ?_⟩
  intro workspaceId carried
  rcases cleared.withinWorkspace workspaceId carried with ⟨decision, counted, allowed⟩
  exact ⟨decision, counted.mono grown, allowed⟩

theorem Briefed.mono {data : HandlerData} (briefed : Briefed dispatcher update history data)
    (grown : history <+: longer) : Briefed dispatcher update longer data := by
  refine ⟨fun identity given => ?_, fun context given => (briefed.context context given).mono grown⟩
  rcases briefed.identity identity given with ⟨sender, within⟩
  exact ⟨sender, within.mono grown⟩

theorem Cleared.fromOwner (cleared : Cleared dispatcher update history context)
    (passed : context.requirePlatformOwner = .ok ()) :
    FromOwner dispatcher update history context.telegramUserId := by
  rcases bind_eq_ok_iff.mp passed with ⟨_, _, owned⟩
  split_ifs at owned with owner
  exact ⟨cleared.sent, cleared.owner owner, cleared.withinUser⟩

theorem Cleared.fromMember (cleared : Cleared dispatcher update history context)
    (passed : context.requireWorkspace = .ok workspaceId) :
    ∃ userId, context.userId = some userId ∧
      FromMember dispatcher update history context.telegramUserId userId workspaceId := by
  have carried := workspaceId_of_requireWorkspace passed
  rcases cleared.member workspaceId carried with ⟨userId, known, names⟩
  exact ⟨userId, known, cleared.sent, names, cleared.withinUser,
    cleared.withinWorkspace workspaceId carried⟩

theorem Confirmed.imp {telegramUserId : ℤ} {action : ChallengeAction}
    {concerns weaker : CallbackChallenge → Prop}
    (confirmed : Confirmed store history telegramUserId action concerns)
    (implies : ∀ challenge, concerns challenge → weaker challenge) :
    Confirmed store history telegramUserId action weaker := by
  rcases confirmed with
    ⟨tokenHash, actor, consumedAt, issuer, challenge, returned, issued, same, expected, holds⟩
  exact ⟨tokenHash, actor, consumedAt, issuer, challenge, returned, issued, same, expected,
    implies challenge holds⟩

end Evidence

section Rules

variable {dispatcher : Dispatcher} {update : BotUpdate} {store : DispatcherStore}
  {history : BotHistory} {α β : Type} {last : DispatcherStore → BotHistory → β → Prop}

theorem demand_andThen {result : Except AccessError α} {next : α → BotAction β}
    (continues : ∀ value, result = .ok value →
      Mediated dispatcher update history (next value) last store) :
    Mediated dispatcher update history (demand result >>= next) last store := by
  refine Ensures.ofExcept_andThen fun value passed => continues value ?_
  exact mapError_eq_ok_iff.mp passed

theorem evaluate_andThen {result : Except Raised α} {next : α → BotAction β}
    (continues : ∀ value, result = .ok value →
      Mediated dispatcher update history (next value) last store) :
    Mediated dispatcher update history (evaluate result >>= next) last store := by
  refine Ensures.ofExcept_andThen fun value passed => continues value ?_
  exact mapError_eq_ok_iff.mp passed

theorem refused {error : AccessError} :
    Mediated dispatcher update history (demand (.error error)) last store :=
  fun _ _ _ => nofun

/-- A call that is justified, with what it returns in the history from then on. -/
theorem ask_andThen {call : BotCall} {next : BotAnswer call → BotAction β}
    (justified : Justified dispatcher update store history call)
    (continues : ∀ {store' longer} answer, store.issued ⊆ store'.issued → history <+: longer →
      Returned longer call answer → AnswersRightly store' call (.ok answer) →
        Mediated dispatcher update longer (next answer) last store') :
    Mediated dispatcher update history (ask call >>= next) last store := by
  refine Ensures.ofCall_andThen justified fun answer moved redeems => ?_
  refine continues answer moved (List.prefix_append history _) ?_ redeems
  exact List.mem_append_right _ (List.mem_singleton_self _)

theorem ask_returning {call : BotCall} {returned : DispatcherStore → BotHistory →
    BotAnswer call → Prop} (justified : Justified dispatcher update store history call)
    (holds : ∀ {store' longer} answer, store.issued ⊆ store'.issued → history <+: longer →
      Returned longer call answer → returned store' longer answer) :
    Mediated dispatcher update history (ask call) returned store := by
  refine Ensures.ofCall justified fun store' result moved _ answer same => ?_
  subst same
  refine holds answer moved (List.prefix_append history _) ?_
  exact List.mem_append_right _ (List.mem_singleton_self _)

theorem returning {value : α} {returned : DispatcherStore → BotHistory → α → Prop}
    (holds : ∀ {store'}, store.issued ⊆ store'.issued → returned store' history value) :
    Mediated dispatcher update history (pure value) returned store := by
  intro store' moved other same
  cases same
  exact holds moved

/-- Whatever a call raises is caught. -/
theorem attempt_andThen {call : BotCall} {next : Except BotFailure (BotAnswer call) → BotAction β}
    (justified : Justified dispatcher update store history call)
    (continues : ∀ {store' longer} result, history <+: longer →
      Mediated dispatcher update longer (next result) last store') :
    Mediated dispatcher update history ((ask call).attempt >>= next) last store := by
  have asked : Mediated dispatcher update history (ask call) (fun _ _ _ => True) store :=
    ask_returning justified fun _ _ _ _ => trivial
  refine asked.attempt_andThen ?_ ?_
  · exact fun _ grown _ => continues _ grown
  · exact fun failure _ grown => continues _ grown

end Rules

section Access

variable {dispatcher : Dispatcher} {update : BotUpdate} {store : DispatcherStore}
  {history : BotHistory} {context : RequestContext} {identity : TelegramIdentity}

/-- Where it is returned, a context is that of the account in the database. -/
theorem resolveContext_mediated (sender : identityFromEvent update.event = some identity) :
    Mediated dispatcher update history (dispatcher.resolveContext identity)
      (fun _ longer context => Resolved dispatcher update longer context ∧
        context.telegramUserId = identity.telegramUserId) store := by
  refine demand_andThen fun _ passed => ?_
  have isPrivate := isPrivateChat_of_requirePrivateChat passed
  have sameChat : identity.chatId = identity.telegramUserId := by
    simp only [TelegramIdentity.isPrivateChat, Bool.and_eq_true, decide_eq_true_eq] at isPrivate
    exact isPrivate.2
  have sent : SentPrivately update identity.telegramUserId := ⟨identity, sender, isPrivate, rfl⟩
  refine ask_andThen trivial fun correlationId _ _ _ _ => ?_
  refine ask_andThen sent fun principal _ _ found _ => ?_
  cases principal with
  | none =>
      dsimp only
      split_ifs with owner
      · refine ask_andThen trivial fun ownCorrelationId _ _ _ _ => returning fun _ => ?_
        refine ⟨⟨sent, sameChat, fun _ => owner, fun workspaceId carried => ?_⟩, rfl⟩
        cases carried
      · refine ask_andThen sent fun latest _ _ _ _ => ?_
        split_ifs <;> exact refused
  | some principal =>
      dsimp only
      split_ifs with inactive homeless owner
      · exact refused
      · exact refused
      all_goals
        refine returning fun _ => ⟨⟨sent, sameChat, ?_, fun workspaceId carried => ?_⟩, rfl⟩
      · exact fun _ => owner
      · exact ⟨principal.userId, rfl, principal, found, not_not.mp inactive, rfl, carried⟩
      · intro asOwner
        cases asOwner
      · exact ⟨principal.userId, rfl, principal, found, not_not.mp inactive, rfl, carried⟩

theorem latestOfInactive_mediated (sender : identityFromEvent update.event = some identity) :
    Mediated dispatcher update history (Dispatcher.latestOfInactive identity)
      (fun _ _ _ => identity.isPrivateChat = true) store := by
  refine demand_andThen fun _ passed => ?_
  have isPrivate := isPrivateChat_of_requirePrivateChat passed
  have sent : SentPrivately update identity.telegramUserId := ⟨identity, sender, isPrivate, rfl⟩
  refine ask_andThen sent fun principal _ _ _ _ => ?_
  split_ifs
  · exact returning fun _ => isPrivate
  · exact ask_andThen sent fun latest _ _ _ _ => returning fun _ => isPrivate

/-- A request is created for the sender only, and within its limit. -/
theorem requestAccess_mediated (sender : identityFromEvent update.event = some identity)
    (within : WithinUserLimit dispatcher history identity.telegramUserId) :
    Mediated dispatcher update history (Dispatcher.requestAccess identity)
      (fun _ longer outcome => outcome.created = true → ∀ requestId,
        outcome.requestId = some requestId → StoredRequest update longer requestId) store := by
  refine (latestOfInactive_mediated sender).andThen ?_
  intro store' longer found moved grown isPrivate
  cases found with
  | none => exact returning fun _ => nofun
  | some latest =>
      refine ask_andThen trivial fun now _ reached _ _ => ?_
      dsimp only
      split
      · exact returning fun _ => nofun
      · split
        · exact returning fun _ => nofun
        · have justified := And.intro isPrivate (within.mono (grown.trans reached))
          refine ask_andThen ⟨sender, justified⟩ fun (record, created) _ _ stored _ => ?_
          refine returning fun _ createdNow requestId same => ?_
          cases same
          have createdNow : created = true := createdNow
          subst createdNow
          exact ⟨identity, now, record, sender, stored, rfl⟩

theorem accessStatus_mediated (sender : identityFromEvent update.event = some identity) :
    Mediated dispatcher update history (Dispatcher.accessStatus identity)
      (fun _ _ _ => True) store := by
  refine (latestOfInactive_mediated sender).andThen ?_
  intro store' longer found _ _ _
  match found with
  | none | some none | some (some _) => exact returning fun _ => trivial

variable (cleared : Cleared dispatcher update history context)
include cleared

theorem pendingRequests_mediated :
    Mediated dispatcher update history (Dispatcher.pendingRequests context)
      (fun _ longer rows => FromOwner dispatcher update longer context.telegramUserId ∧
        Returned longer (.listPendingRequests 20) rows) store := by
  refine demand_andThen fun _ passed => ?_
  have owner := cleared.fromOwner passed
  refine ask_returning ⟨_, owner⟩ fun rows _ grown listed => ?_
  exact ⟨owner.mono grown, listed⟩

theorem approve_mediated {requestId : ℕ}
    (confirmed : Confirmed store history context.telegramUserId .approveAccess fun challenge =>
      challenge.resourceId = requestId) :
    Mediated dispatcher update history (Dispatcher.approve context requestId)
      (fun _ longer result => DecidedAbout longer result.telegramUserId) store := by
  refine demand_andThen fun _ passed => ?_
  have owner := cleared.fromOwner passed
  refine ask_andThen trivial fun now moved grown _ _ => ?_
  refine ask_returning ⟨owner.mono grown, confirmed.mono moved grown⟩ fun result _ _ decided => ?_
  exact .inl ⟨requestId, _, _, now, result, .inl decided, rfl⟩

theorem reject_mediated {requestId : ℕ}
    (confirmed : Confirmed store history context.telegramUserId .rejectAccess fun challenge =>
      challenge.resourceId = requestId) :
    Mediated dispatcher update history (Dispatcher.reject context requestId)
      (fun _ longer result => DecidedAbout longer result.telegramUserId) store := by
  refine demand_andThen fun _ passed => ?_
  have owner := cleared.fromOwner passed
  refine ask_andThen trivial fun now moved grown _ _ => ?_
  refine ask_returning ⟨owner.mono grown, confirmed.mono moved grown⟩ fun result _ _ decided => ?_
  exact .inl ⟨requestId, _, _, now, result, .inr decided, rfl⟩

theorem revoke_mediated {target : ℤ}
    (confirmed : Confirmed store history context.telegramUserId .revokeAccess fun challenge =>
      challenge.target = some target) :
    Mediated dispatcher update history (dispatcher.revoke context target)
      (fun _ longer _ => DecidedAbout longer target) store := by
  refine demand_andThen fun _ passed => ?_
  have owner := cleared.fromOwner passed
  split_ifs with protected_
  · exact refused
  · refine ask_andThen trivial fun now moved grown _ _ => ?_
    refine ask_returning ⟨owner.mono grown, protected_, confirmed.mono moved grown⟩ ?_
    intro _ _ _ _ _ decided
    exact .inr ⟨_, _, now, decided⟩

end Access

section Challenges

variable {dispatcher : Dispatcher} {update : BotUpdate} {store : DispatcherStore}
  {history longer : BotHistory} {actor : RequestContext}

theorem StoredRequest.mono {requestId : ℕ} (stored : StoredRequest update history requestId)
    (grown : history <+: longer) : StoredRequest update longer requestId := by
  rcases stored with ⟨identity, requestedAt, record, sender, returned, same⟩
  exact ⟨identity, requestedAt, record, sender, returned.mono grown, same⟩

theorem Listed.mono {ownerId : ℤ} {requestId : ℕ}
    (listed : Listed dispatcher update history ownerId requestId) (grown : history <+: longer) :
    Listed dispatcher update longer ownerId requestId := by
  rcases listed with ⟨owner, limit, rows, returned, row⟩
  exact ⟨owner.mono grown, limit, rows, returned.mono grown, row⟩

theorem MayAsk.mono {telegramUserId : ℤ} {resourceId : ℕ} {action : ChallengeAction}
    (may : MayAsk dispatcher update history telegramUserId resourceId action)
    (grown : history <+: longer) :
    MayAsk dispatcher update longer telegramUserId resourceId action := by
  cases action with
  | approveAccess | rejectAccess =>
      exact ⟨may.1, may.2.imp (StoredRequest.mono · grown) (Listed.mono · grown)⟩
  | revokeAccess => exact FromOwner.mono may grown
  | createWallet =>
      rcases may with ⟨userId, member⟩
      exact ⟨userId, member.mono grown⟩

/-- A challenge is issued for an actor who may be asked, once the actor has passed the check. -/
theorem issue_mediated {values : ChallengeService.Issue}
    (sameChat : actor.chatId = actor.telegramUserId)
    (may : requireActor actor values.action = .ok () →
      MayAsk dispatcher update history actor.telegramUserId values.resourceId values.action) :
    Mediated dispatcher update history (dispatcher.issue actor values) (fun _ _ _ => True)
      store := by
  refine demand_andThen fun _ passed => ?_
  have may := may passed
  refine ask_andThen trivial fun bytes _ first _ _ => ?_
  refine evaluate_andThen fun tokenHash hashed => ?_
  refine ask_andThen trivial fun now _ second _ _ => ?_
  refine ask_andThen ⟨sameChat, may.mono (first.trans second)⟩ fun _ _ _ _ _ => ?_
  exact returning fun _ => trivial

theorem Cleared.mayConfirm (cleared : Cleared dispatcher update history actor)
    {action : ChallengeAction} (passed : requireActor actor action = .ok ()) :
    MayConfirm dispatcher update history actor.telegramUserId action := by
  cases action with
  | approveAccess | rejectAccess | revokeAccess => exact cleared.fromOwner passed
  | createWallet =>
      rcases map_eq_ok_iff.mp passed with ⟨workspaceId, required, _⟩
      rcases cleared.fromMember required with ⟨userId, _, member⟩
      exact ⟨userId, workspaceId, member⟩

/-- A consumption returns a challenge that the actor has confirmed. -/
theorem consume_mediated (cleared : Cleared dispatcher update history actor) {token : Text}
    {action : ChallengeAction} :
    Mediated dispatcher update history (dispatcher.consume actor token action)
      (fun store longer record => Confirmed store longer actor.telegramUserId action
        fun challenge => ∃ consumedAt, record = challenge.consumed consumedAt) store := by
  refine demand_andThen fun _ passed => ?_
  refine ask_andThen trivial fun now _ grown _ _ => ?_
  refine evaluate_andThen fun tokenHash hashed => ?_
  refine ask_andThen ⟨cleared.sent, (cleared.mono grown).mayConfirm passed⟩ ?_
  intro _ _ record _ _ returned rightly
  cases record with
  | none => exact refused
  | some record =>
      rcases rightly with ⟨issuer, challenge, issued, rfl, sameAction, expected⟩
      refine returning fun moved => ?_
      exact ⟨tokenHash, actor, now, issuer, challenge, returned, moved issued, sameAction, expected,
        now, rfl⟩

end Challenges

section Services

variable {dispatcher : Dispatcher} {update : BotUpdate} {store : DispatcherStore}
  {history : BotHistory} {context : RequestContext} {workspaceId : ℕ}
  (cleared : Cleared dispatcher update history context)
include cleared

/-- A wallet is created for the workspace and under the key that the sender has confirmed. -/
theorem createWallet_mediated {idempotencyKey : Text}
    (confirmed : ∀ workspaceId, context.requireWorkspace = .ok workspaceId →
      Confirmed store history context.telegramUserId .createWallet fun challenge =>
        challenge.resourceId = workspaceId ∧ challenge.idempotencyKey = some idempotencyKey) :
    Mediated dispatcher update history (dispatcher.createWallet context idempotencyKey)
      (fun _ _ _ => True) store := by
  refine demand_andThen fun workspaceId required => ?_
  have confirmed := confirmed workspaceId required
  rcases cleared.fromMember required with ⟨userId, known, member⟩
  rw [known]
  refine evaluate_andThen fun keyHash hashed => ?_
  refine ask_andThen ⟨_, userId, member⟩ fun existing firstMoved first _ _ => ?_
  have member := member.mono first
  have confirmed := confirmed.mono firstMoved first
  cases existing with
  | some existing => exact returning fun _ => trivial
  | none =>
      refine ask_andThen ⟨_, userId, member⟩ fun count secondMoved second _ _ => ?_
      have member := member.mono second
      have confirmed := confirmed.mono secondMoved second
      split_ifs with full
      · exact refused
      · refine ask_andThen ⟨_, userId, member, confirmed⟩ fun result thirdMoved third _ _ => ?_
        have member := member.mono third
        have confirmed := confirmed.mono thirdMoved third
        split_ifs with mismatched
        · exact fun _ _ _ => nofun
        · have bound : result.workspaceId = workspaceId := by
            by_contra other
            exact mismatched (.inl other)
          refine evaluate_andThen fun checksum _ => ask_returning ?_ fun _ _ _ _ => trivial
          refine ⟨_, bound ▸ member, confirmed.imp fun challenge concerned => ?_⟩
          exact ⟨concerned.1.trans bound.symm, idempotencyKey, concerned.2, hashed⟩

theorem listWallets_mediated :
    Mediated dispatcher update history (dispatcher.listWallets context) (fun _ _ _ => True)
      store := by
  refine demand_andThen fun workspaceId required => ?_
  rcases cleared.fromMember required with ⟨userId, _, member⟩
  refine ask_andThen ⟨_, userId, member⟩ fun wallets _ grown listed _ => ?_
  split_ifs
  · refine Ensures.andThen (Ensures.forEach_returning ?_) fun _ _ _ => returning fun _ => trivial
    intro wallet wallet_mem _ longer _ further
    refine attempt_andThen ?_ fun _ _ => returning fun _ => trivial
    exact ⟨⟨_, userId, member.mono (grown.trans further)⟩, wallets, listed.mono further, wallet,
      wallet_mem, rfl⟩
  · exact returning fun _ => trivial

omit cleared in
/-- A scan is queued for a collection of a workspace of the sender. -/
theorem queueScan_mediated {telegramUserId : ℤ} {userId collectionId : ℕ}
    (member : FromMember dispatcher update history telegramUserId userId workspaceId)
    (saved : Saved history workspaceId collectionId) :
    Mediated dispatcher update history (Dispatcher.queueScan workspaceId collectionId)
      (fun _ _ _ => True) store :=
  attempt_andThen ⟨⟨telegramUserId, userId, member⟩, saved⟩ fun _ _ => returning fun _ => trivial

theorem addCollection_mediated {address : Text} {label : Option Text} :
    Mediated dispatcher update history (dispatcher.addCollection context address label)
      (fun _ _ _ => True) store := by
  refine demand_andThen fun workspaceId required => ?_
  rcases cleared.fromMember required with ⟨userId, known, member⟩
  rw [known]
  refine Ensures.ofExcept_andThen fun checksum _ => Ensures.ofExcept_andThen fun label _ => ?_
  refine ask_andThen ⟨_, member⟩ fun (collection, created) _ grown saved _ => ?_
  have saved : Saved _ workspaceId collection.collectionId :=
    ⟨collection, rfl, .inl ⟨_, _, _, _, _, saved⟩⟩
  refine (queueScan_mediated (member.mono grown) saved).andThen fun _ _ _ => ?_
  exact returning fun _ => trivial

theorem requestScan_mediated {address : Text} :
    Mediated dispatcher update history (dispatcher.requestScan context address)
      (fun _ _ _ => True) store := by
  refine demand_andThen fun workspaceId required => ?_
  rcases cleared.fromMember required with ⟨userId, _, member⟩
  refine Ensures.ofExcept_andThen fun checksum _ => ?_
  refine ask_andThen ⟨_, userId, member⟩ fun found _ grown saved _ => ?_
  cases found with
  | none => exact fun _ _ _ => nofun
  | some collection =>
      have saved : Saved _ workspaceId collection.collectionId :=
        ⟨collection, rfl, .inr ⟨_, saved⟩⟩
      refine (queueScan_mediated (member.mono grown) saved).andThen fun _ _ _ => ?_
      exact returning fun _ => trivial

theorem listCollections_mediated :
    Mediated dispatcher update history (Dispatcher.listCollections context) (fun _ _ _ => True)
      store := by
  refine demand_andThen fun workspaceId required => ?_
  rcases cleared.fromMember required with ⟨userId, _, member⟩
  exact ask_returning ⟨_, userId, member⟩ fun _ _ _ _ => trivial

end Services

end CopyMint
