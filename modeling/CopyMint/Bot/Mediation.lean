import CopyMint.Bot.Answers
import CopyMint.Bot.Dispatcher

/-!
# What updates may do

Everything that the bot does for an update is justified by what it has done before. Decisions
about accounts are made by platform owners only, who have confirmed a challenge that an earlier
update has issued for that decision. Wallets and collections are those of the workspace that the
database has named for the sender, within the limits, and nobody else is written to than the
owners and those who are decided about.

The accounts, the challenges and the limits are those of the repositories. What the others
answer is arbitrary, and every call may raise anything, after it has taken effect or before.
-/

namespace CopyMint

open Hexadecimal Relational Interleaving

section Serving

/-- The databases, and every challenge with the update that has issued it. -/
structure DispatcherStore where
  access : AccessDatabase
  challenges : CallbackChallenges
  keys : RateKeys
  issued : List (BotUpdate × CallbackChallenge)

/-- What the environment decides about a call. -/
structure CallOutcome where
  /-- The time in milliseconds at which Redis counts a hit. -/
  now : ℕ
  /-- The identifier of a row that is inserted. -/
  id : ℕ
  /-- What the store does not determine. -/
  answers : ∀ call, Option (BotAnswer call)
  /-- What the call raises, and whether it has taken effect before. -/
  fails : Option (BotFailure × Bool) := none

/-- A listing of pending requests, the oldest ones first. -/
def isPendingListing (limit : ℕ) (db : AccessDatabase) (rows : List AccessRequest) : Bool :=
  let pending := db.accessRequests.filter fun row => row.status = .pending
  rows.Nodup && rows.length = min limit pending.length &&
    (rows.all fun row => row ∈ pending) &&
    rows.Pairwise (fun first second => first.requestedAt ≤ second.requestedAt) &&
    pending.all fun row => row ∈ rows || rows.all fun listed => listed.requestedAt ≤ row.requestedAt

variable (isoformat : ℤ → Text) (limiter : RedisRateLimiter)

/-- What a call does and returns, or raises by itself. -/
def performCall (update : BotUpdate) (outcome : CallOutcome) (store : DispatcherStore) :
    (call : BotCall) → Option (DispatcherStore × Except BotFailure (BotAnswer call))
  | .findPrincipal telegramUserId =>
      some (store, .ok (findPrincipal telegramUserId store.access))
  | .findLatestRequest telegramUserId =>
      (outcome.answers (.findLatestRequest telegramUserId)).bind fun latest =>
        if isLatestRequest telegramUserId store.access latest then some (store, .ok latest)
        else none
  | .getOrCreatePendingRequest identity requestedAt =>
      let (access, record, created) := getOrCreatePendingRequest identity requestedAt store.access
      some ({ store with access }, .ok (record, created))
  | .listPendingRequests limit =>
      (outcome.answers (.listPendingRequests limit)).bind fun rows =>
        if isPendingListing limit store.access rows then some (store, .ok rows) else none
  | .approveRequest requestId actor correlationId decidedAt =>
      match approveRequest migratedPolicies requestId actor correlationId decidedAt
          store.access with
      | .error failure => some (store, .error (.decision failure))
      | .ok (access, result) => some ({ store with access }, .ok result)
  | .rejectRequest requestId actor correlationId decidedAt =>
      match rejectRequest isoformat migratedPolicies requestId actor correlationId none decidedAt
          none store.access with
      | .error failure => some (store, .error (.decision failure))
      | .ok (access, result) => some ({ store with access }, .ok result)
  | .revokeUser target actor correlationId revokedAt =>
      match revokeUser migratedPolicies target actor correlationId none revokedAt
          store.access with
      | .error failure => some (store, .error (.decision failure))
      | .ok access => some ({ store with access }, .ok ())
  | .unauthorizedAttempt identity action code correlationId =>
      match unauthorizedAttempt migratedPolicies identity action code correlationId
          store.access with
      | .error failure => some (store, .error (.decision failure))
      | .ok access => some ({ store with access }, .ok ())
  | .createChallenge values =>
      let challenge := values.row outcome.id
      match store.challenges.create challenge with
      | .error error => some (store, .error (.raised error))
      | .ok challenges =>
          some ({ store with challenges, issued := store.issued ++ [(update, challenge)] },
            .ok challenge)
  | .consumeChallenge tokenHash action actor consumedAt =>
      let (challenges, record) :=
        store.challenges.consumeChallenge tokenHash action actor consumedAt
      some ({ store with challenges }, .ok record)
  | .hit scope subject limit windowSeconds =>
      match limiter.hit outcome.now scope subject limit windowSeconds store.keys with
      | .error error => some (store, .error (.raised error))
      | .ok (keys, decision) => some ({ store with keys }, .ok decision)
  | call => (outcome.answers call).map fun answer => (store, .ok answer)

/-- A call is carried out by the services, or fails before or after it has taken effect. -/
def serveCall : Service DispatcherStore BotUpdate BotCall BotAnswer BotFailure CallOutcome :=
  Service.unreliable (fun update call outcome store =>
    performCall isoformat limiter update outcome store call) CallOutcome.fails

/-- The handling of any number of updates at once. -/
def updateSessions (dispatcher : Dispatcher) :
    Program DispatcherStore (Option (Session BotUpdate BotCall BotAnswer BotFailure Unit))
      (SessionEvent BotUpdate CallOutcome) :=
  sessions dispatcher.handle (serveCall isoformat limiter)

/-- Nobody has asked for a confirmation yet. -/
def initialUpdates (access : AccessDatabase) (keys : RateKeys) :
    World DispatcherStore (Option (Session BotUpdate BotCall BotAnswer BotFailure Unit)) :=
  .uniform ⟨access, [], keys, []⟩ none

end Serving

/-- The calls that the handling of an update has made, with their answers. -/
abbrev BotHistory := List (Exchange BotCall BotAnswer BotFailure)

section Justification

variable (dispatcher : Dispatcher) (update : BotUpdate) (store : DispatcherStore)
  (history : BotHistory)

/-- A call has returned an answer. -/
def Returned (call : BotCall) (answer : BotAnswer call) : Prop := ⟨call, .ok answer⟩ ∈ history

/-- The update is from an account, in its private chat. -/
def SentPrivately (telegramUserId : ℤ) : Prop :=
  ∃ identity, identityFromEvent update.event = some identity ∧ identity.isPrivateChat = true ∧
    identity.telegramUserId = telegramUserId

/-- The update is within the limit of its sender. -/
def WithinUserLimit (telegramUserId : ℤ) : Prop :=
  ∃ decision, Returned history (.hit "telegram_user".toList (Json.decimal telegramUserId)
    dispatcher.userRateLimitPerMinute 60) decision ∧ decision.allowed = true

/-- The update was counted for the workspace and let through. -/
def WithinWorkspaceLimit (workspaceId : ℕ) : Prop :=
  ∃ decision, Returned history (.hit "workspace".toList (uuidText workspaceId)
    dispatcher.workspaceRateLimitPerMinute 60) decision ∧ decision.allowed = true

/-- The update is from a configured platform owner. -/
def FromOwner (telegramUserId : ℤ) : Prop :=
  SentPrivately update telegramUserId ∧ telegramUserId ∈ dispatcher.platformOwnerIds ∧
    WithinUserLimit dispatcher history telegramUserId

/-- The database has named the workspace for the sender, whose account is active. -/
def Names (telegramUserId : ℤ) (userId workspaceId : ℕ) : Prop :=
  ∃ principal, Returned history (.findPrincipal telegramUserId) (some principal) ∧
    principal.userStatus = .active ∧ principal.userId = userId ∧
      principal.workspaceId = some workspaceId

/-- The update is from a member of a workspace. -/
def FromMember (telegramUserId : ℤ) (userId workspaceId : ℕ) : Prop :=
  SentPrivately update telegramUserId ∧ Names history telegramUserId userId workspaceId ∧
    WithinUserLimit dispatcher history telegramUserId ∧
      WithinWorkspaceLimit dispatcher history workspaceId

/-- The sender has confirmed a challenge of an action that was issued for the sender. -/
def Confirmed (telegramUserId : ℤ) (action : ChallengeAction)
    (concerns : CallbackChallenge → Prop) : Prop :=
  ∃ tokenHash actor consumedAt issuer challenge,
    Returned history (.consumeChallenge tokenHash action actor consumedAt)
      (some (CallbackChallenge.consumed consumedAt challenge)) ∧
    (issuer, challenge) ∈ store.issued ∧ challenge.action = action ∧
      challenge.expectedActorTelegramUserId = telegramUserId ∧ concerns challenge

/-- The update has stored a new request of its sender. -/
def StoredRequest (requestId : ℕ) : Prop :=
  ∃ identity requestedAt record, identityFromEvent update.event = some identity ∧
    Returned history (.getOrCreatePendingRequest identity requestedAt) (record, true) ∧
      record.id = requestId

/-- The update is from an owner, and the request was listed for it. -/
def Listed (ownerId : ℤ) (requestId : ℕ) : Prop :=
  FromOwner dispatcher update history ownerId ∧
    ∃ limit rows, Returned history (.listPendingRequests limit) rows ∧
      ∃ row ∈ rows, row.id = requestId

/-- Whom the confirmation of an action may be asked of. -/
def MayAsk (telegramUserId : ℤ) (resourceId : ℕ) : ChallengeAction → Prop
  | .approveAccess | .rejectAccess => telegramUserId ∈ dispatcher.platformOwnerIds ∧
      (StoredRequest update history resourceId ∨
        Listed dispatcher update history telegramUserId resourceId)
  | .revokeAccess => FromOwner dispatcher update history telegramUserId
  | .createWallet =>
      ∃ userId, FromMember dispatcher update history telegramUserId userId resourceId

/-- Who may confirm an action: an owner, or a member of any workspace. -/
def MayConfirm (telegramUserId : ℤ) : ChallengeAction → Prop
  | .approveAccess | .rejectAccess | .revokeAccess =>
      FromOwner dispatcher update history telegramUserId
  | .createWallet =>
      ∃ userId workspaceId, FromMember dispatcher update history telegramUserId userId workspaceId

/-- A decision about an account has been made. -/
def DecidedAbout (telegramUserId : ℤ) : Prop :=
  (∃ requestId actor correlationId decidedAt result,
      (Returned history (.approveRequest requestId actor correlationId decidedAt) result ∨
        Returned history (.rejectRequest requestId actor correlationId decidedAt) result) ∧
      result.telegramUserId = telegramUserId) ∨
    ∃ actor correlationId revokedAt,
      Returned history (.revokeUser telegramUserId actor correlationId revokedAt) ()

/-- Where a request to Telegram may go. -/
def MayAddress : TelegramRequest → Prop
  | .answerMessage _ _ => ∃ fromUser chat text caption,
      update = .message fromUser chat text caption
  | .answerCallback _ => ∃ fromUser origin data, update = .callbackQuery fromUser origin data
  | .sendMessage chatId _ _ =>
      chatId ∈ dispatcher.platformOwnerIds ∨ DecidedAbout history chatId
  | .editMessageText chatId messageId _ => ∃ fromUser chat data,
      update = .callbackQuery fromUser (some (chat, messageId)) data ∧ chat.id = chatId

/-- The collection is one that the repository has returned for the workspace. -/
def Saved (workspaceId collectionId : ℕ) : Prop :=
  ∃ record : WorkspaceCollectionRecord, record.collectionId = collectionId ∧
    ((∃ actorUserId address label correlationId created,
        Returned history (.addOrGet workspaceId actorUserId address label correlationId)
          (record, created)) ∨
      ∃ address, Returned history (.findByAddress workspaceId address) (some record))

/-- What justifies a call. -/
def Justified : BotCall → Prop
  | .uuid7 | .utcNow | .tokenUrlsafe => True
  | .findPrincipal telegramUserId | .findLatestRequest telegramUserId =>
      SentPrivately update telegramUserId
  | .getOrCreatePendingRequest identity _ =>
      identityFromEvent update.event = some identity ∧ identity.isPrivateChat = true ∧
        WithinUserLimit dispatcher history identity.telegramUserId
  | .listPendingRequests _ => ∃ ownerId, FromOwner dispatcher update history ownerId
  | .approveRequest requestId actor _ _ =>
      FromOwner dispatcher update history actor ∧
        Confirmed store history actor .approveAccess fun challenge =>
          challenge.resourceId = requestId
  | .rejectRequest requestId actor _ _ =>
      FromOwner dispatcher update history actor ∧
        Confirmed store history actor .rejectAccess fun challenge =>
          challenge.resourceId = requestId
  | .revokeUser target actor _ _ =>
      FromOwner dispatcher update history actor ∧ target ∉ dispatcher.platformOwnerIds ∧
        Confirmed store history actor .revokeAccess fun challenge =>
          challenge.target = some target
  | .unauthorizedAttempt identity _ _ _ => identityFromEvent update.event = some identity
  | .createChallenge values =>
      values.expectedChatId = values.expectedActorTelegramUserId ∧
        MayAsk dispatcher update history values.expectedActorTelegramUserId values.resourceId
          values.action
  | .consumeChallenge _ action actor _ =>
      SentPrivately update actor.telegramUserId ∧
        MayConfirm dispatcher update history actor.telegramUserId action
  | .hit scope subject _ _ => ∃ identity, identityFromEvent update.event = some identity ∧
      (scope = "telegram_user".toList ∧ subject = Json.decimal identity.telegramUserId ∨
        ∃ userId workspaceId, Names history identity.telegramUserId userId workspaceId ∧
          scope = "workspace".toList ∧ subject = uuidText workspaceId)
  | .findByIdempotency workspaceId _ | .countActive workspaceId | .listWallets workspaceId |
      .findByAddress workspaceId _ | .listCollections workspaceId =>
        ∃ sender userId, FromMember dispatcher update history sender userId workspaceId
  | .requestRefresh workspaceId walletId =>
      (∃ sender userId, FromMember dispatcher update history sender userId workspaceId) ∧
        ∃ wallets, Returned history (.listWallets workspaceId) wallets ∧
          ∃ wallet ∈ wallets, wallet.id = walletId
  | .requestScan workspaceId collectionId =>
      (∃ sender userId, FromMember dispatcher update history sender userId workspaceId) ∧
        Saved history workspaceId collectionId
  | .addOrGet workspaceId actorUserId _ _ _ =>
      ∃ sender, FromMember dispatcher update history sender actorUserId workspaceId
  | .signerCreateWallet workspaceId _ idempotencyKey _ =>
      ∃ sender userId, FromMember dispatcher update history sender userId workspaceId ∧
        Confirmed store history sender .createWallet fun challenge =>
          challenge.resourceId = workspaceId ∧ challenge.idempotencyKey = some idempotencyKey
  | .saveOrGet result keyHash actorUserId _ =>
      ∃ sender, FromMember dispatcher update history sender actorUserId result.workspaceId ∧
        Confirmed store history sender .createWallet fun challenge =>
          challenge.resourceId = result.workspaceId ∧
            ∃ idempotencyKey, challenge.idempotencyKey = some idempotencyKey ∧
              hashIdempotencyKey dispatcher.primitives idempotencyKey = .ok keyHash
  | .telegram request => MayAddress dispatcher update history request

/-- What is known about who is asked by an update for the confirmation of an action. -/
def AskedRightly (issuer : BotUpdate) (telegramUserId : ℤ) : ChallengeAction → Prop
  | .approveAccess | .rejectAccess => telegramUserId ∈ dispatcher.platformOwnerIds
  | .revokeAccess =>
      SentPrivately issuer telegramUserId ∧ telegramUserId ∈ dispatcher.platformOwnerIds
  | .createWallet => SentPrivately issuer telegramUserId

/-- What is known of a challenge from the update that has issued it. -/
def RightlyIssued (issuer : BotUpdate) (challenge : CallbackChallenge) : Prop :=
  challenge.expectedChatId = challenge.expectedActorTelegramUserId ∧
    AskedRightly dispatcher issuer challenge.expectedActorTelegramUserId challenge.action

/-- Every challenge has been issued by an update that may issue it. -/
structure ChallengesIssued (store : DispatcherStore) : Prop where
  issued : ∀ row ∈ store.challenges, ∃ issuer challenge, (issuer, challenge) ∈ store.issued ∧
    (row = challenge ∨ ∃ consumedAt, row = challenge.consumed consumedAt)
  rightly : ∀ issuer challenge, (issuer, challenge) ∈ store.issued →
    RightlyIssued dispatcher issuer challenge

end Justification

section Evidence

variable {dispatcher : Dispatcher} {update : BotUpdate} {store after : DispatcherStore}
  {history longer : BotHistory} {telegramUserId : ℤ} {userId workspaceId : ℕ}

theorem Returned.mono {call : BotCall} {answer : BotAnswer call}
    (returned : Returned history call answer) (grown : history <+: longer) :
    Returned longer call answer :=
  grown.subset returned

theorem WithinUserLimit.mono (within : WithinUserLimit dispatcher history telegramUserId)
    (grown : history <+: longer) : WithinUserLimit dispatcher longer telegramUserId := by
  rcases within with ⟨decision, returned, allowed⟩
  exact ⟨decision, returned.mono grown, allowed⟩

theorem FromOwner.mono (owner : FromOwner dispatcher update history telegramUserId)
    (grown : history <+: longer) : FromOwner dispatcher update longer telegramUserId :=
  ⟨owner.1, owner.2.1, owner.2.2.mono grown⟩

theorem FromMember.mono
    (member : FromMember dispatcher update history telegramUserId userId workspaceId)
    (grown : history <+: longer) :
    FromMember dispatcher update longer telegramUserId userId workspaceId := by
  rcases member with ⟨sent, ⟨principal, named, facts⟩, user, decision, counted, allowed⟩
  exact ⟨sent, ⟨principal, named.mono grown, facts⟩, user.mono grown,
    decision, counted.mono grown, allowed⟩

theorem Confirmed.mono {action : ChallengeAction} {concerns : CallbackChallenge → Prop}
    (confirmed : Confirmed store history telegramUserId action concerns)
    (moved : store.issued ⊆ after.issued) (grown : history <+: longer) :
    Confirmed after longer telegramUserId action concerns := by
  rcases confirmed with ⟨tokenHash, actor, consumedAt, issuer, challenge, returned, issued, facts⟩
  exact ⟨tokenHash, actor, consumedAt, issuer, challenge, returned.mono grown, moved issued, facts⟩

theorem Justified.later {call : BotCall}
    (justified : Justified dispatcher update store history call)
    (moved : store.issued ⊆ after.issued) : Justified dispatcher update after history call := by
  cases call with
  | approveRequest | rejectRequest =>
      exact ⟨justified.1, justified.2.mono moved List.prefix_rfl⟩
  | revokeUser => exact ⟨justified.1, justified.2.1, justified.2.2.mono moved List.prefix_rfl⟩
  | signerCreateWallet =>
      rcases justified with ⟨sender, userId, member, confirmed⟩
      exact ⟨sender, userId, member, confirmed.mono moved List.prefix_rfl⟩
  | saveOrGet =>
      rcases justified with ⟨sender, member, confirmed⟩
      exact ⟨sender, member, confirmed.mono moved List.prefix_rfl⟩
  | _ => exact justified

/-- A consumption returns a challenge that was issued for its actor. -/
def AnswersRightly (store : DispatcherStore) :
    (call : BotCall) → Except BotFailure (BotAnswer call) → Prop
  | .consumeChallenge _ action actor consumedAt, .ok (some record) =>
      ∃ issuer challenge, (issuer, challenge) ∈ store.issued ∧
        record = CallbackChallenge.consumed consumedAt challenge ∧ challenge.action = action ∧
          challenge.expectedActorTelegramUserId = actor.telegramUserId
  | _, _ => True

/-- The contract of the handling of updates. -/
def mediation (dispatcher : Dispatcher) :
    Contract DispatcherStore BotUpdate BotCall BotAnswer BotFailure where
  later before after := before.issued ⊆ after.issued
  allowed update store history call := Justified dispatcher update store history call
  answered := AnswersRightly
  refl _ := List.Subset.refl _
  trans first second := List.Subset.trans first second
  allowed_later moved justified := justified.later moved
  answered_later := by
    intro before after call result moved redeems
    cases call with
    | consumeChallenge tokenHash action actor consumedAt =>
        match result with
        | .error _ | .ok none => trivial
        | .ok (some record) =>
            rcases redeems with ⟨issuer, challenge, issued, facts⟩
            exact ⟨issuer, challenge, moved issued, facts⟩
    | _ => trivial

end Evidence

section Serves

variable {dispatcher : Dispatcher} {isoformat : ℤ → Text} {limiter : RedisRateLimiter}
  {update : BotUpdate} {store after : DispatcherStore} {history : BotHistory}
  {outcome : CallOutcome}

theorem askedRightly_of_mayAsk {telegramUserId : ℤ} {resourceId : ℕ} {action : ChallengeAction}
    (may : MayAsk dispatcher update history telegramUserId resourceId action) :
    AskedRightly dispatcher update telegramUserId action := by
  cases action with
  | approveAccess | rejectAccess => exact may.1
  | revokeAccess => exact ⟨may.1, may.2.1⟩
  | createWallet =>
      rcases may with ⟨userId, member⟩
      exact member.1

/-- Calls that neither create nor consume a challenge leave all challenges alone. -/
def BotCall.isAboutChallenge : BotCall → Bool
  | .createChallenge _ | .consumeChallenge _ _ _ _ => true
  | _ => false

theorem performCall_frame {call : BotCall} {result : Except BotFailure (BotAnswer call)}
    (other : call.isAboutChallenge = false)
    (performed : performCall isoformat limiter update outcome store call = some (after, result)) :
    after.challenges = store.challenges ∧ after.issued = store.issued := by
  cases call with
  | createChallenge | consumeChallenge => cases other
  | findPrincipal | getOrCreatePendingRequest =>
      cases performed
      exact ⟨rfl, rfl⟩
  | findLatestRequest | listPendingRequests =>
      rcases Option.bind_eq_some_iff.mp performed with ⟨answer, _, returned⟩
      split_ifs at returned
      cases returned
      exact ⟨rfl, rfl⟩
  | approveRequest | rejectRequest | revokeUser | unauthorizedAttempt | hit =>
      simp only [performCall] at performed
      split at performed <;> cases performed <;> exact ⟨rfl, rfl⟩
  | _ =>
      rcases Option.map_eq_some_iff.mp performed with ⟨answer, _, returned⟩
      cases returned
      exact ⟨rfl, rfl⟩

theorem ChallengesIssued.create (sound : ChallengesIssued dispatcher store)
    {values : NewChallenge}
    (justified : Justified dispatcher update store history (.createChallenge values))
    {result : Except BotFailure CallbackChallenge}
    (performed : performCall isoformat limiter update outcome store (.createChallenge values) =
      some (after, result)) :
    ChallengesIssued dispatcher after ∧ store.issued ⊆ after.issued := by
  simp only [performCall, CallbackChallenges.create] at performed
  split_ifs at performed with taken
  · cases performed
    exact ⟨sound, List.Subset.refl _⟩
  · cases performed
    refine ⟨⟨fun row row_mem => ?_, fun issuer challenge issued => ?_⟩,
      List.subset_append_left _ _⟩
    · rcases List.mem_append.mp row_mem with old | new
      · rcases sound.issued row old with ⟨issuer, challenge, issued, same⟩
        exact ⟨issuer, challenge, List.mem_append_left _ issued, same⟩
      · refine ⟨update, values.row outcome.id, List.mem_append_right _ ?_, .inl ?_⟩
        · exact List.mem_singleton_self _
        · exact List.mem_singleton.mp new
    · rcases List.mem_append.mp issued with old | new
      · exact sound.rightly issuer challenge old
      · cases List.mem_singleton.mp new
        exact ⟨justified.1, askedRightly_of_mayAsk justified.2⟩

theorem ChallengesIssued.consume (sound : ChallengesIssued dispatcher store)
    {tokenHash : BytesOf 32} {action : ChallengeAction} {actor : RequestContext} {consumedAt : ℤ}
    {result : Except BotFailure (Option CallbackChallenge)}
    (performed : performCall isoformat limiter update outcome store
      (.consumeChallenge tokenHash action actor consumedAt) = some (after, result)) :
    ChallengesIssued dispatcher after ∧ after.issued = store.issued ∧
      AnswersRightly after (.consumeChallenge tokenHash action actor consumedAt) result := by
  simp only [performCall] at performed
  rcases consumed : store.challenges.consumeChallenge tokenHash action actor consumedAt with
    ⟨challenges, record⟩
  rw [consumed] at performed
  cases performed
  have table : updateWhere (CallbackChallenges.consumable tokenHash action actor consumedAt)
      (CallbackChallenge.consumed consumedAt) store.challenges = challenges :=
    congrArg Prod.fst consumed
  refine ⟨⟨fun row row_mem => ?_, sound.rightly⟩, rfl, ?_⟩
  · rw [← table] at row_mem
    rcases mem_updateWhere.mp row_mem with ⟨old, old_mem, rfl⟩
    rcases sound.issued old old_mem with ⟨issuer, challenge, issued, same⟩
    refine ⟨issuer, challenge, issued, ?_⟩
    split_ifs
    · right
      rcases same with rfl | ⟨earlier, rfl⟩ <;> exact ⟨consumedAt, rfl⟩
    · exact same
  · cases record with
    | none => trivial
    | some updated =>
        rcases updateReturning_eq_some (congrArg Prod.snd consumed) with
          ⟨row, row_mem, chosen, rfl, _⟩
        have selected := ChallengeService.selected_of_consumable chosen
        rcases sound.issued row row_mem with ⟨issuer, challenge, issued, rfl | ⟨earlier, rfl⟩⟩
        · exact ⟨issuer, row, issued, rfl, selected.action, selected.telegramUserId⟩
        · cases selected.unconsumed

/-- What a justified call does keeps the challenges rightly issued. -/
theorem ChallengesIssued.perform (sound : ChallengesIssued dispatcher store) {call : BotCall}
    {result : Except BotFailure (BotAnswer call)}
    (justified : Justified dispatcher update store history call)
    (performed : performCall isoformat limiter update outcome store call = some (after, result)) :
    ChallengesIssued dispatcher after ∧ store.issued ⊆ after.issued ∧
      AnswersRightly after call result := by
  cases about : call.isAboutChallenge with
  | true =>
      cases call with
      | createChallenge values =>
          rcases sound.create justified performed with ⟨sound, moved⟩
          exact ⟨sound, moved, trivial⟩
      | consumeChallenge tokenHash action actor consumedAt =>
          rcases sound.consume performed with ⟨sound, same, redeems⟩
          exact ⟨sound, same ▸ List.Subset.refl _, redeems⟩
      | _ => cases about
  | false =>
      rcases performCall_frame about performed with ⟨challenges, issued⟩
      refine ⟨⟨?_, ?_⟩, issued ▸ List.Subset.refl _, ?_⟩
      · simpa only [challenges, issued] using sound.issued
      · simpa only [issued] using sound.rightly
      · cases call with
        | consumeChallenge => cases about
        | _ => trivial

theorem mediation_servedBy (dispatcher : Dispatcher) :
    (mediation dispatcher).ServedBy (ChallengesIssued dispatcher)
      (serveCall isoformat limiter) := by
  refine Contract.ServedBy.unreliable ?_ CallOutcome.fails fun store call failure => ?_
  · intro update store history call outcome after result sound justified performed
    exact sound.perform justified performed
  · cases call <;> trivial

end Serves

end CopyMint
