import CopyMint.Access.Outcomes
import CopyMint.Bot.Handlers
import CopyMint.Wallets.Creation

/-!
# Confirmations and their actions

A challenge is consumed before its action runs. If the handler is killed in
between, or the action fails, the challenge is spent for nothing: the callback
that is delivered again finds it consumed. In the runs in which neither happens, a
challenge is consumed exactly if its action has committed, once no handler runs,
and what the action has left behind can be read off the databases.
-/

namespace CopyMint

open Hexadecimal Relational Interleaving Fallible

variable {primitives : Primitives} {isoformat : ℤ → Text} {signer : SignerPrimitives} {bot : Bot}
  {service : WalletService}

/-- The action of a consumed challenge passes its checks, and no policy refuses it. -/
def CanAct (bot : Bot) (access : AccessDatabase) (context : RequestContext)
    (challenge : CallbackChallenge) (now : ℤ) : Prop :=
  match confirmedAction bot.platformOwnerIds context challenge now with
  | .error _ => False
  | .ok (.decision call) =>
      call.passesChecks access = true ∧ call.HasWorkspace access ∧ call.NameFits access
  | .ok (.wallet idempotencyKey) =>
      context.userId.isSome = true ∧ 16 ≤ idempotencyKey.length ∧ idempotencyKey.length ≤ 128

/-- A call that creates a wallet is not killed, has room, and clashes with no wallet. -/
def CanContinue (service : WalletService) (store : WalletStore)
    (creation : WalletCreation primitives) (event : CreationEvent) : Prop :=
  match creation.call, event with
  | _, .stopCall => False
  | .counting request, .count =>
      store.countActive request.workspaceId < service.maxWalletsPerWorkspace
  | .saving request result, .save walletId _ =>
      (store.findByIdempotency result.workspaceId request.keyHash).isSome = true ∨
        ∀ row ∈ store.wallets,
          (WalletStore.walletRow walletId result request.keyHash).clashes row = false
  | _, _ => True

/-- Once it has consumed its challenge, a handler is not killed and does not fail. -/
def Proceeds (bot : Bot) (store : BotStore) (process : Confirmation primitives)
    (event : BotEvent) : Prop :=
  match process, event with
  | .consumed _ _, .crash => False
  | .consumed context challenge, .act now => CanAct bot store.access context challenge now
  | .creating _ creation, .create event => CanContinue bot.wallets store.wallets creation event
  | _, _ => True

instance (access : AccessDatabase) (context : RequestContext) (challenge : CallbackChallenge)
    (now : ℤ) : Decidable (CanAct bot access context challenge now) := by
  unfold CanAct
  split <;> infer_instance

instance (store : WalletStore) (creation : WalletCreation primitives) (event : CreationEvent) :
    Decidable (CanContinue service store creation event) := by
  unfold CanContinue
  split <;> infer_instance

instance (store : BotStore) (process : Confirmation primitives) (event : BotEvent) :
    Decidable (Proceeds bot store process event) := by
  unfold Proceeds
  split <;> infer_instance

/-- Every action of a callback is carried out once its challenge has been consumed. -/
def ActsOnceConsumed (bot : Bot) : Condition BotStore (Confirmation primitives) BotEvent :=
  fun world index event => Proceeds bot world.store (world.process index) event

instance (world : World BotStore (Confirmation primitives)) (index : ℕ) (event : BotEvent) :
    Decidable (ActsOnceConsumed bot world index event) :=
  inferInstanceAs (Decidable (Proceeds bot world.store (world.process index) event))

/-- Some handler has committed the action of a challenge. -/
def Committed (world : World BotStore (Confirmation primitives)) (challenge : CallbackChallenge) :
    Prop :=
  ∃ index record, (world.process index).committed = some record ∧
    record.tokenHash = challenge.tokenHash

/-- The effect of the action of a challenge can be read off the databases. -/
def TookEffect (primitives : Primitives) (store : BotStore) (challenge : CallbackChallenge) :
    Prop :=
  match challenge.action with
  | .approveAccess | .rejectAccess =>
      ∃ request, store.access.request challenge.resourceId = some request ∧
        request.status ≠ .pending
  | .revokeAccess => ∃ target, challenge.target = some target ∧ Revoked target store.access
  | .createWallet => ∃ idempotencyKey keyHash, challenge.idempotencyKey = some idempotencyKey ∧
      hashIdempotencyKey primitives idempotencyKey = .ok keyHash ∧
      ∃ row ∈ store.wallets.wallets, row.key = (challenge.resourceId, keyHash)

/-- The request of a call that has not failed. -/
def CallPhase.request : CallPhase primitives → Option (CreationRequest primitives)
  | .counting request | .awaiting request | .saving request _ | .returned request _ _ =>
      some request
  | .idle | .stopped _ => none

section Calls

variable {store after : WalletStore} {creation next : WalletCreation primitives}
  {event : CreationEvent} {request : CreationRequest primitives}

/-- A call that can continue does not fail: the signer answers its own request. -/
theorem not_callFails (holds : WalletInvariant primitives service store)
    (owned : CreationInvariant service store creation)
    (continues : CanContinue service store creation event)
    (begun : creation.call.request = some request) : ¬CallFails service store creation event := by
  intro fails
  cases fails with
  | refused => cases begun
  | full reached => exact absurd continues (not_lt.mpr reached)
  | mismatched mismatch =>
      rcases owned.handler with ⟨envelope, _, own, _, rfl⟩
      have same : _ = _ := owned.same
      subst same
      simp only [SignerKeyEnvelope.key, Prod.mk.injEq] at own
      rcases mismatch with workspace | chain
      · exact workspace own.2.1
      · exact chain own.2.2.1
  | malformed raised =>
      rcases owned.handler with ⟨envelope, envelope_mem, _, _, rfl⟩
      have checksum := holds.envelopes_checksum envelope envelope_mem
      simp only [KeyEnvelope.descriptor] at raised
      rw [checksum] at raised
      cases raised
  | @clashes _ request result walletId _ clash =>
      simp only [insertOrGet] at clash
      split at clash
      · cases clash
      · rename_i absent
        split_ifs at clash with clashing
        rcases continues with stored | clear
        · have missing : store.findByIdempotency result.workspaceId request.keyHash = none := absent
          rw [missing] at stored
          cases stored
        · rcases List.any_eq_true.mp clashing with ⟨row, row_mem, taken⟩
          rw [clear row row_mem] at taken
          cases taken
  | stopped =>
      cases creation
      exact continues

/-- A call that does not fail keeps its request. -/
theorem CreationTransition.request_eq
    (moved : CreationTransition service store creation event after next)
    (succeeds : ¬CallFails service store creation event)
    (begun : creation.call.request = some request) : next.call.request = some request := by
  cases moved with
  | fails why => exact absurd why succeeds
  | finds | begins => cases begun
  | passesLimit | receives | saves | looksUp | generates | prepares | handlerStops => exact begun

variable (primitives) in
/-- The checks of a confirmed creation leave a request for its workspace and key. -/
theorem exists_beginCreation {context : RequestContext} {idempotencyKey : Text} {workspaceId : ℕ}
    (workspace : context.requireWorkspace = .ok workspaceId)
    (identified : context.userId.isSome = true) (long : 16 ≤ idempotencyKey.length)
    (short : idempotencyKey.length ≤ 128) :
    ∃ request : CreationRequest primitives,
      beginCreation primitives context idempotencyKey = .ok request ∧
        request.workspaceId = workspaceId ∧ request.idempotencyKey = idempotencyKey := by
  rcases Option.isSome_iff_exists.mp identified with ⟨userId, found⟩
  have hashed : hashIdempotencyKey primitives idempotencyKey =
      .ok (primitives.sha256 (Json.utf8 idempotencyKey)) := if_pos ⟨long, short⟩
  simp only [beginCreation, workspace, found]
  split
  · rename_i raised
    cases hashed.symm.trans raised
  · exact ⟨_, rfl, rfl, rfl⟩

/-- A call whose checks pass has begun, or has found its wallet. -/
theorem request_of_call {context : RequestContext} {idempotencyKey : Text}
    (stepped : creationStep signer service store ⟨.idle, .idle⟩ (.call context idempotencyKey) =
      some (after, next))
    (begun : beginCreation primitives context idempotencyKey = .ok request) :
    next.call.request = some request := by
  simp only [creationStep, callStep, begun] at stepped
  split at stepped <;>
    · cases stepped
      rfl

end Calls

/-- No action undoes what another one has done. -/
structure BotGrows (before after : BotStore) : Prop where
  consumed : ∀ challenge ∈ before.challenges, challenge.consumedAt.isSome →
    challenge ∈ after.challenges
  access : AccountsGrow before.access after.access
  wallets : Grows before.wallets after.wallets

/-- What a handler knows about the databases. -/
structure ConfirmationInvariant (service : WalletService) (store : BotStore)
    (process : Confirmation primitives) : Prop where
  consumed : ∀ challenge, process.challenge = some challenge →
    challenge ∈ store.challenges ∧ challenge.consumedAt.isSome
  creating : ∀ challenge creation, process = .creating challenge creation →
    challenge.action = .createWallet ∧ CreationInvariant service store.wallets creation ∧
      ∃ request, creation.call.request = some request ∧
        request.workspaceId = challenge.resourceId ∧
        challenge.idempotencyKey = some request.idempotencyKey
  decided : ∀ challenge, process = .decided challenge → TookEffect primitives store challenge
  /-- No action has failed. -/
  succeeds : ∀ challenge, process ≠ .failed challenge

section Growth

variable {before after : BotStore} {challenge : CallbackChallenge}

theorem TookEffect.grow (took : TookEffect primitives before challenge)
    (grows : BotGrows before after) : TookEffect primitives after challenge := by
  simp only [TookEffect] at took ⊢
  split at took
  · rcases took with ⟨request, found, decided⟩
    exact grows.access.decided found decided
  · rcases took with ⟨request, found, decided⟩
    exact grows.access.decided found decided
  · rcases took with ⟨target, found, revoked⟩
    exact ⟨target, found, revoked.grow grows.access⟩
  · rcases took with ⟨idempotencyKey, keyHash, found, hashed, row, row_mem, own⟩
    exact ⟨idempotencyKey, keyHash, found, hashed, row, grows.wallets.wallets row_mem, own⟩

theorem BotGrows.confirmationInvariant (grows : BotGrows before after)
    {process : Confirmation primitives} (holds : ConfirmationInvariant service before process) :
    ConfirmationInvariant service after process where
  consumed := by
    intro challenge found
    rcases holds.consumed challenge found with ⟨stored, consumed⟩
    exact ⟨grows.consumed challenge stored consumed, consumed⟩
  creating := by
    intro challenge creation own
    rcases holds.creating challenge creation own with ⟨action, owned, requested⟩
    exact ⟨action, grows.wallets.creationInvariant owned, requested⟩
  decided := fun challenge own => (holds.decided challenge own).grow grows
  succeeds := holds.succeeds

theorem confirmationInvariant_of_challenge_eq_none {store : BotStore}
    {process : Confirmation primitives} (none_eq : process.challenge = none) :
    ConfirmationInvariant service store process := by
  refine ⟨fun challenge found => ?_, ?_, ?_, ?_⟩
  · cases none_eq.symm.trans found
  · rintro challenge creation rfl
    cases none_eq
  · rintro challenge rfl
    cases none_eq
  · rintro challenge rfl
    cases none_eq

end Growth

section Actions

variable {store : BotStore} {context : RequestContext} {challenge : CallbackChallenge} {now : ℤ}

/-- A decision that has taken effect is the one its challenge stands for. -/
theorem tookEffect_of_decision {call : AccessCall} {access : AccessDatabase}
    (confirmed : confirmedAction bot.platformOwnerIds context challenge now =
      .ok (.decision call)) (took : call.TookEffect access) :
    TookEffect primitives { store with access } challenge := by
  simp only [confirmedAction] at confirmed
  split at confirmed
  · rename_i action
    rcases bind_eq_ok_iff.mp confirmed with ⟨_, _, equal⟩
    cases equal
    simp only [TookEffect, action]
    exact took
  · rename_i action
    rcases bind_eq_ok_iff.mp confirmed with ⟨_, _, equal⟩
    cases equal
    simp only [TookEffect, action]
    exact took
  · rename_i action
    split at confirmed
    · cases confirmed
    · rename_i target found
      rcases bind_eq_ok_iff.mp confirmed with ⟨_, _, confirmed⟩
      split_ifs at confirmed
      cases confirmed
      simp only [TookEffect, action]
      exact ⟨target, found, took⟩
  · rcases bind_eq_ok_iff.mp confirmed with ⟨_, _, confirmed⟩
    split_ifs at confirmed
    split at confirmed <;> cases confirmed

/-- A wallet is created in the workspace and under the key of its challenge. -/
theorem confirmedAction_eq_wallet {idempotencyKey : Text}
    (confirmed : confirmedAction bot.platformOwnerIds context challenge now =
      .ok (.wallet idempotencyKey)) :
    challenge.action = .createWallet ∧ context.requireWorkspace = .ok challenge.resourceId ∧
      challenge.idempotencyKey = some idempotencyKey := by
  simp only [confirmedAction] at confirmed
  split at confirmed
  · rcases bind_eq_ok_iff.mp confirmed with ⟨_, _, equal⟩
    cases equal
  · rcases bind_eq_ok_iff.mp confirmed with ⟨_, _, equal⟩
    cases equal
  · split at confirmed
    · cases confirmed
    · rcases bind_eq_ok_iff.mp confirmed with ⟨_, _, confirmed⟩
      split_ifs at confirmed
      cases confirmed
  · rename_i action
    rcases bind_eq_ok_iff.mp confirmed with ⟨workspaceId, workspace, confirmed⟩
    split_ifs at confirmed with same
    split at confirmed
    · cases confirmed
    · rename_i found
      cases confirmed
      exact ⟨action, not_not.mp same ▸ workspace, found⟩

end Actions

/-- What an action that does not fail does to the databases and to its handler. -/
inductive BotTransition (bot : Bot) (store : BotStore) :
    Confirmation primitives → BotStore → Confirmation primitives → Prop
  | answers {access : AccessDatabase} {failure : Option CallbackFailure}
      (grows : AccountsGrow store.access access) :
      BotTransition bot store .idle { store with access } (.ended failure)
  | issues {challenge : CallbackChallenge} (unconsumed : challenge.consumedAt = none)
      (absent : ∀ row ∈ store.challenges, row.tokenHash ≠ challenge.tokenHash) :
      BotTransition bot store .idle { store with challenges := store.challenges ++ [challenge] }
        (.ended none)
  | consumes {context : RequestContext} {challenge : CallbackChallenge}
      {challenges : CallbackChallenges}
      (consumed : ChallengeService.Consumes store.challenges challenge challenges) :
      BotTransition bot store .idle { store with challenges } (.consumed context challenge)
  | decides {context : RequestContext} {challenge : CallbackChallenge} {access : AccessDatabase}
      (grows : AccountsGrow store.access access)
      (took : TookEffect primitives { store with access } challenge) :
      BotTransition bot store (.consumed context challenge) { store with access }
        (.decided challenge)
  | begins {context : RequestContext} {challenge : CallbackChallenge} {wallets : WalletStore}
      {creation : WalletCreation primitives} {event : CreationEvent}
      {request : CreationRequest primitives} (action : challenge.action = .createWallet)
      (moved : CreationTransition bot.wallets store.wallets ⟨.idle, .idle⟩ event wallets creation)
      (begun : creation.call.request = some request)
      (workspace : request.workspaceId = challenge.resourceId)
      (key : challenge.idempotencyKey = some request.idempotencyKey) :
      BotTransition bot store (.consumed context challenge) { store with wallets }
        (.creating challenge creation)
  | creates {challenge : CallbackChallenge} {wallets : WalletStore}
      {creation next : WalletCreation primitives} {event : CreationEvent}
      (moved : CreationTransition bot.wallets store.wallets creation event wallets next)
      (continues : CanContinue bot.wallets store.wallets creation event) :
      BotTransition bot store (.creating challenge creation) { store with wallets }
        (.creating challenge next)

/-- A stored request undoes nothing. -/
theorem accountsGrow_getOrCreatePendingRequest (identity : TelegramIdentity) (requestedAt : ℤ)
    (db : AccessDatabase) :
    AccountsGrow db (getOrCreatePendingRequest identity requestedAt db).1 := by
  simp only [getOrCreatePendingRequest]
  split
  · exact .refl db
  · refine ⟨fun found decided => ⟨_, ?_, decided⟩, fun found => ⟨_, found, rfl⟩,
      List.Subset.refl _⟩
    simp only [AccessDatabase.request] at found
    simp [AccessDatabase.request, lookup_append, found]

section Inversion

variable {store after : BotStore} {process next : Confirmation primitives} {event : BotEvent}

theorem botTransition_of_action {context : RequestContext} {challenge : CallbackChallenge}
    {now : ℤ} (acts : CanAct bot store.access context challenge now)
    (stepped : performAction isoformat signer bot store context challenge now =
      some (after, next)) :
    BotTransition bot store (.consumed context challenge) after next := by
  simp only [CanAct] at acts
  simp only [performAction] at stepped
  split at stepped
  · rename_i refused
    rw [refused] at acts
    exact acts.elim
  · rename_i call confirmed
    rw [confirmed] at acts
    rcases exists_run_eq_ok isoformat acts.1 acts.2.1 acts.2.2 with
      ⟨access, returned⟩
    rw [returned] at stepped
    cases stepped
    rcases AccessCall.run_eq_ok returned with ⟨grows, took⟩
    exact .decides grows (tookEffect_of_decision confirmed took)
  · rename_i idempotencyKey confirmed
    rw [confirmed] at acts
    rcases acts with ⟨identified, long, short⟩
    rcases confirmedAction_eq_wallet confirmed with ⟨action, workspace, key⟩
    rcases exists_beginCreation primitives workspace identified long short with
      ⟨request, begun, sameWorkspace, sameKey⟩
    rcases Option.map_eq_some_iff.mp stepped with ⟨⟨wallets, creation⟩, created, equal⟩
    cases equal
    exact .begins action (creationTransition_of_step created) (request_of_call created begun)
      sameWorkspace (sameKey ▸ key)

theorem botTransition_of_step
    (unique : Unique CallbackChallenge.tokenHash store.challenges)
    (proceeds : Proceeds bot store process event)
    (stepped : botStep isoformat signer bot store process event = some (after, next)) :
    BotTransition bot store process after next := by
  cases process with
  | idle =>
      cases event with
      | request identity requestedAt =>
          simp only [botStep] at stepped
          split at stepped
          · cases stepped
            exact .answers (.refl store.access)
          · cases stepped
            exact .answers (accountsGrow_getOrCreatePendingRequest _ _ _)
      | issue actor values id rawToken now =>
          simp only [botStep] at stepped
          split at stepped
          · cases stepped
            exact .answers (.refl store.access)
          · rename_i challenges issued
            cases stepped
            rcases ChallengeService.issue_eq_ok issued with
              ⟨_, challenge, rfl, unconsumed, absent, _⟩
            exact .issues unconsumed absent
      | confirm context error data now =>
          rcases Option.map_eq_some_iff.mp stepped with ⟨requested, _, stepped⟩
          split at stepped
          · cases stepped
            exact .answers (.refl store.access)
          · rename_i confirmed
            cases stepped
            rcases bind_eq_ok_iff.mp confirmed with ⟨_, _, confirmed⟩
            rcases bind_eq_ok_iff.mp confirmed with ⟨⟨_, _⟩, _, confirmed⟩
            rcases bind_eq_ok_iff.mp confirmed with ⟨⟨_, _⟩, consumed, equal⟩
            cases equal
            exact .consumes (ChallengeService.consume_eq_ok unique consumed).1
      | act | create | crash => cases stepped
  | consumed context challenge =>
      cases event with
      | act now => exact botTransition_of_action proceeds stepped
      | crash => exact proceeds.elim
      | request | issue | confirm | create => cases stepped
  | creating challenge creation =>
      cases event with
      | create event =>
          rcases Option.map_eq_some_iff.mp stepped with ⟨⟨wallets, next⟩, created, equal⟩
          cases equal
          exact .creates (creationTransition_of_step created) proceeds
      | request | issue | confirm | act | crash => cases stepped
  | decided | failed | ended => cases stepped

end Inversion

/-- What all databases maintain. -/
structure StoreInvariant (primitives : Primitives) (bot : Bot) (store : BotStore) : Prop where
  unique : Unique CallbackChallenge.tokenHash store.challenges
  wallets : WalletInvariant primitives bot.wallets store.wallets

/-- What an action preserves, and whose challenges it leaves consumed. -/
structure Preserves (bot : Bot) (store : BotStore) (process : Confirmation primitives)
    (after : BotStore) (next : Confirmation primitives) : Prop where
  shared : StoreInvariant primitives bot after
  owned : ConfirmationInvariant bot.wallets after next
  grows : BotGrows store after
  keeps : ∀ challenge, process.challenge = some challenge → next.challenge = some challenge
  only : ∀ challenge ∈ after.challenges, challenge.consumedAt.isSome →
    challenge ∈ store.challenges ∨ next.challenge = some challenge

section Preservation

variable {store after : BotStore} {process next : Confirmation primitives}

theorem BotGrows.of_access {access : AccessDatabase} (grows : AccountsGrow store.access access) :
    BotGrows store { store with access } :=
  ⟨fun _ stored _ => stored, grows, .refl store.wallets⟩

theorem BotGrows.of_wallets {wallets : WalletStore} (grows : Grows store.wallets wallets) :
    BotGrows store { store with wallets } :=
  ⟨fun _ stored _ => stored, .refl store.access, grows⟩

/-- A handler that creates a wallet keeps its invariant as long as the call does not fail. -/
theorem BotTransition.preserves (moved : BotTransition bot store process after next)
    (holds : StoreInvariant primitives bot store)
    (owned : ConfirmationInvariant bot.wallets store process) :
    Preserves bot store process after next := by
  cases moved with
  | answers grows =>
      exact ⟨⟨holds.unique, holds.wallets⟩, confirmationInvariant_of_challenge_eq_none rfl,
        .of_access grows, fun _ found => found, fun _ stored _ => .inl stored⟩
  | @issues challenge unconsumed absent =>
      refine ⟨⟨?_, holds.wallets⟩, confirmationInvariant_of_challenge_eq_none rfl,
        ⟨fun _ stored _ => List.mem_append_left _ stored, .refl _, .refl _⟩,
        fun _ found => found, fun other stored consumed => ?_⟩
      · rw [← insertOrIgnore_of_absent absent]
        exact holds.unique.insertOrIgnore challenge
      · rcases List.mem_append.mp stored with old | new
        · exact .inl old
        · rw [List.mem_singleton.mp new, unconsumed] at consumed
          cases consumed
  | @consumes context challenge challenges consumed =>
      refine ⟨⟨consumed.unique, holds.wallets⟩, ⟨?_, ?_, ?_, ?_⟩,
        ⟨consumed.kept, .refl _, .refl _⟩, ?_, ?_⟩
      · intro other found
        cases found
        exact ⟨consumed.stored, consumed.consumed⟩
      · rintro _ _ ⟨⟩
      · rintro _ ⟨⟩
      · rintro _ ⟨⟩
      · rintro _ ⟨⟩
      · intro other stored otherConsumed
        rcases consumed.only other stored otherConsumed with old | rfl
        · exact .inl old
        · exact .inr rfl
  | decides grows took =>
      have grows := BotGrows.of_access grows
      refine ⟨⟨holds.unique, holds.wallets⟩,
        ⟨(grows.confirmationInvariant owned).consumed, ?_, ?_, ?_⟩, grows, fun _ found => found,
        fun _ stored _ => .inl stored⟩
      · rintro _ _ ⟨⟩
      · intro _ own
        cases own
        exact took
      · rintro _ ⟨⟩
  | begins action moved begun workspace key =>
      rcases moved.preserves holds.wallets ⟨trivial, trivial, trivial⟩ with
        ⟨wallets, creation, grows⟩
      have grows := BotGrows.of_wallets grows
      refine ⟨⟨holds.unique, wallets⟩,
        ⟨(grows.confirmationInvariant owned).consumed, ?_, ?_, ?_⟩, grows, fun _ found => found,
        fun _ stored _ => .inl stored⟩
      · intro _ _ own
        cases own
        exact ⟨action, creation, _, begun, workspace, key⟩
      · rintro _ ⟨⟩
      · rintro _ ⟨⟩
  | creates moved continues =>
      rcases owned.creating _ _ rfl with ⟨action, own, request, begun, workspace, key⟩
      rcases moved.preserves holds.wallets own with ⟨wallets, creation, grows⟩
      have later := moved.request_eq (not_callFails holds.wallets own continues begun) begun
      have grows := BotGrows.of_wallets grows
      refine ⟨⟨holds.unique, wallets⟩,
        ⟨(grows.confirmationInvariant owned).consumed, ?_, ?_, ?_⟩, grows, fun _ found => found,
        fun _ stored _ => .inl stored⟩
      · intro _ _ own
        cases own
        exact ⟨action, creation, _, later, workspace, key⟩
      · rintro _ ⟨⟩
      · rintro _ ⟨⟩

end Preservation

/-- The invariants of the databases and of all handlers. -/
structure BotWorld (bot : Bot) (world : World BotStore (Confirmation primitives)) : Prop where
  shared : StoreInvariant primitives bot world.store
  owned : ∀ index, ConfirmationInvariant bot.wallets world.store (world.process index)
  /-- Every consumed challenge belongs to a handler. -/
  held : ∀ challenge ∈ world.store.challenges, challenge.consumedAt.isSome →
    ∃ index, (world.process index).challenge = some challenge

/-- A bot that has issued no challenge and created no wallet. -/
def startWorld (access : AccessDatabase) : World BotStore (Confirmation primitives) :=
  World.uniform ⟨access, [], ⟨[], [], []⟩⟩ .idle

theorem botWorld_start (access : AccessDatabase) :
    BotWorld bot (startWorld access : World BotStore (Confirmation primitives)) where
  shared := ⟨unique_nil, walletWorld_empty.shared⟩
  owned := fun _ => confirmationInvariant_of_challenge_eq_none rfl
  held := by simp [startWorld]

section Runs

variable {world next : World BotStore (Confirmation primitives)} {index : ℕ} {event : BotEvent}

theorem BotWorld.act (holds : BotWorld bot world)
    (meets : ActsOnceConsumed bot world index event)
    (acted : (botProgram isoformat signer bot).act world index event = some next) :
    BotWorld bot next := by
  rcases Program.act_eq_some_iff.mp acted with ⟨store, process, stepped, rfl⟩
  have preserves := (botTransition_of_step holds.shared.unique meets stepped).preserves
    holds.shared (holds.owned index)
  refine ⟨preserves.shared, fun other => ?_, fun challenge stored consumed => ?_⟩
  · by_cases same : other = index
    · subst same
      simpa using preserves.owned
    · simpa [Function.update_of_ne same] using
        preserves.grows.confirmationInvariant (holds.owned other)
  · rcases preserves.only challenge stored consumed with old | found
    · rcases holds.held challenge old consumed with ⟨other, found⟩
      refine ⟨other, ?_⟩
      by_cases same : other = index
      · subst same
        simpa using preserves.keeps challenge found
      · simpa [Function.update_of_ne same] using found
    · exact ⟨index, by simpa using found⟩

theorem BotWorld.run (holds : BotWorld bot world)
    (run : (botProgram isoformat signer bot).Reaches (ActsOnceConsumed bot) world next) :
    BotWorld bot next :=
  run.invariant (BotWorld bot) (fun holds meets acted => holds.act meets acted) holds

end Runs

section Commitment

variable {store : BotStore} {process : Confirmation primitives} {challenge : CallbackChallenge}

theorem challenge_of_committed (committed : process.committed = some challenge) :
    process.challenge = some challenge := by
  cases process with
  | decided => exact committed
  | creating _ creation =>
      rcases creation with ⟨call, handler⟩
      cases call with
      | returned => exact committed
      | idle | counting | awaiting | saving | stopped => cases committed
  | idle | consumed | failed | ended => cases committed

/-- A handler that is over has committed the action of its challenge. -/
theorem committed_of_not_running (owned : ConfirmationInvariant service store process)
    (ended : process.running = false) (found : process.challenge = some challenge) :
    process.committed = some challenge := by
  cases process with
  | consumed => cases ended
  | creating _ creation =>
      rcases owned.creating _ _ rfl with ⟨_, _, request, begun, _⟩
      rcases creation with ⟨call, handler⟩
      cases call with
      | returned => exact found
      | counting | awaiting | saving => cases ended
      | idle | stopped => cases begun
  | decided => exact found
  | failed => exact absurd rfl (owned.succeeds _)
  | idle | ended => cases found

theorem tookEffect_of_committed (owned : ConfirmationInvariant service store process)
    (committed : process.committed = some challenge) :
    TookEffect primitives store challenge := by
  cases process with
  | decided =>
      cases committed
      exact owned.decided _ rfl
  | creating _ creation =>
      rcases owned.creating _ _ rfl with ⟨action, own, request, begun, workspace, key⟩
      rcases creation with ⟨call, handler⟩
      cases call with
      | returned returned wallet created =>
          cases committed
          cases begun
          rcases own.call with ⟨row, row_mem, rowKey, _⟩
          simp only [TookEffect, action]
          exact ⟨request.idempotencyKey, request.keyHash, key, request.hashed, row, row_mem,
            workspace ▸ rowKey⟩
      | idle | counting | awaiting | saving | stopped => cases committed
  | idle | consumed | failed | ended => cases committed

end Commitment

/--
In every run in which handlers act once they have consumed their challenge, a
challenge is consumed exactly if its action has committed, as soon as no handler
runs; and a committed action has taken effect.
-/
theorem confirmations_consumedExactly {access : AccessDatabase}
    {world : World BotStore (Confirmation primitives)} {challenge : CallbackChallenge}
    (run : (botProgram isoformat signer bot).Reaches (ActsOnceConsumed bot) (startWorld access)
      world)
    (quiet : ∀ index, (world.process index).running = false)
    (stored : challenge ∈ world.store.challenges) :
    (challenge.consumedAt.isSome ↔ Committed world challenge) ∧
      (Committed world challenge → TookEffect primitives world.store challenge) := by
  have holds := (botWorld_start access).run run
  have owner : ∀ {index record}, (world.process index).committed = some record →
      record.tokenHash = challenge.tokenHash → record = challenge := by
    intro index record committed same
    rcases (holds.owned index).consumed record (challenge_of_committed committed) with
      ⟨record_mem, _⟩
    exact holds.shared.unique.eq_of_key_eq record_mem stored same
  refine ⟨⟨fun consumed => ?_, ?_⟩, ?_⟩
  · rcases holds.held challenge stored consumed with ⟨index, found⟩
    exact ⟨index, challenge, committed_of_not_running (holds.owned index) (quiet index) found, rfl⟩
  · rintro ⟨index, record, committed, same⟩
    rw [← owner committed same]
    exact ((holds.owned index).consumed record (challenge_of_committed committed)).2
  · rintro ⟨index, record, committed, same⟩
    rw [← owner committed same]
    exact tookEffect_of_committed (holds.owned index) committed

section Samples

/-- The text of 32 zero bytes, as `secrets.token_urlsafe` writes it. -/
def sampleToken : Text := List.replicate 43 'A'

/-- The sample hashes with the digest of the token. -/
def tokenHashes : Primitives :=
  { walletHashes with
    sha256 := fun data =>
      if data = Json.utf8 sampleToken then
        ⟨[0x0f, 0x00, 0x73, 0x85, 0xb6, 0xf9, 0xd4, 0xb7, 0xee, 0xb2, 0x74, 0x86,
          0x05, 0xaf, 0xe1, 0xa9, 0x84, 0xa0, 0xa3, 0xbf, 0xa3, 0xf0, 0x14, 0xd0,
          0x9e, 0x2a, 0x78, 0x4c, 0xe9, 0xe5, 0xcd, 0x1a], rfl⟩
      else walletHashes.sha256 data }

/-- A bot with one owner. -/
def sampleBot : Bot where
  challenges := ⟨5 * 60 * 1000000, by decide, by decide⟩
  platformOwnerIds := [1]
  wallets := sampleService
  owned := by simp

/-- The context of the owner. -/
def platformOwner : RequestContext where
  telegramUserId := 1
  chatId := 1
  chatType := privateChat
  correlationId := 7
  platformRole := some .platformOwner

/-- A challenge for the approval of the first request. -/
def sampleIssue : ChallengeService.Issue where
  action := .approveAccess
  resourceType := "access_request".toList
  resourceId := 0
  authoritativePayload := []

/-- An account requests access, and the owner confirms the approval. -/
def confirmSchedule : List (ℕ × BotEvent) :=
  [(0, .request sampleIdentity 1000), (1, .issue platformOwner sampleIssue 5 sampleToken 1000),
    (2, .confirm (some platformOwner) none ("access:v1:approve:".toList ++ sampleToken) 2000)]

/-- Nobody has asked for access. -/
def sampleStart : World BotStore (Confirmation tokenHashes) := startWorld emptyAccess

/-- The handlers that a schedule names are over, and have consumed a challenge. -/
def isOver (schedule : List (ℕ × BotEvent))
    (world : World BotStore (Confirmation tokenHashes)) : Bool :=
  (schedule.map Prod.fst).all (fun index => !(world.process index).running) &&
    world.store.challenges.any fun challenge => challenge.consumedAt.isSome

theorem quiet_of_isOver {world : World BotStore (Confirmation tokenHashes)}
    {schedule : List (ℕ × BotEvent)}
    (executed : (botProgram Json.decimal sampleSigner sampleBot).execute sampleStart schedule =
      some world)
    (ended : isOver schedule world = true) :
    (∀ index, (world.process index).running = false) ∧
      ∃ challenge ∈ world.store.challenges, challenge.consumedAt.isSome = true := by
  simp only [isOver, Bool.and_eq_true, List.all_eq_true, List.any_eq_true,
    Bool.not_eq_true'] at ended
  refine ⟨?_, ended.2⟩
  exact Program.forall_process_of_execute (fun process => process.running = false)
    executed (fun _ => rfl) ended.1

end Samples

/-- The owner's confirmation approves the request. -/
theorem sampleConfirmation_consumedExactly :
    ∃ world, (botProgram Json.decimal sampleSigner sampleBot).Reaches
        (ActsOnceConsumed sampleBot) sampleStart world ∧
      ∃ challenge ∈ world.store.challenges, Committed world challenge ∧
        TookEffect tokenHashes world.store challenge := by
  have finished : ((botProgram Json.decimal sampleSigner sampleBot).execute
      sampleStart (confirmSchedule ++ [(2, .act 3000)])).map
      (isOver (confirmSchedule ++ [(2, .act 3000)])) = some true := by
    decide +kernel
  have meets : (botProgram Json.decimal sampleSigner sampleBot).Meets
      (ActsOnceConsumed sampleBot) sampleStart (confirmSchedule ++ [(2, .act 3000)]) := by
    decide +kernel
  rcases Option.map_eq_some_iff.mp finished with ⟨world, executed, ended⟩
  rcases quiet_of_isOver executed ended with ⟨quiet, challenge, stored, consumed⟩
  have run := Program.reaches_of_execute executed meets
  rcases confirmations_consumedExactly run quiet stored with ⟨exactly, took⟩
  have committed := exactly.mp consumed
  exact ⟨world, run, challenge, stored, committed, took committed⟩

/-- The owner's confirmation is spent by a handler that is killed before it approves. -/
theorem killedConfirmation_consumedInVain :
    ¬∀ world, (botProgram Json.decimal sampleSigner sampleBot).Reaches Unrestricted
        sampleStart world →
      (∀ index, (world.process index).running = false) →
      ∀ challenge ∈ world.store.challenges,
        challenge.consumedAt.isSome ↔ Committed world challenge := by
  intro claimed
  let schedule := confirmSchedule ++ [(2, .crash)]
  have finished : ((botProgram Json.decimal sampleSigner sampleBot).execute
      sampleStart schedule).map
      (fun world => isOver schedule world &&
        (schedule.map Prod.fst).all fun index => (world.process index).committed.isNone) =
        some true := by
    decide +kernel
  rcases Option.map_eq_some_iff.mp finished with ⟨world, executed, finished⟩
  simp only [Bool.and_eq_true, List.all_eq_true, Option.isNone_iff_eq_none] at finished
  rcases quiet_of_isOver executed finished.1 with ⟨quiet, challenge, stored, consumed⟩
  have run := Program.reaches_of_execute executed (Program.meets_unrestricted _ _)
  rcases (claimed world run quiet challenge stored).mp consumed with ⟨index, record, committed, _⟩
  have uncommitted := Program.forall_process_of_execute
    (fun process => process.committed = none) executed (fun _ => rfl) finished.2 index
  cases uncommitted.symm.trans committed

end CopyMint
