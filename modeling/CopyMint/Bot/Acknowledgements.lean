import CopyMint.Bot.MediatedUpdates

/-!
# Every update is answered

Whatever its calls return or raise, the handling of an update answers the sender before it tells
anyone else, and it does not come to an end without an answer. A callback query has one answer,
which is given after everything that the callback is to do.
-/

namespace CopyMint

open Hexadecimal Interleaving Contract Interaction

section Turns

/-- A call that tells nobody anything. -/
def BotCall.isSilent : BotCall → Bool
  | .telegram _ => false
  | _ => true

/-- The call answers a callback query. -/
def BotCall.answersCallback : BotCall → Bool
  | .telegram (.answerCallback _) => true
  | _ => false

/-- A request to Telegram that is not an answer. -/
def BotCall.isNotice : BotCall → Bool
  | .telegram (.sendMessage _ _ _) | .telegram (.editMessageText _ _ _) => true
  | _ => false

/-- The call answers an update of its kind. -/
def BotCall.answers : BotCall → BotUpdate → Bool
  | .telegram (.answerMessage _ _), .message _ _ _ _ => true
  | .telegram (.answerCallback _), .callbackQuery _ _ _ => true
  | _, _ => false

/-- The sender of the update has got an answer. -/
def IsAnswered (update : BotUpdate) (history : BotHistory) : Prop :=
  ∃ call answer, call.answers update = true ∧ Returned history call answer

/-- No answer to a callback query has been attempted. -/
def NoCallbackAnswered (history : BotHistory) : Prop :=
  ∀ exchange ∈ history, exchange.call.answersCallback = false

/-- When a call has its turn in the handling of an update. -/
def HasTurn (dispatcher : Dispatcher) (update : BotUpdate) (history : BotHistory)
    (call : BotCall) : Prop :=
  (dispatcher.handler update).isSome = true ∧
    if call.isNotice then IsAnswered update history
    else NoCallbackAnswered history ∧ (call.isSilent = true ∨ call.answers update = true)

/-- Nothing is assumed about what calls do or return. -/
def acknowledgement (Store : Type) (dispatcher : Dispatcher) :
    Contract Store BotUpdate BotCall BotAnswer BotFailure where
  later _ _ := True
  allowed update _ history call := HasTurn dispatcher update history call
  answered _ _ _ := True
  refl _ := trivial
  trans _ _ := trivial
  allowed_later _ turn := turn
  answered_later _ _ := trivial

end Turns

section Silence

/-- An action that tells nobody anything. -/
abbrev Silent {α : Type} (action : BotAction α) : Prop :=
  action.Only fun call => call.isSilent = true

variable {dispatcher : Dispatcher} {α : Type}

theorem silent_pure (value : α) : Silent (pure value : BotAction α) := trivial

theorem silent_ask {call : BotCall} (silent : call.isSilent = true) : Silent (ask call) :=
  only_ofCall silent

theorem silent_demand (result : Except AccessError α) : Silent (demand result) :=
  only_ofExcept _

theorem silent_evaluate (result : Except Raised α) : Silent (evaluate result) :=
  only_ofExcept _

theorem only_of_silent {action : BotAction α} (silent : Silent action) :
    action.Only fun call => call.answersCallback = false := by
  apply silent.mono
  intro call quiet
  cases call with
  | telegram => cases quiet
  | _ => rfl

theorem silent_resolveContext (identity : TelegramIdentity) :
    Silent (dispatcher.resolveContext identity) := by
  apply only_bind (silent_demand _)
  intro _
  apply only_bind (silent_ask rfl)
  intro correlationId
  apply only_bind (silent_ask rfl)
  intro principal
  cases principal with
  | none =>
      dsimp only
      split_ifs
      · exact only_bind (silent_ask rfl) fun _ => silent_pure _
      · apply only_bind (silent_ask rfl)
        intro latest
        split_ifs <;> exact silent_demand _
  | some principal =>
      dsimp only
      split_ifs
      · exact silent_demand _
      · exact silent_demand _
      · exact silent_pure _
      · exact silent_pure _

theorem silent_latestOfInactive (identity : TelegramIdentity) :
    Silent (Dispatcher.latestOfInactive identity) := by
  apply only_bind (silent_demand _)
  intro _
  apply only_bind (silent_ask rfl)
  intro principal
  split_ifs
  · exact silent_pure _
  · exact only_bind (silent_ask rfl) fun _ => silent_pure _

theorem silent_requestAccess (identity : TelegramIdentity) :
    Silent (Dispatcher.requestAccess identity) := by
  apply only_bind (silent_latestOfInactive identity)
  intro found
  cases found with
  | none => exact silent_pure _
  | some latest =>
      apply only_bind (silent_ask rfl)
      intro now
      dsimp only
      split
      · exact silent_pure _
      · split
        · exact silent_pure _
        · exact only_bind (silent_ask rfl) fun _ => silent_pure _

theorem silent_accessStatus (identity : TelegramIdentity) :
    Silent (Dispatcher.accessStatus identity) := by
  apply only_bind (silent_latestOfInactive identity)
  intro found
  match found with
  | none | some none | some (some _) => exact silent_pure _

theorem silent_pendingRequests (actor : RequestContext) :
    Silent (Dispatcher.pendingRequests actor) :=
  only_bind (silent_demand _) fun _ => silent_ask rfl

theorem silent_issue (actor : RequestContext) (values : ChallengeService.Issue) :
    Silent (dispatcher.issue actor values) := by
  apply only_bind (silent_demand _)
  intro _
  apply only_bind (silent_ask rfl)
  intro bytes
  apply only_bind (silent_evaluate _)
  intro tokenHash
  apply only_bind (silent_ask rfl)
  intro now
  exact only_bind (silent_ask rfl) fun _ => silent_pure _

theorem silent_consume (actor : RequestContext) (token : Text) (action : ChallengeAction) :
    Silent (dispatcher.consume actor token action) := by
  apply only_bind (silent_demand _)
  intro _
  apply only_bind (silent_ask rfl)
  intro now
  apply only_bind (silent_evaluate _)
  intro tokenHash
  apply only_bind (silent_ask rfl)
  intro record
  cases record with
  | none => exact silent_demand _
  | some record => exact silent_pure _

theorem silent_approve (actor : RequestContext) (requestId : ℕ) :
    Silent (Dispatcher.approve actor requestId) :=
  only_bind (silent_demand _) fun _ => only_bind (silent_ask rfl) fun _ => silent_ask rfl

theorem silent_reject (actor : RequestContext) (requestId : ℕ) :
    Silent (Dispatcher.reject actor requestId) :=
  only_bind (silent_demand _) fun _ => only_bind (silent_ask rfl) fun _ => silent_ask rfl

theorem silent_revoke (actor : RequestContext) (target : ℤ) :
    Silent (dispatcher.revoke actor target) := by
  apply only_bind (silent_demand _)
  intro _
  split_ifs
  · exact silent_demand _
  · exact only_bind (silent_ask rfl) fun _ => silent_ask rfl

theorem silent_decide (context : RequestContext) (challenge : CallbackChallenge)
    (action : ChallengeAction) : Silent (dispatcher.decide context challenge action) := by
  cases action with
  | approveAccess => exact only_bind (silent_approve _ _) fun _ => silent_pure _
  | rejectAccess => exact only_bind (silent_reject _ _) fun _ => silent_pure _
  | revokeAccess | createWallet =>
      simp only [Dispatcher.decide]
      split
      · exact silent_demand _
      · exact only_bind (silent_revoke context _) fun _ => silent_pure _

theorem silent_confirmedDecision (data : HandlerData) (callback : Text) :
    Silent (dispatcher.confirmedDecision data callback) := by
  apply only_bind (silent_demand _)
  intro context
  apply only_bind (silent_demand _)
  rintro ⟨action, token⟩
  apply only_bind (silent_consume context token action)
  intro challenge
  exact silent_decide context challenge action

theorem silent_createWallet (context : RequestContext) (idempotencyKey : Text) :
    Silent (dispatcher.createWallet context idempotencyKey) := by
  apply only_bind (silent_demand _)
  intro workspaceId
  cases context.userId with
  | none => exact silent_demand _
  | some userId =>
      apply only_bind (silent_evaluate _)
      intro keyHash
      apply only_bind (silent_ask rfl)
      intro existing
      cases existing with
      | some existing => exact silent_pure _
      | none =>
          apply only_bind (silent_ask rfl)
          intro count
          split_ifs
          · exact silent_demand _
          · apply only_bind (silent_ask rfl)
            intro result
            split_ifs
            · exact silent_evaluate _
            · exact only_bind (silent_evaluate _) fun _ => silent_ask rfl

theorem silent_listWallets (context : RequestContext) :
    Silent (dispatcher.listWallets context) := by
  apply only_bind (silent_demand _)
  intro workspaceId
  apply only_bind (silent_ask rfl)
  intro wallets
  split_ifs
  · apply only_bind
    · apply only_forEach
      intro wallet _
      exact only_bind (only_attempt (silent_ask rfl)) fun _ => silent_pure _
    · exact fun _ => silent_pure _
  · exact silent_pure _

theorem silent_queueScan (workspaceId collectionId : ℕ) :
    Silent (Dispatcher.queueScan workspaceId collectionId) :=
  only_bind (only_attempt (silent_ask rfl)) fun _ => silent_pure _

theorem silent_addCollection (context : RequestContext) (address : Text) (label : Option Text) :
    Silent (dispatcher.addCollection context address label) := by
  apply only_bind (silent_demand _)
  intro workspaceId
  cases context.userId with
  | none => exact silent_demand _
  | some userId =>
      apply only_bind (only_ofExcept _)
      intro checksum
      apply only_bind (only_ofExcept _)
      intro label
      apply only_bind (silent_ask rfl)
      rintro ⟨collection, created⟩
      exact only_bind (silent_queueScan _ _) fun _ => silent_pure _

theorem silent_requestScan (context : RequestContext) (address : Text) :
    Silent (dispatcher.requestScan context address) := by
  apply only_bind (silent_demand _)
  intro workspaceId
  apply only_bind (only_ofExcept _)
  intro checksum
  apply only_bind (silent_ask rfl)
  intro found
  cases found with
  | none => trivial
  | some collection => exact only_bind (silent_queueScan _ _) fun _ => silent_pure _

theorem silent_listCollections (context : RequestContext) :
    Silent (Dispatcher.listCollections context) :=
  only_bind (silent_demand _) fun _ => silent_ask rfl

theorem silent_requireIdentity (data : HandlerData) : Silent (Dispatcher.requireIdentity data) := by
  simp only [Dispatcher.requireIdentity]
  split
  · exact silent_pure _
  · exact silent_demand _

theorem silent_ownerKeyboard (requestId : ℕ) (ownerId : ℤ) :
    Silent (dispatcher.ownerKeyboard requestId ownerId) := by
  apply only_bind (silent_ask rfl)
  intro correlationId
  apply only_bind (silent_issue _ _)
  intro approval
  apply only_bind (silent_issue _ _)
  intro rejection
  apply only_bind (silent_evaluate _)
  intro approvalData
  exact only_bind (silent_evaluate _) fun _ => silent_pure _

end Silence

section Rules

variable {Store : Type} {dispatcher : Dispatcher} {update : BotUpdate} {store : Store}
  {history : BotHistory} {known : BotHistory → Prop} {α β : Type}

/-- An action takes its turns, and so much is known of the history where it returns. -/
abbrev Acknowledges (dispatcher : Dispatcher) (update : BotUpdate) (action : BotAction α)
    (known : BotHistory → Prop) (store : Store) (history : BotHistory) : Prop :=
  (acknowledgement Store dispatcher).Ensures update action
    (Returning fun _ later _ => known later) store history

theorem NoCallbackAnswered.append {exchange : Exchange BotCall BotAnswer BotFailure}
    (untouched : NoCallbackAnswered history) (other : exchange.call.answersCallback = false) :
    NoCallbackAnswered (history ++ [exchange]) := by
  intro made made_mem
  rcases List.mem_append.mp made_mem with old | new
  · exact untouched made old
  · rw [List.mem_singleton.mp new]
    exact other

theorem IsAnswered.append (answered : IsAnswered update history)
    (exchange : Exchange BotCall BotAnswer BotFailure) :
    IsAnswered update (history ++ [exchange]) := by
  rcases answered with ⟨call, answer, answers, returned⟩
  exact ⟨call, answer, answers, List.mem_append_left _ returned⟩

/-- After an answer, others may be told. -/
theorem notices_acknowledge {action : BotAction α}
    (handled : (dispatcher.handler update).isSome = true)
    (notices : action.Only fun call => call.isNotice = true)
    (answered : IsAnswered update history) :
    Acknowledges dispatcher update action (IsAnswered update) store history := by
  refine (Ensures.of_only ?_ ?_ notices answered).mono fun holds _ _ => holds
  · intro _ later call answered notice
    refine ⟨handled, ?_⟩
    rw [if_pos notice]
    exact answered
  · intro later call result answered _
    exact answered.append _

/-- Before an answer, anything may be done in silence. -/
theorem silent_andThen {action : BotAction α} {next : α → BotAction β}
    (handled : (dispatcher.handler update).isSome = true) (silent : Silent action)
    (untouched : NoCallbackAnswered history)
    (continues : ∀ {store' : Store} {later} value, NoCallbackAnswered later →
      Acknowledges dispatcher update (next value) known store' later) :
    Acknowledges dispatcher update (action >>= next) known store history := by
  have does : (acknowledgement Store dispatcher).Ensures update action
      (fun _ later _ => NoCallbackAnswered later) store history := by
    refine Ensures.of_only ?_ ?_ silent untouched
    · intro _ later call untouched silent
      refine ⟨handled, ?_⟩
      split_ifs with notice
      · cases call with
        | telegram => cases silent
        | _ => cases notice
      · exact ⟨untouched, .inl silent⟩
    · intro later call result untouched silent
      apply untouched.append
      cases call with
      | telegram => cases silent
      | _ => rfl
  apply Ensures.bind
  apply does.mono
  intro store' later result untouched
  cases result with
  | ok value => exact continues value untouched
  | error failure =>
      intro value returned
      cases returned

theorem fail_acknowledges (failure : BotFailure) :
    Acknowledges dispatcher update (Interaction.fail failure : BotAction α) known store
      history := by
  intro store' _ value returned
  cases returned

theorem evaluate_acknowledges {result : Except Raised α} {next : α → BotAction β}
    (continues : ∀ value, Acknowledges dispatcher update (next value) known store history) :
    Acknowledges dispatcher update (evaluate result >>= next) known store history :=
  Ensures.ofExcept_andThen fun value _ => continues value

/-- An access error is answered, and everything else goes on or is raised. -/
theorem answering_acknowledges {answer : Text → BotAction Unit} {body : BotAction α}
    {next : α → BotAction Unit} (handled : (dispatcher.handler update).isSome = true)
    (silent : Silent body) (untouched : NoCallbackAnswered history)
    (answers : ∀ {store' : Store} {later} text, NoCallbackAnswered later →
      Acknowledges dispatcher update (answer text) known store' later)
    (continues : ∀ {store' : Store} {later} value, NoCallbackAnswered later →
      Acknowledges dispatcher update (next value) known store' later) :
    Acknowledges dispatcher update (Dispatcher.answering answer body next) known store
      history := by
  apply silent_andThen handled (only_attempt silent) untouched
  intro store' later result untouched
  cases result with
  | ok value => exact continues value untouched
  | error failure =>
      dsimp only
      split
      · exact answers _ untouched
      · exact fail_acknowledges failure

theorem telegram_acknowledges {request : TelegramRequest}
    (handled : (dispatcher.handler update).isSome = true)
    (answers : (BotCall.telegram request).answers update = true)
    (untouched : NoCallbackAnswered history) :
    Acknowledges dispatcher update (telegram request) (IsAnswered update) store history := by
  refine Ensures.ofCall ⟨handled, ?_⟩ ?_
  · split_ifs with notice
    · cases request with
      | answerMessage | answerCallback => cases notice
      | sendMessage | editMessageText => cases update <;> cases answers
    · exact ⟨untouched, .inr answers⟩
  · intro store' result _ _ answer returned
    subst returned
    exact ⟨_, answer, answers, List.mem_append_right _ (List.mem_singleton_self _)⟩

end Rules

section Callbacks

variable {Store : Type} {dispatcher : Dispatcher} {store : Store} {history : BotHistory}
  {data : HandlerData} {fromUser : TelegramUser} {origin : Option (TelegramChat × ℤ)}
  {sent : Option Text}
  (handled : (dispatcher.handler (.callbackQuery fromUser origin sent)).isSome = true)
  (untouched : NoCallbackAnswered history)

theorem notice_editOrigin (text : Text) :
    (Dispatcher.editOrigin origin text).Only fun call => call.isNotice = true := by
  cases origin with
  | none => trivial
  | some place => exact only_ofCall rfl

include handled untouched

/-- What follows the answer to a callback tells others. -/
theorem answerCallback_andThen {text : Text} {next : Unit → BotAction Unit}
    (notices : ∀ value, (next value).Only fun call => call.isNotice = true) :
    Acknowledges dispatcher (.callbackQuery fromUser origin sent)
      (Dispatcher.answerCallback text >>= next) (IsAnswered (.callbackQuery fromUser origin sent))
      store history := by
  have answers : Acknowledges dispatcher (.callbackQuery fromUser origin sent)
      (Dispatcher.answerCallback text) (IsAnswered (.callbackQuery fromUser origin sent)) store
        history :=
    telegram_acknowledges handled rfl untouched
  apply answers.andThen
  intro store' later value _ _ answered
  exact notices_acknowledge handled (notices value) answered

theorem accessCallbackHandler_acknowledges (callback : Text) :
    Acknowledges dispatcher (.callbackQuery fromUser origin sent)
      (dispatcher.accessCallbackHandler data origin callback)
      (IsAnswered (.callbackQuery fromUser origin sent)) store history := by
  apply answering_acknowledges handled (silent_confirmedDecision data callback) untouched
  · intro store' later text untouched
    exact telegram_acknowledges handled rfl untouched
  · intro store' later reply untouched
    apply answerCallback_andThen handled untouched
    intro _
    exact only_bind (only_ofCall rfl) fun _ => notice_editOrigin _

theorem createWalletCallbackHandler_acknowledges (callback : Text) :
    Acknowledges dispatcher (.callbackQuery fromUser origin sent)
      (dispatcher.createWalletCallbackHandler data origin callback)
      (IsAnswered (.callbackQuery fromUser origin sent)) store history := by
  apply answering_acknowledges handled ?_ untouched
  · intro store' later text untouched
    exact telegram_acknowledges handled rfl untouched
  · rintro store' later ⟨wallet, created⟩ untouched
    apply answerCallback_andThen handled untouched
    exact fun _ => notice_editOrigin _
  · apply only_bind (silent_demand _)
    intro context
    apply only_bind (silent_consume _ _ _)
    intro challenge
    apply only_bind (silent_demand _)
    intro workspaceId
    split_ifs
    · exact silent_demand _
    · split
      · exact silent_demand _
      · exact silent_createWallet _ _

end Callbacks

section Messages

variable {Store : Type} {dispatcher : Dispatcher} {store : Store} {history : BotHistory}
  {data : HandlerData} {fromUser : Option TelegramUser} {chat : TelegramChat}
  {sent caption : Option Text} {α : Type}
  (handled : (dispatcher.handler (.message fromUser chat sent caption)).isSome = true)
  (untouched : NoCallbackAnswered history)
include handled untouched

/-- Once a message is answered, it may be answered again, and others may be told. -/
theorem others_acknowledge {action : BotAction α}
    (others : action.Only fun call => call.answersCallback = false)
    (answered : IsAnswered (.message fromUser chat sent caption) history) :
    Acknowledges dispatcher (.message fromUser chat sent caption) action
      (IsAnswered (.message fromUser chat sent caption)) store history := by
  have does : (acknowledgement Store dispatcher).Ensures (.message fromUser chat sent caption)
      action (fun _ later _ => IsAnswered (.message fromUser chat sent caption) later ∧
        NoCallbackAnswered later) store history := by
    refine Ensures.of_only ?_ ?_ others ⟨answered, untouched⟩
    · rintro _ later call ⟨answered, untouched⟩ other
      refine ⟨handled, ?_⟩
      split_ifs with notice
      · exact answered
      · refine ⟨untouched, ?_⟩
        cases call with
        | telegram request =>
            cases request with
            | answerMessage => exact .inr rfl
            | answerCallback => cases other
            | sendMessage | editMessageText => exact absurd rfl notice
        | _ => exact .inl rfl
    · rintro later call result ⟨answered, untouched⟩ other
      exact ⟨answered.append _, untouched.append other⟩
  exact does.mono fun holds _ _ => holds.1

theorem telegram_answerMessage {text : Text} {buttons : List (Text × Text)} :
    Acknowledges dispatcher (.message fromUser chat sent caption)
      (telegram (.answerMessage text buttons))
      (fun later => IsAnswered (.message fromUser chat sent caption) later ∧
        NoCallbackAnswered later) store history := by
  refine Ensures.ofCall ⟨handled, untouched, .inr rfl⟩ ?_
  intro store' result _ _ answer returned
  subst returned
  refine ⟨⟨.telegram (.answerMessage text buttons), answer, rfl, ?_⟩, untouched.append rfl⟩
  exact List.mem_append_right _ (List.mem_singleton_self _)

omit untouched in
/-- Whatever follows an answer to a message leaves it answered. -/
theorem answerMessage_andThen {action : BotAction Unit} {next : Unit → BotAction Unit}
    (answers : Acknowledges dispatcher (.message fromUser chat sent caption) action
      (fun later => IsAnswered (.message fromUser chat sent caption) later ∧
        NoCallbackAnswered later) store history)
    (others : ∀ value, (next value).Only fun call => call.answersCallback = false) :
    Acknowledges dispatcher (.message fromUser chat sent caption) (action >>= next)
      (IsAnswered (.message fromUser chat sent caption)) store history := by
  apply answers.andThen
  rintro store' later value _ _ ⟨answered, untouched⟩
  exact others_acknowledge handled untouched (others value) answered

theorem answerMessage_acknowledges (text : Text) :
    Acknowledges dispatcher (.message fromUser chat sent caption) (Dispatcher.answerMessage text)
      (IsAnswered (.message fromUser chat sent caption)) store history :=
  telegram_acknowledges handled rfl untouched

/-- A command that does its work in silence and then answers once. -/
theorem command_acknowledges {body : BotAction α} {text : α → Text} (silent : Silent body) :
    Acknowledges dispatcher (.message fromUser chat sent caption)
      (Dispatcher.answering Dispatcher.answerMessage body
        fun value => Dispatcher.answerMessage (text value))
      (IsAnswered (.message fromUser chat sent caption)) store history := by
  apply answering_acknowledges handled silent untouched
  · intro store' later text untouched
    exact answerMessage_acknowledges handled untouched text
  · intro store' later value untouched
    exact answerMessage_acknowledges handled untouched (text value)

theorem start_acknowledges :
    Acknowledges dispatcher (.message fromUser chat sent caption) (dispatcher.start data)
      (IsAnswered (.message fromUser chat sent caption)) store history := by
  apply answering_acknowledges handled ?_ untouched
  · intro store' later text untouched
    exact answerMessage_acknowledges handled untouched text
  · rintro store' later ⟨identity, outcome⟩ untouched
    dsimp only
    split_ifs
    · exact answerMessage_acknowledges handled untouched _
    · exact answerMessage_acknowledges handled untouched _
    · apply answerMessage_andThen handled (telegram_answerMessage handled untouched)
      intro _
      split
      · apply only_forEach
        intro ownerId _
        apply only_bind (only_of_silent (silent_ownerKeyboard _ _))
        exact fun _ => only_ofCall rfl
      · trivial
  · apply only_bind (silent_requireIdentity data)
    intro identity
    exact only_bind (silent_requestAccess identity) fun _ => silent_pure _

/-- There is at least one request to be shown, and each is shown with an answer. -/
theorem adminRequests_acknowledges :
    Acknowledges dispatcher (.message fromUser chat sent caption) (dispatcher.adminRequests data)
      (IsAnswered (.message fromUser chat sent caption)) store history := by
  apply answering_acknowledges handled ?_ untouched
  · intro store' later text untouched
    exact answerMessage_acknowledges handled untouched text
  · rintro store' later ⟨context, pending⟩ untouched
    cases pending with
    | nil => exact answerMessage_acknowledges handled untouched _
    | cons request others =>
        dsimp only
        rw [if_neg (List.cons_ne_nil request others)]
        refine answerMessage_andThen handled ?_ fun _ => ?_
        · apply silent_andThen handled (silent_ownerKeyboard _ _) untouched
          exact fun keyboard untouched => telegram_answerMessage handled untouched
        · apply only_forEach
          intro other _
          apply only_bind (only_of_silent (silent_ownerKeyboard _ _))
          exact fun _ => only_ofCall rfl
  · apply only_bind (silent_demand _)
    intro context
    exact only_bind (silent_pendingRequests context) fun _ => silent_pure _

theorem adminRevokeCommand_acknowledges (text : Text) :
    Acknowledges dispatcher (.message fromUser chat sent caption)
      (dispatcher.adminRevokeCommand data text)
      (IsAnswered (.message fromUser chat sent caption)) store history := by
  apply answering_acknowledges handled ?_ untouched
  · intro store' later text untouched
    exact answerMessage_acknowledges handled untouched text
  · rintro store' later (_ | ⟨targetId, token⟩) untouched
    · exact answerMessage_acknowledges handled untouched _
    · apply evaluate_acknowledges
      intro data
      exact telegram_acknowledges handled rfl untouched
  · apply only_bind (silent_demand _)
    intro context
    apply only_bind (silent_demand _)
    intro _
    apply only_bind (silent_evaluate _)
    intro target
    cases target with
    | none => exact silent_pure _
    | some targetId =>
        apply only_bind (silent_ask rfl)
        intro resourceId
        exact only_bind (silent_issue _ _) fun _ => silent_pure _

theorem createWalletCommand_acknowledges :
    Acknowledges dispatcher (.message fromUser chat sent caption)
      (dispatcher.createWalletCommand data)
      (IsAnswered (.message fromUser chat sent caption)) store history := by
  apply answering_acknowledges handled ?_ untouched
  · intro store' later text untouched
    exact answerMessage_acknowledges handled untouched text
  · intro store' later token untouched
    apply evaluate_acknowledges
    intro data
    exact telegram_acknowledges handled rfl untouched
  · apply only_bind (silent_demand _)
    intro context
    apply only_bind (silent_demand _)
    intro workspaceId
    apply only_bind (silent_ask rfl)
    intro idempotencyId
    exact silent_issue _ _

theorem addCollectionCommand_acknowledges (text : Text) :
    Acknowledges dispatcher (.message fromUser chat sent caption)
      (dispatcher.addCollectionCommand data text)
      (IsAnswered (.message fromUser chat sent caption)) store history := by
  simp only [Dispatcher.addCollectionCommand]
  split_ifs
  · exact answerMessage_acknowledges handled untouched _
  · apply command_acknowledges handled untouched
    exact only_bind (silent_demand _) fun context => silent_addCollection context _ _

theorem scanCollectionCommand_acknowledges (text : Text) :
    Acknowledges dispatcher (.message fromUser chat sent caption)
      (dispatcher.scanCollectionCommand data text)
      (IsAnswered (.message fromUser chat sent caption)) store history := by
  simp only [Dispatcher.scanCollectionCommand]
  split_ifs
  · exact answerMessage_acknowledges handled untouched _
  · apply command_acknowledges handled untouched
    exact only_bind (silent_demand _) fun context => silent_requestScan context _

/-- Every command is answered. -/
theorem commandHandler_acknowledges {name text : Text} {handler : HandlerData → BotAction Unit}
    (routed : dispatcher.commandHandler name text = some handler) :
    Acknowledges dispatcher (.message fromUser chat sent caption) (handler data)
      (IsAnswered (.message fromUser chat sent caption)) store history := by
  simp only [Dispatcher.commandHandler] at routed
  split_ifs at routed <;> cases routed
  · exact start_acknowledges handled untouched
  · apply command_acknowledges handled untouched
    exact only_bind (silent_requireIdentity data) fun identity => silent_accessStatus identity
  · exact answerMessage_acknowledges handled untouched _
  · exact adminRequests_acknowledges handled untouched
  · exact adminRevokeCommand_acknowledges handled untouched text
  · exact createWalletCommand_acknowledges handled untouched
  · apply command_acknowledges handled untouched
    exact only_bind (silent_demand _) fun context => silent_listWallets context
  · exact addCollectionCommand_acknowledges handled untouched text
  · exact scanCollectionCommand_acknowledges handled untouched text
  · apply command_acknowledges handled untouched
    exact only_bind (silent_demand _) fun context => silent_listCollections context

end Messages

section Runs

variable {Store : Type} {dispatcher : Dispatcher} {update : BotUpdate} {store : Store}
  {history : BotHistory} {data : HandlerData}
  (handled : (dispatcher.handler update).isSome = true)
include handled

theorem rejectUpdate_acknowledges {decision : RateLimitDecision}
    (untouched : NoCallbackAnswered history) :
    Acknowledges dispatcher update (Dispatcher.rejectUpdate update.event decision)
      (IsAnswered update) store history := by
  cases update with
  | message => exact answerMessage_acknowledges handled untouched _
  | callbackQuery => exact telegram_acknowledges handled rfl untouched

/-- Whatever the routers choose answers the update. -/
theorem handler_acknowledges {handler : HandlerData → BotAction Unit}
    (routed : dispatcher.handler update = some handler) (untouched : NoCallbackAnswered history) :
    Acknowledges dispatcher update (handler data) (IsAnswered update) store history := by
  cases update with
  | message fromUser chat text caption =>
      rcases Option.bind_eq_some_iff.mp routed with ⟨filtered, _, routed⟩
      rcases Option.bind_eq_some_iff.mp routed with ⟨name, _, routed⟩
      exact commandHandler_acknowledges handled untouched routed
  | callbackQuery fromUser origin sent =>
      rcases Option.bind_eq_some_iff.mp routed with ⟨callback, _, routed⟩
      simp only [Dispatcher.callbackHandler] at routed
      split_ifs at routed <;> cases routed
      · exact accessCallbackHandler_acknowledges handled untouched callback
      · exact createWalletCallbackHandler_acknowledges handled untouched callback

variable {handler : HandlerData → BotAction Unit}
  (answers : ∀ {store : Store} {history data}, NoCallbackAnswered history →
    Acknowledges dispatcher update (handler data) (IsAnswered update) store history)
include answers

/-- A limit that is exceeded is answered as well. -/
theorem rateLimit_acknowledges (untouched : NoCallbackAnswered history) :
    Acknowledges dispatcher update (dispatcher.rateLimit update.event handler data)
      (IsAnswered update) store history := by
  cases given : data.telegramIdentity with
  | none =>
      simp only [Dispatcher.rateLimit, given]
      exact answers untouched
  | some identity =>
      simp only [Dispatcher.rateLimit, given]
      apply silent_andThen handled (silent_ask rfl) untouched
      intro store' later decision untouched
      split_ifs
      · cases data.requestContext.bind RequestContext.workspaceId with
        | none => exact answers untouched
        | some workspaceId =>
            apply silent_andThen handled (silent_ask rfl) untouched
            intro store' later decision untouched
            split_ifs
            · exact answers untouched
            · exact rejectUpdate_acknowledges handled untouched
      · exact rejectUpdate_acknowledges handled untouched

theorem authorization_acknowledges :
    Acknowledges dispatcher update (dispatcher.authorization update.event
      (dispatcher.rateLimit update.event handler)) (IsAnswered update) store [] := by
  have untouched : NoCallbackAnswered [] := by simp [NoCallbackAnswered]
  have goes {later : BotHistory} (data : HandlerData) (untouched : NoCallbackAnswered later)
      {store : Store} : Acknowledges dispatcher update
        (dispatcher.rateLimit update.event handler data) (IsAnswered update) store later :=
    rateLimit_acknowledges handled answers untouched
  cases sender : identityFromEvent update.event with
  | none =>
      simp only [Dispatcher.authorization, sender]
      exact goes _ untouched
  | some identity =>
      simp only [Dispatcher.authorization, sender]
      apply silent_andThen handled (only_attempt (silent_resolveContext identity)) untouched
      intro store' later resolved untouched
      cases resolved with
      | ok context => exact goes _ untouched
      | error failure =>
          cases failure with
          | access error =>
              dsimp only
              split_ifs
              · exact goes _ untouched
              · apply silent_andThen handled (silent_ask rfl) untouched
                intro store' later correlationId untouched
                apply silent_andThen handled (silent_ask rfl) untouched
                exact fun _ untouched => goes _ untouched
          | _ => exact fail_acknowledges _

omit handled answers in
/-- An update that a handler takes is answered wherever its handling returns. -/
theorem handle_acknowledges (dispatcher : Dispatcher) (update : BotUpdate) (store : Store) :
    (acknowledgement Store dispatcher).Ensures update (dispatcher.handle update)
      (fun _ later result => result = .ok () → (dispatcher.handler update).isSome = true →
        IsAnswered update later) store [] := by
  simp only [Dispatcher.handle]
  split
  · rename_i ignored
    intro _ _ _ handled
    rw [ignored] at handled
    cases handled
  · rename_i handler routed
    have handled : (dispatcher.handler update).isSome = true := by rw [routed]; rfl
    have acknowledges : Acknowledges dispatcher update (dispatcher.authorization update.event
        (dispatcher.rateLimit update.event handler)) (IsAnswered update) store [] :=
      authorization_acknowledges handled fun untouched =>
        handler_acknowledges handled routed untouched
    exact acknowledges.mono fun holds returned _ => holds () returned

end Runs

section Sessions

/-- What has been done for an update, and the order in which it was done. -/
structure AnsweredInOrder (dispatcher : Dispatcher) (update : BotUpdate) (history : BotHistory) :
    Prop where
  handled : history ≠ [] → (dispatcher.handler update).isSome = true
  once : history.countP (fun exchange => exchange.call.answersCallback) ≤ 1
  /-- After the answer to a callback, others are told, and nothing else is done. -/
  settled : ∀ before exchange after, history = before ++ exchange :: after →
    exchange.call.answersCallback = true → ∀ later ∈ after, later.call.isNotice = true
  /-- Others are told after the sender has been answered. -/
  senderFirst : ∀ before exchange, before ++ [exchange] <+: history →
    exchange.call.isNotice = true → IsAnswered update before

variable {dispatcher : Dispatcher} {update : BotUpdate} {history : BotHistory}

/-- The calls of a history had their turns. -/
def TurnsTaken (dispatcher : Dispatcher) (update : BotUpdate) (history : BotHistory) : Prop :=
  ∀ before exchange, before ++ [exchange] <+: history →
    HasTurn dispatcher update before exchange.call

theorem HasTurn.answered {call : BotCall} (turn : HasTurn dispatcher update history call)
    (notice : call.isNotice = true) : IsAnswered update history := by
  have told := turn.2
  rwa [if_pos notice] at told

theorem HasTurn.untouched {call : BotCall} (turn : HasTurn dispatcher update history call)
    (other : ¬call.isNotice = true) : NoCallbackAnswered history := by
  have done := turn.2
  rw [if_neg other] at done
  exact done.1

theorem BotCall.not_isNotice_of_answersCallback {call : BotCall}
    (answers : call.answersCallback = true) : ¬call.isNotice = true := by
  cases call with
  | telegram request => cases request <;> simp_all [isNotice, answersCallback]
  | _ => cases answers

theorem TurnsTaken.init {exchange : Exchange BotCall BotAnswer BotFailure}
    (taken : TurnsTaken dispatcher update (history ++ [exchange])) :
    TurnsTaken dispatcher update history :=
  fun before other made => taken before other (made.trans (List.prefix_append _ _))

/-- An answer to a callback has its turn before all others only. -/
theorem TurnsTaken.once (taken : TurnsTaken dispatcher update history) :
    history.countP (fun exchange => exchange.call.answersCallback) ≤ 1 := by
  induction history using List.reverseRecOn with
  | nil => simp
  | append_singleton earlier exchange ih =>
      rw [List.countP_append, List.countP_singleton]
      split_ifs with answers
      · have turn := taken earlier exchange List.prefix_rfl
        have untouched := turn.untouched (BotCall.not_isNotice_of_answersCallback answers)
        have absent : earlier.countP (fun made => made.call.answersCallback) = 0 := by
          rw [List.countP_eq_zero]
          intro made made_mem
          simp [untouched made made_mem]
        omega
      · exact ih taken.init

theorem TurnsTaken.settled (taken : TurnsTaken dispatcher update history)
    {before after : BotHistory} {exchange later : Exchange BotCall BotAnswer BotFailure}
    (split : history = before ++ exchange :: after)
    (answers : exchange.call.answersCallback = true) (later_mem : later ∈ after) :
    later.call.isNotice = true := by
  rcases List.append_of_mem later_mem with ⟨between, rest, rfl⟩
  have made : (before ++ exchange :: between) ++ [later] <+: history :=
    ⟨rest, by simp [split]⟩
  by_contra other
  have untouched := (taken _ later made).untouched other exchange (by simp)
  rw [answers] at untouched
  cases untouched

theorem TurnsTaken.answeredInOrder (taken : TurnsTaken dispatcher update history) :
    AnsweredInOrder dispatcher update history where
  handled := by
    intro begun
    rcases List.exists_cons_of_ne_nil begun with ⟨exchange, others, rfl⟩
    exact (taken [] exchange (by simp)).1
  once := taken.once
  settled before exchange after split answers later later_mem :=
    taken.settled split answers later_mem
  senderFirst before exchange made notice := (taken before exchange made).answered notice

/--
Any number of updates are handled at once by services that may do, return and raise anything. An
update is answered in order, and where its handling has come to an end, it has been answered.
-/
theorem updates_acknowledged {Store Event : Type}
    {serve : Service Store BotUpdate BotCall BotAnswer BotFailure Event}
    {first last : World Store (Option (Session BotUpdate BotCall BotAnswer BotFailure Unit))}
    (run : (sessions dispatcher.handle serve).Reaches Unrestricted first last)
    (idle : ∀ index, first.process index = none) (index : ℕ)
    (session : Session BotUpdate BotCall BotAnswer BotFailure Unit)
    (found : last.process index = some session) :
    AnsweredInOrder dispatcher session.origin session.history ∧
      (session.rest = .done () → (dispatcher.handler session.origin).isSome = true →
        IsAnswered session.origin session.history) := by
  have served : (acknowledgement Store dispatcher).ServedBy (fun _ => True) serve :=
    fun _ _ _ => ⟨trivial, trivial, trivial⟩
  have honours := (honours_of_reaches served
    (fun update store _ => handle_acknowledges dispatcher update store) run trivial idle).2 index
  rw [found] at honours
  refine ⟨TurnsTaken.answeredInOrder honours.1, fun ended handled => ?_⟩
  rcases session with ⟨origin, history, rest⟩
  subst ended
  exact honours.returned rfl handled

/-- The handling of the update has returned. -/
def hasReturned (session : Session BotUpdate BotCall BotAnswer BotFailure Unit) : Bool :=
  match session.rest with
  | .done _ => true
  | _ => false

/-- The owner who has confirmed an approval has been answered. -/
theorem sampleApproval_acknowledged :
    ∃ world, (updateSessions Json.decimal sampleLimiter sampleDispatcher).Reaches Unrestricted
        (initialUpdates emptyAccess fun _ => none) world ∧
      ∃ session, world.process 1 = some session ∧
        AnsweredInOrder sampleDispatcher session.origin session.history ∧
          IsAnswered session.origin session.history := by
  have reached : ((updateSessions Json.decimal sampleLimiter sampleDispatcher).execute
      (initialUpdates emptyAccess fun _ => none) askedApproval).any
      (fun world => (world.process 1).any fun session =>
        hasReturned session && (sampleDispatcher.handler session.origin).isSome) = true := by
    decide +kernel
  rcases (Option.any_eq_true _ _).mp reached with ⟨world, executed, answers⟩
  rcases (Option.any_eq_true _ _).mp answers with ⟨session, found, answers⟩
  rw [Bool.and_eq_true] at answers
  have run := Program.reaches_of_execute executed (Program.meets_unrestricted _ _)
  have acknowledged := updates_acknowledged run (fun _ => rfl) 1 session found
  refine ⟨world, run, session, found, acknowledged.1, acknowledged.2 ?_ answers.2⟩
  have ended := answers.1
  simp only [hasReturned] at ended
  split at ended
  · assumption
  · cases ended

end Sessions

end CopyMint
