import CopyMint.Access.Refusals
import CopyMint.Bot.Confirmations
import CopyMint.Bot.Replies

/-!
# Whether the user is answered

A handler answers its user unless its body raises something else than an access error. It
does on a token that is no ASCII text, on a decision whose subject is not there any more,
on a wallet that cannot be created, and on a number in digits that `int` does not read.
-/

namespace CopyMint

open Hexadecimal Relational Fallible AccessDatabase

/-- The database fails on what a handler asks of it. -/
def HandlerFailure.isDatabase : HandlerFailure → Bool
  | raised (.integrityError _) => true
  | decision failure => failure.isRefusal
  | access _ | raised _ => false

/-- The user is answered and nothing leaves the handler, unless the database fails. -/
def AnswersUser : Replies → Prop
  | .ok calls => ∃ call ∈ calls, call.isAnswer = true
  | .error failure => failure.isDatabase = true

instance (replies : Replies) : Decidable (AnswersUser replies) :=
  match replies with
  | .ok calls => inferInstanceAs (Decidable (∃ call ∈ calls, call.isAnswer = true))
  | .error failure => inferInstanceAs (Decidable (failure.isDatabase = true))

/-- A failure that a handler answers, or that is the database's. -/
def HandlerFailure.IsExpected (failure : HandlerFailure) : Prop :=
  (∃ error, failure = .access error) ∨ failure.isDatabase = true

section Catching

variable {α : Type} {answer : Text → TelegramCall} {body : Except HandlerFailure α}
  {after : α → Replies}

theorem answersUser_catchAccess_iff (answers : ∀ text, (answer text).isAnswer = true)
    (follows : ∀ value, body = .ok value → AnswersUser (after value)) :
    AnswersUser (catchAccess answer body after) ↔ FailsOnly HandlerFailure.IsExpected body := by
  cases body with
  | ok value => exact iff_of_true (follows value rfl) (failsOnly_ok value)
  | error failure =>
      rw [failsOnly_error_iff]
      cases failure with
      | access error =>
          refine iff_of_true ?_ (.inl ⟨error, rfl⟩)
          exact ⟨_, List.mem_singleton_self _, answers _⟩
      | raised error | decision error =>
          simp [catchAccess, AnswersUser, HandlerFailure.IsExpected]

/-- Access errors are expected. -/
theorem failsOnly_access {result : Except AccessError α} :
    FailsOnly HandlerFailure.IsExpected (result.mapError .access) :=
  failsOnly_mapError_iff.mpr fun error _ => .inl ⟨error, rfl⟩

theorem failsOnly_decision_iff {result : Except AccessFailure α} :
    FailsOnly HandlerFailure.IsExpected (result.mapError .decision) ↔ OnlyRefused result := by
  rw [failsOnly_mapError_iff, OnlyRefused]
  simp [HandlerFailure.IsExpected, HandlerFailure.isDatabase]

/-- After an access check, the rest decides. -/
theorem failsOnly_access_bind_iff {β : Type} {result : Except AccessError α}
    {next : α → Except HandlerFailure β} :
    FailsOnly HandlerFailure.IsExpected (result.mapError .access >>= next) ↔
      ∀ value, result = .ok value → FailsOnly HandlerFailure.IsExpected (next value) := by
  rw [failsOnly_bind_iff]
  simp only [failsOnly_access, true_and, mapError_eq_ok_iff]

theorem failsOnly_passed_bind_iff {β : Type} {result : Except AccessError α} {value : α}
    {next : α → Except HandlerFailure β} (passed : result = .ok value) :
    FailsOnly HandlerFailure.IsExpected (result.mapError .access >>= next) ↔
      FailsOnly HandlerFailure.IsExpected (next value) := by
  rw [passed]
  rfl

/-- A decision raises what its operation does. -/
theorem failsOnly_decision_bind_iff {β : Type} {result : Except AccessFailure α} {reply : α → β} :
    FailsOnly HandlerFailure.IsExpected
        (result.mapError .decision >>= fun value => .ok (reply value)) ↔ OnlyRefused result := by
  rw [failsOnly_bind_iff, failsOnly_decision_iff]
  exact and_iff_left fun value _ => failsOnly_ok (reply value)

end Catching

variable {primitives : Primitives} {isoformat : ℤ → Text} {policies : AccessPolicies}
  {unicode : UnicodeDigits} {bot : Bot} {context : Option RequestContext}
  {error : Option AccessError}

theorem requireContext_eq_ok_iff {actor : RequestContext} :
    requireContext context error = .ok actor ↔ context = some actor := by
  cases context <;> cases error <;> simp [requireContext]

section Consumption

variable {actor : RequestContext} {token : Text} {action : ChallengeAction} {now : ℤ}
  {challenges : CallbackChallenges} {challenge : CallbackChallenge}

/-- The challenge that a token redeems. -/
def FindsChallenge (primitives : Primitives) (actor : RequestContext) (token : Text)
    (action : ChallengeAction) (now : ℤ) (challenges : CallbackChallenges)
    (challenge : CallbackChallenge) : Prop :=
  challenges.find? (CallbackChallenges.consumable (primitives.sha256 (Json.utf8 token)) action
    actor now) = some challenge

theorem consume_of_not_isAscii (authorized : requireActor actor action = .ok ())
    (beyond : isAscii token = false) :
    ChallengeService.consume primitives actor token action now challenges =
      .error (.raised (.valueError "ordinal not in range(128)")) := by
  have hashed : hashChallengeToken primitives token =
      .error (.valueError "ordinal not in range(128)") := if_neg (Bool.eq_false_iff.mp beyond)
  rw [ChallengeService.consume, authorized, hashed]
  rfl

theorem consume_of_isAscii (authorized : requireActor actor action = .ok ())
    (ascii : isAscii token = true) :
    ChallengeService.consume primitives actor token action now challenges =
      match challenges.consumeChallenge (primitives.sha256 (Json.utf8 token)) action actor now with
      | (challenges, some record) => .ok (challenges, record)
      | (_, none) =>
          .error (.access (.invalidChallenge
            "The confirmation is invalid, expired, or already consumed.")) := by
  have hashed : hashChallengeToken primitives token =
      .ok (primitives.sha256 (Json.utf8 token)) := if_pos ascii
  rw [ChallengeService.consume, authorized, hashed]
  rfl

/-- After the consumption, the rest decides on the challenge that the token redeems. -/
theorem failsOnly_consume_bind_iff {β : Type} {raises : CallbackChallenge → Prop}
    {next : CallbackChallenges × CallbackChallenge → Except HandlerFailure β}
    (authorized : requireActor actor action = .ok ())
    (later : ∀ rest challenge, FailsOnly HandlerFailure.IsExpected
      (next (rest, challenge.consumed now)) ↔ ¬raises challenge) :
    FailsOnly HandlerFailure.IsExpected
        ((ChallengeService.consume primitives actor token action now challenges).mapError
          CallbackFailure.toHandlerFailure >>= next) ↔
      ¬(isAscii token = false ∨
        ∃ challenge, FindsChallenge primitives actor token action now challenges challenge ∧
          raises challenge) := by
  cases ascii : isAscii token with
  | false =>
      rw [consume_of_not_isAscii authorized ascii]
      refine iff_of_false (fun fails => ?_) (fun passes => passes (.inl rfl))
      rcases fails _ rfl with ⟨_, impossible⟩ | impossible <;> cases impossible
  | true =>
      rw [consume_of_isAscii authorized ascii, CallbackChallenges.consumeChallenge,
        updateReturning]
      simp only [FindsChallenge]
      cases challenges.find? (CallbackChallenges.consumable
        (primitives.sha256 (Json.utf8 token)) action actor now) with
      | none =>
          refine iff_of_true ?_ (by simp)
          rintro failure raised
          cases raised
          exact .inl ⟨_, rfl⟩
      | some challenge =>
          have decides := later (updateWhere (CallbackChallenges.consumable
            (primitives.sha256 (Json.utf8 token)) action actor now)
            (CallbackChallenge.consumed now) challenges) challenge
          simpa [Except.mapError, ok_bind] using decides

end Consumption

section Conditions

variable (primitives unicode bot)

/-- The subject of a decision is not there to be decided. -/
def SubjectMissing (actor : RequestContext) (challenge : CallbackChallenge)
    (db : AccessDatabase) : ChallengeAction → Prop
  | .approveAccess | .rejectAccess => ¬IsPending challenge.resourceId db
  | .revokeAccess | .createWallet =>
      ∃ target, challenge.target = some target ∧ target ∉ bot.platformOwnerIds ∧
        target ≠ actor.telegramUserId ∧ db.user target = none

/-- The signer answers for another wallet, or without an address. -/
def Mismatched (service : WalletService) (workspaceId : ℕ) (result : SignerWalletResult) : Prop :=
  result.workspaceId ≠ workspaceId ∨ result.chainId ≠ service.chainId ∨
    ¬IsAddressText result.address

/-- A key that nobody accepts, or an answer of the signer where it is needed. -/
def CreationRaises (service : WalletService) (actor : RequestContext) (workspaceId : ℕ)
    (idempotencyKey : Text) (visit : CreationVisit) : Prop :=
  actor.userId.isSome ∧
    (¬(16 ≤ idempotencyKey.length ∧ idempotencyKey.length ≤ 128) ∨
      visit.lookedUp.findByIdempotency workspaceId (primitives.sha256 (Json.utf8 idempotencyKey)) =
          none ∧
        visit.counted.countActive workspaceId < service.maxWalletsPerWorkspace ∧
          Mismatched service workspaceId visit.signerResult)

/-- Digits that pass `isdigit`, but that `int` does not read. -/
def IsUnreadable (argument : Text) : Prop :=
  unicode.isdigit argument = true ∧ ¬(argument.length ≤ 4300 ∧
    ∀ character ∈ argument, 128 ≤ character.toNat → (unicode.decimal character).isSome)

/-- A call of a handler, with what its transactions find. -/
inductive HandlerCall where
  | accessCallback (query : CallbackQuery) (challenges : CallbackChallenges) (consumedAt : ℤ)
      (db : AccessDatabase) (decidedAt : ℤ)
  | createWalletCallback (query : CallbackQuery) (challenges : CallbackChallenges)
      (consumedAt : ℤ) (visit : CreationVisit)
  | adminRevoke (text : Option Text) (draw : IssueDraw) (challenges : CallbackChallenges)

namespace HandlerCall

/-- What a handler does for a caller with the given context, or access error. -/
def handle (isoformat : ℤ → Text) (policies : AccessPolicies) (context : Option RequestContext)
    (error : Option AccessError) : HandlerCall → Replies
  | accessCallback query challenges consumedAt db decidedAt =>
      CopyMint.accessCallback primitives isoformat policies unicode bot context error query
        challenges consumedAt db decidedAt
  | createWalletCallback query challenges consumedAt visit =>
      CopyMint.createWalletCallback primitives bot context error query challenges consumedAt visit
  | adminRevoke text draw challenges =>
      CopyMint.adminRevoke primitives unicode bot context error text draw challenges

/-- The caller passes the checks of the handler, and what it asks for raises. -/
def Escapes (actor : RequestContext) : HandlerCall → Prop
  | accessCallback query challenges consumedAt db _ =>
      actor.requirePlatformOwner = .ok () ∧
        ∃ action token, requestedDecision (query.data.getD []) = .ok (action, token) ∧
          (isAscii token = false ∨
            ∃ challenge,
              FindsChallenge primitives actor token action consumedAt challenges challenge ∧
                SubjectMissing bot actor challenge db action)
  | createWalletCallback query challenges consumedAt visit =>
      ∃ workspaceId, actor.requireWorkspace = .ok workspaceId ∧
        (isAscii (removePrefix walletCallbackPrefix (query.data.getD [])) = false ∨
          ∃ challenge, FindsChallenge primitives actor
              (removePrefix walletCallbackPrefix (query.data.getD [])) .createWallet consumedAt
              challenges challenge ∧
            challenge.resourceId = workspaceId ∧
              ∃ idempotencyKey, challenge.idempotencyKey = some idempotencyKey ∧
                CreationRaises primitives bot.wallets actor workspaceId idempotencyKey visit)
  | adminRevoke text _ _ =>
      actor.requirePlatformOwner = .ok () ∧
        ∃ command argument, unicode.splitOnce (text.getD []) = [command, argument] ∧
          IsUnreadable unicode argument

end HandlerCall

end Conditions

section Decisions

variable {actor : RequestContext} {challenge : CallbackChallenge} {db : AccessDatabase}

theorem failsOnly_confirmDecision_iff {now decidedAt : ℤ} {action : ChallengeAction}
    (authorized : actor.requirePlatformOwner = .ok ()) :
    FailsOnly HandlerFailure.IsExpected (confirmDecision isoformat policies unicode bot actor
      (challenge.consumed now) decidedAt db action) ↔
        ¬SubjectMissing bot actor challenge db action := by
  cases action with
  | approveAccess =>
      simp only [confirmDecision]
      rw [failsOnly_passed_bind_iff authorized, failsOnly_decision_bind_iff,
        onlyRefused_approveRequest_iff]
      exact not_not.symm
  | rejectAccess =>
      simp only [confirmDecision]
      rw [failsOnly_passed_bind_iff authorized, failsOnly_decision_bind_iff,
        onlyRefused_rejectRequest_iff]
      exact not_not.symm
  | revokeAccess | createWallet =>
      have sameTarget : (challenge.consumed now).target = challenge.target := rfl
      simp only [confirmDecision, sameTarget, SubjectMissing]
      cases challenge.target with
      | none =>
          refine iff_of_true (failsOnly_error_iff.mpr (.inl ⟨_, rfl⟩)) ?_
          simp
      | some target =>
          dsimp only
          rw [failsOnly_passed_bind_iff authorized]
          split_ifs with owner
          · refine iff_of_true (failsOnly_error_iff.mpr (.inl ⟨_, rfl⟩)) ?_
            rintro ⟨other, same, stranger, _⟩
            cases same
            exact stranger owner
          · rw [failsOnly_decision_bind_iff, onlyRefused_revokeUser_iff]
            simp [owner]

end Decisions

section Creation

variable {actor : RequestContext} {workspaceId : ℕ} {service : WalletService}
  {idempotencyKey : Text} {visit : CreationVisit}

/-- Storing a wallet fails in the database only. -/
theorem failsOnly_saveOrGet {walletId auditId : ℕ} {result : SignerWalletResult}
    {keyHash : BytesOf 32} {actorUserId correlationId : ℕ} {store : WalletStore} :
    FailsOnly HandlerFailure.IsExpected ((store.saveOrGet walletId auditId result keyHash
      actorUserId correlationId).mapError .raised) := by
  rw [failsOnly_mapError_iff, WalletStore.saveOrGet]
  split
  · exact failsOnly_error_iff.mpr (.inr rfl)
  · exact failsOnly_ok _

theorem not_isExpected_valueError {message : String} :
    ¬HandlerFailure.IsExpected (.raised (.valueError message)) := by
  rintro (⟨_, impossible⟩ | impossible) <;> cases impossible

theorem failsOnly_createWallet_iff (workspace : actor.requireWorkspace = .ok workspaceId) :
    FailsOnly HandlerFailure.IsExpected
        (service.createWallet primitives actor idempotencyKey visit) ↔
      ¬CreationRaises primitives service actor workspaceId idempotencyKey visit := by
  simp only [WalletService.createWallet]
  rw [failsOnly_passed_bind_iff workspace]
  cases user : actor.userId with
  | none =>
      refine iff_of_true (failsOnly_error_iff.mpr (.inl ⟨_, rfl⟩)) ?_
      simp [CreationRaises, user]
  | some userId =>
      dsimp only
      by_cases bounded : 16 ≤ idempotencyKey.length ∧ idempotencyKey.length ≤ 128
      · have hashed : hashIdempotencyKey primitives idempotencyKey =
            .ok (primitives.sha256 (Json.utf8 idempotencyKey)) := if_pos bounded
        have raises : CreationRaises primitives service actor workspaceId idempotencyKey visit ↔
            visit.lookedUp.findByIdempotency workspaceId
                (primitives.sha256 (Json.utf8 idempotencyKey)) = none ∧
              visit.counted.countActive workspaceId < service.maxWalletsPerWorkspace ∧
                Mismatched service workspaceId visit.signerResult := by
          simp [CreationRaises, user, bounded]
        rw [hashed, raises, mapError_ok, ok_bind]
        cases visit.lookedUp.findByIdempotency workspaceId
          (primitives.sha256 (Json.utf8 idempotencyKey)) with
        | some existing =>
            refine iff_of_true (failsOnly_ok _) ?_
            rintro ⟨impossible, _⟩
            cases impossible
        | none =>
            dsimp only
            split_ifs with full mismatched
            · refine iff_of_true (failsOnly_error_iff.mpr (.inl ⟨_, rfl⟩)) ?_
              exact fun raised => absurd raised.2.1 (Nat.not_lt.mpr full)
            · refine iff_of_false ?_ (not_not.mpr ⟨rfl, Nat.lt_of_not_le full, ?_⟩)
              · rw [failsOnly_error_iff]
                rintro (⟨_, impossible⟩ | impossible) <;> cases impossible
              · exact mismatched.imp_right .inl
            · by_cases address : IsAddressText visit.signerResult.address
              · rw [primitives.toChecksumAddress_eq_ok _ address, mapError_ok, ok_bind]
                refine iff_of_true (failsOnly_saveOrGet.bind fun _ _ => failsOnly_ok _) ?_
                rintro ⟨_, _, other | other | invalid⟩
                · exact mismatched (.inl other)
                · exact mismatched (.inr other)
                · exact invalid address
              · rw [primitives.toChecksumAddress_eq_error _ address]
                refine iff_of_false (fun fails => not_isExpected_valueError (fails _ rfl)) ?_
                exact not_not.mpr ⟨rfl, Nat.lt_of_not_le full, .inr (.inr address)⟩
      · have hashed : hashIdempotencyKey primitives idempotencyKey = .error (.valueError
            "idempotency key must contain between 16 and 128 characters") := if_neg bounded
        refine iff_of_false ?_ ?_
        · rw [hashed]
          exact fun fails => not_isExpected_valueError (fails _ rfl)
        · exact not_not.mpr ⟨by rw [user]; rfl, .inl bounded⟩

end Creation

section Issuing

theorem urlsafeDigit_lt {value : ℕ} (small : value < 64) : (urlsafeDigit value).toNat < 128 := by
  interval_cases value <;> decide

theorem isAscii_tokenUrlsafe (bytes : BytesOf 32) : isAscii (tokenUrlsafe bytes) = true := by
  simp only [isAscii, tokenUrlsafe, List.all_eq_true, List.mem_map, decide_eq_true_eq]
  rintro _ ⟨place, _, rfl⟩
  exact urlsafeDigit_lt (Nat.mod_lt _ (by omega))

theorem length_tokenUrlsafe (bytes : BytesOf 32) : (tokenUrlsafe bytes).length = 43 := by
  simp [tokenUrlsafe]

theorem length_utf8_of_isAscii {text : Text} (ascii : isAscii text = true) :
    (Json.utf8 text).length = text.length := by
  induction text with
  | nil => rfl
  | cons first rest ih =>
      rw [isAscii, List.all_cons, Bool.and_eq_true, decide_eq_true_eq] at ascii
      have low : first.val ≤ 127 := UInt32.le_iff_toNat_le.mpr (Nat.le_of_lt_succ ascii.1)
      have single : first.utf8Size = 1 := Char.utf8Size_eq_one_iff.mpr low
      rw [Json.utf8, List.flatMap_cons, List.length_append, String.length_utf8EncodeChar, single,
        ← Json.utf8, ih ascii.2, List.length_cons, Nat.add_comm]

/-- The data of a button has room for every token. -/
theorem callbackData_token (bytes : BytesOf 32) :
    callbackData "revoke".toList (tokenUrlsafe bytes) =
      .ok (accessCallbackPrefix ++ "revoke".toList ++ ":".toList ++ tokenUrlsafe bytes) := by
  have ascii : isAscii (accessCallbackPrefix ++ "revoke".toList ++ ":".toList ++
      tokenUrlsafe bytes) = true := by
    rw [isAscii, List.all_append, Bool.and_eq_true]
    exact ⟨by decide, isAscii_tokenUrlsafe bytes⟩
  have fits : ¬64 < (Json.utf8 (accessCallbackPrefix ++ "revoke".toList ++ ":".toList ++
      tokenUrlsafe bytes)).length := by
    rw [length_utf8_of_isAscii ascii, List.length_append, length_tokenUrlsafe]
    decide
  exact if_neg fits

/-- To issue a challenge fails in the database only. -/
theorem failsOnly_issue {service : ChallengeService} {actor : RequestContext}
    {values : ChallengeService.Issue} {id : ℕ} {bytes : BytesOf 32} {now : ℤ}
    {challenges : CallbackChallenges} :
    FailsOnly HandlerFailure.IsExpected ((service.issue primitives actor values id
      (tokenUrlsafe bytes) now challenges).mapError CallbackFailure.toHandlerFailure) := by
  have hashed : hashChallengeToken primitives (tokenUrlsafe bytes) =
      .ok (primitives.sha256 (Json.utf8 (tokenUrlsafe bytes))) :=
    if_pos (isAscii_tokenUrlsafe bytes)
  rw [failsOnly_mapError_iff, ChallengeService.issue, hashed]
  refine FailsOnly.bind ?_ fun _ _ => FailsOnly.bind (failsOnly_ok _) fun _ _ => ?_
  · exact failsOnly_mapError_iff.mpr fun error _ => .inl ⟨error, rfl⟩
  · rw [failsOnly_mapError_iff, CallbackChallenges.create]
    split_ifs
    · exact failsOnly_error_iff.mpr (.inr rfl)
    · exact failsOnly_ok _

end Issuing

section Handlers

variable {actor : RequestContext} {query : CallbackQuery} {challenges : CallbackChallenges}

/-- Who fails the check of a consumption is told so. -/
theorem failsOnly_refused_consume {β : Type} {action : ChallengeAction} {token : Text} {now : ℤ}
    {next : CallbackChallenges × CallbackChallenge → Except HandlerFailure β}
    {refused : AccessError} (unauthorized : requireActor actor action = .error refused) :
    FailsOnly HandlerFailure.IsExpected
      ((ChallengeService.consume primitives actor token action now challenges).mapError
        CallbackFailure.toHandlerFailure >>= next) := by
  rw [ChallengeService.consume, unauthorized]
  rintro failure raised
  cases raised
  exact .inl ⟨refused, rfl⟩

theorem requireActor_of_requestedDecision {data token : Text} {action : ChallengeAction}
    (requested : requestedDecision data = .ok (action, token)) :
    requireActor actor action = actor.requirePlatformOwner := by
  cases action with
  | approveAccess | rejectAccess | revokeAccess => rfl
  | createWallet =>
      simp only [requestedDecision] at requested
      split at requested
      · split at requested
        · rename_i found
          cases requested
          rcases List.lookup_eq_some_iff.mp found with ⟨before, after, split, _⟩
          simp [accessActions, List.cons_eq_append_iff] at split
        · cases requested
      · cases requested

theorem accessCallback_answersUser_iff {consumedAt decidedAt : ℤ} {db : AccessDatabase} :
    AnswersUser (accessCallback primitives isoformat policies unicode bot context error query
        challenges consumedAt db decidedAt) ↔
      ∀ actor, context = some actor →
        ¬(HandlerCall.accessCallback query challenges consumedAt db decidedAt).Escapes primitives
          unicode bot actor := by
  refine (answersUser_catchAccess_iff (fun _ => rfl)
    (by intros; exact ⟨_, List.mem_cons_self, rfl⟩)).trans ?_
  rw [failsOnly_access_bind_iff]
  refine forall_congr' fun actor => ?_
  rw [requireContext_eq_ok_iff, failsOnly_access_bind_iff, Prod.forall]
  refine imp_congr_right fun _ => ?_
  cases authorized : actor.requirePlatformOwner with
  | error refused =>
      refine iff_of_true ?_ ?_
      · intro action token requested
        rw [← requireActor_of_requestedDecision requested] at authorized
        exact failsOnly_refused_consume authorized
      · rintro ⟨passed, _⟩
        cases authorized.symm.trans passed
  | ok passed =>
      simp only [HandlerCall.Escapes, authorized, true_and, not_exists, not_and]
      refine forall_congr' fun action => forall_congr' fun token => ?_
      refine imp_congr_right fun requested => ?_
      have passes := (requireActor_of_requestedDecision requested).trans authorized
      exact failsOnly_consume_bind_iff passes fun _ _ => failsOnly_confirmDecision_iff authorized

theorem createWalletCallback_answersUser_iff {consumedAt : ℤ} {visit : CreationVisit} :
    AnswersUser (createWalletCallback primitives bot context error query challenges consumedAt
        visit) ↔
      ∀ actor, context = some actor →
        ¬(HandlerCall.createWalletCallback query challenges consumedAt visit).Escapes primitives
          unicode bot actor := by
  refine (answersUser_catchAccess_iff (fun _ => rfl)
    (by intros; exact ⟨_, List.mem_cons_self, rfl⟩)).trans ?_
  rw [failsOnly_access_bind_iff]
  refine forall_congr' fun actor => ?_
  rw [requireContext_eq_ok_iff]
  refine imp_congr_right fun _ => ?_
  cases workspace : actor.requireWorkspace with
  | error refused =>
      have unauthorized : requireActor actor .createWallet = .error refused := by
        rw [requireActor, workspace]
        rfl
      refine iff_of_true (failsOnly_refused_consume unauthorized) ?_
      rintro ⟨_, passed, _⟩
      cases workspace.symm.trans passed
  | ok workspaceId =>
      have passes : requireActor actor .createWallet = .ok () := by
        rw [requireActor, workspace]
        rfl
      simp only [HandlerCall.Escapes, workspace, Except.ok.injEq, exists_eq_left']
      refine failsOnly_consume_bind_iff passes fun _ challenge => ?_
      have sameResource : (challenge.consumed consumedAt).resourceId = challenge.resourceId := rfl
      have sameKey : (challenge.consumed consumedAt).idempotencyKey =
        challenge.idempotencyKey := rfl
      dsimp only
      rw [mapError_ok, ok_bind, sameResource, sameKey]
      split_ifs with foreign
      · refine iff_of_true (failsOnly_error_iff.mpr (.inl ⟨_, rfl⟩)) ?_
        exact fun raised => foreign raised.1
      · rw [not_not] at foreign
        cases challenge.idempotencyKey with
        | none =>
            refine iff_of_true (failsOnly_error_iff.mpr (.inl ⟨_, rfl⟩)) ?_
            simp
        | some idempotencyKey =>
            dsimp only
            rw [failsOnly_createWallet_iff workspace]
            simp [foreign]

theorem adminRevoke_answersUser_iff {text : Option Text} {draw : IssueDraw} :
    AnswersUser (adminRevoke primitives unicode bot context error text draw challenges) ↔
      ∀ actor, context = some actor →
        ¬(HandlerCall.adminRevoke text draw challenges).Escapes primitives unicode bot actor := by
  refine (answersUser_catchAccess_iff (fun _ => rfl) ?_).trans ?_
  · rintro (_ | targetId) _
    · exact ⟨_, List.mem_singleton_self _, rfl⟩
    · dsimp only
      rw [callbackData_token]
      exact ⟨_, List.mem_singleton_self _, rfl⟩
  · rw [failsOnly_access_bind_iff]
    refine forall_congr' fun actor => ?_
    rw [requireContext_eq_ok_iff]
    refine imp_congr_right fun _ => ?_
    cases authorized : actor.requirePlatformOwner with
    | error refused =>
        refine iff_of_true (failsOnly_error_iff.mpr (.inl ⟨refused, rfl⟩)) ?_
        rintro ⟨passed, _⟩
        cases authorized.symm.trans passed
    | ok passed =>
        simp only [HandlerCall.Escapes, authorized, true_and, mapError_ok, ok_bind]
        split
        · rename_i command argument words
          have escapes : (∃ first second, unicode.splitOnce (text.getD []) = [first, second] ∧
              IsUnreadable unicode second) ↔ IsUnreadable unicode argument := by
            simp [words]
          rw [escapes, IsUnreadable]
          by_cases digits : unicode.isdigit argument = true
          · rw [if_pos digits, ← unicode.int_isSome_iff digits]
            cases unicode.int .ten argument with
            | none =>
                refine iff_of_false (fun fails => not_isExpected_valueError (fails _ rfl)) ?_
                simp [digits]
            | some targetId =>
                refine iff_of_true (failsOnly_issue.bind fun _ _ => failsOnly_ok _) ?_
                simp
          · rw [if_neg digits]
            refine iff_of_true (failsOnly_ok _) ?_
            exact fun unreadable => digits unreadable.1
        · rename_i other
          refine iff_of_true (failsOnly_ok _) ?_
          rintro ⟨command, argument, words, _⟩
          exact other command argument words

end Handlers

variable (primitives isoformat policies unicode bot context error) in
/-- A handler answers its user exactly if nothing that its caller may ask for raises. -/
theorem handlers_answerUser_iff (call : HandlerCall) :
    AnswersUser (call.handle primitives unicode bot isoformat policies context error) ↔
      ∀ actor, context = some actor → ¬call.Escapes primitives unicode bot actor := by
  cases call with
  | accessCallback query challenges consumedAt db decidedAt =>
      exact accessCallback_answersUser_iff
  | createWalletCallback query challenges consumedAt visit =>
      exact createWalletCallback_answersUser_iff
  | adminRevoke text draw challenges => exact adminRevoke_answersUser_iff

section Samples

/-- The tables for ASCII, and a digit that is no decimal one. -/
def superscriptDigits : UnicodeDigits where
  isSpace := Hexadecimal.isSpace
  isDigit character := character.isDigit || character = '²'
  isPrintable character := 32 ≤ character.toNat && character.toNat < 127
  decimal _ := none
  ascii := by
    intro character low
    have other : character ≠ '²' := by
      rintro rfl
      exact absurd low (by decide)
    simp [other]
  solid := by
    intro character isDigit
    rcases Bool.or_eq_true_iff.mp isDigit with ascii | superscript
    · exact UnicodeData.IsPlain.isSpace_eq_false (.inl ascii)
    · rw [of_decide_eq_true superscript]
      rfl

/-- The challenge of an owner who has been asked about a request. -/
def askedOwner : CallbackChallenge where
  id := 5
  tokenHash := tokenHashes.sha256 (Json.utf8 sampleToken)
  action := .approveAccess
  expectedActorTelegramUserId := 1
  expectedChatId := 1
  resourceType := "access_request".toList
  resourceId := 0
  authoritativePayload := []
  expiresAt := 300001000
  consumedAt := none

/-- The request that another owner has approved in the meantime. -/
def decidedDatabase : AccessDatabase :=
  requestedDatabase.updateRequest 0 (AccessRequest.decided .approved 1500 9)

end Samples

/-- A second owner decides, a token is no ASCII text, and a digit has no value. -/
theorem ordinaryUpdates_escape :
    ¬AnswersUser ((HandlerCall.accessCallback
        ⟨some ("access:v1:approve:".toList ++ sampleToken), none⟩ [askedOwner] 2000
        decidedDatabase 2000).handle tokenHashes superscriptDigits sampleBot Json.decimal
        migratedPolicies (some platformOwner) none) ∧
      ¬AnswersUser ((HandlerCall.accessCallback ⟨some "access:v1:approve:é".toList, none⟩ [] 2000
        emptyAccess 2000).handle tokenHashes superscriptDigits sampleBot Json.decimal
        migratedPolicies (some platformOwner) none) ∧
      ¬AnswersUser ((HandlerCall.adminRevoke (some "/admin_revoke ²".toList)
        ⟨⟨List.replicate 32 0, rfl⟩, 5, 6, 1000⟩ []).handle tokenHashes superscriptDigits sampleBot
        Json.decimal migratedPolicies (some platformOwner) none) := by
  decide +kernel

end CopyMint
