import CopyMint.Access.Context
import CopyMint.Ethereum.Web3
import CopyMint.Library.Fallible
import CopyMint.Library.Json
import CopyMint.Library.Relational

/-!
# Callback challenges

A challenge stands for the confirmation of one action. It is stored under the
hash of its token and is bound to an actor and a chat, and it expires. To consume
it is one conditional update, which selects the row only as long as it has not
been consumed. Timestamps are in microseconds.
-/

namespace CopyMint

open Hexadecimal Relational Fallible

/-- A row of `callback_challenges`. -/
structure CallbackChallenge where
  id : ℕ
  tokenHash : BytesOf 32
  action : ChallengeAction
  expectedActorTelegramUserId : ℤ
  expectedChatId : ℤ
  resourceType : Text
  resourceId : ℕ
  authoritativePayload : List (Text × Json)
  expiresAt : ℤ
  consumedAt : Option ℤ

/-- The table `callback_challenges`. -/
abbrev CallbackChallenges := List CallbackChallenge

/-- `authoritative_payload.get(name)`. -/
def CallbackChallenge.payload (challenge : CallbackChallenge) (name : String) : Option Json :=
  challenge.authoritativePayload.lookup name.toList

/-- The row of a challenge that has been consumed. -/
def CallbackChallenge.consumed (consumedAt : ℤ) (challenge : CallbackChallenge) :
    CallbackChallenge :=
  { challenge with consumedAt := some consumedAt }

namespace CallbackChallenges

/-- Insert a challenge, whose identifier and token hash are unique. -/
def create (challenge : CallbackChallenge) (challenges : CallbackChallenges) :
    Except Raised CallbackChallenges :=
  if challenges.any fun row => row.tokenHash = challenge.tokenHash || row.id = challenge.id then
    .error (.integrityError "callback_challenges")
  else .ok (challenges ++ [challenge])

/-- The rows that a consumption selects. -/
def consumable (tokenHash : BytesOf 32) (action : ChallengeAction) (actor : RequestContext)
    (consumedAt : ℤ) (row : CallbackChallenge) : Bool :=
  row.tokenHash = tokenHash && row.action = action &&
    row.expectedActorTelegramUserId = actor.telegramUserId &&
    row.expectedChatId = actor.chatId && consumedAt < row.expiresAt && row.consumedAt.isNone

/-- `consume_challenge`, one conditional `UPDATE … RETURNING`. -/
def consumeChallenge (tokenHash : BytesOf 32) (action : ChallengeAction)
    (actor : RequestContext) (consumedAt : ℤ) (challenges : CallbackChallenges) :
    CallbackChallenges × Option CallbackChallenge :=
  updateReturning (consumable tokenHash action actor consumedAt)
    (CallbackChallenge.consumed consumedAt) challenges

end CallbackChallenges

/-- What an update is answered with, or fails with. -/
inductive CallbackFailure where
  | access (error : AccessError)
  | raised (error : Raised)
  deriving DecidableEq

/-- Who may issue or consume a challenge for an action. -/
def requireActor (actor : RequestContext) : ChallengeAction → Except AccessError Unit
  | .createWallet => (fun _ => ()) <$> actor.requireWorkspace
  | .approveAccess | .rejectAccess | .revokeAccess => actor.requirePlatformOwner

/-- The challenge service, with the bounds that its constructor checks. -/
structure ChallengeService where
  defaultTtl : ℤ
  positive : 0 < defaultTtl
  bounded : defaultTtl ≤ 15 * 60 * 1000000

variable (primitives : Primitives)

/-- `hashlib.sha256(token.encode("ascii")).digest()`. -/
def hashChallengeToken (token : Text) : Except Raised (BytesOf 32) :=
  if token.all fun character => character.toNat < 128 then
    .ok (primitives.sha256 (Json.utf8 token))
  else .error (.valueError "ordinal not in range(128)")

namespace ChallengeService

/-- What a challenge is issued for. -/
structure Issue where
  action : ChallengeAction
  resourceType : Text
  resourceId : ℕ
  authoritativePayload : List (Text × Json)

/-- `ChallengeService.issue`. -/
def issue (service : ChallengeService) (actor : RequestContext) (values : Issue) (id : ℕ)
    (rawToken : Text) (now : ℤ) (challenges : CallbackChallenges) :
    Except CallbackFailure CallbackChallenges := do
  (requireActor actor values.action).mapError .access
  let tokenHash ← (hashChallengeToken primitives rawToken).mapError .raised
  let challenge : CallbackChallenge :=
    { id
      tokenHash
      action := values.action
      expectedActorTelegramUserId := actor.telegramUserId
      expectedChatId := actor.chatId
      resourceType := values.resourceType
      resourceId := values.resourceId
      authoritativePayload := values.authoritativePayload
      expiresAt := now + service.defaultTtl
      consumedAt := none }
  (challenges.create challenge).mapError .raised

/-- `ChallengeService.consume`. -/
def consume (actor : RequestContext) (token : Text) (expectedAction : ChallengeAction) (now : ℤ)
    (challenges : CallbackChallenges) :
    Except CallbackFailure (CallbackChallenges × CallbackChallenge) := do
  (requireActor actor expectedAction).mapError .access
  let tokenHash ← (hashChallengeToken primitives token).mapError .raised
  match challenges.consumeChallenge tokenHash expectedAction actor now with
  | (challenges, some record) => .ok (challenges, record)
  | (_, none) =>
      .error (.access (.invalidChallenge
        "The confirmation is invalid, expired, or already consumed."))

variable {primitives : Primitives} {challenges next : CallbackChallenges} {now : ℤ}

/-- A challenge stands for what it was issued for. -/
structure IssuedFor (service : ChallengeService) (actor : RequestContext) (values : Issue)
    (tokenHash : BytesOf 32) (now : ℤ) (challenge : CallbackChallenge) : Prop where
  hash : challenge.tokenHash = tokenHash
  action : challenge.action = values.action
  telegramUserId : challenge.expectedActorTelegramUserId = actor.telegramUserId
  chatId : challenge.expectedChatId = actor.chatId
  resourceType : challenge.resourceType = values.resourceType
  resourceId : challenge.resourceId = values.resourceId
  payload : challenge.authoritativePayload = values.authoritativePayload
  expires : challenge.expiresAt = now + service.defaultTtl

/-- An issued challenge is new and has not been consumed. -/
theorem issue_eq_ok {service : ChallengeService} {actor : RequestContext} {values : Issue}
    {id : ℕ} {rawToken : Text}
    (issued : service.issue primitives actor values id rawToken now challenges = .ok next) :
    ∃ tokenHash challenge, next = challenges ++ [challenge] ∧ challenge.consumedAt = none ∧
      (∀ row ∈ challenges, row.tokenHash ≠ challenge.tokenHash) ∧
      requireActor actor values.action = .ok () ∧
      hashChallengeToken primitives rawToken = .ok tokenHash ∧
      service.IssuedFor actor values tokenHash now challenge := by
  rcases bind_eq_ok_iff.mp issued with ⟨_, authorized, issued⟩
  rcases bind_eq_ok_iff.mp issued with ⟨tokenHash, hashed, created⟩
  simp only [CallbackChallenges.create] at created
  split_ifs at created with taken
  · cases created
  · cases created
    refine ⟨tokenHash, _, rfl, rfl, fun row row_mem same => taken ?_, ?_, ?_, ?_⟩
    · exact List.any_eq_true.mpr ⟨row, row_mem, by simp [same]⟩
    · exact mapError_eq_ok_iff.mp authorized
    · exact mapError_eq_ok_iff.mp hashed
    · constructor <;> rfl

/-- What the consumption of a challenge does to the table. -/
structure Consumes (before : CallbackChallenges) (record : CallbackChallenge)
    (after : CallbackChallenges) : Prop where
  stored : record ∈ after
  consumed : record.consumedAt.isSome
  unique : Unique CallbackChallenge.tokenHash after
  kept : ∀ challenge ∈ before, challenge.consumedAt.isSome → challenge ∈ after
  only : ∀ challenge ∈ after, challenge.consumedAt.isSome →
    challenge ∈ before ∨ challenge = record

/-- What the rows that a consumption selects have in common. -/
structure Selected (tokenHash : BytesOf 32) (action : ChallengeAction) (actor : RequestContext)
    (now : ℤ) (row : CallbackChallenge) : Prop where
  hash : row.tokenHash = tokenHash
  action : row.action = action
  telegramUserId : row.expectedActorTelegramUserId = actor.telegramUserId
  chatId : row.expectedChatId = actor.chatId
  unexpired : now < row.expiresAt
  unconsumed : row.consumedAt = none

theorem selected_of_consumable {tokenHash : BytesOf 32} {action : ChallengeAction}
    {actor : RequestContext} {row : CallbackChallenge}
    (selected : CallbackChallenges.consumable tokenHash action actor now row = true) :
    Selected tokenHash action actor now row := by
  simp only [CallbackChallenges.consumable, Bool.and_eq_true, decide_eq_true_eq,
    Option.isNone_iff_eq_none] at selected
  rcases selected with ⟨⟨⟨⟨⟨hash, sameAction⟩, telegramUserId⟩, chatId⟩, unexpired⟩, unconsumed⟩
  exact ⟨hash, sameAction, telegramUserId, chatId, unexpired, unconsumed⟩

/-- A consumption rewrites the row that it selects, and no other that was consumed before. -/
theorem consume_eq_ok {actor : RequestContext} {token : Text} {expectedAction : ChallengeAction}
    {record : CallbackChallenge} (unique : Unique CallbackChallenge.tokenHash challenges)
    (returned : consume primitives actor token expectedAction now challenges =
      .ok (next, record)) :
    Consumes challenges record next ∧ ∃ tokenHash row,
      requireActor actor expectedAction = .ok () ∧
      hashChallengeToken primitives token = .ok tokenHash ∧ row ∈ challenges ∧
      Selected tokenHash expectedAction actor now row ∧ record = row.consumed now ∧
      next = updateWhere (CallbackChallenges.consumable tokenHash expectedAction actor now)
        (CallbackChallenge.consumed now) challenges := by
  rcases bind_eq_ok_iff.mp returned with ⟨_, authorized, returned⟩
  rcases bind_eq_ok_iff.mp returned with ⟨tokenHash, hashed, returned⟩
  split at returned
  · rename_i updated
    cases returned
    simp only [CallbackChallenges.consumeChallenge] at updated
    rcases updateReturning_eq_some (congrArg Prod.snd updated) with
      ⟨row, row_mem, selected, rfl, stored⟩
    have chosenRow := selected_of_consumable selected
    have table := congrArg Prod.fst updated
    simp only [updateReturning] at table
    rw [updated] at stored
    subst table
    refine ⟨⟨stored, rfl, unique.updateWhere fun _ => rfl, ?_, ?_⟩, tokenHash, row,
      mapError_eq_ok_iff.mp authorized, mapError_eq_ok_iff.mp hashed, row_mem, chosenRow, rfl,
      rfl⟩
    · intro challenge challenge_mem consumed
      refine mem_updateWhere.mpr ⟨challenge, challenge_mem, if_neg fun chosen => ?_⟩
      simp [(selected_of_consumable chosen).unconsumed] at consumed
    · intro challenge challenge_mem consumed
      rcases mem_updateWhere.mp challenge_mem with ⟨other, other_mem, rfl⟩
      split_ifs at consumed ⊢ with chosen
      · right
        have same : other = row := by
          apply unique.eq_of_key_eq other_mem row_mem
          rw [(selected_of_consumable chosen).hash, chosenRow.hash]
        rw [same]
      · exact .inl other_mem
  · cases returned

end ChallengeService

end CopyMint
