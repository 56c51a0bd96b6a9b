import CopyMint.Ethereum.WireFormat
import CopyMint.Signer.Authentication

/-!
# Requests are bound to their signature and accepted once

Processes authenticate requests in any order: each first verifies its request at
some time and later claims the identifier of the request, which is one statement
on the table of claimed identifiers. A signature belongs to one request only,
provided that the hashes do not collide on the requests at hand.
-/

namespace CopyMint

open Hexadecimal Relational Interleaving

/-- How far the authentication of a request has got. -/
inductive Authentication where
  | idle
  | verified (call : SignerCall) (claims : SignerClaims)
  | accepted (call : SignerCall)
  | replayed (call : SignerCall) (failure : SignerFailure)
  | rejected (failure : SignerFailure)
  deriving DecidableEq

/-- What an authentication does next. -/
inductive AuthenticationEvent where
  | verify (call : SignerCall) (now : ℤ)
  | claim

/-- The request of a process that has passed `verify_claims`. -/
def Authentication.passed : Authentication → Option SignerCall
  | verified call _ | accepted call | replayed call _ => some call
  | idle | rejected _ => none

section Program

variable (primitives : Primitives) (hmac : Hmac) (secret : Text)

/-- One action of an authentication. -/
def authenticationStep (replays : SignerRequestReplays) :
    Authentication → AuthenticationEvent → Option (SignerRequestReplays × Authentication)
  | .idle, .verify call now =>
      match verifyCall primitives hmac secret call now with
      | .ok claims => some (replays, .verified call claims)
      | .error failure => some (replays, .rejected failure)
  | .verified call claims, .claim =>
      match claimCall claims replays with
      | (replays, .ok ()) => some (replays, .accepted call)
      | (replays, .error failure) => some (replays, .replayed call failure)
  | _, _ => none

/-- Authentications as a program. -/
def authenticationProgram : Program SignerRequestReplays Authentication AuthenticationEvent :=
  ⟨authenticationStep primitives hmac secret⟩

end Program

variable {primitives : Primitives} {hmac : Hmac} {secret : Text} {call : SignerCall}
  {claims : SignerClaims} {replays next : SignerRequestReplays} {process after : Authentication}
  {event : AuthenticationEvent} {world : World SignerRequestReplays Authentication}

section Claim

/-- An accepted request was the first with its identifier. -/
theorem claimCall_eq_ok (claimed : claimCall claims replays = (next, .ok ())) :
    (∀ row ∈ replays, row.requestId ≠ claims.requestId) ∧
      ∃ row ∈ next, row.requestId = claims.requestId := by
  simp only [claimCall] at claimed
  split at claimed
  · rename_i inserted
    cases claimed
    simp only [SignerRequestReplays.claim, Prod.mk.injEq, Option.isNone_iff_eq_none] at inserted
    refine ⟨lookup_eq_none_iff.mp inserted.2, ?_⟩
    rw [← inserted.1]
    exact exists_mem_insertOrIgnore SignerRequestReplay.requestId
      ⟨claims.requestId, claims.issuedAt + authMaxAge⟩ replays
  · cases claimed

/-- A claimed identifier stays claimed. -/
theorem subset_claimCall {result : Except SignerFailure Unit}
    (claimed : claimCall claims replays = (next, result)) : replays ⊆ next := by
  intro row row_mem
  simp only [claimCall] at claimed
  split at claimed
  all_goals
    rename_i inserted
    cases claimed
    simp only [SignerRequestReplays.claim, Prod.mk.injEq] at inserted
    rw [← inserted.1]
    exact mem_insertOrIgnore_of_mem row_mem

end Claim

/-- A request carries the signature of its claims. -/
def SignerCall.Signed (primitives : Primitives) (hmac : Hmac) (secret : Text)
    (call : SignerCall) : Prop :=
  call.signature = signClaims primitives hmac secret (call.claims (timedelta call.timestamp))
    call.body.requestBody

/-- What an action does to the table. -/
inductive AuthenticationTransition (primitives : Primitives) (hmac : Hmac) (secret : Text)
    (replays : SignerRequestReplays) :
    Authentication → SignerRequestReplays → Authentication → Prop
  | verifies {call : SignerCall} (signed : call.Signed primitives hmac secret) :
      AuthenticationTransition primitives hmac secret replays .idle replays
        (.verified call (call.claims (timedelta call.timestamp)))
  | rejects (failure : SignerFailure) :
      AuthenticationTransition primitives hmac secret replays .idle replays (.rejected failure)
  | accepts {call : SignerCall} {claims : SignerClaims} {next : SignerRequestReplays}
      (claimed : claimCall claims replays = (next, .ok ())) :
      AuthenticationTransition primitives hmac secret replays (.verified call claims) next
        (.accepted call)
  | replays {call : SignerCall} {claims : SignerClaims} {next : SignerRequestReplays}
      {failure : SignerFailure} (kept : replays ⊆ next) :
      AuthenticationTransition primitives hmac secret replays (.verified call claims) next
        (.replayed call failure)

theorem authenticationTransition_of_step
    (stepped : authenticationStep primitives hmac secret replays process event =
      some (next, after)) :
    AuthenticationTransition primitives hmac secret replays process next after := by
  cases process with
  | idle =>
      cases event with
      | verify call now =>
          simp only [authenticationStep] at stepped
          split at stepped
          · rename_i verified
            cases stepped
            rcases verifyCall_eq_ok verified with ⟨rfl, signed⟩
            exact .verifies signed
          · cases stepped
            exact .rejects _
      | claim => cases stepped
  | verified call claims =>
      cases event with
      | claim =>
          simp only [authenticationStep] at stepped
          split at stepped
          · rename_i claimed
            cases stepped
            exact .accepts claimed
          · rename_i claimed
            cases stepped
            exact .replays (subset_claimCall claimed)
      | verify => cases stepped
  | accepted | replayed | rejected => cases stepped

/-- What is known of a process: whom it has accepted stands in the table. -/
structure AuthenticationInvariant (primitives : Primitives) (hmac : Hmac) (secret : Text)
    (replays : SignerRequestReplays) (process : Authentication) : Prop where
  signed : ∀ {call}, process.passed = some call → call.Signed primitives hmac secret
  claims : ∀ {call claims}, process = .verified call claims → claims.requestId = call.requestId
  stored : ∀ {call}, process = .accepted call → ∃ row ∈ replays, row.requestId = call.requestId

theorem AuthenticationInvariant.subset
    (holds : AuthenticationInvariant primitives hmac secret replays process)
    (kept : replays ⊆ next) : AuthenticationInvariant primitives hmac secret next process := by
  refine ⟨holds.signed, holds.claims, fun accepted => ?_⟩
  rcases holds.stored accepted with ⟨row, row_mem, same⟩
  exact ⟨row, kept row_mem, same⟩

/-- A process that has passed no check is not bound by anything. -/
theorem AuthenticationInvariant.of_passed_eq_none (nothing : process.passed = none) :
    AuthenticationInvariant primitives hmac secret replays process := by
  constructor
  · intro call passed
    cases nothing.symm.trans passed
  · rintro call claims rfl
    cases nothing
  · rintro call rfl
    cases nothing

namespace AuthenticationTransition

variable (moved : AuthenticationTransition primitives hmac secret replays process next after)

include moved in
theorem subset : replays ⊆ next := by
  cases moved with
  | verifies | rejects => exact List.Subset.refl replays
  | accepts claimed => exact subset_claimCall claimed
  | replays kept => exact kept

include moved in
theorem preserves (holds : AuthenticationInvariant primitives hmac secret replays process) :
    AuthenticationInvariant primitives hmac secret next after := by
  cases moved with
  | verifies signed =>
      constructor
      · intro call passed
        cases passed
        exact signed
      · intro call claims verified
        cases verified
        rfl
      · intro call impossible
        cases impossible
  | rejects failure => exact .of_passed_eq_none rfl
  | accepts claimed =>
      constructor
      · exact fun passed => holds.signed passed
      · intro call claims impossible
        cases impossible
      · intro call accepted
        cases accepted
        rcases (claimCall_eq_ok claimed).2 with ⟨row, row_mem, same⟩
        exact ⟨row, row_mem, same.trans (holds.claims rfl)⟩
  | replays kept =>
      constructor
      · exact fun passed => holds.signed passed
      · intro call claims impossible
        cases impossible
      · intro call impossible
        cases impossible

end AuthenticationTransition

/-- Two processes have accepted requests with one identifier. -/
def BothAccept (left right : Authentication) : Prop :=
  ∃ call other, left = .accepted call ∧ right = .accepted other ∧
    call.requestId = other.requestId

theorem BothAccept.symm {left right : Authentication} (both : BothAccept left right) :
    BothAccept right left := by
  rcases both with ⟨call, other, left_eq, right_eq, same⟩
  exact ⟨other, call, right_eq, left_eq, same.symm⟩

/-- The state of a run: what is known of each process, and that identifiers are accepted once. -/
structure RequestsClaimed (primitives : Primitives) (hmac : Hmac) (secret : Text)
    (world : World SignerRequestReplays Authentication) : Prop where
  owned : ∀ index, AuthenticationInvariant primitives hmac secret world.store (world.process index)
  single : ∀ {first second}, BothAccept (world.process first) (world.process second) →
    first = second

theorem RequestsClaimed.act {index : ℕ} {finish : World SignerRequestReplays Authentication}
    (holds : RequestsClaimed primitives hmac secret world)
    (acted : (authenticationProgram primitives hmac secret).act world index event = some finish) :
    RequestsClaimed primitives hmac secret finish := by
  have owned := Program.act_local (fun _ => True)
    (AuthenticationInvariant primitives hmac secret) acted
    (fun stepped => ⟨trivial,
      (authenticationTransition_of_step stepped).preserves (holds.owned index)⟩)
    (fun stepped known => known.subset (authenticationTransition_of_step stepped).subset)
    holds.owned
  refine ⟨owned.2, ?_⟩
  rcases Program.act_eq_some_iff.mp acted with ⟨store, state, stepped, rfl⟩
  have moved := authenticationTransition_of_step stepped
  intro first second both
  refine exclusive_update BothAccept BothAccept.symm world.process ?_ (fun _ _ => holds.single) both
  rintro other distinct ⟨call, accepted, new, old, same⟩
  have before := holds.owned index
  generalize world.process index = process at moved before
  cases moved with
  | verifies | rejects | replays => cases new
  | accepts claimed =>
      cases new
      rcases (holds.owned other).stored old with ⟨row, row_mem, claimed_before⟩
      apply (claimCall_eq_ok claimed).1 row row_mem
      rw [claimed_before, ← same]
      exact (before.claims rfl).symm

/-- No process has begun, and no identifier is claimed. -/
def noRequests : World SignerRequestReplays Authentication := World.uniform [] .idle

theorem requestsClaimed_noRequests : RequestsClaimed primitives hmac secret noRequests := by
  constructor
  · exact fun _ => .of_passed_eq_none rfl
  · rintro first second ⟨call, other, impossible, _⟩
    cases impossible

section Binding

variable {other : SignerCall}

/-- The text that a request is signed for. -/
def SignerCall.message (primitives : Primitives) (call : SignerCall) : Bytes :=
  canonicalClaims primitives (call.claims (timedelta call.timestamp)) call.body.requestBody

/-- The hashes do not collide on two requests. -/
structure Unambiguous (primitives : Primitives) (hmac : Hmac) (secret : Text)
    (call other : SignerCall) : Prop where
  hmac : hmac (Json.utf8 secret) (call.message primitives) =
      hmac (Json.utf8 secret) (other.message primitives) →
    call.message primitives = other.message primitives
  sha256 : primitives.sha256 (canonicalBody call.body.requestBody) =
      primitives.sha256 (canonicalBody other.body.requestBody) →
    canonicalBody call.body.requestBody = canonicalBody other.body.requestBody

/-- A signature belongs to one request, of which it binds every field. -/
theorem SignerCall.Signed.unique (signed : call.Signed primitives hmac secret)
    (other_signed : other.Signed primitives hmac secret)
    (same : call.signature = other.signature)
    (unambiguous : Unambiguous primitives hmac secret call other) : call = other := by
  rw [SignerCall.Signed] at signed other_signed
  have signatures := signed.symm.trans (same.trans other_signed)
  have digests := Subtype.ext (hex_injective signatures)
  have texts := Json.utf8_injective (unambiguous.hmac digests)
  rcases claimsText_injective texts unambiguous.sha256 with ⟨body, caller, requestId, timestamp⟩
  rcases call with ⟨_, _, _, _, _⟩
  cases body
  cases caller
  cases requestId
  cases timestamp
  cases same
  rfl

end Binding

/--
In every run, two requests that pass `verify_claims` with one signature are equal in
every field, the action and the caller included; and of all requests with one
identifier at most one is accepted.
-/
theorem requests_boundAndAcceptedOnce
    (run : (authenticationProgram primitives hmac secret).Reaches Unrestricted noRequests world) :
    (∀ {first second call other}, (world.process first).passed = some call →
      (world.process second).passed = some other → call.signature = other.signature →
      Unambiguous primitives hmac secret call other →
      call = other ∧ call.body.action = other.body.action) ∧
    ∀ {first second call other}, world.process first = .accepted call →
      world.process second = .accepted other → call.requestId = other.requestId →
      first = second := by
  have holds := run.invariant (RequestsClaimed primitives hmac secret)
    (fun holds _ acted => holds.act acted) requestsClaimed_noRequests
  constructor
  · intro first second call other passed other_passed same unambiguous
    have equal := ((holds.owned first).signed passed).unique
      ((holds.owned second).signed other_passed) same unambiguous
    exact ⟨equal, congrArg (fun call => call.body.action) equal⟩
  · intro first second call other accepted other_accepted same
    exact holds.single ⟨call, other, accepted, other_accepted, same⟩

section Samples

/-- An idempotency key with a line break. -/
def sampleKey : IdempotencyKey := ⟨"request\n00000001".toList, by decide⟩

/-- A request whose caller and idempotency key contain line breaks. -/
def sampleCall : SignerCall where
  body := .create
    { workspaceId := ⟨41, by decide⟩
      chainId := 1
      idempotencyKey := sampleKey
      correlationId := ⟨7, by decide⟩
      mainnet := by decide }
  caller := "bot\napi".toList
  requestId := ⟨5, by decide⟩
  timestamp := 1785931200
  signature := "39c25b69aa877cde4f6b1f3e4366214008e214dc8f035ae7a3f75083363c6ced".toList

/-- A secret of 32 characters. -/
def signerSecret : Text := List.replicate 32 's'

/-- The sample hashes with the digest of the body of the request. -/
def requestHashes : Primitives :=
  { sampleHashes with
    sha256 := fun data =>
      if data = canonicalBody sampleCall.body.requestBody then
        ⟨[0x48, 0xa8, 0xcb, 0xd0, 0x41, 0xd8, 0xb7, 0x91, 0xf3, 0xe3, 0xbb, 0x19,
          0xfa, 0x0f, 0x1d, 0x2e, 0x2f, 0x64, 0x77, 0x8d, 0x9e, 0x62, 0x0b, 0xdb,
          0x9e, 0xa0, 0x7f, 0xde, 0x16, 0x36, 0xc3, 0x60], rfl⟩
      else zeroHash }

/-- The code of the request's text under the secret. -/
def requestHmac : Hmac := fun key message =>
  if key = Json.utf8 signerSecret ∧ message = sampleCall.message requestHashes then
    ⟨[0x39, 0xc2, 0x5b, 0x69, 0xaa, 0x87, 0x7c, 0xde, 0x4f, 0x6b, 0x1f, 0x3e,
      0x43, 0x66, 0x21, 0x40, 0x08, 0xe2, 0x14, 0xdc, 0x8f, 0x03, 0x5a, 0xe7,
      0xa3, 0xf7, 0x50, 0x83, 0x36, 0x3c, 0x6c, 0xed], rfl⟩
  else zeroHash

/-- The request arrives twice within its lifetime. -/
def replaySchedule : List (ℕ × AuthenticationEvent) :=
  [(0, .verify sampleCall 1785931200500000), (1, .verify sampleCall 1785931260000000),
    (1, .claim), (0, .claim)]

end Samples

/-- The replayed request is refused, although it came first. -/
theorem sampleCall_acceptedOnce :
    ∃ world, (authenticationProgram requestHashes requestHmac signerSecret).Reaches Unrestricted
        noRequests world ∧
      world.process 1 = .accepted sampleCall ∧
      ∀ index, world.process index = .accepted sampleCall → index = 1 := by
  have accepted : ((authenticationProgram requestHashes requestHmac signerSecret).execute
      noRequests replaySchedule).map (fun world => world.process 1) =
        some (.accepted sampleCall) := by
    decide +kernel
  rcases Option.map_eq_some_iff.mp accepted with ⟨world, executed, accepted⟩
  have run := Program.reaches_of_execute executed (Program.meets_unrestricted _ _)
  refine ⟨world, run, accepted, fun index found => ?_⟩
  exact (requests_boundAndAcceptedOnce run).2 found accepted rfl

end CopyMint
