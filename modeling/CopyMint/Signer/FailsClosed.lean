import CopyMint.Signer.Client

/-!
# How the authentication of a request fails

A request whose claims do not verify is to be answered with 401, and one whose identifier
has been used with 409. Only the comparison of the signature stands in the guarded block,
and the guard does not name every exception of what is in it: the conversion of the
timestamp, the sum for the expiry of the identifier and the comparison of text beyond
ASCII raise past both answers.
-/

namespace CopyMint

open Hexadecimal Relational Fallible

namespace SignerCall

/-- `datetime` can stand for the timestamp. -/
def Representable (call : SignerCall) : Prop :=
  -62135596800 ≤ call.timestamp ∧ call.timestamp ≤ 253402300799

/-- The age that `verify_claims` accepts. -/
def Fresh (call : SignerCall) (now : ℤ) : Prop :=
  -timedelta 5 ≤ now - timedelta call.timestamp ∧ now - timedelta call.timestamp ≤ timedelta 60

/-- A signature of the right length that is no digest, for it has characters beyond ASCII. -/
def Incomparable (call : SignerCall) : Prop :=
  call.signature.length = 64 ∧ isAscii call.signature = false

variable (primitives : Primitives) (hmac : Hmac) (secret : Text)

/-- The claims of a call verify. -/
structure Verifies (call : SignerCall) (now : ℤ) : Prop where
  representable : call.Representable
  fresh : call.Fresh now
  signed : call.Signed primitives hmac secret

/-- What a call is answered by: it is accepted, refused with 401, or a replay. -/
inductive FailsClosed (call : SignerCall) (now : ℤ) (replays : SignerRequestReplays) :
    Except SignerFailure Unit → Prop
  | accepted (verifies : call.Verifies primitives hmac secret now)
      (unused : ∀ row ∈ replays, row.requestId ≠ call.requestId) :
      FailsClosed call now replays (.ok ())
  | refused (fails : ¬call.Verifies primitives hmac secret now) (code : Text) :
      FailsClosed call now replays (.error (.httpException 401 code))
  | replayed (verifies : call.Verifies primitives hmac secret now)
      (used : ∃ row ∈ replays, row.requestId = call.requestId) (code : Text) :
      FailsClosed call now replays (.error (.httpException 409 code))

/-- What `authenticate` finds of a call up to its replay check, in the order of the checks. -/
inductive Outcome (call : SignerCall) (now : ℤ) : Except SignerFailure SignerClaims → Prop
  | unrepresentable (outside : ¬call.Representable) :
      Outcome call now (.error .timestampOutOfRange)
  | refused (representable : call.Representable)
      (comparable : ¬(call.Fresh now ∧ call.Incomparable))
      (fails : ¬call.Verifies primitives hmac secret now) :
      Outcome call now (.error (.httpException 401 "signer_authentication_failed".toList))
  | incomparable (fresh : call.Fresh now) (incomparable : call.Incomparable) :
      Outcome call now (.error .notAscii)
  | verified (verifies : call.Verifies primitives hmac secret now) :
      Outcome call now (.ok (call.claims (timedelta call.timestamp)))

end SignerCall

variable {primitives : Primitives} {hmac : Hmac} {secret : Text} {call : SignerCall}
  {now : ℤ} {replays : SignerRequestReplays}

/-- A signature that a call was given by its signer can be compared. -/
theorem not_incomparable_of_signed (signed : call.Signed primitives hmac secret) :
    ¬call.Incomparable := by
  rintro ⟨_, beyond⟩
  rw [signed, signClaims, isAscii_hex] at beyond
  cases beyond

theorem verifyCall_outcome (primitives : Primitives) (hmac : Hmac) (secret : Text)
    (call : SignerCall) (now : ℤ) :
    call.Outcome primitives hmac secret now (verifyCall primitives hmac secret call now) := by
  simp only [verifyCall]
  by_cases representable : call.Representable
  · have stamped : fromTimestamp call.timestamp = .ok (timedelta call.timestamp) :=
      if_pos representable
    rw [stamped, ok_bind]
    simp only [verifyClaims]
    split_ifs with stale length beyond differs
    · have expired : ¬call.Fresh now := by
        rintro ⟨early, late⟩
        simp only [SignerCall.claims] at stale
        omega
      exact .refused representable (fun facts => expired facts.1) fun verifies =>
        expired verifies.fresh
    all_goals
      have fresh : call.Fresh now := by
        simp only [SignerCall.claims] at stale
        simp only [SignerCall.Fresh]
        omega
    · refine .refused representable (fun facts => length facts.2.1) fun verifies => ?_
      apply length
      rw [verifies.signed]
      simp [signClaims, (hmac _ _).property]
    · exact .incomparable fresh ⟨not_not.mp length, by simpa using beyond⟩
    · refine .refused representable (fun facts => ?_) fun verifies => differs verifies.signed
      rw [facts.2.2] at beyond
      exact beyond rfl
    · exact .verified ⟨representable, fresh, not_not.mp differs⟩
  · have stamped : fromTimestamp call.timestamp = .error .timestampOutOfRange :=
      if_neg representable
    rw [stamped]
    exact .unrepresentable representable

/-- The replay check fails closed. -/
theorem claimCall_failsClosed (verifies : call.Verifies primitives hmac secret now) :
    call.FailsClosed primitives hmac secret now replays
      (claimCall (call.claims (timedelta call.timestamp)) replays).2 := by
  simp only [claimCall, SignerRequestReplays.claim, SignerCall.claims]
  cases found : lookup SignerRequestReplay.requestId call.requestId replays with
  | none => exact .accepted verifies (lookup_eq_none_iff.mp found)
  | some row =>
      rcases lookup_eq_some_mem found with ⟨row_mem, same⟩
      exact .replayed verifies ⟨row, row_mem, same⟩ _

/--
The authentication of a call fails closed exactly if its timestamp is a `datetime`, its
signature can be compared unless it is stale, and the expiry of the identifier that it
would claim is a `datetime` as well.
-/
theorem authenticate_failsClosed_iff (primitives : Primitives) (hmac : Hmac) (secret : Text)
    (call : SignerCall) (now : ℤ) (replays : SignerRequestReplays) :
    call.FailsClosed primitives hmac secret now replays
        (authenticate primitives hmac secret call now replays).2 ↔
      call.Representable ∧ ¬(call.Fresh now ∧ call.Incomparable) ∧
        ¬(call.Verifies primitives hmac secret now ∧ 253402300740 ≤ call.timestamp) := by
  have outcome := verifyCall_outcome primitives hmac secret call now
  simp only [authenticate]
  generalize verifyCall primitives hmac secret call now = verified at outcome
  cases outcome with
  | unrepresentable outside =>
      constructor
      · intro closed
        cases closed
      · exact fun facts => absurd facts.1 outside
  | refused representable comparable fails =>
      constructor
      · exact fun _ => ⟨representable, comparable, fun facts => fails facts.1⟩
      · exact fun _ => .refused fails _
  | incomparable fresh incomparable =>
      constructor
      · intro closed
        cases closed
      · exact fun facts => absurd ⟨fresh, incomparable⟩ facts.2.1
  | verified verifies =>
      have expiry : (call.claims (timedelta call.timestamp)).issuedAt + authMaxAge <
          timedelta 253402300800 ↔ ¬253402300740 ≤ call.timestamp := by
        simp only [SignerCall.claims, authMaxAge, timedelta]
        omega
      simp only [expiry]
      split_ifs with late
      · constructor
        · intro closed
          cases closed
        · exact fun facts => absurd ⟨verifies, late⟩ facts.2.2
      · constructor
        · intro _
          refine ⟨verifies.representable, fun facts => ?_, fun facts => late facts.2⟩
          exact not_incomparable_of_signed verifies.signed facts.2
        · exact fun _ => claimCall_failsClosed verifies

/-- The sample call in a year that no calendar has, and with a signature beyond ASCII. -/
theorem malformedCalls_failOpen :
    ¬{ sampleCall with timestamp := 1000000000000000 }.FailsClosed requestHashes clientHmac
        signerSecret 1785931200000000 []
        (authenticate requestHashes clientHmac signerSecret
          { sampleCall with timestamp := 1000000000000000 } 1785931200000000 []).2 ∧
      ¬{ sampleCall with signature := List.replicate 64 'é' }.FailsClosed requestHashes
        clientHmac signerSecret 1785931200000000 []
        (authenticate requestHashes clientHmac signerSecret
          { sampleCall with signature := List.replicate 64 'é' } 1785931200000000 []).2 := by
  constructor
  · have raised : (authenticate requestHashes clientHmac signerSecret
        { sampleCall with timestamp := 1000000000000000 } 1785931200000000 []).2 =
        .error .timestampOutOfRange := rfl
    rw [raised]
    intro closed
    cases closed
  · have raised : (authenticate requestHashes clientHmac signerSecret
        { sampleCall with signature := List.replicate 64 'é' } 1785931200000000 []).2 =
        .error .notAscii := rfl
    rw [raised]
    intro closed
    cases closed

end CopyMint
