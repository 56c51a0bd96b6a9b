import CopyMint.Signer.Custody
import CopyMint.Signer.Service

/-!
# Every envelope was asked for once

An envelope is only ever stored for a creation whose request was signed under the
secret and whose identifier was claimed. The request that stored it has come to a response
which names it, even if it is stopped before the response is sent, so that the requests
account for the envelopes: no envelope is without one, and since an identifier is claimed
once, no identifier accounts for two of them, however often its request is sent again.

Answers stay true, because no envelope is ever changed or removed.
-/

namespace CopyMint

open Hexadecimal Relational Interleaving

/-- The answer that names a stored envelope. -/
def SignerKeyEnvelope.response (row : SignerKeyEnvelope) (created : Bool) : WalletResponse :=
  (row.toKeyEnvelope.descriptor created).response

variable (primitives : Primitives) (hmac : Hmac) (custody : CustodyPrimitives)
  (runtime : SignerRuntime)

/-- An envelope is the one that a request asks for. -/
structure SignerRequestBody.Concerns (body : SignerRequestBody) (row : SignerKeyEnvelope) :
    Prop where
  environment : row.environment = runtime.environment
  workspaceId : row.workspaceId = body.fields.workspaceId
  chainId : row.chainId = body.fields.chainId
  create : ∀ request, body = .create request →
    hashIdempotencyKey primitives request.idempotencyKey = .ok row.idempotencyKeyHash
  restore : ∀ request, body = .restore request → row.signerKeyId = request.signerKeyId

/-- The request was signed under the secret, for an endpoint that is there. -/
def SignerCall.Genuine (call : SignerCall) : Prop :=
  call.Signed primitives hmac runtime.authSecret ∧ runtime.serves call.body = true

/-- The identifier of the request has been claimed. -/
def SignerCall.Claimed (call : SignerCall) (store : SignerStore) : Prop :=
  ∃ row ∈ store.replays, row.requestId = call.requestId

/-- The request of a phase behind the claim of its identifier. -/
def RequestPhase.admitted : RequestPhase → Option SignerCall
  | accepted call | generating call _ _ | responding call _ | answered call _ | lost call _ =>
      some call
  | idle | verified _ _ | failed _ => none

/-- The response of a request names a stored envelope that the request asks for. -/
structure Responds (store : SignerStore) (call : SignerCall) (response : WalletResponse) :
    Prop where
  genuine : call.Genuine primitives hmac runtime
  claimed : call.Claimed store
  stored : ∃ row ∈ store.envelopes, call.body.Concerns primitives runtime row ∧
    ∃ created, response = row.response created ∧
      (created = true → ∃ request, call.body = .create request)

/-- What the service knows of a request. -/
def RequestInvariant (store : SignerStore) : RequestPhase → Prop
  | .verified call claims =>
      call.Genuine primitives hmac runtime ∧ claims.requestId = call.requestId
  | .accepted call => call.Genuine primitives hmac runtime ∧ call.Claimed store
  | .generating call request keyHash =>
      call.Genuine primitives hmac runtime ∧ call.Claimed store ∧ call.body = .create request ∧
        hashIdempotencyKey primitives request.idempotencyKey = .ok keyHash
  | .responding call response | .answered call response | .lost call response =>
      Responds primitives hmac runtime store call response
  | .idle | .failed _ => True

variable {primitives hmac custody runtime} {store after : SignerStore} {phase next : RequestPhase}
  {event : SignerEvent} {call other : SignerCall} {row : SignerKeyEnvelope}
  {world : World SignerStore RequestPhase}

/-- Both tables only grow. -/
structure SignerStore.Grows (before after : SignerStore) : Prop where
  envelopes : before.envelopes ⊆ after.envelopes
  replays : before.replays ⊆ after.replays

namespace SignerStore.Grows

protected theorem refl (store : SignerStore) : Grows store store :=
  ⟨List.Subset.refl _, List.Subset.refl _⟩

theorem claimed (grows : Grows store after) (claimed : call.Claimed store) :
    call.Claimed after := by
  rcases claimed with ⟨row, row_mem, same⟩
  exact ⟨row, grows.replays row_mem, same⟩

theorem requestInvariant (grows : Grows store after)
    (holds : RequestInvariant primitives hmac runtime store phase) :
    RequestInvariant primitives hmac runtime after phase := by
  cases phase with
  | accepted call => exact ⟨holds.1, grows.claimed holds.2⟩
  | generating call request keyHash => exact ⟨holds.1, grows.claimed holds.2.1, holds.2.2⟩
  | responding call response | answered call response | lost call response =>
      rcases holds with ⟨genuine, claimed, row, row_mem, facts⟩
      exact ⟨genuine, grows.claimed claimed, row, grows.envelopes row_mem, facts⟩
  | idle | verified | failed => exact holds

end SignerStore.Grows

section Envelopes

variable {request : CreateWalletRequest} {restoring : RestoreRequest} {keyHash : BytesOf 32}

/-- The envelope under the key of a creation is the one it asks for. -/
theorem concerns_of_key
    (hashed : hashIdempotencyKey primitives request.idempotencyKey = .ok keyHash)
    (key : row.key = (runtime.environment, request.workspaceId.val, request.chainId, keyHash)) :
    (SignerRequestBody.create request).Concerns primitives runtime row := by
  simp only [SignerKeyEnvelope.key, Prod.mk.injEq] at key
  rcases key with ⟨environment, workspace, chain, rfl⟩
  refine ⟨environment, workspace, chain, ?_, ?_⟩
  · intro other same
    cases same
    exact hashed
  · intro other impossible
    cases impossible

/-- A restored key is that of a stored envelope, whose address is the answer. -/
theorem verifyRestore_eq_ok {envelopes : SignerKeyEnvelopes} {address : Text}
    (restored : verifyRestore primitives custody runtime.environment restoring.signerKeyId
      restoring.workspaceId restoring.chainId envelopes = .ok address) :
    ∃ row ∈ envelopes, (SignerRequestBody.restore restoring).Concerns primitives runtime row ∧
      row.address = address := by
  simp only [verifyRestore] at restored
  split at restored
  · cases restored
  · rename_i row found
    have matching := List.find?_some found
    simp only [Bool.and_eq_true, decide_eq_true_eq] at matching
    rcases matching with ⟨⟨⟨signer, environment⟩, workspace⟩, chain⟩
    rcases restoreAndVerifyAddress_eq_ok_iff.mp restored with ⟨_, _, _, _, _, same⟩
    refine ⟨row, List.mem_of_find?_eq_some found, ⟨environment, workspace, chain, ?_, ?_⟩, same⟩
    · intro other impossible
      cases impossible
    · intro other same
      cases same
      exact signer

end Envelopes

namespace SignerTransition

variable (moved : SignerTransition primitives hmac custody runtime store phase event after next)

include moved in
theorem grows : store.Grows after := by
  cases moved with
  | verify | fail | find | absent | restore | respond | lose => exact .refl store
  | accept claimed => exact ⟨List.Subset.refl _, subset_claimCall claimed⟩
  | replayed kept => exact ⟨List.Subset.refl _, kept⟩
  | save _ saved =>
      exact ⟨subset_of_insertOrGet (SignerKeyEnvelopes.saveOrGet_eq_ok saved),
        List.Subset.refl _⟩

include moved in
/-- The request that acts keeps to what the service knows of it. -/
theorem preserves (holds : RequestInvariant primitives hmac runtime store phase) :
    RequestInvariant primitives hmac runtime after next := by
  cases moved with
  | verify served signed => exact ⟨⟨signed, served⟩, rfl⟩
  | fail | replayed => trivial
  | accept claimed =>
      rcases (claimCall_eq_ok claimed).2 with ⟨row, row_mem, same⟩
      exact ⟨holds.1, row, row_mem, same.trans holds.2⟩
  | find body hashed found =>
      rcases lookup_eq_some_mem found with ⟨row_mem, key⟩
      refine ⟨holds.1, holds.2, _, row_mem, ?_, false, rfl, nofun⟩
      rw [body]
      exact concerns_of_key hashed key
  | absent body hashed => exact ⟨holds.1, holds.2, body, hashed⟩
  | @restore call request address body restored =>
      rcases verifyRestore_eq_ok restored with ⟨row, row_mem, concerns, rfl⟩
      refine ⟨holds.1, holds.2, row, row_mem, body ▸ concerns, false, ?_, nofun⟩
      have chain := List.mem_singleton.mp request.mainnet
      simp only [SignerKeyEnvelope.response, KeyEnvelope.descriptor, WalletDescriptor.response]
      rw [concerns.restore request rfl, concerns.workspaceId, chain]
      rfl
  | @save call request keyHash signerKeyId material envelope envelopes stored created made saved =>
      rcases holds with ⟨genuine, claimed, body, hashed⟩
      have inserted := SignerKeyEnvelopes.saveOrGet_eq_ok saved
      rcases createKeyEnvelope_eq_ok made with ⟨_, environment, workspace, chain, _⟩
      refine ⟨genuine, claimed, stored, (mem_of_insertOrGet inserted).1, ?_, created, rfl,
        fun _ => ⟨request, body⟩⟩
      rw [body]
      refine concerns_of_key hashed ?_
      rw [(mem_of_insertOrGet inserted).2]
      simp only [SignerKeyEnvelope.key, environment, workspace, chain]
  | respond | lose => exact holds

end SignerTransition

/-- Two requests with one identifier have been admitted. -/
def BothAdmitted (left right : RequestPhase) : Prop :=
  ∃ call other, left.admitted = some call ∧ right.admitted = some other ∧
    call.requestId = other.requestId

theorem BothAdmitted.symm {left right : RequestPhase} (both : BothAdmitted left right) :
    BothAdmitted right left := by
  rcases both with ⟨call, other, left_eq, right_eq, same⟩
  exact ⟨other, call, right_eq, left_eq, same.symm⟩

theorem RequestInvariant.admitted
    (holds : RequestInvariant primitives hmac runtime store phase)
    (admitted : phase.admitted = some call) :
    call.Genuine primitives hmac runtime ∧ call.Claimed store := by
  cases phase with
  | accepted =>
      cases admitted
      exact holds
  | generating =>
      cases admitted
      exact ⟨holds.1, holds.2.1⟩
  | responding | answered | lost =>
      cases admitted
      exact ⟨holds.genuine, holds.claimed⟩
  | idle | verified | failed => cases admitted

/-- The request of a process has stored an envelope, and its response says so. -/
def Issued (world : World SignerStore RequestPhase) (index : ℕ) (row : SignerKeyEnvelope) : Prop :=
  ∃ call, (world.process index).outcome = some (call, row.response true)

/-- What holds of the service in all worlds of a run. -/
structure SignerInvariant (primitives : Primitives) (hmac : Hmac) (runtime : SignerRuntime)
    (world : World SignerStore RequestPhase) : Prop where
  requests : ∀ index, RequestInvariant primitives hmac runtime world.store (world.process index)
  once : ∀ first second, BothAdmitted (world.process first) (world.process second) →
    first = second
  keys : Unique (fun row : SignerKeyEnvelope => row.signerKeyId) world.store.envelopes
  issued : ∀ row ∈ world.store.envelopes, ∃ index, Issued world index row

theorem signerInvariant_newSigner : SignerInvariant primitives hmac runtime newSigner where
  requests := fun _ => trivial
  once := by
    rintro first second ⟨call, other, impossible, _⟩
    cases impossible
  keys := unique_nil
  issued := by
    intro row row_mem
    cases row_mem

namespace SignerInvariant

variable {index : ℕ} {finish : World SignerStore RequestPhase}

/-- A request that is admitted has claimed its identifier before all others. -/
theorem once_act (holds : SignerInvariant primitives hmac runtime world)
    (moved : SignerTransition primitives hmac custody runtime world.store (world.process index)
      event after next) {first second : ℕ}
    (both : BothAdmitted (Function.update world.process index next first)
      (Function.update world.process index next second)) : first = second := by
  refine exclusive_update BothAdmitted BothAdmitted.symm world.process ?_ holds.once both
  rintro distinct other_ne ⟨call, other, new, old, same⟩
  -- Only a claim admits a request that was not admitted before.
  by_cases before : (world.process index).admitted = some call
  · exact other_ne (holds.once distinct index ⟨other, call, old, before, same.symm⟩)
  · have known := holds.requests index
    generalize world.process index = phase at moved before known
    cases moved with
    | verify | fail | replayed => cases new
    | find | absent | restore | save | respond | lose => exact before new
    | accept claimed =>
        cases new
        rcases ((holds.requests distinct).admitted old).2 with ⟨row, row_mem, claimed_before⟩
        apply (claimCall_eq_ok claimed).1 row row_mem
        rw [claimed_before, ← same]
        exact known.2.symm

/-- A request that has come to a response keeps it. -/
theorem outcome_of_outcome {answer : SignerCall × WalletResponse}
    (moved : SignerTransition primitives hmac custody runtime store phase event after next)
    (decided : phase.outcome = some answer) : next.outcome = some answer := by
  cases moved with
  | fail undecided => cases undecided.symm.trans decided
  | respond | lose => exact decided
  | verify | accept | replayed | find | absent | restore | save => cases decided

/-- Whoever has issued an envelope keeps the response that says so. -/
theorem issued_of_issued
    (moved : SignerTransition primitives hmac custody runtime world.store (world.process index)
      event after next) {issuer : ℕ} (issued : Issued world issuer row) :
    Issued ⟨after, Function.update world.process index next⟩ issuer row := by
  rcases issued with ⟨call, decided⟩
  refine ⟨call, ?_⟩
  by_cases same : issuer = index
  · subst same
    simpa using outcome_of_outcome moved decided
  · simpa [Function.update_of_ne same] using decided

/-- A saved envelope is accounted for by the request that has saved it. -/
theorem issued_act (holds : SignerInvariant primitives hmac runtime world)
    (moved : SignerTransition primitives hmac custody runtime world.store (world.process index)
      event after next) (row_mem : row ∈ after.envelopes) :
    ∃ issuer, Issued ⟨after, Function.update world.process index next⟩ issuer row := by
  have earlier : row ∈ world.store.envelopes →
      ∃ issuer, Issued ⟨after, Function.update world.process index next⟩ issuer row := by
    intro old
    rcases holds.issued row old with ⟨issuer, issued⟩
    exact ⟨issuer, issued_of_issued moved issued⟩
  have moved_again := moved
  generalize world.process index = phase at moved_again
  cases moved_again with
  | verify | fail | accept | replayed | find | absent | restore | respond | lose =>
      exact earlier row_mem
  | @save call request keyHash signerKeyId material envelope envelopes stored created made saved =>
      have inserted := SignerKeyEnvelopes.saveOrGet_eq_ok saved
      cases created with
      | false =>
          rw [(insertOrGet_eq_some_false inserted).1] at row_mem
          exact earlier row_mem
      | true =>
          rcases eq_or_mem_of_mem_insertOrGet inserted row_mem with old | rfl
          · exact earlier old
          · rcases insertOrGet_eq_some_true inserted with ⟨_, rfl, _, _⟩
            refine ⟨index, call, ?_⟩
            simp only [Function.update_self]
            rfl

theorem keys_act (holds : SignerInvariant primitives hmac runtime world)
    (moved : SignerTransition primitives hmac custody runtime world.store phase event after next) :
    Unique (fun row : SignerKeyEnvelope => row.signerKeyId) after.envelopes := by
  cases moved with
  | verify | fail | accept | replayed | find | absent | restore | respond | lose =>
      exact holds.keys
  | save _ saved => exact (Saves.tail (.refl _) saved).unique holds.keys

theorem act (holds : SignerInvariant primitives hmac runtime world)
    (acted : (signerProgram primitives hmac custody runtime).act world index event = some finish) :
    SignerInvariant primitives hmac runtime finish := by
  have requests := Program.act_local (fun _ => True) (RequestInvariant primitives hmac runtime)
    acted
    (fun stepped => ⟨trivial, (signerTransition_of_step stepped).preserves (holds.requests index)⟩)
    (fun stepped known => (signerTransition_of_step stepped).grows.requestInvariant known)
    holds.requests
  rcases Program.act_eq_some_iff.mp acted with ⟨after, next, stepped, rfl⟩
  have moved := signerTransition_of_step stepped
  exact ⟨requests.2, fun _ _ both => holds.once_act moved both, holds.keys_act moved,
    fun _ row_mem => holds.issued_act moved row_mem⟩

end SignerInvariant

section Accounts

variable {first second : ℕ} {response : WalletResponse}

theorem RequestInvariant.responds (holds : RequestInvariant primitives hmac runtime store phase)
    (decided : phase.outcome = some (call, response)) :
    phase.admitted = some call ∧ Responds primitives hmac runtime store call response := by
  cases phase with
  | responding | answered | lost =>
      cases decided
      exact ⟨rfl, holds⟩
  | idle | verified | accepted | generating | failed => cases decided

/-- The request that an envelope was issued for was genuine and asked for it. -/
theorem SignerInvariant.issued_spec (holds : SignerInvariant primitives hmac runtime world)
    (issued : Issued world first row) (row_mem : row ∈ world.store.envelopes) :
    ∃ call request, (world.process first).outcome = some (call, row.response true) ∧
      call.body = .create request ∧ call.Genuine primitives hmac runtime ∧
      call.Claimed world.store ∧ call.body.Concerns primitives runtime row := by
  rcases issued with ⟨call, decided⟩
  rcases (holds.requests first).responds decided with
    ⟨_, genuine, claimed, other, other_mem, concerns, created, same, asked⟩
  simp only [SignerKeyEnvelope.response, WalletDescriptor.response, KeyEnvelope.descriptor,
    WalletResponse.mk.injEq] at same
  rcases same with ⟨key, _, _, _, rfl⟩
  rcases asked rfl with ⟨request, body⟩
  have equal := holds.keys.eq_of_key_eq other_mem row_mem key.symm
  exact ⟨call, request, decided, body, genuine, claimed, equal ▸ concerns⟩

/-- Envelopes issued under one identifier are one envelope. -/
theorem SignerInvariant.eq_of_issued (holds : SignerInvariant primitives hmac runtime world)
    {row other : SignerKeyEnvelope}
    (row_mem : row ∈ world.store.envelopes) (other_mem : other ∈ world.store.envelopes)
    {call request : SignerCall}
    (issued : (world.process first).outcome = some (call, row.response true))
    (also : (world.process second).outcome = some (request, other.response true))
    (same : call.requestId = request.requestId) : first = second ∧ row = other := by
  have equal : first = second :=
    holds.once first second ⟨call, request, ((holds.requests first).responds issued).1,
      ((holds.requests second).responds also).1, same⟩
  subst equal
  have answers := issued.symm.trans also
  simp only [Option.some.injEq, Prod.mk.injEq, SignerKeyEnvelope.response,
    WalletDescriptor.response, KeyEnvelope.descriptor, WalletResponse.mk.injEq] at answers
  exact ⟨rfl, holds.keys.eq_of_key_eq row_mem other_mem answers.2.1⟩

/-- Rows that different values account for are not more than those values. -/
theorem length_le_of_accounted {Row Value : Type} {rows : List Row} {values : List Value}
    (nodup : rows.Nodup) (accounts : Row → Value → Prop)
    (total : ∀ row ∈ rows, ∃ value ∈ values, accounts row value)
    (single : ∀ row ∈ rows, ∀ other ∈ rows, ∀ value, accounts row value → accounts other value →
      row = other) : rows.length ≤ values.length := by
  induction rows generalizing values with
  | nil => exact Nat.zero_le _
  | cons row rows ih =>
      rcases total row List.mem_cons_self with ⟨value, value_mem, accounted⟩
      rcases List.append_of_mem value_mem with ⟨front, back, rfl⟩
      have fewer : rows.length ≤ (front ++ back).length := by
        refine ih nodup.of_cons ?_ fun row row_mem other other_mem =>
          single row (List.mem_cons_of_mem _ row_mem) other (List.mem_cons_of_mem _ other_mem)
        intro other other_mem
        rcases total other (List.mem_cons_of_mem _ other_mem) with ⟨held, held_mem, accounted'⟩
        have different : held ≠ value := by
          rintro rfl
          have same := single row List.mem_cons_self other (List.mem_cons_of_mem _ other_mem) held
            accounted accounted'
          exact nodup.notMem (same ▸ other_mem)
        refine ⟨held, ?_, accounted'⟩
        simpa [different] using held_mem
      simp only [List.length_append, List.length_cons] at fewer ⊢
      omega

/-- There are not more envelopes than claimed identifiers. -/
theorem SignerInvariant.length_le (holds : SignerInvariant primitives hmac runtime world) :
    world.store.envelopes.length ≤ world.store.replays.length := by
  have bound : world.store.envelopes.length ≤
      (world.store.replays.map fun row => row.requestId).length := by
    refine length_le_of_accounted (List.Nodup.of_map _ holds.keys)
      (fun row id => ∃ index call,
        (world.process index).outcome = some (call, row.response true) ∧
          call.requestId.val = id) ?_ ?_
    · intro row row_mem
      rcases holds.issued row row_mem with ⟨index, issued⟩
      rcases holds.issued_spec issued row_mem with
        ⟨call, _, answered, _, _, ⟨claim, claim_mem, same⟩, _⟩
      exact ⟨call.requestId, List.mem_map.mpr ⟨claim, claim_mem, same⟩, index, call, answered, rfl⟩
    · rintro row row_mem other other_mem id ⟨first, call, issued, rfl⟩ ⟨second, request, also, same⟩
      exact (holds.eq_of_issued row_mem other_mem issued also (Subtype.ext same.symm)).2
  simpa using bound

end Accounts

/--
In every run, each envelope is accounted for by one request that was signed for its
environment, workspace, chain and idempotency key, whose identifier was claimed and that
has come to a response with the envelope; one identifier accounts for one envelope at most;
and what a request is answered is stored and what it asked for.
-/
theorem envelopes_issuedOnRequest
    (run : (signerProgram primitives hmac custody runtime).Reaches Unrestricted newSigner world) :
    (∀ row ∈ world.store.envelopes, ∃ index call request,
      (world.process index).outcome = some (call, row.response true) ∧
        call.body = .create request ∧ call.Signed primitives hmac runtime.authSecret ∧
        call.Claimed world.store ∧ call.body.Concerns primitives runtime row) ∧
    (∀ first second call other row envelope, row ∈ world.store.envelopes →
      envelope ∈ world.store.envelopes →
      (world.process first).outcome = some (call, row.response true) →
      (world.process second).outcome = some (other, envelope.response true) →
      call.requestId = other.requestId → first = second ∧ row = envelope) ∧
    world.store.envelopes.length ≤ world.store.replays.length ∧
    ∀ index call response, world.process index = .answered call response →
      call.Signed primitives hmac runtime.authSecret ∧ runtime.serves call.body = true ∧
        ∃ row ∈ world.store.envelopes, call.body.Concerns primitives runtime row ∧
          ∃ created, response = row.response created := by
  have holds := run.invariant (SignerInvariant primitives hmac runtime)
    (fun holds _ acted => holds.act acted) signerInvariant_newSigner
  refine ⟨?_, ?_, holds.length_le, ?_⟩
  · intro row row_mem
    rcases holds.issued row row_mem with ⟨index, issued⟩
    rcases holds.issued_spec issued row_mem with
      ⟨call, request, decided, body, genuine, claimed, concerns⟩
    exact ⟨index, call, request, decided, body, genuine.1, claimed, concerns⟩
  · intro first second call other row envelope row_mem envelope_mem issued also same
    exact holds.eq_of_issued row_mem envelope_mem issued also same
  · intro index call response answered
    have known := holds.requests index
    rw [answered] at known
    rcases known with ⟨genuine, _, row, row_mem, concerns, created, same, _⟩
    exact ⟨genuine.1, genuine.2, row, row_mem, concerns, created, same⟩

section Samples

/--
One request arrives twice; the copy claims the identifier and creates the wallet, and is
stopped before its response is sent.
-/
def issuanceSchedule : List (ℕ × SignerEvent) :=
  [(0, .post sampleCall 1785931200500000), (1, .post sampleCall 1785931201000000), (1, .claim),
    (0, .claim), (1, .query), (1, .generate 41 (sampleMaterial 1)), (1, .stop)]

/-- A signer for development. -/
def sampleRuntime : SignerRuntime := ⟨"development".toList, signerSecret⟩

end Samples

theorem sampleEnvelope_issuedOnRequest :
    ∃ world, (signerProgram requestHashes requestHmac sampleCustody sampleRuntime).Reaches
        Unrestricted newSigner world ∧ world.store.envelopes ≠ [] ∧
      ∀ row ∈ world.store.envelopes, ∃ index call request,
        (world.process index).outcome = some (call, row.response true) ∧
          call.body = .create request ∧ call.Signed requestHashes requestHmac signerSecret ∧
          call.Claimed world.store ∧ call.body.Concerns requestHashes sampleRuntime row := by
  have counted : ((signerProgram requestHashes requestHmac sampleCustody sampleRuntime).execute
      newSigner issuanceSchedule).map (fun world => world.store.envelopes.length) = some 1 := by
    decide +kernel
  rcases Option.map_eq_some_iff.mp counted with ⟨world, executed, length⟩
  have run := Program.reaches_of_execute executed (Program.meets_unrestricted _ _)
  refine ⟨world, run, ?_, (envelopes_issuedOnRequest run).1⟩
  rintro none
  rw [none] at length
  cases length

end CopyMint
