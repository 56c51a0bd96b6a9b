import CopyMint.Signer.Tampering

/-!
# Stored keys can be restored

The table of envelopes only grows, and no two of its rows have one signer key. So
whatever is saved after it, a stored envelope is found again by its signer key, for
the environment, workspace and chain that it was created for and for no other; and
what the creation has encrypted is what the restoration decrypts.
-/

namespace CopyMint

open Hexadecimal Relational

/-- Decryption inverts encryption under equal key, nonce and associated data. -/
def InvertsEncryption (custody : CustodyPrimitives) : Prop :=
  ∀ (key : BytesOf 32) (nonce : BytesOf 12) (data authenticated : Bytes),
    custody.decrypt key nonce.val (custody.encrypt key nonce data authenticated) authenticated =
      some data

/-- The data key is decrypted exactly under the context that it was generated for. -/
def GeneratedUnder (custody : CustodyPrimitives) (context : List (Text × Text))
    (dataKey : GeneratedDataKey) : Prop :=
  ∀ other plaintext, custody.decryptDataKey dataKey.ciphertext other = .ok plaintext ↔
    other = context ∧ plaintext = dataKey.plaintext

/-- A table arises from another one by saving envelopes. -/
inductive Saves : SignerKeyEnvelopes → SignerKeyEnvelopes → Prop
  | refl (table : SignerKeyEnvelopes) : Saves table table
  | tail {first middle last : SignerKeyEnvelopes} {envelope : KeyEnvelope}
      {keyHash : BytesOf 32} {row : SignerKeyEnvelope} {created : Bool}
      (run : Saves first middle)
      (saved : middle.saveOrGet envelope keyHash = .ok (last, row, created)) : Saves first last

namespace Saves

variable {table next : SignerKeyEnvelopes} {envelope : KeyEnvelope} {keyHash : BytesOf 32}
  {row : SignerKeyEnvelope} {created : Bool}

theorem trans {first middle last : SignerKeyEnvelopes} (begins : Saves first middle)
    (continues : Saves middle last) : Saves first last := by
  induction continues with
  | refl => exact begins
  | tail _ saved ih => exact ih.tail saved

theorem subset (run : Saves table next) : table ⊆ next := by
  induction run with
  | refl => exact List.Subset.refl _
  | tail _ saved ih =>
      exact List.Subset.trans ih (subset_of_insertOrGet (SignerKeyEnvelopes.saveOrGet_eq_ok saved))

/-- No two rows have one signer key. -/
theorem unique (run : Saves table next)
    (initially : Unique (fun row : SignerKeyEnvelope => row.signerKeyId) table) :
    Unique (fun row : SignerKeyEnvelope => row.signerKeyId) next := by
  induction run with
  | refl => exact initially
  | @tail middle last envelope keyHash row created _ saved ih =>
      have inserted := SignerKeyEnvelopes.saveOrGet_eq_ok saved
      cases created with
      | false =>
          rw [(insertOrGet_eq_some_false inserted).1]
          exact ih
      | true =>
          rcases insertOrGet_eq_some_true inserted with ⟨rfl, _, _, apart⟩
          have absent : ∀ existing ∈ middle, existing.signerKeyId ≠ envelope.signerKeyId := by
            intro existing existing_mem
            simpa [SignerKeyEnvelope.clashes] using apart existing existing_mem
          rw [← insertOrIgnore_of_absent absent]
          exact ih.insertOrIgnore _

end Saves

variable {primitives : Primitives} {custody : CustodyPrimitives} {environment : Text}
  {workspaceId chainId signerKeyId : ℕ} {material : KeyMaterial} {envelope : KeyEnvelope}
  {row : SignerKeyEnvelope} {table next final : SignerKeyEnvelopes} {keyHash : BytesOf 32}

/-- A created envelope is restored to its address. -/
theorem restores_created (inverts : InvertsEncryption custody)
    (created : createKeyEnvelope primitives custody.toSignerPrimitives environment workspaceId
      chainId signerKeyId material = .ok envelope)
    (generated : GeneratedUnder custody envelope.encryptionContext material.dataKey) :
    restoreAndVerifyAddress primitives custody envelope = .ok envelope.address := by
  rcases createKeyEnvelope_sealed created with ⟨dataKey, plaintext, ciphertext, nonce, joined⟩
  apply restoreAndVerifyAddress_eq_ok_iff.mpr
  refine ⟨dataKey, material.privateKey.val, ?_, ?_, fromKey_created created, rfl⟩
  · rw [ciphertext, plaintext]
    exact (generated _ _).mpr ⟨rfl, rfl⟩
  · rw [nonce, joined]
    exact inverts dataKey material.nonce material.privateKey.val _

/-- A row is found by its signer key, and only for what it was created for. -/
theorem findForWorkspace_of_mem
    (unique : Unique (fun row : SignerKeyEnvelope => row.signerKeyId) table)
    (row_mem : row ∈ table) (environment : Text) (workspaceId chainId : ℕ) :
    table.findForWorkspace row.signerKeyId environment workspaceId chainId =
      if row.environment = environment ∧ row.workspaceId = workspaceId ∧ row.chainId = chainId then
        some row
      else none := by
  have only : ∀ other ∈ table, other.signerKeyId = row.signerKeyId → other = row :=
    fun other other_mem same => unique.eq_of_key_eq other_mem row_mem same
  split_ifs with own
  · cases found : table.findForWorkspace row.signerKeyId environment workspaceId chainId with
    | none =>
        have missed := List.find?_eq_none.mp found row row_mem
        simp [own] at missed
    | some other =>
        have matching := List.find?_some found
        simp only [Bool.and_eq_true, decide_eq_true_eq] at matching
        rw [only other (List.mem_of_find?_eq_some found) matching.1.1.1]
  · refine List.find?_eq_none.mpr fun other other_mem matching => own ?_
    simp only [Bool.and_eq_true, decide_eq_true_eq] at matching
    rw [← only other other_mem matching.1.1.1]
    exact ⟨matching.1.1.2, matching.1.2, matching.2⟩

/--
Whatever is saved before and after it, a created envelope that has been stored is
restored to the address of its creation, and no other environment, workspace or chain
gets an address for its signer key.
-/
theorem envelope_roundTrip (inverts : InvertsEncryption custody)
    (created : createKeyEnvelope primitives custody.toSignerPrimitives environment workspaceId 1
      signerKeyId material = .ok envelope)
    (generated : GeneratedUnder custody envelope.encryptionContext material.dataKey)
    (earlier : Saves [] table) (saved : table.saveOrGet envelope keyHash = .ok (next, row, true))
    (later : Saves next final) :
    verifyRestore primitives custody environment signerKeyId workspaceId 1 final =
        .ok envelope.address ∧
      row.address = envelope.address ∧
      ∀ otherEnvironment otherWorkspace otherChain,
        (otherEnvironment, otherWorkspace, otherChain) ≠ (environment, workspaceId, 1) →
        verifyRestore primitives custody otherEnvironment signerKeyId otherWorkspace otherChain
          final = .error (.lookupError "signer key was not found") := by
  have inserted := SignerKeyEnvelopes.saveOrGet_eq_ok saved
  rcases createKeyEnvelope_eq_ok created with ⟨key_eq, environment_eq, workspace_eq, chain_eq, _⟩
  rcases insertOrGet_eq_some_true inserted with ⟨_, rfl, _, _⟩
  have row_mem := later.subset (mem_of_insertOrGet inserted).1
  have unique := ((earlier.tail saved).trans later).unique unique_nil
  have found := findForWorkspace_of_mem unique row_mem
  dsimp only at found
  rw [key_eq, environment_eq, workspace_eq, chain_eq] at found
  refine ⟨?_, rfl, ?_⟩
  · simp only [verifyRestore, found]
    exact restores_created inverts created generated
  · intro otherEnvironment otherWorkspace otherChain different
    simp only [verifyRestore, found]
    rw [if_neg]
    rintro ⟨rfl, rfl, rfl⟩
    exact different rfl

section Samples

/-- A cipher that seals the sample key as it is, and a service that has one data key. -/
def invertibleCustody : CustodyPrimitives :=
  { sampleCustody with
    encrypt := fun _ _ data _ =>
      if data = (sampleMaterial 1).privateKey.val then sampleSealed
      else data ++ List.replicate 16 0
    decrypt := fun _ _ data _ =>
      if data = sampleSealed then some (sampleMaterial 1).privateKey.val
      else some (data.take (data.length - 16)) }

theorem invertibleCustody_inverts : InvertsEncryption invertibleCustody := by
  intro key nonce data authenticated
  simp only [invertibleCustody]
  split_ifs with own sealed sealed
  · rw [own]
  · exact absurd rfl sealed
  · have parts : sampleSealed = sampleSealed.take 32 ++ sampleSealed.drop 32 :=
      (List.take_append_drop 32 sampleSealed).symm
    have tags := (List.append_inj' (sealed.trans parts) (by decide)).2
    exact absurd tags (by decide)
  · simp

theorem sampleDataKey_generated :
    GeneratedUnder invertibleCustody sampleEnvelope.encryptionContext
      (sampleMaterial 1).dataKey := by
  intro other plaintext
  have decrypts := sampleCustody_ideal.decryptDataKey (sampleMaterial 1).dataKey.ciphertext other
    plaintext
  simp only [true_and] at decrypts
  exact decrypts

end Samples

/-- The sample envelope is restored from the table that holds it alone. -/
theorem sampleEnvelope_restored :
    verifyRestore walletHashes invertibleCustody "development".toList 41 1 1
        [{ sampleEnvelope with idempotencyKeyHash := zeroHash }] = .ok sampleEnvelope.address ∧
      verifyRestore walletHashes invertibleCustody "production".toList 41 1 1
        [{ sampleEnvelope with idempotencyKeyHash := zeroHash }] =
          .error (.lookupError "signer key was not found") := by
  have created : createKeyEnvelope walletHashes invertibleCustody.toSignerPrimitives
      "development".toList 1 1 41 (sampleMaterial 1) = .ok sampleEnvelope := by
    decide +kernel
  have saved : SignerKeyEnvelopes.saveOrGet sampleEnvelope zeroHash [] =
      .ok ([{ sampleEnvelope with idempotencyKeyHash := zeroHash }],
        { sampleEnvelope with idempotencyKeyHash := zeroHash }, true) := by
    decide +kernel
  have restored := envelope_roundTrip invertibleCustody_inverts created sampleDataKey_generated
    (.refl []) saved (.refl _)
  exact ⟨restored.1, restored.2.2 _ _ _ (by decide)⟩

end CopyMint
