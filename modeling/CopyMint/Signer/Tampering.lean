import CopyMint.Signer.Restore
import CopyMint.Wallets.Creation

/-!
# Tampering with an envelope

Ideal decryption succeeds only on what the matching encryption has produced. Then an
envelope that differs from a created one is restored exactly if it differs in
nothing that reaches a decryption. The version of the envelope does not, since the
authenticated data holds the current version instead; and the ciphertext and the tag
reach it joined together.
-/

namespace CopyMint

open Hexadecimal Relational

section Binding

variable {context : List (Text × Text)} {environment otherEnvironment address otherAddress : Text}
  {workspaceId chainId signerKeyId otherWorkspace otherChain otherKey : ℕ}

/-- The context determines what it is made for. -/
theorem encryptionContext_injective (workspace_lt : workspaceId < 2 ^ 128)
    (otherWorkspace_lt : otherWorkspace < 2 ^ 128) (key_lt : signerKeyId < 2 ^ 128)
    (otherKey_lt : otherKey < 2 ^ 128)
    (same : encryptionContext environment workspaceId chainId signerKeyId =
      encryptionContext otherEnvironment otherWorkspace otherChain otherKey) :
    environment = otherEnvironment ∧ workspaceId = otherWorkspace ∧ chainId = otherChain ∧
      signerKeyId = otherKey := by
  simp only [encryptionContext, List.cons.injEq, Prod.mk.injEq, true_and, and_true] at same
  rcases same with ⟨environments, workspaces, chains, keys⟩
  refine ⟨environments, uuidText_injective workspace_lt otherWorkspace_lt workspaces, ?_,
    uuidText_injective key_lt otherKey_lt keys⟩
  exact Int.ofNat_inj.mp (Json.decimal_injective chains)

theorem sorted_authenticated (version address environment workspace chain key purpose : Text) :
    List.insertionSort (fun left right : Text × Text => Json.textLe left.1 right.1)
      [("envelope_version".toList, version), ("address".toList, address),
        ("environment".toList, environment), ("workspace_id".toList, workspace),
        ("chain_id".toList, chain), ("signer_key_id".toList, key),
        ("purpose".toList, purpose)] =
      [("address".toList, address), ("chain_id".toList, chain),
        ("envelope_version".toList, version), ("environment".toList, environment),
        ("purpose".toList, purpose), ("signer_key_id".toList, key),
        ("workspace_id".toList, workspace)] := by
  rfl

/-- The authenticated data begins with the address, so it determines the address. -/
theorem authenticatedData_injective
    (same : authenticatedData (encryptionContext environment workspaceId chainId signerKeyId)
        address =
      authenticatedData (encryptionContext otherEnvironment otherWorkspace otherChain otherKey)
        otherAddress) : address = otherAddress := by
  have texts := Json.utf8_injective same
  simp only [encryptionContext, List.map, List.cons_append, List.nil_append, Json.dumps,
    Json.dumpsMembers, sorted_authenticated, Json.joined, List.intersperse, List.flatten_cons,
    List.append_assoc, List.cons.injEq, true_and] at texts
  exact (Json.member_quote_append_inj texts).2.1

end Binding

variable {primitives : Primitives} {custody : CustodyPrimitives} {material : KeyMaterial}
  {envelope other : KeyEnvelope} {environment : Text} {workspaceId chainId signerKeyId : ℕ}

/-- Both decryptions succeed only on what has been encrypted for an envelope. -/
structure IdealDecryption (custody : CustodyPrimitives) (material : KeyMaterial)
    (envelope : KeyEnvelope) : Prop where
  decryptDataKey : ∀ ciphertext context plaintext,
    custody.decryptDataKey ciphertext context = .ok plaintext ↔
      ciphertext = material.dataKey.ciphertext ∧ context = envelope.encryptionContext ∧
        plaintext = material.dataKey.plaintext
  decrypt : ∀ (key : BytesOf 32) nonce data authenticated plaintext,
    custody.decrypt key nonce data authenticated = some plaintext ↔
      key.val = material.dataKey.plaintext ∧ nonce = material.nonce.val ∧
        data = custody.encrypt key material.nonce material.privateKey.val authenticated ∧
        authenticated = authenticatedData envelope.encryptionContext envelope.address ∧
        plaintext = material.privateKey.val

/-- An envelope agrees with another one in everything that reaches a decryption. -/
structure SealedAlike (envelope other : KeyEnvelope) : Prop where
  signerKeyId : other.signerKeyId = envelope.signerKeyId
  environment : other.environment = envelope.environment
  workspaceId : other.workspaceId = envelope.workspaceId
  chainId : other.chainId = envelope.chainId
  address : other.address = envelope.address
  encryptedDataKey : other.encryptedDataKey = envelope.encryptedDataKey
  nonce : other.nonce = envelope.nonce
  joined : other.ciphertext ++ other.tag = envelope.ciphertext ++ envelope.tag

/-- The identifiers of an envelope are UUIDs. -/
structure KeyEnvelope.HasUuids (envelope : KeyEnvelope) : Prop where
  signerKeyId : envelope.signerKeyId < 2 ^ 128
  workspaceId : envelope.workspaceId < 2 ^ 128

/-- An envelope is restored if it agrees with the created one. -/
theorem restores_of_sealedAlike
    (created : createKeyEnvelope primitives custody.toSignerPrimitives environment workspaceId
      chainId signerKeyId material = .ok envelope)
    (ideal : IdealDecryption custody material envelope) (alike : SealedAlike envelope other) :
    restoreAndVerifyAddress primitives custody other = .ok envelope.address := by
  rcases createKeyEnvelope_sealed created with ⟨dataKey, plaintext, ciphertext, nonce, joined⟩
  have context : other.encryptionContext = envelope.encryptionContext := by
    simp only [KeyEnvelope.encryptionContext, alike.environment, alike.workspaceId, alike.chainId,
      alike.signerKeyId]
  apply restoreAndVerifyAddress_eq_ok_iff.mpr
  refine ⟨dataKey, material.privateKey.val, ?_, ?_, ?_, alike.address⟩
  · rw [context, alike.encryptedDataKey]
    exact (ideal.decryptDataKey _ _ _).mpr ⟨ciphertext, rfl, plaintext⟩
  · rw [context, alike.address, alike.nonce, alike.joined]
    exact (ideal.decrypt _ _ _ _ _).mpr ⟨plaintext, nonce, joined, rfl, rfl⟩
  · rw [alike.address]
    exact fromKey_created created

/-- An envelope that is restored agrees with the created one. -/
theorem sealedAlike_of_restores
    (created : createKeyEnvelope primitives custody.toSignerPrimitives environment workspaceId
      chainId signerKeyId material = .ok envelope)
    (ideal : IdealDecryption custody material envelope) (uuids : envelope.HasUuids)
    (other_uuids : other.HasUuids) {address : Text}
    (restored : restoreAndVerifyAddress primitives custody other = .ok address) :
    SealedAlike envelope other := by
  rcases createKeyEnvelope_sealed created with
    ⟨createdKey, createdKey_eq, ciphertext, nonce, joined⟩
  rcases restoreAndVerifyAddress_eq_ok_iff.mp restored with
    ⟨dataKey, privateKey, decrypted, opened, _, _⟩
  rcases (ideal.decryptDataKey _ _ _).mp decrypted with ⟨other_ciphertext, context, dataKey_eq⟩
  rcases (ideal.decrypt _ _ _ _ _).mp opened with
    ⟨_, other_nonce, other_joined, authenticated, _⟩
  have same_key : dataKey = createdKey := Subtype.ext (dataKey_eq.trans createdKey_eq.symm)
  rcases encryptionContext_injective other_uuids.workspaceId uuids.workspaceId
      other_uuids.signerKeyId uuids.signerKeyId context with
    ⟨environments, workspaces, chains, keys⟩
  exact
    { signerKeyId := keys
      environment := environments
      workspaceId := workspaces
      chainId := chains
      address := authenticatedData_injective authenticated
      encryptedDataKey := other_ciphertext.trans ciphertext.symm
      nonce := other_nonce.trans nonce.symm
      joined := by rw [other_joined, authenticated, same_key, joined] }

/--
Under ideal decryption, restoring an envelope raises exactly if it differs from the
created one in the signer key, environment, workspace, chain, address, encrypted data
key or nonce, or in its ciphertext and tag taken together.
-/
theorem restore_raises_iff
    (created : createKeyEnvelope primitives custody.toSignerPrimitives environment workspaceId
      chainId signerKeyId material = .ok envelope)
    (ideal : IdealDecryption custody material envelope) (uuids : envelope.HasUuids)
    (other_uuids : other.HasUuids) :
    (∀ address, restoreAndVerifyAddress primitives custody other ≠ .ok address) ↔
      other.signerKeyId ≠ envelope.signerKeyId ∨ other.environment ≠ envelope.environment ∨
      other.workspaceId ≠ envelope.workspaceId ∨ other.chainId ≠ envelope.chainId ∨
      other.address ≠ envelope.address ∨ other.encryptedDataKey ≠ envelope.encryptedDataKey ∨
      other.nonce ≠ envelope.nonce ∨
      other.ciphertext ++ other.tag ≠ envelope.ciphertext ++ envelope.tag := by
  constructor
  · intro raises
    by_contra differs
    simp only [not_or, ne_eq, not_not] at differs
    rcases differs with ⟨key, env, workspace, chain, address, dataKey, nonce, joined⟩
    have alike : SealedAlike envelope other :=
      ⟨key, env, workspace, chain, address, dataKey, nonce, joined⟩
    exact raises envelope.address (restores_of_sealedAlike created ideal alike)
  · intro differs address restored
    have alike := sealedAlike_of_restores created ideal uuids other_uuids restored
    simp [alike.signerKeyId, alike.environment, alike.workspaceId, alike.chainId, alike.address,
      alike.encryptedDataKey, alike.nonce, alike.joined] at differs

section Samples

/-- What the encryption of the sample key has returned: its ciphertext and its tag. -/
def sampleSealed : Bytes :=
  sampleSigner.encrypt ⟨List.replicate 32 7, rfl⟩ (sampleMaterial 1).nonce
    (sampleMaterial 1).privateKey.val []

/-- The envelope of the private key 1. -/
def sampleEnvelope : KeyEnvelope where
  signerKeyId := 41
  environment := "development".toList
  workspaceId := 1
  chainId := 1
  address := accountAddress walletHashes (sampleAccount 1)
  ciphertext := sampleSealed.take 32
  encryptedDataKey := (sampleMaterial 1).dataKey.ciphertext
  nonce := (sampleMaterial 1).nonce.val
  tag := sampleSealed.drop 32
  kmsKeyArn := (sampleMaterial 1).dataKey.keyArn
  version := envelopeVersion

/-- A key-management service and a cipher that have encrypted the sample key only. -/
def sampleCustody : CustodyPrimitives :=
  { sampleSigner with
    decrypt := fun key nonce data authenticated =>
      if key.val = (sampleMaterial 1).dataKey.plaintext ∧ nonce = (sampleMaterial 1).nonce.val ∧
          data = sampleSigner.encrypt key (sampleMaterial 1).nonce
            (sampleMaterial 1).privateKey.val authenticated ∧
          authenticated = authenticatedData sampleEnvelope.encryptionContext
            sampleEnvelope.address then
        some (sampleMaterial 1).privateKey.val
      else none
    decryptDataKey := fun ciphertext context =>
      if ciphertext = (sampleMaterial 1).dataKey.ciphertext ∧
          context = sampleEnvelope.encryptionContext then
        .ok (sampleMaterial 1).dataKey.plaintext
      else .error (.runtimeError "AWS KMS operation failed (InvalidCiphertextException)") }

theorem sampleEnvelope_created :
    createKeyEnvelope walletHashes sampleCustody.toSignerPrimitives "development".toList 1 1 41
      (sampleMaterial 1) = .ok sampleEnvelope := by
  decide +kernel

theorem sampleCustody_ideal : IdealDecryption sampleCustody (sampleMaterial 1) sampleEnvelope := by
  constructor
  · intro ciphertext context plaintext
    simp only [sampleCustody]
    split_ifs with matching
    · simp [matching, eq_comm]
    · simp only [false_iff]
      exact fun found => matching ⟨found.1, found.2.1⟩
  · intro key nonce data authenticated plaintext
    simp only [sampleCustody]
    split_ifs with matching
    · simp [matching, eq_comm]
    · simp only [false_iff]
      exact fun found => matching ⟨found.1, found.2.1, found.2.2.1, found.2.2.2.1⟩

theorem sampleEnvelope_hasUuids : sampleEnvelope.HasUuids := ⟨by decide, by decide⟩

/-- The sample envelope with the address of another account. -/
def readdressedEnvelope : KeyEnvelope :=
  { sampleEnvelope with address := accountAddress walletHashes (sampleAccount 2) }

theorem readdressedEnvelope_hasUuids : readdressedEnvelope.HasUuids :=
  ⟨by decide, by decide⟩

end Samples

/-- An envelope that names another account is not restored. -/
theorem otherAddress_raises :
    ¬∃ address, restoreAndVerifyAddress walletHashes sampleCustody readdressedEnvelope =
      .ok address := by
  rintro ⟨address, restored⟩
  have different : readdressedEnvelope.address ≠ sampleEnvelope.address := by
    decide +kernel
  have raises := (restore_raises_iff sampleEnvelope_created sampleCustody_ideal
    sampleEnvelope_hasUuids readdressedEnvelope_hasUuids).mpr
    (.inr (.inr (.inr (.inr (.inl different)))))
  exact raises address restored

/-- An envelope differs in one of the fields that the envelope is to bind. -/
def Tampered (envelope other : KeyEnvelope) : Prop :=
  other.signerKeyId ≠ envelope.signerKeyId ∨ other.environment ≠ envelope.environment ∨
    other.workspaceId ≠ envelope.workspaceId ∨ other.chainId ≠ envelope.chainId ∨
    other.address ≠ envelope.address ∨ other.ciphertext ≠ envelope.ciphertext ∨
    other.encryptedDataKey ≠ envelope.encryptedDataKey ∨ other.nonce ≠ envelope.nonce ∨
    other.tag ≠ envelope.tag ∨ other.version ≠ envelope.version

/-- The sample envelope is restored under another version. -/
theorem otherVersion_restores :
    ¬∀ (custody : CustodyPrimitives) (material : KeyMaterial) (envelope other : KeyEnvelope),
      createKeyEnvelope walletHashes custody.toSignerPrimitives "development".toList 1 1 41
        material = .ok envelope →
      IdealDecryption custody material envelope → envelope.HasUuids → other.HasUuids →
      Tampered envelope other →
      ∀ address, restoreAndVerifyAddress walletHashes custody other ≠ .ok address := by
  intro claimed
  have tampered : Tampered sampleEnvelope { sampleEnvelope with version := 2 } := by
    iterate 9 apply Or.inr
    decide
  refine claimed sampleCustody (sampleMaterial 1) sampleEnvelope _ sampleEnvelope_created
    sampleCustody_ideal sampleEnvelope_hasUuids ⟨by decide, by decide⟩ tampered
    sampleEnvelope.address ?_
  exact restores_of_sealedAlike sampleEnvelope_created sampleCustody_ideal
    ⟨rfl, rfl, rfl, rfl, rfl, rfl, rfl, rfl⟩

end CopyMint
