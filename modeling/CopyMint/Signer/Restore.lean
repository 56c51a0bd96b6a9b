import CopyMint.Library.Fallible
import CopyMint.Signer.Storage

/-!
# Restoring a key

A key is restored from its envelope alone: the key-management service decrypts the
data key under the context of the envelope, the data key decrypts the private key
under its authenticated data, and the account of the private key has to be the one
stored. Decryption is a parameter, by the service as well as by the data key.
-/

namespace CopyMint

open Hexadecimal Relational Fallible

/-- The functions that create and restore keys. -/
structure CustodyPrimitives extends SignerPrimitives where
  /-- `AESGCM(key).decrypt(nonce, data, associated_data)`, or none where it raises. -/
  decrypt : BytesOf 32 → Bytes → Bytes → Bytes → Option Bytes
  /-- `decrypt_data_key(ciphertext, encryption_context)`. -/
  decryptDataKey : Bytes → List (Text × Text) → Except Raised Bytes

/-- What the restoring functions raise. -/
inductive RestoreFailure where
  | raised (error : Raised)
  | invalidTag
  | invalidKey
  | lookupError (message : String)
  deriving DecidableEq

/-- The encryption context of an envelope. -/
def KeyEnvelope.encryptionContext (envelope : KeyEnvelope) : List (Text × Text) :=
  CopyMint.encryptionContext envelope.environment envelope.workspaceId envelope.chainId
    envelope.signerKeyId

variable (primitives : Primitives) (custody : CustodyPrimitives)

/-- `Account.from_key(key).address`. -/
def fromKey (key : Bytes) : Except RestoreFailure Text :=
  if valid : key.length = 32 then .ok (accountAddress primitives (custody.account ⟨key, valid⟩))
  else .error .invalidKey

/-- `restore_and_verify_address`. -/
def restoreAndVerifyAddress (envelope : KeyEnvelope) : Except RestoreFailure Text := do
  let context := envelope.encryptionContext
  let dataKey ← (custody.decryptDataKey envelope.encryptedDataKey context).mapError .raised
  if valid : dataKey.length = 32 then
    match custody.decrypt ⟨dataKey, valid⟩ envelope.nonce (envelope.ciphertext ++ envelope.tag)
        (authenticatedData context envelope.address) with
    | none => .error .invalidTag
    | some privateKey => do
        let restored ← fromKey primitives custody privateKey
        if restored ≠ envelope.address then
          .error (.raised (.valueError "restored private key does not match the stored address"))
        else .ok restored
  else .error (.raised (.valueError "KMS returned an invalid AES-256 data key"))

/-- `find_for_workspace`. -/
def SignerKeyEnvelopes.findForWorkspace (signerKeyId : ℕ) (environment : Text)
    (workspaceId chainId : ℕ) (envelopes : SignerKeyEnvelopes) : Option SignerKeyEnvelope :=
  envelopes.find? fun row =>
    row.signerKeyId = signerKeyId && row.environment = environment &&
      row.workspaceId = workspaceId && row.chainId = chainId

/-- `verify_restore` of a service for an environment. -/
def verifyRestore (environment : Text) (signerKeyId workspaceId chainId : ℕ)
    (envelopes : SignerKeyEnvelopes) : Except RestoreFailure Text :=
  match envelopes.findForWorkspace signerKeyId environment workspaceId chainId with
  | none => .error (.lookupError "signer key was not found")
  | some envelope => restoreAndVerifyAddress primitives custody envelope.toKeyEnvelope

variable {primitives custody} {envelope other : KeyEnvelope}

/-- A key is restored exactly if both decryptions succeed and yield the stored account. -/
theorem restoreAndVerifyAddress_eq_ok_iff {address : Text} :
    restoreAndVerifyAddress primitives custody envelope = .ok address ↔
      ∃ (dataKey : BytesOf 32) (privateKey : Bytes),
        custody.decryptDataKey envelope.encryptedDataKey envelope.encryptionContext =
          .ok dataKey.val ∧
        custody.decrypt dataKey envelope.nonce (envelope.ciphertext ++ envelope.tag)
          (authenticatedData envelope.encryptionContext envelope.address) = some privateKey ∧
        fromKey primitives custody privateKey = .ok envelope.address ∧
        envelope.address = address := by
  simp only [restoreAndVerifyAddress]
  constructor
  · intro restored
    rcases bind_eq_ok_iff.mp restored with ⟨dataKey, decrypted, restored⟩
    split_ifs at restored with valid
    · split at restored
      · cases restored
      · rename_i privateKey opened
        rcases bind_eq_ok_iff.mp restored with ⟨derived, accounted, restored⟩
        split_ifs at restored with differs
        cases restored
        have same := not_not.mp differs
        exact ⟨⟨dataKey, valid⟩, privateKey, mapError_eq_ok_iff.mp decrypted, opened,
          same ▸ accounted, same.symm⟩
  · rintro ⟨dataKey, privateKey, decrypted, opened, accounted, rfl⟩
    refine bind_eq_ok_iff.mpr ⟨dataKey.val, mapError_eq_ok_iff.mpr decrypted, ?_⟩
    rw [dif_pos dataKey.property]
    simp only [opened]
    refine bind_eq_ok_iff.mpr ⟨envelope.address, accounted, ?_⟩
    rw [if_neg (not_not.mpr rfl)]

section Creation

variable {signer : SignerPrimitives} {environment : Text} {workspaceId chainId signerKeyId : ℕ}
  {material : KeyMaterial}

/-- A created envelope holds what the encryption of its key has returned. -/
theorem createKeyEnvelope_sealed
    (created : createKeyEnvelope primitives signer environment workspaceId chainId
      signerKeyId material = .ok envelope) :
    ∃ dataKey : BytesOf 32, dataKey.val = material.dataKey.plaintext ∧
      envelope.encryptedDataKey = material.dataKey.ciphertext ∧
      envelope.nonce = material.nonce.val ∧
      envelope.ciphertext ++ envelope.tag = signer.encrypt dataKey material.nonce
        material.privateKey.val
        (authenticatedData envelope.encryptionContext envelope.address) := by
  simp only [createKeyEnvelope] at created
  split_ifs at created with _ valid
  cases created
  exact ⟨⟨_, valid⟩, rfl, rfl, rfl, List.take_append_drop _ _⟩

/-- The account of a created envelope's key is its address. -/
theorem fromKey_created {custody : CustodyPrimitives}
    (created : createKeyEnvelope primitives custody.toSignerPrimitives environment workspaceId
      chainId signerKeyId material = .ok envelope) :
    fromKey primitives custody material.privateKey.val = .ok envelope.address := by
  rw [fromKey, dif_pos material.privateKey.property]
  rw [(createKeyEnvelope_eq_ok created).2.2.2.2]

end Creation

end CopyMint
