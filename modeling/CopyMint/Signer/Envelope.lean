import CopyMint.Domain.Ids
import CopyMint.Ethereum.Web3
import CopyMint.Library.Json

/-!
# Key envelopes

An envelope holds a private key encrypted under a data key of the key-management
service, together with the address of the key and everything that the encryption
binds to it. Key derivation and authenticated encryption are parameters; the
address itself is the checksummed text of the account's twenty bytes.
-/

namespace CopyMint

open Hexadecimal

/-- The functions that the signer takes from its cryptographic libraries. -/
structure SignerPrimitives where
  /-- The account of a private key. -/
  account : BytesOf 32 → BytesOf 20
  /-- `AESGCM(key).encrypt(nonce, data, associated_data)`, the tag being appended. -/
  encrypt : BytesOf 32 → BytesOf 12 → Bytes → Bytes → Bytes

variable (primitives : Primitives) (signer : SignerPrimitives)

/-- The checksummed text of an account, which is how `eth_account` writes it. -/
def accountAddress (account : BytesOf 20) : Text :=
  marker ++
    List.zipWith checksumDigit (hex account.val) (hex (primitives.keccak (hex account.val)).val)

/-- `GeneratedDataKey`. -/
structure GeneratedDataKey where
  plaintext : Bytes
  ciphertext : Bytes
  keyArn : Text
  deriving DecidableEq

/-- `ENVELOPE_VERSION`. -/
def envelopeVersion : ℕ := 1

/-- The length of the tag of AES-GCM. -/
def gcmTagBytes : ℕ := 16

/-- `KeyEnvelope`. -/
structure KeyEnvelope where
  signerKeyId : ℕ
  environment : Text
  workspaceId : ℕ
  chainId : ℕ
  address : Text
  ciphertext : Bytes
  encryptedDataKey : Bytes
  nonce : Bytes
  tag : Bytes
  kmsKeyArn : Text
  version : ℕ
  deriving DecidableEq

/-- The encryption context of a data key. -/
def encryptionContext (environment : Text) (workspaceId chainId signerKeyId : ℕ) :
    List (Text × Text) :=
  [("environment".toList, environment), ("workspace_id".toList, uuidText workspaceId),
    ("chain_id".toList, Json.decimal chainId),
    ("signer_key_id".toList, uuidText signerKeyId),
    ("purpose".toList, "copymint-execution-wallet".toList)]

/-- The data that is authenticated with a private key. -/
def authenticatedData (context : List (Text × Text)) (address : Text) : Bytes :=
  let values := [("envelope_version".toList, Json.int envelopeVersion),
    ("address".toList, Json.str address)]
  Json.utf8 (Json.obj (values ++ context.map fun entry => (entry.1, Json.str entry.2))).dumps

/-- What the key generator, the key-management service and the nonce source return. -/
structure KeyMaterial where
  privateKey : BytesOf 32
  dataKey : GeneratedDataKey
  nonce : BytesOf 12
  deriving DecidableEq

/-- `create_key_envelope`, with the material that it draws. -/
def createKeyEnvelope (environment : Text) (workspaceId chainId signerKeyId : ℕ)
    (material : KeyMaterial) : Except Raised KeyEnvelope :=
  if chainId ≠ 1 then
    .error (.valueError "Release 1 wallet creation supports Ethereum mainnet only")
  else
    let context := encryptionContext environment workspaceId chainId signerKeyId
    let address := accountAddress primitives (signer.account material.privateKey)
    if valid : material.dataKey.plaintext.length = 32 then
      let encrypted := signer.encrypt ⟨material.dataKey.plaintext, valid⟩ material.nonce
        material.privateKey.val (authenticatedData context address)
      let tagStart := encrypted.length - gcmTagBytes
      .ok
        { signerKeyId
          environment
          workspaceId
          chainId
          address
          ciphertext := encrypted.take tagStart
          encryptedDataKey := material.dataKey.ciphertext
          nonce := material.nonce.val
          tag := encrypted.drop tagStart
          kmsKeyArn := material.dataKey.keyArn
          version := envelopeVersion }
    else .error (.valueError "KMS returned an invalid AES-256 data key")

variable {primitives signer} {environment : Text} {workspaceId chainId signerKeyId : ℕ}
  {material : KeyMaterial} {envelope : KeyEnvelope}

/-- An envelope is bound to what it was created for. -/
theorem createKeyEnvelope_eq_ok
    (created : createKeyEnvelope primitives signer environment workspaceId chainId
      signerKeyId material = .ok envelope) :
    envelope.signerKeyId = signerKeyId ∧ envelope.environment = environment ∧
      envelope.workspaceId = workspaceId ∧ envelope.chainId = chainId ∧
      envelope.address = accountAddress primitives (signer.account material.privateKey) := by
  simp only [createKeyEnvelope] at created
  split_ifs at created
  cases created
  exact ⟨rfl, rfl, rfl, rfl, rfl⟩

/-- The checksum of an address that is checksummed already is the address. -/
theorem toChecksumAddress_accountAddress (account : BytesOf 20) :
    primitives.toChecksumAddress (accountAddress primitives account) =
      .ok (accountAddress primitives account) := by
  have long : (hex account.val).length ≤
      (hex (primitives.keccak (hex account.val)).val).length := by
    simp [account.property, (primitives.keccak (hex account.val)).property]
  have lowered : removePrefix marker (lower (accountAddress primitives account)) =
      hex account.val := by
    rw [accountAddress, lower_marker_append, removePrefix_append,
      lower_checksumDigits (isDigits_hex _) (lower_hex _) long]
  have spelled : IsAddressText (accountAddress primitives account) := by
    rw [IsAddressText, lowered]
    exact ⟨by simp [account.property], isDigits_hex _⟩
  rw [primitives.toChecksumAddress_eq_ok _ spelled, eip55, lowered, accountAddress]

end CopyMint
