import CopyMint.Library.Relational
import CopyMint.Signer.Envelope

/-!
# The signer's envelopes

The signer keeps at most one envelope for an environment, workspace, chain and
idempotency key, whose hash stands for it. A creation first looks for the
envelope; if there is none it generates a key and inserts its envelope, giving
way to one that was inserted in the meantime.
-/

namespace CopyMint

open Hexadecimal Relational

variable (primitives : Primitives)

/-- A row of `signer_key_envelopes`. -/
structure SignerKeyEnvelope extends KeyEnvelope where
  idempotencyKeyHash : BytesOf 32
  deriving DecidableEq

/-- The unique constraint of envelopes. -/
def SignerKeyEnvelope.key (row : SignerKeyEnvelope) : Text × ℕ × ℕ × BytesOf 32 :=
  (row.environment, row.workspaceId, row.chainId, row.idempotencyKeyHash)

/-- Another envelope has the primary key of a new one. -/
def SignerKeyEnvelope.clashes (new existing : SignerKeyEnvelope) : Bool :=
  existing.signerKeyId = new.signerKeyId

/-- The check constraints on envelopes. -/
def SignerKeyEnvelope.isValid (row : SignerKeyEnvelope) : Bool :=
  row.nonce.length = 12 && row.tag.length = 16 && row.chainId = 1

/-- The table `signer_key_envelopes`. -/
abbrev SignerKeyEnvelopes := List SignerKeyEnvelope

/-- `WalletDescriptor`. -/
structure WalletDescriptor where
  signerKeyId : ℕ
  workspaceId : ℕ
  chainId : ℕ
  address : Text
  created : Bool
  deriving DecidableEq

/-- What the signer answers about an envelope. -/
def KeyEnvelope.descriptor (envelope : KeyEnvelope) (created : Bool) : WalletDescriptor where
  signerKeyId := envelope.signerKeyId
  workspaceId := envelope.workspaceId
  chainId := envelope.chainId
  address := envelope.address
  created

/-- The hash that both services store for an idempotency key. -/
def hashIdempotencyKey (value : Text) : Except Raised (BytesOf 32) :=
  if 16 ≤ value.length ∧ value.length ≤ 128 then .ok (primitives.sha256 (Json.utf8 value))
  else .error (.valueError "idempotency key must contain between 16 and 128 characters")

namespace SignerKeyEnvelopes

/-- `find_by_idempotency`. -/
def findByIdempotency (envelopes : SignerKeyEnvelopes) (environment : Text)
    (workspaceId chainId : ℕ) (keyHash : BytesOf 32) : Option SignerKeyEnvelope :=
  lookup SignerKeyEnvelope.key (environment, workspaceId, chainId, keyHash) envelopes

/-- `save_or_get`, one transaction. -/
def saveOrGet (envelope : KeyEnvelope) (keyHash : BytesOf 32) (envelopes : SignerKeyEnvelopes) :
    Except Raised (SignerKeyEnvelopes × SignerKeyEnvelope × Bool) :=
  let row : SignerKeyEnvelope := { envelope with idempotencyKeyHash := keyHash }
  if row.isValid then
    match insertOrGet SignerKeyEnvelope.key SignerKeyEnvelope.clashes row envelopes with
    | some result => .ok result
    | none => .error (.integrityError "pk_signer_key_envelopes")
  else .error (.integrityError "ck_signer_key_envelopes")

theorem saveOrGet_eq_ok {envelopes next : SignerKeyEnvelopes} {envelope : KeyEnvelope}
    {keyHash : BytesOf 32} {stored : SignerKeyEnvelope} {created : Bool}
    (saved : envelopes.saveOrGet envelope keyHash = .ok (next, stored, created)) :
    insertOrGet SignerKeyEnvelope.key SignerKeyEnvelope.clashes
      { envelope with idempotencyKeyHash := keyHash } envelopes = some (next, stored, created) := by
  simp only [saveOrGet] at saved
  split_ifs at saved
  split at saved
  · rename_i inserted
    cases saved
    exact inserted
  · cases saved

end SignerKeyEnvelopes

end CopyMint
