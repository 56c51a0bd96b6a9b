import CopyMint.Ethereum.Decoders
import CopyMint.Library.Fallible

/-!
# Factual identity and route of a mint

`enrichMint` checks that a transaction and its receipt are those of a mint and
derives who sent, paid for and probably initiated it. `classifyMint` decides the
route and classification from evidence about the sale.
-/

namespace CopyMint

open Hexadecimal Fallible

/-- Evidence about a sale, with the bounds that its constructor checks. -/
structure SaleStateEvidence where
  route : MintRoute
  source : String
  publicSaleActive : Option Bool := none
  unitPriceWei : Option ℕ := none
  allowlistRequired : Bool := false
  tokenGateRequired : Bool := false
  serverSignatureRequired : Bool := false
  adminMint : Bool := false
  airdrop : Bool := false
  bridge : Bool := false
  migration : Bool := false
  lazyMarketplace : Bool := false
  source_nonempty : source ≠ ""
  source_short : source.length ≤ 64

/-- `ClassificationDecision`. -/
structure ClassificationDecision where
  route : MintRoute
  classification : MintClassification
  reasonCode : String
  deriving DecidableEq

/-- `classify_mint`. -/
def classifyMint : Option SaleStateEvidence → ClassificationDecision
  | none => ⟨.unknown, .unknownMint, "sale_state_evidence_missing"⟩
  | some evidence =>
      if evidence.bridge then ⟨evidence.route, .bridgeMint, "bridge_evidence"⟩
      else if evidence.migration then ⟨evidence.route, .migrationMint, "migration_evidence"⟩
      else if evidence.lazyMarketplace then
        ⟨.marketplace, .lazyMarketplaceMint, "lazy_marketplace_evidence"⟩
      else if evidence.airdrop then ⟨evidence.route, .airdrop, "airdrop_evidence"⟩
      else if evidence.adminMint then ⟨evidence.route, .adminMint, "admin_call_evidence"⟩
      else if evidence.serverSignatureRequired then
        ⟨evidence.route, .serverSignedMint, "server_signature_required"⟩
      else if evidence.tokenGateRequired then
        ⟨evidence.route, .tokenGatedMint, "token_gate_required"⟩
      else if evidence.allowlistRequired then
        ⟨evidence.route, .allowlistMint, "allowlist_required"⟩
      else
        match evidence.publicSaleActive, evidence.unitPriceWei with
        | some true, some 0 => ⟨evidence.route, .publicFreeMint, "public_sale_free"⟩
        | some true, some _ => ⟨evidence.route, .publicPaidMint, "public_sale_paid"⟩
        | _, _ => ⟨evidence.route, .unknownMint, "sale_state_inconclusive"⟩

/-- `EnrichedMint`. -/
structure EnrichedMint where
  mint : DecodedMint
  transactionSender : Text
  payer : Option Text
  probableInitiator : Option Text
  identityConfidence : ℕ
  identityReasonCode : String
  route : MintRoute
  classification : MintClassification
  classificationReasonCode : String
  deriving DecidableEq

variable (primitives : Primitives)

/-- The transaction was sent to the collection itself. -/
def isDirect (mint : DecodedMint) (transaction : EvmTransaction) : Bool :=
  match transaction.recipient with
  | none => false
  | some recipient => lower recipient = lower mint.collectionAddress

/-- The identity of a mint from a direct call, or the reason why it is not known. -/
def identityReasonCode (knownRelayer direct : Bool) : String :=
  if knownRelayer then "known_relayer_requires_trace"
  else if direct then "direct_transaction_sender"
  else "indirect_call_requires_trace"

/-- What a transaction from a sender says about a mint. -/
def enrichedBy (mint : DecodedMint) (transaction : EvmTransaction) (sender : Text)
    (knownRelayer : Bool) (saleState : Option SaleStateEvidence) : EnrichedMint :=
  let direct := isDirect mint transaction
  let identified := direct && !knownRelayer
  let decision := classifyMint saleState
  { mint
    transactionSender := sender
    payer := if transaction.valueWei > 0 then some sender else none
    probableInitiator := if identified then some sender else none
    identityConfidence := if identified then 85 else 0
    identityReasonCode := identityReasonCode knownRelayer direct
    route := if saleState.isNone then (if direct then .direct else .unknown) else decision.route
    classification := decision.classification
    classificationReasonCode := decision.reasonCode }

/-- `enrich_mint`. -/
def enrichMint (mint : DecodedMint) (transaction : EvmTransaction) (receipt : EvmReceipt)
    (knownRelayer : Bool := false) (saleState : Option SaleStateEvidence := none) :
    Except Raised EnrichedMint :=
  if receipt.status ≠ 1 then
    .error (.valueError "failed transaction cannot produce a canonical mint")
  else if lower transaction.transactionHash ≠ lower mint.transactionHash then
    .error (.valueError "transaction evidence does not match mint provenance")
  else if lower receipt.transactionHash ≠ lower mint.transactionHash then
    .error (.valueError "receipt evidence does not match mint provenance")
  else if transaction.blockNumber ≠ mint.blockNumber ∨ receipt.blockNumber ≠ mint.blockNumber then
    .error (.valueError "transaction block does not match mint provenance")
  else if lower receipt.blockHash ≠ lower mint.blockHash then
    .error (.valueError "receipt block hash does not match mint provenance")
  else do
    let sender ← primitives.toChecksumAddress transaction.sender
    .ok (enrichedBy mint transaction sender knownRelayer saleState)

theorem identityReasonCode_ne_notEnriched (knownRelayer direct : Bool) :
    identityReasonCode knownRelayer direct ≠ "not_enriched" := by
  cases knownRelayer <;> cases direct <;> decide

variable {primitives}

/-- A successful transaction and its receipt are those of a mint. -/
structure MatchesProvenance (mint : DecodedMint) (transaction : EvmTransaction)
    (receipt : EvmReceipt) : Prop where
  succeeded : receipt.status = 1
  transactionHash : lower transaction.transactionHash = lower mint.transactionHash
  receiptHash : lower receipt.transactionHash = lower mint.transactionHash
  transactionBlock : transaction.blockNumber = mint.blockNumber
  receiptBlock : receipt.blockNumber = mint.blockNumber
  blockHash : lower receipt.blockHash = lower mint.blockHash

/-- A mint is enriched only by the successful transaction that contains it. -/
theorem enrichMint_eq_ok {mint : DecodedMint} {transaction : EvmTransaction}
    {receipt : EvmReceipt} {knownRelayer : Bool} {saleState : Option SaleStateEvidence}
    {enriched : EnrichedMint}
    (returned : enrichMint primitives mint transaction receipt knownRelayer saleState =
      .ok enriched) :
    MatchesProvenance mint transaction receipt ∧
      ∃ sender, primitives.toChecksumAddress transaction.sender = .ok sender ∧
        enriched = enrichedBy mint transaction sender knownRelayer saleState := by
  simp only [enrichMint] at returned
  split_ifs at returned with failed otherTransaction otherReceipt otherBlock otherHash
  rcases bind_eq_ok_iff.mp returned with ⟨sender, checksummed, built⟩
  cases built
  rcases not_or.mp otherBlock with ⟨sameBlock, sameReceiptBlock⟩
  refine ⟨⟨?_, ?_, ?_, ?_, ?_, ?_⟩, sender, checksummed, rfl⟩
  · exact not_not.mp failed
  · exact not_not.mp otherTransaction
  · exact not_not.mp otherReceipt
  · exact not_not.mp sameBlock
  · exact not_not.mp sameReceiptBlock
  · exact not_not.mp otherHash

theorem enrichMint_reasonCode {mint : DecodedMint} {transaction : EvmTransaction}
    {receipt : EvmReceipt} {enriched : EnrichedMint}
    (returned : enrichMint primitives mint transaction receipt = .ok enriched) :
    enriched.identityReasonCode ≠ "not_enriched" := by
  rcases enrichMint_eq_ok returned with ⟨_, sender, _, rfl⟩
  exact identityReasonCode_ne_notEnriched false _

end CopyMint
