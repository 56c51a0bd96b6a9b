import CopyMint.Ethereum.Enricher
import CopyMint.Library.Reading

/-!
# What the text of evidence determines

Evidence is identified by the hash of its canonical text. The text of a document
of an enrichment determines the kind and the text of the payload, it is never the
text of a log, and the text of a transaction's or receipt's payload determines
the transaction or the receipt. A trace is arbitrary, so that its text determines
no transaction.
-/

namespace CopyMint

open Hexadecimal

theorem EvidenceKind.value_injective {first second : EvidenceKind}
    (same : first.value = second.value) : first = second := by
  cases first <;> cases second <;> first | rfl | exact absurd same (by decide)

theorem dumps_evidenceDocument (kind : EvidenceKind) (payload : Json) :
    (evidenceDocument kind payload).dumps =
      '\x7b' :: (Json.member ("kind".toList, Json.quote kind.value) ++
        ',' :: (Json.quote "payload".toList ++ ':' :: (payload.dumps ++ ['\x7d']))) := by
  have sorted : List.insertionSort (fun left right : Text × Text => Json.textLe left.1 right.1)
      [("kind".toList, Json.quote kind.value), ("payload".toList, payload.dumps)] =
      [("kind".toList, Json.quote kind.value), ("payload".toList, payload.dumps)] := rfl
  simp only [evidenceDocument, Json.dumps, Json.dumpsMembers, sorted]
  simp [Json.joined, Json.member]

/-- The text of a document determines its kind and the text of its payload. -/
theorem evidenceDocument_inj {kind other : EvidenceKind} {payload document : Json}
    (same : (evidenceDocument kind payload).dumps = (evidenceDocument other document).dumps) :
    kind = other ∧ payload.dumps = document.dumps := by
  simp only [dumps_evidenceDocument, List.cons.injEq, true_and] at same
  rcases Json.member_quote_append_inj same with ⟨_, kinds, same⟩
  simp only [List.cons.injEq, true_and, List.append_cancel_left_eq] at same
  exact ⟨EvidenceKind.value_injective kinds, List.append_cancel_right same⟩

section Payloads

theorem dumps_evidencePayload (log : EvmLog) :
    ∃ rest, (evidencePayload log).dumps =
      '\x7b' :: (Json.member ("address".toList, Json.quote log.address) ++ rest) := by
  have sorted : ∀ address topics data blockNumber blockHash transactionHash logIndex removed,
      List.insertionSort (fun left right : Text × Text => Json.textLe left.1 right.1)
        [("address".toList, address), ("topics".toList, topics), ("data".toList, data),
          ("block_number".toList, blockNumber), ("block_hash".toList, blockHash),
          ("transaction_hash".toList, transactionHash), ("log_index".toList, logIndex),
          ("removed".toList, removed)] =
        [("address".toList, address), ("block_hash".toList, blockHash),
          ("block_number".toList, blockNumber), ("data".toList, data),
          ("log_index".toList, logIndex), ("removed".toList, removed), ("topics".toList, topics),
          ("transaction_hash".toList, transactionHash)] := by
    intros
    rfl
  cases removed : log.removed <;>
    simp only [evidencePayload, removed, Json.dumps, Json.dumpsMembers, sorted] <;>
    simp [Json.joined]

/-- A log is never taken for a document of an enrichment. -/
theorem dumps_evidencePayload_ne (log : EvmLog) (kind : EvidenceKind) (payload : Json) :
    (evidencePayload log).dumps ≠ (evidenceDocument kind payload).dumps := by
  rcases dumps_evidencePayload log with ⟨rest, text⟩
  intro same
  rw [text, dumps_evidenceDocument, List.cons.injEq] at same
  rcases Json.member_quote_append_inj same.2 with ⟨impossible, _⟩
  exact absurd impossible (by decide)

theorem optionalText_inj {first second : Option Text} {rest other : Text}
    (same : (optionalText first).dumps ++ ',' :: rest =
      (optionalText second).dumps ++ ',' :: other) : first = second ∧ rest = other := by
  cases first with
  | none =>
      cases second with
      | none => simpa [optionalText, Json.dumps] using same
      | some text => simp [optionalText, Json.dumps, Json.quote] at same
  | some text =>
      cases second with
      | none => simp [optionalText, Json.dumps, Json.quote] at same
      | some text =>
          rcases Json.quote_append_inj same with ⟨rfl, later⟩
          exact ⟨rfl, (List.cons.inj later).2⟩

theorem optionalInt_inj {first second : Option ℕ} {rest other : Text}
    (same : (optionalInt first).dumps ++ ',' :: rest =
      (optionalInt second).dumps ++ ',' :: other) : first = second ∧ rest = other := by
  have no_comma : ∀ value, ',' ∉ (optionalInt value).dumps := by
    intro value
    cases value with
    | none => simp [optionalInt, Json.dumps]
    | some value => simpa [optionalInt, Json.dumps] using Json.comma_notMem_decimal value
  rcases append_separator_head_inj (no_comma first) (no_comma second) same with ⟨texts, later⟩
  refine ⟨?_, later⟩
  cases first with
  | none =>
      cases second with
      | none => rfl
      | some value => exact absurd texts.symm (Json.decimal_ne_null value)
  | some value =>
      cases second with
      | none => exact absurd texts (Json.decimal_ne_null value)
      | some other => exact congrArg some (Int.ofNat.inj (Json.decimal_injective texts))

theorem dumps_transactionPayload (transaction : EvmTransaction) :
    (transactionPayload transaction).dumps =
      '\x7b' :: (Json.quote "block_number".toList ++ ':' :: (Json.decimal transaction.blockNumber ++
        ',' :: (Json.member ("input_data".toList, Json.quote transaction.inputData) ++
        ',' :: (Json.quote "recipient".toList ++
        ':' :: ((optionalText transaction.recipient).dumps ++
        ',' :: (Json.member ("sender".toList, Json.quote transaction.sender) ++
        ',' :: (Json.member ("transaction_hash".toList, Json.quote transaction.transactionHash) ++
        ',' :: (Json.quote "value_wei".toList ++ ':' :: (Json.decimal transaction.valueWei ++
        ['\x7d']))))))))) := by
  have sorted : ∀ transactionHash sender recipient valueWei inputData blockNumber,
      List.insertionSort (fun left right : Text × Text => Json.textLe left.1 right.1)
        [("transaction_hash".toList, transactionHash), ("sender".toList, sender),
          ("recipient".toList, recipient), ("value_wei".toList, valueWei),
          ("input_data".toList, inputData), ("block_number".toList, blockNumber)] =
        [("block_number".toList, blockNumber), ("input_data".toList, inputData),
          ("recipient".toList, recipient), ("sender".toList, sender),
          ("transaction_hash".toList, transactionHash), ("value_wei".toList, valueWei)] := by
    intros
    rfl
  simp only [transactionPayload, Json.dumps, Json.dumpsMembers, sorted]
  simp [Json.joined, Json.member]

theorem transactionPayload_injective {first second : EvmTransaction}
    (same : (transactionPayload first).dumps = (transactionPayload second).dumps) :
    first = second := by
  simp only [dumps_transactionPayload, List.cons.injEq, true_and,
    List.append_cancel_left_eq] at same
  rcases Json.decimal_append_inj same with ⟨blockNumber, same⟩
  rcases Json.member_quote_append_inj same with ⟨_, inputData, same⟩
  simp only [List.cons.injEq, true_and, List.append_cancel_left_eq] at same
  rcases optionalText_inj same with ⟨recipient, same⟩
  rcases Json.member_quote_append_inj same with ⟨_, sender, same⟩
  simp only [List.cons.injEq, true_and] at same
  rcases Json.member_quote_append_inj same with ⟨_, transactionHash, same⟩
  simp only [List.cons.injEq, true_and, List.append_cancel_left_eq] at same
  have valueWei := Json.decimal_injective (List.append_cancel_right same)
  rcases first with ⟨_, _, _, _, _, _⟩
  rcases second with ⟨_, _, _, _, _, _⟩
  simp_all

theorem dumps_receiptPayload (receipt : EvmReceipt) :
    (receiptPayload receipt).dumps =
      '\x7b' :: (Json.member ("block_hash".toList, Json.quote receipt.blockHash) ++
        ',' :: (Json.quote "block_number".toList ++ ':' :: (Json.decimal receipt.blockNumber ++
        ',' :: (Json.quote "effective_gas_price".toList ++ ':' ::
          ((optionalInt receipt.effectiveGasPrice).dumps ++
        ',' :: (Json.quote "gas_used".toList ++ ':' :: (Json.decimal receipt.gasUsed ++
        ',' :: (Json.quote "status".toList ++ ':' :: (Json.decimal receipt.status ++
        ',' :: (Json.member ("transaction_hash".toList, Json.quote receipt.transactionHash) ++
        ['\x7d'])))))))))) := by
  have sorted : ∀ transactionHash blockNumber blockHash status gasUsed effectiveGasPrice,
      List.insertionSort (fun left right : Text × Text => Json.textLe left.1 right.1)
        [("transaction_hash".toList, transactionHash), ("block_number".toList, blockNumber),
          ("block_hash".toList, blockHash), ("status".toList, status),
          ("gas_used".toList, gasUsed), ("effective_gas_price".toList, effectiveGasPrice)] =
        [("block_hash".toList, blockHash), ("block_number".toList, blockNumber),
          ("effective_gas_price".toList, effectiveGasPrice), ("gas_used".toList, gasUsed),
          ("status".toList, status), ("transaction_hash".toList, transactionHash)] := by
    intros
    rfl
  simp only [receiptPayload, Json.dumps, Json.dumpsMembers, sorted]
  simp [Json.joined, Json.member]

theorem receiptPayload_injective {first second : EvmReceipt}
    (same : (receiptPayload first).dumps = (receiptPayload second).dumps) : first = second := by
  simp only [dumps_receiptPayload, List.cons.injEq, true_and] at same
  rcases Json.member_quote_append_inj same with ⟨_, blockHash, same⟩
  simp only [List.cons.injEq, true_and, List.append_cancel_left_eq] at same
  rcases Json.decimal_append_inj same with ⟨blockNumber, same⟩
  simp only [List.cons.injEq, true_and, List.append_cancel_left_eq] at same
  rcases optionalInt_inj same with ⟨effectiveGasPrice, same⟩
  simp only [List.cons.injEq, true_and, List.append_cancel_left_eq] at same
  rcases Json.decimal_append_inj same with ⟨gasUsed, same⟩
  simp only [List.cons.injEq, true_and, List.append_cancel_left_eq] at same
  rcases Json.decimal_append_inj same with ⟨status, same⟩
  rcases Json.member_quote_append_inj same with ⟨_, transactionHash, _⟩
  rcases first with ⟨_, _, _, _, _, _⟩
  rcases second with ⟨_, _, _, _, _, _⟩
  simp_all

end Payloads

end CopyMint
