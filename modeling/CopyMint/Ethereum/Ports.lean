import CopyMint.Library.Hexadecimal

/-!
# Provider-independent Ethereum values

The values that the application reads from an Ethereum provider, and the
exceptions that the modelled functions raise. Addresses, topics, hashes and data
are kept as the text the provider sent, since the code compares and decodes that
text; quantities are the integers the adapter parsed.
-/

namespace CopyMint

open Hexadecimal

/-- A failed provider request. -/
structure ProviderError where
  code : String
  transient : Bool
  splitRange : Bool := false
  deriving DecidableEq

/-- The exceptions raised by the modelled functions, by class and message. -/
inductive Raised where
  | valueError (message : String)
  | invalidMintLog (message : String)
  | consecutiveRangeTooLarge (message : String)
  | invalidProxyEvidence (message : String)
  | decodingError
  | providerError (error : ProviderError)
  | runtimeError (message : String)
  | integrityError (constraint : String)
  deriving DecidableEq

/-- `BlockReference`. -/
structure BlockReference where
  number : ℕ
  blockHash : Text
  deriving DecidableEq

/-- `EvmLog`. -/
structure EvmLog where
  address : Text
  topics : List Text
  data : Text
  blockNumber : ℕ
  blockHash : Text
  transactionHash : Text
  logIndex : ℕ
  removed : Bool
  deriving DecidableEq

/-- `EvmTransaction`. -/
structure EvmTransaction where
  transactionHash : Text
  sender : Text
  recipient : Option Text
  valueWei : ℕ
  inputData : Text
  blockNumber : ℕ
  deriving DecidableEq

/-- `EvmReceipt`. -/
structure EvmReceipt where
  transactionHash : Text
  blockNumber : ℕ
  blockHash : Text
  status : ℕ
  gasUsed : ℕ
  effectiveGasPrice : Option ℕ
  deriving DecidableEq

end CopyMint
