import CopyMint.Ethereum.RpcProvider
import CopyMint.Library.Interaction
import CopyMint.Library.Quantities
import CopyMint.Wallets.Balances

/-!
# Refreshes over the wire

A refresh looks its wallet up, asks a node for the identifier of its chain, for the number of its
latest block and for the balance at that block, and stores what it was told. Each of these is an
action of its own: other tasks run in between, the chain grows, and any of them may fail.

The node is somewhere else. What it does not refuse to answer is true of one chain.
-/

namespace CopyMint

open Hexadecimal Relational Interleaving

section Calls

/-- The calls of a refresh, and the one by which a wallet is created beside it. -/
inductive BalanceCall where
  | findById (workspaceId walletId : ℕ)
  | post (request : Json)
  | utcNow
  | updateBalance (workspaceId walletId : ℕ) (balanceWei blockNumber refreshedAt : ℤ)
  | saveOrGet (result : SignerWalletResult) (keyHash : BytesOf 32)
      (actorUserId correlationId : ℕ)

/-- What a call returns. -/
abbrev BalanceAnswer : BalanceCall → Type
  | .findById _ _ => Option ExecutionWallet
  | .post _ => HttpResponse
  | .utcNow => ℤ
  | .updateBalance _ _ _ _ _ => Bool
  | .saveOrGet _ _ _ _ => Unit

/-- What a refresh raises. -/
inductive BalanceFailure where
  | httpx (error : HttpxError)
  /-- `raise_for_status`. -/
  | statusError (statusCode : ℕ)
  /-- `response.json()` on a body that is no document. -/
  | undecodable
  | runtimeError (message : String)
  | valueError
  | database (failure : RefreshFailure)

/-- What a task of the wallet worker does: calls, and what depends on their answers. -/
abbrev BalanceAction := Interaction BalanceCall BalanceAnswer BalanceFailure

/-- What a process is started for. -/
inductive BalanceTask where
  | create (result : SignerWalletResult) (keyHash : BytesOf 32) (actorUserId correlationId : ℕ)
  | refresh (workspaceId walletId : ℕ)

end Calls

/-- The client, with the third-party function that reads a body. -/
structure ChainstackEthereumBalanceClient where
  chainId : ℕ
  json : Bytes → Option Json
  unicode : UnicodeData

namespace ChainstackEthereumBalanceClient

variable (client : ChainstackEthereumBalanceClient)

/-- The result of a document without an error, where null is none. -/
def readPayload (payload : List (Text × Json)) : Except BalanceFailure Text :=
  match payload.lookup "error".toList with
  | none | some .null =>
      match payload.lookup "result".toList with
      | some (.str result) =>
          if marker.isPrefixOf result then .ok result
          else .error (.runtimeError "Ethereum RPC returned an invalid hexadecimal result")
      | _ => .error (.runtimeError "Ethereum RPC returned an invalid hexadecimal result")
  | some _ => .error (.runtimeError "Ethereum RPC request failed")

/-- What `_rpc` makes of a response. -/
def readResult (response : HttpResponse) : Except BalanceFailure Text :=
  if response.isSuccess then
    match client.json response.content with
    | some (.obj payload) => readPayload payload
    | some _ => .error (.runtimeError "Ethereum RPC request failed")
    | none => .error .undecodable
  else .error (.statusError response.statusCode)

/-- `int(await self._rpc(method, params), 16)`. -/
def number (method : String) (params : List Json) : BalanceAction ℤ := do
  let response ← .ofCall (BalanceCall.post (HttpClient.request 1 method.toList params))
  let result ← .ofExcept (client.readResult response)
  match client.unicode.int .sixteen result with
  | some number => return number
  | none => .fail .valueError

/-- `balance_at_latest_block`. -/
def balanceAtLatestBlock (address : Text) : BalanceAction (ℤ × ℤ) := do
  let observedChainId ← client.number "eth_chainId" []
  if observedChainId ≠ client.chainId then
    .fail (.runtimeError "Ethereum RPC chain ID does not match configured chain")
  else do
    let blockNumber ← client.number "eth_blockNumber" []
    let balance ← client.number "eth_getBalance" [.str address, .str (hexInt blockNumber)]
    return (balance, blockNumber)

/-- `refresh` of the balance service. -/
def refresh (workspaceId walletId : ℕ) : BalanceAction Bool := do
  let wallet ← .ofCall (BalanceCall.findById workspaceId walletId)
  match wallet with
  | none => return false
  | some wallet => do
      let observed ← client.balanceAtLatestBlock wallet.address
      let refreshedAt ← .ofCall BalanceCall.utcNow
      .ofCall (BalanceCall.updateBalance workspaceId walletId observed.1 observed.2 refreshedAt)

/-- One task: a wallet is stored, or its balance is refreshed. -/
def perform : BalanceTask → BalanceAction Bool
  | .create result keyHash actorUserId correlationId => do
      let _ ← .ofCall (BalanceCall.saveOrGet result keyHash actorUserId correlationId)
      return true
  | .refresh workspaceId walletId => client.refresh workspaceId walletId

end ChainstackEthereumBalanceClient

/-- A chain, with the balance of an address at the end of a block. -/
structure EthereumChain where
  chainId : ℕ
  balanceAt : Text → ℕ → ℕ

/-- A number is what a method asks for, as long as the chain has so many blocks. -/
def EthereumChain.holds (chain : EthereumChain) (head : ℕ) (method : Text) (params : List Json)
    (number : ℕ) : Bool :=
  if method = "eth_chainId".toList then number = chain.chainId
  else if method = "eth_blockNumber".toList then number ≤ head
  else if method = "eth_getBalance".toList then
    match params with
    | [.str address, .str tag] =>
        (quantityOf tag).any fun block =>
          decide (block ≤ head) && decide (number = chain.balanceAt address block)
    | _ => false
  else false

/-- The number is what the node may answer the request with. -/
def EthereumChain.confirms (chain : EthereumChain) (head : ℕ) (request : Json) (number : ℕ) :
    Bool :=
  match request with
  | .obj members =>
      match members.lookup "method".toList, members.lookup "params".toList with
      | some (.str method), some (.arr params) => chain.holds head method params number
      | _, _ => false
  | _ => false

/-- A response without a result, or with one that is a quantity and true of the chain. -/
def EthereumChain.sends (chain : EthereumChain) (client : ChainstackEthereumBalanceClient)
    (head : ℕ) (request : Json) (response : HttpResponse) : Bool :=
  match client.readResult response with
  | .error _ => true
  | .ok result => (quantityOf result).any (chain.confirms head request)

/-- The wallets, and the number of the latest block. -/
structure ChainStore where
  db : WalletStore
  head : ℕ

/-- What the environment decides about a call. -/
structure BalanceOutcome where
  /-- The blocks that have been mined in the meantime. -/
  mined : ℕ := 0
  response : HttpResponse := ⟨503, []⟩
  now : ℤ := 0
  walletId : ℕ := 0
  auditId : ℕ := 0
  /-- What the call raises, and whether it has taken effect before. -/
  fails : Option (BalanceFailure × Bool) := none

variable (client : ChainstackEthereumBalanceClient) (chain : EthereumChain)

/-- What a call does to the database and the chain, and what it returns. -/
def serveBalanceCall (outcome : BalanceOutcome) (store : ChainStore) :
    (call : BalanceCall) → Option (ChainStore × Except BalanceFailure (BalanceAnswer call))
  | .findById workspaceId walletId => some (store, .ok (store.db.findById workspaceId walletId))
  | .post request =>
      let head := store.head + outcome.mined
      if chain.sends client head request outcome.response then
        some ({ store with head }, .ok outcome.response)
      else none
  | .utcNow => some (store, .ok outcome.now)
  | .updateBalance workspaceId walletId balanceWei blockNumber refreshedAt =>
      match store.db.updateBalance workspaceId walletId balanceWei blockNumber refreshedAt with
      | .error failure => some (store, .error (.database failure))
      | .ok (db, updated) => some ({ store with db }, .ok updated)
  | .saveOrGet result keyHash actorUserId correlationId =>
      match store.db.saveOrGet outcome.walletId outcome.auditId result keyHash actorUserId
          correlationId with
      | .error error => some (store, .error (.database (.raised error)))
      | .ok (db, _, _) => some ({ store with db }, .ok ())

/-- Calls are carried out, or fail before or after they have taken effect. -/
def balanceService :
    Service ChainStore BalanceTask BalanceCall BalanceAnswer BalanceFailure BalanceOutcome :=
  Service.unreliable (fun _ call outcome store => serveBalanceCall client chain outcome store call)
    BalanceOutcome.fails

/-- Any number of creations and refreshes at once. -/
def balanceSessions :
    Program ChainStore (Option (Session BalanceTask BalanceCall BalanceAnswer BalanceFailure Bool))
      (SessionEvent BalanceTask BalanceOutcome) :=
  sessions client.perform (balanceService client chain)

/-- No wallet has been created yet. -/
def initialBalances (head : ℕ) :
    World ChainStore (Option (Session BalanceTask BalanceCall BalanceAnswer BalanceFailure Bool)) :=
  .uniform ⟨⟨[], [], []⟩, head⟩ none

end CopyMint
