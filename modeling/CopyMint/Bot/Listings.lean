import CopyMint.Bot.Amounts
import CopyMint.Bot.Replies
import CopyMint.Workers.ScanNotifications
import CopyMint.Workspaces.Services

/-!
# Listings of collections and wallets

A listing is answered in one message with some lines for each row, however many rows there
are.
-/

namespace CopyMint

open Hexadecimal DecimalText

section Collections

/-- `list_collections` of the repository, with the state of the scans. -/
def RegistryStore.listScannedCollections (store : RegistryStore) (subscribedAt : ℕ → ℤ)
    (scans : Database) (workspaceId : ℕ) : List WorkspaceCollectionRecord :=
  (store.listCollections subscribedAt workspaceId).map fun record =>
    let job := scans.job record.collectionId
    { record with
      scanStartBlock := job.map ScanJob.startBlock
      scanEndBlock := job.map ScanJob.endBlock
      lastScannedBlock := scans.committedBlock record.collectionId 1
      qualityWarningCodes := scans.qualityWarnings record.collectionId }

/-- The percentage that a listing shows. -/
def listedPercent (startBlock endBlock lastScannedBlock : ℤ) : ℤ :=
  let span := max 1 (endBlock - startBlock + 1)
  let covered := max 0 (lastScannedBlock - startBlock + 1)
  min 100 (covered * 100 / span)

theorem listedPercent_nonneg (startBlock endBlock lastScannedBlock : ℤ) :
    0 ≤ listedPercent startBlock endBlock lastScannedBlock := by
  apply le_min (by omega)
  apply Int.ediv_nonneg
  · exact mul_nonneg (le_max_left 0 _) (by omega)
  · exact le_trans zero_le_one (le_max_left 1 _)

namespace WorkspaceCollectionRecord

variable (collection : WorkspaceCollectionRecord)

/-- The label behind an address. -/
def nameText : Text :=
  match collection.label with
  | some (first :: rest) => " — ".toList ++ (first :: rest)
  | _ => []

/-- The percentage of a scan that has a job and a checkpoint. -/
def progressText : Text :=
  match collection.scanStartBlock, collection.scanEndBlock, collection.lastScannedBlock with
  | some startBlock, some endBlock, some lastScannedBlock =>
      " (".toList ++ Json.decimal (listedPercent startBlock endBlock lastScannedBlock) ++
        "%)".toList
  | _, _, _ => []

/-- The lines of one collection. -/
def lines (index : ℕ) : List Text :=
  (Nat.toDigits 10 index ++ ". ".toList ++ collection.address ++ collection.nameText ++
      "\n   Scan: ".toList ++ collection.scanStatus.value ++ collection.progressText) ::
    if collection.qualityWarningCodes = [] then []
    else
      ["   Quality warning: ".toList ++
        UnicodeData.commaSeparated (collection.qualityWarningCodes.map String.toList)]

end WorkspaceCollectionRecord

/-- The text of `/collections`. -/
def collectionsText (collections : List WorkspaceCollectionRecord) : Text :=
  if collections = [] then "No collections saved. Use /add_collection to add one.".toList
  else
    joinLines ("Your Ethereum collections:".toList ::
      (collections.zipIdx 1).flatMap fun (collection, index) => collection.lines index)

/-- `list_collections_command`. -/
def listCollectionsCommand (store : RegistryStore) (subscribedAt : ℕ → ℤ) (scans : Database)
    (context : Option RequestContext) (error : Option AccessError) : Replies :=
  catchAccess (.answerMessage · [])
    (do
      let context ← (requireContext context error).mapError .access
      let workspaceId ← context.requireWorkspace.mapError .access
      .ok (store.listScannedCollections subscribedAt scans workspaceId))
    fun collections => .ok [.answerMessage (collectionsText collections) []]

end Collections

section Wallets

/-- The line of one wallet. -/
def WalletRecord.line (wallet : WalletRecord) (index : ℕ) : Text :=
  Nat.toDigits 10 index ++ ". ".toList ++ wallet.address ++ "\n   Balance snapshot: ".toList ++
    formatWei wallet.balanceWei ++ " ETH".toList

/-- The text of `/wallets`. -/
def walletsText (wallets : List WalletRecord) : Text :=
  if wallets = [] then "No execution wallet exists. Use /create_wallet to create one.".toList
  else
    joinLines ("Your Ethereum execution wallets:".toList ::
      ((wallets.zipIdx 1).map fun (wallet, index) => wallet.line index) ++
      ["Balance refresh queued. Reopen /wallets shortly for the latest snapshot.".toList,
        "Signing and broadcasting are disabled in Release 1.".toList])

/-- The refreshes of balances that a listing asks for do not change its text. -/
def listWalletsCommand (store : WalletStore) (createdAt : ℕ → ℤ)
    (context : Option RequestContext) (error : Option AccessError) : Replies :=
  catchAccess (.answerMessage · [])
    (do
      let context ← (requireContext context error).mapError .access
      let workspaceId ← context.requireWorkspace.mapError .access
      .ok (store.listWallets createdAt workspaceId))
    fun wallets => .ok [.answerMessage (walletsText wallets) []]

end Wallets

end CopyMint
