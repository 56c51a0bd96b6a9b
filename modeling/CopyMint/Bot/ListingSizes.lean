import CopyMint.Bot.Listings
import CopyMint.Ethereum.Deduplication

/-!
# Whether a listing fits in a message

Telegram accepts messages of up to 4096 characters. The length of a listing is the sum of
what its rows take, which is told here by lengths and numbers of digits. A listing fits
exactly if this sum does.
-/

namespace CopyMint

open Hexadecimal DecimalText

/-- The largest number of characters that Telegram accepts in a message. -/
def maxMessageLength : ℕ := 4096

/-- The command is answered with one message, which Telegram accepts. -/
def FitsMessage (replies : Replies) : Prop :=
  ∃ text, replies = .ok [.answerMessage text []] ∧ text ≠ [] ∧ text.length ≤ maxMessageLength

section Arithmetic

/-- The characters that show an amount of wei. -/
def weiSize (value : ℕ) : ℕ :=
  let remainder := value % 10 ^ 18
  if remainder = 0 then numeralSize (value / 10 ^ 18)
  else numeralSize (value / 10 ^ 18) + 1 + (18 - trailingZeros 18 remainder)

namespace WorkspaceCollectionRecord

variable (collection : WorkspaceCollectionRecord)

/-- What a label takes. -/
def nameSize : ℕ :=
  match collection.label with
  | some (first :: rest) => 3 + (first :: rest).length
  | _ => 0

/-- What a percentage takes. -/
def progressSize : ℕ :=
  match collection.scanStartBlock, collection.scanEndBlock, collection.lastScannedBlock with
  | some startBlock, some endBlock, some lastScannedBlock =>
      4 + numeralSize (listedPercent startBlock endBlock lastScannedBlock).natAbs
  | _, _, _ => 0

/-- What the warning codes take. -/
def warningsSize : ℕ :=
  if collection.qualityWarningCodes = [] then 0
  else 19 + (collection.qualityWarningCodes.map fun code => code.length + 2).sum

/-- What a collection adds to the length of a listing. -/
def size (index : ℕ) : ℕ :=
  13 + numeralSize index + collection.address.length + collection.nameSize +
    collection.scanStatus.value.length + collection.progressSize + collection.warningsSize

end WorkspaceCollectionRecord

/-- What a wallet adds to the length of a listing. -/
def WalletRecord.size (wallet : WalletRecord) (index : ℕ) : ℕ :=
  29 + numeralSize index + wallet.address.length + weiSize wallet.balanceWei

/-- What a list of collections takes. -/
def collectionsSize (collections : List WorkspaceCollectionRecord) : ℕ :=
  26 + ((collections.zipIdx 1).map fun (collection, index) => collection.size index).sum

/-- What a list of wallets takes. -/
def walletsSize (wallets : List WalletRecord) : ℕ :=
  157 + ((wallets.zipIdx 1).map fun (wallet, index) => wallet.size index).sum

end Arithmetic

section Lengths

theorem length_joinLines (first : Text) (rest : List Text) :
    (joinLines (first :: rest)).length =
      first.length + (rest.map fun line => line.length + 1).sum := by
  induction rest generalizing first with
  | nil => simp [joinLines]
  | cons second rest ih =>
      rw [joinLines, List.length_append, List.length_cons, ih, List.map_cons, List.sum_cons]
      · omega
      · exact List.cons_ne_nil _ _

theorem length_commaSeparated (first : Text) (rest : List Text) :
    (UnicodeData.commaSeparated (first :: rest)).length =
      first.length + (rest.map fun part => part.length + 2).sum := by
  simp only [UnicodeData.commaSeparated]
  induction rest generalizing first with
  | nil => simp
  | cons second rest ih =>
      rw [List.intercalate_cons_cons, List.length_append, List.length_append, ih, List.map_cons,
        List.sum_cons]
      simp only [List.length_cons, List.length_nil]
      omega

theorem length_formatWei (value : ℕ) : (formatWei value).length = weiSize value := by
  by_cases whole : value % 10 ^ 18 = 0
  · rw [formatWei, weiSize, if_pos whole, if_pos whole, length_toDigits]
  · have stripped := length_rstrip_zeroPadded whole (Nat.mod_lt value (by positivity))
    rw [formatWei_of_remainder whole, weiSize, if_neg whole, List.length_append, List.length_cons,
      length_toDigits, fractionText, stripped]
    omega

namespace WorkspaceCollectionRecord

variable (collection : WorkspaceCollectionRecord)

theorem length_nameText : collection.nameText.length = collection.nameSize := by
  simp only [nameText, nameSize]
  generalize collection.label = label
  rcases label with _ | _ | ⟨first, rest⟩
  · rfl
  · rfl
  · exact List.length_append

theorem length_progressText : collection.progressText.length = collection.progressSize := by
  simp only [progressText, progressSize]
  generalize collection.scanStartBlock = startBlock
  generalize collection.scanEndBlock = endBlock
  generalize collection.lastScannedBlock = lastScannedBlock
  rcases startBlock with _ | startBlock
  · rfl
  rcases endBlock with _ | endBlock
  · rfl
  rcases lastScannedBlock with _ | lastScannedBlock
  · rfl
  have nonneg := not_lt.mpr (listedPercent_nonneg startBlock endBlock lastScannedBlock)
  simp only [Json.decimal, if_neg nonneg, List.length_append, length_toDigits]
  rw [show " (".toList.length = 2 from rfl, show "%)".toList.length = 2 from rfl]
  omega

theorem sum_lines (index : ℕ) :
    ((collection.lines index).map fun line => line.length + 1).sum = collection.size index := by
  have warnings : ((if collection.qualityWarningCodes = [] then []
      else
        ["   Quality warning: ".toList ++
          UnicodeData.commaSeparated (collection.qualityWarningCodes.map String.toList)]).map
            fun line : Text => line.length + 1).sum = collection.warningsSize := by
    simp only [warningsSize]
    cases collection.qualityWarningCodes with
    | nil => rfl
    | cons first rest =>
        rw [if_neg (List.cons_ne_nil _ _), if_neg (List.cons_ne_nil _ _), List.map_singleton,
          List.sum_singleton, List.length_append, List.map_cons, length_commaSeparated,
          show "   Quality warning: ".toList.length = 20 from rfl]
        simp only [List.map_cons, List.map_map, List.sum_cons, Function.comp_def,
          String.length_toList]
        omega
  rw [lines, List.map_cons, List.sum_cons, warnings]
  simp only [List.length_append, length_toDigits, length_nameText, length_progressText, size]
  rw [show ". ".toList.length = 2 from rfl, show "\n   Scan: ".toList.length = 10 from rfl]
  omega

end WorkspaceCollectionRecord

theorem WalletRecord.length_line (wallet : WalletRecord) (index : ℕ) :
    (wallet.line index).length + 1 = wallet.size index := by
  simp only [line, size, List.length_append, length_toDigits, length_formatWei]
  rw [show ". ".toList.length = 2 from rfl,
    show "\n   Balance snapshot: ".toList.length = 22 from rfl,
    show " ETH".toList.length = 4 from rfl]
  omega

/-- The length of a listing that has rows. -/
theorem length_collectionsText {collections : List WorkspaceCollectionRecord}
    (rows : collections ≠ []) :
    (collectionsText collections).length = collectionsSize collections := by
  have lines : ∀ first, (((collections.zipIdx first).flatMap fun (collection, index) =>
      collection.lines index).map fun line => line.length + 1).sum =
        ((collections.zipIdx first).map fun (collection, index) => collection.size index).sum := by
    clear rows
    induction collections with
    | nil => exact fun _ => rfl
    | cons collection collections ih =>
        intro first
        rw [List.zipIdx_cons, List.flatMap_cons, List.map_append, List.sum_append,
          collection.sum_lines, ih, List.map_cons, List.sum_cons]
  rw [collectionsText, if_neg rows, length_joinLines, lines, collectionsSize]
  rfl

theorem length_walletsText {wallets : List WalletRecord} (rows : wallets ≠ []) :
    (walletsText wallets).length = walletsSize wallets := by
  have lines : (((wallets.zipIdx 1).map fun (wallet, index) => wallet.line index).map
      fun line => line.length + 1) =
        (wallets.zipIdx 1).map fun (wallet, index) => wallet.size index := by
    rw [List.map_map]
    exact List.map_congr_left fun (wallet, index) _ => wallet.length_line index
  rw [walletsText, if_neg rows, List.cons_append, length_joinLines, List.map_append,
    List.sum_append, lines, walletsSize]
  rw [show "Your Ethereum execution wallets:".toList.length = 32 from rfl,
    show (["Balance refresh queued. Reopen /wallets shortly for the latest snapshot.".toList,
      "Signing and broadcasting are disabled in Release 1.".toList].map
        fun line => line.length + 1).sum = 125 from rfl]
  omega

end Lengths

/-- A request of a workspace is answered with the listing of its collections. -/
theorem listCollectionsCommand_eq {store : RegistryStore} {subscribedAt : ℕ → ℤ}
    {scans : Database} {context : RequestContext} {error : Option AccessError} {workspaceId : ℕ}
    (own : context.requireWorkspace = .ok workspaceId) :
    listCollectionsCommand store subscribedAt scans (some context) error =
      .ok [.answerMessage
        (collectionsText (store.listScannedCollections subscribedAt scans workspaceId)) []] := by
  simp only [listCollectionsCommand, requireContext, Except.mapError, bind, Except.bind, own,
    catchAccess]

theorem listWalletsCommand_eq {store : WalletStore} {createdAt : ℕ → ℤ}
    {context : RequestContext} {error : Option AccessError} {workspaceId : ℕ}
    (own : context.requireWorkspace = .ok workspaceId) :
    listWalletsCommand store createdAt (some context) error =
      .ok [.answerMessage (walletsText (store.listWallets createdAt workspaceId)) []] := by
  simp only [listWalletsCommand, requireContext, Except.mapError, bind, Except.bind, own,
    catchAccess]

theorem fitsMessage_iff {text : Text} :
    FitsMessage (.ok [.answerMessage text []]) ↔ text ≠ [] ∧ text.length ≤ maxMessageLength := by
  constructor
  · rintro ⟨other, same, fits⟩
    cases same
    exact fits
  · exact fun fits => ⟨text, rfl, fits⟩

theorem fitsMessage_collectionsText_iff (collections : List WorkspaceCollectionRecord) :
    FitsMessage (.ok [.answerMessage (collectionsText collections) []]) ↔
      collectionsSize collections ≤ maxMessageLength := by
  rw [fitsMessage_iff]
  by_cases rows : collections = []
  · subst rows
    decide
  · rw [length_collectionsText rows]
    refine and_iff_right ?_
    intro empty
    have length := length_collectionsText rows
    rw [empty, collectionsSize, List.length_nil] at length
    omega

theorem fitsMessage_walletsText_iff (wallets : List WalletRecord) :
    FitsMessage (.ok [.answerMessage (walletsText wallets) []]) ↔
      walletsSize wallets ≤ maxMessageLength := by
  rw [fitsMessage_iff]
  by_cases rows : wallets = []
  · subst rows
    decide
  · rw [length_walletsText rows]
    refine and_iff_right ?_
    intro empty
    have length := length_walletsText rows
    rw [empty, walletsSize, List.length_nil] at length
    omega

/--
The listings of a workspace fit in a message exactly if the sum of what their rows take is
at most what a message may have.
-/
theorem listings_fit_iff (context : RequestContext) (error : Option AccessError)
    (workspaceId : ℕ) :
    (∀ (store : RegistryStore) (subscribedAt : ℕ → ℤ) (scans : Database),
      context.requireWorkspace = .ok workspaceId →
        (FitsMessage (listCollectionsCommand store subscribedAt scans (some context) error) ↔
          collectionsSize (store.listScannedCollections subscribedAt scans workspaceId) ≤
            maxMessageLength)) ∧
      ∀ (store : WalletStore) (createdAt : ℕ → ℤ),
        context.requireWorkspace = .ok workspaceId →
          (FitsMessage (listWalletsCommand store createdAt (some context) error) ↔
            walletsSize (store.listWallets createdAt workspaceId) ≤ maxMessageLength) := by
  constructor
  · intro store subscribedAt scans own
    rw [listCollectionsCommand_eq own]
    exact fitsMessage_collectionsText_iff _
  · intro store createdAt own
    rw [listWalletsCommand_eq own]
    exact fitsMessage_walletsText_iff _

section Samples

/-- A workspace that has saved seventy collections without labels. -/
def crowdedRegistry : RegistryStore where
  collections :=
    ⟨(List.range 70).map fun id =>
      { chainId := 1
        normalizedAddress := marker ++ zeroPadded 40 id
        tokenStandard := .unknown
        row := ⟨id, marker ++ zeroPadded 40 id, none, none, .unknown, 0, .pending⟩ }, []⟩
  subscriptions := ⟨(List.range 70).map fun id => ⟨id, 1, id, none, 3, {}, true⟩, []⟩
  auditLogs := []
  results := []

/-- A workspace with sixty wallets that nothing has been sent to. -/
def crowdedWallets : WalletStore where
  wallets :=
    (List.range 60).map fun id =>
      { id
        workspaceId := 1
        chainId := 1
        address := marker ++ zeroPadded 40 id
        signerKeyId := id
        idempotencyKeyHash := ⟨List.replicate 32 (UInt8.ofNat id), List.length_replicate⟩
        status := .active
        balanceWei := 0
        balanceBlockNumber := none
        balanceRefreshedAt := none }
  auditLogs := []
  envelopes := []

/-- No collection has a job yet. -/
def unscannedCollections : Database := ⟨[], [], [], [], [], 0⟩

/-- A workspace that has saved two of the collections, one of them with a label. -/
def sparseRegistry : RegistryStore :=
  { crowdedRegistry with
    subscriptions :=
      ⟨[⟨0, 1, 7, some "first".toList, 3, {}, true⟩, ⟨1, 1, 9, none, 3, {}, true⟩], []⟩ }

/-- A workspace with two wallets. -/
def sparseWallets : WalletStore :=
  { crowdedWallets with wallets := crowdedWallets.wallets.take 2 }

end Samples

theorem sparseListings_fit :
    FitsMessage (listCollectionsCommand sparseRegistry (fun id => id) unscannedCollections
        (some (sampleAdder 1)) none) ∧
      FitsMessage (listWalletsCommand sparseWallets (fun id => id) (some (sampleAdder 1)) none) := by
  have fits := listings_fit_iff (sampleAdder 1) none 1
  exact ⟨(fits.1 sparseRegistry (fun id => id) unscannedCollections rfl).mpr (by decide +kernel),
    (fits.2 sparseWallets (fun id => id) rfl).mpr (by decide +kernel)⟩

/-- Telegram refuses the listing of seventy collections and that of sixty wallets. -/
theorem crowdedListings_refused :
    ¬FitsMessage (listCollectionsCommand crowdedRegistry (fun id => id) unscannedCollections
        (some (sampleAdder 1)) none) ∧
      ¬FitsMessage (listWalletsCommand crowdedWallets (fun id => id) (some (sampleAdder 1))
        none) := by
  constructor
  · rw [listCollectionsCommand_eq rfl, fitsMessage_collectionsText_iff]
    decide +kernel
  · rw [listWalletsCommand_eq rfl, fitsMessage_walletsText_iff]
    decide +kernel

end CopyMint
