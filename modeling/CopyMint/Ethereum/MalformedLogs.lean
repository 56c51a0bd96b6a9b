import CopyMint.Ethereum.MintEncoding

/-!
# Malformed logs

A malformed log should be rejected as an invalid mint log. The decoder of event data
translates its failure to read hexadecimal text. The decoders of topics do not, and
neither the failures of the ABI decoder nor those of the address of a log are
translated. What the decoder meets depends on the order in which it reads the parts.
-/

namespace CopyMint

open Hexadecimal AbiEncoding Fallible

/-- `InvalidMintLog` or its subclass. -/
def Raised.IsInvalidMintLog : Raised → Prop
  | .invalidMintLog _ | .consecutiveRangeTooLarge _ => True
  | .valueError _ | .invalidProxyEvidence _ | .decodingError | .providerError _
  | .runtimeError _ | .integrityError _ => False

/-- Text that `bytes.fromhex` reads behind the marker. -/
def IsHex (text : Text) : Prop := ∃ raw, Denotes text raw

/-- A word that holds an address. -/
def IsAddressTopic (topic : Text) : Prop :=
  ∃ address : BytesOf 20, Denotes topic (addressWord address)

/-- Mints of positive quantity only. -/
def AllPositive (mints : List DecodedMint) : Prop := ∀ mint ∈ mints, 0 < mint.quantity

section Conditions

variable (primitives : Primitives) (log : EvmLog)

/-- A log is decoded into mints of positive quantity, or rejected as invalid. -/
def DecodedOrRejected (maxErc2309Range : ℕ) : Prop :=
  (∃ mints, decodeMintLog primitives log maxErc2309Range = .ok mints ∧ AllPositive mints) ∨
  ∃ raised, decodeMintLog primitives log maxErc2309Range = .error raised ∧ raised.IsInvalidMintLog

/-- An address topic is hexadecimal, and what is read after it is readable too. -/
def ReadsAddress (topic : Text) (later : Prop) : Prop :=
  IsHex topic ∧ (IsAddressTopic topic → later)

/-- The sender is hexadecimal, and what is read of a mint is readable too. -/
def ReadsSender (sender : Text) (later : Prop) : Prop :=
  IsHex sender ∧ (Denotes sender (addressWord nobody) → later)

/-- An integer topic is hexadecimal, and what is read after an integer is readable too. -/
def ReadsUint (topic : Text) (later : ℕ → Prop) : Prop :=
  IsHex topic ∧ ∀ raw, Denotes topic raw → raw.length = 32 → later (fromBigEndian raw)

/-- The ABI decoder accepts hexadecimal data, and what is read after it is readable too. -/
def ReadsData {Value : Type} (decoder : Bytes → Option Value) (later : Value → Prop) : Prop :=
  ∀ data, Denotes log.data data → ∃ value, decoder data = some value ∧ later value

/-- What an ERC-721 log has to be like where it is a mint. -/
def ReadsErc721 (sender recipient token : Text) : Prop :=
  ReadsSender sender <| ReadsUint token fun _ => ReadsAddress recipient (IsAddressText log.address)

/-- What a log of a single ERC-1155 token has to be like where it is a mint. -/
def ReadsErc1155Single (operator sender recipient : Text) : Prop :=
  ReadsSender sender <| ReadsData log primitives.decodeUint256Pair fun token =>
    ReadsAddress recipient (ReadsAddress operator (0 < token.2 → IsAddressText log.address))

/-- The address of the log is not read where the first quantity is rejected. -/
def ReadsErc1155Batch (operator sender recipient : Text) : Prop :=
  ReadsSender sender <| ReadsData log primitives.decodeUint256Arrays fun tokens =>
    tokens.1.length = tokens.2.length →
      ReadsAddress recipient (ReadsAddress operator
        (∀ quantity, tokens.2.head? = some quantity → 0 < quantity → IsAddressText log.address))

/-- What an ERC-2309 log has to be like where it is a mint within the limit. -/
def ReadsErc2309 (maxErc2309Range : ℕ) (first sender recipient : Text) : Prop :=
  ReadsSender sender <| ReadsData log primitives.decodeUint256 fun toTokenId =>
    ReadsUint first fun fromTokenId =>
      fromTokenId ≤ toTokenId → toTokenId + 1 - fromTokenId ≤ maxErc2309Range →
        ReadsAddress recipient (IsAddressText log.address)

/--
Whatever the decoder reads of a log is readable: the topics of a recognised event in the
order of its layout, its data, and the address of the log.
-/
def IsReadable (maxErc2309Range : ℕ) : Prop :=
  log.removed = false → ∀ signature first second third : Text,
    log.topics = [signature, first, second, third] →
      if lower signature = erc721TransferTopic primitives then ReadsErc721 log first second third
      else if lower signature = erc1155SingleTopic primitives then
        ReadsErc1155Single primitives log first second third
      else if lower signature = erc1155BatchTopic primitives then
        ReadsErc1155Batch primitives log first second third
      else if lower signature = erc2309ConsecutiveTopic primitives then
        ReadsErc2309 primitives log maxErc2309Range first second third
      else True

end Conditions

variable {primitives : Primitives} {log : EvmLog} {maxErc2309Range : ℕ}

/-- No failure other than a rejection. -/
abbrev OnlyRejects {α : Type} (result : Except Raised α) : Prop :=
  FailsOnly Raised.IsInvalidMintLog result

theorem onlyRejects_bind_iff {α β : Type} {first : Except Raised α} {next : α → Except Raised β} :
    OnlyRejects (first >>= next) ↔
      OnlyRejects first ∧ ∀ value, first = .ok value → OnlyRejects (next value) :=
  failsOnly_bind_iff

section Readers

theorem onlyRejects_bytesFromhex_iff {text : Text} :
    OnlyRejects (bytesFromhex text) ↔ IsHex text := by
  simp only [OnlyRejects, bytesFromhex, IsHex, Denotes]
  cases fromhex (removePrefix marker text) with
  | none => simp [Raised.IsInvalidMintLog]
  | some raw => simp

theorem bytesFromhex_eq_ok_iff {text : Text} {raw : Bytes} :
    bytesFromhex text = .ok raw ↔ Denotes text raw := by
  simp only [bytesFromhex, Denotes]
  cases fromhex (removePrefix marker text) <;> simp

theorem onlyRejects_dataBytes (text : Text) : OnlyRejects (dataBytes text) := by
  simp only [OnlyRejects, dataBytes]
  split
  · exact failsOnly_ok _
  · exact failsOnly_error_iff.mpr trivial

theorem dataBytes_eq_ok_iff {text : Text} {raw : Bytes} :
    dataBytes text = .ok raw ↔ Denotes text raw := by
  simp only [dataBytes, Denotes]
  cases fromhex (removePrefix marker text) <;> simp

/-- A word without a value in its padding holds the address behind the padding. -/
theorem exists_addressWord {raw : Bytes} (long : raw.length = 32)
    (padded : ¬(raw.take 12).any (· ≠ 0)) : ∃ address : BytesOf 20, raw = addressWord address := by
  have short : (raw.drop 12).length = 20 := by
    rw [List.length_drop, long]
  have zeros : raw.take 12 = List.replicate 12 0 := by
    refine List.eq_replicate_iff.mpr ⟨by simp [long], fun byte byte_mem => ?_⟩
    by_contra nonzero
    exact padded (List.any_eq_true.mpr ⟨byte, byte_mem, by simpa using nonzero⟩)
  refine ⟨⟨raw.drop 12, short⟩, ?_⟩
  rw [addressWord, ← zeros, List.take_append_drop]

theorem topicAddress_eq_ok_iff {topic address : Text} :
    topicAddress primitives topic = .ok address ↔
      ∃ holder : BytesOf 20, Denotes topic (addressWord holder) ∧
        address = checksumAddress primitives holder := by
  constructor
  · intro returned
    have executed := returned
    rcases bind_eq_ok_iff.mp executed with ⟨raw, read, executed⟩
    have denotes := bytesFromhex_eq_ok_iff.mp read
    split_ifs at executed with malformed
    simp only [not_or, not_not] at malformed
    rcases exists_addressWord malformed.1 malformed.2 with ⟨holder, rfl⟩
    rw [topicAddress_of_denotes denotes] at returned
    cases returned
    exact ⟨holder, denotes, rfl⟩
  · rintro ⟨holder, denotes, rfl⟩
    exact topicAddress_of_denotes denotes

/-- An address topic that is hexadecimal is either read or rejected. -/
theorem onlyRejects_topicAddress_iff {topic : Text} :
    OnlyRejects (topicAddress primitives topic) ↔ IsHex topic := by
  constructor
  · intro rejects
    exact onlyRejects_bytesFromhex_iff.mp (onlyRejects_bind_iff.mp rejects).1
  · rintro ⟨raw, denotes⟩
    by_cases malformed : raw.length ≠ 32 ∨ (raw.take 12).any (· ≠ 0)
    · rw [topicAddress, bytesFromhex_of_denotes denotes, ok_bind, if_pos malformed]
      exact failsOnly_error_iff.mpr trivial
    · simp only [not_or, not_not] at malformed
      rcases exists_addressWord malformed.1 malformed.2 with ⟨holder, rfl⟩
      rw [topicAddress_of_denotes denotes]
      exact failsOnly_ok _

theorem isFromZero_eq_ok_iff {topic : Text} {zero : Bool} :
    isFromZero primitives topic = .ok zero ↔
      ∃ sender : BytesOf 20, Denotes topic (addressWord sender) ∧
        zero = decide (sender = nobody) := by
  constructor
  · intro returned
    rcases bind_eq_ok_iff.mp returned with ⟨address, read, _⟩
    rcases topicAddress_eq_ok_iff.mp read with ⟨sender, denotes, _⟩
    rw [isFromZero_of_denotes denotes] at returned
    cases returned
    exact ⟨sender, denotes, rfl⟩
  · rintro ⟨sender, denotes, rfl⟩
    exact isFromZero_of_denotes denotes

theorem onlyRejects_isFromZero_iff {topic : Text} :
    OnlyRejects (isFromZero primitives topic) ↔ IsHex topic := by
  rw [isFromZero, onlyRejects_bind_iff, onlyRejects_topicAddress_iff]
  exact and_iff_left fun _ _ => failsOnly_ok _

theorem topicUint_eq_ok_iff {topic : Text} {value : ℕ} :
    topicUint topic = .ok value ↔
      ∃ raw, Denotes topic raw ∧ raw.length = 32 ∧ value = fromBigEndian raw := by
  rw [topicUint, bind_eq_ok_iff]
  simp only [bytesFromhex_eq_ok_iff]
  refine exists_congr fun raw => and_congr_right fun _ => ?_
  split_ifs with malformed
  · simp [malformed]
  · simp only [not_not] at malformed
    simp [malformed, intFromBytes, fromBigEndian, eq_comm]

theorem onlyRejects_topicUint_iff {topic : Text} : OnlyRejects (topicUint topic) ↔ IsHex topic := by
  rw [topicUint, onlyRejects_bind_iff, onlyRejects_bytesFromhex_iff]
  refine and_iff_left fun raw _ => ?_
  split_ifs
  · exact failsOnly_error_iff.mpr trivial
  · exact failsOnly_ok _

end Readers

/-! Each rule says what a part of a log has to be for the decoder to go on from it. -/

section Rules

variable {α : Type} {topic : Text} {later : Prop}

theorem onlyRejects_address_iff {next : Text → Except Raised α}
    (continues : ∀ address, OnlyRejects (next address) ↔ later) :
    OnlyRejects (topicAddress primitives topic >>= next) ↔ ReadsAddress topic later := by
  rw [onlyRejects_bind_iff, onlyRejects_topicAddress_iff, ReadsAddress]
  refine and_congr_right fun _ => ?_
  simp only [continues, topicAddress_eq_ok_iff]
  constructor
  · rintro follows ⟨holder, denotes⟩
    exact follows _ ⟨holder, denotes, rfl⟩
  · rintro follows _ ⟨holder, denotes, _⟩
    exact follows ⟨holder, denotes⟩

theorem onlyRejects_sender_iff {next : Except Raised (List DecodedMint)}
    (continues : OnlyRejects next ↔ later) :
    OnlyRejects (isFromZero primitives topic >>= fun zero => if !zero then .ok [] else next) ↔
      ReadsSender topic later := by
  rw [onlyRejects_bind_iff, onlyRejects_isFromZero_iff, ReadsSender, ← continues]
  refine and_congr_right fun _ => ?_
  constructor
  · intro follows denotes
    exact follows true (isFromZero_eq_ok_iff.mpr ⟨nobody, denotes, by simp⟩)
  · intro follows zero returned
    rcases isFromZero_eq_ok_iff.mp returned with ⟨sender, denotes, rfl⟩
    by_cases zero : sender = nobody
    · rw [zero] at denotes
      simpa [zero] using follows denotes
    · simp [zero]

theorem onlyRejects_uint_iff {later : ℕ → Prop} {next : ℕ → Except Raised α}
    (continues : ∀ value, OnlyRejects (next value) ↔ later value) :
    OnlyRejects (topicUint topic >>= next) ↔ ReadsUint topic later := by
  rw [onlyRejects_bind_iff, onlyRejects_topicUint_iff, ReadsUint]
  refine and_congr_right fun _ => ?_
  simp only [continues, topicUint_eq_ok_iff]
  constructor
  · intro follows raw denotes long
    exact follows _ ⟨raw, denotes, long, rfl⟩
  · rintro follows _ ⟨raw, denotes, long, rfl⟩
    exact follows raw denotes long

theorem onlyRejects_data_iff {Value : Type} {decoder : Bytes → Option Value}
    {later : Value → Prop} {next : Value → Except Raised α}
    (continues : ∀ value, OnlyRejects (next value) ↔ later value) :
    OnlyRejects (dataBytes log.data >>= fun data => decodeAbi decoder data >>= next) ↔
      ReadsData log decoder later := by
  rw [onlyRejects_bind_iff, and_iff_right (onlyRejects_dataBytes log.data)]
  simp only [ReadsData, dataBytes_eq_ok_iff]
  refine forall_congr' fun data => imp_congr_right fun _ => ?_
  rw [decodeAbi]
  cases decoder data with
  | none =>
      refine iff_of_false (fun rejects => ?_) (by simp)
      exact rejects .decodingError rfl
  | some value => simp [ok_bind, continues]

theorem onlyRejects_decoded_iff {standard : TokenStandard} {tokenId quantity : ℕ}
    {recipient : Text} {operator : Option Text} {subIndex : ℕ} :
    OnlyRejects (decoded primitives log standard tokenId quantity recipient operator subIndex) ↔
      (0 < quantity → IsAddressText log.address) := by
  rw [decoded]
  split_ifs with absent
  · refine iff_of_true (failsOnly_error_iff.mpr trivial) fun positive => ?_
    exact absurd absent positive.ne'
  · simp only [primitives.toChecksumAddress_eq, Nat.pos_of_ne_zero absent, true_implies]
    split_ifs with wellFormed
    · exact iff_of_true (failsOnly_ok _) wellFormed
    · exact iff_of_false (fun rejects => rejects _ rfl) wellFormed

theorem isAddressText_of_decoded_eq_ok {standard : TokenStandard} {tokenId quantity : ℕ}
    {recipient : Text} {operator : Option Text} {subIndex : ℕ} {mint : DecodedMint}
    (returned : decoded primitives log standard tokenId quantity recipient operator subIndex =
      .ok mint) : IsAddressText log.address := by
  have rejects : OnlyRejects (.ok mint : Except Raised DecodedMint) := failsOnly_ok mint
  rw [← returned] at rejects
  exact onlyRejects_decoded_iff.mp rejects (decoded_eq_ok returned).2.2.2.2

theorem onlyRejects_singleton_iff {standard : TokenStandard} {tokenId quantity : ℕ}
    {recipient : Text} {operator : Option Text} {subIndex : ℕ} :
    OnlyRejects (decoded primitives log standard tokenId quantity recipient operator subIndex >>=
      fun mint => .ok [mint]) ↔ (0 < quantity → IsAddressText log.address) := by
  rw [onlyRejects_bind_iff, onlyRejects_decoded_iff]
  exact and_iff_left fun mint _ => failsOnly_ok [mint]

/-- A loop meets the address of the log in its first round, or rejects the log there. -/
theorem onlyRejects_loop_iff {elements : List α} {quantity : α → ℕ}
    {body : α → Except Raised DecodedMint}
    (continues : ∀ element,
      OnlyRejects (body element) ↔ (0 < quantity element → IsAddressText log.address))
    (reads : ∀ {element mint}, body element = .ok mint → IsAddressText log.address) :
    OnlyRejects (elements.mapM body) ↔
      ∀ element, elements.head? = some element → 0 < quantity element →
        IsAddressText log.address := by
  cases elements with
  | nil => exact iff_of_true (failsOnly_ok []) (by simp)
  | cons element elements =>
      rw [List.mapM_cons, onlyRejects_bind_iff]
      constructor
      · rintro ⟨first, _⟩ other found
        cases found
        exact (continues element).mp first
      · intro readable
        refine ⟨(continues element).mpr (readable element rfl), fun mint returned => ?_⟩
        have valid := reads returned
        have later : OnlyRejects (elements.mapM body) :=
          FailsOnly.mapM fun other _ => (continues other).mpr fun _ => valid
        exact later.bind fun mints _ => failsOnly_ok (mint :: mints)

end Rules

section Events

theorem onlyRejects_decodeErc721_iff {signature sender recipient token : Text}
    (topics : log.topics = [signature, sender, recipient, token]) :
    OnlyRejects (decodeErc721 primitives log) ↔ ReadsErc721 log sender recipient token := by
  simp only [decodeErc721, topics]
  refine onlyRejects_sender_iff (onlyRejects_uint_iff fun tokenId =>
    onlyRejects_address_iff fun recipient => ?_)
  rw [onlyRejects_singleton_iff]
  simp

theorem onlyRejects_decodeErc1155Single_iff {signature operator sender recipient : Text}
    (topics : log.topics = [signature, operator, sender, recipient]) :
    OnlyRejects (decodeErc1155Single primitives log) ↔
      ReadsErc1155Single primitives log operator sender recipient := by
  simp only [decodeErc1155Single, topics]
  exact onlyRejects_sender_iff (onlyRejects_data_iff fun token =>
    onlyRejects_address_iff fun recipient => onlyRejects_address_iff fun operator =>
      onlyRejects_singleton_iff)

theorem onlyRejects_decodeErc1155Batch_iff {signature operator sender recipient : Text}
    (topics : log.topics = [signature, operator, sender, recipient]) :
    OnlyRejects (decodeErc1155Batch primitives log) ↔
      ReadsErc1155Batch primitives log operator sender recipient := by
  simp only [decodeErc1155Batch, topics]
  refine onlyRejects_sender_iff (onlyRejects_data_iff fun tokens => ?_)
  rcases tokens with ⟨tokenIds, quantities⟩
  by_cases same : tokenIds.length = quantities.length
  · simp only [same, ne_eq, not_true_eq_false, if_false, true_implies]
    refine onlyRejects_address_iff fun recipient => onlyRejects_address_iff fun operator => ?_
    rw [onlyRejects_loop_iff (fun _ => onlyRejects_decoded_iff) isAddressText_of_decoded_eq_ok]
    cases quantities with
    | nil => simp
    | cons quantity quantities =>
        cases tokenIds with
        | nil => simp at same
        | cons tokenId tokenIds => simp
  · simp only [same, ne_eq, not_false_eq_true, if_true]
    exact iff_of_true (failsOnly_error_iff.mpr trivial) False.elim

theorem onlyRejects_decodeErc2309_iff {signature first sender recipient : Text}
    (topics : log.topics = [signature, first, sender, recipient]) :
    OnlyRejects (decodeErc2309 primitives log maxErc2309Range) ↔
      ReadsErc2309 primitives log maxErc2309Range first sender recipient := by
  simp only [decodeErc2309, topics]
  refine onlyRejects_sender_iff (onlyRejects_data_iff fun toTokenId =>
    onlyRejects_uint_iff fun fromTokenId => ?_)
  split_ifs with backwards long
  · refine iff_of_true (failsOnly_error_iff.mpr trivial) fun ordered => ?_
    omega
  · refine iff_of_true (failsOnly_error_iff.mpr trivial) fun _ short => ?_
    omega
  · have ordered : fromTokenId ≤ toTokenId := by omega
    simp only [ordered, not_lt.mp long, true_implies]
    refine onlyRejects_address_iff fun recipient => ?_
    have first : (List.range (toTokenId + 1 - fromTokenId)).head? = some 0 := by
      rw [List.head?_range, if_neg backwards]
    rw [onlyRejects_loop_iff (fun _ => onlyRejects_decoded_iff) isAddressText_of_decoded_eq_ok,
      first]
    simp

theorem decodeMintLog_of_length_ne (other : log.topics.length ≠ 4) :
    decodeMintLog primitives log maxErc2309Range = .ok [] := by
  have absent : ∀ {signature first second third}, log.topics ≠ [signature, first, second, third] :=
    fun topics => other (congrArg List.length topics)
  simp only [decodeMintLog, decodeErc721, decodeErc1155Single, decodeErc1155Batch, decodeErc2309]
  split
  · rfl
  · rfl
  · -- Since `absent` holds, each decoder takes the branch for other numbers of topics.
    split_ifs
    all_goals rfl

theorem onlyRejects_decodeMintLog_iff :
    OnlyRejects (decodeMintLog primitives log maxErc2309Range) ↔
      IsReadable primitives log maxErc2309Range := by
  by_cases four : log.topics.length = 4
  · match topics : log.topics, four with
    | [signature, first, second, third], _ =>
        cases removed : log.removed with
        | true =>
            refine iff_of_true ?_ (by simp [IsReadable, removed])
            rw [decodeMintLog, removed]
            exact failsOnly_ok []
        | false =>
            have layout : ∀ {reads : Text → Text → Text → Text → Prop},
                (∀ other one two three : Text,
                  [signature, first, second, third] = [other, one, two, three] →
                    reads other one two three) ↔ reads signature first second third := by
              refine ⟨fun all => all _ _ _ _ rfl, ?_⟩
              rintro holds _ _ _ _ ⟨⟩
              exact holds
            simp only [IsReadable, removed, topics, true_implies, layout]
            rw [← onlyRejects_decodeErc721_iff topics,
              ← onlyRejects_decodeErc1155Single_iff topics,
              ← onlyRejects_decodeErc1155Batch_iff topics, ← onlyRejects_decodeErc2309_iff topics]
            simp only [decodeMintLog, removed, topics]
            split_ifs
            · rfl
            · rfl
            · rfl
            · rfl
            · exact iff_of_true (failsOnly_ok []) trivial
  · rw [decodeMintLog_of_length_ne four]
    refine iff_of_true (failsOnly_ok []) fun _ signature first second third topics => ?_
    simp [topics] at four

end Events

section Positive

theorem returns_decoded (standard : TokenStandard) (tokenId quantity : ℕ) (recipient : Text)
    (operator : Option Text) (subIndex : ℕ) :
    Returns (fun mint => 0 < mint.quantity)
      (decoded primitives log standard tokenId quantity recipient operator subIndex) := by
  intro mint returned
  have facts := decoded_eq_ok returned
  rw [facts.2.2.2.1]
  exact facts.2.2.2.2

theorem returns_singleton (standard : TokenStandard) (tokenId quantity : ℕ) (recipient : Text)
    (operator : Option Text) (subIndex : ℕ) :
    Returns AllPositive
      (decoded primitives log standard tokenId quantity recipient operator subIndex >>=
        fun mint => .ok [mint]) :=
  .bind fun mint returned => by
    simpa [AllPositive] using returns_decoded _ _ _ _ _ _ mint returned

theorem allPositive_nil : AllPositive [] := by simp [AllPositive]

theorem returns_nil : Returns AllPositive (.ok [] : Except Raised (List DecodedMint)) :=
  returns_ok_iff.mpr allPositive_nil

theorem returns_decodeErc721 : Returns AllPositive (decodeErc721 primitives log) := by
  simp only [decodeErc721]
  split
  · refine returns_fromZero allPositive_nil ?_
    exact .bind fun tokenId _ => .bind fun recipient _ => returns_singleton _ _ _ _ _ _
  · exact returns_nil

theorem returns_decodeErc1155Single :
    Returns AllPositive (decodeErc1155Single primitives log) := by
  simp only [decodeErc1155Single]
  split
  · refine returns_fromZero allPositive_nil ?_
    exact .bind fun data _ => .bind fun token _ => .bind fun recipient _ =>
      .bind fun operator _ => returns_singleton _ _ _ _ _ _
  · exact returns_nil

theorem returns_decodeErc1155Batch : Returns AllPositive (decodeErc1155Batch primitives log) := by
  simp only [decodeErc1155Batch]
  split
  · refine returns_fromZero allPositive_nil (.bind fun data _ => .bind fun tokens _ => ?_)
    split_ifs
    · exact returns_error _
    · exact .bind fun recipient _ => .bind fun operator _ =>
        Returns.mapM fun element _ => returns_decoded _ _ _ _ _ _
  · exact returns_nil

theorem returns_decodeErc2309 :
    Returns AllPositive (decodeErc2309 primitives log maxErc2309Range) := by
  simp only [decodeErc2309]
  split
  · refine returns_fromZero allPositive_nil
      (.bind fun data _ => .bind fun toTokenId _ => .bind fun fromTokenId _ => ?_)
    split_ifs
    · exact returns_error _
    · exact returns_error _
    · exact .bind fun recipient _ =>
        Returns.mapM fun subIndex _ => returns_decoded _ _ _ _ _ _
  · exact returns_nil

/-- Whatever a log decodes to is of positive quantity. -/
theorem returns_decodeMintLog :
    Returns AllPositive (decodeMintLog primitives log maxErc2309Range) := by
  simp only [decodeMintLog]
  split
  · exact returns_nil
  · exact returns_nil
  · split_ifs
    · exact returns_decodeErc721
    · exact returns_decodeErc1155Single
    · exact returns_decodeErc1155Batch
    · exact returns_decodeErc2309
    · exact returns_nil

end Positive

/-- A log is decoded or rejected exactly if whatever the decoder reads of it is readable. -/
theorem decodedOrRejected_iff (primitives : Primitives) (log : EvmLog) (maxErc2309Range : ℕ) :
    DecodedOrRejected primitives log maxErc2309Range ↔
      IsReadable primitives log maxErc2309Range := by
  rw [← onlyRejects_decodeMintLog_iff]
  constructor
  · rintro (⟨mints, returned, _⟩ | ⟨raised, failed, rejected⟩)
    · rw [returned]
      exact failsOnly_ok mints
    · rw [failed]
      exact failsOnly_error_iff.mpr rejected
  · intro rejects
    cases result : decodeMintLog primitives log maxErc2309Range with
    | ok mints => exact .inl ⟨mints, result, returns_decodeMintLog mints result⟩
    | error raised => exact .inr ⟨raised, result, rejects raised result⟩

/-- `TransferSingle` from nobody without any data. -/
def truncatedLog : EvmLog :=
  eventLog (erc1155SingleTopic referencePrimitives)
    [addressWord sampleAddress, addressWord nobody, addressWord sampleAddress] []

theorem truncatedLog_notRejected :
    ¬∀ log maxErc2309Range, DecodedOrRejected referencePrimitives log maxErc2309Range := by
  intro always
  have escaped : decodeMintLog referencePrimitives truncatedLog = .error .decodingError := by
    decide +kernel
  rcases always truncatedLog 5000 with ⟨mints, returned, _⟩ | ⟨raised, failed, rejected⟩
  · rw [escaped] at returned
    cases returned
  · rw [escaped] at failed
    cases failed
    exact rejected

end CopyMint
