import CopyMint.Domain.Ids
import CopyMint.Library.BitFields

/-!
# Time-sortable identifiers

A UUIDv7 holds the milliseconds since 1970, the version, twelve random bits, the variant
and the other 62 random bits.
-/

namespace CopyMint

open BitFields

/-- The integer that is assembled from a time and from random bits. -/
def uuid7Value (timestampMs randomBits : ℕ) : ℕ :=
  let randomA := randomBits >>> 62
  let randomB := randomBits &&& (1 <<< 62) - 1
  timestampMs <<< 80 ||| 7 <<< 76 ||| randomA <<< 64 ||| 2 <<< 62 ||| randomB

/-- `UUID(int=value)`. -/
def uuidOfInt (value : ℕ) : Except String Uuid :=
  if below : value < 2 ^ 128 then .ok ⟨value, below⟩
  else .error "int is out of range (need a 128-bit value)"

/-- What is raised is told by its text. -/
def uuid7 (timeNs randomBits : ℕ) : Except String Uuid :=
  let timestampMs := timeNs / 1000000
  if timestampMs ≥ 1 <<< 48 then
    .error "Unix timestamp does not fit in UUIDv7's 48-bit field"
  else uuidOfInt (uuid7Value timestampMs randomBits)

/-- The bits of an identifier, from the highest to the lowest. -/
structure IsUuid7 (timestampMs randomBits id : ℕ) : Prop where
  below : id < 2 ^ 128
  timestamp : extract 80 48 id = timestampMs
  version : extract 76 4 id = 7
  variant : extract 62 2 id = 2
  random : extract 64 12 id <<< 62 ||| extract 0 62 id = randomBits

variable {timestampMs randomBits : ℕ}

/-- The fields of an identifier. -/
def uuid7Fields (timestampMs randomBits : ℕ) (timestamp_lt : timestampMs < 2 ^ 48)
    (random_lt : randomBits < 2 ^ 74) : List BitField :=
  [⟨48, timestampMs, timestamp_lt⟩, ⟨4, 7, by omega⟩,
    ⟨12, randomBits / 2 ^ 62, Nat.div_lt_of_lt_mul random_lt⟩, ⟨2, 2, by omega⟩,
    ⟨62, randomBits % 2 ^ 62, Nat.mod_lt _ (by omega)⟩]

theorem uuid7Value_eq_pack (timestamp_lt : timestampMs < 2 ^ 48)
    (random_lt : randomBits < 2 ^ 74) :
    uuid7Value timestampMs randomBits =
      pack (uuid7Fields timestampMs randomBits timestamp_lt random_lt) := by
  have low : randomBits &&& (1 <<< 62) - 1 = randomBits % 2 ^ 62 :=
    Nat.and_two_pow_sub_one_eq_mod _ 62
  simp only [uuid7Value, uuid7Fields, pack, totalWidth, List.map_cons, List.map_nil,
    List.sum_cons, List.sum_nil, low, Nat.shiftRight_eq_div_pow, Nat.or_assoc,
    Nat.shiftLeft_zero, Nat.or_zero, Nat.reduceAdd]

theorem isUuid7_uuid7Value (timestamp_lt : timestampMs < 2 ^ 48)
    (random_lt : randomBits < 2 ^ 74) :
    IsUuid7 timestampMs randomBits (uuid7Value timestampMs randomBits) := by
  rw [uuid7Value_eq_pack timestamp_lt random_lt]
  let fields := uuid7Fields timestampMs randomBits timestamp_lt random_lt
  have count : fields.length = 5 := rfl
  -- Each field stands behind those before it.
  have read : ∀ place (inside : place < fields.length),
      extract (totalWidth (fields.drop (place + 1))) fields[place].width (pack fields) =
        fields[place].value := by
    intro place inside
    have whole : fields = fields.take place ++ fields[place] :: fields.drop (place + 1) := by
      rw [← List.drop_eq_getElem_cons inside, List.take_append_drop]
    have found := extract_pack (fields.take place) fields[place] (fields.drop (place + 1))
    rwa [← whole] at found
  exact
    { below := pack_lt fields
      timestamp := read 0 (by omega)
      version := read 1 (by omega)
      variant := read 3 (by omega)
      random := by
        have high : extract 64 12 (pack fields) = randomBits / 2 ^ 62 := read 2 (by omega)
        have low : extract 0 62 (pack fields) = randomBits % 2 ^ 62 := read 4 (by omega)
        rw [high, low, shiftLeft_or (Nat.mod_lt _ (by omega))]
        exact Nat.div_add_mod' randomBits (2 ^ 62) }

theorem IsUuid7.injective {otherMs otherBits id : ℕ} (first : IsUuid7 timestampMs randomBits id)
    (second : IsUuid7 otherMs otherBits id) : timestampMs = otherMs ∧ randomBits = otherBits :=
  ⟨first.timestamp.symm.trans second.timestamp, first.random.symm.trans second.random⟩

/--
For every time of 48 bits and all random bits `uuid7` returns an identifier with the
fields that belong to them. Another time or other random bits make another identifier,
and a later time makes a greater one.
-/
theorem uuid7_layout (timestamp_lt : timestampMs < 2 ^ 48) (random_lt : randomBits < 2 ^ 74) :
    IsUuid7 timestampMs randomBits (uuid7Value timestampMs randomBits) ∧
      (∀ timeNs, timeNs / 1000000 = timestampMs →
        (uuid7 timeNs randomBits).map Subtype.val = .ok (uuid7Value timestampMs randomBits)) ∧
      (∀ otherMs < 2 ^ 48, ∀ otherBits < 2 ^ 74,
        uuid7Value timestampMs randomBits = uuid7Value otherMs otherBits →
          timestampMs = otherMs ∧ randomBits = otherBits) ∧
      ∀ laterMs < 2 ^ 48, ∀ otherBits < 2 ^ 74, timestampMs < laterMs →
        uuid7Value timestampMs randomBits < uuid7Value laterMs otherBits := by
  have layout := isUuid7_uuid7Value timestamp_lt random_lt
  refine ⟨layout, ?_, ?_, ?_⟩
  · rintro timeNs rfl
    have inside : ¬timeNs / 1000000 ≥ 1 <<< 48 := Nat.not_le.mpr timestamp_lt
    simp only [uuid7, if_neg inside, uuidOfInt, dif_pos layout.below]
    rfl
  · intro otherMs other_lt otherBits bits_lt same
    have otherLayout := isUuid7_uuid7Value other_lt bits_lt
    rw [← same] at otherLayout
    exact layout.injective otherLayout
  · intro laterMs later_lt otherBits bits_lt later
    rw [uuid7Value_eq_pack timestamp_lt random_lt, uuid7Value_eq_pack later_lt bits_lt]
    exact pack_lt_pack rfl later

theorem uuid7_layout_one :
    IsUuid7 1 2 (uuid7Value 1 2) ∧
      (∀ timeNs, timeNs / 1000000 = 1 →
        (uuid7 timeNs 2).map Subtype.val = .ok (uuid7Value 1 2)) ∧
      (∀ otherMs < 2 ^ 48, ∀ otherBits < 2 ^ 74,
        uuid7Value 1 2 = uuid7Value otherMs otherBits → 1 = otherMs ∧ 2 = otherBits) ∧
      ∀ laterMs < 2 ^ 48, ∀ otherBits < 2 ^ 74, 1 < laterMs →
        uuid7Value 1 2 < uuid7Value laterMs otherBits :=
  uuid7_layout (by decide) (by decide)

end CopyMint
