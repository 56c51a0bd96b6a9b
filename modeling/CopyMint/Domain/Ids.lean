import CopyMint.Library.Reading

/-!
# Identifiers

An identifier is the integer of a UUID. Its text is the integer's 32 hexadecimal
digits in five groups.
-/

namespace CopyMint

open Hexadecimal AbiEncoding

/-- `str(UUID(int=id))`. -/
def uuidText (id : ℕ) : Text :=
  let digits := hex (bigEndian 16 id)
  digits.take 8 ++ '-' :: (digits.drop 8).take 4 ++ '-' :: (digits.drop 12).take 4 ++
    '-' :: (digits.drop 16).take 4 ++ '-' :: digits.drop 20

example : uuidText 41 = "00000000-0000-0000-0000-000000000029".toList := by
  decide

/-- An identifier of 128 bits. -/
abbrev Uuid := { id : ℕ // id < 2 ^ 128 }

/-- The groups of an identifier's text are all of its digits. -/
theorem join_groups (digits : Text) :
    digits.take 8 ++ (digits.drop 8).take 4 ++ (digits.drop 12).take 4 ++
      (digits.drop 16).take 4 ++ digits.drop 20 = digits := by
  have joined : ∀ start : ℕ,
      (digits.drop start).take 4 ++ digits.drop (start + 4) = digits.drop start := by
    intro start
    rw [← List.drop_drop, List.take_append_drop]
  simp only [List.append_assoc, joined 16, joined 12, joined 8, List.take_append_drop]

theorem uuidText_injective {first second : ℕ} (first_lt : first < 2 ^ 128)
    (second_lt : second < 2 ^ 128) (same : uuidText first = uuidText second) :
    first = second := by
  apply bigEndian_injective 16 first_lt second_lt
  apply hex_injective
  rw [← join_groups (hex (bigEndian 16 first)), ← join_groups (hex (bigEndian 16 second))]
  simp only [uuidText] at same
  rcases List.append_inj' same (by simp) with ⟨same, fifth⟩
  rcases List.append_inj' same (by simp) with ⟨same, fourth⟩
  rcases List.append_inj' same (by simp) with ⟨same, third⟩
  rcases List.append_inj' same (by simp) with ⟨eighth, second_group⟩
  simp only [List.cons.injEq, true_and] at fifth fourth third second_group
  rw [eighth, second_group, third, fourth, fifth]

theorem newline_notMem_uuidText (id : ℕ) : '\n' ∉ uuidText id := by
  have free := newline_notMem_hex (bigEndian 16 id)
  have free_drop : ∀ start, '\n' ∉ (hex (bigEndian 16 id)).drop start :=
    fun start newline_mem => free (List.mem_of_mem_drop newline_mem)
  have free_take : ∀ start, '\n' ∉ ((hex (bigEndian 16 id)).drop start).take 4 :=
    fun start newline_mem => free_drop start (List.mem_of_mem_take newline_mem)
  have free_first : '\n' ∉ (hex (bigEndian 16 id)).take 8 :=
    fun newline_mem => free (List.mem_of_mem_take newline_mem)
  simp only [uuidText, List.mem_append, List.mem_cons, free_drop, free_take, free_first]
  decide

end CopyMint
