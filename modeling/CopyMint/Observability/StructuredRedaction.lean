import CopyMint.Observability.Redaction

/-!
# Redaction of structured values

Two values may differ in what stands under sensitive keys, at any depth. Their redactions
are equal, so nothing that stands under such a key can be told from a redaction. Elsewhere
a redaction has the keys, lengths and values that are no text of what it was made from.
-/

namespace CopyMint

open Hexadecimal

variable {Number : Type} {tables : CharacterTables}

/--
Values are equal apart from what stands under hidden keys. The order of a mapping's
members does not count.
-/
inductive Alike (hidden : Text → Prop) (same : Scalar Number → Scalar Number → Prop) :
    Value Number → Value Number → Prop
  | scalar {first second : Scalar Number} (equal : same first second) :
      Alike hidden same (.scalar first) (.scalar second)
  | text (value : Text) : Alike hidden same (.text value) (.text value)
  | list {first second : List (Value Number)} (lengths : first.length = second.length)
      (items : ∀ pair ∈ first.zip second, Alike hidden same pair.1 pair.2) :
      Alike hidden same (.list first) (.list second)
  | tuple {first second : List (Value Number)} (lengths : first.length = second.length)
      (items : ∀ pair ∈ first.zip second, Alike hidden same pair.1 pair.2) :
      Alike hidden same (.tuple first) (.tuple second)
  | mapping {first second : List (Text × Value Number)}
      (keys : ∀ key, key ∈ first.map Prod.fst ↔ key ∈ second.map Prod.fst)
      (values : ∀ key value other, (key, value) ∈ first → (key, other) ∈ second →
        ¬hidden key → Alike hidden same value other) :
      Alike hidden same (.mapping first) (.mapping second)

/-- One step into a container. -/
inductive Step where
  | key (key : Text)
  | index (index : ℕ)

/-- What one step leads to. -/
def Value.child : Value Number → Step → Option (Value Number)
  | .mapping members, .key key => (members.find? fun member => member.1 = key).map Prod.snd
  | .list items, .index index => items[index]?
  | .tuple items, .index index => items[index]?
  | _, _ => none

/-- The value at a position, step by step. -/
def Value.reach (value : Value Number) : List Step → Option (Value Number)
  | [] => some value
  | step :: path =>
      match value.child step with
      | none => none
      | some inner => inner.reach path

/-- No step of a position is a sensitive key. -/
def IsPublic (tables : CharacterTables) (path : List Step) : Prop :=
  ∀ key, Step.key key ∈ path → isSensitiveKey tables key = false

/-- What redaction leaves of a value outside the sensitive positions. -/
inductive KeptAs (tables : CharacterTables) : Value Number → Value Number → Prop
  | scalar (value : Scalar Number) : KeptAs tables (.scalar value) (.scalar value)
  | text (value : Text) : KeptAs tables (.text value) (.text (redactText tables value))
  | list {before after : List (Value Number)} (lengths : after.length = before.length) :
      KeptAs tables (.list before) (.list after)
  | tuple {before after : List (Value Number)} (lengths : after.length = before.length) :
      KeptAs tables (.tuple before) (.tuple after)
  | mapping {before after : List (Text × Value Number)}
      (keys : after.map Prod.fst = before.map Prod.fst) :
      KeptAs tables (.mapping before) (.mapping after)

section Traversal

theorem redactItems_eq_map (items : List (Value Number)) :
    redactItems tables items = items.map (redact tables none) := by
  induction items with
  | nil => rfl
  | cons item items ih => rw [redactItems, ih, List.map_cons]

theorem redactMembers_eq_map (members : List (Text × Value Number)) :
    redactMembers tables members =
      members.map fun member => (member.1, redact tables (some member.1) member.2) := by
  induction members with
  | nil => rfl
  | cons member members ih => rw [redactMembers, ih, List.map_cons]

/-- The key decides only whether the whole value is replaced. -/
theorem redact_some (key : Text) (value : Value Number) :
    redact tables (some key) value =
      if isSensitiveKey tables key then .text redactedMark else redact tables none value := by
  by_cases sensitive : isSensitiveKey tables key = true
  · rw [if_pos sensitive, redact.eq_def, if_pos (by simpa using sensitive)]
  · rw [if_neg sensitive, redact.eq_def, if_neg (by simpa using sensitive)]
    symm
    rw [redact.eq_def, if_neg (by simp)]

theorem redact_none (value : Value Number) :
    redact tables none value =
      match value with
      | .scalar value => .scalar value
      | .text value => .text (redactText tables value)
      | .list items => .list (items.map (redact tables none))
      | .tuple items => .tuple (items.map (redact tables none))
      | .mapping members =>
          .mapping (members.map fun member =>
            (member.1, redact tables (some member.1) member.2)) := by
  rw [redact.eq_def, if_neg (by simp)]
  cases value <;> simp only [redactItems_eq_map, redactMembers_eq_map]

end Traversal

section Secrecy

variable {same : Scalar Number → Scalar Number → Prop}

/-- Both traversals of containers of one length meet at pairs of their elements. -/
theorem alike_items {hidden : Text → Prop} {first second : List (Value Number)}
    (items : ∀ pair ∈ first.zip second,
      Alike hidden same (redact tables none pair.1) (redact tables none pair.2)) :
    ∀ pair ∈ (first.map (redact tables none)).zip (second.map (redact tables none)),
      Alike hidden same pair.1 pair.2 := by
  intro pair pair_mem
  rw [List.zip_map] at pair_mem
  rcases List.mem_map.mp pair_mem with ⟨source, source_mem, rfl⟩
  exact items source source_mem

theorem keys_redacted (members : List (Text × Value Number)) :
    (members.map fun member => (member.1, redact tables (some member.1) member.2)).map Prod.fst =
      members.map Prod.fst := by
  rw [List.map_map]
  rfl

/-- What differs under sensitive keys only is redacted to the same. -/
theorem alike_redact {first second : Value Number}
    (alike : Alike (fun key => isSensitiveKey tables key = true) same first second) :
    Alike (fun _ => False) same (redact tables none first) (redact tables none second) := by
  induction alike with
  | scalar equal =>
      rw [redact_none, redact_none]
      exact .scalar equal
  | text value =>
      rw [redact_none]
      exact .text _
  | list lengths items ih =>
      rw [redact_none, redact_none]
      exact .list (by simpa using lengths) (alike_items ih)
  | tuple lengths items ih =>
      rw [redact_none, redact_none]
      exact .tuple (by simpa using lengths) (alike_items ih)
  | @mapping first second keys values ih =>
      rw [redact_none, redact_none]
      apply Alike.mapping
      · intro key
        rw [keys_redacted, keys_redacted]
        exact keys key
      · intro key value other value_mem other_mem _
        rcases List.mem_map.mp value_mem with ⟨⟨name, source⟩, source_mem, sourceSame⟩
        rcases List.mem_map.mp other_mem with ⟨⟨otherName, image⟩, image_mem, imageSame⟩
        cases sourceSame
        cases imageSame
        rw [redact_some, redact_some]
        split_ifs with sensitive
        · exact .text _
        · exact ih name source image source_mem image_mem sensitive

end Secrecy

section Shape

/-- A step that is no sensitive key leads to the redaction of what it led to before. -/
theorem child_redact {value : Value Number} {step : Step}
    (isPublic : ∀ key, step = .key key → isSensitiveKey tables key = false) :
    (redact tables none value).child step = (value.child step).map (redact tables none) := by
  rw [redact_none]
  cases value with
  | scalar value => cases step <;> rfl
  | text value => cases step <;> rfl
  | list items =>
      cases step with
      | key key => rfl
      | index index => exact List.getElem?_map
  | tuple items =>
      cases step with
      | key key => rfl
      | index index => exact List.getElem?_map
  | mapping members =>
      cases step with
      | index index => rfl
      | key key =>
          have visible := isPublic key rfl
          simp only [Value.child, List.find?_map, Option.map_map]
          cases found : members.find? fun member => decide (member.1 = key) with
          | none => simp [Function.comp_def, found]
          | some member =>
              have matching := List.find?_some found
              have named : member.1 = key := of_decide_eq_true matching
              simp [Function.comp_def, found, redact_some, named, visible]

theorem reach_redact {path : List Step} (isPublic : IsPublic tables path)
    (value : Value Number) :
    (redact tables none value).reach path = (value.reach path).map (redact tables none) := by
  induction path generalizing value with
  | nil => rfl
  | cons step path ih =>
      have inner : IsPublic tables path := fun key key_mem =>
        isPublic key (List.mem_cons_of_mem step key_mem)
      have child := @child_redact _ _ value step fun key same =>
        isPublic key (same ▸ List.mem_cons_self)
      rw [Value.reach, Value.reach, child]
      cases value.child step with
      | none => rfl
      | some found => exact ih inner found

theorem keptAs_redact (value : Value Number) :
    KeptAs tables value (redact tables none value) := by
  rw [redact_none]
  cases value with
  | scalar value => exact .scalar value
  | text value => exact .text value
  | list items => exact .list (List.length_map _)
  | tuple items => exact .tuple (List.length_map _)
  | mapping members => exact .mapping (keys_redacted members)

end Shape

/--
Values that differ under sensitive keys only have equal redactions, by whichever equality
of numbers, booleans and `None`. At every position that no sensitive key leads to, the
redaction has what the value has there, with texts redacted.
-/
theorem redact_noninterferes (tables : CharacterTables)
    (same : Scalar Number → Scalar Number → Prop) :
    (∀ first second, Alike (fun key => isSensitiveKey tables key = true) same first second →
      Alike (fun _ => False) same (redact tables none first) (redact tables none second)) ∧
    ∀ (value : Value Number) (path : List Step) (before : Value Number),
      IsPublic tables path → value.reach path = some before →
        ∃ after, (redact tables none value).reach path = some after ∧
          KeptAs tables before after := by
  constructor
  · intro first second alike
    exact alike_redact alike
  · intro value path before isPublic reached
    refine ⟨redact tables none before, ?_, keptAs_redact before⟩
    rw [reach_redact isPublic, reached]
    rfl

section Samples

/-- A login as it is logged. -/
def loginRecord (password : String) : Value ℤ :=
  .mapping
    [("chat".toList, .scalar (.number 99)),
      ("login".toList,
        .mapping
          [("user".toList, .text "app".toList), ("password".toList, .text password.toList)])]

/-- Two logins differ in what stands under the sensitive key. -/
theorem alike_loginRecord (password other : String) :
    Alike (fun key => isSensitiveKey asciiTables key = true) (· = ·) (loginRecord password)
      (loginRecord other) := by
  have keys : ("login".toList ≠ "chat".toList ∧ "password".toList ≠ "user".toList) ∧
      isSensitiveKey asciiTables "password".toList = true := by
    decide
  refine .mapping (fun _ => Iff.rfl) ?_
  intro key value image value_mem image_mem _
  simp only [List.mem_cons, List.not_mem_nil, or_false, Prod.mk.injEq] at value_mem image_mem
  rcases value_mem with ⟨rfl, rfl⟩ | ⟨rfl, rfl⟩ <;> rcases image_mem with ⟨same, rfl⟩ | ⟨same, rfl⟩
  · exact .scalar rfl
  · exact absurd same.symm keys.1.1
  · exact absurd same keys.1.1
  · refine .mapping (fun _ => Iff.rfl) ?_
    intro key value image value_mem image_mem visible
    simp only [List.mem_cons, List.not_mem_nil, or_false, Prod.mk.injEq] at value_mem image_mem
    rcases value_mem with ⟨rfl, rfl⟩ | ⟨rfl, rfl⟩
    · rcases image_mem with ⟨_, rfl⟩ | ⟨same, rfl⟩
      · exact .text _
      · exact absurd same.symm keys.1.2
    · exact absurd keys.2 visible

end Samples

/-- Which password has been tried cannot be told, and the user is still seen. -/
theorem loginRecords_noninterfere :
    Alike (fun _ => False) (· = ·) (redact asciiTables none (loginRecord "hunter2"))
        (redact asciiTables none (loginRecord "letmein")) ∧
      ∃ after, (redact asciiTables none (loginRecord "hunter2")).reach
          [.key "login".toList, .key "user".toList] = some after ∧
        KeptAs asciiTables (.text "app".toList) after := by
  have noninterferes := @redact_noninterferes ℤ asciiTables (· = ·)
  refine ⟨noninterferes.1 _ _ (alike_loginRecord "hunter2" "letmein"), ?_⟩
  refine noninterferes.2 _ _ _ ?_ rfl
  intro key key_mem
  simp only [List.mem_cons, List.not_mem_nil, or_false, Step.key.injEq] at key_mem
  rcases key_mem with rfl | rfl <;> decide

end CopyMint
