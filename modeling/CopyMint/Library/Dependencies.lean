import CopyMint.Library.Relational

/-!
# Catalogs of objects that depend on each other

An object of a catalog belongs to its owners, with which it is dropped, and it uses other
objects, which cannot be dropped before it. What is put on top of a catalog can be dropped
again without touching the catalog, because nothing in the catalog depends on what is new.
-/

namespace Relational

universe u v

/-- What an object is found by, and what it depends on. -/
structure Dependencies (Object : Type u) (Key : Type v) where
  key : Object → Key
  /-- An object is dropped together with any of its owners. -/
  owners : Object → List Key
  /-- What an object uses cannot be dropped before it. -/
  uses : Object → List Key
  owners_trans : ∀ {object owner}, key owner ∈ owners object → owners owner ⊆ owners object

namespace Dependencies

variable {Object : Type u} {Key : Type v} (deps : Dependencies Object Key)

/-- The keys that a catalog has to have before an object is created in it. -/
def needs (object : Object) : List Key := deps.owners object ++ deps.uses object

/-- Keys are unique, and nothing that an object depends on is missing. -/
structure WellFormed (catalog : List Object) : Prop where
  unique : Unique deps.key catalog
  closed : ∀ object ∈ catalog, ∀ needed ∈ deps.needs object, needed ∈ catalog.map deps.key

variable [DecidableEq Key]

/-- Create an object with a new key, on objects that exist. -/
def create (object : Object) (catalog : List Object) : Option (List Object) :=
  if deps.key object ∉ catalog.map deps.key ∧
      ∀ needed ∈ deps.needs object, needed ∈ catalog.map deps.key then
    some (catalog ++ [object])
  else none

/-- Create objects one after the other. -/
def createAll : List Object → List Object → Option (List Object)
  | [], catalog => some catalog
  | object :: objects, catalog => (deps.create object catalog).bind (createAll objects)

/-- An object goes when the key is dropped. -/
def isDropped (key : Key) (object : Object) : Bool :=
  deps.key object = key || (deps.owners object).contains key

/-- An object uses one that goes when the key is dropped. -/
def isBlocking (catalog : List Object) (key : Key) (object : Object) : Bool :=
  catalog.any fun other => deps.isDropped key other && (deps.uses object).contains (deps.key other)

/-- Drop an object and what belongs to it, unless anything else uses what is dropped. -/
def drop (key : Key) (catalog : List Object) : Option (List Object) :=
  let kept := catalog.filter fun object => !deps.isDropped key object
  if key ∈ catalog.map deps.key ∧ ∀ object ∈ kept, deps.isBlocking catalog key object = false then
    some kept
  else none

variable {deps} {key : Key} {object : Object} {objects base added catalog after : List Object}

theorem create_eq_some_iff :
    deps.create object catalog = some after ↔
      (deps.key object ∉ catalog.map deps.key ∧
        ∀ needed ∈ deps.needs object, needed ∈ catalog.map deps.key) ∧
      catalog ++ [object] = after := by
  simp only [create, Option.ite_none_right_eq_some, Option.some.injEq]

theorem drop_eq_some_iff :
    deps.drop key catalog = some after ↔
      (key ∈ catalog.map deps.key ∧
        ∀ object ∈ after, deps.isBlocking catalog key object = false) ∧
      (catalog.filter fun object => !deps.isDropped key object) = after := by
  simp only [drop, Option.ite_none_right_eq_some, Option.some.injEq]
  constructor
  · rintro ⟨allowed, rfl⟩
    exact ⟨allowed, rfl⟩
  · rintro ⟨allowed, rfl⟩
    exact ⟨allowed, rfl⟩

/-- What is created comes after what there is. -/
theorem createAll_eq_append (created : deps.createAll objects catalog = some after) :
    after = catalog ++ objects := by
  induction objects generalizing catalog with
  | nil =>
      cases created
      exact (List.append_nil after).symm
  | cons object objects ih =>
      rcases Option.bind_eq_some_iff.mp created with ⟨middle, first, rest⟩
      rw [ih rest, ← (create_eq_some_iff.mp first).2, List.append_assoc, List.singleton_append]

namespace WellFormed

omit [DecidableEq Key] in
theorem nil : deps.WellFormed [] where
  unique := unique_nil
  closed := fun _ impossible => absurd impossible List.not_mem_nil

theorem create (wellFormed : deps.WellFormed catalog)
    (created : deps.create object catalog = some after) : deps.WellFormed after := by
  rcases create_eq_some_iff.mp created with ⟨⟨fresh, present⟩, rfl⟩
  constructor
  · apply wellFormed.unique.append
    rw [lookup_eq_none_iff]
    intro other other_mem same
    exact fresh (List.mem_map.mpr ⟨other, other_mem, same⟩)
  · intro other other_mem needed needed_mem
    rw [List.map_append]
    apply List.mem_append_left
    rcases List.mem_append.mp other_mem with old | new
    · exact wellFormed.closed other old needed needed_mem
    · rw [List.mem_singleton.mp new] at needed_mem
      exact present needed needed_mem

theorem createAll (wellFormed : deps.WellFormed catalog)
    (created : deps.createAll objects catalog = some after) : deps.WellFormed after := by
  induction objects generalizing catalog with
  | nil =>
      cases created
      exact wellFormed
  | cons object objects ih =>
      rcases Option.bind_eq_some_iff.mp created with ⟨middle, first, rest⟩
      exact ih (wellFormed.create first) rest

theorem drop (wellFormed : deps.WellFormed catalog) (dropped : deps.drop key catalog = some after) :
    deps.WellFormed after := by
  rcases drop_eq_some_iff.mp dropped with ⟨⟨_, unblocked⟩, rfl⟩
  constructor
  · exact List.Nodup.sublist (List.filter_sublist.map deps.key) wellFormed.unique
  · intro object object_mem needed needed_mem
    rcases List.mem_filter.mp object_mem with ⟨object_mem_catalog, stays⟩
    rcases List.mem_map.mp (wellFormed.closed object object_mem_catalog needed needed_mem) with
      ⟨other, other_mem, rfl⟩
    refine List.mem_map.mpr ⟨other, List.mem_filter.mpr ⟨other_mem, ?_⟩, rfl⟩
    rw [Bool.not_eq_true']
    by_contra goes
    rw [Bool.not_eq_false] at goes
    rcases List.mem_append.mp needed_mem with owner | used
    · -- What is dropped with an owner is dropped with the owners of the owner.
      have goes_too : deps.isDropped key object = true := by
        simp only [isDropped, Bool.or_eq_true, decide_eq_true_eq, List.contains_iff_mem] at goes ⊢
        rcases goes with same | above
        · exact .inr (same ▸ owner)
        · exact .inr (deps.owners_trans owner above)
      rw [goes_too] at stays
      cases stays
    · have blocking : deps.isBlocking catalog key object = true :=
        List.any_eq_true.mpr ⟨other, other_mem, Bool.and_eq_true_iff.mpr
          ⟨goes, List.contains_iff_mem.mpr used⟩⟩
      cases blocking.symm.trans (unblocked object object_mem)

end WellFormed

section Additions

/-- Nothing in a catalog is dropped with what it does not have. -/
theorem WellFormed.isDropped_eq_false (wellFormed : deps.WellFormed base)
    (foreign : key ∉ base.map deps.key) (object_mem : object ∈ base) :
    deps.isDropped key object = false := by
  simp only [isDropped, Bool.or_eq_false_iff, decide_eq_false_iff_not, List.contains_eq_mem]
  constructor
  · rintro rfl
    exact foreign (List.mem_map_of_mem object_mem)
  · intro owned
    exact foreign (wellFormed.closed object object_mem key (List.mem_append_left _ owned))

/-- What is dropped from the objects on top of a catalog is dropped from the whole. -/
theorem WellFormed.drop_append (wellFormed : deps.WellFormed base)
    (new : ∀ object ∈ added, deps.key object ∉ base.map deps.key)
    (foreign : key ∉ base.map deps.key) :
    deps.drop key (base ++ added) = (deps.drop key added).map (base ++ ·) := by
  have stays : (base.filter fun object => !deps.isDropped key object) = base := by
    rw [List.filter_eq_self]
    intro object object_mem
    rw [wellFormed.isDropped_eq_false foreign object_mem]
    rfl
  have sameBlocking : ∀ object, deps.isBlocking (base ++ added) key object =
      deps.isBlocking added key object := by
    intro object
    have none : (base.any fun other => deps.isDropped key other &&
        (deps.uses object).contains (deps.key other)) = false := by
      rw [List.any_eq_false]
      intro other other_mem
      rw [wellFormed.isDropped_eq_false foreign other_mem]
      exact Bool.false_ne_true
    rw [isBlocking, List.any_append, none, Bool.false_or]
    rfl
  have unused : ∀ object ∈ base, deps.isBlocking added key object = false := by
    intro object object_mem
    rw [isBlocking, List.any_eq_false]
    intro other other_mem blocked
    rcases Bool.and_eq_true_iff.mp blocked with ⟨_, used⟩
    exact new other other_mem (wellFormed.closed object object_mem _
      (List.mem_append_right _ (List.contains_iff_mem.mp used)))
  have allowed_iff : (key ∈ (base ++ added).map deps.key ∧
      ∀ object ∈ (base ++ added).filter fun object => !deps.isDropped key object,
        deps.isBlocking (base ++ added) key object = false) ↔
      key ∈ added.map deps.key ∧
        ∀ object ∈ added.filter fun object => !deps.isDropped key object,
          deps.isBlocking added key object = false := by
    simp only [List.filter_append, stays, sameBlocking, List.map_append, List.mem_append, foreign,
      false_or]
    refine and_congr_right fun _ => ⟨fun unblocked object kept => unblocked object (.inr kept), ?_⟩
    rintro unblocked object (old | kept)
    · exact unused object old
    · exact unblocked object kept
  unfold Dependencies.drop
  dsimp only
  by_cases allowed : key ∈ added.map deps.key ∧
      ∀ object ∈ added.filter fun object => !deps.isDropped key object,
        deps.isBlocking added key object = false
  · rw [if_pos (allowed_iff.mpr allowed), if_pos allowed, List.filter_append, stays]
    rfl
  · rw [if_neg (mt allowed_iff.mp allowed), if_neg allowed]
    rfl

omit [DecidableEq Key] in
theorem WellFormed.new_of_append (wellFormed : deps.WellFormed (base ++ added)) :
    ∀ object ∈ added, deps.key object ∉ base.map deps.key := by
  intro object object_mem present
  have unique := wellFormed.unique
  rw [Unique, List.map_append, List.nodup_append] at unique
  exact unique.2.2 _ present _ (List.mem_map_of_mem object_mem) rfl

end Additions

end Dependencies

end Relational
