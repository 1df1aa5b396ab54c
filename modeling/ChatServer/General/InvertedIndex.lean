import Mathlib.Data.Finmap

/-!
# Inverted indices

An inverted index maps a key to the set of elements filed under it. Two habits of hash-table code
are kept apart from the relation the index stands for: a key is entered when its first element
arrives (`add`, which is `index[key].insert(element)`), and dropped when its last element leaves
(`remove`, which is find, erase and drop if empty).

`filed` is the relation as a set per key, with the empty set for an absent key. `NoEmptySets` says
that the second habit was kept, and then the presence of a key means that something is filed under
it (`mem_iff_exists_filed`). `Indexes` says which relation the index stands for; adding and
removing one pair adds and removes that pair of the relation.
-/

set_option autoImplicit false
set_option relaxedAutoImplicit false

namespace ChatServer

/-- A map from keys to the sets of elements filed under them. -/
abbrev InvertedIndex (Key Elem : Type*) := Finmap fun _ : Key ↦ Finset Elem

namespace InvertedIndex

variable {Key Elem : Type*} [DecidableEq Key] [DecidableEq Elem]

/-! ### Operations -/

/-- The elements filed under a key. -/
def filed (index : InvertedIndex Key Elem) (key : Key) : Finset Elem :=
  (index.lookup key).getD ∅

/-- `index[key].insert(element)`. -/
def add (index : InvertedIndex Key Elem) (key : Key) (element : Elem) : InvertedIndex Key Elem :=
  index.insert key (insert element (index.filed key))

/-- Erases the element from the set of the key, and the key with its last element. -/
def remove (index : InvertedIndex Key Elem) (key : Key) (element : Elem) :
    InvertedIndex Key Elem :=
  match index.lookup key with
  | none => index
  | some elements =>
    if elements.erase element = ∅ then index.erase key
    else index.insert key (elements.erase element)

/-- No key is kept with an empty set. -/
def NoEmptySets (index : InvertedIndex Key Elem) : Prop :=
  ∀ key, index.lookup key ≠ some ∅

/-- The pairs of the index are those of the relation. -/
def Indexes (index : InvertedIndex Key Elem) (relation : Key → Elem → Prop) : Prop :=
  ∀ key element, element ∈ index.filed key ↔ relation key element

/-! ### What is filed -/

omit [DecidableEq Elem] in
theorem filed_of_lookup {index : InvertedIndex Key Elem} {key : Key} {elements : Finset Elem}
    (hlookup : index.lookup key = some elements) : index.filed key = elements := by
  rw [filed, hlookup, Option.getD_some]

omit [DecidableEq Elem] in
theorem filed_of_lookup_none {index : InvertedIndex Key Elem} {key : Key}
    (hlookup : index.lookup key = none) : index.filed key = ∅ := by
  rw [filed, hlookup, Option.getD_none]

omit [DecidableEq Elem] in
@[simp] theorem filed_empty (key : Key) : (∅ : InvertedIndex Key Elem).filed key = ∅ := by
  rw [filed, Finmap.lookup_empty, Option.getD_none]

theorem filed_add_self (index : InvertedIndex Key Elem) (key : Key) (element : Elem) :
    (index.add key element).filed key = insert element (index.filed key) := by
  rw [add, filed, Finmap.lookup_insert, Option.getD_some]

theorem filed_add_of_ne (index : InvertedIndex Key Elem) {key other : Key} (element : Elem)
    (hne : other ≠ key) : (index.add key element).filed other = index.filed other := by
  rw [add, filed, Finmap.lookup_insert_of_ne _ hne, filed]

theorem mem_filed_add {index : InvertedIndex Key Elem} {key other : Key} {element elem : Elem} :
    elem ∈ (index.add key element).filed other ↔
      elem ∈ index.filed other ∨ (other = key ∧ elem = element) := by
  by_cases hkey : other = key
  · rw [hkey, filed_add_self, Finset.mem_insert]
    tauto
  · rw [filed_add_of_ne index element hkey]
    tauto

theorem filed_remove_self (index : InvertedIndex Key Elem) (key : Key) (element : Elem) :
    (index.remove key element).filed key = (index.filed key).erase element := by
  unfold remove
  cases hlookup : index.lookup key with
  | none =>
    rw [filed_of_lookup_none hlookup, Finset.erase_empty]
  | some elements =>
    rw [filed_of_lookup hlookup]
    dsimp only
    split_ifs with hempty
    · rw [filed, Finmap.lookup_erase, Option.getD_none, hempty]
    · rw [filed, Finmap.lookup_insert, Option.getD_some]

theorem filed_remove_of_ne (index : InvertedIndex Key Elem) {key other : Key} (element : Elem)
    (hne : other ≠ key) : (index.remove key element).filed other = index.filed other := by
  unfold remove
  cases hlookup : index.lookup key with
  | none => rfl
  | some elements =>
    dsimp only
    split_ifs with hempty
    · rw [filed, Finmap.lookup_erase_ne hne, filed]
    · rw [filed, Finmap.lookup_insert_of_ne _ hne, filed]

theorem mem_filed_remove {index : InvertedIndex Key Elem} {key other : Key}
    {element elem : Elem} :
    elem ∈ (index.remove key element).filed other ↔
      elem ∈ index.filed other ∧ ¬ (other = key ∧ elem = element) := by
  by_cases hkey : other = key
  · rw [hkey, filed_remove_self, Finset.mem_erase]
    tauto
  · rw [filed_remove_of_ne index element hkey]
    tauto

/-! ### Keys without elements -/

omit [DecidableEq Elem] in
theorem noEmptySets_empty : NoEmptySets (∅ : InvertedIndex Key Elem) := by
  intro key
  rw [Finmap.lookup_empty]
  simp

theorem NoEmptySets.add {index : InvertedIndex Key Elem} (hindex : index.NoEmptySets) (key : Key)
    (element : Elem) : (index.add key element).NoEmptySets := by
  intro other
  by_cases hkey : other = key
  · rw [hkey, InvertedIndex.add, Finmap.lookup_insert]
    simp
  · rw [InvertedIndex.add, Finmap.lookup_insert_of_ne _ hkey]
    exact hindex other

theorem NoEmptySets.remove {index : InvertedIndex Key Elem} (hindex : index.NoEmptySets)
    (key : Key) (element : Elem) : (index.remove key element).NoEmptySets := by
  intro other
  unfold InvertedIndex.remove
  cases hlookup : index.lookup key with
  | none => exact hindex other
  | some elements =>
    dsimp only
    by_cases hkey : other = key
    · split_ifs with hempty
      · rw [hkey, Finmap.lookup_erase]
        simp
      · rw [hkey, Finmap.lookup_insert]
        simpa using hempty
    · split_ifs with hempty
      · rw [Finmap.lookup_erase_ne hkey]
        exact hindex other
      · rw [Finmap.lookup_insert_of_ne _ hkey]
        exact hindex other

omit [DecidableEq Elem] in
/-- Where no key is kept with an empty set, a key is present exactly when something is filed under
it. -/
theorem NoEmptySets.mem_iff_exists_filed {index : InvertedIndex Key Elem}
    (hindex : index.NoEmptySets) {key : Key} :
    key ∈ index ↔ ∃ element, element ∈ index.filed key := by
  rw [← Finmap.lookup_isSome]
  cases hlookup : index.lookup key with
  | none => simp [filed_of_lookup_none hlookup]
  | some elements =>
    rw [filed_of_lookup hlookup]
    have hnonempty : elements ≠ ∅ := fun hempty ↦ hindex key (hempty ▸ hlookup)
    obtain ⟨element, helement⟩ := Finset.nonempty_iff_ne_empty.mpr hnonempty
    exact ⟨fun _ ↦ ⟨element, helement⟩, fun _ ↦ rfl⟩

omit [DecidableEq Elem] in
/-- Where no key is kept with an empty set, the index is known by what is filed. -/
theorem NoEmptySets.eq_of_filed {first second : InvertedIndex Key Elem}
    (hfirst : first.NoEmptySets) (hsecond : second.NoEmptySets)
    (hfiled : ∀ key, first.filed key = second.filed key) : first = second := by
  refine Finmap.ext_lookup fun key ↦ ?_
  have hkey := hfiled key
  cases hlookup : first.lookup key with
  | none =>
    cases hother : second.lookup key with
    | none => rfl
    | some elements =>
      rw [filed_of_lookup_none hlookup, filed_of_lookup hother] at hkey
      exact absurd (hkey ▸ hother) (hsecond key)
  | some elements =>
    cases hother : second.lookup key with
    | none =>
      rw [filed_of_lookup_none hother, filed_of_lookup hlookup] at hkey
      exact absurd (hkey ▸ hlookup) (hfirst key)
    | some others =>
      rw [filed_of_lookup hlookup, filed_of_lookup hother] at hkey
      rw [hkey]

/-! ### The relation of an index -/

omit [DecidableEq Elem] in
theorem Indexes.congr {index : InvertedIndex Key Elem} {first second : Key → Elem → Prop}
    (hindex : index.Indexes first)
    (hrelation : ∀ key element, first key element ↔ second key element) : index.Indexes second :=
  fun key element ↦ (hindex key element).trans (hrelation key element)

omit [DecidableEq Elem] in
/-- Two indices of one relation that keep no empty set are one index. -/
theorem Indexes.unique {first second : InvertedIndex Key Elem} {relation : Key → Elem → Prop}
    (hfirst : first.Indexes relation) (hsecond : second.Indexes relation)
    (hfirstKeys : first.NoEmptySets) (hsecondKeys : second.NoEmptySets) : first = second := by
  refine hfirstKeys.eq_of_filed hsecondKeys fun key ↦ ?_
  ext element
  rw [hfirst key element, hsecond key element]

end InvertedIndex

end ChatServer
