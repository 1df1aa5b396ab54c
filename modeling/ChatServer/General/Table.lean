import Mathlib.Data.List.Nodup
import Mathlib.Data.List.Sort

/-!
# SQL statements on a table

A table is the list of its rows, in no meaningful order, and a primary key is a function on rows
whose values are pairwise distinct (`KeyUnique`). A writing statement returns the table it leaves
together with the rows its `RETURNING` clause reports: `deleteWhere`, `updateWhere`, and the two
forms of `INSERT … ON CONFLICT`. The lemmas say which rows each of them leaves and that each keeps
a key unique. Where the key is unique a table is a partial function from keys to rows, `lookup`, and
the statements are updates of that function.
-/

set_option autoImplicit false
set_option relaxedAutoImplicit false

namespace ChatServer.Table

variable {Row Key : Type*}

/-! ### Statements -/

/-- `DELETE FROM … WHERE … RETURNING`: the rows kept and the rows deleted. -/
def deleteWhere (condition : Row → Bool) (rows : List Row) : List Row × List Row :=
  (rows.filter (fun row ↦ !condition row), rows.filter condition)

/-- `UPDATE … SET … WHERE … RETURNING`: the table after the update and the rows updated. -/
def updateWhere (condition : Row → Bool) (set : Row → Row) (rows : List Row) :
    List Row × List Row :=
  (rows.map fun row ↦ if condition row then set row else row, (rows.filter condition).map set)

/-- Some row carries this key: the conflict an `INSERT` finds on a unique index. -/
def conflict [DecidableEq Key] (key : Row → Key) (row : Row) (rows : List Row) : Bool :=
  rows.any fun other ↦ key other = key row

/-- `INSERT … ON CONFLICT (key) DO NOTHING RETURNING`. -/
def insertOrNothing [DecidableEq Key] (key : Row → Key) (row : Row) (rows : List Row) :
    List Row × List Row :=
  if conflict key row rows then (rows, []) else (rows ++ [row], [row])

/-- `INSERT … ON CONFLICT (key) DO UPDATE SET … WHERE … RETURNING`. -/
def insertOrUpdate [DecidableEq Key] (key : Row → Key) (row : Row) (condition : Row → Bool)
    (set : Row → Row) (rows : List Row) : List Row × List Row :=
  if conflict key row rows then
    updateWhere (fun other ↦ decide (key other = key row) && condition other) set rows
  else (rows ++ [row], [row])

/-- The key is a primary key: no two rows carry the same value. -/
def KeyUnique (key : Row → Key) (rows : List Row) : Prop :=
  (rows.map key).Nodup

/-! ### The rows a statement leaves -/

@[simp] theorem mem_deleteWhere {condition : Row → Bool} {rows : List Row} {row : Row} :
    row ∈ (deleteWhere condition rows).1 ↔ row ∈ rows ∧ condition row = false := by
  simp [deleteWhere]

/-- A deletion that reports no row leaves the table as it was. -/
theorem deleteWhere_of_isEmpty {condition : Row → Bool} {rows : List Row}
    (hempty : (deleteWhere condition rows).2.isEmpty) : (deleteWhere condition rows).1 = rows := by
  rw [List.isEmpty_iff, deleteWhere, List.filter_eq_nil_iff] at hempty
  rw [deleteWhere, List.filter_eq_self]
  intro row hrow
  rw [Bool.eq_false_iff.mpr (hempty row hrow), Bool.not_false]

/-- A deletion that reports a row has matched one. -/
theorem exists_of_deleteWhere {condition : Row → Bool} {rows : List Row}
    (hsome : ¬ (deleteWhere condition rows).2.isEmpty) : ∃ row ∈ rows, condition row = true := by
  rw [List.isEmpty_iff, deleteWhere, List.filter_eq_nil_iff] at hsome
  push Not at hsome
  exact hsome

theorem mem_updateWhere {condition : Row → Bool} {set : Row → Row} {rows : List Row} {row : Row} :
    row ∈ (updateWhere condition set rows).1 ↔
      (row ∈ rows ∧ condition row = false) ∨
        ∃ old ∈ rows, condition old = true ∧ set old = row := by
  simp only [updateWhere, List.mem_map]
  constructor
  · rintro ⟨old, hold, rfl⟩
    by_cases hcondition : condition old = true
    · exact Or.inr ⟨old, hold, hcondition, by simp [hcondition]⟩
    · simp only [Bool.not_eq_true] at hcondition
      exact Or.inl (by simp [hcondition, hold])
  · rintro (⟨hrow, hcondition⟩ | ⟨old, hold, hcondition, rfl⟩)
    · exact ⟨row, hrow, by simp [hcondition]⟩
    · exact ⟨old, hold, by simp [hcondition]⟩

theorem updateWhere_returning_eq_nil {condition : Row → Bool} {set : Row → Row}
    {rows : List Row} :
    (updateWhere condition set rows).2 = [] ↔ ∀ row ∈ rows, condition row = false := by
  simp [updateWhere]

/-- An update that matches no row changes nothing. -/
theorem updateWhere_of_forall {condition : Row → Bool} {set : Row → Row} {rows : List Row}
    (hnone : ∀ row ∈ rows, condition row = false) :
    updateWhere condition set rows = (rows, []) := by
  refine Prod.ext ?_ (updateWhere_returning_eq_nil.mpr hnone)
  rw [updateWhere]
  refine (List.map_congr_left fun row hrow ↦ ?_).trans (List.map_id rows)
  rw [hnone row hrow, if_neg Bool.false_ne_true, id]

section Keys

variable [DecidableEq Key] {key : Row → Key} {rows : List Row}

@[simp] theorem conflict_eq_true {row : Row} :
    conflict key row rows = true ↔ ∃ other ∈ rows, key other = key row := by
  simp [conflict]

theorem conflict_eq_false {row : Row} :
    conflict key row rows = false ↔ ∀ other ∈ rows, key other ≠ key row := by
  simp [conflict]

theorem mem_insertOrNothing {row other : Row} :
    other ∈ (insertOrNothing key row rows).1 ↔
      other ∈ rows ∨ (conflict key row rows = false ∧ other = row) := by
  cases hconflict : conflict key row rows <;> simp [insertOrNothing, hconflict]

/-- An insertion finds its key taken and changes nothing, or adds its row and reports it. -/
theorem insertOrNothing_cases (key : Row → Key) (rows : List Row) (row : Row) :
    ((∃ other ∈ rows, key other = key row) ∧ insertOrNothing key row rows = (rows, [])) ∨
      ((∀ other ∈ rows, key other ≠ key row) ∧
        insertOrNothing key row rows = (rows ++ [row], [row])) := by
  unfold insertOrNothing
  split_ifs with hconflict
  · exact Or.inl ⟨conflict_eq_true.mp hconflict, rfl⟩
  · rw [Bool.not_eq_true, conflict_eq_false] at hconflict
    exact Or.inr ⟨hconflict, rfl⟩

/-- An insertion that skips conflicts leaves the rows that were there. -/
theorem subset_insertOrNothing (row : Row) : rows ⊆ (insertOrNothing key row rows).1 :=
  fun _ hother ↦ mem_insertOrNothing.mpr (Or.inl hother)

theorem exists_key_insertOrNothing (row : Row) :
    ∃ other ∈ (insertOrNothing key row rows).1, key other = key row := by
  cases hconflict : conflict key row rows with
  | true =>
    obtain ⟨other, hother, hkey⟩ := conflict_eq_true.mp hconflict
    exact ⟨other, subset_insertOrNothing row hother, hkey⟩
  | false => exact ⟨row, mem_insertOrNothing.mpr (Or.inr ⟨hconflict, rfl⟩), rfl⟩

omit [DecidableEq Key] in
theorem KeyUnique.deleteWhere (hunique : KeyUnique key rows) (condition : Row → Bool) :
    KeyUnique key (deleteWhere condition rows).1 :=
  hunique.sublist (List.filter_sublist.map key)

omit [DecidableEq Key] in
theorem KeyUnique.updateWhere (hunique : KeyUnique key rows) (condition : Row → Bool)
    {set : Row → Row} (hset : ∀ row, key (set row) = key row) :
    KeyUnique key (updateWhere condition set rows).1 := by
  have hkeys : (Table.updateWhere condition set rows).1.map key = rows.map key := by
    simp only [Table.updateWhere, List.map_map]
    refine List.map_congr_left fun row _ ↦ ?_
    by_cases hcondition : condition row = true <;> simp [hcondition, hset]
  rw [KeyUnique, hkeys]
  exact hunique

omit [DecidableEq Key] in
theorem KeyUnique.concat (hunique : KeyUnique key rows) {row : Row}
    (hfresh : ∀ other ∈ rows, key other ≠ key row) : KeyUnique key (rows ++ [row]) := by
  rw [KeyUnique, List.map_append, List.nodup_append]
  refine ⟨hunique, by simp, ?_⟩
  intro value hvalue fresh hfreshMem
  obtain ⟨other, hother, rfl⟩ := List.mem_map.mp hvalue
  obtain rfl : fresh = key row := by simpa using hfreshMem
  exact hfresh other hother

theorem KeyUnique.insertOrNothing (hunique : KeyUnique key rows) (row : Row) :
    KeyUnique key (insertOrNothing key row rows).1 := by
  cases hconflict : conflict key row rows with
  | true => simpa [Table.insertOrNothing, hconflict] using hunique
  | false =>
    simpa [Table.insertOrNothing, hconflict] using hunique.concat (conflict_eq_false.mp hconflict)

omit [DecidableEq Key] in
/-- Two rows of a table with the same key are the same row. -/
theorem KeyUnique.eq_of_key_eq (hunique : KeyUnique key rows) {first second : Row}
    (hfirst : first ∈ rows) (hsecond : second ∈ rows) (hkey : key first = key second) :
    first = second :=
  List.inj_on_of_nodup_map hunique hfirst hsecond hkey

/-- The rows carrying the key of a row of the table are that row alone. -/
theorem KeyUnique.filter_key_eq (hunique : KeyUnique key rows) {row : Row} (hrow : row ∈ rows) :
    rows.filter (fun other ↦ decide (key other = key row)) = [row] := by
  have hnodup : rows.Nodup := List.Nodup.of_map key hunique
  have hperm : (rows.filter fun other ↦ decide (key other = key row)).Perm [row] := by
    refine (List.perm_ext_iff_of_nodup (hnodup.filter _) (List.nodup_singleton row)).mpr ?_
    intro other
    simp only [List.mem_filter, decide_eq_true_eq, List.mem_singleton]
    constructor
    · rintro ⟨hother, hkey⟩
      exact hunique.eq_of_key_eq hother hrow hkey
    · rintro rfl
      exact ⟨hrow, rfl⟩
  exact List.perm_singleton.mp hperm

end Keys

/-! ### Lookup -/

section Lookup

variable [DecidableEq Key] {key : Row → Key} {rows : List Row} {value : Key}

/-- The row that carries a value of the key. -/
def lookup (key : Row → Key) (rows : List Row) (value : Key) : Option Row :=
  rows.find? fun row ↦ key row = value

theorem mem_of_lookup {row : Row} (hlookup : lookup key rows value = some row) :
    row ∈ rows ∧ key row = value :=
  ⟨List.mem_of_find?_eq_some hlookup, by simpa using List.find?_some hlookup⟩

theorem KeyUnique.lookup_eq_some (hunique : KeyUnique key rows) {row : Row} :
    lookup key rows value = some row ↔ row ∈ rows ∧ key row = value := by
  refine ⟨mem_of_lookup, ?_⟩
  rintro ⟨hrow, rfl⟩
  obtain ⟨found, hfound⟩ : ∃ found, lookup key rows (key row) = some found := by
    rw [← Option.isSome_iff_exists, lookup, List.find?_isSome]
    exact ⟨row, hrow, decide_eq_true rfl⟩
  obtain ⟨hmem, hkey⟩ := mem_of_lookup hfound
  rw [hfound, hunique.eq_of_key_eq hmem hrow hkey]

theorem lookup_eq_none : lookup key rows value = none ↔ ∀ row ∈ rows, key row ≠ value := by
  simp [lookup]

/-- A row with a new key is found under that key, and nothing else changes. -/
theorem lookup_concat {row : Row} (hfresh : ∀ other ∈ rows, key other ≠ key row) :
    lookup key (rows ++ [row]) = Function.update (lookup key rows) (key row) (some row) := by
  funext value
  rw [lookup, List.find?_append]
  by_cases hvalue : value = key row
  · subst hvalue
    rw [Function.update_self, show rows.find? _ = none from lookup_eq_none.mpr hfresh]
    simp
  · rw [Function.update_of_ne hvalue]
    simp [lookup, Ne.symm hvalue]

/-- An update that keeps the key changes what is found. -/
theorem lookup_updateWhere {condition : Row → Bool} {set : Row → Row}
    (hset : ∀ row, key (set row) = key row) (value : Key) :
    lookup key (updateWhere condition set rows).1 value =
      (lookup key rows value).map fun row ↦ if condition row then set row else row := by
  have hkeys : ∀ row, key (if condition row then set row else row) = key row := by
    intro row
    split_ifs
    · exact hset row
    · rfl
  rw [lookup, updateWhere, List.find?_map]
  simp only [Function.comp_def, hkeys]
  rfl

/-- A deletion loses the rows that meet its condition. -/
theorem KeyUnique.lookup_deleteWhere (hunique : KeyUnique key rows) (condition : Row → Bool)
    (value : Key) :
    lookup key (Table.deleteWhere condition rows).1 value =
      (lookup key rows value).filter fun row ↦ !condition row := by
  refine Option.ext fun row ↦ ?_
  rw [(hunique.deleteWhere condition).lookup_eq_some, Option.filter_eq_some_iff,
    hunique.lookup_eq_some, mem_deleteWhere]
  simp [and_right_comm]

end Lookup

/-! ### What holds of every row -/

section Rows

variable {holds : Row → Prop} {rows : List Row}

theorem forall_deleteWhere (hrows : ∀ row ∈ rows, holds row) (condition : Row → Bool) :
    ∀ row ∈ (deleteWhere condition rows).1, holds row :=
  fun row hrow ↦ hrows row (mem_deleteWhere.mp hrow).1

theorem forall_updateWhere (hrows : ∀ row ∈ rows, holds row) (condition : Row → Bool)
    {set : Row → Row} (hset : ∀ row, holds row → holds (set row)) :
    ∀ row ∈ (updateWhere condition set rows).1, holds row := by
  intro row hrow
  rcases mem_updateWhere.mp hrow with ⟨hold, -⟩ | ⟨old, hold, -, rfl⟩
  · exact hrows row hold
  · exact hset old (hrows old hold)

theorem forall_concat (hrows : ∀ row ∈ rows, holds row) {row : Row} (hrow : holds row) :
    ∀ other ∈ rows ++ [row], holds other := by
  intro other hother
  rcases List.mem_append.mp hother with hold | hnew
  · exact hrows other hold
  · rw [List.mem_singleton.mp hnew]
    exact hrow

variable {_ : DecidableEq Key} {key : Row → Key}

theorem forall_insertOrNothing (hrows : ∀ row ∈ rows, holds row) {row : Row} (hrow : holds row) :
    ∀ other ∈ (insertOrNothing key row rows).1, holds other := by
  unfold insertOrNothing
  split_ifs
  · exact hrows
  · exact forall_concat hrows hrow

end Rows

/-! ### Joins -/

/-- A join that takes rows from some items only is the join with these items. -/
theorem flatMap_ite {Item : Type*} (condition : Item → Prop) [DecidablePred condition]
    (joined : Item → List Row) (items : List Item) :
    (items.flatMap fun item ↦ if condition item then joined item else []) =
      (items.filter fun item ↦ decide (condition item)).flatMap joined := by
  induction items with
  | nil => rfl
  | cons item rest ih =>
    rw [List.flatMap_cons, ih]
    by_cases hitem : condition item
    · rw [if_pos hitem, List.filter_cons_of_pos (by simpa using hitem), List.flatMap_cons]
    · rw [if_neg hitem, List.filter_cons_of_neg (by simpa using hitem), List.nil_append]

/-! ### `ORDER BY` -/

section Order

variable {before : Row → Row → Prop} [DecidableRel before] {rows : List Row}

theorem orderedInsert_eq_concat {row : Row} (hrows : ∀ other ∈ rows, ¬ before row other) :
    rows.orderedInsert before row = rows ++ [row] := by
  induction rows with
  | nil => rfl
  | cons first rest ih =>
    rw [List.orderedInsert_cons, if_neg (hrows first List.mem_cons_self),
      ih fun other hother ↦ hrows other (List.mem_cons_of_mem _ hother), List.cons_append]

/-- Sorting rows of which no earlier one belongs before a later one turns them around. -/
theorem insertionSort_eq_reverse
    (hrows : rows.Pairwise fun first second ↦ ¬ before first second) :
    rows.insertionSort before = rows.reverse := by
  induction rows with
  | nil => rfl
  | cons row rest ih =>
    rw [List.pairwise_cons] at hrows
    rw [List.insertionSort_cons, ih hrows.2, List.reverse_cons]
    exact orderedInsert_eq_concat fun other hother ↦ hrows.1 other (List.mem_reverse.mp hother)

end Order

end ChatServer.Table
