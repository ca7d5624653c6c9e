import Mathlib.Data.List.Nodup

set_option autoImplicit false

/- Relational tables as lists of rows under a unique key: lookup by key, conditional
update with its row count, and what an update leaves in place. -/
namespace Farzin.Table

variable {Row Key : Type} [DecidableEq Key] (key : Row → Key)

def findUnique (rows : List Row) (k : Key) : Option Row :=
  rows.find? fun row => key row = k

/-- Rewrites the rows that satisfy the condition. -/
def updateWhere (condition : Row → Bool) (change : Row → Row) (rows : List Row) : List Row :=
  rows.map fun row => if condition row then change row else row

/-- Keys are unique. -/
def Unique (rows : List Row) : Prop := (rows.map key).Nodup

instance (rows : List Row) : Decidable (Unique key rows) :=
  inferInstanceAs (Decidable (rows.map key).Nodup)

variable {key}

theorem findUnique_key {rows : List Row} {k : Key} {row : Row}
    (found : findUnique key rows k = some row) : key row = k := by
  simpa using List.find?_some found

theorem findUnique_mem {rows : List Row} {k : Key} {row : Row}
    (found : findUnique key rows k = some row) : row ∈ rows :=
  List.mem_of_find?_eq_some found

theorem findUnique_eq_none {rows : List Row} {k : Key} :
    findUnique key rows k = none ↔ ∀ row ∈ rows, key row ≠ k := by
  simp [findUnique, List.find?_eq_none]

/-- Under a unique key the lookup returns any row that has the key. -/
theorem Unique.find {rows : List Row} (unique : Unique key rows) {row : Row}
    (inside : row ∈ rows) : findUnique key rows (key row) = some row := by
  cases found : findUnique key rows (key row) with
  | none => exact absurd rfl (findUnique_eq_none.mp found row inside)
  | some other =>
      rw [List.inj_on_of_nodup_map unique (findUnique_mem found) inside (findUnique_key found)]

/-- Under a unique key a lookup does not depend on the order of the rows. -/
theorem Unique.find_perm {rows other : List Row} (unique : Unique key rows)
    (same : other.Perm rows) (k : Key) : findUnique key other k = findUnique key rows k := by
  have unique' : Unique key other := (same.map key).nodup_iff.mpr unique
  cases found : findUnique key rows k with
  | none =>
      rw [findUnique_eq_none] at found ⊢
      exact fun row listed => found row (same.mem_iff.mp listed)
  | some row =>
      rw [← findUnique_key found]
      exact unique'.find (same.mem_iff.mpr (findUnique_mem found))

omit [DecidableEq Key] in
theorem rewrite_keys (condition : Row → Bool) (change : Row → Row) (rows : List Row)
    (keeps : ∀ row, condition row = true → key (change row) = key row) :
    (updateWhere condition change rows).map key = rows.map key := by
  rw [updateWhere, List.map_map]
  apply List.map_congr_left
  intro row _
  simp only [Function.comp_apply]
  split
  case isTrue holds => exact keeps row holds
  case isFalse => rfl

omit [DecidableEq Key] in
theorem Unique.rewrite {rows : List Row} (unique : Unique key rows) (condition : Row → Bool)
    (change : Row → Row) (keeps : ∀ row, condition row = true → key (change row) = key row) :
    Unique key (updateWhere condition change rows) := by
  rw [Unique, rewrite_keys condition change rows keeps]
  exact unique

omit [DecidableEq Key] in
theorem Unique.update {rows : List Row} (unique : Unique key rows) (condition : Row → Bool)
    (change : Row → Row) (keeps : ∀ row, key (change row) = key row) :
    Unique key (updateWhere condition change rows) :=
  unique.rewrite condition change fun row _ => keeps row

theorem mem_updateWhere {condition : Row → Bool} {change : Row → Row} {rows : List Row}
    {row : Row} :
    row ∈ updateWhere condition change rows ↔
      ∃ before ∈ rows, row = if condition before then change before else before := by
  rw [updateWhere, List.mem_map]
  exact exists_congr fun before => and_congr_right fun _ => eq_comm

/-- A lookup after an update is the updated lookup. -/
theorem findUnique_rewrite (condition : Row → Bool) (change : Row → Row) (rows : List Row)
    (keeps : ∀ row, condition row = true → key (change row) = key row) (k : Key) :
    findUnique key (updateWhere condition change rows) k =
      (findUnique key rows k).map fun row => if condition row then change row else row := by
  rw [findUnique, findUnique, updateWhere, List.find?_map]
  congr 2
  funext row
  simp only [Function.comp_apply]
  split
  case isTrue holds => rw [keeps row holds]
  case isFalse => rfl

theorem findUnique_updateWhere (condition : Row → Bool) (change : Row → Row) (rows : List Row)
    (keeps : ∀ row, key (change row) = key row) (k : Key) :
    findUnique key (updateWhere condition change rows) k =
      (findUnique key rows k).map fun row => if condition row then change row else row :=
  findUnique_rewrite condition change rows (fun row _ => keeps row) k

/-- An update that counts no row changes nothing. -/
theorem updateWhere_none {condition : Row → Bool} {change : Row → Row} {rows : List Row}
    (count : rows.countP condition = 0) : updateWhere condition change rows = rows := by
  rw [updateWhere]
  conv => rhs; rw [← List.map_id rows]
  apply List.map_congr_left
  intro row inside
  have off := List.countP_eq_zero.mp count row inside
  rw [if_neg off, id]

omit [DecidableEq Key] in
/-- Rewriting the one row that satisfies the condition moves a count by that row alone. -/
theorem Unique.countP_update {rows : List Row} (unique : Unique key rows) {row : Row}
    (inside : row ∈ rows) (condition : Row → Bool) (change : Row → Row) (counted : Row → Bool)
    (only : ∀ other ∈ rows, condition other = true ↔ key other = key row) :
    (updateWhere condition change rows).countP counted + (if counted row then 1 else 0) =
      rows.countP counted + (if counted (change row) then 1 else 0) := by
  induction rows with
  | nil => cases inside
  | cons first rest ih =>
      have uniqueRest : Unique key rest := (List.nodup_cons.mp unique).2
      have apart : key first ∉ rest.map key := (List.nodup_cons.mp unique).1
      have onlyRest : ∀ other ∈ rest, condition other = true ↔ key other = key row :=
        fun other member => only other (List.mem_cons_of_mem _ member)
      rw [updateWhere, List.map_cons, List.countP_cons, List.countP_cons]
      rcases List.mem_cons.mp inside with rfl | later
      · have off : rest.countP condition = 0 := by
          rw [List.countP_eq_zero]
          intro other member holds
          exact apart (List.mem_map.mpr ⟨other, member, (onlyRest other member).mp holds⟩)
        have unchanged : updateWhere condition change rest = rest := updateWhere_none off
        rw [updateWhere] at unchanged
        rw [unchanged, if_pos ((only row List.mem_cons_self).mpr rfl)]
        omega
      · have other : ¬ condition first = true := by
          intro holds
          apply apart
          rw [(only first List.mem_cons_self).mp holds]
          exact List.mem_map.mpr ⟨row, later, rfl⟩
        have tail := ih uniqueRest later onlyRest
        rw [updateWhere] at tail
        rw [if_neg other]
        omega

omit [DecidableEq Key] in
/-- A rewrite that keeps what is counted keeps the count. -/
theorem countP_update_same (condition : Row → Bool) (change : Row → Row) (counted : Row → Bool)
    (rows : List Row) (keeps : ∀ row, counted (change row) = counted row) :
    (updateWhere condition change rows).countP counted = rows.countP counted := by
  rw [updateWhere, List.countP_map]
  apply List.countP_congr
  intro row _
  simp only [Function.comp_apply]
  split
  · rw [keeps row]
  · rfl

/-- A rewrite that counts no row anew does not raise the count. -/
theorem countP_update_le (condition : Row → Bool) (change : Row → Row) (counted : Row → Bool)
    (rows : List Row) (keeps : ∀ row, counted (change row) = true → counted row = true) :
    (updateWhere condition change rows).countP counted ≤ rows.countP counted := by
  rw [updateWhere, List.countP_map]
  apply List.countP_mono_left
  intro row _ counts
  simp only [Function.comp_apply] at counts
  split at counts
  · exact keeps row counts
  · exact counts

omit [DecidableEq Key] in
/-- At most one row is counted when any two counted rows have the same key. -/
theorem Unique.countP_le_one {rows : List Row} (unique : Unique key rows) (counted : Row → Bool)
    (same : ∀ a ∈ rows, ∀ b ∈ rows, counted a = true → counted b = true → key a = key b) :
    rows.countP counted ≤ 1 := by
  have distinct : (rows.filter counted).Nodup := (List.Nodup.of_map key unique).filter counted
  rw [List.countP_eq_length_filter]
  by_contra many
  have first : 0 < (rows.filter counted).length := by omega
  have second : 1 < (rows.filter counted).length := by omega
  have a := List.mem_filter.mp (List.getElem_mem first)
  have b := List.mem_filter.mp (List.getElem_mem second)
  have equal := List.inj_on_of_nodup_map unique a.1 b.1 (same _ a.1 _ b.1 a.2 b.2)
  have index := (List.Nodup.getElem_inj_iff distinct).mp equal
  omega

theorem Unique.insert {rows : List Row} (unique : Unique key rows) (row : Row)
    (fresh : findUnique key rows (key row) = none) : Unique key (rows ++ [row]) := by
  rw [Unique, List.map_append, List.map_singleton]
  apply List.nodup_append.mpr
  refine ⟨unique, List.nodup_singleton _, ?_⟩
  intro k old k' new same
  rw [List.mem_singleton] at new
  obtain ⟨other, inside, rfl⟩ := List.mem_map.mp old
  exact findUnique_eq_none.mp fresh other inside (same.trans new)

/-- A lookup after an insertion finds the new row only under its own key. -/
theorem findUnique_insert (rows : List Row) (row : Row) (k : Key)
    (fresh : findUnique key rows (key row) = none) :
    findUnique key (rows ++ [row]) k = if key row = k then some row else findUnique key rows k := by
  by_cases same : key row = k
  · subst same
    rw [if_pos rfl, findUnique, List.find?_append]
    rw [findUnique] at fresh
    rw [fresh]
    simp
  · rw [if_neg same, findUnique, List.find?_append, findUnique]
    simp [same]

/-- The rows with the key of a new row give way to it. -/
def replace (key : Row → Key) (row : Row) (rows : List Row) : List Row :=
  (rows.filter fun other => key other ≠ key row) ++ [row]

theorem findUnique_filter_ne (rows : List Row) (gone k : Key) (apart : gone ≠ k) :
    findUnique key (rows.filter fun other => key other ≠ gone) k = findUnique key rows k := by
  rw [findUnique, findUnique, List.find?_filter]
  congr 1
  funext other
  by_cases same : key other = k
  · simp [same, Ne.symm apart]
  · simp [same]

theorem findUnique_filter_same (rows : List Row) (gone : Key) :
    findUnique key (rows.filter fun other => key other ≠ gone) gone = none := by
  rw [findUnique_eq_none]
  intro other inside
  simpa using (List.mem_filter.mp inside).2

theorem findUnique_replace (rows : List Row) (row : Row) (k : Key) :
    findUnique key (replace key row rows) k =
      if key row = k then some row else findUnique key rows k := by
  rw [replace, findUnique_insert _ row k (findUnique_filter_same rows (key row))]
  split
  · rfl
  case isFalse apart => exact findUnique_filter_ne rows (key row) k apart

theorem Unique.replace {rows : List Row} (unique : Unique key rows) (row : Row) :
    Unique key (Table.replace key row rows) := by
  apply Unique.insert
  · exact (List.filter_sublist.map key).nodup unique
  · exact findUnique_filter_same rows (key row)

/-- A set that is kept as a list takes an element in once. -/
theorem mem_addOnce {α : Type} (set : List α) (a b : α) [Decidable (a ∈ set)] :
    b ∈ (if a ∈ set then set else set ++ [a]) ↔ b ∈ set ∨ b = a := by
  split
  · rename_i known
    constructor
    · exact .inl
    · intro here
      rcases here with old | same
      · exact old
      · rw [same]
        exact known
  · rw [List.mem_append, List.mem_singleton]

section Serial

variable {serial : Row → Nat} {rows : List Row} {row : Row} {next k : Nat}

/-- The next number is not taken. -/
theorem findUnique_next (below : ∀ row ∈ rows, serial row < next) :
    findUnique serial rows next = none :=
  findUnique_eq_none.mpr fun row inside => Nat.ne_of_lt (below row inside)

/-- What is found stays when a row is added under the next number. -/
theorem findUnique_added (below : ∀ row ∈ rows, serial row < next) (new : serial row = next)
    {found : Row} (here : findUnique serial rows k = some found) :
    findUnique serial (rows ++ [row]) k = some found := by
  have fresh : findUnique serial rows (serial row) = none := by
    rw [new]
    exact findUnique_next below
  rw [findUnique_insert rows row k fresh, if_neg, here]
  intro same
  rw [← same, fresh] at here
  cases here

theorem below_added (below : ∀ row ∈ rows, serial row < next) (new : serial row = next) :
    ∀ other ∈ rows ++ [row], serial other < next + 1 := by
  intro other inside
  rcases List.mem_append.mp inside with old | added
  · exact Nat.lt_succ_of_lt (below other old)
  · rw [List.mem_singleton.mp added, new]
    exact Nat.lt_succ_self next

theorem Unique.added (unique : Unique serial rows) (below : ∀ row ∈ rows, serial row < next)
    (new : serial row = next) : Unique serial (rows ++ [row]) := by
  apply unique.insert
  rw [new]
  exact findUnique_next below

end Serial

end Farzin.Table
