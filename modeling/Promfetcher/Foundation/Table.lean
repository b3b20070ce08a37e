import Mathlib.Data.List.Nodup

/-!
# Tables with a primary key

A table is a list of rows with pairwise different keys. Deleting takes a
condition; inserting a row whose key is present is refused; selecting the first
row takes a condition and an order of the keys.
-/

namespace Foundation

universe u v

/-- Rows with distinct keys. -/
structure Table {Row : Type u} {Key : Type v} (key : Row → Key) where
  rows : List Row
  nodup : (rows.map key).Nodup

namespace Table

variable {Row : Type u} {Key : Type v} {key : Row → Key}

theorem ext {table other : Table key} (rows : table.rows = other.rows) : table = other := by
  cases table
  cases other
  cases rows
  rfl

/-- The table without rows. -/
def empty : Table key where
  rows := []
  nodup := List.nodup_nil

instance : Membership Row (Table key) where
  mem table row := row ∈ table.rows

theorem mem_def {row : Row} {table : Table key} : row ∈ table ↔ row ∈ table.rows :=
  Iff.rfl

@[simp]
theorem not_mem_empty (row : Row) : row ∉ (empty : Table key) :=
  List.not_mem_nil

/-- `DELETE`. -/
def delete (condition : Row → Bool) (table : Table key) : Table key where
  rows := table.rows.filter fun row => !condition row
  nodup := table.nodup.sublist (List.filter_sublist.map key)

/-- `INSERT`, which a row with the same key refuses. -/
def insert [DecidableEq Key] (row : Row) (table : Table key) : Option (Table key) :=
  if fresh : key row ∈ table.rows.map key then none
  else some ⟨row :: table.rows, List.nodup_cons.mpr ⟨fresh, table.nodup⟩⟩

/-- The first row with the least key. -/
def least (key : Row → Key) (before : Key → Key → Bool) : List Row → Option Row
  | [] => none
  | row :: rows =>
      match least key before rows with
      | none => some row
      | some best => if before (key best) (key row) then some best else some row

/-- `SELECT`, of the first row in the order of the keys. -/
def first (before : Key → Key → Bool) (condition : Row → Bool) (table : Table key) : Option Row :=
  least key before (table.rows.filter condition)

@[simp]
theorem mem_delete {condition : Row → Bool} {table : Table key} {row : Row} :
    row ∈ table.delete condition ↔ row ∈ table ∧ condition row = false := by
  simp [mem_def, delete]

theorem delete_eq_self_iff {condition : Row → Bool} {table : Table key} :
    table.delete condition = table ↔ ∀ row ∈ table, condition row = false := by
  constructor
  · intro same row rowMem
    rw [← same] at rowMem
    exact (mem_delete.mp rowMem).2
  · intro none
    apply ext
    apply List.filter_eq_self.mpr
    intro row rowMem
    simp [none row rowMem]

theorem insert_eq_none_iff [DecidableEq Key] {row : Row} {table : Table key} :
    table.insert row = none ↔ ∃ held ∈ table, key held = key row := by
  simp [insert, mem_def]

theorem mem_insert [DecidableEq Key] {row : Row} {table after : Table key}
    (inserted : table.insert row = some after) {other : Row} :
    other ∈ after ↔ other = row ∨ other ∈ table := by
  unfold insert at inserted
  split at inserted
  · cases inserted
  · cases inserted
    exact List.mem_cons

theorem least_mem {before : Key → Key → Bool} {rows : List Row} {row : Row}
    (found : least key before rows = some row) : row ∈ rows := by
  induction rows with
  | nil => cases found
  | cons next rows inductionHypothesis =>
      rw [least] at found
      cases later : least key before rows with
      | none =>
          rw [later] at found
          cases found
          exact List.mem_cons_self
      | some best =>
          rw [later] at found
          simp only at found
          split at found
          · cases found
            exact List.mem_cons_of_mem _ (inductionHypothesis later)
          · cases found
            exact List.mem_cons_self

theorem least_eq_none_iff {before : Key → Key → Bool} {rows : List Row} :
    least key before rows = none ↔ rows = [] := by
  cases rows with
  | nil => simp [least]
  | cons row rows =>
      rw [least]
      split
      · simp
      · split <;> simp

theorem first_mem {before : Key → Key → Bool} {condition : Row → Bool} {table : Table key}
    {row : Row} (found : table.first before condition = some row) :
    row ∈ table ∧ condition row = true :=
  List.mem_filter.mp (least_mem found)

theorem first_eq_none_iff {before : Key → Key → Bool} {condition : Row → Bool}
    {table : Table key} :
    table.first before condition = none ↔ ∀ row ∈ table, condition row = false := by
  rw [first, least_eq_none_iff, List.filter_eq_nil_iff]
  simp [mem_def]

theorem eq_of_key_eq {table : Table key} {row other : Row} (rowMem : row ∈ table)
    (otherMem : other ∈ table) (same : key row = key other) : row = other :=
  List.inj_on_of_nodup_map table.nodup rowMem otherMem same

/-- Selecting by the key finds the row with this key, whatever the order is. -/
theorem first_key_eq_some_iff [BEq Key] [LawfulBEq Key] {before : Key → Key → Bool} {wanted : Key}
    {table : Table key} {row : Row} :
    table.first before (fun row => key row == wanted) = some row ↔
      row ∈ table ∧ key row = wanted := by
  constructor
  · intro found
    simpa using first_mem found
  · rintro ⟨rowMem, rfl⟩
    cases found : table.first before fun other => key other == key row with
    | none => simpa using first_eq_none_iff.mp found row rowMem
    | some other =>
        rcases first_mem found with ⟨otherMem, same⟩
        rw [eq_of_key_eq otherMem rowMem (by simpa using same)]

end Table

end Foundation
