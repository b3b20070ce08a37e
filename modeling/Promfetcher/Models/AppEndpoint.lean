import Promfetcher.Foundation.Text
import Promfetcher.Foundation.Table

/-!
# The endpoints of apps

The table of `models/appendpoint.go`, and the statements that are issued on it. A
statement that the database refuses changes nothing.
-/

namespace Promfetcher

open Foundation

/-- A row of the table. `guid` is the primary key. -/
structure AppEndpoint where
  guid : GoString
  appGUID : GoString
  endpoint : GoString
  deriving DecidableEq, Repr

/-- The table of endpoints. -/
abbrev Store := Table AppEndpoint.guid

/-- Which statements of a request the database refuses. -/
structure Faults where
  delete : Bool := false
  create : Bool := false
  first : Bool := false

namespace Store

/-- `db.Delete`. -/
def delete (faults : Faults) (condition : AppEndpoint → Bool) (store : Store) : Store :=
  if faults.delete then store else Table.delete condition store

/-- `db.Create`. A row whose primary key is taken is refused. -/
def create (faults : Faults) (row : AppEndpoint) (store : Store) : Option Store :=
  if faults.create then none else Table.insert row store

/-- `db.First`, which orders by the primary key. -/
def first (faults : Faults) (condition : AppEndpoint → Bool) (store : Store) :
    Option AppEndpoint :=
  if faults.first then none
  else Table.first (fun guid other => decide (guid < other)) condition store

theorem mem_delete {faults : Faults} {condition : AppEndpoint → Bool} {store : Store}
    {row : AppEndpoint} :
    row ∈ Store.delete faults condition store ↔
      row ∈ store ∧ (faults.delete = true ∨ condition row = false) := by
  unfold delete
  cases faults.delete <;> simp

theorem delete_eq_self_iff {faults : Faults} {condition : AppEndpoint → Bool} {store : Store} :
    Store.delete faults condition store = store ↔
      faults.delete = true ∨ ∀ row ∈ store, condition row = false := by
  unfold delete
  cases faults.delete <;> simp [Table.delete_eq_self_iff]

theorem create_eq_none_iff {faults : Faults} {row : AppEndpoint} {store : Store} :
    Store.create faults row store = none ↔
      faults.create = true ∨ ∃ held ∈ store, held.guid = row.guid := by
  unfold create
  cases faults.create <;> simp [Table.insert_eq_none_iff]

theorem mem_create {faults : Faults} {row : AppEndpoint} {store after : Store}
    (created : Store.create faults row store = some after) {other : AppEndpoint} :
    other ∈ after ↔ other = row ∨ other ∈ store := by
  unfold create at created
  split at created
  · cases created
  · exact Table.mem_insert created

end Store

end Promfetcher
