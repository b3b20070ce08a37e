import Promfetcher.Foundation.Text
import Mathlib.Data.List.GetD
import Mathlib.Data.List.Perm.Basic

/-!
# Slices on a heap of arrays

A Go slice is a view of an array on the heap: the array, a length and a
capacity. All slices here start at the first cell of their array, as slices made
by `make`, `append` and `s[:n]` do. Assigning to an element writes the shared
array; `append` writes the next cell of the shared array when the capacity
allows it and otherwise moves the elements to a new array.

`Heap.read` is the list a slice shows. The lemmas say what each operation does
to the list shown by the slice operated on and by every other slice, including
those of the same array.
-/

namespace Foundation

universe u v

/-- The panics that end a run. -/
inductive Panic where
  | indexOutOfRange
  | nilDereference
  deriving DecidableEq, Repr

/-- A slice header. -/
structure Slice where
  /-- The identity of the backing array. -/
  array : Nat
  length : Nat
  capacity : Nat
  deriving DecidableEq, Repr

/-- The arrays allocated so far; arrays are never freed and never change their size. -/
structure Heap (Cell : Type u) where
  arrays : List (List Cell)
  deriving DecidableEq

namespace Heap

variable {Cell : Type u}

/-- A heap without arrays. -/
def empty : Heap Cell :=
  ⟨[]⟩

/-- The cells of an array, none if it has not been allocated. -/
def cells (heap : Heap Cell) (array : Nat) : List Cell :=
  heap.arrays.getD array []

/-- What a slice shows. -/
def read (heap : Heap Cell) (slice : Slice) : List Cell :=
  (heap.cells slice.array).take slice.length

/-- The heap with every cell replaced by its image. -/
def map {Other : Type v} (change : Cell → Other) (heap : Heap Cell) : Heap Other :=
  ⟨heap.arrays.map (List.map change)⟩

/-- A slice that its array can back. -/
structure Backs (heap : Heap Cell) (slice : Slice) : Prop where
  allocated : slice.array < heap.arrays.length
  length_le : slice.length ≤ slice.capacity
  cells_length : (heap.cells slice.array).length = slice.capacity

/-- `slice[index]`. -/
def index (heap : Heap Cell) (slice : Slice) (position : Nat) : Except Panic Cell :=
  match (heap.read slice)[position]? with
  | some cell => .ok cell
  | none => .error .indexOutOfRange

/-- The heap with another value in one cell. -/
def write (heap : Heap Cell) (array position : Nat) (cell : Cell) : Heap Cell :=
  ⟨heap.arrays.modify array fun cells => cells.set position cell⟩

/-- `slice[index] = cell`. -/
def assign (heap : Heap Cell) (slice : Slice) (position : Nat) (cell : Cell) :
    Except Panic (Heap Cell) :=
  if position < (heap.read slice).length then .ok (heap.write slice.array position cell)
  else .error .indexOutOfRange

/-- A new array, filled with the zero value after the given cells. -/
def allocate [Inhabited Cell] (heap : Heap Cell) (cells : List Cell) (capacity : Nat) :
    Heap Cell × Slice :=
  (⟨heap.arrays ++ [cells ++ List.replicate (capacity - cells.length) default]⟩,
    { array := heap.arrays.length, length := cells.length, capacity := capacity })

/-- `make([]T, 0)`. -/
def make [Inhabited Cell] (heap : Heap Cell) : Heap Cell × Slice :=
  heap.allocate [] 0

/-- `append(slice, cell)`. -/
def append [GoRuntime] [Inhabited Cell] (heap : Heap Cell) (slice : Slice) (cell : Cell) :
    Heap Cell × Slice :=
  if slice.length < slice.capacity then
    (heap.write slice.array slice.length cell, { slice with length := slice.length + 1 })
  else
    heap.allocate (heap.read slice ++ [cell]) (GoRuntime.growth slice.length)


/-! ## Cells after a write or an allocation -/

@[simp]
theorem arrays_length_write (heap : Heap Cell) (array position : Nat) (cell : Cell) :
    (heap.write array position cell).arrays.length = heap.arrays.length := by
  simp [write]

theorem cells_write (heap : Heap Cell) (array position other : Nat) (cell : Cell) :
    (heap.write array position cell).cells other =
      if other = array then (heap.cells array).set position cell else heap.cells other := by
  simp only [cells, write, List.getD_eq_getElem?_getD, List.getElem?_modify]
  by_cases same : other = array
  · subst other
    cases heap.arrays[array]? <;> simp
  · simp [same, Ne.symm same]

@[simp]
theorem cells_length_write (heap : Heap Cell) (array position other : Nat) (cell : Cell) :
    ((heap.write array position cell).cells other).length = (heap.cells other).length := by
  rw [cells_write]
  split
  · next same => simp [same]
  · rfl

theorem read_write (heap : Heap Cell) (array position : Nat) (cell : Cell) (slice : Slice) :
    (heap.write array position cell).read slice =
      if slice.array = array then (heap.read slice).set position cell else heap.read slice := by
  simp only [read, cells_write]
  split
  · next same => rw [same, List.take_set]
  · rfl

theorem read_write_of_not_covered {heap : Heap Cell} {array position : Nat} {cell : Cell}
    {slice : Slice} (outside : ¬(slice.array = array ∧ position < slice.length)) :
    (heap.write array position cell).read slice = heap.read slice := by
  rw [read_write]
  split
  · next same =>
      apply List.set_eq_of_length_le
      have beyond : slice.length ≤ position := by
        by_contra covered
        exact outside ⟨same, by omega⟩
      exact le_trans (by simp [read]) beyond
  · rfl

theorem Backs.write {heap : Heap Cell} {slice : Slice} (backs : heap.Backs slice)
    (array position : Nat) (cell : Cell) : (heap.write array position cell).Backs slice where
  allocated := by simpa using backs.allocated
  length_le := backs.length_le
  cells_length := by simpa using backs.cells_length

theorem Backs.length_read {heap : Heap Cell} {slice : Slice} (backs : heap.Backs slice) :
    (heap.read slice).length = slice.length := by
  simp [read, backs.cells_length, backs.length_le]

theorem Backs.truncate {heap : Heap Cell} {slice : Slice} (backs : heap.Backs slice)
    {length : Nat} (shorter : length ≤ slice.length) :
    heap.Backs { slice with length := length } where
  allocated := backs.allocated
  length_le := shorter.trans backs.length_le
  cells_length := backs.cells_length

theorem read_truncate {heap : Heap Cell} {slice : Slice} {length : Nat}
    (shorter : length ≤ slice.length) :
    heap.read { slice with length := length } = (heap.read slice).take length := by
  simp [read, List.take_take, Nat.min_eq_left shorter]

theorem read_map {Other : Type v} (change : Cell → Other) (heap : Heap Cell) (slice : Slice) :
    (heap.map change).read slice = (heap.read slice).map change := by
  simp only [read, cells, map, List.getD_eq_getElem?_getD, List.getElem?_map, List.map_take]
  cases heap.arrays[slice.array]? <;> rfl

section Allocation

variable [Inhabited Cell]

theorem cells_allocate_of_lt {heap : Heap Cell} {cells : List Cell} {capacity array : Nat}
    (older : array < heap.arrays.length) :
    (heap.allocate cells capacity).1.cells array = heap.cells array := by
  simp [allocate, Heap.cells, List.getElem?_append_left older]

theorem read_allocate_of_lt {heap : Heap Cell} {cells : List Cell} {capacity : Nat}
    {slice : Slice} (older : slice.array < heap.arrays.length) :
    (heap.allocate cells capacity).1.read slice = heap.read slice := by
  simp only [read, cells_allocate_of_lt older]

@[simp]
theorem read_allocate (heap : Heap Cell) (cells : List Cell) (capacity : Nat) :
    (heap.allocate cells capacity).1.read (heap.allocate cells capacity).2 = cells := by
  simp [allocate, read, Heap.cells]

theorem Backs.allocate_of_backs {heap : Heap Cell} {slice : Slice} (backs : heap.Backs slice)
    (cells : List Cell) (capacity : Nat) : (heap.allocate cells capacity).1.Backs slice where
  allocated := by
    have := backs.allocated
    simp [allocate]
    omega
  length_le := backs.length_le
  cells_length := by rw [cells_allocate_of_lt backs.allocated, backs.cells_length]

theorem Backs.allocate {heap : Heap Cell} {cells : List Cell} {capacity : Nat}
    (fits : cells.length ≤ capacity) :
    (heap.allocate cells capacity).1.Backs (heap.allocate cells capacity).2 where
  allocated := by simp [Heap.allocate]
  length_le := fits
  cells_length := by
    simp [Heap.allocate, Heap.cells]
    omega

theorem backs_make (heap : Heap Cell) : heap.make.1.Backs heap.make.2 :=
  Backs.allocate le_rfl

theorem Backs.make_of_backs {heap : Heap Cell} {slice : Slice} (backs : heap.Backs slice) :
    heap.make.1.Backs slice :=
  backs.allocate_of_backs _ _

theorem read_make_of_backs {heap : Heap Cell} {slice : Slice} (backs : heap.Backs slice) :
    heap.make.1.read slice = heap.read slice :=
  read_allocate_of_lt backs.allocated

@[simp]
theorem read_make (heap : Heap Cell) : heap.make.1.read heap.make.2 = [] :=
  read_allocate _ _ _

@[simp]
theorem make_capacity (heap : Heap Cell) : heap.make.2.capacity = 0 :=
  rfl

end Allocation

/-! ## Element access -/

theorem index_eq_ok {heap : Heap Cell} {slice : Slice} {position : Nat} {cell : Cell} :
    heap.index slice position = .ok cell ↔ (heap.read slice)[position]? = some cell := by
  unfold index
  split
  · next found => simp [found]
  · next missing => simp [missing]

theorem assign_eq_ok {heap : Heap Cell} {slice : Slice} {position : Nat} {cell : Cell}
    (inRange : position < (heap.read slice).length) :
    heap.assign slice position cell = .ok (heap.write slice.array position cell) :=
  if_pos inRange

/-! ## Append -/

section Append

variable [GoRuntime] [Inhabited Cell]

/-- The two ways `append` goes: into the spare capacity, or into a new array. -/
theorem append_cases (heap : Heap Cell) (slice : Slice) (cell : Cell) :
    slice.length < slice.capacity ∧
        heap.append slice cell =
          (heap.write slice.array slice.length cell, { slice with length := slice.length + 1 }) ∨
      slice.capacity ≤ slice.length ∧
        heap.append slice cell =
          heap.allocate (heap.read slice ++ [cell]) (GoRuntime.growth slice.length) := by
  unfold append
  by_cases room : slice.length < slice.capacity
  · exact Or.inl ⟨room, if_pos room⟩
  · exact Or.inr ⟨by omega, if_neg room⟩

theorem read_append {heap : Heap Cell} {slice : Slice} (backs : heap.Backs slice) (cell : Cell) :
    (heap.append slice cell).1.read (heap.append slice cell).2 = heap.read slice ++ [cell] := by
  rcases append_cases heap slice cell with ⟨room, appended⟩ | ⟨_, appended⟩
  · have inArray : slice.length < (heap.cells slice.array).length := by
      rw [backs.cells_length]
      exact room
    rw [appended]
    simp only [read, cells_write, if_pos]
    rw [List.take_add_one, List.take_set_of_le (by omega)]
    simp [inArray]
  · rw [appended, read_allocate]

theorem Backs.append {heap : Heap Cell} {slice : Slice} (backs : heap.Backs slice) (cell : Cell) :
    (heap.append slice cell).1.Backs (heap.append slice cell).2 := by
  rcases append_cases heap slice cell with ⟨room, appended⟩ | ⟨_, appended⟩
  · rw [appended]
    have written := backs.write slice.array slice.length cell
    exact ⟨written.allocated, room, written.cells_length⟩
  · rw [appended]
    apply Backs.allocate
    have := GoRuntime.growth_sufficient slice.length
    simp only [List.length_append, backs.length_read, List.length_singleton]
    omega

theorem Backs.append_of_backs {heap : Heap Cell} {slice other : Slice}
    (backs : heap.Backs other) (cell : Cell) : (heap.append slice cell).1.Backs other := by
  rcases append_cases heap slice cell with ⟨_, appended⟩ | ⟨_, appended⟩
  · rw [appended]
    exact backs.write _ _ _
  · rw [appended]
    exact backs.allocate_of_backs _ _

theorem read_append_of_not_covered {heap : Heap Cell} {slice other : Slice} {cell : Cell}
    (backs : heap.Backs other)
    (outside : slice.length < slice.capacity →
      ¬(other.array = slice.array ∧ slice.length < other.length)) :
    (heap.append slice cell).1.read other = heap.read other := by
  rcases append_cases heap slice cell with ⟨room, appended⟩ | ⟨_, appended⟩
  · rw [appended]
    exact read_write_of_not_covered (outside room)
  · rw [appended]
    exact read_allocate_of_lt backs.allocated

theorem array_append (heap : Heap Cell) (slice : Slice) (cell : Cell) :
    (heap.append slice cell).2.array = slice.array ∨
      (heap.append slice cell).2.array = heap.arrays.length := by
  rcases append_cases heap slice cell with ⟨_, appended⟩ | ⟨_, appended⟩
  · exact Or.inl (by rw [appended])
  · exact Or.inr (by rw [appended]; rfl)

theorem array_append_make (heap : Heap Cell) (cell : Cell) :
    (heap.make.1.append heap.make.2 cell).2.array = heap.arrays.length + 1 := by
  rcases append_cases heap.make.1 heap.make.2 cell with ⟨room, _⟩ | ⟨_, appended⟩
  · simp at room
  · rw [appended]
    simp [allocate, make]

theorem arrays_length_le_append (heap : Heap Cell) (slice : Slice) (cell : Cell) :
    heap.arrays.length ≤ (heap.append slice cell).1.arrays.length := by
  rcases append_cases heap slice cell with ⟨_, appended⟩ | ⟨_, appended⟩
  · rw [appended, arrays_length_write]
  · rw [appended]
    simp [allocate]

end Append

end Heap

/-- Deleting an element by moving the last one over it deletes that element, up to order. -/
theorem take_set_last_perm_eraseIdx {Element : Type u} {list : List Element} {position : Nat}
    (fallback : Element) (inRange : position < list.length) :
    ((list.set position (list.getD (list.length - 1) fallback)).take (list.length - 1)).Perm
      (list.eraseIdx position) := by
  rcases List.eq_nil_or_concat list with rfl | ⟨init, last, rfl⟩
  · simp at inRange
  · simp only [List.concat_eq_append, List.length_append, List.length_singleton,
      Nat.add_sub_cancel] at inRange ⊢
    have lastElement : (init ++ [last]).getD init.length fallback = last := by simp
    rw [lastElement]
    by_cases inner : position < init.length
    · rw [List.set_append_left _ _ inner, List.eraseIdx_append_of_lt_length inner,
        List.take_left' (by simp)]
      exact (List.set_perm_cons_eraseIdx inner last).trans (List.perm_append_singleton _ _).symm
    · have atEnd : position = init.length := by omega
      subst position
      simp [List.eraseIdx_append_of_length_le]

/-! ## Overwritten lists -/

/-- What becomes of a list when one item is written over some of its elements, and appended. -/
inductive Overwritten {Element : Type u} (item : Element) (list : List Element) :
    List Element → Prop where
  | refl : Overwritten item list list
  | set {other : List Element} (earlier : Overwritten item list other) (position : Nat) :
      Overwritten item list (other.set position item)
  | append {other : List Element} (earlier : Overwritten item list other) :
      Overwritten item list (other ++ [item])

namespace Overwritten

variable {Element : Type u} {item : Element} {list middle other : List Element}

theorem trans (first : Overwritten item list middle) (second : Overwritten item middle other) :
    Overwritten item list other := by
  induction second with
  | refl => exact first
  | set _ position inductionHypothesis => exact inductionHypothesis.set position
  | append _ inductionHypothesis => exact inductionHypothesis.append

theorem mem (overwritten : Overwritten item list other) {element : Element}
    (elementMem : element ∈ other) : element = item ∨ element ∈ list := by
  induction overwritten with
  | refl => exact Or.inr elementMem
  | set _ position inductionHypothesis =>
      rcases List.mem_or_eq_of_mem_set elementMem with inOther | isItem
      · exact inductionHypothesis inOther
      · exact Or.inl isItem
  | append _ inductionHypothesis =>
      rcases List.mem_append.mp elementMem with inOther | isItem
      · exact inductionHypothesis inOther
      · exact Or.inl (List.mem_singleton.mp isItem)

/-- A test that the item passes is still passed by some element. -/
theorem any_of_any {test : Element → Bool} (passes : test item = true)
    (overwritten : Overwritten item list other) (some : list.any test = true) :
    other.any test = true := by
  induction overwritten with
  | refl => exact some
  | @set other _ position inductionHypothesis =>
      rcases List.any_eq_true.mp inductionHypothesis with ⟨element, elementMem, passed⟩
      rcases List.mem_iff_getElem.mp elementMem with ⟨idx, inRange, rfl⟩
      apply List.any_eq_true.mpr
      by_cases here : position = idx
      · exact ⟨item, List.mem_set (here ▸ inRange) item, passes⟩
      · refine ⟨other[idx], List.mem_iff_getElem.mpr ⟨idx, by simpa using inRange, ?_⟩, passed⟩
        exact List.getElem_set_of_ne here _ _
  | append _ inductionHypothesis => rw [List.any_append, inductionHypothesis, Bool.true_or]

/-- The elements that pass a test which the item fails do not become more. -/
theorem countP_le {test : Element → Bool} (fails : test item = false)
    (overwritten : Overwritten item list other) : other.countP test ≤ list.countP test := by
  induction overwritten with
  | refl => exact le_rfl
  | @set other _ position inductionHypothesis =>
      by_cases inRange : position < other.length
      · rw [List.countP_set inRange, fails]
        simp only [Bool.false_eq_true, if_false]
        omega
      · rw [List.set_eq_of_length_le (by omega)]
        exact inductionHypothesis
  | append _ inductionHypothesis => simpa [fails] using inductionHypothesis

end Overwritten

namespace Heap

variable {Cell : Type u} {heap : Heap Cell}

theorem overwritten_write (array position : Nat) (cell : Cell) (slice : Slice) :
    Overwritten cell (heap.read slice) ((heap.write array position cell).read slice) := by
  rw [read_write]
  split
  · exact .set .refl position
  · exact .refl

theorem overwritten_append [GoRuntime] [Inhabited Cell] {other : Slice}
    (backs : heap.Backs other) (slice : Slice) (cell : Cell) :
    Overwritten cell (heap.read other) ((heap.append slice cell).1.read other) := by
  rcases append_cases heap slice cell with ⟨_, appended⟩ | ⟨_, appended⟩
  · rw [appended]
    exact overwritten_write _ _ _ _
  · rw [appended, read_allocate_of_lt backs.allocated]
    exact .refl

end Heap

end Foundation
