import Mathlib.Data.List.Forall2
import Mathlib.Data.Multiset.Bind

/-!
# Lists

What becomes of the items of a list that is changed at some positions, read item by
item, or visited in another order.
-/

namespace Foundation

universe u v w

variable {Item : Type u} {Result : Type v}

/-! ## Positions -/

theorem forall_mem_modify {Holds : Item → Prop} {change : Item → Item}
    {items : List Item} (all : ∀ item ∈ items, Holds item)
    (kept : ∀ item, Holds item → Holds (change item)) (position : ℕ) :
    ∀ item ∈ items.modify position change, Holds item := by
  intro item itemMem
  rcases List.mem_iff_getElem?.mp itemMem with ⟨index, here⟩
  rw [List.getElem?_modify, Option.map_eq_map, Option.map_eq_some_iff] at here
  rcases here with ⟨original, here, rfl⟩
  have holds := all original (List.mem_of_getElem? here)
  split
  · exact kept original holds
  · exact holds

/-- Every one of the positions is changed once. -/
theorem getElem?_foldl_modify (change : Item → Item) {positions : List ℕ}
    (distinct : positions.Nodup) (items : List Item) (position : ℕ) :
    (positions.foldl (fun items place => items.modify place change) items)[position]? =
      if position ∈ positions then items[position]?.map change else items[position]? := by
  induction positions generalizing items with
  | nil => rw [List.foldl_nil, if_neg List.not_mem_nil]
  | cons first positions inductionHypothesis =>
      rw [List.nodup_cons] at distinct
      rw [List.foldl_cons, inductionHypothesis distinct.2, List.getElem?_modify]
      by_cases same : first = position
      · subst same
        rw [if_neg distinct.1, if_pos List.mem_cons_self]
        simp
      · simp [same, Ne.symm same]

/-! ## Items that are read -/

theorem mapM_eq_some {read : Result → Option Item} {write : Item → Result}
    {items : List Item} (kept : ∀ item ∈ items, read (write item) = some item) :
    (items.map write).mapM read = some items := by
  induction items with
  | nil => rfl
  | cons item items inductionHypothesis =>
      rw [List.forall_mem_cons] at kept
      rw [List.map_cons, List.mapM_cons, kept.1, inductionHypothesis kept.2]
      rfl

theorem forall₂_of_mapM {read : Item → Option Result} {items : List Item}
    {results : List Result} (reads : items.mapM read = some results) :
    List.Forall₂ (fun item result => read item = some result) items results := by
  induction items generalizing results with
  | nil =>
      cases reads
      exact .nil
  | cons item items inductionHypothesis =>
      rw [List.mapM_cons] at reads
      rcases Option.bind_eq_some_iff.mp reads with ⟨result, isResult, reads⟩
      rcases Option.bind_eq_some_iff.mp reads with ⟨others, areOthers, isCons⟩
      cases isCons
      exact .cons isResult (inductionHypothesis areOthers)

theorem exists_of_forall₂ {pairs : Item → Result → Prop} {items : List Item}
    {results : List Result} (paired : List.Forall₂ pairs items results) {result : Result}
    (resultMem : result ∈ results) : ∃ item ∈ items, pairs item result := by
  induction paired with
  | nil => cases resultMem
  | cons isPair _ inductionHypothesis =>
      rcases List.mem_cons.mp resultMem with rfl | resultMem
      · exact ⟨_, List.mem_cons_self, isPair⟩
      · rcases inductionHypothesis resultMem with ⟨item, itemMem, isPair⟩
        exact ⟨item, List.mem_cons_of_mem _ itemMem, isPair⟩

/-! ## Rows and columns -/

theorem perm_flatMap_swap {Row : Type v} {Column : Type w} (rows : List Row)
    (columns : List Column) (visit : Row → Column → List Item) :
    (rows.flatMap fun row => columns.flatMap fun column => visit row column).Perm
      (columns.flatMap fun column => rows.flatMap fun row => visit row column) := by
  have swapped := Multiset.bind_bind (rows : Multiset Row) (columns : Multiset Column)
    (f := fun row column => (visit row column : Multiset Item))
  simpa only [Multiset.coe_bind, Multiset.coe_eq_coe] using swapped

end Foundation
