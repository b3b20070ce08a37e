import Mathlib.Data.List.Induction

/-!
# Items that operations make and end

An item is live after a history of operations if some operation made it and no
later one ended it. A store that makes and ends the same items with every single
operation holds exactly the live ones after any history.
-/

namespace Foundation

universe u v w

variable {Operation : Type u} {Item : Type v} {State : Type w}

/-- Two places in one history are the same, or one of the operations comes after the other. -/
theorem eq_or_mem_of_splits {before otherBefore after otherAfter : List Operation}
    {operation other : Operation}
    (splits : before ++ operation :: after = otherBefore ++ other :: otherAfter) :
    operation = other ∧ after = otherAfter ∨ other ∈ after ∨ operation ∈ otherAfter := by
  rcases List.append_eq_append_iff.mp splits with ⟨middle, _, tail⟩ | ⟨middle, _, tail⟩
  · cases middle with
    | nil => exact Or.inl (List.cons.inj tail)
    | cons head middle =>
        rw [(List.cons.inj tail).2]
        exact Or.inr (Or.inl (List.mem_append_right _ List.mem_cons_self))
  · cases middle with
    | nil => exact Or.inl ((List.cons.inj tail).imp Eq.symm Eq.symm)
    | cons head middle =>
        rw [(List.cons.inj tail).2]
        exact Or.inr (Or.inr (List.mem_append_right _ List.mem_cons_self))

/-- Some operation made the item, and no later one ended it. -/
def Live (makes ends : Operation → Item → Prop) (history : List Operation) (item : Item) : Prop :=
  ∃ before operation after, history = before ++ operation :: after ∧ makes operation item ∧
    ∀ later ∈ after, ¬ends later item

variable {makes ends : Operation → Item → Prop}

@[simp]
theorem not_live_nil (item : Item) : ¬Live makes ends [] item := by
  rintro ⟨before, operation, after, split, _⟩
  simp at split

theorem live_append_singleton {history : List Operation} {operation : Operation} {item : Item} :
    Live makes ends (history ++ [operation]) item ↔
      makes operation item ∨ Live makes ends history item ∧ ¬ends operation item := by
  constructor
  · rintro ⟨before, made, after, split, makesIt, kept⟩
    induction after using List.reverseRecOn with
    | nil =>
        rcases List.append_inj' split rfl with ⟨_, last⟩
        cases last
        exact Or.inl makesIt
    | append_singleton after last _ =>
        rw [← List.cons_append, ← List.append_assoc] at split
        rcases List.append_inj' split rfl with ⟨rfl, same⟩
        cases same
        refine Or.inr ⟨⟨before, made, after, rfl, makesIt, ?_⟩, ?_⟩
        · exact fun later laterMem => kept later (List.mem_append_left _ laterMem)
        · exact kept operation (List.mem_append_right _ List.mem_cons_self)
  · rintro (makesIt | ⟨⟨before, made, after, rfl, makesIt, kept⟩, keeps⟩)
    · exact ⟨history, operation, [], rfl, makesIt, by simp⟩
    · refine ⟨before, made, after ++ [operation], by simp, makesIt, ?_⟩
      intro later laterMem
      rcases List.mem_append.mp laterMem with inAfter | isLast
      · exact kept later inAfter
      · rw [List.mem_singleton.mp isLast]
        exact keeps

/-- A store whose steps make and end items holds the live items after a run. -/
theorem mem_foldl_iff_live {mem : State → Item → Prop} {step : State → Operation → State}
    {start : State} {history : List Operation} (initially : ∀ item, ¬mem start item)
    (stepped : ∀ before operation, before ++ [operation] <+: history →
      (∀ item, mem (before.foldl step start) item ↔ Live makes ends before item) →
      ∀ item, mem (step (before.foldl step start) operation) item ↔
        makes operation item ∨ mem (before.foldl step start) item ∧ ¬ends operation item)
    (item : Item) : mem (history.foldl step start) item ↔ Live makes ends history item := by
  induction history using List.reverseRecOn generalizing item with
  | nil => simp [initially]
  | append_singleton history operation inductionHypothesis =>
      have earlier : ∀ item, mem (history.foldl step start) item ↔ Live makes ends history item :=
        inductionHypothesis fun before other isPrefix =>
          stepped before other (isPrefix.trans (List.prefix_append _ _))
      rw [List.foldl_append, List.foldl_cons, List.foldl_nil,
        stepped history operation List.prefix_rfl earlier, live_append_singleton, earlier]

end Foundation
