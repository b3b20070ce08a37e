import Mathlib.Data.List.Basic

/-!
# Cuts at a separator

`strings.Cut`, and the cut at the last separator that a parser makes with
`strings.LastIndex`. Both are characterised by the two parts they return: which of
them the separator does not occur in.
-/

namespace Foundation

universe u

variable {Symbol : Type u} [DecidableEq Symbol]

/-- `strings.Cut`, at the first separator. -/
def cut (separator : Symbol) : List Symbol → Option (List Symbol × List Symbol)
  | [] => none
  | symbol :: rest =>
      if symbol = separator then some ([], rest)
      else (cut separator rest).map fun parts => (symbol :: parts.1, parts.2)

/-- The cut at the last separator. -/
def cutLast (separator : Symbol) (list : List Symbol) : Option (List Symbol × List Symbol) :=
  (cut separator list.reverse).map fun parts => (parts.2.reverse, parts.1.reverse)

variable {separator : Symbol} {list before after : List Symbol}

theorem cut_append (absent : separator ∉ before) (after : List Symbol) :
    cut separator (before ++ separator :: after) = some (before, after) := by
  induction before with
  | nil => exact if_pos rfl
  | cons symbol before inductionHypothesis =>
      rw [List.mem_cons, not_or] at absent
      rw [List.cons_append, cut, if_neg (Ne.symm absent.1), inductionHypothesis absent.2]
      rfl

theorem cut_eq_none_iff : cut separator list = none ↔ separator ∉ list := by
  induction list with
  | nil => simp [cut]
  | cons symbol list inductionHypothesis =>
      by_cases here : symbol = separator
      · simp [cut, here]
      · simp [cut, here, inductionHypothesis, Ne.symm here]

theorem cut_eq_some_iff :
    cut separator list = some (before, after) ↔
      list = before ++ separator :: after ∧ separator ∉ before := by
  constructor
  · intro isCut
    induction list generalizing before with
    | nil => cases isCut
    | cons symbol list inductionHypothesis =>
        rw [cut] at isCut
        split at isCut
        · next here =>
            cases isCut
            exact ⟨by rw [here]; rfl, List.not_mem_nil⟩
        · next other =>
            rcases Option.map_eq_some_iff.mp isCut with ⟨⟨rest, _⟩, restCut, parts⟩
            cases parts
            rcases inductionHypothesis restCut with ⟨rfl, absent⟩
            refine ⟨rfl, ?_⟩
            rw [List.mem_cons, not_or]
            exact ⟨Ne.symm other, absent⟩
  · rintro ⟨rfl, absent⟩
    exact cut_append absent after

/-- A separator that is not in the second part is in the first one. -/
theorem exists_of_append_eq {Item : Type u} {separator : Item} {before after left rest : List Item}
    (absent : separator ∉ after) (same : before ++ after = left ++ separator :: rest) :
    ∃ middle, before = left ++ separator :: middle := by
  rcases List.append_eq_append_iff.mp same with ⟨between, _, within⟩ | ⟨between, within, behind⟩
  · rw [within] at absent
    simp at absent
  · rcases between with _ | ⟨first, middle⟩
    · rw [List.nil_append] at behind
      rw [← behind] at absent
      simp at absent
    · cases behind
      exact ⟨middle, within⟩

theorem cutLast_eq_none_iff : cutLast separator list = none ↔ separator ∉ list := by
  rw [cutLast, Option.map_eq_none_iff, cut_eq_none_iff, List.mem_reverse]

theorem cutLast_append (before : List Symbol) (absent : separator ∉ after) :
    cutLast separator (before ++ separator :: after) = some (before, after) := by
  have reversed : (before ++ separator :: after).reverse =
      after.reverse ++ separator :: before.reverse := by simp
  rw [cutLast, reversed, cut_append (by simpa using absent)]
  simp

theorem cutLast_eq_some_iff :
    cutLast separator list = some (before, after) ↔
      list = before ++ separator :: after ∧ separator ∉ after := by
  constructor
  · intro isCut
    rcases Option.map_eq_some_iff.mp isCut with ⟨⟨last, first⟩, reversedCut, parts⟩
    cases parts
    rcases cut_eq_some_iff.mp reversedCut with ⟨reversed, absent⟩
    refine ⟨?_, by simpa using absent⟩
    rw [← List.reverse_reverse list, reversed]
    simp
  · rintro ⟨rfl, absent⟩
    exact cutLast_append before absent

end Foundation
