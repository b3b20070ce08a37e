import Promfetcher.Foundation.JsonGrammar

/-!
# Rendered JSON documents

Texts that are read as a document in front of any text, and how they are put
together: the elements of an array and the members of an object with commas
between them.
-/

namespace Foundation

namespace Json

/-- A text that does not start with a space. -/
def Visible (rendered : GoString) : Prop :=
  ∃ byte tail, rendered = byte :: tail ∧ isSpace byte = false

/-- A text that is read as a value in front of any text. -/
structure Renders (depth : Nat) (rendered : GoString) (value : Json) : Prop where
  parsed : ∀ rest, Parsed depth (rendered ++ rest) (.value value) rest
  visible : Visible rendered

theorem skipSpace_cons {byte : UInt8} (visible : isSpace byte = false) (rest : GoString) :
    skipSpace (byte :: rest) = byte :: rest := by
  rw [skipSpace, List.dropWhile_cons_of_neg (by simp [visible])]

theorem Visible.skipSpace {rendered : GoString} (visible : Visible rendered) (rest : GoString) :
    Json.skipSpace (rendered ++ rest) = rendered ++ rest := by
  rcases visible with ⟨byte, tail, rfl, visible⟩
  exact skipSpace_cons visible _

/-- Texts with a comma between them. -/
def joinCommas : List GoString → GoString
  | [] => []
  | [only] => only
  | first :: second :: others => first ++ 0x2C :: joinCommas (second :: others)

theorem Visible.joinCommas {first : GoString} (visible : Visible first) (others : List GoString) :
    Visible (joinCommas (first :: others)) := by
  cases others with
  | nil => exact visible
  | cons second others =>
      rcases visible with ⟨byte, tail, rfl, visible⟩
      exact ⟨byte, _, rfl, visible⟩

/-- The elements of an array up to its closing bracket. -/
theorem parsed_elements {depth : Nat} {texts : List GoString} {values : List Json}
    (renders : List.Forall₂ (Renders depth) texts values) (some : texts ≠ []) (rest : GoString) :
    Parsed depth (joinCommas texts ++ 0x5D :: rest) (.elements values) rest := by
  induction renders with
  | nil => exact absurd rfl some
  | @cons first value others values firstRenders othersRender inductionHypothesis =>
      cases othersRender with
      | nil => exact .lastElement (firstRenders.parsed _) (skipSpace_cons (by decide) _)
      | @cons second _ others _ secondRenders _ =>
          have read := inductionHypothesis (List.cons_ne_nil _ _)
          rw [← (secondRenders.visible.joinCommas others).skipSpace] at read
          rw [joinCommas, List.append_assoc, List.cons_append]
          exact .moreElements (firstRenders.parsed _) (skipSpace_cons (by decide) _) read

theorem renders_array {depth : Nat} {texts : List GoString} {values : List Json}
    (renders : List.Forall₂ (Renders depth) texts values) :
    Renders (depth + 1) (0x5B :: (joinCommas texts ++ [0x5D])) (.array values) where
  parsed := by
    intro rest
    cases renders with
    | nil => exact .emptyArray (skipSpace_cons (by decide) _)
    | @cons first value others values firstRenders othersRender =>
        have read := parsed_elements (.cons firstRenders othersRender) (List.cons_ne_nil _ _) rest
        rw [← (firstRenders.visible.joinCommas others).skipSpace] at read
        rw [List.cons_append, List.append_assoc]
        exact .array read
  visible := ⟨_, _, rfl, by decide⟩

/-- A member whose name needs no escape, with one space behind the colon. -/
structure RendersMember (depth : Nat) (rendered : GoString) (member : GoString × Json) :
    Prop where
  nameValid : validString member.1 = true
  namePlain : ∀ byte ∈ member.1, IsPlain byte
  value : ∃ valueText, rendered = 0x22 :: (member.1 ++ 0x22 :: 0x3A :: 0x20 :: valueText) ∧
    Renders depth valueText member.2

theorem RendersMember.visible {depth : Nat} {rendered : GoString} {member : GoString × Json}
    (renders : RendersMember depth rendered member) : Visible rendered := by
  rcases renders.value with ⟨_, rfl, _⟩
  exact ⟨_, _, rfl, by decide⟩

/-- The members of an object up to its closing brace. -/
theorem parsed_members {depth : Nat} {texts : List GoString} {members : List (GoString × Json)}
    (renders : List.Forall₂ (RendersMember depth) texts members) (some : texts ≠ [])
    (rest : GoString) :
    Parsed depth (joinCommas texts ++ 0x7D :: rest) (.members members) rest := by
  have colon : ∀ behind, skipSpace (0x3A :: behind) = 0x3A :: behind :=
    skipSpace_cons (by decide)
  have oneSpace : ∀ behind, skipSpace (0x20 :: behind) = skipSpace behind := by
    intro behind
    rw [skipSpace, List.dropWhile_cons_of_pos (by decide)]
    rfl
  induction renders with
  | nil => exact absurd rfl some
  | @cons first member others members firstRenders othersRender inductionHypothesis =>
      rcases firstRenders.value with ⟨valueText, rfl, valueRenders⟩
      have literal := parsedString_of_plain firstRenders.nameValid firstRenders.namePlain
      cases othersRender with
      | nil =>
          have read := valueRenders.parsed (0x7D :: rest)
          rw [← valueRenders.visible.skipSpace, ← oneSpace] at read
          have parsed := Parsed.lastMember (literal _) (colon _) read (skipSpace_cons (by decide) _)
          simpa [joinCommas] using parsed
      | @cons second _ others _ secondRenders _ =>
          have read := inductionHypothesis (List.cons_ne_nil _ _)
          rw [← (secondRenders.visible.joinCommas others).skipSpace] at read
          have readFirst :=
            valueRenders.parsed (0x2C :: (joinCommas (second :: others) ++ 0x7D :: rest))
          rw [← valueRenders.visible.skipSpace, ← oneSpace] at readFirst
          have parsed := Parsed.moreMembers (literal _) (colon _) readFirst
            (skipSpace_cons (by decide) _) read
          simpa [joinCommas] using parsed

theorem renders_object {depth : Nat} {texts : List GoString} {members : List (GoString × Json)}
    (renders : List.Forall₂ (RendersMember depth) texts members) :
    Renders (depth + 1) (0x7B :: (joinCommas texts ++ [0x7D])) (.object members) where
  parsed := by
    intro rest
    cases renders with
    | nil => exact .emptyObject (skipSpace_cons (by decide) _)
    | @cons first member others members firstRenders othersRender =>
        have read := parsed_members (.cons firstRenders othersRender) (List.cons_ne_nil _ _) rest
        rw [← (firstRenders.visible.joinCommas others).skipSpace] at read
        rw [List.cons_append, List.append_assoc]
        exact .object read
  visible := ⟨_, _, rfl, by decide⟩

theorem renders_null (depth : Nat) : Renders depth (text "null") .null where
  parsed _ := .name (by simp [names])
  visible := ⟨0x6E, [0x75, 0x6C, 0x6C], by decide, by decide⟩

/-- The text of an object renders it, since the closing brace ends it. -/
theorem renders_of_parsed {depth : Nat} {rendered : GoString} {members : List (GoString × Json)}
    (parsed : Parsed depth rendered (.value (.object members)) []) :
    Renders depth rendered (.object members) where
  parsed := parsed.append (by simp)
  visible := by
    rcases parsed.object_braces with ⟨_, rfl⟩
    exact ⟨_, _, rfl, by decide⟩

theorem Renders.parse {depth : Nat} {rendered : GoString} {value : Json}
    (renders : Renders depth rendered value) (nested : depth ≤ maxNestingDepth) :
    parse rendered = some value := by
  have read := (renders.parsed []).deeper (maxNestingDepth - depth)
  rw [← renders.visible.skipSpace, List.append_nil, Nat.add_sub_of_le nested] at read
  exact parse_iff.mpr ⟨[], read, rfl⟩

end Json

end Foundation
