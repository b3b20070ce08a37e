import Promfetcher.Foundation.Text

/-!
# Strings of whole runes

`utf8.ValidString` reads a string rune by rune. A rune is read the same way
whatever follows it, so that validity is decided part by part along a
concatenation of whole runes.
-/

namespace Foundation

/-- The encoding of one rune. -/
def IsRune (rune : GoString) : Prop :=
  rune ≠ [] ∧ runeWidth rune = rune.length

instance (rune : GoString) : Decidable (IsRune rune) :=
  inferInstanceAs (Decidable (_ ∧ _))

theorem isRune_singleton {byte : UInt8} (ascii : byte < 0x80) : IsRune [byte] := by
  refine ⟨List.cons_ne_nil _ _, ?_⟩
  rw [runeWidth, if_pos ascii]
  rfl

/-- What makes a sequence of more than one byte. -/
theorem runeWidth_cons {first : UInt8} (high : ¬first < 0x80) (rest : GoString) :
    runeWidth (first :: rest) ≠ 0 ↔ ∃ owed lowest highest, ∃ second others,
      sequenceTail first = some (owed, lowest, highest) ∧ rest.take owed = second :: others ∧
        (lowest ≤ second ∧ second ≤ highest) ∧ others.length + 1 = owed ∧
          others.all (fun byte => 0x80 ≤ byte ∧ byte ≤ 0xBF) ∧
            runeWidth (first :: rest) = owed + 1 := by
  rw [runeWidth, if_neg high]
  constructor
  · intro nonzero
    split at nonzero
    · exact absurd rfl nonzero
    · rename_i owed lowest highest expected
      split at nonzero
      · exact absurd rfl nonzero
      · rename_i second others taken
        split at nonzero
        · rename_i wellFormed
          refine ⟨owed, lowest, highest, second, others, expected, taken,
            ⟨wellFormed.1, wellFormed.2.1⟩, wellFormed.2.2.1, wellFormed.2.2.2, ?_⟩
          rw [if_pos wellFormed]
        · exact absurd rfl nonzero
  · rintro ⟨owed, lowest, highest, second, others, _, _, _, _, _, width⟩
    rw [width]
    exact Nat.succ_ne_zero owed

theorem length_take_of_eq {rest others : GoString} {owed : Nat} {second : UInt8}
    (taken : rest.take owed = second :: others) (complete : others.length + 1 = owed) :
    owed ≤ rest.length := by
  have lengths := congrArg List.length taken
  rw [List.length_take, List.length_cons] at lengths
  omega

theorem runeWidth_le_length (string : GoString) : runeWidth string ≤ string.length := by
  by_cases zero : runeWidth string = 0
  · omega
  · cases string with
    | nil => rfl
    | cons first rest =>
        by_cases ascii : first < 0x80
        · rw [runeWidth, if_pos ascii, List.length_cons]
          omega
        · rcases (runeWidth_cons ascii rest).mp zero with
            ⟨owed, _, _, _, _, _, taken, _, complete, _, width⟩
          have long := length_take_of_eq taken complete
          rw [width, List.length_cons]
          omega

/-- Only the bytes of the sequence itself decide its width. -/
theorem runeWidth_congr {string other : GoString} (nonzero : runeWidth string ≠ 0)
    (same : other.take (runeWidth string) = string.take (runeWidth string)) :
    runeWidth other = runeWidth string := by
  cases string with
  | nil => exact absurd rfl nonzero
  | cons first rest =>
      by_cases ascii : first < 0x80
      · have one : runeWidth (first :: rest) = 1 := by rw [runeWidth, if_pos ascii]
        rw [one] at same ⊢
        cases other with
        | nil => cases same
        | cons byte others =>
            cases same
            rw [runeWidth, if_pos ascii]
      · rcases (runeWidth_cons ascii rest).mp nonzero with
          ⟨owed, lowest, highest, second, tail, expected, taken, bounds, complete, continued,
            width⟩
        rw [width] at same ⊢
        cases other with
        | nil => cases same
        | cons byte others =>
            rw [List.take_succ_cons, List.take_succ_cons, List.cons.injEq] at same
            rcases same with ⟨rfl, sameTail⟩
            rw [runeWidth, if_neg ascii, expected]
            simp only [sameTail, taken]
            rw [if_pos ⟨bounds.1, bounds.2, complete, continued⟩]

theorem runeWidth_append {string : GoString} (nonzero : runeWidth string ≠ 0) (rest : GoString) :
    runeWidth (string ++ rest) = runeWidth string := by
  refine runeWidth_congr nonzero ?_
  rw [List.take_append_of_le_length (runeWidth_le_length string)]

theorem isRune_take {string : GoString} (nonzero : runeWidth string ≠ 0) :
    IsRune (string.take (runeWidth string)) := by
  have bounded := runeWidth_le_length string
  have length : (string.take (runeWidth string)).length = runeWidth string := by
    rw [List.length_take]
    omega
  refine ⟨?_, ?_⟩
  · intro empty
    rw [empty] at length
    exact nonzero length.symm
  · rw [length]
    refine runeWidth_congr nonzero ?_
    rw [List.take_take, min_self]

theorem IsRune.runeWidth_append {rune : GoString} (isRune : IsRune rune) (rest : GoString) :
    runeWidth (rune ++ rest) = rune.length := by
  rw [Foundation.runeWidth_append, isRune.2]
  rw [isRune.2]
  exact fun empty => isRune.1 (List.length_eq_zero_iff.mp empty)

/-- The bytes behind the first one of a sequence are not below `0x80`. -/
theorem runeWidth_tail {first : UInt8} {rest : GoString} {byte : UInt8}
    (isTail : byte ∈ rest.take (runeWidth (first :: rest) - 1)) : ¬byte < 0x80 := by
  by_cases ascii : first < 0x80
  · have one : runeWidth (first :: rest) = 1 := by rw [runeWidth, if_pos ascii]
    rw [one] at isTail
    cases isTail
  · by_cases nonzero : runeWidth (first :: rest) = 0
    · rw [nonzero] at isTail
      cases isTail
    · rcases (runeWidth_cons ascii rest).mp nonzero with
        ⟨owed, lowest, highest, second, others, expected, taken, bounds, _, continued, width⟩
      have lowestHigh : 0x80 ≤ lowest := by
        unfold sequenceTail at expected
        grind
      rw [width, Nat.add_sub_cancel, taken] at isTail
      rw [List.all_eq_true] at continued
      rw [UInt8.not_lt]
      rcases List.mem_cons.mp isTail with rfl | inOthers
      · exact UInt8.le_trans lowestHigh bounds.1
      · exact (of_decide_eq_true (continued byte inOthers)).1

/-- A byte below `0x80` ends what a sequence before it can take. -/
theorem runeWidth_append_of_ascii {first byte : UInt8} (ascii : byte < 0x80)
    (string rest : GoString) :
    runeWidth (first :: (string ++ byte :: rest)) = runeWidth (first :: string) := by
  by_cases whole : runeWidth (first :: string) = 0
  · by_contra different
    rw [whole] at different
    have within : runeWidth (first :: (string ++ byte :: rest)) ≤ string.length + 1 := by
      by_contra beyond
      rcases Nat.exists_eq_add_of_lt (not_le.mp beyond) with ⟨extra, width⟩
      have isTail : byte ∈ (string ++ byte :: rest).take
          (runeWidth (first :: (string ++ byte :: rest)) - 1) := by
        rw [width, Nat.add_sub_cancel, Nat.add_assoc, Nat.add_comm 1 extra,
          List.take_length_add_append, List.take_succ_cons]
        exact List.mem_append_right _ List.mem_cons_self
      exact runeWidth_tail isTail ascii
    refine different ?_
    rw [← whole]
    refine (runeWidth_congr different ?_).symm
    rw [← List.cons_append, List.take_append_of_le_length (by simpa using within)]
  · rw [← List.cons_append]
    exact runeWidth_append whole _

/-! ## Encodings -/

theorem isRune_two {first second : UInt8} (leads : 0xC2 ≤ first ∧ first ≤ 0xDF)
    (continues : 0x80 ≤ second ∧ second ≤ 0xBF) : IsRune [first, second] := by
  have high : ¬first < 0x80 := by grind
  have expected : sequenceTail first = some (1, 0x80, 0xBF) := by
    rw [sequenceTail, if_pos leads]
  refine ⟨List.cons_ne_nil _ _, ?_⟩
  rw [runeWidth, if_neg high, expected]
  simp [continues]

theorem isRune_three {first second third : UInt8} (leads : 0xE0 ≤ first ∧ first ≤ 0xEF)
    (continues : 0x80 ≤ second ∧ second ≤ 0xBF) (last : 0x80 ≤ third ∧ third ≤ 0xBF)
    (shortest : first = 0xE0 → 0xA0 ≤ second) (scalar : first = 0xED → second ≤ 0x9F) :
    IsRune [first, second, third] := by
  have high : ¬first < 0x80 := by grind
  refine ⟨List.cons_ne_nil _ _, ?_⟩
  rw [runeWidth, if_neg high]
  unfold sequenceTail
  split_ifs <;> simp_all <;> grind

theorem isRune_four {first second third fourth : UInt8} (leads : 0xF0 ≤ first ∧ first ≤ 0xF4)
    (continues : 0x80 ≤ second ∧ second ≤ 0xBF) (next : 0x80 ≤ third ∧ third ≤ 0xBF)
    (last : 0x80 ≤ fourth ∧ fourth ≤ 0xBF) (shortest : first = 0xF0 → 0x90 ≤ second)
    (inRange : first = 0xF4 → second ≤ 0x8F) : IsRune [first, second, third, fourth] := by
  have high : ¬first < 0x80 := by grind
  refine ⟨List.cons_ne_nil _ _, ?_⟩
  rw [runeWidth, if_neg high]
  unfold sequenceTail
  split_ifs <;> simp_all <;> grind

theorem ofNat_between (low high : Nat) {number : Nat} (above : low ≤ number)
    (below : number ≤ high) (byte : high < 256) :
    UInt8.ofNat low ≤ UInt8.ofNat number ∧ UInt8.ofNat number ≤ UInt8.ofNat high := by
  have bounded : number < UInt8.size := by
    rw [UInt8.size]
    omega
  exact ⟨(UInt8.ofNat_le_iff_le (lt_of_le_of_lt above bounded) bounded).mpr above,
    (UInt8.ofNat_le_iff_le bounded byte).mpr below⟩

/-- The last bytes of a sequence carry six bits each. -/
theorem continuation_between (value : Nat) :
    0x80 ≤ UInt8.ofNat (value % 0x40 + 0x80) ∧ UInt8.ofNat (value % 0x40 + 0x80) ≤ 0xBF :=
  ofNat_between 0x80 0xBF (by omega) (by omega) (by decide)

theorem ofNat_eq (other : Nat) {number : Nat} (bounded : number < 256) (byte : other < 256)
    (same : UInt8.ofNat number = UInt8.ofNat other) : number = other := by
  have values := congrArg UInt8.toNat same
  rw [UInt8.toNat_ofNat', UInt8.toNat_ofNat'] at values
  omega

/-- The encoding of a scalar value, which Lean and Go spell alike. -/
theorem isRune_utf8EncodeChar (char : Char) : IsRune (String.utf8EncodeChar char) := by
  have valid : char.val.toNat < 0xD800 ∨ 0xDFFF < char.val.toNat ∧ char.val.toNat < 0x110000 :=
    char.valid
  unfold String.utf8EncodeChar
  simp only
  generalize char.val.toNat = value at *
  split_ifs with one two three
  · refine isRune_singleton (UInt8.not_le.mp ?_)
    intro high
    have := (@UInt8.ofNat_le_iff_le 0x80 value (by decide)
      (by rw [UInt8.size]; omega)).mp high
    omega
  · exact isRune_two (ofNat_between 0xC2 0xDF (by omega) (by omega) (by decide))
      (continuation_between value)
  · refine isRune_three (ofNat_between 0xE0 0xEF (by omega) (by omega) (by decide))
      (continuation_between (value / 64)) (continuation_between value) ?_ ?_
    · intro isFirst
      have := ofNat_eq 0xE0 (by omega) (by decide) isFirst
      exact (ofNat_between 0xA0 0xBF (by omega) (by omega) (by decide)).1
    · intro isLast
      have := ofNat_eq 0xED (by omega) (by decide) isLast
      exact (ofNat_between 0x80 0x9F (by omega) (by omega) (by decide)).2
  · refine isRune_four (ofNat_between 0xF0 0xF4 (by omega) (by omega) (by decide))
      (continuation_between (value / 4096)) (continuation_between (value / 64))
      (continuation_between value) ?_ ?_
    · intro isFirst
      have := ofNat_eq 0xF0 (by omega) (by decide) isFirst
      exact (ofNat_between 0x90 0xBF (by omega) (by omega) (by decide)).1
    · intro isLast
      have := ofNat_eq 0xF4 (by omega) (by decide) isLast
      exact (ofNat_between 0x80 0x8F (by omega) (by omega) (by decide)).2

/-! ## Valid strings -/

/-- Fuel for every byte is enough, and more is no harm. -/
theorem validRunes_congr {fuel more : Nat} {string : GoString} (enough : string.length ≤ fuel)
    (alsoEnough : string.length ≤ more) : validRunes fuel string = validRunes more string := by
  induction fuel generalizing more string with
  | zero =>
      rw [List.length_eq_zero_iff.mp (Nat.le_zero.mp enough)]
      simp only [validRunes]
  | succ fuel inductionHypothesis =>
      cases string with
      | nil => simp only [validRunes]
      | cons first rest =>
          cases more with
          | zero => simp at alsoEnough
          | succ more =>
              simp only [validRunes]
              by_cases zero : runeWidth (first :: rest) = 0
              · simp [zero]
              · have shorter : ((first :: rest).drop (runeWidth (first :: rest))).length ≤
                    rest.length := by
                  rw [List.length_drop, List.length_cons]
                  omega
                simp only [List.length_cons, Nat.add_le_add_iff_right] at enough alsoEnough
                rw [inductionHypothesis (shorter.trans enough) (shorter.trans alsoEnough)]

theorem validString_append_rune {rune : GoString} (isRune : IsRune rune) (rest : GoString) :
    validString (rune ++ rest) = validString rest := by
  rcases rune with _ | ⟨first, others⟩
  · exact absurd rfl isRune.1
  · have width := isRune.runeWidth_append rest
    have shorter : validRunes (others ++ rest).length rest = validRunes rest.length rest :=
      validRunes_congr (by simp) le_rfl
    simp only [validString, List.cons_append, List.length_cons, validRunes]
    rw [← List.cons_append, width, List.drop_left, shorter]
    simp

theorem runeWidth_ne_zero {first : UInt8} {rest : GoString}
    (valid : validString (first :: rest) = true) : runeWidth (first :: rest) ≠ 0 := by
  intro zero
  simp [validString, validRunes, zero] at valid

/-- A valid string is built from runes. -/
theorem validString_induction {motive : GoString → Prop} (nil : motive [])
    (rune : ∀ rune rest, IsRune rune → validString rest = true → motive rest →
      motive (rune ++ rest)) {string : GoString} (valid : validString string = true) :
    motive string := by
  induction length : string.length using Nat.strong_induction_on generalizing string with
  | _ length inductionHypothesis =>
      subst length
      cases string with
      | nil => exact nil
      | cons first others =>
          have nonzero := runeWidth_ne_zero valid
          have isRune := isRune_take nonzero
          have split := List.take_append_drop (runeWidth (first :: others)) (first :: others)
          have tailValid :
              validString ((first :: others).drop (runeWidth (first :: others))) = true := by
            rw [← validString_append_rune isRune, split]
            exact valid
          have shorter : ((first :: others).drop (runeWidth (first :: others))).length <
              (first :: others).length := by
            rw [List.length_drop, List.length_cons]
            omega
          rw [← split]
          exact rune _ _ isRune tailValid (inductionHypothesis _ shorter tailValid rfl)

theorem validString_append {string : GoString} (valid : validString string = true)
    (rest : GoString) : validString (string ++ rest) = validString rest := by
  refine validString_induction (motive := fun string =>
    validString (string ++ rest) = validString rest) rfl ?_ valid
  intro rune others isRune _ inductionHypothesis
  rw [List.append_assoc, validString_append_rune isRune, inductionHypothesis]

/-- A byte below `0x80` separates what is valid before it from what is valid behind it. -/
theorem validString_append_cons {byte : UInt8} (ascii : byte < 0x80) (string rest : GoString) :
    validString (string ++ byte :: rest) = true ↔
      validString string = true ∧ validString rest = true := by
  have behind : validString (byte :: rest) = validString rest :=
    validString_append_rune (isRune_singleton ascii) rest
  constructor
  · induction length : string.length using Nat.strong_induction_on generalizing string with
    | _ length inductionHypothesis =>
        subst length
        cases string with
        | nil =>
            intro valid
            exact ⟨rfl, behind ▸ valid⟩
        | cons first others =>
            intro valid
            rw [List.cons_append] at valid
            have nonzero := runeWidth_ne_zero valid
            rw [runeWidth_append_of_ascii ascii] at nonzero
            have isRune := isRune_take nonzero
            have split := List.take_append_drop (runeWidth (first :: others)) (first :: others)
            have shorter : ((first :: others).drop (runeWidth (first :: others))).length <
                (first :: others).length := by
              rw [List.length_drop, List.length_cons]
              omega
            rw [← List.cons_append, ← split, List.append_assoc,
              validString_append_rune isRune] at valid
            rw [← split, validString_append_rune isRune]
            exact inductionHypothesis _ shorter _ rfl valid
  · rintro ⟨valid, restValid⟩
    rw [validString_append valid, behind, restValid]

/-! ## Literals -/

theorem text_eq (literal : String) :
    text literal = literal.toList.flatMap String.utf8EncodeChar := by
  rw [text, String.toUTF8_eq_toByteArray, ← String.utf8Encode_toList, List.utf8Encode,
    List.data_toByteArray]

theorem validString_text (literal : String) : validString (text literal) = true := by
  rw [text_eq]
  induction literal.toList with
  | nil => rfl
  | cons char chars inductionHypothesis =>
      rwa [List.flatMap_cons, validString_append_rune (isRune_utf8EncodeChar char)]

/-- A literal that starts with a byte below `0x80` separates what stands around it. -/
theorem validString_append_literal (literal : String) {byte : UInt8} {tail : GoString}
    (starts : text literal = byte :: tail) (ascii : byte < 0x80) (string rest : GoString) :
    validString (string ++ (text literal ++ rest)) = true ↔
      validString string = true ∧ validString rest = true := by
  have behind := validString_append (validString_text literal) rest
  have split := validString_append_rune (isRune_singleton ascii) (tail ++ rest)
  rw [starts, List.cons_append] at behind ⊢
  rw [validString_append_cons ascii, ← behind, ← split]
  rfl

end Foundation
