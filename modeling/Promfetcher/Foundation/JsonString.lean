import Promfetcher.Foundation.Json
import Promfetcher.Foundation.Utf8

/-!
# String literals of JSON

What the parser of string literals reads, as a relation without fuel. It is read
alike in front of any text, and its value is valid UTF-8 whatever bytes and
escapes it is written with.
-/

namespace Foundation

namespace Json

/-- A byte that stands for itself in a string literal. -/
def IsPlain (byte : UInt8) : Prop :=
  byte ≠ 0x22 ∧ byte ≠ 0x5C ∧ ¬byte < 0x20

/-- A string literal behind its opening quote, its value, and the text behind it. -/
inductive ParsedString : GoString → GoString → GoString → Prop where
  | close {out : GoString} : ParsedString (0x22 :: out) [] out
  | unicode {rest behind rune more value out : GoString} {unit : Nat}
      (digits : codeUnit rest = some (unit, behind))
      (escaped : escapedRune unit behind = (rune, more)) (tail : ParsedString more value out) :
      ParsedString (0x5C :: 0x75 :: rest) (rune ++ value) out
  | simple {escape byte : UInt8} {rest value out : GoString}
      (known : simpleEscape escape = some byte) (tail : ParsedString rest value out) :
      ParsedString (0x5C :: escape :: rest) (byte :: value) out
  | invalid {byte : UInt8} {rest value out : GoString} (plain : IsPlain byte)
      (width : runeWidth (byte :: rest) = 0) (tail : ParsedString rest value out) :
      ParsedString (byte :: rest) (replacementRune ++ value) out
  | rune {byte : UInt8} {others rest value out : GoString} (plain : IsPlain byte)
      (isRune : IsRune (byte :: others)) (tail : ParsedString rest value out) :
      ParsedString (byte :: others ++ rest) (byte :: others ++ value) out

theorem codeUnit_suffix {rest behind : GoString} {unit : Nat}
    (digits : codeUnit rest = some (unit, behind)) : behind <:+ rest := by
  unfold codeUnit at digits
  split at digits
  · simp only [Option.bind_eq_bind, Option.bind_eq_some_iff, Option.pure_def, Option.some.injEq,
      Prod.mk.injEq] at digits
    rcases digits with ⟨_, _, _, _, _, _, _, _, _, rfl⟩
    exact ⟨[_, _, _, _], rfl⟩
  · cases digits

theorem codeUnit_append {rest behind : GoString} {unit : Nat}
    (digits : codeUnit rest = some (unit, behind)) (more : GoString) :
    codeUnit (rest ++ more) = some (unit, behind ++ more) := by
  unfold codeUnit at digits
  split at digits
  · simp only [Option.bind_eq_bind, Option.bind_eq_some_iff, Option.pure_def, Option.some.injEq,
      Prod.mk.injEq] at digits
    rcases digits with ⟨_, first, _, second, _, third, _, fourth, rfl, rfl⟩
    simp [codeUnit, first, second, third, fourth]
  · cases digits

theorem escapedRune_lone {unit : Nat} {behind : GoString}
    (surrogate : ¬(unit < 0xD800 ∨ 0xE000 ≤ unit))
    (other : ∀ digits, behind ≠ 0x5C :: 0x75 :: digits) :
    escapedRune unit behind = (replacementRune, behind) := by
  unfold escapedRune
  rw [if_neg surrogate]
  split
  · exact absurd rfl (other _)
  · rfl

theorem escapedRune_pair {unit low : Nat} {digits after : GoString}
    (surrogate : ¬(unit < 0xD800 ∨ 0xE000 ≤ unit)) (read : codeUnit digits = some (low, after)) :
    escapedRune unit (0x5C :: 0x75 :: digits) =
      if unit < 0xDC00 ∧ 0xDC00 ≤ low ∧ low < 0xE000 then
        (String.utf8EncodeChar
          (Char.ofNat (0x10000 + (unit - 0xD800) * 0x400 + (low - 0xDC00))), after)
      else (replacementRune, 0x5C :: 0x75 :: digits) := by
  rw [escapedRune, if_neg surrogate]
  simp only [read]

theorem escapedRune_unpaired {unit : Nat} {digits : GoString}
    (surrogate : ¬(unit < 0xD800 ∨ 0xE000 ≤ unit)) (unread : codeUnit digits = none) :
    escapedRune unit (0x5C :: 0x75 :: digits) = (replacementRune, 0x5C :: 0x75 :: digits) := by
  rw [escapedRune, if_neg surrogate]
  simp only [unread]

/-- An escape stands for a scalar value, and takes a second escape or nothing behind it. -/
theorem escapedRune_cases (unit : Nat) (behind : GoString) :
    IsRune (escapedRune unit behind).1 ∧ (escapedRune unit behind).2 <:+ behind := by
  have replacement : IsRune replacementRune := by decide
  by_cases scalar : unit < 0xD800 ∨ 0xE000 ≤ unit
  · rw [escapedRune.eq_def, if_pos scalar]
    exact ⟨isRune_utf8EncodeChar _, List.suffix_rfl⟩
  · by_cases pair : ∃ digits, behind = 0x5C :: 0x75 :: digits
    · rcases pair with ⟨digits, rfl⟩
      rcases read : codeUnit digits with _ | ⟨low, after⟩
      · rw [escapedRune_unpaired scalar read]
        exact ⟨replacement, List.suffix_rfl⟩
      · rw [escapedRune_pair scalar read]
        by_cases surrogates : unit < 0xDC00 ∧ 0xDC00 ≤ low ∧ low < 0xE000
        · rw [if_pos surrogates]
          simp only [isRune_utf8EncodeChar, true_and]
          exact (codeUnit_suffix read).trans ⟨[_, _], rfl⟩
        · rw [if_neg surrogates]
          exact ⟨replacement, List.suffix_rfl⟩
    · rw [not_exists] at pair
      rw [escapedRune_lone scalar pair]
      exact ⟨replacement, List.suffix_rfl⟩

theorem escapedRune_suffix {unit : Nat} {behind rune more : GoString}
    (escaped : escapedRune unit behind = (rune, more)) : more <:+ behind := by
  have suffix := (escapedRune_cases unit behind).2
  rwa [escaped] at suffix

theorem ParsedString.suffix {input value out : GoString} (parsed : ParsedString input value out) :
    0x22 :: out <:+ input := by
  induction parsed with
  | close => exact List.suffix_rfl
  | unicode digits escaped _ inductionHypothesis =>
      exact inductionHypothesis.trans ((escapedRune_suffix escaped).trans
        ((codeUnit_suffix digits).trans ⟨[_, _], rfl⟩))
  | simple _ _ inductionHypothesis => exact inductionHypothesis.trans ⟨[_, _], rfl⟩
  | invalid _ _ _ inductionHypothesis => exact inductionHypothesis.trans ⟨[_], rfl⟩
  | rune _ _ _ inductionHypothesis => exact inductionHypothesis.trans (List.suffix_append _ _)

theorem ParsedString.length_lt {input value out : GoString}
    (parsed : ParsedString input value out) : out.length < input.length :=
  parsed.suffix.length_le

theorem parsedString_of_parseString {fuel : Nat} {input value out : GoString}
    (read : parseString fuel input = some (value, out)) : ParsedString input value out := by
  induction fuel generalizing input value with
  | zero => cases read
  | succ fuel inductionHypothesis =>
      cases input with
      | nil => cases read
      | cons byte rest =>
          rw [parseString.eq_def] at read
          simp only at read
          split at read
          · rename_i quote
            cases read
            subst quote
            exact .close
          · rename_i notQuote
            split at read
            · cases read
            · rename_i notControl
              split at read
              · rename_i backslash
                subst backslash
                split at read
                · cases read
                · split at read
                  · rename_i unicode
                    subst unicode
                    simp only [Option.bind_eq_bind, Option.bind_eq_some_iff, Option.pure_def,
                      Option.some.injEq, Prod.mk.injEq] at read
                    rcases read with ⟨_, digits, _, tail, rfl, rfl⟩
                    exact .unicode digits rfl (inductionHypothesis tail)
                  · simp only [Option.bind_eq_bind, Option.bind_eq_some_iff, Option.pure_def,
                      Option.some.injEq, Prod.mk.injEq] at read
                    rcases read with ⟨_, known, _, tail, rfl, rfl⟩
                    exact .simple known (inductionHypothesis tail)
              · rename_i notBackslash
                have plain : IsPlain byte := ⟨notQuote, notBackslash, notControl⟩
                split at read
                · rename_i width
                  simp only [Option.bind_eq_bind, Option.bind_eq_some_iff, Option.pure_def,
                    Option.some.injEq, Prod.mk.injEq] at read
                  rcases read with ⟨_, tail, rfl, rfl⟩
                  exact .invalid plain width (inductionHypothesis tail)
                · rename_i width
                  simp only [Option.bind_eq_bind, Option.bind_eq_some_iff, Option.pure_def,
                    Option.some.injEq, Prod.mk.injEq] at read
                  rcases read with ⟨_, tail, rfl, rfl⟩
                  have isRune := isRune_take width
                  rcases Nat.exists_eq_add_one_of_ne_zero width with ⟨tailWidth, isSucc⟩
                  rw [isSucc, List.take_succ_cons] at isRune ⊢
                  rw [isSucc, List.drop_succ_cons] at tail
                  have parsed := ParsedString.rune plain isRune (inductionHypothesis tail)
                  rwa [List.cons_append, List.take_append_drop] at parsed

theorem ParsedString.parseString {input value out : GoString}
    (parsed : ParsedString input value out) {fuel : Nat}
    (enough : input.length ≤ fuel + out.length) :
    Json.parseString fuel input = some (value, out) := by
  have consumed := parsed.length_lt
  induction parsed generalizing fuel with
  | @close out =>
      cases fuel with
      | zero => omega
      | succ fuel =>
          rw [Json.parseString.eq_def]
          simp
  | @unicode rest behind rune more value out unit digits escaped tail inductionHypothesis =>
      cases fuel with
      | zero => omega
      | succ fuel =>
          have fewer := (escapedRune_suffix escaped).length_le
          have behindFewer := (codeUnit_suffix digits).length_le
          simp only [List.length_cons] at enough
          have readTail : Json.parseString fuel more = some (value, out) :=
            inductionHypothesis (by omega) tail.length_lt
          rw [Json.parseString.eq_def]
          simp [digits, escaped, readTail]
  | @simple escape byte rest value out known tail inductionHypothesis =>
      cases fuel with
      | zero => omega
      | succ fuel =>
          simp only [List.length_cons] at enough
          have readTail : Json.parseString fuel rest = some (value, out) :=
            inductionHypothesis (by omega) tail.length_lt
          have notUnicode : escape ≠ 0x75 := by
            rintro rfl
            cases known
          rw [Json.parseString.eq_def]
          simp [notUnicode, known, readTail]
  | @invalid byte rest value out plain width tail inductionHypothesis =>
      cases fuel with
      | zero => omega
      | succ fuel =>
          simp only [List.length_cons] at enough
          have readTail : Json.parseString fuel rest = some (value, out) :=
            inductionHypothesis (by omega) tail.length_lt
          rw [Json.parseString.eq_def]
          simp [plain.1, plain.2.1, plain.2.2, width, readTail]
  | @rune byte others rest value out plain isRune tail inductionHypothesis =>
      cases fuel with
      | zero => omega
      | succ fuel =>
          simp only [List.cons_append, List.length_cons, List.length_append] at enough
          have readTail : Json.parseString fuel rest = some (value, out) :=
            inductionHypothesis (by omega) tail.length_lt
          have width := isRune.runeWidth_append rest
          rw [List.cons_append, List.length_cons] at width
          rw [List.cons_append, Json.parseString.eq_def]
          simp [plain.1, plain.2.1, plain.2.2, width, readTail]

theorem ParsedString.escape_cases {rest value out : GoString}
    (parsed : ParsedString (0x5C :: rest) value out) :
    (∃ digits read, rest = 0x75 :: digits ∧ codeUnit digits = some read) ∨
      ∃ escape others byte, rest = escape :: others ∧ simpleEscape escape = some byte := by
  cases parsed with
  | unicode digits _ _ => exact .inl ⟨_, _, rfl, digits⟩
  | simple known _ => exact .inr ⟨_, _, _, rfl, known⟩
  | invalid plain _ _ => exact absurd rfl plain.2.1
  | rune plain _ _ => exact absurd rfl plain.2.1

/-- An escape does not reach behind the closing quote. -/
theorem escapedRune_append {unit : Nat} {behind rune more value out : GoString}
    (escaped : escapedRune unit behind = (rune, more)) (tail : ParsedString more value out)
    (rest : GoString) : escapedRune unit (behind ++ rest) = (rune, more ++ rest) := by
  by_cases scalar : unit < 0xD800 ∨ 0xE000 ≤ unit
  · unfold escapedRune at escaped ⊢
    rw [if_pos scalar] at escaped ⊢
    cases escaped
    rfl
  · by_cases pair : ∃ digits, behind = 0x5C :: 0x75 :: digits
    · rcases pair with ⟨digits, rfl⟩
      rcases read : codeUnit digits with _ | ⟨low, after⟩
      · rw [escapedRune_unpaired scalar read, Prod.mk.injEq] at escaped
        rw [← escaped.2] at tail
        rcases tail.escape_cases with ⟨_, _, same, digits⟩ | ⟨_, _, _, same, known⟩
        · cases same
          rw [read] at digits
          cases digits
        · cases same
          cases known
      · rw [escapedRune_pair scalar read] at escaped
        rw [List.cons_append, List.cons_append,
          escapedRune_pair scalar (codeUnit_append read rest)]
        split at escaped <;> rename_i surrogates
        · rw [if_pos surrogates]
          rw [Prod.mk.injEq] at escaped
          rw [← escaped.1, ← escaped.2]
        · rw [if_neg surrogates]
          rw [Prod.mk.injEq] at escaped
          rw [← escaped.1, ← escaped.2]
          rfl
    · rw [not_exists] at pair
      rw [escapedRune_lone scalar pair, Prod.mk.injEq] at escaped
      rcases escaped with ⟨rfl, rfl⟩
      refine escapedRune_lone scalar ?_
      intro digits same
      rcases behind with _ | ⟨backslash, _ | ⟨letter, others⟩⟩
      · cases tail
      · rw [List.cons_append, List.cons.injEq] at same
        rw [same.1] at tail
        rcases tail.escape_cases with ⟨_, _, impossible, _⟩ | ⟨_, _, _, impossible, _⟩ <;>
          cases impossible
      · rw [List.cons_append, List.cons_append, List.cons.injEq, List.cons.injEq] at same
        exact pair others (by rw [same.1, same.2.1])

/-- A literal is read alike in front of any text. -/
theorem ParsedString.append {input value out : GoString} (parsed : ParsedString input value out)
    (more : GoString) : ParsedString (input ++ more) value (out ++ more) := by
  induction parsed with
  | close => exact .close
  | unicode digits escaped tail inductionHypothesis =>
      exact .unicode (codeUnit_append digits more) (escapedRune_append escaped tail more)
        inductionHypothesis
  | simple known _ inductionHypothesis => exact .simple known inductionHypothesis
  | invalid plain width tail inductionHypothesis =>
      rcases tail.suffix with ⟨others, rfl⟩
      rw [runeWidth_append_of_ascii (by decide)] at width
      rw [List.append_assoc] at inductionHypothesis
      rw [List.cons_append, List.append_assoc]
      exact .invalid plain ((runeWidth_append_of_ascii (by decide) _ _).trans width)
        inductionHypothesis
  | rune plain isRune _ inductionHypothesis =>
      rw [List.append_assoc]
      exact .rune plain isRune inductionHypothesis

theorem simpleEscape_ascii {escape byte : UInt8} (known : simpleEscape escape = some byte) :
    byte < 0x80 := by
  unfold simpleEscape at known
  grind

theorem ParsedString.valid {input value out : GoString} (parsed : ParsedString input value out) :
    validString value = true := by
  induction parsed with
  | close => rfl
  | @unicode rest behind rune more value out unit digits escaped tail inductionHypothesis =>
      have isRune := (escapedRune_cases unit behind).1
      rw [escaped] at isRune
      rwa [validString_append_rune isRune]
  | @simple escape byte rest value out known tail inductionHypothesis =>
      have valid := validString_append_rune (isRune_singleton (simpleEscape_ascii known)) value
      rwa [← inductionHypothesis]
  | invalid _ _ _ inductionHypothesis =>
      rwa [validString_append_rune (by decide)]
  | rune _ isRune _ inductionHypothesis => rwa [validString_append_rune isRune]

/-- A valid text without quotes, backslashes and control characters is written as it is. -/
theorem parsedString_of_plain {value : GoString} (valid : validString value = true)
    (plain : ∀ byte ∈ value, IsPlain byte) (rest : GoString) :
    ParsedString (value ++ 0x22 :: rest) value rest := by
  refine validString_induction (motive := fun value => (∀ byte ∈ value, IsPlain byte) →
    ParsedString (value ++ 0x22 :: rest) value rest) (fun _ => .close) ?_ valid plain
  intro rune others isRune _ inductionHypothesis plain
  rcases rune with _ | ⟨first, tail⟩
  · exact absurd rfl isRune.1
  · rw [List.forall_mem_append] at plain
    rw [List.append_assoc]
    exact .rune (plain.1 first List.mem_cons_self) isRune (inductionHypothesis plain.2)

end Json

end Foundation
