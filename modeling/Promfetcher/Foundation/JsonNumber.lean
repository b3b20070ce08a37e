import Promfetcher.Foundation.Json

/-!
# Numbers of JSON

A number has no closing delimiter: its parser stops at the first byte that does
not go on. The parser looks no further than that byte.
-/

namespace Foundation

namespace Json

/-- A reader that looks no further than the first byte behind what it reads. -/
structure IsLocal (read : GoString → Option (GoString × GoString)) : Prop where
  suffix : ∀ {input item rest}, read input = some (item, rest) → rest <:+ input
  append : ∀ {input item rest}, read input = some (item, rest) → rest ≠ [] →
    ∀ more, read (input ++ more) = some (item, rest ++ more)

theorem IsLocal.bind {read : GoString → Option (GoString × GoString)}
    {next : GoString → GoString → Option (GoString × GoString)} (isLocal : IsLocal read)
    (nextLocal : ∀ item, IsLocal (next item)) :
    IsLocal fun input => (read input).bind fun found => next found.1 found.2 where
  suffix := by
    intro input item rest found
    rcases Option.bind_eq_some_iff.mp found with ⟨⟨first, behind⟩, firstFound, found⟩
    exact ((nextLocal first).suffix found).trans (isLocal.suffix firstFound)
  append := by
    intro input item rest found nonempty more
    rcases Option.bind_eq_some_iff.mp found with ⟨⟨first, behind⟩, firstFound, found⟩
    have some : behind ≠ [] := by
      rintro rfl
      exact nonempty (List.suffix_nil.mp ((nextLocal first).suffix found))
    rw [isLocal.append firstFound some, Option.bind_some]
    exact (nextLocal first).append found nonempty more

/-- A reader that decides by the first byte how to go on. -/
theorem IsLocal.ofFirst {first : UInt8} {read onFirst onOther :
    GoString → Option (GoString × GoString)} (firstLocal : IsLocal onFirst)
    (otherLocal : IsLocal onOther) (isFirst : ∀ rest, read (first :: rest) = onFirst rest)
    (isOther : ∀ input, (∀ rest, input ≠ first :: rest) → read input = onOther input) :
    IsLocal read where
  suffix := by
    intro input item rest found
    by_cases starts : ∃ tail, input = first :: tail
    · rcases starts with ⟨tail, rfl⟩
      rw [isFirst] at found
      exact (firstLocal.suffix found).trans (List.suffix_cons _ _)
    · rw [isOther _ (not_exists.mp starts)] at found
      exact otherLocal.suffix found
  append := by
    intro input item rest found nonempty more
    by_cases starts : ∃ tail, input = first :: tail
    · rcases starts with ⟨tail, rfl⟩
      rw [isFirst] at found
      rw [List.cons_append, isFirst]
      exact firstLocal.append found nonempty more
    · rw [isOther _ (not_exists.mp starts)] at found
      rw [isOther]
      · exact otherLocal.append found nonempty more
      · intro tail same
        cases input with
        | nil => exact nonempty (List.suffix_nil.mp (otherLocal.suffix found))
        | cons byte others =>
            rw [List.cons_append, List.cons.injEq] at same
            exact starts ⟨others, by rw [same.1]⟩

theorem parseDigits_eq (input : GoString) : parseDigits input =
    if input.takeWhile isDigit = [] then none
    else some (input.takeWhile isDigit, input.dropWhile isDigit) := by
  unfold parseDigits
  rw [List.span_eq_takeWhile_dropWhile]
  cases input.takeWhile isDigit <;> rfl

theorem isLocal_parseDigits : IsLocal parseDigits where
  suffix := by
    intro input digits rest read
    rw [parseDigits_eq] at read
    split at read
    · cases read
    · cases read
      exact List.dropWhile_suffix _
  append := by
    intro input digits rest read nonempty more
    rw [parseDigits_eq] at read ⊢
    split at read
    · cases read
    · rename_i some
      rw [Option.some.injEq, Prod.mk.injEq] at read
      have stops : (input.takeWhile isDigit).length ≠ input.length := by
        intro all
        have whole := (List.takeWhile_prefix isDigit).eq_of_length all
        have behind := List.takeWhile_append_dropWhile (p := isDigit) (l := input)
        rw [whole, List.append_right_eq_self] at behind
        exact nonempty (read.2.symm.trans behind)
      rw [List.takeWhile_append, List.dropWhile_append, if_neg stops, if_neg some, read.1,
        read.2]
      simp [nonempty]

/-- What `parseNumber` does behind the fraction. -/
def exponentTail (mantissa input : GoString) : Option (GoString × GoString) := do
  let (exponent, input) ← match input with
    | mark :: rest =>
        if mark = 0x65 ∨ mark = 0x45 then do
          let (sign, rest) := match rest with
            | 0x2B :: rest => ([0x2B], rest)
            | 0x2D :: rest => ([0x2D], rest)
            | _ => (([] : GoString), rest)
          let (digits, rest) ← parseDigits rest
          some (mark :: sign ++ digits, rest)
        else some ([], input)
    | [] => some ([], input)
  return (mantissa ++ exponent, input)

/-- The fraction and the exponent of a number, behind what has been read of it. -/
def fractionTail (whole input : GoString) : Option (GoString × GoString) := do
  let (fraction, input) ← match input with
    | 0x2E :: rest => do
        let (digits, rest) ← parseDigits rest
        some (0x2E :: digits, rest)
    | _ => some ([], input)
  exponentTail (whole ++ fraction) input

/-- A number behind its sign. -/
def wholeTail (sign input : GoString) : Option (GoString × GoString) := do
  let (whole, input) ← match input with
    | 0x30 :: rest => some ([0x30], rest)
    | _ => parseDigits input
  fractionTail (sign ++ whole) input

theorem parseNumber_minus (rest : GoString) :
    parseNumber (0x2D :: rest) = wholeTail [0x2D] rest :=
  rfl

theorem parseNumber_unsigned {input : GoString} (other : ∀ rest, input ≠ 0x2D :: rest) :
    parseNumber input = wholeTail [] input := by
  unfold parseNumber
  split
  rename_i same
  split at same
  · exact absurd rfl (other _)
  · cases same
    rfl

/-- The sign in front of an exponent, if there is one. -/
def splitSign : GoString → GoString × GoString
  | 0x2B :: rest => ([0x2B], rest)
  | 0x2D :: rest => ([0x2D], rest)
  | rest => ([], rest)

theorem splitSign_append {input : GoString} (nonempty : input ≠ []) (more : GoString) :
    splitSign (input ++ more) = ((splitSign input).1, (splitSign input).2 ++ more) := by
  cases input with
  | nil => exact absurd rfl nonempty
  | cons first rest =>
      by_cases plus : first = 0x2B
      · subst plus
        rfl
      · by_cases minus : first = 0x2D
        · subst minus
          rfl
        · simp [splitSign, plus, minus]

theorem splitSign_suffix (input : GoString) : (splitSign input).2 <:+ input := by
  unfold splitSign
  split
  · exact ⟨[_], rfl⟩
  · exact ⟨[_], rfl⟩
  · exact List.suffix_rfl

theorem exponentTail_marked {mark : UInt8} (marked : mark = 0x65 ∨ mark = 0x45)
    (mantissa rest : GoString) : exponentTail mantissa (mark :: rest) =
      (parseDigits (splitSign rest).2).map fun read =>
        (mantissa ++ (mark :: (splitSign rest).1 ++ read.1), read.2) := by
  simp only [exponentTail, if_pos marked]
  unfold splitSign
  split <;> simp [Option.map_eq_bind]

theorem exponentTail_unmarked {mark : UInt8} (unmarked : ¬(mark = 0x65 ∨ mark = 0x45))
    (mantissa rest : GoString) : exponentTail mantissa (mark :: rest) =
      some (mantissa ++ [], mark :: rest) := by
  simp only [exponentTail, if_neg unmarked]
  rfl

theorem isLocal_exponentTail (mantissa : GoString) : IsLocal (exponentTail mantissa) where
  suffix := by
    intro input literal out read
    cases input with
    | nil =>
        cases read
        exact List.suffix_rfl
    | cons mark rest =>
        by_cases marked : mark = 0x65 ∨ mark = 0x45
        · rw [exponentTail_marked marked, Option.map_eq_some_iff] at read
          rcases read with ⟨⟨digits, behind⟩, read, same⟩
          cases same
          exact (isLocal_parseDigits.suffix read).trans
            ((splitSign_suffix rest).trans (List.suffix_cons _ _))
        · rw [exponentTail_unmarked marked] at read
          cases read
          exact List.suffix_rfl
  append := by
    intro input literal out read nonempty more
    cases input with
    | nil =>
        cases read
        exact absurd rfl nonempty
    | cons mark rest =>
        rw [List.cons_append]
        by_cases marked : mark = 0x65 ∨ mark = 0x45
        · rw [exponentTail_marked marked, Option.map_eq_some_iff] at read
          rcases read with ⟨⟨digits, behind⟩, read, same⟩
          cases same
          have some : rest ≠ [] := by
            rintro rfl
            cases read
          rw [exponentTail_marked marked, splitSign_append some,
            isLocal_parseDigits.append read nonempty]
          rfl
        · rw [exponentTail_unmarked marked] at read
          cases read
          rw [exponentTail_unmarked marked, List.cons_append]

theorem fractionTail_other (whole input : GoString) (other : ∀ rest, input ≠ 0x2E :: rest) :
    fractionTail whole input = exponentTail (whole ++ []) input := by
  unfold fractionTail
  split
  · exact absurd rfl (other _)
  · rfl

theorem isLocal_fractionTail (whole : GoString) : IsLocal (fractionTail whole) :=
  .ofFirst (isLocal_parseDigits.bind fun digits => isLocal_exponentTail (whole ++ 0x2E :: digits))
    (isLocal_exponentTail _) (fun _ => rfl) (fractionTail_other whole)

theorem wholeTail_other (sign input : GoString) (other : ∀ rest, input ≠ 0x30 :: rest) :
    wholeTail sign input =
      (parseDigits input).bind fun read => fractionTail (sign ++ read.1) read.2 := by
  unfold wholeTail
  split
  · exact absurd rfl (other _)
  · rfl

theorem isLocal_wholeTail (sign : GoString) : IsLocal (wholeTail sign) :=
  .ofFirst (isLocal_fractionTail (sign ++ [0x30]))
    (isLocal_parseDigits.bind fun digits => isLocal_fractionTail (sign ++ digits)) (fun _ => rfl)
    (wholeTail_other sign)

theorem isLocal_parseNumber : IsLocal parseNumber :=
  .ofFirst (isLocal_wholeTail _) (isLocal_wholeTail _) parseNumber_minus
    (fun _ => parseNumber_unsigned)

theorem wholeTail_strict {sign input literal out : GoString}
    (read : wholeTail sign input = some (literal, out)) :
    ∃ first rest, input = first :: rest ∧ isDigit first = true ∧ out <:+ rest := by
  cases input with
  | nil => cases read
  | cons first rest =>
      by_cases zero : first = 0x30
      · subst zero
        exact ⟨_, _, rfl, rfl, (isLocal_fractionTail _).suffix read⟩
      · rw [wholeTail_other _ _ (fun _ same => zero (List.cons.inj same).1),
          Option.bind_eq_some_iff] at read
        rcases read with ⟨⟨digits, behind⟩, digitsRead, read⟩
        have suffix := (isLocal_fractionTail _).suffix read
        rw [parseDigits_eq] at digitsRead
        by_cases digit : isDigit first = true
        · simp only [List.takeWhile_cons, List.dropWhile_cons, digit] at digitsRead
          cases digitsRead
          exact ⟨_, _, rfl, digit, suffix.trans (List.dropWhile_suffix _)⟩
        · simp [digit] at digitsRead

/-- A number starts with a sign or a digit. -/
theorem parseNumber_strict {input literal out : GoString}
    (read : parseNumber input = some (literal, out)) :
    ∃ first rest, input = first :: rest ∧ (first = 0x2D ∨ isDigit first = true) ∧
      out <:+ rest := by
  by_cases minus : ∃ rest, input = 0x2D :: rest
  · rcases minus with ⟨rest, rfl⟩
    exact ⟨_, _, rfl, .inl rfl, (isLocal_wholeTail _).suffix read⟩
  · rw [not_exists] at minus
    rw [parseNumber_unsigned minus] at read
    rcases wholeTail_strict read with ⟨first, rest, rfl, digit, suffix⟩
    exact ⟨first, rest, rfl, .inr digit, suffix⟩

end Json

end Foundation
