import Promfetcher.Foundation.Url
import Promfetcher.Foundation.Query
import Promfetcher.Foundation.Utf8

/-!
# Decimal integers

`strconv.ParseInt` and `strconv.AppendInt`, in base 10 and for 64 bits.
-/

namespace Foundation

/-- The number with one more digit behind it. -/
def readDigit (number : Nat) (digit : UInt8) : Option Nat :=
  if isDecimal digit then some (10 * number + (digit - 0x30).toNat) else none

/-- The number that a nonempty sequence of digits stands for. -/
def readDecimal (digits : GoString) : Option Nat :=
  if digits.isEmpty then none else digits.foldlM readDigit 0

/-- The byte in front of a negative number. -/
def minusSign : UInt8 := 0x2D

/-- `strconv.ParseInt`. -/
def parseInt : GoString → Option Int
  | [] => none
  | sign :: digits =>
      if sign == minusSign then
        (readDecimal digits).bind fun number => if number ≤ 2 ^ 63 then some (-number) else none
      else
        (readDecimal (if sign == plusSign then digits else sign :: digits)).bind fun number =>
          if number < 2 ^ 63 then some number else none

/-- `strconv.AppendInt`. -/
def formatInt (number : Int) : GoString :=
  if number < 0 then minusSign :: decimal number.natAbs else decimal number.natAbs

/-! ## Digits -/

theorem decimal_eq (number : Nat) :
    decimal number = (Nat.toDigits 10 number).flatMap String.utf8EncodeChar := by
  rw [decimal, text_eq, Nat.toString_eq_ofList_toDigits, String.toList_ofList]

/-- The byte of a digit. -/
def digitByte (digit : Nat) : UInt8 :=
  0x30 + UInt8.ofNat digit

theorem utf8EncodeChar_digitChar {digit : Nat} (small : digit < 10) :
    String.utf8EncodeChar digit.digitChar = [digitByte digit] := by
  have every : ∀ digit < 10, String.utf8EncodeChar digit.digitChar = [digitByte digit] := by decide
  exact every digit small

theorem decimal_of_lt {number : Nat} (small : number < 10) :
    decimal number = [digitByte number] := by
  rw [decimal_eq, Nat.toDigits_of_lt_base small, List.flatMap_singleton,
    utf8EncodeChar_digitChar small]

theorem decimal_of_le {number : Nat} (large : 10 ≤ number) :
    decimal number = decimal (number / 10) ++ [digitByte (number % 10)] := by
  rw [decimal_eq, decimal_eq, Nat.toDigits_of_base_le (by decide) large, List.flatMap_append,
    List.flatMap_singleton, utf8EncodeChar_digitChar (Nat.mod_lt _ (by decide))]

theorem readDigit_digitByte {digit : Nat} (small : digit < 10) (number : Nat) :
    readDigit number (digitByte digit) = some (10 * number + digit) := by
  have every : ∀ digit < 10, isDecimal (digitByte digit) = true ∧
      (digitByte digit - 0x30).toNat = digit := by decide
  rw [readDigit, if_pos (every digit small).1, (every digit small).2]

theorem foldlM_readDigit_decimal (number : Nat) :
    (decimal number).foldlM readDigit 0 = some number := by
  induction number using Nat.strongRecOn with
  | ind number inductionHypothesis =>
      rcases Nat.lt_or_ge number 10 with small | large
      · rw [decimal_of_lt small, List.foldlM_cons, readDigit_digitByte small]
        simp
      · have smaller : number / 10 < number := Nat.div_lt_self (by omega) (by decide)
        rw [decimal_of_le large, List.foldlM_append, inductionHypothesis _ smaller,
          Option.bind_eq_bind, Option.bind_some, List.foldlM_cons,
          readDigit_digitByte (Nat.mod_lt _ (by decide))]
        simp [Nat.div_add_mod]

theorem decimal_ne_nil (number : Nat) : decimal number ≠ [] := by
  rcases Nat.lt_or_ge number 10 with small | large
  · rw [decimal_of_lt small]
    exact List.cons_ne_nil _ _
  · rw [decimal_of_le large]
    simp

theorem isDecimal_of_mem_decimal {number : Nat} {byte : UInt8} (byteMem : byte ∈ decimal number) :
    isDecimal byte = true := by
  have every : ∀ digit < 10, isDecimal (digitByte digit) = true := by decide
  induction number using Nat.strongRecOn with
  | ind number inductionHypothesis =>
      rcases Nat.lt_or_ge number 10 with small | large
      · rw [decimal_of_lt small, List.mem_singleton] at byteMem
        exact byteMem ▸ every number small
      · have smaller : number / 10 < number := Nat.div_lt_self (by omega) (by decide)
        rw [decimal_of_le large, List.mem_append, List.mem_singleton] at byteMem
        rcases byteMem with byteMem | rfl
        · exact inductionHypothesis _ smaller byteMem
        · exact every _ (Nat.mod_lt _ (by decide))

theorem readDecimal_decimal (number : Nat) : readDecimal (decimal number) = some number := by
  rw [readDecimal, if_neg (by simpa using decimal_ne_nil number), foldlM_readDigit_decimal]

/-! ## Integers -/

theorem bounds_of_parseInt {digits : GoString} {number : Int}
    (reads : parseInt digits = some number) : -2 ^ 63 ≤ number ∧ number < 2 ^ 63 := by
  cases digits with
  | nil => cases reads
  | cons sign digits =>
      rw [parseInt] at reads
      split at reads <;>
        · rw [Option.bind_eq_some_iff] at reads
          rcases reads with ⟨absolute, _, reads⟩
          rw [Option.ite_none_right_eq_some, Option.some.injEq] at reads
          omega

theorem parseInt_formatInt {number : Int} (low : -2 ^ 63 ≤ number) (high : number < 2 ^ 63) :
    parseInt (formatInt number) = some number := by
  unfold formatInt
  split_ifs with negative
  · rw [parseInt, if_pos (by decide), readDecimal_decimal, Option.bind_some, if_pos (by omega)]
    congr 1
    omega
  · cases digits : decimal number.natAbs with
    | nil => exact absurd digits (decimal_ne_nil _)
    | cons first rest =>
        have isDigit : isDecimal first = true :=
          isDecimal_of_mem_decimal (digits ▸ List.mem_cons_self)
        have notMinus : first ≠ minusSign := by
          rintro rfl
          exact absurd isDigit (by decide)
        have notPlus : first ≠ plusSign := by
          rintro rfl
          exact absurd isDigit (by decide)
        rw [parseInt, if_neg (by simpa using notMinus), if_neg (by simpa using notPlus), ← digits,
          readDecimal_decimal, Option.bind_some, if_pos (by omega)]
        congr 1
        omega

theorem mem_formatInt {number : Int} {byte : UInt8} (byteMem : byte ∈ formatInt number) :
    byte = minusSign ∨ isDecimal byte = true := by
  unfold formatInt at byteMem
  split_ifs at byteMem
  · rcases List.mem_cons.mp byteMem with rfl | byteMem
    · exact Or.inl rfl
    · exact Or.inr (isDecimal_of_mem_decimal byteMem)
  · exact Or.inr (isDecimal_of_mem_decimal byteMem)

end Foundation
