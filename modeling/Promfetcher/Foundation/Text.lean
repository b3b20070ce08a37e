import Mathlib.Data.List.Basic
import Mathlib.Data.UInt

/-!
# Go strings

A Go string is a sequence of bytes that need not be valid UTF-8. The functions
below are those of the packages `strings` and `unicode/utf8` that act on bytes
or on ASCII separators. `strings.ToLower` depends on the Unicode tables and
`append` on the allocator; both are left open in the class `GoRuntime`, whose
fields state what their documentation promises.
-/

namespace Foundation

/-- A Go string: its bytes. -/
abbrev GoString := List UInt8

/-- The bytes of a string literal of the source. -/
def text (literal : String) : GoString :=
  literal.toUTF8.data.toList

/-- The byte between the elements of a path. -/
def slash : UInt8 := 0x2F

/-- The byte in front of a query. -/
def questionMark : UInt8 := 0x3F

/-- The decimal digits that `%d` prints for a natural number. -/
def decimal (number : Nat) : GoString :=
  text (toString number)

/-- `strings.TrimSuffix`. -/
def trimSuffix (string suffix : GoString) : GoString :=
  if suffix.isSuffixOf string then string.take (string.length - suffix.length) else string

/-- `strings.HasPrefix`. -/
def hasPrefix (string pre : GoString) : Bool :=
  pre.isPrefixOf string

/-- `strings.Index` for a separator of one byte. -/
def indexByte (string : GoString) (byte : UInt8) : Option Nat :=
  string.findIdx? (· == byte)

theorem trimSuffix_append (string suffix : GoString) :
    trimSuffix (string ++ suffix) suffix = string := by
  rw [trimSuffix, if_pos (by simp)]
  simp

theorem trimSuffix_of_not_suffix {string suffix : GoString} (other : ¬suffix <:+ string) :
    trimSuffix string suffix = string := by
  rw [trimSuffix, if_neg]
  rwa [List.isSuffixOf_iff_suffix]

theorem trimSuffix_isPrefix (string suffix : GoString) : trimSuffix string suffix <+: string := by
  unfold trimSuffix
  split
  · exact List.take_prefix _ _
  · exact List.prefix_rfl

/-- The value of a hexadecimal digit. -/
def unhex (digit : UInt8) : Option UInt8 :=
  if 0x30 ≤ digit ∧ digit ≤ 0x39 then some (digit - 0x30)
  else if 0x61 ≤ digit ∧ digit ≤ 0x66 then some (digit - 0x61 + 10)
  else if 0x41 ≤ digit ∧ digit ≤ 0x46 then some (digit - 0x41 + 10)
  else none

/-- `url.PathUnescape`, which fails on a `%` without two hexadecimal digits. -/
def pathUnescape : GoString → Option GoString
  | [] => some []
  | byte :: rest =>
      if byte ≠ 0x25 then (pathUnescape rest).map (byte :: ·)
      else match rest with
        | high :: low :: rest => do
            let value := 16 * (← unhex high) + (← unhex low)
            return value :: (← pathUnescape rest)
        | _ => none

/-- The byte with which an escape starts. -/
def percent : UInt8 := 0x25

theorem pathUnescape_cons_of_ne {byte : UInt8} (plain : byte ≠ percent) (rest : GoString) :
    pathUnescape (byte :: rest) = (pathUnescape rest).map (byte :: ·) := by
  rw [pathUnescape.eq_def]
  exact if_pos plain

theorem pathUnescape_of_not_mem {string : GoString} (plain : percent ∉ string) :
    pathUnescape string = some string := by
  induction string with
  | nil => rfl
  | cons byte rest inductionHypothesis =>
      rw [List.mem_cons, not_or] at plain
      rw [pathUnescape_cons_of_ne (Ne.symm plain.1), inductionHypothesis plain.2]
      rfl

theorem pathUnescape_percent {high low : UInt8} (rest : GoString) :
    pathUnescape (percent :: high :: low :: rest) = (unhex high).bind fun first =>
      (unhex low).bind fun second =>
        (pathUnescape rest).map ((16 * first + second) :: ·) := by
  rw [pathUnescape.eq_def]
  simp only [percent, ne_eq, not_true_eq_false, if_false, Option.bind_eq_bind, Option.pure_def,
    Option.map_eq_bind]
  rfl

/-- An escape does not reach across a slash. -/
theorem pathUnescape_append_slash (string rest : GoString) :
    pathUnescape (string ++ slash :: rest) = (pathUnescape string).bind fun decoded =>
      (pathUnescape rest).map fun tail => decoded ++ slash :: tail := by
  have digit : unhex slash = none := by decide
  fun_induction pathUnescape string with
  | case1 => exact pathUnescape_cons_of_ne (by decide) rest
  | case2 byte string plain inductionHypothesis =>
      rw [List.cons_append, pathUnescape_cons_of_ne plain, inductionHypothesis]
      cases pathUnescape string <;> cases pathUnescape rest <;> rfl
  | case3 byte escape high low string inductionHypothesis =>
      have isPercent : byte = percent := not_not.mp escape
      subst isPercent
      rw [List.cons_append, List.cons_append, List.cons_append, pathUnescape_percent,
        inductionHypothesis]
      cases unhex high <;> cases unhex low <;> cases pathUnescape string <;>
        cases pathUnescape rest <;> rfl
  | case4 byte string escape short =>
      have isPercent : byte = percent := not_not.mp escape
      subst isPercent
      rcases string with _ | ⟨high, _ | ⟨low, others⟩⟩
      · rcases rest with _ | ⟨low, others⟩
        · rfl
        · change pathUnescape (percent :: slash :: low :: others) = _
          rw [pathUnescape_percent, digit]
          rfl
      · change pathUnescape (percent :: high :: slash :: rest) = _
        rw [pathUnescape_percent, digit]
        cases unhex high <;> rfl
      · exact absurd rfl (short high low others)

/-- Decoding shortens a string by two bytes for each escape. -/
theorem length_of_pathUnescape {string decoded : GoString}
    (decodes : pathUnescape string = some decoded) :
    decoded.length ≤ string.length ∧ (percent ∈ string → decoded.length < string.length) := by
  fun_induction pathUnescape string generalizing decoded with
  | case1 => simp_all
  | case2 byte rest plain inductionHypothesis =>
      rcases Option.map_eq_some_iff.mp decodes with ⟨tail, tailDecodes, rfl⟩
      have shorter := inductionHypothesis tailDecodes
      simp only [List.length_cons, List.mem_cons]
      refine ⟨by omega, ?_⟩
      rintro (rfl | inRest)
      · exact absurd rfl plain
      · have := shorter.2 inRest
        omega
  | case3 byte _ high low rest inductionHypothesis =>
      simp only [Option.bind_eq_bind, Option.bind_eq_some_iff, Option.pure_def,
        Option.some.injEq] at decodes
      rcases decodes with ⟨_, _, _, _, tail, tailDecodes, rfl⟩
      have shorter := (inductionHypothesis tailDecodes).1
      simp only [List.length_cons]
      omega
  | case4 => cases decodes

/-- A byte from `a` to `z` for a byte from `A` to `Z`. -/
def lowerByte (byte : UInt8) : UInt8 :=
  if 0x41 ≤ byte ∧ byte ≤ 0x5A then byte + 0x20 else byte

/-- A byte from `A` to `Z` for a byte from `a` to `z`. -/
def upperByte (byte : UInt8) : UInt8 :=
  if 0x61 ≤ byte ∧ byte ≤ 0x7A then byte - 0x20 else byte

/-- What may follow the first byte of a UTF-8 sequence: the number of bytes, and the bounds of
the first of them. -/
def sequenceTail (first : UInt8) : Option (Nat × UInt8 × UInt8) :=
  if 0xC2 ≤ first ∧ first ≤ 0xDF then some (1, 0x80, 0xBF)
  else if first = 0xE0 then some (2, 0xA0, 0xBF)
  else if first = 0xED then some (2, 0x80, 0x9F)
  else if 0xE1 ≤ first ∧ first ≤ 0xEF then some (2, 0x80, 0xBF)
  else if first = 0xF0 then some (3, 0x90, 0xBF)
  else if 0xF1 ≤ first ∧ first ≤ 0xF3 then some (3, 0x80, 0xBF)
  else if first = 0xF4 then some (3, 0x80, 0x8F)
  else none

/-- The width of the rune a string starts with, and zero where `utf8.DecodeRune` finds no valid
encoding. -/
def runeWidth : GoString → Nat
  | [] => 0
  | first :: rest =>
      if first < 0x80 then 1
      else match sequenceTail first with
        | none => 0
        | some (owed, low, high) =>
            match rest.take owed with
            | [] => 0
            | second :: others =>
                if low ≤ second ∧ second ≤ high ∧ others.length + 1 = owed ∧
                    others.all (fun byte => 0x80 ≤ byte ∧ byte ≤ 0xBF) then owed + 1
                else 0

/-- `utf8.ValidString`, on at most `fuel` runes. -/
def validRunes : Nat → GoString → Bool
  | _, [] => true
  | 0, _ :: _ => false
  | fuel + 1, string =>
      runeWidth string != 0 && validRunes fuel (string.drop (runeWidth string))

/-- `utf8.ValidString`. -/
def validString (string : GoString) : Bool :=
  validRunes string.length string

/-- The encodings of the runes that `unicode.IsSpace` accepts. -/
def spaceRunes : List GoString :=
  [[0x09], [0x0A], [0x0B], [0x0C], [0x0D], [0x20], [0xC2, 0x85], [0xC2, 0xA0],
    [0xE1, 0x9A, 0x80], [0xE2, 0x80, 0x80], [0xE2, 0x80, 0x81], [0xE2, 0x80, 0x82],
    [0xE2, 0x80, 0x83], [0xE2, 0x80, 0x84], [0xE2, 0x80, 0x85], [0xE2, 0x80, 0x86],
    [0xE2, 0x80, 0x87], [0xE2, 0x80, 0x88], [0xE2, 0x80, 0x89], [0xE2, 0x80, 0x8A],
    [0xE2, 0x80, 0xA8], [0xE2, 0x80, 0xA9], [0xE2, 0x80, 0xAF], [0xE2, 0x81, 0x9F],
    [0xE3, 0x80, 0x80]]

/-- Removes runes of a set from the start, at most `fuel` of them. -/
def dropRunes (runes : List GoString) : Nat → GoString → GoString
  | 0, string => string
  | fuel + 1, string =>
      match runes.find? (hasPrefix string) with
      | some rune => dropRunes runes fuel (string.drop rune.length)
      | none => string

/-- `strings.TrimSpace`. -/
def trimSpace (string : GoString) : GoString :=
  let string := dropRunes spaceRunes string.length string
  (dropRunes (spaceRunes.map List.reverse) string.length string.reverse).reverse

/-- What the model leaves open of Go's library and run time. -/
class GoRuntime where
  /-- `strings.ToLower`. -/
  toLower : GoString → GoString
  toLower_toLower : ∀ string, toLower (toLower string) = toLower string
  /-- The mapping goes rune by rune and keeps `/` and `?`. -/
  toLower_append_cons : ∀ string rest separator, separator = slash ∨ separator = questionMark →
    toLower (string ++ separator :: rest) = toLower string ++ separator :: toLower rest
  mem_toLower : ∀ string separator, separator = slash ∨ separator = questionMark →
    (separator ∈ toLower string ↔ separator ∈ string)
  toLower_ascii : ∀ string : GoString, (∀ byte ∈ string, byte < 0x80) →
    toLower string = string.map lowerByte
  /-- The capacity that `append` gives to the array it allocates for a slice with no room. -/
  growth : Nat → Nat
  growth_sufficient : ∀ length, length < growth length

theorem lowerByte_lowerByte (byte : UInt8) : lowerByte (lowerByte byte) = lowerByte byte := by
  have every : ∀ number < 256, lowerByte (lowerByte (UInt8.ofNat number)) =
      lowerByte (UInt8.ofNat number) := by decide +kernel
  simpa using every byte.toNat byte.toNat_lt

theorem lowerByte_eq_separator {byte separator : UInt8}
    (separates : separator = slash ∨ separator = questionMark) :
    lowerByte byte = separator ↔ byte = separator := by
  have every : ∀ number < 256,
      (lowerByte (UInt8.ofNat number) = slash ↔ UInt8.ofNat number = slash) ∧
      (lowerByte (UInt8.ofNat number) = questionMark ↔
        UInt8.ofNat number = questionMark) := by decide +kernel
  have this := every byte.toNat byte.toNat_lt
  rcases separates with rfl | rfl
  · simpa using this.1
  · simpa using this.2

/-- A runtime that agrees with Go on ASCII strings, and whose arrays double. -/
@[reducible] def GoRuntime.ascii : GoRuntime where
  toLower := List.map lowerByte
  toLower_toLower string := by simp [lowerByte_lowerByte]
  toLower_append_cons string rest separator separates := by
    simp [(lowerByte_eq_separator separates).mpr rfl]
  mem_toLower string separator separates := by
    simp [lowerByte_eq_separator separates]
  toLower_ascii _ _ := rfl
  growth length := max 1 (2 * length)
  growth_sufficient length := by omega

/-- A string ends with at most one of two literals of which none ends with the other. -/
theorem isSuffixOf_append_eq_false {ending suffix : GoString}
    (other : (ending.isSuffixOf suffix || suffix.isSuffixOf ending) = false) (name : GoString) :
    ending.isSuffixOf (name ++ suffix) = false := by
  rw [Bool.or_eq_false_iff, ← Bool.not_eq_true, ← Bool.not_eq_true,
    List.isSuffixOf_iff_suffix, List.isSuffixOf_iff_suffix] at other
  rw [← Bool.not_eq_true, List.isSuffixOf_iff_suffix]
  intro isEnding
  rcases List.suffix_or_suffix_of_suffix isEnding (List.suffix_append name suffix) with
    inside | inside
  · exact other.1 inside
  · exact other.2 inside

end Foundation
