import Promfetcher.Api.Render
import Promfetcher.Fetchers.Attribution
import Promfetcher.Foundation.Fallible
import Promfetcher.Foundation.Decimal

/-!
# The tokens of an exposition

The byte classes and the token functions of the parser in the vendored package
`expfmt`, with the numbers and signatures that it computes of tokens. Of an error
it is kept what it complains of, without the texts that it quotes.

A token never reaches over the end of a line: what a token function reads is free
of newlines up to the byte it stops at.
-/

namespace Promfetcher

open Foundation

namespace Float64

/-- The exponent has all its bits, and the fraction has some. -/
def isNaN (number : Float64) : Bool :=
  number.bits &&& 0x7FF0000000000000 == 0x7FF0000000000000 &&
    number.bits &&& 0x000FFFFFFFFFFFFF != 0

/-- `math.NaN`. -/
def nan : Float64 :=
  ⟨0x7FF8000000000001⟩

/-- The zero without a sign. -/
def zero : Float64 :=
  ⟨0⟩

/-- A number that `writeFloat` writes as a fixed text. -/
def minusOne : Float64 :=
  ⟨0xBFF0000000000000⟩

/-- `math.Inf(-1)`. -/
def minusInfinity : Float64 :=
  ⟨0xFFF0000000000000⟩

/-- A number that is neither infinite nor none at all. -/
def isFinite (number : Float64) : Bool :=
  !number.isNaN && number != .infinity && number != .minusInfinity

/-- `<` with zero on its right. -/
def isNegative (number : Float64) : Bool :=
  number.bits &&& 0x8000000000000000 != 0 && !number.isNaN && !number.isZero

/-- `==`. -/
def equals (number other : Float64) : Bool :=
  !number.isNaN && !other.isNaN && (number == other || number.isZero && other.isZero)

end Float64

/-- What the model leaves open of the package `strconv`, and of Go's numbers and strings. -/
class Strconv where
  /-- `strconv.ParseFloat`, for 64 bits. -/
  parseFloat : GoString → Option Float64
  /-- `strconv.AppendFloat`, in the format `'g'` with the smallest precision that is exact. -/
  formatFloat : Float64 → GoString
  parseFloat_formatFloat : ∀ number : Float64, number.isFinite →
    parseFloat (formatFloat number) = some number
  formatFloat_plain : ∀ number : Float64, number.isFinite →
    formatFloat number ≠ [] ∧ ∀ byte ∈ formatFloat number, (text "+-.0123456789e").contains byte
  parseFloat_zero : parseFloat (text "0") = some .zero
  parseFloat_one : parseFloat (text "1") = some .one
  parseFloat_minusOne : parseFloat (text "-1") = some .minusOne
  parseFloat_nan : parseFloat (text "NaN") = some .nan
  parseFloat_infinity : parseFloat (text "+Inf") = some .infinity
  parseFloat_minusInfinity : parseFloat (text "-Inf") = some .minusInfinity
  /-- `uint64(value)`. -/
  uint64 : Float64 → UInt64
  /-- `float64(value)`. -/
  float64 : UInt64 → Float64
  float64_zero : float64 0 = .zero
  isFinite_float64 : ∀ number, (float64 number).isFinite
  float64_unsigned : ∀ number, (float64 number).bits &&& 0x8000000000000000 = 0
  /-- The integers up to this bound have exact representations. -/
  uint64_float64 : ∀ number ≤ 9007199254740992, uint64 (float64 number) = number
  /-- `strings.ToUpper`. -/
  toUpper : GoString → GoString
  toUpper_ascii : ∀ string : GoString, (∀ byte ∈ string, byte < 0x80) →
    toUpper string = string.map upperByte

namespace Strconv

/-- Agrees with Go on `0`, `1`, `-1` and the numbers that are not finite. -/
def sampleParse (string : GoString) : Option Float64 :=
  if string = text "0" then some .zero
  else if string = text "1" then some .one
  else if string = text "-1" then some .minusOne
  else if string = text "NaN" then some .nan
  else if string = text "+Inf" then some .infinity
  else if string = text "-Inf" then some .minusInfinity
  else (readDecimal (string.drop 1)).map fun bits => ⟨UInt64.ofNat bits⟩

/-- A number in the sample format: its bits in decimal behind a letter. -/
def sampleFormat (number : Float64) : GoString :=
  0x65 :: decimal number.bits.toNat

theorem sampleParse_sampleFormat (number : Float64) :
    sampleParse (sampleFormat number) = some number := by
  have other (literal : GoString) (first : literal.head? ≠ some 0x65) :
      sampleFormat number ≠ literal := by
    rintro rfl
    exact first rfl
  unfold sampleParse
  rw [if_neg (other _ (by decide)), if_neg (other _ (by decide)), if_neg (other _ (by decide)),
    if_neg (other _ (by decide)), if_neg (other _ (by decide)), if_neg (other _ (by decide))]
  simp [sampleFormat, readDecimal_decimal]

theorem land_two_pow_of_lt {number index : ℕ} (small : number < 2 ^ index) :
    number &&& 2 ^ index = 0 := by
  apply Nat.eq_of_testBit_eq
  intro other
  rw [Nat.testBit_and, Nat.testBit_two_pow, Nat.zero_testBit]
  by_cases same : index = other
  · rw [← same, Nat.testBit_lt_two_pow small]
    rfl
  · simp [same]

/-- Agrees with Go on `0` and `1`. -/
def sampleFloat64 (number : UInt64) : Float64 :=
  if number = 1 then .one else if number ≤ 9007199254740992 then ⟨number⟩ else .zero

/-- Conversions that can be computed: a number is written as its bits. -/
@[reducible] def sample : Strconv where
  parseFloat := sampleParse
  formatFloat := sampleFormat
  parseFloat_formatFloat number _ := sampleParse_sampleFormat number
  formatFloat_plain number _ := by
    refine ⟨List.cons_ne_nil _ _, fun byte byteMem => ?_⟩
    rcases List.mem_cons.mp byteMem with rfl | byteMem
    · decide
    · have every : ∀ number < 256, isDecimal (UInt8.ofNat number) = true →
          (text "+-.0123456789e").contains (UInt8.ofNat number) = true := by decide +kernel
      simpa using every byte.toNat byte.toNat_lt (by simpa using isDecimal_of_mem_decimal byteMem)
  parseFloat_zero := rfl
  parseFloat_one := rfl
  parseFloat_minusOne := rfl
  parseFloat_nan := rfl
  parseFloat_infinity := rfl
  parseFloat_minusInfinity := rfl
  uint64 number := if number = .one then 1 else number.bits
  float64 := sampleFloat64
  float64_zero := rfl
  isFinite_float64 number := by
    unfold sampleFloat64
    split_ifs with isOne small
    · decide
    · have bounded := UInt64.le_iff_toNat_le.mp small
      have notNaN : Float64.isNaN ⟨number⟩ = false := by
        unfold Float64.isNaN
        rw [Bool.and_eq_false_iff]
        left
        rw [beq_eq_false_iff_ne]
        intro same
        have exponent := congrArg UInt64.toNat same
        rw [UInt64.toNat_and] at exponent
        exact absurd (le_trans (exponent ▸ Nat.and_le_left) bounded) (by decide)
      have notInfinite (infinite : Float64) (large : 9007199254740992 < infinite.bits.toNat) :
          (⟨number⟩ : Float64) ≠ infinite := by
        rintro rfl
        exact absurd bounded (not_le.mpr large)
      simp [Float64.isFinite, notNaN, notInfinite .infinity (by decide),
        notInfinite .minusInfinity (by decide)]
    · decide
  float64_unsigned number := by
    unfold sampleFloat64
    split_ifs with isOne small
    · decide
    · have bounded := UInt64.le_iff_toNat_le.mp small
      have smaller : number.toNat < 2 ^ 63 := lt_of_le_of_lt bounded (by decide)
      apply UInt64.toNat_inj.mp
      rw [UInt64.toNat_and]
      exact land_two_pow_of_lt smaller
    · decide
  uint64_float64 number small := by
    by_cases isOne : number = 1
    · rw [isOne]
      decide
    · have other : (⟨number⟩ : Float64) ≠ .one := by
        intro same
        have bits : number = Float64.one.bits := congrArg Float64.bits same
        rw [bits] at small
        exact absurd small (by decide)
      simp [sampleFloat64, isOne, small, other]
  toUpper := List.map upperByte
  toUpper_ascii _ _ := rfl

variable [Strconv]

theorem isNegative_float64 (number : UInt64) : (float64 number).isNegative = false := by
  rw [Float64.isNegative, float64_unsigned]
  rfl

theorem float64_eq_zero {number : UInt64} (zero : (float64 number).isZero = true) :
    float64 number = .zero := by
  have unsigned := float64_unsigned number
  rw [Float64.isZero, Bool.or_eq_true, beq_iff_eq, beq_iff_eq] at zero
  rcases zero with bits | bits
  · exact congrArg Float64.mk bits
  · rw [bits] at unsigned
    exact absurd unsigned (by decide)

end Strconv

namespace Expfmt

/-- The byte that ends a line. -/
def newline : UInt8 := 0x0A

/-- The byte `"`. -/
def quote : UInt8 := 0x22

/-- The byte `,`. -/
def comma : UInt8 := 0x2C

/-- The byte with which an escape starts. -/
def backslash : UInt8 := 0x5C

/-- The byte in front of labels. -/
def openBrace : UInt8 := 0x7B

/-- The byte behind labels. -/
def closeBrace : UInt8 := 0x7D

/-- `isBlankOrTab`: the bytes that may stand between tokens. -/
def isBlankOrTab (byte : UInt8) : Bool :=
  byte == 0x20 || byte == 0x09

/-- `isValidLabelNameStart`: a name may stand in quotes. -/
def isValidLabelNameStart (byte : UInt8) : Bool :=
  isLetter byte || byte == 0x5F || byte == quote

/-- `string(b)` of a byte encodes a rune, so that it is always valid. -/
def isValidLabelNameContinuation (byte : UInt8) (quoted : Bool) : Bool :=
  isValidLabelNameStart byte || isDecimal byte || quoted

/-- `isValidMetricNameStart`: the name of a metric may have colons. -/
def isValidMetricNameStart (byte : UInt8) : Bool :=
  isValidLabelNameStart byte || byte == colon

/-- `isValidMetricNameContinuation`: anything may follow in quotes. -/
def isValidMetricNameContinuation (byte : UInt8) (quoted : Bool) : Bool :=
  isValidLabelNameContinuation byte quoted || byte == colon

/-- The messages of a `ParseError`. -/
inductive ParseMsg where
  | unexpectedEnd
  | invalidNameInComment
  | invalidMetricName
  | invalidLabelName
  | reservedLabelName
  | duplicateLabelNames
  | expectedEquals
  | multipleMetricNames
  | unexpectedEndOfName
  | expectedQuote
  | invalidLabelValue
  | unexpectedEndOfValue
  | expectedFloat
  | expectedQuantile
  | expectedBucket
  | negativeCount
  | negativeBucket
  | expectedTimestamp
  | spuriousString
  | secondHelp
  | secondType
  | unknownType
  | invalidEscape
  | newlineInName
  | newlineInLabelValue
  deriving DecidableEq, Repr

/-- Why the parser stops before the end of its input. -/
inductive Stop where
  | parseError (msg : ParseMsg)
  | panic
  deriving DecidableEq, Repr

/-- Continues if the condition holds. -/
def ensure (condition : Bool) (msg : ParseMsg) : Except Stop Unit :=
  if condition then .ok () else .error (.parseError msg)

/-! ## Tokens -/

/-- `skipBlankTab`: the first byte that is neither a blank nor a tab, and what follows it. -/
def skipBlankTab : GoString → Except Stop (UInt8 × GoString)
  | [] => .error (.parseError .unexpectedEnd)
  | byte :: rest => if isBlankOrTab byte then skipBlankTab rest else .ok (byte, rest)

/-- `skipBlankTabIfCurrentBlankTab`: the current byte is kept if it is neither. -/
def skipBlankTabIfCurrentBlankTab (current : UInt8) (rest : GoString) :
    Except Stop (UInt8 × GoString) :=
  if isBlankOrTab current then skipBlankTab rest else .ok (current, rest)

/-- A token, the byte read after it, and what follows that. -/
abbrev Token := GoString × UInt8 × GoString

/-- A token with one more byte in front. -/
def Token.push (byte : UInt8) (token : Token) : Token :=
  (byte :: token.1, token.2)

/-- The functions below start with the byte read last, here the first one of what is unread. -/
def readTokenUntilWhitespace : GoString → Except Stop Token
  | [] => .error (.parseError .unexpectedEnd)
  | current :: rest =>
      if isBlankOrTab current || current == newline then .ok ([], current, rest)
      else (readTokenUntilWhitespace rest).map (Token.push current)

/-- The byte that an escape sequence stands for. -/
def unescape (byte : UInt8) : Except Stop UInt8 :=
  if byte = backslash then .ok backslash
  else if byte = 0x6E then .ok newline
  else if byte = quote then .ok quote
  else .error (.parseError .invalidEscape)

/-- The rest of a line. If no escape sequences are recognized, backslashes are dropped. -/
def readTokenUntilNewline (recognizeEscapeSequence escaped : Bool) :
    GoString → Except Stop Token
  | [] => .error (.parseError .unexpectedEnd)
  | current :: rest =>
      if recognizeEscapeSequence && escaped then do
        let unescaped ← unescape current
        let token ← readTokenUntilNewline recognizeEscapeSequence false rest
        return token.push unescaped
      else if current == newline then .ok ([], current, rest)
      else if current == backslash then readTokenUntilNewline recognizeEscapeSequence true rest
      else (readTokenUntilNewline recognizeEscapeSequence escaped rest).map (Token.push current)

/-- What a byte of a name adds to it, and whether the bytes behind it are quoted and escaped. -/
def nameByte (quoted escaped : Bool) (current : UInt8) : Except Stop (GoString × Bool × Bool) :=
  if escaped then (unescape current).map fun unescaped => ([unescaped], quoted, false)
  else if current == quote then .ok ([], !quoted, false)
  else if current == newline then .error (.parseError .newlineInName)
  else if current == backslash then .ok ([], quoted, true)
  else .ok ([current], quoted, false)

/-- The loop of `readTokenAsMetricName` and of `readTokenAsLabelName`. -/
def readName (continues : UInt8 → Bool → Bool) (stop : UInt8) (quoted escaped : Bool) :
    GoString → Except Stop Token
  | [] => .error (.parseError .unexpectedEnd)
  | current :: rest => do
      let (pushed, quotedNext, escapedNext) ← nameByte quoted escaped current
      match rest with
      | [] => .error (.parseError .unexpectedEnd)
      | byte :: behind =>
          -- behind the closing quote the name ends, whatever follows
          if quoted && !quotedNext || !continues byte quotedNext ||
              !quotedNext && byte == stop then
            return (pushed, byte, behind)
          else
            let (token, after) ← readName continues stop quotedNext escapedNext rest
            return (pushed ++ token, after)

/-- `readTokenAsMetricName`: the token is empty if no name can start here. -/
def readTokenAsMetricName : GoString → Except Stop Token
  | [] => .error (.parseError .unexpectedEnd)
  | current :: rest =>
      if isValidMetricNameStart current then
        readName isValidMetricNameContinuation 0x20 false false (current :: rest)
      else .ok ([], current, rest)

/-- `readTokenAsLabelName`: the token is empty if no name can start here. -/
def readTokenAsLabelName : GoString → Except Stop Token
  | [] => .error (.parseError .unexpectedEnd)
  | current :: rest =>
      if isValidLabelNameStart current then
        readName isValidLabelNameContinuation equalsSign false false (current :: rest)
      else .ok ([], current, rest)

/-- `readTokenAsLabelValue`: the value and what follows its closing quote. -/
def readTokenAsLabelValue (escaped : Bool) : GoString → Except Stop (GoString × GoString)
  | [] => .error (.parseError .unexpectedEnd)
  | byte :: rest =>
      if escaped then
        (unescape byte).bind fun unescaped =>
          (readTokenAsLabelValue false rest).map fun token => (unescaped :: token.1, token.2)
      else if byte == quote then .ok ([], rest)
      else if byte == newline then .error (.parseError .newlineInLabelValue)
      else if byte == backslash then readTokenAsLabelValue true rest
      else (readTokenAsLabelValue false rest).map fun token => (byte :: token.1, token.2)

/-- The rest of a comment. -/
def skipLine : GoString → Except Stop GoString
  | [] => .error (.parseError .unexpectedEnd)
  | byte :: rest => if byte == newline then .ok rest else skipLine rest

/-! ## What a token function reads -/

/-- The bytes are read up to one of them, and none before it ends the line. -/
def Reads (input : GoString) (byte : UInt8) (rest : GoString) : Prop :=
  ∃ consumed, newline ∉ consumed ∧ input = consumed ++ byte :: rest

theorem Reads.here (byte : UInt8) (rest : GoString) : Reads (byte :: rest) byte rest :=
  ⟨[], List.not_mem_nil, rfl⟩

theorem Reads.cons {first byte : UInt8} {input rest : GoString} (first_ne : first ≠ newline)
    (reads : Reads input byte rest) : Reads (first :: input) byte rest := by
  rcases reads with ⟨consumed, inside, rfl⟩
  refine ⟨first :: consumed, ?_, rfl⟩
  simpa [Ne.symm first_ne] using inside

theorem Reads.trans {input middle rest : GoString} {byte last : UInt8} (byte_ne : byte ≠ newline)
    (reads : Reads input byte middle) (more : Reads middle last rest) :
    Reads input last rest := by
  rcases reads with ⟨consumed, inside, rfl⟩
  rcases more with ⟨further, insideToo, rfl⟩
  refine ⟨consumed ++ byte :: further, ?_, by simp⟩
  simp only [List.mem_append, List.mem_cons, not_or]
  exact ⟨inside, Ne.symm byte_ne, insideToo⟩

/-- The byte at which one function stops is the one with which the next one starts. -/
theorem Reads.again {input middle rest : GoString} {byte last : UInt8}
    (reads : Reads input byte middle) (more : Reads (byte :: middle) last rest) :
    Reads input last rest := by
  rcases reads with ⟨consumed, inside, rfl⟩
  rcases more with ⟨further, insideToo, middleEq⟩
  refine ⟨consumed ++ further, ?_, by rw [middleEq, List.append_assoc]⟩
  exact List.not_mem_append inside insideToo

theorem Reads.length_lt {input rest : GoString} {byte : UInt8} (reads : Reads input byte rest) :
    rest.length < input.length := by
  rcases reads with ⟨consumed, _, rfl⟩
  rw [List.length_append, List.length_cons]
  omega

theorem isBlankOrTab_ne_newline {byte : UInt8} (blank : isBlankOrTab byte = true) :
    byte ≠ newline := by
  rintro rfl
  exact absurd blank (by decide)

/-- Token functions fail with errors of the input only. -/
def NoPanic (stop : Stop) : Prop :=
  stop ≠ .panic

theorem noPanic_parseError (msg : ParseMsg) : NoPanic (.parseError msg) := by
  intro same
  cases same

theorem meets_ensure (condition : Bool) (msg : ParseMsg) :
    Meets NoPanic (fun _ => condition = true) (ensure condition msg) := by
  unfold ensure
  split
  case isTrue holds => exact holds
  case isFalse => exact noPanic_parseError msg

theorem meets_skipBlankTab (input : GoString) :
    Meets NoPanic (fun token => Reads input token.1 token.2 ∧ isBlankOrTab token.1 = false)
      (skipBlankTab input) := by
  induction input with
  | nil => exact noPanic_parseError _
  | cons byte input inductionHypothesis =>
      rw [skipBlankTab]
      split
      case isTrue blank =>
          refine inductionHypothesis.weaken fun token read => ⟨?_, read.2⟩
          exact read.1.cons (isBlankOrTab_ne_newline blank)
      case isFalse notBlank => exact ⟨.here _ _, by simpa using notBlank⟩

theorem meets_skipBlankTabIfCurrentBlankTab (current : UInt8) (input : GoString) :
    Meets NoPanic (fun token => Reads (current :: input) token.1 token.2)
      (skipBlankTabIfCurrentBlankTab current input) := by
  unfold skipBlankTabIfCurrentBlankTab
  split
  case isTrue blank =>
      exact (meets_skipBlankTab input).weaken fun token read =>
        read.1.cons (isBlankOrTab_ne_newline blank)
  case isFalse => exact Reads.here _ _

theorem meets_readTokenUntilWhitespace (input : GoString) :
    Meets NoPanic (fun token => Reads input token.2.1 token.2.2)
      (readTokenUntilWhitespace input) := by
  induction input with
  | nil => exact noPanic_parseError _
  | cons byte input inductionHypothesis =>
      rw [readTokenUntilWhitespace]
      split
      case isTrue => exact Reads.here _ _
      case isFalse inside =>
          have byte_ne : byte ≠ newline := by
            rintro rfl
            exact inside (by simp)
          exact inductionHypothesis.map fun token reads => reads.cons byte_ne

theorem meets_unescape (byte : UInt8) :
    Meets NoPanic (fun _ => byte ≠ newline) (unescape byte) := by
  have escape_ne {escape : UInt8} (other : escape ≠ newline) (same : byte = escape) :
      byte ≠ newline := same ▸ other
  unfold unescape
  split_ifs with isBackslash isLineFeed isQuote
  · exact escape_ne (by decide) isBackslash
  · exact escape_ne (by decide) isLineFeed
  · exact escape_ne (by decide) isQuote
  · exact noPanic_parseError _

theorem meets_readTokenUntilNewline (recognize escaped : Bool) (input : GoString) :
    Meets NoPanic (fun token => Reads input newline token.2.2 ∧ token.2.1 = newline)
      (readTokenUntilNewline recognize escaped input) := by
  induction input generalizing escaped with
  | nil => exact noPanic_parseError _
  | cons byte input inductionHypothesis =>
      rw [readTokenUntilNewline]
      split
      case isTrue =>
          refine (meets_unescape byte).bind fun unescaped byte_ne => ?_
          refine (inductionHypothesis false).bind fun token read => ?_
          exact ⟨read.1.cons byte_ne, read.2⟩
      case isFalse =>
          split
          case isTrue isNewline =>
              have ends : byte = newline := eq_of_beq isNewline
              exact ⟨ends ▸ .here _ _, ends⟩
          case isFalse notNewline =>
              have byte_ne : byte ≠ newline := by simpa using notNewline
              split
              case isTrue =>
                  exact (inductionHypothesis true).weaken fun token read =>
                    ⟨read.1.cons byte_ne, read.2⟩
              case isFalse =>
                  exact (inductionHypothesis escaped).map fun token read =>
                    ⟨read.1.cons byte_ne, read.2⟩

theorem meets_nameByte (quoted escaped : Bool) (byte : UInt8) :
    Meets NoPanic (fun _ => byte ≠ newline) (nameByte quoted escaped byte) := by
  unfold nameByte
  split_ifs with isEscaped isQuote isNewline isBackslash
  · exact (meets_unescape byte).map fun _ => id
  · intro same
    rw [same] at isQuote
    exact absurd isQuote (by decide)
  · exact noPanic_parseError _
  · intro same
    exact isNewline (by simp [same])
  · intro same
    exact isNewline (by simp [same])

/-- A name takes up at least the byte it starts with. -/
theorem meets_readName (continues : UInt8 → Bool → Bool) (stop : UInt8) (quoted escaped : Bool)
    (first : UInt8) (input : GoString) :
    Meets NoPanic (fun token => first ≠ newline ∧ Reads input token.2.1 token.2.2)
      (readName continues stop quoted escaped (first :: input)) := by
  induction input generalizing first quoted escaped with
  | nil =>
      rw [readName]
      exact (meets_nameByte quoted escaped first).bind fun _ _ => noPanic_parseError _
  | cons byte input inductionHypothesis =>
      rw [readName]
      refine (meets_nameByte quoted escaped first).bind fun pushed first_ne => ?_
      dsimp only
      split
      · exact ⟨first_ne, .here _ _⟩
      · exact (inductionHypothesis _ _ byte).bind fun token read =>
          ⟨first_ne, read.2.cons read.1⟩

/-- Unless nothing is read, the byte that starts a name is read too. -/
theorem meets_readTokenAsMetricName (first : UInt8) (input : GoString) :
    Meets NoPanic
      (fun token => Reads (first :: input) token.2.1 token.2.2 ∧
        (token.1 ≠ [] → Reads input token.2.1 token.2.2))
      (readTokenAsMetricName (first :: input)) := by
  rw [readTokenAsMetricName]
  split
  case isTrue =>
      exact (meets_readName _ _ _ _ first input).weaken fun token read =>
        ⟨read.2.cons read.1, fun _ => read.2⟩
  case isFalse => exact ⟨.here _ _, fun nonempty => absurd rfl nonempty⟩

theorem meets_readTokenAsLabelName (first : UInt8) (input : GoString) :
    Meets NoPanic (fun token => Reads (first :: input) token.2.1 token.2.2)
      (readTokenAsLabelName (first :: input)) := by
  rw [readTokenAsLabelName]
  split
  case isTrue =>
      exact (meets_readName _ _ _ _ first input).weaken fun token read =>
        read.2.cons read.1
  case isFalse => exact Reads.here _ _

theorem meets_readTokenAsLabelValue (escaped : Bool) (input : GoString) :
    Meets NoPanic (fun token => Reads input quote token.2)
      (readTokenAsLabelValue escaped input) := by
  induction input generalizing escaped with
  | nil => exact noPanic_parseError _
  | cons byte input inductionHypothesis =>
      rw [readTokenAsLabelValue]
      split
      case isTrue =>
          refine (meets_unescape byte).bind fun unescaped byte_ne => ?_
          exact (inductionHypothesis false).map fun token reads => reads.cons byte_ne
      case isFalse =>
          split
          case isTrue isQuote =>
              rw [eq_of_beq isQuote]
              exact Reads.here _ _
          case isFalse =>
              split
              case isTrue => exact noPanic_parseError _
              case isFalse notNewline =>
                  have byte_ne : byte ≠ newline := by simpa using notNewline
                  split
                  · exact (inductionHypothesis true).weaken fun token reads =>
                      reads.cons byte_ne
                  · exact (inductionHypothesis false).map fun token reads => reads.cons byte_ne

theorem meets_skipLine (input : GoString) :
    Meets NoPanic (fun rest => Reads input newline rest) (skipLine input) := by
  induction input with
  | nil => exact noPanic_parseError _
  | cons byte input inductionHypothesis =>
      rw [skipLine]
      split
      case isTrue isNewline =>
          rw [eq_of_beq isNewline]
          exact Reads.here _ _
      case isFalse notNewline =>
          exact inductionHypothesis.weaken fun rest reads =>
            reads.cons (by simpa using notNewline)

/-! ## Numbers and signatures -/

section

variable [Strconv]

/-- `parseFloat`. -/
def parseFloat (string : GoString) : Option Float64 :=
  if string.any fun byte => (text "pP_").contains byte then none else Strconv.parseFloat string

end

/-- `hashAddByte`: one step of FNV-1a. -/
def hashAddByte (sum : UInt64) (byte : UInt8) : UInt64 :=
  (sum ^^^ byte.toUInt64) * 1099511628211

/-- `hashAdd`: the hash goes through the bytes of a string. -/
def hashAdd (sum : UInt64) (string : GoString) : UInt64 :=
  string.foldl hashAddByte sum

/-- `SeparatorByte`, which cannot occur in valid UTF-8. -/
def separatorByte : UInt8 := 0xFF

/-- The labels of a metric by name. -/
abbrev Labels := AList fun _ : GoString => GoString

/-- `model.LabelsToSignature`. -/
def labelsToSignature (labels : Labels) : UInt64 :=
  (labels.keys.insertionSort (· ≤ ·)).foldl (fun sum labelName =>
    hashAddByte (hashAdd (hashAddByte (hashAdd sum labelName) separatorByte)
      ((labels.lookup labelName).getD [])) separatorByte) 14695981039346656037

end Expfmt

end Promfetcher
