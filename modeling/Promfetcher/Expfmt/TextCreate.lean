import Promfetcher.Expfmt.Tokens

/-!
# The bytes of an exposition

What the vendored package `expfmt` writes for a line: names, escaped strings and
numbers. The lines themselves are those of `metricFamilyToText`. What is written as
a token is read back as the same token.
-/

namespace Promfetcher

open Foundation

namespace Expfmt

/-! ## Names and strings -/

/-- `isValidLegacyRune`, for a rune that is not the first one. -/
def isLegacyByte (byte : UInt8) : Bool :=
  isLetter byte || byte == 0x5F || byte == colon || isDecimal byte

/-- `LegacyValidation.IsValidMetricName`. -/
def isLegacyName : GoString → Bool
  | [] => false
  | first :: rest => isLegacyByte first && !isDecimal first && rest.all isLegacyByte

/-- The bytes that stand for a byte in an escaped string. -/
def escapeByte (includeDoubleQuote : Bool) (byte : UInt8) : GoString :=
  if byte = backslash then [backslash, backslash]
  else if byte = newline then [backslash, 0x6E]
  else if includeDoubleQuote && byte == quote then [backslash, quote]
  else [byte]

/-- `writeEscapedString`. -/
def escapedString (includeDoubleQuote : Bool) (string : GoString) : GoString :=
  string.flatMap (escapeByte includeDoubleQuote)

/-- A string in quotes, escaped. -/
def quoted (string : GoString) : GoString :=
  quote :: escapedString true string ++ [quote]

/-- `writeName`. -/
def writeName (name : GoString) : GoString :=
  if isLegacyName name then name else quoted name

/-! ## Numbers -/

section

variable [Strconv]

/-- `writeFloat`. -/
def writeFloat (number : Float64) : GoString :=
  if number = .one then text "1"
  else if number.isZero then text "0"
  else if number = .minusOne then text "-1"
  else if number.isNaN then text "NaN"
  else if number = .infinity then text "+Inf"
  else if number = .minusInfinity then text "-Inf"
  else Strconv.formatFloat number

/-- The number that is written. -/
def numberValue : Number → Float64
  | .float value => value
  | .count value => Strconv.float64 value

/-! ## Lines -/

/-- One label, with its value in quotes. -/
def writeLabel (name value : GoString) : GoString :=
  writeName name ++ text "=" ++ [quote] ++ escapedString true value ++ [quote]

/-- The additional label, whose name is written as it is. -/
def writeAdditionalLabel (label : GoString × Float64) : GoString :=
  label.1 ++ text "=" ++ [quote] ++ writeFloat label.2 ++ [quote]

/-- `writeNameAndLabelPairs`. -/
def writeNameAndLabelPairs (name : GoString) (labels : List LabelPair)
    (additionalLabel : Option (GoString × Float64)) : GoString :=
  let metricInsideBraces := name ≠ [] && !isLegacyName name
  let written :=
    if name = [] then []
    else if metricInsideBraces then openBrace :: writeName name
    else writeName name
  let pairs := labels.map (fun label => writeLabel (label.name.getD []) (label.value.getD [])) ++
    (additionalLabel.map writeAdditionalLabel).toList
  if pairs = [] then written ++ (if metricInsideBraces then [closeBrace] else [])
  else
    written ++ [if metricInsideBraces then comma else openBrace] ++ [comma].intercalate pairs ++
      [closeBrace]

/-- `writeSample`. -/
def writeSample (sample : Sample) : GoString :=
  writeNameAndLabelPairs (sample.name ++ sample.suffix) sample.metric.label
      sample.additionalLabel ++
    text " " ++ writeFloat (numberValue sample.value) ++
    (match sample.metric.timestampMs with
      | none => []
      | some timestampMs => text " " ++ formatInt timestampMs) ++
    [newline]

/-- The text of a line. -/
def writeLine : Line → GoString
  | .help name help =>
      text "# HELP " ++ writeName name ++ text " " ++ escapedString false help ++ [newline]
  | .type name word => text "# TYPE " ++ writeName name ++ text " " ++ word ++ [newline]
  | .sample sample => writeSample sample
  | .blank => [newline]

/-- The bytes of the body of a response. -/
def writeLines (lines : List Line) : GoString :=
  lines.flatMap writeLine

end

/-! ## Reading tokens back -/

theorem isLegacyByte_iff {byte : UInt8} (legacy : isLegacyByte byte = true) :
    isValidMetricNameContinuation byte false = true ∧ byte ≠ quote ∧ byte ≠ newline ∧
      byte ≠ backslash ∧ byte ≠ 0x20 ∧ isBlankOrTab byte = false ∧ byte < 0x80 ∧
      byte ≠ openBrace ∧ byte ≠ hashSign := by
  have every : ∀ number < 256, isLegacyByte (UInt8.ofNat number) = true →
      isValidMetricNameContinuation (UInt8.ofNat number) false = true ∧
        UInt8.ofNat number ≠ quote ∧ UInt8.ofNat number ≠ newline ∧
        UInt8.ofNat number ≠ backslash ∧ UInt8.ofNat number ≠ 0x20 ∧
        isBlankOrTab (UInt8.ofNat number) = false ∧ UInt8.ofNat number < 0x80 ∧
        UInt8.ofNat number ≠ openBrace ∧ UInt8.ofNat number ≠ hashSign := by decide +kernel
  simpa using every byte.toNat byte.toNat_lt (by simpa using legacy)

/-- An unquoted name is read up to the first byte that is none of a name. -/
theorem readName_unquoted {continues : UInt8 → Bool → Bool} {stop : UInt8} {name : GoString}
    (name_ne_nil : name ≠ [])
    (plain : ∀ byte ∈ name, continues byte false = true ∧ byte ≠ stop ∧ byte ≠ quote ∧
      byte ≠ newline ∧ byte ≠ backslash)
    {byte : UInt8} (ends : continues byte false = false ∨ byte = stop) (rest : GoString) :
    readName continues stop false false (name ++ byte :: rest) = .ok (name, byte, rest) := by
  induction name with
  | nil => exact absurd rfl name_ne_nil
  | cons first name inductionHypothesis =>
      rw [List.forall_mem_cons] at plain
      rcases plain with ⟨⟨_, _, not_quote, not_newline, not_backslash⟩, plain⟩
      have pushed : nameByte false false first = .ok ([first], false, false) := by
        simp [nameByte, not_quote, not_newline, not_backslash]
      cases name with
      | nil =>
          have stops : (!continues byte false || byte == stop) = true := by
            rcases ends with ends | ends <;> simp [ends]
          simp [readName, pushed, stops, bind, Except.bind, pure, Except.pure]
      | cons second name =>
          have isPlain := plain second List.mem_cons_self
          have read := inductionHypothesis (List.cons_ne_nil _ _) plain
          rw [List.cons_append] at read ⊢
          rw [readName, pushed, List.cons_append]
          simp [isPlain.1, isPlain.2.1, read, bind, Except.bind, pure, Except.pure]

/-- A byte of a name, if the name is quoted behind it. -/
theorem readName_push {continues : UInt8 → Bool → Bool} {stop current : UInt8}
    {isQuoted escaped escapedNext : Bool} {pushed rest : GoString} {token : Token}
    (allowed : ∀ byte, continues byte true = true)
    (pushes : nameByte isQuoted escaped current = .ok (pushed, true, escapedNext))
    (read : readName continues stop true escapedNext rest = .ok token) :
    readName continues stop isQuoted escaped (current :: rest) =
      .ok (pushed ++ token.1, token.2) := by
  cases rest with
  | nil => cases read
  | cons next rest =>
      rw [readName, pushes]
      simp [allowed, read, bind, Except.bind, pure, Except.pure]

/-- A byte of a string is written as it is, or behind a backslash. -/
theorem escapeByte_cases (includeDoubleQuote : Bool) (byte : UInt8) :
    (escapeByte includeDoubleQuote byte = [byte] ∧ byte ≠ backslash ∧ byte ≠ newline ∧
      (includeDoubleQuote = true → byte ≠ quote)) ∨
      ∃ mark, escapeByte includeDoubleQuote byte = [backslash, mark] ∧
        unescape mark = .ok byte := by
  unfold escapeByte
  split_ifs with isBackslash isNewline isQuote
  · exact Or.inr ⟨_, rfl, by rw [isBackslash]; decide⟩
  · exact Or.inr ⟨_, rfl, by rw [isNewline]; decide⟩
  · rw [Bool.and_eq_true, beq_iff_eq] at isQuote
    exact Or.inr ⟨_, rfl, by rw [isQuote.2]; decide⟩
  · refine Or.inl ⟨rfl, isBackslash, isNewline, ?_⟩
    rintro rfl rfl
    exact isQuote rfl

theorem readName_escaped {continues : UInt8 → Bool → Bool} {stop : UInt8}
    (allowed : ∀ byte, continues byte true = true) (name : GoString) (byte : UInt8)
    (rest : GoString) :
    readName continues stop true false (escapedString true name ++ quote :: byte :: rest) =
      .ok (name, byte, rest) := by
  induction name with
  | nil =>
      have closes : nameByte true false quote = .ok ([], false, false) := rfl
      simp [escapedString, readName, closes, bind, Except.bind, pure, Except.pure]
  | cons first name inductionHypothesis =>
      rw [escapedString, List.flatMap_cons, List.append_assoc]
      rcases escapeByte_cases true first with
        ⟨written, not_backslash, not_newline, not_quote⟩ | ⟨mark, written, unescapes⟩
      · rw [written]
        have pushes : nameByte true false first = .ok ([first], true, false) := by
          simp [nameByte, not_quote, not_newline, not_backslash]
        exact readName_push allowed pushes inductionHypothesis
      · rw [written]
        have marked : nameByte true true mark = .ok ([first], true, false) := by
          simp [nameByte, unescapes, Except.map]
        have escapes : nameByte true false backslash = .ok ([], true, true) := rfl
        exact readName_push allowed escapes (readName_push allowed marked inductionHypothesis)

theorem readName_quoted {continues : UInt8 → Bool → Bool} {stop : UInt8}
    (allowed : ∀ byte, continues byte true = true) (name : GoString) (byte : UInt8)
    (rest : GoString) :
    readName continues stop false false (quoted name ++ byte :: rest) = .ok (name, byte, rest) := by
  have opens : nameByte false false quote = .ok ([], true, false) := rfl
  have read := @readName_push _ stop _ _ _ _ _ _ _ allowed opens
    (readName_escaped allowed name byte rest)
  simpa [quoted] using read

/-- What ends a metric name. -/
theorem readTokenAsMetricName_writeName {name : GoString} {byte : UInt8}
    (ends : isLegacyName name = true →
      isValidMetricNameContinuation byte false = false ∨ byte = 0x20) (rest : GoString) :
    readTokenAsMetricName (writeName name ++ byte :: rest) = .ok (name, byte, rest) := by
  unfold writeName
  split
  case isTrue legacy =>
      cases name with
      | nil => cases legacy
      | cons first name =>
          have isEnd := ends legacy
          simp only [isLegacyName, Bool.and_eq_true, Bool.not_eq_true', List.all_eq_true] at legacy
          have start : isValidMetricNameStart first = true := by
            have continues := (isLegacyByte_iff legacy.1.1).1
            simpa [isValidMetricNameContinuation, isValidLabelNameContinuation,
              isValidMetricNameStart, legacy.1.2] using continues
          rw [List.cons_append, readTokenAsMetricName, if_pos start, ← List.cons_append]
          refine readName_unquoted (List.cons_ne_nil _ _) ?_ isEnd rest
          intro part partMem
          have isLegacy : isLegacyByte part = true := by
            rcases List.mem_cons.mp partMem with rfl | partMem
            · exact legacy.1.1
            · exact legacy.2 part partMem
          rcases isLegacyByte_iff isLegacy with ⟨continues, notQuote, notNewline, notBackslash,
            notBlank, _⟩
          exact ⟨continues, notBlank, notQuote, notNewline, notBackslash⟩
  case isFalse =>
      have start : isValidMetricNameStart quote = true := by decide
      rw [quoted, List.cons_append, List.cons_append, readTokenAsMetricName, if_pos start]
      exact readName_quoted (by simp [isValidMetricNameContinuation, isValidLabelNameContinuation])
        name byte rest

/-- A label name is not read back if it is written without quotes and has a colon. -/
theorem readTokenAsLabelName_writeName {name : GoString}
    (readable : isLegacyName name = true → colon ∉ name) (rest : GoString) :
    readTokenAsLabelName (writeName name ++ equalsSign :: rest) =
      .ok (name, equalsSign, rest) := by
  unfold writeName
  split
  case isTrue legacy =>
      cases name with
      | nil => cases legacy
      | cons first name =>
          have noColon := readable legacy
          simp only [isLegacyName, Bool.and_eq_true, Bool.not_eq_true', List.all_eq_true] at legacy
          have continues : ∀ part ∈ first :: name, isLegacyByte part = true ∧
              isValidLabelNameContinuation part false = true := by
            intro part partMem
            have isLegacy : isLegacyByte part = true := by
              rcases List.mem_cons.mp partMem with rfl | partMem
              · exact legacy.1.1
              · exact legacy.2 part partMem
            refine ⟨isLegacy, ?_⟩
            have continues := (isLegacyByte_iff isLegacy).1
            rw [isValidMetricNameContinuation, Bool.or_eq_true, beq_iff_eq] at continues
            rcases continues with continues | rfl
            · exact continues
            · exact absurd partMem noColon
          have start : isValidLabelNameStart first = true := by
            simpa [isValidLabelNameContinuation, legacy.1.2] using
              (continues first List.mem_cons_self).2
          rw [List.cons_append, readTokenAsLabelName, if_pos start, ← List.cons_append]
          refine readName_unquoted (List.cons_ne_nil _ _) ?_ (Or.inr rfl) rest
          intro part partMem
          rcases continues part partMem with ⟨isLegacy, isContinuation⟩
          rcases isLegacyByte_iff isLegacy with ⟨_, notQuote, notNewline, notBackslash, _⟩
          refine ⟨isContinuation, ?_, notQuote, notNewline, notBackslash⟩
          rintro rfl
          exact absurd isContinuation (by decide)
  case isFalse =>
      have start : isValidLabelNameStart quote = true := by decide
      rw [quoted, List.cons_append, List.cons_append, readTokenAsLabelName, if_pos start]
      exact readName_quoted (by simp [isValidLabelNameContinuation]) name equalsSign rest

theorem readTokenAsLabelValue_escapedString (value rest : GoString) :
    readTokenAsLabelValue false (escapedString true value ++ quote :: rest) =
      .ok (value, rest) := by
  induction value with
  | nil => simp [escapedString, readTokenAsLabelValue]
  | cons first value inductionHypothesis =>
      rw [escapedString, List.flatMap_cons, List.append_assoc]
      rw [escapedString] at inductionHypothesis
      rcases escapeByte_cases true first with
        ⟨written, not_backslash, not_newline, not_quote⟩ | ⟨mark, written, unescapes⟩
      · simp [written, readTokenAsLabelValue, not_quote, not_newline, not_backslash,
          inductionHypothesis, Except.map]
      · have notQuote : (backslash == quote) = false := by decide
        have notNewline : (backslash == newline) = false := by decide
        simp [written, readTokenAsLabelValue, notQuote, notNewline, unescapes,
          inductionHypothesis, Except.map, Except.bind]

theorem readTokenUntilNewline_escapedString (help rest : GoString) :
    readTokenUntilNewline true false (escapedString false help ++ newline :: rest) =
      .ok (help, newline, rest) := by
  induction help with
  | nil => simp [escapedString, readTokenUntilNewline]
  | cons first help inductionHypothesis =>
      rw [escapedString, List.flatMap_cons, List.append_assoc]
      rw [escapedString] at inductionHypothesis
      rcases escapeByte_cases false first with
        ⟨written, not_backslash, not_newline, _⟩ | ⟨mark, written, unescapes⟩
      · simp [written, readTokenUntilNewline, not_newline, not_backslash, inductionHypothesis,
          Except.map, Token.push]
      · have notNewline : (backslash == newline) = false := by decide
        simp [written, readTokenUntilNewline, notNewline, unescapes, inductionHypothesis,
          bind, Except.bind, pure, Except.pure, Token.push]

/-- A line that is not escaped. -/
theorem readTokenUntilNewline_plain {line : GoString}
    (plain : ∀ byte ∈ line, byte ≠ newline ∧ byte ≠ backslash) (rest : GoString) :
    readTokenUntilNewline false false (line ++ newline :: rest) = .ok (line, newline, rest) := by
  induction line with
  | nil => simp [readTokenUntilNewline]
  | cons first line inductionHypothesis =>
      rw [List.forall_mem_cons] at plain
      simp [readTokenUntilNewline, plain.1.1, plain.1.2, inductionHypothesis plain.2, Except.map,
        Token.push]

theorem readTokenUntilWhitespace_append {token : GoString}
    (plain : ∀ byte ∈ token, byte ≠ newline ∧ isBlankOrTab byte = false) {byte : UInt8}
    (ends : byte = newline ∨ byte = 0x20) (rest : GoString) :
    readTokenUntilWhitespace (token ++ byte :: rest) = .ok (token, byte, rest) := by
  induction token with
  | nil =>
      have stops : (isBlankOrTab byte || byte == newline) = true := by
        rcases ends with rfl | rfl <;> decide
      simp [readTokenUntilWhitespace, stops]
  | cons first token inductionHypothesis =>
      rw [List.forall_mem_cons] at plain
      simp [readTokenUntilWhitespace, plain.1.1, plain.1.2, inductionHypothesis plain.2,
        Except.map, Token.push]

theorem skipBlankTab_cons {byte : UInt8} (notBlank : isBlankOrTab byte = false)
    (rest : GoString) : skipBlankTab (byte :: rest) = .ok (byte, rest) := by
  rw [skipBlankTab, if_neg (by simp [notBlank])]

/-! ## Reading numbers back -/

/-- The sign of a zero and the payload of a number that is none are not written. -/
def rereadFloat (number : Float64) : Float64 :=
  if number.isZero then .zero else if number.isNaN then .nan else number

theorem isNegative_rereadFloat {number : Float64} (notNegative : number.isNegative = false) :
    (rereadFloat number).isNegative = false := by
  unfold rereadFloat
  split_ifs
  · decide
  · decide
  · exact notNegative

theorem isNaN_rereadFloat (number : Float64) : (rereadFloat number).isNaN = number.isNaN := by
  unfold rereadFloat
  split_ifs with isZero isNaN
  · rcases number with ⟨bits⟩
    rw [Float64.isZero, Bool.or_eq_true, beq_iff_eq, beq_iff_eq] at isZero
    rcases isZero with isZero | isZero <;> rw [show bits = _ from isZero] <;> decide
  · rw [isNaN]
    decide
  · rfl

/-- A byte with which a number is written: it ends no token, and it is no letter that
`parseFloat` refuses. -/
theorem numberByte {byte : UInt8}
    (isNumberByte : (text "+-.0123456789eNaInf").contains byte = true) :
    byte ≠ newline ∧ isBlankOrTab byte = false ∧ byte ≠ quote ∧ byte ≠ backslash ∧ byte < 0x80 ∧
      (text "pP_").contains byte = false := by
  have every : ∀ part ∈ text "+-.0123456789eNaInf", part ≠ newline ∧ isBlankOrTab part = false ∧
      part ≠ quote ∧ part ≠ backslash ∧ part < 0x80 ∧ (text "pP_").contains part = false := by
    decide +kernel
  exact every byte (List.contains_iff_mem.mp isNumberByte)

section

variable [Strconv]

theorem contains_writeFloat (number : Float64) :
    ∀ byte ∈ writeFloat number, (text "+-.0123456789eNaInf").contains byte = true := by
  have weaken : ∀ byte ∈ text "+-.0123456789e",
      (text "+-.0123456789eNaInf").contains byte = true := by decide +kernel
  unfold writeFloat
  split_ifs with isOne isZero isMinusOne isNaN isInfinity isMinusInfinity
  · decide +kernel
  · decide +kernel
  · decide +kernel
  · decide +kernel
  · decide +kernel
  · decide +kernel
  · have finite : number.isFinite := by simp [Float64.isFinite, isNaN, isInfinity, isMinusInfinity]
    intro byte byteMem
    exact weaken byte
      (List.contains_iff_mem.mp ((Strconv.formatFloat_plain number finite).2 byte byteMem))

/-- What is written of a number is read as that number, up to the sign of a zero. -/
theorem parseFloat_writeFloat (number : Float64) :
    parseFloat (writeFloat number) = some (rereadFloat number) := by
  have plain : ∀ byte ∈ writeFloat number, ¬(text "pP_").contains byte = true := by
    intro byte byteMem
    rw [(numberByte (contains_writeFloat number byte byteMem)).2.2.2.2.2]
    exact Bool.false_ne_true
  have accepted : ((writeFloat number).any fun byte => (text "pP_").contains byte) = false :=
    List.any_eq_false.mpr plain
  rw [parseFloat, accepted, if_neg Bool.false_ne_true]
  unfold writeFloat rereadFloat
  by_cases isOne : number = .one
  · subst isOne
    exact Strconv.parseFloat_one
  by_cases isZero : number.isZero = true
  · rw [if_neg isOne, if_pos isZero, if_pos isZero]
    exact Strconv.parseFloat_zero
  by_cases isMinusOne : number = .minusOne
  · subst isMinusOne
    exact Strconv.parseFloat_minusOne
  by_cases isNaN : number.isNaN = true
  · rw [if_neg isOne, if_neg isZero, if_neg isMinusOne, if_pos isNaN, if_neg isZero, if_pos isNaN]
    exact Strconv.parseFloat_nan
  by_cases isInfinity : number = .infinity
  · subst isInfinity
    exact Strconv.parseFloat_infinity
  by_cases isMinusInfinity : number = .minusInfinity
  · subst isMinusInfinity
    exact Strconv.parseFloat_minusInfinity
  · have finite : number.isFinite := by simp [Float64.isFinite, isNaN, isInfinity, isMinusInfinity]
    rw [if_neg isOne, if_neg isZero, if_neg isMinusOne, if_neg isNaN, if_neg isInfinity,
      if_neg isMinusInfinity, if_neg isZero, if_neg isNaN]
    exact Strconv.parseFloat_formatFloat number finite

end

end Expfmt

end Promfetcher
