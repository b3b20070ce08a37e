import Promfetcher.Foundation.JsonNumber
import Promfetcher.Foundation.JsonString

/-!
# The grammar of JSON documents

What the parsers of documents read, as one relation without fuel between the text
before an item, the item, and the text behind it. The parsers are sound and
complete for it, so that facts about documents are proved by induction on how a
document is read.
-/

namespace Foundation

namespace Json

/-- The three literals and what they stand for. -/
def names : List (GoString × Json) :=
  [(text "true", .bool true), (text "false", .bool false), (text "null", .null)]

/-- What the three parsers of documents read. -/
inductive Item where
  | value (value : Json)
  | elements (elements : List Json)
  | members (members : List (GoString × Json))

/-- An item between the text in front of it and the text behind it, with the closing bracket in
the case of elements and members, and nested no deeper than the depth given. -/
inductive Parsed : Nat → GoString → Item → GoString → Prop where
  | string {depth : Nat} {rest value out : GoString} (literal : ParsedString rest value out) :
      Parsed depth (0x22 :: rest) (.value (.string value)) out
  | emptyObject {depth : Nat} {rest out : GoString} (close : skipSpace rest = 0x7D :: out) :
      Parsed (depth + 1) (0x7B :: rest) (.value (.object [])) out
  | object {depth : Nat} {rest out : GoString} {members : List (GoString × Json)}
      (inside : Parsed depth (skipSpace rest) (.members members) out) :
      Parsed (depth + 1) (0x7B :: rest) (.value (.object members)) out
  | emptyArray {depth : Nat} {rest out : GoString} (close : skipSpace rest = 0x5D :: out) :
      Parsed (depth + 1) (0x5B :: rest) (.value (.array [])) out
  | array {depth : Nat} {rest out : GoString} {elements : List Json}
      (inside : Parsed depth (skipSpace rest) (.elements elements) out) :
      Parsed (depth + 1) (0x5B :: rest) (.value (.array elements)) out
  | name {depth : Nat} {literal out : GoString} {value : Json}
      (known : (literal, value) ∈ names) : Parsed depth (literal ++ out) (.value value) out
  | number {depth : Nat} {input literal out : GoString}
      (read : parseNumber input = some (literal, out)) :
      Parsed depth input (.value (.number literal)) out
  | lastElement {depth : Nat} {input rest out : GoString} {element : Json}
      (first : Parsed depth input (.value element) rest) (close : skipSpace rest = 0x5D :: out) :
      Parsed depth input (.elements [element]) out
  | moreElements {depth : Nat} {input rest behind out : GoString} {element : Json}
      {elements : List Json} (first : Parsed depth input (.value element) rest)
      (comma : skipSpace rest = 0x2C :: behind)
      (others : Parsed depth (skipSpace behind) (.elements elements) out) :
      Parsed depth input (.elements (element :: elements)) out
  | lastMember {depth : Nat} {rest afterName afterColon afterValue name out : GoString}
      {value : Json} (literal : ParsedString rest name afterName)
      (colon : skipSpace afterName = 0x3A :: afterColon)
      (first : Parsed depth (skipSpace afterColon) (.value value) afterValue)
      (close : skipSpace afterValue = 0x7D :: out) :
      Parsed depth (0x22 :: rest) (.members [(name, value)]) out
  | moreMembers {depth : Nat} {rest afterName afterColon afterValue behind name out : GoString}
      {value : Json} {members : List (GoString × Json)}
      (literal : ParsedString rest name afterName)
      (colon : skipSpace afterName = 0x3A :: afterColon)
      (first : Parsed depth (skipSpace afterColon) (.value value) afterValue)
      (comma : skipSpace afterValue = 0x2C :: behind)
      (others : Parsed depth (skipSpace behind) (.members members) out) :
      Parsed depth (0x22 :: rest) (.members ((name, value) :: members)) out

theorem skipSpace_suffix (input : GoString) : skipSpace input <:+ input :=
  List.dropWhile_suffix _

theorem parsed_of_parseName {depth : Nat} {literal input out : GoString} {value result : Json}
    (known : (literal, value) ∈ names) (read : parseName literal value input = some (result, out)) :
    Parsed depth input (.value result) out := by
  unfold parseName at read
  split at read
  · rename_i isPrefix
    cases read
    rcases List.isPrefixOf_iff_prefix.mp isPrefix with ⟨rest, rfl⟩
    rw [List.drop_left]
    exact .name known
  · cases read

/-- The parsers read what the grammar allows. -/
theorem parsed_of_parse (fuel : Nat) :
    (∀ {depth input value out}, parseValue fuel depth input = some (value, out) →
      Parsed depth input (.value value) out) ∧
    (∀ {depth input elements out}, parseElements fuel depth input = some (elements, out) →
      Parsed depth input (.elements elements) out) ∧
    (∀ {depth input members out}, parseMembers fuel depth input = some (members, out) →
      Parsed depth input (.members members) out) := by
  induction fuel with
  | zero => exact ⟨nofun, nofun, nofun⟩
  | succ fuel inductionHypothesis =>
      rcases inductionHypothesis with ⟨valueRead, elementsRead, membersRead⟩
      refine ⟨?_, ?_, ?_⟩
      · intro depth input value out read
        cases input with
        | nil => cases read
        | cons byte rest =>
            rw [parseValue.eq_def] at read
            simp only at read
            split at read
            · rename_i quote
              subst quote
              simp only [Option.bind_eq_bind, Option.bind_eq_some_iff, Option.pure_def,
                Option.some.injEq, Prod.mk.injEq] at read
              rcases read with ⟨_, literal, rfl, rfl⟩
              exact .string (parsedString_of_parseString literal)
            · split at read
              · rename_i brace
                subst brace
                cases depth with
                | zero => cases read
                | succ depth =>
                    simp only at read
                    split at read
                    · rename_i close
                      cases read
                      exact .emptyObject close
                    · simp only [Option.bind_eq_bind, Option.bind_eq_some_iff, Option.pure_def,
                        Option.some.injEq, Prod.mk.injEq] at read
                      rcases read with ⟨_, inside, rfl, rfl⟩
                      exact .object (membersRead inside)
              · split at read
                · rename_i bracket
                  subst bracket
                  cases depth with
                  | zero => cases read
                  | succ depth =>
                      simp only at read
                      split at read
                      · rename_i close
                        cases read
                        exact .emptyArray close
                      · simp only [Option.bind_eq_bind, Option.bind_eq_some_iff, Option.pure_def,
                          Option.some.injEq, Prod.mk.injEq] at read
                        rcases read with ⟨_, inside, rfl, rfl⟩
                        exact .array (elementsRead inside)
                · split at read
                  · exact parsed_of_parseName (by simp [names]) read
                  · split at read
                    · exact parsed_of_parseName (by simp [names]) read
                    · split at read
                      · exact parsed_of_parseName (by simp [names]) read
                      · simp only [Option.bind_eq_bind, Option.bind_eq_some_iff, Option.pure_def,
                          Option.some.injEq, Prod.mk.injEq] at read
                        rcases read with ⟨_, number, rfl, rfl⟩
                        exact .number number
      · intro depth input elements out read
        rw [parseElements.eq_def] at read
        simp only [Option.bind_eq_bind, Option.bind_eq_some_iff] at read
        rcases read with ⟨⟨element, rest⟩, first, read⟩
        simp only at read
        split at read
        · rename_i comma
          simp only [Option.bind_eq_some_iff, Option.pure_def, Option.some.injEq,
            Prod.mk.injEq] at read
          rcases read with ⟨_, others, rfl, rfl⟩
          exact .moreElements (valueRead first) comma (elementsRead others)
        · rename_i close
          cases read
          exact .lastElement (valueRead first) close
        · cases read
      · intro depth input members out read
        rw [parseMembers.eq_def] at read
        simp only at read
        split at read
        · simp only [Option.bind_eq_bind, Option.bind_eq_some_iff] at read
          rcases read with ⟨⟨name, afterName⟩, literal, read⟩
          simp only at read
          split at read
          · rename_i colon
            simp only [Option.bind_eq_some_iff] at read
            rcases read with ⟨⟨value, afterValue⟩, first, read⟩
            simp only at read
            have parsedName := parsedString_of_parseString literal
            split at read
            · rename_i comma
              simp only [Option.bind_eq_some_iff, Option.pure_def, Option.some.injEq,
                Prod.mk.injEq] at read
              rcases read with ⟨_, others, rfl, rfl⟩
              exact .moreMembers parsedName colon (valueRead first) comma (membersRead others)
            · rename_i close
              cases read
              exact .lastMember parsedName colon (valueRead first) close
            · cases read
          · cases read
        · cases read

theorem length_of_skipSpace {input behind : GoString} {byte : UInt8}
    (skipped : skipSpace input = byte :: behind) : behind.length < input.length := by
  have suffix := skipSpace_suffix input
  rw [skipped] at suffix
  exact suffix.length_le

theorem length_pos_of_mem_names {literal : GoString} {value : Json}
    (known : (literal, value) ∈ names) : 0 < literal.length := by
  simp only [names, List.mem_cons, Prod.mk.injEq, List.not_mem_nil, or_false] at known
  rcases known with ⟨rfl, _⟩ | ⟨rfl, _⟩ | ⟨rfl, _⟩ <;> decide

theorem Parsed.length_lt {depth : Nat} {input out : GoString} {item : Item}
    (parsed : Parsed depth input item out) : out.length < input.length := by
  induction parsed with
  | string literal =>
      have := literal.length_lt
      exact Nat.lt_succ_of_lt this
  | emptyObject close =>
      have := length_of_skipSpace close
      exact Nat.lt_succ_of_lt this
  | @object _ rest _ _ _ inductionHypothesis =>
      have := (skipSpace_suffix rest).length_le
      simp only [List.length_cons]
      omega
  | emptyArray close =>
      have := length_of_skipSpace close
      exact Nat.lt_succ_of_lt this
  | @array _ rest _ _ _ inductionHypothesis =>
      have := (skipSpace_suffix rest).length_le
      simp only [List.length_cons]
      omega
  | name known =>
      have := length_pos_of_mem_names known
      rw [List.length_append]
      omega
  | number read =>
      rcases parseNumber_strict read with ⟨_, _, rfl, _, suffix⟩
      exact Nat.lt_succ_of_le suffix.length_le
  | lastElement _ close inductionHypothesis =>
      have := length_of_skipSpace close
      omega
  | @moreElements _ _ _ behind _ _ _ _ comma _ firstShorter othersShorter =>
      have := length_of_skipSpace comma
      have := (skipSpace_suffix behind).length_le
      omega
  | @lastMember _ _ _ afterColon _ _ _ _ literal colon _ close firstShorter =>
      have := literal.length_lt
      have := length_of_skipSpace colon
      have := (skipSpace_suffix afterColon).length_le
      have := length_of_skipSpace close
      simp only [List.length_cons]
      omega
  | @moreMembers _ _ _ afterColon _ behind _ _ _ _ literal colon _ comma _ firstShorter
      othersShorter =>
      have := literal.length_lt
      have := length_of_skipSpace colon
      have := (skipSpace_suffix afterColon).length_le
      have := length_of_skipSpace comma
      have := (skipSpace_suffix behind).length_le
      simp only [List.length_cons]
      omega

/-- That the parser of an item reads it. -/
def ReadBy (fuel depth : Nat) (input out : GoString) : Item → Prop
  | .value document => parseValue fuel depth input = some (document, out)
  | .elements documents => parseElements fuel depth input = some (documents, out)
  | .members fields => parseMembers fuel depth input = some (fields, out)

theorem parseValue_name {fuel depth : Nat} {literal out : GoString} {value : Json}
    (known : (literal, value) ∈ names) :
    parseValue (fuel + 1) depth (literal ++ out) = some (value, out) := by
  have isTrue : text "true" = [0x74, 0x72, 0x75, 0x65] := by decide
  have isFalse : text "false" = [0x66, 0x61, 0x6C, 0x73, 0x65] := by decide
  have isNull : text "null" = [0x6E, 0x75, 0x6C, 0x6C] := by decide
  simp only [names, List.mem_cons, Prod.mk.injEq, List.not_mem_nil, or_false] at known
  rcases known with ⟨rfl, rfl⟩ | ⟨rfl, rfl⟩ | ⟨rfl, rfl⟩ <;>
    · rw [parseValue.eq_def]
      simp [isTrue, isFalse, isNull, parseName, hasPrefix]

theorem parseValue_number {fuel depth : Nat} {input literal out : GoString}
    (read : parseNumber input = some (literal, out)) :
    parseValue (fuel + 1) depth input = some (.number literal, out) := by
  rcases parseNumber_strict read with ⟨first, rest, rfl, starts, _⟩
  have others : first ≠ 0x22 ∧ first ≠ 0x7B ∧ first ≠ 0x5B ∧ first ≠ 0x74 ∧ first ≠ 0x66 ∧
      first ≠ 0x6E := by
    unfold isDigit at starts
    grind
  rw [parseValue.eq_def]
  simp [others, read]

theorem Parsed.members_start {depth : Nat} {input out : GoString}
    {members : List (GoString × Json)} (parsed : Parsed depth input (.members members) out) :
    ∃ rest, input = 0x22 :: rest := by
  cases parsed with
  | lastMember => exact ⟨_, rfl⟩
  | moreMembers => exact ⟨_, rfl⟩

theorem Parsed.not_close {depth : Nat} {behind out : GoString} {elements : List Json} :
    ¬Parsed depth (0x5D :: behind) (.elements elements) out := by
  have noValue : ∀ {value rest}, ¬Parsed depth (0x5D :: behind) (.value value) rest := by
    intro value rest parsed
    generalize same : (0x5D :: behind : GoString) = input at parsed
    cases parsed with
    | name known =>
        simp only [names, List.mem_cons, Prod.mk.injEq, List.not_mem_nil, or_false] at known
        rcases known with ⟨rfl, _⟩ | ⟨rfl, _⟩ | ⟨rfl, _⟩ <;> cases same
    | number read =>
        rcases parseNumber_strict read with ⟨first, _, rfl, starts, _⟩
        rw [← (List.cons.inj same).1] at starts
        exact absurd starts (by decide)
    | _ => cases same
  intro parsed
  generalize same : (0x5D :: behind : GoString) = input at parsed
  cases parsed with
  | lastElement first _ => exact noValue (same ▸ first)
  | moreElements first _ _ => exact noValue (same ▸ first)

theorem parseValue_object {fuel depth : Nat} {rest out : GoString}
    {members : List (GoString × Json)} (opens : ∀ behind, skipSpace rest ≠ 0x7D :: behind)
    (inside : parseMembers fuel depth (skipSpace rest) = some (members, out)) :
    parseValue (fuel + 1) (depth + 1) (0x7B :: rest) = some (.object members, out) := by
  rw [parseValue.eq_def]
  simp [inside]

theorem parseValue_array {fuel depth : Nat} {rest out : GoString} {elements : List Json}
    (opens : ∀ behind, skipSpace rest ≠ 0x5D :: behind)
    (inside : parseElements fuel depth (skipSpace rest) = some (elements, out)) :
    parseValue (fuel + 1) (depth + 1) (0x5B :: rest) = some (.array elements, out) := by
  rw [parseValue.eq_def]
  simp [inside]

/-- Twice the bytes that an item takes is fuel enough for its parser. -/
theorem Parsed.readBy {depth : Nat} {input out : GoString} {item : Item}
    (parsed : Parsed depth input item out) {fuel : Nat}
    (enough : 2 * input.length ≤ fuel + 2 * out.length) : ReadBy fuel depth input out item := by
  have shorter := parsed.length_lt
  rcases Nat.exists_eq_add_one_of_ne_zero (show fuel ≠ 0 by omega) with ⟨fuel, rfl⟩
  induction parsed generalizing fuel with
  | @string _ rest value out literal =>
      simp only [List.length_cons] at enough
      have readLiteral : parseString fuel rest = some (value, out) :=
        literal.parseString (by omega)
      rw [ReadBy, parseValue.eq_def]
      simp [readLiteral]
  | emptyObject close =>
      rw [ReadBy, parseValue.eq_def]
      simp [close]
  | @object _ rest out members inside inductionHypothesis =>
      have := (skipSpace_suffix rest).length_le
      have := inside.length_lt
      simp only [List.length_cons] at enough
      rcases Nat.exists_eq_add_one_of_ne_zero (show fuel ≠ 0 by omega) with ⟨fuel, rfl⟩
      refine parseValue_object ?_ (inductionHypothesis this fuel (by omega))
      intro behind same
      rcases inside.members_start with ⟨_, quoted⟩
      rw [same] at quoted
      cases quoted
  | emptyArray close =>
      rw [ReadBy, parseValue.eq_def]
      simp [close]
  | @array _ rest out elements inside inductionHypothesis =>
      have := (skipSpace_suffix rest).length_le
      have := inside.length_lt
      simp only [List.length_cons] at enough
      rcases Nat.exists_eq_add_one_of_ne_zero (show fuel ≠ 0 by omega) with ⟨fuel, rfl⟩
      refine parseValue_array ?_ (inductionHypothesis this fuel (by omega))
      intro behind same
      rw [same] at inside
      exact inside.not_close
  | name known => exact parseValue_name known
  | number read => exact parseValue_number read
  | @lastElement _ input rest out element first close inductionHypothesis =>
      have := length_of_skipSpace close
      have := first.length_lt
      rcases Nat.exists_eq_add_one_of_ne_zero (show fuel ≠ 0 by omega) with ⟨fuel, rfl⟩
      have readFirst : parseValue (fuel + 1) _ input = some (element, rest) :=
        inductionHypothesis this fuel (by omega)
      rw [ReadBy, parseElements.eq_def]
      simp [readFirst, close]
  | @moreElements _ input rest behind out element elements first comma others firstRead
      othersRead =>
      have := length_of_skipSpace comma
      have := (skipSpace_suffix behind).length_le
      have firstShorter := first.length_lt
      have othersShorter := others.length_lt
      rcases Nat.exists_eq_add_one_of_ne_zero (show fuel ≠ 0 by omega) with ⟨fuel, rfl⟩
      have readFirst : parseValue (fuel + 1) _ input = some (element, rest) :=
        firstRead firstShorter fuel (by omega)
      have readOthers : parseElements (fuel + 1) _ (skipSpace behind) = some (elements, out) :=
        othersRead othersShorter fuel (by omega)
      rw [ReadBy, parseElements.eq_def]
      simp [readFirst, comma, readOthers]
  | @lastMember _ rest afterName afterColon afterValue name out value literal colon first close
      inductionHypothesis =>
      have := length_of_skipSpace colon
      have := (skipSpace_suffix afterColon).length_le
      have := length_of_skipSpace close
      have nameShorter := literal.length_lt
      have firstShorter := first.length_lt
      simp only [List.length_cons] at enough
      rcases Nat.exists_eq_add_one_of_ne_zero (show fuel ≠ 0 by omega) with ⟨fuel, rfl⟩
      have readName : parseString (fuel + 1) rest = some (name, afterName) :=
        literal.parseString (by omega)
      have readFirst : parseValue (fuel + 1) _ (skipSpace afterColon) = some (value, afterValue) :=
        inductionHypothesis firstShorter fuel (by omega)
      rw [ReadBy, parseMembers.eq_def]
      simp [readName, colon, readFirst, close]
  | @moreMembers _ rest afterName afterColon afterValue behind name out value members literal
      colon first comma others firstRead othersRead =>
      have := length_of_skipSpace colon
      have := (skipSpace_suffix afterColon).length_le
      have := length_of_skipSpace comma
      have := (skipSpace_suffix behind).length_le
      have nameShorter := literal.length_lt
      have firstShorter := first.length_lt
      have othersShorter := others.length_lt
      simp only [List.length_cons] at enough
      rcases Nat.exists_eq_add_one_of_ne_zero (show fuel ≠ 0 by omega) with ⟨fuel, rfl⟩
      have readName : parseString (fuel + 1) rest = some (name, afterName) :=
        literal.parseString (by omega)
      have readFirst : parseValue (fuel + 1) _ (skipSpace afterColon) = some (value, afterValue) :=
        firstRead firstShorter fuel (by omega)
      have readOthers : parseMembers (fuel + 1) _ (skipSpace behind) = some (members, out) :=
        othersRead othersShorter fuel (by omega)
      rw [ReadBy, parseMembers.eq_def]
      simp [readName, colon, readFirst, comma, readOthers]

theorem parse_iff {input : GoString} {document : Json} :
    parse input = some document ↔ ∃ out,
      Parsed maxNestingDepth (skipSpace input) (.value document) out ∧ skipSpace out = [] := by
  unfold parse
  simp only [Option.bind_eq_bind, Option.bind_eq_some_iff]
  constructor
  · rintro ⟨⟨value, out⟩, read, ends⟩
    simp only at ends
    split at ends
    · rename_i nothing
      cases ends
      exact ⟨out, (parsed_of_parse _).1 read, nothing⟩
    · cases ends
  · rintro ⟨out, parsed, nothing⟩
    have shorter := (skipSpace_suffix input).length_le
    exact ⟨(document, out), parsed.readBy (by omega), if_pos nothing⟩

/-! ## What follows an item -/

theorem skipSpace_append {input : GoString} (some : skipSpace input ≠ []) (more : GoString) :
    skipSpace (input ++ more) = skipSpace input ++ more := by
  have stops : (List.dropWhile isSpace input).isEmpty = false := by
    rwa [List.isEmpty_eq_false_iff]
  rw [skipSpace, List.dropWhile_append, stops]
  rfl

theorem skipSpace_append_cons {input behind : GoString} {byte : UInt8}
    (skipped : skipSpace input = byte :: behind) (more : GoString) :
    skipSpace (input ++ more) = byte :: (behind ++ more) := by
  rw [skipSpace_append (by rw [skipped]; exact List.cons_ne_nil _ _), skipped, List.cons_append]

theorem ne_nil_of_skipSpace {input behind : GoString} {byte : UInt8}
    (skipped : skipSpace input = byte :: behind) : input ≠ [] := by
  rintro rfl
  cases skipped

theorem Parsed.ne_nil {depth : Nat} {input out : GoString} {item : Item}
    (parsed : Parsed depth input item out) : input ≠ [] := by
  rintro rfl
  exact absurd parsed.length_lt (Nat.not_lt_zero _)

/-- An item is read alike in front of any text, a number if something delimits it already. -/
theorem Parsed.append {depth : Nat} {input out : GoString} {item : Item}
    (parsed : Parsed depth input item out)
    (delimited : (∃ literal, item = .value (.number literal)) → out ≠ []) (more : GoString) :
    Parsed depth (input ++ more) item (out ++ more) := by
  induction parsed with
  | string literal => exact .string (literal.append more)
  | emptyObject close => exact .emptyObject (skipSpace_append_cons close more)
  | object inside inductionHypothesis =>
      have read := inductionHypothesis (by simp)
      rw [← skipSpace_append inside.ne_nil] at read
      exact .object read
  | emptyArray close => exact .emptyArray (skipSpace_append_cons close more)
  | array inside inductionHypothesis =>
      have read := inductionHypothesis (by simp)
      rw [← skipSpace_append inside.ne_nil] at read
      exact .array read
  | name known =>
      rw [List.append_assoc]
      exact .name known
  | number read => exact .number (isLocal_parseNumber.append read (delimited ⟨_, rfl⟩) more)
  | lastElement first close inductionHypothesis =>
      exact .lastElement (inductionHypothesis fun _ => ne_nil_of_skipSpace close)
        (skipSpace_append_cons close more)
  | moreElements first comma others firstRead othersRead =>
      refine .moreElements (firstRead fun _ => ne_nil_of_skipSpace comma)
        (skipSpace_append_cons comma more) ?_
      rw [skipSpace_append others.ne_nil]
      exact othersRead (by simp)
  | lastMember literal colon first close inductionHypothesis =>
      refine .lastMember (literal.append more) (skipSpace_append_cons colon more) ?_
        (skipSpace_append_cons close more)
      rw [skipSpace_append first.ne_nil]
      exact inductionHypothesis fun _ => ne_nil_of_skipSpace close
  | moreMembers literal colon first comma others firstRead othersRead =>
      refine .moreMembers (literal.append more) (skipSpace_append_cons colon more) ?_
        (skipSpace_append_cons comma more) ?_
      · rw [skipSpace_append first.ne_nil]
        exact firstRead fun _ => ne_nil_of_skipSpace comma
      · rw [skipSpace_append others.ne_nil]
        exact othersRead (by simp)

/-- Room for deeper nesting does no harm. -/
theorem Parsed.deeper {depth : Nat} {input out : GoString} {item : Item}
    (parsed : Parsed depth input item out) (extra : Nat) :
    Parsed (depth + extra) input item out := by
  induction parsed with
  | string literal => exact .string literal
  | emptyObject close =>
      rw [Nat.add_right_comm]
      exact .emptyObject close
  | object _ inductionHypothesis =>
      rw [Nat.add_right_comm]
      exact .object inductionHypothesis
  | emptyArray close =>
      rw [Nat.add_right_comm]
      exact .emptyArray close
  | array _ inductionHypothesis =>
      rw [Nat.add_right_comm]
      exact .array inductionHypothesis
  | name known => exact .name known
  | number read => exact .number read
  | lastElement _ close inductionHypothesis => exact .lastElement inductionHypothesis close
  | moreElements _ comma _ firstRead othersRead => exact .moreElements firstRead comma othersRead
  | lastMember literal colon _ close inductionHypothesis =>
      exact .lastMember literal colon inductionHypothesis close
  | moreMembers literal colon _ comma _ firstRead othersRead =>
      exact .moreMembers literal colon firstRead comma othersRead

theorem suffix_of_skipSpace {input behind : GoString} {byte : UInt8}
    (skipped : skipSpace input = byte :: behind) : byte :: behind <:+ input :=
  skipped ▸ skipSpace_suffix input

theorem Parsed.suffix {depth : Nat} {input out : GoString} {item : Item}
    (parsed : Parsed depth input item out) : out <:+ input := by
  have behind : ∀ {byte : UInt8} {text rest : GoString}, skipSpace text = byte :: rest →
      rest <:+ text := fun skipped => (List.suffix_cons _ _).trans (suffix_of_skipSpace skipped)
  induction parsed with
  | string literal =>
      exact ((List.suffix_cons _ _).trans literal.suffix).trans (List.suffix_cons _ _)
  | emptyObject close => exact (behind close).trans (List.suffix_cons _ _)
  | object _ inductionHypothesis =>
      exact (inductionHypothesis.trans (skipSpace_suffix _)).trans (List.suffix_cons _ _)
  | emptyArray close => exact (behind close).trans (List.suffix_cons _ _)
  | array _ inductionHypothesis =>
      exact (inductionHypothesis.trans (skipSpace_suffix _)).trans (List.suffix_cons _ _)
  | name _ => exact List.suffix_append _ _
  | number read => exact isLocal_parseNumber.suffix read
  | lastElement _ close inductionHypothesis => exact (behind close).trans inductionHypothesis
  | moreElements _ comma _ firstRead othersRead =>
      exact othersRead.trans ((skipSpace_suffix _).trans ((behind comma).trans firstRead))
  | lastMember literal colon _ close inductionHypothesis =>
      have first := inductionHypothesis.trans ((skipSpace_suffix _).trans (behind colon))
      exact ((behind close).trans first).trans
        (((List.suffix_cons _ _).trans literal.suffix).trans (List.suffix_cons _ _))
  | moreMembers literal colon _ comma _ firstRead othersRead =>
      have first := firstRead.trans ((skipSpace_suffix _).trans (behind colon))
      have others := othersRead.trans ((skipSpace_suffix _).trans (behind comma))
      exact (others.trans first).trans
        (((List.suffix_cons _ _).trans literal.suffix).trans (List.suffix_cons _ _))

theorem Parsed.members_close {depth : Nat} {input out : GoString} {item : Item}
    (parsed : Parsed depth input item out) {members : List (GoString × Json)}
    (isMembers : item = .members members) : 0x7D :: out <:+ input := by
  induction parsed generalizing members with
  | lastMember literal colon first close _ =>
      have afterColon := (List.suffix_cons _ _).trans (suffix_of_skipSpace colon)
      have value := first.suffix.trans ((skipSpace_suffix _).trans afterColon)
      exact ((suffix_of_skipSpace close).trans value).trans
        (((List.suffix_cons _ _).trans literal.suffix).trans (List.suffix_cons _ _))
  | moreMembers literal colon first comma _ _ othersClose =>
      have afterColon := (List.suffix_cons _ _).trans (suffix_of_skipSpace colon)
      have value := first.suffix.trans ((skipSpace_suffix _).trans afterColon)
      have afterComma := (List.suffix_cons _ _).trans (suffix_of_skipSpace comma)
      have others := (othersClose rfl).trans ((skipSpace_suffix _).trans afterComma)
      exact (others.trans value).trans
        (((List.suffix_cons _ _).trans literal.suffix).trans (List.suffix_cons _ _))
  | _ => cases isMembers

/-- An object stands between braces. -/
theorem Parsed.object_braces {depth : Nat} {input out : GoString}
    {members : List (GoString × Json)}
    (parsed : Parsed depth input (.value (.object members)) out) :
    ∃ inside, input = 0x7B :: (inside ++ 0x7D :: out) := by
  generalize isObject : Item.value (.object members) = item at parsed
  cases parsed with
  | emptyObject close =>
      rcases suffix_of_skipSpace close with ⟨between, rfl⟩
      exact ⟨between, rfl⟩
  | object inside =>
      rcases (inside.members_close rfl).trans (skipSpace_suffix _) with ⟨between, rfl⟩
      exact ⟨between, rfl⟩
  | name known =>
      simp only [names, List.mem_cons, Prod.mk.injEq, List.not_mem_nil, or_false] at known
      rcases known with ⟨_, rfl⟩ | ⟨_, rfl⟩ | ⟨_, rfl⟩ <;> cases isObject
  | _ => cases isObject

/-! ## Strings in documents -/

/-- Every string in a document is valid UTF-8. -/
inductive AllValid : Json → Prop where
  | null : AllValid .null
  | bool (value : Bool) : AllValid (.bool value)
  | number (literal : GoString) : AllValid (.number literal)
  | string {value : GoString} (valid : validString value = true) : AllValid (.string value)
  | array {elements : List Json} (all : ∀ element ∈ elements, AllValid element) :
      AllValid (.array elements)
  | object {members : List (GoString × Json)}
      (names : ∀ member ∈ members, validString member.1 = true)
      (all : ∀ member ∈ members, AllValid member.2) : AllValid (.object members)

/-- All strings of what has been read are valid. -/
def ItemValid : Item → Prop
  | .value document => AllValid document
  | .elements documents => ∀ element ∈ documents, AllValid element
  | .members fields => ∀ member ∈ fields, validString member.1 = true ∧ AllValid member.2

theorem Parsed.itemValid {depth : Nat} {input out : GoString} {item : Item}
    (parsed : Parsed depth input item out) : ItemValid item := by
  induction parsed with
  | string literal => exact .string literal.valid
  | emptyObject => exact .object nofun nofun
  | object _ inductionHypothesis =>
      exact .object (fun _ isMember => (inductionHypothesis _ isMember).1)
        fun _ isMember => (inductionHypothesis _ isMember).2
  | emptyArray => exact .array nofun
  | array _ inductionHypothesis => exact .array inductionHypothesis
  | name known =>
      simp only [names, List.mem_cons, Prod.mk.injEq, List.not_mem_nil, or_false] at known
      rcases known with ⟨_, rfl⟩ | ⟨_, rfl⟩ | ⟨_, rfl⟩
      · exact .bool true
      · exact .bool false
      · exact .null
  | @number _ _ literal => exact .number literal
  | lastElement _ _ inductionHypothesis =>
      intro element isElement
      rw [List.mem_singleton.mp isElement]
      exact inductionHypothesis
  | moreElements _ _ _ firstValid othersValid =>
      exact List.forall_mem_cons.mpr ⟨firstValid, othersValid⟩
  | lastMember literal _ _ _ inductionHypothesis =>
      intro member isMember
      rw [List.mem_singleton.mp isMember]
      exact ⟨literal.valid, inductionHypothesis⟩
  | moreMembers literal _ _ _ _ firstValid othersValid =>
      exact List.forall_mem_cons.mpr ⟨⟨literal.valid, firstValid⟩, othersValid⟩

theorem allValid_of_parse {input : GoString} {document : Json}
    (parsed : parse input = some document) : AllValid document := by
  rcases parse_iff.mp parsed with ⟨_, read, _⟩
  exact read.itemValid

end Json

end Foundation
