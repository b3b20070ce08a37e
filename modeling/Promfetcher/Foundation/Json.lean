import Promfetcher.Foundation.Text

/-!
# JSON documents

The documents that `encoding/json` accepts, and the rules by which
`json.Unmarshal` stores a document in variables of the kinds string, integer,
slice and struct. The parser works on bytes. As in Go, invalid UTF-8 and lone
surrogates in a string become U+FFFD, a document nested deeper than
`maxNestingDepth` is refused, and the name of a member selects a field up to
simple case folding.

Parsers take a fuel argument that bounds the recursion. Of two nested calls at
least one consumes a byte, so twice the length of the text is enough.
-/

namespace Foundation

/-- A JSON document. A number keeps the text it was written with. -/
inductive Json where
  | null
  | bool (value : Bool)
  | number (literal : GoString)
  | string (value : GoString)
  | array (elements : List Json)
  | object (members : List (GoString × Json))

namespace Json

/-- The nesting at which the decoder of `encoding/json` gives up. -/
def maxNestingDepth : Nat := 10000

/-- The bytes that may stand between the tokens. -/
def isSpace (byte : UInt8) : Bool :=
  byte == 0x20 || byte == 0x09 || byte == 0x0A || byte == 0x0D

/-- The digits of a number. -/
def isDigit (byte : UInt8) : Bool :=
  0x30 ≤ byte && byte ≤ 0x39

/-- The text from its next token on. -/
def skipSpace (input : GoString) : GoString :=
  input.dropWhile isSpace

/-- U+FFFD, which stands for what is no text. -/
def replacementRune : GoString :=
  [0xEF, 0xBF, 0xBD]

/-- The value of a hexadecimal digit. -/
def hexValue (byte : UInt8) : Option Nat :=
  if 0x30 ≤ byte ∧ byte ≤ 0x39 then some (byte.toNat - 0x30)
  else if 0x61 ≤ byte ∧ byte ≤ 0x66 then some (byte.toNat - 0x61 + 10)
  else if 0x41 ≤ byte ∧ byte ≤ 0x46 then some (byte.toNat - 0x41 + 10)
  else none

/-- The code unit of `XXXX` in an escape `\uXXXX`. -/
def codeUnit : GoString → Option (Nat × GoString)
  | first :: second :: third :: fourth :: rest => do
      let first ← hexValue first
      let second ← hexValue second
      let third ← hexValue third
      let fourth ← hexValue fourth
      return (((first * 16 + second) * 16 + third) * 16 + fourth, rest)
  | _ => none

/-- The rune that an escape stands for, given the code unit read and the text behind it. -/
def escapedRune (unit : Nat) (rest : GoString) : GoString × GoString :=
  if unit < 0xD800 ∨ 0xE000 ≤ unit then (String.utf8EncodeChar (Char.ofNat unit), rest)
  else
    -- A high surrogate takes the low surrogate behind it; every other surrogate is replaced.
    match rest with
    | 0x5C :: 0x75 :: more =>
        match codeUnit more with
        | some (low, after) =>
            if unit < 0xDC00 ∧ 0xDC00 ≤ low ∧ low < 0xE000 then
              (String.utf8EncodeChar
                (Char.ofNat (0x10000 + (unit - 0xD800) * 0x400 + (low - 0xDC00))), after)
            else (replacementRune, rest)
        | none => (replacementRune, rest)
    | _ => (replacementRune, rest)

/-- The byte that an escape of one letter stands for. -/
def simpleEscape (byte : UInt8) : Option UInt8 :=
  if byte = 0x22 ∨ byte = 0x5C ∨ byte = 0x2F then some byte
  else if byte = 0x62 then some 0x08
  else if byte = 0x66 then some 0x0C
  else if byte = 0x6E then some 0x0A
  else if byte = 0x72 then some 0x0D
  else if byte = 0x74 then some 0x09
  else none

/-- The value of a string literal whose opening quote has been read, and the text behind it. -/
def parseString : Nat → GoString → Option (GoString × GoString)
  | 0, _ => none
  | _, [] => none
  | fuel + 1, byte :: rest =>
      if byte = 0x22 then some ([], rest)
      else if byte < 0x20 then none
      else if byte = 0x5C then
        match rest with
        | [] => none
        | escape :: rest =>
            if escape = 0x75 then do
              let (unit, rest) ← codeUnit rest
              let (rune, rest) := escapedRune unit rest
              let (value, rest) ← parseString fuel rest
              return (rune ++ value, rest)
            else do
              let byte ← simpleEscape escape
              let (value, rest) ← parseString fuel rest
              return (byte :: value, rest)
      else
        let width := runeWidth (byte :: rest)
        if width = 0 then do
          let (value, rest) ← parseString fuel rest
          return (replacementRune ++ value, rest)
        else do
          let (value, behind) ← parseString fuel ((byte :: rest).drop width)
          return ((byte :: rest).take width ++ value, behind)

/-- The digits in front of a text, of which there must be one. -/
def parseDigits (input : GoString) : Option (GoString × GoString) :=
  match input.span isDigit with
  | ([], _) => none
  | (digits, rest) => some (digits, rest)

/-- A number: a sign, digits without a leading zero, a fraction and an exponent. -/
def parseNumber (input : GoString) : Option (GoString × GoString) := do
  let (sign, input) := match input with
    | 0x2D :: rest => ([0x2D], rest)
    | _ => (([] : GoString), input)
  let (whole, input) ← match input with
    | 0x30 :: rest => some ([0x30], rest)
    | _ => parseDigits input
  let (fraction, input) ← match input with
    | 0x2E :: rest => do
        let (digits, rest) ← parseDigits rest
        some (0x2E :: digits, rest)
    | _ => some ([], input)
  let (exponent, input) ← match input with
    | mark :: rest =>
        if mark = 0x65 ∨ mark = 0x45 then do
          let (sign, rest) := match rest with
            | 0x2B :: rest => ([0x2B], rest)
            | 0x2D :: rest => ([0x2D], rest)
            | _ => (([] : GoString), rest)
          let (digits, rest) ← parseDigits rest
          some (mark :: sign ++ digits, rest)
        else some ([], input)
    | [] => some ([], input)
  return (sign ++ whole ++ fraction ++ exponent, input)

/-- A literal name such as `true`. -/
def parseName (name : GoString) (value : Json) (input : GoString) : Option (Json × GoString) :=
  if hasPrefix input name then some (value, input.drop name.length) else none

mutual

/-- A value, and the text behind it. The second argument is the nesting that is still allowed. -/
def parseValue : Nat → Nat → GoString → Option (Json × GoString)
  | 0, _, _ => none
  | _, _, [] => none
  | fuel + 1, depth, byte :: rest =>
      if byte = 0x22 then do
        let (value, rest) ← parseString fuel rest
        return (.string value, rest)
      else if byte = 0x7B then
        match depth with
        | 0 => none
        | depth + 1 =>
            match skipSpace rest with
            | 0x7D :: rest => some (.object [], rest)
            | rest => do
                let (members, rest) ← parseMembers fuel depth rest
                return (.object members, rest)
      else if byte = 0x5B then
        match depth with
        | 0 => none
        | depth + 1 =>
            match skipSpace rest with
            | 0x5D :: rest => some (.array [], rest)
            | rest => do
                let (elements, rest) ← parseElements fuel depth rest
                return (.array elements, rest)
      else if byte = 0x74 then parseName (text "true") (.bool true) (byte :: rest)
      else if byte = 0x66 then parseName (text "false") (.bool false) (byte :: rest)
      else if byte = 0x6E then parseName (text "null") .null (byte :: rest)
      else do
        let (literal, rest) ← parseNumber (byte :: rest)
        return (.number literal, rest)

/-- The elements of an array that has one, up to its closing bracket. -/
def parseElements : Nat → Nat → GoString → Option (List Json × GoString)
  | 0, _, _ => none
  | fuel + 1, depth, input => do
      let (element, rest) ← parseValue fuel depth input
      match skipSpace rest with
      | 0x2C :: rest =>
          let (elements, rest) ← parseElements fuel depth (skipSpace rest)
          return (element :: elements, rest)
      | 0x5D :: rest => return ([element], rest)
      | _ => none

/-- The members of an object that has one, up to its closing brace. -/
def parseMembers : Nat → Nat → GoString → Option (List (GoString × Json) × GoString)
  | 0, _, _ => none
  | fuel + 1, depth, input =>
      match input with
      | 0x22 :: rest => do
          let (name, rest) ← parseString fuel rest
          match skipSpace rest with
          | 0x3A :: rest =>
              let (value, rest) ← parseValue fuel depth (skipSpace rest)
              match skipSpace rest with
              | 0x2C :: rest =>
                  let (members, rest) ← parseMembers fuel depth (skipSpace rest)
                  return ((name, value) :: members, rest)
              | 0x7D :: rest => return ([(name, value)], rest)
              | _ => none
          | _ => none
      | _ => none

end

/-- The document that a text is, with nothing but space around it. -/
def parse (input : GoString) : Option Json := do
  let (value, rest) ← parseValue (2 * input.length + 2) maxNestingDepth (skipSpace input)
  if skipSpace rest = [] then some value else none

/-! ## Storing a document -/

/-- The name that `encoding/json` compares field names by. Of the runes outside ASCII only the
long s and the Kelvin sign fold to a letter of ASCII. -/
def foldName : GoString → GoString
  | [] => []
  | 0xC5 :: 0xBF :: rest => 0x53 :: foldName rest
  | 0xE2 :: 0x84 :: 0xAA :: rest => 0x4B :: foldName rest
  | byte :: rest => upperByte byte :: foldName rest

/-- Whether a member is stored in the field with the given name. -/
def selects (name : GoString) (field : String) : Bool :=
  foldName name == foldName (text field)

/-- The number that digits are written for. -/
def digitsValue (digits : GoString) : Nat :=
  digits.foldl (fun value digit => value * 10 + (digit.toNat - 0x30)) 0

/-- Storing in a `string`. -/
def storeString (old : GoString) : Json → Option GoString
  | .null => some old
  | .string value => some value
  | _ => none

/-- Storing in an unsigned integer of `width` bits. -/
def storeUint (width old : Nat) : Json → Option Nat
  | .null => some old
  | .number literal =>
      if literal.all isDigit ∧ digitsValue literal < 2 ^ width then some (digitsValue literal)
      else none
  | _ => none

/-- Storing in a signed integer of `width` bits. -/
def storeInt (width : Nat) (old : Int) : Json → Option Int
  | .null => some old
  | .number literal =>
      match literal with
      | 0x2D :: digits =>
          if digits.all isDigit ∧ digitsValue digits ≤ 2 ^ (width - 1) then
            some (-(digitsValue digits : Int))
          else none
      | digits =>
          if digits.all isDigit ∧ digitsValue digits < 2 ^ (width - 1) then
            some (digitsValue digits : Int)
          else none
  | _ => none

/-- The decoded elements of an array, each stored in the cell at its place, and the cells that are
left. A cell behind those given is a new one, which is empty. -/
def storeElements : List GoString → List Json → Option (List GoString × List GoString)
  | cells, [] => some ([], cells)
  | cells, element :: elements => do
      let string ← element.storeString (cells.headD [])
      let (strings, left) ← storeElements cells.tail elements
      return (string :: strings, left)

/-- Storing in a slice of strings, given what its array holds. The elements are decoded into the
cells of that array, those behind the length of the slice included, and the slice is then cut to
the elements. The result is what it shows and what its array holds behind that. -/
def storeStrings (cells : List GoString) : Json → Option (List GoString × List GoString)
  | .null => some ([], [])
  | .array [] => some ([], [])
  | .array elements => storeElements cells elements
  | _ => none

/-- Storing in a struct: the members are stored one after the other. -/
def storeStruct {Struct : Type} (store : Struct → GoString → Json → Option Struct)
    (old : Struct) : Json → Option Struct
  | .null => some old
  | .object members => members.foldlM (fun struct member => store struct member.1 member.2) old
  | _ => none

end Json

end Foundation
