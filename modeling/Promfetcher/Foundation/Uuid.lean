import Promfetcher.Foundation.Text

/-!
# UUIDs

`uuid.Parse` of the vendored package `google/uuid`. It tells the four forms apart by
their length alone; of the form with braces it reads the 36 bytes in the middle.
-/

namespace Foundation

namespace Uuid

/-- `xtob`: the byte of two hexadecimal digits. -/
def xtob (x1 x2 : UInt8) : Option UInt8 := do
  return 16 * (← unhex x1) + (← unhex x2)

/-- The byte of the digits at two consecutive positions. -/
def byteAt (s : GoString) (position : Nat) : Option UInt8 := do
  xtob (← s[position]?) (← s[position + 1]?)

/-- The byte between the groups of digits. -/
def hyphen : UInt8 := 0x2D

/-- The positions of the digits in `xxxxxxxx-xxxx-xxxx-xxxx-xxxxxxxxxxxx`. -/
def positions : List Nat :=
  [0, 2, 4, 6, 9, 11, 14, 16, 19, 21, 24, 26, 28, 30, 32, 34]

/-- The end of `Parse`, for a string of at least 36 bytes. -/
def parseHyphenated (s : GoString) : Option (List UInt8) :=
  if [8, 13, 18, 23].all fun position => s[position]? == some hyphen then
    positions.mapM (byteAt s)
  else none

/-- `uuid.Parse`, without its errors. -/
def parse (s : GoString) : Option (List UInt8) :=
  if s.length = 36 then parseHyphenated s
  else if s.length = 36 + 9 then
    -- `strings.EqualFold`: no rune outside ASCII folds to a letter of the prefix.
    if (s.take 9).map lowerByte = text "urn:uuid:" then parseHyphenated (s.drop 9) else none
  else if s.length = 36 + 2 then parseHyphenated (s.drop 1)
  else if s.length = 32 then (List.range 16).mapM fun i => byteAt s (2 * i)
  else none

end Uuid

end Foundation
