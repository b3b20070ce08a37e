import Promfetcher.Foundation.Keyed
import Promfetcher.Foundation.Url

/-!
# Query parameters

`url.Values` of the package `net/url`: the settings of a query, without those that
`ParseQuery` refuses, and the query that `Encode` writes. A query says of its
parameters what was encoded. `ParseQuery` reads it if it is not too long.
-/

namespace Foundation

/-- The byte between the settings of a query. -/
def ampersand : UInt8 := 0x26

/-- The byte between the key and the value of a setting. -/
def equalsSign : UInt8 := 0x3D

/-- A byte with which a setting is refused. -/
def semicolon : UInt8 := 0x3B

/-- The byte that a space is written as. -/
def plusSign : UInt8 := 0x2B

/-- `url.Values`. -/
abbrev Values := AList fun _ : GoString => List GoString

namespace Values

/-- The values under a key; a range over them is empty for an absent key. -/
def get (values : Values) (key : GoString) : List GoString :=
  (values.lookup key).getD []

/-- `Values.Add`. -/
def add (values : Values) (key value : GoString) : Values :=
  values.insert key (values.get key ++ [value])

end Values

namespace Url

/-- A plus sign of a query stands for a space. -/
def plusToSpace (byte : UInt8) : UInt8 :=
  if byte = plusSign then 0x20 else byte

/-- `url.QueryUnescape`. -/
def queryUnescape (string : GoString) : Option GoString :=
  pathUnescape (string.map plusToSpace)

/-- One setting of a query. Those with a semicolon or an escape that is none are refused. -/
def parseSetting (setting : GoString) : Option (GoString × GoString) :=
  if semicolon ∈ setting ∨ setting = [] then none
  else do
    let (key, value) := cutOff equalsSign setting
    return (← queryUnescape key, ← queryUnescape value)

/-- The settings of a query that are not refused, decoded. -/
def settings (query : GoString) : List (GoString × GoString) :=
  (query.splitOn ampersand).filterMap parseSetting

/-- The settings of a query that are refused, as they are written. An empty one is none. -/
def refusedSettings (query : GoString) : List GoString :=
  (query.splitOn ampersand).filter fun setting =>
    setting ≠ [] ∧ (parseSetting setting).isNone

/-- The values of one key among settings, in their order. -/
def valuesOf (key : GoString) (settings : List (GoString × GoString)) : List GoString :=
  settings.flatMap fun setting => if setting.1 = key then [setting.2] else []

/-- What a query says about a key. -/
def queryValues (query key : GoString) : List GoString :=
  valuesOf key (settings query)

/-- The number of settings up to which a query is read. -/
def maxQueryParams : Nat := 10000

/-- `url.ParseQuery`, of which the callers ignore the error. A query of too many settings is
refused as a whole. -/
def parseQuery (query : GoString) : Values :=
  if maxQueryParams < query.count ampersand + 1 then ∅
  else (settings query).foldl (fun values setting => values.add setting.1 setting.2) ∅

/-- A hexadecimal digit. -/
def upperHex (value : UInt8) : UInt8 :=
  if value < 10 then 0x30 + value else 0x41 + (value - 10)

/-- The bytes that stay as they are in a query. -/
def unreserved (byte : UInt8) : Bool :=
  isLetter byte || isDecimal byte || (text "-_.~").contains byte

/-- What `url.QueryEscape` writes for a byte. -/
def queryEscapeByte (byte : UInt8) : GoString :=
  if unreserved byte then [byte]
  else if byte = 0x20 then [plusSign]
  else [percent, upperHex (byte / 16), upperHex (byte % 16)]

/-- `url.QueryEscape`. -/
def queryEscape (string : GoString) : GoString :=
  string.flatMap queryEscapeByte

/-- A setting as `Encode` writes it. -/
def encodeSetting (setting : GoString × GoString) : GoString :=
  queryEscape setting.1 ++ equalsSign :: queryEscape setting.2

/-- The settings that `Encode` writes, in the order of their keys. -/
def sortedSettings (values : Values) : List (GoString × GoString) :=
  (values.keys.mergeSort (fun key other => decide (key ≤ other))).flatMap fun key =>
    (values.get key).map fun value => (key, value)

/-- `Values.Encode`. -/
def encode (values : Values) : GoString :=
  [ampersand].intercalate ((sortedSettings values).map encodeSetting)

/-! ## Escapes -/

theorem queryEscapeByte_separators (byte : UInt8) :
    ampersand ∉ queryEscapeByte byte ∧ equalsSign ∉ queryEscapeByte byte ∧
      semicolon ∉ queryEscapeByte byte := by
  have every : ∀ number < 256, ampersand ∉ queryEscapeByte (UInt8.ofNat number) ∧
      equalsSign ∉ queryEscapeByte (UInt8.ofNat number) ∧
        semicolon ∉ queryEscapeByte (UInt8.ofNat number) := by decide +kernel
  simpa using every byte.toNat byte.toNat_lt

theorem unreserved_plain {byte : UInt8} (plain : unreserved byte = true) :
    byte ≠ plusSign ∧ byte ≠ percent := by
  refine ⟨?_, ?_⟩
  · rintro rfl
    exact absurd plain (by decide)
  · rintro rfl
    exact absurd plain (by decide)

theorem upperHex_digits (byte : UInt8) :
    plusToSpace (upperHex (byte / 16)) = upperHex (byte / 16) ∧
      plusToSpace (upperHex (byte % 16)) = upperHex (byte % 16) ∧
        unhex (upperHex (byte / 16)) = some (byte / 16) ∧
          unhex (upperHex (byte % 16)) = some (byte % 16) ∧
            16 * (byte / 16) + byte % 16 = byte := by
  have every : ∀ number < 256,
      plusToSpace (upperHex (UInt8.ofNat number / 16)) = upperHex (UInt8.ofNat number / 16) ∧
        plusToSpace (upperHex (UInt8.ofNat number % 16)) = upperHex (UInt8.ofNat number % 16) ∧
          unhex (upperHex (UInt8.ofNat number / 16)) = some (UInt8.ofNat number / 16) ∧
            unhex (upperHex (UInt8.ofNat number % 16)) = some (UInt8.ofNat number % 16) ∧
              16 * (UInt8.ofNat number / 16) + UInt8.ofNat number % 16 =
                UInt8.ofNat number := by decide +kernel
  simpa using every byte.toNat byte.toNat_lt

theorem queryUnescape_escapeByte (byte : UInt8) (rest : GoString) :
    queryUnescape (queryEscapeByte byte ++ rest) =
      (queryUnescape rest).map (byte :: ·) := by
  unfold queryUnescape queryEscapeByte
  by_cases plain : unreserved byte = true
  · have other := unreserved_plain plain
    rw [if_pos plain, List.singleton_append, List.map_cons, plusToSpace, if_neg other.1]
    exact pathUnescape_cons_of_ne other.2 _
  · rw [if_neg plain]
    by_cases space : byte = 0x20
    · subst space
      exact pathUnescape_cons_of_ne (by decide) _
    · rcases upperHex_digits byte with ⟨highPlain, lowPlain, high, low, same⟩
      rw [if_neg space]
      simp only [List.cons_append, List.nil_append, List.map_cons, highPlain, lowPlain]
      rw [show plusToSpace percent = percent by decide, pathUnescape_percent, high, low]
      simp only [Option.bind_some, same]

theorem queryUnescape_escape (string : GoString) :
    queryUnescape (queryEscape string) = some string := by
  induction string with
  | nil => rfl
  | cons byte rest inductionHypothesis =>
      rw [queryEscape, List.flatMap_cons, queryUnescape_escapeByte]
      unfold queryEscape at inductionHypothesis
      rw [inductionHypothesis]
      rfl

theorem queryEscape_separators (string : GoString) :
    ampersand ∉ queryEscape string ∧ equalsSign ∉ queryEscape string ∧
      semicolon ∉ queryEscape string := by
  unfold queryEscape
  simp only [List.mem_flatMap, not_exists, not_and]
  refine ⟨?_, ?_, ?_⟩
  · intro byte _
    exact (queryEscapeByte_separators byte).1
  · intro byte _
    exact (queryEscapeByte_separators byte).2.1
  · intro byte _
    exact (queryEscapeByte_separators byte).2.2

theorem parseSetting_encodeSetting (setting : GoString × GoString) :
    parseSetting (encodeSetting setting) = some setting := by
  have key := queryEscape_separators setting.1
  have value := queryEscape_separators setting.2
  have accepted : ¬(semicolon ∈ encodeSetting setting ∨ encodeSetting setting = []) := by
    simp [encodeSetting, key.2.2, value.2.2]
    decide
  have cuts : cutOff equalsSign (encodeSetting setting) =
      (queryEscape setting.1, queryEscape setting.2) := by
    rw [cutOff, encodeSetting, cut_append key.2.1]
    rfl
  rw [parseSetting, if_neg accepted, cuts]
  simp [queryUnescape_escape]

theorem ampersand_not_mem_encodeSetting (setting : GoString × GoString) :
    ampersand ∉ encodeSetting setting := by
  have key := (queryEscape_separators setting.1).1
  have value := (queryEscape_separators setting.2).1
  simp only [encodeSetting, List.mem_append, List.mem_cons, not_or]
  exact ⟨key, by decide, value⟩

theorem splitOn_encode (values : Values) : (encode values).splitOn ampersand =
    if sortedSettings values = [] then [[]] else (sortedSettings values).map encodeSetting := by
  unfold encode
  split
  · next empty => rw [empty, List.map_nil, List.intercalate_nil, List.splitOn_nil]
  · next some =>
      refine List.splitOn_intercalate ampersand ?_ (by simpa using some)
      intro written writtenMem
      rcases List.mem_map.mp writtenMem with ⟨setting, _, rfl⟩
      exact ampersand_not_mem_encodeSetting setting

theorem settings_encode (values : Values) : settings (encode values) = sortedSettings values := by
  rw [settings, splitOn_encode]
  split
  · next empty =>
      rw [empty]
      rfl
  · simp [parseSetting_encodeSetting]

/-- Nothing that is encoded is refused. -/
theorem refusedSettings_encode (values : Values) : refusedSettings (encode values) = [] := by
  rw [refusedSettings, splitOn_encode]
  split
  · rfl
  · rw [List.filter_eq_nil_iff, List.forall_mem_map]
    intro setting _
    simp [parseSetting_encodeSetting]

/-! ## The values of a key -/

theorem get_add (values : Values) (stored value key : GoString) :
    (values.add stored value).get key =
      values.get key ++ if stored = key then [value] else [] := by
  unfold Values.add
  by_cases same : stored = key
  · subst same
    simp [Values.get]
  · rw [if_neg same, List.append_nil, Values.get, AList.lookup_insert_ne (Ne.symm same)]
    rfl

theorem get_parseQuery (query key : GoString) :
    (parseQuery query).get key =
      if maxQueryParams < query.count ampersand + 1 then [] else queryValues query key := by
  have added (settings : List (GoString × GoString)) (values : Values) :
      (settings.foldl (fun values setting => values.add setting.1 setting.2) values).get key =
        values.get key ++ valuesOf key settings := by
    induction settings generalizing values with
    | nil => exact (List.append_nil _).symm
    | cons setting settings inductionHypothesis =>
        rw [List.foldl_cons, inductionHypothesis, get_add, valuesOf, valuesOf, List.flatMap_cons,
          List.append_assoc]
  unfold parseQuery
  split
  · rfl
  · exact added _ ∅

/-- A key that occurs once contributes once. -/
theorem flatMap_of_nodup {keys : List GoString} (nodup : keys.Nodup) (key : GoString)
    (values : List GoString) :
    (keys.flatMap fun other => if other = key then values else []) =
      if key ∈ keys then values else [] := by
  induction keys with
  | nil => rfl
  | cons other keys inductionHypothesis =>
      rw [List.nodup_cons] at nodup
      rw [List.flatMap_cons, inductionHypothesis nodup.2]
      by_cases same : other = key
      · subst same
        simp [nodup.1]
      · simp [same, Ne.symm same]

theorem valuesOf_sortedSettings (key : GoString) (values : Values) :
    valuesOf key (sortedSettings values) = values.get key := by
  have block (other : GoString) :
      valuesOf key ((values.get other).map fun value => (other, value)) =
        if other = key then values.get key else [] := by
    by_cases same : other = key
    · subst same
      simp [valuesOf, List.flatMap_map]
    · simp [valuesOf, List.flatMap_map, same]
  have sorted := List.mergeSort_perm values.keys fun key other => decide (key ≤ other)
  have blocks : valuesOf key (sortedSettings values) =
      (values.keys.mergeSort fun key other => decide (key ≤ other)).flatMap fun other =>
        if other = key then values.get key else [] := by
    rw [sortedSettings, valuesOf, List.flatMap_assoc]
    exact List.flatMap_congr fun other _ => block other
  rw [blocks, flatMap_of_nodup (sorted.nodup_iff.mpr values.keys_nodup)]
  by_cases held : key ∈ values.keys
  · exact if_pos (sorted.mem_iff.mpr held)
  · rw [if_neg (mt sorted.mem_iff.mp held), Values.get,
      AList.lookup_eq_none.mpr (mt AList.mem_keys.mp held)]
    rfl

/-- What is encoded is what the query says. -/
theorem queryValues_encode (values : Values) (key : GoString) :
    queryValues (encode values) key = values.get key := by
  rw [queryValues, settings_encode, valuesOf_sortedSettings]

end Url

end Foundation
