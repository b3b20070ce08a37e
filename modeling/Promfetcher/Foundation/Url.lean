import Promfetcher.Foundation.Cut
import Promfetcher.Foundation.Text

/-!
# URLs

`url.Parse` of the package `net/url`. It is given here in two steps: a URL is cut at
its delimiters, and the parts are then decoded and checked. A fragment is cut off
first and the query next, so that the authority is the text between `//` and the
slash behind it.

What stands between the brackets of an IP literal is given to `netip.ParseAddr`,
which is left open. So is for which schemes a host may have several colons, which
depends on the version of Go.
-/

namespace Foundation

/-- The byte in front of a fragment. -/
def hashSign : UInt8 := 0x23

/-- The byte behind a scheme and in front of a port. -/
def colon : UInt8 := 0x3A

/-- The byte behind the user of an authority. -/
def atSign : UInt8 := 0x40

/-- What the model leaves open of the packages `net/netip` and `net/url`. -/
class NetRules where
  /-- `ParseAddr` accepts the text, and the address is not an IPv4 address. -/
  isIPLiteral : GoString → Bool
  /-- A URL of the scheme may have colons in its host, before that of the port. Go 1.26 allows them
  for Postgres only, and later versions for every scheme that is not one of HTTP. -/
  manyColons : GoString → Bool
  manyColons_http : manyColons (text "http") = false
  manyColons_https : manyColons (text "https") = false

/-- The rules of Go 1.26. For texts without an IP literal, any answer is the right one. -/
@[reducible] def NetRules.noLiterals : NetRules where
  isIPLiteral _ := false
  manyColons scheme := scheme = text "postgresql" ∨ scheme = text "postgres"
  manyColons_http := by decide
  manyColons_https := by decide

/-- A letter of ASCII. -/
def isLetter (byte : UInt8) : Bool :=
  (0x61 ≤ byte && byte ≤ 0x7A) || (0x41 ≤ byte && byte ≤ 0x5A)

/-- A decimal digit. -/
def isDecimal (byte : UInt8) : Bool :=
  0x30 ≤ byte && byte ≤ 0x39

/-- The bytes that `stringContainsCTLByte` looks for. -/
def isControl (byte : UInt8) : Bool :=
  byte < 0x20 || byte == 0x7F

/-- A URL cut at its delimiters. Nothing but the scheme is decoded. -/
structure UrlParts where
  scheme : GoString := []
  /-- What stands in place of a path that does not start with a slash, behind a scheme. -/
  rootless : GoString := []
  authority : Option GoString := none
  path : GoString := []
  query : GoString := []
  fragment : GoString := []
  deriving DecidableEq, Repr

/-- `url.Userinfo`: a user, with or without a password. -/
structure Userinfo where
  username : GoString
  password : Option GoString := none
  deriving DecidableEq, Repr

/-- `url.URL`, as far as it is used. -/
structure Url where
  scheme : GoString := []
  rootless : GoString := []
  user : Option Userinfo := none
  host : GoString := []
  path : GoString := []
  rawQuery : GoString := []
  fragment : GoString := []
  deriving DecidableEq, Repr

namespace Url

/-! ## Cutting -/

/-- `getScheme`: the scheme and the rest. It fails for a text that starts with a colon. -/
def getScheme (raw : GoString) : Option (GoString × GoString) :=
  match raw with
  | [] => some ([], [])
  | first :: _ =>
      if first = colon then none
      else if !isLetter first then some ([], raw)
      else
        let byteOfScheme (byte : UInt8) : Bool :=
          isLetter byte || isDecimal byte || byte == 0x2B || byte == 0x2D || byte == 0x2E
        match raw.dropWhile byteOfScheme with
        | next :: rest =>
            if next = colon then some (raw.takeWhile byteOfScheme, rest) else some ([], raw)
        | [] => some ([], raw)

/-- The parts before and behind the first separator, with nothing behind it if there is none. -/
def cutOff (separator : UInt8) (string : GoString) : GoString × GoString :=
  (cut separator string).getD (string, [])

/-- The text behind `//` up to the next slash, and the rest from there on. -/
def splitAuthority (rest : GoString) : GoString × GoString :=
  (rest.takeWhile (· != slash), rest.dropWhile (· != slash))

/-- The part of a URL without fragment and query that follows the scheme. -/
def splitHierarchy (scheme rest : GoString) : Option UrlParts :=
  if rest.head? ≠ some slash ∧ scheme ≠ [] then some { rootless := rest }
  else if rest.head? ≠ some slash ∧ colon ∈ (cutOff slash rest).1 then none
  else if hasPrefix rest [slash, slash] ∧
      (scheme ≠ [] ∨ ¬hasPrefix rest [slash, slash, slash]) then
    let (authority, path) := splitAuthority (rest.drop 2)
    some { authority := some authority, path := path }
  else some { path := rest }

/-- `url.Parse` up to the decoding: the parts of a URL as they are written. -/
def split (raw : GoString) : Option UrlParts :=
  let (raw, fragment) := cutOff hashSign raw
  if raw.any isControl then none
  else if raw = [0x2A] then some { path := raw, fragment := fragment }
  else do
    let (scheme, rest) ← getScheme raw
    let scheme := scheme.map lowerByte
    let (rest, query) := cutOff questionMark rest
    let parts ← splitHierarchy scheme rest
    return { parts with scheme := scheme, query := query, fragment := fragment }

/-! ## Decoding and checking -/

/-- The bytes that a host may contain as they are. -/
def hostByte (byte : UInt8) : Bool :=
  isLetter byte || isDecimal byte || (text "!$&'()*+,;=:[]<>\"-_.~").contains byte

/-- `unescape` for a host or a zone, which restrict the bytes that stand as they are and those
that stand as an escape. -/
def unescapeHost (escapable : UInt8 → Bool) : GoString → Option GoString
  | [] => some []
  | byte :: rest =>
      if byte ≠ percent then
        if byte < 0x80 ∧ hostByte byte = false then none
        else (unescapeHost escapable rest).map (byte :: ·)
      else match rest with
        | high :: low :: rest => do
            let value := 16 * (← unhex high) + (← unhex low)
            if escapable value then return value :: (← unescapeHost escapable rest) else none
        | _ => none

/-- In a host, an escape stands for a percent sign or for a byte outside ASCII. -/
def hostEscape (value : UInt8) : Bool :=
  value == percent || 0x80 ≤ value

/-- A byte that the zone of an IPv6 address may have decoded. -/
def zoneEscape (value : UInt8) : Bool :=
  value == percent || value == 0x20 || hostByte value

/-- `validUserinfo`. -/
def validUserinfo (userinfo : GoString) : Bool :=
  userinfo.all fun byte =>
    isLetter byte || isDecimal byte || (text "-._:~!$&'()*+,;=%@").contains byte

/-- `validOptionalPort`. -/
def validOptionalPort : GoString → Bool
  | [] => true
  | mark :: digits => mark == colon && digits.all isDecimal

section

variable [NetRules]

/-- An IP literal with its port, given the text behind the opening bracket. -/
def parseIPLiteral (rest : GoString) : Option GoString := do
  let (hostname, colonPort) ← cutLast 0x5D rest
  if validOptionalPort colonPort then
    -- `%25` starts the zone.
    let address := hostname.take (zoneIndex hostname)
    let zone := hostname.drop (zoneIndex hostname)
    let decoded := (← unescapeHost hostEscape address) ++ (← unescapeHost zoneEscape zone)
    if NetRules.isIPLiteral decoded then return 0x5B :: decoded ++ 0x5D :: colonPort else none
  else none
where
  /-- `strings.Index` for `%25`, with the length for no occurrence. -/
  zoneIndex : GoString → Nat
    | [] => 0
    | byte :: rest =>
        if hasPrefix (byte :: rest) (text "%25") then 0 else zoneIndex rest + 1

/-- `parseHost`. -/
def parseHost (scheme host : GoString) : Option GoString :=
  match cutLast 0x5B host with
  | some ([], rest) => parseIPLiteral rest
  | some (_ :: _, _) => none
  | none =>
      let colonPort :=
        if NetRules.manyColons scheme then
          ((cutLast colon host).map fun parts => colon :: parts.2).getD []
        else host.dropWhile (· != colon)
      if validOptionalPort colonPort then unescapeHost hostEscape host else none

/-- `parseAuthority`. -/
def parseAuthority (scheme authority : GoString) : Option (Option Userinfo × GoString) :=
  match cutLast atSign authority with
  | none => (parseHost scheme authority).map fun host => (none, host)
  | some (userinfo, host) => do
      let host ← parseHost scheme host
      if validUserinfo userinfo then
        match cut colon userinfo with
        | none => return (some { username := ← pathUnescape userinfo }, host)
        | some (username, password) =>
            let username ← pathUnescape username
            return (some { username := username, password := some (← pathUnescape password) }, host)
      else none

/-- The second step of `url.Parse`. -/
def ofParts (parts : UrlParts) : Option Url := do
  let (user, host) ←
    match parts.authority with
    | none => some (none, [])
    | some authority => parseAuthority parts.scheme authority
  return {
    scheme := parts.scheme
    rootless := parts.rootless
    user := user
    host := host
    path := ← pathUnescape parts.path
    rawQuery := parts.query
    fragment := ← pathUnescape parts.fragment }

/-- `url.Parse`. -/
def parse (raw : GoString) : Option Url :=
  (split raw).bind ofParts

end

/-! ## How a URL with an authority is cut -/

theorem cutOff_append {separator : UInt8} {pre : GoString} (absent : separator ∉ pre)
    (string : GoString) : cutOff separator (pre ++ string) =
      (pre ++ (cutOff separator string).1, (cutOff separator string).2) := by
  unfold cutOff
  cases found : cut separator string with
  | none =>
      have none : cut separator (pre ++ string) = none := by
        rw [cut_eq_none_iff, List.mem_append, not_or]
        exact ⟨absent, cut_eq_none_iff.mp found⟩
      rw [none]
      rfl
  | some parts =>
      rcases cut_eq_some_iff.mp found with ⟨rfl, absentBefore⟩
      rw [← List.append_assoc, cut_append]
      · rfl
      · rw [List.mem_append, not_or]
        exact ⟨absent, absentBefore⟩

theorem not_mem_cutOff (separator : UInt8) (string : GoString) :
    separator ∉ (cutOff separator string).1 := by
  unfold cutOff
  cases found : cut separator string with
  | none => exact cut_eq_none_iff.mp found
  | some parts => exact (cut_eq_some_iff.mp found).2

theorem splitAuthority_append {authority : GoString} (plain : slash ∉ authority)
    {path : GoString} (rooted : path = [] ∨ path.head? = some slash) :
    splitAuthority (authority ++ path) = (authority, path) := by
  have all : ∀ byte ∈ authority, (byte != slash) = true := by
    intro byte byteMem
    rw [bne_iff_ne]
    exact fun same => plain (same ▸ byteMem)
  rw [splitAuthority, List.takeWhile_append_of_pos all, List.dropWhile_append_of_pos all]
  rcases path with _ | ⟨first, rest⟩
  · simp
  · have isSlash : first = slash := by simpa using rooted
    simp [isSlash]

/-- The scheme is a word of small letters. -/
def PlainScheme (scheme : GoString) : Prop :=
  scheme ≠ [] ∧ ∀ byte ∈ scheme, 0x61 ≤ byte ∧ byte ≤ 0x7A

theorem getScheme_of_plain {scheme : GoString} (plain : PlainScheme scheme) (rest : GoString) :
    getScheme (scheme ++ colon :: rest) = some (scheme, rest) := by
  have letters (byte : UInt8) (byteMem : byte ∈ scheme) : isLetter byte = true := by
    simp [isLetter, plain.2 byte byteMem]
  have inScheme : ∀ byte ∈ scheme, (isLetter byte || isDecimal byte || byte == 0x2B ||
      byte == 0x2D || byte == 0x2E) = true := by
    intro byte byteMem
    simp [letters byte byteMem]
  rcases scheme with _ | ⟨first, others⟩
  · exact absurd rfl plain.1
  · have firstLetter := letters first List.mem_cons_self
    have notColon : first ≠ colon := by
      rintro rfl
      exact absurd firstLetter (by decide)
    simp only [getScheme, List.cons_append, if_neg notColon, firstLetter, Bool.not_true,
      Bool.false_eq_true, if_false]
    rw [← List.cons_append, List.dropWhile_append_of_pos inScheme,
      List.takeWhile_append_of_pos inScheme]
    simp [colon, isLetter, isDecimal]

/-- The two cuts of the text behind `://`, at the fragment and then at the query. -/
def beforeFragment (body : GoString) : GoString :=
  (cutOff hashSign body).1

/-- What stands in front of the query and of the fragment. -/
def beforeQuery (body : GoString) : GoString :=
  (cutOff questionMark (beforeFragment body)).1

theorem PlainScheme.map_lowerByte {scheme : GoString} (plain : PlainScheme scheme) :
    scheme.map lowerByte = scheme := by
  refine (List.map_congr_left ?_).trans (List.map_id scheme)
  intro byte byteMem
  refine if_neg fun upper => ?_
  have small := (plain.2 byte byteMem).1
  exact absurd (UInt8.le_trans small upper.2) (by decide)

theorem PlainScheme.not_control {scheme : GoString} (plain : PlainScheme scheme) :
    scheme.any isControl = false := by
  rw [List.any_eq_false]
  intro byte byteMem control
  have bounds := plain.2 byte byteMem
  simp only [isControl, Bool.or_eq_true, decide_eq_true_eq, beq_iff_eq] at control
  rcases control with below | rfl
  · exact absurd (UInt8.lt_of_le_of_lt bounds.1 below) (by decide)
  · exact absurd bounds.2 (by decide)

theorem splitHierarchy_slashes {scheme : GoString} (some : scheme ≠ []) (rest : GoString) :
    splitHierarchy scheme (slash :: slash :: rest) =
      .some { authority := .some (splitAuthority rest).1, path := (splitAuthority rest).2 } := by
  simp [splitHierarchy, hasPrefix, some]

theorem split_of_plain {scheme : GoString} (plain : PlainScheme scheme) (body : GoString) :
    split (scheme ++ text "://" ++ body) =
      if (beforeFragment body).any isControl then none
      else some
        { scheme := scheme
          authority := some (splitAuthority (beforeQuery body)).1
          path := (splitAuthority (beforeQuery body)).2
          query := (cutOff questionMark (beforeFragment body)).2
          fragment := (cutOff hashSign body).2 } := by
  have noHash : hashSign ∉ scheme ++ text "://" := by
    intro inScheme
    rcases List.mem_append.mp inScheme with here | there
    · exact absurd (plain.2 _ here) (by decide)
    · exact absurd there (by decide)
  have control : (scheme ++ text "://" ++ beforeFragment body).any isControl =
      (beforeFragment body).any isControl := by
    rw [List.any_append, List.any_append, plain.not_control]
    rfl
  have notStar : scheme ++ text "://" ++ beforeFragment body ≠ [0x2A] := by
    intro star
    have inStar : colon ∈ scheme ++ text "://" ++ beforeFragment body := by
      simp [show text "://" = [colon, slash, slash] from rfl]
    rw [star] at inStar
    exact absurd inStar (by decide)
  have behind : scheme ++ text "://" ++ beforeFragment body =
      scheme ++ colon :: ([slash, slash] ++ beforeFragment body) := by
    rw [List.append_assoc]
    rfl
  have noQuestion : questionMark ∉ [slash, slash] := by decide
  have cutsFragment : cutOff hashSign (scheme ++ text "://" ++ body) =
      (scheme ++ text "://" ++ beforeFragment body, (cutOff hashSign body).2) :=
    cutOff_append noHash body
  rw [split, cutsFragment]
  dsimp only
  rw [control]
  refine if_congr Iff.rfl rfl ?_
  rw [if_neg notStar, behind, getScheme_of_plain plain]
  simp only [Option.bind_eq_bind, Option.bind_some, plain.map_lowerByte, cutOff_append noQuestion]
  rw [List.cons_append, List.cons_append, List.nil_append, splitHierarchy_slashes plain.1]
  rfl

/-! ## Where the pieces of a body are joined -/

theorem mem_of_mem_cutOff {separator byte : UInt8} {string : GoString}
    (byteMem : byte ∈ (cutOff separator string).1) : byte ∈ string := by
  unfold cutOff at byteMem
  cases found : cut separator string with
  | none =>
      rw [found] at byteMem
      exact byteMem
  | some parts =>
      rw [found] at byteMem
      rw [(cut_eq_some_iff.mp found).1]
      exact List.mem_append_left _ byteMem

/-- The delimiters stand where an authority and a path are joined, and nowhere before. -/
structure Separated (authority path : GoString) : Prop where
  authority : slash ∉ authority ∧ questionMark ∉ authority ∧ hashSign ∉ authority
  rooted : path = [] ∨ path.head? = some slash
  plain : hashSign ∉ path

/-- Cutting the fragment off first makes no difference to the path. -/
theorem cutOff_beforeFragment {written : GoString}
    (plain : hashSign ∉ (cutOff questionMark written).1) :
    cutOff questionMark (beforeFragment written) =
      ((cutOff questionMark written).1, beforeFragment (cutOff questionMark written).2) := by
  cases found : cut questionMark written with
  | none =>
      have whole : cutOff questionMark written = (written, []) := by
        rw [cutOff, found]
        rfl
      rw [whole] at plain ⊢
      have uncut : beforeFragment written = written := by
        rw [beforeFragment, cutOff, cut_eq_none_iff.mpr plain]
        rfl
      rw [uncut, whole]
      rfl
  | some parts =>
      rcases cut_eq_some_iff.mp found with ⟨rfl, absent⟩
      have cuts (rest : GoString) :
          cutOff questionMark (parts.1 ++ questionMark :: rest) = (parts.1, rest) := by
        rw [cutOff, cut_append absent]
        rfl
      rw [cuts] at plain ⊢
      have behind : beforeFragment (parts.1 ++ questionMark :: parts.2) =
          parts.1 ++ questionMark :: beforeFragment parts.2 := by
        have notHash : hashSign ∉ [questionMark] := by decide
        rw [beforeFragment, cutOff_append plain, ← List.singleton_append,
          cutOff_append notHash]
        rfl
      rw [behind, cuts]

theorem splitAuthority_iff {authority written : GoString} :
    splitAuthority (beforeQuery (authority ++ written)) =
        (authority, (cutOff questionMark written).1) ↔
      Separated authority (cutOff questionMark written).1 := by
  constructor
  · intro cuts
    have pieces := Prod.mk.inj cuts
    have joined : beforeQuery (authority ++ written) =
        authority ++ (cutOff questionMark written).1 :=
      List.takeWhile_append_dropWhile.symm.trans (congrArg₂ (· ++ ·) pieces.1 pieces.2)
    have noQuestion : questionMark ∉ beforeQuery (authority ++ written) := not_mem_cutOff _ _
    have noHash : hashSign ∉ beforeQuery (authority ++ written) :=
      fun inBody => not_mem_cutOff hashSign _ (mem_of_mem_cutOff inBody)
    rw [joined, List.mem_append, not_or] at noQuestion noHash
    refine ⟨⟨?_, noQuestion.1, noHash.1⟩, ?_, noHash.2⟩
    · intro inAuthority
      rw [← pieces.1] at inAuthority
      simpa using List.all_eq_true.mp List.all_takeWhile slash inAuthority
    · rw [← pieces.2]
      have first := List.head?_dropWhile_not (· != slash) (beforeQuery (authority ++ written))
      cases rest : (beforeQuery (authority ++ written)).dropWhile (· != slash) with
      | nil => exact Or.inl rfl
      | cons byte rest =>
          rw [rest] at first
          exact Or.inr (by simpa using first)
  · rintro ⟨⟨noSlash, noQuestion, noHash⟩, rooted, plain⟩
    rw [beforeQuery, beforeFragment, cutOff_append noHash, cutOff_append noQuestion]
    change splitAuthority (authority ++ (cutOff questionMark (beforeFragment written)).1) = _
    rw [cutOff_beforeFragment plain, splitAuthority_append noSlash rooted]

theorem split_of_separated {scheme : GoString} (plain : PlainScheme scheme)
    {authority written : GoString}
    (separated : Separated authority (cutOff questionMark written).1) :
    split (scheme ++ text "://" ++ (authority ++ written)) =
      if (authority ++ beforeFragment written).any isControl then none
      else some
        { scheme := scheme
          authority := some authority
          path := (cutOff questionMark written).1
          query := beforeFragment (cutOff questionMark written).2
          fragment := (cutOff hashSign written).2 } := by
  have body : cutOff hashSign (authority ++ written) =
      (authority ++ beforeFragment written, (cutOff hashSign written).2) :=
    cutOff_append separated.authority.2.2 written
  have query : (cutOff questionMark (authority ++ beforeFragment written)).2 =
      beforeFragment (cutOff questionMark written).2 := by
    rw [cutOff_append separated.authority.2.1, cutOff_beforeFragment separated.plain]
  have cuts := split_of_plain plain (authority ++ written)
  rw [splitAuthority_iff.mpr separated] at cuts
  unfold beforeFragment at cuts
  rw [body] at cuts
  dsimp only at cuts
  rw [query] at cuts
  exact cuts

theorem separated_of_split {scheme : GoString} (plain : PlainScheme scheme)
    {authority written : GoString} {parts : UrlParts}
    (isSplit : split (scheme ++ text "://" ++ (authority ++ written)) = some parts)
    (whole : parts.authority = some authority)
    (path : parts.path = (cutOff questionMark written).1) :
    Separated authority (cutOff questionMark written).1 := by
  rw [split_of_plain plain] at isSplit
  split at isSplit
  · cases isSplit
  · cases isSplit
    exact splitAuthority_iff.mp (Prod.ext (Option.some.inj whole) path)

section

variable [NetRules]

theorem ofParts_isSome_iff {parts : UrlParts} {authority : GoString}
    (given : parts.authority = some authority) :
    (ofParts parts).isSome ↔ (parseAuthority parts.scheme authority).isSome ∧
      (pathUnescape parts.path).isSome ∧ (pathUnescape parts.fragment).isSome := by
  simp only [ofParts, given]
  cases parseAuthority parts.scheme authority <;> cases pathUnescape parts.path <;>
    cases pathUnescape parts.fragment <;> simp

theorem ofParts_fields {parts : UrlParts} {url : Url} (decoded : ofParts parts = some url) :
    url.scheme = parts.scheme ∧ url.rawQuery = parts.query := by
  unfold ofParts at decoded
  split at decoded <;>
  · simp only [Option.bind_eq_bind, Option.bind_eq_some_iff, Option.pure_def,
      Option.some.injEq] at decoded
    rcases decoded with ⟨_, _, _, _, _, _, rfl⟩
    exact ⟨rfl, rfl⟩

end

/-! ## The bytes of a host -/

/-- Neither of the bytes that end an authority and a user. -/
def InnerByte (byte : UInt8) : Prop :=
  byte ≠ slash ∧ byte ≠ atSign

theorem innerByte_of_hostByte {byte : UInt8} (inHost : hostByte byte = true) :
    InnerByte byte := by
  constructor
  · rintro rfl
    exact absurd inHost (by decide)
  · rintro rfl
    exact absurd inHost (by decide)

theorem innerByte_of_high {byte : UInt8} (high : 0x80 ≤ byte) : InnerByte byte := by
  constructor
  · rintro rfl
    exact absurd high (by decide)
  · rintro rfl
    exact absurd high (by decide)

theorem unescapeHost_cons_of_ne {escapable : UInt8 → Bool} {byte : UInt8} (plain : byte ≠ percent)
    (rest : GoString) :
    unescapeHost escapable (byte :: rest) =
      if byte < 0x80 ∧ hostByte byte = false then none
      else (unescapeHost escapable rest).map (byte :: ·) := by
  rw [unescapeHost.eq_def]
  exact if_pos plain

theorem unescapeHost_inner {escapable : UInt8 → Bool}
    (inner : ∀ value, escapable value = true → InnerByte value) {string host : GoString}
    (decoded : unescapeHost escapable string = some host) : ∀ byte ∈ host, InnerByte byte := by
  generalize isLength : string.length = length
  induction length using Nat.strong_induction_on generalizing string host with
  | h length inductionHypothesis =>
      subst isLength
      rcases string with _ | ⟨first, rest⟩
      · cases decoded
        simp
      · by_cases escape : first = percent
        · subst escape
          rw [unescapeHost.eq_def] at decoded
          dsimp only at decoded
          rw [if_neg (by simp)] at decoded
          rcases rest with _ | ⟨high, _ | ⟨low, rest⟩⟩
          · cases decoded
          · cases decoded
          · simp only [Option.bind_eq_bind, Option.bind_eq_some_iff] at decoded
            rcases decoded with ⟨_, _, _, _, accepted⟩
            split at accepted
            · next escapes =>
                rcases Option.bind_eq_some_iff.mp accepted with ⟨_, restDecoded, same⟩
                cases same
                refine List.forall_mem_cons.mpr ⟨inner _ escapes, ?_⟩
                exact inductionHypothesis _ (by simp; omega) restDecoded rfl
            · cases accepted
        · rw [unescapeHost_cons_of_ne escape] at decoded
          split at decoded
          · cases decoded
          · next allowed =>
              rcases Option.map_eq_some_iff.mp decoded with ⟨_, restDecoded, rfl⟩
              refine List.forall_mem_cons.mpr
                ⟨?_, inductionHypothesis _ (by simp) restDecoded rfl⟩
              by_cases ascii : first < 0x80
              · exact innerByte_of_hostByte (by simpa [ascii] using allowed)
              · exact innerByte_of_high (UInt8.not_lt.mp ascii)

theorem hostEscape_inner {value : UInt8} (escapes : hostEscape value = true) :
    InnerByte value := by
  simp only [hostEscape, Bool.or_eq_true, beq_iff_eq, decide_eq_true_eq] at escapes
  rcases escapes with rfl | high
  · exact ⟨by decide, by decide⟩
  · exact innerByte_of_high high

theorem zoneEscape_inner {value : UInt8} (escapes : zoneEscape value = true) :
    InnerByte value := by
  simp only [zoneEscape, Bool.or_eq_true, beq_iff_eq] at escapes
  rcases escapes with (rfl | rfl) | inHost
  · exact ⟨by decide, by decide⟩
  · exact ⟨by decide, by decide⟩
  · exact innerByte_of_hostByte inHost

theorem validOptionalPort_inner {port : GoString} (valid : validOptionalPort port = true) :
    ∀ byte ∈ port, InnerByte byte := by
  rcases port with _ | ⟨mark, digits⟩
  · simp
  · simp only [validOptionalPort, Bool.and_eq_true, beq_iff_eq, List.all_eq_true] at valid
    refine List.forall_mem_cons.mpr ⟨valid.1 ▸ ⟨by decide, by decide⟩, fun digit digitMem => ?_⟩
    refine innerByte_of_hostByte ?_
    simp [hostByte, valid.2 digit digitMem]

section

variable [NetRules]

theorem parseIPLiteral_inner {rest host : GoString} (accepted : parseIPLiteral rest = some host) :
    ∀ byte ∈ host, InnerByte byte := by
  simp only [parseIPLiteral, Option.bind_eq_bind, Option.bind_eq_some_iff] at accepted
  rcases accepted with ⟨⟨hostname, colonPort⟩, _, accepted⟩
  dsimp only at accepted
  split at accepted
  · next valid =>
      simp only [Option.bind_eq_some_iff] at accepted
      rcases accepted with ⟨address, isAddress, zone, isZone, accepted⟩
      split at accepted
      · cases accepted
        have brackets : InnerByte 0x5B ∧ InnerByte 0x5D :=
          ⟨innerByte_of_hostByte (by decide), innerByte_of_hostByte (by decide)⟩
        intro byte byteMem
        simp only [List.cons_append, List.mem_cons, List.mem_append] at byteMem
        rcases byteMem with rfl | (inAddress | inZone) | rfl | inPort
        · exact brackets.1
        · exact unescapeHost_inner (fun _ => hostEscape_inner) isAddress byte inAddress
        · exact unescapeHost_inner (fun _ => zoneEscape_inner) isZone byte inZone
        · exact brackets.2
        · exact validOptionalPort_inner valid byte inPort
      · cases accepted
  · cases accepted

theorem parseHost_inner {scheme string host : GoString}
    (accepted : parseHost scheme string = some host) : ∀ byte ∈ host, InnerByte byte := by
  unfold parseHost at accepted
  split at accepted
  · exact parseIPLiteral_inner accepted
  · cases accepted
  · generalize (if NetRules.manyColons scheme then
        ((cutLast colon string).map fun parts => colon :: parts.2).getD []
      else string.dropWhile (· != colon)) = colonPort at accepted
    dsimp only at accepted
    split at accepted
    · exact unescapeHost_inner (fun _ => hostEscape_inner) accepted
    · cases accepted

theorem parseAuthority_inner {scheme authority host : GoString} {user : Option Userinfo}
    (accepted : parseAuthority scheme authority = some (user, host)) :
    ∀ byte ∈ host, InnerByte byte := by
  unfold parseAuthority at accepted
  split at accepted
  · rcases Option.map_eq_some_iff.mp accepted with ⟨_, isHost, same⟩
    cases same
    exact parseHost_inner isHost
  · simp only [Option.bind_eq_bind, Option.bind_eq_some_iff] at accepted
    rcases accepted with ⟨written, isHost, accepted⟩
    have same : written = host := by
      split at accepted
      · split at accepted
        · rcases Option.bind_eq_some_iff.mp accepted with ⟨_, _, same⟩
          cases same
          rfl
        · rcases Option.bind_eq_some_iff.mp accepted with ⟨_, _, rest⟩
          rcases Option.bind_eq_some_iff.mp rest with ⟨_, _, same⟩
          cases same
          rfl
      · cases accepted
    exact same ▸ parseHost_inner isHost

/-- A host has neither a slash nor an at sign. -/
theorem parse_host_inner {raw : GoString} {url : Url} (parsed : parse raw = some url) :
    ∀ byte ∈ url.host, InnerByte byte := by
  rcases Option.bind_eq_some_iff.mp parsed with ⟨parts, _, decoded⟩
  unfold ofParts at decoded
  split at decoded
  · simp only [Option.bind_eq_bind, Option.bind_some, Option.bind_eq_some_iff] at decoded
    rcases decoded with ⟨_, _, _, _, same⟩
    cases same
    simp
  · next authority _ =>
      simp only [Option.bind_eq_bind, Option.bind_eq_some_iff] at decoded
      rcases decoded with ⟨⟨user, host⟩, isHost, _, _, _, _, same⟩
      cases same
      exact parseAuthority_inner isHost

end

end Url

end Foundation
