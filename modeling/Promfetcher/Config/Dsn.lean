import Promfetcher.Foundation.Query

/-!
# Data source names

`ParseDSN` of the vendored driver `go-sql-driver/mysql`. What the driver keeps in one
field for each parameter is kept here in one table, under the names of the parameters
and with the texts that are taken for their values. No TLS configuration and no server
key is registered with the driver.
-/

namespace Promfetcher

open Foundation

namespace Dsn

/-- What the model leaves open of the package `time`. -/
class TimePackage where
  /-- `ParseDuration` accepts the text. -/
  isDuration : GoString → Bool
  /-- `LoadLocation` knows the name. -/
  isLocation : GoString → Bool

/-- The byte in front of an address. -/
def openParen : UInt8 := 0x28

/-- The byte behind an address. -/
def closeParen : UInt8 := 0x29

/-- The byte in front of an IPv6 address. -/
def openBracket : UInt8 := 0x5B

/-- The byte behind an IPv6 address. -/
def closeBracket : UInt8 := 0x5D

/-- Why the driver refuses a data source name. -/
inductive ParseError
  | missingSlash
  | unescapedParam
  | addressNotTerminated
  | invalidDBName (dbname : GoString)
  | invalidBool (value : GoString)
  | invalidParam (key value : GoString)
  /-- A panic. -/
  | strictRemoved
  | unsafeCollation
  | unknownDefaultAddr (net : GoString)
  | unknownTLSConfig (name : GoString)
  | unknownServerPubKey (name : GoString)
  deriving DecidableEq, Repr

/-- The parameters that have been set. `tlsConfig` is the name that `tls` stands for. -/
structure Params where
  table : AList (fun _ : GoString => GoString) := ∅
  tlsConfig : GoString := []

/-- `mysql.Config`, as far as a data source name sets it. -/
structure Config where
  user : GoString := []
  passwd : GoString := []
  net : GoString := []
  addr : GoString := []
  dbName : GoString := []
  params : Params := {}

/-! ## Parameters -/

/-- `readBool`. -/
def readBool (input : GoString) : Option Bool :=
  if [text "1", text "true", text "TRUE", text "True"].contains input then some true
  else if [text "0", text "false", text "FALSE", text "False"].contains input then some false
  else none

/-- `strconv.Atoi` accepts the text. -/
def isInteger (string : GoString) : Bool :=
  let negative := string.head? == some 0x2D
  let digits := if negative || string.head? == some plusSign then string.tail else string
  let number := digits.foldl (fun number digit => 10 * number + (digit - 0x30).toNat) 0
  !digits.isEmpty && digits.all isDecimal && number < 2 ^ 63 + negative.toNat

/-- The parameters that have to be booleans. -/
def boolParams : List GoString :=
  [text "allowAllFiles", text "allowCleartextPasswords", text "allowFallbackToPlaintext",
    text "allowNativePasswords", text "allowOldPasswords", text "checkConnLiveness",
    text "clientFoundRows", text "columnsWithAlias", text "compress", text "interpolateParams",
    text "multiStatements", text "parseTime", text "rejectReadOnly"]

/-- The parameters that have to be durations. -/
def durationParams : List GoString :=
  [text "timeTruncate", text "readTimeout", text "timeout", text "writeTimeout"]

section

variable [GoRuntime] [TimePackage]

/-- The name of the configuration that a value of `tls` stands for, if it is one of the driver's
own. -/
def ownTLSConfig (value : GoString) : Option GoString :=
  match readBool value with
  | some true => some (text "true")
  | some false => some (text "false")
  | none =>
      let lower := GoRuntime.toLower value
      if lower = text "skip-verify" ∨ lower = text "preferred" then some lower else none

/-- One parameter of `parseDSNParams`. -/
def Params.set (params : Params) (key value : GoString) : Except ParseError Params :=
  let put (value : GoString) : Params := { params with table := params.table.insert key value }
  if boolParams.contains key then
    if (readBool value).isSome then .ok (put value) else .error (.invalidBool value)
  else if key = text "charset" ∨ key = text "collation" then .ok (put value)
  else if durationParams.contains key then
    if TimePackage.isDuration value then .ok (put value) else .error (.invalidParam key value)
  else if key = text "maxAllowedPacket" then
    if isInteger value then .ok (put value) else .error (.invalidParam key value)
  else if key = text "strict" then .error .strictRemoved
  else if key = text "tls" ∧ (ownTLSConfig value).isSome then
    .ok { put value with tlsConfig := (ownTLSConfig value).getD [] }
  else
    -- Only what is left is unescaped.
    match Url.queryUnescape value with
    | none => .error (.invalidParam key value)
    | some name =>
        if key = text "loc" ∧ ¬TimePackage.isLocation name then .error (.invalidParam key value)
        else if key = text "tls" then .ok { put name with tlsConfig := name }
        else .ok (put name)

/-- `parseDSNParams`. The keys are taken as they stand, and what has no value is passed over. -/
def parseDSNParams (params : GoString) : Except ParseError Params :=
  (params.splitOn ampersand).foldlM (fun taken setting =>
    match cut equalsSign setting with
    | none => .ok taken
    | some (key, value) => taken.set key value) {}

end

/-! ## Addresses -/

/-- `net.SplitHostPort`. -/
def splitHostPort (hostport : GoString) : Option (GoString × GoString) := do
  let (host, port) ← cutLast colon hostport
  if hostport.head? = some openBracket then
    let (literal, behind) ← cut closeBracket hostport
    if behind = colon :: port ∧ openBracket ∉ hostport.tail ∧ closeBracket ∉ behind then
      return (literal.tail, port)
    else none
  else if colon ∈ host ∨ openBracket ∈ hostport ∨ closeBracket ∈ hostport then none
  else return (host, port)

/-- `net.JoinHostPort`. -/
def joinHostPort (host port : GoString) : GoString :=
  if colon ∈ host then openBracket :: host ++ closeBracket :: colon :: port
  else host ++ colon :: port

/-- `ensureHavePort`: the address with the port of MySQL if it has none. -/
def ensureHavePort (addr : GoString) : GoString :=
  if (splitHostPort addr).isSome then addr else joinHostPort addr (text "3306")

/-- The address of `normalize`, given its network. -/
def completeAddr (net addr : GoString) : Except ParseError GoString :=
  if addr = [] then
    if net = text "tcp" then .ok (text "127.0.0.1:3306")
    else if net = text "unix" then .ok (text "/tmp/mysql.sock")
    else .error (.unknownDefaultAddr net)
  else if net = text "tcp" then .ok (ensureHavePort addr)
  else .ok addr

/-! ## The whole name -/

/-- `unsafeCollations`, in which a parameter cannot be put into the text of a statement. -/
def unsafeCollations : List GoString :=
  [text "big5_chinese_ci", text "sjis_japanese_ci", text "gbk_chinese_ci", text "big5_bin",
    text "gb2312_bin", text "gbk_bin", text "sjis_bin", text "cp932_japanese_ci",
    text "cp932_bin", text "gb18030_chinese_ci", text "gb18030_bin",
    text "gb18030_unicode_520_ci"]

namespace Params

/-- The text of a parameter; an absent one is empty. -/
def get (params : Params) (key : GoString) : GoString :=
  (params.table.lookup key).getD []

/-- The parameters are to be put into the text of statements. -/
def interpolates (params : Params) : Bool :=
  readBool (params.get (text "interpolateParams")) == some true

/-- Nothing is put into the text of statements with a collation that does not allow it. -/
def safe (params : Params) : Bool :=
  !(params.interpolates && unsafeCollations.contains (params.get (text "collation")))

/-- The driver knows these configurations by itself. -/
def tlsKnown (params : Params) : Bool :=
  [[], text "false", text "true", text "skip-verify", text "preferred"].contains params.tlsConfig

/-- `normalize` has nothing to say against the parameters. -/
def acceptable (params : Params) : Bool :=
  params.safe && params.tlsKnown && params.get (text "serverPubKey") == []

end Params

/-- `Config.normalize`. -/
def Config.normalize (cfg : Config) : Except ParseError Config := do
  if !cfg.params.safe then .error .unsafeCollation
  else
    let net := if cfg.net = [] then text "tcp" else cfg.net
    let addr ← completeAddr net cfg.addr
    if !cfg.params.tlsKnown then .error (.unknownTLSConfig cfg.params.tlsConfig)
    else if cfg.params.get (text "serverPubKey") ≠ [] then
      .error (.unknownServerPubKey (cfg.params.get (text "serverPubKey")))
    else return { cfg with net := net, addr := addr }

/-- What stands before the last slash. Without an at sign there are no credentials. -/
def readAddress (left : GoString) : Except ParseError Config :=
  let (credentials, endpoint) := (cutLast atSign left).getD ([], left)
  let (user, passwd) := Url.cutOff colon credentials
  match cut openParen endpoint with
  | none => .ok { user := user, passwd := passwd, net := endpoint }
  | some (net, address) =>
      if address.getLast? = some closeParen then
        .ok { user := user, passwd := passwd, net := net, addr := address.dropLast }
      else if closeParen ∈ address then .error .unescapedParam
      else .error .addressNotTerminated

section

variable [GoRuntime] [TimePackage]

/-- The parameters behind the question mark, if there is one. -/
def readParams (rest : GoString) : Except ParseError Params :=
  match cut questionMark rest with
  | none => .ok {}
  | some (_, params) => parseDSNParams params

/-- What stands behind the last slash. -/
def readDatabase (cfg : Config) (rest : GoString) : Except ParseError Config := do
  let params ← readParams rest
  let dbname := (Url.cutOff questionMark rest).1
  match pathUnescape dbname with
  | none => .error (.invalidDBName dbname)
  | some dbName => return { cfg with params := params, dbName := dbName }

/-- `ParseDSN`. -/
def parseDSN (dsn : GoString) : Except ParseError Config :=
  match cutLast slash dsn with
  | none => if dsn ≠ [] then .error .missingSlash else Config.normalize {}
  | some (left, rest) => do
      let cfg ← readAddress left
      let cfg ← readDatabase cfg rest
      cfg.normalize

end

/-! ## Addresses with a port -/

/-- The text behind the last bracket has a colon. -/
def hasPort (host : GoString) : Bool :=
  (((cutLast closeBracket host).map Prod.snd).getD host).contains colon

theorem hasPort_of_splitHostPort {host : GoString} (accepted : (splitHostPort host).isSome) :
    hasPort host = true := by
  rcases Option.isSome_iff_exists.mp accepted with ⟨_, isSplit⟩
  simp only [splitHostPort, Option.bind_eq_bind, Option.bind_eq_some_iff] at isSplit
  rcases isSplit with ⟨⟨before, port⟩, lastColon, accepted⟩
  rcases cutLast_eq_some_iff.mp lastColon with ⟨joined, _⟩
  dsimp only at accepted
  unfold hasPort
  split at accepted
  · simp only [Option.bind_eq_some_iff] at accepted
    rcases accepted with ⟨⟨literal, behind⟩, isCut, accepted⟩
    split at accepted
    · next closed =>
        rcases cut_eq_some_iff.mp isCut with ⟨rfl, _⟩
        have ported : behind = colon :: port := closed.1
        rw [cutLast_append literal closed.2.2]
        simp [ported]
    · cases accepted
  · split at accepted
    · cases accepted
    · next plain =>
        rw [not_or, not_or] at plain
        rw [cutLast_eq_none_iff.mpr plain.2.2]
        simp [joined]

theorem mem_of_hasPort {host : GoString} (has : hasPort host = true) : colon ∈ host := by
  rw [hasPort, List.contains_iff_mem] at has
  cases bracketed : cutLast closeBracket host with
  | none =>
      rw [bracketed] at has
      exact has
  | some parts =>
      rw [bracketed] at has
      rw [(cutLast_eq_some_iff.mp bracketed).1]
      exact List.mem_append_right _ (List.mem_cons_of_mem _ has)

theorem ensureHavePort_cases (addr : GoString) :
    ensureHavePort addr = addr ∨ ensureHavePort addr = addr ++ text ":3306" ∨
      ensureHavePort addr = openBracket :: addr ++ text "]:3306" := by
  unfold ensureHavePort joinHostPort
  split
  · exact Or.inl rfl
  · split
    · exact Or.inr (Or.inr rfl)
    · exact Or.inr (Or.inl rfl)

/-! ## The steps of reading -/

theorem Config.normalize_eq_ok {cfg done : Config} :
    cfg.normalize = .ok done ↔ cfg.params.acceptable = true ∧
      ∃ addr, completeAddr (if cfg.net = [] then text "tcp" else cfg.net) cfg.addr = .ok addr ∧
        done = { cfg with
          net := if cfg.net = [] then text "tcp" else cfg.net
          addr := addr } := by
  unfold Config.normalize
  constructor
  · intro accepted
    split at accepted
    · cases accepted
    · next safe =>
        rcases bind_eq_ok.mp accepted with ⟨addr, isAddr, accepted⟩
        split at accepted
        · cases accepted
        · next known =>
            split at accepted
            · cases accepted
            · next keyless =>
                cases accepted
                refine ⟨?_, addr, isAddr, rfl⟩
                simp only [Params.acceptable, Bool.and_eq_true, beq_iff_eq]
                exact ⟨⟨by simpa using safe, by simpa using known⟩, not_not.mp keyless⟩
  · rintro ⟨acceptable, addr, isAddr, rfl⟩
    simp only [Params.acceptable, Bool.and_eq_true, beq_iff_eq] at acceptable
    rw [if_neg (by simp [acceptable.1.1])]
    refine bind_eq_ok.mpr ⟨addr, isAddr, ?_⟩
    rw [if_neg (by simp [acceptable.1.2]), if_neg (not_not.mpr acceptable.2)]
    rfl

/-- The credentials stand before the last at sign, and the first colon divides them. -/
theorem readAddress_credentials {left : GoString} {cfg : Config}
    (accepted : readAddress left = .ok cfg) :
    Url.cutOff colon ((cutLast atSign left).getD ([], left)).1 = (cfg.user, cfg.passwd) := by
  unfold readAddress at accepted
  dsimp only at accepted
  split at accepted
  · cases accepted
    rfl
  · split at accepted
    · cases accepted
      rfl
    · split at accepted <;> cases accepted

/-- An endpoint whose first parenthesis is closed in the end. -/
theorem readAddress_of_endpoint {left credentials net address : GoString}
    (divided : (cutLast atSign left).getD ([], left) = (credentials, net ++ openParen :: address))
    (plain : openParen ∉ net) {cfg : Config} :
    readAddress left = .ok cfg ↔ address.getLast? = some closeParen ∧
      cfg =
        { user := (Url.cutOff colon credentials).1
          passwd := (Url.cutOff colon credentials).2
          net := net
          addr := address.dropLast } := by
  unfold readAddress
  rw [divided]
  dsimp only
  rw [cut_append plain]
  dsimp only
  by_cases closed : address.getLast? = some closeParen
  · rw [if_pos closed]
    simp [closed, eq_comm]
  · rw [if_neg closed]
    split <;> simp [closed]

section

variable [GoRuntime] [TimePackage]

theorem readDatabase_eq_ok {cfg done : Config} {rest : GoString} :
    readDatabase cfg rest = .ok done ↔ ∃ params dbName, readParams rest = .ok params ∧
      pathUnescape (Url.cutOff questionMark rest).1 = some dbName ∧
        done = { cfg with params := params, dbName := dbName } := by
  unfold readDatabase
  rw [bind_eq_ok]
  constructor
  · rintro ⟨params, isParams, accepted⟩
    dsimp only at accepted
    split at accepted
    · cases accepted
    · next dbName decoded =>
        cases accepted
        exact ⟨params, dbName, isParams, decoded, rfl⟩
  · rintro ⟨params, dbName, isParams, decoded, rfl⟩
    refine ⟨params, isParams, ?_⟩
    dsimp only
    rw [decoded]
    rfl

end

end Dsn

end Promfetcher
