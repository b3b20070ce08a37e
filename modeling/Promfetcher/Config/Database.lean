import Promfetcher.Config.Dsn

/-!
# The database of the configuration

`gormDB` of `config/config.go` makes a data source name of the URL in `db_conn`. It joins
decoded pieces of the URL, so that a delimiter of the data source name in one of them
moves the others, and it leaves out the question mark before the query.
-/

namespace Promfetcher

open Foundation

namespace GormDB

/-- The variable `user`, without the at sign. -/
def user (u : Url) : GoString :=
  match u.user with
  | none => []
  | some userinfo =>
      match userinfo.password with
      | none => userinfo.username
      | some password => userinfo.username ++ colon :: password

/-- The network and the host. -/
def endpoint (u : Url) : GoString :=
  text "tcp" ++ Dsn.openParen :: (u.host ++ [Dsn.closeParen])

/-- The data source begins with this, whatever the path and the query are. -/
def front (u : Url) : GoString :=
  (if user u ≠ [] then user u ++ [atSign] else []) ++ endpoint u

/-- The text that is handed to the MySQL driver. -/
def connStr (u : Url) : GoString :=
  front u ++ u.path ++ u.rawQuery

/-- The data source for the driver of MySQL, if that is the one to open. -/
def mysqlSource (u : Url) : Option GoString :=
  if u.scheme = text "mysql" ∨ u.scheme = text "mariadb" then some (connStr u) else none

/-! ## What the URL says -/

/-- The user of a URL, or none. -/
def username (u : Url) : GoString :=
  (u.user.map Userinfo.username).getD []

/-- The password of a URL, or none. -/
def password (u : Url) : GoString :=
  (u.user.bind Userinfo.password).getD []

/-- The address of a host, with the defaults of MySQL for what is missing. -/
def address (u : Url) : GoString :=
  if u.host = [] then text "127.0.0.1:3306"
  else if Dsn.hasPort u.host then u.host
  else u.host ++ text ":3306"

/-- The path without its slash. -/
def databaseName (u : Url) : GoString :=
  if u.path.head? = some slash then u.path.tail else u.path

/-- The driver connects as, to and with what the URL says. -/
structure SameMeaning (u : Url) (cfg : Dsn.Config) : Prop where
  user : cfg.user = username u
  passwd : cfg.passwd = password u
  addr : cfg.addr = address u
  dbName : cfg.dbName = databaseName u
  params : ∀ key, (cfg.params.table.lookup key).toList = Url.queryValues u.rawQuery key

section

variable [GoRuntime] [Dsn.TimePackage]

/-- The driver accepts the data source and understands it as the URL is meant. -/
def KeepsMeaning (u : Url) : Prop :=
  ∃ dsn cfg, mysqlSource u = some dsn ∧ Dsn.parseDSN dsn = .ok cfg ∧ SameMeaning u cfg

/-- No piece of the URL is taken for another one. -/
structure Transferable (u : Url) : Prop where
  user : colon ∉ username u
  /-- Neither the path nor the query has a slash behind the first one, and what stands there is
  the name of the database, escaped as in a URL, with a question mark before the parameters. -/
  rest : ∃ rest, u.path ++ u.rawQuery = slash :: rest ∧ slash ∉ rest ∧
    pathUnescape (Url.cutOff questionMark rest).1 = some (databaseName u) ∧
      ∃ params, Dsn.readParams rest = .ok params ∧ params.acceptable = true ∧
        ∀ key, (params.table.lookup key).toList = Url.queryValues u.rawQuery key
  /-- The driver wraps an IP literal without a port in brackets once more. -/
  host : colon ∉ u.host ∨ (Dsn.splitHostPort u.host).isSome

end

/-! ## Addresses -/

theorem address_cases {u : Url} (given : u.host ≠ []) :
    address u = u.host ∨ address u = u.host ++ text ":3306" := by
  rw [address, if_neg given]
  split
  · exact Or.inl rfl
  · exact Or.inr rfl

theorem length_address_le {u : Url} (given : u.host ≠ []) :
    (address u).length ≤ u.host.length + 5 := by
  have five : (text ":3306").length = 5 := rfl
  rcases address_cases given with whole | ported
  · rw [whole]
    omega
  · rw [ported, List.length_append, five]

theorem completeAddr_host_iff (u : Url) :
    Dsn.completeAddr (text "tcp") u.host = .ok (address u) ↔
      colon ∉ u.host ∨ (Dsn.splitHostPort u.host).isSome := by
  by_cases given : u.host = []
  · simp [given, Dsn.completeAddr, address]
  · rw [Dsn.completeAddr, if_neg given, if_pos rfl, Except.ok.injEq, Dsn.ensureHavePort]
    by_cases accepted : (Dsn.splitHostPort u.host).isSome
    · simp [accepted, address, given, Dsn.hasPort_of_splitHostPort accepted]
    · rw [if_neg accepted, Dsn.joinHostPort]
      by_cases colonMem : colon ∈ u.host
      · rw [if_pos colonMem]
        refine iff_of_false (fun same => ?_) (by simp [colonMem, accepted])
        have bound := length_address_le given
        have four : (text "3306").length = 4 := rfl
        rw [← same, List.length_append, List.length_cons, List.length_cons, List.length_cons,
          four] at bound
        omega
      · have unported : ¬Dsn.hasPort u.host = true :=
          fun has => colonMem (Dsn.mem_of_hasPort has)
        rw [if_neg colonMem, address, if_neg given, if_neg unported]
        exact iff_of_true rfl (Or.inl colonMem)

/-- What is longer by a parenthesis is never completed to the same address. -/
theorem completeAddr_longer (u : Url) (more : GoString) :
    Dsn.completeAddr (text "tcp") (u.host ++ Dsn.closeParen :: more) ≠ .ok (address u) := by
  rw [Dsn.completeAddr, if_neg (by simp), if_pos rfl, Ne, Except.ok.injEq]
  intro equal
  by_cases given : u.host = []
  · rw [address, if_pos given, given, List.nil_append] at equal
    have heads := congrArg List.head? equal
    rcases Dsn.ensureHavePort_cases (Dsn.closeParen :: more) with same | same | same <;>
    · rw [same] at heads
      exact absurd (Option.some.inj heads) (by decide)
  · have bound := length_address_le given
    have lengths : (text ":3306").length = 5 ∧ (text "]:3306").length = 6 := ⟨rfl, rfl⟩
    rw [← equal] at bound
    rcases Dsn.ensureHavePort_cases (u.host ++ Dsn.closeParen :: more) with same | same | same
    · rcases address_cases given with whole | ported
      · have longer := congrArg List.length (same.symm.trans (equal.trans whole))
        rw [List.length_append, List.length_cons] at longer
        omega
      · have behind := List.append_cancel_left (same.symm.trans (equal.trans ported))
        exact absurd (List.cons.inj behind).1 (by decide)
    · rw [same] at bound
      simp only [List.length_append, List.length_cons, lengths] at bound
      omega
    · rw [same] at bound
      simp only [List.length_append, List.length_cons, lengths] at bound
      omega

/-! ## Credentials -/

theorem user_eq_or (u : Url) :
    user u = username u ++ colon :: password u ∨ user u = username u ∧ password u = [] := by
  unfold user username password
  rcases u.user with _ | ⟨name, _ | given⟩
  · exact Or.inr ⟨rfl, rfl⟩
  · exact Or.inr ⟨rfl, rfl⟩
  · exact Or.inl rfl

theorem cutOff_user_iff (u : Url) :
    Url.cutOff colon (user u) = (username u, password u) ↔ colon ∉ username u := by
  constructor
  · intro isCut
    have absent := Url.not_mem_cutOff colon (user u)
    rw [isCut] at absent
    exact absent
  · intro absent
    rcases user_eq_or u with joined | ⟨alone, none⟩
    · rw [joined, Url.cutOff, cut_append absent]
      rfl
    · rw [alone, none, Url.cutOff, cut_eq_none_iff.mpr absent]
      rfl

theorem length_of_cutOff {credentials name given : GoString}
    (isCut : Url.cutOff colon credentials = (name, given)) :
    credentials = name ++ colon :: given ∨ credentials = name ∧ given = [] := by
  unfold Url.cutOff at isCut
  cases found : cut colon credentials with
  | none =>
      rw [found] at isCut
      cases isCut
      exact Or.inr ⟨rfl, rfl⟩
  | some parts =>
      rw [found] at isCut
      rcases cut_eq_some_iff.mp found with ⟨joined, _⟩
      cases isCut
      exact Or.inl joined

/-- Texts that are divided into the same user and password differ by a colon at most. -/
theorem length_credentials {u : Url} {credentials : GoString}
    (isCut : Url.cutOff colon credentials = (username u, password u)) :
    credentials.length ≤ (user u).length + 1 ∧ (user u).length ≤ credentials.length + 1 := by
  have bounds (text : GoString)
      (pieces : text = username u ++ colon :: password u ∨ text = username u ∧ password u = []) :
      text.length ≤ (username u).length + (password u).length + 1 ∧
        (username u).length + (password u).length ≤ text.length := by
    rcases pieces with rfl | ⟨rfl, none⟩
    · simp only [List.length_append, List.length_cons]
      omega
    · rw [none, List.length_nil]
      omega
  have here := bounds credentials (length_of_cutOff isCut)
  have there := bounds (user u) (user_eq_or u)
  omega

/-! ## Where the data source is cut -/

theorem endpoint_inner {u : Url} (inner : ∀ byte ∈ u.host, Url.InnerByte byte) :
    slash ∉ endpoint u ∧ atSign ∉ endpoint u := by
  have tcp : slash ∉ text "tcp" ∧ atSign ∉ text "tcp" := by decide
  have host : slash ∉ u.host ∧ atSign ∉ u.host :=
    ⟨fun inHost => (inner _ inHost).1 rfl, fun inHost => (inner _ inHost).2 rfl⟩
  simp only [endpoint, List.mem_append, List.mem_cons, List.not_mem_nil, or_false, not_or]
  exact ⟨⟨tcp.1, by decide, host.1, by decide⟩, ⟨tcp.2, by decide, host.2, by decide⟩⟩

theorem divided_front {u : Url} (inner : ∀ byte ∈ u.host, Url.InnerByte byte) {more : GoString}
    (plain : atSign ∉ more) :
    (cutLast atSign (front u ++ more)).getD ([], front u ++ more) =
      (user u, endpoint u ++ more) := by
  have absent : atSign ∉ endpoint u ++ more := by
    rw [List.mem_append, not_or]
    exact ⟨(endpoint_inner inner).2, plain⟩
  by_cases given : user u = []
  · have noUser : front u = endpoint u := by simp [front, given]
    rw [noUser, cutLast_eq_none_iff.mpr absent, given]
    rfl
  · have joined : front u ++ more = user u ++ atSign :: (endpoint u ++ more) := by
      simp [front, given]
    rw [joined, cutLast_append (user u) absent]
    rfl

/-- A slash before the path can only be one of the user or the password. -/
theorem slash_in_user {u : Url} (inner : ∀ byte ∈ u.host, Url.InnerByte byte)
    {tail left rest : GoString} (absent : slash ∉ tail)
    (same : front u ++ tail = left ++ slash :: rest) :
    ∃ middle, user u = left ++ slash :: middle := by
  rcases exists_of_append_eq absent same with ⟨_, inFront⟩
  rcases exists_of_append_eq (endpoint_inner inner).1 inFront with ⟨_, inCredentials⟩
  by_cases given : user u = []
  · rw [if_neg (not_not.mpr given)] at inCredentials
    simp at inCredentials
  · rw [if_pos given] at inCredentials
    exact exists_of_append_eq (by decide) inCredentials

theorem length_front (u : Url) : (user u).length + 5 ≤ (front u).length := by
  have three : (text "tcp").length = 3 := rfl
  by_cases given : user u = []
  · simp only [front, endpoint, given, ne_eq, not_true_eq_false, if_false, List.length_append,
      List.length_cons, List.length_nil, three]
    omega
  · simp only [front, endpoint, given, ne_eq, not_false_eq_true, if_true, List.length_append,
      List.length_cons, List.length_nil, three]
    omega

/-- If the driver finds the user and the password, it cuts behind the host, or behind more of the
path and the query. -/
theorem left_of_credentials {u : Url} (inner : ∀ byte ∈ u.host, Url.InnerByte byte)
    {tail left rest : GoString} (same : front u ++ tail = left ++ slash :: rest)
    (absent : slash ∉ rest)
    (isCut : Url.cutOff colon ((cutLast atSign left).getD ([], left)).1 =
      (username u, password u)) :
    ∃ more, left = front u ++ more ∧ tail = more ++ slash :: rest ∧ atSign ∉ more := by
  have lengths := length_credentials isCut
  by_cases slashed : slash ∈ tail
  · cases slashes : cutLast slash tail with
    | none => exact absurd slashed (cutLast_eq_none_iff.mp slashes)
    | some cuts =>
        rcases cuts with ⟨more, after⟩
        rcases cutLast_eq_some_iff.mp slashes with ⟨rfl, absentAfter⟩
        rw [← List.append_assoc] at same
        have oneCut := (cutLast_append (front u ++ more) absentAfter).symm.trans
          (same ▸ cutLast_append left absent)
        cases oneCut
        refine ⟨more, rfl, rfl, fun atMem => ?_⟩
        -- The credentials would reach behind the host.
        cases ats : cutLast atSign more with
        | none => exact cutLast_eq_none_iff.mp ats atMem
        | some cuts =>
            rcases cutLast_eq_some_iff.mp ats with ⟨rfl, absentAt⟩
            rw [← List.append_assoc, cutLast_append (front u ++ cuts.1) absentAt] at lengths
            have bound := length_front u
            simp only [Option.getD_some, List.length_append] at lengths
            omega
  · rcases slash_in_user inner slashed same with ⟨middle, inUser⟩
    cases ats : cutLast atSign left with
    | none =>
        -- Both the user and the password would be empty.
        rw [ats] at isCut
        have empty : username u = [] ∧ password u = [] :=
          ⟨(Prod.mk.inj isCut).1.symm, (Prod.mk.inj isCut).2.symm⟩
        have slashMem : slash ∈ user u := inUser ▸ by simp
        rcases user_eq_or u with joined | ⟨alone, _⟩
        · rw [joined, empty.1, empty.2] at slashMem
          exact absurd slashMem (by decide)
        · rw [alone, empty.1] at slashMem
          cases slashMem
    | some cuts =>
        have longer := congrArg List.length inUser
        rw [(cutLast_eq_some_iff.mp ats).1] at longer
        rw [ats] at lengths
        simp only [Option.getD_some, List.length_append, List.length_cons] at lengths longer
        omega

theorem readAddress_front {u : Url} (inner : ∀ byte ∈ u.host, Url.InnerByte byte)
    {more : GoString} (plain : atSign ∉ more) {cfg : Dsn.Config} :
    Dsn.readAddress (front u ++ more) = .ok cfg ↔
      (u.host ++ Dsn.closeParen :: more).getLast? = some Dsn.closeParen ∧
        cfg =
          { user := (Url.cutOff colon (user u)).1
            passwd := (Url.cutOff colon (user u)).2
            net := text "tcp"
            addr := (u.host ++ Dsn.closeParen :: more).dropLast } := by
  refine Dsn.readAddress_of_endpoint ((divided_front inner plain).trans ?_) (by decide)
  simp [endpoint]

/-! ## When the meaning is kept -/

theorem tail_cases {u : Url} {rest : GoString} (tail : u.path ++ u.rawQuery = slash :: rest) :
    u.path = [] ∧ databaseName u = [] ∨
      u.path = slash :: databaseName u ∧ rest = databaseName u ++ u.rawQuery := by
  unfold databaseName
  rcases path : u.path with _ | ⟨first, name⟩
  · exact Or.inl ⟨rfl, rfl⟩
  · rw [path] at tail
    cases tail
    exact Or.inr ⟨rfl, rfl⟩

section

variable [GoRuntime] [Dsn.TimePackage]

theorem parseDSN_front {u : Url} (inner : ∀ byte ∈ u.host, Url.InnerByte byte)
    (userPlain : colon ∉ username u) {rest : GoString} (absent : slash ∉ rest)
    {cfg : Dsn.Config} :
    Dsn.parseDSN (front u ++ slash :: rest) = .ok cfg ↔ ∃ params dbName addr,
      Dsn.readParams rest = .ok params ∧
        pathUnescape (Url.cutOff questionMark rest).1 = some dbName ∧
          params.acceptable = true ∧ Dsn.completeAddr (text "tcp") u.host = .ok addr ∧
            cfg =
              { user := username u
                passwd := password u
                net := text "tcp"
                addr := addr
                dbName := dbName
                params := params } := by
  have start : Dsn.readAddress (front u) = .ok
      { user := username u
        passwd := password u
        net := text "tcp"
        addr := u.host } := by
    rw [← List.append_nil (front u), readAddress_front inner List.not_mem_nil,
      (cutOff_user_iff u).mpr userPlain]
    simp
  rw [Dsn.parseDSN, cutLast_append (front u) absent]
  dsimp only
  rw [start]
  constructor
  · intro accepted
    rcases bind_eq_ok.mp accepted with ⟨_, started, accepted⟩
    cases started
    rcases bind_eq_ok.mp accepted with ⟨_, isRead, accepted⟩
    rcases Dsn.readDatabase_eq_ok.mp isRead with ⟨params, dbName, isParams, decoded, rfl⟩
    rcases Dsn.Config.normalize_eq_ok.mp accepted with ⟨acceptable, addr, isAddr, rfl⟩
    exact ⟨params, dbName, addr, isParams, decoded, acceptable, isAddr, rfl⟩
  · rintro ⟨params, dbName, addr, isParams, decoded, acceptable, isAddr, rfl⟩
    refine bind_eq_ok.mpr ⟨_, rfl, bind_eq_ok.mpr ⟨
      { user := username u
        passwd := password u
        net := text "tcp"
        addr := u.host
        dbName := dbName
        params := params }, ?_, ?_⟩⟩
    · exact Dsn.readDatabase_eq_ok.mpr ⟨params, dbName, isParams, decoded, rfl⟩
    · exact Dsn.Config.normalize_eq_ok.mpr ⟨acceptable, addr, isAddr, rfl⟩

/-- The user, the password and the address only come back if nothing stands between the host and
the last slash. -/
theorem tail_of_parseDSN {u : Url} (inner : ∀ byte ∈ u.host, Url.InnerByte byte)
    {tail : GoString} {cfg : Dsn.Config} (accepted : Dsn.parseDSN (front u ++ tail) = .ok cfg)
    (sameUser : cfg.user = username u) (samePasswd : cfg.passwd = password u)
    (sameAddr : cfg.addr = address u) :
    colon ∉ username u ∧ ∃ rest, tail = slash :: rest ∧ slash ∉ rest := by
  unfold Dsn.parseDSN at accepted
  split at accepted
  · have bound := length_front u
    split at accepted
    · cases accepted
    · next empty =>
        rw [not_not, List.append_eq_nil_iff] at empty
        rw [empty.1, List.length_nil] at bound
        omega
  · next left rest isCut =>
      rcases cutLast_eq_some_iff.mp isCut with ⟨joined, absent⟩
      rcases bind_eq_ok.mp accepted with ⟨start, isStart, accepted⟩
      rcases bind_eq_ok.mp accepted with ⟨_, isRead, accepted⟩
      rcases Dsn.readDatabase_eq_ok.mp isRead with ⟨_, _, _, _, rfl⟩
      rcases Dsn.Config.normalize_eq_ok.mp accepted with ⟨_, addr, isAddr, rfl⟩
      have credentials := Dsn.readAddress_credentials isStart
      have known : (start.user, start.passwd) = (username u, password u) :=
        Prod.ext sameUser samePasswd
      rcases left_of_credentials inner joined absent (credentials.trans known) with
        ⟨more, rfl, rfl, plain⟩
      rcases (readAddress_front inner plain).mp isStart with ⟨_, rfl⟩
      refine ⟨(cutOff_user_iff u).mp known, ?_⟩
      rcases more with _ | ⟨first, others⟩
      · exact ⟨rest, rfl, absent⟩
      · -- The address would be longer than the host.
        have longer : (u.host ++ Dsn.closeParen :: first :: others).dropLast =
            u.host ++ Dsn.closeParen :: (first :: others).dropLast := by
          simp
        have completed : addr = address u := sameAddr
        rw [completed] at isAddr
        dsimp only at isAddr
        rw [longer] at isAddr
        exact absurd isAddr (completeAddr_longer u _)

theorem Transferable.name_plain {u : Url} (transferable : Transferable u) :
    questionMark ∉ databaseName u := by
  rcases transferable.rest with ⟨rest, tail, _, decoded, _⟩
  rcases tail_cases tail with ⟨_, empty⟩ | ⟨_, rfl⟩
  · simp [empty]
  · intro markMem
    cases marks : cut questionMark (databaseName u) with
    | none => exact cut_eq_none_iff.mp marks markMem
    | some parts =>
        rcases cut_eq_some_iff.mp marks with ⟨joined, absent⟩
        have cuts : Url.cutOff questionMark (databaseName u ++ u.rawQuery) =
            (parts.1, parts.2 ++ u.rawQuery) := by
          rw [joined, List.append_assoc, List.cons_append, Url.cutOff, cut_append absent]
          rfl
        rw [cuts] at decoded
        have bound : (databaseName u).length ≤ parts.1.length := (length_of_pathUnescape decoded).1
        have longer := congrArg List.length joined
        simp only [List.length_append, List.length_cons] at longer
        omega

/-- Any query with a parameter is lost, unless a second question mark stands in it. -/
theorem not_transferable_of_query {u : Url} (plain : questionMark ∉ u.rawQuery) {key : GoString}
    (set : Url.queryValues u.rawQuery key ≠ []) : ¬Transferable u := by
  intro transferable
  have noMark := transferable.name_plain
  rcases transferable.rest with ⟨rest, tail, _, _, params, isParams, _, same⟩
  have absent : questionMark ∉ rest := by
    rcases tail_cases tail with ⟨path, _⟩ | ⟨_, rfl⟩
    · rw [path, List.nil_append] at tail
      rw [tail, List.mem_cons, not_or] at plain
      exact plain.2
    · rw [List.mem_append, not_or]
      exact ⟨noMark, plain⟩
  rw [Dsn.readParams, cut_eq_none_iff.mpr absent] at isParams
  cases isParams
  exact set (same key).symm

/-- Without a query, the path has to be a name without the delimiters of both grammars. -/
theorem transferable_iff_of_no_query {u : Url} (noQuery : u.rawQuery = []) :
    Transferable u ↔ colon ∉ username u ∧
      (∃ name, u.path = slash :: name ∧ slash ∉ name ∧ questionMark ∉ name ∧ percent ∉ name) ∧
        (colon ∉ u.host ∨ (Dsn.splitHostPort u.host).isSome) := by
  constructor
  · intro transferable
    have noMark := transferable.name_plain
    rcases transferable with ⟨userPlain, ⟨rest, tail, absent, decoded, _⟩, host⟩
    rw [noQuery, List.append_nil] at tail
    have named : databaseName u = rest := by simp [databaseName, tail]
    rw [named] at noMark decoded
    rw [Url.cutOff, cut_eq_none_iff.mpr noMark] at decoded
    have plain : percent ∉ rest := by
      intro escape
      exact absurd ((length_of_pathUnescape decoded).2 escape) (Nat.lt_irrefl _)
    exact ⟨userPlain, ⟨rest, tail, absent, noMark, plain⟩, host⟩
  · rintro ⟨userPlain, ⟨name, path, absent, noMark, plain⟩, host⟩
    have named : databaseName u = name := by simp [databaseName, path]
    refine ⟨userPlain, ⟨name, by rw [path, noQuery, List.append_nil], absent, ?_, {}, ?_, by decide,
      fun key => ?_⟩, host⟩
    · rw [Url.cutOff, cut_eq_none_iff.mpr noMark, named]
      exact pathUnescape_of_not_mem plain
    · rw [Dsn.readParams, cut_eq_none_iff.mpr noMark]
    · rw [noQuery]
      rfl

theorem keepsMeaning_iff [NetRules] {raw : GoString} {u : Url} (parsed : Url.parse raw = some u)
    (mysql : u.scheme = text "mysql" ∨ u.scheme = text "mariadb") :
    KeepsMeaning u ↔ Transferable u := by
  have inner := Url.parse_host_inner parsed
  have source : mysqlSource u = some (front u ++ (u.path ++ u.rawQuery)) := by
    rw [mysqlSource, if_pos mysql, connStr, List.append_assoc]
  constructor
  · rintro ⟨_, cfg, isSource, accepted, same⟩
    cases source.symm.trans isSource
    rcases tail_of_parseDSN inner accepted same.user same.passwd same.addr with
      ⟨userPlain, rest, tail, absent⟩
    rw [tail] at accepted
    rcases (parseDSN_front inner userPlain absent).mp accepted with
      ⟨params, dbName, addr, isParams, decoded, acceptable, isAddr, rfl⟩
    have completed : addr = address u := same.addr
    have name : dbName = databaseName u := same.dbName
    subst completed name
    exact ⟨userPlain, ⟨rest, tail, absent, decoded, params, isParams, acceptable, same.params⟩,
      (completeAddr_host_iff u).mp isAddr⟩
  · rintro ⟨userPlain, ⟨rest, tail, absent, decoded, params, isParams, acceptable, same⟩, host⟩
    have accepted := (parseDSN_front inner userPlain absent).mpr ⟨params, databaseName u, address u,
      isParams, decoded, acceptable, (completeAddr_host_iff u).mpr host, rfl⟩
    rw [← tail] at accepted
    exact ⟨_, _, source, accepted, rfl, rfl, rfl, rfl, same⟩

end

section

local instance noLiterals : NetRules := NetRules.noLiterals

local instance asciiRuntime : GoRuntime := GoRuntime.ascii

/-- No parameter with a time is set below. -/
local instance noTimes : Dsn.TimePackage where
  isDuration _ := false
  isLocation _ := false

theorem keepsMeaning_iff_sample : ∃ u,
    Url.parse (text "mysql://prom:p%40ss@db:3306/shop") = some u ∧ KeepsMeaning u := by
  have parsed : Url.parse (text "mysql://prom:p%40ss@db:3306/shop") = some
      { scheme := text "mysql"
        user := some { username := text "prom", password := some (text "p@ss") }
        host := text "db:3306"
        path := text "/shop" } := by
    decide
  refine ⟨_, parsed, (keepsMeaning_iff parsed (Or.inl rfl)).mpr ⟨by decide, ?_, by decide⟩⟩
  exact ⟨text "shop", rfl, by decide, by decide, {}, by rfl, by decide, fun key => rfl⟩

/-- The query becomes a part of the name of the database. -/
theorem not_keepsMeaning_always : ∃ u,
    Url.parse (text "mysql://u:p@h:3306/db?parseTime=true") = some u ∧
      connStr u = text "u:p@tcp(h:3306)/dbparseTime=true" ∧ ¬KeepsMeaning u := by
  refine ⟨
    { scheme := text "mysql"
      user := some { username := text "u", password := some (text "p") }
      host := text "h:3306"
      path := text "/db"
      rawQuery := text "parseTime=true" }, by decide, by decide, ?_⟩
  rintro ⟨dsn, cfg, source, accepted, same⟩
  cases source
  have named : ((Dsn.parseDSN (text "u:p@tcp(h:3306)/dbparseTime=true")).toOption.map
      Dsn.Config.dbName) = some (text "dbparseTime=true") := by
    decide
  change Dsn.parseDSN (text "u:p@tcp(h:3306)/dbparseTime=true") = _ at accepted
  rw [accepted] at named
  exact absurd (same.dbName.symm.trans (Option.some.inj named)) (by decide)

end

end GormDB

end Promfetcher
