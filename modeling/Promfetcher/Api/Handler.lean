import Promfetcher.Foundation.Paths
import Promfetcher.Foundation.QuerySize
import Promfetcher.Scrapers.Target

/-!
# The handler of metrics

`Api.metrics` of `api/metrics.go` up to its call of `Metrics`, the wrapper
`forceOnlyForApp`, and the paths of `api/init.go` that lead to them. The wrapper writes
a parameter into the query, which the handler then reads. The router redirects a request
whose path is not clean before it looks for a handler.
-/

namespace Promfetcher

open Foundation

/-- The value of `Header.Get`, for a key in canonical form. -/
def Header.get (header : Header) (key : GoString) : GoString :=
  ((header.lookup key).bind List.head?).getD []

/-- What the handlers read of a request. -/
structure HttpRequest where
  path : GoString
  rawQuery : GoString
  header : Header

/-- The arguments of `Metrics`. -/
structure MetricsCall where
  appIdOrPathOrName : GoString
  metricPathDefault : GoString
  onlyAppMetrics : Bool
  headers : Header

namespace Api

/-- The parameter that asks for the metrics of the app only. -/
def onlyFromApp : GoString :=
  text "only_from_app"

/-- The first match of `/v([0-9]+)(?:/|$)` in a path. -/
def apiVersion : GoString → Option GoString
  | [] => none
  | byte :: rest =>
      let digits := (rest.drop 1).takeWhile isDecimal
      let behind := (rest.drop 1).dropWhile isDecimal
      if byte = slash ∧ rest.head? = some 0x76 ∧ digits ≠ [] ∧
          (behind = [] ∨ behind.head? = some slash) then some digits
      else apiVersion rest

/-- The header `Accept`: plain text, or for the first version of the API what the target likes. -/
def accept (path : GoString) : GoString :=
  if (apiVersion path).any (· != text "1") then text "text/plain; version=0.0.4; charset=utf-8"
  else text "application/openmetrics-text; version=0.0.1,text/plain;version=0.0.4;q=0.5,*/*;q=0.1"

/-- `headersMetrics`: the headers that are handed on. -/
def headersMetrics (request : HttpRequest) : Header :=
  let headers : Header := Header.set ∅ (text "Accept") (accept request.path)
  let auth := request.header.get (text "Authorization")
  if auth ≠ [] then headers.set (text "Authorization") auth else headers

/-- `Values.Get`. -/
def first (query : Values) (key : GoString) : GoString :=
  (query.get key).head?.getD []

/-- The name of the app: that of the path, if there is one, or that of the query. -/
def appName (pathName : Option GoString) (query : Values) : GoString :=
  let appIdOrPathOrName := pathName.getD (first query (text "app"))
  if appIdOrPathOrName = [] then first query (text "route_url") else appIdOrPathOrName

/-- The call of `Metrics`; none if the request names no app, which is a bad request. -/
def metricsCall (pathName : Option GoString) (request : HttpRequest) : Option MetricsCall :=
  let query := Url.parseQuery request.rawQuery
  if appName pathName query = [] then none
  else some {
    appIdOrPathOrName := appName pathName query
    metricPathDefault := metricPathDefault (first query (text "metric_path"))
    onlyAppMetrics := (query.lookup onlyFromApp).isSome
    headers := headersMetrics request }

/-- `forceOnlyForApp`: the query with the parameter set. -/
def forceOnlyForApp (request : HttpRequest) : HttpRequest :=
  { request with
    rawQuery := Url.encode ((Url.parseQuery request.rawQuery).insert onlyFromApp [text "1"]) }

/-! ## Paths -/

/-- `cleanPath` of the router. -/
def cleanPath (path : GoString) : GoString :=
  if path = [] then [slash]
  else
    let path := if path.head? ≠ some slash then slash :: path else path
    let np := Path.clean path
    -- `path.Clean` has removed the slash at the end.
    if path.getLast? = some slash ∧ np ≠ [slash] then np ++ [slash] else np

/-- The variable of a pattern `.*` between two literals. -/
def between (first last path : GoString) : Option GoString :=
  if first.isPrefixOf path ∧ last.isSuffixOf path ∧ first.length + last.length ≤ path.length ∧
      0x0A ∉ (path.drop first.length).take (path.length - first.length - last.length) then
    some ((path.drop first.length).take (path.length - first.length - last.length))
  else none

/-- The two endpoints for metrics. -/
inductive Endpoint where
  | metrics
  | onlyAppMetrics
  deriving DecidableEq, Repr

/-- The last element of the path of an endpoint. -/
def Endpoint.word : Endpoint → GoString
  | .metrics => text "metrics"
  | .onlyAppMetrics => text "only-app-metrics"

/-- What the path of an endpoint starts with, for each version of the API. -/
def versions : List GoString :=
  [text "/v1", text "/v2"]

/-- The routes of one version of the API, in the order in which they are tried. -/
def routeOf (version path : GoString) : Option (Endpoint × Option GoString) :=
  let ofEndpoint (endpoint : Endpoint) : Option (Endpoint × Option GoString) :=
    match between (version ++ text "/apps/") (slash :: endpoint.word) path with
    | some pathName => some (endpoint, some pathName)
    | none =>
        if path = version ++ text "/apps/" ++ endpoint.word then some (endpoint, none) else none
  (ofEndpoint .metrics).or (ofEndpoint .onlyAppMetrics)

/-- The route of a request with the method GET among those for metrics. -/
def route (path : GoString) : Option (Endpoint × Option GoString) :=
  versions.findSome? (routeOf · path)

/-- What becomes of a request. -/
inductive Served where
  /-- The router answers with the status 301 and this path, with the query of the request. -/
  | movedPermanently (path : GoString)
  /-- The request does not lead to the handler of metrics. -/
  | elsewhere
  | badRequest
  /-- `Metrics` is called. -/
  | call (arguments : MetricsCall)

/-- What becomes of a request with the method GET. -/
def serve (request : HttpRequest) : Served :=
  let ofCall (call : Option MetricsCall) : Served := call.elim .badRequest .call
  if cleanPath request.path ≠ request.path then .movedPermanently (cleanPath request.path)
  else
    match route request.path with
    | none => .elsewhere
    | some (.metrics, pathName) => ofCall (metricsCall pathName request)
    | some (.onlyAppMetrics, pathName) => ofCall (metricsCall pathName (forceOnlyForApp request))

/-- The path with the endpoint as its last element. -/
def Endpoint.replaceLast (endpoint : Endpoint) (path : GoString) : GoString :=
  ((cutLast slash path).elim [] fun parts => parts.1 ++ [slash]) ++ endpoint.word

/-- The same for the metrics of the app only. -/
def Served.forApp : Served → Served
  | .movedPermanently path => .movedPermanently (Endpoint.onlyAppMetrics.replaceLast path)
  | .call arguments => .call { arguments with onlyAppMetrics := true }
  | .elsewhere => .elsewhere
  | .badRequest => .badRequest

/-- The path under which an endpoint is found, with or without the name of an app. -/
def path (version : GoString) (pathName : Option GoString) (endpoint : Endpoint) : GoString :=
  version ++ text "/apps/" ++ (pathName.elim [] fun name => name ++ [slash]) ++ endpoint.word

theorem between_append (first : GoString) {name : GoString} (last : GoString)
    (oneLine : 0x0A ∉ name) : between first last (first ++ name ++ last) = some name := by
  have isMiddle : ((first ++ name ++ last).drop first.length).take
      ((first ++ name ++ last).length - first.length - last.length) = name := by
    rw [List.append_assoc, List.drop_left, List.take_left']
    simp only [List.length_append]
    omega
  unfold between
  rw [isMiddle, if_pos]
  refine ⟨?_, ?_, ?_, oneLine⟩
  · rw [List.append_assoc]
    simp
  · exact List.isSuffixOf_iff_suffix.mpr (List.suffix_append _ _)
  · simp only [List.length_append]
    omega

theorem between_eq_some {first last path name : GoString}
    (found : between first last path = some name) : path = first ++ name ++ last ∧ 0x0A ∉ name := by
  unfold between at found
  split at found
  · next matched =>
      rcases matched with ⟨isPrefix, isSuffix, long, oneLine⟩
      rcases List.isPrefixOf_iff_prefix.mp isPrefix with ⟨rest, rfl⟩
      have inRest : last <:+ rest := by
        refine List.suffix_of_suffix_length_le (List.isSuffixOf_iff_suffix.mp isSuffix)
          (List.suffix_append first rest) ?_
        rw [List.length_append] at long
        omega
      rcases inRest with ⟨middle, rfl⟩
      have isMiddle : ((first ++ (middle ++ last)).drop first.length).take
          ((first ++ (middle ++ last)).length - first.length - last.length) = middle := by
        rw [List.drop_left, List.take_left']
        simp only [List.length_append]
        omega
      rw [isMiddle] at found oneLine
      cases found
      exact ⟨(List.append_assoc ..).symm, oneLine⟩
  · cases found

theorem between_of_not_suffix {first last path : GoString}
    (notSuffix : last.isSuffixOf path = false) : between first last path = none := by
  unfold between
  rw [if_neg]
  rintro ⟨_, isSuffix, _⟩
  exact absurd (notSuffix.symm.trans isSuffix) (by decide)

theorem between_of_otherStart {first last path : GoString}
    (notPrefix : first.isPrefixOf path = false) : between first last path = none := by
  unfold between
  rw [if_neg]
  rintro ⟨isPrefix, _⟩
  exact absurd (notPrefix.symm.trans isPrefix) (by decide)

theorem between_of_short {first last path : GoString}
    (short : path.length < first.length + last.length) : between first last path = none := by
  unfold between
  rw [if_neg]
  rintro ⟨_, _, long, _⟩
  omega

/-- The path of an endpoint is not that of the other one, which has another last element. -/
theorem routeOf_path (version : GoString) (pathName : Option GoString) (endpoint : Endpoint)
    (oneLine : ∀ name, pathName = some name → 0x0A ∉ name) :
    routeOf version (path version pathName endpoint) = some (endpoint, pathName) := by
  have own (endpoint : Endpoint) :
      between (version ++ text "/apps/") (slash :: endpoint.word)
        (path version pathName endpoint) = pathName := by
    cases pathName with
    | none =>
        refine between_of_short ?_
        simp only [path, Option.elim_none, List.length_append, List.length_cons, List.append_nil]
        omega
    | some name =>
        have middle := between_append (version ++ text "/apps/") (slash :: endpoint.word)
          (oneLine name rfl)
        simpa [path] using middle
  have exact_iff (endpoint : Endpoint) (missing : pathName = none) :
      path version pathName endpoint = version ++ text "/apps/" ++ endpoint.word := by
    rw [path, missing, Option.elim_none, List.append_nil]
  cases endpoint with
  | metrics =>
      unfold routeOf
      dsimp only
      rw [own .metrics]
      cases pathName with
      | none => rw [if_pos (exact_iff _ rfl), Option.some_or]
      | some name => rfl
  | onlyAppMetrics =>
      have other : between (version ++ text "/apps/") (slash :: Endpoint.metrics.word)
          (path version pathName .onlyAppMetrics) = none :=
        between_of_not_suffix (isSuffixOf_append_eq_false (by decide) _)
      have notMetrics : path version pathName .onlyAppMetrics ≠
          version ++ text "/apps/" ++ Endpoint.metrics.word := by
        intro same
        have lengths := congrArg List.length same
        have longer : Endpoint.metrics.word.length < Endpoint.onlyAppMetrics.word.length := by
          decide
        simp only [path, List.length_append] at lengths
        omega
      unfold routeOf
      dsimp only
      rw [other, own .onlyAppMetrics, if_neg notMetrics, Option.none_or]
      cases pathName with
      | none => rw [if_pos (exact_iff _ rfl)]
      | some name => rfl

/-- A path of one version is not taken for one of the other. -/
theorem route_path {version : GoString} (versionMem : version ∈ versions)
    (pathName : Option GoString) (endpoint : Endpoint)
    (oneLine : ∀ name, pathName = some name → 0x0A ∉ name) :
    route (path version pathName endpoint) = some (endpoint, pathName) := by
  have isRoute := routeOf_path version pathName endpoint oneLine
  simp only [versions, List.mem_cons, List.not_mem_nil, or_false] at versionMem
  rcases versionMem with rfl | rfl
  · rw [route, versions, List.findSome?_cons, isRoute]
  · have notFirst : routeOf (text "/v1") (path (text "/v2") pathName endpoint) = none := by
      have notPrefix : (text "/v1" ++ text "/apps/").isPrefixOf
          (path (text "/v2") pathName endpoint) = false := rfl
      have notExact (endpoint other : Endpoint) : path (text "/v2") pathName endpoint ≠
          text "/v1" ++ text "/apps/" ++ other.word := by
        intro same
        have digits : some (0x32 : UInt8) = some 0x31 := congrArg (·[2]?) same
        exact absurd digits (by decide)
      unfold routeOf
      dsimp only
      rw [between_of_otherStart notPrefix, between_of_otherStart notPrefix,
        if_neg (notExact _ _), if_neg (notExact _ _)]
      rfl
    rw [route, versions, List.findSome?_cons, notFirst, List.findSome?_cons, isRoute]

/-- No route leads to an app whose name has several lines. -/
theorem newline_not_mem_of_routeOf {version path : GoString} (plain : 0x0A ∉ version)
    {found : Endpoint × Option GoString} (isRoute : routeOf version path = some found) :
    0x0A ∉ path := by
  have plainApps : 0x0A ∉ version ++ text "/apps/" := by
    rw [List.mem_append, not_or]
    exact ⟨plain, by decide⟩
  have plainWord (endpoint : Endpoint) : 0x0A ∉ endpoint.word := by
    cases endpoint <;> decide
  have ofEndpoint (endpoint : Endpoint)
      (matched : (match between (version ++ text "/apps/") (slash :: endpoint.word) path with
        | some pathName => some (endpoint, some pathName)
        | none =>
            if path = version ++ text "/apps/" ++ endpoint.word then some (endpoint, none)
            else none) = some found) : 0x0A ∉ path := by
    split at matched
    · next pathName isBetween =>
        rcases between_eq_some isBetween with ⟨rfl, oneLine⟩
        simp only [List.mem_append, List.mem_cons, not_or] at plainApps ⊢
        exact ⟨⟨plainApps, oneLine⟩, by decide, plainWord endpoint⟩
    · split_ifs at matched with exact_path
      rw [exact_path, List.mem_append, not_or]
      exact ⟨plainApps, plainWord endpoint⟩
  rcases Option.or_eq_some_iff.mp isRoute with first | ⟨_, second⟩
  · exact ofEndpoint .metrics first
  · exact ofEndpoint .onlyAppMetrics second

theorem route_eq_none {path : GoString} (newline : 0x0A ∈ path) : route path = none := by
  rw [route, List.findSome?_eq_none_iff]
  intro version versionMem
  have plain : ∀ version ∈ versions, 0x0A ∉ version := by decide
  by_contra some
  rcases Option.ne_none_iff_exists'.mp some with ⟨found, isRoute⟩
  exact newline_not_mem_of_routeOf (plain version versionMem) isRoute newline

theorem apiVersion_path {version : GoString} (versionMem : version ∈ versions)
    (pathName : Option GoString) (endpoint : Endpoint) :
    apiVersion (path version pathName endpoint) = some (version.drop 2) := by
  simp only [versions, List.mem_cons, List.not_mem_nil, or_false] at versionMem
  rcases versionMem with rfl | rfl <;> rfl

/-! ## The forced parameter -/

/-- A query that is as long as a query may be, and lacks the parameter. -/
structure FullQuery (rawQuery : GoString) : Prop where
  accepted : (Url.settings rawQuery).length = Url.maxQueryParams
  length : rawQuery.count ampersand + 1 = Url.maxQueryParams
  missing : Url.queryValues rawQuery onlyFromApp = []

theorem fullQuery_iff (rawQuery : GoString) : FullQuery rawQuery ↔
    Url.maxQueryParams <
      Values.size ((Url.parseQuery rawQuery).insert onlyFromApp [text "1"]) := by
  have sizes := Values.size_insert (Url.parseQuery rawQuery) onlyFromApp [text "1"]
  have atMost := Url.length_settings_le rawQuery
  rw [List.length_singleton, Url.size_parseQuery, Url.get_parseQuery] at sizes
  have bound : 0 < Url.maxQueryParams := by decide
  constructor
  · rintro ⟨accepted, length, missing⟩
    rw [if_neg (by omega), if_neg (by omega), missing, List.length_nil] at sizes
    omega
  · intro tooLong
    split at sizes
    · omega
    · have missing : (Url.queryValues rawQuery onlyFromApp).length = 0 := by omega
      exact ⟨by omega, by omega, List.length_eq_zero_iff.mp missing⟩

/-- What the handler reads of the query that the wrapper has written. -/
theorem get_forceOnlyForApp (request : HttpRequest) (key : GoString) :
    (Url.parseQuery (forceOnlyForApp request).rawQuery).get key =
      if Url.maxQueryParams <
          Values.size ((Url.parseQuery request.rawQuery).insert onlyFromApp [text "1"]) then []
      else if key = onlyFromApp then [text "1"]
      else (Url.parseQuery request.rawQuery).get key := by
  have sizes := Values.size_insert (Url.parseQuery request.rawQuery) onlyFromApp [text "1"]
  have sizeBound := Values.size_eq (Url.parseQuery request.rawQuery) onlyFromApp
  rw [List.length_singleton] at sizes
  rw [forceOnlyForApp, Url.get_parseQuery_encode (by omega), Values.get_insert]

theorem isSome_lookup_parseQuery (query key : GoString) :
    ((Url.parseQuery query).lookup key).isSome = decide ((Url.parseQuery query).get key ≠ []) := by
  rw [Bool.eq_iff_iff, AList.lookup_isSome, Url.mem_parseQuery_iff, decide_eq_true_iff]

theorem metricsCall_of_not_full {request : HttpRequest} (notFull : ¬FullQuery request.rawQuery)
    (pathName : Option GoString) :
    metricsCall pathName (forceOnlyForApp request) = (metricsCall pathName request).map
      fun call => { call with onlyAppMetrics := true } := by
  have values (key : GoString) := get_forceOnlyForApp request key
  simp only [if_neg (mt (fullQuery_iff _).mpr notFull)] at values
  have same {key : GoString} (other : key ≠ onlyFromApp) :
      first (Url.parseQuery (forceOnlyForApp request).rawQuery) key =
        first (Url.parseQuery request.rawQuery) key := by
    rw [first, values key, if_neg other, first]
  have sameName : appName pathName (Url.parseQuery (forceOnlyForApp request).rawQuery) =
      appName pathName (Url.parseQuery request.rawQuery) := by
    rw [appName, same (by decide), same (by decide), appName]
  have forced : ((Url.parseQuery (forceOnlyForApp request).rawQuery).lookup onlyFromApp).isSome =
      true := by
    rw [isSome_lookup_parseQuery, values onlyFromApp, if_pos rfl]
    rfl
  unfold metricsCall
  dsimp only
  rw [sameName, same (by decide), forced]
  split <;> rfl

/-- If the query gets too long, the wrapped handler sees no parameters at all. -/
theorem metricsCall_of_full {request : HttpRequest} (full : FullQuery request.rawQuery)
    (pathName : Option GoString) {call : MetricsCall}
    (calls : metricsCall pathName (forceOnlyForApp request) = some call) :
    call.onlyAppMetrics = false := by
  have nothing := get_forceOnlyForApp request onlyFromApp
  rw [if_pos ((fullQuery_iff _).mp full)] at nothing
  unfold metricsCall at calls
  dsimp only at calls
  rw [isSome_lookup_parseQuery, nothing] at calls
  split at calls
  · cases calls
  · cases calls
    rfl

theorem metricsCall_none_of_full {request : HttpRequest} (full : FullQuery request.rawQuery)
    {pathName : Option GoString} (bad : metricsCall pathName request = none) :
    metricsCall pathName (forceOnlyForApp request) = none := by
  have nothing (key : GoString) :
      first (Url.parseQuery (forceOnlyForApp request).rawQuery) key = [] := by
    rw [first, get_forceOnlyForApp, if_pos ((fullQuery_iff _).mp full)]
    rfl
  unfold metricsCall at bad
  dsimp only at bad
  rw [ite_eq_left_iff] at bad
  have noName : appName pathName (Url.parseQuery request.rawQuery) = [] := by
    by_contra named
    cases bad named
  have noPathName : pathName.getD [] = [] := by
    cases pathName with
    | none => rfl
    | some name =>
        rw [Option.getD_some]
        by_contra named
        rw [appName, Option.getD_some, if_neg named] at noName
        exact named noName
  have stillNoName : appName pathName (Url.parseQuery (forceOnlyForApp request).rawQuery) = [] := by
    unfold appName
    rw [nothing, nothing, noPathName]
    rfl
  unfold metricsCall
  dsimp only
  rw [if_pos stillNoName]

theorem metricsCall_congr {request other : HttpRequest}
    (sameQuery : request.rawQuery = other.rawQuery)
    (sameHeaders : headersMetrics request = headersMetrics other) (pathName : Option GoString) :
    metricsCall pathName request = metricsCall pathName other := by
  unfold metricsCall
  rw [sameQuery, sameHeaders]

/-! ## Clean paths -/

/-- What stands before the last element of the path of an endpoint. -/
def parent (version : GoString) (pathName : Option GoString) : GoString :=
  version ++ text "/apps" ++ pathName.elim [] fun name => slash :: name

theorem path_eq (version : GoString) (pathName : Option GoString) (endpoint : Endpoint) :
    path version pathName endpoint = parent version pathName ++ slash :: endpoint.word := by
  have apps : text "/apps/" = text "/apps" ++ [slash] := rfl
  cases pathName with
  | none => simp [path, parent, apps]
  | some name => simp [path, parent, apps]

theorem plain_word (endpoint : Endpoint) : Path.Plain endpoint.word := by
  cases endpoint
  · exact ⟨by decide, by decide, by decide, by decide⟩
  · exact ⟨by decide, by decide, by decide, by decide⟩

/-- The router cleans what stands before the endpoint. -/
theorem cleanPath_path {version : GoString} (versionMem : version ∈ versions)
    (pathName : Option GoString) (endpoint : Endpoint) :
    cleanPath (path version pathName endpoint) =
      Path.join (Path.kept (parent version pathName)) ++ slash :: endpoint.word := by
  have rooted : (path version pathName endpoint).head? = some slash := by
    simp only [versions, List.mem_cons, List.not_mem_nil, or_false] at versionMem
    rcases versionMem with rfl | rfl <;> rfl
  have given : path version pathName endpoint ≠ [] := by
    intro empty
    rw [empty] at rooted
    cases rooted
  have noSlash : (path version pathName endpoint).getLast? ≠ some slash := by
    rw [path_eq, List.getLast?_append_of_ne_nil _ (List.cons_ne_nil _ _)]
    cases endpoint <;> decide
  unfold cleanPath
  rw [if_neg given, if_neg (not_not.mpr rooted)]
  dsimp only
  rw [if_neg (fun both => noSlash both.1), path_eq, Path.clean_append (plain_word endpoint)]

/-- The path of one endpoint is clean exactly if that of the other one is. -/
theorem cleanPath_path_eq_iff {version : GoString} (versionMem : version ∈ versions)
    (pathName : Option GoString) (endpoint : Endpoint) :
    cleanPath (path version pathName endpoint) = path version pathName endpoint ↔
      Path.join (Path.kept (parent version pathName)) = parent version pathName := by
  rw [cleanPath_path versionMem, path_eq, List.append_left_inj]

theorem replaceLast_append (endpoint other : Endpoint) (before : GoString) :
    endpoint.replaceLast (before ++ slash :: other.word) = before ++ slash :: endpoint.word := by
  rw [Endpoint.replaceLast, cutLast_append before (plain_word other).noSlash]
  simp

/-- What becomes of the requests for both endpoints, for a path that is clean. -/
theorem serve_path_of_clean {version : GoString} (versionMem : version ∈ versions)
    {pathName : Option GoString} (oneLine : ∀ name, pathName = some name → 0x0A ∉ name)
    (clean : Path.join (Path.kept (parent version pathName)) = parent version pathName)
    (rawQuery : GoString) (header : Header) :
    serve ⟨path version pathName .metrics, rawQuery, header⟩ =
        (metricsCall pathName ⟨path version pathName .metrics, rawQuery, header⟩).elim
          .badRequest .call ∧
      serve ⟨path version pathName .onlyAppMetrics, rawQuery, header⟩ =
        (metricsCall pathName
          (forceOnlyForApp ⟨path version pathName .metrics, rawQuery, header⟩)).elim
            .badRequest .call := by
  have sameHeaders : headersMetrics ⟨path version pathName .onlyAppMetrics, rawQuery, header⟩ =
      headersMetrics ⟨path version pathName .metrics, rawQuery, header⟩ := by
    unfold headersMetrics accept
    rw [apiVersion_path versionMem, apiVersion_path versionMem]
  have kept (endpoint : Endpoint) : ¬cleanPath (path version pathName endpoint) ≠
      path version pathName endpoint :=
    not_not.mpr ((cleanPath_path_eq_iff versionMem pathName endpoint).mpr clean)
  constructor
  · rw [serve, if_neg (kept .metrics), route_path versionMem pathName .metrics oneLine]
  · rw [serve, if_neg (kept .onlyAppMetrics),
      route_path versionMem pathName .onlyAppMetrics oneLine]
    exact congrArg (Option.elim · Served.badRequest Served.call) (@metricsCall_congr
      (forceOnlyForApp ⟨path version pathName .onlyAppMetrics, rawQuery, header⟩)
      (forceOnlyForApp ⟨path version pathName .metrics, rawQuery, header⟩) rfl sameHeaders pathName)

theorem serve_path_of_newline {version : GoString} (versionMem : version ∈ versions)
    {name : GoString} (newline : 0x0A ∈ name)
    (clean : Path.join (Path.kept (parent version (some name))) = parent version (some name))
    (endpoint : Endpoint) (rawQuery : GoString) (header : Header) :
    serve ⟨path version (some name) endpoint, rawQuery, header⟩ = .elsewhere := by
  have inPath : 0x0A ∈ path version (some name) endpoint := by
    simp [path, newline]
  rw [serve, if_neg (not_not.mpr ((cleanPath_path_eq_iff versionMem _ endpoint).mpr clean)),
    route_eq_none inPath]

theorem serve_path_of_unclean {version : GoString} (versionMem : version ∈ versions)
    {pathName : Option GoString}
    (unclean : Path.join (Path.kept (parent version pathName)) ≠ parent version pathName)
    (endpoint : Endpoint) (rawQuery : GoString) (header : Header) :
    serve ⟨path version pathName endpoint, rawQuery, header⟩ = .movedPermanently
      (Path.join (Path.kept (parent version pathName)) ++ slash :: endpoint.word) := by
  have moved : cleanPath (path version pathName endpoint) ≠ path version pathName endpoint :=
    mt (cleanPath_path_eq_iff versionMem pathName endpoint).mp unclean
  rw [serve, if_pos moved, cleanPath_path versionMem]

/-- A request for the metrics of the app only fares as the same request for all metrics does: it
calls `Metrics` with the same arguments but for the one, or it is answered or redirected alike. The
exception is a call with a query that the parameter makes too long. -/
theorem serve_onlyAppMetrics_iff {version : GoString} (versionMem : version ∈ versions)
    (pathName : Option GoString) (rawQuery : GoString) (header : Header) :
    serve ⟨path version pathName .onlyAppMetrics, rawQuery, header⟩ =
        (serve ⟨path version pathName .metrics, rawQuery, header⟩).forApp ↔
      ¬FullQuery rawQuery ∨
        ∀ call, serve ⟨path version pathName .metrics, rawQuery, header⟩ ≠ .call call := by
  by_cases clean : Path.join (Path.kept (parent version pathName)) = parent version pathName
  swap
  · refine iff_of_true ?_ (Or.inr ?_)
    · rw [serve_path_of_unclean versionMem clean, serve_path_of_unclean versionMem clean,
        Served.forApp, replaceLast_append]
    · intro call
      rw [serve_path_of_unclean versionMem clean]
      exact Served.noConfusion
  by_cases oneLine : ∀ name, pathName = some name → 0x0A ∉ name
  swap
  · push Not at oneLine
    rcases oneLine with ⟨name, rfl, newline⟩
    have elsewhere := serve_path_of_newline versionMem newline clean
    refine iff_of_true ?_ (Or.inr ?_)
    · rw [elsewhere, elsewhere, Served.forApp]
    · intro call
      rw [elsewhere]
      exact Served.noConfusion
  rcases serve_path_of_clean versionMem oneLine clean rawQuery header with ⟨served, servedOnly⟩
  rw [served, servedOnly]
  constructor
  · intro same
    refine or_iff_not_imp_left.mpr fun full => ?_
    rw [not_not] at full
    intro call isCall
    cases calls : metricsCall pathName ⟨path version pathName .metrics, rawQuery, header⟩ with
    | none =>
        rw [calls] at isCall
        cases isCall
    | some call =>
        rw [calls] at same
        cases forced : metricsCall pathName
            (forceOnlyForApp ⟨path version pathName .metrics, rawQuery, header⟩) with
        | none =>
            rw [forced] at same
            cases same
        | some forcedCall =>
            rw [forced] at same
            cases same
            cases metricsCall_of_full full pathName forced
  · intro fits
    by_cases full : FullQuery rawQuery
    · have bad : metricsCall pathName ⟨path version pathName .metrics, rawQuery, header⟩ =
          none := by
        refine Option.eq_none_iff_forall_ne_some.mpr fun call calls => ?_
        refine fits.resolve_left (not_not.mpr full) call ?_
        rw [calls, Option.elim_some]
      rw [bad, metricsCall_none_of_full full bad]
      rfl
    · rw [metricsCall_of_not_full full pathName]
      cases metricsCall pathName ⟨path version pathName .metrics, rawQuery, header⟩ <;> rfl

/-- An app that is named in the path, and a path that the router redirects. -/
theorem serve_onlyAppMetrics_iff_sample :
    serve ⟨text "/v1/apps/app/only-app-metrics", text "metric_path=up", ∅⟩ =
        (serve ⟨text "/v1/apps/app/metrics", text "metric_path=up", ∅⟩).forApp ∧
      serve ⟨text "/v2/apps/a//b/only-app-metrics", [], ∅⟩ =
        (serve ⟨text "/v2/apps/a//b/metrics", [], ∅⟩).forApp := by
  constructor
  · refine (@serve_onlyAppMetrics_iff (text "/v1") (by decide) (some (text "app"))
      (text "metric_path=up") ∅).mpr (Or.inl fun full => ?_)
    exact absurd full.length (by decide)
  · refine (@serve_onlyAppMetrics_iff (text "/v2") (by decide) (some (text "a//b")) [] ∅).mpr
      (Or.inl fun full => ?_)
    exact absurd full.length (by decide)

example : serve ⟨text "/v2/apps/a//b/metrics", [], ∅⟩ =
    .movedPermanently (text "/v2/apps/a/b/metrics") := by
  rfl

/-- There are such queries: here the values of another parameter fill them. -/
theorem exists_fullQuery : ∃ rawQuery, FullQuery rawQuery := by
  let values : Values := AList.insert (text "app") (List.replicate Url.maxQueryParams []) ∅
  have size : values.size = Url.maxQueryParams := by
    have sizes := Values.size_insert ∅ (text "app") (List.replicate Url.maxQueryParams [])
    have noValues : Values.get ∅ (text "app") = [] := rfl
    have empty : Values.size ∅ = 0 := rfl
    rw [noValues, empty, List.length_replicate, List.length_nil, Nat.add_zero,
      Nat.zero_add] at sizes
    exact sizes
  refine ⟨Url.encode values, ?_, ?_, ?_⟩
  · rw [Url.settings_encode, Url.length_sortedSettings, size]
  · rw [Url.count_encode (by rw [size]; decide), size]
  · rw [Url.queryValues_encode, Values.get_insert, if_neg (by decide)]
    rfl

end Api

end Promfetcher
