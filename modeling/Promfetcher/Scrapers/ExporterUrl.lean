import Promfetcher.Config.ExternalExporters
import Promfetcher.Foundation.Query
import Promfetcher.Scrapers.Target

/-!
# The URL of an external exporter

The URL that is requested for an external exporter is put together from the fields of
its configuration, and none of them is checked against the others. It says what the
configuration says exactly when every delimiter stands where two of them are joined.
-/

namespace Promfetcher

open Foundation

/-! ## The query that is sent -/

/-- The query of the request, given the one of the URL and the parameters of the route in the
order in which the range visits them. -/
def Scraper.sentQuery (rawQuery : GoString)
    (order : List (Sigma fun _ : GoString => List GoString)) : GoString :=
  if order.isEmpty then rawQuery
  else
    Url.encode (order.foldl (fun urlParamsCurrent entry =>
      urlParamsCurrent.insert entry.1 entry.2) (Url.parseQuery rawQuery))

/-- A query with parameters is written anew, without what was refused of the old one. -/
theorem Scraper.refusedSettings_sentQuery (rawQuery : GoString)
    (order : List (Sigma fun _ : GoString => List GoString)) :
    Url.refusedSettings (sentQuery rawQuery order) =
      if order = [] then Url.refusedSettings rawQuery else [] := by
  cases order with
  | nil => rfl
  | cons entry order => exact Url.refusedSettings_encode _

theorem Scraper.queryValues_sentQuery (rawQuery : GoString)
    {order : List (Sigma fun _ : GoString => List GoString)} (nodup : order.NodupKeys)
    (key : GoString) :
    Url.queryValues (sentQuery rawQuery order) key =
      (order.dlookup key).getD
        (if order ≠ [] ∧ Url.maxQueryParams < rawQuery.count ampersand + 1 then []
          else Url.queryValues rawQuery key) := by
  cases order with
  | nil => rfl
  | cons entry order =>
      change Url.queryValues (Url.encode _) key = _
      rw [Url.queryValues_encode, Values.get, lookup_foldl_insert _ nodup]
      cases (entry :: order).dlookup key with
      | some values => rfl
      | none =>
          have parsed := Url.get_parseQuery rawQuery key
          rw [Values.get] at parsed
          simpa using parsed

/-! ## What the configuration asks for -/

namespace PlainExporter

/-- The configured path, without the query behind it. -/
def writtenPath (plain : PlainExporter) : GoString :=
  (Url.cutOff questionMark plain.pathOrDefault).1

/-- The configured query behind the path. -/
def writtenQuery (plain : PlainExporter) : GoString :=
  (Url.cutOff questionMark plain.pathOrDefault).2

/-- The setting is one of a configured parameter, which takes its place whatever it says. -/
def overrides (plain : PlainExporter) (setting : GoString) : Bool :=
  (Url.queryUnescape (Url.cutOff equalsSign setting).1).any fun key =>
    (plain.params.lookup key).isSome

/-- The settings of a query that `net/url` refuses, but for those that are overridden. -/
def refusedOthers (plain : PlainExporter) (query : GoString) : List GoString :=
  (Url.refusedSettings query).filter fun setting => !plain.overrides setting

section

variable [NetRules] [TextTemplate]

/-- The parts of a URL and the query that is sent with it are the configured ones. -/
structure AsksFor (plain : PlainExporter) (tags : Tags) (parts : UrlParts) (url : Url)
    (query : GoString) : Prop where
  scheme : url.scheme = plain.schemeOrDefault.map lowerByte
  authority : parts.authority = some plain.host
  path : parts.path = plain.writtenPath
  configured : ∀ key written, plain.params.lookup key = some written →
    ∃ values, written.mapM (resolve tags) = .ok values ∧ Url.queryValues query key = values
  others : ∀ key, plain.params.lookup key = none →
    Url.queryValues query key = Url.queryValues plain.writtenQuery key
  refused : plain.refusedOthers query = plain.refusedOthers plain.writtenQuery

/-- What is requested is a URL, and it says what the configuration says. -/
def ScrapedAsWritten (plain : PlainExporter) (tags : Tags) (raw : GoString)
    (order : List (Sigma fun _ : GoString => List GoString)) : Prop :=
  ∃ parts url, Url.split raw = some parts ∧ Url.ofParts parts = some url ∧
    plain.AsksFor tags parts url (Scraper.sentQuery url.rawQuery order)

/-- The query behind the path is only read if there are parameters to set, and is refused as a
whole if it is too long. -/
def Overloaded (plain : PlainExporter) : Prop :=
  plain.params ≠ ∅ ∧
    Url.maxQueryParams < (Url.beforeFragment plain.writtenQuery).count ampersand + 1

/-- The fields fit together. -/
structure Writable (plain : PlainExporter) : Prop where
  /-- A capital letter in `https` is not recognised. -/
  scheme : plain.scheme = [] ∨ plain.scheme.map lowerByte = text "http" ∨
    plain.scheme = text "https"
  separated : Url.Separated plain.host plain.writtenPath
  host : (Url.parseAuthority (text "http") plain.host).isSome
  path : (pathUnescape plain.writtenPath).isSome
  fragment : (pathUnescape (Url.cutOff hashSign plain.pathOrDefault).2).isSome
  control : (plain.host ++ Url.beforeFragment plain.pathOrDefault).any isControl = false
  /-- What stands behind a hash in the query is lost, and so are the other keys of a query that
  is refused. -/
  query : ∀ key, plain.params.lookup key = none →
    (¬plain.Overloaded →
      Url.queryValues (Url.beforeFragment plain.writtenQuery) key =
        Url.queryValues plain.writtenQuery key) ∧
    (plain.Overloaded → Url.queryValues plain.writtenQuery key = [])
  /-- Without parameters the query is sent as it stands. With parameters it is written anew, and a
  setting that is refused is lost. -/
  refused : (plain.params = ∅ → plain.refusedOthers (Url.beforeFragment plain.writtenQuery) =
      plain.refusedOthers plain.writtenQuery) ∧
    (plain.params ≠ ∅ → plain.refusedOthers plain.writtenQuery = [])

end

/-! ## When it gets what it asks for -/

theorem scheme_iff {plain : PlainExporter} {route : Route}
    (isTls : route.tls = (plain.schemeOrDefault == text "https")) :
    Scraper.scheme route = plain.schemeOrDefault.map lowerByte ↔
      plain.scheme = [] ∨ plain.scheme.map lowerByte = text "http" ∨
        plain.scheme = text "https" := by
  unfold Scraper.scheme
  rw [isTls]
  unfold schemeOrDefault
  by_cases missing : plain.scheme = []
  · simp only [missing, if_true, true_or, iff_true]
    decide
  · by_cases https : plain.scheme = text "https"
    · simp only [https, or_true, iff_true]
      decide
    · simp only [missing, https, if_false, beq_iff_eq, false_or, or_false]
      exact eq_comm

theorem parseAuthority_scheme [NetRules] (route : Route) (host : GoString) :
    Url.parseAuthority (Scraper.scheme route) host = Url.parseAuthority (text "http") host := by
  have oneColon : NetRules.manyColons (Scraper.scheme route) = false := by
    unfold Scraper.scheme
    split
    · exact NetRules.manyColons_https
    · exact NetRules.manyColons_http
  have parseHost (host : GoString) :
      Url.parseHost (Scraper.scheme route) host = Url.parseHost (text "http") host := by
    simp only [Url.parseHost, oneColon, NetRules.manyColons_http]
  simp only [Url.parseAuthority, parseHost]

theorem urlParams_eq_nil_iff [TextTemplate] {plain : PlainExporter} {ee : ExternalExporter}
    (accepted : plain.unmarshalYAML = .ok ee)
    {order : List (Sigma fun _ : GoString => List ValueTemplate)}
    (visits : order.Perm ee.params.entries) {tags : Tags} {route : Route}
    (built : ee.toRoute order tags = .ok route) :
    route.urlParams.entries = [] ↔ plain.params = ∅ := by
  have same (key : GoString) : key ∈ route.urlParams ↔ key ∈ plain.params := by
    have reaches := lookup_urlParams accepted visits built key
    rw [← AList.lookup_isSome, ← AList.lookup_isSome]
    cases written : plain.params.lookup key with
    | none => rw [reaches.2 written]
    | some values =>
        rcases reaches.1 values written with ⟨resolved, _, held⟩
        rw [held]
        rfl
  have empty {Value : Type} (params : AList fun _ : GoString => Value) :
      params.entries = [] ↔ ∀ key, key ∉ params := by
    rw [← List.map_eq_nil_iff, List.eq_nil_iff_forall_not_mem]
    exact Iff.rfl
  rw [empty, AList.ext_iff, AList.empty_entries, empty]
  simp only [same]

/-- The order in which the range visits the parameters of the route is empty only if no parameter is
configured. -/
theorem ranged_eq_nil_iff [TextTemplate] {plain : PlainExporter} {ee : ExternalExporter}
    (accepted : plain.unmarshalYAML = .ok ee)
    {order : List (Sigma fun _ : GoString => List ValueTemplate)}
    (visits : order.Perm ee.params.entries) {tags : Tags} {route : Route}
    (built : ee.toRoute order tags = .ok route)
    {ranged : List (Sigma fun _ : GoString => List GoString)}
    (ranges : ranged.Perm route.urlParams.entries) : ranged = [] ↔ plain.params = ∅ := by
  rw [← urlParams_eq_nil_iff accepted visits built]
  exact ⟨fun visitsNone => List.nil_perm.mp (visitsNone ▸ ranges),
    fun noParams => List.perm_nil.mp (noParams ▸ ranges)⟩

/-- The configured parameters are always sent, and the others are those of the URL, if it can be
read. -/
theorem parameters_sent [TextTemplate] {plain : PlainExporter} {ee : ExternalExporter}
    (accepted : plain.unmarshalYAML = .ok ee)
    {order : List (Sigma fun _ : GoString => List ValueTemplate)}
    (visits : order.Perm ee.params.entries) {tags : Tags} {route : Route}
    (built : ee.toRoute order tags = .ok route)
    {ranged : List (Sigma fun _ : GoString => List GoString)}
    (ranges : ranged.Perm route.urlParams.entries) (rawQuery : GoString) :
    (∀ key written, plain.params.lookup key = some written →
      ∃ values, written.mapM (resolve tags) = .ok values ∧
        Url.queryValues (Scraper.sentQuery rawQuery ranged) key = values) ∧
    ∀ key, plain.params.lookup key = none →
      Url.queryValues (Scraper.sentQuery rawQuery ranged) key =
        if plain.params ≠ ∅ ∧ Url.maxQueryParams < rawQuery.count ampersand + 1 then []
        else Url.queryValues rawQuery key := by
  have nodup : ranged.NodupKeys :=
    (List.perm_nodupKeys ranges).mpr route.urlParams.nodupKeys
  have sent (key : GoString) := Scraper.queryValues_sentQuery rawQuery nodup key
  have sameEmpty := ranged_eq_nil_iff accepted visits built ranges
  refine ⟨fun key written isWritten => ?_, fun key missing => ?_⟩
  · rcases (lookup_urlParams accepted visits built key).1 written isWritten with
      ⟨values, resolved, held⟩
    refine ⟨values, resolved, ?_⟩
    rw [sent, List.perm_dlookup key nodup ranges]
    exact congrArg (Option.getD · _) held
  · have unset := (lookup_urlParams accepted visits built key).2 missing
    rw [sent, List.perm_dlookup key nodup ranges]
    refine (congrArg (Option.getD · _) unset).trans ?_
    simp only [Option.getD_none, ne_eq, sameEmpty]

/-- What is refused of the query of the URL is sent only if there are no parameters. -/
theorem refused_sent [TextTemplate] {plain : PlainExporter} {ee : ExternalExporter}
    (accepted : plain.unmarshalYAML = .ok ee)
    {order : List (Sigma fun _ : GoString => List ValueTemplate)}
    (visits : order.Perm ee.params.entries) {tags : Tags} {route : Route}
    (built : ee.toRoute order tags = .ok route)
    {ranged : List (Sigma fun _ : GoString => List GoString)}
    (ranges : ranged.Perm route.urlParams.entries) (rawQuery : GoString) :
    (plain.params = ∅ → plain.refusedOthers (Scraper.sentQuery rawQuery ranged) =
      plain.refusedOthers rawQuery) ∧
    (plain.params ≠ ∅ → plain.refusedOthers (Scraper.sentQuery rawQuery ranged) = []) := by
  have sameEmpty := ranged_eq_nil_iff accepted visits built ranges
  have sent := Scraper.refusedSettings_sentQuery rawQuery ranged
  refine ⟨fun noParams => ?_, fun hasParams => ?_⟩
  · rw [if_pos (sameEmpty.mpr noParams)] at sent
    rw [refusedOthers, sent, refusedOthers]
  · rw [if_neg (mt sameEmpty.mp hasParams)] at sent
    rw [refusedOthers, sent, List.filter_nil]

section

variable [NetRules] [TextTemplate]

/-- An accepted exporter is scraped as it is written exactly when its fields fit together,
whatever the tags are. -/
theorem scrapedAsWritten_iff {plain : PlainExporter} {ee : ExternalExporter}
    (accepted : plain.unmarshalYAML = .ok ee)
    {order : List (Sigma fun _ : GoString => List ValueTemplate)}
    (visits : order.Perm ee.params.entries) {tags : Tags} {route : Route}
    (built : ee.toRoute order tags = .ok route)
    {ranged : List (Sigma fun _ : GoString => List GoString)}
    (ranges : ranged.Perm route.urlParams.entries) (db : Option Store) (faults : Faults)
    (pathDefault : GoString) (headers : Header) (outboundIP : GoString) :
    plain.ScrapedAsWritten tags
        (Scraper.request db faults route pathDefault headers outboundIP).url ranged ↔
      plain.Writable := by
  rcases unmarshalYAML_ok accepted with ⟨_, _, host, path, isTls⟩
  rcases ExternalExporter.toRoute_ok built with ⟨_, _, address, tls, metricsPath⟩
  have requested : (Scraper.request db faults route pathDefault headers outboundIP).url =
      Scraper.scheme route ++ text "://" ++ (plain.host ++ plain.pathOrDefault) := by
    have endpoint : Scraper.endpoint db faults route pathDefault = plain.pathOrDefault := by
      rw [Scraper.endpoint, metricsPath, path]
      exact if_pos plain.pathOrDefault_ne_nil
    simp only [Scraper.request, endpoint, address, host, List.append_assoc]
  have schemes := scheme_iff (tls.trans isTls)
  have isPlain := Scraper.plainScheme_scheme route
  rw [requested]
  constructor
  · rintro ⟨parts, url, isSplit, decoded, asks⟩
    have separated := Url.separated_of_split isPlain isSplit asks.authority asks.path
    have whole := isSplit
    rw [Url.split_of_separated isPlain separated] at whole
    split at whole
    · cases whole
    · next control =>
        cases whole
        have readable := (Url.ofParts_isSome_iff rfl).mp (Option.isSome_of_eq_some decoded)
        have fields := Url.ofParts_fields decoded
        refine ⟨schemes.mp (fields.1.symm.trans asks.scheme), separated, ?_, readable.2.1,
          readable.2.2, by simpa using control, ?_, ?_⟩
        · rw [← parseAuthority_scheme route]
          exact readable.1
        · intro key missing
          have sent := (parameters_sent accepted visits built ranges url.rawQuery).2 key missing
          have same := sent.symm.trans (asks.others key missing)
          rw [fields.2] at same
          refine ⟨fun short => ?_, fun overloaded => ?_⟩
          · exact (if_neg short).symm.trans same
          · exact same.symm.trans (if_pos overloaded)
        · have sent := refused_sent accepted visits built ranges url.rawQuery
          rw [fields.2] at sent
          rw [← asks.refused, fields.2]
          exact ⟨fun noParams => (sent.1 noParams).symm, sent.2⟩
  · intro writable
    have isSplit := Url.split_of_separated isPlain writable.separated
    rw [if_neg (by simp [writable.control])] at isSplit
    have readable : (Url.ofParts
        { scheme := Scraper.scheme route
          authority := some plain.host
          path := plain.writtenPath
          query := Url.beforeFragment plain.writtenQuery
          fragment := (Url.cutOff hashSign plain.pathOrDefault).2 }).isSome := by
      rw [Url.ofParts_isSome_iff rfl, parseAuthority_scheme]
      exact ⟨writable.host, writable.path, writable.fragment⟩
    rcases Option.isSome_iff_exists.mp readable with ⟨url, decoded⟩
    have fields := Url.ofParts_fields decoded
    have parameters := parameters_sent accepted visits built ranges url.rawQuery
    have sent := refused_sent accepted visits built ranges url.rawQuery
    refine ⟨_, url, isSplit, decoded, fields.1.trans (schemes.mpr writable.scheme), rfl, rfl,
      parameters.1, fun key missing => ?_, ?_⟩
    · rw [parameters.2 key missing, fields.2]
      split
      · next overloaded => exact ((writable.query key missing).2 overloaded).symm
      · next short => exact (writable.query key missing).1 short
    · rw [fields.2] at sent ⊢
      by_cases noParams : plain.params = ∅
      · exact (sent.1 noParams).trans (writable.refused.1 noParams)
      · exact (sent.2 noParams).trans (writable.refused.2 noParams).symm

end

section

local instance noLiterals : NetRules := NetRules.noLiterals

/-- A template that gives the name of the app. -/
def appNameTemplate : GoString := text "\x7b\x7b.AppName\x7d\x7d"

/-- The engine, for a text without actions and for this template. -/
local instance appNameOnly : TextTemplate where
  parse rawString :=
    if rawString = appNameTemplate then .ok fun tags => .ok tags.appName
    else .error (text "template: :1: unexpected action")

/-- An exporter that probes the app it is asked about. The module in its path is refused, and is
overridden. -/
def probe : PlainExporter where
  host := text "probe:9115"
  metricsPath := text "/probe?module=a;b&debug=true"
  scheme := text "https"
  params := AList.singleton (text "module") [appNameTemplate, text "a b"]

theorem scrapedAsWritten_iff_sample :
    probe.ScrapedAsWritten { appName := text "shop" }
      (text "https://probe:9115/probe?module=a;b&debug=true")
      [⟨text "module", [text "shop", text "a b"]⟩] := by
  have fits : probe.Writable := by
    refine ⟨by decide, ⟨by decide, by decide, by decide⟩, by decide, by decide, by decide,
      by decide, fun key _ => ⟨fun _ => rfl, fun overloaded => ?_⟩, fun _ => rfl, fun _ => ?_⟩
    · exact absurd overloaded.2 (by decide)
    · decide
  have accepted : probe.unmarshalYAML = .ok
      { name := text "probe:9115/probe?module=a;b&debug=true"
        host := text "probe:9115"
        metricsPath := text "/probe?module=a;b&debug=true"
        isTls := true
        params := AList.singleton (text "module")
          [{ raw := appNameTemplate, tpl := some fun tags => .ok tags.appName },
            { raw := text "a b" }] } := by
    rfl
  exact (scrapedAsWritten_iff accepted (List.Perm.refl _) rfl (List.Perm.refl _) none {} [] ∅
    []).mpr fits

/-- A parameter that is not overridden is lost if it is refused. -/
example : ¬({ probe with metricsPath := text "/probe?target=100%" } : PlainExporter).Writable := by
  intro fits
  have hasParams : probe.params ≠ ∅ := by
    intro noParams
    exact absurd (congrArg AList.entries noParams) (by decide)
  exact absurd (fits.refused.2 hasParams) (by decide)

/-- A path without a slash in front. -/
def slashless : PlainExporter where
  host := text "node"
  metricsPath := text "metrics"

theorem not_scrapedAsWritten_always : ∃ ee route, slashless.unmarshalYAML = .ok ee ∧
    ee.toRoute ee.params.entries {} = .ok route ∧
      (Scraper.request none {} route [] ∅ []).url = text "http://nodemetrics" ∧
        ¬slashless.ScrapedAsWritten {} (text "http://nodemetrics") route.urlParams.entries := by
  refine ⟨_, _, rfl, rfl, by decide, ?_⟩
  rintro ⟨parts, url, isSplit, _, asks⟩
  have cuts : Url.split (text "http://nodemetrics") =
      some { scheme := text "http", authority := some (text "nodemetrics") } := by
    decide
  rw [cuts] at isSplit
  cases isSplit
  exact absurd asks.authority (by decide)

end

end PlainExporter

end Promfetcher
