import Promfetcher.Foundation.Keyed
import Promfetcher.Models.Route

/-!
# External exporters

The exporters of `config/external_exporters.go`, which are scraped for every app
as if they were instances of it. A parsed template stands for its execution, a
function of the tags. A range over the parameters visits them in any order, so
that the functions below take the order as an argument.
-/

namespace Promfetcher

open Foundation

/-- A parameter value: a text, or a template when it contains braces. -/
structure ValueTemplate where
  raw : GoString
  tpl : Option (Tags → Except GoString GoString) := none

/-- `ValueTemplate.ResolveTags`. -/
def ValueTemplate.resolveTags (vt : ValueTemplate) (tags : Tags) : Except GoString GoString :=
  match vt.tpl with
  | none => .ok vt.raw
  | some execute => execute tags

/-- An external exporter. The scheme decides `isTls` when the configuration is read. -/
structure ExternalExporter where
  name : GoString
  host : GoString
  metricsPath : GoString
  isTls : Bool := false
  params : AList (fun _ : GoString => List ValueTemplate) := ∅

/-! ## Reading the configuration -/

/-- What the model leaves open of the package `text/template`. -/
class TextTemplate where
  /-- `Parse` and, for a text that it accepts, `Execute` on the tags. -/
  parse : GoString → Except GoString (Tags → Except GoString GoString)

/-- The bytes with which an action of a template starts. -/
def openBraces : GoString := [0x7B, 0x7B]

/-- `ValueTemplate.UnmarshalYAML`, on the text that has been decoded. -/
def ValueTemplate.unmarshalYAML [TextTemplate] (rawString : GoString) :
    Except GoString ValueTemplate :=
  if List.IsInfix openBraces rawString then do
    let tpl ← TextTemplate.parse rawString
    return { raw := rawString, tpl := some tpl }
  else return { raw := rawString }

/-- The fields of an exporter as they stand in the configuration. -/
structure PlainExporter where
  name : GoString := []
  host : GoString := []
  metricsPath : GoString := []
  scheme : GoString := []
  params : AList (fun _ : GoString => List GoString) := ∅

namespace PlainExporter

/-- The parameters of an exporter, in the order in which the map is ranged over. -/
def decodeParams [TextTemplate] (order : List (Sigma fun _ : GoString => List GoString)) :
    Except GoString (AList fun _ : GoString => List ValueTemplate) :=
  order.foldlM (fun params entry => do
    let values ← entry.2.mapM ValueTemplate.unmarshalYAML
    return params.insert entry.1 values) ∅

/-- The path, or its default. -/
def pathOrDefault (ee : PlainExporter) : GoString :=
  if ee.metricsPath = [] then text "/metrics" else ee.metricsPath

/-- The scheme, or its default. -/
def schemeOrDefault (ee : PlainExporter) : GoString :=
  if ee.scheme = [] then text "http" else ee.scheme

/-- `ExternalExporter.UnmarshalYAML`. -/
def unmarshalYAML [TextTemplate] (ee : PlainExporter) : Except GoString ExternalExporter := do
  let params ← decodeParams ee.params.entries
  if ee.host = [] then .error (text "host must be provided on external exporter")
  else
    return {
      name := if ee.name = [] then ee.host ++ ee.pathOrDefault else ee.name
      host := ee.host
      metricsPath := ee.pathOrDefault
      isTls := ee.schemeOrDefault == text "https"
      params := params }

theorem pathOrDefault_ne_nil (ee : PlainExporter) : ee.pathOrDefault ≠ [] := by
  unfold pathOrDefault
  split
  · decide
  · assumption

theorem unmarshalYAML_ok [TextTemplate] {plain : PlainExporter} {ee : ExternalExporter}
    (accepted : plain.unmarshalYAML = .ok ee) :
    decodeParams plain.params.entries = .ok ee.params ∧ plain.host ≠ [] ∧
      ee.host = plain.host ∧ ee.metricsPath = plain.pathOrDefault ∧
        ee.isTls = (plain.schemeOrDefault == text "https") := by
  unfold unmarshalYAML at accepted
  cases decoded : decodeParams plain.params.entries with
  | error err =>
      rw [decoded] at accepted
      cases accepted
  | ok params =>
      rw [decoded] at accepted
      by_cases missing : plain.host = []
      · simp only [missing, if_true] at accepted
        cases accepted
      · simp only [missing, if_false] at accepted
        cases accepted
        exact ⟨rfl, missing, rfl, rfl, rfl⟩

end PlainExporter

/-! ## Routes -/

namespace ExternalExporter

/-- `ExternalExporter.ParamsToURLValues`, on the parameters in the given order. -/
def paramsToURLValues (order : List (Sigma fun _ : GoString => List ValueTemplate))
    (tags : Tags) : Except GoString (AList fun _ : GoString => List GoString) :=
  order.foldlM (fun urlValue entry => do
    let finalValues ← entry.2.mapM fun valueTpl => valueTpl.resolveTags tags
    return urlValue.insert entry.1 finalValues) ∅

/-- `ExternalExporter.ToRoute`. -/
def toRoute (ee : ExternalExporter)
    (order : List (Sigma fun _ : GoString => List ValueTemplate)) (tags : Tags) :
    Except GoString Route :=
  match paramsToURLValues order tags with
  | .error err =>
      .error (text "error on external exporter `" ++ ee.name ++ text "`: " ++ err)
  | .ok urlValues =>
      .ok
        { privateInstanceID := ee.name
          tags := tags
          address := ee.host
          tls := ee.isTls
          urlParams := urlValues
          metricsPath := ee.metricsPath
          host := ee.host }

theorem toRoute_ok {ee : ExternalExporter}
    {order : List (Sigma fun _ : GoString => List ValueTemplate)} {tags : Tags} {route : Route}
    (built : ee.toRoute order tags = .ok route) :
    paramsToURLValues order tags = .ok route.urlParams ∧ route.tags = tags ∧
      route.address = ee.host ∧ route.tls = ee.isTls ∧ route.metricsPath = ee.metricsPath := by
  unfold toRoute at built
  split at built
  · cases built
  · next urlValues resolved =>
      cases built
      exact ⟨resolved, rfl, rfl, rfl, rfl⟩

end ExternalExporter

/-! ## The values that a route gets -/

/-- What a written value stands for, given the tags. -/
def resolve [TextTemplate] (tags : Tags) (rawString : GoString) : Except GoString GoString := do
  (← ValueTemplate.unmarshalYAML rawString).resolveTags tags

theorem mapM_resolve [TextTemplate] {tags : Tags} {written : List GoString}
    {templates : List ValueTemplate} {values : List GoString}
    (decoded : written.mapM ValueTemplate.unmarshalYAML = .ok templates)
    (resolved : (templates.mapM fun valueTpl => valueTpl.resolveTags tags) = .ok values) :
    written.mapM (resolve tags) = .ok values := by
  induction written generalizing templates values with
  | nil =>
      cases decoded
      exact resolved
  | cons rawString written inductionHypothesis =>
      rw [List.mapM_cons] at decoded
      rcases bind_eq_ok.mp decoded with ⟨valueTpl, isRead, rest⟩
      rcases bind_eq_ok.mp rest with ⟨templates, restRead, same⟩
      cases same
      rw [List.mapM_cons] at resolved
      rcases bind_eq_ok.mp resolved with ⟨value, isValue, rest⟩
      rcases bind_eq_ok.mp rest with ⟨values, restValues, same⟩
      have stands : resolve tags rawString = .ok value :=
        bind_eq_ok.mpr ⟨valueTpl, isRead, isValue⟩
      rw [List.mapM_cons, stands, inductionHypothesis restRead restValues]
      exact same

/-- Every parameter of an accepted exporter reaches the route with the values that its texts stand
for, in order, and no other parameter does. -/
theorem lookup_urlParams [TextTemplate] {plain : PlainExporter} {ee : ExternalExporter}
    (accepted : plain.unmarshalYAML = .ok ee)
    {order : List (Sigma fun _ : GoString => List ValueTemplate)}
    (visits : order.Perm ee.params.entries) {tags : Tags} {route : Route}
    (built : ee.toRoute order tags = .ok route) (key : GoString) :
    (∀ written, plain.params.lookup key = some written →
      ∃ values, written.mapM (resolve tags) = .ok values ∧
        route.urlParams.lookup key = some values) ∧
    (plain.params.lookup key = none → route.urlParams.lookup key = none) := by
  have nodup : order.NodupKeys := (List.perm_nodupKeys visits).mpr ee.params.nodupKeys
  have sameParams : order.dlookup key = ee.params.lookup key :=
    List.perm_dlookup key nodup visits
  have decodes := lookup_of_foldlM_insert plain.params.nodupKeys
    (PlainExporter.unmarshalYAML_ok accepted).1 key
  have resolves := lookup_of_foldlM_insert nodup (ExternalExporter.toRoute_ok built).1 key
  refine ⟨fun written isWritten => ?_, fun missing => ?_⟩
  · rcases decodes.1 written isWritten with ⟨templates, decoded, held⟩
    rcases resolves.1 templates (sameParams.trans held) with ⟨values, resolved, found⟩
    exact ⟨values, mapM_resolve decoded resolved, found⟩
  · exact resolves.2 (sameParams.trans (decodes.2 missing))

end Promfetcher
