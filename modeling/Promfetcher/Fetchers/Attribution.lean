import Promfetcher.Fetchers.MetricsFetcher
import Promfetcher.Mbus.ValidText

/-!
# Attribution of failed scrapes

`NewDesc` of the Prometheus client refuses constant labels if some value is not
valid UTF-8, and records that in a field which nothing here reads, so that the
counter has no label at all. The values of a decoded message are valid; the text
of the error need not be, since it may repeat the status line of the target.
-/

namespace Promfetcher

open Foundation

namespace Scraper

/-- The app in the error of `Scrape` for a status code from 400 to 499. -/
def appPath (route : Route) (statusCode : Nat) : GoString :=
  route.tags.organizationName ++ text "/" ++ route.tags.spaceName ++ text "/" ++
    route.tags.appName ++ text " (status code " ++ decimal statusCode ++ text ")"

/-- What `Scrape` makes of an answer, given what comes of its body if it is read. -/
def respond (route : Route) (endpoint : GoString) (statusCode : Nat) (status : GoString)
    (body : ScrapeResult) : ScrapeResult :=
  if statusCode ≠ 200 then
    if 400 ≤ statusCode ∧ statusCode ≤ 499 then
      .noEndpointFound (appPath route statusCode) endpoint
    else .failure (text "server returned HTTP status " ++ status)
  else body

end Scraper

/-- The values that tell which instance a route is. -/
def identifyingLabels (route : Route) : List LabelPair :=
  appLabels route.tags ++
    [⟨ptrString (text "index"), ptrString route.tags.instanceID⟩,
      ⟨ptrString (text "instance_id"), ptrString route.tags.instanceID⟩,
      ⟨ptrString (text "instance"), ptrString route.address⟩]

/-- The value of the counter of an error. -/
def Float64.one : Float64 := ⟨0x3FF0000000000000⟩

/-- The families hold one scrape error, of value one, with the values of the route and an
error. -/
def Attributable (route : Route) (families : Families) : Prop :=
  ∃ family metric, families.lookup scrapeErrorName = some family ∧ family.metric = [metric] ∧
    metric.value = .counter Float64.one ∧
    (∀ label ∈ identifyingLabels route, label ∈ metric.label) ∧
    ∃ error, ⟨ptrString (text "error"), error⟩ ∈ metric.label

/-- The values among the labels of a scrape error that are not the text of the error. -/
def scrapeErrorValues (route : Route) : List GoString :=
  [route.tags.appID, route.tags.appName, route.tags.instanceID, route.address,
    route.tags.organizationID, route.tags.organizationName, route.tags.spaceID,
    route.tags.spaceName]

theorem scrapeErrorLabels_valid (route : Route) (err : GoString) :
    ((scrapeErrorLabels route err).all fun label => validString label.2) = true ↔
      ValidTexts (scrapeErrorValues route) ∧ validString err = true := by
  simp [scrapeErrorLabels, scrapeErrorValues, ValidTexts]
  tauto

/-- A scrape error keeps its labels exactly if all its values are valid UTF-8. -/
theorem scrapeError_attributable (route : Route) (err : GoString) :
    Attributable route (scrapeError route err) ↔
      ValidTexts (scrapeErrorValues route) ∧ validString err = true := by
  rw [← scrapeErrorLabels_valid]
  have family : (scrapeError route err).lookup scrapeErrorName = some
      { name := ptrString scrapeErrorName
        help := ptrString (text "Promfetcher scrap error on your instance")
        type := some .counter
        metric := [errorMetric (scrapeErrorLabels route err)] } := by
    rw [scrapeError, errorFamily, lookup_singleton, if_pos rfl]
  constructor
  · rintro ⟨_, metric, isFamily, isMetric, _, _, error, isLabel⟩
    by_contra invalid
    rw [family, Option.some.injEq] at isFamily
    subst isFamily
    rw [← List.singleton_inj.mp isMetric, errorMetric, counterLabels_of_invalid invalid] at isLabel
    cases isLabel
  · intro valid
    refine ⟨_, _, family, rfl, rfl, ?_, ptrString err, ?_⟩
    · rw [errorMetric, counterLabels_of_valid valid]
      simp [identifyingLabels, appLabels, scrapeErrorLabels]
    · rw [errorMetric, counterLabels_of_valid valid]
      simp [scrapeErrorLabels]

theorem makeRoute_valid {data : GoString} {msg : Message} (created : createMessage data = .ok msg) :
    ValidTexts (scrapeErrorValues msg.makeRoute) := by
  have valid := createMessage_valid created
  simp only [ValidTexts, Message.texts, Tags.texts, List.forall_mem_append, List.forall_mem_cons]
    at valid
  have tags : msg.makeRoute.tags = msg.tags := rfl
  have address : msg.makeRoute.address = msg.host ++ (text ":" ++ decimal msg.portOf.1) :=
    List.append_assoc _ _ _
  have addressValid : validString (msg.host ++ (text ":" ++ decimal msg.portOf.1)) = true := by
    rw [validString_append valid.1.1.2.2.1, validString_append (validString_text _)]
    exact validString_text _
  simp [ValidTexts, scrapeErrorValues, tags, address, addressValid, valid]

theorem toRoute_valid {data : GoString} {msg : Message} (created : createMessage data = .ok msg)
    {ee : ExternalExporter} {order : List (Sigma fun _ : GoString => List ValueTemplate)}
    {route : Route} (built : ee.toRoute order (exporterTags msg.tags) = .ok route) :
    ValidTexts (scrapeErrorValues route) ↔ validString ee.host = true := by
  have valid := createMessage_valid created
  simp only [ValidTexts, Message.texts, Tags.texts, List.forall_mem_append, List.forall_mem_cons]
    at valid
  rcases ExternalExporter.toRoute_ok built with ⟨_, tags, address, _⟩
  have noInstance : validString [] = true := rfl
  simp [ValidTexts, scrapeErrorValues, tags, address, exporterTags, valid, noInstance]

theorem validString_errNoEndpointFound (appIdOrPath endpoint : GoString) :
    validString (errNoEndpointFound appIdOrPath endpoint).error = true ↔
      validString endpoint = true ∧
        validString ((pathUnescape appIdOrPath).getD appIdOrPath) = true := by
  have newline : validString (text "\n") = true := validString_text _
  simp only [ErrFetch.error, errNoEndpointFound, List.append_assoc]
  rw [decimal, validString_append (validString_text _), validString_append (validString_text _),
    validString_append (validString_text _),
    validString_append_literal "' for app with id or path '" rfl (by decide),
    validString_append_literal "', please create one" rfl (by decide)]
  simp only [newline, and_true]

/-- What can be invalid in the error for an answer: the parts that come from the target, the
request and the names of the app, with the escapes in the names decoded. -/
def AnswerValid (route : Route) (endpoint : GoString) (statusCode : Nat)
    (status : GoString) : Prop :=
  if 400 ≤ statusCode ∧ statusCode ≤ 499 then
    validString endpoint = true ∧
      validString ((pathUnescape (Scraper.appPath route statusCode)).getD
        (Scraper.appPath route statusCode)) = true
  else validString status = true

theorem validString_respond {route : Route} {endpoint status : GoString} {statusCode : Nat}
    {body : ScrapeResult} {err : ScrapeError} (failed : statusCode ≠ 200)
    (returned : metric route (Scraper.respond route endpoint statusCode status body) = .error err) :
    validString err.error = true ↔ AnswerValid route endpoint statusCode status := by
  unfold AnswerValid
  rw [Scraper.respond, if_pos failed] at returned
  split at returned
  · rename_i notFound
    cases returned
    rw [if_pos notFound]
    exact validString_errNoEndpointFound _ _
  · rename_i other
    cases returned
    rw [if_neg other, ScrapeError.error, validString_append (validString_text _)]

/-- The scrape error of a route that comes from a message is attributable exactly if the text of
the error is valid UTF-8, and that of a route of an exporter if its host is as well. The text is
valid for an answer of the target exactly if what it repeats of the answer is. -/
theorem attributable_iff {data : GoString} {msg : Message}
    (created : createMessage data = .ok msg) :
    (∀ err, Attributable msg.makeRoute (scrapeError msg.makeRoute err) ↔
      validString err = true) ∧
    (∀ (ee : ExternalExporter) order route,
      ee.toRoute order (exporterTags msg.tags) = .ok route → ∀ err,
        (Attributable route (scrapeError route err) ↔
          validString ee.host = true ∧ validString err = true)) ∧
    ∀ route endpoint statusCode status body err, statusCode ≠ 200 →
      metric route (Scraper.respond route endpoint statusCode status body) = .error err →
        (validString err.error = true ↔ AnswerValid route endpoint statusCode status) := by
  refine ⟨?_, ?_, ?_⟩
  · intro err
    rw [scrapeError_attributable]
    simp only [makeRoute_valid created, true_and]
  · intro ee order route built err
    rw [scrapeError_attributable, toRoute_valid created built]
  · intro route endpoint statusCode status body err failed returned
    exact validString_respond failed returned

/-- The tags of an instance of an app. -/
def shopTags : Tags where
  organizationID := text "o-1"
  spaceID := text "s-1"
  appID := text "a-1"
  organizationName := text "org"
  spaceName := text "dev"
  appName := text "shop"
  instanceID := text "i-1"

/-- The message with which the instance is registered. -/
def shopMessage : Message where
  host := text "10.0.0.1"
  port := 8080
  tags := shopTags
  uris := [⟨text "shop.example"⟩]

/-- The message as it is sent. -/
def shopPayload : GoString :=
  text "\x7b\"host\":\"10.0.0.1\",\"port\":8080,\"uris\":[\"shop.example\"]," ++
    text "\"tags\":\x7b\"organization_id\":\"o-1\",\"space_id\":\"s-1\",\"app_id\":\"a-1\"," ++
    text "\"organization_name\":\"org\",\"space_name\":\"dev\",\"app_name\":\"shop\"," ++
    text "\"instance_id\":\"i-1\"\x7d\x7d"

set_option maxRecDepth 2000 in
theorem createMessage_shopPayload : createMessage shopPayload = .ok shopMessage := by
  rfl

/-- An exporter that is asked about the app as well. -/
def shopExporter : ExternalExporter where
  name := text "node"
  host := text "node:9100"
  metricsPath := text "/metrics"

/-- The instance and the exporter cannot be reached, and the instance has no metrics. -/
theorem attributable_iff_sample :
    Attributable shopMessage.makeRoute
        (scrapeError shopMessage.makeRoute (text "connection refused")) ∧
      (∃ route, shopExporter.toRoute [] (exporterTags shopTags) = .ok route ∧
        Attributable route (scrapeError route (text "connection refused"))) ∧
      ∃ err, metric shopMessage.makeRoute (Scraper.respond shopMessage.makeRoute
          (text "/metrics") 404 (text "404 Not Found") (.exposition ∅)) = .error err ∧
        Attributable shopMessage.makeRoute (scrapeError shopMessage.makeRoute err.error) := by
  rcases attributable_iff createMessage_shopPayload with ⟨ofMessage, ofExporter, ofAnswer⟩
  refine ⟨(ofMessage _).mpr (by decide),
    ⟨_, rfl, (ofExporter shopExporter [] _ rfl _).mpr ⟨by decide, by decide⟩⟩, _, rfl, ?_⟩
  have answerValid : AnswerValid shopMessage.makeRoute (text "/metrics") 404
      (text "404 Not Found") := by
    rw [AnswerValid, if_pos (by decide)]
    exact ⟨by decide, by decide⟩
  exact (ofMessage _).mpr ((ofAnswer _ _ _ _ (.exposition ∅) _ (by decide) rfl).mpr answerValid)

/-- A status line with a byte that is no UTF-8 takes all labels from the error. -/
theorem not_attributable_always :
    ¬∀ {data : GoString} {msg : Message}, createMessage data = .ok msg →
      ∀ endpoint statusCode status body err, statusCode ≠ 200 →
        metric msg.makeRoute
            (Scraper.respond msg.makeRoute endpoint statusCode status body) = .error err →
          Attributable msg.makeRoute (scrapeError msg.makeRoute err.error) := by
  intro always
  have attributable := always createMessage_shopPayload (text "/metrics") 500
    (text "500 " ++ [0xFF]) (.exposition ∅) _ (by decide) rfl
  rw [scrapeError_attributable] at attributable
  exact absurd attributable.2 (by decide)

end Promfetcher
