import Promfetcher.Api.Broker
import Promfetcher.Foundation.Transition
import Promfetcher.Foundation.Url
import Promfetcher.Scrapers.Scrape

/-!
# The host that is scraped

`Scrape` concatenates the scheme, the address of the route and a path to the URL it
requests. The path of an app comes from the `metric_path` parameter of the caller or
from a binding. The handler of `api/metrics.go` and `Bind` both see to it that it
starts with a slash, so that the authority of the URL ends where the address does.
-/

namespace Promfetcher

open Foundation

/-- `metricPathDefault` in `Api.metrics`, from the value of `metric_path` in the query. -/
def metricPathDefault (metricPath : GoString) : GoString :=
  let metricPathDefault := trimSpace metricPath
  let metricPathDefault := if metricPathDefault = [] then text "/metrics" else metricPathDefault
  if metricPathDefault.head? ≠ some slash then slash :: metricPathDefault else metricPathDefault

theorem head?_metricPathDefault (metricPath : GoString) :
    (metricPathDefault metricPath).head? = some slash := by
  have slashed (path : GoString) :
      (if path.head? ≠ some slash then slash :: path else path).head? = some slash := by
    by_cases rooted : path.head? = some slash <;> simp [rooted]
  exact slashed _

/-! ## The rows of the broker -/

/-- The table of endpoints under `Bind` and `Unbind`, of which any statements can fail. -/
def endpointSystem : System Store (Faults × BrokerRequest) :=
  .ofFunction Table.empty fun store label => (label.2.serve label.1 (some store)).1

/-- Every path in the table starts with a slash. -/
def Rooted (store : Store) : Prop :=
  ∀ row ∈ store, row.endpoint.head? = some slash

theorem Rooted.bind {store after : Store} (rooted : Rooted store) {faults : Faults}
    {details : BindDetails} (served : (Broker.bind (some store) faults details).1 = some after) :
    Rooted after := by
  have cleared : Rooted (details.cleared faults store) :=
    fun row rowMem => rooted row (BindDetails.mem_cleared.mp rowMem).1
  cases accepted : details.accepted with
  | none =>
      rcases Broker.bind_of_rejected accepted (some store) faults with ⟨err, refused⟩
      rw [refused] at served
      cases served
      exact rooted
  | some params =>
      have isPath := (BindDetails.loaded_of_accepted accepted).2
      rw [Broker.bind_of_accepted accepted] at served
      split at served
      · cases served
        exact cleared
      · next some_endpoint =>
          split at served
          · cases served
            exact cleared
          · next created =>
              cases served
              intro row rowMem
              rcases (Store.mem_create created).mp rowMem with rfl | old
              · exact not_not.mp fun other => isPath ⟨some_endpoint, other⟩
              · exact cleared row old

theorem Rooted.unbind {store after : Store} (rooted : Rooted store) {faults : Faults}
    {bindingID : GoString}
    (served : (Broker.unbind (some store) faults bindingID).1 = some after) : Rooted after := by
  cases served
  exact fun row rowMem => rooted row (Store.mem_delete.mp rowMem).1

theorem rooted_of_reachable {store : Store} (reached : endpointSystem.Reachable store) :
    Rooted store := by
  apply reached.invariant
  · rintro _ rfl row rowMem
    exact absurd rowMem (Table.not_mem_empty row)
  · rintro before ⟨faults, request⟩ after rooted served
    cases request with
    | bind details => exact rooted.bind served
    | unbind bindingID => exact rooted.unbind served

/-! ## The URL of a scrape -/

namespace Scraper

theorem plainScheme_scheme (route : Route) : Url.PlainScheme (scheme route) := by
  have small (word : GoString) (all : (word.all fun byte => 0x61 ≤ byte && byte ≤ 0x7A) = true) :
      ∀ byte ∈ word, 0x61 ≤ byte ∧ byte ≤ 0x7A := by
    simpa using all
  unfold scheme
  split
  · exact ⟨by decide, small _ (by decide)⟩
  · exact ⟨by decide, small _ (by decide)⟩

theorem scheme_eq_https_iff (route : Route) : scheme route = text "https" ↔ route.tls = true := by
  unfold scheme
  cases route.tls <;> decide

/-- The path of an app starts with a slash, wherever it comes from. -/
theorem head?_endpoint {store : Store} (rooted : Rooted store) (faults : Faults) {route : Route}
    (appRoute : route.metricsPath = []) {pathDefault : GoString}
    (rootedDefault : pathDefault.head? = some slash) :
    (endpoint (some store) faults route pathDefault).head? = some slash := by
  rw [endpoint, if_neg (not_not.mpr appRoute), Option.bind_some]
  cases found : Store.first faults (fun row => row.appGUID == route.tags.appID) store with
  | none => exact rootedDefault
  | some row =>
      dsimp only
      split
      · refine rooted row ?_
        unfold Store.first at found
        split at found
        · cases found
        · exact (Table.first_mem found).1
      · exact rootedDefault

/-- A body that starts with an address and a slash has the address for its authority. -/
theorem splitAuthority_body {address path : GoString}
    (plain : ∀ byte ∈ address, byte ≠ slash ∧ byte ≠ questionMark ∧ byte ≠ hashSign)
    (rooted : path.head? = some slash) :
    (Url.splitAuthority (Url.beforeQuery (address ++ path))).1 = address := by
  have absent (byte : UInt8)
      (separates : byte = slash ∨ byte = questionMark ∨ byte = hashSign) : byte ∉ address := by
    intro inAddress
    have other := plain byte inAddress
    rcases separates with rfl | rfl | rfl
    · exact other.1 rfl
    · exact other.2.1 rfl
    · exact other.2.2 rfl
  have keeps (separator : UInt8) (other : slash ≠ separator) {path : GoString}
      (rooted : path.head? = some slash) :
      (Url.cutOff separator path).1.head? = some slash := by
    rcases path with _ | ⟨first, rest⟩
    · cases rooted
    · cases rooted
      rw [← List.singleton_append, Url.cutOff_append (by simpa using Ne.symm other)]
      rfl
  rw [Url.beforeQuery, Url.beforeFragment, Url.cutOff_append (absent _ (by simp)),
    Url.cutOff_append (absent _ (by simp)), Url.splitAuthority_append (absent _ (by simp))]
  exact Or.inr (keeps _ (by decide) (keeps _ (by decide) rooted))

section

variable [NetRules]

/-- What `http.NewRequest` makes of the URL of a scrape: the scheme that the route asks for, and
the address of the route as the whole authority. -/
structure StaysOn (route : Route) (raw : GoString) (url : Url) : Prop where
  scheme : url.scheme = text "https" ↔ route.tls = true
  schemes : url.scheme = text "http" ∨ url.scheme = text "https"
  authority : ∃ parts, Url.split raw = some parts ∧ Url.ofParts parts = some url ∧
    parts.authority = some route.address
  user : url.user = none

theorem staysOn_of_split {route : Route} {raw : GoString} {url : Url} {parts : UrlParts}
    (noUser : atSign ∉ route.address) (isSplit : Url.split raw = some parts)
    (ofParts : Url.ofParts parts = some url) (schemes : parts.scheme = scheme route)
    (authority : parts.authority = some route.address) : StaysOn route raw url := by
  have decoded := ofParts
  simp only [Url.ofParts, authority, Url.parseAuthority, cutLast_eq_none_iff.mpr noUser,
    Option.bind_eq_bind, Option.bind_eq_some_iff, Option.map_eq_some_iff, Option.pure_def,
    Option.some.injEq] at decoded
  rcases decoded with ⟨_, ⟨host, _, rfl⟩, path, _, fragment, _, rfl⟩
  refine ⟨?_, ?_, ⟨parts, isSplit, ofParts, authority⟩, rfl⟩
  · rw [← scheme_eq_https_iff, ← schemes]
  · rw [schemes, scheme]
    cases route.tls <;> simp

/-- Whatever path the caller asks for and whatever has been bound, a scrape of an app goes to the
address of its route. -/
theorem scrape_staysOn (metricPath : GoString) (store : {store // endpointSystem.Reachable store})
    (faults : Faults) {route : Route} (appRoute : route.metricsPath = [])
    (plain : ∀ byte ∈ route.address,
      byte ≠ slash ∧ byte ≠ questionMark ∧ byte ≠ hashSign ∧ byte ≠ atSign)
    (headers : Header) (outboundIP : GoString) {url : Url}
    (accepted : Url.parse (request (some store.val) faults route (metricPathDefault metricPath)
      headers outboundIP).url = some url) :
    StaysOn route (request (some store.val) faults route (metricPathDefault metricPath) headers
      outboundIP).url url := by
  rcases Option.bind_eq_some_iff.mp accepted with ⟨parts, isSplit, ofParts⟩
  have rooted := head?_endpoint (rooted_of_reachable store.property) faults appRoute
    (head?_metricPathDefault metricPath)
  have authority := splitAuthority_body
    (fun byte byteMem => ⟨(plain byte byteMem).1, (plain byte byteMem).2.1,
      (plain byte byteMem).2.2.1⟩) rooted
  have cuts := Url.split_of_plain (plainScheme_scheme route)
    (route.address ++ endpoint (some store.val) faults route (metricPathDefault metricPath))
  rw [← List.append_assoc] at cuts
  have isCut := cuts.symm.trans isSplit
  split at isCut
  · cases isCut
  · cases isCut
    exact staysOn_of_split (fun inAddress => (plain _ inAddress).2.2.2 rfl) isSplit ofParts rfl
      (congrArg some authority)

end

section

local instance noLiterals : NetRules := NetRules.noLiterals

/-- An instance that speaks TLS. -/
def tlsInstance : Route where
  address := text "10.0.0.1:8443"
  tls := true

/-- A caller who tries to make the address a user name. -/
theorem scrape_staysOn_sample : ∃ url,
    Url.parse (text "https://10.0.0.1:8443/@example.org:443/?a#b") = some url ∧
      StaysOn tlsInstance (text "https://10.0.0.1:8443/@example.org:443/?a#b") url := by
  have accepted : Url.parse (request (some Table.empty) {} tlsInstance
      (metricPathDefault (text " @example.org:443/?a#b\t")) ∅ []).url =
        some
          { scheme := text "https"
            host := text "10.0.0.1:8443"
            path := text "/@example.org:443/"
            rawQuery := text "a"
            fragment := text "b" } := by
    decide
  have plain : (tlsInstance.address.all fun byte =>
      byte != slash && byte != questionMark && byte != hashSign && byte != atSign) = true := by
    decide
  refine ⟨_, accepted, scrape_staysOn (text " @example.org:443/?a#b\t")
    ⟨Table.empty, .initial rfl⟩ {} rfl ?_ ∅ [] accepted⟩
  simpa [and_assoc] using plain

end

end Scraper

end Promfetcher
