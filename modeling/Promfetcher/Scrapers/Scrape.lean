import Promfetcher.Models.AppEndpoint
import Promfetcher.Models.Route

/-!
# The request of a scrape

The request that `Scrape` builds in `scrapers/scrape.go`. Its URL is kept as the
text that is given to `http.NewRequest`, and the parameters of the route, which
replace those of the query, are kept beside it.
-/

namespace Promfetcher

open Foundation

/-- HTTP headers. A nil map is read like an empty one. -/
abbrev Header := AList fun _ : GoString => List GoString

namespace Header

/-- `Header.Set`, for a key in canonical form. -/
def set (header : Header) (key value : GoString) : Header :=
  header.insert key [value]

/-- `Header.Add`, for a key in canonical form. -/
def add (header : Header) (key value : GoString) : Header :=
  header.insert key ((header.lookup key).getD [] ++ [value])

end Header

/-- The request of a scrape. -/
structure ScrapeRequest where
  url : GoString
  header : Header
  host : GoString
  urlParams : AList fun _ : GoString => List GoString

namespace Scraper

/-- The scheme under which a route is scraped. -/
def scheme (route : Route) : GoString :=
  if route.tls then text "https" else text "http"

/-- The path to request: that of the route, that of the app's binding, or the default. -/
def endpoint (db : Option Store) (faults : Faults) (route : Route)
    (metricPathDefault : GoString) : GoString :=
  if route.metricsPath ≠ [] then route.metricsPath
  else
    match db.bind (Store.first faults fun row => row.appGUID == route.tags.appID) with
    | none => metricPathDefault
    | some appEndpoint =>
        if appEndpoint.guid ≠ [] then appEndpoint.endpoint else metricPathDefault

/-- The headers that `Scrape` adds to those it has been given. -/
def header (route : Route) (headers : Header) (outboundIP : GoString) : Header :=
  let header := headers
    |>.add (text "Accept-Encoding") (text "gzip")
    |>.set (text "X-Prometheus-Scrape-Timeout-Seconds") (text "30.000000")
    |>.set (text "X-Forwarded-Proto") (scheme route)
    |>.set (text "X-Promfetcher-Scrapping") (text "true")
  header.set (text "X-Forwarded-For") outboundIP

/-- The request that `Scrape` builds. -/
def request (db : Option Store) (faults : Faults) (route : Route)
    (metricPathDefault : GoString) (headers : Header) (outboundIP : GoString) : ScrapeRequest where
  url := scheme route ++ text "://" ++ route.address ++
    endpoint db faults route metricPathDefault
  header := header route headers outboundIP
  host := route.host
  urlParams := route.urlParams

theorem endpoint_of_mem {store : Store} {route : Route} {row : AppEndpoint}
    {faults : Faults} (reads : faults.first = false) (appRoute : route.metricsPath = [])
    (rowMem : row ∈ store) (ofApp : row.appGUID = route.tags.appID) (guid : row.guid ≠ [])
    (only : ∀ other ∈ store, other.appGUID = route.tags.appID → other = row)
    (metricPathDefault : GoString) :
    endpoint (some store) faults route metricPathDefault = row.endpoint := by
  have found :
      Store.first faults (fun row => row.appGUID == route.tags.appID) store = some row := by
    rw [Store.first, if_neg (by simp [reads])]
    cases first : Table.first (fun guid other => decide (guid < other))
        (fun row => row.appGUID == route.tags.appID) store with
    | none => simpa [ofApp] using Table.first_eq_none_iff.mp first row rowMem
    | some other =>
        rcases Table.first_mem first with ⟨otherMem, otherApp⟩
        rw [only other otherMem (by simpa using otherApp)]
  rw [endpoint, if_neg (not_not.mpr appRoute), Option.bind_some, found]
  exact if_pos guid

theorem endpoint_of_not_mem {store : Store} {route : Route} (faults : Faults)
    (appRoute : route.metricsPath = [])
    (none : ∀ row ∈ store, row.appGUID ≠ route.tags.appID) (metricPathDefault : GoString) :
    endpoint (some store) faults route metricPathDefault = metricPathDefault := by
  have missing : Store.first faults (fun row => row.appGUID == route.tags.appID) store =
      Option.none := by
    unfold Store.first
    split
    · rfl
    · apply Table.first_eq_none_iff.mpr
      intro row rowMem
      simpa using none row rowMem
  rw [endpoint, if_neg (not_not.mpr appRoute), Option.bind_some, missing]

end Scraper

end Promfetcher
