import Promfetcher.Fetchers.RoutesFetcher
import Promfetcher.Models.Lookup

/-!
# Three ways to look an app up

A request can name an app by its id, by the names of its organization, its space and
itself, and by a URI. If the table shows the same instances to all three, the two scans
find each of their addresses once. The lookup by URI returns a list of the table as it
is, with its nil entries and with an address for every identity that is registered
there.
-/

namespace Promfetcher

open Foundation

/-- The addresses of the routes in a list. -/
def addresses (entries : List (Option Route)) : List GoString :=
  (entries.filterMap id).map Route.address

@[simp]
theorem addresses_map_some (routes : List Route) :
    addresses (routes.map some) = routes.map Route.address := by
  simp [addresses]

theorem mem_addresses {entries : List (Option Route)} {address : GoString} :
    address ∈ addresses entries ↔ ∃ route, some route ∈ entries ∧ route.address = address := by
  simp [addresses]

/-- What requests can name an app with. -/
structure AppNames where
  appId : GoString
  org : GoString
  space : GoString
  name : GoString
  uri : Uri

namespace Routes

section

variable [GoRuntime]

/-- The web processes of the app are the entries under its URI, and its id and its names stand for
the same entries. -/
structure ShowsApp (rts : Routes) (app : AppNames) : Prop where
  only : ∀ route, some route ∈ rts.list app.uri.routeKey →
    route.tags.processType = processWeb ∧ route.tags.appID = app.appId
  all : ∀ key route, some route ∈ rts.list key → route.tags.processType = processWeb →
    route.tags.appID = app.appId → (rts.list app.uri.routeKey).any route.equal = true
  named : ∀ key route, some route ∈ rts.list key → route.tags.processType = processWeb →
    (route.tags.appID = app.appId ↔ route.tags.organizationName = app.org ∧
      route.tags.spaceName = app.space ∧ route.tags.appName = app.name)

/-- What the lookups of the app return. -/
inductive Answers (rts : Routes) (app : AppNames) : List (Option Route) → Prop where
  | byId {order : List (Sigma fun _ : Uri => Slice)} (visits : order.Perm rts.table.entries) :
      Answers rts app ((rts.findById order app.appId).map some)
  | byOrgSpaceName {order : List (Sigma fun _ : Uri => Slice)}
      (visits : order.Perm rts.table.entries) :
      Answers rts app ((rts.findByOrgSpaceName order app.org app.space app.name).map some)
  | byRouteName :
      Answers rts app ((rts.findByRouteName app.uri.value).elim [] rts.heap.read)

/-- All lookups of the app return the same addresses, each of them once and no nil. -/
structure LookupsAgree (rts : Routes) (app : AppNames) : Prop where
  nonNil : ∀ entries, rts.Answers app entries → none ∉ entries
  once : ∀ entries, rts.Answers app entries → (addresses entries).Nodup
  same : ∀ first second, rts.Answers app first → rts.Answers app second →
    ∀ address, address ∈ addresses first ↔ address ∈ addresses second

/-- No entry under the key is nil, and no two have the same address. -/
structure Distinct (rts : Routes) (key : Uri) : Prop where
  nonNil : none ∉ rts.list key
  once : (addresses (rts.list key)).Nodup

variable {rts : Routes} {app : AppNames}

theorem findByRouteName_eq_list (rts : Routes) (uri : Uri) :
    (rts.findByRouteName uri.value).elim [] rts.heap.read = rts.list uri.routeKey := by
  rw [list_eq_itemsOf]
  rfl

/-- A scan whose test picks the web processes of the app finds the addresses under its URI. -/
theorem ShowsApp.mem_address_scan (shows : rts.ShowsApp app) {isMatch : Tags → Bool}
    (picks : ∀ key route, some route ∈ rts.list key → route.tags.processType = processWeb →
      (isMatch route.tags = true ↔ route.tags.appID = app.appId))
    {order : List (Sigma fun _ : Uri => Slice)} (visits : order.Perm rts.table.entries)
    (address : GoString) :
    address ∈ (rts.scan order isMatch).map Route.address ↔
      address ∈ addresses (rts.list app.uri.routeKey) := by
  rw [Routes.mem_address_scan, mem_addresses]
  constructor
  · rintro ⟨route, visited, ⟨web, isMatch⟩, rfl⟩
    rcases (mem_visited visits).mp visited with ⟨key, entryMem⟩
    have same := shows.all key route entryMem web ((picks key route entryMem web).mp isMatch)
    rcases List.any_eq_true.mp same with ⟨_ | other, otherMem, equal⟩
    · cases equal
    · rw [Route.equal_some] at equal
      exact ⟨other, otherMem, congrArg Identity.address equal.symm⟩
  · rintro ⟨route, entryMem, rfl⟩
    rcases shows.only route entryMem with ⟨web, appID⟩
    exact ⟨route, (mem_visited visits).mpr ⟨_, entryMem⟩,
      ⟨web, (picks _ route entryMem web).mpr appID⟩, rfl⟩

theorem ShowsApp.mem_addresses_of_answers (shows : rts.ShowsApp app)
    {entries : List (Option Route)} (answers : rts.Answers app entries) (address : GoString) :
    address ∈ addresses entries ↔ address ∈ addresses (rts.list app.uri.routeKey) := by
  cases answers with
  | byId visits =>
      rw [addresses_map_some]
      exact shows.mem_address_scan (by simp) visits address
  | byOrgSpaceName visits =>
      rw [addresses_map_some]
      apply shows.mem_address_scan _ visits
      intro key route entryMem web
      rw [shows.named key route entryMem web]
      simp [and_assoc]
  | byRouteName => rw [findByRouteName_eq_list]

theorem Distinct.of_answers (distinct : rts.Distinct app.uri.routeKey)
    {entries : List (Option Route)} (answers : rts.Answers app entries) :
    none ∉ entries ∧ (addresses entries).Nodup := by
  cases answers with
  | byId => exact ⟨by simp, addresses_map_some _ ▸ nodup_scan⟩
  | byOrgSpaceName => exact ⟨by simp, addresses_map_some _ ▸ nodup_scan⟩
  | byRouteName =>
      rw [findByRouteName_eq_list]
      exact ⟨distinct.nonNil, distinct.once⟩

/-- The lookups of an app agree exactly if the list under its URI has no nil entry and no address
twice. -/
theorem lookupsAgree_iff (shows : rts.ShowsApp app) :
    rts.LookupsAgree app ↔ rts.Distinct app.uri.routeKey := by
  constructor
  · intro agree
    have nonNil := agree.nonNil _ .byRouteName
    have once := agree.once _ .byRouteName
    rw [findByRouteName_eq_list] at nonNil once
    exact ⟨nonNil, once⟩
  · intro distinct
    refine ⟨fun entries answers => (distinct.of_answers answers).1,
      fun entries answers => (distinct.of_answers answers).2, ?_⟩
    intro first second answersFirst answersSecond address
    rw [shows.mem_addresses_of_answers answersFirst,
      shows.mem_addresses_of_answers answersSecond]

/-- All entries of the table are web processes of the app, under its URI. -/
def Alone (rts : Routes) (app : AppNames) : Prop :=
  ∀ entry ∈ rts.table.entries, entry.1 = app.uri.routeKey ∧
    ∀ r ∈ rts.heap.read entry.2, ∀ route ∈ r,
      route.tags.processType = processWeb ∧ route.tags.appID = app.appId ∧
        route.tags.organizationName = app.org ∧ route.tags.spaceName = app.space ∧
          route.tags.appName = app.name

instance (rts : Routes) (app : AppNames) : Decidable (rts.Alone app) := by
  unfold Alone
  infer_instance

theorem showsApp_of_alone (alone : rts.Alone app) : rts.ShowsApp app := by
  have listed (key : Uri) (route : Route) (entryMem : some route ∈ rts.list key) :
      key = app.uri.routeKey ∧ route.tags.processType = processWeb ∧
        route.tags.appID = app.appId ∧ route.tags.organizationName = app.org ∧
          route.tags.spaceName = app.space ∧ route.tags.appName = app.name := by
    cases found : rts.table.lookup key with
    | none => simp [list_of_lookup_none found] at entryMem
    | some routes =>
        rw [list_of_lookup found] at entryMem
        rcases alone ⟨key, routes⟩ (AList.mem_lookup_iff.mp found) with ⟨same, entries⟩
        exact ⟨same, entries _ entryMem route rfl⟩
  constructor
  · intro route entryMem
    rcases listed _ route entryMem with ⟨_, web, appID, _⟩
    exact ⟨web, appID⟩
  · intro key route entryMem _ _
    rcases listed key route entryMem with ⟨rfl, _⟩
    exact List.any_eq_true.mpr ⟨_, entryMem, by simp⟩
  · intro key route entryMem _
    rcases listed key route entryMem with ⟨_, _, appID, names⟩
    simp [appID, names]

end

end Routes

namespace RoutesFetcher

/-- If the table tracks the live registrations, the list of a key is distinct exactly if no two
identities that are live under the key have the same address. -/
theorem distinct_iff_live [GoRuntime] {messages : List RouterMessage} {rts : Routes}
    (tracks : TracksMessages messages rts) (key : Uri) :
    rts.Distinct key ↔ ∀ first second, Live messages key first → Live messages key second →
      first.address = second.address → first = second := by
  rcases Routes.exists_eq_map_some (tracks.no_nil key) with ⟨routes, list⟩
  have counts (identity : Identity) : (routes.map Route.identity).count identity =
      (Routes.identities (rts.list key)).count (some identity) := by
    rw [list, Routes.identities, List.map_map,
      ← List.count_map_of_injective (routes.map Route.identity) some (Option.some_injective _),
      List.map_map]
    rfl
  have nodup : (routes.map Route.identity).Nodup := by
    rw [List.nodup_iff_count_le_one]
    intro identity
    rw [counts]
    by_cases live : Live messages key identity
    · exact (tracks.live_once key identity live).le
    · exact (tracks.only_live key identity live).trans_le zero_le_one
  have mem_iff (identity : Identity) :
      identity ∈ routes.map Route.identity ↔ Live messages key identity := by
    rw [← List.count_pos_iff, counts]
    by_cases live : Live messages key identity
    · simp [live, tracks.live_once key identity live]
    · simp [live, tracks.only_live key identity live]
  have addressesOf : addresses (rts.list key) =
      (routes.map Route.identity).map Identity.address := by
    rw [list, addresses_map_some, List.map_map]
    rfl
  constructor
  · rintro ⟨_, once⟩ first second liveFirst liveSecond same
    rw [addressesOf, List.nodup_map_iff_inj_on nodup] at once
    exact once first ((mem_iff first).mpr liveFirst) second ((mem_iff second).mpr liveSecond) same
  · intro apart
    refine ⟨tracks.no_nil key, ?_⟩
    rw [addressesOf, List.nodup_map_iff_inj_on nodup]
    intro first firstMem second secondMem
    exact apart first second ((mem_iff first).mp firstMem) ((mem_iff second).mp secondMem)

end RoutesFetcher

/-- The registration of an instance of the app `shop`. -/
def instancePayload (host instanceId : String) : GoString :=
  text "\x7b\"host\":\"" ++ text host ++ text "\",\"port\":80,\"uris\":[\"a.com\"]," ++
    text "\"tags\":\x7b\"app_id\":\"i\"," ++
      text "\"organization_name\":\"o\",\"space_name\":\"s\",\"app_name\":\"n\"," ++
        text "\"process_type\":\"web\",\"instance_id\":\"" ++ text instanceId ++
          text "\"\x7d\x7d"

/-- How the app is asked for. -/
def shop : AppNames where
  appId := text "i"
  org := text "o"
  space := text "s"
  name := text "n"
  uri := ⟨text "a.com"⟩

section

local instance asciiModes : GoRuntime := GoRuntime.ascii

/-- The table after these instances, given by host and id, have been registered in this order. -/
def shopTable (instances : List (String × String)) : Except Panic Routes :=
  RoutesFetcher.handleAll Routes.empty <| instances.map fun registered =>
    (text "router.register", instancePayload registered.1 registered.2)

/-- Two instances at two addresses. -/
theorem lookupsAgree_iff_sample :
    ∃ rts, shopTable [("g", "1"), ("h", "2")] = .ok rts ∧
      addresses (rts.list shop.uri.routeKey) = [text "g:80", text "h:80"] ∧
        rts.ShowsApp shop ∧ rts.LookupsAgree shop := by
  have shown : (shopTable [("g", "1"), ("h", "2")]).map (fun rts => decide (rts.Alone shop) &&
      (decide (none ∉ rts.list shop.uri.routeKey) &&
        decide (addresses (rts.list shop.uri.routeKey) = [text "g:80", text "h:80"]))) =
          .ok true := by
    decide +kernel
  cases handled : shopTable [("g", "1"), ("h", "2")] with
  | error panic =>
      rw [handled] at shown
      cases shown
  | ok rts =>
      rw [handled, Except.map, Except.ok.injEq, Bool.and_eq_true_iff, Bool.and_eq_true_iff,
        decide_eq_true_eq, decide_eq_true_eq, decide_eq_true_eq] at shown
      rcases shown with ⟨alone, nonNil, both⟩
      have shows := Routes.showsApp_of_alone alone
      have once : (addresses (rts.list shop.uri.routeKey)).Nodup := by
        rw [both]
        decide
      exact ⟨rts, rfl, both, shows, (Routes.lookupsAgree_iff shows).mpr ⟨nonNil, once⟩⟩

/-- An instance that registers again with another id is returned twice for its URI. -/
theorem not_lookupsAgree_always :
    ¬∀ (rts : {rts // RoutesFetcher.callbackSystem.Reachable rts}) (app : AppNames),
      rts.val.ShowsApp app → rts.val.LookupsAgree app := by
  intro agree
  have twice : (shopTable [("h", "1"), ("h", "2")]).map (fun rts =>
      decide (rts.Alone shop) && decide ¬(addresses (rts.list shop.uri.routeKey)).Nodup) =
        .ok true := by
    decide +kernel
  cases handled : shopTable [("h", "1"), ("h", "2")] with
  | error panic =>
      rw [handled] at twice
      cases twice
  | ok rts =>
      rw [handled, Except.map, Except.ok.injEq, Bool.and_eq_true_iff, decide_eq_true_eq,
        decide_eq_true_eq] at twice
      rcases twice with ⟨alone, repeated⟩
      have reached := RoutesFetcher.reachable_of_handleAll (.initial rfl) handled
      have shopAgrees := agree ⟨rts, reached⟩ shop (Routes.showsApp_of_alone alone)
      have once := shopAgrees.once _ .byRouteName
      rw [Routes.findByRouteName_eq_list] at once
      exact repeated once

end

end Promfetcher
