import Promfetcher.Fetchers.RoutesFetcher
import Promfetcher.Models.Find

/-!
# What a registration leaves in the table

`registerRoute` registers one route under every URI of a message. Two keys can share
an array, so that a registration under one URI can write into the list under another;
but it writes nothing but the route itself.

The entry found under a URI afterwards is the message's endpoint, by its identity. It
carries the other fields of the message only if `NeedUpdate` has looked at a field
that differs; `TLS` and `Tags.ProcessType` are in neither field list. And `Find` gets
to the entry only if the text of the URI does not read as names or as a UUID.
-/

namespace Promfetcher

open Foundation

namespace Routes

/-! ## One call -/

theorem overwritten_insert {rts : Routes} {heap : Heap (Option Route)} {entry : Option Route}
    {routekey : Uri} {routes : Slice}
    (others : ∀ key slice, rts.table.lookup key = some slice →
      Overwritten entry (rts.heap.read slice) (heap.read slice))
    (self : Overwritten entry (rts.list routekey) (heap.read routes)) (key : Uri) :
    Overwritten entry (rts.list key)
      ((⟨heap, rts.table.insert routekey routes⟩ : Routes).list key) := by
  by_cases same : key = routekey
  · subst same
    simpa [list] using self
  · cases found : rts.table.lookup key with
    | none =>
        simp only [list, AList.lookup_insert_ne same, found]
        exact .refl
    | some slice =>
        simp only [list, AList.lookup_insert_ne same, found]
        exact others key slice found

section

variable [GoRuntime] {rts after : Routes} {uri : Uri} {route : Route}

/-- Under its own key, a registration does to the list what it should. -/
theorem list_registerRoute (wellFormed : rts.WellFormed)
    (registers : rts.registerRoute uri (some route) = .ok after) :
    after.list uri.routeKey = registerEntries route (rts.list uri.routeKey) := by
  cases registers_of_registerRoute wellFormed registers with
  | first absent =>
      rw [list_of_lookup_none absent]
      simp [registeredFirst, list, registerEntries, updatePosition,
        Heap.read_append (Heap.backs_make rts.heap)]
  | replaced found position =>
      rw [list_of_lookup found, registerEntries, position]
      simp [list, found, Heap.read_write]
  | kept found position seen =>
      rw [list_of_lookup found, registerEntries, position]
      exact (if_pos seen).symm
  | appended found position unseen =>
      rw [list_of_lookup found, registerEntries, position]
      simp [list, unseen, Heap.read_append (wellFormed _ _ found)]

/-- Under every key, it writes nothing but the route. -/
theorem overwritten_registerRoute (wellFormed : rts.WellFormed)
    (registers : rts.registerRoute uri (some route) = .ok after) (key : Uri) :
    Overwritten (some route) (rts.list key) (after.list key) := by
  cases registers_of_registerRoute wellFormed registers with
  | first absent =>
      apply overwritten_insert
      · intro other slice lookup
        have backs := wellFormed other slice lookup
        rw [← Heap.read_make_of_backs backs]
        exact Heap.overwritten_append backs.make_of_backs _ _
      · rw [list_of_lookup_none absent, Heap.read_append (Heap.backs_make rts.heap),
          Heap.read_make]
        exact .append .refl
  | replaced found position =>
      cases lookup : rts.table.lookup key with
      | none =>
          simp only [list, lookup]
          exact .refl
      | some slice =>
          simp only [list, lookup]
          exact Heap.overwritten_write _ _ _ _
  | kept => exact .refl
  | appended found position unseen =>
      apply overwritten_insert
      · intro other slice lookup
        exact Heap.overwritten_append (wellFormed other slice lookup) _ _
      · rw [list_of_lookup found, Heap.read_append (wellFormed _ _ found)]
        exact .append .refl

end

/-! ## What one call does to equal entries -/

/-- `NeedUpdate` makes a registration of the route replace this entry. -/
def stale (route : Route) (entry : Option Route) : Bool :=
  route.equal entry && route.needUpdate entry

@[simp]
theorem stale_self (route : Route) : stale route (some route) = false := by
  simp [stale, Route.needUpdate]

theorem stale_of_updatePosition {route : Route} {entries : List (Option Route)} {idx : Nat}
    (position : updatePosition route entries = some idx) :
    ∃ inRange : idx < entries.length, stale route entries[idx] = true := by
  rcases List.findIdx?_eq_some_iff_getElem.mp position with ⟨inRange, isStale, _⟩
  exact ⟨inRange, isStale⟩

theorem any_equal_registerEntries (route : Route) (entries : List (Option Route)) :
    (registerEntries route entries).any route.equal = true := by
  rw [any_equal_iff, identities_registerEntries]
  split
  · assumption
  · exact List.mem_append_right _ List.mem_cons_self

theorem countP_stale_registerEntries (route : Route) (entries : List (Option Route)) :
    (registerEntries route entries).countP (stale route) = entries.countP (stale route) - 1 := by
  unfold registerEntries
  cases position : updatePosition route entries with
  | some idx =>
      rcases stale_of_updatePosition position with ⟨inRange, isStale⟩
      simp only [List.countP_set inRange, isStale, stale_self, if_true, Bool.false_eq_true,
        if_false, Nat.add_zero]
  | none =>
      have fresh : entries.countP (stale route) = 0 := by
        apply List.countP_eq_zero.mpr
        intro entry entryMem
        simpa [stale] using List.findIdx?_eq_none_iff.mp position entry entryMem
      dsimp only
      split
      · rw [fresh]
      · simp [fresh]

theorem mem_registerEntries_of_not_stale {route : Route} {entries : List (Option Route)}
    {entry : Option Route} (entryMem : entry ∈ entries) (fresh : stale route entry = false) :
    entry ∈ registerEntries route entries := by
  unfold registerEntries
  cases position : updatePosition route entries with
  | some idx =>
      rcases stale_of_updatePosition position with ⟨inRange, isStale⟩
      rcases List.mem_iff_getElem.mp entryMem with ⟨other, otherRange, rfl⟩
      have apart : idx ≠ other := by
        rintro rfl
        rw [isStale] at fresh
        cases fresh
      refine List.mem_iff_getElem.mpr ⟨other, by simpa using otherRange, ?_⟩
      exact List.getElem_set_of_ne apart _ _
  | none =>
      dsimp only
      split
      · exact entryMem
      · exact List.mem_append_left _ entryMem

/-- If no two keys share an array, a registration changes the list under its key only. -/
theorem separate_registerRoute [GoRuntime] {rts after : Routes} {uri : Uri} {route : Route}
    (wellFormed : rts.WellFormed) (separate : rts.Separate)
    (registers : rts.registerRoute uri (some route) = .ok after) :
    after.Separate ∧ ∀ key, key ≠ uri.routeKey → after.list key = rts.list key := by
  rw [registerRoute_eq wellFormed, Except.ok.injEq] at registers
  subst registers
  cases found : rts.table.lookup uri.routeKey with
  | none =>
      refine ⟨separate.registeredFirst wellFormed _ route, fun key other => ?_⟩
      rw [list_registeredFirst wellFormed found, if_neg other]
  | some routes =>
      refine ⟨separate.registered wellFormed found route, fun key other => ?_⟩
      rw [list_registered wellFormed separate found, if_neg other]

/-! ## The calls of one message -/

/-- The number of the URIs that have this key. -/
def callsFor [GoRuntime] (key : Uri) (uris : List Uri) : Nat :=
  uris.countP fun uri => uri.routeKey == key

/-- What the calls of one message leave, whatever lists share their arrays. -/
structure Leaves [GoRuntime] (route : Route) (uris : List Uri) (rts after : Routes) : Prop where
  wellFormed : after.WellFormed
  overwritten : ∀ key, Overwritten (some route) (rts.list key) (after.list key)
  present : ∀ uri ∈ uris, (after.list uri.routeKey).any route.equal = true
  fewerStale : ∀ key, (after.list key).countP (stale route) ≤
    (rts.list key).countP (stale route) - callsFor key uris

section

variable [GoRuntime]

theorem exists_leaves (route : Route) (uris : List Uri) {rts : Routes}
    (wellFormed : rts.WellFormed) :
    ∃ after, uris.foldlM (fun rts uri => rts.registerRoute uri (some route)) rts = .ok after ∧
      Leaves route uris rts after := by
  induction uris generalizing rts with
  | nil => exact ⟨rts, rfl, wellFormed, fun _ => .refl, by simp, by simp [callsFor]⟩
  | cons uri uris inductionHypothesis =>
      rcases registerRoute_wellFormed wellFormed uri route with ⟨next, registers, nextWellFormed⟩
      rcases inductionHypothesis nextWellFormed with ⟨after, folded, leaves⟩
      have self := list_registerRoute wellFormed registers
      have overwritten := overwritten_registerRoute wellFormed registers
      refine ⟨after, ?_, leaves.wellFormed,
        fun key => (overwritten key).trans (leaves.overwritten key), ?_,
          fun key => (leaves.fewerStale key).trans ?_⟩
      · rw [List.foldlM_cons, registers]
        exact folded
      · intro other otherMem
        rcases List.mem_cons.mp otherMem with rfl | inTail
        · apply (leaves.overwritten other.routeKey).any_of_any
          · simp
          · rw [self]
            exact any_equal_registerEntries route _
        · exact leaves.present other inTail
      · simp only [callsFor, List.countP_cons]
        by_cases here : uri.routeKey = key
        · subst here
          rw [self, countP_stale_registerEntries]
          simp only [beq_self_eq_true, if_true]
          omega
        · have fewer := (overwritten key).countP_le (stale_self route)
          simp only [beq_iff_eq, here, if_false]
          omega

/-- If no two keys share an array, the calls for a key act on its list one after another. -/
theorem list_of_separate {route : Route} {uris : List Uri} {rts after : Routes}
    (wellFormed : rts.WellFormed) (separate : rts.Separate)
    (folded : uris.foldlM (fun rts uri => rts.registerRoute uri (some route)) rts = .ok after)
    (key : Uri) :
    after.list key = (registerEntries route)^[callsFor key uris] (rts.list key) := by
  induction uris generalizing rts with
  | nil =>
      cases folded
      rfl
  | cons uri uris inductionHypothesis =>
      rcases registerRoute_wellFormed wellFormed uri route with ⟨next, registers, nextWellFormed⟩
      rcases separate_registerRoute wellFormed separate registers with ⟨nextSeparate, others⟩
      rw [List.foldlM_cons, registers] at folded
      rw [inductionHypothesis nextWellFormed nextSeparate folded, callsFor, callsFor,
        List.countP_cons]
      by_cases here : uri.routeKey = key
      · subst here
        rw [list_registerRoute wellFormed registers]
        simp
      · rw [others key (Ne.symm here)]
        simp [here]

end

theorem countP_stale_iterate (route : Route) (calls : Nat) (entries : List (Option Route)) :
    ((registerEntries route)^[calls] entries).countP (stale route) =
      entries.countP (stale route) - calls := by
  induction calls with
  | zero => rfl
  | succ calls inductionHypothesis =>
      rw [Function.iterate_succ_apply', countP_stale_registerEntries, inductionHypothesis]
      omega

theorem mem_iterate_of_not_stale {route : Route} {entries : List (Option Route)}
    {entry : Option Route} (entryMem : entry ∈ entries) (fresh : stale route entry = false)
    (calls : Nat) : entry ∈ (registerEntries route)^[calls] entries := by
  induction calls with
  | zero => exact entryMem
  | succ calls inductionHypothesis =>
      rw [Function.iterate_succ_apply']
      exact mem_registerEntries_of_not_stale inductionHypothesis fresh

end Routes

namespace RoutesFetcher

/-! ## The fields of the entry -/

/-- The fields that lookups and scrapes read are those of the message's route. -/
structure Agrees (route other : Route) : Prop where
  tls : other.tls = route.tls
  address : other.address = route.address
  host : other.host = route.host
  serverCertDomainSan : other.serverCertDomainSan = route.serverCertDomainSan
  processType : other.tags.processType = route.tags.processType
  instanceID : other.tags.instanceID = route.tags.instanceID
  appID : other.tags.appID = route.tags.appID
  appName : other.tags.appName = route.tags.appName
  organizationID : other.tags.organizationID = route.tags.organizationID
  organizationName : other.tags.organizationName = route.tags.organizationName
  spaceID : other.tags.spaceID = route.tags.spaceID
  spaceName : other.tags.spaceName = route.tags.spaceName

theorem agrees_iff {route other : Route} (equal : route.equal (some other) = true) :
    Agrees route other ↔ route.needUpdate (some other) = false ∧ other.tls = route.tls ∧
      other.tags.processType = route.tags.processType := by
  rw [Route.equal_some, Route.identity, Route.identity, Identity.mk.injEq] at equal
  rcases equal with ⟨_, serverCertDomainSan, address, host, instanceID, _⟩
  simp only [Route.needUpdate, Bool.or_eq_false_iff, bne_eq_false_iff_eq]
  constructor
  · intro agrees
    exact ⟨by simp [agrees.appID, agrees.appName, agrees.organizationID, agrees.organizationName,
      agrees.spaceID, agrees.spaceName], agrees.tls, agrees.processType⟩
  · rintro ⟨⟨⟨⟨⟨⟨appID, appName⟩, organizationID⟩, organizationName⟩, spaceID⟩, spaceName⟩, tls,
      processType⟩
    exact ⟨tls, address.symm, host.symm, serverCertDomainSan.symm, processType, instanceID.symm,
      appID.symm, appName.symm, organizationID.symm, organizationName.symm, spaceID.symm,
      spaceName.symm⟩

section

variable [GoRuntime]

/-- After the message, an entry under the URI is equal to its route, and every such entry agrees
with it. -/
def Replaces (rts : Routes) (msg : Message) (uri : Uri) : Prop :=
  ∃ after, registerRoute rts msg = .ok after ∧
    (after.list uri.routeKey).any msg.makeRoute.equal = true ∧
    ∀ other, some other ∈ after.list uri.routeKey → msg.makeRoute.equal (some other) = true →
      Agrees msg.makeRoute other

/-- No equal entry under the URI differs from the route of the message in `TLS` or
`Tags.ProcessType` alone, and there are not more stale ones than URIs of the message with this
key. -/
structure Refreshable (rts : Routes) (msg : Message) (uri : Uri) : Prop where
  compared : ∀ other, some other ∈ rts.list uri.routeKey →
    msg.makeRoute.equal (some other) = true → msg.makeRoute.needUpdate (some other) = false →
      other.tls = msg.makeRoute.tls ∧ other.tags.processType = msg.makeRoute.tags.processType
  fewStale : (rts.list uri.routeKey).countP (Routes.stale msg.makeRoute) ≤
    Routes.callsFor uri.routeKey msg.uris

theorem registerRoute_of_named {msg : Message} (named : msg.tags.appID ≠ []) (rts : Routes) :
    registerRoute rts msg =
      msg.uris.foldlM (fun rts uri => rts.registerRoute uri (some msg.makeRoute)) rts :=
  if_neg named

theorem exists_leaves {msg : Message} (named : msg.tags.appID ≠ []) {rts : Routes}
    (wellFormed : rts.WellFormed) :
    ∃ after, registerRoute rts msg = .ok after ∧
      Routes.Leaves msg.makeRoute msg.uris rts after := by
  rw [registerRoute_of_named named]
  exact Routes.exists_leaves msg.makeRoute msg.uris wellFormed

theorem replaces_of_refreshable {rts : Routes} (wellFormed : rts.WellFormed) {msg : Message}
    (named : msg.tags.appID ≠ []) {uri : Uri} (uriMem : uri ∈ msg.uris)
    (refreshable : Refreshable rts msg uri) : Replaces rts msg uri := by
  rcases exists_leaves named wellFormed with ⟨after, registers, leaves⟩
  refine ⟨after, registers, leaves.present uri uriMem, fun other otherMem equal => ?_⟩
  have none : (after.list uri.routeKey).countP (Routes.stale msg.makeRoute) = 0 := by
    have fewer := leaves.fewerStale uri.routeKey
    have := refreshable.fewStale
    omega
  have fresh : msg.makeRoute.needUpdate (some other) = false := by
    simpa [Routes.stale, equal] using List.countP_eq_zero.mp none (some other) otherMem
  rw [agrees_iff equal]
  refine ⟨fresh, ?_⟩
  rcases (leaves.overwritten uri.routeKey).mem otherMem with isRoute | old
  · cases isRoute
    exact ⟨rfl, rfl⟩
  · exact refreshable.compared other old equal fresh

theorem refreshable_of_replaces {rts : Routes} (wellFormed : rts.WellFormed)
    (separate : rts.Separate) {msg : Message} (named : msg.tags.appID ≠ []) {uri : Uri}
    (replaces : Replaces rts msg uri) : Refreshable rts msg uri := by
  rcases replaces with ⟨after, registers, _, agrees⟩
  rw [registerRoute_of_named named] at registers
  have lists := Routes.list_of_separate wellFormed separate registers uri.routeKey
  constructor
  · intro other otherMem equal fresh
    have kept : some other ∈ after.list uri.routeKey := by
      rw [lists]
      apply Routes.mem_iterate_of_not_stale otherMem
      rw [Routes.stale, equal, fresh]
      rfl
    exact ((agrees_iff equal).mp (agrees other kept equal)).2
  · have none : (after.list uri.routeKey).countP (Routes.stale msg.makeRoute) = 0 := by
      apply List.countP_eq_zero.mpr
      rintro (_ | other) entryMem isStale
      · simp [Routes.stale] at isStale
      · rcases Bool.and_eq_true_iff.mp isStale with ⟨equal, stale⟩
        rw [((agrees_iff equal).mp (agrees other entryMem equal)).1] at stale
        cases stale
    rw [lists, Routes.countP_stale_iterate] at none
    omega

/-- A message replaces the entry under its URI if the change is one that `NeedUpdate` looks for.
If no two keys share an array, there is no other case. -/
theorem replaces_iff (rts : {rts : Routes // rts.WellFormed}) {msg : Message}
    (named : msg.tags.appID ≠ []) {uri : Uri} (uriMem : uri ∈ msg.uris) :
    (Refreshable rts.val msg uri → Replaces rts.val msg uri) ∧
      (rts.val.Separate → Replaces rts.val msg uri → Refreshable rts.val msg uri) :=
  ⟨replaces_of_refreshable rts.property named uriMem,
    fun separate => refreshable_of_replaces rts.property separate named⟩

end

/-- An instance of an app that listens on one port. -/
def plainMessage : Message where
  host := text "10.0.0.1"
  port := 8080
  tags := { appID := text "app", processType := processWeb }
  uris := [⟨text "a.com"⟩]

/-- The same instance, whose port now speaks TLS. -/
def tlsMessage : Message :=
  { plainMessage with tlsPort := 8080 }

/-- The same instance, after its app has been renamed. -/
def renamedMessage : Message :=
  { plainMessage with tags := { plainMessage.tags with appName := text "shop" } }

/-- The table in which the instance is registered. -/
def plainTable : {rts : Routes // rts.WellFormed} where
  val := Routes.single ⟨text "a.com"⟩ plainMessage.makeRoute
  property := by
    intro key routes found
    rcases eq_of_lookup_singleton found with ⟨_, rfl⟩
    exact ⟨Nat.zero_lt_one, le_rfl, rfl⟩

section

local instance asciiRegistration : GoRuntime := GoRuntime.ascii

theorem list_plainTable :
    plainTable.val.list (Uri.mk (text "a.com")).routeKey = [some plainMessage.makeRoute] :=
  rfl

theorem replaces_iff_sample : Replaces plainTable.val renamedMessage ⟨text "a.com"⟩ := by
  refine (replaces_iff plainTable ?_ ?_).1 ⟨?_, ?_⟩
  · change text "app" ≠ []
    decide
  · exact List.mem_singleton.mpr rfl
  · intro other otherMem _ fresh
    rw [list_plainTable, List.mem_singleton, Option.some.injEq] at otherMem
    subst otherMem
    exact absurd fresh (by decide)
  · decide

/-- Registering an instance again with TLS leaves the entry without TLS. -/
theorem not_replaces_always :
    ¬∀ (rts : {rts : Routes // rts.WellFormed}) (msg : Message), msg.tags.appID ≠ [] →
      ∀ uri ∈ msg.uris, Replaces rts.val msg uri := by
  intro replaces
  have named : tlsMessage.tags.appID ≠ [] := by
    change text "app" ≠ []
    decide
  rcases replaces plainTable tlsMessage named ⟨text "a.com"⟩ (List.mem_singleton.mpr rfl) with
    ⟨after, registers, present, agrees⟩
  have left : (registerRoute plainTable.val tlsMessage).map (fun rts =>
      (rts.list (Uri.mk (text "a.com")).routeKey).all fun r => !r.any Route.tls) = .ok true := by
    decide
  rw [registers, Except.map, Except.ok.injEq, List.all_eq_true] at left
  rcases List.any_eq_true.mp present with ⟨_ | other, otherMem, equal⟩
  · cases equal
  have plain : other.tls = false := by
    simpa using left _ otherMem
  rw [(agrees other otherMem equal).tls] at plain
  exact absurd plain (by decide)

end

/-! ## Finding a registered URI -/

section

variable [GoRuntime]

/-- What `Find` gives for a URI: it takes three parts for names and a UUID for an app id, and in
all other cases it returns an entry that is equal to the route of the message. -/
structure FindsRegistered (after : Routes) (order : List (Sigma fun _ : Uri => Slice))
    (msg : Message) (uri : Uri) : Prop where
  names : ∀ org space name, uri.value.splitOn slash = [org, space, name] →
    after.find order uri.value = (after.findByOrgSpaceName order org space name).map some
  appID : (uri.value.splitOn slash).length ≠ 3 → (Uuid.parse uri.value).isSome →
    after.find order uri.value = (after.findById order uri.value).map some
  url : (uri.value.splitOn slash).length ≠ 3 → Uuid.parse uri.value = none →
    (after.find order uri.value).any msg.makeRoute.equal = true

/-- A URI without percent escapes is found right after a message has registered it, unless it reads
as names or as a UUID. -/
theorem finds_registered (rts : {rts // callbackSystem.Reachable rts}) {msg : Message}
    (named : msg.tags.appID ≠ []) {uri : Uri} (uriMem : uri ∈ msg.uris)
    (plain : Routes.content uri.value = uri.value) :
    ∃ after, registerRoute rts.val msg = .ok after ∧
      ∀ order : List (Sigma fun _ : Uri => Slice), order.Perm after.table.entries →
        FindsRegistered after order msg uri := by
  rcases exists_leaves named (reachable_wellFormed rts.property) with ⟨after, registers, leaves⟩
  refine ⟨after, registers, fun order _ => ⟨?_, ?_, ?_⟩⟩
  · intro org space name parts
    apply Routes.find_of_splitOn
    rw [plain, parts]
  · intro parts uuid
    rw [Routes.find_of_uuid (by rwa [plain]) (by rwa [plain]), plain]
  · intro parts uuid
    have list : (after.findByRouteName uri.value).elim [] after.heap.read =
        after.list uri.routeKey := by
      rw [Routes.list_eq_itemsOf]
      rfl
    rw [Routes.find_of_url (by rwa [plain]) (by rwa [plain]), plain, list]
    exact leaves.present uri uriMem

end

/-- An instance whose app has a route with a path of two parts. -/
def pathMessage : Message where
  host := text "10.0.0.1"
  port := 8080
  tags := { appID := text "app", processType := processWeb }
  uris := [⟨text "a.com/shop/v1"⟩]

section

local instance asciiFind : GoRuntime := GoRuntime.ascii

theorem finds_registered_sample :
    ∃ after, registerRoute Routes.empty plainMessage = .ok after ∧
      ∀ order : List (Sigma fun _ : Uri => Slice), order.Perm after.table.entries →
        FindsRegistered after order plainMessage ⟨text "a.com"⟩ := by
  refine finds_registered ⟨Routes.empty, .initial rfl⟩ ?_ (List.mem_singleton.mpr rfl) (by decide)
  change text "app" ≠ []
  decide

/-- A route whose path has two parts is looked up as the names of an app. -/
theorem not_finds_registered_always :
    ¬∀ (rts : {rts // callbackSystem.Reachable rts}) (msg : Message), msg.tags.appID ≠ [] →
      ∀ uri ∈ msg.uris, ∃ after, registerRoute rts.val msg = .ok after ∧
        ∀ order : List (Sigma fun _ : Uri => Slice), order.Perm after.table.entries →
          (after.find order uri.value).any msg.makeRoute.equal = true := by
  intro finds
  have named : pathMessage.tags.appID ≠ [] := by
    change text "app" ≠ []
    decide
  rcases finds ⟨Routes.empty, .initial rfl⟩ pathMessage named ⟨text "a.com/shop/v1"⟩
    (List.mem_singleton.mpr rfl) with ⟨after, registers, found⟩
  have missing : (registerRoute Routes.empty pathMessage).map (fun rts =>
      (rts.find rts.table.entries (text "a.com/shop/v1")).any pathMessage.makeRoute.equal) =
        .ok false := by
    decide
  rw [registers] at missing
  have lost := found _ (.refl _)
  rw [Except.map, Except.ok.injEq] at missing
  rw [missing] at lost
  cases lost

end

end RoutesFetcher

end Promfetcher
