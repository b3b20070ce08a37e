import Promfetcher.Fetchers.RoutesFetcher
import Promfetcher.Models.Dump

/-!
# The dump of a reached table

`RouteHandler` answers with the dump of the table. A registration adds the route
key of a URI to the table and an unregistration that finds its route adds the URI
itself, so that the dump is faithful as long as these can be dumped.
-/

namespace Promfetcher

open Foundation

namespace Routes

/-- The table is well formed, and all of its keys can be dumped. -/
structure DumpableKeys (rts : Routes) : Prop where
  wellFormed : rts.WellFormed
  dumpable : ∀ key ∈ rts.table, key.Dumpable

theorem dumpableKeys_empty : empty.DumpableKeys where
  wellFormed := wellFormed_empty
  dumpable := by
    intro key present
    simp [empty] at present

theorem DumpableKeys.insert {rts : Routes} (keys : rts.DumpableKeys) {key : Uri}
    (dumpable : key.Dumpable) (routes : Slice) :
    ∀ other ∈ rts.table.insert key routes, other.Dumpable := by
  intro other present
  rcases (AList.mem_insert _).mp present with rfl | known
  · exact dumpable
  · exact keys.dumpable other known

end Routes

section

variable [GoRuntime]

/-- The key that the call adds to the table, if it adds one, can be dumped. -/
def Call.Dumpable (call : Call) (rts : Routes) : Prop :=
  match call.operation with
  | .register => call.uri.routeKey.Dumpable
  | .unregister => call.uri.Dumpable ∨
      ∀ entry ∈ rts.list call.uri.routeKey, call.route.equal entry = false

namespace Routes

/-- Every call of the run meets the guard in the table in which it is made. -/
def RunMeets (guard : Call → Routes → Prop) : Routes → List Call → Prop
  | _, [] => True
  | rts, call :: calls =>
      guard call rts ∧ ∀ after, call.apply rts = .ok after → RunMeets guard after calls

theorem DumpableKeys.register {rts after : Routes} (keys : rts.DumpableKeys) {uri : Uri}
    {route : Route} (dumpable : uri.routeKey.Dumpable)
    (registers : rts.registerRoute uri (some route) = .ok after) : after.DumpableKeys := by
  rcases registerRoute_wellFormed keys.wellFormed uri route with ⟨_, same, wellFormed⟩
  rw [registers] at same
  cases same
  refine ⟨wellFormed, ?_⟩
  cases registers_of_registerRoute keys.wellFormed registers with
  | first _ => exact keys.insert dumpable _
  | replaced _ _ => exact keys.dumpable
  | kept _ _ _ => exact keys.dumpable
  | appended _ _ _ => exact keys.insert dumpable _

theorem DumpableKeys.unregister {rts after : Routes} (keys : rts.DumpableKeys) {uri : Uri}
    {route : Route} (dumpable : uri.Dumpable ∨
      ∀ entry ∈ rts.list uri.routeKey, route.equal entry = false)
    (unregisters : rts.unregisterRoute uri (some route) = .ok after) : after.DumpableKeys := by
  rcases unregisterRoute_wellFormed keys.wellFormed uri route with ⟨_, same, wellFormed⟩
  rw [unregisters] at same
  cases same
  refine ⟨wellFormed, ?_⟩
  rw [unregisterRoute_eq keys.wellFormed, Except.ok.injEq] at unregisters
  rw [← unregisters]
  rcases found : rts.table.lookup uri.routeKey with _ | routes
  · exact keys.dumpable
  · rcases position : removePosition route (rts.heap.read routes) with _ | idx
    · simpa only [position] using keys.dumpable
    · simp only [position]
      rcases dumpable with own | nothing
      · exact keys.insert own _
      · rw [list_of_lookup found] at nothing
        have none : removePosition route (rts.heap.read routes) = Option.none :=
          List.findIdx?_eq_none_iff.mpr nothing
        rw [none] at position
        cases position

theorem DumpableKeys.apply {rts after : Routes} (keys : rts.DumpableKeys) {call : Call}
    (dumpable : call.Dumpable rts) (applied : call.apply rts = .ok after) :
    after.DumpableKeys := by
  unfold Call.apply at applied
  unfold Call.Dumpable at dumpable
  cases operation : call.operation with
  | register =>
      rw [operation] at applied dumpable
      exact keys.register dumpable applied
  | unregister =>
      rw [operation] at applied dumpable
      exact keys.unregister dumpable applied

theorem DumpableKeys.run {rts after : Routes} {calls : List Call} (keys : rts.DumpableKeys)
    (meets : rts.RunMeets Call.Dumpable calls) (ran : rts.run calls = .ok after) :
    after.DumpableKeys := by
  induction calls generalizing rts with
  | nil =>
      cases ran
      exact keys
  | cons call calls inductionHypothesis =>
      rw [Routes.run, List.foldlM_cons] at ran
      cases applied : call.apply rts with
      | error panic =>
          rw [applied] at ran
          cases ran
      | ok next =>
          rw [applied] at ran
          exact inductionHypothesis (keys.apply meets.1 applied) (meets.2 next applied) ran

end Routes

namespace RoutesFetcher

omit [GoRuntime] in
/-- The calls on the table for a message, which is dropped if it names no app. -/
def callsOf (subject : GoString) (msg : Message) : List Call :=
  if msg.tags.appID = [] then []
  else if subject = registerSubject then
    msg.uris.map fun uri => ⟨.register, uri, msg.makeRoute⟩
  else if subject = unregisterSubject then
    msg.uris.map fun uri => ⟨.unregister, uri, msg.makeRoute⟩
  else []

/-- All calls for the message add only keys that can be dumped. -/
def AddsDumpable (rts : Routes) (message : GoString × GoString) : Prop :=
  ∀ msg, createMessage message.2 = .ok msg →
    rts.RunMeets Call.Dumpable (callsOf message.1 msg)

theorem run_of_handleMessage {rts after : Routes} {subject data : GoString}
    (handled : handleMessage rts subject data = .ok after) :
    after = rts ∨ ∃ msg, createMessage data = .ok msg ∧
      rts.run (callsOf subject msg) = .ok after := by
  unfold handleMessage at handled
  cases created : createMessage data with
  | error error =>
      rw [created] at handled
      cases handled
      exact .inl rfl
  | ok msg =>
      rw [created] at handled
      simp only at handled
      by_cases appID : msg.tags.appID = []
      · have dropped : msg.makeRoute.tags.appID = [] := appID
        refine .inl ?_
        simp only [registerRoute, unregisterRoute, if_pos dropped] at handled
        cases first : firstUri msg <;> rw [first] at handled <;> split_ifs at handled <;>
          cases handled <;> rfl
      · have named : ¬msg.makeRoute.tags.appID = [] := appID
        simp only [registerRoute, unregisterRoute, if_neg named] at handled
        refine .inr ⟨msg, rfl, ?_⟩
        rw [callsOf, if_neg appID, Routes.run]
        split_ifs at handled ⊢
        · rw [List.foldlM_map]
          exact handled
        · rw [List.foldlM_map]
          exact handled
        · exact handled

theorem reached_dumpableKeys {rts : Routes}
    (reached : callbackSystem.ReachableUnder AddsDumpable rts) : rts.DumpableKeys := by
  apply reached.invariant
  · rintro _ rfl
    exact Routes.dumpableKeys_empty
  · intro before message after keys adds moves
    rcases run_of_handleMessage moves with rfl | ⟨msg, created, ran⟩
    · exact keys
    · exact keys.run (adds msg created) ran

/-- In every run whose messages add only keys that can be dumped, every dump is faithful. -/
theorem dump_faithful [RouteMarshal] {rts : Routes}
    (reached : callbackSystem.ReachableUnder AddsDumpable rts)
    {order : List (Sigma fun _ : Uri => Slice)} (isOrder : order.Perm rts.table.entries) :
    rts.FaithfulDump (rts.string order) :=
  Routes.faithfulDump_of_dumpable (reached_dumpableKeys reached).dumpable isOrder

end RoutesFetcher

end

section

local instance asciiDump : GoRuntime := GoRuntime.ascii

/-- What `json.Marshal` writes for the route of a message that only names the app `a`. -/
def marshalledSample : GoString :=
  text "\x7b\"private_instance_id\":\"\",\"tags\":\x7b\"process_type\":\"\"," ++
    text "\"process_instance_id\":\"\",\"component\":\"\",\"instance_id\":\"\"," ++
    text "\"space_name\":\"\",\"organization_id\":\"\",\"process_id\":\"\"," ++
    text "\"organization_name\":\"\",\"source_id\":\"\",\"app_id\":\"a\"," ++
    text "\"app_name\":\"\",\"space_id\":\"\"\x7d,\"server_cert_domain_san\":\"\"," ++
    text "\"address\":\":0\",\"tls\":false,\"ttl\":0,\"host\":\"\"\x7d"

/-- The tags of a message that is not dropped. -/
def sampleTags : Tags :=
  { appID := text "a" }

/-- The members of the object that the first bytes of a text are. -/
def readMembers (rendered : GoString) : List (GoString × Json) :=
  match Json.parseValue 700 2 rendered with
  | some (.object members, _) => members
  | _ => []

theorem marshalledSample_parsed :
    Json.Parsed 2 marshalledSample (.value (.object (readMembers marshalledSample))) [] := by
  have read : ∃ members, Json.parseValue 700 2 marshalledSample = some (.object members, []) :=
    ⟨_, by rfl⟩
  rcases read with ⟨members, read⟩
  rw [readMembers, read]
  exact (Json.parsed_of_parse _).1 read

/-- A marshaller that writes what Go writes for the sample. -/
local instance marshalSample : RouteMarshal where
  marshal route := if route.tags = sampleTags then marshalledSample else text "\x7b\x7d"
  members route := if route.tags = sampleTags then readMembers marshalledSample else []
  marshal_parsed := by
    intro route
    by_cases isSample : route.tags = sampleTags
    · rw [if_pos isSample, if_pos isSample]
      exact marshalledSample_parsed
    · rw [if_neg isSample, if_neg isSample]
      have empty : text "\x7b\x7d" = [0x7B, 0x7D] := by decide
      rw [empty]
      exact .emptyObject rfl

/-- A registration of the sample route under one URI, which is given with its escapes. -/
def dumpedPayload (uri : String) : GoString :=
  text "\x7b\"uris\":[\"" ++ text uri ++ text "\"],\"tags\":\x7b\"app_id\":\"a\"\x7d\x7d"

theorem createMessage_dumpedPayload :
    createMessage (dumpedPayload "a.com") =
      .ok { tags := sampleTags, uris := [⟨text "a.com"⟩] } := by
  rfl

theorem dumpable_sample : (⟨text "a.com"⟩ : Uri).routeKey.Dumpable where
  valid := by decide
  plain := by
    have all : ((⟨text "a.com"⟩ : Uri).routeKey.value.all fun byte =>
        byte != 0x22 && byte != 0x5C && 0x20 ≤ byte) = true := by decide
    intro byte present
    have this := List.all_eq_true.mp all byte present
    simpa [Json.IsPlain, and_assoc] using this
  noSlash := by decide

theorem dump_faithful_sample :
    ∃ rts, RoutesFetcher.handleMessage Routes.empty RoutesFetcher.registerSubject
        (dumpedPayload "a.com") = .ok rts ∧
      rts.FaithfulDump (rts.string rts.table.entries) := by
  have adds : RoutesFetcher.AddsDumpable Routes.empty
      (RoutesFetcher.registerSubject, dumpedPayload "a.com") := by
    intro msg created
    rw [createMessage_dumpedPayload, Except.ok.injEq] at created
    subst created
    exact ⟨dumpable_sample, fun _ _ => trivial⟩
  cases handled : RoutesFetcher.handleMessage Routes.empty RoutesFetcher.registerSubject
      (dumpedPayload "a.com") with
  | error panic =>
      have runs : (RoutesFetcher.handleMessage Routes.empty RoutesFetcher.registerSubject
          (dumpedPayload "a.com")).isOk = true := by rfl
      rw [handled] at runs
      cases runs
  | ok rts =>
      exact ⟨rts, rfl, RoutesFetcher.dump_faithful (.step (.initial rfl) adds handled) (.refl _)⟩

/-- A quote in a key makes the dump no document at all. -/
theorem not_dump_faithful_always :
    ¬∀ {rts : Routes}, RoutesFetcher.callbackSystem.Reachable rts →
      ∀ {order : List (Sigma fun _ : Uri => Slice)}, order.Perm rts.table.entries →
        rts.FaithfulDump (rts.string order) := by
  intro always
  have shown : (RoutesFetcher.handleMessage Routes.empty RoutesFetcher.registerSubject
      (dumpedPayload "a\\\"b")).map (fun rts =>
        (Json.parse (rts.string rts.table.entries)).isNone) = .ok true := by decide +kernel
  cases handled : RoutesFetcher.handleMessage Routes.empty RoutesFetcher.registerSubject
      (dumpedPayload "a\\\"b") with
  | error panic =>
      rw [handled] at shown
      cases shown
  | ok rts =>
      rw [handled] at shown
      simp only [Except.map, Except.ok.injEq] at shown
      have moves : RoutesFetcher.callbackSystem.step Routes.empty
          (RoutesFetcher.registerSubject, dumpedPayload "a\\\"b") rts := handled
      rcases always (.step (.initial rfl) trivial moves) (.refl _) with ⟨members, parsed, _⟩
      rw [parsed] at shown
      cases shown

end

end Promfetcher
