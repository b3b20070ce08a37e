import Promfetcher.Foundation.Transition
import Promfetcher.Mbus.Message
import Promfetcher.Models.LiveRoutes

/-!
# The callback of the routes fetcher

`subscribeRoutes` installs one callback for all subjects `router.*`. It runs in a
goroutine of the NATS library, so that a panic in it ends the process.

Two results are about this callback. Over runs, the table tracks the live
registrations as long as every deletion is made under the key of its list. For a
single message, the callback completes unless a message without app id also has
no URI: the debug line about the dropped message then reads `msg.Uris[0]`.
-/

namespace Promfetcher

open Foundation

namespace RoutesFetcher

section Runs

variable [GoRuntime]

/-- `msg.Uris[0]`. -/
def firstUri (msg : Message) : Except Panic Uri :=
  match msg.uris with
  | [] => .error .indexOutOfRange
  | uri :: _ => .ok uri

/-- `RoutesFetcher.registerRoute`. -/
def registerRoute (rts : Routes) (msg : Message) : Except Panic Routes :=
  let route := msg.makeRoute
  if route.tags.appID = [] then do
    -- The arguments of `log.Debugf` are evaluated at every log level.
    let _ ← firstUri msg
    return rts
  else msg.uris.foldlM (fun rts uri => rts.registerRoute uri (some route)) rts

/-- `RoutesFetcher.unregisterRoute`. -/
def unregisterRoute (rts : Routes) (msg : Message) : Except Panic Routes :=
  let endpoint := msg.makeRoute
  if endpoint.tags.appID = [] then do
    let _ ← firstUri msg
    return rts
  else msg.uris.foldlM (fun rts uri => rts.unregisterRoute uri (some endpoint)) rts

/-- The subject of the messages that register routes. -/
def registerSubject : GoString := text "router.register"

/-- The subject of the messages that unregister routes. -/
def unregisterSubject : GoString := text "router.unregister"

/-- The callback installed by `subscribeRoutes`, for one message. -/
def handleMessage (rts : Routes) (subject data : GoString) : Except Panic Routes :=
  match createMessage data with
  | .error _ => .ok rts
  | .ok msg =>
      if subject = registerSubject then registerRoute rts msg
      else if subject = unregisterSubject then unregisterRoute rts msg
      else .ok rts

/-! ## Runs of router messages -/

/-- A router message that names an app and at least one URI. -/
structure RouterMessage where
  operation : Operation
  message : Message
  appID_nonempty : message.tags.appID ≠ []
  uris_nonempty : message.uris ≠ []

namespace RouterMessage

/-- The table after a message has been handled. -/
def process (message : RouterMessage) (rts : Routes) : Except Panic Routes :=
  match message.operation with
  | .register => registerRoute rts message.message
  | .unregister => unregisterRoute rts message.message

/-- The calls that a message comes to, one for each of its URIs. -/
def calls (message : RouterMessage) : List Call :=
  message.message.uris.map fun uri => ⟨message.operation, uri, message.message.makeRoute⟩

/-- The message names the pair of this key and this identity. -/
def Names (message : RouterMessage) (key : Uri) (identity : Identity) : Prop :=
  message.message.makeRoute.identity = identity ∧ ∃ uri ∈ message.message.uris, uri.routeKey = key

instance (message : RouterMessage) (key : Uri) (identity : Identity) :
    Decidable (message.Names key identity) := by
  unfold Names
  infer_instance

end RouterMessage

/-- The table after messages have been handled in order. -/
def processAll (rts : Routes) (messages : List RouterMessage) : Except Panic Routes :=
  messages.foldlM (fun rts message => message.process rts) rts

/-- A pair is live when the last message that named it was a registration. -/
def Live (messages : List RouterMessage) (key : Uri) (identity : Identity) : Prop :=
  ((messages.filter fun message => message.Names key identity).getLast?).map
    RouterMessage.operation = some .register

/-- The table shows exactly the live registrations of the messages handled. -/
structure TracksMessages (messages : List RouterMessage) (rts : Routes) : Prop where
  key_registered : ∀ key ∈ rts.table, ∃ message ∈ messages, message.operation = .register ∧
    ∃ uri ∈ message.message.uris, uri.routeKey = key
  no_nil : ∀ key, none ∉ rts.list key
  live_once : ∀ key identity, Live messages key identity →
    (Routes.identities (rts.list key)).count (some identity) = 1
  only_live : ∀ key identity, ¬Live messages key identity →
    (Routes.identities (rts.list key)).count (some identity) = 0

theorem process_eq_run (message : RouterMessage) (rts : Routes) :
    message.process rts = rts.run message.calls := by
  have named : ¬message.message.makeRoute.tags.appID = [] := message.appID_nonempty
  cases operation : message.operation <;>
    simp only [RouterMessage.process, registerRoute, unregisterRoute, if_neg named, Routes.run,
      RouterMessage.calls, List.foldlM_map, Call.apply, operation]

theorem processAll_eq_run (rts : Routes) (messages : List RouterMessage) :
    processAll rts messages = rts.run (messages.flatMap RouterMessage.calls) := by
  induction messages generalizing rts with
  | nil => rfl
  | cons message messages inductionHypothesis =>
      simp only [processAll, Routes.run, List.flatMap_cons, List.foldlM_cons,
        List.foldlM_append] at inductionHypothesis ⊢
      rw [process_eq_run]
      simp only [inductionHypothesis, Routes.run]

theorem mem_foldl_updateLive (operation : Operation) (route : Route) (uris : List Uri)
    (live : Set (Uri × Identity)) (key : Uri) (identity : Identity) :
    (key, identity) ∈ (uris.map fun uri => (⟨operation, uri, route⟩ : Call)).foldl
        (fun live call => call.updateLive live) live ↔
      if route.identity = identity ∧ ∃ uri ∈ uris, uri.routeKey = key
        then operation = .register else (key, identity) ∈ live := by
  induction uris generalizing live with
  | nil => simp
  | cons uri uris inductionHypothesis =>
      rw [List.map_cons, List.foldl_cons, inductionHypothesis]
      by_cases later : route.identity = identity ∧ ∃ uri ∈ uris, uri.routeKey = key
      · have whole : route.identity = identity ∧ ∃ other ∈ uri :: uris, other.routeKey = key :=
          ⟨later.1, by simp [later.2]⟩
        rw [if_pos later, if_pos whole]
      · rw [if_neg later]
        by_cases here : route.identity = identity ∧ uri.routeKey = key
        · have whole : route.identity = identity ∧ ∃ other ∈ uri :: uris, other.routeKey = key :=
            ⟨here.1, uri, by simp, here.2⟩
          rcases here with ⟨rfl, rfl⟩
          rw [if_pos whole]
          cases operation <;> simp [Call.updateLive, Call.pair]
        · have other : ¬(route.identity = identity ∧
              ∃ other ∈ uri :: uris, other.routeKey = key) := by
            rintro ⟨same, named, namedMem, keyed⟩
            rcases List.mem_cons.mp namedMem with rfl | inTail
            · exact here ⟨same, keyed⟩
            · exact later ⟨same, named, inTail, keyed⟩
          have apart : (key, identity) ≠ (uri.routeKey, route.identity) := by
            intro equal
            simp only [Prod.mk.injEq] at equal
            exact here ⟨equal.2.symm, equal.1.symm⟩
          rw [if_neg other]
          cases operation <;> simp [Call.updateLive, Call.pair, apart]

theorem live_append_singleton (messages : List RouterMessage) (message : RouterMessage)
    (key : Uri) (identity : Identity) :
    Live (messages ++ [message]) key identity ↔
      if message.Names key identity then message.operation = .register
        else Live messages key identity := by
  unfold Live
  rw [List.filter_append]
  by_cases named : message.Names key identity <;> simp [named]

/-- The abstract run computes the live pairs. -/
theorem mem_live_iff (messages : List RouterMessage) (key : Uri) (identity : Identity) :
    (key, identity) ∈ (messages.flatMap RouterMessage.calls).foldl
        (fun live call => call.updateLive live) ∅ ↔ Live messages key identity := by
  induction messages using List.reverseRecOn with
  | nil => simp [Live]
  | append_singleton messages message inductionHypothesis =>
      rw [List.flatMap_append, List.foldl_append, live_append_singleton]
      simp only [List.flatMap_cons, List.flatMap_nil, List.append_nil, RouterMessage.calls]
      rw [mem_foldl_updateLive, inductionHypothesis]
      rfl

theorem mem_keys_iff (calls : List Call) (keys : Set Uri) (key : Uri) :
    key ∈ calls.foldl (fun keys call => call.updateKeys keys) keys ↔
      key ∈ keys ∨ ∃ call ∈ calls, call.operation = .register ∧ call.uri.routeKey = key := by
  induction calls generalizing keys with
  | nil => simp
  | cons call calls inductionHypothesis =>
      rw [List.foldl_cons, inductionHypothesis]
      cases operation : call.operation with
      | register =>
          simp only [Call.updateKeys, operation, Set.mem_insert_iff, List.mem_cons,
            exists_eq_or_imp, true_and, @eq_comm _ key]
          tauto
      | unregister => simp [Call.updateKeys, operation]

theorem TracksMessages.of_tracks {messages : List RouterMessage} {rts : Routes}
    (tracks : rts.Tracks
      ((messages.flatMap RouterMessage.calls).foldl (fun keys call => call.updateKeys keys) ∅)
      ((messages.flatMap RouterMessage.calls).foldl (fun live call => call.updateLive live) ∅)) :
    TracksMessages messages rts where
  key_registered := by
    intro key present
    have registered := (mem_keys_iff _ _ _).mp (tracks.key_mem key present)
    simp only [Set.mem_empty_iff_false, false_or, List.mem_flatMap, RouterMessage.calls,
      List.mem_map] at registered
    rcases registered with ⟨_, ⟨message, messageMem, uri, uriMem, rfl⟩, operation, keyed⟩
    exact ⟨message, messageMem, operation, uri, uriMem, keyed⟩
  no_nil := fun key => (tracks.represents key).none_not_mem
  live_once := by
    intro key identity live
    apply List.count_eq_one_of_mem (tracks.represents key).nodup
    exact ((tracks.represents key).mem_iff _).mpr
      ⟨identity, (mem_live_iff messages key identity).mpr live, rfl⟩
  only_live := by
    intro key identity dead
    apply List.count_eq_zero_of_not_mem
    intro listed
    rcases ((tracks.represents key).mem_iff _).mp listed with ⟨other, live, equal⟩
    rw [Option.some.injEq] at equal
    subst other
    exact dead ((mem_live_iff messages key identity).mp live)

/-- In a run of router messages all of whose deletions are made under the key of the list, every
table reached shows exactly the live registrations. -/
theorem table_tracks_live_registrations (messages : List RouterMessage)
    (clean : Routes.empty.CleanRun (messages.flatMap RouterMessage.calls)) :
    ∀ handled, handled <+: messages →
      ∃ rts, processAll Routes.empty handled = .ok rts ∧ TracksMessages handled rts := by
  rintro handled ⟨later, rfl⟩
  rw [List.flatMap_append] at clean
  rcases (Routes.tracks_iff_cleanRun _).mpr clean _ (List.prefix_append _ _) with ⟨rts, ran, tracks⟩
  exact ⟨rts, by rw [processAll_eq_run, ran], .of_tracks tracks⟩

end Runs

/-- A message for one URI of an app. -/
def sampleMessage (operation : Operation) (uri : String) : RouterMessage where
  operation := operation
  message :=
    { host := text "10.0.0.1", port := 8080, tags := { appID := text "app" },
      uris := [⟨text uri⟩] }
  appID_nonempty := by
    change text "app" ≠ []
    decide
  uris_nonempty := by simp

section

local instance asciiRuntime : GoRuntime := GoRuntime.ascii

theorem table_tracks_live_registrations_sample :
    ∃ rts,
      processAll Routes.empty
          [sampleMessage .register "A.com", sampleMessage .unregister "a.com"] = .ok rts ∧
        TracksMessages [sampleMessage .register "A.com", sampleMessage .unregister "a.com"] rts :=
  table_tracks_live_registrations
    [sampleMessage .register "A.com", sampleMessage .unregister "a.com"]
    ⟨fun unregisters => absurd unregisters (by decide),
      fun _ _ => ⟨fun _ => Or.inl (by decide), fun _ _ => trivial⟩⟩
    _ List.prefix_rfl

/-- Unregistering under the upper-case spelling leaves a nil entry. -/
theorem not_table_tracks_live_registrations :
    ¬∀ messages : List RouterMessage,
      ∃ rts, processAll Routes.empty messages = .ok rts ∧ TracksMessages messages rts := by
  intro tracks
  rcases tracks [sampleMessage .register "A.com", sampleMessage .unregister "A.com"] with
    ⟨rts, ran, tracked⟩
  have left : (processAll Routes.empty
      [sampleMessage .register "A.com", sampleMessage .unregister "A.com"]).map
        (fun rts => decide (none ∈ rts.list ⟨text "a.com"⟩)) = .ok true := by decide
  rw [ran] at left
  have present : none ∈ rts.list ⟨text "a.com"⟩ := by simpa [Except.map] using left
  exact tracked.no_nil _ present

end

/-! ## One message -/

section OneMessage

variable [GoRuntime]

/-- Subjects and payloads are handed to the callback one after the other. -/
def callbackSystem : System Routes (GoString × GoString) where
  initial rts := rts = Routes.empty
  step before message after := handleMessage before message.1 message.2 = .ok after

/-- The callbacks for the messages of a list, one after another. -/
def handleAll (rts : Routes) (messages : List (GoString × GoString)) : Except Panic Routes :=
  messages.foldlM (fun rts message => handleMessage rts message.1 message.2) rts

theorem reachable_of_handleAll {before after : Routes} {messages : List (GoString × GoString)}
    (reached : callbackSystem.Reachable before) (handled : handleAll before messages = .ok after) :
    callbackSystem.Reachable after := by
  induction messages generalizing before with
  | nil =>
      cases handled
      exact reached
  | cons message messages inductionHypothesis =>
      rw [handleAll, List.foldlM_cons] at handled
      cases moves : handleMessage before message.1 message.2 with
      | error panic =>
          rw [moves] at handled
          cases handled
      | ok next =>
          rw [moves] at handled
          exact inductionHypothesis (reached.next moves) handled

/-- The message is rejected, or its subject is neither of the two. -/
def Ignored (subject data : GoString) : Prop :=
  (∃ error, createMessage data = .error error) ∨
    (subject ≠ registerSubject ∧ subject ≠ unregisterSubject) ∨
      ∃ msg, createMessage data = .ok msg ∧ msg.tags.appID = []

/-- The callback runs to its end, and an ignored message leaves the table as it was. -/
def HandledSafely (rts : Routes) (subject data : GoString) : Prop :=
  ∃ after, handleMessage rts subject data = .ok after ∧ (Ignored subject data → after = rts)

/-- A message of one of the two subjects that names no app and no URI. -/
def NamesNothing (subject data : GoString) : Prop :=
  (subject = registerSubject ∨ subject = unregisterSubject) ∧
    ∃ msg, createMessage data = .ok msg ∧ msg.tags.appID = [] ∧ msg.uris = []

omit [GoRuntime] in
theorem foldlM_wellFormed (step : Routes → Uri → Except Panic Routes)
    (keeps : ∀ rts uri, rts.WellFormed → ∃ after, step rts uri = .ok after ∧ after.WellFormed)
    (uris : List Uri) {rts : Routes} (wellFormed : rts.WellFormed) :
    ∃ after, uris.foldlM step rts = .ok after ∧ after.WellFormed := by
  induction uris generalizing rts with
  | nil => exact ⟨rts, rfl, wellFormed⟩
  | cons uri uris inductionHypothesis =>
      rcases keeps rts uri wellFormed with ⟨next, stepped, nextWellFormed⟩
      rcases inductionHypothesis nextWellFormed with ⟨after, folded, afterWellFormed⟩
      refine ⟨after, ?_, afterWellFormed⟩
      rw [List.foldlM_cons, stepped]
      exact folded

omit [GoRuntime] in
theorem dropOrFold_ok (step : Routes → Uri → Except Panic Routes)
    (keeps : ∀ rts uri, rts.WellFormed → ∃ after, step rts uri = .ok after ∧ after.WellFormed)
    {rts : Routes} (wellFormed : rts.WellFormed) {msg : Message}
    (named : msg.tags.appID ≠ [] ∨ msg.uris ≠ []) :
    ∃ after,
      (if msg.makeRoute.tags.appID = [] then do
          let _ ← firstUri msg
          return rts
        else msg.uris.foldlM step rts) = .ok after ∧
      after.WellFormed ∧ (msg.tags.appID = [] → after = rts) := by
  by_cases appID : msg.tags.appID = []
  · have dropped : msg.makeRoute.tags.appID = [] := appID
    rcases List.exists_cons_of_ne_nil (named.resolve_left (not_not.mpr appID)) with
      ⟨uri, others, uris⟩
    refine ⟨rts, ?_, wellFormed, fun _ => rfl⟩
    simp only [if_pos dropped, firstUri, uris]
    rfl
  · have kept : ¬msg.makeRoute.tags.appID = [] := appID
    rcases foldlM_wellFormed step keeps msg.uris wellFormed with ⟨after, folded, afterWellFormed⟩
    refine ⟨after, ?_, afterWellFormed, fun empty => absurd empty appID⟩
    rw [if_neg kept, folded]

theorem registerRoute_ok {rts : Routes} (wellFormed : rts.WellFormed) {msg : Message}
    (named : msg.tags.appID ≠ [] ∨ msg.uris ≠ []) :
    ∃ after, registerRoute rts msg = .ok after ∧ after.WellFormed ∧
      (msg.tags.appID = [] → after = rts) :=
  dropOrFold_ok _
    (fun _ uri holds => Routes.registerRoute_wellFormed holds uri msg.makeRoute) wellFormed named

theorem unregisterRoute_ok {rts : Routes} (wellFormed : rts.WellFormed) {msg : Message}
    (named : msg.tags.appID ≠ [] ∨ msg.uris ≠ []) :
    ∃ after, unregisterRoute rts msg = .ok after ∧ after.WellFormed ∧
      (msg.tags.appID = [] → after = rts) :=
  dropOrFold_ok _
    (fun _ uri holds => Routes.unregisterRoute_wellFormed holds uri msg.makeRoute) wellFormed named

theorem handleMessage_ok {rts : Routes} (wellFormed : rts.WellFormed) {subject data : GoString}
    (named : ¬NamesNothing subject data) :
    ∃ after, handleMessage rts subject data = .ok after ∧ after.WellFormed ∧
      (Ignored subject data → after = rts) := by
  unfold handleMessage
  cases created : createMessage data with
  | error error => exact ⟨rts, rfl, wellFormed, fun _ => rfl⟩
  | ok msg =>
      by_cases subjects : subject = registerSubject ∨ subject = unregisterSubject
      · have named : msg.tags.appID ≠ [] ∨ msg.uris ≠ [] := by
          by_contra nothing
          rw [not_or, not_not, not_not] at nothing
          exact named ⟨subjects, msg, created, nothing⟩
        have dropped : Ignored subject data → msg.tags.appID = [] := by
          rintro (⟨error, failed⟩ | ⟨notRegister, notUnregister⟩ | ⟨other, found, empty⟩)
          · rw [created] at failed
            cases failed
          · exact (subjects.elim notRegister notUnregister).elim
          · rw [created] at found
            cases found
            exact empty
        by_cases register : subject = registerSubject
        · rcases registerRoute_ok wellFormed named with ⟨after, done, afterWellFormed, kept⟩
          exact ⟨after, by simp only [if_pos register, done], afterWellFormed, kept ∘ dropped⟩
        · have unregister := subjects.resolve_left register
          rcases unregisterRoute_ok wellFormed named with ⟨after, done, afterWellFormed, kept⟩
          refine ⟨after, ?_, afterWellFormed, kept ∘ dropped⟩
          simp only [if_neg register, if_pos unregister, done]
      · rw [not_or] at subjects
        refine ⟨rts, ?_, wellFormed, fun _ => rfl⟩
        simp only [if_neg subjects.1, if_neg subjects.2]

theorem handleMessage_panics {rts : Routes} {subject data : GoString}
    (nothing : NamesNothing subject data) :
    handleMessage rts subject data = .error .indexOutOfRange := by
  rcases nothing with ⟨subjects, msg, created, appID, uris⟩
  have dropped : msg.makeRoute.tags.appID = [] := appID
  have panics : firstUri msg = .error .indexOutOfRange := by rw [firstUri, uris]
  have register : registerRoute rts msg = .error .indexOutOfRange := by
    simp only [registerRoute, if_pos dropped, panics, bind, Except.bind]
  have unregister : unregisterRoute rts msg = .error .indexOutOfRange := by
    simp only [unregisterRoute, if_pos dropped, panics, bind, Except.bind]
  simp only [handleMessage, created, register, unregister]
  rcases subjects with rfl | rfl <;> simp

theorem reachable_wellFormed {rts : Routes} (reached : callbackSystem.Reachable rts) :
    rts.WellFormed := by
  apply reached.invariant
  · rintro _ rfl
    exact Routes.wellFormed_empty
  · rintro before ⟨subject, data⟩ after wellFormed handled
    change handleMessage before subject data = .ok after at handled
    by_cases nothing : NamesNothing subject data
    · rw [handleMessage_panics nothing] at handled
      cases handled
    · rcases handleMessage_ok wellFormed nothing with ⟨next, stepped, nextWellFormed, _⟩
      rw [stepped] at handled
      cases handled
      exact nextWellFormed

/-- On every reachable table, the callback completes, and keeps the table when it ignores the
message, exactly if the message does not name nothing. -/
theorem handledSafely_iff (rts : {rts // callbackSystem.Reachable rts}) (subject data : GoString) :
    HandledSafely rts.val subject data ↔ ¬NamesNothing subject data := by
  constructor
  · rintro ⟨after, handled, _⟩ nothing
    rw [handleMessage_panics nothing] at handled
    cases handled
  · intro named
    rcases handleMessage_ok (reachable_wellFormed rts.property) named with ⟨after, handled, _, kept⟩
    exact ⟨after, handled, kept⟩

end OneMessage

/-- The payload `{}` under the subject of a registration panics. -/
theorem not_handledSafely_always :
    ¬∀ rts : {rts // (@callbackSystem GoRuntime.ascii).Reachable rts},
      ∀ subject data, hasPrefix subject (text "router.") = true →
        @HandledSafely GoRuntime.ascii rts.val subject data := by
  intro safe
  rcases safe ⟨Routes.empty, .initial rfl⟩ (text "router.register") (text "{}") (by decide) with
    ⟨after, handled, _⟩
  have panics : @handleMessage GoRuntime.ascii Routes.empty (text "router.register") (text "{}") =
      .error .indexOutOfRange := by decide
  rw [panics] at handled
  cases handled

end RoutesFetcher

end Promfetcher
