import Promfetcher.Fetchers.Registration
import Mathlib.Data.List.ReduceOption
import Mathlib.Data.List.Dedup

/-!
# Repeated registrations

An emitter registers its endpoints again and again. A list without two equal entries
has at most one entry that a registration can replace, so that the loop of
`RegisterRoute`, which goes on after a match and stops at the first update, finds all
there is to find in either case. From this follow uniqueness, the frame and that
a second call changes nothing; and since every entry has a pair of a key and an
identity of its own, heartbeats cannot make the table grow beyond the pairs they name.
-/

namespace Promfetcher

open Foundation

namespace Routes

/-- No two entries of a list are equal. A nil entry is equal to none. -/
def NoEqual (entries : List (Option Route)) : Prop :=
  entries.Pairwise fun entry other => ∀ route, entry = some route → route.equal other = false

/-- The identities of the entries that are not nil. -/
def present (entries : List (Option Route)) : List Identity :=
  entries.filterMap (Option.map Route.identity)

theorem present_eq_reduceOption (entries : List (Option Route)) :
    present entries = (identities entries).reduceOption := by
  rw [present, identities, List.reduceOption, List.filterMap_map]
  rfl

theorem mem_present {entries : List (Option Route)} {identity : Identity} :
    identity ∈ present entries ↔ some identity ∈ identities entries := by
  rw [present_eq_reduceOption, List.reduceOption_mem_iff]

theorem noEqual_iff_nodup {entries : List (Option Route)} :
    NoEqual entries ↔ (present entries).Nodup := by
  rw [present, List.Nodup, List.pairwise_filterMap]
  refine List.pairwise_iff_getElem.trans (Iff.trans ?_ List.pairwise_iff_getElem.symm)
  refine forall₅_congr fun first second _ _ _ => ?_
  generalize entries[first] = entry
  generalize entries[second] = other
  cases entry <;> cases other <;> simp [Route.equal_some, ← Bool.not_eq_true]

theorem present_registerEntries (route : Route) (entries : List (Option Route)) :
    present (registerEntries route entries) =
      if route.identity ∈ present entries then present entries
      else present entries ++ [route.identity] := by
  simp only [mem_present]
  rw [present_eq_reduceOption, identities_registerEntries]
  split
  · rw [present_eq_reduceOption]
  · rw [List.reduceOption_append, present_eq_reduceOption]
    rfl

theorem NoEqual.registerEntries {entries : List (Option Route)} (noEqual : NoEqual entries)
    (route : Route) : NoEqual (registerEntries route entries) := by
  rw [noEqual_iff_nodup] at noEqual ⊢
  rw [present_registerEntries]
  split
  · exact noEqual
  · next absent =>
      rw [List.nodup_append]
      refine ⟨noEqual, List.nodup_singleton _, ?_⟩
      intro identity identityMem other otherMem same
      rw [List.mem_singleton] at otherMem
      exact absent (otherMem ▸ same ▸ identityMem)

/-- Of the entries of such a list, a route is equal to at most one. -/
theorem NoEqual.index_unique {entries : List (Option Route)} (noEqual : NoEqual entries)
    {route : Route} {idx other : Nat} {entry otherEntry : Option Route}
    (reads : entries[idx]? = some entry) (equal : route.equal entry = true)
    (otherReads : entries[other]? = some otherEntry) (otherEqual : route.equal otherEntry = true) :
    idx = other := by
  have apart {idx other : Nat} {entry otherEntry : Option Route} (before : idx < other)
      (reads : entries[idx]? = some entry) (equal : route.equal entry = true)
      (otherReads : entries[other]? = some otherEntry)
      (otherEqual : route.equal otherEntry = true) : False := by
    rcases List.getElem?_eq_some_iff.mp reads with ⟨inRange, rfl⟩
    rcases List.getElem?_eq_some_iff.mp otherReads with ⟨otherInRange, rfl⟩
    rw [equal_eq_identity] at equal otherEqual
    rcases Option.map_eq_some_iff.mp equal with ⟨held, isHeld, sameIdentity⟩
    have differ :=
      List.pairwise_iff_getElem.mp noEqual idx other inRange otherInRange before held isHeld
    refine Bool.eq_false_iff.mp differ ((equal_eq_identity held _).mpr ?_)
    rw [otherEqual, sameIdentity]
  rcases Nat.lt_trichotomy idx other with before | same | after
  · exact (apart before reads equal otherReads otherEqual).elim
  · exact same
  · exact (apart after otherReads otherEqual reads equal).elim

/-- What a registration does to a list: the single equal entry is kept or replaced in place, or
there is none and the route comes last. -/
def RegistersIn (route : Route) (entries after : List (Option Route)) : Prop :=
  (∃ idx held, entries[idx]? = some (some held) ∧ route.equal (some held) = true ∧
      (∀ other entry, entries[other]? = some entry → route.equal entry = true → other = idx) ∧
      after = if route.needUpdate (some held) then entries.set idx (some route) else entries) ∨
    ((∀ entry ∈ entries, route.equal entry = false) ∧ after = entries ++ [some route])

theorem exists_held_of_equal {route : Route} {entry : Option Route}
    (equal : route.equal entry = true) : ∃ held, entry = some held := by
  cases entry with
  | none => cases equal
  | some held => exact ⟨held, rfl⟩

theorem registersIn_registerEntries (route : Route) {entries : List (Option Route)}
    (noEqual : NoEqual entries) : RegistersIn route entries (registerEntries route entries) := by
  have unique {idx : Nat} {held : Route} (reads : entries[idx]? = some (some held))
      (equal : route.equal (some held) = true) :
      ∀ other entry, entries[other]? = some entry → route.equal entry = true → other = idx :=
    fun _ _ otherReads otherEqual => noEqual.index_unique otherReads otherEqual reads equal
  cases position : updatePosition route entries with
  | some idx =>
      rcases List.findIdx?_eq_some_iff_getElem.mp position with ⟨inRange, replaced, _⟩
      rw [Bool.and_eq_true] at replaced
      rcases exists_held_of_equal replaced.1 with ⟨held, isHeld⟩
      have reads : entries[idx]? = some (some held) := by
        rw [List.getElem?_eq_getElem inRange, isHeld]
      rw [isHeld] at replaced
      refine Or.inl ⟨idx, held, reads, replaced.1, unique reads replaced.1, ?_⟩
      rw [if_pos replaced.2, registerEntries, position]
  | none =>
      cases seen : entries.any route.equal with
      | true =>
          rcases List.any_eq_true.mp seen with ⟨entry, entryMem, equal⟩
          rcases exists_held_of_equal equal with ⟨held, rfl⟩
          rcases List.mem_iff_getElem?.mp entryMem with ⟨idx, reads⟩
          have current : route.needUpdate (some held) = false := by
            simpa [equal] using List.findIdx?_eq_none_iff.mp position _ entryMem
          refine Or.inl ⟨idx, held, reads, equal, unique reads equal, ?_⟩
          simp [registerEntries, position, seen, current]
      | false =>
          refine Or.inr ⟨by simpa using seen, ?_⟩
          simp [registerEntries, position, seen]

theorem countP_stale_le_one (route : Route) {entries : List (Option Route)}
    (noEqual : NoEqual entries) : entries.countP (stale route) ≤ 1 := by
  calc entries.countP (stale route)
    _ ≤ entries.countP route.equal := by
      refine List.countP_mono_left fun entry _ isStale => ?_
      exact (Bool.and_eq_true _ _ ▸ isStale).1
    _ = (present entries).count route.identity := by
      rw [present, List.count, List.countP_filterMap]
      refine List.countP_congr fun entry _ => ?_
      rw [equal_eq_identity]
      cases entry <;> simp
    _ ≤ 1 := List.nodup_iff_count_le_one.mp (noEqual_iff_nodup.mp noEqual) _

theorem count_none_registerEntries (route : Route) (entries : List (Option Route)) :
    (registerEntries route entries).count none = entries.count none := by
  unfold registerEntries
  cases position : updatePosition route entries with
  | some idx =>
      rcases List.findIdx?_eq_some_iff_getElem.mp position with ⟨inRange, replaced, _⟩
      rw [Bool.and_eq_true] at replaced
      rcases exists_held_of_equal replaced.1 with ⟨held, isHeld⟩
      simp [List.count_set, inRange, isHeld]
  | none =>
      dsimp only
      split
      · rfl
      · simp

/-! ## One call -/

/-- A table in which no two keys share an array and no list has two equal entries. -/
structure Tidy (rts : Routes) : Prop where
  wellFormed : rts.WellFormed
  separate : rts.Separate
  noEqual : ∀ key, NoEqual (rts.list key)

theorem tidy_empty : empty.Tidy where
  wellFormed := wellFormed_empty
  separate := refines_empty.separate
  noEqual _ := List.Pairwise.nil

section

variable [GoRuntime]

/-- What one call of `RegisterRoute` does to the lists of a tidy table. -/
structure RegistersOnce (rts : Routes) (uri : Uri) (route : Route) (after : Routes) : Prop where
  keys : ∀ key, key ∈ after.table ↔ key = uri.routeKey ∨ key ∈ rts.table
  others : ∀ key, key ≠ uri.routeKey → after.list key = rts.list key
  own : RegistersIn route (rts.list uri.routeKey) (after.list uri.routeKey)

theorem mem_table_registerRoute {rts after : Routes} {uri : Uri} {route : Route}
    (wellFormed : rts.WellFormed) (registers : rts.registerRoute uri (some route) = .ok after)
    (key : Uri) : key ∈ after.table ↔ key = uri.routeKey ∨ key ∈ rts.table := by
  have absorbed {routes : Slice} (found : rts.table.lookup uri.routeKey = some routes) :
      key ∈ rts.table ↔ key = uri.routeKey ∨ key ∈ rts.table := by
    refine ⟨Or.inr, ?_⟩
    rintro (rfl | present)
    · exact AList.lookup_isSome.mp (by rw [found]; rfl)
    · exact present
  cases registers_of_registerRoute wellFormed registers with
  | first absent => exact AList.mem_insert _
  | replaced found position => exact absorbed found
  | kept found position seen => exact absorbed found
  | appended found position unseen => exact AList.mem_insert _

/-- A second call finds the entry of the first one, and it is not stale. -/
theorem registerRoute_again {rts after : Routes} (tidy : rts.Tidy) {uri : Uri} {route : Route}
    (afterWellFormed : after.WellFormed)
    (registers : rts.registerRoute uri (some route) = .ok after) :
    after.registerRoute uri (some route) = .ok after := by
  have own := list_registerRoute tidy.wellFormed registers
  have present : uri.routeKey ∈ after.table :=
    (mem_table_registerRoute tidy.wellFormed registers _).mpr (Or.inl rfl)
  rcases Option.isSome_iff_exists.mp (AList.lookup_isSome.mpr present) with ⟨routes, found⟩
  have seen : (after.heap.read routes).any route.equal = true := by
    rw [← list_of_lookup found, own]
    exact any_equal_registerEntries route _
  have fresh : updatePosition route (after.heap.read routes) = none := by
    have few := countP_stale_le_one route (tidy.noEqual uri.routeKey)
    have fewer := countP_stale_registerEntries route (rts.list uri.routeKey)
    rw [← own, list_of_lookup found] at fewer
    have none : (after.heap.read routes).countP (stale route) = 0 := by omega
    apply List.findIdx?_eq_none_iff.mpr
    simpa [stale] using List.countP_eq_zero.mp none
  rw [registerRoute_eq afterWellFormed, found]
  simp only [registered, fresh, seen, if_true]

theorem Tidy.registerRoute {rts : Routes} (tidy : rts.Tidy) (uri : Uri) (route : Route) :
    ∃ after, rts.registerRoute uri (some route) = .ok after ∧
      RegistersOnce rts uri route after ∧ after.Tidy ∧
      after.registerRoute uri (some route) = .ok after := by
  rcases registerRoute_wellFormed tidy.wellFormed uri route with
    ⟨after, registers, afterWellFormed⟩
  rcases separate_registerRoute tidy.wellFormed tidy.separate registers with
    ⟨afterSeparate, others⟩
  have own := list_registerRoute tidy.wellFormed registers
  refine ⟨after, registers, ⟨mem_table_registerRoute tidy.wellFormed registers, others, ?_⟩,
    ⟨afterWellFormed, afterSeparate, ?_⟩, registerRoute_again tidy afterWellFormed registers⟩
  · rw [own]
    exact registersIn_registerEntries route (tidy.noEqual _)
  · intro key
    by_cases same : key = uri.routeKey
    · subst same
      rw [own]
      exact (tidy.noEqual _).registerEntries route
    · rw [others key same]
      exact tidy.noEqual key

end

/-! ## The entries of a table -/

/-- The pairs of a key and an identity that the table has an entry for. -/
def held (rts : Routes) : List (Uri × Identity) :=
  rts.table.keys.flatMap fun key => (present (rts.list key)).map (Prod.mk key)

/-- The number of entries of all lists of the table. -/
def entryCount (rts : Routes) : Nat :=
  (rts.table.keys.flatMap rts.list).length

theorem mem_held {rts : Routes} {pair : Uri × Identity} :
    pair ∈ rts.held ↔ pair.2 ∈ present (rts.list pair.1) := by
  rcases pair with ⟨key, identity⟩
  simp only [held, List.mem_flatMap, List.mem_map, Prod.mk.injEq]
  constructor
  · rintro ⟨_, _, _, identityMem, rfl, rfl⟩
    exact identityMem
  · intro identityMem
    refine ⟨key, ?_, identity, identityMem, rfl, rfl⟩
    refine AList.mem_keys.mp (AList.lookup_isSome.mp (Option.isSome_iff_ne_none.mpr ?_))
    intro missing
    rw [list_of_lookup_none missing] at identityMem
    cases identityMem

theorem Tidy.nodup_held {rts : Routes} (tidy : rts.Tidy) : rts.held.Nodup := by
  rw [held, List.nodup_flatMap]
  constructor
  · intro key _
    exact (noEqual_iff_nodup.mp (tidy.noEqual key)).map (Prod.mk_right_injective key)
  · refine rts.table.keys_nodup.imp ?_
    intro key other differ pair inFirst inSecond
    rcases List.mem_map.mp inFirst with ⟨_, _, rfl⟩
    rcases List.mem_map.mp inSecond with ⟨_, _, same⟩
    exact differ (congrArg Prod.fst same).symm

theorem Tidy.length_held_le {rts : Routes} (tidy : rts.Tidy) {pairs : List (Uri × Identity)}
    (within : ∀ pair ∈ rts.held, pair ∈ pairs) : rts.held.length ≤ pairs.dedup.length := by
  apply tidy.nodup_held.length_le_of_subset
  exact fun pair pairMem => List.mem_dedup.mpr (within pair pairMem)

theorem length_present {entries : List (Option Route)} (noNil : none ∉ entries) :
    (present entries).length = entries.length := by
  induction entries with
  | nil => rfl
  | cons entry entries inductionHypothesis =>
      rw [List.mem_cons, not_or] at noNil
      rcases Option.ne_none_iff_exists'.mp (Ne.symm noNil.1) with ⟨held, rfl⟩
      simpa [present] using inductionHypothesis noNil.2

/-- Without nil entries, every entry counts. -/
theorem entryCount_eq {rts : Routes} (noNil : ∀ key, none ∉ rts.list key) :
    rts.entryCount = rts.held.length := by
  simp [entryCount, held, List.length_flatMap, length_present (noNil _)]

end Routes

namespace RoutesFetcher

/-! ## Heartbeats -/

/-- What registrations of some pairs leave of a tidy table. -/
structure GrowsBy (pairs : List (Uri × Identity)) (rts after : Routes) : Prop where
  tidy : after.Tidy
  held : ∀ pair ∈ after.held, pair ∈ rts.held ∨ pair ∈ pairs
  nils : ∀ key, (after.list key).count none = (rts.list key).count none

theorem GrowsBy.trans {pairs more : List (Uri × Identity)} {rts middle after : Routes}
    (first : GrowsBy pairs rts middle) (second : GrowsBy more middle after) :
    GrowsBy (pairs ++ more) rts after where
  tidy := second.tidy
  held := by
    intro pair pairMem
    rw [List.mem_append]
    rcases second.held pair pairMem with inMiddle | inMore
    · rcases first.held pair inMiddle with old | new
      · exact Or.inl old
      · exact Or.inr (Or.inl new)
    · exact Or.inr (Or.inr inMore)
  nils key := (second.nils key).trans (first.nils key)

section

variable [GoRuntime]

/-- The pairs that a message names. -/
def pairsOf (msg : Message) : List (Uri × Identity) :=
  msg.uris.map fun uri => (uri.routeKey, msg.makeRoute.identity)

theorem growsBy_call {rts after : Routes} (tidy : rts.Tidy) {uri : Uri} {route : Route}
    (registers : rts.registerRoute uri (some route) = .ok after) :
    GrowsBy [(uri.routeKey, route.identity)] rts after := by
  rcases tidy.registerRoute uri route with ⟨other, otherRegisters, once, afterTidy, _⟩
  cases registers.symm.trans otherRegisters
  have own := Routes.list_registerRoute tidy.wellFormed registers
  refine ⟨afterTidy, ?_, ?_⟩
  · rintro ⟨key, identity⟩ pairMem
    rw [Routes.mem_held] at pairMem ⊢
    by_cases same : key = uri.routeKey
    · subst same
      simp only [own, Routes.present_registerEntries] at pairMem
      split at pairMem
      · exact Or.inl pairMem
      · simpa using pairMem
    · simp only [once.others key same] at pairMem
      exact Or.inl pairMem
  · intro key
    by_cases same : key = uri.routeKey
    · subst same
      rw [own, Routes.count_none_registerEntries]
    · rw [once.others key same]

theorem growsBy_calls {route : Route} {uris : List Uri} {rts after : Routes} (tidy : rts.Tidy)
    (folded : uris.foldlM (fun rts uri => rts.registerRoute uri (some route)) rts = .ok after) :
    GrowsBy (uris.map fun uri => (uri.routeKey, route.identity)) rts after := by
  induction uris generalizing rts with
  | nil =>
      cases folded
      exact ⟨tidy, fun _ => Or.inl, fun _ => rfl⟩
  | cons uri uris inductionHypothesis =>
      rcases tidy.registerRoute uri route with ⟨next, registers, _, nextTidy, _⟩
      rw [List.foldlM_cons, registers] at folded
      exact (growsBy_call tidy registers).trans (inductionHypothesis nextTidy folded)

/-- A message that is dropped changes nothing. -/
theorem growsBy_message {msg : Message} {rts after : Routes} (tidy : rts.Tidy)
    (registers : registerRoute rts msg = .ok after) : GrowsBy (pairsOf msg) rts after := by
  by_cases named : msg.tags.appID = []
  · have dropped : after = rts := by
      simp only [registerRoute, Message.makeRoute, named, if_true] at registers
      cases first : firstUri msg <;> rw [first] at registers <;> cases registers
      rfl
    subst dropped
    exact ⟨tidy, fun _ => Or.inl, fun _ => rfl⟩
  · rw [registerRoute_of_named named] at registers
    exact growsBy_calls tidy registers

theorem growsBy_messages {messages : List Message} {rts after : Routes} (tidy : rts.Tidy)
    (handled : messages.foldlM registerRoute rts = .ok after) :
    GrowsBy (messages.flatMap pairsOf) rts after := by
  induction messages generalizing rts with
  | nil =>
      cases handled
      exact ⟨tidy, fun _ => Or.inl, fun _ => rfl⟩
  | cons msg messages inductionHypothesis =>
      rw [List.foldlM_cons] at handled
      cases registers : registerRoute rts msg with
      | error panic =>
          rw [registers] at handled
          cases handled
      | ok next =>
          rw [registers] at handled
          have grows := growsBy_message tidy registers
          exact grows.trans (inductionHypothesis grows.tidy handled)

/-- What a table becomes by heartbeats: the pairs that are new in it were named by a message, and
each has one entry. -/
structure Bounded (messages : List Message) (rts after : Routes) : Prop where
  noEqual : ∀ key, Routes.NoEqual (after.list key)
  nils : ∀ key, (after.list key).count none = (rts.list key).count none
  held : after.held.length ≤ (rts.held ++ messages.flatMap pairsOf).dedup.length
  entries : (∀ key, none ∉ rts.list key) →
    after.entryCount ≤ (rts.held ++ messages.flatMap pairsOf).dedup.length

theorem bounded_of_growsBy {messages : List Message} {rts after : Routes}
    (grows : GrowsBy (messages.flatMap pairsOf) rts after) : Bounded messages rts after := by
  have bound : after.held.length ≤ (rts.held ++ messages.flatMap pairsOf).dedup.length := by
    refine grows.tidy.length_held_le fun pair pairMem => ?_
    exact List.mem_append.mpr (grows.held pair pairMem)
  refine ⟨grows.tidy.noEqual, grows.nils, bound, fun noNil => ?_⟩
  rw [Routes.entryCount_eq]
  · exact bound
  · intro key
    rw [← List.count_eq_zero, grows.nils, List.count_eq_zero]
    exact noNil key

/-- Registrations keep entries unique, lose none and are idempotent; and heartbeats make a table
grow by no more than the pairs they name, from the empty table on or from any other. -/
theorem heartbeats_bounded (rts : {rts : Routes // rts.WellFormed})
    (separate : rts.val.Separate) (noEqual : ∀ key, Routes.NoEqual (rts.val.list key)) :
    (∀ uri route, ∃ after, rts.val.registerRoute uri (some route) = .ok after ∧
        Routes.RegistersOnce rts.val uri route after ∧
        (∀ key, Routes.NoEqual (after.list key)) ∧
        after.registerRoute uri (some route) = .ok after) ∧
      (∀ messages after, messages.foldlM registerRoute rts.val = .ok after →
        Bounded messages rts.val after) ∧
      ∀ (messages : List Message) (after : Routes),
        messages.foldlM registerRoute Routes.empty = .ok after →
          after.entryCount ≤ (messages.flatMap pairsOf).dedup.length := by
  have tidy : rts.val.Tidy := ⟨rts.property, separate, noEqual⟩
  refine ⟨?_, ?_, ?_⟩
  · intro uri route
    rcases tidy.registerRoute uri route with ⟨after, registers, once, afterTidy, again⟩
    exact ⟨after, registers, once, afterTidy.noEqual, again⟩
  · intro messages after handled
    exact bounded_of_growsBy (growsBy_messages tidy handled)
  · intro messages after handled
    have bounded := bounded_of_growsBy (growsBy_messages Routes.tidy_empty handled)
    exact bounded.entries fun _ => List.not_mem_nil

end

theorem separate_plainTable : plainTable.val.Separate := by
  intro key other routes others found otherFound _
  rw [(eq_of_lookup_singleton found).1, (eq_of_lookup_singleton otherFound).1]

theorem noEqual_plainTable (key : Uri) : Routes.NoEqual (plainTable.val.list key) := by
  cases found : plainTable.val.table.lookup key with
  | none =>
      rw [Routes.list_of_lookup_none found]
      exact List.Pairwise.nil
  | some routes =>
      rw [Routes.list_of_lookup found, (eq_of_lookup_singleton found).2.symm]
      exact List.pairwise_singleton _ _

section

local instance asciiHeartbeats : GoRuntime := GoRuntime.ascii

/-- Three heartbeats of an instance, the last two after its app has been renamed, leave one
entry. -/
theorem heartbeats_bounded_sample : ∃ after,
    [plainMessage, renamedMessage, renamedMessage].foldlM registerRoute plainTable.val =
      .ok after ∧ after.entryCount = 1 ∧ Bounded [plainMessage, renamedMessage, renamedMessage]
        plainTable.val after := by
  have handled : ∃ after,
      [plainMessage, renamedMessage, renamedMessage].foldlM registerRoute plainTable.val =
        .ok after ∧ after.entryCount = 1 := ⟨_, rfl, by decide⟩
  rcases handled with ⟨after, handled, one⟩
  exact ⟨after, handled, one,
    (heartbeats_bounded plainTable separate_plainTable noEqual_plainTable).2.1 _ _ handled⟩

end

end RoutesFetcher

end Promfetcher
