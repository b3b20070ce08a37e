import Promfetcher.Models.Routes
import Mathlib.Data.List.Nodup
import Mathlib.Data.Set.Insert

/-!
# The table as a set of live registrations

What the route table is for: it remembers which endpoint is registered under
which key. The abstract state is a set of pairs of a route key and an identity;
a registration inserts a pair and an unregistration deletes it.

The table refines this set as long as `UnregisterRoute` never deletes an entry
under another URI than the key it found the entry under. A deletion for which
`uri` is not its own route key leaves a nil entry in the list it came from, and
makes the map hold the shortened list under `uri`.
-/

namespace Promfetcher

open Foundation

/-- The two operations on the table. -/
inductive Operation where
  | register
  | unregister
  deriving DecidableEq, Repr

/-- One call of `RegisterRoute` or `UnregisterRoute` with a route. -/
structure Call where
  operation : Operation
  uri : Uri
  route : Route
  deriving DecidableEq

namespace Routes

/-! ## Lists of entries and their identities -/

/-- The identities of the entries of a list, `none` for a nil entry. -/
def identities (entries : List (Option Route)) : List (Option Identity) :=
  entries.map (Option.map Route.identity)

/-- A list with one entry for each identity of a set, and no other entry. -/
structure Represents (entries : List (Option Route)) (live : Set Identity) : Prop where
  nodup : (identities entries).Nodup
  mem_iff : ∀ entry, entry ∈ identities entries ↔ ∃ identity ∈ live, entry = some identity

/-- What a registration does to the list under its key. -/
def registerEntries (route : Route) (entries : List (Option Route)) : List (Option Route) :=
  match updatePosition route entries with
  | some idx => entries.set idx (some route)
  | none => if entries.any route.equal then entries else entries ++ [some route]

/-- What an unregistration does to the list under its key, when it stores it back there. -/
def unregisterEntries (route : Route) (entries : List (Option Route)) : List (Option Route) :=
  match removePosition route entries with
  | some idx =>
      (entries.set idx (entries.getD (entries.length - 1) none)).take (entries.length - 1)
  | none => entries

theorem equal_eq_identity (route : Route) (entry : Option Route) :
    route.equal entry = true ↔ entry.map Route.identity = some route.identity := by
  cases entry with
  | none => simp
  | some other =>
      rw [Route.equal_some, Option.map_some, Option.some.injEq]
      exact eq_comm

theorem any_equal_iff (route : Route) (entries : List (Option Route)) :
    entries.any route.equal = true ↔ some route.identity ∈ identities entries := by
  simp only [List.any_eq_true, identities, List.mem_map, equal_eq_identity]

theorem identities_getElem_of_equal {route : Route} {entries : List (Option Route)} {idx : Nat}
    (inRange : idx < entries.length) (same : route.equal entries[idx] = true) :
    (identities entries)[idx]? = some (some route.identity) := by
  simpa [identities, inRange] using (equal_eq_identity route entries[idx]).mp same

theorem identities_registerEntries (route : Route) (entries : List (Option Route)) :
    identities (registerEntries route entries) =
      if some route.identity ∈ identities entries then identities entries
      else identities entries ++ [some route.identity] := by
  unfold registerEntries
  cases position : updatePosition route entries with
  | some idx =>
      rcases List.findIdx?_eq_some_iff_getElem.mp position with ⟨inRange, replaced, _⟩
      simp only [Bool.and_eq_true] at replaced
      have there := identities_getElem_of_equal inRange replaced.1
      rw [if_pos (List.mem_of_getElem? there)]
      simp only [identities, List.map_set, Option.map_some] at there ⊢
      rcases List.getElem?_eq_some_iff.mp there with ⟨inIdentities, there⟩
      rw [← there, List.set_getElem_self]
  | none =>
      by_cases seen : some route.identity ∈ identities entries
      · simp [(any_equal_iff route entries).mpr seen, seen]
      · have unseen : ¬ entries.any route.equal = true := fun any =>
          seen ((any_equal_iff route entries).mp any)
        simp only [unseen, if_neg seen]
        simp [identities]

theorem Represents.register {entries : List (Option Route)} {live : Set Identity}
    (represents : Represents entries live) (route : Route) :
    Represents (registerEntries route entries) (insert route.identity live) := by
  have present : some route.identity ∈ identities entries ↔ route.identity ∈ live := by
    rw [represents.mem_iff]
    simp
  constructor
  · rw [identities_registerEntries]
    split
    · exact represents.nodup
    · next absent =>
        rw [List.nodup_append]
        refine ⟨represents.nodup, List.nodup_singleton _, ?_⟩
        intro entry entryMem other otherMem equal
        rw [List.mem_singleton] at otherMem
        rw [equal, otherMem] at entryMem
        exact absent entryMem
  · intro entry
    rw [identities_registerEntries]
    split
    · next seen =>
        rw [represents.mem_iff, Set.insert_eq_of_mem (present.mp seen)]
    · rw [List.mem_append, represents.mem_iff, List.mem_singleton]
      simp only [Set.mem_insert_iff, exists_eq_or_imp]
      exact or_comm

/-- Swapping the last entry over the removed one removes one identity. -/
theorem identities_unregisterEntries_perm (route : Route) {entries : List (Option Route)}
    (nodup : (identities entries).Nodup) :
    (identities (unregisterEntries route entries)).Perm
      ((identities entries).erase (some route.identity)) := by
  unfold unregisterEntries
  cases position : removePosition route entries with
  | some idx =>
      rcases List.findIdx?_eq_some_iff_getElem.mp position with ⟨inRange, same, _⟩
      have there := identities_getElem_of_equal inRange same
      rcases List.getElem?_eq_some_iff.mp there with ⟨inIdentities, there⟩
      have swapped := (take_set_last_perm_eraseIdx none inRange).map
        (Option.map Route.identity)
      rw [← there, nodup.erase_getElem idx inIdentities]
      simpa [identities, List.eraseIdx_map] using swapped
  | none =>
      have absent : some route.identity ∉ identities entries := by
        rw [← any_equal_iff]
        simpa [removePosition] using position
      rw [List.erase_of_not_mem absent]

theorem Represents.unregister {entries : List (Option Route)} {live : Set Identity}
    (represents : Represents entries live) (route : Route) :
    Represents (unregisterEntries route entries) (live \ {route.identity}) := by
  have swapped := identities_unregisterEntries_perm route represents.nodup
  constructor
  · exact swapped.nodup_iff.mpr (represents.nodup.erase _)
  · intro entry
    rw [swapped.mem_iff, represents.nodup.mem_erase_iff, represents.mem_iff]
    constructor
    · rintro ⟨different, identity, isLive, rfl⟩
      exact ⟨identity, ⟨isLive, fun equal => different (by rw [equal])⟩, rfl⟩
    · rintro ⟨identity, ⟨isLive, different⟩, rfl⟩
      exact ⟨fun equal => different (Option.some.inj equal), identity, isLive, rfl⟩

/-! ## Lists of a table -/

/-- No two keys of the table share an array. -/
def Separate (rts : Routes) : Prop :=
  ∀ key other routes others, rts.table.lookup key = some routes →
    rts.table.lookup other = some others → routes.array = others.array → key = other

theorem list_of_lookup {rts : Routes} {key : Uri} {routes : Slice}
    (found : rts.table.lookup key = some routes) : rts.list key = rts.heap.read routes := by
  simp [list, found]

theorem list_of_lookup_none {rts : Routes} {key : Uri} (missing : rts.table.lookup key = none) :
    rts.list key = [] := by
  simp [list, missing]

theorem list_insert {rts : Routes} {heap : Heap (Option Route)} {routekey : Uri} {routes : Slice}
    (kept : ∀ key others, key ≠ routekey → rts.table.lookup key = some others →
      heap.read others = rts.heap.read others) (key : Uri) :
    (⟨heap, rts.table.insert routekey routes⟩ : Routes).list key =
      if key = routekey then heap.read routes else rts.list key := by
  by_cases same : key = routekey
  · subst key
    simp [list]
  · rw [if_neg same]
    cases found : rts.table.lookup key with
    | none => simp [list, AList.lookup_insert_ne same, found]
    | some others => simp [list, AList.lookup_insert_ne same, found, kept key others same found]

theorem Separate.insert {rts : Routes} (separate : rts.Separate) {heap : Heap (Option Route)}
    {routekey : Uri} {routes : Slice}
    (apart : ∀ key others, key ≠ routekey → rts.table.lookup key = some others →
      others.array ≠ routes.array) :
    (⟨heap, rts.table.insert routekey routes⟩ : Routes).Separate := by
  intro key other slice others lookup otherLookup shared
  by_cases first : key = routekey <;> by_cases second : other = routekey
  · rw [first, second]
  · rw [first, AList.lookup_insert, Option.some.injEq] at lookup
    rw [AList.lookup_insert_ne second] at otherLookup
    subst lookup
    exact absurd shared.symm (apart other others second otherLookup)
  · rw [second, AList.lookup_insert, Option.some.injEq] at otherLookup
    rw [AList.lookup_insert_ne first] at lookup
    subst otherLookup
    exact absurd shared (apart key slice first lookup)
  · rw [AList.lookup_insert_ne first] at lookup
    rw [AList.lookup_insert_ne second] at otherLookup
    exact separate key other slice others lookup otherLookup shared

section Registration

variable [GoRuntime] {rts : Routes} {routekey : Uri} {routes : Slice}

theorem list_registered (wellFormed : rts.WellFormed) (separate : rts.Separate)
    (found : rts.table.lookup routekey = some routes) (route : Route) (key : Uri) :
    (rts.registered routekey routes route).list key =
      if key = routekey then registerEntries route (rts.list routekey) else rts.list key := by
  have here := list_of_lookup found
  unfold registered registerEntries
  rw [here]
  cases position : updatePosition route (rts.heap.read routes) with
  | some idx =>
      by_cases same : key = routekey
      · subst key
        simp [list, found, Heap.read_write]
      · rw [if_neg same]
        cases lookup : rts.table.lookup key with
        | none => simp [list, lookup]
        | some others =>
            have apart : others.array ≠ routes.array := fun equal =>
              same (separate key routekey others routes lookup found equal)
            simp [list, lookup, Heap.read_write, apart]
  | none =>
      by_cases seen : (rts.heap.read routes).any route.equal = true
      · simp only [seen, if_true]
        split
        · next same => rw [same, here]
        · rfl
      · simp only [seen]
        apply (list_insert ?_ key).trans
        · rw [Heap.read_append (wellFormed _ _ found)]
          rfl
        · intro other others different lookup
          apply Heap.read_append_of_not_covered (wellFormed _ _ lookup)
          rintro - ⟨equal, _⟩
          exact different (separate other routekey others routes lookup found equal)

theorem list_registeredFirst (wellFormed : rts.WellFormed)
    (missing : rts.table.lookup routekey = none) (route : Route) (key : Uri) :
    (rts.registeredFirst routekey route).list key =
      if key = routekey then registerEntries route (rts.list routekey) else rts.list key := by
  unfold registeredFirst
  apply (list_insert ?_ key).trans
  · rw [Heap.read_append (Heap.backs_make rts.heap), list_of_lookup_none missing]
    simp [registerEntries, updatePosition]
  · intro other others _ lookup
    have backs := wellFormed other others lookup
    have noRoom : ¬rts.heap.make.2.length < rts.heap.make.2.capacity := by simp
    rw [Heap.read_append_of_not_covered backs.make_of_backs fun room => absurd room noRoom]
    exact Heap.read_make_of_backs backs

theorem Separate.registered (wellFormed : rts.WellFormed) (separate : rts.Separate)
    (found : rts.table.lookup routekey = some routes) (route : Route) :
    (rts.registered routekey routes route).Separate := by
  unfold Routes.registered
  split
  · exact separate
  · split
    · exact separate
    · apply separate.insert
      intro other others different lookup
      rcases Heap.array_append rts.heap routes (some route) with equal | fresh
      · rw [equal]
        exact fun shared => different (separate other routekey others routes lookup found shared)
      · rw [fresh]
        exact (wellFormed other others lookup).allocated.ne

theorem Separate.registeredFirst (wellFormed : rts.WellFormed) (separate : rts.Separate)
    (routekey : Uri) (route : Route) : (rts.registeredFirst routekey route).Separate := by
  unfold Routes.registeredFirst
  apply separate.insert
  intro other others _ lookup
  rw [Heap.array_append_make]
  have := (wellFormed other others lookup).allocated
  omega

end Registration

/-! ## Unregistration under the key of the list -/

section Unregistration

variable {rts : Routes} {routekey : Uri} {routes : Slice}

theorem list_removed (separate : rts.Separate)
    (found : rts.table.lookup routekey = some routes) (wellFormed : rts.WellFormed)
    {route : Route} {idx : Nat}
    (position : removePosition route (rts.list routekey) = some idx) (key : Uri) :
    (rts.removed routekey routes idx).list key =
      if key = routekey then unregisterEntries route (rts.list routekey) else rts.list key := by
  have here := list_of_lookup found
  have lengthRead := (wellFormed _ _ found).length_read
  rw [here] at position
  unfold removed
  apply (list_insert ?_ key).trans
  · rw [here, unregisterEntries, position]
    simp only [Heap.read_truncate (Nat.sub_le _ _), Heap.read_write, if_true, lengthRead]
    rw [List.take_set_of_le le_rfl]
  · intro other others different lookup
    have apart : others.array ≠ routes.array := fun equal =>
      different (separate other routekey others routes lookup found equal)
    simp [Heap.read_write, apart]

theorem Separate.removed (separate : rts.Separate)
    (found : rts.table.lookup routekey = some routes) (idx : Nat) :
    (rts.removed routekey routes idx).Separate := by
  unfold Routes.removed
  apply separate.insert
  intro other others different lookup shared
  exact different (separate other routekey others routes lookup found shared)

end Unregistration

/-! ## Refinement -/

/-- What a table shows of the set of live registrations, for the keys registered so far. -/
structure Tracks (rts : Routes) (keys : Set Uri) (live : Set (Uri × Identity)) : Prop where
  key_mem : ∀ key ∈ rts.table, key ∈ keys
  represents : ∀ key, Represents (rts.list key) {identity | (key, identity) ∈ live}

/-- The refinement relation: what the table shows, and how its slices lie on the heap. -/
structure Refines (rts : Routes) (keys : Set Uri) (live : Set (Uri × Identity)) : Prop where
  tracks : rts.Tracks keys live
  wellFormed : rts.WellFormed
  separate : rts.Separate

theorem refines_empty : empty.Refines ∅ ∅ where
  tracks :=
    { key_mem := by intro key present; simp [empty] at present
      represents := by
        intro key
        constructor <;> simp [list, empty, identities] }
  wellFormed := wellFormed_empty
  separate := by
    intro key other routes others found
    simp [empty] at found

end Routes

namespace Call

variable [GoRuntime]

/-- The table after a call. -/
def apply (call : Call) (rts : Routes) : Except Panic Routes :=
  match call.operation with
  | .register => rts.registerRoute call.uri (some call.route)
  | .unregister => rts.unregisterRoute call.uri (some call.route)

/-- What the call registers or unregisters: an identity under a key. -/
def pair (call : Call) : Uri × Identity :=
  (call.uri.routeKey, call.route.identity)

/-- The live pairs after a call. -/
def updateLive (call : Call) (live : Set (Uri × Identity)) : Set (Uri × Identity) :=
  match call.operation with
  | .register => insert call.pair live
  | .unregister => live \ {call.pair}

/-- The keys under which something has been registered, after a call. -/
def updateKeys (call : Call) (keys : Set Uri) : Set Uri :=
  match call.operation with
  | .register => insert call.uri.routeKey keys
  | .unregister => keys

/-- A call that does not take the branch of `UnregisterRoute` that stores under another key: it is
a registration, or its URI is its own route key, or there is nothing to delete. -/
def Clean (call : Call) (rts : Routes) : Prop :=
  call.operation = .unregister → call.uri.routeKey = call.uri ∨
    ∀ entry ∈ rts.list call.uri.routeKey, call.route.equal entry = false

/-- A call that changes the list under its own key only needs to be looked at there. -/
theorem tracks_of_lists {call : Call} {rts after : Routes} {keys keysAfter : Set Uri}
    {live liveAfter : Set (Uri × Identity)} {entries : List (Option Route)}
    (tracks : rts.Tracks keys live) (table : ∀ key ∈ after.table, key ∈ keysAfter)
    (lists : ∀ key, after.list key =
      if key = call.uri.routeKey then entries else rts.list key)
    (own : Routes.Represents entries {identity | (call.uri.routeKey, identity) ∈ liveAfter})
    (others : ∀ key, key ≠ call.uri.routeKey →
      ∀ identity, (key, identity) ∈ liveAfter ↔ (key, identity) ∈ live) :
    after.Tracks keysAfter liveAfter where
  key_mem := table
  represents := by
    intro key
    rw [lists]
    by_cases same : key = call.uri.routeKey
    · subst key
      rw [if_pos rfl]
      exact own
    · rw [if_neg same]
      simpa only [others key same] using tracks.represents key

theorem refines_register {call : Call} {rts : Routes} {keys : Set Uri}
    {live : Set (Uri × Identity)} (refines : rts.Refines keys live)
    {after : Routes} (wellFormed : after.WellFormed) (separate : after.Separate)
    (table : ∀ key, key ∈ after.table → key = call.uri.routeKey ∨ key ∈ rts.table)
    (lists : ∀ key, after.list key = if key = call.uri.routeKey then
      Routes.registerEntries call.route (rts.list call.uri.routeKey) else rts.list key) :
    after.Refines (insert call.uri.routeKey keys) (insert call.pair live) := by
  refine ⟨tracks_of_lists refines.tracks ?_ lists ?_ ?_, wellFormed, separate⟩
  · intro key present
    rcases table key present with rfl | old
    · exact Set.mem_insert _ _
    · exact Set.mem_insert_of_mem _ (refines.tracks.key_mem key old)
  · convert (refines.tracks.represents call.uri.routeKey).register call.route using 1
    ext identity
    simp [pair]
  · intro key other identity
    simp [pair, other]

theorem refines_unregister {call : Call} {rts : Routes} {keys : Set Uri}
    {live : Set (Uri × Identity)} (refines : rts.Refines keys live)
    {after : Routes} (wellFormed : after.WellFormed) (separate : after.Separate)
    (table : ∀ key, key ∈ after.table → key ∈ rts.table)
    (lists : ∀ key, after.list key = if key = call.uri.routeKey then
      Routes.unregisterEntries call.route (rts.list call.uri.routeKey) else rts.list key) :
    after.Refines keys (live \ {call.pair}) := by
  refine ⟨tracks_of_lists refines.tracks ?_ lists ?_ ?_, wellFormed, separate⟩
  · intro key present
    exact refines.tracks.key_mem key (table key present)
  · convert (refines.tracks.represents call.uri.routeKey).unregister call.route using 1
    ext identity
    simp [pair]
  · intro key other identity
    simp [pair, other]

theorem registerRoute_refines {call : Call} {rts : Routes} {keys : Set Uri}
    {live : Set (Uri × Identity)} (refines : rts.Refines keys live) :
    ∃ after, rts.registerRoute call.uri (some call.route) = .ok after ∧
      after.Refines (insert call.uri.routeKey keys) (insert call.pair live) := by
  have wellFormed := refines.wellFormed
  have separate := refines.separate
  refine ⟨_, Routes.registerRoute_eq wellFormed call.uri call.route, ?_⟩
  cases found : rts.table.lookup call.uri.routeKey with
  | some routes =>
      refine refines_register refines (wellFormed.registered found call.route)
        (separate.registered wellFormed found call.route) ?_
        (Routes.list_registered wellFormed separate found call.route)
      intro key present
      simp only [Routes.registered] at present
      split at present
      · exact Or.inr present
      · split at present
        · exact Or.inr present
        · exact (AList.mem_insert _).mp present
  | none =>
      refine refines_register refines (wellFormed.registeredFirst _ call.route)
        (separate.registeredFirst wellFormed _ call.route) ?_
        (Routes.list_registeredFirst wellFormed found call.route)
      exact fun key present => (AList.mem_insert _).mp present

theorem removed_refines {call : Call} {rts : Routes} {keys : Set Uri}
    {live : Set (Uri × Identity)} (refines : rts.Refines keys live) {routes : Slice} {idx : Nat}
    (found : rts.table.lookup call.uri.routeKey = some routes)
    (position : Routes.removePosition call.route (rts.list call.uri.routeKey) = some idx) :
    (rts.removed call.uri.routeKey routes idx).Refines keys (live \ {call.pair}) := by
  refine refines_unregister refines (refines.wellFormed.removed found _ idx)
    (refines.separate.removed found idx) ?_
    (Routes.list_removed refines.separate found refines.wellFormed position)
  intro key present
  rcases (AList.mem_insert _).mp present with rfl | old
  · exact AList.lookup_isSome.mp (by rw [found]; rfl)
  · exact old

theorem refines_of_absent {call : Call} {rts : Routes} {keys : Set Uri}
    {live : Set (Uri × Identity)} (refines : rts.Refines keys live)
    (absent : Routes.removePosition call.route (rts.list call.uri.routeKey) = none) :
    rts.Refines keys (live \ {call.pair}) := by
  refine refines_unregister refines refines.wellFormed refines.separate
    (fun _ present => present) ?_
  intro key
  simp only [Routes.unregisterEntries, absent]
  split
  · next same => rw [same]
  · rfl

theorem unregisterRoute_refines {call : Call} {rts : Routes} {keys : Set Uri}
    {live : Set (Uri × Identity)} (refines : rts.Refines keys live)
    (clean : call.uri.routeKey = call.uri ∨
      ∀ entry ∈ rts.list call.uri.routeKey, call.route.equal entry = false) :
    ∃ after, rts.unregisterRoute call.uri (some call.route) = .ok after ∧
      after.Refines keys (live \ {call.pair}) := by
  refine ⟨_, Routes.unregisterRoute_eq refines.wellFormed call.uri call.route, ?_⟩
  cases found : rts.table.lookup call.uri.routeKey with
  | none =>
      apply refines_of_absent refines
      rw [Routes.list_of_lookup_none found]
      rfl
  | some routes =>
      simp only [← Routes.list_of_lookup found]
      cases position : Routes.removePosition call.route (rts.list call.uri.routeKey) with
      | none => simpa only [position] using refines_of_absent refines position
      | some idx =>
          have own : call.uri.routeKey = call.uri := by
            rcases clean with own | nothing
            · exact own
            · rcases List.findIdx?_eq_some_iff_getElem.mp position with ⟨inRange, equal, _⟩
              exact absurd (nothing _ (List.getElem_mem inRange)) (by simp [equal])
          have removed := removed_refines refines found position
          rw [own] at removed
          simpa only [position] using removed

theorem apply_refines {call : Call} {rts : Routes} {keys : Set Uri} {live : Set (Uri × Identity)}
    (refines : rts.Refines keys live) (clean : call.Clean rts) :
    ∃ after, call.apply rts = .ok after ∧
      after.Refines (call.updateKeys keys) (call.updateLive live) := by
  unfold apply updateKeys updateLive
  cases operation : call.operation with
  | register => exact registerRoute_refines refines
  | unregister => exact unregisterRoute_refines refines (clean operation)

/-- A call that is not clean leaves a nil entry under its route key. -/
theorem none_mem_of_not_clean {call : Call} {rts after : Routes} (wellFormed : rts.WellFormed)
    (unclean : ¬call.Clean rts) (applied : call.apply rts = .ok after) :
    none ∈ after.list call.uri.routeKey := by
  simp only [Clean, not_or, not_forall, Bool.not_eq_false] at unclean
  rcases unclean with ⟨operation, foreign, entry, entryMem, equal⟩
  simp only [apply, operation, Routes.unregisterRoute_eq wellFormed] at applied
  cases found : rts.table.lookup call.uri.routeKey with
  | none => simp [Routes.list_of_lookup_none found] at entryMem
  | some routes =>
      rw [Routes.list_of_lookup found] at entryMem
      cases position : Routes.removePosition call.route (rts.heap.read routes) with
      | none =>
          have absent := List.findIdx?_eq_none_iff.mp position entry entryMem
          exact absurd equal (by simp [absent])
      | some idx =>
          simp only [found, position, Except.ok.injEq] at applied
          subst applied
          have lengthRead := (wellFormed _ _ found).length_read
          have positive : 0 < routes.length := by
            rw [← lengthRead]
            exact List.length_pos_of_mem entryMem
          have kept : (rts.removed call.uri routes idx).table.lookup call.uri.routeKey =
              some routes := by
            simp only [Routes.removed]
            rw [AList.lookup_insert_ne foreign, found]
          rw [Routes.list_of_lookup kept]
          simp only [Routes.removed, Heap.read_write, if_true]
          refine List.mem_iff_getElem.mpr ⟨routes.length - 1, ?_, ?_⟩
          · simp
            omega
          · simp

end Call

namespace Routes

variable [GoRuntime]

/-- The table after calls in order. -/
def run (rts : Routes) (calls : List Call) : Except Panic Routes :=
  calls.foldlM (fun rts call => call.apply rts) rts

/-- Every call of the run is clean in the state in which it is made. -/
def CleanRun : Routes → List Call → Prop
  | _, [] => True
  | rts, call :: calls =>
      call.Clean rts ∧ ∀ after, call.apply rts = .ok after → CleanRun after calls

theorem CleanRun.of_append {rts : Routes} {calls more : List Call}
    (clean : rts.CleanRun (calls ++ more)) : rts.CleanRun calls := by
  induction calls generalizing rts with
  | nil => trivial
  | cons call calls inductionHypothesis =>
      exact ⟨clean.1, fun after applied => inductionHypothesis (clean.2 after applied)⟩

theorem run_refines {rts : Routes} {calls : List Call} {keys : Set Uri}
    {live : Set (Uri × Identity)} (refines : rts.Refines keys live) (clean : rts.CleanRun calls) :
    ∃ after, rts.run calls = .ok after ∧
      after.Refines (calls.foldl (fun keys call => call.updateKeys keys) keys)
        (calls.foldl (fun live call => call.updateLive live) live) := by
  induction calls generalizing rts keys live with
  | nil => exact ⟨rts, rfl, refines⟩
  | cons call calls inductionHypothesis =>
      rcases Call.apply_refines refines clean.1 with ⟨next, applied, nextRefines⟩
      rcases inductionHypothesis nextRefines (clean.2 next applied) with ⟨after, ran, afterRefines⟩
      refine ⟨after, ?_, afterRefines⟩
      simp only [run, List.foldlM_cons, applied] at ran ⊢
      exact ran

omit [GoRuntime] in
theorem Represents.none_not_mem {entries : List (Option Route)} {live : Set Identity}
    (represents : Represents entries live) : none ∉ entries := by
  intro present
  have listed : none ∈ identities entries := List.mem_map.mpr ⟨none, present, rfl⟩
  rcases (represents.mem_iff none).mp listed with ⟨_, _, impossible⟩
  cases impossible

theorem cleanRun_of_tracks {rts : Routes} {calls : List Call} {keys : Set Uri}
    {live : Set (Uri × Identity)} (refines : rts.Refines keys live)
    (tracks : ∀ made, made <+: calls → ∃ after, rts.run made = .ok after ∧
      after.Tracks (made.foldl (fun keys call => call.updateKeys keys) keys)
        (made.foldl (fun live call => call.updateLive live) live)) :
    rts.CleanRun calls := by
  induction calls generalizing rts keys live with
  | nil => trivial
  | cons call calls inductionHypothesis =>
      have clean : call.Clean rts := by
        rcases tracks [call] ⟨calls, rfl⟩ with ⟨after, ran, afterTracks⟩
        have applied : call.apply rts = .ok after := by
          simpa only [run, List.foldlM_cons, List.foldlM_nil, bind_pure] using ran
        by_contra unclean
        exact (afterTracks.represents _).none_not_mem
          (Call.none_mem_of_not_clean refines.wellFormed unclean applied)
      refine ⟨clean, ?_⟩
      intro next applied
      rcases Call.apply_refines refines clean with ⟨after, appliedAfter, afterRefines⟩
      rw [applied, Except.ok.injEq] at appliedAfter
      subst appliedAfter
      apply inductionHypothesis afterRefines
      rintro made ⟨more, rfl⟩
      rcases tracks (call :: made) ⟨more, rfl⟩ with ⟨after, ran, afterTracks⟩
      refine ⟨after, ?_, afterTracks⟩
      simp only [run, List.foldlM_cons, applied] at ran ⊢
      exact ran

/-- The table shows the live registrations after every call of a run exactly if every call of
the run is clean. -/
theorem tracks_iff_cleanRun (calls : List Call) :
    (∀ made, made <+: calls → ∃ rts, empty.run made = .ok rts ∧
      rts.Tracks (made.foldl (fun keys call => call.updateKeys keys) ∅)
        (made.foldl (fun live call => call.updateLive live) ∅)) ↔ empty.CleanRun calls := by
  constructor
  · exact cleanRun_of_tracks refines_empty
  · rintro clean made ⟨more, rfl⟩
    rcases run_refines refines_empty clean.of_append with ⟨rts, ran, refines⟩
    exact ⟨rts, ran, refines.tracks⟩

end Routes

end Promfetcher
