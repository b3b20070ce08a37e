import Promfetcher.Foundation.Transition
import Promfetcher.Models.LiveRoutes
import Promfetcher.Models.Lookup

/-!
# The slices of metrics requests

`FindByRouteName` returns the slice of the table without copying it, and the lock
is released with the lookup. `Metrics` then appends the routes of the external
exporters to that slice and sends its elements to the workers, while the table
goes on changing its arrays in place.

The model interleaves any number of requests with the calls of the routes
fetcher. A request remembers, besides its slice, which routes it found at the
lookup and which it appended. The world remembers which cells of arrays in use
have been written by the append of a request.
-/

namespace Promfetcher

open Foundation

namespace RequestSlices

/-- Where a request stands in `Metrics`. -/
inductive Phase where
  | appending
  /-- In the range over `routes`, before the element with this index is sent. -/
  | sending (next : Nat)
  | finished
  deriving DecidableEq, Repr

/-- A metrics request after its lookup. -/
structure Request where
  slice : Slice
  phase : Phase
  /-- The non-nil routes present under the key at the time of the lookup. -/
  found : List Route
  /-- The routes of exporters appended so far. -/
  appended : List Route
  sent : List (Option Route)

/-- The table, the requests, and the cells written by appends of requests: the request, the array
and the index. -/
structure World where
  routes : Routes
  requests : Nat → Option Request
  overwritten : List (Nat × Nat × Nat)

/-- One step of the table or of a request. -/
inductive Event where
  /-- `RegisterRoute` or `UnregisterRoute`, under the lock. -/
  | call (call : Call)
  /-- The lookup of a new request, under the lock. -/
  | lookup (request : Nat) (routeName : GoString)
  /-- `routes = append(routes, routeExternalExporter)`. -/
  | append (request : Nat) (routeExternalExporter : Route)
  /-- `jobs <- route`. -/
  | send (request : Nat)

/-- The table is empty, and nobody has asked for anything. -/
def World.initial : World :=
  ⟨Routes.empty, fun _ => none, []⟩

/-- The phase after the element with index `next` of `length` elements has been sent. -/
def Phase.afterSend (next length : Nat) : Phase :=
  if next + 1 < length then .sending (next + 1) else .finished

/-- The position from which on the routes have not been sent. -/
def Phase.nextIndex : Phase → Option Nat
  | .appending => some 0
  | .sending next => some next
  | .finished => none

/-- The cell of an array in use, as the array and the index, that the append of a request writes. -/
def Request.overwrites (request : Request) : List (Nat × Nat) :=
  if request.slice.length < request.slice.capacity then
    [(request.slice.array, request.slice.length)]
  else []

section Steps

variable [GoRuntime]

/-- The world after an event, if the event can happen. A lookup that finds no route makes `Metrics`
return, so that no request goes on. -/
def World.next (world : World) : Event → Option World
  | .call call =>
      match call.apply world.routes with
      | .ok routes => some { world with routes := routes }
      | .error _ => none
  | .lookup id routeName =>
      match world.requests id, world.routes.findByRouteName routeName with
      | none, some slice =>
          if slice.length = 0 then none
          else
            let request : Request :=
              { slice := slice
                phase := .appending
                found := (world.routes.heap.read slice).filterMap fun entry => entry
                appended := []
                sent := [] }
            some { world with requests := Function.update world.requests id (some request) }
      | _, _ => none
  | .append id routeExternalExporter =>
      match world.requests id with
      | none => none
      | some request =>
          if request.phase = .appending then
            let (heap, slice) :=
              world.routes.heap.append request.slice (some routeExternalExporter)
            let grown :=
              { request with
                slice := slice
                appended := request.appended ++ [routeExternalExporter] }
            some
              { routes := { world.routes with heap := heap }
                requests := Function.update world.requests id (some grown)
                overwritten := world.overwritten ++ request.overwrites.map fun cell => (id, cell) }
          else none
  | .send id =>
      match world.requests id with
      | none => none
      | some request =>
          match request.phase.nextIndex with
          | none => none
          | some next =>
              match world.routes.heap.index request.slice next with
              | .error _ => none
              | .ok cell =>
                  let request :=
                    { request with
                      phase := Phase.afterSend next request.slice.length
                      sent := request.sent ++ [cell] }
                  some { world with requests := Function.update world.requests id (some request) }

end Steps

/-! ## Cells that a call of the routes fetcher writes -/

/-- The allocated cells, as arrays and indices, that a call writes in place. -/
def overwrites [GoRuntime] (call : Call) (rts : Routes) : List (Nat × Nat) :=
  match rts.table.lookup call.uri.routeKey with
  | none => []
  | some routes =>
      let entries := rts.heap.read routes
      match call.operation with
      | .register =>
          match Routes.updatePosition call.route entries with
          | some idx => [(routes.array, idx)]
          | none =>
              if entries.any call.route.equal = false ∧ routes.length < routes.capacity then
                [(routes.array, routes.length)]
              else []
      | .unregister =>
          match Routes.removePosition call.route entries with
          | some idx => [(routes.array, idx), (routes.array, routes.length - 1)]
          | none => []

/-- The slice shows the cell. -/
def Covers (slice : Slice) (cell : Nat × Nat) : Prop :=
  slice.array = cell.1 ∧ cell.2 < slice.length

instance (slice : Slice) (cell : Nat × Nat) : Decidable (Covers slice cell) :=
  inferInstanceAs (Decidable (_ ∧ _))

section Calls

variable [GoRuntime] {call : Call} {rts after : Routes}

/-- What a call does to the table, with what each case needs. -/
inductive Changes (call : Call) (rts : Routes) : Routes → Prop where
  | kept : Changes call rts rts
  | first (operation : call.operation = .register)
      (absent : rts.table.lookup call.uri.routeKey = none) :
      Changes call rts (rts.registeredFirst call.uri.routeKey call.route)
  | replaced {routes : Slice} {idx : Nat} (operation : call.operation = .register)
      (found : rts.table.lookup call.uri.routeKey = some routes)
      (position : Routes.updatePosition call.route (rts.heap.read routes) = some idx) :
      Changes call rts ⟨rts.heap.write routes.array idx (some call.route), rts.table⟩
  | appended {routes : Slice} (operation : call.operation = .register)
      (found : rts.table.lookup call.uri.routeKey = some routes)
      (position : Routes.updatePosition call.route (rts.heap.read routes) = none)
      (unseen : (rts.heap.read routes).any call.route.equal = false) :
      Changes call rts
        ⟨(rts.heap.append routes (some call.route)).1,
          rts.table.insert call.uri.routeKey (rts.heap.append routes (some call.route)).2⟩
  | removed {routes : Slice} {idx : Nat} (operation : call.operation = .unregister)
      (found : rts.table.lookup call.uri.routeKey = some routes)
      (position : Routes.removePosition call.route (rts.heap.read routes) = some idx) :
      Changes call rts (rts.removed call.uri routes idx)

theorem changes_of_apply (wellFormed : rts.WellFormed) (applied : call.apply rts = .ok after) :
    Changes call rts after := by
  cases operation : call.operation with
  | register =>
      simp only [Call.apply, operation] at applied
      cases Routes.registers_of_registerRoute wellFormed applied with
      | first absent => exact .first operation absent
      | replaced found position => exact .replaced operation found position
      | kept => exact .kept
      | appended found position unseen => exact .appended operation found position unseen
  | unregister =>
      simp only [Call.apply, operation, Routes.unregisterRoute_eq wellFormed, Except.ok.injEq]
        at applied
      subst applied
      cases found : rts.table.lookup call.uri.routeKey with
      | none => exact .kept
      | some routes =>
          cases position : Routes.removePosition call.route (rts.heap.read routes) with
          | none =>
              simp only [position]
              exact .kept
          | some idx =>
              simp only [position]
              exact .removed operation found position

theorem call_frame (wellFormed : rts.WellFormed) (applied : call.apply rts = .ok after)
    {slice : Slice} (backs : rts.heap.Backs slice)
    (outside : ∀ cell ∈ overwrites call rts, ¬Covers slice cell) :
    after.heap.Backs slice ∧ after.heap.read slice = rts.heap.read slice := by
  cases changes_of_apply wellFormed applied with
  | kept => exact ⟨backs, rfl⟩
  | first =>
      have noRoom : ¬rts.heap.make.2.length < rts.heap.make.2.capacity := by simp
      refine ⟨backs.make_of_backs.append_of_backs _, ?_⟩
      rw [Routes.registeredFirst,
        Heap.read_append_of_not_covered backs.make_of_backs fun room => absurd room noRoom]
      exact Heap.read_make_of_backs backs
  | replaced operation found position =>
      simp only [overwrites, operation, found, position, List.mem_singleton, forall_eq] at outside
      exact ⟨backs.write _ _ _, Heap.read_write_of_not_covered outside⟩
  | appended operation found position unseen =>
      refine ⟨backs.append_of_backs _, Heap.read_append_of_not_covered backs fun room => ?_⟩
      simp only [overwrites, operation, found, position, unseen, room, and_self, if_true,
        List.mem_singleton, forall_eq] at outside
      exact outside
  | removed operation found position =>
      simp only [overwrites, operation, found, position, List.mem_cons, List.not_mem_nil,
        or_false, forall_eq_or_imp, forall_eq] at outside
      refine ⟨(backs.write _ _ _).write _ _ _, ?_⟩
      rw [Routes.removed, Heap.read_write_of_not_covered outside.2,
        Heap.read_write_of_not_covered outside.1]

theorem call_wellFormed (wellFormed : rts.WellFormed) (applied : call.apply rts = .ok after) :
    after.WellFormed := by
  have keeps : ∃ next, call.apply rts = .ok next ∧ next.WellFormed := by
    unfold Call.apply
    cases call.operation with
    | register => exact Routes.registerRoute_wellFormed wellFormed _ _
    | unregister => exact Routes.unregisterRoute_wellFormed wellFormed _ _
  rcases keeps with ⟨next, appliedNext, nextWellFormed⟩
  rw [applied, Except.ok.injEq] at appliedNext
  rwa [appliedNext]

/-- A slice of the table shows cells that a slice of the table showed before, cells that the call
has written, and cells of new arrays. -/
theorem covers_of_call (wellFormed : rts.WellFormed) (applied : call.apply rts = .ok after)
    {key : Uri} {slice : Slice} (lookup : after.table.lookup key = some slice)
    {cell : Nat × Nat} (covers : Covers slice cell) :
    (∃ old routes, rts.table.lookup old = some routes ∧ Covers routes cell) ∨
      cell ∈ overwrites call rts ∨ rts.heap.arrays.length ≤ cell.1 := by
  have same (known : rts.table.lookup key = some slice) :
      ∃ old routes, rts.table.lookup old = some routes ∧ Covers routes cell :=
    ⟨key, slice, known, covers⟩
  cases changes_of_apply wellFormed applied with
  | kept => exact Or.inl (same lookup)
  | first =>
      rcases lookup_insert_cases lookup with rfl | known
      · right; right
        rw [← covers.1, Heap.array_append_make]
        omega
      · exact Or.inl (same known)
  | replaced => exact Or.inl (same lookup)
  | @appended routes operation found position unseen =>
      rcases lookup_insert_cases lookup with rfl | known
      · rcases Heap.append_cases rts.heap routes (some call.route) with
          ⟨room, grown⟩ | ⟨_, grown⟩
        · rw [grown] at covers
          by_cases last : cell.2 = routes.length
          · right; left
            simp only [overwrites, operation, found, position, unseen, room, and_self, if_true,
              List.mem_singleton]
            exact Prod.ext covers.1.symm last
          · have inner : cell.2 < routes.length + 1 := covers.2
            exact Or.inl ⟨_, routes, found, covers.1, by omega⟩
        · rw [grown] at covers
          exact Or.inr (Or.inr covers.1.le)
      · exact Or.inl (same known)
  | @removed routes idx operation found position =>
      rcases lookup_insert_cases lookup with rfl | known
      · have inner : cell.2 < routes.length - 1 := covers.2
        exact Or.inl ⟨_, routes, found, covers.1, by omega⟩
      · exact Or.inl (same known)

theorem arrays_length_le_call (wellFormed : rts.WellFormed) (applied : call.apply rts = .ok after) :
    rts.heap.arrays.length ≤ after.heap.arrays.length := by
  cases changes_of_apply wellFormed applied with
  | kept => exact le_rfl
  | first =>
      have made : rts.heap.arrays.length ≤ rts.heap.make.1.arrays.length := by
        simp [Heap.make, Heap.allocate]
      exact made.trans (Heap.arrays_length_le_append _ _ _)
  | replaced => simp
  | appended => exact Heap.arrays_length_le_append _ _ _
  | removed => simp [Routes.removed]

end Calls

/-! ## Runs -/

/-- The request has yet to append or to send. -/
def Request.InFlight (request : Request) : Prop :=
  request.phase ≠ .finished

/-- The slice of another request in flight shows the cell. -/
def World.ShownToOthers (world : World) (id : Nat) (cell : Nat × Nat) : Prop :=
  ∃ other request, other ≠ id ∧ world.requests other = some request ∧ request.InFlight ∧
    Covers request.slice cell

/-- A list of the table shows the cell. -/
def World.ShownInTable (world : World) (cell : Nat × Nat) : Prop :=
  ∃ key routes, world.routes.table.lookup key = some routes ∧ Covers routes cell

/-- Every request in flight works on the routes it found and appended, and what its append has
written is neither in a list of the table nor in that of another request. -/
structure OwnLists (world : World) : Prop where
  lists : ∀ id request, world.requests id = some request → request.InFlight →
    world.routes.heap.read request.slice = (request.found ++ request.appended).map some
  appends : ∀ id cell, (id, cell) ∈ world.overwritten →
    ¬world.ShownInTable cell ∧ ¬world.ShownToOthers id cell

section Runs

variable [GoRuntime]

/-- The condition on a step under which nobody works on the list of another: a lookup finds no nil
entry, a call of the routes fetcher writes no cell of an in-flight slice and no cell that an append
of a request has written, and the append of a request writes no cell of the table or of another
request. -/
def Careful (world : World) : Event → Prop
  | .call call =>
      ∀ cell ∈ overwrites call world.routes,
        (∀ id request, world.requests id = some request → request.InFlight →
          ¬Covers request.slice cell) ∧
        ∀ id, (id, cell) ∉ world.overwritten
  | .lookup _ routeName =>
      ∀ slice, world.routes.findByRouteName routeName = some slice →
        none ∉ world.routes.heap.read slice
  | .append id _ =>
      ∀ request, world.requests id = some request → ∀ cell ∈ request.overwrites,
        ¬world.ShownInTable cell ∧ ¬world.ShownToOthers id cell ∧
        ∀ other, other ≠ id → (other, cell) ∉ world.overwritten
  | .send _ => True

/-- All interleavings of the calls and of the steps of the requests. -/
def system : System World Event where
  initial world := world = World.initial
  step before event after := before.next event = some after

/-- What every careful run keeps. -/
structure Invariant (world : World) : Prop extends OwnLists world where
  wellFormed : world.routes.WellFormed
  backs : ∀ id request, world.requests id = some request → request.InFlight →
    world.routes.heap.Backs request.slice
  allocated : ∀ id cell, (id, cell) ∈ world.overwritten →
    cell.1 < world.routes.heap.arrays.length

omit [GoRuntime] in
theorem invariant_initial : Invariant World.initial where
  lists := by simp [World.initial]
  appends := by simp [World.initial]
  wellFormed := Routes.wellFormed_empty
  backs := by simp [World.initial]
  allocated := by simp [World.initial]

theorem Invariant.call {before after : World} {call : Call} (invariant : Invariant before)
    (careful : Careful before (.call call)) (moves : before.next (.call call) = some after) :
    Invariant after := by
  simp only [World.next] at moves
  split at moves
  · next routes applied =>
      cases moves
      have frame := fun id request (present : before.requests id = some request) inFlight =>
        call_frame invariant.wellFormed applied (invariant.backs id request present inFlight)
          fun cell written => (careful cell written).1 id request present inFlight
      refine ⟨⟨?_, ?_⟩, call_wellFormed invariant.wellFormed applied, ?_, ?_⟩
      · intro id request present inFlight
        rw [(frame id request present inFlight).2]
        exact invariant.lists id request present inFlight
      · intro id cell written
        rcases invariant.appends id cell written with ⟨notInTable, notShown⟩
        refine ⟨?_, notShown⟩
        rintro ⟨key, slice, lookup, covers⟩
        rcases covers_of_call invariant.wellFormed applied lookup covers with
          old | overwritten | fresh
        · exact notInTable old
        · exact (careful cell overwritten).2 id written
        · exact absurd (invariant.allocated id cell written) (by omega)
      · exact fun id request present inFlight => (frame id request present inFlight).1
      · exact fun id cell written => (invariant.allocated id cell written).trans_le
          (arrays_length_le_call invariant.wellFormed applied)
  · cases moves

omit [GoRuntime] in
theorem update_cases {requests : Nat → Option Request} {id other : Nat}
    {changed request : Request}
    (present : Function.update requests id (some changed) other = some request) :
    other = id ∧ changed = request ∨ other ≠ id ∧ requests other = some request := by
  by_cases same : other = id
  · subst same
    rw [Function.update_self, Option.some.injEq] at present
    exact Or.inl ⟨rfl, present⟩
  · rw [Function.update_of_ne same] at present
    exact Or.inr ⟨same, present⟩

theorem next_lookup {before after : World} {id : Nat} {routeName : GoString}
    (moves : before.next (.lookup id routeName) = some after) :
    ∃ slice request, before.requests id = none ∧
      before.routes.findByRouteName routeName = some slice ∧
      request.slice = slice ∧ request.appended = [] ∧
      request.found = (before.routes.heap.read slice).filterMap (fun entry => entry) ∧
      after = { before with requests := Function.update before.requests id (some request) } := by
  simp only [World.next] at moves
  split at moves
  · next slice fresh found =>
      split_ifs at moves
      cases moves
      exact ⟨slice, _, fresh, found, rfl, rfl, rfl, rfl⟩
  · cases moves

omit [GoRuntime] in
theorem map_some_filterMap {Element : Type} {list : List (Option Element)} (full : none ∉ list) :
    (list.filterMap fun entry => entry).map some = list := by
  induction list with
  | nil => rfl
  | cons entry list inductionHypothesis =>
      cases entry with
      | none => simp at full
      | some element => simpa using inductionHypothesis (by simpa using full)

theorem Invariant.lookup {before after : World} {id : Nat} {routeName : GoString}
    (invariant : Invariant before) (careful : Careful before (.lookup id routeName))
    (moves : before.next (.lookup id routeName) = some after) : Invariant after := by
  rcases next_lookup moves with ⟨slice, started, fresh, found, sliceEq, appendedEq, foundEq, rfl⟩
  -- The slice of the new request is a slice of the table.
  refine ⟨⟨?_, ?_⟩, invariant.wellFormed, ?_, invariant.allocated⟩
  · intro other request present inFlight
    rcases update_cases present with ⟨rfl, rfl⟩ | ⟨same, present⟩
    · rw [sliceEq, appendedEq, foundEq, List.append_nil,
        map_some_filterMap (careful slice found)]
    · exact invariant.lists other request present inFlight
  · intro writer cell written
    rcases invariant.appends writer cell written with ⟨notInTable, notShown⟩
    refine ⟨notInTable, ?_⟩
    rintro ⟨other, request, different, present, inFlight, covers⟩
    rcases update_cases present with ⟨rfl, rfl⟩ | ⟨same, present⟩
    · rw [sliceEq] at covers
      exact notInTable ⟨_, slice, found, covers⟩
    · exact notShown ⟨other, request, different, present, inFlight, covers⟩
  · intro other request present inFlight
    rcases update_cases present with ⟨rfl, rfl⟩ | ⟨same, present⟩
    · rw [sliceEq]
      exact invariant.wellFormed _ slice found
    · exact invariant.backs other request present inFlight

theorem next_append {before after : World} {id : Nat} {route : Route}
    (moves : before.next (.append id route) = some after) :
    ∃ request, before.requests id = some request ∧ request.InFlight ∧
      after =
        { routes :=
            { before.routes with
              heap := (before.routes.heap.append request.slice (some route)).1 }
          requests := Function.update before.requests id (some
            { request with
              slice := (before.routes.heap.append request.slice (some route)).2
              appended := request.appended ++ [route] })
          overwritten := before.overwritten ++ request.overwrites.map fun cell => (id, cell) } := by
  simp only [World.next] at moves
  split at moves
  · cases moves
  · next request present =>
      split_ifs at moves with appending
      cases moves
      refine ⟨request, present, ?_, rfl⟩
      rw [Request.InFlight, appending]
      decide

omit [GoRuntime] in
theorem mem_overwrites {request : Request}
    (room : request.slice.length < request.slice.capacity) :
    (request.slice.array, request.slice.length) ∈ request.overwrites := by
  simp [Request.overwrites, room]

theorem append_frame {heap : Heap (Option Route)} {request : Request} {route : Route}
    {slice : Slice} (backs : heap.Backs slice)
    (outside : ∀ cell ∈ request.overwrites, ¬Covers slice cell) :
    (heap.append request.slice (some route)).1.Backs slice ∧
      (heap.append request.slice (some route)).1.read slice = heap.read slice := by
  refine ⟨backs.append_of_backs _, Heap.read_append_of_not_covered backs ?_⟩
  exact fun room => outside _ (mem_overwrites room)

theorem covers_of_append {heap : Heap (Option Route)} {request : Request} {route : Route}
    {cell : Nat × Nat} (covers : Covers (heap.append request.slice (some route)).2 cell) :
    Covers request.slice cell ∨ cell ∈ request.overwrites ∨ heap.arrays.length ≤ cell.1 := by
  rcases Heap.append_cases heap request.slice (some route) with ⟨room, appended⟩ | ⟨_, appended⟩
  · rw [appended] at covers
    have array : request.slice.array = cell.1 := covers.1
    have below : cell.2 < request.slice.length + 1 := covers.2
    by_cases last : cell.2 = request.slice.length
    · right; left
      have written := mem_overwrites room
      rwa [array, ← last] at written
    · exact Or.inl ⟨array, by omega⟩
  · rw [appended] at covers
    exact Or.inr (Or.inr covers.1.le)

theorem Invariant.append {before after : World} {id : Nat} {route : Route}
    (invariant : Invariant before) (careful : Careful before (.append id route))
    (moves : before.next (.append id route) = some after) : Invariant after := by
  rcases next_append moves with ⟨request, present, inFlight, rfl⟩
  have backs := invariant.backs id request present inFlight
  have careful := careful request present
  refine ⟨⟨?_, ?_⟩, ?_, ?_, ?_⟩
  · intro other shown shownPresent shownInFlight
    rcases update_cases shownPresent with ⟨rfl, rfl⟩ | ⟨same, shownPresent⟩
    · rw [Heap.read_append backs, invariant.lists other request present inFlight]
      simp
    · have outside : ∀ cell ∈ request.overwrites, ¬Covers shown.slice cell :=
        fun cell written covers => (careful cell written).2.1
          ⟨other, shown, same, shownPresent, shownInFlight, covers⟩
      rw [(append_frame (invariant.backs other shown shownPresent shownInFlight) outside).2]
      exact invariant.lists other shown shownPresent shownInFlight
  · intro writer cell written
    rcases List.mem_append.mp written with earlier | now
    · rcases invariant.appends writer cell earlier with ⟨notInTable, notShown⟩
      refine ⟨notInTable, ?_⟩
      rintro ⟨other, shown, different, shownPresent, shownInFlight, covers⟩
      rcases update_cases shownPresent with ⟨rfl, rfl⟩ | ⟨same, shownPresent⟩
      · rcases covers_of_append covers with old | overwritten | fresh
        · exact notShown ⟨other, request, different, present, inFlight, old⟩
        · exact (careful cell overwritten).2.2 writer different.symm earlier
        · exact absurd (invariant.allocated writer cell earlier) (by omega)
      · exact notShown ⟨other, shown, different, shownPresent, shownInFlight, covers⟩
    · rcases List.mem_map.mp now with ⟨overwritten, overwrittenMem, equal⟩
      cases equal
      rcases careful cell overwrittenMem with ⟨notInTable, notShown, _⟩
      refine ⟨notInTable, ?_⟩
      rintro ⟨other, shown, different, shownPresent, shownInFlight, covers⟩
      rcases update_cases shownPresent with ⟨same, _⟩ | ⟨_, shownPresent⟩
      · exact absurd same different
      · exact notShown ⟨other, shown, different, shownPresent, shownInFlight, covers⟩
  · exact fun key slice lookup => (invariant.wellFormed key slice lookup).append_of_backs _
  · intro other shown shownPresent shownInFlight
    rcases update_cases shownPresent with ⟨rfl, rfl⟩ | ⟨same, shownPresent⟩
    · exact backs.append _
    · exact (invariant.backs other shown shownPresent shownInFlight).append_of_backs _
  · intro writer cell written
    refine lt_of_lt_of_le ?_ (Heap.arrays_length_le_append _ _ _)
    rcases List.mem_append.mp written with earlier | now
    · exact invariant.allocated writer cell earlier
    · rcases List.mem_map.mp now with ⟨overwritten, overwrittenMem, equal⟩
      cases equal
      unfold Request.overwrites at overwrittenMem
      split_ifs at overwrittenMem
      · rw [List.mem_singleton.mp overwrittenMem]
        exact backs.allocated
      · cases overwrittenMem

theorem next_send {before after : World} {id : Nat}
    (moves : before.next (.send id) = some after) :
    ∃ request advanced, before.requests id = some request ∧ request.InFlight ∧
      advanced.slice = request.slice ∧ advanced.found = request.found ∧
      advanced.appended = request.appended ∧
      after = { before with requests := Function.update before.requests id (some advanced) } := by
  simp only [World.next] at moves
  split at moves
  · cases moves
  · next request present =>
      split at moves
      · cases moves
      · next next position =>
          have inFlight : request.InFlight := by
            intro finished
            simp [finished, Phase.nextIndex] at position
          split at moves
          · cases moves
          · next cell _ =>
              cases moves
              let advanced :=
                { request with
                  phase := Phase.afterSend next request.slice.length
                  sent := request.sent ++ [cell] }
              exact ⟨request, advanced, present, inFlight, rfl, rfl, rfl, rfl⟩

theorem Invariant.send {before after : World} {id : Nat} (invariant : Invariant before)
    (moves : before.next (.send id) = some after) : Invariant after := by
  rcases next_send moves with
    ⟨request, advanced, present, inFlight, sliceEq, foundEq, appendedEq, rfl⟩
  refine ⟨⟨?_, ?_⟩, invariant.wellFormed, ?_, invariant.allocated⟩
  · intro other shown shownPresent shownInFlight
    rcases update_cases shownPresent with ⟨rfl, rfl⟩ | ⟨same, shownPresent⟩
    · rw [sliceEq, foundEq, appendedEq]
      exact invariant.lists other request present inFlight
    · exact invariant.lists other shown shownPresent shownInFlight
  · intro writer cell written
    rcases invariant.appends writer cell written with ⟨notInTable, notShown⟩
    refine ⟨notInTable, ?_⟩
    rintro ⟨other, shown, different, shownPresent, shownInFlight, covers⟩
    rcases update_cases shownPresent with ⟨rfl, rfl⟩ | ⟨same, shownPresent⟩
    · rw [sliceEq] at covers
      exact notShown ⟨other, request, different, present, inFlight, covers⟩
    · exact notShown ⟨other, shown, different, shownPresent, shownInFlight, covers⟩
  · intro other shown shownPresent shownInFlight
    rcases update_cases shownPresent with ⟨rfl, rfl⟩ | ⟨same, shownPresent⟩
    · rw [sliceEq]
      exact invariant.backs other request present inFlight
    · exact invariant.backs other shown shownPresent shownInFlight

/-- In every run whose steps are careful, every request works on its own list of routes. -/
theorem ownLists_of_careful {world : World} (reached : system.ReachableUnder Careful world) :
    OwnLists world := by
  have invariant : Invariant world := by
    apply reached.invariant
    · rintro _ rfl
      exact invariant_initial
    · intro before event after holds careful moves
      cases event with
      | call call => exact holds.call careful moves
      | lookup id routeName => exact holds.lookup careful moves
      | append id route => exact holds.append careful moves
      | send id => exact holds.send moves
  exact invariant.toOwnLists

/-! ## Runs that are checked -/

/-- All requests have their numbers in the list. -/
def World.Numbered (world : World) (ids : List Nat) : Prop :=
  ∀ id, id ∉ ids → world.requests id = none

/-- Whether no request in flight, of those that are to be checked, shows the cell. -/
def World.unseen (world : World) (ids : List Nat) (cell : Nat × Nat) : Bool :=
  ids.all fun id => (world.requests id).all fun request =>
    decide (request.phase = .finished ∨ ¬Covers request.slice cell)

/-- Whether a step is careful, if the requests have their numbers in the list. -/
def carefulStep (ids : List Nat) (world : World) : Event → Bool
  | .call call =>
      (overwrites call world.routes).all fun cell =>
        world.unseen ids cell && world.overwritten.all fun written => decide (written.2 ≠ cell)
  | .lookup id routeName =>
      ids.contains id && (world.routes.findByRouteName routeName).all fun slice =>
        decide (none ∉ world.routes.heap.read slice)
  | .append id _ =>
      (world.requests id).all fun request => request.overwrites.all fun cell =>
        (world.routes.table.entries.all fun entry => decide (¬Covers entry.2 cell)) &&
          world.unseen (ids.filter (· ≠ id)) cell &&
            world.overwritten.all fun written => decide (written.1 = id ∨ written.2 ≠ cell)
  | .send _ => true

/-- The world after the events, if they can happen one after the other and all are careful. -/
def carefulRun (ids : List Nat) (world : World) (events : List Event) : Option World :=
  events.foldlM (fun world event => if carefulStep ids world event then world.next event else none)
    world

omit [GoRuntime] in
theorem not_covers_of_unseen {world : World} {ids : List Nat} {cell : Nat × Nat}
    (unseen : world.unseen ids cell = true) {id : Nat} (checked : id ∈ ids) {request : Request}
    (present : world.requests id = some request) (inFlight : request.InFlight) :
    ¬Covers request.slice cell := by
  have shown := List.all_eq_true.mp unseen id checked
  rw [present, Option.all_some, decide_eq_true_eq] at shown
  exact shown.resolve_left inFlight

omit [GoRuntime] in
theorem World.Numbered.mem {world : World} {ids : List Nat} (numbered : world.Numbered ids)
    {id : Nat} {request : Request} (present : world.requests id = some request) : id ∈ ids := by
  by_contra absent
  rw [numbered id absent] at present
  cases present

theorem careful_of_carefulStep {ids : List Nat} {world : World} (numbered : world.Numbered ids)
    {event : Event} (checked : carefulStep ids world event = true) : Careful world event := by
  cases event with
  | call call =>
      intro cell written
      have outside := List.all_eq_true.mp checked cell written
      rw [Bool.and_eq_true] at outside
      refine ⟨fun id request present inFlight =>
        not_covers_of_unseen outside.1 (numbered.mem present) present inFlight, ?_⟩
      intro id appended
      exact absurd rfl (of_decide_eq_true (List.all_eq_true.mp outside.2 _ appended))
  | lookup id routeName =>
      intro slice found
      rw [carefulStep, Bool.and_eq_true, found, Option.all_some, decide_eq_true_eq] at checked
      exact checked.2
  | append id route =>
      intro request present cell written
      rw [carefulStep, present, Option.all_some] at checked
      have outside := List.all_eq_true.mp checked cell written
      rw [Bool.and_eq_true, Bool.and_eq_true] at outside
      refine ⟨?_, ?_, ?_⟩
      · rintro ⟨key, routes, isEntry, covers⟩
        have inTable := List.all_eq_true.mp outside.1.1 _ (AList.mem_lookup_iff.mp isEntry)
        exact of_decide_eq_true inTable covers
      · rintro ⟨other, shown, different, shownPresent, inFlight, covers⟩
        have isOther : other ∈ ids.filter (· ≠ id) := by
          simp [numbered.mem shownPresent, different]
        exact not_covers_of_unseen outside.1.2 isOther shownPresent inFlight covers
      · intro other different appended
        have apart := of_decide_eq_true (List.all_eq_true.mp outside.2 _ appended)
        exact apart.elim different (absurd rfl)
  | send id => trivial

omit [GoRuntime] in
theorem World.Numbered.update {world : World} {ids : List Nat} (numbered : world.Numbered ids)
    {id : Nat} (idMem : id ∈ ids) (request : Request) {other : Nat} (absent : other ∉ ids) :
    Function.update world.requests id (some request) other = none := by
  have different : other ≠ id := by
    rintro rfl
    exact absent idMem
  rw [Function.update_of_ne different]
  exact numbered other absent

theorem World.Numbered.next {before after : World} {ids : List Nat}
    (numbered : before.Numbered ids) {event : Event}
    (checked : carefulStep ids before event = true) (moves : before.next event = some after) :
    after.Numbered ids := by
  cases event with
  | call call =>
      simp only [World.next] at moves
      split at moves
      · cases moves
        exact numbered
      · cases moves
  | lookup id routeName =>
      rw [carefulStep, Bool.and_eq_true, List.contains_iff_mem] at checked
      rcases next_lookup moves with ⟨_, request, _, _, _, _, _, rfl⟩
      exact fun _ absent => numbered.update checked.1 request absent
  | append id route =>
      rcases next_append moves with ⟨_, present, _, rfl⟩
      exact fun _ absent => numbered.update (numbered.mem present) _ absent
  | send id =>
      rcases next_send moves with ⟨_, advanced, present, _, _, _, _, rfl⟩
      exact fun _ absent => numbered.update (numbered.mem present) advanced absent

/-- A run that passes the check is one whose steps are careful. -/
theorem reachable_of_carefulRun {ids : List Nat} {world after : World} {events : List Event}
    (reached : system.ReachableUnder Careful world) (numbered : world.Numbered ids)
    (ran : carefulRun ids world events = some after) : system.ReachableUnder Careful after := by
  induction events generalizing world with
  | nil =>
      cases ran
      exact reached
  | cons event events inductionHypothesis =>
      rw [carefulRun, List.foldlM_cons] at ran
      rcases Option.bind_eq_some_iff.mp ran with ⟨next, moves, rest⟩
      split_ifs at moves with checked
      exact inductionHypothesis
        (.step reached (careful_of_carefulStep numbered checked) moves)
        (numbered.next checked moves) rest

/-- The world after an event, if it can happen. -/
def World.after (world : World) (event : Event) : World :=
  (world.next event).getD world

theorem World.next_eq_after {world : World} {event : Event}
    (enabled : (world.next event).isSome = true) :
    world.next event = some (world.after event) := by
  rcases Option.isSome_iff_exists.mp enabled with ⟨after, moves⟩
  simp [World.after, moves]

end Runs

/-- A call for a route of which only the address matters. -/
def sampleCall (operation : Operation) (uri address : String) : Event :=
  .call ⟨operation, ⟨text uri⟩, { address := text address }⟩

/-- Two requests share the array of `a.com`, which has three routes and room for a fourth. One of
them appends a route there, and `b.com` is registered once more before both send. -/
def sampleEvents : List Event :=
  [sampleCall .register "a.com" "10.0.0.1:80", sampleCall .register "a.com" "10.0.0.2:80",
    sampleCall .register "a.com" "10.0.0.3:80", sampleCall .register "b.com" "10.0.0.4:80",
    sampleCall .register "b.com" "10.0.0.5:80", sampleCall .register "b.com" "10.0.0.6:80",
    .lookup 0 (text "a.com"), .lookup 1 (text "a.com"),
    .append 0 { address := text "exporter" }, sampleCall .register "b.com" "10.0.0.7:80",
    .send 1, .send 0]

/-- The addresses that the slice of a request shows, and how many cells its array has. -/
def World.shows (world : World) (id : Nat) : Option (List (Option GoString) × Nat) :=
  (world.requests id).map fun request =>
    ((world.routes.heap.read request.slice).map (Option.map Route.address),
      request.slice.capacity)

section

local instance asciiRuntime : GoRuntime := GoRuntime.ascii

theorem ownLists_of_careful_sample : ∃ world,
    carefulRun [0, 1] World.initial sampleEvents = some world ∧
      world.overwritten = [(0, 3, 3)] ∧
      world.shows 0 = some (["10.0.0.1:80", "10.0.0.2:80", "10.0.0.3:80", "exporter"].map
        (some ∘ text), 4) ∧
      world.shows 1 = some (["10.0.0.1:80", "10.0.0.2:80", "10.0.0.3:80"].map (some ∘ text), 4) ∧
      OwnLists world := by
  have shown : (carefulRun [0, 1] World.initial sampleEvents).any (fun world =>
      decide (world.overwritten = [(0, 3, 3)] ∧
        world.shows 0 = some (["10.0.0.1:80", "10.0.0.2:80", "10.0.0.3:80", "exporter"].map
          (some ∘ text), 4) ∧
        world.shows 1 = some (["10.0.0.1:80", "10.0.0.2:80", "10.0.0.3:80"].map
          (some ∘ text), 4))) = true := by
    decide
  rcases (Option.any_eq_true _ _).mp shown with ⟨world, ran, holds⟩
  rcases of_decide_eq_true holds with ⟨written, first, second⟩
  refine ⟨world, ran, written, first, second, ownLists_of_careful ?_⟩
  exact reachable_of_carefulRun (.initial rfl) (fun _ _ => rfl) ran

/-- A route of a request becomes nil when another instance of its list is unregistered. -/
theorem not_ownLists_always : ¬∀ world, system.Reachable world → OwnLists world := by
  intro own
  let one := World.initial.after (sampleCall .register "a.com" "10.0.0.1:80")
  let two := one.after (sampleCall .register "a.com" "10.0.0.2:80")
  let before := two.after (.lookup 0 (text "a.com"))
  let after := before.after (sampleCall .unregister "a.com" "10.0.0.1:80")
  have first : system.step World.initial (sampleCall .register "a.com" "10.0.0.1:80") one :=
    World.next_eq_after (by decide)
  have second : system.step one (sampleCall .register "a.com" "10.0.0.2:80") two :=
    World.next_eq_after (by decide)
  have third : system.step two (.lookup 0 (text "a.com")) before :=
    World.next_eq_after (by decide)
  have fourth : system.step before (sampleCall .unregister "a.com" "10.0.0.1:80") after :=
    World.next_eq_after (by decide)
  have reached : system.Reachable after := .next (.next (.next (.next (.initial rfl) first)
    second) third) fourth
  have shown : (after.requests 0).map (fun request =>
      decide (request.phase ≠ .finished ∧ none ∈ after.routes.heap.read request.slice)) =
        some true := by decide
  rcases Option.map_eq_some_iff.mp shown with ⟨request, present, holds⟩
  rw [decide_eq_true_eq] at holds
  have nilEntry := holds.2
  rw [(own after reached).lists 0 request present holds.1] at nilEntry
  simp at nilEntry

end

end RequestSlices

end Promfetcher
