import Promfetcher.Foundation.Slice
import Promfetcher.Models.Route
import Promfetcher.Foundation.Keyed

/-!
# The route table

`models.Routes` maps a route key to a slice of pointers to routes. Slices live on
an explicit heap, because `UnregisterRoute` shortens a slice in place and stores
the result under the URI it was given, which need not be the key it was read
from: two keys can then share an array.

A cell of an array is `none` for a nil pointer. Apart from `URL`, the fields of a
route never change once it has been built, so a cell holds the route itself.

The loops are translated with their indices and the panics that an index can
raise. `registerRoute_eq` and `unregisterRoute_eq` say what they compute on a
table whose slices are backed by their arrays, and nothing below unfolds the
loops again.
-/

namespace Promfetcher

open Foundation

/-- The route table and the arrays its slices point into. -/
structure Routes where
  heap : Heap (Option Route)
  table : AList fun _ : Uri => Slice
  deriving DecidableEq

namespace Routes

/-- `make(models.Routes)`. -/
def empty : Routes :=
  ⟨.empty, ∅⟩

/-- The list that a range over `rts[key]` goes through. -/
def list (rts : Routes) (key : Uri) : List (Option Route) :=
  match rts.table.lookup key with
  | some routes => rts.heap.read routes
  | none => []

/-! ## Registration -/

/-- The loop of `RegisterRoute`, from index `idx` on; the flag tells whether an equal route was
seen. -/
def registerLoop (heap : Heap (Option Route)) (routes : Slice) (route : Route) :
    Nat → Nat → Bool → Except Panic (Heap (Option Route) × Bool)
  | _, 0, found => .ok (heap, found)
  | idx, remaining + 1, found => do
      let r ← heap.index routes idx
      if route.equal r then
        if route.needUpdate r then
          -- `rts[routekey] = routes` stores the slice that is there already.
          let heap ← heap.assign routes idx (some route)
          return (heap, true)
        else registerLoop heap routes route (idx + 1) remaining true
      else registerLoop heap routes route (idx + 1) remaining found

/-- `Routes.RegisterRoute`. -/
def registerRoute [GoRuntime] (rts : Routes) (uri : Uri) : Option Route → Except Panic Routes
  | none => .ok rts
  | some route =>
      let routekey := uri.routeKey
      match rts.table.lookup routekey with
      | some routes => do
          let (heap, found) ← registerLoop rts.heap routes route 0 routes.length false
          if found then return ⟨heap, rts.table⟩
          else
            let (heap, routes) := heap.append routes (some route)
            return ⟨heap, rts.table.insert routekey routes⟩
      | none =>
          let (heap, r) := rts.heap.make
          let (heap, r) := heap.append r (some route)
          return ⟨heap, rts.table.insert routekey r⟩

/-- The loop of `UnregisterRoute`, from index `idx` on. -/
def unregisterLoop (rts : Routes) (uri : Uri) (routes : Slice) (route : Route) :
    Nat → Nat → Except Panic Routes
  | _, 0 => .ok rts
  | idx, remaining + 1 => do
      let r ← rts.heap.index routes idx
      if route.equal r then
        let size := routes.length
        let last ← rts.heap.index routes (size - 1)
        let heap ← rts.heap.assign routes idx last
        let heap ← heap.assign routes (size - 1) none
        -- The key is `uri` here, not `routekey`.
        return ⟨heap, rts.table.insert uri { routes with length := size - 1 }⟩
      else unregisterLoop rts uri routes route (idx + 1) remaining

/-- `Routes.UnregisterRoute`. -/
def unregisterRoute [GoRuntime] (rts : Routes) (uri : Uri) : Option Route → Except Panic Routes
  | none => .ok rts
  | some route =>
      match rts.table.lookup uri.routeKey with
      | some routes => unregisterLoop rts uri routes route 0 routes.length
      | none => .ok rts

/-! ## What the loops compute -/

/-- Every slice of the table is backed by its array. -/
def WellFormed (rts : Routes) : Prop :=
  ∀ key routes, rts.table.lookup key = some routes → rts.heap.Backs routes

theorem wellFormed_empty : empty.WellFormed := by
  intro key routes found
  simp [empty] at found

/-- The first position whose route is replaced by a registration. -/
def updatePosition (route : Route) (entries : List (Option Route)) : Option Nat :=
  entries.findIdx? fun r => route.equal r && route.needUpdate r

/-- The first position whose route is removed by an unregistration. -/
def removePosition (route : Route) (entries : List (Option Route)) : Option Nat :=
  entries.findIdx? route.equal

theorem registerLoop_eq {heap : Heap (Option Route)} {routes : Slice}
    (backs : heap.Backs routes) (route : Route) (idx remaining : Nat) (found : Bool)
    (rest : idx + remaining = routes.length) :
    registerLoop heap routes route idx remaining found =
      .ok (match updatePosition route ((heap.read routes).drop idx) with
        | some offset => (heap.write routes.array (idx + offset) (some route), true)
        | none => (heap, found || ((heap.read routes).drop idx).any route.equal)) := by
  induction remaining generalizing idx found with
  | zero =>
      have consumed : (heap.read routes).drop idx = [] := by
        apply List.drop_eq_nil_of_le
        rw [backs.length_read]
        omega
      simp [registerLoop, consumed, updatePosition]
  | succ remaining inductionHypothesis =>
      have inRange : idx < (heap.read routes).length := by
        rw [backs.length_read]
        omega
      have reads : heap.index routes idx = .ok (heap.read routes)[idx] :=
        Heap.index_eq_ok.mpr (List.getElem?_eq_getElem inRange)
      have next := fun flag => inductionHypothesis (idx + 1) flag (by omega)
      rw [registerLoop, reads, List.drop_eq_getElem_cons inRange]
      simp only [updatePosition, List.findIdx?_cons, List.any_cons] at next ⊢
      by_cases same : route.equal (heap.read routes)[idx] = true
      · by_cases stale : route.needUpdate (heap.read routes)[idx] = true
        · simp [bind, Except.bind, pure, Except.pure, same, stale, Heap.assign_eq_ok inRange]
        · simp only [bind, Except.bind, same, stale, if_true, next]
          cases ((heap.read routes).drop (idx + 1)).findIdx?
              (fun r => route.equal r && route.needUpdate r) <;>
            simp [Nat.add_assoc, Nat.add_comm 1]
      · simp only [bind, Except.bind, same, next]
        cases ((heap.read routes).drop (idx + 1)).findIdx?
            (fun r => route.equal r && route.needUpdate r) <;>
          simp [Nat.add_assoc, Nat.add_comm 1]

/-- `RegisterRoute` for a key that the table has. -/
def registered [GoRuntime] (rts : Routes) (routekey : Uri) (routes : Slice) (route : Route) :
    Routes :=
  match updatePosition route (rts.heap.read routes) with
  | some idx => ⟨rts.heap.write routes.array idx (some route), rts.table⟩
  | none =>
      if (rts.heap.read routes).any route.equal then rts
      else
        ⟨(rts.heap.append routes (some route)).1,
          rts.table.insert routekey (rts.heap.append routes (some route)).2⟩

/-- `RegisterRoute` for a key that the table does not have. -/
def registeredFirst [GoRuntime] (rts : Routes) (routekey : Uri) (route : Route) : Routes :=
  ⟨(rts.heap.make.1.append rts.heap.make.2 (some route)).1,
    rts.table.insert routekey (rts.heap.make.1.append rts.heap.make.2 (some route)).2⟩

/-- The table after a removal at a position of the list of `routes`. -/
def removed (rts : Routes) (uri : Uri) (routes : Slice) (idx : Nat) : Routes :=
  ⟨(rts.heap.write routes.array idx
      ((rts.heap.read routes).getD (routes.length - 1) none)).write routes.array
      (routes.length - 1) none,
    rts.table.insert uri { routes with length := routes.length - 1 }⟩

theorem registerRoute_eq [GoRuntime] {rts : Routes} (wellFormed : rts.WellFormed) (uri : Uri)
    (route : Route) :
    rts.registerRoute uri (some route) =
      .ok (match rts.table.lookup uri.routeKey with
        | some routes => rts.registered uri.routeKey routes route
        | none => rts.registeredFirst uri.routeKey route) := by
  simp only [registerRoute]
  cases found : rts.table.lookup uri.routeKey with
  | none => rfl
  | some routes =>
      have loop := registerLoop_eq (wellFormed _ _ found) route 0 routes.length false (by omega)
      simp only [List.drop_zero, Nat.zero_add] at loop
      simp only [loop, registered, bind, Except.bind, pure, Except.pure]
      cases updatePosition route (rts.heap.read routes) with
      | some idx => rfl
      | none =>
          by_cases seen : (rts.heap.read routes).any route.equal = true <;> simp [seen]

/-- What a registration does to the table, with what each case needs. -/
inductive Registers [GoRuntime] (rts : Routes) (uri : Uri) (route : Route) : Routes → Prop where
  | first (absent : rts.table.lookup uri.routeKey = none) :
      Registers rts uri route (rts.registeredFirst uri.routeKey route)
  | replaced {routes : Slice} {idx : Nat} (found : rts.table.lookup uri.routeKey = some routes)
      (position : updatePosition route (rts.heap.read routes) = some idx) :
      Registers rts uri route ⟨rts.heap.write routes.array idx (some route), rts.table⟩
  | kept {routes : Slice} (found : rts.table.lookup uri.routeKey = some routes)
      (position : updatePosition route (rts.heap.read routes) = none)
      (seen : (rts.heap.read routes).any route.equal = true) : Registers rts uri route rts
  | appended {routes : Slice} (found : rts.table.lookup uri.routeKey = some routes)
      (position : updatePosition route (rts.heap.read routes) = none)
      (unseen : (rts.heap.read routes).any route.equal = false) :
      Registers rts uri route
        ⟨(rts.heap.append routes (some route)).1,
          rts.table.insert uri.routeKey (rts.heap.append routes (some route)).2⟩

theorem registers_of_registerRoute [GoRuntime] {rts after : Routes}
    (wellFormed : rts.WellFormed) {uri : Uri} {route : Route}
    (registers : rts.registerRoute uri (some route) = .ok after) :
    Registers rts uri route after := by
  rw [registerRoute_eq wellFormed, Except.ok.injEq] at registers
  subst registers
  cases found : rts.table.lookup uri.routeKey with
  | none => exact .first found
  | some routes =>
      simp only [registered]
      cases position : updatePosition route (rts.heap.read routes) with
      | some idx => exact .replaced found position
      | none =>
          cases seen : (rts.heap.read routes).any route.equal with
          | true => exact .kept found position seen
          | false => exact .appended found position seen

theorem unregisterLoop_eq {rts : Routes} {routes : Slice} (backs : rts.heap.Backs routes)
    (uri : Uri) (route : Route) (idx remaining : Nat) (rest : idx + remaining = routes.length) :
    unregisterLoop rts uri routes route idx remaining =
      .ok (match removePosition route ((rts.heap.read routes).drop idx) with
        | some offset => rts.removed uri routes (idx + offset)
        | none => rts) := by
  induction remaining generalizing idx with
  | zero =>
      have consumed : (rts.heap.read routes).drop idx = [] := by
        apply List.drop_eq_nil_of_le
        rw [backs.length_read]
        omega
      simp [unregisterLoop, consumed, removePosition]
  | succ remaining inductionHypothesis =>
      have lengthRead := backs.length_read
      have inRange : idx < (rts.heap.read routes).length := by omega
      have lastInRange : routes.length - 1 < (rts.heap.read routes).length := by omega
      have reads : rts.heap.index routes idx = .ok (rts.heap.read routes)[idx] :=
        Heap.index_eq_ok.mpr (List.getElem?_eq_getElem inRange)
      have readsLast : rts.heap.index routes (routes.length - 1) =
          .ok ((rts.heap.read routes).getD (routes.length - 1) none) := by
        apply Heap.index_eq_ok.mpr
        rw [List.getD_eq_getElem _ _ lastInRange, List.getElem?_eq_getElem lastInRange]
      rw [unregisterLoop, reads, List.drop_eq_getElem_cons inRange]
      simp only [removePosition, List.findIdx?_cons]
      by_cases same : route.equal (rts.heap.read routes)[idx] = true
      · have lastInWritten : routes.length - 1 < ((rts.heap.write routes.array idx
            ((rts.heap.read routes).getD (routes.length - 1) none)).read routes).length := by
          rw [(backs.write _ _ _).length_read]
          omega
        simp only [bind, Except.bind, pure, Except.pure, same, if_true, readsLast,
          Heap.assign_eq_ok inRange, Heap.assign_eq_ok lastInWritten]
        rfl
      · have next := inductionHypothesis (idx + 1) (by omega)
        simp only [removePosition] at next
        simp only [bind, Except.bind, same, next]
        cases ((rts.heap.read routes).drop (idx + 1)).findIdx? route.equal <;>
          simp [Nat.add_assoc, Nat.add_comm 1]

theorem unregisterRoute_eq [GoRuntime] {rts : Routes} (wellFormed : rts.WellFormed) (uri : Uri)
    (route : Route) :
    rts.unregisterRoute uri (some route) =
      .ok (match rts.table.lookup uri.routeKey with
        | some routes =>
            match removePosition route (rts.heap.read routes) with
            | some idx => rts.removed uri routes idx
            | none => rts
        | none => rts) := by
  simp only [unregisterRoute]
  cases found : rts.table.lookup uri.routeKey with
  | none => rfl
  | some routes =>
      have loop := unregisterLoop_eq (wellFormed _ _ found) uri route 0 routes.length (by omega)
      simpa using loop

/-! ## The table stays well formed -/

theorem WellFormed.registered [GoRuntime] {rts : Routes} (wellFormed : rts.WellFormed)
    {routekey : Uri} {routes : Slice} (found : rts.table.lookup routekey = some routes)
    (route : Route) : (rts.registered routekey routes route).WellFormed := by
  intro key slice lookup
  unfold Routes.registered at lookup ⊢
  split at lookup
  · exact (wellFormed key slice lookup).write _ _ _
  · split at lookup
    · next seen =>
        simp only [seen, if_true]
        exact wellFormed key slice lookup
    · next unseen =>
        simp only [unseen]
        rcases lookup_insert_cases lookup with rfl | known
        · exact (wellFormed _ _ found).append _
        · exact (wellFormed key slice known).append_of_backs _

theorem WellFormed.registeredFirst [GoRuntime] {rts : Routes} (wellFormed : rts.WellFormed)
    (routekey : Uri) (route : Route) : (rts.registeredFirst routekey route).WellFormed := by
  intro key slice lookup
  unfold Routes.registeredFirst at lookup ⊢
  rcases lookup_insert_cases lookup with rfl | known
  · exact (Heap.backs_make rts.heap).append _
  · exact (wellFormed key slice known).make_of_backs.append_of_backs _

theorem WellFormed.removed {rts : Routes} (wellFormed : rts.WellFormed) {routekey : Uri}
    {routes : Slice} (found : rts.table.lookup routekey = some routes) (uri : Uri) (idx : Nat) :
    (rts.removed uri routes idx).WellFormed := by
  intro key slice lookup
  unfold Routes.removed at lookup ⊢
  rcases lookup_insert_cases lookup with rfl | known
  · exact (((wellFormed _ _ found).write _ _ _).write _ _ _).truncate (Nat.sub_le _ _)
  · exact ((wellFormed key slice known).write _ _ _).write _ _ _

theorem registerRoute_wellFormed [GoRuntime] {rts : Routes} (wellFormed : rts.WellFormed)
    (uri : Uri) (route : Route) :
    ∃ after, rts.registerRoute uri (some route) = .ok after ∧ after.WellFormed := by
  refine ⟨_, registerRoute_eq wellFormed uri route, ?_⟩
  cases found : rts.table.lookup uri.routeKey with
  | some routes => exact wellFormed.registered found route
  | none => exact wellFormed.registeredFirst _ route

theorem unregisterRoute_wellFormed [GoRuntime] {rts : Routes} (wellFormed : rts.WellFormed)
    (uri : Uri) (route : Route) :
    ∃ after, rts.unregisterRoute uri (some route) = .ok after ∧ after.WellFormed := by
  refine ⟨_, unregisterRoute_eq wellFormed uri route, ?_⟩
  cases found : rts.table.lookup uri.routeKey with
  | none => exact wellFormed
  | some routes =>
      cases position : removePosition route (rts.heap.read routes) with
      | none => simpa only [position] using wellFormed
      | some idx => simpa only [position] using wellFormed.removed found uri idx

end Routes

end Promfetcher
