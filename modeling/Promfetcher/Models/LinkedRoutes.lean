import Promfetcher.Models.Lookup
import Mathlib.Logic.Function.Basic

/-!
# Lookups through pointers

The lists of the table hold pointers, and one route can stand under several keys.
The two scans write the field `URL` of every route they come across, under a read
lock. Here the pointers and the field are kept, and the scans are translated with
this write.

Nothing but `URL` changes, and a scan finds the pointers to what `Routes.scan` finds
in the table of the routes themselves. Whatever the order of the range over the map,
the routes found have pairwise different addresses, which are those of all entries
that match.
-/

namespace Promfetcher

open Foundation

/-- What a pointer of the table points to: a route, with its field `URL`. -/
structure Object where
  route : Route
  url : GoString := []

/-- The route table with its pointers, `none` for nil. -/
structure LinkedRoutes where
  heap : Heap (Option Nat)
  table : AList fun _ : Uri => Slice
  objects : Nat → Object

namespace LinkedRoutes

/-- The pointers under a key. -/
def list (rts : LinkedRoutes) (key : Uri) : List (Option Nat) :=
  itemsOf rts.heap.read key rts.table

/-- The route that a pointer leads to. -/
def routeOf (rts : LinkedRoutes) (pointer : Nat) : Route :=
  (rts.objects pointer).route

/-- The table of the routes themselves. -/
def values (rts : LinkedRoutes) : Routes :=
  ⟨rts.heap.map (Option.map rts.routeOf), rts.table⟩

/-- The variables of the loops of a scan, and the routes it writes. -/
structure Scan where
  objects : Nat → Object
  exist : List GoString := []
  finalRoutes : List Nat := []

/-- `route.URL = string(u)`. -/
def Scan.setURL (scan : Scan) (pointer : Nat) (u : Uri) : Scan :=
  { scan with
    objects := Function.update scan.objects pointer { scan.objects pointer with url := u.value } }

/-- The body of the inner loop of a scan. -/
def Scan.visit (isMatch : Tags → Bool) (u : Uri) (scan : Scan) : Option Nat → Scan
  | none => scan
  | some pointer =>
      let scan := scan.setURL pointer u
      let route := (scan.objects pointer).route
      if route.tags.processType ≠ processWeb then scan
      else if scan.exist.contains route.address then scan
      else if isMatch route.tags = false then scan
      else
        { scan with
          exist := route.address :: scan.exist
          finalRoutes := scan.finalRoutes ++ [pointer] }

/-- The loops of a scan. -/
def scan (rts : LinkedRoutes) (order : List (Sigma fun _ : Uri => Slice))
    (isMatch : Tags → Bool) : Scan :=
  order.foldl
    (fun scan entry => (rts.heap.read entry.2).foldl (Scan.visit isMatch entry.1) scan)
    { objects := rts.objects }

/-- `Routes.FindByOrgSpaceName`: the table afterwards, and the pointers returned. -/
def findByOrgSpaceName (rts : LinkedRoutes) (order : List (Sigma fun _ : Uri => Slice))
    (org space name : GoString) : LinkedRoutes × List Nat :=
  let scan := rts.scan order fun tags =>
    tags.organizationName == org && tags.spaceName == space && tags.appName == name
  ({ rts with objects := scan.objects }, scan.finalRoutes)

/-- `Routes.FindById`: the table afterwards, and the pointers returned. -/
def findById (rts : LinkedRoutes) (order : List (Sigma fun _ : Uri => Slice))
    (appId : GoString) : LinkedRoutes × List Nat :=
  let scan := rts.scan order fun tags => tags.appID == appId
  ({ rts with objects := scan.objects }, scan.finalRoutes)

/-! ## One entry -/

@[simp]
theorem Scan.route_setURL (scan : Scan) (pointer other : Nat) (u : Uri) :
    ((scan.setURL pointer u).objects other).route = (scan.objects other).route := by
  by_cases same : other = pointer
  · subst same
    simp [setURL]
  · simp [setURL, same]

theorem Scan.route_visit (isMatch : Tags → Bool) (u : Uri) (scan : Scan) (entry : Option Nat)
    (other : Nat) :
    ((scan.visit isMatch u entry).objects other).route = (scan.objects other).route := by
  cases entry with
  | none => rfl
  | some pointer =>
      rw [visit]
      split_ifs <;> exact route_setURL scan pointer other u

theorem Scan.mem_visit {isMatch : Tags → Bool} {u : Uri} {scan : Scan} {entry : Option Nat}
    {pointer : Nat} (found : pointer ∈ (scan.visit isMatch u entry).finalRoutes) :
    pointer ∈ scan.finalRoutes ∨ entry = some pointer := by
  cases entry with
  | none => exact Or.inl found
  | some visited =>
      rw [visit] at found
      split_ifs at found
      · exact Or.inl found
      · exact Or.inl found
      · exact Or.inl found
      · rcases List.mem_append.mp found with old | new
        · exact Or.inl old
        · exact Or.inr (by rw [List.mem_singleton.mp new])

/-- The scan of the routes themselves that a scan of pointers stands for. -/
def Scan.values (routeOf : Nat → Route) (scan : Scan) : Routes.Scan where
  exist := scan.exist
  finalRoutes := scan.finalRoutes.map routeOf

theorem Scan.values_visit {routeOf : Nat → Route} {scan : Scan}
    (unchanged : ∀ pointer, (scan.objects pointer).route = routeOf pointer)
    (isMatch : Tags → Bool) (u : Uri) (entry : Option Nat) :
    (scan.visit isMatch u entry).values routeOf =
      (scan.values routeOf).visit isMatch (entry.map routeOf) := by
  cases entry with
  | none => rfl
  | some pointer =>
      have exist : (scan.setURL pointer u).exist = (scan.values routeOf).exist := rfl
      simp only [Scan.visit, route_setURL, unchanged, exist, List.contains_iff_mem,
        Option.map_some, Routes.Scan.visit]
      split_ifs
      · rfl
      · rfl
      · rfl
      · simp [Scan.values, setURL]

/-! ## A whole scan -/

/-- How a scan of pointers stands to the table before it, after some entries. -/
structure Scan.Follows (routeOf : Nat → Route) (isMatch : Tags → Bool)
    (entries : List (Option Nat)) (scan : Scan) : Prop where
  unchanged : ∀ pointer, (scan.objects pointer).route = routeOf pointer
  found : ∀ pointer ∈ scan.finalRoutes, some pointer ∈ entries
  values : scan.values routeOf =
    (entries.map (Option.map routeOf)).foldl (Routes.Scan.visit isMatch) {}

theorem Scan.Follows.visit {routeOf : Nat → Route} {isMatch : Tags → Bool}
    {entries : List (Option Nat)} {scan : Scan} (follows : scan.Follows routeOf isMatch entries)
    (u : Uri) (entry : Option Nat) :
    (scan.visit isMatch u entry).Follows routeOf isMatch (entries ++ [entry]) where
  unchanged := by
    intro pointer
    rw [route_visit, follows.unchanged]
  found := by
    intro pointer pointerMem
    rcases mem_visit pointerMem with old | rfl
    · exact List.mem_append_left _ (follows.found pointer old)
    · exact List.mem_append_right _ List.mem_cons_self
  values := by
    rw [values_visit follows.unchanged, follows.values, List.map_append, List.foldl_append]
    rfl

theorem Scan.Follows.foldl_visit {routeOf : Nat → Route} {isMatch : Tags → Bool}
    {entries : List (Option Nat)} {scan : Scan} (follows : scan.Follows routeOf isMatch entries)
    (u : Uri) (pointers : List (Option Nat)) :
    (pointers.foldl (Scan.visit isMatch u) scan).Follows routeOf isMatch (entries ++ pointers) := by
  induction pointers generalizing entries scan with
  | nil => simpa using follows
  | cons entry pointers inductionHypothesis =>
      rw [List.foldl_cons, List.append_cons]
      exact inductionHypothesis (follows.visit u entry)

/-- The pointers in the order in which a range over the table visits them. -/
def visited (rts : LinkedRoutes) (order : List (Sigma fun _ : Uri => Slice)) :
    List (Option Nat) :=
  order.flatMap fun entry => rts.heap.read entry.2

theorem scan_follows (rts : LinkedRoutes) (order : List (Sigma fun _ : Uri => Slice))
    (isMatch : Tags → Bool) :
    (rts.scan order isMatch).Follows rts.routeOf isMatch (rts.visited order) := by
  unfold scan visited
  induction order using List.reverseRecOn with
  | nil => exact ⟨fun _ => rfl, by simp, rfl⟩
  | append_singleton order entry inductionHypothesis =>
      rw [List.foldl_append, List.flatMap_append, List.flatMap_singleton]
      exact inductionHypothesis.foldl_visit entry.1 (rts.heap.read entry.2)

theorem visited_values (rts : LinkedRoutes) (order : List (Sigma fun _ : Uri => Slice)) :
    rts.values.visited order = (rts.visited order).map (Option.map rts.routeOf) := by
  simp only [visited, Routes.visited, values, Heap.read_map, List.map_flatMap]

/-- A scan of pointers finds what the scan of the routes themselves finds. -/
theorem finalRoutes_scan (rts : LinkedRoutes) (order : List (Sigma fun _ : Uri => Slice))
    (isMatch : Tags → Bool) :
    (rts.scan order isMatch).finalRoutes.map rts.routeOf = rts.values.scan order isMatch := by
  rw [Routes.scan_eq_foldl, visited_values, ← (scan_follows rts order isMatch).values]
  rfl

/-! ## The lookups -/

/-- A lookup of the web routes with some tags finds pointers of the table to such routes, with
pairwise different addresses that are those of all such entries, and changes no field but `URL`. -/
structure Exact (Matches : Tags → Prop) (rts : LinkedRoutes) (result : LinkedRoutes × List Nat) :
    Prop where
  sound : ∀ pointer ∈ result.2, (∃ key, some pointer ∈ rts.list key) ∧
    (rts.routeOf pointer).tags.processType = processWeb ∧ Matches (rts.routeOf pointer).tags
  distinct : (result.2.map fun pointer => (rts.routeOf pointer).address).Nodup
  complete : ∀ address,
    address ∈ (result.2.map fun pointer => (rts.routeOf pointer).address) ↔
      ∃ key pointer, some pointer ∈ rts.list key ∧
        (rts.routeOf pointer).tags.processType = processWeb ∧
        Matches (rts.routeOf pointer).tags ∧ (rts.routeOf pointer).address = address
  heap : result.1.heap = rts.heap
  table : result.1.table = rts.table
  unchanged : ∀ pointer, result.1.routeOf pointer = rts.routeOf pointer

/-- The order in which a range over the table goes. -/
abbrev Order (rts : LinkedRoutes) :=
  {order : List (Sigma fun _ : Uri => Slice) // order.Perm rts.table.entries}

theorem exact_scan {Matches : Tags → Prop} {isMatch : Tags → Bool}
    (decides : ∀ tags, isMatch tags = true ↔ Matches tags) (rts : LinkedRoutes)
    (order : rts.Order) :
    Exact Matches rts
      ({ rts with objects := (rts.scan order.val isMatch).objects },
        (rts.scan order.val isMatch).finalRoutes) := by
  have follows := scan_follows rts order.val isMatch
  have values := finalRoutes_scan rts order.val isMatch
  have addresses : ((rts.scan order.val isMatch).finalRoutes.map fun pointer =>
      (rts.routeOf pointer).address) = (rts.values.scan order.val isMatch).map Route.address := by
    rw [← values, List.map_map]
    rfl
  have listed (pointer : Nat) :
      some pointer ∈ rts.visited order.val ↔ ∃ key, some pointer ∈ rts.list key :=
    mem_range order.property
  constructor
  · intro pointer pointerMem
    have found : rts.routeOf pointer ∈ rts.values.scan order.val isMatch :=
      values ▸ List.mem_map_of_mem pointerMem
    rcases (Routes.wanted_of_mem_scan found).2 with ⟨web, isMatches⟩
    exact ⟨(listed pointer).mp (follows.found pointer pointerMem), web, (decides _).mp isMatches⟩
  · rw [addresses]
    exact Routes.nodup_scan
  · intro address
    rw [addresses, Routes.mem_address_scan, visited_values]
    constructor
    · rintro ⟨route, routeMem, ⟨web, isMatches⟩, same⟩
      rcases List.mem_map.mp routeMem with ⟨entry, entryMem, pointed⟩
      rcases Option.map_eq_some_iff.mp pointed with ⟨pointer, rfl, rfl⟩
      rcases (listed pointer).mp entryMem with ⟨key, pointerMem⟩
      exact ⟨key, pointer, pointerMem, web, (decides _).mp isMatches, same⟩
    · rintro ⟨key, pointer, pointerMem, web, isMatches, same⟩
      refine ⟨rts.routeOf pointer, ?_, ⟨web, (decides _).mpr isMatches⟩, same⟩
      exact List.mem_map_of_mem ((listed pointer).mpr ⟨key, pointerMem⟩)
  · rfl
  · rfl
  · exact follows.unchanged

/-- The two scans are exact, and find the same addresses in every order. -/
structure LookupsExact (rts : LinkedRoutes) (appId org space name : GoString) : Prop where
  findById : ∀ order : rts.Order,
    Exact (fun tags => tags.appID = appId) rts (rts.findById order.val appId)
  findByOrgSpaceName : ∀ order : rts.Order,
    Exact (fun tags => tags.organizationName = org ∧ tags.spaceName = space ∧
      tags.appName = name) rts (rts.findByOrgSpaceName order.val org space name)
  sameById : ∀ (order other : rts.Order) (address : GoString),
    address ∈ (rts.findById order.val appId).2.map (fun p => (rts.routeOf p).address) ↔
      address ∈ (rts.findById other.val appId).2.map fun p => (rts.routeOf p).address
  sameByOrgSpaceName : ∀ (order other : rts.Order) (address : GoString),
    address ∈ (rts.findByOrgSpaceName order.val org space name).2.map
        (fun p => (rts.routeOf p).address) ↔
      address ∈ (rts.findByOrgSpaceName other.val org space name).2.map
        fun p => (rts.routeOf p).address

theorem lookupsExact (rts : LinkedRoutes) (appId org space name : GoString) :
    rts.LookupsExact appId org space name := by
  have byId (order : rts.Order) :
      Exact (fun tags => tags.appID = appId) rts (rts.findById order.val appId) :=
    exact_scan (by simp) rts order
  have byOrgSpaceName (order : rts.Order) :
      Exact (fun tags => tags.organizationName = org ∧ tags.spaceName = space ∧
        tags.appName = name) rts (rts.findByOrgSpaceName order.val org space name) :=
    exact_scan (by simp [and_assoc]) rts order
  refine ⟨byId, byOrgSpaceName, fun order other address => ?_, fun order other address => ?_⟩
  · rw [(byId order).complete, (byId other).complete]
  · rw [(byOrgSpaceName order).complete, (byOrgSpaceName other).complete]

end LinkedRoutes

end Promfetcher
