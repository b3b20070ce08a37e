import Promfetcher.Models.Routes
import Mathlib.Data.List.Pairwise

/-!
# Lookups

The three lookups of `models/route.go`. Two of them scan the whole map and build
a list of their own; they differ only in the tags they compare. The third returns
the slice of the table itself.

A range over a map visits its entries in any order, so that the scans take the
order in which they visit the entries as an argument.
-/

namespace Promfetcher

open Foundation

namespace Routes

/-- The variables of the loops of a scan: the addresses seen, and the routes found. -/
structure Scan where
  exist : List GoString := []
  finalRoutes : List Route := []

/-- The body of the inner loop of a scan. -/
def Scan.visit (isMatch : Tags → Bool) (scan : Scan) : Option Route → Scan
  | none => scan
  | some route =>
      if route.tags.processType ≠ processWeb then scan
      else if route.address ∈ scan.exist then scan
      else if isMatch route.tags = false then scan
      else
        { exist := route.address :: scan.exist
          finalRoutes := scan.finalRoutes ++ [route] }

/-- The loops over the entries of the map, in the given order, and over their lists. -/
def scan (rts : Routes) (order : List (Sigma fun _ : Uri => Slice)) (isMatch : Tags → Bool) :
    List Route :=
  (order.foldl (fun scan entry => (rts.heap.read entry.2).foldl (Scan.visit isMatch) scan)
    {}).finalRoutes

/-- `Routes.FindByOrgSpaceName`. -/
def findByOrgSpaceName (rts : Routes) (order : List (Sigma fun _ : Uri => Slice))
    (org space name : GoString) : List Route :=
  rts.scan order fun tags =>
    tags.organizationName == org && tags.spaceName == space && tags.appName == name

/-- `Routes.FindById`. -/
def findById (rts : Routes) (order : List (Sigma fun _ : Uri => Slice)) (appId : GoString) :
    List Route :=
  rts.scan order fun tags => tags.appID == appId

/-- `Routes.FindByRouteName`; `none` stands for the new empty slice. -/
def findByRouteName [GoRuntime] (rts : Routes) (routeName : GoString) : Option Slice :=
  rts.table.lookup (Uri.mk routeName).routeKey

theorem Scan.visit_forall {Kept : Route → Prop} {isMatch : Tags → Bool}
    (kept : ∀ route, route.tags.processType = processWeb → isMatch route.tags = true → Kept route)
    {scan : Scan} (holds : ∀ route ∈ scan.finalRoutes, Kept route) (entry : Option Route) :
    ∀ route ∈ (scan.visit isMatch entry).finalRoutes, Kept route := by
  cases entry with
  | none => exact holds
  | some route =>
      simp only [Scan.visit]
      split_ifs with web seen differs
      · exact holds
      · exact holds
      · exact holds
      · intro found foundMem
        rcases List.mem_append.mp foundMem with old | new
        · exact holds found old
        · rw [List.mem_singleton.mp new]
          exact kept route (not_not.mp web) (by simpa using differs)

theorem scan_forall {Kept : Route → Prop} {isMatch : Tags → Bool}
    (kept : ∀ route, route.tags.processType = processWeb → isMatch route.tags = true → Kept route)
    (rts : Routes) (order : List (Sigma fun _ : Uri => Slice)) :
    ∀ route ∈ rts.scan order isMatch, Kept route := by
  apply List.foldlRecOn (motive := fun scan : Scan => ∀ route ∈ scan.finalRoutes, Kept route)
  · simp
  · intro scan holds entry _
    apply List.foldlRecOn (motive := fun scan : Scan => ∀ route ∈ scan.finalRoutes, Kept route)
    · exact holds
    · exact fun scan holds entry _ => Scan.visit_forall kept holds entry

theorem processType_of_mem_scan {rts : Routes} {order : List (Sigma fun _ : Uri => Slice)}
    {isMatch : Tags → Bool} {route : Route} (found : route ∈ rts.scan order isMatch) :
    route.tags.processType = processWeb :=
  scan_forall (fun _ web _ => web) rts order route found

/-! ## What a scan finds -/

/-- The entries of the lists of the table, in the order of a scan. -/
def visited (rts : Routes) (order : List (Sigma fun _ : Uri => Slice)) : List (Option Route) :=
  order.flatMap fun entry => rts.heap.read entry.2

/-- A scan looks for the route of this entry. -/
def Wanted (isMatch : Tags → Bool) (route : Route) : Prop :=
  route.tags.processType = processWeb ∧ isMatch route.tags = true

instance (isMatch : Tags → Bool) (route : Route) : Decidable (Wanted isMatch route) := by
  unfold Wanted
  infer_instance

theorem visit_of_not_wanted {isMatch : Tags → Bool} {route : Route}
    (other : ¬Wanted isMatch route) (scan : Scan) : scan.visit isMatch (some route) = scan := by
  rw [Scan.visit]
  split_ifs with web seen differs
  · rfl
  · rfl
  · rfl
  · exact absurd ⟨not_not.mp web, by simpa using differs⟩ other

theorem visit_of_wanted {isMatch : Tags → Bool} {route : Route} (wanted : Wanted isMatch route)
    (scan : Scan) : scan.visit isMatch (some route) =
      if route.address ∈ scan.exist then scan
      else ⟨route.address :: scan.exist, scan.finalRoutes ++ [route]⟩ := by
  rw [Scan.visit, if_neg (not_not.mpr wanted.1)]
  simp [wanted.2]

/-- The wanted routes among some entries. -/
def wanted (isMatch : Tags → Bool) (entries : List (Option Route)) : List Route :=
  (entries.filterMap id).filter fun route => decide (Wanted isMatch route)

theorem exists_eq_map_some {entries : List (Option Route)} (full : none ∉ entries) :
    ∃ routes : List Route, entries = routes.map some := by
  induction entries with
  | nil => exact ⟨[], rfl⟩
  | cons entry entries inductionHypothesis =>
      rw [List.mem_cons, not_or] at full
      rcases inductionHypothesis full.2 with ⟨routes, rfl⟩
      rcases Option.ne_none_iff_exists'.mp (Ne.symm full.1) with ⟨rte, rfl⟩
      exact ⟨rte :: routes, rfl⟩

theorem mem_wanted {isMatch : Tags → Bool} {entries : List (Option Route)} {route : Route} :
    route ∈ wanted isMatch entries ↔ some route ∈ entries ∧ Wanted isMatch route := by
  simp [wanted]

theorem list_eq_itemsOf (rts : Routes) (key : Uri) :
    rts.list key = itemsOf rts.heap.read key rts.table := by
  unfold list itemsOf
  cases rts.table.lookup key <;> rfl

theorem mem_visited {rts : Routes} {order : List (Sigma fun _ : Uri => Slice)}
    (visits : order.Perm rts.table.entries) {entry : Option Route} :
    entry ∈ rts.visited order ↔ ∃ key, entry ∈ rts.list key := by
  simp only [list_eq_itemsOf]
  exact mem_range visits

theorem scan_eq_foldl (rts : Routes) (order : List (Sigma fun _ : Uri => Slice))
    (isMatch : Tags → Bool) :
    rts.scan order isMatch =
      ((rts.visited order).foldl (Scan.visit isMatch) {}).finalRoutes := by
  rw [scan, visited, List.foldl_flatMap]

/-- The routes have different addresses. -/
def AtOtherAddress (route other : Route) : Prop :=
  route.address ≠ other.address

instance : DecidableRel AtOtherAddress := fun route other => by
  unfold AtOtherAddress
  infer_instance

theorem AtOtherAddress.split {first second third : Route} (apart : AtOtherAddress first third) :
    AtOtherAddress first second ∨ AtOtherAddress second third := by
  by_cases same : first.address = second.address
  · exact Or.inr fun equal => apart (same.trans equal)
  · exact Or.inl same

/-- What the variables of the loops are after some entries: the routes found are the first wanted
ones at their addresses. In reverse order, these are a maximal list of wanted routes with
pairwise different addresses. -/
structure Scan.After (isMatch : Tags → Bool) (entries : List (Option Route)) (scan : Scan) :
    Prop where
  exist : ∀ address, address ∈ scan.exist ↔ address ∈ scan.finalRoutes.map Route.address
  finalRoutes : scan.finalRoutes.reverse = (wanted isMatch entries).reverse.pwFilter AtOtherAddress

theorem Scan.After.visit {isMatch : Tags → Bool} {entries : List (Option Route)} {scan : Scan}
    (holds : scan.After isMatch entries) (entry : Option Route) :
    (scan.visit isMatch entry).After isMatch (entries ++ [entry]) := by
  rcases holds with ⟨exist, finalRoutes⟩
  cases entry with
  | none => exact ⟨exist, by simpa [Scan.visit, wanted] using finalRoutes⟩
  | some route =>
      by_cases isWanted : Wanted isMatch route
      · have more : wanted isMatch (entries ++ [some route]) =
            wanted isMatch entries ++ [route] := by
          simp [wanted, isWanted]
        rw [visit_of_wanted isWanted]
        by_cases seen : route.address ∈ scan.exist
        · rw [if_pos seen]
          refine ⟨exist, ?_⟩
          rw [more, List.reverse_concat, List.pwFilter_cons_of_neg, finalRoutes]
          intro fresh
          rcases List.mem_map.mp ((exist _).mp seen) with ⟨earlier, earlierMem, same⟩
          exact fresh earlier (finalRoutes ▸ List.mem_reverse.mpr earlierMem) same.symm
        · rw [if_neg seen]
          refine ⟨fun address => ?_, ?_⟩
          · rw [List.mem_cons, exist, List.map_append, List.mem_append, List.map_singleton,
              List.mem_singleton]
            exact or_comm
          · rw [more, List.reverse_concat, List.reverse_concat, List.pwFilter_cons_of_pos,
              finalRoutes]
            intro earlier earlierMem same
            rw [← finalRoutes, List.mem_reverse] at earlierMem
            exact seen ((exist _).mpr (same ▸ List.mem_map_of_mem earlierMem))
      · rw [visit_of_not_wanted isWanted]
        exact ⟨exist, by simpa [wanted, isWanted] using finalRoutes⟩

theorem Scan.after_foldl (isMatch : Tags → Bool) (entries : List (Option Route)) :
    Scan.After isMatch entries (entries.foldl (Scan.visit isMatch) {}) := by
  induction entries using List.reverseRecOn with
  | nil => exact ⟨by simp, by simp [wanted]⟩
  | append_singleton entries entry inductionHypothesis =>
      rw [List.foldl_append]
      exact inductionHypothesis.visit entry

section

variable {rts : Routes} {order : List (Sigma fun _ : Uri => Slice)} {isMatch : Tags → Bool}

theorem scan_reverse : (rts.scan order isMatch).reverse =
    (wanted isMatch (rts.visited order)).reverse.pwFilter AtOtherAddress := by
  rw [scan_eq_foldl]
  exact (Scan.after_foldl isMatch (rts.visited order)).finalRoutes

/-- No address is found twice. -/
theorem nodup_scan : ((rts.scan order isMatch).map Route.address).Nodup := by
  rw [← List.nodup_reverse, ← List.map_reverse, scan_reverse]
  exact List.pairwise_map.mpr (List.pairwise_pwFilter _)

theorem wanted_of_mem_scan {route : Route} (found : route ∈ rts.scan order isMatch) :
    some route ∈ rts.visited order ∧ Wanted isMatch route := by
  rw [← List.mem_reverse, scan_reverse] at found
  exact mem_wanted.mp (List.mem_reverse.mp (List.pwFilter_subset _ found))

/-- The addresses found are those of the wanted entries. -/
theorem mem_address_scan {address : GoString} :
    address ∈ (rts.scan order isMatch).map Route.address ↔
      ∃ route, some route ∈ rts.visited order ∧ Wanted isMatch route ∧ route.address = address := by
  constructor
  · intro found
    rcases List.mem_map.mp found with ⟨route, routeMem, rfl⟩
    rcases wanted_of_mem_scan routeMem with ⟨visited, isWanted⟩
    exact ⟨route, visited, isWanted, rfl⟩
  · rintro ⟨route, visited, isWanted, rfl⟩
    by_contra missing
    have apart : ∀ other ∈ (wanted isMatch (rts.visited order)).reverse,
        AtOtherAddress route other := by
      apply (List.forall_mem_pwFilter @AtOtherAddress.split _ _).mp
      intro other otherMem same
      rw [← scan_reverse, List.mem_reverse] at otherMem
      exact missing (same ▸ List.mem_map_of_mem otherMem)
    exact apart route (List.mem_reverse.mpr (mem_wanted.mpr ⟨visited, isWanted⟩)) rfl

end

end Routes

end Promfetcher
