import Promfetcher.Models.Find

/-!
# Spellings of an app id

`uuid.Parse` accepts a UUID in four forms and in any letter case. `Find` asks it whether a
text is an app id, drops the UUID it returns and looks for the text itself. An app
is then found by another spelling of its id only if an entry at each of its
addresses happens to be registered under that spelling.

A text of 38 bytes whose first and last bytes are slashes is a UUID as well, but `Find`
takes it for names.
-/

namespace Promfetcher

open Foundation

namespace Routes

/-! ## The routes that a scan finds -/

/-- The route is wanted, and no wanted entry before it has its address. -/
def FirstAtAddress (isMatch : Tags → Bool) (entries : List (Option Route)) (route : Route) :
    Prop :=
  ∃ before after, entries = before ++ some route :: after ∧ Wanted isMatch route ∧
    ∀ other, some other ∈ before → Wanted isMatch other → other.address ≠ route.address

theorem firstAtAddress_append_singleton {isMatch : Tags → Bool} {entries : List (Option Route)}
    {entry : Option Route} {route : Route} :
    FirstAtAddress isMatch (entries ++ [entry]) route ↔
      FirstAtAddress isMatch entries route ∨
        (entry = some route ∧ Wanted isMatch route ∧
          ∀ other, some other ∈ entries → Wanted isMatch other →
            other.address ≠ route.address) := by
  constructor
  · rintro ⟨before, after, split, isWanted, fresh⟩
    rcases List.eq_nil_or_concat after with rfl | ⟨init, last, rfl⟩
    · rcases List.append_inj' split rfl with ⟨rfl, same⟩
      exact Or.inr ⟨List.singleton_inj.mp same, isWanted, fresh⟩
    · have whole : entries ++ [entry] = (before ++ some route :: init) ++ [last] := by
        rw [split]
        simp
      have front := List.append_inj_left' whole rfl
      exact Or.inl ⟨before, init, front, isWanted, fresh⟩
  · rintro (⟨before, after, rfl, isWanted, fresh⟩ | ⟨rfl, isWanted, fresh⟩)
    · exact ⟨before, after ++ [entry], by simp, isWanted, fresh⟩
    · exact ⟨entries, [], rfl, isWanted, fresh⟩

/-- What the variables of the loops hold after some entries. -/
structure Scan.Collects (isMatch : Tags → Bool) (entries : List (Option Route)) (scan : Scan) :
    Prop where
  exist : ∀ address, address ∈ scan.exist ↔
    ∃ other, some other ∈ entries ∧ Wanted isMatch other ∧ other.address = address
  finalRoutes : ∀ route, route ∈ scan.finalRoutes ↔ FirstAtAddress isMatch entries route

theorem Scan.Collects.visit {isMatch : Tags → Bool} {entries : List (Option Route)} {scan : Scan}
    (collects : scan.Collects isMatch entries) (entry : Option Route) :
    (scan.visit isMatch entry).Collects isMatch (entries ++ [entry]) := by
  have skips (none : ∀ route, entry = some route → ¬Wanted isMatch route) :
      scan.Collects isMatch (entries ++ [entry]) := by
    refine ⟨fun address => ?_, fun route => ?_⟩
    · rw [collects.exist]
      refine exists_congr fun other => ?_
      simp only [List.mem_append, List.mem_singleton]
      refine ⟨fun found => ⟨Or.inl found.1, found.2⟩, ?_⟩
      rintro ⟨earlier | last, isWanted, same⟩
      · exact ⟨earlier, isWanted, same⟩
      · exact absurd isWanted (none other last.symm)
    · rw [collects.finalRoutes, firstAtAddress_append_singleton]
      exact ⟨Or.inl, fun first => first.resolve_right fun last => none route last.1 last.2.1⟩
  rcases entry with _ | last
  · exact skips fun _ impossible => by cases impossible
  by_cases isWanted : Wanted isMatch last
  · rw [visit_of_wanted isWanted]
    by_cases seen : last.address ∈ scan.exist
    · rw [if_pos seen]
      rcases (collects.exist _).mp seen with ⟨earlier, earlierMem, earlierWanted, same⟩
      refine ⟨fun address => ?_, fun route => ?_⟩
      · rw [collects.exist]
        constructor
        · rintro ⟨other, otherMem, otherWanted, rfl⟩
          exact ⟨other, List.mem_append_left _ otherMem, otherWanted, rfl⟩
        · rintro ⟨other, otherMem, otherWanted, rfl⟩
          rcases List.mem_append.mp otherMem with before | here
          · exact ⟨other, before, otherWanted, rfl⟩
          · cases List.mem_singleton.mp here
            exact ⟨earlier, earlierMem, earlierWanted, same⟩
      · rw [collects.finalRoutes, firstAtAddress_append_singleton]
        refine ⟨Or.inl, fun first => first.resolve_right ?_⟩
        rintro ⟨here, _, fresh⟩
        cases here
        exact fresh earlier earlierMem earlierWanted same
    · rw [if_neg seen]
      rw [collects.exist] at seen
      refine ⟨fun address => ?_, fun route => ?_⟩
      · simp only [List.mem_cons, collects.exist, List.mem_append, List.not_mem_nil, or_false]
        constructor
        · rintro (rfl | ⟨other, otherMem, otherWanted, same⟩)
          · exact ⟨last, Or.inr rfl, isWanted, rfl⟩
          · exact ⟨other, Or.inl otherMem, otherWanted, same⟩
        · rintro ⟨other, before | here, otherWanted, same⟩
          · exact Or.inr ⟨other, before, otherWanted, same⟩
          · cases here
            exact Or.inl same.symm
      · rw [List.mem_append, List.mem_singleton, collects.finalRoutes,
          firstAtAddress_append_singleton]
        refine or_congr Iff.rfl ?_
        constructor
        · rintro rfl
          exact ⟨rfl, isWanted, fun other otherMem otherWanted same =>
            seen ⟨other, otherMem, otherWanted, same⟩⟩
        · rintro ⟨here, _, _⟩
          cases here
          rfl
  · rw [visit_of_not_wanted isWanted]
    refine skips fun route here => ?_
    cases here
    exact isWanted

/-- A scan finds the first wanted entry at each address. -/
theorem mem_scan_iff {rts : Routes} {order : List (Sigma fun _ : Uri => Slice)}
    {isMatch : Tags → Bool} {route : Route} :
    route ∈ rts.scan order isMatch ↔ FirstAtAddress isMatch (rts.visited order) route := by
  have collects (entries : List (Option Route)) :
      Scan.Collects isMatch entries (entries.foldl (Scan.visit isMatch) {}) := by
    induction entries using List.reverseRecOn with
    | nil =>
        refine ⟨by simp, fun route => ⟨by simp, ?_⟩⟩
        rintro ⟨before, after, split, _⟩
        simp at split
    | append_singleton entries entry inductionHypothesis =>
        rw [List.foldl_append]
        exact inductionHypothesis.visit entry
  rw [scan_eq_foldl]
  exact (collects _).finalRoutes route

/-! ## The routes of an app, by any spelling of its id -/

/-- A web route of the app whose id denotes the UUID. -/
def OfApp (uuid : List UInt8) (route : Route) : Prop :=
  route.tags.processType = processWeb ∧ Uuid.parse route.tags.appID = some uuid

section

variable [GoRuntime] {rts : Routes} {order : List (Sigma fun _ : Uri => Slice)}
  {text : GoString} {uuid : List UInt8}

/-- `Find` returns the routes of the app, one for each of their addresses. -/
structure FindsApp (rts : Routes) (order : List (Sigma fun _ : Uri => Slice)) (text : GoString)
    (uuid : List UInt8) : Prop where
  ofApp : ∀ entry ∈ rts.find order text, ∃ route, entry = some route ∧
    (∃ key, some route ∈ rts.list key) ∧ OfApp uuid route
  once : ((rts.find order text).map (Option.map Route.address)).Nodup
  complete : ∀ key route, some route ∈ rts.list key → OfApp uuid route →
    ∃ other, some other ∈ rts.find order text ∧ other.address = route.address

/-- Each address of a route of the app is that of a wanted entry. -/
def Covered (rts : Routes) (isMatch : Tags → Bool) (uuid : List UInt8) : Prop :=
  ∀ key route, some route ∈ rts.list key → OfApp uuid route →
    ∃ otherKey other, some other ∈ rts.list otherKey ∧ Wanted isMatch other ∧
      other.address = route.address

theorem findsApp_iff_of_scan (visits : order.Perm rts.table.entries) {isMatch : Tags → Bool}
    (scans : rts.find order text = (rts.scan order isMatch).map some) :
    FindsApp rts order text uuid ↔
      (∀ route, FirstAtAddress isMatch (rts.visited order) route →
        Uuid.parse route.tags.appID = some uuid) ∧ Covered rts isMatch uuid := by
  have mem_find {route : Route} :
      some route ∈ rts.find order text ↔ route ∈ rts.scan order isMatch := by
    simp [scans]
  have address {address : GoString} :
      (∃ other, some other ∈ rts.find order text ∧ other.address = address) ↔
        ∃ key other, some other ∈ rts.list key ∧ Wanted isMatch other ∧
          other.address = address := by
    simp only [mem_find, ← List.mem_map, mem_address_scan, mem_visited visits]
    constructor
    · rintro ⟨other, ⟨key, otherMem⟩, isWanted, same⟩
      exact ⟨key, other, otherMem, isWanted, same⟩
    · rintro ⟨key, other, otherMem, isWanted, same⟩
      exact ⟨other, ⟨key, otherMem⟩, isWanted, same⟩
  constructor
  · intro finds
    refine ⟨?_, ?_⟩
    · intro route first
      rcases finds.ofApp _ (mem_find.mpr (mem_scan_iff.mpr first)) with ⟨_, same, _, ofApp⟩
      cases same
      exact ofApp.2
    · intro key route routeMem ofApp
      exact address.mp (finds.complete key route routeMem ofApp)
  · rintro ⟨denotes, covered⟩
    refine ⟨?_, ?_, ?_⟩
    · intro entry entryMem
      rw [scans] at entryMem
      rcases List.mem_map.mp entryMem with ⟨route, found, rfl⟩
      rcases wanted_of_mem_scan found with ⟨routeVisited, isWanted⟩
      exact ⟨route, rfl, (mem_visited visits).mp routeVisited, isWanted.1,
        denotes route (mem_scan_iff.mp found)⟩
    · have once : ((rts.scan order isMatch).map Route.address).Nodup := nodup_scan
      have mapped := once.map (Option.some_injective GoString)
      simpa [scans, List.map_map, Function.comp_def] using mapped
    · intro key route routeMem ofApp
      exact address.mpr (covered key route routeMem ofApp)

/-- For a text that is not taken for names, the entries under its very spelling have to cover the
addresses of the app. -/
theorem findsApp_iff_of_uuid (visits : order.Perm rts.table.entries)
    (denotes : Uuid.parse (content text) = some uuid)
    (parts : ((content text).splitOn slash).length ≠ 3) :
    FindsApp rts order text uuid ↔ ∀ key route, some route ∈ rts.list key → OfApp uuid route →
      ∃ otherKey other, some other ∈ rts.list otherKey ∧
        other.tags.processType = processWeb ∧ other.tags.appID = content text ∧
        other.address = route.address := by
  have isUuid : (Uuid.parse (content text)).isSome := by
    rw [denotes]
    rfl
  have scans : rts.find order text =
      (rts.scan order fun tags => tags.appID == content text).map some :=
    find_of_uuid parts isUuid
  rw [findsApp_iff_of_scan visits scans, and_iff_right]
  · simp only [Covered, Wanted, beq_iff_eq, and_assoc]
  · rintro route ⟨_, _, _, isWanted, _⟩
    rw [beq_iff_eq.mp isWanted.2]
    exact denotes

/-- The tags that `FindByOrgSpaceName` looks for. -/
def named (org space name : GoString) (tags : Tags) : Bool :=
  tags.organizationName == org && tags.spaceName == space && tags.appName == name

theorem findsApp_iff_of_names (visits : order.Perm rts.table.entries) {org space name : GoString}
    (parts : (content text).splitOn slash = [org, space, name]) :
    FindsApp rts order text uuid ↔
      (∀ route, FirstAtAddress (named org space name) (rts.visited order) route →
        Uuid.parse route.tags.appID = some uuid) ∧ Covered rts (named org space name) uuid :=
  findsApp_iff_of_scan visits (find_of_splitOn parts)

/-- When `Find` finds the app that a text denotes as a UUID. -/
theorem findsApp_iff (rts : Routes) {order : List (Sigma fun _ : Uri => Slice)}
    (visits : order.Perm rts.table.entries) {text : GoString} {uuid : List UInt8}
    (denotes : Uuid.parse (content text) = some uuid) :
    (((content text).splitOn slash).length ≠ 3 →
      (FindsApp rts order text uuid ↔
        ∀ key route, some route ∈ rts.list key → OfApp uuid route →
          ∃ otherKey other, some other ∈ rts.list otherKey ∧
            other.tags.processType = processWeb ∧ other.tags.appID = content text ∧
            other.address = route.address)) ∧
      ∀ org space name, (content text).splitOn slash = [org, space, name] →
        (FindsApp rts order text uuid ↔
          (∀ route, FirstAtAddress (named org space name) (rts.visited order) route →
            Uuid.parse route.tags.appID = some uuid) ∧
          Covered rts (named org space name) uuid) :=
  ⟨findsApp_iff_of_uuid visits denotes, fun _ _ _ => findsApp_iff_of_names visits⟩

end

/-! ## A spelling that is not found -/

section

local instance asciiSpellings : GoRuntime := GoRuntime.ascii

/-- An app id in lower case. -/
def lowerSpelling : GoString :=
  text "c758f25d-2d01-419e-b63b-de3aabcd9e15"

/-- The same app id in upper case. -/
def upperSpelling : GoString :=
  text "C758F25D-2D01-419E-B63B-DE3AABCD9E15"

/-- An app registered under the small letters of its id. -/
def spelledTable : Routes :=
  single ⟨text "a.com"⟩
    { address := text "10.0.0.1:80"
      tags := { appID := lowerSpelling, processType := processWeb } }

theorem not_findsApp_always : ¬∀ (rts : Routes) (order : List (Sigma fun _ : Uri => Slice)),
    order.Perm rts.table.entries → ∀ text uuid, Uuid.parse (content text) = some uuid →
      FindsApp rts order text uuid := by
  intro finds
  have denotes : Uuid.parse (content upperSpelling) = Uuid.parse lowerSpelling := by decide
  have accepted : (Uuid.parse lowerSpelling).isSome = true := by decide
  rcases Option.isSome_iff_exists.mp accepted with ⟨uuid, parsed⟩
  have complete := (finds spelledTable _ (.refl _) upperSpelling uuid
    (denotes.trans parsed)).complete
  rcases complete ⟨text "a.com"⟩ _ List.mem_cons_self ⟨rfl, parsed⟩ with ⟨other, found, _⟩
  have nothing : spelledTable.find spelledTable.table.entries upperSpelling = [] := by decide
  rw [nothing] at found
  cases found

theorem findsApp_iff_sample :
    FindsApp spelledTable spelledTable.table.entries lowerSpelling
      [0xC7, 0x58, 0xF2, 0x5D, 0x2D, 0x01, 0x41, 0x9E, 0xB6, 0x3B, 0xDE, 0x3A, 0xAB, 0xCD, 0x9E,
        0x15] := by
  refine ((findsApp_iff spelledTable (.refl _) (by decide)).1 (by decide)).mpr ?_
  intro key route routeMem ofApp
  refine ⟨key, route, routeMem, ofApp.1, ?_, rfl⟩
  cases found : spelledTable.table.lookup key with
  | none =>
      simp only [list, found] at routeMem
      cases routeMem
  | some routes =>
      simp only [list, found, (eq_of_lookup_singleton found).2.symm] at routeMem
      cases List.mem_singleton.mp routeMem
      decide

end

end Routes

end Promfetcher
