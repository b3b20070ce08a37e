import Promfetcher.Foundation.Uuid
import Promfetcher.Models.Lookup

/-!
# Finding routes from a text

`Routes.Find` guesses from its argument which lookup is meant: three parts between
slashes are names, a UUID is an app id, and everything else is a URI. Before that it
removes percent escapes, which the router and the query parser have already removed
once. A name that holds an escape after the first decoding is therefore looked up
under another name.
-/

namespace Promfetcher

open Foundation

namespace Routes

/-- The text that `Find` goes by. -/
def content (appIdOrPathOrName : GoString) : GoString :=
  (pathUnescape appIdOrPathOrName).getD appIdOrPathOrName

/-- `Routes.Find`. -/
def find [GoRuntime] (rts : Routes) (order : List (Sigma fun _ : Uri => Slice))
    (appIdOrPathOrName : GoString) : List (Option Route) :=
  match (content appIdOrPathOrName).splitOn slash with
  | [org, space, name] => (rts.findByOrgSpaceName order org space name).map some
  | _ =>
      match Uuid.parse (content appIdOrPathOrName) with
      | some _ => (rts.findById order (content appIdOrPathOrName)).map some
      | none => (rts.findByRouteName (content appIdOrPathOrName)).elim [] rts.heap.read

/-- The text that stands for an app by its names. -/
def path (org space name : GoString) : GoString :=
  org ++ slash :: (space ++ slash :: name)

theorem splitOn_path {org space name : GoString} (orgPlain : slash ∉ org)
    (spacePlain : slash ∉ space) (namePlain : slash ∉ name) :
    (path org space name).splitOn slash = [org, space, name] := by
  rw [path, List.splitOn_append_cons_self_of_not_mem orgPlain,
    List.splitOn_append_cons_self_of_not_mem spacePlain, List.splitOn_eq_singleton namePlain]

theorem eq_path_of_splitOn {content org space name : GoString}
    (parts : content.splitOn slash = [org, space, name]) : content = path org space name := by
  have joined : [slash].intercalate (content.splitOn slash) = content :=
    List.intercalate_splitOn slash
  rw [← joined, parts]
  simp [path, List.intercalate]

section

variable [GoRuntime] {rts : Routes} {order : List (Sigma fun _ : Uri => Slice)}

theorem find_of_splitOn {text org space name : GoString}
    (parts : (content text).splitOn slash = [org, space, name]) :
    rts.find order text = (rts.findByOrgSpaceName order org space name).map some := by
  rw [find, parts]

theorem find_of_uuid {text : GoString} (parts : ((content text).splitOn slash).length ≠ 3)
    (uuid : (Uuid.parse (content text)).isSome) :
    rts.find order text = (rts.findById order (content text)).map some := by
  rcases Option.isSome_iff_exists.mp uuid with ⟨bytes, parsed⟩
  unfold find
  split
  · next org space name three => simp [three] at parts
  · rw [parsed]

theorem find_of_url {text : GoString} (parts : ((content text).splitOn slash).length ≠ 3)
    (uuid : Uuid.parse (content text) = none) :
    rts.find order text = (rts.findByRouteName (content text)).elim [] rts.heap.read := by
  unfold find
  split
  · next org space name three => simp [three] at parts
  · rw [uuid]

end

/-! ## Names with escapes -/

theorem content_of_not_mem {text : GoString} (plain : percent ∉ text) : content text = text := by
  rw [content, pathUnescape_of_not_mem plain]
  rfl

theorem content_of_none {text : GoString} (fails : pathUnescape text = none) :
    content text = text := by
  rw [content, fails]
  rfl

theorem content_ne {text : GoString} (decodes : pathUnescape text ≠ none)
    (escape : percent ∈ text) : content text ≠ text := by
  rcases Option.ne_none_iff_exists'.mp decodes with ⟨decoded, equal⟩
  rw [content, equal]
  intro same
  have shorter := (length_of_pathUnescape equal).2 escape
  rw [Option.getD_some] at same
  rw [same] at shorter
  exact absurd shorter (lt_irrefl _)

/-- The names are the same after another removal of percent escapes: none has a percent sign, or
one has a percent sign without two hexadecimal digits, for which the removal fails as a whole. -/
def Unescaped (org space name : GoString) : Prop :=
  (percent ∉ org ∧ percent ∉ space ∧ percent ∉ name) ∨
    pathUnescape org = none ∨ pathUnescape space = none ∨ pathUnescape name = none

theorem content_path_iff (org space name : GoString) :
    content (path org space name) = path org space name ↔ Unescaped org space name := by
  have escape : percent ∉ path org space name ↔
      percent ∉ org ∧ percent ∉ space ∧ percent ∉ name := by
    have other : percent ≠ slash := by decide
    simp [path, other]
  have fails : pathUnescape (path org space name) = none ↔
      pathUnescape org = none ∨ pathUnescape space = none ∨ pathUnescape name = none := by
    rw [path, pathUnescape_append_slash, pathUnescape_append_slash]
    cases pathUnescape org <;> cases pathUnescape space <;> cases pathUnescape name <;> simp
  rw [Unescaped, ← escape, ← fails]
  constructor
  · intro same
    by_contra escaped
    rw [not_or, not_not] at escaped
    exact content_ne escaped.2 escaped.1 same
  · rintro (plain | none)
    · exact content_of_not_mem plain
    · exact content_of_none none

theorem questionMark_not_mem_routeKey [GoRuntime] (uri : Uri) :
    questionMark ∉ uri.routeKey.value := by
  simp only [Uri.routeKey]
  cases index : indexByte uri.toLower.value questionMark with
  | none =>
      have absent := List.findIdx?_eq_none_iff.mp index
      intro present
      simpa using absent _ present
  | some idx =>
      rcases List.findIdx?_eq_some_iff_getElem.mp index with ⟨inRange, _, earlier⟩
      intro present
      rcases List.mem_take_iff_getElem.mp present with ⟨position, bound, equal⟩
      have := earlier position (by omega)
      simp [equal] at this

/-- A table with one entry. -/
def single (key : Uri) (route : Route) : Routes where
  heap := ⟨[[some route]]⟩
  table := AList.singleton key { array := 0, length := 1, capacity := 1 }

theorem scan_single (key : Uri) (route : Route) (isMatch : Tags → Bool) :
    (single key route).scan (single key route).table.entries isMatch =
      if Wanted isMatch route then [route] else [] := by
  change (Scan.visit isMatch {} (some route)).finalRoutes = _
  by_cases web : route.tags.processType = processWeb
  · by_cases differs : isMatch route.tags = false
    · simp [Scan.visit, Wanted, differs]
    · simp [Scan.visit, Wanted, web, differs]
  · simp [Scan.visit, Wanted, web]

/-- A question mark is no route key. -/
theorem findByRouteName_single [GoRuntime] (route : Route) (routeName : GoString) :
    (single ⟨[questionMark]⟩ route).findByRouteName routeName = none := by
  have other : (Uri.mk routeName).routeKey ≠ ⟨[questionMark]⟩ := by
    intro same
    have absent := questionMark_not_mem_routeKey (Uri.mk routeName)
    rw [same] at absent
    exact absent List.mem_cons_self
  rw [findByRouteName, single, lookup_singleton, if_neg other]

section

variable [GoRuntime] {org space name : GoString}

/-- If the text of the names changes by another decoding, some table is searched wrongly. -/
theorem find_path_ne (escaped : content (path org space name) ≠ path org space name) :
    ∃ rts : Routes, rts.find rts.table.entries (path org space name) ≠
      (rts.findByOrgSpaceName rts.table.entries org space name).map some := by
  let route : Route :=
    { tags :=
        { processType := processWeb, organizationName := org, spaceName := space,
          appName := name } }
  let rts := single ⟨[questionMark]⟩ route
  refine ⟨rts, ?_⟩
  have byNames : rts.findByOrgSpaceName rts.table.entries org space name = [route] := by
    rw [findByOrgSpaceName, scan_single, if_pos]
    simp [Wanted, route]
  rw [byNames]
  by_cases parts : ((content (path org space name)).splitOn slash).length = 3
  · rcases List.length_eq_three.mp parts with ⟨otherOrg, otherSpace, otherName, three⟩
    have others : ¬(org = otherOrg ∧ space = otherSpace ∧ name = otherName) := by
      rintro ⟨rfl, rfl, rfl⟩
      exact escaped (eq_path_of_splitOn three)
    rw [find_of_splitOn three, findByOrgSpaceName, scan_single, if_neg]
    · simp
    · rintro ⟨_, isMatch⟩
      simp only [Bool.and_eq_true, beq_iff_eq, and_assoc] at isMatch
      exact others isMatch
  · cases uuid : Uuid.parse (content (path org space name)) with
    | some bytes =>
        have some_content : content (path org space name) ≠ [] := by
          intro empty
          rw [empty] at uuid
          simp [Uuid.parse] at uuid
        rw [find_of_uuid parts (by rw [uuid]; rfl), findById, scan_single, if_neg]
        · simp
        · rintro ⟨_, isMatch⟩
          exact some_content (beq_iff_eq.mp isMatch).symm
    | none =>
        rw [find_of_url parts uuid, findByRouteName_single]
        simp

/-- The lookup by the text of three names is the lookup by these names, in every table, exactly if
the names are the same after another removal of percent escapes. -/
theorem find_path_iff (orgPlain : slash ∉ org) (spacePlain : slash ∉ space)
    (namePlain : slash ∉ name) :
    (∀ (rts : Routes) (order : List (Sigma fun _ : Uri => Slice)),
      order.Perm rts.table.entries → rts.find order (path org space name) =
        (rts.findByOrgSpaceName order org space name).map some) ↔ Unescaped org space name := by
  rw [← content_path_iff]
  constructor
  · intro finds
    by_contra escaped
    rcases find_path_ne escaped with ⟨rts, differs⟩
    exact differs (finds rts _ (.refl _))
  · intro same rts order _
    apply find_of_splitOn
    rw [same]
    exact splitOn_path orgPlain spacePlain namePlain

end

section

local instance asciiRuntime : GoRuntime := GoRuntime.ascii

/-- An app with a percent sign in its name that starts no escape. -/
def fivePercent : Route where
  tags :=
    { processType := processWeb, organizationName := text "my org", spaceName := text "s+1",
      appName := text "5%" }

theorem find_path_iff_sample :
    let rts := single ⟨text "a.com"⟩ fivePercent
    rts.find rts.table.entries (path (text "my org") (text "s+1") (text "5%")) =
        (rts.findByOrgSpaceName rts.table.entries
          (text "my org") (text "s+1") (text "5%")).map some ∧
      rts.findByOrgSpaceName rts.table.entries (text "my org") (text "s+1") (text "5%") =
        [fivePercent] := by
  have unescaped : Unescaped (text "my org") (text "s+1") (text "5%") :=
    .inr (.inr (.inr (by decide)))
  refine ⟨(find_path_iff (by decide) (by decide) (by decide)).mpr unescaped _ _ (.refl _), ?_⟩
  rw [findByOrgSpaceName, scan_single, if_pos]
  simp [Wanted, fivePercent]

/-- An app with a percent escape in its name is not found by its names. -/
theorem not_find_path_always :
    ¬∀ org space name : GoString, slash ∉ org → slash ∉ space → slash ∉ name →
      ∀ (rts : Routes) (order : List (Sigma fun _ : Uri => Slice)),
        order.Perm rts.table.entries → rts.find order (path org space name) =
          (rts.findByOrgSpaceName order org space name).map some := by
  intro finds
  let route : Route :=
    { tags :=
        { processType := processWeb, organizationName := text "org", spaceName := text "space",
          appName := text "my%41pp" } }
  have found := finds (text "org") (text "space") (text "my%41pp") (by decide) (by decide)
    (by decide) (single ⟨text "a.com"⟩ route) _ (.refl _)
  revert found
  decide

end

end Routes

end Promfetcher
