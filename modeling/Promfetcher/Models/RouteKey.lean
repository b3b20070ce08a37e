import Promfetcher.Foundation.Cut
import Promfetcher.Models.Route
import Mathlib.Data.List.TakeWhile

/-!
# Route keys as normal forms

`Uri.RouteKey` trims one slash at the end of the whole URI, and then cuts the query.
A slash before a query is therefore kept, where the same slash without the query
is trimmed, and a key can end in a slash that the next call trims. The theorem at
the end says for which URIs the key is a normal form, and which variants of a URI
share it.
-/

namespace Promfetcher

open Foundation

namespace Uri

/-- The part before the query. -/
def path (uri : Uri) : GoString :=
  uri.value.takeWhile (· != questionMark)

/-- The query, with its question mark. -/
def query (uri : Uri) : GoString :=
  uri.value.dropWhile (· != questionMark)

/-- What `RouteKey` keeps, before it is lower-cased. -/
def kept (uri : Uri) : GoString :=
  if uri.query = [] then trimSuffix uri.path [slash] else uri.path

theorem path_append_query (uri : Uri) : uri.path ++ uri.query = uri.value :=
  List.takeWhile_append_dropWhile

theorem not_mem_path (uri : Uri) : questionMark ∉ uri.path := by
  intro inPath
  simpa using List.mem_takeWhile_imp inPath

theorem query_cases (uri : Uri) :
    uri.query = [] ∨ ∃ rest, uri.query = questionMark :: rest := by
  cases query : uri.query with
  | nil => exact Or.inl rfl
  | cons byte rest =>
      have stops := List.head?_dropWhile_not (· != questionMark) uri.value
      rw [← Uri.query, query] at stops
      refine Or.inr ⟨rest, ?_⟩
      rw [show byte = questionMark by simpa using stops]

theorem takeWhile_of_append {pre rest : GoString} (plain : questionMark ∉ pre)
    (isQuery : rest = [] ∨ ∃ more, rest = questionMark :: more) :
    (pre ++ rest).takeWhile (· != questionMark) = pre := by
  have all : ∀ byte ∈ pre, (byte != questionMark) = true := by
    intro byte byteMem
    rw [bne_iff_ne]
    exact fun same => plain (same ▸ byteMem)
  rw [List.takeWhile_append_of_pos all]
  rcases isQuery with rfl | ⟨more, rfl⟩ <;> simp

theorem takeWhile_of_not_mem {string : GoString} (plain : questionMark ∉ string) :
    string.takeWhile (· != questionMark) = string := by
  simpa using takeWhile_of_append plain (Or.inl rfl)

/-! ## Trimming one slash -/

theorem suffix_trimSuffix_iff (string : GoString) :
    [slash] <:+ trimSuffix string [slash] ↔ [slash, slash] <:+ string := by
  by_cases ends : [slash] <:+ string
  · rcases ends with ⟨front, rfl⟩
    rw [trimSuffix_append]
    exact List.suffix_append_self_iff.symm
  · rw [trimSuffix_of_not_suffix ends]
    exact iff_of_false ends fun twice =>
      ends (List.IsSuffix.trans ⟨[slash], rfl⟩ twice)

/-- The slash that is trimmed lies in the query, if there is one. -/
theorem takeWhile_string (uri : Uri) :
    uri.string.takeWhile (· != questionMark) = uri.kept := by
  rw [string, kept, ← path_append_query]
  rcases uri.query_cases with none | ⟨rest, some⟩
  · rw [if_pos none, none, List.append_nil]
    apply takeWhile_of_not_mem
    exact fun inTrimmed => uri.not_mem_path ((trimSuffix_isPrefix _ _).subset inTrimmed)
  · rw [if_neg (by simp [some]), some]
    by_cases ends : [slash] <:+ uri.path ++ questionMark :: rest
    · have inRest : [slash] <:+ rest := by
        have inQuery := List.suffix_of_suffix_length_le ends (List.suffix_append _ _)
          (Nat.le_add_left 1 _)
        rcases List.suffix_cons_iff.mp inQuery with same | inRest
        · cases same
        · exact inRest
      rcases inRest with ⟨front, rfl⟩
      rw [← List.cons_append, ← List.append_assoc, trimSuffix_append]
      exact takeWhile_of_append uri.not_mem_path (Or.inr ⟨front, rfl⟩)
    · rw [trimSuffix_of_not_suffix ends]
      exact takeWhile_of_append uri.not_mem_path (Or.inr ⟨rest, rfl⟩)

theorem kept_of_not_mem {uri : Uri} (plain : questionMark ∉ uri.value) :
    uri.kept = trimSuffix uri.value [slash] := by
  rw [← takeWhile_string]
  exact takeWhile_of_not_mem fun inTrimmed => plain ((trimSuffix_isPrefix _ _).subset inTrimmed)

theorem not_mem_kept (uri : Uri) : questionMark ∉ uri.kept := by
  rw [← takeWhile_string]
  intro inKept
  simpa using List.mem_takeWhile_imp inKept

/-! ## Lower case -/

section

variable [GoRuntime]

theorem toLower_nil : GoRuntime.toLower [] = [] :=
  GoRuntime.toLower_ascii [] (by simp)

theorem toLower_concat_slash (string : GoString) :
    GoRuntime.toLower (string ++ [slash]) = GoRuntime.toLower string ++ [slash] := by
  rw [GoRuntime.toLower_append_cons string [] slash (Or.inl rfl), toLower_nil]

theorem takeWhile_toLower (string : GoString) :
    (GoRuntime.toLower string).takeWhile (· != questionMark) =
      GoRuntime.toLower (string.takeWhile (· != questionMark)) := by
  have plain := (GoRuntime.mem_toLower (path ⟨string⟩) questionMark (Or.inr rfl)).not.mpr
    (not_mem_path ⟨string⟩)
  change _ = GoRuntime.toLower (path ⟨string⟩)
  rcases query_cases ⟨string⟩ with none | ⟨rest, some⟩
  · have whole : string = path ⟨string⟩ := by
      simpa [none] using (path_append_query ⟨string⟩).symm
    rw [← whole] at plain ⊢
    exact takeWhile_of_not_mem plain
  · have parts : string = path ⟨string⟩ ++ questionMark :: rest := by
      rw [← some, path_append_query]
    calc (GoRuntime.toLower string).takeWhile (· != questionMark)
      _ = (GoRuntime.toLower (path ⟨string⟩) ++ questionMark :: GoRuntime.toLower rest).takeWhile
          (· != questionMark) := by
        rw [← GoRuntime.toLower_append_cons _ _ _ (Or.inr rfl), ← parts]
      _ = GoRuntime.toLower (path ⟨string⟩) := takeWhile_of_append plain (Or.inr ⟨_, rfl⟩)

theorem value_routeKey (uri : Uri) :
    uri.routeKey.value = uri.toLower.value.takeWhile (· != questionMark) := by
  rw [List.takeWhile_eq_take_findIdx_not]
  cases found : indexByte uri.toLower.value questionMark with
  | none =>
      have past : uri.toLower.value.findIdx (fun byte => !(byte != questionMark)) =
          uri.toLower.value.length := by
        apply List.findIdx_eq_length.mpr
        intro byte byteMem
        simpa using List.findIdx?_eq_none_iff.mp found byte byteMem
      simp only [routeKey, found, past, List.take_length]
  | some index =>
      have here := (List.findIdx?_eq_some_iff_findIdx_eq.mp found).2
      simp only [routeKey, found, bne, Bool.not_not, here]

theorem routeKey_eq (uri : Uri) : uri.routeKey = ⟨GoRuntime.toLower uri.kept⟩ := by
  have value := value_routeKey uri
  rw [toLower, takeWhile_toLower, takeWhile_string] at value
  rw [← value]

/-! ## The slash at the end of a key

That no rune is mapped to the empty string is needed only to know that the last
byte of a lower-cased string is a slash exactly if it was one before.
-/

variable (mapsRunes : ∀ string, GoRuntime.toLower string = [] → string = [])
include mapsRunes

theorem suffix_toLower_iff (string : GoString) :
    [slash] <:+ GoRuntime.toLower string ↔ [slash] <:+ string := by
  constructor
  · intro ends
    have inString : slash ∈ string :=
      (GoRuntime.mem_toLower string slash (Or.inl rfl)).mp (ends.subset List.mem_cons_self)
    cases isCut : cutLast slash string with
    | none => exact absurd inString (cutLast_eq_none_iff.mp isCut)
    | some parts =>
        rcases parts with ⟨front, last⟩
        rcases cutLast_eq_some_iff.mp isCut with ⟨rfl, absent⟩
        rcases ends with ⟨more, same⟩
        rw [GoRuntime.toLower_append_cons _ _ _ (Or.inl rfl)] at same
        have absentLower := (GoRuntime.mem_toLower last slash (Or.inl rfl)).not.mpr absent
        have cuts := congrArg (cutLast slash) same
        rw [cutLast_append _ List.not_mem_nil, cutLast_append _ absentLower, Option.some.injEq,
          Prod.mk.injEq] at cuts
        rw [mapsRunes last cuts.2.symm]
        exact List.suffix_append _ _
  · rintro ⟨front, rfl⟩
    rw [toLower_concat_slash]
    exact List.suffix_append _ _

theorem trimSuffix_toLower (string : GoString) :
    trimSuffix (GoRuntime.toLower string) [slash] =
      GoRuntime.toLower (trimSuffix string [slash]) := by
  by_cases ends : [slash] <:+ string
  · rcases ends with ⟨front, rfl⟩
    rw [toLower_concat_slash, trimSuffix_append, trimSuffix_append]
  · rw [trimSuffix_of_not_suffix ends, trimSuffix_of_not_suffix]
    rwa [suffix_toLower_iff mapsRunes]

omit mapsRunes in
theorem toLower_trimSuffix_eq_iff (string : GoString) :
    GoRuntime.toLower (trimSuffix string [slash]) = GoRuntime.toLower string ↔
      ¬[slash] <:+ string := by
  constructor
  · rintro same ⟨front, rfl⟩
    rw [trimSuffix_append, toLower_concat_slash] at same
    simpa using congrArg List.length same
  · intro other
    rw [trimSuffix_of_not_suffix other]

theorem routeKey_routeKey (uri : Uri) :
    uri.routeKey.routeKey = ⟨GoRuntime.toLower (trimSuffix uri.kept [slash])⟩ := by
  rw [routeKey_eq, routeKey_eq uri, kept_of_not_mem, trimSuffix_toLower mapsRunes,
    GoRuntime.toLower_toLower]
  exact (GoRuntime.mem_toLower _ _ (Or.inr rfl)).not.mpr uri.not_mem_kept

/-- The key is a function of the lower-cased URI. -/
theorem routeKey_eq_of_toLower_eq {uri other : Uri}
    (same : GoRuntime.toLower uri.value = GoRuntime.toLower other.value) :
    uri.routeKey = other.routeKey := by
  have lowered (uri : Uri) : uri.routeKey =
      ⟨(trimSuffix (GoRuntime.toLower uri.value) [slash]).takeWhile (· != questionMark)⟩ := by
    rw [routeKey_eq, ← takeWhile_string, ← takeWhile_toLower, string,
      trimSuffix_toLower mapsRunes]
  rw [lowered, lowered, same]

omit mapsRunes

theorem routeKey_eq_iff {uri other : Uri} : uri.routeKey = other.routeKey ↔
    GoRuntime.toLower uri.kept = GoRuntime.toLower other.kept := by
  rw [routeKey_eq, routeKey_eq, mk.injEq]

/-! ## Normal forms -/

/-- Two URIs that differ in nothing a route key should depend on. -/
inductive Variant (uri other : Uri) : Prop where
  | letterCase (same : GoRuntime.toLower uri.value = GoRuntime.toLower other.value)
  | slash (path : other.path = uri.path ++ [slash]) (query : other.query = uri.query)
  | query (path : other.path = uri.path)

/-- The key of the URI is a normal form, shared by all variants of the URI. -/
def Canonical (uri : Uri) : Prop :=
  uri.routeKey.routeKey = uri.routeKey ∧ ∀ other, Variant uri other → uri.routeKey = other.routeKey

theorem idempotent_iff (mapsRunes : ∀ string, GoRuntime.toLower string = [] → string = [])
    (uri : Uri) : uri.routeKey.routeKey = uri.routeKey ↔
      (uri.query = [] → ¬[slash, slash] <:+ uri.path) ∧
        (uri.query ≠ [] → ¬[slash] <:+ uri.path) := by
  rw [routeKey_routeKey mapsRunes, routeKey_eq, mk.injEq, toLower_trimSuffix_eq_iff, kept]
  split
  · next none => simp [none, suffix_trimSuffix_iff]
  · next some => simp [some]

theorem routeKey_slash_iff {uri other : Uri} (path : other.path = uri.path ++ [slash])
    (query : other.query = uri.query) :
    uri.routeKey = other.routeKey ↔ uri.query = [] ∧ ¬[slash] <:+ uri.path := by
  rw [routeKey_eq_iff, kept, kept, path, query]
  split
  · next none => rw [trimSuffix_append, toLower_trimSuffix_eq_iff, and_iff_right none]
  · next some =>
      refine iff_of_false ?_ fun both => some both.1
      rw [toLower_concat_slash]
      intro same
      simpa using congrArg List.length same

theorem routeKey_query_iff {uri other : Uri} (path : other.path = uri.path) :
    uri.routeKey = other.routeKey ↔
      (uri.query = [] ↔ other.query = []) ∨ ¬[slash] <:+ uri.path := by
  rw [routeKey_eq_iff, kept, kept, path, ← toLower_trimSuffix_eq_iff]
  by_cases none : uri.query = [] <;> by_cases otherNone : other.query = [] <;>
    simp [none, otherNone, eq_comm]

/-- When a key is a normal form, and when a variant of the URI has the same key. -/
theorem canonical_iff (mapsRunes : ∀ string, GoRuntime.toLower string = [] → string = []) :
    (∀ uri : Uri, uri.routeKey.routeKey = uri.routeKey ↔
      (uri.query = [] → ¬[slash, slash] <:+ uri.path) ∧
        (uri.query ≠ [] → ¬[slash] <:+ uri.path)) ∧
    (∀ uri other : Uri, GoRuntime.toLower uri.value = GoRuntime.toLower other.value →
      uri.routeKey = other.routeKey) ∧
    (∀ uri other : Uri, other.path = uri.path ++ [slash] → other.query = uri.query →
      (uri.routeKey = other.routeKey ↔ uri.query = [] ∧ ¬[slash] <:+ uri.path)) ∧
    ∀ uri other : Uri, other.path = uri.path →
      (uri.routeKey = other.routeKey ↔
        (uri.query = [] ↔ other.query = []) ∨ ¬[slash] <:+ uri.path) :=
  ⟨idempotent_iff mapsRunes, fun _ _ => routeKey_eq_of_toLower_eq mapsRunes,
    fun _ _ => routeKey_slash_iff, fun _ _ => routeKey_query_iff⟩

end

section

local instance asciiKeys : GoRuntime := GoRuntime.ascii

theorem canonical_iff_sample :
    (Uri.mk (text "Shop.com/Cart//")).routeKey.routeKey ≠
        (Uri.mk (text "Shop.com/Cart//")).routeKey ∧
      (Uri.mk (text "Shop.com/Cart/")).routeKey = (Uri.mk (text "shop.COM/cart/")).routeKey := by
  have mapsRunes (string : GoString) (empty : GoRuntime.toLower string = []) : string = [] :=
    List.map_eq_nil_iff.mp empty
  refine ⟨((canonical_iff mapsRunes).1 _).not.mpr ?_, (canonical_iff mapsRunes).2.1 _ _ rfl⟩
  intro condition
  exact condition.1 (by decide) (by decide)

/-- A slash before a query stays in the key, and the next call trims it. -/
theorem not_canonical_always : ¬∀ uri : Uri, uri.Canonical := by
  intro canonical
  exact absurd (canonical ⟨text "shop.com/?page=1"⟩).1 (by decide)

end

end Uri

end Promfetcher
