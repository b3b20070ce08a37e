import Promfetcher.Foundation.JsonRender
import Promfetcher.Models.Routes
import Mathlib.Data.List.DropRight

/-!
# The dump of the route table

`Routes.String` writes a JSON object by hand: a key is put between quotes without
any escape, printed by its `String` method, which drops a trailing slash, and
trailing commas are trimmed off. The dump is the table exactly if every key can be
written like that.
-/

namespace Promfetcher

open Foundation

/-- The byte between two members. -/
def comma : UInt8 := 0x2C

/-- `strings.TrimRight` for a cutset of one byte. -/
def trimRight (string : GoString) (byte : UInt8) : GoString :=
  string.rdropWhile (· == byte)

/-- A text that `strings.TrimRight` keeps. -/
def EndsPlain (string : GoString) : Prop :=
  ∃ init last, string = init ++ [last] ∧ last ≠ comma

theorem EndsPlain.append {string : GoString} (ends : EndsPlain string) (before : GoString) :
    EndsPlain (before ++ string) := by
  rcases ends with ⟨init, last, rfl, plain⟩
  exact ⟨before ++ init, last, (List.append_assoc ..).symm, plain⟩

theorem EndsPlain.trimRight {string : GoString} (ends : EndsPlain string) :
    trimRight string comma = string := by
  rcases ends with ⟨init, last, rfl, plain⟩
  exact List.rdropWhile_concat_neg _ _ _ (by simpa using plain)

theorem endsPlain_joinCommas {texts : List GoString} (ends : ∀ text ∈ texts, EndsPlain text)
    (some : texts ≠ []) : EndsPlain (Json.joinCommas texts) := by
  fun_induction Json.joinCommas texts with
  | case1 => exact absurd rfl some
  | case2 only => exact ends only (List.mem_singleton_self _)
  | case3 first second others inductionHypothesis =>
      have tail := inductionHypothesis (List.forall_mem_cons.mp ends).2 (List.cons_ne_nil _ _)
      exact (tail.append [0x2C]).append first

theorem flatten_commas {texts : List GoString} (some : texts ≠ []) :
    (texts.map (· ++ [comma])).flatten = Json.joinCommas texts ++ [comma] := by
  fun_induction Json.joinCommas texts with
  | case1 => exact absurd rfl some
  | case2 only => simp
  | case3 first second others inductionHypothesis =>
      rw [List.map_cons, List.flatten_cons, inductionHypothesis (List.cons_ne_nil _ _)]
      simp [comma]

/-- A loop that writes a comma behind each text, and the trimming after it. -/
theorem trimRight_commas {texts : List GoString} {before : GoString}
    (ends : ∀ text ∈ texts, EndsPlain text) (beforeEnds : EndsPlain before) :
    trimRight (before ++ (texts.map (· ++ [comma])).flatten) comma =
      before ++ Json.joinCommas texts := by
  cases texts with
  | nil => simpa [Json.joinCommas] using beforeEnds.trimRight
  | cons first others =>
      rw [flatten_commas (List.cons_ne_nil _ _), ← List.append_assoc, trimRight,
        List.rdropWhile_concat_pos _ _ _ (by simp)]
      exact ((endsPlain_joinCommas ends (List.cons_ne_nil _ _)).append before).trimRight

theorem foldl_commas {Item : Type} (render : Item → GoString) (items : List Item)
    (before : GoString) :
    items.foldl (fun finalStr item => finalStr ++ (render item ++ [comma])) before =
      before ++ ((items.map render).map (· ++ [comma])).flatten := by
  induction items generalizing before with
  | nil => simp
  | cons item items inductionHypothesis =>
      rw [List.foldl_cons, inductionHypothesis]
      simp

/-- A key that can stand between quotes as it is, and that its `String` method prints as it is. -/
structure Uri.Dumpable (key : Uri) : Prop where
  valid : validString key.value = true
  plain : ∀ byte ∈ key.value, Json.IsPlain byte
  noSlash : ¬[slash] <:+ key.value

theorem Uri.Dumpable.string {key : Uri} (dumpable : key.Dumpable) : key.string = key.value :=
  trimSuffix_of_not_suffix dumpable.noSlash

/-- What is left open of `json.Marshal` for a route: its text, and the members that the text is
read as, which are the fields with a tag. The tags of the route are an object in that object. -/
class RouteMarshal where
  marshal : Route → GoString
  members : Route → List (GoString × Json)
  marshal_parsed : ∀ route, Json.Parsed 2 (marshal route) (.value (.object (members route))) []

section

variable [RouteMarshal]

/-- `json.Marshal` of a pointer to a route, which cannot fail. -/
def marshalRoute : Option Route → GoString
  | none => text "null"
  | some route => RouteMarshal.marshal route

/-- What the marshalled pointer is read as. -/
def routeDocument : Option Route → Json
  | none => .null
  | some route => .object (RouteMarshal.members route)

namespace Routes

/-- The inner loop of `Routes.String`. -/
def stringRoutes (finalStr : GoString) (routes : List (Option Route)) : GoString :=
  routes.foldl (fun finalStr route => finalStr ++ (marshalRoute route ++ text ",")) finalStr

/-- The body of the outer loop of `Routes.String`. -/
def stringEntry (rts : Routes) (finalStr : GoString) (entry : Sigma fun _ : Uri => Slice) :
    GoString :=
  let finalStr := finalStr ++ (text "\"" ++ entry.1.string ++ text "\": [")
  let finalStr := stringRoutes finalStr (rts.heap.read entry.2)
  trimRight finalStr comma ++ text "],"

/-- `Routes.String`, for a range that goes through the table in the given order. -/
def string (rts : Routes) (order : List (Sigma fun _ : Uri => Slice)) : GoString :=
  trimRight (order.foldl rts.stringEntry (text "\x7b")) comma ++ text "\x7d"

/-- The dump is an object without repeated names, whose members are the keys with their lists. -/
def FaithfulDump (rts : Routes) (dump : GoString) : Prop :=
  ∃ members, Json.parse dump = some (.object members) ∧ (members.map Prod.fst).Nodup ∧
    ∀ name value, (name, value) ∈ members ↔ ∃ key routes, rts.table.lookup key = some routes ∧
      name = key.value ∧ value = .array ((rts.heap.read routes).map routeDocument)

end Routes

theorem renders_marshalRoute (route : Option Route) :
    Json.Renders 2 (marshalRoute route) (routeDocument route) := by
  cases route with
  | none => exact Json.renders_null 2
  | some route => exact Json.renders_of_parsed (RouteMarshal.marshal_parsed route)

theorem renders_marshalRoutes (routes : List (Option Route)) :
    List.Forall₂ (Json.Renders 2) (routes.map marshalRoute) (routes.map routeDocument) := by
  rw [List.forall₂_map_left_iff, List.forall₂_map_right_iff, List.forall₂_same]
  exact fun route _ => renders_marshalRoute route

theorem endsPlain_marshalRoute (route : Option Route) : EndsPlain (marshalRoute route) := by
  cases route with
  | none => exact ⟨[0x6E, 0x75, 0x6C], 0x6C, (by decide : text "null" = _), by decide⟩
  | some route =>
      rcases (RouteMarshal.marshal_parsed route).object_braces with ⟨inside, braces⟩
      exact ⟨0x7B :: inside, 0x7D, braces, by decide⟩

namespace Routes

/-- The member that the outer loop writes. -/
def memberText (rts : Routes) (entry : Sigma fun _ : Uri => Slice) : GoString :=
  0x22 :: (entry.1.string ++ 0x22 :: 0x3A :: 0x20 :: 0x5B ::
    (Json.joinCommas ((rts.heap.read entry.2).map marshalRoute) ++ [0x5D]))

theorem stringEntry_eq (rts : Routes) (finalStr : GoString)
    (entry : Sigma fun _ : Uri => Slice) :
    rts.stringEntry finalStr entry = finalStr ++ (rts.memberText entry ++ [comma]) := by
  have opening : EndsPlain (text "\": [") := ⟨[0x22, 0x3A, 0x20], 0x5B, by decide, by decide⟩
  have ends : ∀ document ∈ (rts.heap.read entry.2).map marshalRoute, EndsPlain document := by
    rw [List.forall_mem_map]
    exact fun route _ => endsPlain_marshalRoute route
  have written := trimRight_commas ends
    ((opening.append (text "\"" ++ entry.1.string)).append finalStr)
  have quote : text "\"" = [0x22] := by decide
  have colon : text "\": [" = [0x22, 0x3A, 0x20, 0x5B] := by decide
  have bracket : text "]," = [0x5D, comma] := by decide
  have separator : text "," = [comma] := by decide
  rw [stringEntry, stringRoutes, separator, foldl_commas, written]
  simp [memberText, quote, colon, bracket]

theorem string_eq (rts : Routes) (order : List (Sigma fun _ : Uri => Slice)) :
    rts.string order = 0x7B :: (Json.joinCommas (order.map rts.memberText) ++ [0x7D]) := by
  have opening : EndsPlain (text "\x7b") := ⟨[], 0x7B, by decide, by decide⟩
  have ends : ∀ member ∈ order.map rts.memberText, EndsPlain member := by
    rw [List.forall_mem_map]
    intro entry _
    exact ⟨0x22 :: (entry.1.string ++ 0x22 :: 0x3A :: 0x20 :: 0x5B ::
      Json.joinCommas ((rts.heap.read entry.2).map marshalRoute)), 0x5D, by simp [memberText],
      by decide⟩
  have brace : text "\x7b" = [0x7B] := by decide
  have closing : text "\x7d" = [0x7D] := by decide
  have loop : order.foldl rts.stringEntry (text "\x7b") =
      order.foldl (fun finalStr entry => finalStr ++ (rts.memberText entry ++ [comma]))
        (text "\x7b") :=
    List.foldl_ext _ _ _ fun finalStr entry _ => rts.stringEntry_eq finalStr entry
  rw [string, loop, foldl_commas, trimRight_commas ends opening, brace, closing]
  simp

/-- In whatever order the range goes, the dump of a table with dumpable keys is faithful. -/
theorem faithfulDump_of_dumpable {rts : Routes} (dumpable : ∀ key ∈ rts.table, key.Dumpable)
    {order : List (Sigma fun _ : Uri => Slice)} (isOrder : order.Perm rts.table.entries) :
    rts.FaithfulDump (rts.string order) := by
  let member (entry : Sigma fun _ : Uri => Slice) : GoString × Json :=
    (entry.1.value, .array ((rts.heap.read entry.2).map routeDocument))
  have keyDumpable : ∀ entry ∈ order, entry.1.Dumpable := by
    intro entry isEntry
    refine dumpable entry.1 (AList.mem_keys.mpr ?_)
    exact List.mem_keys_of_mem (isOrder.mem_iff.mp isEntry)
  have rendersMember : ∀ entry ∈ order,
      Json.RendersMember 3 (rts.memberText entry) (member entry) := by
    intro entry isEntry
    have key := keyDumpable entry isEntry
    refine ⟨key.valid, key.plain, _, ?_, Json.renders_array
      (renders_marshalRoutes (rts.heap.read entry.2))⟩
    simp only [memberText, key.string, member]
  refine ⟨order.map member, ?_, ?_, ?_⟩
  · have members : List.Forall₂ (Json.RendersMember 3) (order.map rts.memberText)
        (order.map member) := by
      rw [List.forall₂_map_left_iff, List.forall₂_map_right_iff, List.forall₂_same]
      exact rendersMember
    have nested : 3 + 1 ≤ Json.maxNestingDepth := by decide
    rw [string_eq]
    exact (Json.renders_object members).parse nested
  · have nodup : (order.map Sigma.fst).Nodup :=
      (isOrder.map _).nodup_iff.mpr rts.table.nodupKeys
    have names : (order.map member).map Prod.fst = (order.map Sigma.fst).map Uri.value := by
      simp [member, Function.comp_def]
    rw [names]
    refine nodup.map ?_
    intro key other same
    cases key
    cases other
    cases same
    rfl
  · intro name value
    rw [List.mem_map]
    constructor
    · rintro ⟨⟨key, routes⟩, isEntry, same⟩
      cases same
      refine ⟨key, routes, ?_, rfl, rfl⟩
      exact AList.mem_lookup_iff.mpr (isOrder.mem_iff.mp isEntry)
    · rintro ⟨key, routes, found, rfl, rfl⟩
      exact ⟨⟨key, routes⟩, isOrder.mem_iff.mpr (AList.mem_lookup_iff.mp found), rfl⟩

end Routes

end

end Promfetcher
