import Promfetcher.Foundation.Text

/-!
# Clean paths

`path.Clean` of the Go library, for a path that starts with a slash: empty elements
and dots are dropped, and two dots drop the element before them. Nothing stands above
the root.
-/

namespace Foundation

namespace Path

/-- The byte that the element for the same directory consists of. -/
def dot : UInt8 := 0x2E

/-- The next element of a path, given those before it that are kept, the last one first. -/
def push (kept : List GoString) (element : GoString) : List GoString :=
  if element = [] ∨ element = [dot] then kept
  else if element = [dot, dot] then kept.tail
  else element :: kept

/-- The elements that are kept of a path. -/
def kept (path : GoString) : List GoString :=
  ((path.splitOn slash).foldl push []).reverse

/-- The path of the given elements, with a slash in front of each. -/
def join (elements : List GoString) : GoString :=
  elements.flatMap fun element => slash :: element

/-- `path.Clean`, for a path that starts with a slash. -/
def clean (path : GoString) : GoString :=
  if kept path = [] then [slash] else join (kept path)

/-- An element that stays as it is, and keeps the one before it. -/
structure Plain (element : GoString) : Prop where
  some : element ≠ []
  noSlash : slash ∉ element
  notDot : element ≠ [dot]
  notDots : element ≠ [dot, dot]

theorem kept_append {element : GoString} (plain : Plain element) (before : GoString) :
    kept (before ++ slash :: element) = kept before ++ [element] := by
  have pushed (others : List GoString) : push others element = element :: others := by
    rw [push, if_neg (not_or.mpr ⟨plain.some, plain.notDot⟩), if_neg plain.notDots]
  unfold kept
  rw [List.splitOn_append_cons_self, List.splitOn_eq_singleton plain.noSlash, List.foldl_append,
    List.foldl_cons, List.foldl_nil, pushed, List.reverse_cons]

/-- What stands before a plain element is cleaned on its own. -/
theorem clean_append {element : GoString} (plain : Plain element) (before : GoString) :
    clean (before ++ slash :: element) = join (kept before) ++ slash :: element := by
  have some : kept before ++ [element] ≠ [] := List.append_ne_nil_of_right_ne_nil _ (by simp)
  rw [clean, kept_append plain, if_neg some, join, List.flatMap_append, List.flatMap_singleton,
    join]

end Path

/-- The element before two dots is dropped, and so are empty ones. -/
example : Path.clean (text "/v1/apps//../x/./metrics") = text "/v1/x/metrics" := by
  decide

end Foundation
