import Promfetcher.Foundation.Query
import Mathlib.Algebra.BigOperators.Group.List.Basic

/-!
# The length of a query

A query of too many settings is refused as a whole, so that a query that has been read,
changed and written again may say nothing. How many settings `Encode` writes is the
number of values in the map.
-/

namespace Foundation

namespace Values

/-- The number of values in the map. -/
def size (values : Values) : ℕ :=
  (values.keys.map fun key => (values.get key).length).sum

theorem get_insert (values : Values) (stored : GoString) (list : List GoString) (key : GoString) :
    get (values.insert stored list) key = if key = stored then list else values.get key := by
  unfold get
  by_cases same : key = stored
  · subst same
    rw [AList.lookup_insert, if_pos rfl, Option.getD_some]
  · rw [AList.lookup_insert_ne same, if_neg same]

/-- The values under one key, and those under all others. -/
theorem size_eq (values : Values) (key : GoString) :
    values.size = (values.get key).length +
      ((values.erase key).keys.map fun key => (values.get key).length).sum := by
  by_cases held : key ∈ values.keys
  · rw [AList.keys_erase]
    exact (List.sum_map_erase (fun key => (values.get key).length) held).symm
  · have missing : values.lookup key = none := AList.lookup_eq_none.mpr (mt AList.mem_keys.mpr held)
    have same : values.erase key = values := AList.ext (List.kerase_of_notMem_keys held)
    rw [same, get, missing]
    exact (Nat.zero_add _).symm

theorem size_insert (values : Values) (key : GoString) (list : List GoString) :
    size (values.insert key list) + (values.get key).length = values.size + list.length := by
  have others : ((values.erase key).keys.map fun other =>
      (get (values.insert key list) other).length) =
        (values.erase key).keys.map fun other => (values.get other).length := by
    refine List.map_congr_left fun other otherMem => ?_
    have different : other ≠ key := (AList.mem_erase.mp (AList.mem_keys.mpr otherMem)).1
    rw [get_insert, if_neg different]
  rw [size_eq values key, size, AList.keys_insert, ← AList.keys_erase, List.map_cons,
    List.sum_cons, others, get_insert, if_pos rfl]
  omega

theorem size_add (values : Values) (key value : GoString) :
    (values.add key value).size = values.size + 1 := by
  have sizes := size_insert values key (values.get key ++ [value])
  rw [List.length_append, List.length_singleton] at sizes
  unfold add
  omega

end Values

namespace Url

/-! ## What is read -/

theorem length_splitOn (separator : UInt8) (string : GoString) :
    (string.splitOn separator).length = string.count separator + 1 := by
  induction string with
  | nil => rfl
  | cons byte rest inductionHypothesis =>
      rw [List.splitOn_cons_eq_if_modifyHead]
      by_cases same : byte = separator
      · subst same
        simp [inductionHypothesis]
      · simp [same, inductionHypothesis]

theorem length_settings_le (query : GoString) :
    (settings query).length ≤ query.count ampersand + 1 := by
  rw [← length_splitOn]
  exact List.length_filterMap_le _ _

theorem size_parseQuery (query : GoString) :
    (parseQuery query).size =
      if maxQueryParams < query.count ampersand + 1 then 0 else (settings query).length := by
  have sizes (settings : List (GoString × GoString)) (values : Values) :
      (settings.foldl (fun values setting => values.add setting.1 setting.2) values).size =
        values.size + settings.length := by
    induction settings generalizing values with
    | nil => rfl
    | cons setting settings inductionHypothesis =>
        rw [List.foldl_cons, inductionHypothesis, Values.size_add, List.length_cons]
        omega
  unfold parseQuery
  split
  · rfl
  · rw [sizes]
    exact Nat.zero_add _

/-- A key is in the map exactly if it has a value. -/
theorem mem_parseQuery_iff (query key : GoString) :
    key ∈ parseQuery query ↔ (parseQuery query).get key ≠ [] := by
  have every (settings : List (GoString × GoString)) (values : Values)
      (valued : ∀ key ∈ values, values.get key ≠ []) :
      ∀ key ∈ settings.foldl (fun values setting => values.add setting.1 setting.2) values,
        (settings.foldl (fun values setting => values.add setting.1 setting.2) values).get key ≠
          [] := by
    induction settings generalizing values with
    | nil => exact valued
    | cons setting settings inductionHypothesis =>
        refine inductionHypothesis _ fun key keyMem => ?_
        rw [get_add]
        rcases (AList.mem_insert _).mp keyMem with rfl | keyMem
        · simp
        · exact fun empty => valued key keyMem (List.append_eq_nil_iff.mp empty).1
  have valued : ∀ key ∈ parseQuery query, (parseQuery query).get key ≠ [] := by
    unfold parseQuery
    split
    · nofun
    · exact every _ _ nofun
  refine ⟨valued key, fun some => ?_⟩
  by_contra missing
  rw [Values.get, AList.lookup_eq_none.mpr missing] at some
  exact some rfl

/-! ## What is written -/

theorem length_sortedSettings (values : Values) : (sortedSettings values).length = values.size := by
  have sorted := List.mergeSort_perm values.keys fun key other => decide (key ≤ other)
  rw [sortedSettings, List.length_flatMap, Values.size]
  simpa using (sorted.map fun key => (values.get key).length).sum_eq

theorem count_encode {values : Values} (nonempty : 0 < values.size) :
    (encode values).count ampersand + 1 = values.size := by
  have some : sortedSettings values ≠ [] := by
    rw [Ne, ← List.length_eq_zero_iff, length_sortedSettings]
    omega
  rw [← length_splitOn, splitOn_encode, if_neg some, List.length_map, length_sortedSettings]

/-- A map that is written and read again is the same map, unless it is too long. -/
theorem get_parseQuery_encode {values : Values} (nonempty : 0 < values.size) (key : GoString) :
    (parseQuery (encode values)).get key =
      if maxQueryParams < values.size then [] else values.get key := by
  rw [get_parseQuery, count_encode nonempty, queryValues_encode]

end Url

end Foundation
