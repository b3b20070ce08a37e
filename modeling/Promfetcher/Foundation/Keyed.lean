import Mathlib.Data.List.AList

/-!
# Merging maps key by key

A range over one map adds its entries to another: a key that is absent is
inserted, and the value of a key that is present is combined with the new one.
Merging a list of maps this way keeps, for every key, the combination of the
values that the maps of the list hold under it, in the order of the list.
-/

namespace Foundation

universe u v w

variable {Key : Type u} {Value : Type v} {Item : Type w} [DecidableEq Key]

/-- The map with a change of every value. -/
def mapValues {Other : Type w} (change : Value → Other) (map : AList fun _ : Key => Value) :
    AList fun _ : Key => Other :=
  ⟨map.entries.map (.map id fun _ => change), map.nodupKeys.map₂ _ _⟩

/-- The value of one key after an entry has been added. -/
def joinValues (combine : Value → Value → Value) : Option Value → Option Value → Option Value
  | none, added => added
  | some held, none => some held
  | some held, some added => some (combine held added)

/-- One entry is merged into a map: a value that is held already is combined with the new one. -/
def mergeEntry (combine : Value → Value → Value) (base : AList fun _ : Key => Value)
    (entry : Sigma fun _ : Key => Value) : AList fun _ : Key => Value :=
  match base.lookup entry.1 with
  | none => base.insert entry.1 entry.2
  | some held => base.insert entry.1 (combine held entry.2)

/-- Adding the entries of one map to another. -/
def mergeInto (combine : Value → Value → Value) (base added : AList fun _ : Key => Value) :
    AList fun _ : Key => Value :=
  added.entries.foldl (mergeEntry combine) base

/-- Adding the entries of all other maps of a list to the first one. -/
def mergeAll (combine : Value → Value → Value) :
    List (AList fun _ : Key => Value) → AList fun _ : Key => Value
  | [] => ∅
  | base :: others => others.foldl (mergeInto combine) base

/-- The items of the value under a key, none if there is no value. -/
def itemsOf (items : Value → List Item) (key : Key) (map : AList fun _ : Key => Value) :
    List Item :=
  (map.lookup key).elim [] items

/-! ## One map -/

theorem lookup_mapValues {Other : Type w} (change : Value → Other)
    (map : AList fun _ : Key => Value) (key : Key) :
    (mapValues change map).lookup key = (map.lookup key).map change :=
  List.dlookup_map₂ key

theorem lookup_insert_cases {map : AList fun _ : Key => Value} {stored key : Key}
    {value found : Value} (lookup : (map.insert stored value).lookup key = some found) :
    found = value ∨ map.lookup key = some found := by
  by_cases here : key = stored
  · subst key
    rw [AList.lookup_insert, Option.some.injEq] at lookup
    exact Or.inl lookup.symm
  · rw [AList.lookup_insert_ne here] at lookup
    exact Or.inr lookup

theorem lookup_singleton (held key : Key) (value : Value) :
    (AList.singleton held value : AList fun _ : Key => Value).lookup key =
      if key = held then some value else none := by
  change List.dlookup key [(⟨held, value⟩ : Sigma fun _ : Key => Value)] = _
  by_cases same : key = held
  · subst same
    rw [if_pos rfl, List.dlookup_cons_eq]
  · rw [if_neg same, List.dlookup_cons_ne _ _ same, List.dlookup_nil]

theorem eq_of_lookup_singleton {held key : Key} {value found : Value}
    (lookup : (AList.singleton held value : AList fun _ : Key => Value).lookup key = some found) :
    key = held ∧ value = found := by
  rw [lookup_singleton, Option.ite_none_right_eq_some, Option.some.injEq] at lookup
  exact lookup

section FilterMap

variable {Other : Type w} (change : Key → Value → Option Other)

/-- An entry with the image of its value, if there is one. -/
def changeEntry (entry : Sigma fun _ : Key => Value) : Option (Sigma fun _ : Key => Other) :=
  (change entry.1 entry.2).map fun other => ⟨entry.1, other⟩

variable {change}

omit [DecidableEq Key] in
theorem changeEntry_eq_none {entry : Sigma fun _ : Key => Value}
    (dropped : change entry.1 entry.2 = none) : changeEntry change entry = none := by
  rw [changeEntry, dropped, Option.map_none]

omit [DecidableEq Key] in
theorem changeEntry_eq_some {entry : Sigma fun _ : Key => Value} {other : Other}
    (changed : change entry.1 entry.2 = some other) :
    changeEntry change entry = some ⟨entry.1, other⟩ := by
  rw [changeEntry, changed, Option.map_some]

variable (change)

omit [DecidableEq Key] in
theorem keys_filterMap_sublist (entries : List (Sigma fun _ : Key => Value)) :
    (entries.filterMap (changeEntry change)).keys.Sublist entries.keys := by
  induction entries with
  | nil => exact List.Sublist.refl _
  | cons entry entries inductionHypothesis =>
      cases changed : change entry.1 entry.2 with
      | none =>
          rw [List.filterMap_cons_none (changeEntry_eq_none changed)]
          exact inductionHypothesis.cons _
      | some other =>
          rw [List.filterMap_cons_some (changeEntry_eq_some changed)]
          exact inductionHypothesis.cons_cons _

/-- The map with every value replaced by its image, without those that have none. -/
def filterMapValues (map : AList fun _ : Key => Value) : AList fun _ : Key => Other where
  entries := map.entries.filterMap (changeEntry change)
  nodupKeys := List.Nodup.sublist (keys_filterMap_sublist change map.entries) map.nodupKeys

theorem lookup_filterMapValues (map : AList fun _ : Key => Value) (key : Key) :
    (filterMapValues change map).lookup key = (map.lookup key).bind (change key) := by
  have found (entries : List (Sigma fun _ : Key => Value)) (nodup : entries.NodupKeys) :
      (entries.filterMap (changeEntry change)).dlookup key =
        (entries.dlookup key).bind (change key) := by
    induction entries with
    | nil => rfl
    | cons entry entries inductionHypothesis =>
        rw [List.nodupKeys_cons] at nodup
        have others := inductionHypothesis nodup.2
        rcases entry with ⟨held, value⟩
        cases changed : change held value with
        | none =>
            rw [List.filterMap_cons_none (changeEntry_eq_none changed), others]
            by_cases here : key = held
            · subst here
              rw [List.dlookup_cons_eq, Option.bind_some, changed,
                List.dlookup_eq_none.mpr nodup.1, Option.bind_none]
            · rw [List.dlookup_cons_ne _ _ here]
        | some other =>
            rw [List.filterMap_cons_some (changeEntry_eq_some changed)]
            by_cases here : key = held
            · subst here
              rw [List.dlookup_cons_eq, List.dlookup_cons_eq, Option.bind_some, changed]
            · rw [List.dlookup_cons_ne _ _ here, List.dlookup_cons_ne _ _ here, others]
  exact found map.entries map.nodupKeys

end FilterMap

/-- What holds of all values under their keys can be checked entry by entry. -/
theorem forall_entries_iff {map : AList fun _ : Key => Value} {holds : Key → Value → Prop} :
    (∀ entry ∈ map.entries, holds entry.1 entry.2) ↔
      ∀ key value, map.lookup key = some value → holds key value :=
  ⟨fun every key value found => every ⟨key, value⟩ (AList.mem_lookup_iff.mp found),
    fun every entry entryMem => every entry.1 entry.2 (AList.mem_lookup_iff.mpr entryMem)⟩

/-- A range over a map goes through the items under all keys. -/
theorem mem_range {map : AList fun _ : Key => Value} {order : List (Sigma fun _ : Key => Value)}
    (visits : order.Perm map.entries) {items : Value → List Item} {item : Item} :
    item ∈ order.flatMap (fun entry => items entry.2) ↔ ∃ key, item ∈ itemsOf items key map := by
  simp only [List.mem_flatMap, visits.mem_iff]
  constructor
  · rintro ⟨⟨key, value⟩, held, itemMem⟩
    refine ⟨key, ?_⟩
    rw [itemsOf, AList.mem_lookup_iff.mpr held]
    exact itemMem
  · rintro ⟨key, itemMem⟩
    cases found : map.lookup key with
    | none => simp [itemsOf, found] at itemMem
    | some value =>
        rw [itemsOf, found] at itemMem
        exact ⟨⟨key, value⟩, AList.mem_lookup_iff.mp found, itemMem⟩

/-- The entries of a map are those under any list of keys that has all its keys. -/
theorem perm_flatMap_entries (map : AList fun _ : Key => Value) {keys : List Key}
    (distinct : keys.Nodup) (covers : ∀ key ∈ map, key ∈ keys)
    (visit : Key → Value → List Item) :
    (map.entries.flatMap fun entry => visit entry.1 entry.2).Perm
      (keys.flatMap fun key => (map.lookup key).elim [] (visit key)) := by
  have held : (map.entries.flatMap fun entry => visit entry.1 entry.2) =
      map.keys.flatMap fun key => (map.lookup key).elim [] (visit key) := by
    rw [AList.keys, List.keys, List.flatMap_map]
    refine List.flatMap_congr fun entry entryMem => ?_
    rw [AList.mem_lookup_iff.mpr entryMem]
    rfl
  have present : (keys.filter (· ∈ map)).Perm map.keys := by
    refine (List.perm_ext_iff_of_nodup (distinct.filter _) map.keys_nodup).mpr fun key => ?_
    rw [List.mem_filter, decide_eq_true_iff, AList.mem_keys]
    exact and_iff_right_of_imp (covers key)
  have absent : ((keys.filter fun key => !decide (key ∈ map)).flatMap fun key =>
      (map.lookup key).elim [] (visit key)) = [] := by
    refine List.flatMap_eq_nil_iff.mpr fun key keyMem => ?_
    have missing : key ∉ map := by simpa using (List.mem_filter.mp keyMem).2
    rw [AList.lookup_eq_none.mpr missing]
    rfl
  have split := (List.filter_append_perm (· ∈ map) keys).flatMap_right fun key =>
    (map.lookup key).elim [] (visit key)
  rw [List.flatMap_append, absent, List.append_nil] at split
  rw [held]
  exact (present.flatMap_right _).symm.trans split

/-! ## Merging -/

theorem lookup_mergeEntry (combine : Value → Value → Value) (base : AList fun _ : Key => Value)
    (entry : Sigma fun _ : Key => Value) (key : Key) :
    (mergeEntry combine base entry).lookup key =
      joinValues combine (base.lookup key) (if key = entry.1 then some entry.2 else none) := by
  unfold mergeEntry
  by_cases same : key = entry.1
  · subst same
    cases held : base.lookup entry.1 <;> simp [joinValues]
  · cases base.lookup entry.1 <;> cases held : base.lookup key <;>
      simp [joinValues, AList.lookup_insert_ne same, held, same]

theorem lookup_mergeInto (combine : Value → Value → Value)
    (base added : AList fun _ : Key => Value) (key : Key) :
    (mergeInto combine base added).lookup key =
      joinValues combine (base.lookup key) (added.lookup key) := by
  rcases added with ⟨entries, nodup⟩
  change (entries.foldl (mergeEntry combine) base).lookup key =
    joinValues combine (base.lookup key) (entries.dlookup key)
  induction entries generalizing base with
  | nil =>
      rw [List.foldl_nil, List.dlookup_nil]
      cases base.lookup key <;> rfl
  | cons entry entries inductionHypothesis =>
      rcases List.nodupKeys_cons.mp nodup with ⟨fresh, nodupRest⟩
      rw [List.foldl_cons, inductionHypothesis _ nodupRest, lookup_mergeEntry]
      by_cases same : key = entry.1
      · subst same
        rw [if_pos rfl, List.dlookup_eq_none.mpr fresh, List.dlookup_cons_eq]
        cases base.lookup entry.1 <;> rfl
      · rw [if_neg same, List.dlookup_cons_ne _ _ same]
        cases base.lookup key <;> rfl

/-- A range that overwrites. -/
theorem lookup_foldl_insert (base : AList fun _ : Key => Value)
    {order : List (Sigma fun _ : Key => Value)} (nodup : order.NodupKeys) (key : Key) :
    (order.foldl (fun map entry => map.insert entry.1 entry.2) base).lookup key =
      (order.dlookup key).or (base.lookup key) := by
  have overwrites : mergeEntry (fun _ added : Value => added) =
      fun (map : AList fun _ : Key => Value) entry => map.insert entry.1 entry.2 := by
    funext map entry
    unfold mergeEntry
    split <;> rfl
  have merged := lookup_mergeInto (fun _ added : Value => added) base ⟨order, nodup⟩ key
  rw [mergeInto, overwrites] at merged
  refine merged.trans ?_
  change joinValues _ _ (order.dlookup key) = _
  cases base.lookup key <;> cases order.dlookup key <;> rfl

theorem bind_eq_ok {Error : Type w} {Found Result : Type u} {computation : Except Error Found}
    {next : Found → Except Error Result} {result : Result} :
    computation >>= next = .ok result ↔
      ∃ value, computation = .ok value ∧ next value = .ok result := by
  cases computation with
  | error err =>
      constructor
      · intro failed
        cases failed
      · rintro ⟨_, failed, _⟩
        cases failed
  | ok value =>
      constructor
      · intro returned
        exact ⟨value, rfl, returned⟩
      · rintro ⟨_, same, returned⟩
        cases same
        exact returned

/-- A range that changes the values and stops at the first error. -/
theorem lookup_of_foldlM_insert {Error : Type w} {Changed : Type u}
    {change : Value → Except Error Changed} {order : List (Sigma fun _ : Key => Value)}
    (nodup : order.NodupKeys) {base built : AList fun _ : Key => Changed}
    (isBuilt : order.foldlM (fun map entry => do
      let changed ← change entry.2
      return map.insert entry.1 changed) base = .ok built) (key : Key) :
    (∀ value, order.dlookup key = some value →
      ∃ changed, change value = .ok changed ∧ built.lookup key = some changed) ∧
    (order.dlookup key = none → built.lookup key = base.lookup key) := by
  induction order generalizing base with
  | nil =>
      cases isBuilt
      refine ⟨fun value found => ?_, fun _ => rfl⟩
      cases found
  | cons entry order inductionHypothesis =>
      rcases List.nodupKeys_cons.mp nodup with ⟨fresh, nodupRest⟩
      rw [List.foldlM_cons] at isBuilt
      rcases bind_eq_ok.mp isBuilt with ⟨started, isStarted, restBuilt⟩
      rcases bind_eq_ok.mp isStarted with ⟨changed, changes, same⟩
      cases same
      have rest := inductionHypothesis nodupRest restBuilt
      by_cases same : key = entry.1
      · subst same
        rw [List.dlookup_cons_eq]
        refine ⟨fun value found => ?_, fun missing => by cases missing⟩
        cases found
        refine ⟨changed, changes, ?_⟩
        rw [rest.2 (List.dlookup_eq_none.mpr fresh), AList.lookup_insert]
      · rw [List.dlookup_cons_ne _ _ same]
        refine ⟨rest.1, fun missing => ?_⟩
        rw [rest.2 missing, AList.lookup_insert_ne same]

theorem lookup_mergeAll (combine : Value → Value → Value)
    (maps : List (AList fun _ : Key => Value)) (key : Key) :
    (mergeAll combine maps).lookup key =
      (maps.map (AList.lookup key)).foldl (joinValues combine) none := by
  cases maps with
  | nil => rfl
  | cons base others =>
      simp only [mergeAll, List.map_cons, List.foldl_cons, joinValues]
      induction others generalizing base with
      | nil => rfl
      | cons next others inductionHypothesis =>
          rw [List.foldl_cons, inductionHypothesis, lookup_mergeInto, List.map_cons,
            List.foldl_cons]

theorem mem_mergeAll (combine : Value → Value → Value)
    (maps : List (AList fun _ : Key => Value)) (key : Key) :
    key ∈ mergeAll combine maps ↔ ∃ map ∈ maps, key ∈ map := by
  have joined (values : List (Option Value)) (held : Option Value) :
      (values.foldl (joinValues combine) held).isSome ↔
        held.isSome ∨ ∃ value ∈ values, value.isSome := by
    induction values generalizing held with
    | nil => simp
    | cons value values inductionHypothesis =>
        rw [List.foldl_cons, inductionHypothesis]
        cases held <;> cases value <;> simp [joinValues]
  rw [← AList.lookup_isSome, lookup_mergeAll, joined]
  simp [AList.lookup_isSome]

/-- The items under a key of the merged map are those of all maps, in order. -/
theorem itemsOf_mergeAll {combine : Value → Value → Value} {items : Value → List Item}
    (appends : ∀ held added, items (combine held added) = items held ++ items added)
    (maps : List (AList fun _ : Key => Value)) (key : Key) :
    itemsOf items key (mergeAll combine maps) = maps.flatMap (itemsOf items key) := by
  have joined (values : List (Option Value)) (held : Option Value) :
      (values.foldl (joinValues combine) held).elim [] items =
        held.elim [] items ++ values.flatMap fun value => value.elim [] items := by
    induction values generalizing held with
    | nil => simp
    | cons value values inductionHypothesis =>
        rw [List.foldl_cons, inductionHypothesis]
        cases held <;> cases value <;> simp [joinValues, appends]
  unfold itemsOf
  rw [lookup_mergeAll, joined, List.flatMap_map]
  rfl

theorem lookup_mergeAll_first {Part : Type w} (combine : Value → Value → Value)
    (part : Value → Part) (keeps : ∀ held added, part (combine held added) = part held)
    (maps : List (AList fun _ : Key => Value)) (key : Key) :
    ((mergeAll combine maps).lookup key).map part =
      ((maps.filterMap (AList.lookup key)).head?).map part := by
  have joined (values : List (Option Value)) (held : Option Value) :
      (values.foldl (joinValues combine) held).map part =
        ((held.toList ++ values.filterMap fun value => value).head?).map part := by
    induction values generalizing held with
    | nil => cases held <;> simp
    | cons value values inductionHypothesis =>
        rw [List.foldl_cons, inductionHypothesis]
        cases held <;> cases value <;> simp [joinValues, keeps]
  rw [lookup_mergeAll, joined]
  simp [List.filterMap_map, Function.comp_def]

end Foundation
