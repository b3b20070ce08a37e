import Promfetcher.Expfmt.Listing
import Promfetcher.Expfmt.RoundTrip

/-!
# What is read is written and read again

The families that the text parser returns for an input of which no line starts with
a brace can be written, unless a label has a colon in its name, and no two summaries
or histograms among them have one signature. So what is written of them is read
again, as long as no family has the name of a line of another one.
-/

namespace Promfetcher

open Foundation

/-- No label whose name is written without quotes has a colon in its name. -/
def MetricFamily.Spelled (family : MetricFamily) : Prop :=
  ∀ metric ∈ family.metric, ∀ label ∈ metric.label, ∀ labelName, label.name = some labelName →
    Expfmt.isLegacyName labelName = true → colon ∉ labelName

instance (family : MetricFamily) : Decidable family.Spelled :=
  inferInstanceAs (Decidable (∀ metric ∈ family.metric, ∀ label ∈ metric.label,
    ∀ labelName ∈ label.name, Expfmt.isLegacyName labelName = true → colon ∉ labelName))

namespace Expfmt

/-! ## Conversion -/

/-- The families are those that the parser has returned. -/
def Represents (metricsGroup : Families)
    (families : AList fun _ : GoString => DtoFamily DtoMetric) : Prop :=
  ∀ name, metricsGroup.lookup name = (families.lookup name).bind (DtoFamily.toMetricFamily name)

/-- The families that the parser has returned, as the rest of the program takes them. -/
def toFamilies (families : AList fun _ : GoString => DtoFamily DtoMetric) : Families :=
  filterMapValues DtoFamily.toMetricFamily families

theorem represents_toFamilies (families : AList fun _ : GoString => DtoFamily DtoMetric) :
    Represents (toFamilies families) families :=
  lookup_filterMapValues DtoFamily.toMetricFamily families

theorem DtoMetric.toMetric_eq_some {dto : DtoMetric} {metric : Metric}
    (converts : dto.toMetric = some metric) : dto.value = some metric.value ∧
      metric.label = dto.label ∧ metric.timestampMs = dto.timestampMs := by
  rcases Option.map_eq_some_iff.mp converts with ⟨value, isValue, rfl⟩
  exact ⟨isValue, rfl, rfl⟩

/-- A metric without negative counts is converted to a value without negative counts. -/
theorem DtoMetric.InRange.noNegativeCount {dto : DtoMetric} (inRange : dto.InRange) {value : Value}
    (isValue : dto.value = some value) : value.NoNegativeCount := by
  have notNegative {count : Option Float64}
      (each : ∀ float, count = some float → float.isNegative = false) :
      (count.getD .zero).isNegative = false := by
    cases count with
    | none => decide
    | some float => exact each float rfl
  unfold DtoMetric.value at isValue
  split at isValue
  case h_1 | h_2 | h_3 | h_4 =>
      cases isValue
      trivial
  case h_5 histogram _ _ _ _ isHistogram =>
      cases isValue
      rcases inRange.histogram histogram isHistogram with ⟨count, bucket⟩
      refine ⟨notNegative count, fun b bucketMem => ?_⟩
      rcases List.mem_map.mp bucketMem with ⟨original, originalMem, rfl⟩
      exact notNegative (bucket original originalMem)
  case h_6 => cases isValue


namespace TextParser

section

variable [Strconv]

theorem indexed_foldl_modify {store : Store} (indexed : store.Indexed)
    (entries : List (Sigma fun _ : UInt64 => ℕ)) :
    Store.Indexed { store with
      metrics := entries.foldl (fun metrics entry => metrics.modify entry.2 normalizeMetric)
        store.metrics } := by
  induction entries generalizing store with
  | nil => exact indexed
  | cons entry entries inductionHypothesis =>
      exact @inductionHypothesis (store.modify entry.2 normalizeMetric)
        (indexed.modify fun _ _ => rfl)

theorem inRange_foldl_modify {metrics : List DtoMetric}
    (inRange : ∀ metric ∈ metrics, metric.InRange) (entries : List (Sigma fun _ : UInt64 => ℕ)) :
    ∀ metric ∈ entries.foldl (fun metrics entry => metrics.modify entry.2 normalizeMetric) metrics,
      metric.InRange := by
  induction entries generalizing metrics with
  | nil => exact inRange
  | cons entry entries inductionHypothesis =>
      exact inductionHypothesis
        (forall_mem_modify inRange (fun _ kept => inRange_normalizeMetric kept) entry.2)

/-- The families and metrics once all histograms are normalized. -/
def normalStore (p : TextParser) : Store :=
  { p.store with metrics := p.normalized }

theorem lookup_families {p : TextParser} {name : GoString} {family : DtoFamily DtoMetric}
    (lookup : p.families.lookup name = some family) :
    ∃ listed, p.normalStore.families name = some listed ∧ listed.metric ≠ [] ∧
      family = { listed with metric := p.normalStore.listed listed } := by
  rw [families, lookup_mapValues, Option.map_eq_some_iff] at lookup
  rcases lookup with ⟨listed, lookup, rfl⟩
  rcases lookup_nonEmptyFamilies lookup with ⟨held, nonempty⟩
  exact ⟨listed, held, nonempty, rfl⟩

/-- A parser that has come to the end of the input. -/
structure Ended (p : TextParser) : Prop where
  sound : p.store.Sound
  indexed : p.store.Indexed
  inRange : ∀ metric ∈ p.metrics, metric.InRange

variable {p : TextParser} {name : GoString} {metricFamily : MetricFamily}

/-- Where a family comes from that has been converted. -/
theorem Ended.converted (ended : p.Ended)
    (held : (p.families.lookup name).bind (DtoFamily.toMetricFamily name) = some metricFamily) :
    ∃ listed metricType, p.normalStore.families name = some listed ∧
      listed.type = some metricType ∧ metricFamily.getType = metricType ∧
      metricFamily.Parsed name ∧ validString name = true ∧
      List.Forall₂ (fun dto metric => WellLabelled dto.label ∧ OwnLabels metricType dto.label ∧
          dto.InRange ∧ dto.toMetric = some metric)
        (p.normalStore.listed listed) metricFamily.metric := by
  rcases Option.bind_eq_some_iff.mp held with ⟨family, lookup, converts⟩
  have wellFormed := wellFormed_of_sound ended.sound lookup
  rcases lookup_families lookup with ⟨listed, isListed, nonempty, rfl⟩
  rcases wellFormed.parsed with ⟨_, same, parsed⟩
  cases converts.symm.trans same
  rcases Option.map_eq_some_iff.mp converts with ⟨metrics, reads, rfl⟩
  rcases List.exists_mem_of_ne_nil _ nonempty with ⟨first, firstMem⟩
  rcases ended.sound.listed isListed first firstMem with ⟨metricType, typed, _⟩
  have isType : Option.getD listed.type .counter = metricType := by
    rw [typed]
    rfl
  have normal : p.normalStore.Indexed := indexed_foldl_modify ended.indexed _
  refine ⟨listed, metricType, isListed, typed, isType, parsed, wellFormed.valid, ?_⟩
  simp only [List.forall₂_and_left]
  refine ⟨wellFormed.labelled, fun dto dtoMem => ?_, fun dto dtoMem => ?_, forall₂_of_mapM reads⟩
  all_goals rcases List.mem_filterMap.mp dtoMem with ⟨position, positionMem, here⟩
  · rcases normal.filed isListed position positionMem metricType typed with ⟨_, same, own, _⟩
    cases here.symm.trans same
    exact own
  · exact inRange_foldl_modify ended.inRange _ dto (List.mem_of_getElem? here)

/-- What has been read can be written. -/
theorem Ended.writable (ended : p.Ended)
    (held : (p.families.lookup name).bind (DtoFamily.toMetricFamily name) = some metricFamily)
    (spelled : metricFamily.Spelled) : metricFamily.Writable name := by
  rcases ended.converted held with
    ⟨listed, metricType, _, _, isType, parsed, valid, paired⟩
  refine ⟨parsed, valid, fun metric metricMem => ?_⟩
  rcases exists_of_forall₂ paired metricMem with ⟨dto, _, labelled, own, inRange, converts⟩
  rcases DtoMetric.toMetric_eq_some converts with ⟨isValue, sameLabels, sameTimestamp⟩
  rw [← sameLabels] at labelled own
  refine ⟨labelled, fun label labelMem labelName isName => ⟨?_, ?_⟩, ?_, ?_⟩
  · exact spelled metric metricMem label labelMem labelName isName
  · rw [isType]
    exact own label labelMem labelName isName
  · rw [sameTimestamp]
    exact inRange.timestamp
  · exact inRange.noNegativeCount isValue

/-- Each signature of a family that has been read stands for one of its metrics. -/
theorem Ended.map_found_signs (ended : p.Ended)
    (held : (p.families.lookup name).bind (DtoFamily.toMetricFamily name) = some metricFamily)
    (isOfLines : ofLines metricFamily.getType = true) :
    ∃ listed, p.normalStore.families name = some listed ∧
      (signs name metricFamily.metric).map (p.normalStore.found metricFamily.getType) =
        listed.metric.map some := by
  rcases ended.converted held with ⟨listed, metricType, isListed, typed, isType, _, _, paired⟩
  have normal : p.normalStore.Indexed := indexed_foldl_modify ended.indexed _
  have sameSigns : (p.normalStore.listed listed).map (fun dto => signature name dto.label) =
      signs name metricFamily.metric := by
    refine List.forall₂_eq_eq_eq ▸ List.forall₂_map_left_iff.mpr
      (List.forall₂_map_right_iff.mpr (paired.imp fun dto metric pair => ?_))
    rw [(DtoMetric.toMetric_eq_some pair.2.2.2).2.1]
  rw [isType] at isOfLines ⊢
  refine ⟨listed, isListed, ?_⟩
  rw [← sameSigns, List.map_map]
  exact normal.map_found isListed typed isOfLines

/-- No two summaries and no two histograms have one signature. -/
theorem Ended.nodup_signsOf (ended : p.Ended) {metricsGroup : Families}
    (represents : Represents metricsGroup p.families) {isType : MetricType → Bool}
    {found : UInt64 → Option ℕ} (sameFound : ∀ metricType, isType metricType = true →
      ofLines metricType = true ∧ p.normalStore.found metricType = found) :
    (signsOf isType metricsGroup.entries).Nodup := by
  have normal : p.normalStore.Indexed := indexed_foldl_modify ended.indexed _
  have filed {entry : Sigma fun _ : GoString => MetricFamily}
      (entryMem : entry ∈ metricsGroup.entries) (isOfType : isType entry.2.getType = true) :
      ∃ listed, p.normalStore.families entry.1 = some listed ∧
        (signs entry.1 entry.2.metric).map found = listed.metric.map some := by
    rcases sameFound _ isOfType with ⟨isOfLines, same⟩
    rw [← same]
    refine ended.map_found_signs ?_ isOfLines
    rw [← represents]
    exact AList.mem_lookup_iff.mpr entryMem
  rw [signsOf, List.nodup_flatMap]
  refine ⟨fun entry entryMem => ?_, ?_⟩
  · split
    case isTrue isOfType =>
        rcases filed entryMem isOfType with ⟨listed, isListed, sameSigns⟩
        refine List.Nodup.of_map found ?_
        rw [sameSigns]
        exact (normal.once isListed).map (Option.some_injective _)
    case isFalse => exact List.nodup_nil
  · refine List.Pairwise.imp_of_mem ?_ (List.nodupKeys_iff_pairwise.mp metricsGroup.nodupKeys)
    intro entry other entryMem otherMem distinct sign signMem signMemOther
    dsimp only at signMem signMemOther
    split at signMem
    case isFalse => cases signMem
    case isTrue isOfType =>
        split at signMemOther
        case isFalse => cases signMemOther
        case isTrue otherOfType =>
            rcases filed entryMem isOfType with ⟨listed, isListed, sameSigns⟩
            rcases filed otherMem otherOfType with ⟨otherListed, isOtherListed, otherSigns⟩
            have inListed : found sign ∈ listed.metric.map some :=
              sameSigns ▸ List.mem_map_of_mem signMem
            have inOther : found sign ∈ otherListed.metric.map some :=
              otherSigns ▸ List.mem_map_of_mem signMemOther
            rcases List.mem_map.mp inListed with ⟨position, positionMem, isPosition⟩
            rcases List.mem_map.mp inOther with ⟨otherPosition, otherMem, same⟩
            cases isPosition.trans same.symm
            exact distinct (normal.apart isListed isOtherListed positionMem otherMem)

/-- Every run that ends without an error has kept the invariants. -/
theorem exists_ended {input : GoString} (plain : bracesStartLine true input = false)
    {families : AList fun _ : GoString => DtoFamily DtoMetric}
    (returns : textToMetricFamilies input = some (.ok families)) :
    ∃ p : TextParser, p.Ended ∧ p.families = families := by
  rw [textToMetricFamilies, Option.map_eq_some_iff] at returns
  rcases returns with ⟨stopped, ran, isOk⟩
  let Kept (state : StateFn × TextParser) : Prop :=
    state.2.Good state.1 ∧ state.2.Tracks state.1
  have starts : Kept (.startOfLine, { input }) :=
    ⟨⟨sound_initial input, rfl, plain⟩, tracks_initial input⟩
  have kept : ∀ state after, Kept state → Machine.Moves next state after → Kept after := by
    rintro state after ⟨good, tracks⟩ moves
    have move := move_of_moves _ moves
    exact ⟨good_of_move good move, tracks_of_move good tracks move⟩
  rcases Machine.run_invariant kept ran starts with ⟨⟨state, p⟩, ⟨good, tracks⟩, stops⟩
  cases stopped with
  | error failure => cases isOk
  | ok q =>
      rw [p.eq_of_halts stops] at isOk
      refine ⟨p.newLine false, ⟨good.sound, tracks.indexed, tracks.inRange⟩, ?_⟩
      exact Except.ok.inj isOk

end

end TextParser

section

variable [Strconv] {input : GoString} {families : AList fun _ : GoString => DtoFamily DtoMetric}
  {metricsGroup : Families}

/-- Every family that has been read can be written. -/
theorem writable_of_read (plain : bracesStartLine true input = false)
    (returns : textToMetricFamilies input = some (.ok families))
    (represents : Represents metricsGroup families) {name : GoString} {family : MetricFamily}
    (held : metricsGroup.lookup name = some family) (spelled : family.Spelled) :
    family.Writable name := by
  rcases TextParser.exists_ended plain returns with ⟨p, ended, rfl⟩
  exact ended.writable ((represents name).symm.trans held) spelled

/-- What has been read of an input is read again of what is written of it. -/
theorem textToMetricFamilies_again (plain : bracesStartLine true input = false)
    (returns : textToMetricFamilies input = some (.ok families))
    (represents : Represents metricsGroup families)
    (spelled : ∀ name family, metricsGroup.lookup name = some family → family.Spelled)
    (noSuffix : ∀ name family, metricsGroup.lookup name = some family →
      ∀ suffix ∈ suffixes family.getType, name ++ suffix ∉ metricsGroup)
    (order : List (Sigma fun _ : GoString => MetricFamily))
    (visits : order.Perm metricsGroup.entries) :
    ∃ again, textToMetricFamilies (writeLines (Api.metrics order)) = some (.ok again) ∧
      (∀ name, name ∈ again ↔ name ∈ families) ∧
      ∀ name, again.lookup name = (metricsGroup.lookup name).map MetricFamily.reread := by
  have held {entry : Sigma fun _ : GoString => MetricFamily} (entryMem : entry ∈ order) :
      metricsGroup.lookup entry.1 = some entry.2 :=
    AList.mem_lookup_iff.mpr (visits.mem_iff.mp entryMem)
  have distinct : order.NodupKeys := (List.perm_nodupKeys visits).mpr metricsGroup.nodupKeys
  have sameSigns (isType : MetricType → Bool) :
      (signsOf isType order).Perm (signsOf isType metricsGroup.entries) :=
    visits.flatMap_right _
  have all : AllWritable order := by
    refine ⟨distinct, fun entry entryMem => ?_, fun entry entryMem suffix suffixMem inOrder => ?_,
      ?_, ?_⟩
    · exact writable_of_read plain returns represents (held entryMem)
        (spelled _ _ (held entryMem))
    · refine noSuffix _ _ (held entryMem) suffix suffixMem ?_
      exact (visits.map Sigma.fst).mem_iff.mp inOrder
    all_goals rcases TextParser.exists_ended plain returns with ⟨p, ended, rfl⟩
    · refine (sameSigns _).nodup_iff.mpr
        (@ended.nodup_signsOf _ _ _ represents _ p.normalStore.summaries ?_)
      intro metricType isSummary
      rw [eq_of_beq isSummary]
      exact ⟨rfl, rfl⟩
    · refine (sameSigns _).nodup_iff.mpr
        (@ended.nodup_signsOf _ _ _ represents _ p.normalStore.histograms ?_)
      intro metricType isHistogram
      exact ⟨by rw [ofLines, isHistogram, Bool.or_true],
        funext (histograms_of_found isHistogram _)⟩
  rcases exists_hasRead all with ⟨p, again, hasRead⟩
  have lookup (name : GoString) :
      p.families.lookup name = (metricsGroup.lookup name).map MetricFamily.reread := by
    rw [TextParser.lookup_families_of_hasRead
      (fun entry entryMem => (all.writable entry entryMem).parsed) hasRead name]
    rw [List.perm_dlookup name distinct visits]
    rfl
  refine ⟨p.families, again, fun name => ?_, lookup⟩
  rw [← AList.lookup_isSome, lookup, Option.isSome_map, represents, ← AList.lookup_isSome]
  cases isFamily : families.lookup name with
  | none => rfl
  | some family =>
      rcases TextParser.exists_ended plain returns with ⟨p, ended, rfl⟩
      rcases (TextParser.wellFormed_of_sound ended.sound isFamily).parsed with ⟨_, converts, _⟩
      rw [Option.bind_some, converts]
      rfl

end

theorem spelled_shopRead : ∀ name family, (toFamilies shopRead).lookup name = some family →
    family.Spelled :=
  forall_entries_iff.mp (by decide +kernel)

theorem noSuffix_shopRead : ∀ name family, (toFamilies shopRead).lookup name = some family →
    ∀ suffix ∈ suffixes family.getType, name ++ suffix ∉ toFamilies shopRead :=
  forall_entries_iff.mp (by decide +kernel)

/-- What is exposed is written in another order. -/
theorem textToMetricFamilies_again_shop :
    ∃ again, @textToMetricFamilies Strconv.sample (@writeLines Strconv.sample
        (Api.metrics (toFamilies shopRead).entries.reverse)) = some (.ok again) ∧
      (∀ name, name ∈ again ↔ name ∈ shopRead) ∧
      ∀ name, again.lookup name = ((toFamilies shopRead).lookup name).map
        (@MetricFamily.reread Strconv.sample) :=
  @textToMetricFamilies_again Strconv.sample _ _ _ (by decide +kernel) textToMetricFamilies_shopText
    (represents_toFamilies shopRead) spelled_shopRead noSuffix_shopRead _ (List.reverse_perm _)

end Expfmt

end Promfetcher
