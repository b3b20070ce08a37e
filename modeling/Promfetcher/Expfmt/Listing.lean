import Promfetcher.Foundation.Lists
import Promfetcher.Expfmt.Sequence

/-!
# What the families of the text parser list

Further invariants of the parser on an input of which no line starts with a brace. A
metric is listed once, none of its labels is one of a line, and a summary or a
histogram is the one of its signature. Timestamps and counts are in range.
-/

namespace Promfetcher

open Foundation

namespace Expfmt

/-! ## Families and signatures -/

/-- None of the labels is that of a quantile or of a bucket. -/
def OwnLabels (metricType : MetricType) (labels : List LabelPair) : Prop :=
  ∀ label ∈ labels, ∀ name, label.name = some name → ofMetric metricType name = true

namespace Store

/-- The metric at the position has labels of its own, by which it is found again. -/
def Filed (store : Store) (name : GoString) (metricType : MetricType) (position : ℕ) : Prop :=
  ∃ metric, store.metrics[position]? = some metric ∧ OwnLabels metricType metric.label ∧
    (ofLines metricType = true →
      store.found metricType (signature name metric.label) = some position)

/-- Some family lists the position. -/
def Listed (store : Store) (position : ℕ) : Prop :=
  ∃ name family, store.families name = some family ∧ position ∈ family.metric

/-- Every metric is listed once, in one family, and found under its signature if it has several
lines. -/
structure Indexed (store : Store) : Prop where
  filed : ∀ {name : GoString} {family : DtoFamily ℕ}, store.families name = some family →
    ∀ position ∈ family.metric, ∀ metricType, family.type = some metricType →
      store.Filed name metricType position
  once : ∀ {name : GoString} {family : DtoFamily ℕ}, store.families name = some family →
    family.metric.Nodup
  apart : ∀ {name other : GoString} {family otherFamily : DtoFamily ℕ} {position : ℕ},
    store.families name = some family → store.families other = some otherFamily →
      position ∈ family.metric → position ∈ otherFamily.metric → name = other

variable {store : Store}

/-- A family is new, or it keeps its metrics, and its type if it has metrics. -/
theorem Indexed.setFamily (indexed : store.Indexed) {name : GoString} {family : DtoFamily ℕ}
    (grows : family.metric = [] ∨ ∃ held, store.families name = some held ∧
      family.metric = held.metric ∧ (held.metric = [] ∨ family.type = held.type)) :
    (store.setFamily name family).Indexed := by
  have before {other : GoString} {found : DtoFamily ℕ}
      (lookup : (store.setFamily name family).families other = some found) :
      found.metric = [] ∨ ∃ held, store.families other = some held ∧
        found.metric = held.metric ∧ found.type = held.type := by
    rw [families_setFamily] at lookup
    split_ifs at lookup with same
    · cases lookup
      subst same
      rcases grows with isEmpty | ⟨held, lookup, sameMetrics, isEmpty | sameType⟩
      · exact Or.inl isEmpty
      · exact Or.inl (sameMetrics.trans isEmpty)
      · exact Or.inr ⟨held, lookup, sameMetrics, sameType⟩
    · exact Or.inr ⟨found, lookup, rfl, rfl⟩
  refine ⟨?_, ?_, ?_⟩
  · intro other found lookup position positionMem metricType typed
    rcases before lookup with isEmpty | ⟨held, lookup, sameMetrics, sameType⟩
    · rw [isEmpty] at positionMem
      cases positionMem
    · exact indexed.filed lookup position (sameMetrics ▸ positionMem) metricType
        (sameType.symm.trans typed)
  · intro other found lookup
    rcases before lookup with isEmpty | ⟨held, lookup, sameMetrics, _⟩
    · rw [isEmpty]
      exact List.nodup_nil
    · rw [sameMetrics]
      exact indexed.once lookup
  · intro first second family otherFamily position lookup otherLookup positionMem otherMem
    rcases before lookup with isEmpty | ⟨held, lookup, sameMetrics, _⟩
    · rw [isEmpty] at positionMem
      cases positionMem
    · rcases before otherLookup with isEmpty | ⟨otherHeld, otherLookup, otherMetrics, _⟩
      · rw [isEmpty] at otherMem
        cases otherMem
      · exact indexed.apart lookup otherLookup (sameMetrics ▸ positionMem)
          (otherMetrics ▸ otherMem)

/-- Metrics may be added, and may change as long as those that are listed keep their labels. -/
theorem Indexed.metrics (indexed : store.Indexed) {metrics : List DtoMetric}
    (kept : ∀ position, store.Listed position → ∀ metric, store.metrics[position]? = some metric →
      ∃ changed, metrics[position]? = some changed ∧ changed.label = metric.label) :
    Indexed { store with metrics } where
  filed := by
    intro name family lookup position positionMem metricType typed
    rcases indexed.filed lookup position positionMem metricType typed with
      ⟨metric, here, own, found⟩
    rcases kept position ⟨name, family, lookup, positionMem⟩ metric here with
      ⟨changed, isChanged, sameLabels⟩
    refine ⟨changed, isChanged, ?_, ?_⟩
    · rwa [sameLabels]
    · rwa [sameLabels]
  once := indexed.once
  apart := indexed.apart

theorem Indexed.allocate (indexed : store.Indexed) : store.allocate.Indexed :=
  indexed.metrics fun _ _ metric here =>
    ⟨metric, (List.getElem?_append_left (List.getElem?_eq_some_iff.mp here).1).trans here, rfl⟩

theorem Indexed.modify (indexed : store.Indexed) {position : ℕ} {change : DtoMetric → DtoMetric}
    (kept : store.Listed position → ∀ metric, (change metric).label = metric.label) :
    (store.modify position change).Indexed := by
  refine indexed.metrics fun other listed metric here => ?_
  rw [List.getElem?_modify, here]
  refine ⟨_, rfl, ?_⟩
  split
  case isTrue same => exact kept (same ▸ listed) metric
  case isFalse => rfl

/-- A metric that is filed under a new signature hides no other one. -/
theorem found_file_of_found {metricType other : MetricType} {sign otherSign : UInt64}
    {position otherPosition : ℕ} (missing : store.found metricType sign = none)
    (found : store.found other otherSign = some otherPosition) :
    (store.file metricType sign position).found other otherSign = some otherPosition := by
  have apart {held : UInt64 → Option ℕ} (missing : held sign = none)
      (found : held otherSign = some otherPosition) :
      Function.update held sign (some position) otherSign = some otherPosition := by
    rw [Function.update_of_ne]
    · exact found
    · rintro rfl
      cases missing.symm.trans found
  cases metricType <;> cases other <;> first | exact found | exact apart missing found

theorem found_file_self {metricType : MetricType} (isOfLines : ofLines metricType = true)
    (sign : UInt64) (position : ℕ) :
    (store.file metricType sign position).found metricType sign = some position := by
  cases metricType <;> first | exact Function.update_self _ _ _ | cases isOfLines

theorem families_file (metricType : MetricType) (sign : UInt64) (position : ℕ) :
    (store.file metricType sign position).families = store.families := by
  cases metricType <;> rfl

theorem metrics_file (metricType : MetricType) (sign : UInt64) (position : ℕ) :
    (store.file metricType sign position).metrics = store.metrics := by
  cases metricType <;> rfl

/-- A metric that no family lists may be listed by one, and is found by its labels from then on. -/
theorem Indexed.list (indexed : store.Indexed) {name : GoString} {family : DtoFamily ℕ}
    {metricType : MetricType} {position : ℕ} {metric : DtoMetric}
    (held : store.families name = some family) (typed : family.type = some metricType)
    (unlisted : ¬store.Listed position) (here : store.metrics[position]? = some metric)
    (own : OwnLabels metricType metric.label)
    (missing : store.found metricType (signature name metric.label) = none) :
    ((store.file metricType (signature name metric.label) position).setFamily name
      { family with metric := family.metric ++ [position] }).Indexed := by
  have before {other : GoString} {found : DtoFamily ℕ} {index : ℕ}
      (lookup : ((store.file metricType (signature name metric.label) position).setFamily name
        { family with metric := family.metric ++ [position] }).families other = some found)
      (indexMem : index ∈ found.metric) : (other = name ∧ index = position) ∨
        ∃ before, store.families other = some before ∧ index ∈ before.metric ∧
          before.type = found.type := by
    rw [families_setFamily, families_file] at lookup
    split_ifs at lookup with same
    · cases lookup
      rcases List.mem_append.mp indexMem with indexMem | isPosition
      · exact Or.inr ⟨family, same ▸ held, indexMem, rfl⟩
      · exact Or.inl ⟨same, List.mem_singleton.mp isPosition⟩
    · exact Or.inr ⟨found, lookup, indexMem, rfl⟩
  refine ⟨?_, ?_, ?_⟩
  · intro other found lookup index indexMem otherType otherTyped
    rcases before lookup indexMem with ⟨rfl, rfl⟩ | ⟨original, lookup, indexMem, sameType⟩
    · rw [families_setFamily, if_pos rfl] at lookup
      cases lookup
      cases typed.symm.trans otherTyped
      refine ⟨metric, (congrArg (·[index]?) (metrics_file _ _ _)).trans here, own, ?_⟩
      exact fun isOfLines => found_file_self isOfLines _ _
    · rcases indexed.filed lookup index indexMem otherType (sameType.trans otherTyped) with
        ⟨otherMetric, otherHere, otherOwn, found⟩
      refine ⟨otherMetric, (congrArg (·[index]?) (metrics_file _ _ _)).trans otherHere,
        otherOwn, ?_⟩
      exact fun isOfLines => found_file_of_found missing (found isOfLines)
  · intro other found lookup
    rw [families_setFamily, families_file] at lookup
    split_ifs at lookup with same
    · cases lookup
      refine (indexed.once held).append (List.nodup_singleton _) ?_
      rw [List.disjoint_singleton]
      exact fun positionMem => unlisted ⟨name, family, held, positionMem⟩
    · exact indexed.once lookup
  · intro first second found otherFound index lookup otherLookup indexMem otherMem
    rcases before lookup indexMem with ⟨isFirst, isNew⟩ | ⟨original, held, indexHeld, _⟩ <;>
      rcases before otherLookup otherMem with ⟨isSecond, same⟩ | ⟨other, otherHeld, otherMem, _⟩
    · exact isFirst.trans isSecond.symm
    · exact absurd ⟨second, other, otherHeld, isNew ▸ otherMem⟩ unlisted
    · exact absurd ⟨first, original, held, same ▸ indexHeld⟩ unlisted
    · exact indexed.apart held otherHeld indexHeld otherMem

/-- A listed metric has a value. -/
theorem Sound.not_listed_of_label (sound : store.Sound) {position : ℕ} {labels : List LabelPair}
    (here : store.metrics[position]? = some { label := labels }) : ¬store.Listed position := by
  rintro ⟨name, family, lookup, positionMem⟩
  rcases sound.listed lookup position positionMem with ⟨metricType, _, holds⟩
  exact not_holds_of_label here _ holds

/-- The signatures of what is listed are those of its positions. -/
theorem Indexed.map_found (indexed : store.Indexed) {name : GoString} {family : DtoFamily ℕ}
    {metricType : MetricType} (held : store.families name = some family)
    (typed : family.type = some metricType) (isOfLines : ofLines metricType = true) :
    ((store.listed family).map fun metric =>
      store.found metricType (signature name metric.label)) = family.metric.map some := by
  have filed := indexed.filed held
  unfold Store.listed
  clear held
  generalize family.metric = positions at filed
  induction positions with
  | nil => rfl
  | cons position positions inductionHypothesis =>
      rcases filed position List.mem_cons_self metricType typed with ⟨metric, here, _, found⟩
      rw [List.filterMap_cons, here, List.map_cons, List.map_cons, found isOfLines,
        inductionHypothesis fun other otherMem => filed other (List.mem_cons_of_mem _ otherMem)]

end Store

/-! ## Numbers -/

/-- No count of a histogram is negative. -/
structure DtoHistogram.NoNegative (histogram : DtoHistogram) : Prop where
  count : ∀ count, histogram.sampleCountFloat = some count → count.isNegative = false
  bucket : ∀ b ∈ histogram.bucket, ∀ count, b.cumulativeCountFloat = some count →
    count.isNegative = false

/-- The timestamp and the counts of a metric can be written and read again. -/
structure DtoMetric.InRange (metric : DtoMetric) : Prop where
  timestamp : ∀ timestamp, metric.timestampMs = some timestamp →
    -2 ^ 63 ≤ timestamp ∧ timestamp < 2 ^ 63
  histogram : ∀ histogram, metric.histogram = some histogram → histogram.NoNegative

namespace TextParser

section

variable [Strconv]

theorem isNegative_of_readCount {value : Float64} {count : Option UInt64}
    {countFloat : Option Float64} (reads : readCount value = some (count, countFloat)) :
    ∀ float, countFloat = some float → float.isNegative = false := by
  unfold readCount at reads
  split_ifs at reads with isInteger isNegative
  · cases reads
    nofun
  · cases reads
    rintro _ ⟨⟩
    simpa using isNegative

theorem noNegative_of_setHistogram {p : TextParser} {value : Float64}
    {histogram changed : DtoHistogram} (noNegative : histogram.NoNegative)
    (sets : p.setHistogram value histogram = .ok changed) : changed.NoNegative := by
  unfold setHistogram at sets
  split_ifs at sets
  · split at sets
    · cases sets
    · next count countFloat reads =>
        cases sets
        refine ⟨fun float isFloat => ?_, noNegative.bucket⟩
        rcases Option.or_eq_some_iff.mp isFloat with isFloat | ⟨_, isFloat⟩
        · exact isNegative_of_readCount reads float isFloat
        · exact noNegative.count float isFloat
  · cases sets
    exact ⟨noNegative.count, noNegative.bucket⟩
  · split at sets
    · cases sets
    · next count countFloat reads =>
        cases sets
        refine ⟨noNegative.count, fun b bucketMem float isFloat => ?_⟩
        rcases List.mem_append.mp bucketMem with bucketMem | isLast
        · exact noNegative.bucket b bucketMem float isFloat
        · rw [List.mem_singleton.mp isLast] at isFloat
          exact isNegative_of_readCount reads float isFloat
  · cases sets
    exact noNegative

theorem inRange_of_setValue {p q : TextParser} {value : Float64}
    (inRange : ∀ metric ∈ p.metrics, metric.InRange) (sets : p.setValue value = .ok q) :
    ∀ metric ∈ q.metrics, metric.InRange := by
  have update {change : DtoMetric → DtoMetric}
      (sets : p.updateMetric change = .ok q)
      (kept : ∀ metric, DtoMetric.InRange metric → (change metric).InRange) :
      ∀ metric ∈ q.metrics, metric.InRange := by
    rcases (p.meets_updateMetric change).value sets with ⟨position, _, rfl⟩
    exact forall_mem_modify inRange kept position
  have set {histogram : DtoHistogram}
      (sets : p.setHistogram value (((p.currentMetric.bind (p.metrics[·]?)).bind
        DtoMetric.histogram).getD {}) = .ok histogram) : histogram.NoNegative := by
    refine noNegative_of_setHistogram ?_ sets
    cases held : (p.currentMetric.bind (p.metrics[·]?)).bind DtoMetric.histogram with
    | none => exact ⟨nofun, nofun⟩
    | some found =>
        rcases Option.bind_eq_some_iff.mp held with ⟨metric, isMetric, isHistogram⟩
        rcases Option.bind_eq_some_iff.mp isMetric with ⟨position, _, here⟩
        exact (inRange metric (List.mem_of_getElem? here)).histogram found isHistogram
  unfold setValue at sets
  split at sets
  case h_1 | h_2 | h_3 | h_4 =>
      exact update sets fun metric kept => ⟨kept.timestamp, kept.histogram⟩
  case h_5 | h_6 =>
      rcases bind_eq_ok.mp sets with ⟨histogram, isSet, sets⟩
      refine update sets fun metric kept => ⟨kept.timestamp, fun changed isChanged => ?_⟩
      cases isChanged
      exact set isSet

/-- The counts of a histogram that has floating point counts are not negative either. -/
theorem inRange_normalizeMetric {metric : DtoMetric} (inRange : metric.InRange) :
    (normalizeMetric metric).InRange := by
  refine ⟨inRange.timestamp, fun normal isNormal => ?_⟩
  rcases Option.map_eq_some_iff.mp isNormal with ⟨histogram, isHistogram, rfl⟩
  rcases inRange.histogram histogram isHistogram with ⟨count, bucket⟩
  have normalized {count : Option UInt64} {countFloat : Option Float64}
      (notNegative : ∀ float, countFloat = some float → float.isNegative = false) :
      ∀ float, (normalizeCount count countFloat).2 = some float → float.isNegative = false := by
    unfold normalizeCount
    split
    · rintro _ ⟨⟩
      exact Strconv.isNegative_float64 _
    · exact notNegative
  unfold normalizeHistogram
  split
  · exact ⟨count, bucket⟩
  · refine ⟨normalized count, fun b bucketMem => ?_⟩
    rcases List.mem_map.mp bucketMem with ⟨original, originalMem, rfl⟩
    exact normalized (bucket original originalMem)

end

/-! ## The invariant -/

theorem Fresh.unlisted {p : TextParser} {labels : List LabelPair} {name : GoString}
    {family : DtoFamily ℕ} {metricType : MetricType} {position : ℕ}
    (fresh : p.Fresh labels name family metricType position) (sound : p.store.Sound) :
    ¬p.store.Listed position :=
  sound.not_listed_of_label fresh.here

/-- The labels of the current metric are its own, and are collected for its signature. -/
def Collected (p : TextParser) : Prop :=
  ∀ labels name family metricType position, p.Fresh labels name family metricType position →
    OwnLabels metricType (labels ++ p.currentLabelPairs) ∧
      (ofLines metricType = true →
        p.currentLabels = some (labelMap name (labels ++ p.currentLabelPairs)))

theorem Collected.named {p : TextParser} (collected : p.Collected) (current : UInt8)
    (input name : GoString) :
    Collected { p.readTo current input with currentLabelName := name } :=
  fun labels name family metricType position fresh => collected labels name family metricType
    position ⟨fresh.currentMF, fresh.held, fresh.typed, fresh.currentMetric, fresh.here⟩

/-- The states in which labels have been collected. -/
def collects : StateFn → Bool
  | .startLabelName | .startLabelValue | .readingValue => true
  | _ => false

/-- What holds in each state beside what is good. -/
structure Tracks (p : TextParser) (state : StateFn) : Prop where
  indexed : p.store.Indexed
  inRange : ∀ metric ∈ p.metrics, metric.InRange
  collected : collects state = true → p.Collected

theorem Tracks.other {p : TextParser} {state : StateFn} (tracks : p.Tracks state)
    {after : StateFn} (collectsNot : collects after = false) : p.Tracks after :=
  ⟨tracks.indexed, tracks.inRange, fun isTrue => by simp [collectsNot] at isTrue⟩

theorem tracks_initial (input : GoString) : TextParser.Tracks { input } .startOfLine := by
  have noFamily {name : GoString} {family : DtoFamily ℕ}
      (lookup : (store { input }).families name = some family) : False := by
    have isEmpty : AList.lookup name (∅ : AList fun _ : GoString => DtoFamily ℕ) = none :=
      AList.lookup_empty name
    cases isEmpty.symm.trans lookup
  refine ⟨⟨fun lookup => (noFamily lookup).elim, fun lookup => (noFamily lookup).elim,
    fun lookup => (noFamily lookup).elim⟩, List.forall_mem_nil _, fun isTrue => by cases isTrue⟩

theorem indexed_of_creates {p : TextParser} {name : GoString}
    {families : AList fun _ : GoString => DtoFamily ℕ} (indexed : p.store.Indexed)
    (creates : p.Creates name families) :
    (store { p with metricFamiliesByName := families }).Indexed := by
  cases creates with
  | found => exact indexed
  | created =>
      rw [store_insert]
      exact indexed.setFamily (Or.inl rfl)

theorem metric_eq_nil_of_untyped {store : Store} (sound : store.Sound) {name : GoString}
    {family : DtoFamily ℕ} (held : store.families name = some family)
    (untyped : family.type = none) : family.metric = [] := by
  refine List.eq_nil_iff_forall_not_mem.mpr fun position positionMem => ?_
  rcases sound.listed held position positionMem with ⟨metricType, typed, _⟩
  cases untyped.symm.trans typed

theorem tracks_of_startMetric {p started : TextParser} {name input : GoString} {current : UInt8}
    {state : StateFn} (sound : p.store.Sound) (tracks : p.Tracks state)
    (starts : p.startMetric name = .ok started) :
    (started.readTo current input).Tracks .readingLabels := by
  rcases (p.meets_startMetric name).value starts with
    ⟨families, found, kind, family, creates, held, rfl⟩
  have sameType : family.metric = [] ∨ family.type.or (some .untyped) = family.type := by
    cases typed : family.type with
    | none => exact Or.inl (metric_eq_nil_of_untyped (sound_of_creates sound creates) held typed)
    | some metricType => exact Or.inr rfl
  have grown := (@Store.Indexed.setFamily _ (indexed_of_creates tracks.indexed creates) found
    { family with type := family.type.or (some .untyped) }
    (Or.inr ⟨family, held, rfl, sameType⟩)).allocate
  refine ⟨?_, ?_, fun isTrue => by cases isTrue⟩
  · rw [← store_insert] at grown
    exact grown
  · refine List.forall_mem_append.mpr ⟨tracks.inRange, ?_⟩
    exact List.forall_mem_singleton.mpr ⟨nofun, nofun⟩

theorem Fresh.unique {p : TextParser} {labels otherLabels : List LabelPair}
    {name other : GoString} {family otherFamily : DtoFamily ℕ} {metricType otherType : MetricType}
    {position otherPosition : ℕ} (fresh : p.Fresh labels name family metricType position)
    (again : p.Fresh otherLabels other otherFamily otherType otherPosition) :
    labels = otherLabels ∧ name = other ∧ metricType = otherType := by
  cases fresh.currentMF.symm.trans again.currentMF
  cases fresh.held.symm.trans again.held
  cases fresh.typed.symm.trans again.typed
  cases fresh.currentMetric.symm.trans again.currentMetric
  cases fresh.here.symm.trans again.here
  exact ⟨rfl, rfl, rfl⟩

theorem tracks_of_labels {p : TextParser} (good : p.Good .readingLabels)
    (tracks : p.Tracks .readingLabels) :
    p.resetLabels.Tracks
      (if p.currentByte == openBrace then .startLabelName else .readingValue) := by
  rcases good with ⟨_, pairs, name, family, metricType, position, fresh⟩
  unfold resetLabels
  rw [fresh.getType, fresh.currentMF]
  have own : OwnLabels metricType [] := nofun
  split
  case isTrue =>
      refine ⟨tracks.indexed, tracks.inRange, ?_⟩
      intro _ labels other held otherType otherPosition again
      have before : p.Fresh labels other held otherType otherPosition :=
        ⟨fresh.currentMF.trans again.currentMF, again.held, again.typed, again.currentMetric,
          again.here⟩
      rcases fresh.unique before with ⟨rfl, rfl, rfl⟩
      change OwnLabels metricType ([] ++ p.currentLabelPairs) ∧
        (_ → some _ = some (labelMap name ([] ++ p.currentLabelPairs)))
      rw [pairs]
      exact ⟨own, fun _ => rfl⟩
  case isFalse notOfLines =>
      refine ⟨tracks.indexed, tracks.inRange, ?_⟩
      intro _ labels other held otherType otherPosition again
      rcases fresh.unique again with ⟨rfl, rfl, rfl⟩
      rw [pairs]
      exact ⟨own, fun isOfLines => absurd isOfLines notOfLines⟩

theorem tracks_of_closeLabels {p q : TextParser} {after : StateFn} (inBraces : p.InBraces)
    (tracks : p.Tracks .startLabelName) (closes : p.closeLabels = .ok (some after, q)) :
    q.Tracks after := by
  rcases p.meets_closeLabels.value closes with ⟨position, current, input, isCurrent, _, result⟩
  cases result
  rcases inBraces.fresh with ⟨name, family, metricType, other, fresh⟩
  cases isCurrent.symm.trans fresh.currentMetric
  have attached : (p.attachLabels position).metrics[position]? =
      some { label := p.currentLabelPairs } := by
    simp [attachLabels, fresh.here]
  refine ⟨?_, ?_, fun _ labels again family metricType other closed => ?_⟩
  · exact tracks.indexed.modify fun listed => absurd listed (fresh.unlisted inBraces.sound)
  · refine forall_mem_modify tracks.inRange ?_ position
    exact fun _ kept => ⟨kept.timestamp, kept.histogram⟩
  · have before : p.Fresh [] again family metricType position :=
      ⟨closed.currentMF, closed.held, closed.typed, isCurrent, fresh.here⟩
    cases isCurrent.symm.trans closed.currentMetric
    cases attached.symm.trans closed.here
    rw [show ((p.attachLabels position).readTo current input).currentLabelPairs = [] from rfl,
      List.append_nil]
    exact tracks.collected rfl _ _ _ _ _ before

theorem labelMap_append_singleton (name : GoString) (labels : List LabelPair)
    (label : LabelPair) : labelMap name (labels ++ [label]) =
      (labelMap name labels).insert (label.name.getD []) (label.value.getD []) := by
  rw [labelMap, List.foldl_append]
  rfl

theorem tracks_of_setLabel [Strconv] {p labelled : TextParser} {value input : GoString}
    {current : UInt8} (tracks : p.Tracks .startLabelValue)
    (sets : p.setLabel value = .ok labelled) :
    (labelled.readTo current input).Tracks .startLabelName := by
  rcases (p.meets_setLabel value).value sets with
    ⟨pairs, collected, quantile, bucket, isPairs, rfl⟩
  refine ⟨tracks.indexed, tracks.inRange, fun _ labels name family metricType position fresh => ?_⟩
  have before : p.Fresh labels name family metricType position :=
    ⟨fresh.currentMF, fresh.held, fresh.typed, fresh.currentMetric, fresh.here⟩
  rcases tracks.collected rfl _ _ _ _ _ before with ⟨own, isCollected⟩
  change OwnLabels metricType (labels ++ pairs) ∧ (ofLines metricType = true →
    collected = some (labelMap name (labels ++ pairs)))
  rcases isPairs with ⟨rfl, rfl⟩ | ⟨isOfMetric, rfl, isLabels⟩
  · exact ⟨own, isCollected⟩
  · rw [before.getType] at isOfMetric isLabels
    rw [← List.append_assoc]
    refine ⟨?_, fun isOfLines => ?_⟩
    · refine List.forall_mem_append.mpr ⟨own, List.forall_mem_singleton.mpr ?_⟩
      rintro _ ⟨⟩
      exact isOfMetric
    · rw [isLabels isOfLines, isCollected isOfLines, labelMap_append_singleton]
      rfl

theorem Places.metrics {p placed : TextParser} (places : p.Places placed) :
    placed.metrics = p.metrics := by
  cases places <;> rfl

/-- A new metric of several lines is filed under the signature of its labels. -/
theorem indexed_of_places {p placed : TextParser} (good : p.Good .readingValue)
    (tracks : p.Tracks .readingValue) (places : p.Places placed) : placed.store.Indexed := by
  cases places with
  | summary | histogram => exact tracks.indexed
  | @new _ _ position name files isCurrent isCurrentMF =>
      rcases good with ⟨inLine, pairs, labels, other, family, metricType, otherPosition, fresh⟩
      cases isCurrentMF.symm.trans fresh.currentMF
      cases isCurrent.symm.trans fresh.currentMetric
      have isFamily : p.family = some family := by
        rw [TextParser.family, isCurrentMF, Option.bind_some, fresh.held]
      have collected := tracks.collected rfl _ _ _ _ _ fresh
      rw [pairs, List.append_nil] at collected
      have isSign (isOfLines : ofLines metricType = true) : p.sign = signature name labels := by
        rw [sign, collected.2 isOfLines]
        rfl
      have list (missing : p.store.found metricType (signature name labels) = none) :=
        tracks.indexed.list fresh.held fresh.typed (fresh.unlisted inLine.sound) fresh.here
          collected.1 missing
      rw [isFamily, Option.getD_some]
      cases files with
      | summary isSummary missing =>
          rw [fresh.getType] at isSummary
          subst isSummary
          rw [isSign rfl] at missing ⊢
          have listed := list missing
          unfold store Store.file Store.fileSummary Store.setFamily at *
          simpa only [lookup_insert_eq, if_pos] using listed
      | histogram isHistogram missing =>
          rw [fresh.getType] at isHistogram
          have notSummary := ne_summary_of_ofHistogram isHistogram
          rw [isSign (by rw [ofLines, isHistogram, Bool.or_true])] at missing ⊢
          have listed := list (by rw [histograms_of_found isHistogram]; exact missing)
          rw [Store.file, if_neg notSummary, if_pos isHistogram] at listed
          unfold store Store.fileHistogram Store.setFamily at *
          simpa only [lookup_insert_eq] using listed
      | single notOfLines =>
          rw [fresh.getType] at notOfLines
          have listed := list (found_eq_none notOfLines _ _)
          rw [ofLines, Bool.or_eq_false_iff, beq_eq_false_iff_ne] at notOfLines
          rw [Store.file, if_neg notOfLines.1, if_neg (by simp [notOfLines.2])] at listed
          unfold store Store.setFamily at *
          simpa only [lookup_insert_eq] using listed

theorem tracks_of_value [Strconv] {p placed q : TextParser} {value : Float64} {current : UInt8}
    {input : GoString} (good : p.Good .readingValue) (tracks : p.Tracks .readingValue)
    (places : p.Places placed) (sets : (placed.readTo current input).setValue value = .ok q) :
    q.Tracks .startOfLine := by
  have indexed := indexed_of_places good tracks places
  have inRange := @inRange_of_setValue _ (placed.readTo current input) q value
    (places.metrics ▸ tracks.inRange) sets
  rcases (meets_setValue _ value).value sets with ⟨position, change, _, setsValue, rfl⟩
  exact ⟨indexed.modify fun _ => setsValue.label, inRange, fun isTrue => by cases isTrue⟩

theorem tracks_of_updateMF {p described : TextParser} {state : StateFn}
    {change : DtoFamily ℕ → DtoFamily ℕ} (tracks : p.Tracks state) {family : DtoFamily ℕ}
    (isFamily : p.family = some family) (sameMetrics : (change family).metric = family.metric)
    (sameType : family.metric = [] ∨ (change family).type = family.type)
    (sets : p.updateMF change = .ok described) : described.Tracks .startOfLine := by
  rcases (p.meets_updateMF change).value sets with ⟨name, isCurrentMF, rfl⟩
  have held : p.store.families name = some family := by
    rw [TextParser.family, isCurrentMF, Option.bind_some] at isFamily
    exact isFamily
  refine ⟨?_, tracks.inRange, fun isTrue => by cases isTrue⟩
  rw [store_insert, isFamily, Option.getD_some]
  exact tracks.indexed.setFamily (Or.inr ⟨family, held, sameMetrics, sameType⟩)

theorem tracks_of_move [Strconv] {p q : TextParser} {state after : StateFn} (good : p.Good state)
    (tracks : p.Tracks state) (move : p.Move state after q) : q.Tracks after := by
  cases move with
  | emptyLine | commentLine | sampleLine | comment =>
      exact ⟨tracks.indexed, tracks.inRange, fun isTrue => by cases isTrue⟩
  | bracedLine skips => exact absurd rfl (plain_of_skips good.2.2 skips).1
  | emptyDescription finds =>
      rcases (p.meets_setOrCreateCurrentMF _).value finds with ⟨_, _, _, creates, _, rfl⟩
      have indexed := indexed_of_creates tracks.indexed creates
      exact ⟨indexed, tracks.inRange, fun isTrue => by cases isTrue⟩
  | description finds _ keyword =>
      rcases (p.meets_setOrCreateCurrentMF _).value finds with ⟨_, _, _, creates, _, rfl⟩
      have indexed := indexed_of_creates tracks.indexed creates
      rcases keyword with rfl | rfl <;>
        exact ⟨indexed, tracks.inRange, fun isTrue => by cases isTrue⟩
  | metricName starts => exact tracks_of_startMetric good.1.sound tracks starts
  | labels => exact tracks_of_labels good tracks
  | noMoreLabels reads closes =>
      exact tracks_of_closeLabels (InBraces.readTo good reads)
        ⟨tracks.indexed, tracks.inRange, fun _ => (tracks.collected rfl).named _ _ _⟩ closes
  | nameInBraces reads isName =>
      rcases (meets_nameInBraces _ _).value isName with ⟨_, _, inside, _⟩
      exact absurd (good.noBraces.symm.trans inside) (by decide)
  | labelName =>
      exact ⟨tracks.indexed, tracks.inRange, fun _ => (tracks.collected rfl).named _ _ _⟩
  | labelValue _ sets => exact tracks_of_setLabel tracks sets
  | lastLabelValue valid sets reads closes =>
      exact tracks_of_closeLabels (inBraces_of_setLabel good valid sets reads)
        (tracks_of_setLabel tracks sets) closes
  | value places _ sets continues =>
      have tracksAfter := tracks_of_value good tracks (p.meets_placeMetric.value places) sets
      rcases continues with ⟨rfl, _⟩ | rfl
      · exact tracksAfter
      · exact tracksAfter.other rfl
  | timestamp bounds sets =>
      rcases (p.meets_updateMetric _).value sets with ⟨position, _, rfl⟩
      refine ⟨tracks.indexed.modify fun _ _ => rfl, ?_, fun isTrue => by cases isTrue⟩
      refine forall_mem_modify tracks.inRange ?_ position
      rintro metric kept
      refine ⟨?_, kept.histogram⟩
      rintro _ ⟨⟩
      exact bounds
  | help sets =>
      rcases Option.isSome_iff_exists.mp good.2.2 with ⟨family, isFamily⟩
      have described := tracks_of_updateMF tracks isFamily rfl (Or.inr rfl) sets
      exact ⟨described.indexed, described.inRange, fun isTrue => by cases isTrue⟩
  | type missing sets =>
      rcases Option.isSome_iff_exists.mp good.2.2 with ⟨family, isFamily⟩
      rw [isFamily, Option.bind_some] at missing
      rcases (p.meets_updateMF _).value sets with ⟨name, isCurrentMF, _⟩
      have held : p.store.families name = some family := by
        rw [TextParser.family, isCurrentMF, Option.bind_some] at isFamily
        exact isFamily
      have isEmpty := metric_eq_nil_of_untyped good.1.sound held missing
      have described := tracks_of_updateMF tracks isFamily rfl (Or.inl isEmpty) sets
      exact ⟨described.indexed, described.inRange, fun isTrue => by cases isTrue⟩

end TextParser

end Expfmt

end Promfetcher
