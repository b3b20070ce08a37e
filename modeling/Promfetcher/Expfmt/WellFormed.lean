import Promfetcher.Expfmt.Moves

/-!
# What the text parser accepts is well formed

The invariants of the parser on an input of which no line starts with a brace. A
metric that a family lists has exactly the value pointer of the type of the
family, the metrics that are found again by their signature are summaries and
histograms, and labels are valid. So the parser does not panic on such an input,
and its families are as the rest of the program takes them to be.
-/

namespace Promfetcher

open Foundation

namespace Expfmt

/-- Some line starts with a brace, maybe behind blanks and tabs. -/
def bracesStartLine (atStart : Bool) : GoString → Bool
  | [] => false
  | byte :: rest =>
      if byte == newline then bracesStartLine true rest
      else if isBlankOrTab byte then bracesStartLine atStart rest
      else atStart && byte == openBrace || bracesStartLine false rest

/-- None of the lines after the current one starts with a brace. -/
def Plain (input : GoString) : Prop :=
  bracesStartLine false input = false

theorem plain_of_atStart {input : GoString} (plain : bracesStartLine true input = false) :
    Plain input := by
  induction input with
  | nil => rfl
  | cons byte rest inductionHypothesis =>
      unfold Plain
      unfold bracesStartLine at plain ⊢
      split_ifs at plain ⊢
      · exact plain
      · exact inductionHypothesis plain
      · rw [Bool.or_eq_false_iff] at plain
        simpa using plain.2

theorem Plain.tail {byte : UInt8} {rest : GoString} (plain : Plain (byte :: rest)) :
    Plain rest := by
  unfold Plain bracesStartLine at plain
  split_ifs at plain
  · exact plain_of_atStart plain
  · exact plain
  · exact (Bool.or_eq_false_iff.mp plain).2

theorem Plain.nextLine {rest : GoString} (plain : Plain (newline :: rest)) :
    bracesStartLine true rest = false :=
  plain

theorem Plain.reads {input rest : GoString} {byte : UInt8} (plain : Plain input)
    (reads : Reads input byte rest) : Plain (byte :: rest) := by
  rcases reads with ⟨consumed, inside, rfl⟩
  clear inside
  induction consumed with
  | nil => exact plain
  | cons first consumed inductionHypothesis => exact inductionHypothesis plain.tail

/-- The first byte of a line that is no blank is no brace. -/
theorem plain_of_skips {input rest : GoString} {byte : UInt8}
    (plain : bracesStartLine true input = false)
    (skips : skipBlankTab input = .ok (byte, rest)) :
    byte ≠ openBrace ∧ Plain (byte :: rest) := by
  induction input with
  | nil => cases skips
  | cons first input inductionHypothesis =>
      rw [skipBlankTab] at skips
      split at skips
      case isTrue blank =>
          rw [bracesStartLine, if_neg (by simpa using isBlankOrTab_ne_newline blank),
            if_pos blank] at plain
          exact inductionHypothesis plain skips
      case isFalse =>
          cases skips
          refine ⟨?_, plain_of_atStart plain⟩
          rintro rfl
          rw [bracesStartLine, if_neg (by decide), if_neg (by decide)] at plain
          simp at plain

/-! ## The families and metrics of the parser -/

/-- The labels of a metric have distinct valid names. -/
structure WellLabelled (labels : List LabelPair) : Prop where
  nodup : (labels.map LabelPair.name).Nodup
  valid : ∀ label ∈ labels, ∃ name value, label = ⟨some name, some value⟩ ∧
    name ≠ [] ∧ name ≠ metricNameLabel ∧ validString name = true ∧ validString value = true

/-- Whether a label has a name and a value that the parser accepts. -/
def isWellFormed (label : LabelPair) : Bool :=
  (label.name.any fun name =>
    decide (name ≠ [] ∧ name ≠ metricNameLabel ∧ validString name = true)) &&
      label.value.any validString

theorem isWellFormed_iff (label : LabelPair) : isWellFormed label = true ↔
    ∃ name value, label = ⟨some name, some value⟩ ∧ name ≠ [] ∧ name ≠ metricNameLabel ∧
      validString name = true ∧ validString value = true := by
  rcases label with ⟨_ | name, _ | value⟩ <;> simp [isWellFormed, and_assoc]

instance (labels : List LabelPair) : Decidable (WellLabelled labels) :=
  decidable_of_iff ((labels.map LabelPair.name).Nodup ∧
      ∀ label ∈ labels, isWellFormed label = true)
    ⟨fun ⟨nodup, valid⟩ =>
        ⟨nodup, fun label labelMem => (isWellFormed_iff label).mp (valid label labelMem)⟩,
      fun labelled => ⟨labelled.nodup,
        fun label labelMem => (isWellFormed_iff label).mpr (labelled.valid label labelMem)⟩⟩

theorem wellLabelled_nil : WellLabelled [] :=
  ⟨List.nodup_nil, nofun⟩

theorem WellLabelled.push {labels : List LabelPair} (labelled : WellLabelled labels)
    {name value : GoString} (name_ne_nil : name ≠ []) (notReserved : name ≠ metricNameLabel)
    (validName : validString name = true) (validValue : validString value = true)
    (notDuplicate : ∀ label ∈ labels, label.name ≠ some name) :
    WellLabelled (labels ++ [⟨some name, some value⟩]) where
  nodup := by
    rw [List.map_append, List.map_singleton]
    refine labelled.nodup.append (List.nodup_singleton _) ?_
    simpa [List.disjoint_singleton] using notDuplicate
  valid := by
    intro label labelMem
    rw [List.mem_append, List.mem_singleton] at labelMem
    rcases labelMem with labelMem | rfl
    · exact labelled.valid label labelMem
    · exact ⟨name, value, rfl, name_ne_nil, notReserved, validName, validValue⟩

/-- Exactly the value pointer of the kind is set. -/
def DtoMetric.IsOf (metric : DtoMetric) (kind : Kind) : Prop :=
  ∀ other, metric.carries other = decide (other = kind)

/-- The families and metrics that the parser has built. -/
structure Store where
  families : GoString → Option (DtoFamily ℕ)
  metrics : List DtoMetric
  summaries : UInt64 → Option ℕ
  histograms : UInt64 → Option ℕ

namespace Store

/-- The metric at the position has exactly the value pointer of the kind. -/
def Holds (store : Store) (position : ℕ) (kind : Kind) : Prop :=
  ∃ metric, store.metrics[position]? = some metric ∧ metric.IsOf kind

/-- What the parser keeps of its store after every move. -/
structure Sound (store : Store) : Prop where
  named : ∀ {name : GoString} {family : DtoFamily ℕ}, store.families name = some family →
    name ≠ [] ∧ validString name = true
  listed : ∀ {name : GoString} {family : DtoFamily ℕ}, store.families name = some family →
    ∀ position ∈ family.metric, ∃ metricType, family.type = some metricType ∧
      store.Holds position metricType.kind
  summaries : ∀ {signature : UInt64} {position : ℕ}, store.summaries signature = some position →
    store.Holds position .summary
  histograms : ∀ {signature : UInt64} {position : ℕ},
    store.histograms signature = some position → store.Holds position .histogram
  labelled : ∀ metric ∈ store.metrics, WellLabelled metric.label

variable {store : Store}

/-- The store with another family under the name. -/
def setFamily (store : Store) (name : GoString) (family : DtoFamily ℕ) : Store :=
  { store with families := Function.update store.families name (some family) }

theorem families_setFamily (name : GoString) (family : DtoFamily ℕ) (other : GoString) :
    (store.setFamily name family).families other =
      if other = name then some family else store.families other :=
  Function.update_apply _ _ _ _

/-- A family is new, or it keeps its metrics, and its type if it had one. -/
theorem Sound.setFamily (sound : store.Sound) {name : GoString} {family : DtoFamily ℕ}
    (isNamed : name ≠ [] ∧ validString name = true)
    (grows : family.metric = [] ∨ ∃ held, store.families name = some held ∧
      family.metric = held.metric ∧ (held.type = none ∨ family.type = held.type)) :
    (store.setFamily name family).Sound where
  named := by
    intro other found lookup
    rw [families_setFamily] at lookup
    split_ifs at lookup with same
    · exact same ▸ isNamed
    · exact sound.named lookup
  listed := by
    intro other found lookup position positionMem
    rw [families_setFamily] at lookup
    split_ifs at lookup with same
    · cases lookup
      rcases grows with isEmpty | ⟨held, lookup, sameMetrics, sameType⟩
      · rw [isEmpty] at positionMem
        cases positionMem
      · rw [sameMetrics] at positionMem
        rcases sound.listed lookup position positionMem with ⟨metricType, typed, holds⟩
        refine ⟨metricType, ?_, holds⟩
        rcases sameType with untyped | sameType
        · rw [untyped] at typed
          cases typed
        · rw [sameType, typed]
    · exact sound.listed lookup position positionMem
  summaries := sound.summaries
  histograms := sound.histograms
  labelled := sound.labelled

/-- The store with a new metric, which is empty. -/
def allocate (store : Store) : Store :=
  { store with metrics := store.metrics ++ [{}] }

theorem Holds.allocate {position : ℕ} {kind : Kind} (holds : store.Holds position kind) :
    store.allocate.Holds position kind := by
  rcases holds with ⟨metric, here, isOf⟩
  refine ⟨metric, ?_, isOf⟩
  exact (List.getElem?_append_left (List.getElem?_eq_some_iff.mp here).1).trans here

theorem Sound.allocate (sound : store.Sound) : store.allocate.Sound where
  named := sound.named
  listed := by
    intro name family lookup position positionMem
    rcases sound.listed lookup position positionMem with ⟨metricType, typed, holds⟩
    exact ⟨metricType, typed, holds.allocate⟩
  summaries lookup := (sound.summaries lookup).allocate
  histograms lookup := (sound.histograms lookup).allocate
  labelled := by
    intro metric metricMem
    rcases List.mem_append.mp metricMem with metricMem | metricMem
    · exact sound.labelled metric metricMem
    · rw [List.mem_singleton.mp metricMem]
      exact wellLabelled_nil

/-- The store with a change of one metric. -/
def modify (store : Store) (position : ℕ) (change : DtoMetric → DtoMetric) : Store :=
  { store with metrics := store.metrics.modify position change }

theorem Holds.modify {position other : ℕ} {kind : Kind} {change : DtoMetric → DtoMetric}
    (holds : store.Holds other kind)
    (kept : other = position → ∀ metric, metric.IsOf kind → (change metric).IsOf kind) :
    (store.modify position change).Holds other kind := by
  rcases holds with ⟨metric, here, isOf⟩
  unfold Holds Store.modify
  rw [List.getElem?_modify, here]
  by_cases same : position = other
  · exact ⟨change metric, by simp [same], kept same.symm metric isOf⟩
  · exact ⟨metric, by simp [same], isOf⟩

theorem wellLabelled_modify {position : ℕ} {change : DtoMetric → DtoMetric}
    (labelled : ∀ metric ∈ store.metrics, WellLabelled metric.label)
    (kept : ∀ metric, store.metrics[position]? = some metric →
      WellLabelled metric.label → WellLabelled (change metric).label) :
    ∀ metric ∈ (store.modify position change).metrics, WellLabelled metric.label := by
  intro metric metricMem
  rcases List.mem_iff_getElem?.mp metricMem with ⟨index, here⟩
  unfold Store.modify at here
  rw [List.getElem?_modify, Option.map_eq_map, Option.map_eq_some_iff] at here
  rcases here with ⟨original, here, rfl⟩
  have original_labelled := labelled original (List.mem_of_getElem? here)
  split
  case isTrue same => exact kept original (same ▸ here) original_labelled
  case isFalse => exact original_labelled

/-- A metric that nothing refers to may change at will, and other metrics may change as long as
their value pointers stay. -/
theorem Sound.modify (sound : store.Sound) {position : ℕ} {change : DtoMetric → DtoMetric}
    (kept : ∀ kind, store.Holds position kind →
      ∀ metric, metric.IsOf kind → (change metric).IsOf kind)
    (labelled : ∀ metric, store.metrics[position]? = some metric →
      WellLabelled metric.label → WellLabelled (change metric).label) :
    (store.modify position change).Sound where
  named := sound.named
  listed := by
    intro name family lookup other otherMem
    rcases sound.listed lookup other otherMem with ⟨metricType, typed, holds⟩
    exact ⟨metricType, typed, holds.modify fun same => kept _ (same ▸ holds)⟩
  summaries lookup :=
    (sound.summaries lookup).modify fun same => kept _ (same ▸ sound.summaries lookup)
  histograms lookup :=
    (sound.histograms lookup).modify fun same => kept _ (same ▸ sound.histograms lookup)
  labelled := wellLabelled_modify sound.labelled labelled

/-- A metric with the value pointer of the type of a family may be listed by it. -/
theorem Sound.list (sound : store.Sound) {name : GoString} {family : DtoFamily ℕ}
    {metricType : MetricType} {position : ℕ} (held : store.families name = some family)
    (typed : family.type = some metricType) (holds : store.Holds position metricType.kind) :
    (store.setFamily name { family with metric := family.metric ++ [position] }).Sound where
  named := by
    intro other found lookup
    rw [families_setFamily] at lookup
    split_ifs at lookup with same
    · exact same ▸ sound.named held
    · exact sound.named lookup
  listed := by
    intro other found lookup index indexMem
    rw [families_setFamily] at lookup
    split_ifs at lookup with same
    · cases lookup
      rcases List.mem_append.mp indexMem with indexMem | indexMem
      · exact sound.listed held index indexMem
      · rw [List.mem_singleton.mp indexMem]
        exact ⟨metricType, typed, holds⟩
    · exact sound.listed lookup index indexMem
  summaries := sound.summaries
  histograms := sound.histograms
  labelled := sound.labelled

/-- The store once a summary is found by its signature. -/
def fileSummary (store : Store) (signature : UInt64) (position : ℕ) : Store :=
  { store with summaries := Function.update store.summaries signature (some position) }

/-- The store once a histogram is found by its signature. -/
def fileHistogram (store : Store) (signature : UInt64) (position : ℕ) : Store :=
  { store with histograms := Function.update store.histograms signature (some position) }

theorem Sound.fileSummary (sound : store.Sound) {position : ℕ}
    (holds : store.Holds position .summary) (signature : UInt64) :
    (store.fileSummary signature position).Sound where
  named := sound.named
  listed := sound.listed
  summaries := by
    intro other found lookup
    dsimp only [Store.fileSummary] at lookup
    rw [Function.update_apply] at lookup
    split_ifs at lookup
    · cases lookup
      exact holds
    · exact sound.summaries lookup
  histograms := sound.histograms
  labelled := sound.labelled

theorem Sound.fileHistogram (sound : store.Sound) {position : ℕ}
    (holds : store.Holds position .histogram) (signature : UInt64) :
    (store.fileHistogram signature position).Sound where
  named := sound.named
  listed := sound.listed
  summaries := sound.summaries
  histograms := by
    intro other found lookup
    dsimp only [Store.fileHistogram] at lookup
    rw [Function.update_apply] at lookup
    split_ifs at lookup
    · cases lookup
      exact holds
    · exact sound.histograms lookup
  labelled := sound.labelled

/-- A metric of which no value pointer is set so far is not listed. -/
theorem not_holds_of_label {position : ℕ} {labels : List LabelPair}
    (here : store.metrics[position]? = some { label := labels }) (kind : Kind) :
    ¬store.Holds position kind := by
  rintro ⟨metric, same, isOf⟩
  cases here.symm.trans same
  have carries := isOf kind
  cases kind <;> simp [DtoMetric.carries] at carries

theorem holds_unique {store : Store} {position : ℕ} {kind other : Kind}
    (holds : store.Holds position kind) (holdsOther : store.Holds position other) :
    kind = other := by
  rcases holds with ⟨metric, here, isOf⟩
  rcases holdsOther with ⟨metric, same, isOfOther⟩
  cases here.symm.trans same
  have carries := isOf kind
  rw [isOfOther kind] at carries
  simpa using carries

end Store

/-! ## The invariant -/

namespace TextParser

/-- The families, metrics and signatures of the parser. -/
def store (p : TextParser) : Store where
  families name := p.metricFamiliesByName.lookup name
  metrics := p.metrics
  summaries signature := p.summaries.lookup signature
  histograms signature := p.histograms.lookup signature

theorem lookup_insert_eq {Key Value : Type} [DecidableEq Key] (map : AList fun _ : Key => Value)
    (key : Key) (value : Value) :
    (fun other => (map.insert key value).lookup other) =
      Function.update (fun other => map.lookup other) key (some value) := by
  funext other
  rw [Function.update_apply]
  split_ifs with same
  · rw [same, AList.lookup_insert]
  · exact AList.lookup_insert_ne same

theorem store_insert (p : TextParser) (name : GoString) (family : DtoFamily ℕ) :
    store { p with metricFamiliesByName := p.metricFamiliesByName.insert name family } =
      p.store.setFamily name family := by
  unfold store Store.setFamily
  rw [lookup_insert_eq]

theorem sound_initial (input : GoString) : (store { input }).Sound := by
  have isEmpty {Key Value : Type} [DecidableEq Key] (key : Key) :
      AList.lookup key (∅ : AList fun _ : Key => Value) = none := AList.lookup_empty key
  refine ⟨?_, ?_, ?_, ?_, List.forall_mem_nil _⟩
  · intro name family lookup
    cases (isEmpty name).symm.trans lookup
  · intro name family lookup
    cases (isEmpty name).symm.trans lookup
  · intro signature position lookup
    cases (isEmpty signature).symm.trans lookup
  · intro signature position lookup
    cases (isEmpty signature).symm.trans lookup

/-- The current family has a type, and the current metric has labels only. -/
structure Fresh (p : TextParser) (labels : List LabelPair) (name : GoString)
    (family : DtoFamily ℕ) (metricType : MetricType) (position : ℕ) : Prop where
  currentMF : p.currentMF = some name
  held : p.metricFamiliesByName.lookup name = some family
  typed : family.type = some metricType
  currentMetric : p.currentMetric = some position
  here : p.metrics[position]? = some { label := labels }

theorem Fresh.getType {p : TextParser} {labels : List LabelPair} {name : GoString}
    {family : DtoFamily ℕ} {metricType : MetricType} {position : ℕ}
    (fresh : p.Fresh labels name family metricType position) : p.getType = metricType := by
  unfold TextParser.getType TextParser.family
  rw [fresh.currentMF, Option.bind_some, fresh.held, Option.bind_some, fresh.typed]
  rfl

/-- What holds within a line. -/
structure InLine (p : TextParser) : Prop where
  sound : p.store.Sound
  plain : Plain (p.currentByte :: p.input)
  noBraces : p.currentMetricIsInsideBraces = false

/-- What holds between the braces of a line. -/
structure InBraces (p : TextParser) : Prop extends InLine p where
  fresh : ∃ name family metricType position, p.Fresh [] name family metricType position
  labelled : WellLabelled p.currentLabelPairs
  collects : ofLines p.getType = true → p.currentLabels.isSome

/-- The invariant of the parser in each of its states. -/
def Good (p : TextParser) : StateFn → Prop
  | .startOfLine =>
      p.store.Sound ∧ p.currentLabelPairs = [] ∧ bracesStartLine true p.input = false
  | .startComment | .readingMetricName => p.InLine ∧ p.currentLabelPairs = []
  | .readingLabels => p.InLine ∧ p.currentLabelPairs = [] ∧
      ∃ name family metricType position, p.Fresh [] name family metricType position
  | .startLabelName => p.InBraces
  | .startLabelValue => p.InBraces ∧ p.currentLabelName ≠ [] ∧
      p.currentLabelName ≠ metricNameLabel ∧ validString p.currentLabelName = true ∧
      (ofMetric p.getType p.currentLabelName = true →
        ∀ label ∈ p.currentLabelPairs, label.name ≠ some p.currentLabelName)
  | .readingValue => p.InLine ∧ p.currentLabelPairs = [] ∧
      ∃ labels name family metricType position, p.Fresh labels name family metricType position
  | .startTimestamp => p.InLine ∧ p.currentLabelPairs = [] ∧ p.currentMetric.isSome
  | .readingHelp | .readingType => p.InLine ∧ p.currentLabelPairs = [] ∧ p.family.isSome

theorem Good.sound {p : TextParser} {state : StateFn} (good : p.Good state) : p.store.Sound := by
  cases state with
  | startOfLine => exact good.1
  | startLabelName => exact InLine.sound (InBraces.toInLine good)
  | startComment | readingMetricName | readingLabels | startLabelValue | readingValue
  | startTimestamp | readingHelp | readingType => exact good.1.sound

theorem not_panicCause {p : TextParser} {state : StateFn} (good : p.Good state) :
    ¬p.PanicCause state := by
  have isCurrent (fresh : ∃ labels name family metricType position,
      p.Fresh labels name family metricType position) :
      p.currentMetric ≠ none ∧ p.currentMF ≠ none := by
    rcases fresh with ⟨_, _, _, _, _, fresh⟩
    simp [fresh.currentMetric, fresh.currentMF]
  cases state with
  | startOfLine | startComment | readingMetricName | readingLabels => exact id
  | startLabelName => exact (isCurrent ⟨_, good.fresh⟩).1
  | startLabelValue =>
      rintro (missing | ⟨isOfLines, missing⟩)
      · exact (isCurrent ⟨_, good.1.fresh⟩).1 missing
      · simpa [missing] using good.1.collects isOfLines
  | readingValue =>
      rintro (missing | missing)
      · exact (isCurrent good.2.2).1 missing
      · exact (isCurrent good.2.2).2 missing
  | startTimestamp =>
      intro missing
      simpa [show p.currentMetric = none from missing] using good.2.2
  | readingHelp | readingType =>
      intro missing
      simpa [TextParser.family, show p.currentMF = none from missing] using good.2.2

theorem sound_of_creates {p : TextParser} {name : GoString}
    {families : AList fun _ : GoString => DtoFamily ℕ} (sound : p.store.Sound)
    (creates : p.Creates name families) :
    (store { p with metricFamiliesByName := families }).Sound := by
  cases creates with
  | found => exact sound
  | created name_ne_nil valid missing =>
      rw [store_insert]
      exact sound.setFamily ⟨name_ne_nil, valid⟩ (Or.inl rfl)

theorem good_of_startMetric {p started : TextParser} {name input : GoString} {current : UInt8}
    (inLine : p.InLine) (pairs : p.currentLabelPairs = [])
    (starts : p.startMetric name = .ok started) (reads : Reads p.input current input) :
    (started.readTo current input).Good .readingLabels := by
  rcases (p.meets_startMetric name).value starts with
    ⟨families, found, kind, family, creates, held, rfl⟩
  have sound := sound_of_creates inLine.sound creates
  have grown := (@Store.Sound.setFamily _ sound found
    { family with type := family.type.or (some .untyped) } (sound.named held)
    (Or.inr ⟨family, held, rfl, by cases family.type <;> simp⟩)).allocate
  rcases Option.isSome_iff_exists.mp (show (family.type.or (some .untyped)).isSome by
    cases family.type <;> rfl) with ⟨metricType, typed⟩
  refine ⟨⟨?_, inLine.plain.tail.reads reads, inLine.noBraces⟩, pairs, found, _, metricType, _,
    ⟨rfl, AList.lookup_insert _, typed, rfl, by simp [readTo]⟩⟩
  rw [← store_insert] at grown
  exact grown

theorem good_of_closeLabels {p q : TextParser} {after : StateFn} (inBraces : p.InBraces)
    (closes : p.closeLabels = .ok (some after, q)) : q.Good after := by
  rcases p.meets_closeLabels.value closes with ⟨position, current, input, isCurrent, reads, result⟩
  cases result
  rcases inBraces.fresh with ⟨name, family, metricType, other, fresh⟩
  have same : position = other := Option.some.inj (isCurrent.symm.trans fresh.currentMetric)
  subst same
  refine ⟨⟨?_, inBraces.plain.tail.reads reads, inBraces.noBraces⟩, rfl,
    p.currentLabelPairs, name, family, metricType, position,
    ⟨fresh.currentMF, fresh.held, fresh.typed, isCurrent, ?_⟩⟩
  · refine @Store.Sound.modify _ inBraces.sound position _ ?_ ?_
    · exact fun kind holds => absurd holds (Store.not_holds_of_label fresh.here kind)
    · intro metric here _
      cases fresh.here.symm.trans here
      exact inBraces.labelled
  · simp [attachLabels, readTo, fresh.here]

theorem inBraces_of_setLabel [Strconv] {p labelled : TextParser} {value input : GoString}
    {current : UInt8} (good : p.Good .startLabelValue) (valid : validString value = true)
    (sets : p.setLabel value = .ok labelled) (reads : Reads p.input current input) :
    (labelled.readTo current input).InBraces := by
  rcases good with ⟨inBraces, name_ne_nil, notReserved, validName, notDuplicate⟩
  rcases (p.meets_setLabel value).value sets with
    ⟨pairs, labels, quantile, bucket, isPairs, rfl⟩
  rcases inBraces.fresh with ⟨name, family, metricType, position, fresh⟩
  refine ⟨⟨inBraces.sound, inBraces.plain.tail.reads reads, inBraces.noBraces⟩,
    ⟨name, family, metricType, position, ⟨fresh.currentMF, fresh.held, fresh.typed,
      fresh.currentMetric, fresh.here⟩⟩, ?_, fun isOfLines => ?_⟩
  · rcases isPairs with ⟨rfl, _⟩ | ⟨isOfMetric, rfl, _⟩
    · exact inBraces.labelled
    · exact inBraces.labelled.push name_ne_nil notReserved validName valid
        (notDuplicate isOfMetric)
  · have collects : p.currentLabels.isSome := inBraces.collects isOfLines
    rcases isPairs with ⟨_, rfl⟩ | ⟨_, _, isLabels⟩
    · exact collects
    · change labels.isSome = true
      rwa [isLabels isOfLines, Option.isSome_map]

/-- A change that sets the value pointer of a kind keeps the metrics that have exactly this one. -/
theorem isOf_of_setsValue {kind : Kind} {change : DtoMetric → DtoMetric}
    (sets : SetsValue kind change) {metric : DtoMetric}
    (isOf : metric.IsOf kind ∨ ∃ labels, metric = { label := labels }) :
    (change metric).IsOf kind := by
  intro other
  rw [sets.carries]
  rcases isOf with isOf | ⟨labels, rfl⟩
  · rw [isOf, Bool.or_self]
  · cases other <;> simp [DtoMetric.carries]

theorem kind_of_ofHistogram {metricType : MetricType}
    (isHistogram : ofHistogram metricType = true) :
    metricType.kind = .histogram := by
  cases metricType <;> first | rfl | cases isHistogram

theorem sound_of_value [Strconv] {p placed q : TextParser} {value : Float64} {current : UInt8}
    {input : GoString} (good : p.Good .readingValue) (places : p.Places placed)
    (returns : (placed.readTo current input).setValue value = .ok q) :
    q.store.Sound ∧ q.currentLabelPairs = [] ∧ q.currentMetric.isSome ∧
      q.currentMetricIsInsideBraces = false ∧ q.currentByte = current ∧ q.input = input := by
  rcases good with ⟨inLine, pairs, labels, name, family, metricType, position, fresh⟩
  rcases (meets_setValue _ value).value returns with ⟨target, change, isTarget, sets, rfl⟩
  clear returns
  have isType := fresh.getType
  have isFamily : p.family = some family := by
    rw [TextParser.family, fresh.currentMF, Option.bind_some, fresh.held]
  -- the metric was found by its signature, and has a value of this kind
  have again (sets : SetsValue metricType.kind change)
      (holds : p.store.Holds target metricType.kind) : (p.store.modify target change).Sound := by
    refine inLine.sound.modify ?_ fun metric _ labelled => (sets.label metric).symm ▸ labelled
    intro other holdsOther metric isOf
    cases Store.holds_unique holds holdsOther
    exact isOf_of_setsValue sets (Or.inl isOf)
  -- the metric is new, and has labels only
  have listed (sets : SetsValue metricType.kind change) :
      ((p.store.modify position change).setFamily name
        { family with metric := family.metric ++ [position] }).Sound ∧
        (p.store.modify position change).Holds position metricType.kind := by
    have holds : (p.store.modify position change).Holds position metricType.kind := by
      refine ⟨change { label := labels }, ?_, isOf_of_setsValue sets (Or.inr ⟨labels, rfl⟩)⟩
      simp [Store.modify, store, fresh.here]
    refine ⟨Store.Sound.list ?_ fresh.held fresh.typed holds, holds⟩
    refine inLine.sound.modify ?_ fun metric _ labelled => (sets.label metric).symm ▸ labelled
    exact fun kind holds => absurd holds (Store.not_holds_of_label fresh.here kind)
  cases places with
  | @summary signature found isSummary lookup =>
      cases isTarget
      have isKind : metricType.kind = .summary := by rw [← isType, isSummary]; rfl
      replace sets : SetsValue metricType.kind change := isType ▸ sets
      exact ⟨again sets (isKind ▸ inLine.sound.summaries lookup), pairs, rfl, inLine.noBraces,
        rfl, rfl⟩
  | @histogram signature found isHistogram lookup =>
      cases isTarget
      have isKind : metricType.kind = .histogram := kind_of_ofHistogram (isType ▸ isHistogram)
      replace sets : SetsValue metricType.kind change := isType ▸ sets
      exact ⟨again sets (isKind ▸ inLine.sound.histograms lookup), pairs, rfl, inLine.noBraces,
        rfl, rfl⟩
  | @new summaries histograms found other files here isCurrentMF =>
      have sameName : other = name := Option.some.inj (isCurrentMF.symm.trans fresh.currentMF)
      have samePosition : found = position := Option.some.inj (here.symm.trans fresh.currentMetric)
      have sameTarget : target = position :=
        Option.some.inj (isTarget.symm.trans fresh.currentMetric)
      subst sameName samePosition sameTarget
      rw [isFamily, Option.getD_some] at sets ⊢
      replace sets : SetsValue metricType.kind change := by
        simpa [TextParser.getType, TextParser.family, readTo, isCurrentMF, fresh.typed] using sets
      rcases listed sets with ⟨sound, holds⟩
      refine ⟨?_, pairs, Option.isSome_of_eq_some here, inLine.noBraces, rfl, rfl⟩
      cases files with
      | summary isSummary =>
          have isKind : metricType.kind = .summary := by rw [← isType, isSummary]; rfl
          have filed := sound.fileSummary (isKind ▸ holds) p.sign
          unfold store Store.fileSummary Store.setFamily Store.modify at *
          simpa only [lookup_insert_eq, readTo] using filed
      | histogram isHistogram =>
          have isKind : metricType.kind = .histogram :=
            kind_of_ofHistogram (isType ▸ isHistogram)
          have filed := sound.fileHistogram (isKind ▸ holds) p.sign
          unfold store Store.fileHistogram Store.setFamily Store.modify at *
          simpa only [lookup_insert_eq, readTo] using filed
      | single notOfLines =>
          unfold store Store.setFamily Store.modify at *
          simpa only [lookup_insert_eq, readTo] using sound

theorem InBraces.readTo {p : TextParser} {current : UInt8} {input : GoString}
    (inBraces : p.InBraces) (reads : Reads p.input current input) :
    (p.readTo current input).InBraces := by
  rcases inBraces.fresh with ⟨name, family, metricType, position, fresh⟩
  exact ⟨⟨inBraces.sound, inBraces.plain.tail.reads reads, inBraces.noBraces⟩,
    ⟨name, family, metricType, position, ⟨fresh.currentMF, fresh.held, fresh.typed,
      fresh.currentMetric, fresh.here⟩⟩, inBraces.labelled, inBraces.collects⟩

theorem good_of_labels {p : TextParser} (good : p.Good .readingLabels) :
    p.resetLabels.Good
      (if p.currentByte == openBrace then .startLabelName else .readingValue) := by
  rcases good with ⟨inLine, pairs, name, family, metricType, position, fresh⟩
  have labelled : WellLabelled p.currentLabelPairs := pairs ▸ wellLabelled_nil
  unfold resetLabels
  split
  case isTrue =>
      have stillFresh : Fresh { p with
          currentLabels := some (AList.singleton metricNameLabel (p.currentMF.getD []))
          currentQuantile := .nan
          currentBucket := .nan } [] name family metricType position :=
        ⟨fresh.currentMF, fresh.held, fresh.typed, fresh.currentMetric, fresh.here⟩
      split
      · exact ⟨⟨inLine.sound, inLine.plain, inLine.noBraces⟩, ⟨_, _, _, _, stillFresh⟩, labelled,
          fun _ => rfl⟩
      · exact ⟨⟨inLine.sound, inLine.plain, inLine.noBraces⟩, pairs, _, _, _, _, _, stillFresh⟩
  case isFalse notOfLines =>
      split
      · exact ⟨inLine, ⟨_, _, _, _, fresh⟩, labelled, fun isOfLines => absurd isOfLines notOfLines⟩
      · exact ⟨inLine, pairs, _, _, _, _, _, fresh⟩

theorem sound_of_updateMF {p described : TextParser} {change : DtoFamily ℕ → DtoFamily ℕ}
    (sound : p.store.Sound) {family : DtoFamily ℕ} (isFamily : p.family = some family)
    (sameMetrics : (change family).metric = family.metric)
    (sameType : family.type = none ∨ (change family).type = family.type)
    (sets : p.updateMF change = .ok described) :
    described.store.Sound ∧ described.currentLabelPairs = p.currentLabelPairs := by
  rcases (p.meets_updateMF change).value sets with ⟨name, isCurrentMF, rfl⟩
  have held : p.store.families name = some family := by
    rw [TextParser.family, isCurrentMF, Option.bind_some] at isFamily
    exact isFamily
  rw [store_insert, isFamily, Option.getD_some]
  exact ⟨sound.setFamily (sound.named held) (Or.inr ⟨family, held, sameMetrics, sameType⟩), rfl⟩

theorem carries_timestampMs (metric : DtoMetric) (timestampMs : Option ℤ) (other : Kind) :
    DtoMetric.carries { metric with timestampMs } other = metric.carries other := by
  cases other <;> rfl

theorem good_of_move [Strconv] {p q : TextParser} {state after : StateFn} (good : p.Good state)
    (move : p.Move state after q) : q.Good after := by
  cases move with
  | emptyLine skips => exact ⟨good.1, good.2.1, (plain_of_skips good.2.2 skips).2.nextLine⟩
  | bracedLine skips => exact absurd rfl (plain_of_skips good.2.2 skips).1
  | commentLine skips => exact ⟨⟨good.1, (plain_of_skips good.2.2 skips).2, rfl⟩, good.2.1⟩
  | sampleLine skips => exact ⟨⟨good.1, (plain_of_skips good.2.2 skips).2, rfl⟩, good.2.1⟩
  | comment reads => exact ⟨good.1.sound, good.2, (good.1.plain.tail.reads reads).nextLine⟩
  | emptyDescription finds reads =>
      rcases (p.meets_setOrCreateCurrentMF _).value finds with ⟨_, _, _, creates, _, rfl⟩
      have sound := sound_of_creates good.1.sound creates
      exact ⟨sound, good.2, (good.1.plain.tail.reads reads).nextLine⟩
  | description finds reads keyword =>
      rcases (p.meets_setOrCreateCurrentMF _).value finds with ⟨_, _, _, creates, held, rfl⟩
      have sound := sound_of_creates good.1.sound creates
      have plain := good.1.plain.tail.reads reads
      rcases keyword with rfl | rfl
      · exact ⟨⟨sound, plain, good.1.noBraces⟩, good.2, held⟩
      · exact ⟨⟨sound, plain, good.1.noBraces⟩, good.2, held⟩
  | metricName starts reads => exact good_of_startMetric good.1 good.2 starts reads
  | labels => exact good_of_labels good
  | noMoreLabels reads closes => exact good_of_closeLabels (good.readTo reads) closes
  | nameInBraces reads isName =>
      rcases (meets_nameInBraces _ _).value isName with ⟨_, _, inside, _⟩
      exact absurd (good.noBraces.symm.trans inside) (by decide)
  | labelName reads name_ne_nil notReserved valid notDuplicate =>
      have inBraces := InBraces.readTo good reads
      rcases inBraces.fresh with ⟨name, family, metricType, position, fresh⟩
      exact ⟨⟨⟨inBraces.sound, inBraces.plain, inBraces.noBraces⟩,
        ⟨name, family, metricType, position, ⟨fresh.currentMF, fresh.held, fresh.typed,
          fresh.currentMetric, fresh.here⟩⟩, inBraces.labelled, inBraces.collects⟩,
        name_ne_nil, notReserved, valid, notDuplicate⟩
  | labelValue valid sets reads => exact inBraces_of_setLabel good valid sets reads
  | lastLabelValue valid sets reads closes =>
      exact good_of_closeLabels (inBraces_of_setLabel good valid sets reads) closes
  | value places reads sets continues =>
      have plain := good.1.plain.reads reads
      rcases sound_of_value good (p.meets_placeMetric.value places) sets with
        ⟨sound, pairs, isCurrent, noBraces, sameByte, sameInput⟩
      rcases continues with ⟨rfl, rfl⟩ | rfl
      · exact ⟨sound, pairs, sameInput ▸ plain.nextLine⟩
      · refine ⟨⟨sound, ?_, noBraces⟩, pairs, isCurrent⟩
        rw [sameByte, sameInput]
        exact plain
  | timestamp _ sets reads =>
      rcases (p.meets_updateMetric _).value sets with ⟨position, _, rfl⟩
      refine ⟨@Store.Sound.modify _ good.1.sound position _ ?_ fun _ _ => id, good.2.1,
        (good.1.plain.tail.reads reads).nextLine⟩
      exact fun _ _ metric isOf other => (carries_timestampMs metric _ other).trans (isOf other)
  | help sets reads =>
      rcases Option.isSome_iff_exists.mp good.2.2 with ⟨family, isFamily⟩
      rcases sound_of_updateMF good.1.sound isFamily rfl (Or.inr rfl) sets with ⟨sound, pairs⟩
      exact ⟨sound, pairs.trans good.2.1, (good.1.plain.reads reads).nextLine⟩
  | type missing sets reads =>
      rcases Option.isSome_iff_exists.mp good.2.2 with ⟨family, isFamily⟩
      rw [isFamily, Option.bind_some] at missing
      rcases sound_of_updateMF good.1.sound isFamily rfl (Or.inl missing) sets with ⟨sound, pairs⟩
      exact ⟨sound, pairs.trans good.2.1, (good.1.plain.reads reads).nextLine⟩

/-! ## The result -/

theorem lookup_foldl_erase {families : AList fun _ : GoString => DtoFamily ℕ}
    (entries : List (Sigma fun _ : GoString => DtoFamily ℕ)) {name : GoString}
    {family : DtoFamily ℕ}
    (lookup : (entries.foldl (fun families entry =>
      if entry.2.metric = [] then families.erase entry.1 else families) families).lookup name =
        some family) : families.lookup name = some family ∧
      ∀ entry ∈ entries, entry.1 = name → entry.2.metric ≠ [] := by
  induction entries generalizing families with
  | nil => exact ⟨lookup, nofun⟩
  | cons entry entries inductionHypothesis =>
      rw [List.foldl_cons] at lookup
      rcases inductionHypothesis lookup with ⟨held, nonempty⟩
      split_ifs at held with isEmpty
      · have other : name ≠ entry.1 := by
          rintro rfl
          rw [AList.lookup_erase] at held
          cases held
        rw [AList.lookup_erase_ne other] at held
        refine ⟨held, List.forall_mem_cons.mpr ⟨fun same => absurd same.symm other, nonempty⟩⟩
      · exact ⟨held, List.forall_mem_cons.mpr ⟨fun _ => isEmpty, nonempty⟩⟩

theorem lookup_nonEmptyFamilies {p : TextParser} {name : GoString} {family : DtoFamily ℕ}
    (lookup : p.nonEmptyFamilies.lookup name = some family) :
    p.metricFamiliesByName.lookup name = some family ∧ family.metric ≠ [] := by
  rcases lookup_foldl_erase _ lookup with ⟨held, nonempty⟩
  exact ⟨held, nonempty ⟨name, family⟩ (AList.mem_lookup_iff.mp held) rfl⟩

section

variable [Strconv]

theorem carries_normalizeMetric (metric : DtoMetric) (other : Kind) :
    (normalizeMetric metric).carries other = metric.carries other := by
  cases other <;> simp [normalizeMetric, DtoMetric.carries]

/-- The store once some of the histograms are normalized. -/
theorem sound_foldl_modify {store : Store} (sound : store.Sound)
    (entries : List (Sigma fun _ : UInt64 => ℕ)) :
    Store.Sound { store with
      metrics := entries.foldl (fun metrics entry => metrics.modify entry.2 normalizeMetric)
        store.metrics } := by
  induction entries generalizing store with
  | nil => exact sound
  | cons entry entries inductionHypothesis =>
      refine @inductionHypothesis (store.modify entry.2 normalizeMetric)
        (sound.modify ?_ fun _ _ => id)
      exact fun _ _ metric isOf other => (carries_normalizeMetric metric other).trans (isOf other)

end

theorem exists_value_of_isOf {metric : DtoMetric} {kind : Kind} (isOf : metric.IsOf kind) :
    ∃ value, metric.value = some value ∧ value.kind = kind := by
  rcases metric with ⟨label, counter, gauge, untyped, summary, histogram, timestampMs⟩
  have isCounter : counter.isSome = _ := isOf .counter
  have isGauge : gauge.isSome = _ := isOf .gauge
  have isUntyped : untyped.isSome = _ := isOf .untyped
  have isSummary : summary.isSome = _ := isOf .summary
  have isHistogram : histogram.isSome = _ := isOf .histogram
  cases kind <;> cases counter <;> simp only [Option.isSome, reduceCtorEq, decide_false,
    decide_true, Bool.false_eq_true] at isCounter <;>
    cases gauge <;> simp only [Option.isSome, reduceCtorEq, decide_false,
      decide_true, Bool.false_eq_true] at isGauge <;>
    cases untyped <;> simp only [Option.isSome, reduceCtorEq, decide_false,
      decide_true, Bool.false_eq_true] at isUntyped <;>
    cases summary <;> simp only [Option.isSome, reduceCtorEq, decide_false,
      decide_true, Bool.false_eq_true] at isSummary <;>
    cases histogram <;> simp only [Option.isSome, reduceCtorEq, decide_false,
      decide_true, Bool.false_eq_true] at isHistogram <;>
    exact ⟨_, rfl, rfl⟩

end TextParser

/-- A family as the rest of the program takes it to be. -/
structure DtoFamily.WellFormed (family : DtoFamily DtoMetric) (name : GoString) : Prop where
  valid : validString name = true
  typed : family.type.isSome
  labelled : ∀ metric ∈ family.metric, WellLabelled metric.label
  parsed : ∃ metricFamily, family.toMetricFamily name = some metricFamily ∧
    metricFamily.Parsed name

namespace TextParser

theorem exists_toMetric {kind : Kind} {metrics : List DtoMetric}
    (isOf : ∀ metric ∈ metrics, metric.IsOf kind) :
    ∃ converted, metrics.mapM DtoMetric.toMetric = some converted ∧
      converted.length = metrics.length ∧ ∀ metric ∈ converted, metric.value.kind = kind := by
  induction metrics with
  | nil => exact ⟨[], rfl, rfl, nofun⟩
  | cons metric metrics inductionHypothesis =>
      rw [List.forall_mem_cons] at isOf
      rcases exists_value_of_isOf isOf.1 with ⟨value, isValue, isKind⟩
      rcases inductionHypothesis isOf.2 with ⟨converted, converts, sameLength, kinds⟩
      refine ⟨{ label := metric.label, value, timestampMs := metric.timestampMs } :: converted,
        ?_, ?_, ?_⟩
      · simp [List.mapM_cons, DtoMetric.toMetric, isValue, converts]
      · simp [sameLength]
      · exact List.forall_mem_cons.mpr ⟨isKind, kinds⟩

theorem wellFormed_of_sound [Strconv] {p : TextParser} (sound : p.store.Sound) {name : GoString}
    {family : DtoFamily DtoMetric} (lookup : p.families.lookup name = some family) :
    family.WellFormed name := by
  rw [families, lookup_mapValues, Option.map_eq_some_iff] at lookup
  rcases lookup with ⟨listed, lookup, rfl⟩
  rcases lookup_nonEmptyFamilies lookup with ⟨held, nonempty⟩
  have normal : Store.Sound { p.store with metrics := p.normalized } :=
    sound_foldl_modify sound p.histograms.entries
  rcases List.exists_mem_of_ne_nil _ nonempty with ⟨first, firstMem⟩
  rcases normal.listed held first firstMem with ⟨metricType, typed, _⟩
  have isOf : ∀ metric ∈ listed.metric.filterMap (p.normalized[·]?),
      metric.IsOf metricType.kind := by
    intro metric metricMem
    rcases List.mem_filterMap.mp metricMem with ⟨position, positionMem, here⟩
    rcases normal.listed held position positionMem with ⟨other, sameType, stored, same, isOf⟩
    cases typed.symm.trans sameType
    cases here.symm.trans same
    exact isOf
  rcases exists_toMetric isOf with ⟨converted, converts, sameLength, kinds⟩
  refine ⟨(sound.named held).2, Option.isSome_of_eq_some typed, ?_,
    ⟨{ name := some name, help := listed.help, type := listed.type, metric := converted }, ?_, ?_⟩⟩
  · intro metric metricMem
    rcases List.mem_filterMap.mp metricMem with ⟨position, _, here⟩
    exact normal.labelled metric (List.mem_of_getElem? here)
  · rw [DtoFamily.toMetricFamily, converts]
    rfl
  · refine ⟨(sound.named held).1, rfl, ?_, ?_⟩
    · rcases normal.listed held first firstMem with ⟨_, _, stored, here, _⟩
      have storedMem : stored ∈ listed.metric.filterMap (p.normalized[·]?) :=
        List.mem_filterMap.mpr ⟨first, firstMem, here⟩
      apply List.ne_nil_of_length_pos
      rw [sameLength]
      exact List.length_pos_of_mem storedMem
    · intro metric metricMem
      rw [kinds metric metricMem]
      unfold MetricFamily.getType
      rw [typed]
      rfl

end TextParser

/-- The parser comes to an end on every input. If no line starts with a brace, it does not panic,
and the families that it returns are well formed. -/
theorem textToMetricFamilies_wellFormed [Strconv] (input : GoString) :
    ∃ outcome, textToMetricFamilies input = some outcome ∧
      (bracesStartLine true input = false → outcome ≠ .error .panic ∧
        ∀ families, outcome = .ok families →
          ∀ name family, families.lookup name = some family → family.WellFormed name) := by
  rcases Option.isSome_iff_exists.mp (TextParser.isSome_textToMetricFamilies input) with
    ⟨outcome, returns⟩
  refine ⟨outcome, returns, fun plain => ?_⟩
  rw [textToMetricFamilies, Option.map_eq_some_iff] at returns
  rcases returns with ⟨stopped, ran, rfl⟩
  have starts : ({ input } : TextParser).Good .startOfLine :=
    ⟨TextParser.sound_initial input, rfl, plain⟩
  let Good (state : StateFn × TextParser) : Prop := state.2.Good state.1
  have kept : ∀ state after, Good state → Machine.Moves TextParser.next state after → Good after :=
    fun _ _ good moves => TextParser.good_of_move good (TextParser.move_of_moves _ moves)
  rcases Machine.run_invariant kept ran starts with ⟨⟨state, p⟩, good, stops⟩
  cases stopped with
  | error failure =>
      refine ⟨?_, ?_⟩
      · rintro ⟨⟩
        exact TextParser.not_panicCause good (p.cause_of_panic stops)
      · rintro _ ⟨⟩
  | ok q =>
      refine ⟨?_, ?_⟩
      · rintro ⟨⟩
      · rintro _ ⟨⟩ name family lookup
        rw [p.eq_of_halts stops] at lookup
        exact TextParser.wellFormed_of_sound (p := p.newLine false) good.sound lookup

/-- What a target exposes: two summaries, of which one has a quantile, a histogram with a bucket
besides the one that counts everything, and two gauges, of which one has a time. -/
def shopText : GoString :=
  text "# HELP rpc calls\n# TYPE rpc summary\nrpc\x7bjob=\"a\",quantile=\"1\"\x7d 0\n" ++
    text "rpc_sum\x7bjob=\"a\"\x7d 1\nrpc_count\x7bjob=\"a\"\x7d 1\n" ++
    text "rpc_sum\x7bjob=\"b\"\x7d 0\nrpc_count\x7bjob=\"b\"\x7d 0\n" ++
    text "# TYPE lat histogram\nlat_bucket\x7bjob=\"a\",le=\"1\"\x7d 0\n" ++
    text "lat_bucket\x7bjob=\"a\",le=\"+Inf\"\x7d 1\nlat_sum\x7bjob=\"a\"\x7d 1\n" ++
    text "lat_count\x7bjob=\"a\"\x7d 1\n# TYPE up gauge\n" ++
    text "up\x7bjob=\"a\"\x7d 1 12\nup\x7bjob=\"b\"\x7d 0\n"

/-- What is read of it. -/
def shopRead : AList fun _ : GoString => DtoFamily DtoMetric :=
  ((@textToMetricFamilies Strconv.sample shopText).bind Except.toOption).getD ∅

theorem textToMetricFamilies_shopText :
    @textToMetricFamilies Strconv.sample shopText = some (.ok shopRead) := by
  have accepted : (@textToMetricFamilies Strconv.sample shopText).any
      (fun outcome => outcome.toOption.isSome) = true := by decide +kernel
  rcases (Option.any_eq_true _ _).mp accepted with ⟨outcome, returns, isOk⟩
  cases outcome with
  | error failure => cases isOk
  | ok families =>
      rw [shopRead, returns]
      rfl

theorem textToMetricFamilies_wellFormed_shop :
    @textToMetricFamilies Strconv.sample shopText = some (.ok shopRead) ∧
      shopRead.keys = [text "up", text "lat", text "rpc"] ∧
        ∀ name family, shopRead.lookup name = some family → family.WellFormed name := by
  refine ⟨textToMetricFamilies_shopText, by decide +kernel, ?_⟩
  rcases @textToMetricFamilies_wellFormed Strconv.sample shopText with
    ⟨outcome, returns, wellFormed⟩
  rcases wellFormed (by decide +kernel) with ⟨_, wellFormed⟩
  rw [textToMetricFamilies_shopText, Option.some.injEq] at returns
  exact wellFormed shopRead returns.symm

/-- A description and a line without a metric name. -/
example [Strconv] : textToMetricFamilies (text "# HELP up x\n{} 1\n") = some (.error .panic) :=
  rfl

end Expfmt

end Promfetcher
