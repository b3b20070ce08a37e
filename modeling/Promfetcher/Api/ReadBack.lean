import Promfetcher.Expfmt.Again
import Promfetcher.Fetchers.Attribution
import Promfetcher.Fetchers.Labels

/-!
# The answer to a request, read back

Who scrapes `promfetcher` reads its answer with the parser with which it reads its
targets. The labels that are added and the families that are made for failed scrapes can
be written, and so can be what is merged of them. What is read of the answer are the
metrics of all targets.
-/

namespace Promfetcher

open Foundation Expfmt

/-! ## The labels of a route -/

theorem routeLabels_cases {route : Route} {label : LabelPair}
    (labelMem : label ∈ routeLabels route) : ∃ name value, label = ⟨some name, some value⟩ ∧
      name ∈ instanceLabels ∧ value ∈ scrapeErrorValues route := by
  unfold routeLabels appLabels at labelMem
  rw [List.mem_append] at labelMem
  rcases labelMem with ofApp | ofInstance
  · simp only [List.mem_cons, List.not_mem_nil, or_false] at ofApp
    rcases ofApp with rfl | rfl | rfl | rfl | rfl | rfl <;>
      exact ⟨_, _, rfl, by decide, by simp [scrapeErrorValues]⟩
  · split at ofInstance
    · simp only [List.mem_cons, List.not_mem_nil, or_false] at ofInstance
      rcases ofInstance with rfl | rfl | rfl <;>
        exact ⟨_, _, rfl, by decide, by simp [scrapeErrorValues]⟩
    · cases ofInstance

theorem instanceLabels_plain : ∀ name ∈ instanceLabels, name ≠ [] ∧ name ≠ metricNameLabel ∧
    validString name = true ∧ colon ∉ name ∧ name ≠ quantileLabel ∧ name ≠ bucketLabel := by
  decide

theorem wellLabelled_relabel {metric : Metric} (labelled : WellLabelled metric.label)
    {route : Route} (valid : ValidTexts (scrapeErrorValues route)) :
    WellLabelled (metric.relabel route).label := by
  refine ⟨nodup_names_relabel route labelled.nodup, ?_⟩
  intro label labelMem
  rcases List.mem_append.mp labelMem with ofTarget | ofRoute
  · exact labelled.valid label (List.mem_of_mem_filter ofTarget)
  · rcases routeLabels_cases ofRoute with ⟨name, value, rfl, nameMem, valueMem⟩
    rcases instanceLabels_plain name nameMem with ⟨name_ne_nil, notReserved, validName, _⟩
    exact ⟨name, value, rfl, name_ne_nil, notReserved, validName, valid value valueMem⟩

theorem Metric.Writable.relabel {metric : Metric} {metricType : MetricType}
    (writable : metric.Writable metricType) {route : Route}
    (valid : ValidTexts (scrapeErrorValues route)) :
    (metric.relabel route).Writable metricType := by
  refine ⟨wellLabelled_relabel writable.labelled valid, ?_, writable.timestamp, writable.count⟩
  intro label labelMem labelName isName
  rcases List.mem_append.mp labelMem with ofTarget | ofRoute
  · exact writable.readable label (List.mem_of_mem_filter ofTarget) labelName isName
  · rcases routeLabels_cases ofRoute with ⟨name, value, rfl, nameMem, _⟩
    cases isName
    rcases instanceLabels_plain _ nameMem with ⟨_, _, _, noColon, notQuantile, notBucket⟩
    refine ⟨fun _ => noColon, ?_⟩
    simp [ofMetric, notQuantile, notBucket]

theorem MetricFamily.Writable.relabel {family : MetricFamily} {name : GoString}
    (writable : family.Writable name) {route : Route}
    (valid : ValidTexts (scrapeErrorValues route)) : (family.relabel route).Writable name := by
  refine ⟨writable.parsed.relabel route, writable.valid, ?_⟩
  intro metric metricMem
  rcases List.mem_map.mp metricMem with ⟨original, originalMem, rfl⟩
  exact (writable.metrics original originalMem).relabel valid

/-! ## Failed scrapes -/

/-- Names with which a counter can be labelled, in the order in which they are written. -/
structure PlainNames (names : List GoString) : Prop where
  distinct : names.Nodup
  plain : ∀ name ∈ names, name ≠ [] ∧ name ≠ metricNameLabel ∧ validString name = true ∧
    colon ∉ name

/-- Labels with an invalid value are not written at all. -/
theorem writable_errorMetric {constLabels : List (GoString × GoString)}
    (plain : PlainNames (constLabels.map Prod.fst)) :
    (errorMetric constLabels).Writable .counter := by
  have named : ∀ label ∈ constLabels, _ := fun label labelMem =>
    plain.plain label.1 (List.mem_map.mpr ⟨label, labelMem, rfl⟩)
  have untimed : ∀ timestampMs, (errorMetric constLabels).timestampMs = some timestampMs →
      -2 ^ 63 ≤ timestampMs ∧ timestampMs < 2 ^ 63 := by
    rintro _ ⟨⟩
  by_cases valid : (constLabels.all fun label => validString label.2) = true
  · have labels : (errorMetric constLabels).label = _ := counterLabels_of_valid valid
    refine ⟨⟨?_, ?_⟩, ?_, untimed, trivial⟩
    · rw [labels, List.map_map]
      simpa [Function.comp_def, ptrString] using plain.distinct.map (Option.some_injective _)
    · intro label labelMem
      rw [labels, List.mem_map] at labelMem
      rcases labelMem with ⟨⟨name, value⟩, labelMem, rfl⟩
      rcases named _ labelMem with ⟨name_ne_nil, notReserved, validName, _⟩
      exact ⟨name, value, rfl, name_ne_nil, notReserved, validName,
        List.all_eq_true.mp valid _ labelMem⟩
    · intro label labelMem labelName isName
      rw [labels, List.mem_map] at labelMem
      rcases labelMem with ⟨⟨name, value⟩, labelMem, rfl⟩
      cases isName
      exact ⟨fun _ => (named _ labelMem).2.2.2, rfl⟩
  · have labels : (errorMetric constLabels).label = [] := counterLabels_of_invalid valid
    refine ⟨?_, ?_, untimed, trivial⟩
    · rw [labels]
      exact wellLabelled_nil
    · rw [labels]
      exact List.forall_mem_nil _

theorem writable_errorFamily {family help name : GoString}
    {constLabels : List (GoString × GoString)} {metricFamily : MetricFamily}
    (family_ne_nil : family ≠ []) (valid : validString family = true)
    (plain : PlainNames (constLabels.map Prod.fst))
    (lookup : (errorFamily family help constLabels).lookup name = some metricFamily) :
    metricFamily.Writable name := by
  refine ⟨parsed_errorFamily family_ne_nil lookup, ?_, ?_⟩
  all_goals rcases eq_of_lookup_singleton lookup with ⟨rfl, rfl⟩
  · exact valid
  · intro metric metricMem
    rw [List.mem_singleton.mp metricMem]
    exact writable_errorMetric plain

theorem plainNames_errorLabels : PlainNames
    [text "app_id", text "app_name", text "error", text "index", text "instance",
      text "instance_id", text "name", text "organization_id", text "organization_name",
      text "space_id", text "space_name"] :=
  ⟨by decide, by decide⟩

theorem PlainNames.sublist {names others : List GoString} (plain : PlainNames others)
    (sublist : names.Sublist others) : PlainNames names where
  distinct := plain.distinct.sublist sublist
  plain name nameMem := plain.plain name (sublist.subset nameMem)

theorem writable_scrapeError {route : Route} {err name : GoString} {family : MetricFamily}
    (lookup : (scrapeError route err).lookup name = some family) : family.Writable name := by
  refine writable_errorFamily (by decide) (by decide) ?_ lookup
  refine plainNames_errorLabels.sublist ?_
  exact List.isSublist_iff_sublist.mp (by rfl)

theorem writable_scrapeExternalExporterError {tags : Tags} {externalExporter : ExternalExporter}
    {err name : GoString} {family : MetricFamily}
    (lookup : (scrapeExternalExporterError tags externalExporter err).lookup name = some family) :
    family.Writable name := by
  refine writable_errorFamily (by decide) (by decide) ?_ lookup
  exact plainNames_errorLabels

/-! ## The merged map -/

/-- No family has the name of a line of another one, and no two summaries and no two histograms
have one signature. -/
structure Unmistakable (maps : List Families) : Prop where
  noSuffix : ∀ families ∈ maps, ∀ others ∈ maps, ∀ name family,
    families.lookup name = some family → ∀ suffix ∈ suffixes family.getType,
      name ++ suffix ∉ others
  summaries : (maps.flatMap fun families => signsOf (· == .summary) families.entries).Nodup
  histograms : (maps.flatMap fun families => signsOf ofHistogram families.entries).Nodup

instance (maps : List Families) : Decidable (Unmistakable maps) :=
  decidable_of_iff ((∀ families ∈ maps, ∀ others ∈ maps, ∀ entry ∈ families.entries,
      ∀ suffix ∈ suffixes entry.2.getType, entry.1 ++ suffix ∉ others) ∧
      (maps.flatMap fun families => signsOf (· == .summary) families.entries).Nodup ∧
      (maps.flatMap fun families => signsOf ofHistogram families.entries).Nodup)
    ⟨fun ⟨noSuffix, summaries, histograms⟩ => ⟨fun families familiesMem others othersMem =>
        forall_entries_iff.mp (noSuffix families familiesMem others othersMem), summaries,
        histograms⟩,
      fun unmistakable => ⟨fun families familiesMem others othersMem =>
        forall_entries_iff.mpr (unmistakable.noSuffix families familiesMem others othersMem),
        unmistakable.summaries, unmistakable.histograms⟩⟩

/-- What is written of any family of the maps is accepted by the text parser. -/
def AllFamiliesWritable (maps : List Families) : Prop :=
  ∀ families ∈ maps, ∀ name family, families.lookup name = some family → family.Writable name

theorem getType_of_type {family other : MetricFamily} (sameType : family.type = other.type) :
    family.getType = other.getType := by
  unfold MetricFamily.getType
  rw [sameType]

/-- The types of one kind have the same lines and labels. -/
theorem eq_of_kind {metricType other : MetricType} (sameKind : metricType.kind = other.kind) :
    (metricType == .summary) = (other == .summary) ∧ ofHistogram metricType = ofHistogram other ∧
      ofMetric metricType = ofMetric other := by
  cases metricType <;> cases other <;> first | exact ⟨rfl, rfl, rfl⟩ | cases sameKind

theorem writable_merge {maps : List Families} (writable : AllFamiliesWritable maps)
    (agree : KindsAgree maps) {name : GoString} {merged : MetricFamily}
    (lookup : (merge maps).lookup name = some merged) : merged.Writable name := by
  have parsed : AllParsed maps := fun families familiesMem name family held =>
    (writable families familiesMem name family held).parsed
  rcases lookup_merge lookup with ⟨⟨families, familiesMem, family, held, _, typed⟩, metrics⟩
  refine ⟨parsed_merge parsed agree lookup, (writable _ familiesMem _ _ held).valid, ?_⟩
  intro metric metricMem
  rw [metrics, List.mem_flatMap] at metricMem
  rcases metricMem with ⟨others, othersMem, inOthers⟩
  rcases mem_metricsOf.mp inOthers with ⟨other, otherHeld, inOther⟩
  have sameType := getType_of_type typed
  have sameKind := agree others othersMem families familiesMem name other family otherHeld held
  rcases (writable others othersMem name other otherHeld).metrics metric inOther with
    ⟨labelled, readable, timestamp, count⟩
  rw [(eq_of_kind sameKind).2.2, ← sameType] at readable
  exact ⟨labelled, readable, timestamp, count⟩

/-- The help text and the type of a merged family are those of a family that has been merged. -/
theorem described_of_merge {maps : List Families} {name : GoString} {merged : MetricFamily}
    (lookup : (merge maps).lookup name = some merged) :
    ∃ families ∈ maps, ∃ family, families.lookup name = some family ∧
      merged.help = family.help ∧ merged.type = family.type := by
  have first : ((merge maps).lookup name).map (fun family => (family.help, family.type)) =
      (maps.filterMap (AList.lookup name)).head?.map fun family => (family.help, family.type) :=
    lookup_mergeAll_first MetricFamily.append _ (fun _ _ => rfl) maps name
  rw [lookup, Option.map_some, eq_comm, Option.map_eq_some_iff] at first
  rcases first with ⟨family, isFirst, parts⟩
  rw [Prod.mk.injEq] at parts
  rcases List.mem_filterMap.mp (List.mem_of_mem_head? isFirst) with ⟨families, familiesMem, held⟩
  exact ⟨families, familiesMem, family, held, parts.1.symm, parts.2.symm⟩

/-- The families of the merged map have the signatures of all maps. -/
theorem signsOf_merge {maps : List Families} (agree : KindsAgree maps)
    {isType : MetricType → Bool} (ofKind : ∀ metricType other : MetricType,
      metricType.kind = other.kind → isType metricType = isType other) :
    (signsOf isType (merge maps).entries).Perm
      (maps.flatMap fun families => signsOf isType families.entries) := by
  let visit (name : GoString) (family : MetricFamily) : List UInt64 :=
    if isType family.getType then signs name family.metric else []
  have whole : (signsOf isType (merge maps).entries).Perm _ :=
    perm_flatMap_entries (merge maps) (merge maps).keys_nodup (fun _ => id) visit
  have parts : (maps.flatMap fun families => signsOf isType families.entries).Perm
      (maps.flatMap fun families => (merge maps).keys.flatMap fun name =>
        (families.lookup name).elim [] (visit name)) := by
    refine List.Perm.flatMap_left _ fun families familiesMem => ?_
    refine perm_flatMap_entries families (merge maps).keys_nodup (fun name nameMem => ?_) visit
    exact (mem_merge maps name).mpr ⟨families, familiesMem, nameMem⟩
  refine whole.trans (.trans (.of_eq ?_) (parts.trans (perm_flatMap_swap _ _ _)).symm)
  refine List.flatMap_congr fun name nameMem => ?_
  rcases Option.isSome_iff_exists.mp (AList.lookup_isSome.mpr nameMem) with ⟨merged, lookup⟩
  rcases lookup_merge lookup with ⟨⟨first, firstMem, family, held, _, typed⟩, metrics⟩
  have sameType := getType_of_type typed
  have each : ∀ families ∈ maps, (families.lookup name).elim [] (visit name) =
      if isType merged.getType then signs name (metricsOf name families) else [] := by
    intro families familiesMem
    unfold metricsOf itemsOf
    cases otherHeld : families.lookup name with
    | none => simp [signs]
    | some other =>
        have sameKind := agree families familiesMem first firstMem name other family otherHeld held
        simp only [Option.elim_some, visit, sameType, ofKind _ _ sameKind]
  rw [lookup, Option.elim_some, List.flatMap_congr each]
  unfold visit
  split
  · rw [metrics, signs, List.map_flatMap]
    rfl
  · rw [eq_comm, List.flatMap_eq_nil_iff]
    exact fun _ _ => rfl

/-- What is merged of families can be written and read back. -/
theorem allWritable_merge {maps : List Families} (writable : AllFamiliesWritable maps)
    (agree : KindsAgree maps) (unmistakable : Unmistakable maps)
    {order : List (Sigma fun _ : GoString => MetricFamily)}
    (visits : order.Perm (merge maps).entries) : AllWritable order := by
  have held {entry : Sigma fun _ : GoString => MetricFamily} (entryMem : entry ∈ order) :
      (merge maps).lookup entry.1 = some entry.2 :=
    AList.mem_lookup_iff.mpr (visits.mem_iff.mp entryMem)
  have signs (isType : MetricType → Bool) :
      (signsOf isType order).Perm (signsOf isType (merge maps).entries) :=
    visits.flatMap_right _
  refine ⟨?_, fun entry entryMem => writable_merge writable agree (held entryMem), ?_, ?_, ?_⟩
  · exact (List.perm_nodupKeys visits).mpr (merge maps).nodupKeys
  · intro entry entryMem suffix suffixMem inOrder
    rcases lookup_merge (held entryMem) with ⟨⟨families, familiesMem, family, here, _, typed⟩, _⟩
    have sameType := getType_of_type typed
    have inMerged : entry.1 ++ suffix ∈ merge maps :=
      ((visits.map Sigma.fst).mem_iff).mp inOrder
    rcases (mem_merge maps _).mp inMerged with ⟨others, othersMem, inOthers⟩
    rw [sameType] at suffixMem
    exact unmistakable.noSuffix families familiesMem others othersMem _ _ here suffix suffixMem
      inOthers
  · have merges := signsOf_merge agree fun _ _ sameKind => (eq_of_kind sameKind).1
    exact ((signs _).trans merges).nodup_iff.mpr unmistakable.summaries
  · have merges := signsOf_merge agree fun _ _ sameKind => (eq_of_kind sameKind).2.1
    exact ((signs _).trans merges).nodup_iff.mpr unmistakable.histograms

/-! ## The answer to a request -/

namespace Request

variable {request : Request}

section

variable [Strconv]

/-- Whatever is merged has been read of the answer of a target, and what identifies its route is
valid. -/
def Scraped (request : Request) : Prop :=
  ∀ job ∈ request.pool.jobs, ∀ metricsGroup, request.outcome job.id = .exposition metricsGroup →
    ValidTexts (scrapeErrorValues job.route) ∧
      ∃ body families, bracesStartLine true body = false ∧
        textToMetricFamilies body = some (.ok families) ∧ Represents metricsGroup families ∧
          ∀ name family, metricsGroup.lookup name = some family → family.Spelled

theorem allWritable_contributions (scraped : request.Scraped) :
    AllFamiliesWritable request.contributions := by
  intro families familiesMem name family lookup
  rcases List.mem_append.mp (request.contributions_perm.mem_iff.mpr familiesMem) with
    isFailed | isContribution
  · rw [setup_eq] at isFailed
    rcases request.mem_failed isFailed with ⟨tagRte, ee, err, rfl⟩
    exact writable_scrapeExternalExporterError lookup
  · rcases List.mem_map.mp isContribution with ⟨job, jobMem, rfl⟩
    rcases request.contribution_cases job with
      ⟨metricsGroup, outcome, _, contribution⟩ | ⟨err, _, _, contribution⟩
    · rcases scraped job jobMem metricsGroup outcome with
        ⟨valid, body, read, plain, returns, represents, spelled⟩
      rw [contribution, lookup_mapValues, Option.map_eq_some_iff] at lookup
      rcases lookup with ⟨original, held, rfl⟩
      exact (writable_of_read plain returns represents held (spelled name original held)).relabel
        valid
    · rw [contribution] at lookup
      exact writable_scrapeError lookup

/-- Who reads the answer finds the metrics of all targets, with the labels of their routes, and the
errors of those that have failed. -/
structure ReadBack (request : Request) (families : AList fun _ : GoString => DtoFamily DtoMetric) :
    Prop where
  names : ∀ name, name ∈ families ↔ ∃ contribution ∈ request.contributions, name ∈ contribution
  metrics : ∀ name family, families.lookup name = some family → family.metric.Perm
    ((request.contributions.flatMap (metricsOf name)).map Metric.reread)
  described : ∀ name family, families.lookup name = some family →
    ∃ contribution ∈ request.contributions, ∃ original, contribution.lookup name = some original ∧
      family.help = rereadHelp original.help ∧ family.type = some (rereadType original.getType)

/-- In every order of completion, the answer is read back as what the targets expose, if all
families of one name have values of one kind and no family is mistaken for another one. -/
theorem answer_readBack (scraped : request.Scraped) (agree : KindsAgree request.contributions)
    (unmistakable : Unmistakable request.contributions) {state : request.State}
    (reached : request.system.Reachable state) (waited : state.waited = true) {result : Families}
    (finished : state.shared.finish = .ok result)
    (order : List (Sigma fun _ : GoString => MetricFamily))
    (visits : order.Perm result.entries) :
    ∃ families, textToMetricFamilies (writeLines (Api.metrics order)) = some (.ok families) ∧
      request.ReadBack families := by
  rcases finish_of_waited reached waited finished with ⟨_, unmerged, perm, rfl⟩
  have writable : AllFamiliesWritable unmerged := fun families familiesMem =>
    allWritable_contributions scraped families (perm.mem_iff.mp familiesMem)
  have agreeHere : KindsAgree unmerged := fun families familiesMem others othersMem =>
    agree families (perm.mem_iff.mp familiesMem) others (perm.mem_iff.mp othersMem)
  have unmistakableHere : Unmistakable unmerged := by
    refine ⟨fun families familiesMem others othersMem => ?_, ?_, ?_⟩
    · exact unmistakable.noSuffix families (perm.mem_iff.mp familiesMem) others
        (perm.mem_iff.mp othersMem)
    · exact (perm.flatMap_right _).nodup_iff.mpr unmistakable.summaries
    · exact (perm.flatMap_right _).nodup_iff.mpr unmistakable.histograms
  have all := allWritable_merge writable agreeHere unmistakableHere visits
  rcases exists_hasRead all with ⟨p, returns, hasRead⟩
  have lookup (name : GoString) : p.families.lookup name =
      ((merge unmerged).lookup name).map MetricFamily.reread := by
    rw [TextParser.lookup_families_of_hasRead
      (fun entry entryMem => (all.writable entry entryMem).parsed) hasRead name,
      List.perm_dlookup name all.distinct visits]
    rfl
  refine ⟨p.families, returns, fun name => ?_, fun name family held => ?_,
    fun name family held => ?_⟩
  · rw [← AList.lookup_isSome, lookup, Option.isSome_map, AList.lookup_isSome, mem_merge]
    exact exists_congr fun families => and_congr_left' perm.mem_iff
  all_goals
    rw [lookup, Option.map_eq_some_iff] at held
    rcases held with ⟨merged, isMerged, rfl⟩
  · change (merged.metric.map Metric.reread).Perm _
    rw [(lookup_merge isMerged).2]
    exact (perm.flatMap_right _).map _
  · rcases described_of_merge isMerged with ⟨families, familiesMem, original, isFirst, help, typed⟩
    refine ⟨families, perm.mem_iff.mp familiesMem, original, isFirst, ?_, ?_⟩
    · rw [MetricFamily.reread, help]
    · rw [MetricFamily.reread, MetricFamily.getType, MetricFamily.getType, typed]

end

end Request

/-! ## Two instances of an app -/

/-- Two instances that expose the same summaries, histogram and gauges. -/
def shopRequest : Request :=
  rollingRequest (toFamilies shopRead) (toFamilies shopRead)

theorem contributions_shopRequest : shopRequest.contributions =
    [mapValues (MetricFamily.relabel (sampleInstance "0" "10.0.0.1:80")) (toFamilies shopRead),
      mapValues (MetricFamily.relabel (sampleInstance "1" "10.0.0.2:80")) (toFamilies shopRead)] :=
  contributions_rollingRequest _ _

theorem scraped_shopRequest : @Request.Scraped Strconv.sample shopRequest := by
  intro job jobMem metricsGroup outcome
  have isExposed : metricsGroup = toFamilies shopRead := by
    simp only [shopRequest, rollingRequest, Request.ofRoutes] at outcome
    split at outcome <;> exact (ScrapeResult.exposition.inj outcome).symm
  subst isExposed
  refine ⟨?_, shopText, shopRead, by decide +kernel, textToMetricFamilies_shopText,
    represents_toFamilies shopRead, spelled_shopRead⟩
  have jobs : shopRequest.pool.jobs =
      [⟨.app 0, sampleInstance "0" "10.0.0.1:80"⟩, ⟨.app 1, sampleInstance "1" "10.0.0.2:80"⟩] :=
    rfl
  rw [jobs] at jobMem
  simp only [List.mem_cons, List.not_mem_nil, or_false] at jobMem
  rcases jobMem with rfl | rfl <;>
    · unfold ValidTexts
      decide

theorem kindsAgree_shopRequest : KindsAgree shopRequest.contributions := by
  rw [contributions_shopRequest]
  decide +kernel

theorem unmistakable_shopRequest : Unmistakable shopRequest.contributions := by
  rw [contributions_shopRequest]
  decide +kernel

theorem answer_readBack_shop :
    ∃ state, shopRequest.system.Reachable state ∧ state.waited = true ∧
      ∃ result, state.shared.finish = .ok result ∧
        ∃ families, @textToMetricFamilies Strconv.sample
            (@writeLines Strconv.sample (Api.metrics result.entries)) = some (.ok families) ∧
          @Request.ReadBack Strconv.sample shopRequest families := by
  rcases shopRequest.exists_complete with ⟨state, reached, waited⟩
  rcases Request.finish_of_keeps reached waited (keeps_rollingRequest _ _) with ⟨result, finished⟩
  exact ⟨state, reached, waited, result, finished, @Request.answer_readBack _ Strconv.sample
    scraped_shopRequest kindsAgree_shopRequest unmistakable_shopRequest _ reached waited _ finished
    _ (.refl _)⟩

end Promfetcher
