import Promfetcher.Expfmt.RoundTrip

/-!
# What is read back exactly

The text format keeps every family whose numbers it can tell apart: zeros without a
sign, one kind of not a number, counts that are exact as floating point numbers and
histograms that have the bucket that counts everything.
-/

namespace Promfetcher

open Foundation

/-- A number that is written as no other number is. -/
structure Float64.Kept (number : Float64) : Prop where
  zero : number.isZero = true → number = .zero
  nan : number.isNaN = true → number = .nan

instance (number : Float64) : Decidable number.Kept :=
  decidable_of_iff ((number.isZero = true → number = .zero) ∧ (number.isNaN = true → number = .nan))
    ⟨fun ⟨zero, nan⟩ => ⟨zero, nan⟩, fun kept => ⟨kept.zero, kept.nan⟩⟩

/-- A count that is exact as a floating point number. -/
def keptCount (count : UInt64) : Prop :=
  count ≤ 9007199254740992

instance (count : UInt64) : Decidable (keptCount count) :=
  inferInstanceAs (Decidable (_ ≤ _))

/-- A value that the format keeps: no quantile or bound is missing, and a histogram has integer
counts and the bucket that counts everything. -/
def Value.Kept : Value → Prop
  | .counter value | .gauge value | .untyped value => value.Kept
  | .summary sampleCount sampleSum quantile => keptCount sampleCount ∧ sampleSum.Kept ∧
      ∀ q ∈ quantile, q.quantile.isNaN = false ∧ q.quantile.Kept ∧ q.value.Kept
  | .histogram sampleCount sampleCountFloat sampleSum bucket => keptCount sampleCount ∧
      sampleCountFloat = .zero ∧ sampleSum.Kept ∧ (∃ b ∈ bucket, b.upperBound = .infinity) ∧
      ∀ b ∈ bucket, b.upperBound.isNaN = false ∧ b.upperBound.Kept ∧
        keptCount b.cumulativeCount ∧ b.cumulativeCountFloat = .zero

instance (value : Value) : Decidable value.Kept :=
  match value with
  | .counter value | .gauge value | .untyped value => inferInstanceAs (Decidable value.Kept)
  | .summary _ _ _ => inferInstanceAs (Decidable (_ ∧ _))
  | .histogram _ _ _ _ => inferInstanceAs (Decidable (_ ∧ _))

/-- A family that the format keeps. -/
structure MetricFamily.Kept (family : MetricFamily) : Prop where
  help : ∀ help, family.help = some help → ∃ byte rest, help = byte :: rest ∧
    Expfmt.isBlankOrTab byte = false
  type : ∃ metricType, family.type = some metricType ∧ metricType ≠ .gaugeHistogram
  values : ∀ metric ∈ family.metric, metric.value.Kept

theorem exists_notBlank_iff (help : GoString) :
    (help.head?.any fun byte => !Expfmt.isBlankOrTab byte) = true ↔
      ∃ byte rest, help = byte :: rest ∧ Expfmt.isBlankOrTab byte = false := by
  cases help <;> simp

instance (family : MetricFamily) : Decidable family.Kept :=
  decidable_of_iff
    ((∀ help ∈ family.help, (help.head?.any fun byte => !Expfmt.isBlankOrTab byte) = true) ∧
      (family.type.any fun metricType => metricType != .gaugeHistogram) = true ∧
      ∀ metric ∈ family.metric, metric.value.Kept)
    ⟨fun ⟨help, type, values⟩ =>
        ⟨fun text isHelp => (exists_notBlank_iff text).mp (help text isHelp),
          by simpa [Option.any_eq_true] using type, values⟩,
      fun kept => ⟨fun text isHelp => (exists_notBlank_iff text).mpr (kept.help text isHelp),
        by simpa [Option.any_eq_true] using kept.type, kept.values⟩⟩

namespace Expfmt

theorem rereadHelp_of_kept {family : MetricFamily} (kept : family.Kept) :
    rereadHelp family.help = family.help := by
  cases isHelp : family.help with
  | none => rfl
  | some help =>
      rcases kept.help help isHelp with ⟨byte, rest, rfl, notBlank⟩
      have whole : (byte :: rest).dropWhile isBlankOrTab = byte :: rest := by
        rw [List.dropWhile_cons, notBlank, if_neg Bool.false_ne_true]
      rw [rereadHelp, Option.bind_some, whole, if_neg (List.cons_ne_nil _ _)]

theorem rereadFloat_of_kept {number : Float64} (kept : number.Kept) :
    rereadFloat number = number := by
  unfold rereadFloat
  split_ifs with isZero isNaN
  · exact (kept.zero isZero).symm
  · exact (kept.nan isNaN).symm
  · rfl

theorem reread_quantiles {quantile : List Quantile}
    (kept : ∀ q ∈ quantile, q.quantile.isNaN = false ∧ q.quantile.Kept ∧ q.value.Kept) :
    ((quantile.filter fun q => !q.quantile.isNaN).map fun q =>
      (⟨rereadFloat q.quantile, rereadFloat q.value⟩ : Quantile)) = quantile := by
  have every : quantile.filter (fun q => !q.quantile.isNaN) = quantile :=
    List.filter_eq_self.mpr fun q qMem => by rw [(kept q qMem).1]; rfl
  rw [every]
  refine (List.map_congr_left fun q qMem => ?_).trans (List.map_id quantile)
  rcases kept q qMem with ⟨_, keptQuantile, keptValue⟩
  rw [rereadFloat_of_kept keptQuantile, rereadFloat_of_kept keptValue]
  rfl

section

variable [Strconv]

theorem rereadFloat_float64 (count : UInt64) :
    rereadFloat (Strconv.float64 count) = Strconv.float64 count := by
  have finite := Strconv.isFinite_float64 count
  rw [Float64.isFinite, Bool.and_eq_true, Bool.and_eq_true, Bool.not_eq_true'] at finite
  refine rereadFloat_of_kept ⟨Strconv.float64_eq_zero, fun isNaN => ?_⟩
  rw [finite.1.1] at isNaN
  cases isNaN

theorem rereadCount_of_kept {count : UInt64} (kept : keptCount count) :
    rereadCount .zero count = (some count, none) := by
  have finite := Strconv.isFinite_float64 count
  rw [Float64.isFinite, Bool.and_eq_true, Bool.and_eq_true, Bool.not_eq_true'] at finite
  have same : (Strconv.float64 count).equals (Strconv.float64 count) = true := by
    simp [Float64.equals, finite.1.1]
  have isCount : countOr .zero count = .count count := if_pos (by decide)
  rw [rereadCount, isCount, numberValue, rereadFloat_float64, TextParser.readCount,
    Strconv.uint64_float64 count kept, if_pos same]
  rfl

/-- The buckets of a histogram with integer counts. -/
theorem reread_buckets {bucket : List Bucket}
    (kept : ∀ b ∈ bucket, b.upperBound.isNaN = false ∧ b.upperBound.Kept ∧
      keptCount b.cumulativeCount ∧ b.cumulativeCountFloat = .zero) :
    ((bucket.filter fun b => !b.upperBound.isNaN).map fun b =>
      (⟨(rereadCount b.cumulativeCountFloat b.cumulativeCount).1,
        (rereadCount b.cumulativeCountFloat b.cumulativeCount).2,
        rereadFloat b.upperBound⟩ : DtoBucket)) =
      bucket.map fun b => ⟨some b.cumulativeCount, none, b.upperBound⟩ := by
  have every : bucket.filter (fun b => !b.upperBound.isNaN) = bucket :=
    List.filter_eq_self.mpr fun b bucketMem => by rw [(kept b bucketMem).1]; rfl
  rw [every]
  refine List.map_congr_left fun b bucketMem => ?_
  rcases kept b bucketMem with ⟨_, keptBound, keptCount, noFloat⟩
  rw [noFloat, rereadCount_of_kept keptCount, rereadFloat_of_kept keptBound]

/-- The value of a metric is read back. -/
theorem toMetric_reread {metric : Metric} (kept : metric.value.Kept) :
    metric.reread.toMetric = some metric := by
  rcases metric with ⟨label, value, timestampMs⟩
  rw [Metric.reread]
  cases value with
  | counter value | gauge value | untyped value =>
      dsimp only
      rw [rereadFloat_of_kept kept]
      rfl
  | summary sampleCount sampleSum quantile =>
      rcases kept with ⟨keptCount, keptSum, keptQuantiles⟩
      dsimp only
      rw [rereadFloat_float64, Strconv.uint64_float64 _ keptCount, rereadFloat_of_kept keptSum,
        reread_quantiles keptQuantiles]
      rfl
  | histogram sampleCount sampleCountFloat sampleSum bucket =>
      rcases kept with ⟨keptCount, rfl, keptSum, ⟨last, lastMem, infinite⟩, keptBuckets⟩
      have written : writtenBuckets sampleCount .zero bucket = bucket := by
        have isLast : bucket.any (fun b => b.upperBound == Float64.infinity) = true :=
          List.any_eq_true.mpr ⟨last, lastMem, beq_iff_eq.mpr infinite⟩
        rw [writtenBuckets, if_pos isLast, List.append_nil]
      have buckets : bucket.map ((fun b : DtoBucket => (⟨b.cumulativeCount.getD 0,
          b.cumulativeCountFloat.getD .zero, b.upperBound⟩ : Bucket)) ∘
            fun b => ⟨some b.cumulativeCount, none, b.upperBound⟩) = bucket := by
        refine (List.map_congr_left fun b bucketMem => ?_).trans (List.map_id bucket)
        rcases b with ⟨count, countFloat, bound⟩
        cases (keptBuckets _ bucketMem).2.2.2
        rfl
      dsimp only
      rw [written, rereadCount_of_kept keptCount, reread_buckets keptBuckets,
        rereadFloat_of_kept keptSum, TextParser.normalizeHistogram, if_pos (by simp)]
      rw [DtoMetric.toMetric, DtoMetric.value]
      dsimp only
      rw [List.map_map, buckets]
      rfl

/-- A family is read back. -/
theorem toMetricFamily_reread {family : MetricFamily} {name : GoString}
    (named : family.name = some name) (kept : family.Kept) :
    family.reread.toMetricFamily name = some family := by
  rcases kept.type with ⟨metricType, isType, notGauge⟩
  have sameType : some (rereadType family.getType) = family.type := by
    rw [MetricFamily.getType, isType]
    cases metricType <;> first | rfl | exact absurd rfl notGauge
  have metrics : (family.metric.map Metric.reread).mapM DtoMetric.toMetric = some family.metric :=
    mapM_eq_some fun metric metricMem => toMetric_reread (kept.values metric metricMem)
  rw [DtoFamily.toMetricFamily, MetricFamily.reread]
  dsimp only
  rw [metrics, rereadHelp_of_kept kept, sameType, Option.map_some, ← named]

/-- Families of which the text format keeps everything are read back as they were. -/
theorem textToMetricFamilies_writeLines_of_kept
    (order : List (Sigma fun _ : GoString => MetricFamily)) (all : AllWritable order)
    (kept : ∀ entry ∈ order, entry.2.Kept) :
    ∃ families, textToMetricFamilies (writeLines (Api.metrics order)) = some (.ok families) ∧
      ∀ name, (families.lookup name).bind (DtoFamily.toMetricFamily name) =
        order.dlookup name := by
  rcases exists_hasRead all with ⟨p, returns, hasRead⟩
  have parsed : ∀ entry ∈ order, entry.2.Parsed entry.1 :=
    fun entry entryMem => (all.writable entry entryMem).parsed
  refine ⟨p.families, returns, fun name => ?_⟩
  rw [TextParser.lookup_families_of_hasRead parsed hasRead name]
  cases lookup : order.dlookup name with
  | none => rfl
  | some family =>
      have entryMem := List.of_mem_dlookup lookup
      exact toMetricFamily_reread (parsed _ entryMem).named (kept _ entryMem)

end

theorem kept_shopFamilies : ∀ entry ∈ shopFamilies, entry.2.Kept := by
  decide +kernel

theorem textToMetricFamilies_writeLines_of_kept_shop :
    ∃ families, @textToMetricFamilies Strconv.sample
        (@writeLines Strconv.sample (Api.metrics shopFamilies)) = some (.ok families) ∧
      ∀ name, (families.lookup name).bind (DtoFamily.toMetricFamily name) =
        shopFamilies.dlookup name :=
  @textToMetricFamilies_writeLines_of_kept Strconv.sample shopFamilies allWritable_shopFamilies
    kept_shopFamilies

end Expfmt

end Promfetcher
