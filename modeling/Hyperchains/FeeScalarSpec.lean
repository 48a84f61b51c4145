import Hyperchains.FeeScalar

/-! What the scalar estimator stores over a run, and what the fuzzer does to an
estimate, in `f64`. `notify_block` replaces a fee rate below 1 or not finite by
1, so every rate is finite and at least 1: the comparisons of the sort never
fail, and a block's three percentiles are rates of the block in order. With the
decay rate of `open`, one half, halving a rate is exact, so an update stores the
mean of the old rate and the block's, rounded once, and neither saturation
changes it. Rounding is monotone and leaves rates alone, so the stored estimate
stays in order and between the least and the greatest rate seen. Each update
adds at most `2 ^ -53` of the greatest rate to its distance from the exact
exponential average and halves the distance before, so that distance stays
within `2 ^ -52` of the greatest rate. The fuzzer multiplies an estimate by
`1 + u`, rounded, which keeps an estimate of rates in order and positive. -/

namespace Hyperchains.FeeScalar
open Hyperchains.FeeMedians

variable {Cost : Type}

/-- `notify_block` with each block's receipts and limit in turn. -/
def FeeEstimator.notifyBlocks {σ α : Type} (estimator : FeeEstimator σ α Cost) (state : σ) :
    List (List (StacksTransactionReceipt Cost) × Cost) → Except String σ
  | [] => .ok state
  | (txReceipts, blockLimit) :: blocks => do
      let state ← estimator.notifyBlock state txReceipts blockLimit
      estimator.notifyBlocks state blocks

/-! ## Rates -/

/-- An `f64` fee rate: finite and at least 1. -/
structure IsRate (rate : F64) : Prop where
  finite : rate.isFinite
  atLeastOne : 1 ≤ rate.toRat

theorem isRate_one : IsRate Fp.one := by
  rw [F64.one_eq_finite]
  exact ⟨rfl, le_rfl⟩

theorem one_le_iff {rate : F64} (finite : rate.isFinite) : Fp.one ≤ rate ↔ 1 ≤ rate.toRat := by
  rw [Fp.le_iff_toRat isRate_one.finite finite, F64.one_eq_finite, Fp.toRat_finite]

/-- Every rate `notify_block` computes is a rate: a quotient below 1 or not
finite counts as 1. -/
theorem fee_rate_from_receipt_is_rate {metric : CostMetric Cost} {blockLimit : Cost}
    {txReceipt : StacksTransactionReceipt Cost} {rate : F64}
    (taken : feeRateFromReceipt metric blockLimit txReceipt = some rate) : IsRate rate := by
  have floored : ∀ feeRate : F64, IsRate (if feeRate ≥ Fp.one ∧ feeRate.isFinite then feeRate else Fp.one) := by
    intro feeRate
    split
    · rename_i kept
      obtain ⟨atLeast, finite⟩ := kept
      exact ⟨finite, (one_le_iff finite).mp atLeast⟩
    · exact isRate_one
  unfold feeRateFromReceipt at taken
  split at taken
  · cases taken
  · obtain ⟨scalarCost, -, rfl⟩ := Option.map_eq_some_iff.mp taken
    exact floored _

theorem is_rate_of_mem_filter_map {metric : CostMetric Cost} {blockLimit : Cost}
    {txReceipts : List (StacksTransactionReceipt Cost)} {rate : F64}
    (mem : rate ∈ txReceipts.filterMap (feeRateFromReceipt metric blockLimit)) : IsRate rate :=
  fee_rate_from_receipt_is_rate (List.mem_filterMap.mp mem).choose_spec.2

/-- The rates of every transaction of the blocks, in order. -/
def runRates (metric : CostMetric Cost) (blocks : List (List (StacksTransactionReceipt Cost) × Cost)) : List F64 :=
  blocks.flatMap fun block => block.1.filterMap (feeRateFromReceipt metric block.2)

theorem is_rate_of_mem_run_rates {metric : CostMetric Cost} {blocks : List (List (StacksTransactionReceipt Cost) × Cost)}
    {rate : F64} (mem : rate ∈ runRates metric blocks) : IsRate rate := by
  obtain ⟨block, -, inBlock⟩ := List.mem_flatMap.mp mem
  exact is_rate_of_mem_filter_map inBlock

/-! ## One block -/

theorem expect_partial_cmp_finite {a b : F64} (finiteA : a.isFinite) (finiteB : b.isFinite) :
    expectPartialCmp a b = .ok (compare a.toRat b.toRat) := by
  obtain ⟨x, hx, fx, rfl⟩ := Fp.isFinite_iff.mp finiteA
  obtain ⟨y, hy, fy, rfl⟩ := Fp.isFinite_iff.mp finiteB
  rfl

/-- The sort of a block's rates never panics: it orders the block's rates. -/
theorem all_fee_rates_eq_ok (metric : CostMetric Cost) (blockLimit : Cost)
    (txReceipts : List (StacksTransactionReceipt Cost)) :
    ∃ rates, allFeeRates metric blockLimit txReceipts = .ok rates ∧
      rates.Perm (txReceipts.filterMap (feeRateFromReceipt metric blockLimit)) ∧
      rates.Pairwise fun a b => a.toRat ≤ b.toRat :=
  OrderStatistics.sort_by_eq_ok fun _ memA _ memB =>
    expect_partial_cmp_finite (is_rate_of_mem_filter_map memA).finite (is_rate_of_mem_filter_map memB).finite

theorem rate_at_eq_ok {α : Type} {rates : List α} {index : Nat} (inside : index < rates.length) :
    rateAt rates index = .ok rates[index] := by
  rw [rateAt, List.getElem?_eq_getElem inside]

theorem get_le_get {rates : List F64} (sorted : rates.Pairwise fun a b => a.toRat ≤ b.toRat) {i j : Nat}
    (inside : i < rates.length) (inside' : j < rates.length) (before : i ≤ j) : rates[i].toRat ≤ rates[j].toRat := by
  rcases Nat.lt_or_eq_of_le before with earlier | rfl
  · exact List.pairwise_iff_getElem.mp sorted i j inside inside' earlier
  · exact le_rfl

/-- The block estimate of sorted rates never panics; it takes three of the
rates, in order. -/
theorem block_estimate_eq_ok {rates : List F64} (sorted : rates.Pairwise fun a b => a.toRat ≤ b.toRat)
    (nonempty : 0 < rates.length) :
    ∃ estimate, blockEstimate rates = .ok estimate ∧ estimate.low.toRat ≤ estimate.middle.toRat ∧
      estimate.middle.toRat ≤ estimate.high.toRat ∧ estimate.low ∈ rates ∧ estimate.middle ∈ rates ∧
      estimate.high ∈ rates := by
  have indices : rates.length / 20 ≤ rates.length / 2 ∧ rates.length / 2 ≤ rates.length - max 1 (rates.length / 20) ∧
      rates.length - max 1 (rates.length / 20) < rates.length := by omega
  obtain ⟨lowMiddle, middleHigh, highInside⟩ := indices
  have middleInside := Nat.lt_of_le_of_lt middleHigh highInside
  have lowInside := Nat.lt_of_le_of_lt lowMiddle middleInside
  refine ⟨⟨rates[rates.length - max 1 (rates.length / 20)], rates[rates.length / 2], rates[rates.length / 20]⟩, ?_,
    get_le_get sorted lowInside middleInside lowMiddle, get_le_get sorted middleInside highInside middleHigh,
    List.getElem_mem lowInside, List.getElem_mem middleInside, List.getElem_mem highInside⟩
  simp only [blockEstimate, rate_at_eq_ok highInside, rate_at_eq_ok middleInside, rate_at_eq_ok lowInside]
  rfl

/-- An estimate of rates in order. -/
structure Ordered (estimate : FeeRateEstimate F64) : Prop where
  highRate : IsRate estimate.high
  middleRate : IsRate estimate.middle
  lowRate : IsRate estimate.low
  lowMiddle : estimate.low.toRat ≤ estimate.middle.toRat
  middleHigh : estimate.middle.toRat ≤ estimate.high.toRat

/-- The measures of the blocks that have a fee rate, oldest first. -/
def blockMeasures (metric : CostMetric Cost) (blocks : List (List (StacksTransactionReceipt Cost) × Cost)) :
    List (FeeRateEstimate F64) :=
  blocks.filterMap fun block => (allFeeRates metric block.2 block.1).toOption.bind fun allFeeRates =>
    if allFeeRates.length > 0 then (blockEstimate allFeeRates).toOption else none

/-- What `notify_block` does with a block: its sort never panics, and a block
with rates gives a measure of three of them, in order, which is its one entry of
`blockMeasures`. -/
theorem notify_block_cases (estimator : ScalarFeeRateEstimator Cost) (txReceipts : List (StacksTransactionReceipt Cost))
    (blockLimit : Cost) :
    (estimator.notifyBlock txReceipts blockLimit = .ok estimator ∧
        txReceipts.filterMap (feeRateFromReceipt estimator.metric blockLimit) = [] ∧
        blockMeasures estimator.metric [(txReceipts, blockLimit)] = []) ∨
      ∃ measure, estimator.notifyBlock txReceipts blockLimit = .ok (estimator.updateEstimate measure) ∧
        Ordered measure ∧ measure.low ∈ txReceipts.filterMap (feeRateFromReceipt estimator.metric blockLimit) ∧
        measure.high ∈ txReceipts.filterMap (feeRateFromReceipt estimator.metric blockLimit) ∧
        blockMeasures estimator.metric [(txReceipts, blockLimit)] = [measure] := by
  obtain ⟨rates, sortedOk, perm, sorted⟩ := all_fee_rates_eq_ok estimator.metric blockLimit txReceipts
  by_cases rated : rates.length > 0
  · obtain ⟨measure, measured, lowMiddle, middleHigh, lowMem, middleMem, highMem⟩ := block_estimate_eq_ok sorted rated
    have isRate := fun (rate : F64) (mem : rate ∈ rates) => is_rate_of_mem_filter_map (perm.subset mem)
    refine .inr ⟨measure, ?_, ⟨isRate _ highMem, isRate _ middleMem, isRate _ lowMem, lowMiddle, middleHigh⟩,
      perm.subset lowMem, perm.subset highMem, ?_⟩
    · rw [ScalarFeeRateEstimator.notifyBlock, sortedOk]
      simp only [bind, Except.bind, if_pos rated, measured]
      rfl
    · simp only [blockMeasures, List.filterMap_cons, List.filterMap_nil, sortedOk, Except.toOption, Option.bind_some,
        if_pos rated, measured]
  -- a block with no rate has no measure and leaves the estimator alone
  · refine .inl ⟨?_, ?_, ?_⟩
    · rw [ScalarFeeRateEstimator.notifyBlock, sortedOk]
      simp only [bind, Except.bind, if_neg rated]
      rfl
    · rw [← List.length_eq_zero_iff, ← perm.length_eq]
      exact Nat.eq_zero_of_not_pos rated
    · simp only [blockMeasures, List.filterMap_cons, List.filterMap_nil, sortedOk, Except.toOption, Option.bind_some,
        if_neg rated]

/-! ## The decayed update -/

theorem representable_half : FpFormat.binary64.Representable (1 / 2) := by
  have power := @FpFormat.representable_two_zpow FpFormat.binary64 (-1) (by decide)
  rwa [zpow_neg_one, ← one_div] at power

theorem half_fits : |(1 / 2 : ℚ)| ≤ FpFormat.binary64.maxFinite :=
  le_trans (by norm_num) F64.one_fits

theorem half_eq_finite : half = .finite (1 / 2) representable_half half_fits :=
  Fp.ofRat_eq_finite _ _

theorem saturating_f64_math_of_is_finite {res : F64} (finite : res.isFinite) : saturatingF64Math res = res := by
  rw [saturatingF64Math, if_pos finite]

theorem saturate_of_is_rate {rate : F64} (isRate : IsRate rate) : saturate rate = rate := by
  rw [saturate, if_pos ((one_le_iff isRate.finite).mpr isRate.atLeastOne)]

theorem one_sub_half : Fp.one - half = half := by
  rw [F64.one_eq_finite, half_eq_finite]
  show Fp.ofRat (1 + -(1 / 2)) = _
  rw [← half_eq_finite, half]
  norm_num

theorem mul_half {rate : F64} (isRate : IsRate rate) :
    ∃ rep fits, saturatingF64Math (rate * half) = .finite (rate.toRat / 2) rep fits := by
  obtain ⟨x, rep, fits, rfl⟩ := Fp.isFinite_iff.mp isRate.finite
  have atLeast : 1 ≤ x := isRate.atLeastOne
  have normal : 2 ^ (FpFormat.binary64.emin + FpFormat.binary64.precision) ≤ |x| := by
    rw [abs_of_nonneg (by linarith)]
    exact le_trans (zpow_le_one_of_nonpos₀ (by norm_num) (by decide)) atLeast
  have halfFits : |x / 2| ≤ FpFormat.binary64.maxFinite := by
    rw [abs_div, abs_two]
    exact (div_le_self (abs_nonneg x) (by norm_num)).trans fits
  refine ⟨rep.div_two normal, halfFits, ?_⟩
  rw [half_eq_finite, Fp.finite_mul_finite, show x * (1 / 2) = x / 2 by ring,
    Fp.ofRat_eq_finite (rep.div_two normal) halfFits, saturating_f64_math_of_is_finite Fp.isFinite_finite]
  rfl

theorem of_rat_mean {a b : F64} (rateA : IsRate a) (rateB : IsRate b) :
    IsRate (Fp.ofRat ((a.toRat + b.toRat) / 2)) ∧
      (Fp.ofRat ((a.toRat + b.toRat) / 2) : F64).toRat = FpFormat.binary64.round ((a.toRat + b.toRat) / 2) ∧
      min a.toRat b.toRat ≤ (Fp.ofRat ((a.toRat + b.toRat) / 2) : F64).toRat ∧
      (Fp.ofRat ((a.toRat + b.toRat) / 2) : F64).toRat ≤ max a.toRat b.toRat := by
  -- the mean lies between the lesser and the greater rate, which bound its rounding
  have between : ∀ {lo hi : F64}, IsRate lo → IsRate hi → lo.toRat ≤ (a.toRat + b.toRat) / 2 →
      (a.toRat + b.toRat) / 2 ≤ hi.toRat →
      IsRate (Fp.ofRat ((a.toRat + b.toRat) / 2)) ∧
        (Fp.ofRat ((a.toRat + b.toRat) / 2) : F64).toRat = FpFormat.binary64.round ((a.toRat + b.toRat) / 2) ∧
        lo.toRat ≤ (Fp.ofRat ((a.toRat + b.toRat) / 2) : F64).toRat ∧
        (Fp.ofRat ((a.toRat + b.toRat) / 2) : F64).toRat ≤ hi.toRat := by
    intro lo hi rateLo rateHi above below
    obtain ⟨finite, value, lower, upper⟩ :=
      Fp.ofRat_between rateLo.finite rateHi.finite (by linarith [rateLo.atLeastOne]) above below
    rw [← value] at lower upper
    exact ⟨⟨finite, rateLo.atLeastOne.trans lower⟩, value, lower, upper⟩
  rcases le_total a.toRat b.toRat with ordered | ordered
  · obtain ⟨isRate, value, lower, upper⟩ := between rateA rateB (by linarith) (by linarith)
    exact ⟨isRate, value, (min_le_left _ _).trans lower, upper.trans (le_max_right _ _)⟩
  · obtain ⟨isRate, value, lower, upper⟩ := between rateB rateA (by linarith) (by linarith)
    exact ⟨isRate, value, (min_le_right _ _).trans lower, upper.trans (le_max_left _ _)⟩

/-- One rate of an update with the decay rate one half: the mean of the old
rate and the new, rounded once; neither saturation changes it. -/
theorem saturate_decayed {old new : F64} (oldRate : IsRate old) (newRate : IsRate new) :
    saturate (saturatingF64Math (saturatingF64Math (old * half) + saturatingF64Math (new * (Fp.one - half)))) =
      Fp.ofRat ((old.toRat + new.toRat) / 2) := by
  obtain ⟨oldRep, oldFits, oldHalved⟩ := mul_half oldRate
  obtain ⟨newRep, newFits, newHalved⟩ := mul_half newRate
  have mean := (of_rat_mean oldRate newRate).1
  rw [one_sub_half, oldHalved, newHalved, Fp.finite_add_finite,
    show old.toRat / 2 + new.toRat / 2 = (old.toRat + new.toRat) / 2 by ring,
    saturating_f64_math_of_is_finite mean.finite, saturate_of_is_rate mean]

/-- With a decay rate of one half, an update of a stored estimate of rates by a
measure of rates stores their rounded mean. -/
theorem update_estimate_mean {self : ScalarFeeRateEstimator Cost} (halved : self.decayRate = half)
    {oldEstimate newMeasure : FeeRateEstimate F64} (stored : self.db = some oldEstimate) (old : Ordered oldEstimate)
    (new : Ordered newMeasure) :
    (self.updateEstimate newMeasure).db = some ⟨Fp.ofRat ((oldEstimate.high.toRat + newMeasure.high.toRat) / 2),
      Fp.ofRat ((oldEstimate.middle.toRat + newMeasure.middle.toRat) / 2),
      Fp.ofRat ((oldEstimate.low.toRat + newMeasure.low.toRat) / 2)⟩ := by
  simp only [ScalarFeeRateEstimator.updateEstimate, ScalarFeeRateEstimator.getRateEstimates, stored, scale, add,
    halved, saturate_decayed old.highRate new.highRate, saturate_decayed old.middleRate new.middleRate,
    saturate_decayed old.lowRate new.lowRate]

theorem Ordered.mean {estimate estimate' : FeeRateEstimate F64} (ordered : Ordered estimate)
    (ordered' : Ordered estimate') :
    Ordered ⟨Fp.ofRat ((estimate.high.toRat + estimate'.high.toRat) / 2),
      Fp.ofRat ((estimate.middle.toRat + estimate'.middle.toRat) / 2),
      Fp.ofRat ((estimate.low.toRat + estimate'.low.toRat) / 2)⟩ := by
  obtain ⟨highRate, highValue, -⟩ := of_rat_mean ordered.highRate ordered'.highRate
  obtain ⟨middleRate, middleValue, -⟩ := of_rat_mean ordered.middleRate ordered'.middleRate
  obtain ⟨lowRate, lowValue, -⟩ := of_rat_mean ordered.lowRate ordered'.lowRate
  have lowNonneg : 0 ≤ (estimate.low.toRat + estimate'.low.toRat) / 2 := by
    linarith [ordered.lowRate.atLeastOne, ordered'.lowRate.atLeastOne]
  refine ⟨highRate, middleRate, lowRate, ?_, ?_⟩
  · rw [lowValue, middleValue]
    exact FpFormat.round_mono lowNonneg (by linarith [ordered.lowMiddle, ordered'.lowMiddle])
  · rw [middleValue, highValue]
    exact FpFormat.round_mono (by linarith [ordered.lowMiddle, ordered'.lowMiddle])
      (by linarith [ordered.middleHigh, ordered'.middleHigh])

/-- An estimate of rates in order between the least and the greatest of `rates`. -/
structure Bounded (rates : List F64) (estimate : FeeRateEstimate F64) : Prop extends Ordered estimate where
  aboveLeast : ∃ rate ∈ rates, rate.toRat ≤ estimate.low.toRat
  belowGreatest : ∃ rate ∈ rates, estimate.high.toRat ≤ rate.toRat

theorem Bounded.mean {rates rates' : List F64} {estimate estimate' : FeeRateEstimate F64}
    (bounded : Bounded rates estimate) (bounded' : Bounded rates' estimate') :
    Bounded (rates ++ rates') ⟨Fp.ofRat ((estimate.high.toRat + estimate'.high.toRat) / 2),
      Fp.ofRat ((estimate.middle.toRat + estimate'.middle.toRat) / 2),
      Fp.ofRat ((estimate.low.toRat + estimate'.low.toRat) / 2)⟩ := by
  obtain ⟨least, mem, below⟩ := bounded.aboveLeast
  obtain ⟨least', mem', below'⟩ := bounded'.aboveLeast
  obtain ⟨greatest, memG, above⟩ := bounded.belowGreatest
  obtain ⟨greatest', memG', above'⟩ := bounded'.belowGreatest
  have lowBetween := (of_rat_mean bounded.lowRate bounded'.lowRate).2.2.1
  have highBetween := (of_rat_mean bounded.highRate bounded'.highRate).2.2.2
  refine ⟨bounded.toOrdered.mean bounded'.toOrdered, ?_, ?_⟩
  -- the lesser of the two least rates is below the rounded mean of the lows
  · rcases le_total least.toRat least'.toRat with first | second
    · exact ⟨least, List.mem_append_left _ mem, le_trans (le_min below (first.trans below')) lowBetween⟩
    · exact ⟨least', List.mem_append_right _ mem', le_trans (le_min (second.trans below) below') lowBetween⟩
  · rcases le_total greatest.toRat greatest'.toRat with first | second
    · exact ⟨greatest', List.mem_append_right _ memG', highBetween.trans (max_le (above.trans first) above')⟩
    · exact ⟨greatest, List.mem_append_left _ memG, highBetween.trans (max_le above (above'.trans second))⟩

/-! ## Runs -/

/-- What the scalar estimator holds after the rates `rates`: a decay rate of one
half, and a stored estimate exactly when some rate was seen, bounded by them. -/
def Holds (rates : List F64) (estimator : ScalarFeeRateEstimator Cost) : Prop :=
  estimator.decayRate = half ∧
    match estimator.db with
    | none => rates = []
    | some estimate => Bounded rates estimate

/-- The step of a run: `notify_block` never panics and keeps what the
estimator holds, with the block's rates added. -/
theorem Holds.notify_block {rates : List F64} {estimator : ScalarFeeRateEstimator Cost}
    (holds : Holds rates estimator) (txReceipts : List (StacksTransactionReceipt Cost)) (blockLimit : Cost) :
    ∃ estimator', estimator.notifyBlock txReceipts blockLimit = .ok estimator' ∧ estimator'.metric = estimator.metric ∧
      Holds (rates ++ txReceipts.filterMap (feeRateFromReceipt estimator.metric blockLimit)) estimator' := by
  obtain ⟨halved, stored⟩ := holds
  rcases notify_block_cases estimator txReceipts blockLimit with
    ⟨same, none, -⟩ | ⟨measure, updated, ordered, lowMem, highMem, -⟩
  · refine ⟨estimator, same, rfl, halved, ?_⟩
    rw [none, List.append_nil]
    exact stored
  · -- the block's measure is bounded by the block's rates
    have blockBounded : Bounded (txReceipts.filterMap (feeRateFromReceipt estimator.metric blockLimit)) measure :=
      ⟨ordered, ⟨measure.low, lowMem, le_rfl⟩, ⟨measure.high, highMem, le_rfl⟩⟩
    refine ⟨estimator.updateEstimate measure, updated, rfl, halved, ?_⟩
    cases old : estimator.db with
    | none =>
        rw [old] at stored
        simp only [ScalarFeeRateEstimator.updateEstimate, ScalarFeeRateEstimator.getRateEstimates, old]
        rw [stored, List.nil_append]
        exact blockBounded
    | some oldEstimate =>
        rw [old] at stored
        rw [update_estimate_mean halved old stored.toOrdered ordered]
        exact stored.mean blockBounded

theorem Holds.notify_blocks {rates : List F64} {estimator : ScalarFeeRateEstimator Cost}
    (holds : Holds rates estimator) (blocks : List (List (StacksTransactionReceipt Cost) × Cost)) :
    ∃ estimator', scalarFeeEstimator.notifyBlocks estimator blocks = .ok estimator' ∧
      Holds (rates ++ runRates estimator.metric blocks) estimator' := by
  induction blocks generalizing rates estimator with
  | nil => exact ⟨estimator, rfl, by rwa [runRates, List.flatMap_nil, List.append_nil]⟩
  | cons block blocks ih =>
      obtain ⟨txReceipts, blockLimit⟩ := block
      obtain ⟨next, notified, sameMetric, holdsNext⟩ := holds.notify_block txReceipts blockLimit
      obtain ⟨last, run, holdsLast⟩ := ih holdsNext
      refine ⟨last, ?_, ?_⟩
      · simp only [FeeEstimator.notifyBlocks, scalarFeeEstimator, notified]
        exact run
      · rw [sameMetric, List.append_assoc] at holdsLast
        simpa [runRates] using holdsLast

/-- Over any run of blocks from a new scalar estimator, `notify_block` never
panics: the sort's comparisons always have an order and the percentile indices
are inside the rates. `get_rate_estimates` answers `NoEstimateAvailable`
exactly when no transaction of the run had a fee rate (burns and coinbases have
none); otherwise its three rates are finite, in order, at least 1, its low at
least some rate seen and its high at most some rate seen. -/
theorem scalar_estimates_bounded (metric : CostMetric Cost) (blocks : List (List (StacksTransactionReceipt Cost) × Cost)) :
    ∃ estimator, scalarFeeEstimator.notifyBlocks (ScalarFeeRateEstimator.open metric) blocks = .ok estimator ∧
      (estimator.getRateEstimates = .error .noEstimateAvailable ↔ runRates metric blocks = []) ∧
      ∀ estimate, estimator.getRateEstimates = .ok estimate →
        estimate.low.isFinite ∧ estimate.middle.isFinite ∧ estimate.high.isFinite ∧
        Fp.one ≤ estimate.low ∧ estimate.low ≤ estimate.middle ∧ estimate.middle ≤ estimate.high ∧
        (∃ rate ∈ runRates metric blocks, rate ≤ estimate.low) ∧ ∃ rate ∈ runRates metric blocks, estimate.high ≤ rate := by
  have fresh : Holds [] (ScalarFeeRateEstimator.open metric) := ⟨rfl, rfl⟩
  obtain ⟨estimator, run, -, stored⟩ := fresh.notify_blocks blocks
  rw [List.nil_append] at stored
  refine ⟨estimator, run, ?_⟩
  -- `get_rate_estimates` reads the stored row
  cases db : estimator.db with
  | none =>
      rw [db] at stored
      simp only [ScalarFeeRateEstimator.getRateEstimates, db]
      refine ⟨iff_of_true trivial stored, fun estimate got => ?_⟩
      cases got
  | some estimate =>
      rw [db] at stored
      simp only [ScalarFeeRateEstimator.getRateEstimates, db]
      obtain ⟨⟨highRate, middleRate, lowRate, lowMiddle, middleHigh⟩, ⟨least, mem, below⟩,
        ⟨greatest, memG, above⟩⟩ := stored
      -- a stored estimate lies above some rate seen
      refine ⟨iff_of_false (fun same => nomatch same) (List.ne_nil_of_mem mem), ?_⟩
      rintro _ ⟨⟩
      -- every comparison is between finite rates, so it is that of their numbers
      refine ⟨lowRate.finite, middleRate.finite, highRate.finite, (one_le_iff lowRate.finite).mpr lowRate.atLeastOne,
        (Fp.le_iff_toRat lowRate.finite middleRate.finite).mpr lowMiddle,
        (Fp.le_iff_toRat middleRate.finite highRate.finite).mpr middleHigh, ⟨least, mem, ?_⟩, ⟨greatest, memG, ?_⟩⟩
      · exact (Fp.le_iff_toRat (is_rate_of_mem_run_rates mem).finite lowRate.finite).mpr below
      · exact (Fp.le_iff_toRat highRate.finite (is_rate_of_mem_run_rates memG).finite).mpr above

/-! ## The exponential average -/

/-- The weight of the `i`-th of `n` block measures in the scalar estimate: one
half for the newest, halving with each older block, and the oldest weighing as
much as the one after it. -/
def decayWeight (n i : Nat) : ℚ := if i = 0 then (1 / 2) ^ (n - 1) else (1 / 2) ^ (n - i)

/-- The values weighted by `decayWeight`, oldest first. -/
def decayedAverage (values : List ℚ) : ℚ :=
  (values.zipIdx.map fun entry => decayWeight values.length entry.2 * entry.1).sum

theorem decayed_average_singleton (value : ℚ) : decayedAverage [value] = value := by
  simp [decayedAverage, decayWeight]

theorem decayed_average_append {values : List ℚ} (nonempty : values ≠ []) (value : ℚ) :
    decayedAverage (values ++ [value]) = (decayedAverage values + value) / 2 := by
  have long : 0 < values.length := List.length_pos_of_ne_nil nonempty
  have older : ∀ entry ∈ values.zipIdx, decayWeight (values.length + 1) entry.2 * entry.1 =
      decayWeight values.length entry.2 * entry.1 * (1 / 2) := by
    intro entry mem
    have inside : entry.2 < values.length := by simpa using List.snd_lt_of_mem_zipIdx mem
    unfold decayWeight
    split
    · rw [Nat.add_sub_cancel, ← Nat.sub_add_cancel long, pow_succ, Nat.add_sub_cancel]
      ring
    · rw [Nat.sub_add_comm inside.le, pow_succ]
      ring
  have newest : decayWeight (values.length + 1) values.length = 1 / 2 := by
    rw [decayWeight, if_neg (Nat.pos_iff_ne_zero.mp long), Nat.add_sub_cancel_left, pow_one]
  unfold decayedAverage
  rw [List.zipIdx_append, List.map_append, List.sum_append, List.length_append, List.length_singleton,
    List.map_congr_left older, List.sum_map_mul_right]
  simp only [List.zipIdx_singleton, Nat.zero_add, List.map_cons, List.map_nil, List.sum_cons, List.sum_nil, newest]
  ring

/-- The greatest number of the rates, or 0 for none. -/
def greatestRate (rates : List F64) : ℚ := (rates.map Fp.toRat).foldr max 0

theorem greatest_rate_nonneg (rates : List F64) : 0 ≤ greatestRate rates := by
  induction rates with
  | nil => exact le_rfl
  | cons rate rates ih => exact ih.trans (le_max_right _ _)

theorem le_greatest_rate {rates : List F64} {rate : F64} (mem : rate ∈ rates) : rate.toRat ≤ greatestRate rates := by
  induction rates with
  | nil => cases mem
  | cons first rest ih =>
      rcases List.mem_cons.mp mem with rfl | later
      · exact le_max_left _ _
      · exact (ih later).trans (le_max_right _ _)

theorem greatest_rate_le_append (rates more : List F64) : greatestRate rates ≤ greatestRate (rates ++ more) := by
  induction rates with
  | nil => exact greatest_rate_nonneg more
  | cons first rest ih => exact max_le_max le_rfl ih

/-- Each rate of the estimate is within `greatest / 2 ^ 52` of the exact
decayed average of that rate of the measures. -/
structure Tracks (greatest : ℚ) (measures : List (FeeRateEstimate F64)) (estimate : FeeRateEstimate F64) : Prop where
  high : |estimate.high.toRat - decayedAverage (measures.map (·.high.toRat))| ≤ greatest / 2 ^ 52
  middle : |estimate.middle.toRat - decayedAverage (measures.map (·.middle.toRat))| ≤ greatest / 2 ^ 52
  low : |estimate.low.toRat - decayedAverage (measures.map (·.low.toRat))| ≤ greatest / 2 ^ 52

/-- One update keeps a rate within the bound: rounding the mean adds at most
`2 ^ -53` of it, and the distance before is halved. -/
theorem abs_round_mean_sub_le {old new average greatest : ℚ} (oldAtLeast : 1 ≤ old) (newAtLeast : 1 ≤ new)
    (oldBelow : old ≤ greatest) (newBelow : new ≤ greatest) (close : |old - average| ≤ greatest / 2 ^ 52) :
    |FpFormat.binary64.round ((old + new) / 2) - (average + new) / 2| ≤ greatest / 2 ^ 52 := by
  have meanAtLeast : 1 ≤ (old + new) / 2 := by linarith
  have normal : 2 ^ (FpFormat.binary64.emin + FpFormat.binary64.precision - 1) ≤ |(old + new) / 2| := by
    rw [abs_of_nonneg (by linarith)]
    exact le_trans (zpow_le_one_of_nonpos₀ (by norm_num) (by decide)) meanAtLeast
  have rounding := FpFormat.abs_round_sub_le_of_normal normal
  have meanAbs : |(old + new) / 2| = (old + new) / 2 := abs_of_nonneg (by linarith)
  rw [meanAbs, show FpFormat.binary64.precision = 53 from rfl] at rounding
  calc |FpFormat.binary64.round ((old + new) / 2) - (average + new) / 2|
      = |(FpFormat.binary64.round ((old + new) / 2) - (old + new) / 2) + (old - average) / 2| := by ring_nf
    _ ≤ |FpFormat.binary64.round ((old + new) / 2) - (old + new) / 2| + |(old - average) / 2| := abs_add_le _ _
    _ ≤ greatest / 2 ^ 53 + greatest / 2 ^ 52 / 2 := by
      rw [abs_div, abs_two]
      gcongr
      exact rounding.trans (div_le_div_of_nonneg_right (by linarith) (by positivity))
    _ = greatest / 2 ^ 52 := by ring

theorem abs_of_rat_mean_sub_le {old new : F64} {values : List ℚ} {greatest : ℚ} (oldRate : IsRate old)
    (newRate : IsRate new) (nonempty : values ≠ []) (oldBelow : old.toRat ≤ greatest) (newBelow : new.toRat ≤ greatest)
    (close : |old.toRat - decayedAverage values| ≤ greatest / 2 ^ 52) :
    |(Fp.ofRat ((old.toRat + new.toRat) / 2) : F64).toRat - decayedAverage (values ++ [new.toRat])| ≤
      greatest / 2 ^ 52 := by
  rw [(of_rat_mean oldRate newRate).2.1, decayed_average_append nonempty]
  exact abs_round_mean_sub_le oldRate.atLeastOne newRate.atLeastOne oldBelow newBelow close

section Tracks
variable {greatest : ℚ} {measures : List (FeeRateEstimate F64)} {estimate : FeeRateEstimate F64}

theorem Tracks.widen (tracks : Tracks greatest measures estimate) {greatest' : ℚ} (grows : greatest ≤ greatest') :
    Tracks greatest' measures estimate := by
  have wider : greatest / 2 ^ 52 ≤ greatest' / 2 ^ 52 := div_le_div_of_nonneg_right grows (by positivity)
  exact ⟨tracks.high.trans wider, tracks.middle.trans wider, tracks.low.trans wider⟩

theorem Tracks.single (nonneg : 0 ≤ greatest) (measure : FeeRateEstimate F64) : Tracks greatest [measure] measure := by
  have zero : 0 ≤ greatest / 2 ^ 52 := by positivity
  refine ⟨?_, ?_, ?_⟩ <;> simpa [decayed_average_singleton] using zero

/-- The step of the average: the rounded mean of an estimate and a measure of
rates at most `greatest` tracks the average with the measure added. -/
theorem Tracks.mean (tracks : Tracks greatest measures estimate) (nonempty : measures ≠ [])
    (ordered : Ordered estimate) {measure : FeeRateEstimate F64} (ordered' : Ordered measure)
    (below : estimate.high.toRat ≤ greatest) (below' : measure.high.toRat ≤ greatest) :
    Tracks greatest (measures ++ [measure]) ⟨Fp.ofRat ((estimate.high.toRat + measure.high.toRat) / 2),
      Fp.ofRat ((estimate.middle.toRat + measure.middle.toRat) / 2),
      Fp.ofRat ((estimate.low.toRat + measure.low.toRat) / 2)⟩ := by
  have mapped : ∀ f : FeeRateEstimate F64 → ℚ, measures.map f ≠ [] := fun f => by simpa using nonempty
  -- every rate of an estimate in order is at most its high
  have middleBelow := ordered.middleHigh.trans below
  have middleBelow' := ordered'.middleHigh.trans below'
  refine ⟨?_, ?_, ?_⟩ <;> simp only [List.map_append, List.map_singleton]
  · exact abs_of_rat_mean_sub_le ordered.highRate ordered'.highRate (mapped _) below below' tracks.high
  · exact abs_of_rat_mean_sub_le ordered.middleRate ordered'.middleRate (mapped _) middleBelow middleBelow'
      tracks.middle
  · exact abs_of_rat_mean_sub_le ordered.lowRate ordered'.lowRate (mapped _) (ordered.lowMiddle.trans middleBelow)
      (ordered'.lowMiddle.trans middleBelow') tracks.low

end Tracks

/-- The scalar estimator tracks the decayed average of the measures. -/
def Decays (rates : List F64) (measures : List (FeeRateEstimate F64)) (estimator : ScalarFeeRateEstimator Cost) :
    Prop :=
  Holds rates estimator ∧ (estimator.db = none ↔ measures = []) ∧
    ∀ estimate, estimator.db = some estimate → Tracks (greatestRate rates) measures estimate

theorem Decays.notify_block {rates : List F64} {measures : List (FeeRateEstimate F64)}
    {estimator : ScalarFeeRateEstimator Cost} (decays : Decays rates measures estimator)
    (txReceipts : List (StacksTransactionReceipt Cost)) (blockLimit : Cost) :
    ∃ estimator', estimator.notifyBlock txReceipts blockLimit = .ok estimator' ∧ estimator'.metric = estimator.metric ∧
      Decays (rates ++ txReceipts.filterMap (feeRateFromReceipt estimator.metric blockLimit))
        (measures ++ blockMeasures estimator.metric [(txReceipts, blockLimit)]) estimator' := by
  obtain ⟨holds, present, tracked⟩ := decays
  obtain ⟨estimator', notified, sameMetric, holds'⟩ := holds.notify_block txReceipts blockLimit
  refine ⟨estimator', notified, sameMetric, holds', ?_⟩
  rcases notify_block_cases estimator txReceipts blockLimit with
    ⟨same, none, noMeasure⟩ | ⟨measure, updated, ordered, -, highMem, oneMeasure⟩
  -- a block with no rate has no measure and leaves the estimator alone
  · rw [same, Except.ok.injEq] at notified
    subst notified
    rw [noMeasure, List.append_nil, none, List.append_nil]
    exact ⟨present, tracked⟩
  · rw [updated, Except.ok.injEq] at notified
    subst notified
    set received := txReceipts.filterMap (feeRateFromReceipt estimator.metric blockLimit)
    -- the block's rates, and so the measure, are at most the new greatest rate
    have grows := greatest_rate_le_append rates received
    have measureBelow : measure.high.toRat ≤ greatestRate (rates ++ received) :=
      le_greatest_rate (List.mem_append_right _ highMem)
    rw [oneMeasure]
    refine ⟨by simp [ScalarFeeRateEstimator.updateEstimate], fun estimate stored' => ?_⟩
    cases old : estimator.db with
    | none =>
        -- the first measure is stored as it is
        rw [present.mp old]
        simp only [ScalarFeeRateEstimator.updateEstimate, ScalarFeeRateEstimator.getRateEstimates, old,
          Option.some.injEq] at stored'
        subst stored'
        exact Tracks.single (greatest_rate_nonneg _) measure
    | some oldEstimate =>
        have bounded := holds.2
        rw [old] at bounded
        have nonempty : measures ≠ [] := fun empty => by simp [present.mpr empty] at old
        rw [update_estimate_mean holds.1 old bounded.toOrdered ordered, Option.some.injEq] at stored'
        subst stored'
        -- the old high is at most some rate seen, so at most the greatest
        obtain ⟨greatest, memG, above⟩ := bounded.belowGreatest
        exact ((tracked oldEstimate old).widen grows).mean nonempty bounded.toOrdered ordered
          (above.trans ((le_greatest_rate memG).trans grows)) measureBelow

theorem Decays.notify_blocks {rates : List F64} {measures : List (FeeRateEstimate F64)}
    {estimator : ScalarFeeRateEstimator Cost} (decays : Decays rates measures estimator)
    (blocks : List (List (StacksTransactionReceipt Cost) × Cost)) :
    ∃ estimator', scalarFeeEstimator.notifyBlocks estimator blocks = .ok estimator' ∧
      Decays (rates ++ runRates estimator.metric blocks) (measures ++ blockMeasures estimator.metric blocks)
        estimator' := by
  induction blocks generalizing rates measures estimator with
  | nil => exact ⟨estimator, rfl, by simpa [runRates, blockMeasures] using decays⟩
  | cons block blocks ih =>
      obtain ⟨txReceipts, blockLimit⟩ := block
      obtain ⟨next, notified, sameMetric, decaysNext⟩ := decays.notify_block txReceipts blockLimit
      obtain ⟨last, run, decaysLast⟩ := ih decaysNext
      refine ⟨last, ?_, ?_⟩
      · simp only [FeeEstimator.notifyBlocks, scalarFeeEstimator, notified]
        exact run
      · rw [sameMetric, List.append_assoc, List.append_assoc] at decaysLast
        have splitRates : runRates estimator.metric ((txReceipts, blockLimit) :: blocks) =
            txReceipts.filterMap (feeRateFromReceipt estimator.metric blockLimit) ++
              runRates estimator.metric blocks := by
          simp [runRates]
        have splitMeasures : blockMeasures estimator.metric ((txReceipts, blockLimit) :: blocks) =
            blockMeasures estimator.metric [(txReceipts, blockLimit)] ++ blockMeasures estimator.metric blocks := by
          simp only [blockMeasures, List.filterMap_cons, List.filterMap_nil]
          split <;> simp_all
        rw [splitRates, splitMeasures]
        exact decaysLast

/-- Over any run of blocks from a new scalar estimator (decay rate one half),
the stored estimate is absent exactly when no block had a fee rate; otherwise
each of its three rates is finite and within `2 ^ -52` times the greatest fee
rate seen of the exact exponential average of that rate of the blocks'
percentile measures, oldest first: the newest measure weighs one half, each
older one half as much as the next, and the oldest as much as the one after
it. -/
theorem scalar_estimate_decayed_average (metric : CostMetric Cost)
    (blocks : List (List (StacksTransactionReceipt Cost) × Cost)) :
    ∃ estimator, scalarFeeEstimator.notifyBlocks (ScalarFeeRateEstimator.open metric) blocks = .ok estimator ∧
      (estimator.db = none ↔ blockMeasures metric blocks = []) ∧
      ∀ estimate, estimator.db = some estimate →
        estimate.high.isFinite ∧ estimate.middle.isFinite ∧ estimate.low.isFinite ∧
        |estimate.high.toRat - decayedAverage ((blockMeasures metric blocks).map (·.high.toRat))| ≤
          greatestRate (runRates metric blocks) / 2 ^ 52 ∧
        |estimate.middle.toRat - decayedAverage ((blockMeasures metric blocks).map (·.middle.toRat))| ≤
          greatestRate (runRates metric blocks) / 2 ^ 52 ∧
        |estimate.low.toRat - decayedAverage ((blockMeasures metric blocks).map (·.low.toRat))| ≤
          greatestRate (runRates metric blocks) / 2 ^ 52 := by
  have fresh : Decays [] [] (ScalarFeeRateEstimator.open metric) := by
    refine ⟨⟨rfl, rfl⟩, iff_of_true rfl rfl, ?_⟩
    intro estimate stored
    cases stored
  obtain ⟨estimator, run, ⟨-, stored⟩, present, tracked⟩ := fresh.notify_blocks blocks
  simp only [List.nil_append] at present tracked
  refine ⟨estimator, run, present, fun estimate db => ?_⟩
  rw [db] at stored
  obtain ⟨highClose, middleClose, lowClose⟩ := tracked estimate db
  exact ⟨stored.highRate.finite, stored.middleRate.finite, stored.lowRate.finite, highClose, middleClose, lowClose⟩

section Fuzzer

variable {σ : Type}

theorem FeeRateFuzzer.new_eq_ok {underlying : σ} {uniformFuzzFraction : F64} {fuzzer : FeeRateFuzzer σ}
    (created : FeeRateFuzzer.new underlying uniformFuzzFraction = .ok fuzzer) :
    fuzzer = ⟨underlying, uniformFuzzFraction⟩ ∧ Fp.zero ≤ uniformFuzzFraction ∧ uniformFuzzFraction < Fp.one := by
  unfold FeeRateFuzzer.new at created
  split at created
  · rename_i within
    exact ⟨(Except.ok.inj created).symm, within⟩
  · cases created

theorem fuzzed_notify_blocks (estimator : FeeEstimator σ F64 Cost) (uniform : F64) (fuzzer : FeeRateFuzzer σ)
    (blocks : List (List (StacksTransactionReceipt Cost) × Cost)) :
    (fuzzedFeeEstimator estimator uniform).notifyBlocks fuzzer blocks =
      (estimator.notifyBlocks fuzzer.underlying blocks).map fun underlying => { fuzzer with underlying } := by
  induction blocks generalizing fuzzer with
  | nil => rfl
  | cons block blocks ih =>
      obtain ⟨txReceipts, blockLimit⟩ := block
      simp only [FeeEstimator.notifyBlocks, fuzzedFeeEstimator, FeeRateFuzzer.notifyBlock]
      cases estimator.notifyBlock fuzzer.underlying txReceipts blockLimit with
      | error panic => rfl
      | ok underlying => exact ih { fuzzer with underlying }

@[simp] theorem scale_high (estimate : FeeRateEstimate F64) (rhs : F64) :
    (scale estimate rhs).high = saturatingF64Math (estimate.high * rhs) := rfl

@[simp] theorem scale_middle (estimate : FeeRateEstimate F64) (rhs : F64) :
    (scale estimate rhs).middle = saturatingF64Math (estimate.middle * rhs) := rfl

@[simp] theorem scale_low (estimate : FeeRateEstimate F64) (rhs : F64) :
    (scale estimate rhs).low = saturatingF64Math (estimate.low * rhs) := rfl

/-- A rate times a finite positive factor, rounded and saturated: the rounded
product, or `f64::MAX` where it overflows. -/
theorem saturating_mul {rate factor : F64} (isRate : IsRate rate) (finite : factor.isFinite)
    (positive : 0 ≤ factor.toRat) :
    (saturatingF64Math (rate * factor)).isFinite ∧
      (saturatingF64Math (rate * factor)).toRat =
        min (FpFormat.binary64.round (rate.toRat * factor.toRat)) FpFormat.binary64.maxFinite := by
  obtain ⟨x, rep, fits, rfl⟩ := Fp.isFinite_iff.mp isRate.finite
  obtain ⟨s, repS, fitsS, rfl⟩ := Fp.isFinite_iff.mp finite
  have productNonneg : 0 ≤ x * s := mul_nonneg (by linarith [show 1 ≤ x from isRate.atLeastOne]) positive
  have nonneg : 0 ≤ FpFormat.binary64.round (x * s) := FpFormat.round_nonneg productNonneg
  rw [Fp.finite_mul_finite, Fp.toRat_finite, Fp.toRat_finite]
  by_cases overflows : FpFormat.binary64.maxFinite < |FpFormat.binary64.round (x * s)|
  -- an overflow is a positive infinity, saturated to the greatest finite value
  · have negative : ¬ x * s < 0 := not_lt.mpr productNonneg
    have overflowsAt : FpFormat.binary64.maxFinite < FpFormat.binary64.round (x * s) := by
      rwa [abs_of_nonneg nonneg] at overflows
    rw [Fp.ofRat, dif_pos overflows, decide_eq_false negative, min_eq_right overflowsAt.le]
    exact ⟨rfl, rfl⟩
  · rw [Fp.ofRat_of_round_le (not_lt.mp overflows), saturating_f64_math_of_is_finite Fp.isFinite_finite,
      Fp.toRat_finite, min_eq_left (by rwa [not_lt, abs_of_nonneg nonneg] at overflows)]
    exact ⟨rfl, rfl⟩

theorem scale_ordered {estimate : FeeRateEstimate F64} (ordered : Ordered estimate) {factor : F64}
    (finite : factor.isFinite) (least : 2 ^ FpFormat.binary64.emin ≤ factor.toRat) :
    (scale estimate factor).low.isFinite ∧ (scale estimate factor).middle.isFinite ∧
      (scale estimate factor).high.isFinite ∧ Fp.zero < (scale estimate factor).low ∧
      (scale estimate factor).low ≤ (scale estimate factor).middle ∧
      (scale estimate factor).middle ≤ (scale estimate factor).high := by
  have positive : 0 ≤ factor.toRat := le_trans (by positivity) least
  obtain ⟨lowFinite, lowValue⟩ := saturating_mul ordered.lowRate finite positive
  obtain ⟨middleFinite, middleValue⟩ := saturating_mul ordered.middleRate finite positive
  obtain ⟨highFinite, highValue⟩ := saturating_mul ordered.highRate finite positive
  have lowAtLeast := ordered.lowRate.atLeastOne
  simp only [scale_high, scale_middle, scale_low]
  refine ⟨lowFinite, middleFinite, highFinite, ?_, ?_, ?_⟩
  -- the low product is at least the factor, whose rounding is at least `2 ^ emin`
  · rw [Fp.lt_iff_toRat rfl lowFinite]
    show 0 < (saturatingF64Math (estimate.low * factor)).toRat
    rw [lowValue]
    have product : 2 ^ FpFormat.binary64.emin ≤ estimate.low.toRat * factor.toRat :=
      least.trans (le_mul_of_one_le_left positive lowAtLeast)
    have rounded := FpFormat.le_round_of_le (by positivity) product (FpFormat.representable_two_zpow le_rfl)
    exact lt_min (lt_of_lt_of_le (by positivity) rounded)
      (lt_of_lt_of_le (by norm_num) F64.two_pow_le_maxFinite)
  · rw [Fp.le_iff_toRat lowFinite middleFinite]
    rw [lowValue, middleValue]
    exact min_le_min_right _ (FpFormat.round_mono (by nlinarith) (mul_le_mul_of_nonneg_right ordered.lowMiddle positive))
  · rw [Fp.le_iff_toRat middleFinite highFinite]
    rw [middleValue, highValue]
    exact min_le_min_right _ (FpFormat.round_mono (by nlinarith [ordered.lowMiddle])
      (mul_le_mul_of_nonneg_right ordered.middleHigh positive))

theorem saturating_mul_one {rate : F64} (isRate : IsRate rate) : saturatingF64Math (rate * Fp.one) = rate := by
  obtain ⟨x, rep, fits, rfl⟩ := Fp.isFinite_iff.mp isRate.finite
  rw [F64.one_eq_finite, Fp.finite_mul_finite, mul_one, Fp.ofRat_eq_finite rep fits,
    saturating_f64_math_of_is_finite Fp.isFinite_finite]

theorem scale_one {estimate : FeeRateEstimate F64} (ordered : Ordered estimate) : scale estimate Fp.one = estimate := by
  rw [scale, saturating_mul_one ordered.highRate, saturating_mul_one ordered.middleRate,
    saturating_mul_one ordered.lowRate]

/-- For a fraction `0 ≤ f < 1`, a factor between `1 - f` and `1 + f` rounds to
a finite datum between the rounded ends, and at least `2 ^ emin`. -/
theorem fuzz_factor_between {fraction : F64} (finite : fraction.isFinite) (nonneg : 0 ≤ fraction.toRat)
    (belowOne : fraction.toRat < 1) {x : ℚ} (above : 1 - fraction.toRat ≤ x) (below : x ≤ 1 + fraction.toRat) :
    Fp.one - fraction ≤ Fp.ofRat x ∧ Fp.ofRat x ≤ Fp.one + fraction ∧ (Fp.ofRat x : F64).isFinite ∧
      2 ^ FpFormat.binary64.emin ≤ (Fp.ofRat x : F64).toRat := by
  obtain ⟨φ, rep, fits, rfl⟩ := Fp.isFinite_iff.mp finite
  rw [Fp.toRat_finite] at nonneg belowOne above below
  -- `1 - f` is at least the least positive datum, and `1 + f` rounds to at most 2
  have least : (2 : ℚ) ^ FpFormat.binary64.emin ≤ 1 - φ := by linarith [rep.le_one_sub belowOne]
  have representableTwo : FpFormat.binary64.Representable 2 := by
    have power := @FpFormat.representable_two_zpow FpFormat.binary64 1 (by decide)
    rwa [zpow_one] at power
  have upperFits : |FpFormat.binary64.round (1 + φ)| ≤ FpFormat.binary64.maxFinite := by
    have rounded : FpFormat.binary64.round (1 + φ) ≤ 2 :=
      FpFormat.round_le_of_le (by linarith) (by linarith) representableTwo
    rw [abs_of_nonneg (FpFormat.round_nonneg (by linarith))]
    exact rounded.trans (le_trans (by norm_num) F64.two_pow_le_maxFinite)
  have xFits : |FpFormat.binary64.round x| ≤ FpFormat.binary64.maxFinite := by
    rw [abs_of_nonneg (FpFormat.round_nonneg (by linarith))]
    exact (FpFormat.round_mono (by linarith) below).trans ((le_abs_self _).trans upperFits)
  rw [F64.one_eq_finite, Fp.finite_sub_finite, Fp.finite_add_finite]
  refine ⟨Fp.ofRat_le_ofRat (by linarith) above xFits, Fp.ofRat_le_ofRat (by linarith) below upperFits, ?_, ?_⟩
  · rw [Fp.ofRat_of_round_le xFits]
    rfl
  · rw [Fp.ofRat_of_round_le xFits, Fp.toRat_finite]
    exact FpFormat.le_round_of_le (by positivity) (least.trans above) (FpFormat.representable_two_zpow le_rfl)

/-- `fuzz_estimate` on estimates of rates: with a fraction `f` that `new`
accepted and a draw in `[-f, f)`, it multiplies each rate by one finite factor,
the rounded `1 + u`, between the rounded `1 - f` and `1 + f`; with `f = 0` the
factor is 1. -/
theorem fuzz_estimate_scaled {fuzzer : FeeRateFuzzer σ}
    (within : Fp.zero ≤ fuzzer.uniformFuzzFraction ∧ fuzzer.uniformFuzzFraction < Fp.one) {uniform : F64}
    (drawn : Fp.zero < fuzzer.uniformFuzzFraction →
      -fuzzer.uniformFuzzFraction ≤ uniform ∧ uniform < fuzzer.uniformFuzzFraction) :
    ∃ factor, Fp.one - fuzzer.uniformFuzzFraction ≤ factor ∧ factor ≤ Fp.one + fuzzer.uniformFuzzFraction ∧
      factor.isFinite ∧ 2 ^ FpFormat.binary64.emin ≤ factor.toRat ∧
      ∀ estimate, Ordered estimate → fuzzer.fuzzEstimate uniform estimate = scale estimate factor := by
  obtain ⟨underlying, fraction⟩ := fuzzer
  obtain ⟨atLeastZero, belowOne⟩ := within
  have finite : fraction.isFinite := Fp.isFinite_of_between rfl isRate_one.finite atLeastZero belowOne
  have nonneg : 0 ≤ fraction.toRat := (Fp.le_iff_toRat rfl finite).mp atLeastZero
  have underOne : fraction.toRat < 1 := by
    have below := (Fp.lt_iff_toRat finite isRate_one.finite).mp belowOne
    rwa [F64.one_eq_finite] at below
  by_cases fuzzed : fraction > Fp.zero
  -- the draw `u` lies in `[-f, f)`, so the factor `1 + u` is the rounded `1 + u`
  · obtain ⟨above, under⟩ := drawn fuzzed
    obtain ⟨φ, rep, fits, rfl⟩ := Fp.isFinite_iff.mp finite
    obtain ⟨v, repV, fitsV, rfl⟩ := Fp.isFinite_iff.mp (Fp.isFinite_of_between rfl rfl above under)
    have lower : -φ ≤ v := (Fp.le_iff_toRat rfl rfl).mp above
    have upper : v < φ := (Fp.lt_iff_toRat rfl rfl).mp under
    have sum : (Fp.one + .finite v repV fitsV : F64) = Fp.ofRat (1 + v) := by
      rw [F64.one_eq_finite, Fp.finite_add_finite]
    have aboveFactor : 1 - (Fp.finite φ rep fits : F64).toRat ≤ 1 + v := by
      rw [Fp.toRat_finite]
      linarith
    have belowFactor : 1 + v ≤ 1 + (Fp.finite φ rep fits : F64).toRat := by
      rw [Fp.toRat_finite]
      linarith
    obtain ⟨lowerFactor, upperFactor, finiteFactor, least⟩ :=
      fuzz_factor_between finite nonneg underOne aboveFactor belowFactor
    refine ⟨Fp.ofRat (1 + v), lowerFactor, upperFactor, finiteFactor, least, fun estimate _ => ?_⟩
    rw [FeeRateFuzzer.fuzzEstimate, if_pos fuzzed, sum]
  -- with `f = 0` the estimate passes unchanged, which is a factor of 1
  · have zero : fraction.toRat = 0 := le_antisymm (not_lt.mp fun positive =>
      fuzzed ((Fp.lt_iff_toRat rfl finite).mpr positive)) nonneg
    have lowerEnd : 1 - fraction.toRat ≤ (1 : ℚ) := by linarith
    have upperEnd : (1 : ℚ) ≤ 1 + fraction.toRat := by linarith
    obtain ⟨lowerFactor, upperFactor, finiteFactor, least⟩ :=
      fuzz_factor_between finite nonneg underOne lowerEnd upperEnd
    refine ⟨Fp.one, lowerFactor, upperFactor, finiteFactor, least, fun estimate ordered => ?_⟩
    rw [FeeRateFuzzer.fuzzEstimate, if_neg fuzzed, scale_one ordered]

end Fuzzer

end Hyperchains.FeeScalar
