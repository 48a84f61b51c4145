import Hyperchains.FeeMedians
import Hyperchains.Library.Float
import Hyperchains.Library.OrderStatistics

/-! The scalar fee rate estimator (`cost_estimates/fee_scalar.rs`) and the
fuzzer that wraps a fee estimator (`cost_estimates/fee_rate_fuzzer.rs`). The
scalar estimator turns each transaction of a block into an `f64` fee rate,
sorts the block's rates with `partial_cmp`, takes the rates at the 5th, 50th
and 95th percentile, and folds them into its one stored estimate by
exponential decay. The fuzzer scales each estimate of the estimator it wraps by
one random factor near 1.

The arithmetic is `f64` (`Library.Float`): each operation rounds to nearest,
and the `Mul<f64>` and `Add` of `FeeRateEstimate` pass each rate through
`saturating_f64_math`. The sort is `OrderStatistics.sortBy`, which fails where
a comparison has no order, as `partial_cmp().expect` panics. The one-row table
`scalar_fee_estimator` is an `Option`; its SQLite errors are left out. The
fuzzer's draw from `Uniform::new(-f, f)` is an argument of
`get_rate_estimates`. -/

namespace Hyperchains.FeeScalar
open Hyperchains.FeeMedians

variable {Cost : Type}

/-- `saturating_f64_math`: an infinity becomes the extreme finite value of its
sign, and NaN becomes 1. -/
def saturatingF64Math (res : F64) : F64 :=
  if res.isFinite then res
  else if res.isInfinite && res.isSignPositive then Fp.maxValue
  else if res.isInfinite && res.isSignNegative then -Fp.maxValue
  else Fp.one

/-- `impl Mul<f64> for FeeRateEstimate`. -/
def scale (estimate : FeeRateEstimate F64) (rhs : F64) : FeeRateEstimate F64 :=
  ⟨saturatingF64Math (estimate.high * rhs), saturatingF64Math (estimate.middle * rhs),
    saturatingF64Math (estimate.low * rhs)⟩

/-- `impl Add for FeeRateEstimate`. -/
def add (estimate rhs : FeeRateEstimate F64) : FeeRateEstimate F64 :=
  ⟨saturatingF64Math (estimate.high + rhs.high), saturatingF64Math (estimate.middle + rhs.middle),
    saturatingF64Math (estimate.low + rhs.low)⟩

/-- A `FeeEstimator`: its `notify_block` and `get_rate_estimates`. -/
structure FeeEstimator (σ α Cost : Type) where
  notifyBlock : σ → List (StacksTransactionReceipt Cost) → Cost → Except String σ
  getRateEstimates : σ → Except EstimatorError (FeeRateEstimate α)

/-! ## The scalar estimator -/

structure ScalarFeeRateEstimator (Cost : Type) where
  /-- The row `SINGLETON_ROW_ID` of `scalar_fee_estimator`. -/
  db : Option (FeeRateEstimate F64)
  decayRate : F64
  metric : CostMetric Cost

/-- `0.5_f64`, the decay rate of `open`. -/
def half : F64 := Fp.ofRat (1 / 2)

/-- `open` on a new database. -/
def ScalarFeeRateEstimator.open (metric : CostMetric Cost) : ScalarFeeRateEstimator Cost :=
  ⟨none, half, metric⟩

def ScalarFeeRateEstimator.getRateEstimates (self : ScalarFeeRateEstimator Cost) :
    Except EstimatorError (FeeRateEstimate F64) :=
  match self.db with
  | some estimate => .ok estimate
  | none => .error .noEstimateAvailable

/-- The saturation of `update_estimate` on the low end at a rate of 1. -/
def saturate (rate : F64) : F64 := if rate ≥ Fp.one then rate else Fp.one

def ScalarFeeRateEstimator.updateEstimate (self : ScalarFeeRateEstimator Cost) (newMeasure : FeeRateEstimate F64) :
    ScalarFeeRateEstimator Cost :=
  let nextEstimate := match self.getRateEstimates with
    | .ok oldEstimate =>
        -- estimate = (a/b * old_estimate) + ((1 - a/b) * new_estimate)
        let priorComponent := scale oldEstimate self.decayRate
        let nextComponent := scale newMeasure (Fp.one - self.decayRate)
        let nextComputed := add priorComponent nextComponent
        ⟨saturate nextComputed.high, saturate nextComputed.middle, saturate nextComputed.low⟩
    | .error .noEstimateAvailable => newMeasure
  { self with db := some nextEstimate }

/-- The fee rate of a receipt in `notify_block`: burns and coinbases have none,
a token transfer's cost is its length alone, and a rate below 1 or not finite
counts as 1. -/
def feeRateFromReceipt (metric : CostMetric Cost) (blockLimit : Cost) (txReceipt : StacksTransactionReceipt Cost) :
    Option F64 :=
  match txReceipt.transaction with
  | .burn => none
  | .stacks payload fee txSize =>
      let scalarCost := match payload with
        | .tokenTransfer => some (metric.fromLen txSize)
        | .coinbase => none
        | .poisonMicroblock | .contractCall | .smartContract =>
            some (metric.fromCostAndLen txReceipt.executionCost blockLimit txSize)
      scalarCost.map fun scalarCost =>
        let feeRate := Fp.ofNat fee / if scalarCost ≥ 1 then Fp.ofNat scalarCost else Fp.one
        if feeRate ≥ Fp.one ∧ feeRate.isFinite then feeRate else Fp.one

/-- The comparison of the sort: `a.partial_cmp(b).expect(..)`. -/
def expectPartialCmp (a b : F64) : Except String Ordering :=
  match a.partialCmp b with
  | some ordering => .ok ordering
  | none => .error "BUG: Fee rates should be orderable: NaN and infinite values are filtered"

/-- The block's `all_fee_rates`, sorted. -/
def allFeeRates (metric : CostMetric Cost) (blockLimit : Cost) (txReceipts : List (StacksTransactionReceipt Cost)) :
    Except String (List F64) :=
  OrderStatistics.sortBy expectPartialCmp (txReceipts.filterMap (feeRateFromReceipt metric blockLimit))

/-- `all_fee_rates[index]`. -/
def rateAt {α : Type} (allFeeRates : List α) (index : Nat) : Except String α :=
  match allFeeRates[index]? with
  | some rate => .ok rate
  | none => .error "index out of bounds"

/-- The `block_estimate` of the sorted rates of a block that has some. -/
def blockEstimate {α : Type} (allFeeRates : List α) : Except String (FeeRateEstimate α) := do
  let measuresLen := allFeeRates.length
  -- use 5th, 50th, and 95th percentiles from block
  let highestIndex := measuresLen - max 1 (measuresLen / 20)
  let medianIndex := measuresLen / 2
  let lowestIndex := measuresLen / 20
  let high ← rateAt allFeeRates highestIndex
  let middle ← rateAt allFeeRates medianIndex
  let low ← rateAt allFeeRates lowestIndex
  pure ⟨high, middle, low⟩

def ScalarFeeRateEstimator.notifyBlock (self : ScalarFeeRateEstimator Cost)
    (txReceipts : List (StacksTransactionReceipt Cost)) (blockLimit : Cost) :
    Except String (ScalarFeeRateEstimator Cost) := do
  let allFeeRates ← allFeeRates self.metric blockLimit txReceipts
  if allFeeRates.length > 0 then
    let blockEstimate ← blockEstimate allFeeRates
    pure (self.updateEstimate blockEstimate)
  else pure self

def scalarFeeEstimator : FeeEstimator (ScalarFeeRateEstimator Cost) F64 Cost :=
  ⟨ScalarFeeRateEstimator.notifyBlock, ScalarFeeRateEstimator.getRateEstimates⟩

def weightedMedianFeeEstimator {α : Type} [Field α] [LinearOrder α] [IsStrictOrderedRing α] :
    FeeEstimator (WeightedMedianFeeRateEstimator α Cost) α Cost :=
  ⟨WeightedMedianFeeRateEstimator.notifyBlock, WeightedMedianFeeRateEstimator.getRateEstimates⟩

/-! ## The fuzzer -/

structure FeeRateFuzzer (σ : Type) where
  underlying : σ
  uniformFuzzFraction : F64

/-- `new`: the fraction must lie in `[0, 1)`. -/
def FeeRateFuzzer.new {σ : Type} (underlying : σ) (uniformFuzzFraction : F64) : Except String (FeeRateFuzzer σ) :=
  if Fp.zero ≤ uniformFuzzFraction ∧ uniformFuzzFraction < Fp.one then .ok ⟨underlying, uniformFuzzFraction⟩
  else .error "assertion failed: 0.0 <= uniform_fuzz_fraction && uniform_fuzz_fraction < 1.0"

/-- `fuzz_estimate` with the number `uniform.sample(&mut rng)` drew. -/
def FeeRateFuzzer.fuzzEstimate {σ : Type} (self : FeeRateFuzzer σ) (uniform : F64) (input : FeeRateEstimate F64) :
    FeeRateEstimate F64 :=
  if self.uniformFuzzFraction > Fp.zero then
    let fuzzScale := Fp.one + uniform
    scale input fuzzScale
  else input

def FeeRateFuzzer.notifyBlock {σ : Type} (estimator : FeeEstimator σ F64 Cost) (self : FeeRateFuzzer σ)
    (receipt : List (StacksTransactionReceipt Cost)) (blockLimit : Cost) : Except String (FeeRateFuzzer σ) := do
  let underlying ← estimator.notifyBlock self.underlying receipt blockLimit
  pure { self with underlying }

def FeeRateFuzzer.getRateEstimates {σ : Type} (estimator : FeeEstimator σ F64 Cost) (self : FeeRateFuzzer σ)
    (uniform : F64) : Except EstimatorError (FeeRateEstimate F64) := do
  let underlyingEstimate ← estimator.getRateEstimates self.underlying
  pure (self.fuzzEstimate uniform underlyingEstimate)

/-- `impl FeeEstimator for FeeRateFuzzer`, with the number the draw of
`get_rate_estimates` gives. -/
def fuzzedFeeEstimator {σ : Type} (estimator : FeeEstimator σ F64 Cost) (uniform : F64) :
    FeeEstimator (FeeRateFuzzer σ) F64 Cost :=
  ⟨FeeRateFuzzer.notifyBlock estimator, fun self => self.getRateEstimates estimator uniform⟩

end Hyperchains.FeeScalar
