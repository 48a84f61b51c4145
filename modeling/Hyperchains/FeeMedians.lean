import Mathlib

/-! The weighted-median fee rate estimator (`cost_estimates/fee_medians.rs`).
Each block's transactions give fee rates weighted by their scalar cost; the
block is padded with the minimum rate up to a full block, and the rates at the
weighted percentiles 5, 50 and 95 are stored as one row of `(low, middle,
high)`. An estimate is the median of the stored lows, of the middles and of the
highs of the last `window_size` rows, each taken separately.

The source computes in `f64`; here the rates are in an ordered field, so the
arithmetic is exact and no rate is infinite. The cost metric is a parameter,
and a receipt is what the estimator reads of it: the payload's kind, the fee,
the length and the execution cost. Panics are `Except String`. -/

namespace Hyperchains.FeeMedians

/-- The payload kinds of `TransactionPayload`, which is all the estimator reads
of a payload. -/
inductive PayloadKind where
  | tokenTransfer
  | smartContract
  | contractCall
  | poisonMicroblock
  | coinbase
  deriving DecidableEq, Repr

inductive TransactionOrigin where
  | stacks (payload : PayloadKind) (fee txLen : Nat)
  | burn
  deriving DecidableEq, Repr

structure StacksTransactionReceipt (Cost : Type) where
  transaction : TransactionOrigin
  executionCost : Cost

/-- `CostMetric`: a transaction's cost against the block limit as one number. -/
structure CostMetric (Cost : Type) where
  fromCostAndLen : Cost → Cost → Nat → Nat
  fromLen : Nat → Nat

structure FeeRateAndWeight (α : Type) where
  feeRate : α
  weight : Nat
  deriving DecidableEq, Repr

structure FeeRateEstimate (α : Type) where
  high : α
  middle : α
  low : α
  deriving DecidableEq, Repr

inductive EstimatorError where
  | noEstimateAvailable
  deriving DecidableEq, Repr

/-- `metrics::PROPORTION_RESOLUTION`, the weight of a full block. -/
def proportionResolution : Nat := 10000

variable {α : Type} [Field α] [LinearOrder α] [IsStrictOrderedRing α]

def minimumTxFeeRate : α := 1

/-! ## One block -/

/-- The sum `total_weight` of the weights. -/
def totalWeight (sortedFeeRates : List (FeeRateAndWeight α)) : α :=
  (sortedFeeRates.map fun rateAndWeight => (rateAndWeight.weight : α)).sum

/-- The loop of the percentiles: each rate sits at the middle of its weight in
the cumulative weight. -/
def percentilesFrom (totalWeight : α) : α → List (FeeRateAndWeight α) → List α
  | _, [] => []
  | cumulativeWeight, rateAndWeight :: rest =>
      let cumulativeWeight := cumulativeWeight + rateAndWeight.weight
      (cumulativeWeight - (rateAndWeight.weight : α) / 2) / totalWeight ::
        percentilesFrom totalWeight cumulativeWeight rest

/-- The `while` loop: from the percentiles left, move `fees_index` past those
below the target. -/
def advance (targetPercentile : α) : List α → Nat → Nat
  | [], feesIndex => feesIndex
  | percentile :: rest, feesIndex =>
      if percentile < targetPercentile then advance targetPercentile rest (feesIndex + 1) else feesIndex

def rateAt (sortedFeeRates : List (FeeRateAndWeight α)) (index : Nat) : α :=
  (sortedFeeRates.getD index ⟨0, 0⟩).feeRate

/-- The value at a target: the first or last rate off the ends, else the
interpolation between the rates around the target. -/
def valueAt (sortedFeeRates : List (FeeRateAndWeight α)) (percentiles : List α) (targetPercentile : α)
    (feesIndex : Nat) : α :=
  if feesIndex = 0 then rateAt sortedFeeRates 0
  else if feesIndex = percentiles.length then rateAt sortedFeeRates (sortedFeeRates.length - 1)
  else
    let vk := rateAt sortedFeeRates (feesIndex - 1)
    let vk1 := rateAt sortedFeeRates feesIndex
    let pk := percentiles.getD (feesIndex - 1) 0
    let pk1 := percentiles.getD feesIndex 0
    vk + (targetPercentile - pk) / (pk1 - pk) * (vk1 - vk)

/-- The loop over the targets, `fees_index` carried from one to the next. -/
def valuesAtTargetPercentiles (sortedFeeRates : List (FeeRateAndWeight α)) (percentiles : List α) :
    List α → Nat → List α
  | [], _ => []
  | targetPercentile :: rest, feesIndex =>
      let feesIndex := advance targetPercentile (percentiles.drop feesIndex) feesIndex
      valueAt sortedFeeRates percentiles targetPercentile feesIndex ::
        valuesAtTargetPercentiles sortedFeeRates percentiles rest feesIndex

/-- `[0.05, 0.5, 0.95]`. -/
def targetPercentiles : List α := [1 / 20, 1 / 2, 19 / 20]

def feeRateEstimateFromSortedWeightedFees (sortedFeeRates : List (FeeRateAndWeight α)) :
    Except String (FeeRateEstimate α) :=
  if sortedFeeRates.isEmpty then .error "assertion failed: !sorted_fee_rates.is_empty()"
  else if ¬ totalWeight sortedFeeRates > 0 then .error "assertion failed: total_weight > 0f64"
  else
    let percentiles := percentilesFrom (totalWeight sortedFeeRates) 0 sortedFeeRates
    if percentiles.length ≠ sortedFeeRates.length then
      .error "assertion failed: percentiles.len() == sorted_fee_rates.len()"
    else
      let values := valuesAtTargetPercentiles sortedFeeRates percentiles targetPercentiles 0
      .ok ⟨values.getD 2 0, values.getD 1 0, values.getD 0 0⟩

/-- The `u64` sum of the weights from `totalWeight` on, or none when it overflows. -/
def checkedTotal : List (FeeRateAndWeight α) → Nat → Option Nat
  | [], totalWeight => some totalWeight
  | rateAndWeight :: rest, totalWeight =>
      if totalWeight + rateAndWeight.weight < 2 ^ 64 then checkedTotal rest (totalWeight + rateAndWeight.weight)
      else none

/-- `maybe_add_minimum_fee_rate`: pad the block with the minimum rate up to a
full block, unless the sum of the weights overflows. -/
def maybeAddMinimumFeeRate (workingRates : List (FeeRateAndWeight α)) (fullBlockWeight : Nat) :
    List (FeeRateAndWeight α) :=
  match checkedTotal workingRates 0 with
  | none => workingRates
  | some totalWeight =>
      if totalWeight < fullBlockWeight then
        workingRates ++ [⟨minimumTxFeeRate, fullBlockWeight - totalWeight⟩]
      else workingRates

/-- `fee_rate_and_weight_from_receipt`: burns and coinbases have no rate; a
rate below the minimum counts as the minimum. -/
def feeRateAndWeightFromReceipt {Cost : Type} (metric : CostMetric Cost) (blockLimit : Cost)
    (txReceipt : StacksTransactionReceipt Cost) : Option (FeeRateAndWeight α) :=
  match txReceipt.transaction with
  | .burn => none
  | .stacks payload fee txSize =>
      let scalarCost := match payload with
        | .tokenTransfer => some (metric.fromLen txSize)
        | .coinbase => none
        | .poisonMicroblock | .contractCall | .smartContract =>
            some (metric.fromCostAndLen txReceipt.executionCost blockLimit txSize)
      scalarCost.map fun scalarCost =>
        let denominator : α := (max scalarCost 1 : Nat)
        let feeRate := (fee : α) / denominator
        let effectiveFeeRate := if feeRate < minimumTxFeeRate then minimumTxFeeRate else feeRate
        ⟨effectiveFeeRate, scalarCost⟩

/-! ## The table -/

/-- The `median_fee_estimator` table: its rows with their `measure_key`, in
insertion order, and the last key `AUTOINCREMENT` gave out. -/
structure MedianFeeTable (α : Type) where
  rows : List (Nat × FeeRateEstimate α)
  lastKey : Nat

structure WeightedMedianFeeRateEstimator (α Cost : Type) where
  db : MedianFeeTable α
  windowSize : Nat
  fullBlockWeight : Nat
  metric : CostMetric Cost

/-- `open` on a new database: an empty table, a full block of
`PROPORTION_RESOLUTION`. -/
def WeightedMedianFeeRateEstimator.open {Cost : Type} (metric : CostMetric Cost) (windowSize : Nat) :
    WeightedMedianFeeRateEstimator α Cost :=
  ⟨⟨[], 0⟩, windowSize, proportionResolution, metric⟩

/-- The `median` of a sorted list. -/
def median (len : Nat) (l : List α) : α :=
  if len % 2 = 1 then l.getD (len / 2) 0
  else (l.getD (len / 2) 0 + l.getD (len / 2 - 1) 0) / 2

/-- `get_rate_estimates_from_sql`: the rows of the `window_size` largest keys,
and the medians of their highs, middles and lows. -/
def getRateEstimatesFromSql (table : MedianFeeTable α) (windowSize : Nat) :
    Except EstimatorError (FeeRateEstimate α) :=
  let results := (table.rows.mergeSort fun first second => second.1 ≤ first.1).take windowSize
  let highs := results.map (·.2.high)
  let mids := results.map (·.2.middle)
  let lows := results.map (·.2.low)
  if highs.isEmpty || mids.isEmpty || lows.isEmpty then .error .noEstimateAvailable
  else
    let highs := highs.mergeSort (· ≤ ·)
    let mids := mids.mergeSort (· ≤ ·)
    let lows := lows.mergeSort (· ≤ ·)
    .ok ⟨median highs.length highs, median mids.length mids, median lows.length lows⟩

/-- `update_estimate`: insert the new row, then delete those at or below the
largest key less the window. -/
def updateEstimate (table : MedianFeeTable α) (windowSize : Nat) (newMeasure : FeeRateEstimate α) :
    MedianFeeTable α :=
  let key := table.lastKey + 1
  let rows := table.rows ++ [(key, newMeasure)]
  let maxKey := rows.foldl (fun largest row => max largest row.1) 0
  ⟨rows.filter fun row => ¬ row.1 + windowSize ≤ maxKey, key⟩

/-- `notify_block`: the estimator after a block, or the panic of an assertion. -/
def WeightedMedianFeeRateEstimator.notifyBlock {Cost : Type} (estimator : WeightedMedianFeeRateEstimator α Cost)
    (txReceipts : List (StacksTransactionReceipt Cost)) (blockLimit : Cost) :
    Except String (WeightedMedianFeeRateEstimator α Cost) := do
  let workingFeeRates := txReceipts.filterMap (feeRateAndWeightFromReceipt estimator.metric blockLimit)
  let workingFeeRates := maybeAddMinimumFeeRate workingFeeRates estimator.fullBlockWeight
  if workingFeeRates.length > 0 then
    let workingFeeRates := workingFeeRates.mergeSort fun first second => first.feeRate ≤ second.feeRate
    let blockEstimate ← feeRateEstimateFromSortedWeightedFees workingFeeRates
    pure { estimator with db := updateEstimate estimator.db estimator.windowSize blockEstimate }
  else pure estimator

def WeightedMedianFeeRateEstimator.getRateEstimates {Cost : Type}
    (estimator : WeightedMedianFeeRateEstimator α Cost) : Except EstimatorError (FeeRateEstimate α) :=
  getRateEstimatesFromSql estimator.db estimator.windowSize

/-- The estimator after `notify_block` of each block in turn, or the first panic. -/
def notifyBlocks {Cost : Type} (estimator : WeightedMedianFeeRateEstimator α Cost) :
    List (List (StacksTransactionReceipt Cost) × Cost) → Except String (WeightedMedianFeeRateEstimator α Cost)
  | [] => .ok estimator
  | (txReceipts, blockLimit) :: blocks => do
      let estimator ← estimator.notifyBlock txReceipts blockLimit
      notifyBlocks estimator blocks

end Hyperchains.FeeMedians
