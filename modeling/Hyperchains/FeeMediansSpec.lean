import Hyperchains.FeeMedians
import Hyperchains.Library.OrderStatistics

/-! The estimates are ordered and bounded. Within a block, the `while` loop
leaves each target between the percentiles around its index, so each value
lies between the rates at that index, and the index only grows from one
target to the next: the low, middle and high values are in order and between
the first and last rate. Over the window, every stored row is in order and at
least the minimum rate, and sorting the lows, the middles and the highs keeps
them in order entry by entry, so their medians are in order too. -/

namespace Hyperchains.FeeMedians

variable {α : Type} [Field α] [LinearOrder α] [IsStrictOrderedRing α]

/-! ## One block -/

section Percentiles

omit [LinearOrder α] [IsStrictOrderedRing α] in
theorem length_percentiles_from (total : α) :
    ∀ (cumulative : α) (rates : List (FeeRateAndWeight α)), (percentilesFrom total cumulative rates).length = rates.length
  | _, [] => rfl
  | cumulative, _ :: rest => by
      simp [percentilesFrom, length_percentiles_from total _ rest]

/-- Where the `while` loop leaves `feesIndex` for a target: in range, at a
percentile no lower than the target unless at the end, and past one below it
unless at the start. -/
def Placed (percentiles : List α) (target : α) (feesIndex : Nat) : Prop :=
  feesIndex ≤ percentiles.length ∧ (feesIndex < percentiles.length → target ≤ percentiles.getD feesIndex 0) ∧
    (0 < feesIndex → percentiles.getD (feesIndex - 1) 0 < target)

omit [IsStrictOrderedRing α] in
/-- The loop from an index left for an earlier target. The induction is on the
percentiles left, the invariant that the one before the index is below the
target. -/
theorem advance_placed (percentiles : List α) {previous target : α} (later : previous ≤ target) :
    ∀ (rest : List α) (start : Nat), percentiles.drop start = rest → start ≤ percentiles.length →
      (0 < start → percentiles.getD (start - 1) 0 < previous) →
      start ≤ advance target rest start ∧ Placed percentiles target (advance target rest start)
  | [], start, dropped, inRange, below => by
      simp only [advance]
      have atEnd : percentiles.length ≤ start := List.drop_eq_nil_iff.mp dropped
      refine ⟨le_rfl, inRange, fun inside => absurd inside (by omega), fun positive => ?_⟩
      exact lt_of_lt_of_le (below positive) later
  | percentile :: rest, start, dropped, inRange, below => by
      have atStart : percentiles.getD start 0 = percentile := by
        have first := congrArg (·[0]?) dropped
        simp only [List.getElem?_drop, Nat.add_zero, List.getElem?_cons_zero] at first
        simp [List.getD_eq_getElem?_getD, first]
      have inside : start < percentiles.length := by
        by_contra outside
        rw [List.drop_eq_nil_of_le (by omega)] at dropped
        cases dropped
      simp only [advance]
      split
      · rename_i under
        have droppedNext : percentiles.drop (start + 1) = rest := by
          rw [← List.drop_drop, dropped, List.drop_one, List.tail_cons]
        obtain ⟨moved, placed⟩ := advance_placed percentiles (show target ≤ target from le_rfl) rest (start + 1)
          droppedNext inside fun _ => by rw [Nat.add_sub_cancel, atStart]; exact under
        exact ⟨by omega, placed⟩
      · rename_i notUnder
        refine ⟨le_rfl, inRange, fun _ => by rw [atStart]; exact le_of_not_gt notUnder, fun positive => ?_⟩
        exact lt_of_lt_of_le (below positive) later

end Percentiles

section Values
variable {sortedFeeRates : List (FeeRateAndWeight α)} {percentiles : List α}

omit [IsStrictOrderedRing α] in
theorem rate_at_mono (sorted : sortedFeeRates.Pairwise fun first second => first.feeRate ≤ second.feeRate)
    {i i' : Nat} (ordered : i ≤ i') (inside : i' < sortedFeeRates.length) :
    rateAt sortedFeeRates i ≤ rateAt sortedFeeRates i' := by
  rcases Nat.lt_or_eq_of_le ordered with before | same
  · have pair := List.pairwise_iff_getElem.mp sorted i i' (by omega) inside before
    simpa [rateAt, List.getD_eq_getElem?_getD, List.getElem?_eq_getElem inside,
      List.getElem?_eq_getElem (show i < sortedFeeRates.length by omega)] using pair
  · rw [same]

/-- The value at a placed index lies between the rate before the index and the
rate at it, the ends standing for themselves. -/
theorem value_at_between (sorted : sortedFeeRates.Pairwise fun first second => first.feeRate ≤ second.feeRate)
    (sized : percentiles.length = sortedFeeRates.length) {target : α} {feesIndex : Nat}
    (placed : Placed percentiles target feesIndex) :
    rateAt sortedFeeRates (feesIndex - 1) ≤ valueAt sortedFeeRates percentiles target feesIndex ∧
      valueAt sortedFeeRates percentiles target feesIndex ≤
        rateAt sortedFeeRates (min feesIndex (sortedFeeRates.length - 1)) := by
  obtain ⟨inRange, atIndex, beforeIndex⟩ := placed
  unfold valueAt
  split_ifs with first last
  · subst first
    simp
  · rw [last, sized, min_eq_right (by omega)]
    exact ⟨le_rfl, le_rfl⟩
  · -- inside, the target sits strictly above the percentile before and at most at the one at the index
    have inside : feesIndex < sortedFeeRates.length := by omega
    have lower := beforeIndex (by omega)
    have upper := atIndex (by omega)
    have gap : 0 < percentiles.getD feesIndex 0 - percentiles.getD (feesIndex - 1) 0 := by linarith
    have rise := rate_at_mono sorted (Nat.sub_le feesIndex 1) inside
    have share : 0 ≤ (target - percentiles.getD (feesIndex - 1) 0) /
        (percentiles.getD feesIndex 0 - percentiles.getD (feesIndex - 1) 0) :=
      div_nonneg (by linarith) (le_of_lt gap)
    have atMostOne : (target - percentiles.getD (feesIndex - 1) 0) /
        (percentiles.getD feesIndex 0 - percentiles.getD (feesIndex - 1) 0) ≤ 1 :=
      (div_le_one gap).mpr (by linarith)
    rw [min_eq_left (by omega)]
    constructor
    · nlinarith
    · nlinarith

theorem value_at_mono_target {target target' : α} (later : target ≤ target') {feesIndex : Nat}
    (sorted : sortedFeeRates.Pairwise fun first second => first.feeRate ≤ second.feeRate)
    (sized : percentiles.length = sortedFeeRates.length) (placed : Placed percentiles target feesIndex) :
    valueAt sortedFeeRates percentiles target feesIndex ≤ valueAt sortedFeeRates percentiles target' feesIndex := by
  unfold valueAt
  split_ifs with first last
  · exact le_rfl
  · exact le_rfl
  · have inside : feesIndex < sortedFeeRates.length := by have := placed.1; omega
    have lower := placed.2.2 (by omega)
    have upper := placed.2.1 (by omega)
    have gap : 0 < percentiles.getD feesIndex 0 - percentiles.getD (feesIndex - 1) 0 := by linarith
    have rise := rate_at_mono sorted (Nat.sub_le feesIndex 1) inside
    have shares : (target - percentiles.getD (feesIndex - 1) 0) /
          (percentiles.getD feesIndex 0 - percentiles.getD (feesIndex - 1) 0) ≤
        (target' - percentiles.getD (feesIndex - 1) 0) /
          (percentiles.getD feesIndex 0 - percentiles.getD (feesIndex - 1) 0) :=
      div_le_div_of_nonneg_right (by linarith) (le_of_lt gap)
    simp only
    nlinarith

/-- The values at two placed indices, the later target at an index no lower,
are in order: at one index by the interpolation, across indices by the rates
between them. -/
theorem value_at_mono {target target' : α} (later : target ≤ target') {feesIndex feesIndex' : Nat}
    (moved : feesIndex ≤ feesIndex')
    (sorted : sortedFeeRates.Pairwise fun first second => first.feeRate ≤ second.feeRate)
    (sized : percentiles.length = sortedFeeRates.length) (placed : Placed percentiles target feesIndex)
    (placedNext : Placed percentiles target' feesIndex') :
    valueAt sortedFeeRates percentiles target feesIndex ≤ valueAt sortedFeeRates percentiles target' feesIndex' := by
  rcases Nat.lt_or_eq_of_le moved with before | same
  · calc valueAt sortedFeeRates percentiles target feesIndex
        ≤ rateAt sortedFeeRates (min feesIndex (sortedFeeRates.length - 1)) :=
          (value_at_between sorted sized placed).2
      _ ≤ rateAt sortedFeeRates (feesIndex' - 1) :=
          rate_at_mono sorted (by omega) (by have := placedNext.1; omega)
      _ ≤ valueAt sortedFeeRates percentiles target' feesIndex' := (value_at_between sorted sized placedNext).1
  · rw [← same]
    exact value_at_mono_target later sorted sized placed

end Values

section Block
variable {sortedFeeRates : List (FeeRateAndWeight α)}

/-- A non-empty list sorted by rate with a positive total weight: the asserts
hold, and the three values are in order between the first and the last rate. -/
theorem fee_rate_estimate_eq_ok (nonempty : sortedFeeRates ≠ [])
    (sorted : sortedFeeRates.Pairwise fun first second => first.feeRate ≤ second.feeRate)
    (weighted : 0 < totalWeight sortedFeeRates) :
    ∃ estimate, feeRateEstimateFromSortedWeightedFees sortedFeeRates = .ok estimate ∧
      rateAt sortedFeeRates 0 ≤ estimate.low ∧ estimate.low ≤ estimate.middle ∧ estimate.middle ≤ estimate.high ∧
      estimate.high ≤ rateAt sortedFeeRates (sortedFeeRates.length - 1) := by
  set percentiles := percentilesFrom (totalWeight sortedFeeRates) 0 sortedFeeRates with percentilesEq
  have sized : percentiles.length = sortedFeeRates.length := length_percentiles_from _ _ _
  have length : 0 < sortedFeeRates.length := List.length_pos_of_ne_nil nonempty
  -- the three passes of the loop: each index placed for its target, no lower than the one before
  set low := advance (1 / 20 : α) (percentiles.drop 0) 0 with lowEq
  obtain ⟨-, placedLow⟩ := advance_placed percentiles (show (1 / 20 : α) ≤ 1 / 20 from le_rfl) _ 0 rfl
    (Nat.zero_le _) fun none => absurd none (lt_irrefl 0)
  set middle := advance (1 / 2 : α) (percentiles.drop low) low with middleEq
  obtain ⟨movedMiddle, placedMiddle⟩ := advance_placed percentiles (show (1 / 20 : α) ≤ 1 / 2 by norm_num) _ _ rfl
    placedLow.1 placedLow.2.2
  set high := advance (19 / 20 : α) (percentiles.drop middle) middle with highEq
  obtain ⟨movedHigh, placedHigh⟩ := advance_placed percentiles (show (1 / 2 : α) ≤ 19 / 20 by norm_num) _ _ rfl
    placedMiddle.1 placedMiddle.2.2
  refine ⟨⟨valueAt sortedFeeRates percentiles (19 / 20) high, valueAt sortedFeeRates percentiles (1 / 2) middle,
    valueAt sortedFeeRates percentiles (1 / 20) low⟩, ?_, ?_,
    value_at_mono (by norm_num) movedMiddle sorted sized placedLow placedMiddle,
    value_at_mono (by norm_num) movedHigh sorted sized placedMiddle placedHigh, ?_⟩
  · have filled : ¬ sortedFeeRates.isEmpty = true := by simpa [List.isEmpty_iff] using nonempty
    rw [feeRateEstimateFromSortedWeightedFees, if_neg filled, if_neg (not_not.mpr weighted), ← percentilesEq,
      if_neg (not_not.mpr sized)]
    rfl
  · exact le_trans (rate_at_mono sorted (Nat.zero_le _) (by have := placedLow.1; omega))
      (value_at_between sorted sized placedLow).1
  · exact le_trans (value_at_between sorted sized placedHigh).2 (rate_at_mono sorted (min_le_right _ _) (by omega))

end Block

/-! ## One call of `notify_block` -/

section Padding
variable {rates : List (FeeRateAndWeight α)}

omit [LinearOrder α] [IsStrictOrderedRing α] in
theorem total_weight_eq (rates : List (FeeRateAndWeight α)) :
    totalWeight rates = (((rates.map (·.weight)).sum : Nat) : α) := by
  simp [totalWeight, Nat.cast_list_sum, Function.comp_def]

omit [Field α] [LinearOrder α] [IsStrictOrderedRing α] in
theorem checked_total_eq : ∀ (rates : List (FeeRateAndWeight α)) (start : Nat),
    checkedTotal rates start = some (start + (rates.map (·.weight)).sum) ∨
      (checkedTotal rates start = none ∧ 2 ^ 64 ≤ start + (rates.map (·.weight)).sum)
  | [], start => Or.inl rfl
  | rate :: rest, start => by
      simp only [checkedTotal, List.map_cons, List.sum_cons]
      split
      · rcases checked_total_eq rest (start + rate.weight) with sum | ⟨overflows, above⟩
        · exact Or.inl (by rw [sum, Nat.add_assoc])
        · exact Or.inr ⟨overflows, by omega⟩
      · exact Or.inr ⟨rfl, by omega⟩

omit [LinearOrder α] [IsStrictOrderedRing α] in
/-- With a full block of positive weight, the padded rates are there and weigh something. -/
theorem maybe_add_minimum_fee_rate_weighted {fullBlockWeight : Nat} (positive : 0 < fullBlockWeight)
    (rates : List (FeeRateAndWeight α)) :
    maybeAddMinimumFeeRate rates fullBlockWeight ≠ [] ∧
      0 < ((maybeAddMinimumFeeRate rates fullBlockWeight).map (·.weight)).sum := by
  unfold maybeAddMinimumFeeRate
  rcases checked_total_eq rates 0 with sum | ⟨overflows, above⟩
  · rw [sum]
    simp only [Nat.zero_add]
    split
    · -- the block is padded up to its full weight
      rename_i short
      simp only [List.map_append, List.sum_append, List.map_cons, List.map_nil, List.sum_cons, List.sum_nil]
      exact ⟨by simp, by omega⟩
    · rename_i full
      refine ⟨fun empty => ?_, by omega⟩
      rw [empty] at full
      simp at full
      omega
  · rw [overflows]
    dsimp only
    refine ⟨fun empty => ?_, by omega⟩
    rw [empty] at above
    simp at above

omit [IsStrictOrderedRing α] in
theorem maybe_add_minimum_fee_rate_rates {fullBlockWeight : Nat}
    (bounded : ∀ rate ∈ rates, minimumTxFeeRate ≤ rate.feeRate) :
    ∀ rate ∈ maybeAddMinimumFeeRate rates fullBlockWeight, minimumTxFeeRate ≤ rate.feeRate := by
  unfold maybeAddMinimumFeeRate
  split
  · exact bounded
  · split
    · intro rate mem
      rcases List.mem_append.mp mem with old | padding
      · exact bounded rate old
      · rw [List.mem_singleton.mp padding]
    · exact bounded

omit [IsStrictOrderedRing α] in
theorem fee_rate_and_weight_from_receipt_rate {Cost : Type} {metric : CostMetric Cost} {blockLimit : Cost}
    {txReceipt : StacksTransactionReceipt Cost} {rate : FeeRateAndWeight α}
    (taken : feeRateAndWeightFromReceipt metric blockLimit txReceipt = some rate) :
    minimumTxFeeRate ≤ rate.feeRate := by
  unfold feeRateAndWeightFromReceipt at taken
  split at taken
  · cases taken
  · obtain ⟨scalarCost, -, rfl⟩ := Option.map_eq_some_iff.mp taken
    simp only
    split
    · exact le_rfl
    · exact le_of_not_gt ‹_›

end Padding

/-! ## The table -/

/-- Every stored row is in order and at least the minimum rate. -/
def RowsOrdered (table : MedianFeeTable α) : Prop :=
  ∀ row ∈ table.rows, minimumTxFeeRate ≤ row.2.low ∧ row.2.low ≤ row.2.middle ∧ row.2.middle ≤ row.2.high

section Table

omit [IsStrictOrderedRing α] in
theorem update_estimate_ordered {table : MedianFeeTable α} (ordered : RowsOrdered table) (windowSize : Nat)
    {newMeasure : FeeRateEstimate α}
    (measured : minimumTxFeeRate ≤ newMeasure.low ∧ newMeasure.low ≤ newMeasure.middle ∧
      newMeasure.middle ≤ newMeasure.high) :
    RowsOrdered (updateEstimate table windowSize newMeasure) := by
  intro row mem
  rcases List.mem_append.mp (List.mem_filter.mp mem).1 with old | new
  · exact ordered row old
  · rw [List.mem_singleton.mp new]
    exact measured

/-- The step lemma: with a full block of positive weight, `notify_block` never
panics and stores a row in order. -/
theorem notify_block_eq_ok {Cost : Type} {estimator : WeightedMedianFeeRateEstimator α Cost}
    (positive : 0 < estimator.fullBlockWeight) (ordered : RowsOrdered estimator.db)
    (txReceipts : List (StacksTransactionReceipt Cost)) (blockLimit : Cost) :
    ∃ estimator', estimator.notifyBlock txReceipts blockLimit = .ok estimator' ∧
      estimator'.fullBlockWeight = estimator.fullBlockWeight ∧ RowsOrdered estimator'.db := by
  set received : List (FeeRateAndWeight α) :=
    txReceipts.filterMap (feeRateAndWeightFromReceipt estimator.metric blockLimit) with receivedEq
  set working := maybeAddMinimumFeeRate received estimator.fullBlockWeight with workingEq
  obtain ⟨filled, weighted⟩ := maybe_add_minimum_fee_rate_weighted positive received
  have bounded : ∀ rate ∈ working, minimumTxFeeRate ≤ rate.feeRate :=
    maybe_add_minimum_fee_rate_rates fun rate mem => by
      obtain ⟨txReceipt, -, taken⟩ := List.mem_filterMap.mp mem
      exact fee_rate_and_weight_from_receipt_rate taken
  -- sorted by rate, the list is a permutation of the working rates
  set sorted := working.mergeSort fun first second => first.feeRate ≤ second.feeRate with sortedEq
  have permuted : sorted.Perm working := List.mergeSort_perm _ _
  have ordering : sorted.Pairwise fun first second => first.feeRate ≤ second.feeRate :=
    OrderStatistics.pairwise_merge_sort_by (·.feeRate) working
  have nonempty : sorted ≠ [] := by
    intro empty
    rw [empty] at permuted
    exact filled permuted.symm.eq_nil
  have weightedSorted : 0 < totalWeight sorted := by
    rw [total_weight_eq, (permuted.map (·.weight)).sum_eq]
    exact Nat.cast_pos.mpr weighted
  obtain ⟨estimate, estimated, first, inOrder⟩ := fee_rate_estimate_eq_ok nonempty ordering weightedSorted
  have atLeast : minimumTxFeeRate ≤ rateAt sorted 0 := by
    obtain ⟨rate, rest, cons⟩ := List.exists_cons_of_ne_nil nonempty
    have mem : rate ∈ working := permuted.subset (by rw [cons]; exact List.mem_cons_self)
    rw [rateAt, cons]
    exact bounded rate mem
  refine ⟨{ estimator with db := updateEstimate estimator.db estimator.windowSize estimate }, ?_, rfl,
    update_estimate_ordered ordered _ ⟨le_trans atLeast first, inOrder.1, inOrder.2.1⟩⟩
  have long : working.length > 0 := List.length_pos_of_ne_nil filled
  unfold WeightedMedianFeeRateEstimator.notifyBlock
  dsimp only
  rw [← receivedEq, ← workingEq, if_pos long, ← sortedEq, estimated]
  rfl

/-- The run lemma: from an estimator with a full block of positive weight and
its rows in order, every sequence of blocks is notified without a panic and
leaves the rows in order. -/
theorem notify_blocks_eq_ok {Cost : Type} :
    ∀ (blocks : List (List (StacksTransactionReceipt Cost) × Cost)) (estimator : WeightedMedianFeeRateEstimator α Cost),
      0 < estimator.fullBlockWeight → RowsOrdered estimator.db →
      ∃ estimator', notifyBlocks estimator blocks = .ok estimator' ∧ RowsOrdered estimator'.db
  | [], estimator, _, ordered => ⟨estimator, rfl, ordered⟩
  | (txReceipts, blockLimit) :: blocks, estimator, positive, ordered => by
      obtain ⟨next, notified, kept, orderedNext⟩ := notify_block_eq_ok positive ordered txReceipts blockLimit
      obtain ⟨last, run, orderedLast⟩ := notify_blocks_eq_ok blocks next (kept ▸ positive) orderedNext
      refine ⟨last, ?_, orderedLast⟩
      rw [notifyBlocks, notified]
      exact run

end Table

/-! ## The window -/

section Window

omit [LinearOrder α] [IsStrictOrderedRing α] in
theorem get_d_mem {l : List α} {k : Nat} (inside : k < l.length) : l.getD k 0 ∈ l := by
  rw [List.getD_eq_getElem _ _ inside]
  exact List.getElem_mem inside

theorem le_median {l : List α} (nonempty : 0 < l.length) {c : α} (bound : ∀ x ∈ l, c ≤ x) :
    c ≤ median l.length l := by
  unfold median
  split_ifs with odd
  · exact bound _ (get_d_mem (Nat.div_lt_self nonempty (by norm_num)))
  · -- an even length is at least two, so both middle entries are in the list
    have upper := bound _ (get_d_mem (show l.length / 2 < l.length by omega))
    have lower := bound _ (get_d_mem (show l.length / 2 - 1 < l.length by omega))
    linarith

theorem median_le_median {l l' : List α} (sized : l'.length = l.length)
    (pointwise : ∀ k, l.getD k 0 ≤ l'.getD k 0) : median l.length l ≤ median l'.length l' := by
  unfold median
  rw [sized]
  split_ifs
  · exact pointwise _
  · linarith [pointwise (l.length / 2), pointwise (l.length / 2 - 1)]

/-- The estimate over a window of rows in order is in order and at least the
minimum rate. -/
theorem get_rate_estimates_from_sql_ordered {table : MedianFeeTable α} (ordered : RowsOrdered table)
    {windowSize : Nat} {estimate : FeeRateEstimate α} (got : getRateEstimatesFromSql table windowSize = .ok estimate) :
    minimumTxFeeRate ≤ estimate.low ∧ estimate.low ≤ estimate.middle ∧ estimate.middle ≤ estimate.high := by
  unfold getRateEstimatesFromSql at got
  set results := (table.rows.mergeSort fun first second => second.1 ≤ first.1).take windowSize with resultsEq
  have taken : ∀ row ∈ results,
      minimumTxFeeRate ≤ row.2.low ∧ row.2.low ≤ row.2.middle ∧ row.2.middle ≤ row.2.high :=
    fun row mem => ordered row ((List.mergeSort_perm _ _).subset (List.mem_of_mem_take mem))
  dsimp only at got
  split at got
  · cases got
  · rename_i filled
    cases got
    have nonempty : 0 < results.length := by
      simp only [Bool.or_eq_true, List.isEmpty_iff, List.map_eq_nil_iff, not_or] at filled
      exact List.length_pos_of_ne_nil filled.1.1
    have sameLength : ∀ (f g : Nat × FeeRateEstimate α → α),
        ((results.map g).mergeSort OrderStatistics.le).length = ((results.map f).mergeSort OrderStatistics.le).length := by
      intro f g
      simp
    refine ⟨le_median (by simpa using nonempty) fun rate mem => ?_,
      median_le_median (sameLength _ _)
        fun k => OrderStatistics.merge_sort_map_get_d_le (fun row mem => (taken row mem).2.1) k 0,
      median_le_median (sameLength _ _)
        fun k => OrderStatistics.merge_sort_map_get_d_le (fun row mem => (taken row mem).2.2) k 0⟩
    -- every stored low is at least the minimum
    obtain ⟨row, stored, rfl⟩ := List.mem_map.mp ((List.mergeSort_perm _ _).subset mem)
    exact (taken row stored).1

end Window

end Hyperchains.FeeMedians