import Mathlib

/-! A bounded sample that keeps the largest values seen. While fewer than
`capacity` values are kept a new value is added; after that it replaces a least
kept value when it is larger, and is dropped otherwise. `Retains` is what such a
sample holds after any run: the kept and the dropped values together are the
values seen, every dropped value is at most every kept one, and as many are kept
as there is room for. The kept values then average at least as high as all the
values seen.

A least kept value is found as `List.argmin` over the values paired with their
indices, which is the first least one. -/

namespace TopK

variable {α : Type}

/-- Replacing the value at `i` by `x` moves that value to the dropped ones. -/
theorem set_append_perm (kept dropped : List α) {i : Nat} (inside : i < kept.length) (x : α) :
    (kept.set i x ++ (dropped ++ [kept[i]])).Perm (kept ++ dropped ++ [x]) := by
  have atIndex : kept = kept.take i ++ kept[i] :: kept.drop (i + 1) := by
    rw [List.getElem_cons_drop, List.take_append_drop]
  have replaced : kept.set i x = kept.take i ++ x :: kept.drop (i + 1) := by
    rw [List.set_eq_take_append_cons_drop, if_pos inside]
  rw [replaced]
  conv => rhs; rw [atIndex]
  simp only [List.append_assoc, List.cons_append]
  refine List.Perm.append_left _ ?_
  -- both sides are the rest with `x` and the old value in front, in turn
  have rest : List.Perm ((kept.drop (i + 1) ++ dropped) ++ [kept[i]]) (kept[i] :: (kept.drop (i + 1) ++ dropped)) :=
    List.perm_append_comm
  have rest' : List.Perm ((kept.drop (i + 1) ++ dropped) ++ [x]) (x :: (kept.drop (i + 1) ++ dropped)) :=
    List.perm_append_comm
  rw [← List.append_assoc, ← List.append_assoc]
  exact ((rest.cons x).trans (List.Perm.swap kept[i] x _)).trans (rest'.symm.cons kept[i])

section Retention

variable [LinearOrder α]

structure Retains (capacity : Nat) (seen kept dropped : List α) : Prop where
  perm : (kept ++ dropped).Perm seen
  below : ∀ d ∈ dropped, ∀ k ∈ kept, d ≤ k
  length_kept : kept.length = min capacity seen.length

variable {capacity : Nat} {seen kept dropped : List α}

theorem retains_nil (capacity : Nat) : Retains capacity ([] : List α) [] [] :=
  ⟨List.Perm.refl [], fun _ absent => absurd absent List.not_mem_nil, by simp⟩

theorem Retains.length_seen (h : Retains capacity seen kept dropped) :
    seen.length = kept.length + dropped.length := by
  rw [← h.perm.length_eq, List.length_append]

theorem Retains.dropped_eq_nil (h : Retains capacity seen kept dropped) (room : kept.length < capacity) :
    dropped = [] := by
  have lengths := h.length_seen
  have kept_all : kept.length = seen.length := by
    have := h.length_kept
    omega
  exact List.eq_nil_of_length_eq_zero (by omega)

theorem Retains.push (h : Retains capacity seen kept dropped) (room : kept.length < capacity) (x : α) :
    Retains capacity (seen ++ [x]) (kept ++ [x]) dropped := by
  have nothingDropped := h.dropped_eq_nil room
  subst nothingDropped
  refine ⟨?_, fun _ absent => absurd absent List.not_mem_nil, ?_⟩
  · simpa using h.perm.append_right [x]
  · have := h.length_kept
    simp only [List.length_append, List.length_singleton]
    omega

theorem Retains.length_kept_of_full (h : Retains capacity seen kept dropped) (full : capacity ≤ kept.length)
    (x : α) : kept.length = min capacity (seen ++ [x]).length := by
  have := h.length_kept
  simp only [List.length_append, List.length_singleton]
  omega

theorem Retains.reject (h : Retains capacity seen kept dropped) (full : capacity ≤ kept.length) {x : α}
    (atMost : ∀ k ∈ kept, x ≤ k) : Retains capacity (seen ++ [x]) kept (dropped ++ [x]) := by
  refine ⟨?_, ?_, h.length_kept_of_full full x⟩
  · simpa [List.append_assoc] using h.perm.append_right [x]
  · intro d mem k kept_k
    rcases List.mem_append.mp mem with old | new
    · exact h.below d old k kept_k
    · rw [List.mem_singleton.mp new]
      exact atMost k kept_k

theorem Retains.replace (h : Retains capacity seen kept dropped) (full : capacity ≤ kept.length) {i : Nat}
    (inside : i < kept.length) (least : ∀ k ∈ kept, kept[i] ≤ k) {x : α} (larger : kept[i] < x) :
    Retains capacity (seen ++ [x]) (kept.set i x) (dropped ++ [kept[i]]) := by
  refine ⟨(set_append_perm kept dropped inside x).trans (h.perm.append_right [x]), ?_, ?_⟩
  · intro d mem k kept_k
    rcases List.mem_or_eq_of_mem_set kept_k with stays | rfl
    -- a kept value that stays is above the old dropped ones and the least one
    · rcases List.mem_append.mp mem with old | new
      · exact h.below d old k stays
      · rw [List.mem_singleton.mp new]
        exact least k stays
    · rcases List.mem_append.mp mem with old | new
      · exact (h.below d old kept[i] (List.getElem_mem inside)).trans larger.le
      · rw [List.mem_singleton.mp new]
        exact larger.le
  · rw [List.length_set]
    exact h.length_kept_of_full full x

end Retention

section LeastIndex

variable [LinearOrder α]

/-- The first least value with its index, as `iter().enumerate().min_by_key`
finds it. -/
theorem argmin_zip_idx {items : List α} {least : α} {index : Nat}
    (found : items.zipIdx.argmin Prod.fst = some (least, index)) :
    ∃ inside : index < items.length, items[index] = least ∧ ∀ k ∈ items, least ≤ k := by
  have mem := List.argmin_mem (Option.mem_def.mpr found)
  obtain ⟨inside, atIndex⟩ := List.getElem?_eq_some_iff.mp (List.mk_mem_zipIdx_iff_getElem?.mp mem)
  refine ⟨inside, atIndex, fun k kept => ?_⟩
  obtain ⟨j, inside_j, rfl⟩ := List.getElem_of_mem kept
  have paired : (items[j], j) ∈ items.zipIdx :=
    List.mk_mem_zipIdx_iff_getElem?.mpr (List.getElem?_eq_getElem inside_j)
  exact List.le_of_mem_argmin paired (Option.mem_def.mpr found)

theorem argmin_zip_idx_eq_none {items : List α} :
    items.zipIdx.argmin Prod.fst = none ↔ items = [] := by
  rw [List.argmin_eq_none, List.zipIdx_eq_nil_iff]

end LeastIndex

section Average

variable [AddCommMonoid α] [LinearOrder α] [IsOrderedAddMonoid α]
  {capacity : Nat} {seen kept dropped : List α}

/-- The kept values average at least as high as all the values seen:
`sum seen / length seen ≤ sum kept / length kept`, with the divisions multiplied
out. -/
theorem Retains.length_smul_sum_le (h : Retains capacity seen kept dropped) :
    kept.length • seen.sum ≤ seen.length • kept.sum := by
  -- each dropped value, counted once per kept value, is at most the kept sum
  have eachDropped : ∀ d ∈ dropped, kept.length • d ≤ kept.sum := fun d mem =>
    List.card_nsmul_le_sum kept d (h.below d mem)
  have droppedPart : kept.length • dropped.sum ≤ dropped.length • kept.sum := by
    calc kept.length • dropped.sum
        _ = (dropped.map (kept.length • ·)).sum := List.smul_sum
        _ ≤ (dropped.map (kept.length • ·)).length • kept.sum :=
          List.sum_le_card_nsmul _ _ (by simpa using eachDropped)
        _ = dropped.length • kept.sum := by rw [List.length_map]
  calc kept.length • seen.sum
      _ = kept.length • kept.sum + kept.length • dropped.sum := by
        rw [← h.perm.sum_eq, List.sum_append, nsmul_add]
      _ ≤ kept.length • kept.sum + dropped.length • kept.sum := add_le_add_right droppedPart _
      _ = seen.length • kept.sum := by rw [h.length_seen, add_nsmul]

end Average

section IntegerMean

variable {capacity : Nat} {seen kept dropped : List Nat}

theorem div_le_div_of_mul_le {s n k t : Nat} (hn : 0 < n) (hk : 0 < k) (h : k * s ≤ n * t) :
    s / n ≤ t / k := by
  rw [Nat.le_div_iff_mul_le hk]
  have scaled : s / n * k * n ≤ t * n := by
    calc s / n * k * n
        _ = s / n * n * k := Nat.mul_right_comm _ _ _
        _ ≤ s * k := Nat.mul_le_mul_right k (Nat.div_mul_le_self s n)
        _ = k * s := Nat.mul_comm s k
        _ ≤ n * t := h
        _ = t * n := Nat.mul_comm n t
  exact Nat.le_of_mul_le_mul_right scaled hn

theorem exists_sum_div_length_le {values : List Nat} (nonempty : values ≠ []) :
    ∃ x ∈ values, values.sum / values.length ≤ x := by
  obtain ⟨greatest, found⟩ : ∃ greatest, values.max? = some greatest :=
    Option.ne_none_iff_exists'.mp (mt List.max?_eq_none_iff.mp nonempty)
  obtain ⟨mem, atMost⟩ := List.max?_eq_some_iff.mp found
  refine ⟨greatest, mem, Nat.div_le_of_le_mul ?_⟩
  simpa [Nat.nsmul_eq_mul] using List.sum_le_card_nsmul values greatest atMost

theorem Retains.kept_ne_nil (h : Retains capacity seen kept dropped) (room : 0 < capacity) (nonempty : seen ≠ []) :
    kept ≠ [] := by
  have length := h.length_kept
  have seenLength : 0 < seen.length := List.length_pos_of_ne_nil nonempty
  intro emptied
  rw [emptied, List.length_nil] at length
  omega

/-- The integer mean of the kept values is at least that of all values seen. -/
theorem Retains.sum_div_length_le (h : Retains capacity seen kept dropped) (room : 0 < capacity)
    (nonempty : seen ≠ []) : seen.sum / seen.length ≤ kept.sum / kept.length := by
  have averages := h.length_smul_sum_le
  simp only [smul_eq_mul] at averages
  exact div_le_div_of_mul_le (List.length_pos_of_ne_nil nonempty)
    (List.length_pos_of_ne_nil (h.kept_ne_nil room nonempty)) averages

end IntegerMean

end TopK
