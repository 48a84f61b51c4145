import Mathlib

/-! Order statistics of lists over a linear order: the entry at `k` of a sorted
list is at most `x` exactly when more than `k` entries are. So sorting keeps
a pointwise order between two lists: if each entry of one is at most its
partner in the other, the same holds entry by entry after both are sorted. -/

namespace OrderStatistics

variable {α : Type} [LinearOrder α]

/-- The comparison a sort by `≤` uses. -/
abbrev le (a b : α) : Bool := decide (a ≤ b)

theorem le_trans' (a b c : α) (first : le a b = true) (second : le b c = true) : le a c = true := by
  simp only [le, decide_eq_true_eq] at *
  exact first.trans second

theorem le_total' (a b : α) : (le a b || le b a) = true := by
  simp [le, le_total]

theorem pairwise_merge_sort (items : List α) : (items.mergeSort le).Pairwise (· ≤ ·) := by
  have sorted := List.pairwise_mergeSort le_trans' le_total' items
  simpa [le] using sorted

theorem pairwise_merge_sort_by {β : Type} (key : β → α) (items : List β) :
    (items.mergeSort fun a b => le (key a) (key b)).Pairwise fun a b => key a ≤ key b := by
  have sorted := List.pairwise_mergeSort (fun a b c => le_trans' (key a) (key b) (key c))
    (fun a b => le_total' (key a) (key b)) items
  simpa [le] using sorted

/-- In a sorted list, the entry at `k` is at most `x` exactly when more than `k`
entries are at most `x`. -/
theorem get_le_iff_lt_count_p : ∀ {sorted : List α}, sorted.Pairwise (· ≤ ·) → ∀ {k : Nat} (inside : k < sorted.length)
    (x : α), sorted[k] ≤ x ↔ k < sorted.countP (· ≤ x)
  | [], _, _, inside, _ => absurd inside (Nat.not_lt_zero _)
  | first :: rest, ordered, k, inside, x => by
      rw [List.pairwise_cons] at ordered
      -- past a first entry above `x`, no entry is at most `x`
      have noneBelow : x < first → rest.countP (· ≤ x) = 0 := by
        intro above
        rw [List.countP_eq_zero]
        intro entry mem atMost
        have := ordered.1 entry mem
        simp only [decide_eq_true_eq] at atMost
        exact absurd (lt_of_lt_of_le above this) (not_lt.mpr atMost)
      cases k with
      | zero =>
          rw [List.getElem_cons_zero, List.countP_cons]
          by_cases below : first ≤ x
          · simp [below]
          · simp [below, noneBelow (lt_of_not_ge below)]
      | succ k =>
          have inRest : k < rest.length := by simpa using inside
          rw [List.getElem_cons_succ, List.countP_cons, get_le_iff_lt_count_p ordered.2 inRest x]
          by_cases below : first ≤ x
          · simp [below]
          · simp [below, noneBelow (lt_of_not_ge below)]

/-- Entries that are at most a bound in `b` have partners at most it in `a`. -/
theorem count_p_le_of_forall₂ {a b : List α} (pointwise : List.Forall₂ (· ≤ ·) a b) (x : α) :
    b.countP (· ≤ x) ≤ a.countP (· ≤ x) := by
  induction pointwise with
  | nil => simp
  | @cons first partner rest partners pair _ ih =>
      rw [List.countP_cons, List.countP_cons]
      by_cases below : partner ≤ x
      · simp [below, pair.trans below]
        omega
      · simp only [below, decide_false, Bool.false_eq_true, if_false, Nat.add_zero]
        exact le_trans ih (Nat.le_add_right _ _)

theorem merge_sort_get_le {a b : List α} (pointwise : List.Forall₂ (· ≤ ·) a b) {k : Nat}
    (insideA : k < (a.mergeSort le).length) (insideB : k < (b.mergeSort le).length) :
    (a.mergeSort le)[k] ≤ (b.mergeSort le)[k] := by
  have counted := (get_le_iff_lt_count_p (pairwise_merge_sort b) insideB _).mp le_rfl
  rw [get_le_iff_lt_count_p (pairwise_merge_sort a) insideA]
  rw [(List.mergeSort_perm b le).countP_eq] at counted
  rw [(List.mergeSort_perm a le).countP_eq]
  exact lt_of_lt_of_le counted (count_p_le_of_forall₂ pointwise _)

/-- Sorting two keys of the same items, the first below the second item by
item, keeps the first below the second entry by entry. -/
theorem merge_sort_map_get_d_le {β : Type} {f g : β → α} {items : List β} (below : ∀ x ∈ items, f x ≤ g x)
    (k : Nat) (d : α) : ((items.map f).mergeSort le).getD k d ≤ ((items.map g).mergeSort le).getD k d := by
  have pointwise : List.Forall₂ (· ≤ ·) (items.map f) (items.map g) := by
    rw [List.forall₂_map_left_iff, List.forall₂_map_right_iff, List.forall₂_same]
    exact below
  by_cases inside : k < items.length
  · have insideF : k < ((items.map f).mergeSort le).length := by simpa using inside
    have insideG : k < ((items.map g).mergeSort le).length := by simpa using inside
    rw [List.getD_eq_getElem _ _ insideF, List.getD_eq_getElem _ _ insideG]
    exact merge_sort_get_le pointwise insideF insideG
  · rw [List.getD_eq_default _ _ (by simpa using inside), List.getD_eq_default _ _ (by simpa using inside)]

/-! ## Sorting by a comparison that can fail -/

section SortBy

variable {β ε : Type}

/-- Insertion of `x` into a list by a comparison that can fail: before the
first entry it is not greater than. -/
def insertBy (cmp : β → β → Except ε Ordering) (x : β) : List β → Except ε (List β)
  | [] => pure [x]
  | y :: ys => do
      match ← cmp x y with
      | .gt => return y :: (← insertBy cmp x ys)
      | _ => return x :: y :: ys

/-- A stable insertion sort by a comparison that can fail; it fails with the
first comparison that does. -/
def sortBy (cmp : β → β → Except ε Ordering) : List β → Except ε (List β)
  | [] => pure []
  | x :: xs => do insertBy cmp x (← sortBy cmp xs)

variable {cmp : β → β → Except ε Ordering} {key : β → α}

/-- With a comparison that compares keys, inserting into a list sorted by key
adds the item and keeps the list sorted. -/
theorem insert_by_eq_ok (x : β) {ys : List β} (agrees : ∀ y ∈ ys, cmp x y = .ok (compare (key x) (key y)))
    (sorted : ys.Pairwise fun a b => key a ≤ key b) :
    ∃ zs, insertBy cmp x ys = .ok zs ∧ zs.Perm (x :: ys) ∧ zs.Pairwise fun a b => key a ≤ key b := by
  induction ys with
  | nil => exact ⟨[x], rfl, List.Perm.refl _, List.pairwise_singleton _ _⟩
  | cons y ys ih =>
      rw [List.pairwise_cons] at sorted
      have here := agrees y List.mem_cons_self
      -- past a lesser `y` the item goes into the rest; otherwise it stays in front
      rcases ordering : compare (key x) (key y)
      · have before : key x ≤ key y := (compare_lt_iff_lt.mp ordering).le
        refine ⟨x :: y :: ys, by simp only [insertBy, here, ordering]; rfl, List.Perm.refl _, ?_⟩
        exact List.pairwise_cons.mpr ⟨fun z mem => (List.mem_cons.mp mem).elim (fun same => same ▸ before)
          fun rest => before.trans (sorted.1 z rest), List.pairwise_cons.mpr sorted⟩
      · have before : key x ≤ key y := (compare_eq_iff_eq.mp ordering).le
        refine ⟨x :: y :: ys, by simp only [insertBy, here, ordering]; rfl, List.Perm.refl _, ?_⟩
        exact List.pairwise_cons.mpr ⟨fun z mem => (List.mem_cons.mp mem).elim (fun same => same ▸ before)
          fun rest => before.trans (sorted.1 z rest), List.pairwise_cons.mpr sorted⟩
      · have after : key y < key x := compare_gt_iff_gt.mp ordering
        obtain ⟨zs, inserted, perm, sorted'⟩ := ih (fun z mem => agrees z (List.mem_cons_of_mem y mem)) sorted.2
        refine ⟨y :: zs, by simp only [insertBy, here, ordering, inserted]; rfl,
          (perm.cons y).trans (List.Perm.swap x y ys), List.pairwise_cons.mpr ⟨fun z mem => ?_, sorted'⟩⟩
        rcases List.mem_cons.mp (perm.subset mem) with same | rest
        · exact same ▸ after.le
        · exact sorted.1 z rest

/-- With a comparison that compares keys on the list, the sort never fails and
orders the items by key. -/
theorem sort_by_eq_ok {xs : List β} (agrees : ∀ a ∈ xs, ∀ b ∈ xs, cmp a b = .ok (compare (key a) (key b))) :
    ∃ ys, sortBy cmp xs = .ok ys ∧ ys.Perm xs ∧ ys.Pairwise fun a b => key a ≤ key b := by
  induction xs with
  | nil => exact ⟨[], rfl, List.Perm.refl _, List.Pairwise.nil⟩
  | cons x xs ih =>
      obtain ⟨ys, sorted, perm, ordered⟩ :=
        ih fun a memA b memB => agrees a (List.mem_cons_of_mem x memA) b (List.mem_cons_of_mem x memB)
      obtain ⟨zs, inserted, perm', ordered'⟩ :=
        insert_by_eq_ok x (fun y mem => agrees x List.mem_cons_self y (List.mem_cons_of_mem x (perm.subset mem)))
          ordered
      refine ⟨zs, ?_, perm'.trans (perm.cons x), ordered'⟩
      rw [sortBy, sorted]
      exact inserted

end SortBy

end OrderStatistics
