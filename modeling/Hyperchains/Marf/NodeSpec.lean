import Hyperchains.Marf.Trie

/-! What the node operations of `node.rs` do, stated through `walk`. A node is
well formed when no byte is on two of its non-empty pointers (Node4, Node16),
when its index and its pointers agree (Node48), and when every non-empty
pointer sits at its own byte (Node256). Then `walk c` finds the non-empty
pointer with byte `c`, whatever the layout (`Holds`), and each operation the
insertion uses says how it changes that: `replace` and `insert` set one byte,
a widening keeps every byte, `copyUpdate` turns local children into
back-pointers and `setPath` changes the path only. -/

namespace Hyperchains.Marf

/-! ## Pointer ids -/

theorem set_backptr_ne_empty : ∀ id : UInt8, setBackptr id ≠ TrieNodeID.empty.toU8 := by
  decide +kernel

theorem is_backptr_set_backptr : ∀ id : UInt8, isBackptr (setBackptr id) = true := by
  decide +kernel

theorem clear_backptr_set_backptr : ∀ id : UInt8, clearBackptr (setBackptr id) = clearBackptr id := by
  decide +kernel

theorem clear_backptr_of_not_backptr : ∀ id : UInt8, isBackptr id = false → clearBackptr id = id := by
  decide +kernel

theorem clear_backptr_idempotent : ∀ id : UInt8, clearBackptr (clearBackptr id) = clearBackptr id := by
  decide +kernel

namespace TriePtr

@[simp] theorem copy_update_chr (childBlockId : Nat) (p : TriePtr) :
    (p.copyUpdate childBlockId).chr = p.chr := by
  unfold copyUpdate
  split <;> rfl

@[simp] theorem copy_update_ptr (childBlockId : Nat) (p : TriePtr) :
    (p.copyUpdate childBlockId).ptr = p.ptr := by
  unfold copyUpdate
  split <;> rfl

@[simp] theorem copy_update_is_empty (childBlockId : Nat) (p : TriePtr) :
    (p.copyUpdate childBlockId).isEmpty = p.isEmpty := by
  unfold copyUpdate
  split
  · rfl
  · rename_i kept
    have full : p.isEmpty = false := by simp_all
    simp only [isEmpty] at full ⊢
    simp [full, set_backptr_ne_empty]

theorem copy_update_of_backptr (childBlockId : Nat) {p : TriePtr} (back : isBackptr p.id = true) :
    p.copyUpdate childBlockId = p := by
  simp [copyUpdate, back]

theorem copy_update_of_local (childBlockId : Nat) {p : TriePtr} (full : p.isEmpty = false)
    (here : isBackptr p.id = false) :
    p.copyUpdate childBlockId = { p with backBlock := childBlockId, id := setBackptr p.id } := by
  simp [copyUpdate, full, here]

end TriePtr

/-! ## Pointer arrays

`Holds ptrs c q`: the array has the non-empty pointer `q` for byte `c`. Every
well-formed node's walk is characterised by it, so the effect of a write on
the walk is proved once here, for any index type. -/

section Slots

variable {ι : Type}

/-- No byte is on two non-empty pointers. -/
def Distinct (ptrs : ι → TriePtr) : Prop :=
  ∀ i j, (ptrs i).isEmpty = false → (ptrs j).isEmpty = false → (ptrs i).chr = (ptrs j).chr → i = j

def Holds (ptrs : ι → TriePtr) (c : UInt8) (q : TriePtr) : Prop :=
  ∃ i, ptrs i = q ∧ q.isEmpty = false ∧ q.chr = c

theorem Holds.chr {ptrs : ι → TriePtr} {c : UInt8} {q : TriePtr} (holds : Holds ptrs c q) :
    q.chr = c ∧ q.isEmpty = false := by
  obtain ⟨_, _, full, same⟩ := holds
  exact ⟨same, full⟩

/-- Two walks characterised by the same pointers are the same. -/
theorem walk_eq_of_holds {walk walk' : UInt8 → Option TriePtr} {κ : Type} {ptrs : ι → TriePtr}
    {other : κ → TriePtr} (old : ∀ c q, walk c = some q ↔ Holds other c q)
    (new : ∀ c q, walk' c = some q ↔ Holds ptrs c q)
    (same : ∀ c q, Holds ptrs c q ↔ Holds other c q) (c : UInt8) : walk' c = walk c := by
  apply Option.ext
  intro q
  rw [new, old, same]

theorem absent_of_walk_none {walk : UInt8 → Option TriePtr} {ptrs : ι → TriePtr}
    (spec : ∀ c q, walk c = some q ↔ Holds ptrs c q) {c : UInt8} (absent : walk c = none) :
    ∀ i, (ptrs i).isEmpty = false → (ptrs i).chr ≠ c := by
  intro i full same
  have := (spec c (ptrs i)).mpr ⟨i, rfl, full, same⟩
  rw [absent] at this
  cases this

variable [DecidableEq ι]

/-- Writing `p` at slot `i` sets the pointer of `p.chr` when the slot is empty
or has that byte already, and no other slot has it. -/
structure Settable (ptrs : ι → TriePtr) (i : ι) (p : TriePtr) : Prop where
  full : p.isEmpty = false
  slot : (ptrs i).isEmpty = true ∨ (ptrs i).chr = p.chr
  others : ∀ j, j ≠ i → (ptrs j).isEmpty = false → (ptrs j).chr ≠ p.chr

variable {ptrs : ι → TriePtr} {i : ι} {p : TriePtr}

theorem Settable.distinct (settable : Settable ptrs i p) (distinct : Distinct ptrs) :
    Distinct (Function.update ptrs i p) := by
  intro j k fullJ fullK same
  by_cases atJ : j = i <;> by_cases atK : k = i
  · rw [atJ, atK]
  · subst atJ
    simp only [Function.update_self, Function.update_of_ne atK] at fullK same
    exact absurd same.symm (settable.others k atK fullK)
  · subst atK
    simp only [Function.update_self, Function.update_of_ne atJ] at fullJ same
    exact absurd same (settable.others j atJ fullJ)
  · simp only [Function.update_of_ne atJ, Function.update_of_ne atK] at fullJ fullK same
    exact distinct j k fullJ fullK same

theorem Settable.holds (settable : Settable ptrs i p) (c : UInt8) (q : TriePtr) :
    Holds (Function.update ptrs i p) c q ↔ if c = p.chr then q = p else Holds ptrs c q := by
  split_ifs with atChr
  · constructor
    · rintro ⟨j, rfl, full, rfl⟩
      by_cases atJ : j = i
      · subst atJ
        simp
      · rw [Function.update_of_ne atJ] at full atChr
        exact absurd atChr (settable.others j atJ full)
    · rintro rfl
      exact ⟨i, by simp, settable.full, atChr.symm⟩
  · constructor
    · rintro ⟨j, rfl, full, rfl⟩
      by_cases atJ : j = i
      · subst atJ
        simp at atChr
      · rw [Function.update_of_ne atJ] at full ⊢
        exact ⟨j, rfl, full, rfl⟩
    · rintro ⟨j, rfl, full, rfl⟩
      have atJ : j ≠ i := by
        rintro rfl
        rcases settable.slot with empty | same
        · simp [empty] at full
        · exact atChr same
      exact ⟨j, Function.update_of_ne atJ _ _, full, rfl⟩

/-- A walk characterised by `Holds` has `p` for `p.chr` after a settable write,
and is unchanged elsewhere. -/
theorem Settable.walk {walk walk' : UInt8 → Option TriePtr} (settable : Settable ptrs i p)
    (old : ∀ c q, walk c = some q ↔ Holds ptrs c q)
    (new : ∀ c q, walk' c = some q ↔ Holds (Function.update ptrs i p) c q) (c : UInt8) :
    walk' c = if c = p.chr then some p else walk c := by
  apply Option.ext
  intro q
  rw [new, settable.holds]
  split_ifs
  · exact ⟨fun same => by rw [same], fun same => (Option.some.inj same).symm⟩
  · exact (old c q).symm

end Slots

/-! ## The scans of Node4 and Node16 -/

section Scan

variable {n : Nat} {ptrs : Fin n → TriePtr}

theorem first_with_some {c : UInt8} {i : Fin n} (found : firstWith ptrs c = some i) :
    (ptrs i).isEmpty = false ∧ (ptrs i).chr = c := by
  simpa using List.find?_some found

theorem first_with_none {c : UInt8} :
    firstWith ptrs c = none ↔ ∀ i, (ptrs i).isEmpty = false → (ptrs i).chr ≠ c := by
  simp [firstWith, List.find?_eq_none]

theorem first_empty_some {i : Fin n} (found : firstEmpty ptrs = some i) : (ptrs i).isEmpty = true := by
  simpa using List.find?_some found

theorem first_empty_none : firstEmpty ptrs = none ↔ ∀ i, (ptrs i).isEmpty = false := by
  simp [firstEmpty, List.find?_eq_none]

theorem scan_walk_eq_some (distinct : Distinct ptrs) (c : UInt8) (q : TriePtr) :
    scanWalk ptrs c = some q ↔ Holds ptrs c q := by
  constructor
  · intro found
    obtain ⟨i, first, rfl⟩ := Option.map_eq_some_iff.mp found
    obtain ⟨full, same⟩ := first_with_some first
    exact ⟨i, rfl, full, same⟩
  · rintro ⟨i, rfl, full, same⟩
    cases first : firstWith ptrs c with
    | none => exact absurd same (first_with_none.mp first i full)
    | some j =>
        obtain ⟨fullJ, sameJ⟩ := first_with_some first
        have atI : j = i := distinct j i fullJ full (sameJ.trans same.symm)
        simp [scanWalk, first, atI]

theorem scan_walk_eq_none {c : UInt8} :
    scanWalk ptrs c = none ↔ ∀ i, (ptrs i).isEmpty = false → (ptrs i).chr ≠ c := by
  simp [scanWalk, first_with_none]

theorem scan_replace_eq (distinct : Distinct ptrs) {p : TriePtr} (full : p.isEmpty = false)
    (found : scanWalk ptrs p.chr ≠ none) :
    ∃ i, scanReplace ptrs p = (Function.update ptrs i p, true) ∧ Settable ptrs i p := by
  cases first : firstWith ptrs p.chr with
  | none => simp [scanWalk, first] at found
  | some i =>
      obtain ⟨fullI, sameI⟩ := first_with_some first
      refine ⟨i, by simp [scanReplace, first], full, .inr sameI, ?_⟩
      intro j other fullJ sameJ
      exact other (distinct j i fullJ fullI (sameJ.trans sameI.symm))

/-- `insert` of a new byte into an array with an empty slot takes the first one. -/
theorem scan_insert_eq {p : TriePtr} (full : p.isEmpty = false)
    (absent : scanWalk ptrs p.chr = none) (room : ∃ i, (ptrs i).isEmpty = true) :
    ∃ i, scanInsert ptrs p = (Function.update ptrs i p, true) ∧ Settable ptrs i p := by
  have noSlot : firstWith ptrs p.chr = none := by simpa [scanWalk] using absent
  cases emptySlot : firstEmpty ptrs with
  | none =>
      obtain ⟨i, empty⟩ := room
      simp [first_empty_none.mp emptySlot i] at empty
  | some i =>
      refine ⟨i, by simp [scanInsert, scanReplace, noSlot, emptySlot], full,
        .inl (first_empty_some emptySlot), ?_⟩
      intro j _ fullJ
      exact scan_walk_eq_none.mp absent j fullJ

/-- `nodeHasSpace` over an array: a free slot, or a pointer with the byte. -/
theorem has_space_iff (c : UInt8) :
    Trie.nodeHasSpace c ((List.finRange n).map ptrs) = true ↔
      ∃ i, (ptrs i).isEmpty = true ∨ (ptrs i).chr = c := by
  simp [Trie.nodeHasSpace, List.any_reverse, List.any_map]

theorem room_of_has_space {c : UInt8} (space : Trie.nodeHasSpace c ((List.finRange n).map ptrs) = true)
    (absent : ∀ i, (ptrs i).isEmpty = false → (ptrs i).chr ≠ c) : ∃ i, (ptrs i).isEmpty = true := by
  obtain ⟨i, empty | same⟩ := (has_space_iff c).mp space
  · exact ⟨i, empty⟩
  · refine ⟨i, ?_⟩
    by_contra full
    exact absent i (by simpa using full) same

theorem full_of_no_space {c : UInt8} (noSpace : Trie.nodeHasSpace c ((List.finRange n).map ptrs) = false) :
    ∀ i, (ptrs i).isEmpty = false := by
  intro i
  by_contra empty
  have : Trie.nodeHasSpace c ((List.finRange n).map ptrs) = true :=
    (has_space_iff c).mpr ⟨i, .inl (by simpa using empty)⟩
  rw [noSpace] at this
  cases this

end Scan

/-! ## Node48 and Node256 -/

namespace TrieNode48

/-- Every index names a non-empty pointer with its byte, and every non-empty
pointer is indexed by its byte. -/
def Indexed (node : TrieNode48) : Prop :=
  (∀ c i, node.slotOf c = some i → (node.ptrs i).isEmpty = false ∧ (node.ptrs i).chr = c) ∧
    ∀ i, (node.ptrs i).isEmpty = false → node.slotOf (node.ptrs i).chr = some i

theorem slot_of_eq_some {node : TrieNode48} {c : UInt8} {i : Fin 48} :
    node.slotOf c = some i ↔ node.indexes c = i.val := by
  unfold slotOf
  split
  · rename_i nonneg
    constructor
    · intro same
      rw [← Option.some.inj same]
      exact (Int.toNat_of_nonneg nonneg).symm
    · intro same
      simp [same]
  · rename_i negative
    simp only [reduceCtorEq, false_iff]
    intro same
    rw [same] at negative
    exact negative (Int.natCast_nonneg _)

@[simp] theorem slot_of_with_ptrs (node : TrieNode48) (ptrs : Fin 48 → TriePtr) (c : UInt8) :
    ({ node with ptrs } : TrieNode48).slotOf c = node.slotOf c := rfl

theorem Indexed.distinct {node : TrieNode48} (indexed : node.Indexed) : Distinct node.ptrs := by
  intro i j fullI fullJ same
  have slotI := indexed.2 i fullI
  rw [same, indexed.2 j fullJ] at slotI
  exact (Option.some.inj slotI).symm

theorem walk_eq_some {node : TrieNode48} (indexed : node.Indexed) (c : UInt8) (q : TriePtr) :
    node.walk c = some q ↔ Holds node.ptrs c q := by
  constructor
  · intro found
    unfold walk at found
    split at found
    · rename_i i slot
      obtain ⟨full, same⟩ := indexed.1 c i slot
      simp only [full, Bool.false_eq_true, ↓reduceIte, Option.some.injEq] at found
      exact ⟨i, found, found ▸ full, found ▸ same⟩
    · cases found
  · rintro ⟨i, rfl, full, rfl⟩
    simp [walk, indexed.2 i full, full]

theorem replace_spec {node : TrieNode48} (indexed : node.Indexed) {p : TriePtr}
    (full : p.isEmpty = false) (found : node.walk p.chr ≠ none) :
    (node.replace p).2 = true ∧ (node.replace p).1.path = node.path ∧ (node.replace p).1.Indexed ∧
      ∀ c, (node.replace p).1.walk c = if c = p.chr then some p else node.walk c := by
  cases slot : node.slotOf p.chr with
  | none => simp [walk, slot] at found
  | some i =>
      obtain ⟨fullI, sameI⟩ := indexed.1 p.chr i slot
      have settable : Settable node.ptrs i p := ⟨full, .inr sameI, fun j other fullJ sameJ =>
        other (indexed.distinct j i fullJ fullI (sameJ.trans sameI.symm))⟩
      have written : (node.replace p).1 = { node with ptrs := Function.update node.ptrs i p } := by
        simp [replace, slot]
      have indexed' : (node.replace p).1.Indexed := by
        rw [written]
        constructor
        · intro c j slotC
          rw [slot_of_with_ptrs] at slotC
          by_cases atJ : j = i
          · subst atJ
            have : c = p.chr := (indexed.1 c j slotC).2.symm.trans sameI
            simp [this, full]
          · simpa [Function.update_of_ne atJ] using indexed.1 c j slotC
        · intro j fullJ
          rw [slot_of_with_ptrs]
          by_cases atJ : j = i
          · subst atJ
            simpa using slot
          · simp only [Function.update_of_ne atJ] at fullJ ⊢
            exact indexed.2 j fullJ
      refine ⟨by simp [replace, slot], by rw [written], indexed', ?_⟩
      apply settable.walk (walk_eq_some indexed)
      rw [written] at indexed' ⊢
      exact walk_eq_some indexed'

/-- `insert` of a new byte takes the first empty slot and indexes it. -/
theorem insert_spec {node : TrieNode48} (indexed : node.Indexed) {p : TriePtr}
    (full : p.isEmpty = false) (absent : node.walk p.chr = none)
    (room : ∃ i, (node.ptrs i).isEmpty = true) :
    (node.insert p).2 = true ∧ (node.insert p).1.path = node.path ∧ (node.insert p).1.Indexed ∧
      ∀ c, (node.insert p).1.walk c = if c = p.chr then some p else node.walk c := by
  have noSlot : node.slotOf p.chr = none := by
    cases slot : node.slotOf p.chr with
    | none => rfl
    | some i => simp [walk, slot, (indexed.1 _ i slot).1] at absent
  cases emptySlot : firstEmpty node.ptrs with
  | none =>
      obtain ⟨i, empty⟩ := room
      simp [first_empty_none.mp emptySlot i] at empty
  | some i =>
      have emptyI := first_empty_some emptySlot
      have settable : Settable node.ptrs i p := ⟨full, .inl emptyI, fun j _ fullJ sameJ => by
        have := indexed.2 j fullJ
        rw [sameJ, noSlot] at this
        cases this⟩
      have inserted : (node.insert p).2 = true := by simp [insert, replace, noSlot, emptySlot]
      have ptrs' : (node.insert p).1.ptrs = Function.update node.ptrs i p := by
        simp [insert, replace, noSlot, emptySlot]
      have slotOf' : ∀ c, (node.insert p).1.slotOf c = if c = p.chr then some i else node.slotOf c := by
        intro c
        split_ifs with atChr
        · rw [slot_of_eq_some]
          simp [insert, replace, noSlot, emptySlot, atChr]
        · apply Option.ext
          intro j
          rw [slot_of_eq_some, slot_of_eq_some]
          simp [insert, replace, noSlot, emptySlot, atChr]
      have indexed' : (node.insert p).1.Indexed := by
        constructor
        · intro c j slotC
          rw [slotOf'] at slotC
          rw [ptrs']
          split_ifs at slotC with atChr
          · cases slotC
            simp [full, atChr]
          · have atJ : j ≠ i := by
              rintro rfl
              have fullI := (indexed.1 c j slotC).1
              rw [emptyI] at fullI
              cases fullI
            simpa [Function.update_of_ne atJ] using indexed.1 c j slotC
        · intro j fullJ
          rw [ptrs'] at fullJ
          rw [slotOf', ptrs']
          by_cases atJ : j = i
          · subst atJ
            simp
          · rw [Function.update_of_ne atJ] at fullJ ⊢
            have other := settable.others j atJ fullJ
            simp [other, indexed.2 j fullJ]
      have path' : (node.insert p).1.path = node.path := by simp [insert, replace, noSlot, emptySlot]
      refine ⟨inserted, path', indexed', ?_⟩
      apply settable.walk (walk_eq_some indexed)
      rw [← ptrs']
      exact walk_eq_some indexed'

end TrieNode48

namespace TrieNode256

/-- Every non-empty pointer is at its own byte. -/
def Positional (node : TrieNode256) : Prop := ∀ c, (node.ptrs c).isEmpty = false → (node.ptrs c).chr = c

theorem walk_eq_some {node : TrieNode256} (positional : node.Positional) (c : UInt8) (q : TriePtr) :
    node.walk c = some q ↔ Holds node.ptrs c q := by
  constructor
  · intro found
    unfold walk at found
    split at found
    · cases found
    · rename_i full
      cases found
      exact ⟨c, rfl, by simpa using full, positional c (by simpa using full)⟩
  · rintro ⟨i, rfl, full, rfl⟩
    rw [positional i full]
    simp [walk, full]

theorem Positional.settable {node : TrieNode256} (positional : node.Positional) {p : TriePtr}
    (full : p.isEmpty = false) (slot : (node.ptrs p.chr).isEmpty = true ∨ (node.ptrs p.chr).chr = p.chr) :
    Settable node.ptrs p.chr p :=
  ⟨full, slot, fun j other fullJ sameJ => other ((positional j fullJ).symm.trans sameJ)⟩

theorem Positional.update {node : TrieNode256} (positional : node.Positional) (p : TriePtr) :
    Positional { node with ptrs := Function.update node.ptrs p.chr p } := by
  intro c full
  by_cases atChr : c = p.chr
  · subst atChr
    simp
  · simp only [Function.update_of_ne atChr] at full ⊢
    exact positional c full

/-- Both `replace` of a present byte and `insert` write at the byte itself. -/
theorem replace_eq {node : TrieNode256} (positional : node.Positional) {p : TriePtr}
    (found : node.walk p.chr ≠ none) :
    node.replace p = ({ node with ptrs := Function.update node.ptrs p.chr p }, true) := by
  have full : (node.ptrs p.chr).isEmpty = false := by
    by_contra empty
    simp_all [walk]
  simp [replace, full, positional p.chr full]

theorem insert_eq {node : TrieNode256} {p : TriePtr}
    (absent : node.walk p.chr = none) :
    node.insert p = ({ node with ptrs := Function.update node.ptrs p.chr p }, true) := by
  have empty : (node.ptrs p.chr).isEmpty = true := by
    by_contra full
    simp_all [walk]
  simp [insert, replace, empty]

end TrieNode256

/-! ## Widening

A full node is widened by copying its pointers into the first slots of a larger
array (Node4 → Node16 → Node48) or to their bytes (Node48 → Node256). -/

@[simp] theorem default_is_empty : (default : TriePtr).isEmpty = true := rfl

section Widen

variable {n m : Nat} (ptrs : Fin n → TriePtr)

/-- The array of `m` slots that starts with `ptrs` and is empty after it. -/
theorem holds_extend (grows : n ≤ m) (c : UInt8) (q : TriePtr) :
    Holds (fun i : Fin m => if h : i.val < n then ptrs ⟨i.val, h⟩ else default) c q ↔ Holds ptrs c q := by
  constructor
  · rintro ⟨i, rfl, full, rfl⟩
    by_cases inside : i.val < n
    · exact ⟨⟨i.val, inside⟩, by simp [inside], by simpa [inside] using full, by simp [inside]⟩
    · simp [inside] at full
  · rintro ⟨i, rfl, full, rfl⟩
    exact ⟨⟨i.val, by omega⟩, by simp, full, rfl⟩

theorem distinct_extend (distinct : Distinct ptrs) :
    Distinct (fun i : Fin m => if h : i.val < n then ptrs ⟨i.val, h⟩ else default) := by
  intro i j fullI fullJ same
  by_cases insideI : i.val < n
  · by_cases insideJ : j.val < n
    · simp only [insideI, insideJ, ↓reduceDIte] at fullI fullJ same
      have := distinct _ _ fullI fullJ same
      exact Fin.ext (by simpa using congrArg Fin.val this)
    · simp [insideJ] at fullJ
  · simp [insideI] at fullI

theorem foldl_update_apply {ι κ α : Type} [DecidableEq κ] (key : ι → κ) (val : ι → α) :
    ∀ (l : List ι) (init : κ → α), (l.map key).Nodup → ∀ c,
      l.foldl (fun f i => Function.update f (key i) (val i)) init c =
        ((l.find? fun i => key i == c).map val).getD (init c)
  | [], _, _, _ => rfl
  | i :: rest, init, nodup, c => by
      rw [List.map_cons, List.nodup_cons] at nodup
      rw [List.foldl_cons, foldl_update_apply key val rest _ nodup.2 c]
      by_cases atKey : key i = c
      · have absent : rest.find? (fun j => key j == c) = none := by
          rw [List.find?_eq_none]
          intro j member same
          exact nodup.1 (List.mem_map.mpr ⟨j, member, by simpa [atKey] using same⟩)
        rw [List.find?_cons_of_pos (by simpa using atKey), absent]
        simp [atKey]
      · rw [List.find?_cons_of_neg (by simpa using atKey)]
        cases rest.find? (fun j => key j == c) <;> simp [Function.update_of_ne (Ne.symm atKey)]

theorem nodup_chrs_of_full (distinct : Distinct ptrs) (full : ∀ i, (ptrs i).isEmpty = false) :
    ((List.finRange n).map fun i => (ptrs i).chr).Nodup :=
  (List.nodup_finRange n).map_on fun i _ j _ same => distinct i j (full i) (full j) same

end Widen

theorem has_space_extend {n m : Nat} (ptrs : Fin n → TriePtr) (grows : n < m) (c : UInt8) :
    Trie.nodeHasSpace c ((List.finRange m).map
      fun i : Fin m => if h : i.val < n then ptrs ⟨i.val, h⟩ else default) = true :=
  (has_space_iff c).mpr ⟨⟨n, grows⟩, .inl (by simp)⟩

theorem TrieNode16.from_node4_holds (node4 : TrieNode4) (c : UInt8) (q : TriePtr) :
    Holds (fromNode4 node4).ptrs c q ↔ Holds node4.ptrs c q :=
  holds_extend node4.ptrs (by decide) c q

namespace TrieNode48

theorem from_node16_holds (node16 : TrieNode16) (c : UInt8) (q : TriePtr) :
    Holds (fromNode16 node16).ptrs c q ↔ Holds node16.ptrs c q :=
  holds_extend node16.ptrs (by decide) c q

/-- The index of a full Node16's widening names the slot of each byte. -/
theorem from_node16_indexes {node16 : TrieNode16} (distinct : Distinct node16.ptrs)
    (full : ∀ i, (node16.ptrs i).isEmpty = false) (c : UInt8) :
    (fromNode16 node16).indexes c =
      (((List.finRange 16).find? fun i => (node16.ptrs i).chr == c).map fun i => (i.val : Int)).getD (-1) :=
  foldl_update_apply (fun i => (node16.ptrs i).chr) (fun i => (i.val : Int)) _ (fun _ => -1)
    (nodup_chrs_of_full node16.ptrs distinct full) c

theorem from_node16_indexed {node16 : TrieNode16} (distinct : Distinct node16.ptrs)
    (full : ∀ i, (node16.ptrs i).isEmpty = false) : (fromNode16 node16).Indexed := by
  have indexes := from_node16_indexes distinct full
  constructor
  · intro c j slot
    rw [slot_of_eq_some, indexes] at slot
    cases found : (List.finRange 16).find? (fun i => (node16.ptrs i).chr == c) with
    | none => simp [found] at slot
    | some i =>
        simp only [found, Option.map_some, Option.getD_some, Nat.cast_inj] at slot
        have inside : j.val < 16 := by omega
        have atI : (⟨j.val, inside⟩ : Fin 16) = i := Fin.ext slot.symm
        have same := List.find?_some found
        simp only [beq_iff_eq] at same
        simp [fromNode16, inside, atI, full i, same]
  · intro j fullJ
    have inside : j.val < 16 := by
      by_contra outside
      simp [fromNode16, outside] at fullJ
    rw [slot_of_eq_some, indexes]
    simp only [fromNode16, inside, ↓reduceDIte]
    cases found : (List.finRange 16).find?
        (fun i => (node16.ptrs i).chr == (node16.ptrs ⟨j.val, inside⟩).chr) with
    | none =>
        rw [List.find?_eq_none] at found
        exact absurd (by simp) (found ⟨j.val, inside⟩ (List.mem_finRange _))
    | some i =>
        have same := List.find?_some found
        simp only [beq_iff_eq] at same
        have atJ := distinct i ⟨j.val, inside⟩ (full i) (full _) same
        simp [atJ]

end TrieNode48

namespace TrieNode256

/-- The pointers of a full Node48's widening, each at its byte. -/
theorem from_node48_ptrs {node48 : TrieNode48} (indexed : node48.Indexed)
    (full : ∀ i, (node48.ptrs i).isEmpty = false) (c : UInt8) :
    (fromNode48 node48).ptrs c =
      (((List.finRange 48).find? fun i => (node48.ptrs i).chr == c).map node48.ptrs).getD default :=
  foldl_update_apply (fun i => (node48.ptrs i).chr) node48.ptrs _ (fun _ => default)
    (nodup_chrs_of_full node48.ptrs indexed.distinct full) c

theorem from_node48_positional {node48 : TrieNode48} (indexed : node48.Indexed)
    (full : ∀ i, (node48.ptrs i).isEmpty = false) : (fromNode48 node48).Positional := by
  intro c fullC
  rw [from_node48_ptrs indexed full] at fullC ⊢
  cases found : (List.finRange 48).find? (fun i => (node48.ptrs i).chr == c) with
  | none => simp [found] at fullC
  | some i => simpa [found] using List.find?_some found

theorem from_node48_holds {node48 : TrieNode48} (indexed : node48.Indexed)
    (full : ∀ i, (node48.ptrs i).isEmpty = false) (c : UInt8) (q : TriePtr) :
    Holds (fromNode48 node48).ptrs c q ↔ Holds node48.ptrs c q := by
  have ptrs := from_node48_ptrs indexed full
  constructor
  · rintro ⟨c', rfl, fullC, rfl⟩
    rw [ptrs] at fullC ⊢
    cases found : (List.finRange 48).find? (fun i => (node48.ptrs i).chr == c') with
    | none => simp [found] at fullC
    | some i => exact ⟨i, by simp, by simpa [found] using fullC, by simp⟩
  · rintro ⟨i, rfl, fullI, rfl⟩
    refine ⟨(node48.ptrs i).chr, ?_, fullI, rfl⟩
    rw [ptrs]
    cases found : (List.finRange 48).find? (fun j => (node48.ptrs j).chr == (node48.ptrs i).chr) with
    | none =>
        rw [List.find?_eq_none] at found
        exact absurd (by simp) (found i (List.mem_finRange _))
    | some j =>
        have same := List.find?_some found
        simp only [beq_iff_eq] at same
        simp [indexed.distinct j i (full j) fullI same]

end TrieNode256

/-! ## Nodes -/

namespace TrieNodeType

def WF : TrieNodeType → Prop
  | node4 data => Distinct data.ptrs
  | node16 data => Distinct data.ptrs
  | node48 data => data.Indexed
  | node256 data => data.Positional
  | leaf _ => True

theorem walk_some {node : TrieNodeType} (wf : node.WF) {c : UInt8} {q : TriePtr}
    (found : node.walk c = some q) : q.chr = c ∧ q.isEmpty = false := by
  cases node with
  | node4 data => exact ((scan_walk_eq_some wf c q).mp found).chr
  | node16 data => exact ((scan_walk_eq_some wf c q).mp found).chr
  | node48 data => exact ((TrieNode48.walk_eq_some wf c q).mp found).chr
  | node256 data => exact ((TrieNode256.walk_eq_some wf c q).mp found).chr
  | leaf data => cases found

theorem is_leaf_iff_id (node : TrieNodeType) : node.isLeaf = true ↔ node.id = TrieNodeID.leaf.toU8 := by
  cases node <;> simp [isLeaf, id, TrieNodeID.toU8]

/-- What `replace` and `insert` leave: a well-formed node of the same kind and
path whose walk has `p` for `p.chr` and is unchanged elsewhere. -/
structure SetsChild (node node' : TrieNodeType) (p : TriePtr) : Prop where
  wf : node'.WF
  pathBytes : node'.pathBytes = node.pathBytes
  id : node'.id = node.id
  walk : ∀ c, node'.walk c = if c = p.chr then some p else node.walk c

theorem replace_sets_child {node : TrieNodeType} (wf : node.WF) {p : TriePtr} (full : p.isEmpty = false)
    (found : node.walk p.chr ≠ none) : ∃ node', node.replace p = .ok (node', true) ∧ SetsChild node node' p := by
  cases node with
  | node4 data =>
      obtain ⟨i, eq, settable⟩ := scan_replace_eq wf full found
      refine ⟨.node4 ⟨data.path, Function.update data.ptrs i p⟩, by simp [replace, TrieNode4.replace, eq],
        settable.distinct wf, rfl, rfl, ?_⟩
      exact settable.walk (scan_walk_eq_some wf) (scan_walk_eq_some (settable.distinct wf))
  | node16 data =>
      obtain ⟨i, eq, settable⟩ := scan_replace_eq wf full found
      refine ⟨.node16 ⟨data.path, Function.update data.ptrs i p⟩, by simp [replace, TrieNode16.replace, eq],
        settable.distinct wf, rfl, rfl, ?_⟩
      exact settable.walk (scan_walk_eq_some wf) (scan_walk_eq_some (settable.distinct wf))
  | node48 data =>
      obtain ⟨done, path, indexed, walk⟩ := TrieNode48.replace_spec wf full found
      exact ⟨.node48 (data.replace p).1, by simp only [replace, ← done], indexed, path, rfl, walk⟩
  | node256 data =>
      have fullAt : (data.ptrs p.chr).isEmpty = false := by
        by_contra empty
        simp_all [walk, TrieNode256.walk]
      have settable := wf.settable full (.inr (wf p.chr fullAt))
      refine ⟨.node256 { data with ptrs := Function.update data.ptrs p.chr p },
        by simp [replace, TrieNode256.replace_eq wf found], wf.update p, rfl, rfl, ?_⟩
      exact settable.walk (TrieNode256.walk_eq_some wf) (TrieNode256.walk_eq_some (wf.update p))
  | leaf data => exact absurd rfl found

theorem node256_has_space {data : TrieNode256} {c : UInt8} (absent : data.walk c = none) :
    Trie.nodeHasSpace c (node256 data).ptrs = true := by
  have empty : (data.ptrs c).isEmpty = true := by
    by_contra full
    simp_all [TrieNode256.walk]
  simp only [Trie.nodeHasSpace, ptrs, List.any_reverse, List.any_map, List.any_eq_true, List.mem_range]
  exact ⟨c.toNat, c.toNat_lt, by simp [empty]⟩

theorem insert_sets_child {node : TrieNodeType} (wf : node.WF) {p : TriePtr} (full : p.isEmpty = false)
    (notLeaf : node.isLeaf = false) (absent : node.walk p.chr = none)
    (space : Trie.nodeHasSpace p.chr node.ptrs = true) :
    ∃ node', node.insert p = .ok (node', true) ∧ SetsChild node node' p := by
  cases node with
  | node4 data =>
      obtain ⟨i, eq, settable⟩ := scan_insert_eq full absent
        (room_of_has_space space (scan_walk_eq_none.mp absent))
      refine ⟨.node4 ⟨data.path, Function.update data.ptrs i p⟩, by simp [insert, TrieNode4.insert, eq],
        settable.distinct wf, rfl, rfl, ?_⟩
      exact settable.walk (scan_walk_eq_some wf) (scan_walk_eq_some (settable.distinct wf))
  | node16 data =>
      obtain ⟨i, eq, settable⟩ := scan_insert_eq full absent
        (room_of_has_space space (scan_walk_eq_none.mp absent))
      refine ⟨.node16 ⟨data.path, Function.update data.ptrs i p⟩, by simp [insert, TrieNode16.insert, eq],
        settable.distinct wf, rfl, rfl, ?_⟩
      exact settable.walk (scan_walk_eq_some wf) (scan_walk_eq_some (settable.distinct wf))
  | node48 data =>
      have room := room_of_has_space space (absent_of_walk_none (TrieNode48.walk_eq_some wf) absent)
      obtain ⟨done, path, indexed, walk⟩ := TrieNode48.insert_spec wf full absent room
      exact ⟨.node48 (data.insert p).1, by simp only [insert, ← done], indexed, path, rfl, walk⟩
  | node256 data =>
      have emptyAt : (data.ptrs p.chr).isEmpty = true := by
        by_contra fullAt
        simp_all [walk, TrieNode256.walk]
      have settable := wf.settable full (.inl emptyAt)
      refine ⟨.node256 { data with ptrs := Function.update data.ptrs p.chr p },
        by simp [insert, TrieNode256.insert_eq absent], wf.update p, rfl, rfl, ?_⟩
      exact settable.walk (TrieNode256.walk_eq_some wf) (TrieNode256.walk_eq_some (wf.update p))
  | leaf data => cases notLeaf

/-! Widening a full node keeps its children and its path, and the wider node
has room. -/

theorem widen_node4 {data : TrieNode4} (wf : (node4 data).WF) :
    (node16 (TrieNode16.fromNode4 data)).WF ∧
      (∀ c, (node16 (TrieNode16.fromNode4 data)).walk c = (node4 data).walk c) ∧
      ∀ c, Trie.nodeHasSpace c (node16 (TrieNode16.fromNode4 data)).ptrs = true :=
  have distinct : Distinct (TrieNode16.fromNode4 data).ptrs := distinct_extend data.ptrs wf
  ⟨distinct, walk_eq_of_holds (scan_walk_eq_some wf) (scan_walk_eq_some distinct)
    (TrieNode16.from_node4_holds data), has_space_extend data.ptrs (by decide)⟩

theorem widen_node16 {data : TrieNode16} (wf : (node16 data).WF) (full : ∀ i, (data.ptrs i).isEmpty = false) :
    (node48 (TrieNode48.fromNode16 data)).WF ∧
      (∀ c, (node48 (TrieNode48.fromNode16 data)).walk c = (node16 data).walk c) ∧
      ∀ c, Trie.nodeHasSpace c (node48 (TrieNode48.fromNode16 data)).ptrs = true :=
  have indexed := TrieNode48.from_node16_indexed wf full
  ⟨indexed, walk_eq_of_holds (scan_walk_eq_some wf) (TrieNode48.walk_eq_some indexed)
    (TrieNode48.from_node16_holds data), has_space_extend data.ptrs (by decide)⟩

theorem widen_node48 {data : TrieNode48} (wf : (node48 data).WF) (full : ∀ i, (data.ptrs i).isEmpty = false) :
    (node256 (TrieNode256.fromNode48 data)).WF ∧
      ∀ c, (node256 (TrieNode256.fromNode48 data)).walk c = (node48 data).walk c :=
  have positional := TrieNode256.from_node48_positional wf full
  ⟨positional, walk_eq_of_holds (TrieNode48.walk_eq_some wf) (TrieNode256.walk_eq_some positional)
    (TrieNode256.from_node48_holds wf full)⟩

/-! Copying a node into a later trie. -/

theorem holds_copy_update {ι : Type} (ptrs : ι → TriePtr) (childBlockId : Nat) (c : UInt8) (q : TriePtr) :
    Holds (TriePtr.copyUpdate childBlockId ∘ ptrs) c q ↔
      ∃ q₀, Holds ptrs c q₀ ∧ q₀.copyUpdate childBlockId = q := by
  constructor
  · rintro ⟨i, rfl, full, rfl⟩
    exact ⟨ptrs i, ⟨i, rfl, by simpa using full, by simp⟩, rfl⟩
  · rintro ⟨_, ⟨i, rfl, full, rfl⟩, rfl⟩
    exact ⟨i, rfl, by simpa using full, by simp⟩

theorem distinct_copy_update {ι : Type} {ptrs : ι → TriePtr} (childBlockId : Nat) (distinct : Distinct ptrs) :
    Distinct (TriePtr.copyUpdate childBlockId ∘ ptrs) := by
  intro i j fullI fullJ same
  simp only [Function.comp_apply, TriePtr.copy_update_is_empty, TriePtr.copy_update_chr] at fullI fullJ same
  exact distinct i j fullI fullJ same

theorem walk_copy_update {ι : Type} {ptrs : ι → TriePtr} {walk walk' : UInt8 → Option TriePtr}
    (childBlockId : Nat) (old : ∀ c q, walk c = some q ↔ Holds ptrs c q)
    (new : ∀ c q, walk' c = some q ↔ Holds (TriePtr.copyUpdate childBlockId ∘ ptrs) c q) (c : UInt8) :
    walk' c = (walk c).map (TriePtr.copyUpdate childBlockId) := by
  apply Option.ext
  intro q
  rw [new, holds_copy_update, Option.map_eq_some_iff]
  simp only [old]

theorem copy_update_spec {node : TrieNodeType} (wf : node.WF) (childBlockId : Nat) :
    (node.copyUpdate childBlockId).WF ∧ (node.copyUpdate childBlockId).pathBytes = node.pathBytes ∧
      (node.copyUpdate childBlockId).id = node.id ∧
      ∀ c, (node.copyUpdate childBlockId).walk c = (node.walk c).map (TriePtr.copyUpdate childBlockId) := by
  cases node with
  | node4 data =>
      have distinct := distinct_copy_update childBlockId wf
      exact ⟨distinct, rfl, rfl,
        walk_copy_update childBlockId (scan_walk_eq_some wf) (scan_walk_eq_some distinct)⟩
  | node16 data =>
      have distinct := distinct_copy_update childBlockId wf
      exact ⟨distinct, rfl, rfl,
        walk_copy_update childBlockId (scan_walk_eq_some wf) (scan_walk_eq_some distinct)⟩
  | node48 data =>
      have indexed : TrieNode48.Indexed { data with ptrs := TriePtr.copyUpdate childBlockId ∘ data.ptrs } := by
        constructor
        · intro c i slot
          simpa using wf.1 c i slot
        · intro i full
          simpa using wf.2 i (by simpa using full)
      exact ⟨indexed, rfl, rfl,
        walk_copy_update childBlockId (TrieNode48.walk_eq_some wf) (TrieNode48.walk_eq_some indexed)⟩
  | node256 data =>
      have positional : TrieNode256.Positional
          { data with ptrs := TriePtr.copyUpdate childBlockId ∘ data.ptrs } := by
        intro c full
        simpa using wf c (by simpa using full)
      exact ⟨positional, rfl, rfl,
        walk_copy_update childBlockId (TrieNode256.walk_eq_some wf) (TrieNode256.walk_eq_some positional)⟩
  | leaf data => exact ⟨trivial, rfl, rfl, fun _ => rfl⟩

/-! A node moved under a new Node4 keeps its children. -/

@[simp] theorem set_path_walk (node : TrieNodeType) (path : List UInt8) :
    (node.setPath path).walk = node.walk := by
  cases node <;> rfl

@[simp] theorem set_path_path_bytes (node : TrieNodeType) (path : List UInt8) :
    (node.setPath path).pathBytes = path := by
  cases node <;> rfl

@[simp] theorem set_path_id (node : TrieNodeType) (path : List UInt8) :
    (node.setPath path).id = node.id := by
  cases node <;> rfl

theorem set_path_wf {node : TrieNodeType} (wf : node.WF) (path : List UInt8) : (node.setPath path).WF := by
  cases node <;> exact wf

/-- The Node4 that `promote_leaf_to_node4` and `splice_leaf` build: a fresh one
with the children of two different bytes. -/
theorem node4_pair (path : List UInt8) {p q : TriePtr} (fullP : p.isEmpty = false)
    (fullQ : q.isEmpty = false) (differ : p.chr ≠ q.chr) :
    ((TrieNode4.new path).insert p).2 = true ∧ (((TrieNode4.new path).insert p).1.insert q).2 = true ∧
      (node4 (((TrieNode4.new path).insert p).1.insert q).1).WF ∧
      (node4 (((TrieNode4.new path).insert p).1.insert q).1).pathBytes = path ∧
      ∀ c, (node4 (((TrieNode4.new path).insert p).1.insert q).1).walk c =
        if c = q.chr then some q else if c = p.chr then some p else none := by
  have none : Distinct (TrieNode4.new path).ptrs := fun i _ full => by simp [TrieNode4.new] at full
  have noWalk : ∀ c, scanWalk (TrieNode4.new path).ptrs c = Option.none := fun c =>
    scan_walk_eq_none.mpr fun i full => by simp [TrieNode4.new] at full
  obtain ⟨i, eqP, settableP⟩ := scan_insert_eq fullP (noWalk p.chr) ⟨0, rfl⟩
  have distinctP := settableP.distinct none
  have walkP := settableP.walk (scan_walk_eq_some none) (scan_walk_eq_some distinctP)
  have room : ∃ j, (Function.update (TrieNode4.new path).ptrs i p j).isEmpty = true := by
    by_cases atZero : i = 0
    · exact ⟨1, by simp [atZero, TrieNode4.new]⟩
    · exact ⟨0, by simp [Ne.symm atZero, TrieNode4.new]⟩
  obtain ⟨j, eqQ, settableQ⟩ := scan_insert_eq fullQ (by simp [walkP, Ne.symm differ, noWalk]) room
  have distinctQ := settableQ.distinct distinctP
  have walkQ := settableQ.walk (scan_walk_eq_some distinctP) (scan_walk_eq_some distinctQ)
  refine ⟨by simp [TrieNode4.insert, eqP], by simp [TrieNode4.insert, eqP, eqQ], ?_, rfl, ?_⟩
  · simp only [TrieNode4.insert, eqP, eqQ]
    exact distinctQ
  · intro c
    simp only [walk, TrieNode4.walk, TrieNode4.insert, eqP, eqQ]
    rw [walkQ, walkP, noWalk]

end TrieNodeType

end Hyperchains.Marf
