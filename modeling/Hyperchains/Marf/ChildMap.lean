import Hyperchains.Marf.NodeSpec

/-! The child map of a node over a whole run of calls. A node reached from an
empty Node4, Node16, Node48 or Node256 by `insert` and `replace` of non-empty
pointers, and by the widenings `Trie::insert_leaf` makes of a node without
room, stays well formed, and its `walk` reads, for each byte, the pointer the
latest call that returned `true` wrote. `insert` returns `false` exactly when
the node has no room for the byte, and then changes nothing.

Both conditions are needed. A `replace` of an empty pointer leaves a Node48's
index naming a slot that a later `insert` gives to another byte, and
`from_node48` of a Node48 with free slots copies those free slots, byte 0
included, over the pointers it has already placed. -/

namespace Hyperchains.Marf

theorem no_space_iff {n : Nat} {ptrs : Fin n → TriePtr} (c : UInt8) :
    Trie.nodeHasSpace c ((List.finRange n).map ptrs) = false ↔
      ∀ i, (ptrs i).isEmpty = false ∧ (ptrs i).chr ≠ c := by
  rw [← Bool.not_eq_true, has_space_iff]
  simp

namespace TrieNodeType

/-! ## One call -/

theorem insert_of_replace {node node' : TrieNodeType} {p : TriePtr}
    (replaced : node.replace p = .ok (node', true)) : node.insert p = .ok (node', true) := by
  cases node with
  | node4 data =>
      rcases scan : scanReplace data.ptrs p with ⟨ptrs, _ | _⟩ <;>
        simp_all [replace, insert, TrieNode4.replace, TrieNode4.insert, scanInsert]
  | node16 data =>
      rcases scan : scanReplace data.ptrs p with ⟨ptrs, _ | _⟩ <;>
        simp_all [replace, insert, TrieNode16.replace, TrieNode16.insert, scanInsert]
  | node48 data =>
      rcases scan : data.replace p with ⟨replaced', _ | _⟩ <;> simp_all [replace, insert, TrieNode48.insert]
  | node256 data =>
      rcases scan : data.replace p with ⟨replaced', _ | _⟩ <;> simp_all [replace, insert, TrieNode256.insert]
  | leaf data => cases replaced

theorem replace_absent {node : TrieNodeType} (wf : node.WF) {p : TriePtr} (notLeaf : node.isLeaf = false)
    (absent : node.walk p.chr = none) : node.replace p = .ok (node, false) := by
  cases node with
  | node4 data =>
      have noSlot : firstWith data.ptrs p.chr = none := by
        simpa [walk, TrieNode4.walk, scanWalk] using absent
      simp [replace, TrieNode4.replace, scanReplace, noSlot]
  | node16 data =>
      have noSlot : firstWith data.ptrs p.chr = none := by
        simpa [walk, TrieNode16.walk, scanWalk] using absent
      simp [replace, TrieNode16.replace, scanReplace, noSlot]
  | node48 data =>
      have noSlot : data.slotOf p.chr = none := by
        cases slot : data.slotOf p.chr with
        | none => rfl
        | some i => simp [walk, TrieNode48.walk, slot, (wf.1 _ i slot).1] at absent
      simp [replace, TrieNode48.replace, noSlot]
  | node256 data =>
      have empty : (data.ptrs p.chr).isEmpty = true := by
        by_contra full
        simp_all [walk, TrieNode256.walk]
      simp [replace, TrieNode256.replace, empty]
  | leaf data => cases notLeaf

theorem node256_has_room {data : TrieNode256} (wf : (node256 data).WF) (c : UInt8) :
    Trie.nodeHasSpace c (node256 data).ptrs = true := by
  simp only [Trie.nodeHasSpace, ptrs, List.any_reverse, List.any_map, List.any_eq_true, List.mem_range]
  refine ⟨c.toNat, c.toNat_lt, ?_⟩
  by_cases empty : (data.ptrs c).isEmpty = true
  · simp [empty]
  · simp [(wf : data.Positional) c (by simpa using empty)]

theorem insert_no_space {node : TrieNodeType} (wf : node.WF) {p : TriePtr} (notLeaf : node.isLeaf = false)
    (noSpace : Trie.nodeHasSpace p.chr node.ptrs = false) : node.insert p = .ok (node, false) := by
  cases node with
  | node4 data =>
      have taken := (no_space_iff p.chr).mp noSpace
      have noSlot : firstWith data.ptrs p.chr = none := first_with_none.mpr fun i _ => (taken i).2
      have noRoom : firstEmpty data.ptrs = none := first_empty_none.mpr fun i => (taken i).1
      simp [insert, TrieNode4.insert, scanInsert, scanReplace, noSlot, noRoom]
  | node16 data =>
      have taken := (no_space_iff p.chr).mp noSpace
      have noSlot : firstWith data.ptrs p.chr = none := first_with_none.mpr fun i _ => (taken i).2
      have noRoom : firstEmpty data.ptrs = none := first_empty_none.mpr fun i => (taken i).1
      simp [insert, TrieNode16.insert, scanInsert, scanReplace, noSlot, noRoom]
  | node48 data =>
      have taken := (no_space_iff p.chr).mp noSpace
      have noSlot : data.slotOf p.chr = none := by
        cases slot : data.slotOf p.chr with
        | none => rfl
        | some i => exact absurd (wf.1 _ i slot).2 (taken i).2
      have noRoom : firstEmpty data.ptrs = none := first_empty_none.mpr fun i => (taken i).1
      simp [insert, TrieNode48.insert, TrieNode48.replace, noSlot, noRoom]
  | node256 data => simp [node256_has_room wf] at noSpace
  | leaf data => cases notLeaf

/-- What `insert` of a non-empty pointer does: with room for its byte it sets
that byte's child, and without room it returns `false`. -/
theorem insert_outcome {node : TrieNodeType} (wf : node.WF) {p : TriePtr} (full : p.isEmpty = false)
    (notLeaf : node.isLeaf = false) :
    (Trie.nodeHasSpace p.chr node.ptrs = true →
      ∃ node', node.insert p = .ok (node', true) ∧ SetsChild node node' p) ∧
    (Trie.nodeHasSpace p.chr node.ptrs = false → node.insert p = .ok (node, false)) := by
  refine ⟨fun space => ?_, insert_no_space wf notLeaf⟩
  cases found : node.walk p.chr with
  | none => exact insert_sets_child wf full notLeaf found space
  | some q =>
      -- a byte already present goes through `replace`
      obtain ⟨node', replaced, sets⟩ := replace_sets_child wf full (by simp [found])
      exact ⟨node', insert_of_replace replaced, sets⟩

theorem SetsChild.not_leaf {node node' : TrieNodeType} {p : TriePtr} (sets : SetsChild node node' p)
    (notLeaf : node.isLeaf = false) : node'.isLeaf = false := by
  rw [Bool.eq_false_iff]
  intro leaf
  rw [is_leaf_iff_id, sets.id, ← is_leaf_iff_id, notLeaf] at leaf
  cases leaf

/-! ## A whole run -/

/-- A node reached from an empty Node4, Node16, Node48 or Node256 by `insert`
and `replace` of non-empty pointers and by the widenings `Trie::insert_leaf`
makes of full nodes, with the map its calls wrote: for each byte, the pointer
of the latest call that returned `true`. -/
inductive Built : TrieNodeType → (UInt8 → Option TriePtr) → Prop
  | node4 (path : List UInt8) : Built (node4 (TrieNode4.new path)) fun _ => none
  | node16 (path : List UInt8) : Built (node16 (TrieNode16.new path)) fun _ => none
  | node48 (path : List UInt8) : Built (node48 (TrieNode48.new path)) fun _ => none
  | node256 (path : List UInt8) : Built (node256 (TrieNode256.new path)) fun _ => none
  | insert {node node' : TrieNodeType} {written : UInt8 → Option TriePtr} {p : TriePtr} {done : Bool} :
      Built node written → p.isEmpty = false → node.insert p = .ok (node', done) →
      Built node' (if done then Function.update written p.chr (some p) else written)
  | replace {node node' : TrieNodeType} {written : UInt8 → Option TriePtr} {p : TriePtr} {done : Bool} :
      Built node written → p.isEmpty = false → node.replace p = .ok (node', done) →
      Built node' (if done then Function.update written p.chr (some p) else written)
  | fromNode4 {data : TrieNode4} {written : UInt8 → Option TriePtr} :
      Built (node4 data) written → Built (node16 (TrieNode16.fromNode4 data)) written
  | fromNode16 {data : TrieNode16} {written : UInt8 → Option TriePtr} :
      Built (node16 data) written → (∀ i, (data.ptrs i).isEmpty = false) →
      Built (node48 (TrieNode48.fromNode16 data)) written
  | fromNode48 {data : TrieNode48} {written : UInt8 → Option TriePtr} :
      Built (node48 data) written → (∀ i, (data.ptrs i).isEmpty = false) →
      Built (node256 (TrieNode256.fromNode48 data)) written

/-- A call that set a child: the written map gets the pointer at its byte. -/
theorem SetsChild.written {node node' : TrieNodeType} {p : TriePtr} {written : UInt8 → Option TriePtr}
    (sets : SetsChild node node' p) (notLeaf : node.isLeaf = false) (walk : ∀ c, node.walk c = written c) :
    node'.WF ∧ node'.isLeaf = false ∧ ∀ c, node'.walk c = Function.update written p.chr (some p) c := by
  refine ⟨sets.wf, sets.not_leaf notLeaf, fun c => ?_⟩
  rw [sets.walk c, Function.update_apply, walk c]

/-- The run invariant: a built node is well formed, is not a leaf, and its
walk reads the written map. Each call keeps it: `insert` by `insert_outcome`,
`replace` by whether the byte is there, a widening by the `widen` lemmas. -/
theorem Built.invariant {node : TrieNodeType} {written : UInt8 → Option TriePtr} (built : Built node written) :
    node.WF ∧ node.isLeaf = false ∧ ∀ c, node.walk c = written c := by
  induction built with
  | node4 path =>
      refine ⟨fun i _ full => by simp [TrieNode4.new] at full, rfl, fun c => ?_⟩
      simp [walk, TrieNode4.walk, scanWalk, firstWith, TrieNode4.new]
  | node16 path =>
      refine ⟨fun i _ full => by simp [TrieNode16.new] at full, rfl, fun c => ?_⟩
      simp [walk, TrieNode16.walk, scanWalk, firstWith, TrieNode16.new]
  | node48 path =>
      have noSlot : ∀ c, (TrieNode48.new path).slotOf c = none := fun c => by
        simp [TrieNode48.slotOf, TrieNode48.new]
      refine ⟨⟨fun c i slot => by simp [noSlot] at slot, fun i full => by simp [TrieNode48.new] at full⟩,
        rfl, fun c => ?_⟩
      simp [walk, TrieNode48.walk, noSlot]
  | node256 path =>
      refine ⟨fun c full => by simp [TrieNode256.new] at full, rfl, fun c => ?_⟩
      simp [walk, TrieNode256.walk, TrieNode256.new]
  | @insert node node' written p done _ full ran ih =>
      obtain ⟨wf, notLeaf, walk⟩ := ih
      obtain ⟨withRoom, withoutRoom⟩ := insert_outcome wf full notLeaf
      cases space : Trie.nodeHasSpace p.chr node.ptrs
      · -- no room: `insert` returned `false` and changed nothing
        rw [withoutRoom space] at ran
        cases ran
        exact ⟨wf, notLeaf, walk⟩
      · obtain ⟨set, inserted, sets⟩ := withRoom space
        rw [inserted] at ran
        cases ran
        simpa using sets.written notLeaf walk
  | @replace node node' written p done _ full ran ih =>
      obtain ⟨wf, notLeaf, walk⟩ := ih
      cases found : node.walk p.chr with
      | none =>
          rw [replace_absent wf notLeaf found] at ran
          cases ran
          exact ⟨wf, notLeaf, walk⟩
      | some q =>
          obtain ⟨set, replaced, sets⟩ := replace_sets_child wf full (by simp [found])
          rw [replaced] at ran
          cases ran
          simpa using sets.written notLeaf walk
  | fromNode4 _ ih =>
      obtain ⟨wf, -, walk⟩ := ih
      obtain ⟨wf', widened, -⟩ := widen_node4 wf
      exact ⟨wf', rfl, fun c => (widened c).trans (walk c)⟩
  | fromNode16 _ full ih =>
      obtain ⟨wf, -, walk⟩ := ih
      obtain ⟨wf', widened, -⟩ := widen_node16 wf full
      exact ⟨wf', rfl, fun c => (widened c).trans (walk c)⟩
  | fromNode48 _ full ih =>
      obtain ⟨wf, -, walk⟩ := ih
      obtain ⟨wf', widened⟩ := widen_node48 wf full
      exact ⟨wf', rfl, fun c => (widened c).trans (walk c)⟩

/-! ## The child map of a built node -/

/-- The bytes of the non-empty pointers of a list of slots, no two alike when
no two slots' non-empty pointers share a byte. -/
theorem slot_chrs_nodup {ι : Type} {slots : List ι} (nodup : slots.Nodup) (ptrs : ι → TriePtr)
    (apart : ∀ i ∈ slots, ∀ j ∈ slots, (ptrs i).isEmpty = false → (ptrs j).isEmpty = false →
      (ptrs i).chr = (ptrs j).chr → i = j) :
    (((slots.map ptrs).filter fun q => !q.isEmpty).map TriePtr.chr).Nodup := by
  rw [List.filter_map, List.map_map]
  refine (nodup.filter _).map_on fun i memI j memJ same => ?_
  rw [List.mem_filter] at memI memJ
  exact apart i memI.1 j memJ.1 (by simpa using memI.2) (by simpa using memJ.2) same

theorem WF.chrs_nodup {node : TrieNodeType} (wf : node.WF) :
    ((node.ptrs.filter fun q => !q.isEmpty).map TriePtr.chr).Nodup := by
  cases node with
  | node4 data => exact slot_chrs_nodup (List.nodup_finRange 4) _ fun i _ j _ => wf i j
  | node16 data => exact slot_chrs_nodup (List.nodup_finRange 16) _ fun i _ j _ => wf i j
  | node48 data =>
      exact slot_chrs_nodup (List.nodup_finRange 48) _ fun i _ j _ => TrieNode48.Indexed.distinct wf i j
  | node256 data =>
      -- a Node256's slot `c` holds byte `c`, and the bytes below 256 are apart
      refine slot_chrs_nodup List.nodup_range _ fun i memI j memJ fullI fullJ same => ?_
      rw [(wf : data.Positional) _ fullI, (wf : data.Positional) _ fullJ] at same
      have atI : i.toUInt8.toNat = i := by simpa using List.mem_range.mp memI
      have atJ : j.toUInt8.toNat = j := by simpa using List.mem_range.mp memJ
      rw [← atI, ← atJ, same]
  | leaf data => simp [ptrs]

theorem no_space_mem {c : UInt8} {children : List TriePtr} (noSpace : Trie.nodeHasSpace c children = false) :
    ∀ q ∈ children, q.isEmpty = false ∧ q.chr ≠ c := by
  intro q member
  simp only [Trie.nodeHasSpace, List.any_reverse, List.any_eq_false, Bool.or_eq_true, beq_iff_eq,
    not_or] at noSpace
  obtain ⟨empty, other⟩ := noSpace q member
  exact ⟨by simpa using empty, other⟩

/-- What a node's child map keeps through a run: `walk` reads the latest
successful write of each byte, no two non-empty children share a byte,
`insert` returns `false` only on a Node4, Node16 or Node48 whose slots all hold
other bytes, a Node48's index names exactly the slots of non-empty pointers
with their bytes, and each widening keeps `walk`. -/
structure ChildMapSound (node : TrieNodeType) (written : UInt8 → Option TriePtr) : Prop where
  walk : ∀ c, node.walk c = written c
  chrsNodup : ((node.ptrs.filter fun q => !q.isEmpty).map TriePtr.chr).Nodup
  insertFalse : ∀ (p : TriePtr) (node' : TrieNodeType), p.isEmpty = false → node.insert p = .ok (node', false) →
    node' = node ∧ node.isNode256 = false ∧ ∀ q ∈ node.ptrs, q.isEmpty = false ∧ q.chr ≠ p.chr
  indexes : ∀ data, node = node48 data → ∀ c,
    0 ≤ data.indexes c ↔ ∃ i : Fin 48, data.indexes c = i ∧ (data.ptrs i).isEmpty = false ∧ (data.ptrs i).chr = c
  fromNode4 : ∀ data, node = node4 data → ∀ c, (node16 (TrieNode16.fromNode4 data)).walk c = node.walk c
  fromNode16 : ∀ data, node = node16 data → (∀ i, (data.ptrs i).isEmpty = false) →
    ∀ c, (node48 (TrieNode48.fromNode16 data)).walk c = node.walk c
  fromNode48 : ∀ data, node = node48 data → (∀ i, (data.ptrs i).isEmpty = false) →
    ∀ c, (node256 (TrieNode256.fromNode48 data)).walk c = node.walk c

theorem insert_eq_false {node node' : TrieNodeType} (wf : node.WF) (notLeaf : node.isLeaf = false)
    {p : TriePtr} (full : p.isEmpty = false) (ran : node.insert p = .ok (node', false)) :
    node' = node ∧ node.isNode256 = false ∧ ∀ q ∈ node.ptrs, q.isEmpty = false ∧ q.chr ≠ p.chr := by
  obtain ⟨withRoom, withoutRoom⟩ := insert_outcome wf full notLeaf
  cases space : Trie.nodeHasSpace p.chr node.ptrs
  · rw [withoutRoom space] at ran
    cases ran
    refine ⟨rfl, ?_, no_space_mem space⟩
    cases node with
    | node256 data => simp [node256_has_room wf] at space
    | _ => rfl
  · obtain ⟨_, inserted, -⟩ := withRoom space
    rw [inserted] at ran
    cases ran

theorem TrieNode48.Indexed.indexes_iff {data : TrieNode48} (indexed : data.Indexed) (c : UInt8) :
    0 ≤ data.indexes c ↔
      ∃ i : Fin 48, data.indexes c = i ∧ (data.ptrs i).isEmpty = false ∧ (data.ptrs i).chr = c := by
  constructor
  · intro nonneg
    have slot : data.slotOf c = some ⟨(data.indexes c).toNat, by have := data.indexes_lt c; omega⟩ := by
      simp [TrieNode48.slotOf, nonneg]
    obtain ⟨full, same⟩ := indexed.1 c _ slot
    exact ⟨_, TrieNode48.slot_of_eq_some.mp slot, full, same⟩
  · rintro ⟨i, at_, -, -⟩
    rw [at_]
    exact Int.natCast_nonneg _

theorem built_child_map {node : TrieNodeType} {written : UInt8 → Option TriePtr} (built : Built node written) :
    ChildMapSound node written := by
  obtain ⟨wf, notLeaf, walk⟩ := built.invariant
  refine ⟨walk, wf.chrs_nodup, fun p _ full ran => insert_eq_false wf notLeaf full ran, ?_, ?_, ?_, ?_⟩
  · rintro data rfl
    exact TrieNode48.Indexed.indexes_iff wf
  · rintro data rfl
    exact (widen_node4 wf).2.1
  · rintro data rfl full
    exact (widen_node16 wf full).2.1
  · rintro data rfl full
    exact (widen_node48 wf full).2

theorem child_map_after_insert :
    Built (node4 ((TrieNode4.new []).insert (TriePtr.new TrieNodeID.leaf.toU8 7 1)).1)
        (Function.update (fun _ => none) 7 (some (TriePtr.new TrieNodeID.leaf.toU8 7 1))) ∧
      ChildMapSound (node4 ((TrieNode4.new []).insert (TriePtr.new TrieNodeID.leaf.toU8 7 1)).1)
        (Function.update (fun _ => none) 7 (some (TriePtr.new TrieNodeID.leaf.toU8 7 1))) := by
  have built : Built (node4 ((TrieNode4.new []).insert (TriePtr.new TrieNodeID.leaf.toU8 7 1)).1)
      (Function.update (fun _ => none) 7 (some (TriePtr.new TrieNodeID.leaf.toU8 7 1))) :=
    @Built.insert (node4 (TrieNode4.new [])) _ (fun _ => none) (TriePtr.new TrieNodeID.leaf.toU8 7 1) true
      (Built.node4 []) rfl rfl
  exact ⟨built, built_child_map built⟩

/-- Without the run's two conditions the child map breaks. `from_node48` of a
Node48 with free slots copies them, all of byte 0, over the child of byte 0;
and after a `replace` with an empty pointer, byte 1 stays indexed to a slot
that the next `insert` gives to byte 2, so that `walk 1` finds byte 2's
pointer. -/
theorem child_map_breaks_unguarded :
    ((TrieNode48.new []).insert (TriePtr.new TrieNodeID.leaf.toU8 0 1)).1.walk 0 =
        some (TriePtr.new TrieNodeID.leaf.toU8 0 1) ∧
      (TrieNode256.fromNode48 ((TrieNode48.new []).insert (TriePtr.new TrieNodeID.leaf.toU8 0 1)).1).walk 0 =
        none ∧
      ((((TrieNode48.new []).insert (TriePtr.new TrieNodeID.leaf.toU8 1 1)).1.replace
          (TriePtr.new TrieNodeID.empty.toU8 1 0)).1.insert (TriePtr.new TrieNodeID.leaf.toU8 2 2)).1.walk 1 =
        some (TriePtr.new TrieNodeID.leaf.toU8 2 2) :=
  ⟨by decide, by decide, by decide⟩

end TrieNodeType

end Hyperchains.Marf
