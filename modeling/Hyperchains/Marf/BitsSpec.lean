import Hyperchains.Marf.Bits
import Hyperchains.Marf.NodeSpec

/-! A node reads back from the bytes written for it: the reader of its id
returns the node and the hash, leaving exactly the bytes after them, and the
length `get_node_byte_len` computes is the count `write_nodetype_bytes`
returns. The model's pointer slots and Node48 indexes are `Nat` and `Int`;
they are held to the widths of the source's `u32` and `i8`. -/

namespace Hyperchains.Marf

open Bytes

/-- The `u32` fields of a pointer within their width. -/
def TriePtr.Fits (ptr : TriePtr) : Prop := ptr.ptr < 2 ^ 32 ∧ ptr.backBlock < 2 ^ 32

/-- What `TrieNode48::from_bytes` checks of the indexes: every non-empty
pointer's byte has a slot, and every slot an index names holds a non-empty
pointer. -/
def TrieNode48.IndexesConsistent (node : TrieNode48) : Prop :=
  (∀ i, (node.ptrs i).id ≠ TrieNodeID.empty.toU8 → (node.slotOf (node.ptrs i).chr).isSome) ∧
    ∀ c slot, node.slotOf c = some slot → (node.ptrs slot).id ≠ TrieNodeID.empty.toU8

/-- The fields in the widths of the source's types: every pointer's `u32`s,
and a Node48's `i8` indexes. -/
def TrieNodeType.FitsWidths : TrieNodeType → Prop
  | node48 data => (∀ ptr ∈ (node48 data).ptrs, ptr.Fits) ∧ ∀ c, -128 ≤ data.indexes c
  | node => ∀ ptr ∈ node.ptrs, ptr.Fits

def TrieNodeType.IndexesConsistent : TrieNodeType → Prop
  | node48 data => data.IndexesConsistent
  | _ => True

/-- The index of a Node48 that the node operations keep passes the decoder's
checks. -/
theorem TrieNode48.Indexed.indexes_consistent {node : TrieNode48} (indexed : node.Indexed) :
    node.IndexesConsistent := by
  refine ⟨fun i nonEmpty => ?_, fun c slot named => ?_⟩
  · have full : (node.ptrs i).isEmpty = false := by simpa [TriePtr.isEmpty] using nonEmpty
    rw [indexed.2 i full]
    rfl
  · have full := (indexed.1 c slot named).1
    simpa [TriePtr.isEmpty] using full

theorem TrieNodeType.WF.indexes_consistent {node : TrieNodeType} (wf : node.WF) : node.IndexesConsistent := by
  cases node with
  | node48 data => exact TrieNode48.Indexed.indexes_consistent wf
  | _ => trivial

/-! ## Pointers -/

section Pointers

@[simp] theorem TriePtr.length_write_bytes (ptr : TriePtr) : ptr.writeBytes.length = trieptrSize := by
  simp [TriePtr.writeBytes, trieptrSize]

theorem TriePtr.from_bytes_write_bytes {ptr : TriePtr} (fits : ptr.Fits) : TriePtr.fromBytes ptr.writeBytes = ptr := by
  obtain ⟨id, chr, slot, block⟩ := ptr
  obtain ⟨slotFits, blockFits⟩ := fits
  have slotBytes : ((TriePtr.writeBytes ⟨id, chr, slot, block⟩).drop 2).take 4 = beBytes 4 slot := by
    simp [TriePtr.writeBytes]
  have blockBytes : ((TriePtr.writeBytes ⟨id, chr, slot, block⟩).drop 6).take 4 = beBytes 4 block := by
    simp [TriePtr.writeBytes]
  simp only [TriePtr.fromBytes, slotBytes, blockBytes, nat_of_be_be_bytes]
  rw [Nat.mod_eq_of_lt (show slot < 256 ^ 4 from slotFits), Nat.mod_eq_of_lt (show block < 256 ^ 4 from blockFits)]
  rfl

theorem check_node_id_of_count {nodeId : UInt8} {numPtrs : Nat} (counted : nodeIdToPtrCount nodeId = .ok numPtrs) :
    checkNodeId nodeId = true := by
  unfold nodeIdToPtrCount at counted
  unfold checkNodeId
  cases known : TrieNodeID.fromU8 (clearBackptr nodeId) with
  | none => rw [known] at counted; cases counted
  | some kind => rfl

/-- The pointers are read back from the id and the pointers written, as many
as the id names. -/
theorem ptrs_from_bytes_write {nodeId : UInt8} {numPtrs : Nat} (counted : nodeIdToPtrCount nodeId = .ok numPtrs)
    {ptrs : List TriePtr} (sized : ptrs.length = numPtrs) (fits : ∀ ptr ∈ ptrs, ptr.Fits) (rest : List UInt8) :
    ptrsFromBytes nodeId (nodeId :: writePtrsToBytes ptrs ++ rest) = .ok ((nodeId, ptrs), rest) := by
  have written : (nodeId :: writePtrsToBytes ptrs).length = 1 + numPtrs * trieptrSize := by
    simp [writePtrsToBytes, sized]
    omega
  -- each ten-byte chunk is one pointer's bytes
  have chunks : (List.range numPtrs).map
      (fun i => TriePtr.fromBytes (((writePtrsToBytes ptrs).drop (i * trieptrSize)).take trieptrSize)) = ptrs := by
    apply List.ext_getElem (by simp [sized])
    intro i inRange inPtrs
    rw [List.getElem_map, List.getElem_range, writePtrsToBytes,
      take_drop_flat_map TriePtr.length_write_bytes ptrs i inPtrs]
    exact TriePtr.from_bytes_write_bytes (fits _ (List.getElem_mem inPtrs))
  unfold ptrsFromBytes
  simp only [check_node_id_of_count counted, Bool.not_true, Bool.false_eq_true, ↓reduceIte]
  have read : ∀ eof : Error, readBytes eof (1 + numPtrs * trieptrSize) (nodeId :: writePtrsToBytes ptrs ++ rest) =
      .ok (nodeId :: writePtrsToBytes ptrs, rest) := by
    intro eof
    rw [← written]
    exact read_bytes_append _ _ _
  rw [lift_bind_run_of_ok counted, bind_run_of_ok (read _)]
  simp [chunks]

end Pointers

/-! ## Paths -/

theorem to_u8_to_nat {n : Nat} (small : n < 256) : n.toUInt8.toNat = n := by
  simp [Nat.toUInt8, Nat.mod_eq_of_lt small]

theorem path_from_bytes_write {path : List UInt8} (short : path.length ≤ triepathMaxLen) (rest : List UInt8) :
    pathFromBytes (writePathToBytes path ++ rest) = .ok (path, rest) := by
  have lengthByte : path.length.toUInt8.toNat = path.length := to_u8_to_nat (by unfold triepathMaxLen at short; omega)
  unfold pathFromBytes writePathToBytes
  rw [List.cons_append, read_byte_bind]
  simp only [lengthByte, gt_iff_lt, not_lt.mpr short, ↓reduceIte]
  exact read_bytes_append _ _ _

/-! ## Nodes -/

section Nodes
variable {rest : List UInt8}

theorem get_d_map_fin_range {α : Type} {n : Nat} (f : Fin n → α) {i : Nat} (inside : i < n) (d : α) :
    ((List.finRange n).map f).getD i d = f ⟨i, inside⟩ := by
  rw [List.getD_eq_getElem _ _ (by simpa using inside)]
  simp

theorem to_nat_to_u8 (c : UInt8) : c.toNat.toUInt8 = c := by
  simp [Nat.toUInt8, UInt8.ofNat_toNat]

theorem get_d_map_range_to_u8 {α : Type} (f : UInt8 → α) (c : UInt8) (d : α) :
    ((List.range 256).map fun n => f n.toUInt8).getD c.toNat d = f c := by
  rw [List.getD_eq_getElem _ _ (by simpa using c.toNat_lt)]
  simp

theorem TrieNode4.from_bytes_write {data : TrieNode4} (fits : ∀ ptr ∈ (TrieNodeType.node4 data).ptrs, ptr.Fits)
    (short : data.path.length ≤ triepathMaxLen) :
    TrieNode4.fromBytes ((TrieNodeType.node4 data).writeBytes ++ rest) = .ok (data, rest) := by
  have bytes : (TrieNodeType.node4 data).writeBytes ++ rest =
      TrieNodeID.node4.toU8 :: writePtrsToBytes (TrieNodeType.node4 data).ptrs ++ (writePathToBytes data.path ++ rest) := by
    simp [TrieNodeType.writeBytes, TrieNodeType.pathBytes, TrieNodeType.id]
  unfold TrieNode4.fromBytes
  rw [bytes, bind_run_of_ok (ptrs_from_bytes_write rfl (by simp [TrieNodeType.ptrs]) fits _)]
  dsimp only
  rw [bind_run_of_ok (path_from_bytes_write short rest)]
  simp only [pure_run, TrieNodeType.ptrs, get_d_map_fin_range _ (Fin.isLt _)]

theorem TrieNode16.from_bytes_write {data : TrieNode16} (fits : ∀ ptr ∈ (TrieNodeType.node16 data).ptrs, ptr.Fits)
    (short : data.path.length ≤ triepathMaxLen) :
    TrieNode16.fromBytes ((TrieNodeType.node16 data).writeBytes ++ rest) = .ok (data, rest) := by
  have bytes : (TrieNodeType.node16 data).writeBytes ++ rest =
      TrieNodeID.node16.toU8 :: writePtrsToBytes (TrieNodeType.node16 data).ptrs ++ (writePathToBytes data.path ++ rest) := by
    simp [TrieNodeType.writeBytes, TrieNodeType.pathBytes, TrieNodeType.id]
  unfold TrieNode16.fromBytes
  rw [bytes, bind_run_of_ok (ptrs_from_bytes_write rfl (by simp [TrieNodeType.ptrs]) fits _)]
  dsimp only
  rw [bind_run_of_ok (path_from_bytes_write short rest)]
  simp only [pure_run, TrieNodeType.ptrs, get_d_map_fin_range _ (Fin.isLt _)]

theorem TrieNode256.from_bytes_write {data : TrieNode256} (fits : ∀ ptr ∈ (TrieNodeType.node256 data).ptrs, ptr.Fits)
    (short : data.path.length ≤ triepathMaxLen) :
    TrieNode256.fromBytes ((TrieNodeType.node256 data).writeBytes ++ rest) = .ok (data, rest) := by
  have bytes : (TrieNodeType.node256 data).writeBytes ++ rest =
      TrieNodeID.node256.toU8 :: writePtrsToBytes (TrieNodeType.node256 data).ptrs ++ (writePathToBytes data.path ++ rest) := by
    simp [TrieNodeType.writeBytes, TrieNodeType.pathBytes, TrieNodeType.id]
  unfold TrieNode256.fromBytes
  rw [bytes, bind_run_of_ok (ptrs_from_bytes_write rfl (by simp [TrieNodeType.ptrs]) fits _)]
  dsimp only
  rw [bind_run_of_ok (path_from_bytes_write short rest)]
  simp only [pure_run, TrieNodeType.ptrs, get_d_map_range_to_u8]

theorem TrieLeaf.from_bytes_write {data : TrieLeaf} (short : data.path.length ≤ triepathMaxLen) :
    TrieLeaf.fromBytes ((TrieNodeType.leaf data).writeBytes ++ rest) = .ok (data, rest) := by
  have bytes : (TrieNodeType.leaf data).writeBytes ++ rest =
      [TrieNodeID.leaf.toU8] ++ (writePathToBytes data.path ++ (data.data.bytes ++ rest)) := by
    simp [TrieNodeType.writeBytes]
  have value : (readSome marfValueEncodedSize (data.data.bytes ++ rest) : Except Error (List UInt8 × List UInt8)) =
      .ok (data.data.bytes, rest) := by
    rw [show marfValueEncodedSize = data.data.bytes.length from data.data.length_eq.symm]
    exact read_some_append _ _
  have idRead : (readSome 1 ([TrieNodeID.leaf.toU8] ++ (writePathToBytes data.path ++ (data.data.bytes ++ rest))) :
      Except Error (List UInt8 × List UInt8)) = .ok ([TrieNodeID.leaf.toU8], _) := read_some_append [TrieNodeID.leaf.toU8] _
  unfold TrieLeaf.fromBytes
  rw [bytes, bind_run_of_ok idRead]
  have leafId : clearBackptr ([TrieNodeID.leaf.toU8].getD 0 0) = TrieNodeID.leaf.toU8 := by decide
  simp only [List.length_singleton, bne_self_eq_false, Bool.false_eq_true, ↓reduceIte, leafId]
  rw [bind_run_of_ok (path_from_bytes_write short _), bind_run_of_ok value,
    dif_pos (show data.data.bytes.length = marfValueEncodedSize from data.data.length_eq)]
  rfl

theorem u8_as_i8_i8_as_u8 {index : Int} (low : -128 ≤ index) (high : index < 128) : u8AsI8 (i8AsU8 index) = index := by
  unfold u8AsI8 i8AsU8
  rw [to_u8_to_nat (by omega)]
  split <;> omega

section Node48
variable {data : TrieNode48}

theorem TrieNode48.nonneg_of_slot_of {c : UInt8} (indexed : (data.slotOf c).isSome) : 0 ≤ data.indexes c := by
  unfold TrieNode48.slotOf at indexed
  split_ifs at indexed with nonnegative
  · exact nonnegative
  · cases indexed

theorem TrieNode48.eq_of_arrays {indexes : UInt8 → Int} {ptrs : Fin 48 → TriePtr} {below : ∀ c, indexes c < 48}
    (sameIndexes : ∀ c, indexes c = data.indexes c) (samePtrs : ∀ i, ptrs i = data.ptrs i) :
    (⟨data.path, indexes, ptrs, below⟩ : TrieNode48) = data := by
  cases data
  simp only [TrieNode48.mk.injEq, true_and]
  exact ⟨funext sameIndexes, funext samePtrs⟩

theorem TrieNode48.index_bytes_get_d (inI8 : ∀ c, -128 ≤ data.indexes c) {c : Nat} (inside : c < 256) :
    u8AsI8 (((List.range 256).map fun c => i8AsU8 (data.indexes c.toUInt8)).getD c 0) = data.indexes c.toUInt8 := by
  rw [List.getD_eq_getElem _ _ (by simpa using inside), List.getElem_map, List.getElem_range]
  exact u8_as_i8_i8_as_u8 (inI8 _) (by have := data.indexes_lt c.toUInt8; omega)

theorem TrieNode48.from_bytes_write (fits : ∀ ptr ∈ (TrieNodeType.node48 data).ptrs, ptr.Fits)
    (inI8 : ∀ c, -128 ≤ data.indexes c) (consistent : data.IndexesConsistent)
    (short : data.path.length ≤ triepathMaxLen) :
    TrieNode48.fromBytes ((TrieNodeType.node48 data).writeBytes ++ rest) = .ok (data, rest) := by
  set indexBytes := (List.range 256).map fun c => i8AsU8 (data.indexes c.toUInt8) with indexBytesEq
  have sized : indexBytes.length = 256 := by simp [indexBytes]
  have bytes : (TrieNodeType.node48 data).writeBytes ++ rest = TrieNodeID.node48.toU8 ::
      writePtrsToBytes (TrieNodeType.node48 data).ptrs ++ (indexBytes ++ (writePathToBytes data.path ++ rest)) := by
    simp [TrieNodeType.writeBytes, indexBytes]
  have indexesRead : (readSome 256 (indexBytes ++ (writePathToBytes data.path ++ rest)) :
      Except Error (List UInt8 × List UInt8)) = .ok (indexBytes, writePathToBytes data.path ++ rest) := by
    rw [← sized]
    exact read_some_append _ _
  unfold TrieNode48.fromBytes
  rw [bytes, bind_run_of_ok (ptrs_from_bytes_write rfl (by simp [TrieNodeType.ptrs]) fits _)]
  dsimp only
  rw [bind_run_of_ok indexesRead]
  simp only [sized, bne_self_eq_false, Bool.false_eq_true, ↓reduceIte]
  rw [bind_run_of_ok (path_from_bytes_write short rest)]
  have ptrsSlice : ∀ i (inside : i < 48), (TrieNodeType.node48 data).ptrs.getD i default = data.ptrs ⟨i, inside⟩ :=
    fun i inside => get_d_map_fin_range _ inside _
  have indexesSlice : ∀ c (inside : c < 256), u8AsI8 (indexBytes.getD c 0) = data.indexes c.toUInt8 :=
    fun c inside => TrieNode48.index_bytes_get_d inI8 inside
  rw [if_neg, dif_pos]
  · -- the node built from what was read is the node written
    rw [pure_run, TrieNode48.eq_of_arrays (fun c => by rw [indexesSlice _ c.toNat_lt, to_nat_to_u8])
      (fun i => ptrsSlice i i.isLt)]
  · -- every index that is not negative names a non-empty pointer
    intro c inside
    rw [indexesSlice c inside]
    by_cases nonnegative : 0 ≤ data.indexes c.toUInt8
    · have slotInside : (data.indexes c.toUInt8).toNat < 48 := by have := data.indexes_lt c.toUInt8; omega
      refine Or.inr ⟨nonnegative, slotInside, ?_⟩
      rw [ptrsSlice _ slotInside]
      exact consistent.2 _ ⟨_, slotInside⟩ (TrieNode48.slot_of_eq_some.mpr (Int.toNat_of_nonneg nonnegative).symm)
    · exact Or.inl (lt_of_not_ge nonnegative)
  · -- every non-empty pointer's byte has an index
    rw [Bool.not_eq_true', Bool.not_eq_false, List.all_eq_true]
    intro i mem
    have inside : i < 48 := List.mem_range.mp mem
    simp only [ptrsSlice i inside, indexesSlice _ (UInt8.toNat_lt _), to_nat_to_u8]
    by_cases empty : (data.ptrs ⟨i, inside⟩).id = TrieNodeID.empty.toU8
    · simp [empty]
    · have nonnegative := TrieNode48.nonneg_of_slot_of (consistent.1 _ empty)
      simp [nonnegative, data.indexes_lt]

end Node48

theorem read_hash_bytes_write (hash : TrieHash) : readHashBytes (hash.val ++ rest) = .ok (hash, rest) :=
  read_fixed_reads_back _ _ hash trivial rest

@[simp] theorem TrieNodeID.from_u8_to_u8 (kind : TrieNodeID) : TrieNodeID.fromU8 kind.toU8 = some kind := by
  cases kind <;> rfl

/-- The reader of a node's id reads back the hash and the node written. -/
theorem inner_read_nodetype_at_head_write {node : TrieNodeType} (widths : node.FitsWidths)
    (short : node.pathBytes.length ≤ triepathMaxLen) (consistent : node.IndexesConsistent) (hash : TrieHash) :
    innerReadNodetypeAtHead node.id true (hash.val ++ node.writeBytes ++ rest) = .ok ((node, some hash), rest) := by
  unfold innerReadNodetypeAtHead
  rw [List.append_assoc, if_pos rfl, bind_run_of_ok (map_run_of_ok (read_hash_bytes_write hash))]
  -- the id names the reader of the node's own kind
  cases node with
  | node4 data =>
      rw [TrieNodeType.id, TrieNodeID.from_u8_to_u8]
      dsimp only
      rw [bind_run_of_ok (map_run_of_ok (TrieNode4.from_bytes_write widths short))]
      rfl
  | node16 data =>
      rw [TrieNodeType.id, TrieNodeID.from_u8_to_u8]
      dsimp only
      rw [bind_run_of_ok (map_run_of_ok (TrieNode16.from_bytes_write widths short))]
      rfl
  | node48 data =>
      rw [TrieNodeType.id, TrieNodeID.from_u8_to_u8]
      dsimp only
      rw [bind_run_of_ok (map_run_of_ok (TrieNode48.from_bytes_write widths.1 widths.2 consistent short))]
      rfl
  | node256 data =>
      rw [TrieNodeType.id, TrieNodeID.from_u8_to_u8]
      dsimp only
      rw [bind_run_of_ok (map_run_of_ok (TrieNode256.from_bytes_write widths short))]
      rfl
  | leaf data =>
      rw [TrieNodeType.id, TrieNodeID.from_u8_to_u8]
      dsimp only
      rw [bind_run_of_ok (map_run_of_ok (TrieLeaf.from_bytes_write short))]
      rfl

end Nodes

/-! ## Lengths -/

section Lengths

theorem length_write_ptrs_to_bytes (ptrs : List TriePtr) :
    (writePtrsToBytes ptrs).length = trieptrSize * ptrs.length := by
  simp [writePtrsToBytes, List.length_flatMap, Nat.mul_comm]

theorem get_path_byte_len_eq {path : List UInt8} (short : path.length ≤ triepathMaxLen) :
    getPathByteLen path = pure (writePathToBytes path).length := by
  unfold getPathByteLen triepathMaxLen at *
  simp only [ensure, show path.length < 255 by omega, decide_true, ↓reduceIte, writePathToBytes, List.length_cons,
    Nat.add_comm 1]
  rfl

/-- `get_node_byte_len` counts the hash and the bytes `write_bytes` writes. -/
theorem get_node_byte_len_eq {node : TrieNodeType} (short : node.pathBytes.length ≤ triepathMaxLen) :
    getNodeByteLen node = .ok (triehashEncodedSize + node.writeBytes.length) := by
  have pathLen := get_path_byte_len_eq short
  -- each kind counts its id, its pointers, indexes or value, and its path as it writes them
  cases node <;> simp only [TrieNodeType.pathBytes] at pathLen <;>
    simp only [getNodeByteLen, TrieNodeType.byteLen, TrieNodeType.pathBytes, pathLen, TrieNodeType.writeBytes,
      pure_bind, List.length_append, List.length_singleton, List.length_map, List.length_range, getPtrsByteLen,
      length_write_ptrs_to_bytes] <;> rfl

end Lengths

/-! ## The round trip -/

theorem length_write_nodetype_bytes (node : TrieNodeType) (hash : TrieHash) :
    (writeNodetypeBytes node hash).1.length = triehashEncodedSize + node.writeBytes.length := by
  simp [writeNodetypeBytes, hash.property]

/-- A node written with its hash reads back, hash and all, from what was
written, leaving exactly the bytes after it; `get_node_byte_len` is the count
written, and the count `write_nodetype_bytes` returns. -/
theorem read_nodetype_at_head_write_nodetype_bytes (node : TrieNodeType) (widths : node.FitsWidths)
    (short : node.pathBytes.length ≤ triepathMaxLen) (consistent : node.IndexesConsistent) (hash : TrieHash) :
    ∃ len, getNodeByteLen node = .ok len ∧ (writeNodetypeBytes node hash).2 = len ∧
      (writeNodetypeBytes node hash).1.length = len ∧
      ∀ rest, readNodetypeAtHead node.id ((writeNodetypeBytes node hash).1 ++ rest) = .ok ((node, hash), rest) := by
  refine ⟨triehashEncodedSize + node.writeBytes.length, get_node_byte_len_eq short,
    length_write_nodetype_bytes node hash, length_write_nodetype_bytes node hash, fun rest => ?_⟩
  unfold readNodetypeAtHead writeNodetypeBytes
  dsimp only
  rw [bind_run_of_ok (inner_read_nodetype_at_head_write widths short consistent hash)]
  rfl

set_option maxRecDepth 8000 in
/-- A Node48 with two children, a leaf at byte 7 and a Node4 at byte 200,
reads back from its bytes. -/
theorem node48_with_children_round_trip :
    let node := TrieNodeType.node48 (((TrieNode48.new [1, 2]).insert (TriePtr.new TrieNodeID.leaf.toU8 7 1)).1.insert
      (TriePtr.new TrieNodeID.node4.toU8 200 2)).1
    let hash : TrieHash := ⟨List.replicate 32 0, by simp [triehashEncodedSize]⟩
    ∃ len, getNodeByteLen node = .ok len ∧ (writeNodetypeBytes node hash).2 = len ∧
      (writeNodetypeBytes node hash).1.length = len ∧
      ∀ rest, readNodetypeAtHead node.id ((writeNodetypeBytes node hash).1 ++ rest) = .ok ((node, hash), rest) := by
  intro node hash
  have empty : (TrieNode48.new [1, 2]).Indexed :=
    ⟨fun c i slot => by simp [TrieNode48.slotOf, TrieNode48.new] at slot, fun _ full => by
      simp only [TrieNode48.new, TriePtr.isEmpty, beq_eq_false_iff_ne] at full
      exact absurd rfl full⟩
  obtain ⟨-, -, first, -⟩ := @TrieNode48.insert_spec _ empty (TriePtr.new TrieNodeID.leaf.toU8 7 1) (by decide)
    (by decide) ⟨0, by decide⟩
  obtain ⟨-, -, second, -⟩ := @TrieNode48.insert_spec _ first (TriePtr.new TrieNodeID.node4.toU8 200 2) (by decide)
    (by decide) ⟨1, by decide⟩
  have widths : node.FitsWidths := ⟨by unfold TriePtr.Fits; decide, by decide⟩
  exact read_nodetype_at_head_write_nodetype_bytes node widths (by decide)
    (TrieNode48.Indexed.indexes_consistent second) hash

end Hyperchains.Marf
