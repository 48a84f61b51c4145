import Hyperchains.Marf.Cursor
import Hyperchains.Library.RadixTree
import Hyperchains.Library.Panic

/-! What one step of a cursor does, stated through where the node's path and
the rest of the key part (`Radix.diverge`): the step stops inside the path
where they part, stops at the end of the key, or takes the byte after the
path. -/

namespace Hyperchains.Marf

open RadixTree.Radix Panic

namespace TrieCursor

theorem ptr_of_node_ptrs {cursor : TrieCursor} {ptrs : List TriePtr} {p : TriePtr}
    (last : cursor.nodePtrs = ptrs ++ [p]) : cursor.ptr = p := by
  simp [ptr, last]

@[simp] theorem ptr_repair_backptr_finish (cursor : TrieCursor) (p : TriePtr) :
    (cursor.repairBackptrFinish p).ptr = p :=
  ptr_of_node_ptrs rfl

@[simp] theorem index_repair_backptr_finish (cursor : TrieCursor) (p : TriePtr) :
    (cursor.repairBackptrFinish p).index = cursor.index := rfl

@[simp] theorem path_repair_backptr_finish (cursor : TrieCursor) (p : TriePtr) :
    (cursor.repairBackptrFinish p).path = cursor.path := rfl

@[simp] theorem index_repair_backptr_step (cursor : TrieCursor) (node : TrieNodeType) (p : TriePtr) :
    (cursor.repairBackptrStepBackptr node p).index = cursor.index := rfl

@[simp] theorem path_repair_backptr_step (cursor : TrieCursor) (node : TrieNodeType) (p : TriePtr) :
    (cursor.repairBackptrStepBackptr node p).path = cursor.path := rfl

-- The head and the tail of the unconsumed key.
theorem byte_of_drop {cursor : TrieCursor} {b : UInt8} {rest : List UInt8}
    (split : cursor.path.bytes.drop cursor.index = b :: rest) : cursor.path.bytes[cursor.index]? = some b := by
  have := congrArg List.head? split
  simpa [List.head?_drop] using this

theorem drop_succ_of_drop {cursor : TrieCursor} {b : UInt8} {rest : List UInt8}
    (split : cursor.path.bytes.drop cursor.index = b :: rest) :
    cursor.path.bytes.drop (cursor.index + 1) = rest := by
  have := congrArg List.tail split
  simpa [List.tail_drop] using this

/-- Consuming a part of the path the key agrees with advances both indexes. -/
theorem consume_path_append (a b : List UInt8) (cursor : TrieCursor) {rest : List UInt8}
    (split : cursor.path.bytes.drop cursor.index = a ++ rest) :
    consumePath (a ++ b) cursor = consumePath b { cursor with
      index := cursor.index + a.length
      nodePathIndex := cursor.nodePathIndex + a.length } := by
  induction a generalizing cursor with
  | nil => rfl
  | cons x a ih =>
      rw [List.cons_append] at split
      have next := @drop_succ_of_drop cursor _ _ split
      rw [List.cons_append, consumePath, byte_of_drop split]
      simp only [bne_self_eq_false, Bool.false_eq_true, ↓reduceIte]
      rw [ih _ next]
      simp only [List.length_cons]
      congr 2 <;> omega

theorem consume_path_matched (np : List UInt8) (cursor : TrieCursor) {rest : List UInt8}
    (split : cursor.path.bytes.drop cursor.index = np ++ rest) :
    consumePath np cursor = .ok (false, { cursor with
      index := cursor.index + np.length
      nodePathIndex := cursor.nodePathIndex + np.length }) := by
  simpa [consumePath] using consume_path_append np [] cursor split

theorem consume_path_diverged (np : List UInt8) (cursor : TrieCursor) {shared xs ys : List UInt8} {x y : UInt8}
    (split : diverge np (cursor.path.bytes.drop cursor.index) = some (shared, x, xs, y, ys)) :
    consumePath np cursor = .ok (true, { cursor with
      index := cursor.index + shared.length
      nodePathIndex := cursor.nodePathIndex + shared.length }) := by
  obtain ⟨rfl, key, apart⟩ := diverge_some split
  rw [consume_path_append shared (x :: xs) cursor key, consumePath]
  have atByte : cursor.path.bytes.drop (cursor.index + shared.length) = y :: ys := by
    rw [← List.drop_drop, key, List.drop_left]
  rw [@byte_of_drop { cursor with index := cursor.index + shared.length } _ _ atByte]
  simp [apart]

/-- The step stops where the node's path and the key part. -/
theorem walk_diverged (cursor : TrieCursor) (node : TrieNodeType) {shared xs ys : List UInt8} {x y : UInt8}
    (split : diverge node.pathBytes (cursor.path.bytes.drop cursor.index) = some (shared, x, xs, y, ys)) :
    cursor.walk node = .ok (.error .pathDiverged, { cursor with
      nodes := cursor.nodes ++ [node]
      nodePathIndex := shared.length
      index := cursor.index + shared.length }) := by
  have below : cursor.index < cursor.path.bytes.length := by
    obtain ⟨_, key, _⟩ := diverge_some split
    have := congrArg List.length key
    simp only [List.length_drop, List.length_append, List.length_cons] at this
    omega
  have consumed := consume_path_diverged node.pathBytes
    { cursor with nodes := cursor.nodes ++ [node], nodePathIndex := 0 } split
  simp only [walk, ge_iff_le, Nat.not_le.mpr below, ↓reduceIte, pure_eq_ok]
  simp [consumed]

/-- The step stops at the end of the key, when the node's path is all of it. -/
theorem walk_end (cursor : TrieCursor) (node : TrieNodeType)
    (split : cursor.path.bytes.drop cursor.index = node.pathBytes) :
    cursor.walk node = .ok (.ok none, { cursor with
      nodes := cursor.nodes ++ [node]
      nodePathIndex := node.pathBytes.length
      index := cursor.index + node.pathBytes.length }) := by
  by_cases past : cursor.index ≥ cursor.path.bytes.length
  · have empty : node.pathBytes = [] := by rw [← split]; simp [past]
    simp [walk, past, empty, pure_eq_ok]
  · have consumed := @consume_path_matched node.pathBytes
      { cursor with nodes := cursor.nodes ++ [node], nodePathIndex := 0 } [] (by simpa using split)
    have atEnd : cursor.path.bytes.length = cursor.index + node.pathBytes.length := by
      have := congrArg List.length split
      simp only [List.length_drop] at this
      omega
    simp only [walk, past, ↓reduceIte, pure_eq_ok]
    simp [consumed, atEnd]

/-- The step takes the byte after the node's path: a local child is pushed, a
back-pointer is handed back, and a missing child stops the walk. -/
theorem walk_byte (cursor : TrieCursor) (node : TrieNodeType) {c : UInt8} {rest : List UInt8}
    (split : cursor.path.bytes.drop cursor.index = node.pathBytes ++ c :: rest) :
    cursor.walk node = .ok (
      let stepped := { cursor with
        nodes := cursor.nodes ++ [node]
        nodePathIndex := node.pathBytes.length
        index := cursor.index + node.pathBytes.length + 1 }
      match node.walk c with
      | some ptr =>
          if isBackptr ptr.id then (.error (.backptrEncountered ptr), stepped)
          else (.ok (some ptr), { stepped with nodePtrs := cursor.nodePtrs ++ [ptr] })
      | none => (.error .chrNotFound, stepped)) := by
  have below : cursor.index < cursor.path.bytes.length := by
    have := congrArg List.length split
    simp only [List.length_drop, List.length_append, List.length_cons] at this
    omega
  have consumed := consume_path_matched node.pathBytes
    { cursor with nodes := cursor.nodes ++ [node], nodePathIndex := 0 } split
  have atByte : cursor.path.bytes.drop (cursor.index + node.pathBytes.length) = c :: rest := by
    rw [← List.drop_drop, split, List.drop_left]
  have byte := @byte_of_drop { cursor with index := cursor.index + node.pathBytes.length } _ _ atByte
  simp only [walk, ge_iff_le, Nat.not_le.mpr below, ↓reduceIte, pure_eq_ok]
  simp only [consumed, ok_bind, Bool.false_eq_true, ↓reduceIte] at byte ⊢
  simp only [byte]
  cases node.walk c with
  | none => simp
  | some ptr => cases back : isBackptr ptr.id <;> simp [back]

end TrieCursor

end Hyperchains.Marf
