import Hyperchains.Marf.CursorSpec
import Hyperchains.Marf.StorageSpec

/-! `MARF::walk` and `get_by_key` read the map a flushed trie stands for. The
walk's loop takes one node per step: it stops with the leaf when the key ends
in it, fails with `NotFoundError` where the key leaves a path or finds no
child, and follows a back-pointer by opening the trie it names. By induction on
the loop, with `Stored` as the invariant, it returns what `Radix.lookup`
returns. -/

namespace Hyperchains.Marf

open RadixTree Radix Panic

namespace MARF

variable {T : Type} [DecidableEq T]

/-- What the walk returns for a lookup's answer: the leaf of the value at the
end of the key, or `NotFoundError`. -/
def WalkFinds (result : Except Error (TrieCursor × TrieNodeType × TrieStorage T)) :
    Option MARFValue → Prop
  | some value => ∃ cursor data s, result = .ok (cursor, .leaf data, s) ∧ cursor.eop = true ∧ data.data = value
  | none => result = .error .notFoundError

/-- The loop of the walk, from a node at depth `cursor.index` of a flushed trie,
reads what the node's subtree maps the rest of the key to. -/
theorem walk_loop_finds (fuel : Nat) :
    ∀ (s : TrieStorage T) (cursor : TrieCursor) (node : TrieNodeType) (blockId slot : Nat) (ram : TrieRAM)
      (t : PathMap), s.Fresh → s.ReadsFlushed blockId → trieAt s.committed blockId = some ram →
      ram.data[slot]? = some node → Stored s.committed blockId slot t →
      Uniform t (cursor.path.bytes.length - cursor.index) → cursor.index ≤ cursor.path.bytes.length →
      NamesLeaf cursor.ptr t → cursor.path.bytes.length - cursor.index < fuel →
      WalkFinds (walkLoop fuel s cursor node) (lookup t (cursor.path.bytes.drop cursor.index)) := by
  induction fuel with
  | zero => intros; omega
  | succ fuel ih =>
      intro s cursor node blockId slot ram t fresh reads trie read rep uniform bounded kind enough
      have keyLength : (cursor.path.bytes.drop cursor.index).length = cursor.path.bytes.length - cursor.index :=
        List.length_drop
      cases rep with
      | leaf trie₀ read₀ =>
          rename_i data
          rw [trie] at trie₀
          cases trie₀
          rw [read] at read₀
          cases read₀
          by_cases ends : cursor.path.bytes.drop cursor.index = data.path
          · -- the key ends in this leaf
            have walked := TrieCursor.walk_end cursor (.leaf data) ends
            have named := kind data.path data.data rfl
            simp [TrieCursor.ptr] at named
            have answer : lookup (leaf data.path data.data) (cursor.path.bytes.drop cursor.index) =
                some data.data := by simp [lookup, ends]
            rw [answer]
            refine ⟨{ cursor with
              nodes := cursor.nodes ++ [.leaf data]
              nodePathIndex := data.path.length
              index := cursor.index + data.path.length }, data, s, ?_, ?_, rfl⟩
            · simp [walkLoop, Trie.walkFromNohash, walked, TrieCursor.ptr, TrieNodeType.pathBytes, named]
            · simp only [TrieCursor.eop, beq_iff_eq]
              have := congrArg List.length ends
              simp only [List.length_drop] at this
              omega
          · cases split : diverge data.path (cursor.path.bytes.drop cursor.index) with
            | none =>
                have same := diverge_none_eq split (by simp only [Uniform] at uniform; omega)
                exact absurd same.symm ends
            | some parts =>
                obtain ⟨shared, x, xs, y, ys⟩ := parts
                have walked := TrieCursor.walk_diverged cursor (.leaf data) split
                simp [WalkFinds, walkLoop, Trie.walkFromNohash, walked, lookup, ends]
      | node trie₀ read₀ inner wf absent kind₀ here back =>
          rename_i node₀ child
          rw [trie] at trie₀
          cases trie₀
          rw [read] at read₀
          cases read₀
          obtain ⟨shorter, below⟩ := uniform
          cases split : diverge node.pathBytes (cursor.path.bytes.drop cursor.index) with
          | some parts =>
              obtain ⟨shared, x, xs, y, ys⟩ := parts
              have walked := TrieCursor.walk_diverged cursor node split
              simp [WalkFinds, walkLoop, Trie.walkFromNohash, walked, lookup_node_diverged child split]
          | none =>
              obtain ⟨c, rest, key⟩ := diverge_none_split split (by omega)
              have walked := TrieCursor.walk_byte cursor node key
              have within : cursor.index + node.pathBytes.length + 1 ≤ cursor.path.bytes.length := by
                have := congrArg List.length key
                simp only [List.length_drop, List.length_append, List.length_cons] at this
                omega
              have fuelLeft : cursor.path.bytes.length - (cursor.index + node.pathBytes.length + 1) < fuel := by
                omega
              have childUniform : Uniform (child c)
                  (cursor.path.bytes.length - (cursor.index + node.pathBytes.length + 1)) := by
                have := below c
                rwa [show cursor.path.bytes.length - cursor.index - (node.pathBytes.length + 1) =
                  cursor.path.bytes.length - (cursor.index + node.pathBytes.length + 1) by omega] at this
              have nextKey : cursor.path.bytes.drop (cursor.index + node.pathBytes.length + 1) = rest := by
                rw [show cursor.index + node.pathBytes.length + 1 = cursor.index + (node.pathBytes.length + 1)
                  by omega, ← List.drop_drop, key]
                simp
              rw [key, lookup_node, ← nextKey]
              cases found : node.walk c with
              | none =>
                  simp [WalkFinds, walkLoop, Trie.walkFromNohash, walked, found, absent c found, lookup]
              | some ptr =>
                  have sameChr := (TrieNodeType.walk_some wf found).1
                  cases backptr : isBackptr ptr.id
                  · -- a child in the same trie
                    obtain ⟨ram', next, trie', read'⟩ := (here c ptr found backptr).read
                    rw [trie] at trie'
                    cases trie'
                    have fetched : s.readNodetype ptr = .ok next :=
                      (reads.read_nodetype trie ptr).trans (TrieRAM.read_nodetype_of_read read')
                    have step := ih s { cursor with
                        nodes := cursor.nodes ++ [node]
                        nodePathIndex := node.pathBytes.length
                        index := cursor.index + node.pathBytes.length + 1
                        nodePtrs := cursor.nodePtrs ++ [ptr] } next blockId ptr.ptr ram (child c) fresh reads
                      trie read' (here c ptr found backptr) childUniform within
                      (by rw [TrieCursor.ptr_of_node_ptrs rfl]; exact kind₀ c ptr found) fuelLeft
                    simpa [walkLoop, Trie.walkFromNohash, walked, found, backptr, fetched] using step
                  · -- a child in the trie of an earlier block
                    obtain ⟨ramB, next, trieB, readB⟩ := (back c ptr found backptr).read
                    obtain ⟨bhh, entry⟩ := trie_at_entry trieB
                    have followed := Trie.walk_backptr_spec fresh backptr entry readB
                    -- the pointer left last is the back-pointer with its bit cleared
                    have named : NamesLeaf ptr.fromBackptr (child c) := by
                      intro path value isLeaf
                      simp only [TriePtr.fromBackptr]
                      rw [clear_backptr_idempotent]
                      exact kind₀ c ptr found path value isLeaf
                    have step := ih (s.setBlock bhh (some ptr.backBlock))
                      (TrieCursor.repairBackptrFinish (TrieCursor.repairBackptrStepBackptr { cursor with
                        nodes := cursor.nodes ++ [node]
                        nodePathIndex := node.pathBytes.length
                        index := cursor.index + node.pathBytes.length + 1 } next ptr.fromBackptr)
                        ptr.fromBackptr)
                      next ptr.backBlock ptr.ptr ramB
                      (child c) (fresh.set_block _ _) (fresh.reads_flushed entry) trieB readB
                      (back c ptr found backptr) childUniform within
                      (by rw [TrieCursor.ptr_repair_backptr_finish]; exact named) fuelLeft
                    simpa [walkLoop, Trie.walkFromNohash, walked, found, backptr, walkBackptr, inner,
                      sameChr, followed] using step

/-- `get_by_key` at a flushed block reads the map its trie stands for, when the
connection can be reopened where it was. -/
theorem get_by_key_lookup [MarfTrieId T] (fromKey : String → TriePath) {s : TrieStorage T} {blockHash : T}
    {blockId : Nat} (found : s.getBlockId blockHash = some blockId)
    (notSentinel : blockHash ≠ MarfTrieId.sentinel) (fresh : s.Fresh) {t : PathMap}
    (rep : Stored s.committed blockId rootPtr t) (uniform : Uniform t 32)
    (inner : ∃ path child, t = .node path child)
    (reopen : ∃ s', s.openBlockMaybeId s.curBlock s.curBlockId = .ok s') (key : String) :
    getByKey fromKey s blockHash key = .ok (lookup t (fromKey key).bytes) := by
  obtain ⟨_, entry⟩ := TrieStorage.get_block_id_entry found
  have opened := TrieStorage.open_block_flushed found notSentinel fresh
  -- opening the block again changes nothing
  have reopened : (s.setBlock blockHash (some blockId)).openBlock blockHash =
      .ok (s.setBlock blockHash (some blockId)) :=
    TrieStorage.open_block_flushed found notSentinel fresh
  have reads := fresh.reads_flushed entry
  obtain ⟨ram, root, trie, read⟩ := rep.read
  have rootRead : (s.setBlock blockHash (some blockId)).readRoot = .ok root :=
    (reads.read_nodetype trie _).trans (TrieRAM.read_nodetype_of_read read)
  have named : NamesLeaf rootTriePtr t := by
    obtain ⟨path, child, rfl⟩ := inner
    intro _ _ isLeaf
    cases isLeaf
  have loop := walk_loop_finds ((fromKey key).bytes.length + 1) (s.setBlock blockHash (some blockId))
    (TrieCursor.new (fromKey key) rootTriePtr) root blockId rootPtr ram t (fresh.set_block _ _) reads trie read rep
    (by simpa [TrieCursor.new, (fromKey key).length_eq] using uniform) (by simp [TrieCursor.new])
    (by simpa [TrieCursor.new, TrieCursor.ptr] using named) (by simp [TrieCursor.new])
  simp only [TrieCursor.new, List.drop_zero] at loop
  obtain ⟨_, reopenOk⟩ := reopen
  cases answer : lookup t (fromKey key).bytes with
  | none =>
      rw [answer] at loop
      simp only [WalkFinds] at loop
      simp [getByKey, getPath, walk, opened, reopened, rootRead, TrieCursor.new, loop, reopenOk]
  | some value =>
      rw [answer] at loop
      simp only [WalkFinds] at loop
      obtain ⟨cursor, data, s', ran, ends, rfl⟩ := loop
      simp [getByKey, getPath, walk, opened, reopened, rootRead, TrieCursor.new, ran, ends, ensure, reopenOk]

end MARF

end Hyperchains.Marf
