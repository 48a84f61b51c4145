import Hyperchains.Marf.Walk
import Hyperchains.Marf.Represent
import Hyperchains.Library.Panic

/-! The storage operations as the walks use them. A storage open at the trie
being extended (`Writing`) reads and writes that trie's slots; one open at a
flushed trie (`ReadsFlushed`) reads that trie; following a back-pointer opens
the flushed trie it names. Every lemma keeps the flushed tries, which only
`flush` changes. -/

namespace Hyperchains.Marf

open Panic

namespace TrieRAM

theorem read_nodetype_of_read {ram : TrieRAM} {ptr : TriePtr} {node : TrieNodeType}
    (read : ram.data[ptr.ptr]? = some node) : ram.readNodetype ptr = .ok node := by
  simp [readNodetype, read]

theorem write_nodetype_set {ram : TrieRAM} {slot : Nat} (node : TrieNodeType) (inside : slot < ram.data.length) :
    ram.writeNodetype slot node = .ok ⟨ram.data.set slot node⟩ := by
  simp [writeNodetype, inside]

theorem write_nodetype_push (ram : TrieRAM) (node : TrieNodeType) :
    ram.writeNodetype ram.data.length node = .ok ⟨ram.data ++ [node]⟩ := by
  simp [writeNodetype]

end TrieRAM

namespace TrieStorage

variable {T : Type}

/-- The block being extended, if any, has no flushed trie. -/
def Fresh (s : TrieStorage T) : Prop :=
  ∀ building ram, s.uncommitted = some (building, ram) → ∀ entry ∈ s.committed, entry.1 ≠ building

/-- Open at the flushed trie `blockId`. -/
structure ReadsFlushed (s : TrieStorage T) (blockId : Nat) : Prop where
  curBlockId : s.curBlockId = some blockId
  notBuilding : ∀ building ram, s.uncommitted = some (building, ram) → building ≠ s.curBlock

theorem Fresh.set_block {s : TrieStorage T} (fresh : s.Fresh) (bhh : T) (id : Option Nat) :
    (s.setBlock bhh id).Fresh :=
  fresh

/-- Opening the flushed trie of an entry of the storage. -/
theorem Fresh.reads_flushed {s : TrieStorage T} (fresh : s.Fresh) {blockId : Nat} {bhh : T} {ram : TrieRAM}
    (entry : s.committed[blockId]? = some (bhh, ram)) : (s.setBlock bhh (some blockId)).ReadsFlushed blockId := by
  refine ⟨rfl, fun building ram' uncommitted => ?_⟩
  exact (fresh building ram' uncommitted (bhh, ram) (List.mem_of_getElem? entry)).symm

section Writing

variable [MarfTrieId T]

/-- Open at the trie being extended, `blockHash`, whose slots are `ram`; no
flushed trie has the block's hash. -/
structure Writing (s : TrieStorage T) (blockHash : T) (ram : TrieRAM) : Prop where
  uncommitted : s.uncommitted = some (blockHash, ram)
  curBlock : s.curBlock = blockHash
  curBlockId : s.curBlockId = none
  fresh : ∀ entry ∈ s.committed, entry.1 ≠ blockHash
  notSentinel : blockHash ≠ MarfTrieId.sentinel

variable {s : TrieStorage T} {blockHash : T} {ram : TrieRAM}

theorem Writing.fresh_storage (w : s.Writing blockHash ram) : s.Fresh := by
  intro building ram' uncommitted
  rw [w.uncommitted] at uncommitted
  cases uncommitted
  exact w.fresh

theorem Writing.last_ptr (w : s.Writing blockHash ram) : s.lastPtr = .ok ram.data.length := by
  simp [lastPtr, w.uncommitted, TrieRAM.lastPtr]

theorem Writing.with_ram (w : s.Writing blockHash ram) (ram' : TrieRAM) :
    ({ s with uncommitted := some (blockHash, ram') } : TrieStorage T).Writing blockHash ram' :=
  ⟨rfl, w.curBlock, w.curBlockId, w.fresh, w.notSentinel⟩

variable [DecidableEq T]

theorem Writing.read_nodetype (w : s.Writing blockHash ram) (ptr : TriePtr) :
    s.readNodetype ptr = ram.readNodetype ptr := by
  simp only [readNodetype, w.uncommitted, w.curBlock, ↓reduceIte]
  rfl

theorem Writing.read_root (w : s.Writing blockHash ram) {node : TrieNodeType}
    (root : ram.data[rootPtr]? = some node) : s.readRoot = .ok node := by
  rw [readRoot, w.read_nodetype]
  exact TrieRAM.read_nodetype_of_read root

/-- Writing a slot replaces the trie being extended. -/
theorem Writing.write_nodetype (w : s.Writing blockHash ram) (slot : Nat) (node : TrieNodeType) :
    s.writeNodetype slot node =
      (ram.writeNodetype slot node).map fun ram' => { s with uncommitted := some (blockHash, ram') } := by
  simp only [writeNodetype, w.uncommitted, w.curBlock, ↓reduceIte]
  cases ram.writeNodetype slot node <;> rfl

theorem Writing.open_block (w : s.Writing blockHash ram) : s.openBlock blockHash = .ok s := by
  have extending : s.isExtending blockHash = true := by simp [isExtending, w.uncommitted]
  simp only [openBlock, w.notSentinel, ↓reduceIte, extending, setBlock]
  rw [← w.curBlock, ← w.curBlockId]

/-- Reopening the block being extended after reading elsewhere. -/
theorem Writing.reopen (w : s.Writing blockHash ram) (other : T) (id : Option Nat) :
    (s.setBlock other id).openBlockMaybeId blockHash none = .ok s := by
  have extending : (s.setBlock other id).isExtending blockHash = true := by
    simp [isExtending, setBlock, w.uncommitted]
  simp only [openBlockMaybeId, openBlock, w.notSentinel, ↓reduceIte, extending]
  simp only [setBlock]
  rw [← w.curBlock, ← w.curBlockId]

theorem Writing.open_block_maybe_id (w : s.Writing blockHash ram) :
    s.openBlockMaybeId blockHash none = .ok s :=
  w.open_block

theorem Writing.get_block_identifier (w : s.Writing blockHash ram) : s.getBlockIdentifier blockHash = none := by
  simp [getBlockIdentifier, isExtending, w.uncommitted]

end Writing

variable [DecidableEq T]

theorem ReadsFlushed.read_nodetype {s : TrieStorage T} {blockId : Nat} (reads : s.ReadsFlushed blockId)
    {ram : TrieRAM} (trie : trieAt s.committed blockId = some ram) (ptr : TriePtr) :
    s.readNodetype ptr = ram.readNodetype ptr := by
  obtain ⟨entry, found, rfl⟩ := Option.map_eq_some_iff.mp trie
  have flushed : s.readFlushed ptr = entry.2.readNodetype ptr := by
    simp only [readFlushed, reads.curBlockId, found]
    rfl
  unfold readNodetype
  split
  · rename_i building ram' uncommitted
    simp [reads.notBuilding building ram' uncommitted, flushed]
  · exact flushed

theorem Fresh.not_extending {s : TrieStorage T} (fresh : s.Fresh) {blockId : Nat} {bhh : T} {ram : TrieRAM}
    (entry : s.committed[blockId]? = some (bhh, ram)) : s.isExtending bhh = false := by
  unfold isExtending
  split
  · rename_i building ram' uncommitted
    simpa using (fresh building ram' uncommitted (bhh, ram) (List.mem_of_getElem? entry)).symm
  · rfl

theorem get_block_id_entry {s : TrieStorage T} {bhh : T} {blockId : Nat} (found : s.getBlockId bhh = some blockId) :
    ∃ ram, s.committed[blockId]? = some (bhh, ram) := by
  obtain ⟨inside, same, _⟩ := List.findIdx?_eq_some_iff_getElem.mp found
  refine ⟨s.committed[blockId].2, ?_⟩
  rw [List.getElem?_eq_getElem inside]
  simp only [decide_eq_true_eq] at same
  rw [← same]

/-- Opening a flushed block by its hash. -/
theorem open_block_flushed [MarfTrieId T] {s : TrieStorage T} {bhh : T} {blockId : Nat} (found : s.getBlockId bhh = some blockId)
    (notSentinel : bhh ≠ MarfTrieId.sentinel) (fresh : s.Fresh) :
    s.openBlock bhh = .ok (s.setBlock bhh (some blockId)) := by
  obtain ⟨ram, entry⟩ := get_block_id_entry found
  simp [openBlock, notSentinel, fresh.not_extending entry, found]

end TrieStorage

namespace Trie

variable {T : Type} [DecidableEq T]

/-- Following a back-pointer opens the flushed trie it names and reads the
node there; the cursor records the pointer with its bit set and the node. -/
theorem walk_backptr_spec {s : TrieStorage T} (fresh : s.Fresh) {ptr : TriePtr}
    (back : isBackptr ptr.id = true) {bhh : T} {ram : TrieRAM}
    (entry : s.committed[ptr.backBlock]? = some (bhh, ram)) {node : TrieNodeType}
    (read : ram.data[ptr.ptr]? = some node) (cursor : TrieCursor) :
    walkBackptr s ptr cursor = .ok (node, ptr.fromBackptr, s.setBlock bhh (some ptr.backBlock),
      cursor.repairBackptrStepBackptr node ptr.fromBackptr) := by
  have opened : s.openBlockKnownId bhh ptr.backBlock = .ok (s.setBlock bhh (some ptr.backBlock)) := by
    simp [TrieStorage.openBlockKnownId, fresh.not_extending entry]
  have reads := fresh.reads_flushed entry
  have trie : trieAt (s.setBlock bhh (some ptr.backBlock)).committed ptr.backBlock = some ram := by
    simp [trieAt, TrieStorage.setBlock, entry]
  have readBack := reads.read_nodetype trie ptr.fromBackptr
  rw [@TrieRAM.read_nodetype_of_read _ ptr.fromBackptr _ read] at readBack
  simp [walkBackptr, back, TrieStorage.getBlockFromLocalId, entry, opened, readBack]

end Trie

end Hyperchains.Marf
