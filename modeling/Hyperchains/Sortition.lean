import Hyperchains.Library.ParentChain

/-! The L1 side of the sortition database (`chainstate/burn/db/sortdb.rs`) that
decides which L1 operations a subnet block applies: block snapshots keyed by
sortition id, `SortitionDB::get_ops_between`, and the operation range that
`setup_block` asks for on behalf of `append_block` (`chainstate/stacks/db/blocks.rs`).

A snapshot's sortition id is its burn header hash (`SortitionId::stubbed`, as
`process_block_ops` writes it), heights grow by one from parent to child (the
assertion of `make_snapshot`), and the first snapshot, whose burn header hash is
zero, has a parent that is never stored. These are carried by `SortitionDB`;
`SortitionProcessing` shows that the node's writes keep them.
`get_ops_between` loops until it meets the ancestor or the zero hash; the model
takes a fuel bound and answers `none` when the fuel runs out first. -/

namespace Hyperchains.Sortition
open ParentChain

structure BurnchainHeaderHash where
  bytes : List UInt8
  deriving DecidableEq, Repr

def BurnchainHeaderHash.zero : BurnchainHeaderHash := ⟨List.replicate 32 0⟩

structure ConsensusHash where
  bytes : List UInt8
  deriving DecidableEq, Repr

structure SortitionId where
  bytes : List UInt8
  deriving DecidableEq, Repr

def SortitionId.stubbed (hash : BurnchainHeaderHash) : SortitionId := ⟨hash.bytes⟩

theorem stubbed_injective {first second : BurnchainHeaderHash}
    (same : SortitionId.stubbed first = SortitionId.stubbed second) : first = second := by
  cases first
  cases second
  simpa [SortitionId.stubbed] using same

structure BlockHeaderHash where
  bytes : List UInt8
  deriving DecidableEq, Repr

structure Txid where
  bytes : List UInt8
  deriving DecidableEq, Repr

structure BlockSnapshot where
  blockHeight : Nat
  burnHeaderHash : BurnchainHeaderHash
  parentBurnHeaderHash : BurnchainHeaderHash
  consensusHash : ConsensusHash
  sortition : Bool
  winningBlockTxid : Txid
  winningStacksBlockHash : BlockHeaderHash
  sortitionId : SortitionId
  parentSortitionId : SortitionId
  deriving DecidableEq, Repr

/-- The `snapshots` table and the invariants the node keeps when it fills it. -/
structure SortitionDB where
  snapshots : List BlockSnapshot
  stubbedIds : ∀ snapshot ∈ snapshots,
    snapshot.sortitionId = .stubbed snapshot.burnHeaderHash ∧
      snapshot.parentSortitionId = .stubbed snapshot.parentBurnHeaderHash
  heights : ∀ snapshot ∈ snapshots, ∀ above ∈ snapshots,
    above.burnHeaderHash = snapshot.parentBurnHeaderHash →
      snapshot.blockHeight = above.blockHeight + 1
  rootParentAbsent : ∀ snapshot ∈ snapshots, snapshot.burnHeaderHash = .zero →
    ∀ other ∈ snapshots, other.burnHeaderHash ≠ snapshot.parentBurnHeaderHash
  uniqueIds : (snapshots.map (·.sortitionId)).Nodup

inductive DbError where
  | notFoundError
  -- an `INSERT` that a `UNIQUE` column refuses
  | sqliteError
  deriving DecidableEq, Repr

namespace SortitionDB

def getBlockSnapshot (db : SortitionDB) (sortitionId : SortitionId) : Option BlockSnapshot :=
  db.snapshots.find? fun snapshot => snapshot.sortitionId = sortitionId

def getBlockSnapshotConsensus (db : SortitionDB) (consensusHash : ConsensusHash) :
    Option BlockSnapshot :=
  db.snapshots.find? fun snapshot => snapshot.consensusHash = consensusHash

/-- The loop of `get_ops_between`: `ops` holds one entry per visited block,
newest first, as the `Vec` it pushes to. -/
def getOpsBetweenLoop {Op : Type} (db : SortitionDB)
    (getOpsInBlock : BurnchainHeaderHash → List Op) (ancestor : BurnchainHeaderHash) :
    Nat → BurnchainHeaderHash → SortitionId → List (List Op) →
      Option (Except DbError (List (List Op)))
  | 0, _, _, _ => none
  | fuel + 1, currBlockId, currSortitionId, ops =>
      if currBlockId = .zero then some (.ok ops) else
      let ops := ops ++ [getOpsInBlock currBlockId]
      if currBlockId = ancestor then some (.ok ops) else
      match db.getBlockSnapshot currSortitionId with
      | none => some (.error .notFoundError)
      | some snapshot =>
          getOpsBetweenLoop db getOpsInBlock ancestor fuel snapshot.parentBurnHeaderHash
            snapshot.parentSortitionId ops

/-- `SortitionDB::get_ops_between(ancestor, start_block)`: reverse the
newest-first entries and flatten them. -/
def getOpsBetween {Op : Type} (db : SortitionDB) (ancestor startBlock : BurnchainHeaderHash)
    (getOpsInBlock : BurnchainHeaderHash → List Op) (fuel : Nat) :
    Option (Except DbError (List Op)) :=
  (db.getOpsBetweenLoop getOpsInBlock ancestor fuel startBlock (.stubbed startBlock) []).map
    fun result => result.map fun ops => ops.reverse.flatten

/-- The parent of a stored L1 block, when that parent is stored too. -/
def parentOf (db : SortitionDB) (hash : BurnchainHeaderHash) : Option BurnchainHeaderHash :=
  match db.getBlockSnapshot (.stubbed hash) with
  | none => none
  | some snapshot =>
      if (db.getBlockSnapshot (.stubbed snapshot.parentBurnHeaderHash)).isSome
      then some snapshot.parentBurnHeaderHash else none

/-- A node's L1 height, as its snapshot records it. -/
def heightOf (db : SortitionDB) (hash : BurnchainHeaderHash) : Nat :=
  ((db.getBlockSnapshot (.stubbed hash)).map (·.blockHeight)).getD 0

variable (db : SortitionDB)

theorem get_block_snapshot_stubbed {hash : BurnchainHeaderHash} {snapshot : BlockSnapshot}
    (found : db.getBlockSnapshot (.stubbed hash) = some snapshot) :
    snapshot ∈ db.snapshots ∧ snapshot.burnHeaderHash = hash ∧
      snapshot.parentSortitionId = .stubbed snapshot.parentBurnHeaderHash := by
  have stored := List.mem_of_find?_eq_some found
  have matched := List.find?_some found
  have ids := db.stubbedIds snapshot stored
  simp only [decide_eq_true_eq] at matched
  exact ⟨stored, stubbed_injective (ids.1.symm.trans matched), ids.2⟩

theorem parent_of_some {hash above : BurnchainHeaderHash}
    (linked : db.parentOf hash = some above) :
    ∃ snapshot, db.getBlockSnapshot (.stubbed hash) = some snapshot ∧
      snapshot.parentBurnHeaderHash = above ∧ snapshot.parentSortitionId = .stubbed above ∧
      (db.getBlockSnapshot (.stubbed above)).isSome := by
  unfold parentOf at linked
  cases found : db.getBlockSnapshot (.stubbed hash) with
  | none => simp [found] at linked
  | some snapshot =>
      simp only [found] at linked
      split at linked
      · rename_i parentStored
        cases linked
        exact ⟨snapshot, rfl, rfl, (get_block_snapshot_stubbed db found).2.2, parentStored⟩
      · cases linked

/-- The first snapshot's parent is never stored, so no path steps into zero. -/
theorem parent_of_zero : db.parentOf .zero = none := by
  unfold parentOf
  cases found : db.getBlockSnapshot (.stubbed .zero) with
  | none => rfl
  | some snapshot =>
      obtain ⟨stored, isZero, -⟩ := get_block_snapshot_stubbed db found
      cases parentFound : db.getBlockSnapshot (.stubbed snapshot.parentBurnHeaderHash) with
      | none => simp [parentFound]
      | some above =>
          obtain ⟨aboveStored, aboveHash, -⟩ := get_block_snapshot_stubbed db parentFound
          exact absurd aboveHash (db.rootParentAbsent snapshot stored isZero above aboveStored)

theorem height_of_grows (child above : BurnchainHeaderHash) (linked : db.parentOf child = some above) :
    db.heightOf child = db.heightOf above + 1 := by
  obtain ⟨snapshot, found, parentHash, -, aboveStored⟩ := parent_of_some db linked
  obtain ⟨stored, -, -⟩ := get_block_snapshot_stubbed db found
  cases aboveFound : db.getBlockSnapshot (.stubbed above) with
  | none => simp [aboveFound] at aboveStored
  | some aboveSnapshot =>
      obtain ⟨aboveIn, aboveHash, -⟩ := get_block_snapshot_stubbed db aboveFound
      have grows := db.heights snapshot stored aboveSnapshot aboveIn (aboveHash.trans parentHash.symm)
      simp [heightOf, found, aboveFound, grows]

/-- The stored snapshot of a stored block is found under its sortition id. -/
theorem get_block_snapshot_stored {snapshot : BlockSnapshot} (stored : snapshot ∈ db.snapshots) :
    db.getBlockSnapshot (.stubbed snapshot.burnHeaderHash) = some snapshot := by
  obtain ⟨found, -⟩ := db.stubbedIds snapshot stored
  unfold getBlockSnapshot
  rw [← found]
  -- some snapshot carries the id; the ids being unique, it is this one
  obtain ⟨first, lookup⟩ : ∃ first,
      db.snapshots.find? (fun other => decide (other.sortitionId = snapshot.sortitionId)) =
      some first := Option.isSome_iff_exists.mp (List.find?_isSome.mpr ⟨snapshot, stored, by simp⟩)
  have same : first.sortitionId = snapshot.sortitionId := by simpa using List.find?_some lookup
  rw [lookup, List.inj_on_of_nodup_map db.uniqueIds (List.mem_of_find?_eq_some lookup) stored same]

/-- A stored block's parent link, when the parent is stored too. -/
theorem parent_of_stored {snapshot above : BlockSnapshot} (stored : snapshot ∈ db.snapshots)
    (aboveStored : above ∈ db.snapshots)
    (parentHash : above.burnHeaderHash = snapshot.parentBurnHeaderHash) :
    db.parentOf snapshot.burnHeaderHash = some snapshot.parentBurnHeaderHash := by
  have aboveFound := get_block_snapshot_stored db aboveStored
  rw [parentHash] at aboveFound
  simp [parentOf, get_block_snapshot_stored db stored, aboveFound]

/-- Every node of a path from a stored block is stored. -/
theorem path_last_stored {first last : BurnchainHeaderHash} {nodes : List BurnchainHeaderHash}
    (path : Path db.parentOf first last nodes)
    (firstStored : (db.getBlockSnapshot (.stubbed first)).isSome) :
    (db.getBlockSnapshot (.stubbed last)).isSome := by
  cases path with
  | single => exact firstStored
  | step _ hop =>
      obtain ⟨snapshot, found, -⟩ := parent_of_some db hop
      simp [found]

theorem path_nodup_of_heights {first last : BurnchainHeaderHash} {nodes : List BurnchainHeaderHash}
    (path : Path db.parentOf first last nodes) : nodes.Nodup :=
  ParentChain.path_nodup db.heightOf (height_of_grows db) path

/-- `get_ops_between`'s loop along a stored path, started at its last node with
`acc` already pushed: it pushes every node back to the first, skipping zero. -/
theorem get_ops_between_loop_path {Op : Type} (getOpsInBlock : BurnchainHeaderHash → List Op)
    {first last : BurnchainHeaderHash} {nodes : List BurnchainHeaderHash}
    (path : Path db.parentOf first last nodes) :
    ∀ (fuel : Nat) (acc : List (List Op)), nodes.Nodup → nodes.length ≤ fuel →
      db.getOpsBetweenLoop getOpsInBlock first fuel last (.stubbed last) acc =
        some (.ok (acc ++ ((nodes.filter (· ≠ .zero)).reverse.map getOpsInBlock))) := by
  induction path with
  | single =>
      intro fuel acc _ enough
      obtain ⟨fuel, rfl⟩ : ∃ rest, fuel = rest + 1 := ⟨fuel - 1, by simp at enough; omega⟩
      by_cases isZero : first = .zero <;> simp [getOpsBetweenLoop, isZero]
  | step earlier hop ih =>
      rename_i previous last' nodes
      intro fuel acc distinct enough
      obtain ⟨fuel, rfl⟩ : ∃ rest, fuel = rest + 1 := ⟨fuel - 1, by simp at enough; omega⟩
      obtain ⟨snapshot, found, parentHash, parentId, -⟩ := parent_of_some db hop
      have notZero : last' ≠ .zero := by
        intro isZero
        rw [isZero, parent_of_zero] at hop
        cases hop
      -- the first node heads the earlier nodes, and the path never comes back to it
      have notFirst : last' ≠ first := by
        intro same
        have head := path_head earlier
        have fresh := (List.nodup_append.mp distinct).2.2
        exact fresh first (List.mem_of_mem_head? head) last' (List.mem_singleton_self _) same.symm
      have rest := ih fuel (acc ++ [getOpsInBlock last']) (List.nodup_append.mp distinct).1
        (by simp at enough; omega)
      simp only [getOpsBetweenLoop, notZero, notFirst, found, ↓reduceIte, parentHash, parentId]
      rw [rest]
      simp [List.filter_append, notZero]

/-- `get_ops_between(first, last)` over a stored path from `first` to `last` with
enough fuel: the operations of every node of the path but zero, oldest first. -/
theorem get_ops_between_path {Op : Type} (getOpsInBlock : BurnchainHeaderHash → List Op)
    {first last : BurnchainHeaderHash} {nodes : List BurnchainHeaderHash}
    (path : Path db.parentOf first last nodes) (fuel : Nat) (enough : nodes.length ≤ fuel) :
    db.getOpsBetween first last getOpsInBlock fuel =
      some (.ok ((nodes.filter (· ≠ .zero)).flatMap getOpsInBlock)) := by
  have walked := get_ops_between_loop_path db getOpsInBlock path fuel []
    (path_nodup_of_heights db path) enough
  simp [getOpsBetween, walked, Except.map, List.flatMap, List.map_reverse]

end SortitionDB

end Hyperchains.Sortition
