import Hyperchains.Sortition

/-! Which L1 operations each subnet block applies. `append_block` reads the L1
block that precedes the block's own sortition (the parent burn header hash of
the snapshot its consensus hash names) and hands it to `setup_block` as
`burn_tip`; `setup_block` reads the L1 block of the parent's sortition and asks
`SortitionDB::get_ops_between` for every operation from there to `burn_tip`,
once for each of the register-asset, deposit-stx, deposit-ft and deposit-nft
tables. The four queries differ only in the table they read, so the model takes
the table as a parameter.

Along a fork, block after block, these ranges tile the L1 chain: the union of
the ranges of blocks `B1 .. Bn` is the path from the L1 block of `B0`'s
sortition to the parent of `Bn`'s, each L1 block once, oldest first. -/

namespace Hyperchains.OperationRanges
open ParentChain Sortition SortitionDB

/-- The failures on this path: `Error::InvalidStacksBlock`, a database error
passed on by `?`, and the `expect` of `append_block`. -/
inductive BlockError where
  | invalidStacksBlock (message : String)
  | dbError (error : DbError)
  | panic (message : String)
  deriving DecidableEq, Repr

variable {Op : Type} (db : SortitionDB) (getOpsInBlock : BurnchainHeaderHash → List Op)

/-- The `burn_tip` of `append_block`: the L1 block before the block's sortition. -/
def appendBlockBurnTip (chainTipConsensusHash : ConsensusHash) :
    Except BlockError BurnchainHeaderHash :=
  match db.getBlockSnapshotConsensus chainTipConsensusHash with
  | none => .error (.panic
      "BUG: Failed to load snapshot for block snapshot during Stacks block processing")
  | some snapshot => .ok snapshot.parentBurnHeaderHash

/-- One of the four operation queries of `setup_block`. -/
def setupBlockOps (parentConsensusHash : ConsensusHash) (burnTip : BurnchainHeaderHash)
    (fuel : Nat) : Option (Except BlockError (List Op)) :=
  match db.getBlockSnapshotConsensus parentConsensusHash with
  | none => some (.error (.invalidStacksBlock "Failed to load parent block snapshot"))
  | some parentBlockBurnBlock =>
      (db.getOpsBetween parentBlockBurnBlock.burnHeaderHash burnTip getOpsInBlock fuel).map
        (·.mapError .dbError)

/-- The operations of one table that `append_block` of the block elected at
`chainTipConsensusHash`, built on the block of `parentConsensusHash`, applies. -/
def appendBlockOps (parentConsensusHash chainTipConsensusHash : ConsensusHash) (fuel : Nat) :
    Option (Except BlockError (List Op)) :=
  match appendBlockBurnTip db chainTipConsensusHash with
  | .error error => some (.error error)
  | .ok burnTip => setupBlockOps db getOpsInBlock parentConsensusHash burnTip fuel

/-- Appending the blocks of a fork one after the other, each on the one before:
the operations applied, in order, or the first failure. -/
def forkOps (fuel : Nat) : ConsensusHash → List ConsensusHash → Option (Except BlockError (List Op))
  | _, [] => some (.ok [])
  | parent, child :: rest =>
      match appendBlockOps db getOpsInBlock parent child fuel with
      | some (.ok here) => (forkOps fuel child rest).map (·.map (here ++ ·))
      | failed => failed

/-- The sortitions of a fork of subnet blocks, the parent's first: each lies in
an L1 block that strictly descends, along stored parent links, from the one
before. -/
inductive Fork : List BlockSnapshot → Prop where
  | first (snapshot : BlockSnapshot) : Fork [snapshot]
  | extend {parent child : BlockSnapshot} {rest : List BlockSnapshot}
      {segment : List BurnchainHeaderHash} :
      Path db.parentOf parent.burnHeaderHash child.burnHeaderHash segment →
      parent.burnHeaderHash ≠ child.burnHeaderHash → Fork (child :: rest) →
      Fork (parent :: child :: rest)

section Elected
variable {db}

theorem snapshot_stored {snapshot : BlockSnapshot}
    (elected : db.getBlockSnapshotConsensus snapshot.consensusHash = some snapshot) :
    snapshot ∈ db.snapshots :=
  List.mem_of_find?_eq_some elected

/-- An elected block's L1 height is one more than that of the L1 block before
its sortition. -/
theorem height_of_parent {snapshot : BlockSnapshot}
    (stored : snapshot ∈ db.snapshots)
    (parentStored : (db.getBlockSnapshot (.stubbed snapshot.parentBurnHeaderHash)).isSome) :
    db.heightOf snapshot.parentBurnHeaderHash + 1 = snapshot.blockHeight := by
  obtain ⟨above, found⟩ := Option.isSome_iff_exists.mp parentStored
  obtain ⟨aboveStored, aboveHash, -⟩ := get_block_snapshot_stubbed db found
  have grows := db.heights snapshot stored above aboveStored aboveHash
  simp [heightOf, found, grows]

/-- One block's range: from the L1 block of the parent's sortition to the one
before its own, along the stored chain. -/
theorem append_block_ops_path {parent child : BlockSnapshot} {segment : List BurnchainHeaderHash}
    (parentElected : db.getBlockSnapshotConsensus parent.consensusHash = some parent)
    (childElected : db.getBlockSnapshotConsensus child.consensusHash = some child)
    (descends : Path db.parentOf parent.burnHeaderHash child.burnHeaderHash segment)
    (apart : parent.burnHeaderHash ≠ child.burnHeaderHash)
    (fuel : Nat) (enough : child.blockHeight ≤ fuel) :
    ∃ earlier, Path db.parentOf parent.burnHeaderHash child.parentBurnHeaderHash earlier ∧
      db.parentOf child.burnHeaderHash = some child.parentBurnHeaderHash ∧
      appendBlockOps db getOpsInBlock parent.consensusHash child.consensusHash fuel =
        some (.ok ((earlier.filter (· ≠ .zero)).flatMap getOpsInBlock)) := by
  obtain ⟨previous, earlier, before, hop, -⟩ := path_last_step descends apart
  -- the last step of the segment leaves the child's L1 block for its parent
  have childFound := get_block_snapshot_stored db (snapshot_stored childElected)
  obtain ⟨found, stepped, parentHash, -, -⟩ := parent_of_some db hop
  rw [childFound] at stepped
  cases stepped
  subst parentHash
  -- the range is no longer than the L1 height of the child
  have parentStored := path_last_stored db before
    (by simp [get_block_snapshot_stored db (snapshot_stored parentElected)])
  have climbed := path_length db.heightOf (height_of_grows db) before
  have lifted := height_of_parent (snapshot_stored childElected) parentStored
  have walked := get_ops_between_path db getOpsInBlock before fuel (by omega)
  refine ⟨earlier, before, hop, ?_⟩
  simp [appendBlockOps, appendBlockBurnTip, setupBlockOps, childElected, parentElected, walked,
    Except.mapError]

end Elected

/-- Along a fork, the operations the blocks after the first apply are those of
the L1 blocks from the first block's sortition to the one before the last
block's, each L1 block once (the zero hash, which holds no L1 block, apart),
oldest first. -/
theorem fork_ops_tile_l1_chain (origin : BlockSnapshot) (blocks : List BlockSnapshot)
    (fork : Fork db (origin :: blocks))
    (elected : ∀ snapshot ∈ origin :: blocks,
      db.getBlockSnapshotConsensus snapshot.consensusHash = some snapshot)
    (fuel : Nat) (enough : ∀ snapshot ∈ blocks, snapshot.blockHeight ≤ fuel)
    (last : BlockSnapshot) (isLast : blocks.getLast? = some last) :
    ∃ nodes, Path db.parentOf origin.burnHeaderHash last.parentBurnHeaderHash nodes ∧
      nodes.Nodup ∧
      forkOps db getOpsInBlock fuel origin.consensusHash (blocks.map (·.consensusHash)) =
        some (.ok ((nodes.filter (· ≠ .zero)).flatMap getOpsInBlock)) := by
  -- induction on the blocks after `origin`, each step putting one range before the rest
  induction blocks generalizing origin with
  | nil => simp at isLast
  | cons child rest ih =>
      cases fork with
      | extend descends apart later =>
          obtain ⟨earlier, before, link, here⟩ := append_block_ops_path getOpsInBlock
            (elected origin (by simp)) (elected child (by simp)) descends apart fuel
            (enough child (by simp))
          cases rest with
          | nil =>
              simp only [List.getLast?_singleton, Option.some.injEq] at isLast
              subst isLast
              refine ⟨earlier, before, path_nodup_of_heights db before, ?_⟩
              simp [forkOps, here, Except.map]
          | cons next rest =>
              obtain ⟨nodes, after, -, tail⟩ := ih child later
                (fun snapshot member => elected snapshot (List.mem_cons_of_mem _ member))
                (fun snapshot member => enough snapshot (List.mem_cons_of_mem _ member))
                (by simpa using isLast)
              have joined := path_join before link after
              refine ⟨earlier ++ nodes, joined, path_nodup_of_heights db joined, ?_⟩
              simp only [List.map_cons] at tail ⊢
              rw [forkOps, here]
              simp only [tail, Option.map_some]
              simp [Except.map, List.filter_append, List.flatMap_append]

/-! A fork of one block over three L1 blocks: the first snapshot (zero hash),
an L1 block without sortition winner, and the block whose sortition elects
`B1`. Each L1 block records one operation, named by its hash. -/

def firstSnapshot : BlockSnapshot :=
  ⟨0, .zero, ⟨[255]⟩, ⟨[0]⟩, true, ⟨[0]⟩, ⟨[0]⟩, .stubbed .zero, .stubbed ⟨[255]⟩⟩

def emptySnapshot : BlockSnapshot :=
  ⟨1, ⟨[1]⟩, .zero, ⟨[1]⟩, false, ⟨[0]⟩, ⟨[0]⟩, .stubbed ⟨[1]⟩, .stubbed .zero⟩

def electingSnapshot : BlockSnapshot :=
  ⟨2, ⟨[2]⟩, ⟨[1]⟩, ⟨[2]⟩, true, ⟨[3]⟩, ⟨[7]⟩, .stubbed ⟨[2]⟩, .stubbed ⟨[1]⟩⟩

def threeBlockDb : SortitionDB where
  snapshots := [firstSnapshot, emptySnapshot, electingSnapshot]
  stubbedIds := by decide
  heights := by decide
  rootParentAbsent := by decide
  uniqueIds := by decide

theorem fork_ops_tile_three_blocks :
    Fork threeBlockDb [firstSnapshot, electingSnapshot] ∧
      ∃ nodes, Path threeBlockDb.parentOf .zero ⟨[1]⟩ nodes ∧ nodes.Nodup ∧
        forkOps threeBlockDb (fun hash => [hash]) 2 ⟨[0]⟩ [⟨[2]⟩] =
          some (.ok ((nodes.filter (· ≠ .zero)).flatMap fun hash => [hash])) := by
  have fork : Fork threeBlockDb [firstSnapshot, electingSnapshot] :=
    .extend (.step (.step (.single _) (show threeBlockDb.parentOf ⟨[1]⟩ = some .zero by decide))
      (by decide)) (by decide) (.first _)
  exact ⟨fork, fork_ops_tile_l1_chain threeBlockDb (fun hash => [hash]) firstSnapshot
    [electingSnapshot] fork (by decide) 2 (by decide) electingSnapshot rfl⟩

end Hyperchains.OperationRanges
