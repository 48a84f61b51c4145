import Hyperchains.BlockCommit

/-! How the node fills the `snapshots` table, and that what it writes meets the
invariants `SortitionDB` carries. `SortitionDB::instantiate` inserts
`BlockSnapshot::initial`. For each L1 block, `evaluate_sortition`
(`chainstate/burn/db/sortdb.rs`) finds the parent snapshot (the first snapshot
for the block after it), `process_block_txs` and `make_snapshot`
(`chainstate/burn/db/processing.rs`, `chainstate/burn/sortition.rs`) assert that
the height grows by one and build the snapshot under the sortition id of the
block's hash, and `append_chain_tip_snapshot` asserts the parent links before
`insert_block_snapshot` adds the row, which the `UNIQUE` columns `sortition_id`
and `consensus_hash` refuse when taken.

The table is a list in insertion order; every other write to it updates columns
left out here. The MARF index that `index_add_fork_info` writes is left out, and
the parent lookup through it is the lookup of the parent's stubbed sortition id
that it amounts to. So are the index root, the mining bonus and `num_sortitions`,
with the assertions on the last. L1 block hashes are taken never to be the
all-`0xff` sentinel, the parent hash of the first snapshot. -/

namespace Hyperchains.Sortition
open ParentChain BlockCommit SortitionDB

/-- `SENTINEL_ARRAY` as a burn header hash: the parent of the first snapshot. -/
def BurnchainHeaderHash.sentinel : BurnchainHeaderHash := ⟨List.replicate 32 255⟩

def SortitionId.sentinel : SortitionId := ⟨List.replicate 32 255⟩

/-- `ConsensusHash::empty`. -/
def ConsensusHash.empty : ConsensusHash := ⟨List.replicate 20 0⟩

/-- `FIRST_STACKS_BLOCK_HASH`. -/
def firstStacksBlockHash : BlockHeaderHash := ⟨List.replicate 32 0⟩

/-- `BlockSnapshot::initial`. -/
def BlockSnapshot.initial (firstBlockHeight : Nat) : BlockSnapshot where
  blockHeight := firstBlockHeight
  burnHeaderHash := .zero
  parentBurnHeaderHash := .sentinel
  consensusHash := ⟨List.replicate 20 0⟩
  sortition := true
  winningBlockTxid := ⟨List.replicate 32 0⟩
  winningStacksBlockHash := firstStacksBlockHash
  sortitionId := ⟨List.replicate 32 0⟩
  parentSortitionId := .sentinel

def blockHeightMax : Nat := 2 ^ 63 - 1

/-- The failures of `evaluate_sortition`: `BurnchainError::MissingParentBlock`,
a database error passed on by `?`, and the panics on the way. -/
inductive BurnchainError where
  | missingParentBlock
  | dbError (error : DbError)
  | panic (message : String)
  deriving DecidableEq, Repr

variable {Root : Type}

/-- `insert_block_snapshot`. -/
def insertBlockSnapshot (snapshots : List BlockSnapshot) (snapshot : BlockSnapshot) :
    Except BurnchainError (List BlockSnapshot) :=
  if snapshot.blockHeight ≥ blockHeightMax then
    .error (.panic "assertion failed: snapshot.block_height < BLOCK_HEIGHT_MAX")
  else if snapshots.any fun row =>
      row.sortitionId = snapshot.sortitionId ∨ row.consensusHash = snapshot.consensusHash then
    .error (.dbError .sqliteError)
  else .ok (snapshots ++ [snapshot])

/-- `SortitionDB::instantiate`: the first snapshot alone. -/
def instantiate (firstBlockHeight : Nat) : Except BurnchainError (List BlockSnapshot) :=
  insertBlockSnapshot [] (BlockSnapshot.initial firstBlockHeight)

/-- `append_chain_tip_snapshot`: its assertions, then `insert_block_snapshot`. -/
def appendChainTipSnapshot (firstBlockHeight : Nat) (snapshots : List BlockSnapshot)
    (parentSnapshot snapshot : BlockSnapshot) : Except BurnchainError (List BlockSnapshot) :=
  if parentSnapshot.blockHeight = firstBlockHeight ∧ parentSnapshot.burnHeaderHash ≠ .zero then
    .error (.panic "assertion `left == right` failed")
  else if parentSnapshot.blockHeight ≠ firstBlockHeight ∧
      snapshot.parentBurnHeaderHash ≠ parentSnapshot.burnHeaderHash then
    .error (.panic "assertion `left == right` failed")
  else if snapshot.parentSortitionId ≠ parentSnapshot.sortitionId then
    .error (.panic "assertion `left == right` failed")
  else if parentSnapshot.blockHeight + 1 ≠ snapshot.blockHeight then
    .error (.panic "assertion `left == right` failed")
  else insertBlockSnapshot snapshots snapshot

/-- `SortitionDB::get_first_block_snapshot`: the one row whose consensus hash is
empty, as `query_row_panic` reads it. -/
def getFirstBlockSnapshot (snapshots : List BlockSnapshot) : Except BurnchainError BlockSnapshot :=
  match snapshots.filter fun snapshot => snapshot.consensusHash = .empty with
  | [] => .error (.panic "FATAL: no first snapshot")
  | [snapshot] => .ok snapshot
  | _ :: _ :: _ => .error (.panic "FATAL: multiple first-block snapshots")

/-- `process_block_txs`: the assertions of `make_snapshot`, made once more, then
`process_block_ops`. -/
def processBlockTxs (firstBlockHeight : Nat) (parentSnapshot : BlockSnapshot)
    (thisBlockHeader : BurnchainBlockHeader) (consensusHash : ConsensusHash)
    (blockstackTxs : List (StacksSubnetOp Root)) (blockCommits : BlockCommits Root) :
    Except BurnchainError (BlockSnapshot × BlockCommits Root) :=
  if parentSnapshot.blockHeight + 1 ≠ thisBlockHeader.blockHeight then
    .error (.panic "assertion `left == right` failed")
  else if parentSnapshot.blockHeight = firstBlockHeight ∧ parentSnapshot.burnHeaderHash ≠ .zero then
    .error (.panic "assertion `left == right` failed")
  else if parentSnapshot.blockHeight ≠ firstBlockHeight ∧
      parentSnapshot.burnHeaderHash ≠ thisBlockHeader.parentBlockHash then
    .error (.panic "assertion `left == right` failed")
  else
    (processBlockOps firstBlockHeight parentSnapshot thisBlockHeader consensusHash blockstackTxs
      blockCommits).mapError .panic

/-- The parent snapshot of `evaluate_sortition`: the first snapshot for the
block after it, else the snapshot under the parent block's sortition id. -/
def getParentSnapshot (firstBlockHeight : Nat) (burnHeader : BurnchainBlockHeader)
    (snapshots : List BlockSnapshot) : Except BurnchainError BlockSnapshot :=
  if burnHeader.blockHeight = firstBlockHeight + 1 then getFirstBlockSnapshot snapshots
  else match snapshots.find? fun snapshot => snapshot.sortitionId = .stubbed burnHeader.parentBlockHash with
    | some parentSnapshot => .ok parentSnapshot
    | none => .error .missingParentBlock

/-- `SortitionDB::evaluate_sortition` on the snapshots and the stored commits:
the new snapshot, and both tables after it. -/
def evaluateSortition (firstBlockHeight : Nat) (burnHeader : BurnchainBlockHeader)
    (consensusHash : ConsensusHash) (ops : List (StacksSubnetOp Root)) (snapshots : List BlockSnapshot)
    (blockCommits : BlockCommits Root) :
    Except BurnchainError (BlockSnapshot × List BlockSnapshot × BlockCommits Root) := do
  let parentSnapshot ← getParentSnapshot firstBlockHeight burnHeader snapshots
  let (snapshot, blockCommits) ←
    processBlockTxs firstBlockHeight parentSnapshot burnHeader consensusHash ops blockCommits
  -- `process_checked_block_ops` ends by appending the snapshot to the chain tip
  let snapshots ← appendChainTipSnapshot firstBlockHeight snapshots parentSnapshot snapshot
  pure (snapshot, snapshots, blockCommits)

/-! ## What each write does -/

theorem insert_block_snapshot_eq_ok {snapshots snapshots' : List BlockSnapshot} {snapshot : BlockSnapshot}
    (inserted : insertBlockSnapshot snapshots snapshot = .ok snapshots') :
    snapshots' = snapshots ++ [snapshot] ∧ ∀ row ∈ snapshots, row.sortitionId ≠ snapshot.sortitionId := by
  unfold insertBlockSnapshot at inserted
  split_ifs at inserted with tooHigh taken
  -- no row holds the sortition id, or the `INSERT` would have failed
  cases inserted
  refine ⟨rfl, fun row stored same => taken ?_⟩
  exact List.any_eq_true.mpr ⟨row, stored, by simp [same]⟩

theorem make_snapshot_eq_ok {firstBlockHeight : Nat} {mySortitionId : SortitionId}
    {parentSnapshot snapshot : BlockSnapshot} {blockCommits : List (LeaderBlockCommitOp Root)}
    {blockHeader : BurnchainBlockHeader} {consensusHash : ConsensusHash}
    (made : makeSnapshot firstBlockHeight mySortitionId parentSnapshot blockCommits blockHeader
      consensusHash = .ok snapshot) :
    snapshot.blockHeight = parentSnapshot.blockHeight + 1 ∧ snapshot.burnHeaderHash = blockHeader.blockHash ∧
      snapshot.parentBurnHeaderHash = parentSnapshot.burnHeaderHash ∧ snapshot.sortitionId = mySortitionId ∧
      snapshot.parentSortitionId = parentSnapshot.sortitionId := by
  unfold makeSnapshot at made
  split_ifs at made with firstZero linked grows
  -- with or without a winner, the snapshot keeps the fields the assertions checked
  split at made <;>
  · cases made
    refine ⟨?_, rfl, rfl, rfl, rfl⟩
    dsimp only
    omega

theorem process_block_txs_eq_ok {firstBlockHeight : Nat} {parentSnapshot snapshot : BlockSnapshot}
    {thisBlockHeader : BurnchainBlockHeader} {consensusHash : ConsensusHash}
    {blockstackTxs : List (StacksSubnetOp Root)} {blockCommits blockCommits' : BlockCommits Root}
    (processed : processBlockTxs firstBlockHeight parentSnapshot thisBlockHeader consensusHash blockstackTxs
      blockCommits = .ok (snapshot, blockCommits')) :
    snapshot.blockHeight = parentSnapshot.blockHeight + 1 ∧ snapshot.burnHeaderHash = thisBlockHeader.blockHash ∧
      snapshot.parentBurnHeaderHash = parentSnapshot.burnHeaderHash ∧
      snapshot.sortitionId = .stubbed thisBlockHeader.blockHash ∧
      snapshot.parentSortitionId = parentSnapshot.sortitionId := by
  unfold processBlockTxs at processed
  -- past the assertions, the snapshot is the one `make_snapshot` built
  split_ifs at processed
  obtain ⟨made, madeOk, stored⟩ := Panic.bind_eq_ok (Panic.map_error_eq_ok.mp processed)
  simp only [Panic.pure_eq_ok, Except.ok.injEq, Prod.mk.injEq] at stored
  rw [← stored.1]
  exact make_snapshot_eq_ok madeOk

theorem append_chain_tip_snapshot_eq_ok {firstBlockHeight : Nat} {snapshots snapshots' : List BlockSnapshot}
    {parentSnapshot snapshot : BlockSnapshot}
    (appended : appendChainTipSnapshot firstBlockHeight snapshots parentSnapshot snapshot = .ok snapshots') :
    snapshots' = snapshots ++ [snapshot] ∧ ∀ row ∈ snapshots, row.sortitionId ≠ snapshot.sortitionId := by
  unfold appendChainTipSnapshot at appended
  split_ifs at appended
  exact insert_block_snapshot_eq_ok appended

theorem get_first_block_snapshot_mem {snapshots : List BlockSnapshot} {snapshot : BlockSnapshot}
    (found : getFirstBlockSnapshot snapshots = .ok snapshot) : snapshot ∈ snapshots := by
  unfold getFirstBlockSnapshot at found
  split at found
  · cases found
  · rename_i only
    cases found
    exact (List.mem_filter.mp (only ▸ List.mem_singleton_self _)).1
  · cases found

theorem get_parent_snapshot_mem {firstBlockHeight : Nat} {burnHeader : BurnchainBlockHeader}
    {snapshots : List BlockSnapshot} {parentSnapshot : BlockSnapshot}
    (found : getParentSnapshot firstBlockHeight burnHeader snapshots = .ok parentSnapshot) :
    parentSnapshot ∈ snapshots := by
  unfold getParentSnapshot at found
  split at found
  · exact get_first_block_snapshot_mem found
  · split at found
    · rename_i lookup
      cases found
      exact List.mem_of_find?_eq_some lookup
    · cases found

/-- A successful `evaluate_sortition` appends one snapshot, one above a stored
parent, linked to it, under the sortition id of its own hash, which no row held. -/
theorem evaluate_sortition_eq_ok {firstBlockHeight : Nat} {burnHeader : BurnchainBlockHeader}
    {consensusHash : ConsensusHash} {ops : List (StacksSubnetOp Root)} {snapshots snapshots' : List BlockSnapshot}
    {blockCommits blockCommits' : BlockCommits Root} {snapshot : BlockSnapshot}
    (evaluated : evaluateSortition firstBlockHeight burnHeader consensusHash ops snapshots blockCommits =
      .ok (snapshot, snapshots', blockCommits')) :
    ∃ parentSnapshot ∈ snapshots, snapshots' = snapshots ++ [snapshot] ∧
      (∀ row ∈ snapshots, row.sortitionId ≠ snapshot.sortitionId) ∧
      snapshot.blockHeight = parentSnapshot.blockHeight + 1 ∧ snapshot.burnHeaderHash = burnHeader.blockHash ∧
      snapshot.parentBurnHeaderHash = parentSnapshot.burnHeaderHash ∧
      snapshot.sortitionId = .stubbed burnHeader.blockHash ∧
      snapshot.parentSortitionId = parentSnapshot.sortitionId := by
  unfold evaluateSortition at evaluated
  obtain ⟨parentSnapshot, found, rest⟩ := Panic.bind_eq_ok evaluated
  obtain ⟨⟨made, blockCommits''⟩, processed, rest⟩ := Panic.bind_eq_ok rest
  dsimp only at rest
  obtain ⟨appendedSnapshots, appended, stored⟩ := Panic.bind_eq_ok rest
  simp only [Panic.pure_eq_ok, Except.ok.injEq, Prod.mk.injEq] at stored
  obtain ⟨rfl, rfl, -⟩ := stored
  obtain ⟨grows, ownHash, parentHash, ownId, parentId⟩ := process_block_txs_eq_ok processed
  obtain ⟨appendedEq, fresh⟩ := append_chain_tip_snapshot_eq_ok appended
  exact ⟨parentSnapshot, get_parent_snapshot_mem found, appendedEq, fresh, grows, ownHash, parentHash, ownId,
    parentId⟩

/-! ## The invariants the writes keep -/

/-- The invariants of a table the node has written from `instantiate` on: those
`SortitionDB` carries, with the first snapshot's parent link replaced by what
gives it (the first snapshot is stored with the sentinel parent, which no row
has as its hash), and every other snapshot's parent stored. -/
structure Kept (firstBlockHeight : Nat) (snapshots : List BlockSnapshot) : Prop where
  stubbedIds : ∀ snapshot ∈ snapshots,
    snapshot.sortitionId = .stubbed snapshot.burnHeaderHash ∧
      snapshot.parentSortitionId = .stubbed snapshot.parentBurnHeaderHash
  heights : ∀ snapshot ∈ snapshots, ∀ above ∈ snapshots,
    above.burnHeaderHash = snapshot.parentBurnHeaderHash → snapshot.blockHeight = above.blockHeight + 1
  uniqueIds : (snapshots.map (·.sortitionId)).Nodup
  firstStored : ∃ first ∈ snapshots, first.burnHeaderHash = .zero ∧
    first.parentBurnHeaderHash = .sentinel ∧ first.blockHeight = firstBlockHeight
  parentsStored : ∀ snapshot ∈ snapshots, snapshot.burnHeaderHash = .zero ∨
    ∃ above ∈ snapshots, above.burnHeaderHash = snapshot.parentBurnHeaderHash
  noSentinel : ∀ snapshot ∈ snapshots, snapshot.burnHeaderHash ≠ .sentinel

section Kept
variable {firstBlockHeight : Nat} {snapshots : List BlockSnapshot}

theorem Kept.hash_injective (kept : Kept firstBlockHeight snapshots) {first second : BlockSnapshot}
    (firstStored : first ∈ snapshots) (secondStored : second ∈ snapshots)
    (same : first.burnHeaderHash = second.burnHeaderHash) : first = second := by
  have ids : first.sortitionId = second.sortitionId := by
    rw [(kept.stubbedIds first firstStored).1, (kept.stubbedIds second secondStored).1, same]
  exact List.inj_on_of_nodup_map kept.uniqueIds firstStored secondStored ids

theorem Kept.parent_of_zero (kept : Kept firstBlockHeight snapshots) {snapshot : BlockSnapshot}
    (stored : snapshot ∈ snapshots) (isZero : snapshot.burnHeaderHash = .zero) :
    snapshot.parentBurnHeaderHash = .sentinel := by
  obtain ⟨first, firstStored, firstZero, firstParent, -⟩ := kept.firstStored
  -- the zero snapshot is the first one
  rw [kept.hash_injective stored firstStored (isZero.trans firstZero.symm), firstParent]

theorem Kept.rootParentAbsent (kept : Kept firstBlockHeight snapshots) :
    ∀ snapshot ∈ snapshots, snapshot.burnHeaderHash = .zero →
      ∀ other ∈ snapshots, other.burnHeaderHash ≠ snapshot.parentBurnHeaderHash := by
  intro snapshot stored isZero other otherStored
  rw [kept.parent_of_zero stored isZero]
  exact kept.noSentinel other otherStored

/-- A sortition id that no row holds, and that is its snapshot's hash's, makes
the hash one that no row holds. -/
theorem Kept.hash_fresh (kept : Kept firstBlockHeight snapshots) {snapshot : BlockSnapshot}
    (ownId : snapshot.sortitionId = .stubbed snapshot.burnHeaderHash)
    (fresh : ∀ row ∈ snapshots, row.sortitionId ≠ snapshot.sortitionId) :
    ∀ row ∈ snapshots, row.burnHeaderHash ≠ snapshot.burnHeaderHash := by
  intro row stored same
  exact fresh row stored (by rw [(kept.stubbedIds row stored).1, ownId, same])

/-- Every parent link ends at a stored snapshot or at the sentinel, so a hash
that is neither is no stored snapshot's parent. -/
theorem Kept.not_parent (kept : Kept firstBlockHeight snapshots) {hash : BurnchainHeaderHash}
    (absent : ∀ row ∈ snapshots, row.burnHeaderHash ≠ hash) (notSentinel : hash ≠ .sentinel) :
    ∀ row ∈ snapshots, row.parentBurnHeaderHash ≠ hash := by
  intro row stored same
  rcases kept.parentsStored row stored with isZero | ⟨above, aboveStored, aboveHash⟩
  · rw [kept.parent_of_zero stored isZero] at same
    exact notSentinel same.symm
  · exact absent above aboveStored (aboveHash.trans same)

/-- A written table is a `SortitionDB`. -/
def Kept.toSortitionDB (kept : Kept firstBlockHeight snapshots) : SortitionDB :=
  ⟨snapshots, kept.stubbedIds, kept.heights, kept.rootParentAbsent, kept.uniqueIds⟩

theorem zero_ne_sentinel : BurnchainHeaderHash.zero ≠ .sentinel := by decide

theorem kept_initial (firstBlockHeight : Nat) : Kept firstBlockHeight [BlockSnapshot.initial firstBlockHeight] := by
  refine ⟨?_, ?_, List.nodup_singleton _, ⟨_, List.mem_singleton_self _, rfl, rfl, rfl⟩, ?_, ?_⟩
  · intro snapshot stored
    rw [List.mem_singleton.mp stored]
    exact ⟨rfl, rfl⟩
  -- the first snapshot's parent is not stored, so no pair is linked
  · intro snapshot stored above aboveStored linked
    rw [List.mem_singleton.mp stored, List.mem_singleton.mp aboveStored] at linked
    exact absurd linked zero_ne_sentinel
  · intro snapshot stored
    exact .inl (by rw [List.mem_singleton.mp stored]; rfl)
  · intro snapshot stored
    rw [List.mem_singleton.mp stored]
    exact zero_ne_sentinel

theorem instantiate_kept {snapshots : List BlockSnapshot} (instantiated : instantiate firstBlockHeight = .ok snapshots) :
    Kept firstBlockHeight snapshots := by
  obtain ⟨rfl, -⟩ := insert_block_snapshot_eq_ok instantiated
  exact kept_initial firstBlockHeight

/-- The step: appending a snapshot one above a stored parent and linked to it,
under a fresh sortition id that is its own hash's, keeps the invariants,
provided its hash is not the sentinel. -/
theorem Kept.append (kept : Kept firstBlockHeight snapshots) {parentSnapshot snapshot : BlockSnapshot}
    (parentStored : parentSnapshot ∈ snapshots)
    (parentHash : snapshot.parentBurnHeaderHash = parentSnapshot.burnHeaderHash)
    (grows : snapshot.blockHeight = parentSnapshot.blockHeight + 1)
    (ownId : snapshot.sortitionId = .stubbed snapshot.burnHeaderHash)
    (parentId : snapshot.parentSortitionId = parentSnapshot.sortitionId)
    (fresh : ∀ row ∈ snapshots, row.sortitionId ≠ snapshot.sortitionId)
    (notSentinel : snapshot.burnHeaderHash ≠ .sentinel) :
    Kept firstBlockHeight (snapshots ++ [snapshot]) := by
  have freshHash := kept.hash_fresh ownId fresh
  -- no stored snapshot has the new one as its parent
  have noChild := kept.not_parent freshHash notSentinel
  have appended : ∀ row ∈ snapshots ++ [snapshot], row ∈ snapshots ∨ row = snapshot := by
    intro row member
    simpa using member
  refine ⟨?_, ?_, ?_, ?_, ?_, ?_⟩
  · intro row member
    rcases appended row member with stored | rfl
    · exact kept.stubbedIds row stored
    · rw [parentId, parentHash]
      exact ⟨ownId, (kept.stubbedIds parentSnapshot parentStored).1⟩
  · intro row member above aboveMember linked
    rcases appended row member with stored | rfl
    · rcases appended above aboveMember with aboveStored | rfl
      · exact kept.heights row stored above aboveStored linked
      · exact absurd linked.symm (noChild row stored)
    · rcases appended above aboveMember with aboveStored | rfl
      -- the stored row with the parent's hash is the parent
      · rw [kept.hash_injective aboveStored parentStored (linked.trans parentHash)]
        exact grows
      · exact absurd (linked.trans parentHash) (freshHash parentSnapshot parentStored).symm
  · rw [List.map_append, List.nodup_append]
    refine ⟨kept.uniqueIds, List.nodup_singleton _, ?_⟩
    intro id stored id' single same
    obtain ⟨row, rowStored, rfl⟩ := List.mem_map.mp stored
    rw [List.map_singleton, List.mem_singleton] at single
    exact fresh row rowStored (same.trans single)
  · obtain ⟨first, firstStored, firstFacts⟩ := kept.firstStored
    exact ⟨first, List.mem_append_left _ firstStored, firstFacts⟩
  · intro row member
    rcases appended row member with stored | rfl
    · rcases kept.parentsStored row stored with isZero | ⟨above, aboveStored, aboveHash⟩
      · exact .inl isZero
      · exact .inr ⟨above, List.mem_append_left _ aboveStored, aboveHash⟩
    · exact .inr ⟨parentSnapshot, List.mem_append_left _ parentStored, parentHash.symm⟩
  · intro row member
    rcases appended row member with stored | rfl
    · exact kept.noSentinel row stored
    · exact notSentinel

theorem Kept.evaluate_sortition (kept : Kept firstBlockHeight snapshots) {burnHeader : BurnchainBlockHeader}
    {consensusHash : ConsensusHash} {ops : List (StacksSubnetOp Root)} {snapshots' : List BlockSnapshot}
    {blockCommits blockCommits' : BlockCommits Root} {snapshot : BlockSnapshot}
    (notSentinel : burnHeader.blockHash ≠ .sentinel)
    (evaluated : evaluateSortition firstBlockHeight burnHeader consensusHash ops snapshots blockCommits =
      .ok (snapshot, snapshots', blockCommits')) :
    Kept firstBlockHeight snapshots' := by
  obtain ⟨parentSnapshot, parentStored, rfl, fresh, grows, ownHash, parentHash, ownId, parentId⟩ :=
    evaluate_sortition_eq_ok evaluated
  rw [← ownHash] at ownId notSentinel
  exact kept.append parentStored parentHash grows ownId parentId fresh notSentinel

/-- Every stored snapshot is reached from the first along stored parent links. -/
theorem Kept.path_from_first (kept : Kept firstBlockHeight snapshots) {snapshot : BlockSnapshot}
    (stored : snapshot ∈ snapshots) :
    ∃ nodes, Path kept.toSortitionDB.parentOf .zero snapshot.burnHeaderHash nodes := by
  -- strong induction on the height, which each parent link lowers by one
  induction atHeight : snapshot.blockHeight using Nat.strong_induction_on generalizing snapshot with
  | _ height ih =>
      rcases kept.parentsStored snapshot stored with isZero | ⟨above, aboveStored, aboveHash⟩
      · rw [isZero]
        exact ⟨_, .single _⟩
      · have grows := kept.heights snapshot stored above aboveStored aboveHash
        obtain ⟨nodes, path⟩ := ih above.blockHeight (by omega) aboveStored rfl
        have hop := parent_of_stored kept.toSortitionDB stored aboveStored aboveHash
        rw [aboveHash] at path
        exact ⟨_, .step path hop⟩

theorem Kept.height_of_stored (kept : Kept firstBlockHeight snapshots) {snapshot : BlockSnapshot}
    (stored : snapshot ∈ snapshots) : kept.toSortitionDB.heightOf snapshot.burnHeaderHash = snapshot.blockHeight := by
  simp [heightOf, get_block_snapshot_stored kept.toSortitionDB stored]

end Kept

/-! ## Runs -/

/-- The tables the node writes: `instantiate`, then each `evaluate_sortition`
that succeeds, on L1 blocks whose hash is not the sentinel; one that fails
leaves the tables as they were. -/
inductive Written (firstBlockHeight : Nat) : List BlockSnapshot → BlockCommits Root → Prop where
  | instantiate {snapshots : List BlockSnapshot} :
      instantiate firstBlockHeight = .ok snapshots → Written firstBlockHeight snapshots []
  | evaluate {snapshots snapshots' : List BlockSnapshot} {blockCommits blockCommits' : BlockCommits Root}
      {snapshot : BlockSnapshot} (burnHeader : BurnchainBlockHeader) (consensusHash : ConsensusHash)
      (ops : List (StacksSubnetOp Root)) :
      Written firstBlockHeight snapshots blockCommits → burnHeader.blockHash ≠ .sentinel →
      evaluateSortition firstBlockHeight burnHeader consensusHash ops snapshots blockCommits =
        .ok (snapshot, snapshots', blockCommits') →
      Written firstBlockHeight snapshots' blockCommits'

theorem Written.kept {firstBlockHeight : Nat} {snapshots : List BlockSnapshot} {blockCommits : BlockCommits Root}
    (written : Written firstBlockHeight snapshots blockCommits) : Kept firstBlockHeight snapshots := by
  induction written with
  | instantiate instantiated => exact instantiate_kept instantiated
  | evaluate burnHeader consensusHash ops _ notSentinel evaluated kept =>
      exact kept.evaluate_sortition notSentinel evaluated

/-- Over any run of the node's writes to the sortition database, `instantiate`
and then `evaluate_sortition` on L1 blocks whose hashes are not the sentinel,
the snapshots table meets every invariant `SortitionDB` carries, and each
stored snapshot is reached from the first by a chain of stored parent links,
one per block above the first height. `get_ops_between` from the first L1
block to a stored one, given fuel for that chain, returns the operations of
every block of the chain but the first, oldest first. -/
theorem written_snapshots_chain_to_first {firstBlockHeight : Nat} {snapshots : List BlockSnapshot}
    {blockCommits : BlockCommits Root} (written : Written firstBlockHeight snapshots blockCommits) :
    ∃ db : SortitionDB, db.snapshots = snapshots ∧
      ∀ snapshot ∈ snapshots, ∃ nodes, Path db.parentOf .zero snapshot.burnHeaderHash nodes ∧
        nodes.length + firstBlockHeight = snapshot.blockHeight + 1 ∧
        ∀ (Op : Type) (getOpsInBlock : BurnchainHeaderHash → List Op) (fuel : Nat), nodes.length ≤ fuel →
          db.getOpsBetween .zero snapshot.burnHeaderHash getOpsInBlock fuel =
            some (.ok ((nodes.filter (· ≠ .zero)).flatMap getOpsInBlock)) := by
  have kept := written.kept
  refine ⟨kept.toSortitionDB, rfl, fun snapshot stored => ?_⟩
  obtain ⟨nodes, path⟩ := kept.path_from_first stored
  obtain ⟨first, firstStored, firstZero, -, firstHeight⟩ := kept.firstStored
  -- the chain climbs from the first height to the snapshot's, one block a link
  have climbs := path_length kept.toSortitionDB.heightOf (height_of_grows kept.toSortitionDB) path
  rw [← firstZero, kept.height_of_stored firstStored, kept.height_of_stored stored, firstHeight] at climbs
  exact ⟨nodes, path, climbs, fun Op getOpsInBlock fuel enough =>
    get_ops_between_path kept.toSortitionDB getOpsInBlock path fuel enough⟩

theorem one_block_written :
    Written 0 [BlockSnapshot.initial 0, electedSnapshot] [(.stubbed ⟨[1]⟩, winningCommit)] ∧
      ∃ db : SortitionDB, db.snapshots = [BlockSnapshot.initial 0, electedSnapshot] ∧
        ∀ snapshot ∈ [BlockSnapshot.initial 0, electedSnapshot], ∃ nodes,
          Path db.parentOf .zero snapshot.burnHeaderHash nodes ∧ nodes.length + 0 = snapshot.blockHeight + 1 ∧
          ∀ (Op : Type) (getOpsInBlock : BurnchainHeaderHash → List Op) (fuel : Nat), nodes.length ≤ fuel →
            db.getOpsBetween .zero snapshot.burnHeaderHash getOpsInBlock fuel =
              some (.ok ((nodes.filter (· ≠ .zero)).flatMap getOpsInBlock)) := by
  have first : Written 0 [BlockSnapshot.initial 0] ([] : BlockCommits Nat) := .instantiate (by decide)
  have evaluated : evaluateSortition 0 l1BlockHeader ⟨[1]⟩ [commitWithOtherRoot] [BlockSnapshot.initial 0] [] =
      .ok (electedSnapshot, [BlockSnapshot.initial 0, electedSnapshot], [(.stubbed ⟨[1]⟩, winningCommit)]) := by
    decide
  have written : Written 0 [BlockSnapshot.initial 0, electedSnapshot] [(.stubbed ⟨[1]⟩, winningCommit)] :=
    .evaluate l1BlockHeader ⟨[1]⟩ [commitWithOtherRoot] first (by decide) evaluated
  exact ⟨written, written_snapshots_chain_to_first written⟩

end Hyperchains.Sortition
