import Hyperchains.BlockAssembly
import Hyperchains.OperationRanges

/-! How a subnet block is elected and accepted. The L1 contract's `commit-block`
print becomes a `LeaderBlockCommitOp` (`operations/leader_block_commit.rs`), every
such op passes `check`, and `make_snapshot` (`chainstate/burn/sortition.rs`) elects
the block hash of the first commit of an L1 block. A block then attaches through
`validate_anchored_block_burnchain` (`chainstate/stacks/db/blocks.rs`), which finds
the winning commit by consensus hash, block hash and txid, and through the
withdrawal root check of `append_block`, which recomputes the root from the
block's own receipts. The root the commit carries is stored with it and read by
neither. -/

namespace Hyperchains.BlockCommit
open Sortition SortitionDB Events BlockAssembly ClarityValue

structure LeaderBlockCommitOp (Root : Type) where
  blockHeaderHash : BlockHeaderHash
  withdrawalMerkleRoot : Root
  txid : Txid
  burnHeaderHash : BurnchainHeaderHash
  deriving DecidableEq, Repr

-- The other L1 operations are parsed and processed elsewhere.
inductive StacksSubnetOpType (Root : Type) where
  | blockCommit (subnetBlockHash : BlockHeaderHash) (withdrawalMerkleRoot : Root)
  | otherOp
  deriving DecidableEq, Repr

structure StacksSubnetOp (Root : Type) where
  txid : Txid
  inBlock : BurnchainHeaderHash
  event : StacksSubnetOpType Root
  deriving DecidableEq, Repr

inductive OpError where
  | invalidInput
  deriving DecidableEq, Repr

variable {Root : Type}

def LeaderBlockCommitOp.tryFrom (value : StacksSubnetOp Root) :
    Except OpError (LeaderBlockCommitOp Root) :=
  match value.event with
  | .blockCommit subnetBlockHash withdrawalMerkleRoot =>
      .ok ⟨subnetBlockHash, withdrawalMerkleRoot, value.txid, value.inBlock⟩
  | .otherOp => .error .invalidInput

-- "good to go!"
def LeaderBlockCommitOp.check (_ : LeaderBlockCommitOp Root) : Except OpError Unit := .ok ()

structure BurnchainBlockHeader where
  blockHeight : Nat
  blockHash : BurnchainHeaderHash
  parentBlockHash : BurnchainHeaderHash
  deriving DecidableEq, Repr

/-- `make_snapshot`, as far as the election goes. The consensus hash is computed
from the L1 history by `ConsensusHash::from_parent_block_data`. -/
def makeSnapshot (firstBlockHeight : Nat) (mySortitionId : SortitionId)
    (parentSnapshot : BlockSnapshot) (blockCommits : List (LeaderBlockCommitOp Root))
    (blockHeader : BurnchainBlockHeader) (consensusHash : ConsensusHash) :
    Except String BlockSnapshot :=
  if parentSnapshot.blockHeight = firstBlockHeight ∧ parentSnapshot.burnHeaderHash ≠ .zero then
    .error "assertion `left == right` failed"
  else if parentSnapshot.blockHeight ≠ firstBlockHeight ∧
      parentSnapshot.burnHeaderHash ≠ blockHeader.parentBlockHash then
    .error "assertion `left == right` failed"
  else if parentSnapshot.blockHeight + 1 ≠ blockHeader.blockHeight then
    .error "assertion `left == right` failed"
  else
    let snapshot : BlockSnapshot :=
      ⟨blockHeader.blockHeight, blockHeader.blockHash, parentSnapshot.burnHeaderHash,
        consensusHash, false, ⟨List.replicate 32 0⟩, ⟨List.replicate 32 0⟩, mySortitionId,
        parentSnapshot.sortitionId⟩
    match blockCommits with
    -- `make_snapshot_no_sortition`
    | [] => .ok snapshot
    | winningBlock :: _ =>
        .ok { snapshot with
          sortition := true
          winningBlockTxid := winningBlock.txid
          winningStacksBlockHash := winningBlock.blockHeaderHash }

/-- `block_commits`: each stored op with the sortition id of its L1 block. -/
abbrev BlockCommits (Root : Type) := List (SortitionId × LeaderBlockCommitOp Root)

/-- `process_block_ops` on the ops of one L1 block, in `vtxindex` order: every op
passes `check`, the commits go to `make_snapshot`, and the commits are stored
under the new sortition id, the L1 block hash. -/
def processBlockOps (firstBlockHeight : Nat) (parentSnapshot : BlockSnapshot)
    (blockHeader : BurnchainBlockHeader) (consensusHash : ConsensusHash)
    (blockstackTxs : List (StacksSubnetOp Root)) (stored : BlockCommits Root) :
    Except String (BlockSnapshot × BlockCommits Root) := do
  let blockCommits := blockstackTxs.filterMap fun op =>
    match LeaderBlockCommitOp.tryFrom op with
    | .ok commitOp => if (commitOp.check).toBool then some commitOp else none
    | .error _ => none
  let nextSortitionId := SortitionId.stubbed blockHeader.blockHash
  let snapshot ← makeSnapshot firstBlockHeight nextSortitionId parentSnapshot blockCommits
    blockHeader consensusHash
  pure (snapshot, stored ++ blockCommits.map fun commitOp => (nextSortitionId, commitOp))

/-- `SortitionDB::get_block_commit_for_stacks_block`. -/
def getBlockCommitForStacksBlock (db : SortitionDB) (blockCommits : BlockCommits Root)
    (consensusHash : ConsensusHash) (blockHash : BlockHeaderHash) :
    Option (LeaderBlockCommitOp Root) :=
  match db.getBlockSnapshotConsensus consensusHash with
  | none => none
  | some snapshot =>
      (blockCommits.find? fun (sortitionId, commitOp) =>
        sortitionId = snapshot.sortitionId ∧ commitOp.blockHeaderHash = blockHash ∧
          commitOp.txid = snapshot.winningBlockTxid).map (·.2)

theorem get_block_commit_some {db : SortitionDB} {blockCommits : BlockCommits Root}
    {consensusHash : ConsensusHash} {blockHash : BlockHeaderHash}
    {blockCommit : LeaderBlockCommitOp Root}
    (found : getBlockCommitForStacksBlock db blockCommits consensusHash blockHash = some blockCommit) :
    ∃ snapshot, db.getBlockSnapshotConsensus consensusHash = some snapshot ∧
      (snapshot.sortitionId, blockCommit) ∈ blockCommits ∧
      blockCommit.blockHeaderHash = blockHash ∧ blockCommit.txid = snapshot.winningBlockTxid := by
  unfold getBlockCommitForStacksBlock at found
  cases elected : db.getBlockSnapshotConsensus consensusHash with
  | none => simp [elected] at found
  | some snapshot =>
      simp only [elected, Option.map_eq_some_iff] at found
      obtain ⟨⟨sortitionId, commitOp⟩, hit, rfl⟩ := found
      have matched := List.find?_some hit
      simp only [decide_eq_true_eq] at matched
      obtain ⟨sameId, sameHash, sameTxid⟩ := matched
      subst sameId
      exact ⟨snapshot, rfl, List.mem_of_find?_eq_some hit, sameHash, sameTxid⟩

/-- The same commits, each carrying the root `setRoot` picks for it. -/
def replaceRoot (setRoot : LeaderBlockCommitOp Root → Root)
    (entry : SortitionId × LeaderBlockCommitOp Root) :
    SortitionId × LeaderBlockCommitOp Root :=
  (entry.1, { entry.2 with withdrawalMerkleRoot := setRoot entry.2 })

theorem get_block_commit_replace_root (setRoot : LeaderBlockCommitOp Root → Root)
    (db : SortitionDB) (blockCommits : BlockCommits Root)
    (consensusHash : ConsensusHash) (blockHash : BlockHeaderHash) :
    getBlockCommitForStacksBlock db (blockCommits.map (replaceRoot setRoot)) consensusHash
        blockHash =
      (getBlockCommitForStacksBlock db blockCommits consensusHash blockHash).map
        fun commitOp => { commitOp with withdrawalMerkleRoot := setRoot commitOp } := by
  unfold getBlockCommitForStacksBlock
  cases db.getBlockSnapshotConsensus consensusHash with
  | none => rfl
  | some snapshot =>
      -- the lookup reads the sortition id, block hash and txid, never the root
      simp only [List.find?_map, Option.map_map]
      rfl

/-- A subnet block header: the withdrawal root and the fields no modelled
function reads. `block_hash` hashes all of them. -/
structure StacksBlockHeader (Rest Root : Type) where
  rest : Rest
  withdrawalMerkleRoot : Root

section Acceptance
variable {Rest Item : Type} (blockHash : StacksBlockHeader Rest Root → BlockHeaderHash)

/-- `StacksBlockHeader::validate_burnchain`: the two `assert_eq!`s panic, a
header that did not win answers `InvalidStacksBlock`. -/
def validateBurnchain (header : StacksBlockHeader Rest Root) (burnChainTip : BlockSnapshot)
    (blockCommit : LeaderBlockCommitOp Root) : Except String Bool :=
  if burnChainTip.winningStacksBlockHash ≠ blockCommit.blockHeaderHash then
    .error "assertion `left == right` failed"
  else if burnChainTip.winningBlockTxid ≠ blockCommit.txid then
    .error "assertion `left == right` failed"
  else .ok (blockHash header = burnChainTip.winningStacksBlockHash)

/-- `validate_anchored_block_burnchain`: `some (1, 1)` for a block that may
attach, `none` for an unsolicited or invalid one. `staticChecks` is the answer of
`validate_transactions_static`. -/
def validateAnchoredBlockBurnchain (db : SortitionDB) (blockCommits : BlockCommits Root)
    (consensusHash : ConsensusHash) (header : StacksBlockHeader Rest Root) (staticChecks : Bool) :
    Except String (Option (Nat × Nat)) :=
  match getBlockCommitForStacksBlock db blockCommits consensusHash (blockHash header) with
  | none => .ok none
  | some blockCommit =>
      match db.getBlockSnapshot (.stubbed blockCommit.burnHeaderHash) with
      | none => .error "FATAL: have block commit but no block snapshot"
      | some burnChainTip => do
          let attaches ← validateBurnchain blockHash header burnChainTip blockCommit
          if !attaches then pure none
          else if !staticChecks then pure none
          else pure (some (1, 1))

theorem validate_anchored_block_burnchain_some {db : SortitionDB}
    {blockCommits : BlockCommits Root} {consensusHash : ConsensusHash}
    {header : StacksBlockHeader Rest Root} {staticChecks : Bool} {burns : Nat × Nat}
    (valid : validateAnchoredBlockBurnchain blockHash db blockCommits consensusHash header
      staticChecks = .ok (some burns)) :
    ∃ blockCommit,
      getBlockCommitForStacksBlock db blockCommits consensusHash (blockHash header) =
        some blockCommit := by
  unfold validateAnchoredBlockBurnchain at valid
  cases found : getBlockCommitForStacksBlock db blockCommits consensusHash (blockHash header) with
  | none => simp [found] at valid
  | some blockCommit => exact ⟨blockCommit, rfl⟩

theorem validate_anchored_block_burnchain_replace_root (setRoot : LeaderBlockCommitOp Root → Root)
    (db : SortitionDB)
    (blockCommits : BlockCommits Root) (consensusHash : ConsensusHash)
    (header : StacksBlockHeader Rest Root) (staticChecks : Bool) :
    validateAnchoredBlockBurnchain blockHash db (blockCommits.map (replaceRoot setRoot))
        consensusHash header staticChecks =
      validateAnchoredBlockBurnchain blockHash db blockCommits consensusHash header
        staticChecks := by
  unfold validateAnchoredBlockBurnchain
  rw [get_block_commit_replace_root]
  cases getBlockCommitForStacksBlock db blockCommits consensusHash (blockHash header) with
  | none => rfl
  | some blockCommit => rfl

variable [DecidableEq Root] (serializeToVec : Value → Item) (merkleRoot : List Item → Root)

/-- The acceptance path of a block elected at `consensusHash`: it attaches, and
`append_block` finds the header's withdrawal root equal to the one it recomputes. -/
def acceptAnchoredBlock (db : SortitionDB) (blockCommits : BlockCommits Root)
    (consensusHash : ConsensusHash) (header : StacksBlockHeader Rest Root) (staticChecks : Bool)
    (setup : SetupBlockResult) (blockReceipts : List StacksTransactionReceipt) (blockHeight : Nat) :
    Except String Bool := do
  match ← validateAnchoredBlockBurnchain blockHash db blockCommits consensusHash header
      staticChecks with
  | none => pure false
  | some _ =>
      let mismatch ← withdrawalRootMismatch serializeToVec merkleRoot setup blockReceipts
        blockHeight header.withdrawalMerkleRoot
      pure !mismatch

/-- Clearing the mismatch flag means the header carries the recomputed root. -/
theorem root_mismatch_false {setup : SetupBlockResult}
    {blockReceipts : List StacksTransactionReceipt} {blockHeight : Nat} {headerRoot : Root}
    (matched : withdrawalRootMismatch serializeToVec merkleRoot setup blockReceipts blockHeight
      headerRoot = .ok false) :
    followerWithdrawalRoot serializeToVec merkleRoot setup blockReceipts blockHeight =
      .ok headerRoot := by
  unfold withdrawalRootMismatch at matched
  cases computed : followerWithdrawalRoot serializeToVec merkleRoot setup blockReceipts
      blockHeight with
  | error message => simp [computed, Except.map] at matched
  | ok root =>
      simp only [computed, Except.map, Except.ok.injEq, decide_eq_false_iff_not,
        not_not] at matched
      rw [matched]

-- Acceptance never reads the root the winning commit carries, and an accepted
-- block carries the root of its own receipts' withdrawal keys.
theorem acceptance_ignores_committed_root (setRoot : LeaderBlockCommitOp Root → Root)
    (db : SortitionDB) (blockCommits : BlockCommits Root) (consensusHash : ConsensusHash)
    (header : StacksBlockHeader Rest Root) (staticChecks : Bool) (setup : SetupBlockResult)
    (blockReceipts : List StacksTransactionReceipt) (blockHeight : Nat) :
    acceptAnchoredBlock blockHash serializeToVec merkleRoot db
        (blockCommits.map (replaceRoot setRoot)) consensusHash header staticChecks setup
        blockReceipts blockHeight =
      acceptAnchoredBlock blockHash serializeToVec merkleRoot db blockCommits consensusHash header
        staticChecks setup blockReceipts blockHeight ∧
    (acceptAnchoredBlock blockHash serializeToVec merkleRoot db blockCommits consensusHash header
        staticChecks setup blockReceipts blockHeight = .ok true →
      ∃ snapshot blockCommit, db.getBlockSnapshotConsensus consensusHash = some snapshot ∧
        (snapshot.sortitionId, blockCommit) ∈ blockCommits ∧
        blockCommit.blockHeaderHash = blockHash header ∧
        blockCommit.txid = snapshot.winningBlockTxid ∧
        followerWithdrawalRoot serializeToVec merkleRoot setup blockReceipts blockHeight =
          .ok header.withdrawalMerkleRoot) := by
  constructor
  · unfold acceptAnchoredBlock
    rw [validate_anchored_block_burnchain_replace_root]
  · intro accepted
    unfold acceptAnchoredBlock at accepted
    cases valid : validateAnchoredBlockBurnchain blockHash db blockCommits consensusHash header
        staticChecks with
    | error message => simp [valid] at accepted
    | ok attached =>
        cases attached with
        | none => simp [valid] at accepted
        | some burns =>
            -- the block attached: its commit won, and the root check passed
            obtain ⟨blockCommit, found⟩ := validate_anchored_block_burnchain_some blockHash valid
            obtain ⟨snapshot, elected, stored, sameHash, sameTxid⟩ := get_block_commit_some found
            cases mismatch : withdrawalRootMismatch serializeToVec merkleRoot setup blockReceipts
                blockHeight header.withdrawalMerkleRoot with
            | error message => simp [valid, mismatch] at accepted
            | ok flag =>
                cases flag
                · exact ⟨snapshot, blockCommit, elected, stored, sameHash, sameTxid,
                    root_mismatch_false serializeToVec merkleRoot mismatch⟩
                · simp [valid, mismatch] at accepted

end Acceptance

/-! A counterexample: the first L1 block after the first snapshot carries one
commit, naming a subnet block with no transactions but whose commit states the
withdrawal root `1`; the block itself carries `0`, the root of no keys. -/

def genesisSnapshot : BlockSnapshot :=
  ⟨0, .zero, ⟨List.replicate 32 255⟩, ⟨List.replicate 20 0⟩, true, ⟨List.replicate 32 0⟩,
    ⟨List.replicate 32 0⟩, .stubbed .zero, .stubbed ⟨List.replicate 32 255⟩⟩

def l1BlockHeader : BurnchainBlockHeader := ⟨1, ⟨[1]⟩, .zero⟩

def emptyBlockHeader : StacksBlockHeader (List UInt8) Nat := ⟨[7], 0⟩

def commitWithOtherRoot : StacksSubnetOp Nat := ⟨⟨[9]⟩, ⟨[1]⟩, .blockCommit ⟨[7]⟩ 1⟩

def winningCommit : LeaderBlockCommitOp Nat := ⟨⟨[7]⟩, 1, ⟨[9]⟩, ⟨[1]⟩⟩

def electedSnapshot : BlockSnapshot :=
  ⟨1, ⟨[1]⟩, .zero, ⟨[1]⟩, true, ⟨[9]⟩, ⟨[7]⟩, .stubbed ⟨[1]⟩, .stubbed .zero⟩

def electedDb : SortitionDB where
  snapshots := [genesisSnapshot, electedSnapshot]
  stubbedIds := by decide
  heights := by decide
  rootParentAbsent := by decide
  uniqueIds := by decide

theorem accepted_block_with_other_committed_root :
    processBlockOps 0 genesisSnapshot l1BlockHeader ⟨[1]⟩ [commitWithOtherRoot] [] =
        .ok (electedSnapshot, [(.stubbed ⟨[1]⟩, winningCommit)]) ∧
      winningCommit.withdrawalMerkleRoot ≠ emptyBlockHeader.withdrawalMerkleRoot ∧
      acceptAnchoredBlock (fun header => ⟨header.rest⟩) (fun key => key) (fun items => items.length)
        electedDb [(.stubbed ⟨[1]⟩, winningCommit)] ⟨[1]⟩ emptyBlockHeader true ⟨[], []⟩ [] 1 =
        .ok true := by
  refine ⟨?_, ?_, ?_⟩ <;> decide

end Hyperchains.BlockCommit
