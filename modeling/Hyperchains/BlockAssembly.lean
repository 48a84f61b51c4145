import Hyperchains.WithdrawalSoundness

/-! How the miner (`StacksBlockBuilder`, `chainstate/stacks/miner.rs`) and a
follower (`StacksChainState::append_block`, `chainstate/stacks/db/blocks.rs`)
put together the receipts whose withdrawal keys make a block's withdrawal root.
Both run `setup_block` (the parent's microblock stream, then the epoch
transition, asset registrations and deposits) and the block's own transactions,
in the same order and on the same state; they differ only in how they
concatenate the receipts before calling `create_withdrawal_merkle_tree`. -/

namespace Hyperchains.BlockAssembly
open ClarityValue Events Withdrawal

/-- The receipts that `setup_block` hands back: those of the epoch transition,
registrations and deposits, and those of the confirmed microblock stream. -/
structure SetupBlockResult where
  txReceipts : List StacksTransactionReceipt
  microblockTxsReceipts : List StacksTransactionReceipt

/-- The receipt-carrying part of `StacksBlockBuilder`. -/
structure StacksBlockBuilder where
  txReceipts : List StacksTransactionReceipt
  microblockTxReceipts : List StacksTransactionReceipt

namespace StacksBlockBuilder

/-- `epoch_begin` keeps the setup receipts after any it already had and takes
over the microblock receipts. -/
def epochBegin (builder : StacksBlockBuilder) (setup : SetupBlockResult) : StacksBlockBuilder :=
  { txReceipts := builder.txReceipts ++ setup.txReceipts
    microblockTxReceipts := setup.microblockTxsReceipts }

/-- `try_mine_tx` for an anchored transaction: its receipt is kept only if it was
processed. -/
def tryMineTx {Error : Type} (builder : StacksBlockBuilder)
    (processed : Except Error StacksTransactionReceipt) : StacksBlockBuilder :=
  match processed with
  | .ok receipt => { builder with txReceipts := builder.txReceipts ++ [receipt] }
  | .error _ => builder

/-- The receipts `finalize_block` hashes: the microblock ones chained before the
others. -/
def finalizeBlockReceipts (builder : StacksBlockBuilder) : List StacksTransactionReceipt :=
  builder.microblockTxReceipts ++ builder.txReceipts

end StacksBlockBuilder

/-- The receipts `append_block` hashes: setup, then the block's own, then the
microblock ones appended last. -/
def appendBlockReceipts (setup : SetupBlockResult) (blockReceipts : List StacksTransactionReceipt) :
    List StacksTransactionReceipt :=
  setup.txReceipts ++ blockReceipts ++ setup.microblockTxsReceipts

section Roots
variable {Item Hash : Type} (serializeToVec : Value → Item) (merkleRoot : List Item → Hash)

/-- The root the miner writes into the header: an empty builder, `epoch_begin`,
one `try_mine_tx` per transaction, `finalize_block`. -/
def minerWithdrawalRoot {Error : Type} (setup : SetupBlockResult)
    (processed : List (Except Error StacksTransactionReceipt)) (blockHeight : Nat) :
    Except String Hash :=
  let builder := processed.foldl StacksBlockBuilder.tryMineTx
    (StacksBlockBuilder.epochBegin ⟨[], []⟩ setup)
  (createWithdrawalMerkleRoot serializeToVec merkleRoot builder.finalizeBlockReceipts
    blockHeight).map (·.2)

/-- The root `append_block` recomputes and compares with the header's. -/
def followerWithdrawalRoot (setup : SetupBlockResult)
    (blockReceipts : List StacksTransactionReceipt) (blockHeight : Nat) : Except String Hash :=
  (createWithdrawalMerkleRoot serializeToVec merkleRoot (appendBlockReceipts setup blockReceipts)
    blockHeight).map (·.2)

/-- `append_block` rejects the block with a withdrawal root mismatch exactly
when the recomputed root differs from the header's. -/
def withdrawalRootMismatch [DecidableEq Hash] (setup : SetupBlockResult)
    (blockReceipts : List StacksTransactionReceipt) (blockHeight : Nat) (headerRoot : Hash) :
    Except String Bool :=
  (followerWithdrawalRoot serializeToVec merkleRoot setup blockReceipts blockHeight).map
    fun root => decide (root ≠ headerRoot)

/-- The miner's receipts are the follower's rotated: microblock receipts first. -/
theorem miner_receipts_rotated {Error : Type} (setup : SetupBlockResult)
    (receipts : List StacksTransactionReceipt) :
    (((receipts.map fun receipt => (Except.ok receipt : Except Error _)).foldl
        StacksBlockBuilder.tryMineTx
        (StacksBlockBuilder.epochBegin ⟨[], []⟩ setup)).finalizeBlockReceipts) =
      setup.microblockTxsReceipts ++ setup.txReceipts ++ receipts := by
  -- each processed receipt is appended after the setup ones
  have appended : ∀ (builder : StacksBlockBuilder) (rest : List StacksTransactionReceipt),
      (rest.map fun receipt => (Except.ok receipt : Except Error _)).foldl
          StacksBlockBuilder.tryMineTx builder =
        { builder with txReceipts := builder.txReceipts ++ rest } := by
    intro builder rest
    induction rest generalizing builder with
    | nil => simp
    | cons receipt rest ih =>
        simp [StacksBlockBuilder.tryMineTx, ih, List.append_assoc]
  simp [appended, StacksBlockBuilder.finalizeBlockReceipts, StacksBlockBuilder.epochBegin]

end Roots

/-! A failing input: one `stx-withdraw?` of 10 uSTX in the parent's microblock
stream and one of 20 uSTX in the block itself. -/

def microblockWithdrawal : StacksTransactionReceipt :=
  .fromContractCall [WithdrawalSoundness.alicePrint] (.response true (.uint 5))

def blockWithdrawal : StacksTransactionReceipt :=
  .fromContractCall [SubnetContract.printEvent false (.cons "amount" (.uint 20)
    (.cons "event" (.stringAscii "withdraw") (.cons "sender" (.principal WithdrawalSoundness.alice)
      (.cons "type" (.stringAscii "stx") (.cons "withdrawal-height" (.uint 5) .nil)))))]
    (.response true (.uint 5))

def stxKey (amount withdrawalId : Nat) : Value :=
  .tuple (.cons "amount" (.uint amount) (.cons "height" (.uint 6)
    (.cons "recipient" (.principal WithdrawalSoundness.alice) (.cons "type" (.stringAscii "stx")
      (.cons "withdrawal-id" (.uint withdrawalId) .nil)))))

/-- The miner numbers the microblock withdrawal 0 and the block's 1; the follower
the other way round, so the two hand different keys to the Merkle tree. -/
theorem miner_and_follower_keys_differ :
    (generateWithdrawalKeys (fun key => key)
        (StacksBlockBuilder.finalizeBlockReceipts
          (@StacksBlockBuilder.tryMineTx Unit
            (StacksBlockBuilder.epochBegin ⟨[], []⟩ ⟨[], [microblockWithdrawal]⟩)
            (.ok blockWithdrawal))) 6).map (·.2) = .ok [stxKey 10 0, stxKey 20 1] ∧
    (generateWithdrawalKeys (fun key => key)
        (appendBlockReceipts ⟨[], [microblockWithdrawal]⟩ [blockWithdrawal]) 6).map (·.2) =
      .ok [stxKey 20 0, stxKey 10 1] ∧
    [stxKey 10 0, stxKey 20 1] ≠ [stxKey 20 0, stxKey 10 1] := by
  refine ⟨?_, ?_, ?_⟩ <;> decide

end Hyperchains.BlockAssembly
