import Hyperchains.L1SubnetContract
import Hyperchains.WithdrawalSoundness

/-! Whether a withdrawal key the subnet commits can be redeemed on L1: the key
`generate_key_from_event` builds from a withdraw print of the subnet boot
contract, against the leaf the L1 contract rebuilds from the arguments of its
withdraw function. STX and NFT keys are rebuilt exactly (for NFTs, through the
L2 contract that `allowed-contracts` registers for the L1 one). The FT leaf names
`(contract-of ft-contract)`, the L1 token, where the key names the L2 contract
the print carries, so an FT key is rebuilt only when both contracts have the same
identifier. -/

namespace Hyperchains.Redemption
open ClarityValue Events Withdrawal SubnetContract L1SubnetContract

-- Each key is the tuple of its kind's `leaf-hash-withdraw-*`, whatever the
-- print's own height and the network. The tuples are evaluated by simp, whose
-- string simprocs order the names far faster than unfolding the comparisons.
theorem stx_withdraw_print_key (mainnet : Bool) (sender : PrincipalData)
    (amount printHeight withdrawalId blockHeight : Nat) :
    ∃ data tuple, stxWithdrawPrint sender amount printHeight = .ok data ∧
      leafTupleWithdrawStx amount sender withdrawalId blockHeight = .ok tuple ∧
      (generateKeyFromEvent (printEvent mainnet data) withdrawalId blockHeight).map (·.2) =
        .ok (some (.tuple tuple)) := by
  refine ⟨_, _, rfl, rfl, ?_⟩
  rw [generate_key_from_print]
  simp only [make_key_for_type_stx, makeKeyForStxWithdrawalEvent, makeKeyForStxWithdrawal,
    TupleData.insert, TupleData.get_cons, TupleData.get_nil, TupleData.containsKey,
    TupleData.fromData, TupleData.fromDataInto, String.reduceLT, String.reduceEq, ↓reduceIte,
    Option.isSome_none, Bool.false_eq_true, Value.expectAscii, Value.expectPrincipal,
    Value.expectU128, Panic.ok_bind, Panic.unwrap_some, tupleOrPanic]
  rfl

theorem nft_withdraw_print_key (mainnet : Bool) (asset : QualifiedContractIdentifier)
    (sender : PrincipalData) (id printHeight withdrawalId blockHeight : Nat) :
    ∃ data tuple, nftWithdrawPrint asset sender id printHeight = .ok data ∧
      leafTupleWithdrawNft (.contract asset) id sender withdrawalId blockHeight = .ok tuple ∧
      (generateKeyFromEvent (printEvent mainnet data) withdrawalId blockHeight).map (·.2) =
        .ok (some (.tuple tuple)) := by
  refine ⟨_, _, rfl, rfl, ?_⟩
  rw [generate_key_from_print]
  simp only [make_key_for_type_nft, makeKeyForNftWithdrawalEvent, makeKeyForNftWithdrawal,
    assetContractOf,
    TupleData.insert, TupleData.get_cons, TupleData.get_nil, TupleData.containsKey,
    TupleData.fromData, TupleData.fromDataInto, String.reduceLT, String.reduceEq, ↓reduceIte,
    Option.isSome_none, Bool.false_eq_true, Value.expectAscii, Value.expectPrincipal,
    Value.expectU128, Panic.ok_bind, Panic.unwrap_some, tupleOrPanic]
  rfl

theorem ft_withdraw_print_key (mainnet : Bool) (asset : QualifiedContractIdentifier)
    (sender : PrincipalData) (amount printHeight withdrawalId blockHeight : Nat) :
    ∃ data tuple, ftWithdrawPrint asset sender amount printHeight = .ok data ∧
      leafTupleWithdrawFt (.contract asset) amount sender withdrawalId blockHeight = .ok tuple ∧
      (generateKeyFromEvent (printEvent mainnet data) withdrawalId blockHeight).map (·.2) =
        .ok (some (.tuple tuple)) := by
  refine ⟨_, _, rfl, rfl, ?_⟩
  rw [generate_key_from_print]
  simp only [make_key_for_type_ft, makeKeyForFtWithdrawalEvent, makeKeyForFtWithdrawal,
    assetContractOf,
    TupleData.insert, TupleData.get_cons, TupleData.get_nil, TupleData.containsKey,
    TupleData.fromData, TupleData.fromDataInto, String.reduceLT, String.reduceEq, ↓reduceIte,
    Option.isSome_none, Bool.false_eq_true, Value.expectAscii, Value.expectPrincipal,
    Value.expectU128, Panic.ok_bind, Panic.unwrap_some, tupleOrPanic]
  rfl

-- The FT leaf tuple determines the asset contract it names.
theorem leaf_tuple_withdraw_ft_contract {first second : PrincipalData}
    {amount withdrawalId height : Nat} {recipient : PrincipalData} {tuple : TupleData}
    (built : leafTupleWithdrawFt first amount recipient withdrawalId height = .ok tuple)
    (same : leafTupleWithdrawFt second amount recipient withdrawalId height = .ok tuple) :
    first = second := by
  have firstTuple : leafTupleWithdrawFt first amount recipient withdrawalId height =
      .ok (.cons "amount" (.uint amount) (.cons "asset-contract" (.principal first)
        (.cons "height" (.uint height) (.cons "recipient" (.principal recipient)
          (.cons "type" (.stringAscii "ft") (.cons "withdrawal-id" (.uint withdrawalId) .nil)))))) :=
    rfl
  have secondTuple : leafTupleWithdrawFt second amount recipient withdrawalId height =
      .ok (.cons "amount" (.uint amount) (.cons "asset-contract" (.principal second)
        (.cons "height" (.uint height) (.cons "recipient" (.principal recipient)
          (.cons "type" (.stringAscii "ft") (.cons "withdrawal-id" (.uint withdrawalId) .nil)))))) :=
    rfl
  rw [firstTuple] at built
  rw [secondTuple, ← built] at same
  simp only [Except.ok.injEq, TupleData.cons.injEq, Value.principal.injEq, true_and, and_true] at same
  exact same.symm

-- The L1 contract rebuilds the key of an FT print exactly when the L1 token it
-- is called with has the identifier of the L2 contract the print names.
theorem ft_key_rebuilt_iff_same_contract (mainnet : Bool)
    (l1Contract l2Contract : QualifiedContractIdentifier) (sender : PrincipalData)
    (amount printHeight withdrawalId blockHeight : Nat) :
    ∃ data key tuple, ftWithdrawPrint l2Contract sender amount printHeight = .ok data ∧
      (generateKeyFromEvent (printEvent mainnet data) withdrawalId blockHeight).map (·.2) =
        .ok (some key) ∧
      leafTupleWithdrawFt (.contract l1Contract) amount sender withdrawalId blockHeight =
        .ok tuple ∧
      (key = .tuple tuple ↔ l1Contract = l2Contract) := by
  obtain ⟨data, keyTuple, printed, keyBuilt, keyed⟩ :=
    ft_withdraw_print_key mainnet l2Contract sender amount printHeight withdrawalId blockHeight
  obtain ⟨tuple, rebuilt⟩ : ∃ tuple,
      leafTupleWithdrawFt (.contract l1Contract) amount sender withdrawalId blockHeight =
        .ok tuple := ⟨_, rfl⟩
  refine ⟨data, .tuple keyTuple, tuple, printed, keyed, rebuilt, ?_⟩
  constructor
  · intro same
    simp only [Value.tuple.injEq] at same
    subst same
    have contracts := leaf_tuple_withdraw_ft_contract rebuilt keyBuilt
    simpa using contracts
  · intro same
    subst same
    rw [rebuilt] at keyBuilt
    cases keyBuilt
    rfl

section Redeem
variable {Hash : Type} [DecidableEq Hash] (leafHash : Value → Hash) (nodeHash : Hash → Hash → Hash)

/-- A Merkle path from `leaf` up to a committed root not yet used with `leaf`:
what a withdrawer proves with the sibling hashes of the subnet's tree. -/
def ProvedUnder (state : L1State Hash) (leaf withdrawalRoot : Hash)
    (siblingHashes : List (SiblingHash Hash)) : Prop :=
  withdrawalRoot ∈ state.withdrawalRootsMap ∧
    (leaf, withdrawalRoot) ∉ state.processedWithdrawalLeavesMap ∧
    siblingHashes.foldl (fun curr sibling => hashHelp nodeHash sibling curr) leaf = withdrawalRoot

def markProcessed (state : L1State Hash) (leaf withdrawalRoot : Hash) : L1State Hash :=
  { state with processedWithdrawalLeavesMap :=
      (leaf, withdrawalRoot) :: state.processedWithdrawalLeavesMap }

-- An STX key proved under a committed root is paid out by `withdraw-stx` with
-- the print's sender and amount, and its leaf is then spent.
theorem stx_key_redeemable (mainnet : Bool) (sender : PrincipalData)
    (amount printHeight withdrawalId blockHeight : Nat) :
    ∃ data key, stxWithdrawPrint sender amount printHeight = .ok data ∧
      (generateKeyFromEvent (printEvent mainnet data) withdrawalId blockHeight).map (·.2) =
        .ok (some key) ∧
      ∀ (state : L1State Hash) withdrawalRoot siblingHashes,
        ProvedUnder nodeHash state (leafHash key) withdrawalRoot siblingHashes →
        withdrawStx leafHash nodeHash state amount sender withdrawalId blockHeight withdrawalRoot
            (leafHash key) siblingHashes (.ok true) =
          .ok (markProcessed state (leafHash key) withdrawalRoot) := by
  obtain ⟨data, tuple, printed, rebuilt, keyed⟩ :=
    stx_withdraw_print_key mainnet sender amount printHeight withdrawalId blockHeight
  refine ⟨data, .tuple tuple, printed, keyed, ?_⟩
  rintro state withdrawalRoot siblingHashes ⟨committed, fresh, path⟩
  rw [withdrawStx, rebuilt]
  exact validate_and_withdraw_ok leafHash nodeHash state tuple withdrawalRoot siblingHashes
    committed fresh path

-- An NFT key is paid out by `withdraw-nft-asset` called with any L1 contract
-- that `allowed-contracts` maps to the L2 contract of the print.
theorem nft_key_redeemable (mainnet : Bool) (l1Contract l2Contract : QualifiedContractIdentifier)
    (sender : PrincipalData) (id printHeight withdrawalId blockHeight : Nat) :
    ∃ data key, nftWithdrawPrint l2Contract sender id printHeight = .ok data ∧
      (generateKeyFromEvent (printEvent mainnet data) withdrawalId blockHeight).map (·.2) =
        .ok (some key) ∧
      ∀ (state : L1State Hash) withdrawalRoot siblingHashes,
        state.allowedContracts (.contract l1Contract) = some (.contract l2Contract) →
        ProvedUnder nodeHash state (leafHash key) withdrawalRoot siblingHashes →
        withdrawNftAsset leafHash nodeHash state l1Contract id sender withdrawalId blockHeight
            withdrawalRoot (leafHash key) siblingHashes (.ok true) =
          .ok (markProcessed state (leafHash key) withdrawalRoot) := by
  obtain ⟨data, tuple, printed, rebuilt, keyed⟩ :=
    nft_withdraw_print_key mainnet l2Contract sender id printHeight withdrawalId blockHeight
  refine ⟨data, .tuple tuple, printed, keyed, ?_⟩
  rintro state withdrawalRoot siblingHashes registered ⟨committed, fresh, path⟩
  rw [withdrawNftAsset, registered]
  simp only
  rw [innerWithdrawNftAsset, rebuilt]
  exact validate_and_withdraw_ok leafHash nodeHash state tuple withdrawalRoot siblingHashes
    committed fresh path

-- `withdraw-ft-asset` refuses the leaf of an FT key whenever the L1 token's
-- leaf hashes differently, whatever the state, path, transfer and token name.
theorem ft_key_refused (l1Contract : QualifiedContractIdentifier) (key : Value)
    (amount : Nat) (recipient : PrincipalData) (withdrawalId height : Nat) (tuple : TupleData)
    (rebuilt : leafTupleWithdrawFt (.contract l1Contract) amount recipient withdrawalId height =
      .ok tuple)
    (other : leafHash key ≠ leafHash (.tuple tuple))
    (state : L1State Hash) (withdrawalRoot : Hash) (siblingHashes : List (SiblingHash Hash))
    (transfer : Except CallError Bool) (getName : Option String) :
    ∃ error, withdrawFtAsset leafHash nodeHash state l1Contract amount recipient withdrawalId height
      withdrawalRoot (leafHash key) siblingHashes transfer getName = .error error := by
  unfold withdrawFtAsset
  by_cases positive : amount > 0
  · cases registered : state.allowedContracts (.contract l1Contract) with
    | none => exact ⟨.err errDisallowedAsset, by simp [asserts, positive]⟩
    | some l2Contract =>
        -- the leaf check inside `inner-withdraw-ft-asset` fails
        obtain ⟨error, failed⟩ := validate_and_withdraw_other_leaf leafHash nodeHash state tuple
          transfer withdrawalRoot (leafHash key) siblingHashes other
        refine ⟨error, ?_⟩
        simp [asserts, positive, innerWithdrawFtAsset, rebuilt, failed]
  · exact ⟨.err errAttemptToTransferZeroAmount, by simp [asserts, positive]⟩

end Redeem

/-! A failing input: alice registered her L1 token `simple-ft` against the L2
token `simple-ft-l2` and withdraws 10 of it on the subnet. -/

def aliceAddress : StandardPrincipalData := ⟨26, List.replicate 20 1⟩

def l1Token : QualifiedContractIdentifier := ⟨aliceAddress, "simple-ft"⟩

def l2Token : QualifiedContractIdentifier := ⟨aliceAddress, "simple-ft-l2"⟩

def ftPrint : TupleData :=
  .cons "amount" (.uint 10) (.cons "asset-contract" (.principal (.contract l2Token))
    (.cons "event" (.stringAscii "withdraw") (.cons "sender" (.principal WithdrawalSoundness.alice)
      (.cons "type" (.stringAscii "ft") (.cons "withdrawal-height" (.uint 5) .nil)))))

def ftWithdrawalReceipt : StacksTransactionReceipt :=
  .fromContractCall [printEvent false ftPrint, .ftEvent] (.response true (.uint 5))

def ftKey : Value :=
  .tuple (.cons "amount" (.uint 10) (.cons "asset-contract" (.principal (.contract l2Token))
    (.cons "height" (.uint 7) (.cons "recipient" (.principal WithdrawalSoundness.alice)
      (.cons "type" (.stringAscii "ft") (.cons "withdrawal-id" (.uint 0) .nil))))))

def l1FtLeaf : TupleData :=
  .cons "amount" (.uint 10) (.cons "asset-contract" (.principal (.contract l1Token))
    (.cons "height" (.uint 7) (.cons "recipient" (.principal WithdrawalSoundness.alice)
      (.cons "type" (.stringAscii "ft") (.cons "withdrawal-id" (.uint 0) .nil)))))

-- The subnet commits `ftKey` for alice's withdrawal, and the L1 contract
-- refuses its leaf unless it collides with the leaf of the L1 token's tuple.
theorem ft_withdrawal_key_unredeemable {Hash : Type} [DecidableEq Hash]
    (leafHash : Value → Hash) (nodeHash : Hash → Hash → Hash)
    (noCollision : leafHash ftKey ≠ leafHash (.tuple l1FtLeaf)) :
    ftWithdrawPrint l2Token WithdrawalSoundness.alice 10 5 = .ok ftPrint ∧
      (generateWithdrawalKeys (fun key => key) [ftWithdrawalReceipt] 7).map (·.2) = .ok [ftKey] ∧
      ∀ (state : L1State Hash) withdrawalRoot siblingHashes transfer getName,
        ∃ error, withdrawFtAsset leafHash nodeHash state l1Token 10 WithdrawalSoundness.alice 0 7
          withdrawalRoot (leafHash ftKey) siblingHashes transfer getName = .error error := by
  refine ⟨rfl, by decide, ?_⟩
  intro state withdrawalRoot siblingHashes transfer getName
  exact ft_key_refused leafHash nodeHash l1Token ftKey 10 WithdrawalSoundness.alice 0 7 l1FtLeaf
    rfl noCollision state withdrawalRoot siblingHashes transfer getName

theorem ft_withdrawal_key_unredeemable_by_value :
    ftKey ≠ .tuple l1FtLeaf ∧
      ftWithdrawPrint l2Token WithdrawalSoundness.alice 10 5 = .ok ftPrint ∧
      (generateWithdrawalKeys (fun key => key) [ftWithdrawalReceipt] 7).map (·.2) = .ok [ftKey] ∧
      ∀ (state : L1State Value) withdrawalRoot siblingHashes transfer getName,
        ∃ error, withdrawFtAsset (fun value => value) (fun left _ => left) state l1Token 10
          WithdrawalSoundness.alice 0 7 withdrawalRoot ftKey siblingHashes transfer getName =
            .error error :=
  have distinct : ftKey ≠ .tuple l1FtLeaf := by decide
  ⟨distinct, ft_withdrawal_key_unredeemable (fun value => value) (fun left _ => left) distinct⟩

end Hyperchains.Redemption
