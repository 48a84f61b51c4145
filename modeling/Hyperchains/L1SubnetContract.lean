import Hyperchains.SubnetContract

/-! The withdrawal half of the L1 subnet contract
(`core-contracts/contracts/templates/subnet.clar.mustache`): the leaf tuples it
rebuilds from a withdrawal request, the Merkle check against a committed
withdrawal root, and `withdraw-stx`, `withdraw-nft-asset` and
`withdraw-ft-asset`, with the asset transfer and the `get-name` call as
parameters. A public function that answers `err` keeps none of its writes, so a
failed call leaves the state as it was.

`leafHash v` stands for `sha512/256 (0x00 ++ to-consensus-buff? v)` and
`nodeHash` for the `0x01`-tagged hash of two children. The subnet's Merkle tree
hashes `serialize_to_vec` of a key under the same leaf tag, and the two
serializations agree on equal values, so one `leafHash` serves both sides. -/

namespace Hyperchains.L1SubnetContract
open ClarityValue Withdrawal SubnetContract

def errContractCallFailed : Nat := 3
def errTransferFailed : Nat := 4
def errDisallowedAsset : Nat := 5
def errMerkleRootDoesNotMatch : Nat := 7
def errInvalidMerkleRoot : Nat := 8
def errWithdrawalAlreadyProcessed : Nat := 9
def errValidationFailed : Nat := 10
def errAttemptToTransferZeroAmount : Nat := 14
def errValidationLeafFailed : Nat := 30

/-- How a contract call fails: it answers `(err code)`, or it aborts at run time
(`unwrap-panic`). -/
inductive CallError where
  | err (code : Nat)
  | runtime (message : String)
  deriving DecidableEq, Repr

structure SiblingHash (Hash : Type) where
  hash : Hash
  isLeftSide : Bool
  deriving DecidableEq, Repr

/-- The maps the withdrawals read and write. -/
structure L1State (Hash : Type) where
  allowedContracts : PrincipalData → Option PrincipalData
  withdrawalRootsMap : List Hash
  processedWithdrawalLeavesMap : List (Hash × Hash)

/-! The tuples of `leaf-hash-withdraw-stx`, `-nft` and `-ft`, fields in the
order the contract writes them. -/

def leafTupleWithdrawStx (amount : Nat) (recipient : PrincipalData) (withdrawalId height : Nat) :
    Except String TupleData :=
  TupleData.fromData [("type", .stringAscii "stx"), ("amount", .uint amount),
    ("recipient", .principal recipient), ("withdrawal-id", .uint withdrawalId),
    ("height", .uint height)]

def leafTupleWithdrawNft (assetContract : PrincipalData) (nftId : Nat) (recipient : PrincipalData)
    (withdrawalId height : Nat) : Except String TupleData :=
  TupleData.fromData [("type", .stringAscii "nft"), ("nft-id", .uint nftId),
    ("asset-contract", .principal assetContract), ("recipient", .principal recipient),
    ("withdrawal-id", .uint withdrawalId), ("height", .uint height)]

def leafTupleWithdrawFt (assetContract : PrincipalData) (amount : Nat) (recipient : PrincipalData)
    (withdrawalId height : Nat) : Except String TupleData :=
  TupleData.fromData [("type", .stringAscii "ft"), ("amount", .uint amount),
    ("asset-contract", .principal assetContract), ("recipient", .principal recipient),
    ("withdrawal-id", .uint withdrawalId), ("height", .uint height)]

section Contract
variable {Hash : Type} [DecidableEq Hash] (leafHash : Value → Hash)
  (nodeHash : Hash → Hash → Hash)

/-- `hash-help`: one step up the tree, the sibling on the side it names. -/
def hashHelp (sibling : SiblingHash Hash) (currNodeHash : Hash) : Hash :=
  if sibling.isLeftSide then nodeHash sibling.hash currNodeHash
  else nodeHash currNodeHash sibling.hash

/-- `check-withdrawal-hashes`: a committed root, a leaf not yet used under it,
and a sibling path from the leaf up to the root. -/
def checkWithdrawalHashes (state : L1State Hash) (withdrawalRoot withdrawalLeafHash : Hash)
    (siblingHashes : List (SiblingHash Hash)) : Except CallError Bool :=
  if withdrawalRoot ∉ state.withdrawalRootsMap then .error (.err errInvalidMerkleRoot)
  else if (withdrawalLeafHash, withdrawalRoot) ∈ state.processedWithdrawalLeavesMap then
    .error (.err errWithdrawalAlreadyProcessed)
  else if siblingHashes.foldl (fun curr sibling => hashHelp nodeHash sibling curr)
      withdrawalLeafHash = withdrawalRoot then .ok true
  else .error (.err errMerkleRootDoesNotMatch)

/-- `finish-withdraw`: `map-insert` answers `false` on a leaf already there. -/
def finishWithdraw (state : L1State Hash) (withdrawalLeafHash withdrawalRoot : Hash) :
    Bool × L1State Hash :=
  if (withdrawalLeafHash, withdrawalRoot) ∈ state.processedWithdrawalLeavesMap then (false, state)
  else (true, { state with processedWithdrawalLeavesMap :=
    (withdrawalLeafHash, withdrawalRoot) :: state.processedWithdrawalLeavesMap })

/-- `(asserts! condition (err code))`. -/
def asserts (condition : Bool) (code : Nat) : Except CallError Unit :=
  if condition then .ok () else .error (.err code)

/-- `(asserts! (try! result) (err code))`: an `err` goes through, `(ok false)`
answers `code`. -/
def assertsTry (result : Except CallError Bool) (code : Nat) : Except CallError Unit :=
  match result with
  | .error error => .error error
  | .ok flag => asserts flag code

/-- The body the three withdrawals share once the asset is known: the Merkle
check, the leaf check against the leaf the contract rebuilds, the transfer and
`finish-withdraw`. -/
def validateAndWithdraw (state : L1State Hash) (expected : Except String TupleData)
    (transfer : Except CallError Bool) (withdrawalRoot withdrawalLeafHash : Hash)
    (siblingHashes : List (SiblingHash Hash)) : Except CallError (L1State Hash) := do
  assertsTry (checkWithdrawalHashes nodeHash state withdrawalRoot withdrawalLeafHash siblingHashes)
    errValidationFailed
  -- `unwrap-panic` of `to-consensus-buff?` on the rebuilt tuple
  let expected ← expected.mapError .runtime
  asserts (decide (withdrawalLeafHash = leafHash (.tuple expected))) errValidationLeafFailed
  assertsTry transfer errTransferFailed
  let (inserted, state) := finishWithdraw state withdrawalLeafHash withdrawalRoot
  asserts inserted errWithdrawalAlreadyProcessed
  pure state

def withdrawStx (state : L1State Hash) (amount : Nat) (recipient : PrincipalData)
    (withdrawalId height : Nat) (withdrawalRoot withdrawalLeafHash : Hash)
    (siblingHashes : List (SiblingHash Hash)) (transferStx : Except CallError Bool) :
    Except CallError (L1State Hash) :=
  validateAndWithdraw leafHash nodeHash state
    (leafTupleWithdrawStx amount recipient withdrawalId height) transferStx withdrawalRoot
    withdrawalLeafHash siblingHashes

/-- `inner-withdraw-nft-asset`: the leaf names the L2 contract it is given. -/
def innerWithdrawNftAsset (state : L1State Hash) (l2Contract : PrincipalData) (id : Nat)
    (recipient : PrincipalData) (withdrawalId height : Nat) (withdrawalRoot withdrawalLeafHash : Hash)
    (siblingHashes : List (SiblingHash Hash)) (transfer : Except CallError Bool) :
    Except CallError (L1State Hash) :=
  validateAndWithdraw leafHash nodeHash state
    (leafTupleWithdrawNft l2Contract id recipient withdrawalId height) transfer withdrawalRoot
    withdrawalLeafHash siblingHashes

/-- `withdraw-nft-asset`: the L2 contract registered for the L1 one. -/
def withdrawNftAsset (state : L1State Hash) (nftContract : QualifiedContractIdentifier) (id : Nat)
    (recipient : PrincipalData) (withdrawalId height : Nat) (withdrawalRoot withdrawalLeafHash : Hash)
    (siblingHashes : List (SiblingHash Hash)) (transfer : Except CallError Bool) :
    Except CallError (L1State Hash) :=
  match state.allowedContracts (.contract nftContract) with
  | none => .error (.err errDisallowedAsset)
  | some l2Contract =>
      innerWithdrawNftAsset leafHash nodeHash state l2Contract id recipient withdrawalId height
        withdrawalRoot withdrawalLeafHash siblingHashes transfer

/-- `inner-withdraw-ft-asset`: the leaf names `(contract-of ft-contract)`, the
L1 token itself. -/
def innerWithdrawFtAsset (state : L1State Hash) (ftContract : QualifiedContractIdentifier)
    (amount : Nat) (recipient : PrincipalData) (withdrawalId height : Nat)
    (withdrawalRoot withdrawalLeafHash : Hash) (siblingHashes : List (SiblingHash Hash))
    (transfer : Except CallError Bool) : Except CallError (L1State Hash) :=
  validateAndWithdraw leafHash nodeHash state
    (leafTupleWithdrawFt (.contract ftContract) amount recipient withdrawalId height) transfer
    withdrawalRoot withdrawalLeafHash siblingHashes

/-- `withdraw-ft-asset`: the registration is looked up and its value dropped;
`getName` is the answer of the token's `get-name`. -/
def withdrawFtAsset (state : L1State Hash) (ftContract : QualifiedContractIdentifier)
    (amount : Nat) (recipient : PrincipalData) (withdrawalId height : Nat)
    (withdrawalRoot withdrawalLeafHash : Hash) (siblingHashes : List (SiblingHash Hash))
    (transfer : Except CallError Bool) (getName : Option String) :
    Except CallError (L1State Hash) := do
  asserts (decide (amount > 0)) errAttemptToTransferZeroAmount
  match state.allowedContracts (.contract ftContract) with
  | none => .error (.err errDisallowedAsset)
  | some _ =>
      let state ← innerWithdrawFtAsset leafHash nodeHash state ftContract amount recipient
        withdrawalId height withdrawalRoot withdrawalLeafHash siblingHashes transfer
      match getName with
      | none => .error (.err errContractCallFailed)
      | some _ => pure state

/-- A withdrawal whose Merkle path checks, whose leaf is the one the contract
rebuilds and whose transfer goes through records its leaf as processed. -/
theorem validate_and_withdraw_ok (state : L1State Hash) (tuple : TupleData)
    (withdrawalRoot : Hash) (siblingHashes : List (SiblingHash Hash))
    (committed : withdrawalRoot ∈ state.withdrawalRootsMap)
    (fresh : (leafHash (.tuple tuple), withdrawalRoot) ∉ state.processedWithdrawalLeavesMap)
    (path : siblingHashes.foldl (fun curr sibling => hashHelp nodeHash sibling curr)
      (leafHash (.tuple tuple)) = withdrawalRoot) :
    validateAndWithdraw leafHash nodeHash state (.ok tuple) (.ok true) withdrawalRoot
        (leafHash (.tuple tuple)) siblingHashes =
      .ok { state with processedWithdrawalLeavesMap :=
        (leafHash (.tuple tuple), withdrawalRoot) :: state.processedWithdrawalLeavesMap } := by
  have checked : checkWithdrawalHashes nodeHash state withdrawalRoot (leafHash (.tuple tuple))
      siblingHashes = .ok true := by
    simp [checkWithdrawalHashes, committed, fresh, path]
  simp [validateAndWithdraw, checked, assertsTry, asserts, finishWithdraw, fresh, Except.mapError]

/-- The leaf check refuses every leaf but the rebuilt one, whatever the state,
the path and the transfer. -/
theorem validate_and_withdraw_other_leaf (state : L1State Hash) (tuple : TupleData)
    (transfer : Except CallError Bool) (withdrawalRoot withdrawalLeafHash : Hash)
    (siblingHashes : List (SiblingHash Hash))
    (other : withdrawalLeafHash ≠ leafHash (.tuple tuple)) :
    ∃ error, validateAndWithdraw leafHash nodeHash state (.ok tuple) transfer withdrawalRoot
      withdrawalLeafHash siblingHashes = .error error := by
  unfold validateAndWithdraw
  cases checked : checkWithdrawalHashes nodeHash state withdrawalRoot withdrawalLeafHash
      siblingHashes with
  | error error => exact ⟨error, rfl⟩
  | ok flag =>
      cases flag
      · exact ⟨.err errValidationFailed, rfl⟩
      · exact ⟨.err errValidationLeafFailed, by simp [assertsTry, asserts, other, Except.mapError]⟩

end Contract

end Hyperchains.L1SubnetContract
