import Hyperchains.Withdrawal

/-! The subnet boot contract `chainstate/stacks/boot/subnet.clar` as Lean
functions. A public function returns its response, the events it emitted and the
contract state after it; the inner `contract-call?` to the asset's
`burn-for-withdrawal` and the `stx-transfer?` are parameters of the same shape.
`commitPublicCall` is the rule of the Clarity VM that a call answering `err`
keeps neither its events nor its writes. -/

namespace Hyperchains.SubnetContract
open ClarityValue Events Panic

/-- What a public function (or an inner call) answers, emits and leaves. -/
structure CallOutcome (State : Type) where
  response : Value
  events : List StacksTransactionEvent
  state : State

/-- The Clarity VM keeps a call's events and writes only when it answers `ok`. -/
def commitPublicCall {State : Type} (before : State) (outcome : CallOutcome State) :
    CallOutcome State :=
  match outcome.response with
  | .response true _ => outcome
  | _ => { outcome with events := [], state := before }

def printEvent (mainnet : Bool) (data : TupleData) : StacksTransactionEvent :=
  .smartContractEvent ⟨(bootCodeId "subnet" mainnet, "print"), .tuple data⟩

theorem print_is_subnet_contract_event (mainnet : Bool) :
    Withdrawal.isSubnetContractEvent (bootCodeId "subnet" mainnet) "print" = true := by
  cases mainnet <;> decide

-- The key of a print, as its tuple reads once `withdrawal-id` is written in.
theorem generate_key_from_print (mainnet : Bool) (data : TupleData) (withdrawalId blockHeight : Nat) :
    (Withdrawal.generateKeyFromEvent (printEvent mainnet data) withdrawalId blockHeight).map (·.2) =
      match (data.insert "withdrawal-id" (.uint withdrawalId)).get "type" with
      | .none => .ok .none
      | .some typeValue => typeValue.expectAscii >>= fun eventType =>
          Withdrawal.makeKeyForType eventType (data.insert "withdrawal-id" (.uint withdrawalId))
            withdrawalId blockHeight := by
  simp only [Withdrawal.generateKeyFromEvent, printEvent, print_is_subnet_contract_event,
    Bool.not_true, Bool.false_eq_true, ↓reduceIte]
  generalize (data.insert "withdrawal-id" (.uint withdrawalId)).get "type" = found
  cases found with
  | none => rfl
  | some typeValue =>
    dsimp only
    generalize typeValue.expectAscii = ascii
    cases ascii with
    | error => rfl
    | ok eventType =>
      simp only [Panic.ok_bind]
      cases Withdrawal.makeKeyForType eventType _ withdrawalId blockHeight <;> rfl

/-- The tuple printed by `stx-withdraw?`. -/
def stxWithdrawPrint (sender : PrincipalData) (amount blockHeight : Nat) : Except String TupleData :=
  TupleData.fromData [("event", .stringAscii "withdraw"), ("type", .stringAscii "stx"),
    ("sender", .principal sender), ("amount", .uint amount),
    ("withdrawal-height", .uint blockHeight)]

/-- The tuple printed by `ft-withdraw?`; `asset` is `(contract-of asset)`. -/
def ftWithdrawPrint (asset : QualifiedContractIdentifier) (sender : PrincipalData)
    (amount blockHeight : Nat) : Except String TupleData :=
  TupleData.fromData [("event", .stringAscii "withdraw"), ("type", .stringAscii "ft"),
    ("sender", .principal sender), ("amount", .uint amount),
    ("asset-contract", .principal (.contract asset)), ("withdrawal-height", .uint blockHeight)]

/-- The tuple printed by `nft-withdraw?`. -/
def nftWithdrawPrint (asset : QualifiedContractIdentifier) (sender : PrincipalData)
    (id blockHeight : Nat) : Except String TupleData :=
  TupleData.fromData [("event", .stringAscii "withdraw"), ("type", .stringAscii "nft"),
    ("sender", .principal sender), ("id", .uint id),
    ("asset-contract", .principal (.contract asset)), ("withdrawal-height", .uint blockHeight)]

section Functions
variable {State : Type}

/-- The contract's own data: `(define-map allowed-contracts principal principal)`. -/
structure SubnetState (State : Type) where
  allowedContracts : PrincipalData → Option PrincipalData
  rest : State

def errDisallowedAsset : Value := .response false (.uint 5)

def errAssetAlreadyAllowed : Value := .response false (.uint 6)

def errUncallable : Value := .response false (.uint 17)

/-- `is-boot`: the transaction's sender is the boot address of either network. -/
def isBoot (txSender : PrincipalData) : Bool :=
  txSender = .standard (bootCodeAddr false) || txSender = .standard (bootCodeAddr true)

/-- The tuple printed by `register-asset-contract`; it has no `type`. -/
def registerContractPrint (assetType : String) (l1Contract l2Contract : PrincipalData)
    (burnchainTxid : List UInt8) : Except String TupleData :=
  TupleData.fromData [("event", .stringAscii "register-contract"), ("asset-type", .stringAscii assetType),
    ("l1-contract", .principal l1Contract), ("l2-contract", .principal l2Contract),
    ("burnchain-txid", .buff burnchainTxid)]

/-- `register-asset-contract`, called by the subnet miner: allow an L2 asset
contract, map it to its L1 contract, and print the registration. -/
def registerAssetContract (mainnet : Bool) (txSender : PrincipalData) (assetType : String)
    (l1Contract l2Contract : PrincipalData) (burnchainTxid : List UInt8) (state : SubnetState State) :
    Except String (CallOutcome (SubnetState State)) :=
  if !isBoot txSender then pure ⟨errUncallable, [], state⟩
  else match state.allowedContracts l2Contract with
    | some _ => pure ⟨errAssetAlreadyAllowed, [], state⟩
    | none => do
        let data ← registerContractPrint assetType l1Contract l2Contract burnchainTxid
        pure ⟨Value.okayTrue, [printEvent mainnet data],
          { state with allowedContracts := Function.update state.allowedContracts l2Contract (some l1Contract) }⟩

/-- `try!` on an inner response: go on with its `ok`, or answer its `err`. -/
def tryInner (inner : CallOutcome (SubnetState State)) (events : List StacksTransactionEvent)
    (answer : Value) : CallOutcome (SubnetState State) :=
  match inner.response with
  | .response true _ => ⟨answer, events ++ inner.events, inner.state⟩
  | response => ⟨response, events ++ inner.events, inner.state⟩

/-- `stx-withdraw?`: print, then move the STX to the contract. -/
def stxWithdraw (mainnet : Bool) (stxTransfer : SubnetState State → CallOutcome (SubnetState State))
    (amount : Nat) (sender : PrincipalData) (blockHeight : Nat) (state : SubnetState State) :
    Except String (CallOutcome (SubnetState State)) := do
  let data ← stxWithdrawPrint sender amount blockHeight
  pure (tryInner (stxTransfer state) [printEvent mainnet data] (.response true (.uint blockHeight)))

/-- `ft-withdraw?`: refuse an unregistered asset, print, then burn. -/
def ftWithdraw (mainnet : Bool)
    (burnForWithdrawal : SubnetState State → CallOutcome (SubnetState State))
    (asset : QualifiedContractIdentifier) (amount : Nat) (sender : PrincipalData)
    (blockHeight : Nat) (state : SubnetState State) :
    Except String (CallOutcome (SubnetState State)) :=
  match state.allowedContracts (.contract asset) with
  | none => pure ⟨errDisallowedAsset, [], state⟩
  | some _ => do
      let data ← ftWithdrawPrint asset sender amount blockHeight
      pure (tryInner (burnForWithdrawal state) [printEvent mainnet data]
        (.response true (.uint blockHeight)))

/-- `nft-withdraw?`: as `ft-withdraw?`, with the token id. -/
def nftWithdraw (mainnet : Bool)
    (burnForWithdrawal : SubnetState State → CallOutcome (SubnetState State))
    (asset : QualifiedContractIdentifier) (id : Nat) (sender : PrincipalData)
    (blockHeight : Nat) (state : SubnetState State) :
    Except String (CallOutcome (SubnetState State)) :=
  match state.allowedContracts (.contract asset) with
  | none => pure ⟨errDisallowedAsset, [], state⟩
  | some _ => do
      let data ← nftWithdrawPrint asset sender id blockHeight
      pure (tryInner (burnForWithdrawal state) [printEvent mainnet data]
        (.response true (.uint blockHeight)))

end Functions

end Hyperchains.SubnetContract
