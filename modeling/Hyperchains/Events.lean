import Hyperchains.ClarityValue

/-! Transaction events and receipts (`chainstate/stacks/events.rs`, and the
`StacksTransactionEvent` of the `clarity` crate). A receipt keeps the fields the
withdrawal, deposit and block code reads or writes: its events, its top-level
result and its post-condition abort flag. The events of the other kinds carry
nothing that code reads. -/

namespace Hyperchains.Events
open ClarityValue

inductive STXEventType where
  | stxTransferEvent (sender recipient : PrincipalData) (amount : Nat)
  | stxMintEvent (recipient : PrincipalData) (amount : Nat)
  | stxBurnEvent (sender : PrincipalData) (amount : Nat)
  | stxLockEvent (lockedAmount unlockHeight : Nat) (lockedAddress : PrincipalData)
  deriving DecidableEq, Repr

/-- A `print` (or other contract) event: `key` is the emitting contract and the
event name. -/
structure SmartContractEventData where
  key : QualifiedContractIdentifier × String
  value : Value
  deriving DecidableEq, Repr

inductive StacksTransactionEvent where
  | smartContractEvent (data : SmartContractEventData)
  | stxEvent (data : STXEventType)
  | nftEvent
  | ftEvent
  deriving DecidableEq, Repr

structure StacksTransactionReceipt where
  events : List StacksTransactionEvent
  postConditionAborted : Bool
  result : Value
  deriving DecidableEq, Repr

/-- `StacksTransactionReceipt::from_contract_call`. -/
def StacksTransactionReceipt.fromContractCall (events : List StacksTransactionEvent)
    (result : Value) : StacksTransactionReceipt :=
  { events, postConditionAborted := false, result }

/-- `StacksTransactionReceipt::from_condition_aborted_contract_call`. -/
def StacksTransactionReceipt.fromConditionAbortedContractCall
    (events : List StacksTransactionEvent) (result : Value) : StacksTransactionReceipt :=
  { events, postConditionAborted := true, result }

/-- Whether the effects of the transaction were kept: not aborted by its
post-conditions and an `ok` top-level response. -/
def StacksTransactionReceipt.committed (receipt : StacksTransactionReceipt) : Bool :=
  !receipt.postConditionAborted &&
    match receipt.result with
    | .response committed _ => committed
    | _ => false

end Hyperchains.Events
