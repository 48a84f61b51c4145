import Hyperchains.ContractCall
import Hyperchains.SubnetContract

/-! Which transactions the withdrawal keys of a block come from. A contract
call whose post-conditions fail is rolled back by `with_abort_callback`, but
`process_transaction_payload` still puts the call's events in its receipt, and
`generate_withdrawal_keys` reads the events of every receipt without looking at
the abort flag. So a withdrawal whose STX transfer or burn was rolled back still
gets a key in the block's withdrawal tree. -/

namespace Hyperchains.WithdrawalSoundness
open ClarityValue Events Withdrawal ContractCall SubnetContract

section Aborted
variable {Db AssetMap Item : Type} (serializeToVec : Value → Item)

/-- An aborted call yields exactly the withdrawal keys it would have yielded had
it been committed. -/
theorem aborted_call_keys_as_committed
    (executeTransaction : ClarityRun Db AssetMap (Value × AssetMap × List StacksTransactionEvent))
    (checkTransactionPostconditions : AssetMap → Bool) (db after : Db) (value : Value)
    (assets : AssetMap) (events : List StacksTransactionEvent)
    (ran : executeTransaction db = (.ok (value, assets, events), after))
    (violated : checkTransactionPostconditions assets = false)
    (before following : List StacksTransactionReceipt) (blockHeight : Nat) :
    ∃ receipt, processContractCallPayload executeTransaction checkTransactionPostconditions db =
        (.ok receipt, db) ∧ receipt.postConditionAborted = true ∧
      (generateWithdrawalKeys serializeToVec (before ++ receipt :: following) blockHeight).map (·.2) =
        (generateWithdrawalKeys serializeToVec
          (before ++ .fromContractCall events value :: following) blockHeight).map (·.2) := by
  refine ⟨.fromConditionAbortedContractCall events value, ?_, rfl, ?_⟩
  · exact aborted_call_keeps_events executeTransaction checkTransactionPostconditions db after
      value assets events ran violated
  · apply generate_withdrawal_keys_events_only
    simp [StacksTransactionReceipt.fromConditionAbortedContractCall,
      StacksTransactionReceipt.fromContractCall]

end Aborted

/-! A failing input: `stx-withdraw?` called by a transaction in deny mode with no
post-conditions, so that the STX moved by the call violates them. -/

/-- The Clarity VM running a subnet function: what it answers and emits, with the
uSTX moved out of the sender's account as the asset map. -/
def executePublicCall {State : Type}
    (call : State → Except String (CallOutcome State)) (sender : PrincipalData) :
    ClarityRun State Nat (Value × Nat × List StacksTransactionEvent) :=
  fun db =>
    match call db with
    | .ok outcome =>
        let kept := commitPublicCall db outcome
        let moved := (kept.events.map fun
          | .stxEvent (.stxTransferEvent source _ amount) => if source = sender then amount else 0
          | _ => 0).sum
        (.ok (kept.response, moved, kept.events), kept.state)
    | .error _ => (.error (.interpreter .unchecked), db)

def alice : PrincipalData := .standard ⟨26, List.replicate 20 1⟩

def subnetPrincipal : PrincipalData := .contract (bootCodeId "subnet" false)

/-- `stx-transfer?` of 10 uSTX from `alice` to the subnet contract, which holds
in a state where `alice` has at least 10. -/
def aliceTransfer (state : SubnetState Nat) : CallOutcome (SubnetState Nat) :=
  ⟨.response true (.bool true), [.stxEvent (.stxTransferEvent alice subnetPrincipal 10)],
    { state with rest := state.rest - 10 }⟩

def aliceWithdrawal : ClarityRun (SubnetState Nat) Nat (Value × Nat × List StacksTransactionEvent) :=
  executePublicCall (stxWithdraw false aliceTransfer 10 alice 5) alice

/-- Deny mode with no post-conditions: no uSTX may leave the sender. -/
def denyModeCheck (moved : Nat) : Bool := moved == 0

def aliceStart : SubnetState Nat := ⟨fun _ => none, 100⟩

/-- What `stx-withdraw?` prints for alice's withdrawal, as its sorted tuple. -/
def alicePrint : StacksTransactionEvent :=
  printEvent false (.cons "amount" (.uint 10) (.cons "event" (.stringAscii "withdraw")
    (.cons "sender" (.principal alice) (.cons "type" (.stringAscii "stx")
      (.cons "withdrawal-height" (.uint 5) .nil)))))

/-- At the failing input the withdrawal is rolled back (alice keeps her 100 uSTX)
and still yields one key, withdrawal 0 of 10 uSTX to alice. -/
theorem aborted_withdrawal_yields_key :
    ∃ receipt, processContractCallPayload aliceWithdrawal denyModeCheck aliceStart =
        (.ok receipt, aliceStart) ∧ receipt.postConditionAborted = true ∧
      (generateWithdrawalKeys (fun key => key) [receipt] 7).map (·.2) =
        .ok [.tuple (.cons "amount" (.uint 10) (.cons "height" (.uint 7)
          (.cons "recipient" (.principal alice) (.cons "type" (.stringAscii "stx")
            (.cons "withdrawal-id" (.uint 0) .nil)))))] := by
  refine ⟨.fromConditionAbortedContractCall
    [alicePrint, .stxEvent (.stxTransferEvent alice subnetPrincipal 10)] (.response true (.uint 5)),
    ?_, rfl, ?_⟩
  · rfl
  · decide

end Hyperchains.WithdrawalSoundness
