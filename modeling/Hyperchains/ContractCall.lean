import Hyperchains.Withdrawal

/-! The contract-call path of a Stacks transaction: `with_abort_callback`
(`clarity_vm/clarity.rs`), the `run_contract_call` wrapper of the `clarity`
crate around it, `handle_clarity_runtime_error` and the `ContractCall` branch of
`process_transaction_payload` (`chainstate/stacks/db/transactions.rs`).

The Clarity database is a state `Db` that the call may change; a rollback puts
back the state from before the call. The virtual machine's execution of the
called function and the post-condition check are parameters. What the `clarity`
crate does around them is taken from its documented behaviour: a call that the
callback aborts comes back as `AbortedByCallback` with the value, the asset map
and the events it produced. -/

namespace Hyperchains.ContractCall
open ClarityValue Events Withdrawal

inductive InterpreterError where
  | runtime
  | shortReturn
  | unchecked
  deriving DecidableEq, Repr

inductive ClarityError (AssetMap : Type) where
  | interpreter (error : InterpreterError)
  | abortedByCallback (value : Option Value) (assets : AssetMap)
      (events : List StacksTransactionEvent)
  | costError
  | badTransaction (reason : String)

inductive ClarityRuntimeTxError (AssetMap : Type) where
  | acceptable (error : ClarityError AssetMap) (errType : String)
  | abortedByCallback (value : Option Value) (assets : AssetMap)
      (events : List StacksTransactionEvent)
  | costError
  | rejectable (error : ClarityError AssetMap)

/-- The node's `Error`, with a panic of the node kept apart as `panic`. -/
inductive ChainstateError (AssetMap : Type) where
  | costOverflowError
  | clarityError (error : ClarityError AssetMap)
  | panic (message : String)

section Call
variable {Db AssetMap Result : Type}

/-- The outcome of a database-touching step and the database after it. -/
abbrev ClarityRun (Db AssetMap Result : Type) :=
  Db → Except (ClarityError AssetMap) Result × Db

/-- `ClarityTransactionConnection::with_abort_callback`: the step runs inside a
database transaction; it is rolled back if the step fails or if the callback,
shown the step's asset map, asks for an abort; otherwise it is committed. The
events are handed back either way. -/
def withAbortCallback
    (toDo : ClarityRun Db AssetMap (Result × AssetMap × List StacksTransactionEvent))
    (abortCallBack : AssetMap → Db → Bool) :
    ClarityRun Db AssetMap (Result × AssetMap × List StacksTransactionEvent × Bool) :=
  fun db =>
    match toDo db with
    | (.ok (value, assetMap, events), after) =>
        let aborted := abortCallBack assetMap after
        (.ok (value, assetMap, events, aborted), if aborted then db else after)
    | (.error error, _) => (.error error, db)

/-- `TransactionConnection::run_contract_call` of the `clarity` crate: an
aborted call becomes `AbortedByCallback` carrying what the call produced. -/
def runContractCall
    (executeTransaction : ClarityRun Db AssetMap (Value × AssetMap × List StacksTransactionEvent))
    (abortCallBack : AssetMap → Db → Bool) :
    ClarityRun Db AssetMap (Value × AssetMap × List StacksTransactionEvent) :=
  fun db =>
    let (result, after) := withAbortCallback executeTransaction abortCallBack db
    match result with
    | .ok (value, assets, events, aborted) =>
        if aborted then (.error (.abortedByCallback (some value) assets events), after)
        else (.ok (value, assets, events), after)
    | .error error => (.error error, after)

-- Under a callback that never aborts (the node's own calls), a call keeps what it
-- wrote, and one that fails leaves the database as it was.
theorem run_contract_call_no_abort
    (executeTransaction : ClarityRun Db AssetMap (Value × AssetMap × List StacksTransactionEvent))
    (db : Db) :
    runContractCall executeTransaction (fun _ _ => false) db =
      match executeTransaction db with
      | (.ok result, after) => (.ok result, after)
      | (.error error, _) => (.error error, db) := by
  unfold runContractCall withAbortCallback
  cases ran : executeTransaction db with
  | mk result after =>
      cases result with
      | error error => rfl
      | ok outcome => rfl

end Call

def handleClarityRuntimeError {AssetMap : Type} :
    ClarityError AssetMap → ClarityRuntimeTxError AssetMap
  | .interpreter .runtime => .acceptable (.interpreter .runtime) "runtime error"
  | .interpreter .shortReturn => .acceptable (.interpreter .shortReturn) "short return/panic"
  | .abortedByCallback value assets events => .abortedByCallback value assets events
  | .costError => .costError
  | error => .rejectable error

section Payload
variable {Db AssetMap : Type}

/-- The `TransactionPayload::ContractCall` branch of `process_transaction_payload`.
`checkTransactionPostconditions` is `check_transaction_postconditions` applied
to the transaction's post-conditions, mode and origin account. -/
def processContractCallPayload
    (executeTransaction : ClarityRun Db AssetMap (Value × AssetMap × List StacksTransactionEvent))
    (checkTransactionPostconditions : AssetMap → Bool) (db : Db) :
    Except (ChainstateError AssetMap) StacksTransactionReceipt × Db :=
  let (response, after) := runContractCall executeTransaction
    (fun assetMap _ => !checkTransactionPostconditions assetMap) db
  match response with
  | .ok (returnValue, _, events) => (.ok (.fromContractCall events returnValue), after)
  | .error error =>
      match handleClarityRuntimeError error with
      | .acceptable _ _ => (.ok (.fromContractCall [] Value.errNone), after)
      | .abortedByCallback value _ events =>
          match value with
          | some value => (.ok (.fromConditionAbortedContractCall events value), after)
          | none => (.error (.panic
              "BUG: Post condition contract call must provide would-have-been-returned value"), after)
      | .costError => (.error .costOverflowError, after)
      | .rejectable error => (.error (.clarityError error), after)

/-- A call whose post-conditions fail is rolled back, yet its receipt keeps every
event the call emitted, flagged as aborted. -/
theorem aborted_call_keeps_events
    (executeTransaction : ClarityRun Db AssetMap (Value × AssetMap × List StacksTransactionEvent))
    (checkTransactionPostconditions : AssetMap → Bool) (db after : Db) (value : Value)
    (assets : AssetMap) (events : List StacksTransactionEvent)
    (ran : executeTransaction db = (.ok (value, assets, events), after))
    (violated : checkTransactionPostconditions assets = false) :
    processContractCallPayload executeTransaction checkTransactionPostconditions db =
      (.ok (.fromConditionAbortedContractCall events value), db) := by
  simp [processContractCallPayload, runContractCall, withAbortCallback, ran, violated,
    handleClarityRuntimeError]

end Payload

end Hyperchains.ContractCall
