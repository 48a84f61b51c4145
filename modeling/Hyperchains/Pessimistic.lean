import Hyperchains.Transaction
import Hyperchains.FeeMedians
import Hyperchains.Library.Float

/-! The pessimistic cost estimator (`cost_estimates/pessimistic.rs`). For each
operation and each dimension of an `ExecutionCost` it keeps, under a string key,
a sample of the highest costs seen, at most `SAMPLE_SIZE` of them, and estimates
the dimension as their mean.

The `pessimistic_estimator` table is a map from keys to rows. SQLite does not
fail here, so its errors and the `expect`s on them are left out, and a row holds
its samples as the list the JSON column encodes. The mean is computed in `f64`
as the source computes it (`Library.Float`). A contract call's key
shows its address, contract name and function name through their `Display`,
which lies outside the repository and is given as `Names`. `notify_event` only
logs with `log_error` set; that logging is left out. -/

namespace Hyperchains.Pessimistic
open Hyperchains.Transaction
open Hyperchains.FeeMedians (EstimatorError)

inductive StacksEpochId where
  | epoch10
  | epoch20
  | epoch2_05
  | epoch21
  | epoch22
  | epoch23
  | epoch24
  deriving DecidableEq, Repr

structure ExecutionCost where
  writeLength : Nat
  writeCount : Nat
  readLength : Nat
  readCount : Nat
  runtime : Nat
  deriving DecidableEq, Repr

inductive CostField where
  | runtimeCost
  | writeLength
  | writeCount
  | readLength
  | readCount
  deriving DecidableEq, Repr

/-- `CostField::ALL`, in the order of the declaration. -/
def CostField.all : List CostField := [.runtimeCost, .writeLength, .writeCount, .readLength, .readCount]

def CostField.selectKey (field : CostField) (fromCost : ExecutionCost) : Nat :=
  match field with
  | .runtimeCost => fromCost.runtime
  | .writeLength => fromCost.writeLength
  | .writeCount => fromCost.writeCount
  | .readLength => fromCost.readLength
  | .readCount => fromCost.readCount

/-- The `Display` of a field. -/
def CostField.toString : CostField → String
  | .runtimeCost => "runtime"
  | .writeLength => "write-length"
  | .writeCount => "write-count"
  | .readLength => "read-length"
  | .readCount => "read-count"

/-! ## Samples -/

structure Samples where
  items : List Nat
  deriving DecidableEq, Repr

/-- `SAMPLE_SIZE`. -/
def sampleSize : Nat := 10

/-- `update_with`: push while there is room, else replace the first least item
when the sample is larger. The flag says whether the sample was included. -/
def Samples.updateWith (self : Samples) (sample : Nat) : Except String (Samples × Bool) :=
  if self.items.length < sampleSize then .ok (⟨self.items ++ [sample]⟩, true)
  else
    match self.items.zipIdx.argmin Prod.fst with
    | none => .error "internal error: entered unreachable code: Should find minimum if len() >= SAMPLE_SIZE"
    | some (minVal, minIndex) =>
        if sample > minVal then .ok (⟨self.items.set minIndex sample⟩, true)
        else .ok (self, false)

/-- `mean`: the samples summed in `f64` from `0.0`, divided by their count, and
cast back with `as u64`. -/
def Samples.mean (self : Samples) : Nat :=
  if self.items.isEmpty then 0
  else
    let total := self.items.foldl (fun total value => total + Fp.ofNat value) (Fp.zero : F64)
    (total / Fp.ofNat self.items.length).toNatSat 64

/-- `i64::MAX`. -/
def i64Max : Nat := 2 ^ 63 - 1

/-- `util_lib::db::u64_to_sql`: `none` for its `Error::ParseError`. -/
def u64ToSql (x : Nat) : Option Int :=
  if x > i64Max then none else some x

/-! ## The table -/

structure Row where
  currentValue : Int
  samples : Samples
  deriving DecidableEq, Repr

/-- The `pessimistic_estimator` table, by `estimate_key`. -/
abbrev Table := String → Option Row

/-- `flush_sqlite`: insert or replace the row, its current value the mean, or
`i64::MAX` where the mean does not fit. -/
def Samples.flushSqlite (self : Samples) (tx : Table) (identifier : String) : Table :=
  let currentValue := (u64ToSql self.mean).getD i64Max
  Function.update tx identifier (some ⟨currentValue, self⟩)

/-- `get_sqlite`: the stored samples, or none. -/
def Samples.getSqlite (conn : Table) (identifier : String) : Samples :=
  ((conn identifier).map Row.samples).getD ⟨[]⟩

/-- `get_estimate_sqlite`: the stored current value, a panic where it is no
`u64`. -/
def Samples.getEstimateSqlite (conn : Table) (identifier : String) : Except String (Option Nat) :=
  match conn identifier with
  | none => .ok none
  | some row =>
      if row.currentValue < 0 then .error "DB corrupt, non-u64-valid estimate was stored"
      else .ok (some row.currentValue.toNat)

/-! ## Keys -/

/-- The `Display` of a contract call's address, contract name and function name. -/
structure Names (E : External) where
  address : E.Address → String
  contractName : E.ContractName → String
  functionName : E.ClarityName → String

variable {E : External} (names : Names E)

/-- The epoch marker of a contract call's key: none before 2.05, for backwards
compatibility, and epochs 2.2 to 2.4 reuse the estimates of 2.1. -/
def StacksEpochId.epochMarker : StacksEpochId → String
  | .epoch10 => ""
  | .epoch20 => ""
  | .epoch2_05 => ":2.05"
  | .epoch21 => ":2.1"
  | .epoch22 => ":2.1"
  | .epoch23 => ":2.1"
  | .epoch24 => ":2.1"

/-- The `tx_descriptor` of `get_estimate_key`. -/
def txDescriptor (tx : TransactionPayload E) (evaluatedEpoch : StacksEpochId) : String :=
  match tx with
  | .tokenTransfer .. => "stx-transfer"
  | .contractCall cc =>
      let epochMarker := evaluatedEpoch.epochMarker
      let address := names.address cc.address
      let contractName := names.contractName cc.contractName
      let functionName := names.functionName cc.functionName
      s!"cc{epochMarker}:{address}:{contractName}.{functionName}"
  | .smartContract .. => "contract-publish"
  | .poisonMicroblock .. => "poison-ublock"
  | .coinbase .. => "coinbase"

def getEstimateKey (tx : TransactionPayload E) (field : CostField) (evaluatedEpoch : StacksEpochId) : String :=
  txDescriptor names tx evaluatedEpoch ++ ":" ++ field.toString

/-! ## The estimator -/

/-- One turn of `notify_event`'s loop: the field's samples updated with its cost
and flushed. -/
def notifyField (tx : TransactionPayload E) (actualCost : ExecutionCost) (evaluatedEpoch : StacksEpochId)
    (sqlTx : Table) (field : CostField) : Except String Table := do
  let key := getEstimateKey names tx field evaluatedEpoch
  let fieldCost := field.selectKey actualCost
  let currentSample := Samples.getSqlite sqlTx key
  let (currentSample, _) ← currentSample.updateWith fieldCost
  pure (currentSample.flushSqlite sqlTx key)

/-- `PessimisticEstimator::notify_event`. -/
def notifyEvent (db : Table) (tx : TransactionPayload E) (actualCost : ExecutionCost)
    (evaluatedEpoch : StacksEpochId) : Except String Table :=
  CostField.all.foldlM (notifyField names tx actualCost evaluatedEpoch) db

/-- `PessimisticEstimator::estimate_cost`: each dimension's current value in
turn, or `NoEstimateAvailable` at the first one missing. -/
def estimateCost (db : Table) (tx : TransactionPayload E) (evaluatedEpoch : StacksEpochId) :
    Except String (Except EstimatorError ExecutionCost) := do
  let some runtime ← Samples.getEstimateSqlite db (getEstimateKey names tx .runtimeCost evaluatedEpoch)
    | pure (.error .noEstimateAvailable)
  let some readCount ← Samples.getEstimateSqlite db (getEstimateKey names tx .readCount evaluatedEpoch)
    | pure (.error .noEstimateAvailable)
  let some readLength ← Samples.getEstimateSqlite db (getEstimateKey names tx .readLength evaluatedEpoch)
    | pure (.error .noEstimateAvailable)
  let some writeCount ← Samples.getEstimateSqlite db (getEstimateKey names tx .writeCount evaluatedEpoch)
    | pure (.error .noEstimateAvailable)
  let some writeLength ← Samples.getEstimateSqlite db (getEstimateKey names tx .writeLength evaluatedEpoch)
    | pure (.error .noEstimateAvailable)
  pure (.ok ⟨writeLength, writeCount, readLength, readCount, runtime⟩)

inductive TransactionOrigin (E : External) where
  | stacks (payload : TransactionPayload E)
  | burn

structure StacksTransactionReceipt (E : External) where
  transaction : TransactionOrigin E
  executionCost : ExecutionCost

/-- `CostEstimator::notify_block`: `notify_event` for each Stacks receipt in
turn; its errors are only logged. -/
def notifyBlock (db : Table) (receipts : List (StacksTransactionReceipt E)) (stacksEpochId : StacksEpochId) :
    Except String Table :=
  receipts.foldlM (fun db currentReceipt =>
    match currentReceipt.transaction with
    | .burn => pure db
    | .stacks txPayload => notifyEvent names db txPayload currentReceipt.executionCost stacksEpochId) db

end Hyperchains.Pessimistic
