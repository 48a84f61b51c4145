import Hyperchains.ContractCall
import Hyperchains.SubnetContract

/-! The deposits `setup_block` applies (`chainstate/stacks/db/blocks.rs`).
`process_deposit_stx_ops` credits the sender through `account_credit`
(`chainstate/stacks/db/accounts.rs`), which takes the amount `as u64`, records a
mint event and raises the liquid supply. `process_deposit_ft_ops` and
`process_deposit_nft_ops` call `deposit-from-burnchain` of the registered subnet
contract; an `err` answer gets a refund, the withdraw print that
`make_withdrawal_event` builds, and a call that fails at run time is dropped by
the `filter_map`, receipt and all. The uSTX balances and the liquid supply are a
ledger; the Clarity VM running `deposit-from-burnchain` is a parameter. -/

namespace Hyperchains.Deposits
open ClarityValue Events ContractCall SubnetContract

structure DepositStxOp where
  amount : Nat
  sender : PrincipalData
  deriving DecidableEq, Repr

structure DepositFtOp where
  subnetContractId : QualifiedContractIdentifier
  amount : Nat
  sender : PrincipalData
  deriving DecidableEq, Repr

structure DepositNftOp where
  subnetContractId : QualifiedContractIdentifier
  id : Nat
  sender : PrincipalData
  deriving DecidableEq, Repr

/-- The uSTX balances and `ustx-liquid-supply` of the Clarity database. -/
structure StxLedger where
  balances : PrincipalData → Nat
  ustxLiquidSupply : Nat

-- `amount as u64` keeps the low 64 bits of a `u128`.
def asU64 (amount : Nat) : Nat := amount % 2 ^ 64

def accountCredit (ledger : StxLedger) (principal : PrincipalData) (amount : Nat) : StxLedger :=
  { ledger with
    balances := Function.update ledger.balances principal (ledger.balances principal + amount) }

def incrementUstxLiquidSupply (ledger : StxLedger) (incrBy : Nat) : Except String StxLedger :=
  if ledger.ustxLiquidSupply + incrBy < 2 ^ 128 then
    .ok { ledger with ustxLiquidSupply := ledger.ustxLiquidSupply + incrBy }
  else .error "FATAL: `ust-liquid-supply` overflowed"

def processDepositStxOp (ledger : StxLedger) (depositStxOp : DepositStxOp) :
    Except String (StacksTransactionReceipt × StxLedger) := do
  let credited := accountCredit ledger depositStxOp.sender (asU64 depositStxOp.amount)
  let result := StacksTransactionEvent.stxEvent
    (.stxMintEvent depositStxOp.sender depositStxOp.amount)
  let ledger ← incrementUstxLiquidSupply credited depositStxOp.amount
  pure (⟨[result], false, Value.okayTrue⟩, ledger)

def processDepositStxOps :
    StxLedger → List DepositStxOp → Except String (List StacksTransactionReceipt × StxLedger)
  | ledger, [] => .ok ([], ledger)
  | ledger, depositStxOp :: rest => do
      let (receipt, ledger) ← processDepositStxOp ledger depositStxOp
      let (receipts, ledger) ← processDepositStxOps ledger rest
      pure (receipt :: receipts, ledger)

theorem process_deposit_stx_op_ok (ledger : StxLedger) (depositStxOp : DepositStxOp)
    (fits : ledger.ustxLiquidSupply + depositStxOp.amount < 2 ^ 128) :
    processDepositStxOp ledger depositStxOp =
      .ok (⟨[.stxEvent (.stxMintEvent depositStxOp.sender depositStxOp.amount)], false,
          Value.okayTrue⟩,
        { balances := Function.update ledger.balances depositStxOp.sender
            (ledger.balances depositStxOp.sender + asU64 depositStxOp.amount)
          ustxLiquidSupply := ledger.ustxLiquidSupply + depositStxOp.amount }) := by
  -- crediting leaves the supply alone, so the overflow check sees the old supply
  have fits' : (accountCredit ledger depositStxOp.sender
      (asU64 depositStxOp.amount)).ustxLiquidSupply + depositStxOp.amount < 2 ^ 128 := fits
  simp only [processDepositStxOp, incrementUstxLiquidSupply, fits', ↓reduceIte, Panic.ok_bind,
    Panic.pure_eq_ok]
  rfl

/-- What the deposits of a list credit to `principal`. -/
def creditedTo (operations : List DepositStxOp) (principal : PrincipalData) : Nat :=
  ((operations.filter (·.sender = principal)).map fun op => asU64 op.amount).sum

-- The run: one mint receipt per deposit, the supply raised by the amounts and
-- each balance by its deposits' amounts cut to 64 bits.
theorem process_deposit_stx_ops_spec (operations : List DepositStxOp) :
    ∀ ledger : StxLedger,
      ledger.ustxLiquidSupply + (operations.map (·.amount)).sum < 2 ^ 128 →
      processDepositStxOps ledger operations =
        .ok (operations.map fun op =>
            ⟨[.stxEvent (.stxMintEvent op.sender op.amount)], false, Value.okayTrue⟩,
          { balances := fun principal => ledger.balances principal + creditedTo operations principal
            ustxLiquidSupply := ledger.ustxLiquidSupply + (operations.map (·.amount)).sum }) := by
  induction operations with
  | nil =>
      intro ledger _
      simp [processDepositStxOps, creditedTo]
  | cons depositStxOp rest ih =>
      intro ledger fits
      simp only [List.map_cons, List.sum_cons] at fits
      have step := process_deposit_stx_op_ok ledger depositStxOp (by omega)
      have tail := ih ⟨Function.update ledger.balances depositStxOp.sender
          (ledger.balances depositStxOp.sender + asU64 depositStxOp.amount),
        ledger.ustxLiquidSupply + depositStxOp.amount⟩ (by simp only; omega)
      simp only [processDepositStxOps, step, Panic.ok_bind, tail, List.map_cons, List.sum_cons,
        Panic.pure_eq_ok, Except.ok.injEq, Prod.mk.injEq, StxLedger.mk.injEq, true_and]
      constructor
      · -- the sender's balance takes this deposit and its later ones
        funext principal
        by_cases same : depositStxOp.sender = principal
        · subst same
          simp [creditedTo]
          omega
        · simp [creditedTo, same, Function.update, Ne.symm same]
      · omega

-- Below 2^64 the cut is invisible: each balance rises by the deposited amounts.
theorem credited_to_exact (operations : List DepositStxOp) (principal : PrincipalData)
    (small : ∀ op ∈ operations, op.amount < 2 ^ 64) :
    creditedTo operations principal =
      ((operations.filter (·.sender = principal)).map (·.amount)).sum := by
  unfold creditedTo
  congr 1
  apply List.map_congr_left
  intro op member
  exact Nat.mod_eq_of_lt (small op (List.mem_of_mem_filter member))

inductive Token where
  | nft (id : Nat)
  | ft (amount : Nat)
  deriving DecidableEq, Repr

def Token.value : Token → Value
  | .nft id => .uint id
  | .ft amount => .uint amount

def depositFunctionName : String := "deposit-from-burnchain"

def makeWithdrawalEvent (subnetContractId : QualifiedContractIdentifier) (sender : PrincipalData)
    (token : Token) (mainnet : Bool) : Except String StacksTransactionEvent :=
  let (withdrawalType, withdrawalValue) : String × (String × Value) :=
    match token with
    | .nft id => ("nft", ("id", .uint id))
    | .ft amount => ("ft", ("amount", .uint amount))
  let values := [("sender", .principal sender), ("event", .stringAscii "withdraw"),
    ("type", .stringAscii withdrawalType), ("asset-contract", .principal (.contract subnetContractId)),
    withdrawalValue]
  match TupleData.fromData values with
  | .ok data => .ok (printEvent mainnet data)
  | .error message => .error ("Failed to create tuple data.: " ++ message)

section Assets
variable {Db AssetMap : Type}
  (executeDeposit : QualifiedContractIdentifier → String → List Value →
    ClarityRun Db AssetMap (Value × AssetMap × List StacksTransactionEvent))

/-- One FT or NFT deposit: the two loops of the source differ only in the token. -/
def processDepositAssetOp (mainnet : Bool) (subnetContractId : QualifiedContractIdentifier)
    (sender : PrincipalData) (token : Token) (db : Db) :
    Except String (Option StacksTransactionReceipt) × Db :=
  let (result, db) := runContractCall
    (executeDeposit subnetContractId depositFunctionName [token.value, .principal sender])
    (fun _ _ => false) db
  match result with
  | .error _ => (.ok none, db)
  | .ok (value, _, events) =>
      let depositOpFailed := match value with
        | .response committed _ => !committed
        | _ => false
      if depositOpFailed then
        match makeWithdrawalEvent subnetContractId sender token mainnet with
        | .ok refund => (.ok (some ⟨events ++ [refund], false, value⟩), db)
        | .error message => (.error message, db)
      else (.ok (some ⟨events, false, value⟩), db)

def processDepositAssetOps (mainnet : Bool) :
    List (QualifiedContractIdentifier × PrincipalData × Token) → Db →
      Except String (List StacksTransactionReceipt) × Db
  | [], db => (.ok [], db)
  | (subnetContractId, sender, token) :: rest, db =>
      match processDepositAssetOp executeDeposit mainnet subnetContractId sender token db with
      | (.error message, db) => (.error message, db)
      | (.ok receipt, db) =>
          match processDepositAssetOps mainnet rest db with
          | (.ok receipts, db) => (.ok (receipt.toList ++ receipts), db)
          | failed => failed

def processDepositFtOps (mainnet : Bool) (operations : List DepositFtOp) (db : Db) :
    Except String (List StacksTransactionReceipt) × Db :=
  processDepositAssetOps executeDeposit mainnet
    (operations.map fun op => (op.subnetContractId, op.sender, .ft op.amount)) db

def processDepositNftOps (mainnet : Bool) (operations : List DepositNftOp) (db : Db) :
    Except String (List StacksTransactionReceipt) × Db :=
  processDepositAssetOps executeDeposit mainnet
    (operations.map fun op => (op.subnetContractId, op.sender, .nft op.id)) db

/-- A deposit's receipt settles it: the call answered `ok`, or the refund of this
deposit is the receipt's last event. -/
def SettledDeposit (mainnet : Bool) (deposit : QualifiedContractIdentifier × PrincipalData × Token)
    (receipt : StacksTransactionReceipt) : Prop :=
  (∃ data, receipt.result = .response true data) ∨
    ∃ refund, makeWithdrawalEvent deposit.1 deposit.2.1 deposit.2.2 mainnet = .ok refund ∧
      receipt.events.getLast? = some refund

section Responds
-- Public functions answer a response; the type checker refuses any other.
variable (responds : ∀ contract name args db value assets events after,
  executeDeposit contract name args db = (.ok (value, assets, events), after) →
    ∃ committed data, value = .response committed data)
include responds

theorem process_deposit_asset_op_settled (mainnet : Bool)
    (subnetContractId : QualifiedContractIdentifier) (sender : PrincipalData) (token : Token)
    (db after : Db) (receipt : StacksTransactionReceipt)
    (processed : processDepositAssetOp executeDeposit mainnet subnetContractId sender token db =
      (.ok (some receipt), after)) :
    SettledDeposit mainnet (subnetContractId, sender, token) receipt := by
  unfold processDepositAssetOp at processed
  rw [run_contract_call_no_abort] at processed
  cases ran : executeDeposit subnetContractId depositFunctionName [token.value, .principal sender]
      db with
  | mk result written =>
      cases result with
      | error error => simp [ran] at processed
      | ok outcome =>
          obtain ⟨value, assets, events⟩ := outcome
          obtain ⟨committed, data, rfl⟩ := responds _ _ _ _ _ _ _ _ ran
          cases committed with
          | true =>
              simp only [ran, Bool.not_true, Bool.false_eq_true, ↓reduceIte, Prod.mk.injEq,
                Except.ok.injEq, Option.some.injEq] at processed
              exact Or.inl ⟨data, by rw [← processed.1]⟩
          | false =>
              -- the call answered `err`: the refund is appended
              cases refunded : makeWithdrawalEvent subnetContractId sender token mainnet with
              | error message => simp [ran, refunded] at processed
              | ok refund =>
                  simp only [ran, refunded, Bool.not_false, ↓reduceIte, Prod.mk.injEq,
                    Except.ok.injEq, Option.some.injEq] at processed
                  exact Or.inr ⟨refund, refunded, by rw [← processed.1]; simp⟩

-- The run: the receipts settle, in order, the deposits whose call returned.
theorem process_deposit_asset_ops_settled (mainnet : Bool) :
    ∀ (deposits : List (QualifiedContractIdentifier × PrincipalData × Token)) (db after : Db)
      (receipts : List StacksTransactionReceipt),
      processDepositAssetOps executeDeposit mainnet deposits db = (.ok receipts, after) →
      ∃ kept, kept.Sublist deposits ∧ List.Forall₂ (SettledDeposit mainnet) kept receipts := by
  intro deposits
  induction deposits with
  | nil =>
      intro db after receipts processed
      simp only [processDepositAssetOps, Prod.mk.injEq, Except.ok.injEq] at processed
      exact ⟨[], List.Sublist.slnil, by rw [← processed.1]; exact List.Forall₂.nil⟩
  | cons deposit rest ih =>
      intro db after receipts processed
      obtain ⟨subnetContractId, sender, token⟩ := deposit
      unfold processDepositAssetOps at processed
      cases here : processDepositAssetOp executeDeposit mainnet subnetContractId sender token db with
      | mk result written =>
          cases result with
          | error message => simp [here] at processed
          | ok receipt =>
              cases later : processDepositAssetOps executeDeposit mainnet rest written with
              | mk laterResult laterDb =>
                  cases laterResult with
                  | error message => simp [here, later] at processed
                  | ok laterReceipts =>
                      simp only [here, later, Prod.mk.injEq, Except.ok.injEq] at processed
                      obtain ⟨kept, sublist, settled⟩ := ih written laterDb laterReceipts later
                      rw [← processed.1]
                      cases receipt with
                      | none => exact ⟨kept, sublist.cons _, settled⟩
                      | some receipt =>
                          have first := process_deposit_asset_op_settled executeDeposit responds
                            mainnet subnetContractId sender token db written receipt here
                          exact ⟨_ :: kept, sublist.cons_cons _, List.Forall₂.cons first settled⟩

end Responds

-- A call that fails at run time leaves no receipt and no refund, and its
-- writes are rolled back.
theorem process_deposit_asset_op_runtime_error (mainnet : Bool)
    (subnetContractId : QualifiedContractIdentifier) (sender : PrincipalData) (token : Token)
    (db after : Db) (error : ClarityError AssetMap)
    (failed : executeDeposit subnetContractId depositFunctionName [token.value, .principal sender]
      db = (.error error, after)) :
    processDepositAssetOp executeDeposit mainnet subnetContractId sender token db =
      (.ok none, db) := by
  simp [processDepositAssetOp, run_contract_call_no_abort, failed]

end Assets

/-! A failing input: an FT deposit of 10 whose subnet contract is not deployed on
the subnet, so `run_contract_call` fails with `NoSuchContract`. -/

def depositor : PrincipalData := .standard ⟨26, List.replicate 20 2⟩

def undeployedContract : QualifiedContractIdentifier := ⟨⟨26, List.replicate 20 2⟩, "simple-ft"⟩

-- The VM on a subnet where `undeployedContract` does not exist; the database is
-- `depositor`'s balance of the token.
def noSuchContract : QualifiedContractIdentifier → String → List Value →
    ClarityRun Nat Nat (Value × Nat × List StacksTransactionEvent) :=
  fun _ _ _ db => (.error (.interpreter .unchecked), db)

theorem deposit_ft_dropped_on_runtime_error :
    processDepositFtOps noSuchContract false [⟨undeployedContract, 10, depositor⟩] 0 =
      (.ok [], 0) := by
  rfl

end Hyperchains.Deposits
