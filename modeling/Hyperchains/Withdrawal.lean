import Hyperchains.Library.Panic
import Hyperchains.Events

/-! `clarity_vm/withdrawal.rs`: the withdrawal keys of a block. Every `print`
event of the subnet boot contract whose tuple has a `type` of `"stx"`, `"ft"` or
`"nft"` becomes one key, numbered by its position among such events over the
receipts in order; the number is also written back into the event. A key is
serialized by the external `Value::serialize_to_vec`, and the keys are hashed
into the external `MerkleTree`: both are parameters. -/

namespace Hyperchains.Withdrawal
open ClarityValue Events Panic

def isSubnetContractEvent (contract : QualifiedContractIdentifier) (function : String) : Bool :=
  if function ≠ "print" then false
  else contract = bootCodeId "subnet" true || contract = bootCodeId "subnet" false

def clarityAsciiStr (input : String) : Value := .stringAscii input

def tupleOrPanic (fields : List (String × Value)) : Except String Value :=
  ((TupleData.fromData fields).mapError fun _ =>
    "Withdrawal key tuple is too large for Clarity").map Value.tuple

def makeKeyForStxWithdrawal (recipient : PrincipalData) (withdrawalId amount blockHeight : Nat) :
    Except String Value :=
  tupleOrPanic [("type", clarityAsciiStr "stx"), ("height", .uint blockHeight),
    ("withdrawal-id", .uint withdrawalId), ("recipient", .principal recipient),
    ("amount", .uint amount)]

def makeKeyForNftWithdrawal (sender : PrincipalData) (withdrawalId : Nat)
    (contractIdentifier : QualifiedContractIdentifier) (id blockHeight : Nat) :
    Except String Value :=
  tupleOrPanic [("type", clarityAsciiStr "nft"),
    ("asset-contract", .principal (.contract contractIdentifier)), ("height", .uint blockHeight),
    ("withdrawal-id", .uint withdrawalId), ("recipient", .principal sender), ("nft-id", .uint id)]

def makeKeyForFtWithdrawal (sender : PrincipalData) (withdrawalId : Nat)
    (contractIdentifier : QualifiedContractIdentifier) (amount blockHeight : Nat) :
    Except String Value :=
  tupleOrPanic [("type", clarityAsciiStr "ft"),
    ("asset-contract", .principal (.contract contractIdentifier)), ("height", .uint blockHeight),
    ("withdrawal-id", .uint withdrawalId), ("recipient", .principal sender), ("amount", .uint amount)]

/-- The `asset-contract` of an FT or NFT event must be a contract principal. -/
def assetContractOf (data : TupleData) : Except String QualifiedContractIdentifier := do
  match ← (← unwrap (data.get "asset-contract")).expectPrincipal with
  | .standard _ => .error "internal error: entered unreachable code: invalid principal in withdraw event"
  | .contract contractPrincipal => pure contractPrincipal

def makeKeyForStxWithdrawalEvent (data : TupleData) (withdrawalId blockHeight : Nat) :
    Except String Value := do
  let sender ← (← unwrap (data.get "sender")).expectPrincipal
  let amount ← (← unwrap (data.get "amount")).expectU128
  makeKeyForStxWithdrawal sender withdrawalId amount blockHeight

def makeKeyForNftWithdrawalEvent (data : TupleData) (withdrawalId blockHeight : Nat) :
    Except String Value := do
  let sender ← (← unwrap (data.get "sender")).expectPrincipal
  let id ← (← unwrap (data.get "id")).expectU128
  let contractIdentifier ← assetContractOf data
  makeKeyForNftWithdrawal sender withdrawalId contractIdentifier id blockHeight

def makeKeyForFtWithdrawalEvent (data : TupleData) (withdrawalId blockHeight : Nat) :
    Except String Value := do
  let sender ← (← unwrap (data.get "sender")).expectPrincipal
  let amount ← (← unwrap (data.get "amount")).expectU128
  let contractIdentifier ← assetContractOf data
  makeKeyForFtWithdrawal sender withdrawalId contractIdentifier amount blockHeight

/-- The key of an event tuple whose `type` is `eventType`, if it names a withdrawal. -/
def makeKeyForType (eventType : String) (data : TupleData) (withdrawalId blockHeight : Nat) :
    Except String (Option Value) :=
  match eventType with
  | "stx" => some <$> makeKeyForStxWithdrawalEvent data withdrawalId blockHeight
  | "ft" => some <$> makeKeyForFtWithdrawalEvent data withdrawalId blockHeight
  | "nft" => some <$> makeKeyForNftWithdrawalEvent data withdrawalId blockHeight
  | _ => pure none

theorem make_key_for_type_stx (data : TupleData) (withdrawalId blockHeight : Nat) :
    makeKeyForType "stx" data withdrawalId blockHeight =
      some <$> makeKeyForStxWithdrawalEvent data withdrawalId blockHeight := rfl

theorem make_key_for_type_ft (data : TupleData) (withdrawalId blockHeight : Nat) :
    makeKeyForType "ft" data withdrawalId blockHeight =
      some <$> makeKeyForFtWithdrawalEvent data withdrawalId blockHeight := rfl

theorem make_key_for_type_nft (data : TupleData) (withdrawalId blockHeight : Nat) :
    makeKeyForType "nft" data withdrawalId blockHeight =
      some <$> makeKeyForNftWithdrawalEvent data withdrawalId blockHeight := rfl

/-- `generate_key_from_event`. The event comes back with `withdrawal-id` written
into its tuple, which happens before `type` is looked at. -/
def generateKeyFromEvent (event : StacksTransactionEvent) (withdrawalId blockHeight : Nat) :
    Except String (StacksTransactionEvent × Option Value) :=
  match event with
  | .smartContractEvent ⟨(contract, function), .tuple data⟩ =>
      if !isSubnetContractEvent contract function then pure (event, none) else
      let dataMap := data.insert "withdrawal-id" (.uint withdrawalId)
      let written := StacksTransactionEvent.smartContractEvent ⟨(contract, function), .tuple dataMap⟩
      match dataMap.get "type" with
      | none => pure (written, none)
      | some typeValue => do
          let eventType ← typeValue.expectAscii
          let key ← makeKeyForType eventType dataMap withdrawalId blockHeight
          pure (written, key)
  | _ => pure (event, none)

section Keys
-- The serializer's codomain is left open: `List UInt8` for the node, `Value`
-- (with `id`) to look at the keys themselves.
variable {Item : Type} (serializeToVec : Value → Item)

/-- The inner loop of `generate_withdrawal_keys` over one receipt's events: the
rewritten events, the next withdrawal id and the serialized keys. -/
def generateEventKeys (blockHeight : Nat) :
    List StacksTransactionEvent → Nat →
      Except String (List StacksTransactionEvent × Nat × List Item)
  | [], withdrawalId => pure ([], withdrawalId, [])
  | event :: rest, withdrawalId => do
      let (written, key) ← generateKeyFromEvent event withdrawalId blockHeight
      match key with
      | some key => do
          let (restWritten, next, items) ← generateEventKeys blockHeight rest (withdrawalId + 1)
          pure (written :: restWritten, next, serializeToVec key :: items)
      | none => do
          let (restWritten, next, items) ← generateEventKeys blockHeight rest withdrawalId
          pure (written :: restWritten, next, items)

/-- The outer loop of `generate_withdrawal_keys` over the receipts. -/
def generateReceiptKeys (blockHeight : Nat) :
    List StacksTransactionReceipt → Nat →
      Except String (List StacksTransactionReceipt × Nat × List Item)
  | [], withdrawalId => pure ([], withdrawalId, [])
  | receipt :: rest, withdrawalId => do
      let (events, next, items) ←
        generateEventKeys serializeToVec blockHeight receipt.events withdrawalId
      let (restWritten, last, restItems) ← generateReceiptKeys blockHeight rest next
      pure ({ receipt with events } :: restWritten, last, items ++ restItems)

/-- `generate_withdrawal_keys`: the rewritten receipts and the serialized keys,
withdrawal ids counted from 0. -/
def generateWithdrawalKeys (receipts : List StacksTransactionReceipt) (blockHeight : Nat) :
    Except String (List StacksTransactionReceipt × List Item) :=
  (generateReceiptKeys serializeToVec blockHeight receipts 0).map fun (written, _, items) =>
    (written, items)

/-- `create_withdrawal_merkle_tree`, reduced to the root the callers read. -/
def createWithdrawalMerkleRoot {Hash : Type} (merkleRoot : List Item → Hash)
    (receipts : List StacksTransactionReceipt) (blockHeight : Nat) :
    Except String (List StacksTransactionReceipt × Hash) :=
  (generateWithdrawalKeys serializeToVec receipts blockHeight).map fun (written, items) =>
    (written, merkleRoot items)

/-- The keys read nothing of a receipt but its events: neither its result nor its
post-condition abort flag. -/
theorem generate_receipt_keys_events_only (blockHeight : Nat) :
    ∀ (receipts others : List StacksTransactionReceipt) (withdrawalId : Nat),
      receipts.map (·.events) = others.map (·.events) →
      (generateReceiptKeys serializeToVec blockHeight receipts withdrawalId).map (·.2) =
        (generateReceiptKeys serializeToVec blockHeight others withdrawalId).map (·.2)
  | [], [], _, _ => rfl
  | receipt :: rest, other :: others, withdrawalId, same => by
      simp only [List.map_cons, List.cons.injEq] at same
      obtain ⟨sameEvents, sameRest⟩ := same
      simp only [generateReceiptKeys, sameEvents]
      cases generateEventKeys serializeToVec blockHeight other.events withdrawalId with
      | error message => rfl
      | ok first =>
          -- the two tails start from the same next withdrawal id
          have tails := generate_receipt_keys_events_only blockHeight rest others first.2.1 sameRest
          cases tail : generateReceiptKeys serializeToVec blockHeight rest first.2.1 <;>
            cases otherTail : generateReceiptKeys serializeToVec blockHeight others first.2.1 <;>
              simp_all [Except.map]

theorem generate_withdrawal_keys_events_only (receipts others : List StacksTransactionReceipt)
    (blockHeight : Nat) (same : receipts.map (·.events) = others.map (·.events)) :
    (generateWithdrawalKeys serializeToVec receipts blockHeight).map (·.2) =
      (generateWithdrawalKeys serializeToVec others blockHeight).map (·.2) := by
  have keys := generate_receipt_keys_events_only serializeToVec blockHeight receipts others 0 same
  unfold generateWithdrawalKeys
  cases left : generateReceiptKeys serializeToVec blockHeight receipts 0 <;>
    cases right : generateReceiptKeys serializeToVec blockHeight others 0 <;>
      simp_all [Except.map]

end Keys

end Hyperchains.Withdrawal
