import Hyperchains.Sortition
import Hyperchains.ClarityValue
import Hyperchains.Library.Panic

/-! The L1 event parser (`burnchains/events.rs`). `StacksSubnetOp::try_from_clar_value`
reads the tuple the L1 subnet contract prints into an operation, and
`StacksSubnetBlock::from_new_block_event` keeps the ops of the committed contract
events of the watched contract, skipping the events the parser refuses.

The parser returns an `Err` for a missing field, a principal that is not a
contract, a buffer of the wrong length or an unknown event, but reads its uint,
ASCII and principal fields through `expect_u128`, `expect_ascii` and
`expect_principal`, which panic on any other variant. `ParseFault` keeps the two
apart; a panic ends `from_new_block_event` as an error. The event name is
matched in its `Display` form, in double quotes. The JSON decoding of `NewBlock`
and the contract event's topic are left out. -/

namespace Hyperchains.BurnchainEvents
open ClarityValue Sortition Panic

structure StacksBlockId where
  bytes : List UInt8
  deriving DecidableEq, Repr

structure Sha512Trunc256Sum where
  bytes : List UInt8
  deriving DecidableEq, Repr

inductive AssetType where
  | fungibleToken
  | nonFungibleToken
  deriving DecidableEq, Repr

/-- `AssetType::from_str`. -/
def AssetType.fromStr (s : String) : Except String AssetType :=
  match s with
  | "ft" => .ok .fungibleToken
  | "nft" => .ok .nonFungibleToken
  | _ => .error ("Invalid asset type: " ++ s)

/-- `Display for AssetType`. -/
def AssetType.toString : AssetType → String
  | .fungibleToken => "ft"
  | .nonFungibleToken => "nft"

inductive StacksSubnetOpType where
  | blockCommit (subnetBlockHash : BlockHeaderHash) (withdrawalMerkleRoot : Sha512Trunc256Sum)
  | registerAsset (assetType : AssetType) (l1ContractId l2ContractId : QualifiedContractIdentifier)
  | depositStx (amount : Nat) (sender : PrincipalData)
  | depositFt (l1ContractId subnetContractId : QualifiedContractIdentifier) (name : String)
      (amount : Nat) (sender : PrincipalData)
  | depositNft (l1ContractId subnetContractId : QualifiedContractIdentifier) (id : Nat)
      (sender : PrincipalData)
  | withdrawStx (amount : Nat) (recipient : PrincipalData)
  | withdrawFt (l1ContractId : QualifiedContractIdentifier) (name : String) (amount : Nat)
      (recipient : PrincipalData)
  | withdrawNft (l1ContractId : QualifiedContractIdentifier) (id : Nat) (recipient : PrincipalData)
  deriving DecidableEq, Repr

structure StacksSubnetOp where
  txid : Txid
  inBlock : StacksBlockId
  eventIndex : Nat
  event : StacksSubnetOpType
  deriving DecidableEq, Repr

/-- How `try_from_clar_value` ends without an op: the `Err` it returns, or the
panic of an `expect_*` accessor. -/
inductive ParseFault where
  | err (message : String)
  | panic (message : String)
  deriving DecidableEq, Repr

def ParseFault.IsPanic : ParseFault → Prop
  | .err _ => False
  | .panic _ => True

/-- A parse that returns, with an op or an `Err`, and never panics. -/
def NoPanic {α : Type} (run : Except ParseFault α) : Prop := Avoids ParseFault.IsPanic run

theorem AssetType.from_str_eq_ok {s : String} {assetType : AssetType} :
    AssetType.fromStr s = .ok assetType ↔ s = assetType.toString := by
  unfold fromStr
  split <;> cases assetType <;> simp_all [toString]

@[simp] theorem AssetType.from_str_to_string (assetType : AssetType) :
    AssetType.fromStr assetType.toString = .ok assetType := by
  cases assetType <;> rfl

theorem NoPanic.bind {α β : Type} {run : Except ParseFault α} {next : α → Except ParseFault β}
    (first : NoPanic run) (rest : ∀ value, run = .ok value → NoPanic (next value)) :
    NoPanic (run >>= next) :=
  Avoids.bind first rest

theorem no_panic_ok {α : Type} (value : α) : NoPanic (.ok value : Except ParseFault α) :=
  avoids_ok _ value

theorem no_panic_err {α : Type} (message : String) :
    NoPanic (.error (.err message) : Except ParseFault α) :=
  avoids_error id

/-! The field readers of `try_from_clar_value`, one per shape of code it repeats:
`tuple.get(name).map_err(..)?`, then `.expect_*()`, a contract check or a
32-byte buffer check. -/

def getField (tuple : TupleData) (name : String) : Except ParseFault Value :=
  match tuple.get name with
  | some value => .ok value
  | none => .error (.err ("No '" ++ name ++ "' field in Clarity tuple"))

def expectField {α : Type} (expect : Value → Except String α) (tuple : TupleData) (name : String) :
    Except ParseFault α := do
  let value ← getField tuple name
  (expect value).mapError .panic

def expectContract (label : String) : PrincipalData → Except ParseFault QualifiedContractIdentifier
  | .contract id => .ok id
  | .standard _ => .error (.err ("Expected '" ++ label ++ "' to be a contract principal"))

def expectBuff32 (name : String) : Value → Except ParseFault (List UInt8)
  | .buff data =>
      if data.length ≠ 32 then
        .error (.err ("Expected '" ++ name ++ "' type to be length 32, found " ++
          toString data.length))
      else .ok data
  | _ => .error (.err ("Expected '" ++ name ++ "' type to be buffer"))

/-- `to_string` of an ASCII string. The `escape_default` of its bytes is left
out: it changes no plain name, and only plain names are matched. -/
def displayAscii (data : String) : String := "\"" ++ data ++ "\""

/-- The `match event.as_str()` of `try_from_clar_value`: each known event reads
its fields in the source's order. -/
def parseEvent (tuple : TupleData) (event : String) : Except ParseFault StacksSubnetOpType :=
  match event with
  | "\"block-commit\"" => do
      let blockCommit ← getField tuple "block-commit"
      let blockCommit ← expectBuff32 "block-commit" blockCommit
      let withdrawalMerkleRoot ← getField tuple "withdrawal-root"
      let withdrawalMerkleRoot ← expectBuff32 "withdrawal-root" withdrawalMerkleRoot
      pure (.blockCommit ⟨blockCommit⟩ ⟨withdrawalMerkleRoot⟩)
  | "\"register-contract\"" => do
      let assetTypeString ← expectField Value.expectAscii tuple "asset-type"
      let assetType ← (AssetType.fromStr assetTypeString).mapError fun _ =>
        .err ("Expected 'asset-type' to be a valid asset type, found '" ++ assetTypeString ++ "'")
      let l1Contract ← expectField Value.expectPrincipal tuple "l1-contract"
      let l1ContractId ← expectContract "l1-contract-id" l1Contract
      let l2Contract ← expectField Value.expectPrincipal tuple "l2-contract"
      -- the source reports this field under the `l1-contract-id` label too
      let l2ContractId ← expectContract "l1-contract-id" l2Contract
      pure (.registerAsset assetType l1ContractId l2ContractId)
  | "\"deposit-stx\"" => do
      let amount ← expectField Value.expectU128 tuple "amount"
      let sender ← expectField Value.expectPrincipal tuple "sender"
      pure (.depositStx amount sender)
  | "\"deposit-ft\"" => do
      let l1ContractId ← expectField Value.expectPrincipal tuple "l1-contract-id"
      let l1ContractId ← expectContract "l1-contract-id" l1ContractId
      let name ← expectField Value.expectAscii tuple "ft-name"
      let amount ← expectField Value.expectU128 tuple "ft-amount"
      let sender ← expectField Value.expectPrincipal tuple "sender"
      let subnetContractId ← expectField Value.expectPrincipal tuple "subnet-contract-id"
      let subnetContractId ← expectContract "subnet-contract-id" subnetContractId
      pure (.depositFt l1ContractId subnetContractId name amount sender)
  | "\"deposit-nft\"" => do
      let l1ContractId ← expectField Value.expectPrincipal tuple "l1-contract-id"
      let l1ContractId ← expectContract "l1-contract-id" l1ContractId
      let id ← expectField Value.expectU128 tuple "nft-id"
      let sender ← expectField Value.expectPrincipal tuple "sender"
      let subnetContractId ← expectField Value.expectPrincipal tuple "subnet-contract-id"
      let subnetContractId ← expectContract "subnet-contract-id" subnetContractId
      pure (.depositNft l1ContractId subnetContractId id sender)
  | "\"withdraw-stx\"" => do
      let amount ← expectField Value.expectU128 tuple "amount"
      let recipient ← expectField Value.expectPrincipal tuple "recipient"
      pure (.withdrawStx amount recipient)
  | "\"withdraw-ft\"" => do
      let amount ← expectField Value.expectU128 tuple "ft-amount"
      let l1ContractId ← expectField Value.expectPrincipal tuple "l1-contract-id"
      let l1ContractId ← expectContract "l1-contract-id" l1ContractId
      let name ← expectField Value.expectAscii tuple "ft-name"
      let recipient ← expectField Value.expectPrincipal tuple "recipient"
      pure (.withdrawFt l1ContractId name amount recipient)
  | "\"withdraw-nft\"" => do
      let id ← expectField Value.expectU128 tuple "nft-id"
      let l1ContractId ← expectField Value.expectPrincipal tuple "l1-contract-id"
      let l1ContractId ← expectContract "l1-contract-id" l1ContractId
      let recipient ← expectField Value.expectPrincipal tuple "recipient"
      pure (.withdrawNft l1ContractId id recipient)
  | eventType => .error (.err ("Unexpected 'event' string: " ++ eventType))

/-- `StacksSubnetOp::try_from_clar_value`. -/
def tryFromClarValue (v : Value) (txid : Txid) (eventIndex : Nat) (inBlock : StacksBlockId) :
    Except ParseFault StacksSubnetOp := do
  let tuple ← match v with
    | .tuple tuple => .ok tuple
    | _ => .error (.err "Expected Clarity type to be tuple")
  let event ← getField tuple "event"
  let event ← match event with
    | .stringAscii clarStr => .ok (displayAscii clarStr)
    | _ => .error (.err "Expected 'event' type to be string")
  let event ← parseEvent tuple event
  pure ⟨txid, inBlock, eventIndex, event⟩

inductive TxEventType where
  | contractEvent
  | other
  deriving DecidableEq, Repr

structure ContractEvent where
  contractIdentifier : QualifiedContractIdentifier
  value : Value
  deriving DecidableEq, Repr

structure NewBlockTxEvent where
  txid : Txid
  eventIndex : Nat
  committed : Bool
  eventType : TxEventType
  contractEvent : Option ContractEvent
  deriving DecidableEq, Repr

structure NewBlock where
  blockHeight : Nat
  burnBlockTime : Nat
  indexBlockHash : StacksBlockId
  parentIndexBlockHash : StacksBlockId
  events : List NewBlockTxEvent
  deriving DecidableEq, Repr

structure StacksSubnetBlock where
  currentBlock : StacksBlockId
  parentBlock : StacksBlockId
  blockHeight : Nat
  burnBlockTime : Nat
  ops : List StacksSubnetOp
  deriving DecidableEq, Repr

/-- The closure of the `filter_map` in `from_new_block_event`: the op an event
yields, `none` for an event the block skips, or the text of a panic. -/
def eventOp (subnetContract : QualifiedContractIdentifier) (indexBlockHash : StacksBlockId)
    (e : NewBlockTxEvent) : Except String (Option StacksSubnetOp) :=
  if !e.committed then .ok none
  else if e.eventType ≠ .contractEvent then .ok none
  -- `event_index.try_into()` into a `u32` fails: the event is skipped
  else if 2 ^ 32 ≤ e.eventIndex then .ok none
  else
    match e.contractEvent with
    | none => .ok none
    | some contractEvent =>
        if contractEvent.contractIdentifier ≠ subnetContract then .ok none
        else
          match tryFromClarValue contractEvent.value e.txid e.eventIndex indexBlockHash with
          | .ok op => .ok (some op)
          | .error (.err _) => .ok none
          | .error (.panic message) => .error message

/-- `StacksSubnetBlock::from_new_block_event`. -/
def fromNewBlockEvent (subnetContract : QualifiedContractIdentifier) (b : NewBlock) :
    Except String StacksSubnetBlock := do
  let ops ← b.events.filterMapM (eventOp subnetContract b.indexBlockHash)
  pure ⟨b.indexBlockHash, b.parentIndexBlockHash, b.blockHeight, b.burnBlockTime, ops⟩

/-! What each reader returns, and that only `expectField` can panic. -/

section Readers
variable {tuple : TupleData} {name : String}

theorem get_field_eq_ok {value : Value} : getField tuple name = .ok value ↔ tuple.get name = some value := by
  unfold getField
  split <;> simp_all

theorem expect_field_eq_ok {α : Type} {expect : Value → Except String α} {result : α} :
    expectField expect tuple name = .ok result ↔
      ∃ value, tuple.get name = some value ∧ expect value = .ok result := by
  simp only [expectField, bind_eq_ok_iff, get_field_eq_ok]
  constructor <;> rintro ⟨value, found, expected⟩ <;> refine ⟨value, found, ?_⟩
  · cases ran : expect value <;> simp_all [Except.mapError]
  · simp [expected]

@[simp] theorem expect_u128_eq_ok {v : Value} {amount : Nat} : v.expectU128 = .ok amount ↔ v = .uint amount := by
  cases v <;> simp [Value.expectU128]

@[simp] theorem expect_principal_eq_ok {v : Value} {principal : PrincipalData} :
    v.expectPrincipal = .ok principal ↔ v = .principal principal := by
  cases v <;> simp [Value.expectPrincipal]

@[simp] theorem expect_ascii_eq_ok {v : Value} {data : String} :
    v.expectAscii = .ok data ↔ v = .stringAscii data := by
  cases v <;> simp [Value.expectAscii]

@[simp] theorem expect_contract_eq_ok {label : String} {principal : PrincipalData}
    {id : QualifiedContractIdentifier} : expectContract label principal = .ok id ↔ principal = .contract id := by
  cases principal <;> simp [expectContract]

theorem expect_buff32_eq_ok {v : Value} {data : List UInt8} :
    expectBuff32 name v = .ok data ↔ v = .buff data ∧ data.length = 32 := by
  cases v with
  | buff bytes =>
      by_cases sized : bytes.length = 32
      · simp only [expectBuff32, sized, ne_eq, not_true_eq_false, ↓reduceIte, Except.ok.injEq,
          Value.buff.injEq]
        constructor
        · rintro rfl
          exact ⟨rfl, sized⟩
        · rintro ⟨rfl, -⟩
          rfl
      · simp only [expectBuff32, sized, ne_eq, not_false_eq_true, ↓reduceIte, reduceCtorEq,
          Value.buff.injEq, false_iff, not_and]
        rintro rfl
        exact sized
  | _ => simp [expectBuff32]

theorem get_field_no_panic : NoPanic (getField tuple name) := by
  unfold getField
  split
  · exact no_panic_ok _
  · exact no_panic_err _

theorem expect_contract_no_panic (label : String) (principal : PrincipalData) :
    NoPanic (expectContract label principal) := by
  cases principal
  · exact no_panic_err _
  · exact no_panic_ok _

theorem expect_buff32_no_panic (v : Value) : NoPanic (expectBuff32 name v) := by
  unfold expectBuff32
  split
  · split
    · exact no_panic_err _
    · exact no_panic_ok _
  · exact no_panic_err _

end Readers

/-! Where the parser panics. Each known event reads some of its fields through
an `expect_*` accessor; `expectReads` lists them, in the order the branch reads
them, with the variant the accessor takes. -/

inductive FieldKind where
  | uint
  | ascii
  | principal
  deriving DecidableEq, Repr

def FieldKind.admits : FieldKind → Value → Bool
  | .uint, .uint _ => true
  | .ascii, .stringAscii _ => true
  | .principal, .principal _ => true
  | _, _ => false

def expectReads (event : String) : List (String × FieldKind) :=
  match event with
  | "\"register-contract\"" =>
      [("asset-type", .ascii), ("l1-contract", .principal), ("l2-contract", .principal)]
  | "\"deposit-stx\"" => [("amount", .uint), ("sender", .principal)]
  | "\"deposit-ft\"" =>
      [("l1-contract-id", .principal), ("ft-name", .ascii), ("ft-amount", .uint),
        ("sender", .principal), ("subnet-contract-id", .principal)]
  | "\"deposit-nft\"" =>
      [("l1-contract-id", .principal), ("nft-id", .uint), ("sender", .principal),
        ("subnet-contract-id", .principal)]
  | "\"withdraw-stx\"" => [("amount", .uint), ("recipient", .principal)]
  | "\"withdraw-ft\"" =>
      [("ft-amount", .uint), ("l1-contract-id", .principal), ("ft-name", .ascii),
        ("recipient", .principal)]
  | "\"withdraw-nft\"" => [("nft-id", .uint), ("l1-contract-id", .principal), ("recipient", .principal)]
  | _ => []

/-- Every field the event reads through an `expect_*` accessor, where the tuple
binds it, has the variant the accessor takes. -/
def Kinded (tuple : TupleData) (event : String) : Bool :=
  (expectReads event).all fun read => (tuple.get read.1).all read.2.admits

/-- A value on which no `expect_*` accessor of the parser is reached with the
wrong variant. -/
def valueKinded : Value → Bool
  | .tuple tuple =>
      match tuple.get "event" with
      | some (.stringAscii clarStr) => Kinded tuple (displayAscii clarStr)
      | _ => true
  | _ => true

section Panics
variable {tuple : TupleData} {name : String}

theorem expect_field_no_panic {α : Type} {expect : Value → Except String α} (kind : FieldKind)
    (total : ∀ v, kind.admits v = true → ∃ result, expect v = .ok result)
    (kinded : (tuple.get name).all kind.admits = true) : NoPanic (expectField expect tuple name) := by
  unfold expectField
  refine NoPanic.bind get_field_no_panic fun value found => ?_
  obtain ⟨result, expected⟩ := total value (by simpa [(get_field_eq_ok).mp found] using kinded)
  rw [expected]
  exact no_panic_ok result

theorem expect_u128_total (v : Value) (admitted : FieldKind.uint.admits v = true) :
    ∃ amount, v.expectU128 = .ok amount := by
  cases v <;> simp_all [FieldKind.admits]

theorem expect_ascii_total (v : Value) (admitted : FieldKind.ascii.admits v = true) :
    ∃ data, v.expectAscii = .ok data := by
  cases v <;> simp_all [FieldKind.admits]

theorem expect_principal_total (v : Value) (admitted : FieldKind.principal.admits v = true) :
    ∃ principal, v.expectPrincipal = .ok principal := by
  cases v <;> simp_all [FieldKind.admits]

theorem no_panic_map_error_err {ε α : Type} (run : Except ε α) (message : ε → String) :
    NoPanic (run.mapError fun error => .err (message error)) := by
  cases run with
  | error error => exact no_panic_err _
  | ok value => exact no_panic_ok value

theorem parse_event_no_panic (event : String) (kinded : Kinded tuple event = true) :
    NoPanic (parseEvent tuple event) := by
  have read : ∀ {name kind}, (name, kind) ∈ expectReads event →
      (tuple.get name).all kind.admits = true :=
    fun listed => List.all_eq_true.mp kinded _ listed
  unfold parseEvent
  split
  -- every branch is a chain of reads; a read through an accessor is one that
  -- `expectReads` lists, and every other step returns `Err` at worst
  all_goals
    repeat' first
      | exact no_panic_ok _
      | exact no_panic_err _
      | exact get_field_no_panic
      | exact expect_contract_no_panic _ _
      | exact expect_buff32_no_panic _
      | exact no_panic_map_error_err _ _
      | exact expect_field_no_panic .uint expect_u128_total (read (by simp [expectReads]))
      | exact expect_field_no_panic .ascii expect_ascii_total (read (by simp [expectReads]))
      | exact expect_field_no_panic .principal expect_principal_total (read (by simp [expectReads]))
      | refine NoPanic.bind ?_ fun _ _ => ?_

theorem expect_field_panics {α : Type} {expect : Value → Except String α} {kind : FieldKind}
    {field : Value} (refuses : ∀ v, kind.admits v = false → ∃ message, expect v = .error message)
    (present : tuple.get name = some field) (wrong : kind.admits field = false) :
    ∃ message, expectField expect tuple name = .error (.panic message) := by
  obtain ⟨message, refused⟩ := refuses field wrong
  refine ⟨message, ?_⟩
  simp [expectField, getField, present, refused, Except.mapError]

theorem expect_u128_refuses (v : Value) (wrong : FieldKind.uint.admits v = false) :
    ∃ message, v.expectU128 = .error message := by
  cases v <;> simp_all [FieldKind.admits, Value.expectU128]

theorem expect_ascii_refuses (v : Value) (wrong : FieldKind.ascii.admits v = false) :
    ∃ message, v.expectAscii = .error message := by
  cases v <;> simp_all [FieldKind.admits, Value.expectAscii]

theorem expect_principal_refuses (v : Value) (wrong : FieldKind.principal.admits v = false) :
    ∃ message, v.expectPrincipal = .error message := by
  cases v <;> simp_all [FieldKind.admits, Value.expectPrincipal]

/-- Every event that reads a field through an accessor reads one first, before
any check that could return `Err`: a wrong variant there panics. -/
theorem parse_event_panics {event : String} {kind : FieldKind} {field : Value}
    (leading : (expectReads event).head? = some (name, kind)) (present : tuple.get name = some field)
    (wrong : kind.admits field = false) :
    ∃ message, parseEvent tuple event = .error (.panic message) := by
  unfold parseEvent
  split
  case h_1 => simp [expectReads] at leading
  case h_9 =>
    -- an unknown event reads nothing
    unfold expectReads at leading
    split at leading <;> simp_all
  -- the seven other branches start with the accessor that `expectReads` lists first
  all_goals
    simp only [expectReads, List.head?_cons, Option.some.injEq, Prod.mk.injEq] at leading
    obtain ⟨rfl, rfl⟩ := leading
    first
      | obtain ⟨message, panicked⟩ := expect_field_panics expect_u128_refuses present wrong
        exact ⟨message, by rw [panicked]; rfl⟩
      | obtain ⟨message, panicked⟩ := expect_field_panics expect_ascii_refuses present wrong
        exact ⟨message, by rw [panicked]; rfl⟩
      | obtain ⟨message, panicked⟩ := expect_field_panics expect_principal_refuses present wrong
        exact ⟨message, by rw [panicked]; rfl⟩

end Panics

/-! What a parsed op carries: the parser returns an op exactly when the tuple
binds the op's event name and each of its fields to the value the op holds. -/

def StacksSubnetOpType.eventName : StacksSubnetOpType → String
  | .blockCommit .. => "block-commit"
  | .registerAsset .. => "register-contract"
  | .depositStx .. => "deposit-stx"
  | .depositFt .. => "deposit-ft"
  | .depositNft .. => "deposit-nft"
  | .withdrawStx .. => "withdraw-stx"
  | .withdrawFt .. => "withdraw-ft"
  | .withdrawNft .. => "withdraw-nft"

/-- The fields an op is read from, each with the value that gives the op. -/
def StacksSubnetOpType.fields : StacksSubnetOpType → List (String × Value)
  | .blockCommit hash root => [("block-commit", .buff hash.bytes), ("withdrawal-root", .buff root.bytes)]
  | .registerAsset assetType l1ContractId l2ContractId =>
      [("asset-type", .stringAscii assetType.toString),
        ("l1-contract", .principal (.contract l1ContractId)),
        ("l2-contract", .principal (.contract l2ContractId))]
  | .depositStx amount sender => [("amount", .uint amount), ("sender", .principal sender)]
  | .depositFt l1ContractId subnetContractId name amount sender =>
      [("l1-contract-id", .principal (.contract l1ContractId)), ("ft-name", .stringAscii name),
        ("ft-amount", .uint amount), ("sender", .principal sender),
        ("subnet-contract-id", .principal (.contract subnetContractId))]
  | .depositNft l1ContractId subnetContractId id sender =>
      [("l1-contract-id", .principal (.contract l1ContractId)), ("nft-id", .uint id),
        ("sender", .principal sender), ("subnet-contract-id", .principal (.contract subnetContractId))]
  | .withdrawStx amount recipient => [("amount", .uint amount), ("recipient", .principal recipient)]
  | .withdrawFt l1ContractId name amount recipient =>
      [("ft-amount", .uint amount), ("l1-contract-id", .principal (.contract l1ContractId)),
        ("ft-name", .stringAscii name), ("recipient", .principal recipient)]
  | .withdrawNft l1ContractId id recipient =>
      [("nft-id", .uint id), ("l1-contract-id", .principal (.contract l1ContractId)),
        ("recipient", .principal recipient)]

/-- The hashes of a block commit are 32 bytes long, as the contract's
`(buff 32)` arguments are. -/
def StacksSubnetOpType.WellFormed : StacksSubnetOpType → Prop
  | .blockCommit hash root => hash.bytes.length = 32 ∧ root.bytes.length = 32
  | _ => True

/-- The tuple binds each name to its value. -/
def Binds (tuple : TupleData) (fields : List (String × Value)) : Prop :=
  ∀ field ∈ fields, tuple.get field.1 = some field.2

theorem display_ascii_injective {data other : String} (same : displayAscii data = displayAscii other) :
    data = other := by
  simpa [displayAscii] using same

section Fields
variable {tuple : TupleData}

theorem parse_event_eq_ok {event : String} {op : StacksSubnetOpType}
    (parsed : parseEvent tuple event = .ok op) :
    event = displayAscii op.eventName ∧ op.WellFormed ∧ Binds tuple op.fields := by
  unfold parseEvent at parsed
  split at parsed
  -- peel each branch's reads into what the tuple binds
  all_goals
    simp only [bind_eq_ok_iff, get_field_eq_ok, expect_field_eq_ok, expect_buff32_eq_ok,
      expect_u128_eq_ok, expect_ascii_eq_ok, expect_principal_eq_ok, expect_contract_eq_ok,
      map_error_eq_ok, AssetType.from_str_eq_ok, pure_eq_ok, Except.ok.injEq, reduceCtorEq,
      exists_eq_right] at parsed
  all_goals
    casesm* (∃ _, _), _ ∧ _
    subst_vars
    simp_all [Binds, StacksSubnetOpType.fields, StacksSubnetOpType.WellFormed,
      StacksSubnetOpType.eventName, displayAscii]

theorem parse_event_of_fields {op : StacksSubnetOpType} (wellFormed : op.WellFormed)
    (binds : Binds tuple op.fields) : parseEvent tuple (displayAscii op.eventName) = .ok op := by
  cases op
  all_goals
    simp only [Binds, StacksSubnetOpType.fields, List.forall_mem_cons, List.not_mem_nil,
      IsEmpty.forall_iff, implies_true, and_true] at binds
    simp only [StacksSubnetOpType.WellFormed] at wellFormed
    simp [parseEvent, displayAscii, StacksSubnetOpType.eventName, getField, expectField, binds,
      wellFormed, Value.expectU128, Value.expectAscii, Value.expectPrincipal, Except.mapError,
      expectContract, expectBuff32]

end Fields

section Parser
variable {txid : Txid} {eventIndex : Nat} {inBlock : StacksBlockId}

/-- `try_from_clar_value` returns an op exactly when the value is a tuple that
binds the op's event name and each of its fields; the op keeps the txid, index
and block it is given. -/
theorem try_from_clar_value_eq_ok {v : Value} {op : StacksSubnetOp} :
    tryFromClarValue v txid eventIndex inBlock = .ok op ↔
      op.txid = txid ∧ op.inBlock = inBlock ∧ op.eventIndex = eventIndex ∧ op.event.WellFormed ∧
        ∃ tuple, v = .tuple tuple ∧
          Binds tuple (("event", .stringAscii op.event.eventName) :: op.event.fields) := by
  constructor
  · intro parsed
    cases v
    case tuple tuple =>
      simp only [tryFromClarValue, ok_bind] at parsed
      obtain ⟨eventValue, named, parsed⟩ := bind_eq_ok parsed
      -- only an ASCII event name gets past the second check
      cases eventValue
      case stringAscii clarStr =>
        obtain ⟨opType, parsedEvent, wrapped⟩ := bind_eq_ok parsed
        obtain ⟨shown, wellFormed, binds⟩ := parse_event_eq_ok parsedEvent
        cases wrapped
        refine ⟨rfl, rfl, rfl, wellFormed, tuple, rfl, ?_⟩
        rw [display_ascii_injective shown] at named
        intro field mem
        rcases List.mem_cons.mp mem with same | inFields
        · subst same
          exact get_field_eq_ok.mp named
        · exact binds field inFields
      all_goals simp at parsed
    all_goals simp [tryFromClarValue] at parsed
  · rintro ⟨sameTxid, sameBlock, sameIndex, wellFormed, tuple, rfl, binds⟩
    have named : tuple.get "event" = some (.stringAscii op.event.eventName) :=
      binds _ List.mem_cons_self
    have parsed := parse_event_of_fields wellFormed fun field mem =>
      binds field (List.mem_cons_of_mem _ mem)
    obtain ⟨_, _, _, event⟩ := op
    subst sameTxid sameBlock sameIndex
    simp [tryFromClarValue, getField, named, parsed]

theorem try_from_clar_value_no_panic (v : Value) (kinded : valueKinded v = true) :
    NoPanic (tryFromClarValue v txid eventIndex inBlock) := by
  cases v
  case tuple tuple =>
    simp only [tryFromClarValue, ok_bind]
    refine NoPanic.bind get_field_no_panic fun eventValue named => ?_
    cases eventValue
    case stringAscii clarStr =>
      -- the tuple names a known event or not; either way its reads are kinded
      have readsKinded : Kinded tuple (displayAscii clarStr) = true := by
        simpa [valueKinded, get_field_eq_ok.mp named] using kinded
      exact NoPanic.bind (parse_event_no_panic _ readsKinded) fun _ _ => no_panic_ok _
    all_goals exact no_panic_err _
  all_goals exact no_panic_err _

theorem try_from_clar_value_panics {tuple : TupleData} {clarStr name : String} {kind : FieldKind}
    {field : Value} (named : tuple.get "event" = some (.stringAscii clarStr))
    (leading : (expectReads (displayAscii clarStr)).head? = some (name, kind))
    (present : tuple.get name = some field) (wrong : kind.admits field = false) :
    ∃ message, tryFromClarValue (.tuple tuple) txid eventIndex inBlock = .error (.panic message) := by
  obtain ⟨message, panicked⟩ := parse_event_panics leading present wrong
  exact ⟨message, by simp [tryFromClarValue, getField, named, panicked]⟩

end Parser

/-! A block's events, one by one: the `filter_map` keeps the ops of committed
contract events of the subnet contract, skips every other event and every `Err`
of the parser, and stops at its first panic. -/

section Block
variable {subnetContract : QualifiedContractIdentifier} {indexBlockHash : StacksBlockId}

theorem event_op_eq_some {e : NewBlockTxEvent} {op : StacksSubnetOp}
    (kept : eventOp subnetContract indexBlockHash e = .ok (some op)) :
    e.committed = true ∧ e.eventType = .contractEvent ∧ e.eventIndex < 2 ^ 32 ∧
      ∃ contractEvent, e.contractEvent = some contractEvent ∧
        contractEvent.contractIdentifier = subnetContract ∧
        tryFromClarValue contractEvent.value e.txid e.eventIndex indexBlockHash = .ok op := by
  unfold eventOp at kept
  repeat' split at kept
  all_goals simp_all

theorem event_op_ok (e : NewBlockTxEvent)
    (kinded : ∀ contractEvent, e.contractEvent = some contractEvent →
      valueKinded contractEvent.value = true) :
    ∃ kept, eventOp subnetContract indexBlockHash e = .ok kept := by
  unfold eventOp
  repeat' split
  -- only a panic of the parser fails the closure, and a kinded value raises none
  all_goals try exact ⟨_, rfl⟩
  -- what is left is a panic of the parser, which a kinded value never raises
  rename_i contractEvent present _ _ message panicked
  exact absurd trivial (try_from_clar_value_no_panic contractEvent.value
    (kinded contractEvent present) _ panicked)

theorem event_op_panics {e : NewBlockTxEvent} {contractEvent : ContractEvent} {message : String}
    (committed : e.committed = true) (isContractEvent : e.eventType = .contractEvent)
    (fits : e.eventIndex < 2 ^ 32) (present : e.contractEvent = some contractEvent)
    (watched : contractEvent.contractIdentifier = subnetContract)
    (panicked : tryFromClarValue contractEvent.value e.txid e.eventIndex indexBlockHash =
      .error (.panic message)) :
    eventOp subnetContract indexBlockHash e = .error message := by
  have fits' : e.eventIndex < 4294967296 := fits
  simp [eventOp, committed, isContractEvent, fits', present, watched, panicked]

/-- A block whose contract events carry kinded values is parsed without a panic. -/
theorem from_new_block_event_ok (b : NewBlock)
    (kinded : ∀ e ∈ b.events, ∀ contractEvent, e.contractEvent = some contractEvent →
      valueKinded contractEvent.value = true) :
    ∃ block, fromNewBlockEvent subnetContract b = .ok block := by
  obtain ⟨ops, collected⟩ := filter_map_m_ok fun e mem =>
    @event_op_ok subnetContract b.indexBlockHash e (kinded e mem)
  exact ⟨_, by rw [fromNewBlockEvent, collected]; rfl⟩

/-- Every op of a parsed block comes from a committed contract event of the
subnet contract in that block, with the event's txid and index, and its tuple
binds the op's event name and fields. -/
theorem from_new_block_event_ops {b : NewBlock} {block : StacksSubnetBlock}
    (parsed : fromNewBlockEvent subnetContract b = .ok block) :
    block.currentBlock = b.indexBlockHash ∧ block.parentBlock = b.parentIndexBlockHash ∧
      ∀ op ∈ block.ops, op.inBlock = b.indexBlockHash ∧ op.event.WellFormed ∧
        ∃ e ∈ b.events, e.committed = true ∧ e.eventType = .contractEvent ∧
          op.txid = e.txid ∧ op.eventIndex = e.eventIndex ∧ e.eventIndex < 2 ^ 32 ∧
          ∃ contractEvent, e.contractEvent = some contractEvent ∧
            contractEvent.contractIdentifier = subnetContract ∧
            ∃ tuple, contractEvent.value = .tuple tuple ∧
              Binds tuple (("event", .stringAscii op.event.eventName) :: op.event.fields) := by
  obtain ⟨ops, collected, built⟩ := bind_eq_ok parsed
  cases built
  refine ⟨rfl, rfl, fun op mem => ?_⟩
  obtain ⟨e, inEvents, kept⟩ := mem_of_filter_map_m_eq_ok collected op mem
  obtain ⟨committed, isContractEvent, fits, contractEvent, present, watched, ranParse⟩ :=
    event_op_eq_some kept
  obtain ⟨sameTxid, sameBlock, sameIndex, wellFormed, tuple, isTuple, binds⟩ :=
    try_from_clar_value_eq_ok.mp ranParse
  exact ⟨sameBlock, wellFormed, e, inEvents, committed, isContractEvent, sameTxid, sameIndex, fits,
    contractEvent, present, watched, tuple, isTuple, binds⟩

/-- A committed event of the subnet contract whose tuple names a known event,
but binds the first field that event reads through an accessor to another
variant, makes `from_new_block_event` panic, whatever else the block holds. -/
theorem from_new_block_event_panics {b : NewBlock} {e : NewBlockTxEvent}
    {contractEvent : ContractEvent} {tuple : TupleData} {clarStr name : String} {kind : FieldKind}
    {field : Value} (inEvents : e ∈ b.events) (committed : e.committed = true)
    (isContractEvent : e.eventType = .contractEvent) (fits : e.eventIndex < 2 ^ 32)
    (present : e.contractEvent = some contractEvent)
    (watched : contractEvent.contractIdentifier = subnetContract)
    (isTuple : contractEvent.value = .tuple tuple)
    (named : tuple.get "event" = some (.stringAscii clarStr))
    (leading : (expectReads (displayAscii clarStr)).head? = some (name, kind))
    (bound : tuple.get name = some field) (wrong : kind.admits field = false) :
    ∃ message, fromNewBlockEvent subnetContract b = .error message := by
  have panics : ∃ message, tryFromClarValue contractEvent.value e.txid e.eventIndex
      b.indexBlockHash = .error (.panic message) := by
    rw [isTuple]
    exact try_from_clar_value_panics named leading bound wrong
  obtain ⟨message, panicked⟩ := panics
  have failed := event_op_panics committed isContractEvent fits present watched panicked
  obtain ⟨first, collected⟩ := filter_map_m_error inEvents failed
  exact ⟨first, by rw [fromNewBlockEvent, collected]; rfl⟩

/-- The watched contract of the witness below. -/
def watchedContract : QualifiedContractIdentifier := ⟨⟨26, List.replicate 20 0⟩, "subnet"⟩

/-- A `register-contract` print with `u1` for its asset type. -/
def uintAssetTypeTuple : TupleData :=
  .cons "asset-type" (.uint 1) (.cons "event" (.stringAscii "register-contract")
    (.cons "l1-contract" (.principal (.contract watchedContract))
      (.cons "l2-contract" (.principal (.contract watchedContract)) .nil)))

def uintAssetTypeBlock : NewBlock :=
  ⟨1, 0, ⟨[2]⟩, ⟨[3]⟩, [⟨⟨[1]⟩, 0, true, .contractEvent,
    some ⟨watchedContract, .tuple uintAssetTypeTuple⟩⟩]⟩

theorem uint_asset_type_block_panics :
    ∃ message, fromNewBlockEvent watchedContract uintAssetTypeBlock = .error message :=
  @from_new_block_event_panics watchedContract uintAssetTypeBlock _ _ uintAssetTypeTuple
    "register-contract" "asset-type" .ascii (.uint 1) List.mem_cons_self rfl rfl (by decide) rfl rfl
    rfl rfl rfl rfl rfl

end Block

end Hyperchains.BurnchainEvents
