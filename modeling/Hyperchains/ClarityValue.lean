import Mathlib

/-! The Clarity values, principals and tuples that the subnet node builds and
reads. They belong to the external `clarity` crate; only the variants the node's
withdrawal, deposit and transaction code touches are kept. A tuple's `data_map`
is a `BTreeMap` keyed by name, so it is a name-sorted list here: two tuples are
equal exactly when they bind the same names to the same values, whatever order
their fields were written in. A panic (`expect`, `unwrap`, `unreachable!`) is an
`Except String` error carrying the panic text. -/

namespace Hyperchains.ClarityValue

structure StandardPrincipalData where
  version : UInt8
  hash160 : List UInt8
  deriving DecidableEq, Repr

structure QualifiedContractIdentifier where
  issuer : StandardPrincipalData
  name : String
  deriving DecidableEq, Repr

inductive PrincipalData where
  | standard (data : StandardPrincipalData)
  | contract (identifier : QualifiedContractIdentifier)
  deriving DecidableEq, Repr

mutual
inductive Value where
  | uint (amount : Nat)
  | bool (flag : Bool)
  | buff (data : List UInt8)
  | stringAscii (data : String)
  | principal (data : PrincipalData)
  | tuple (data : TupleData)
  | optional (data : OptionalData)
  | response (committed : Bool) (data : Value)
  deriving DecidableEq, Repr

/-- The `data_map` of a tuple, kept sorted by name as `BTreeMap` keeps it. -/
inductive TupleData where
  | nil
  | cons (name : String) (value : Value) (rest : TupleData)
  deriving DecidableEq, Repr

inductive OptionalData where
  | none
  | some (value : Value)
  deriving DecidableEq, Repr
end

namespace TupleData

def get : TupleData → String → Option Value
  | nil, _ => Option.none
  | cons key value rest, name => if name = key then Option.some value else get rest name

/-- `BTreeMap::insert`: overwrite a bound name, otherwise insert in name order. -/
def insert : TupleData → String → Value → TupleData
  | nil, name, value => cons name value nil
  | cons key old rest, name, value =>
      if name < key then cons name value (cons key old rest)
      else if name = key then cons name value rest
      else cons key old (insert rest name value)

def containsKey (data : TupleData) (name : String) : Bool := (data.get name).isSome

/-- `TupleData::from_data` folds the fields into the map and refuses a repeated name. -/
def fromDataInto : TupleData → List (String × Value) → Except String TupleData
  | map, [] => .ok map
  | map, (name, value) :: rest =>
      if map.containsKey name then .error ("NameAlreadyUsed: " ++ name)
      else fromDataInto (map.insert name value) rest

def fromData (fields : List (String × Value)) : Except String TupleData :=
  fromDataInto nil fields

@[simp] theorem get_nil (name : String) : get nil name = Option.none := rfl

theorem get_cons (key name : String) (value : Value) (rest : TupleData) :
    get (cons key value rest) name = if name = key then Option.some value else get rest name := rfl

-- `TupleData` is mutual with `Value`, so the induction is a recursive theorem.
@[simp] theorem get_insert : ∀ (data : TupleData) (name key : String) (value : Value),
    get (insert data name value) key = if key = name then Option.some value else get data key
  | nil, name, key, value => by simp [insert, get_cons]
  | cons other old rest, name, key, value => by
      have ih := get_insert rest name key value
      simp only [insert]
      split
      · simp [get_cons]
      · split
        · rename_i same
          subst same
          by_cases hit : key = name <;> simp [get_cons, hit]
        · rename_i _ different
          by_cases hit : key = name
          · subst hit
            simp [get_cons, different, ih]
          · simp [get_cons, hit, ih]

end TupleData

/-! The `expect_*` accessors of `Value` panic on any other variant. -/

def Value.expectU128 : Value → Except String Nat
  | .uint amount => .ok amount
  | _ => .error "FATAL: not a u128"

def Value.expectPrincipal : Value → Except String PrincipalData
  | .principal data => .ok data
  | _ => .error "FATAL: not a principal"

def Value.expectAscii : Value → Except String String
  | .stringAscii data => .ok data
  | _ => .error "FATAL: not an ASCII string"

def Value.okayTrue : Value := .response true (.bool true)

def Value.errNone : Value := .response false (.optional .none)

/-- The boot address: version 22 (mainnet) or 26 (testnet) over a zero hash. -/
def bootCodeAddr (mainnet : Bool) : StandardPrincipalData :=
  ⟨if mainnet then 22 else 26, List.replicate 20 0⟩

def bootCodeId (name : String) (mainnet : Bool) : QualifiedContractIdentifier :=
  ⟨bootCodeAddr mainnet, name⟩

theorem boot_code_id_injective (name : String) {mainnet other : Bool}
    (same : bootCodeId name mainnet = bootCodeId name other) : mainnet = other := by
  cases mainnet <;> cases other <;> simp_all [bootCodeId, bootCodeAddr]

end Hyperchains.ClarityValue
