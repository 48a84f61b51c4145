import Mathlib

/-! `chainstate/stacks/index/node.rs`: trie pointers and the five node types
of the MARF. A pointer names a node by its slot in a trie and, when its id has
the high bit set, by the block whose trie holds it (a back-pointer). Node4 and
Node16 find a child by scanning their pointers for the first non-empty one with
the byte; Node48 goes through a 256-entry index; Node256 is indexed by the byte
itself. The fixed-size pointer arrays are functions on their index type. Node
hashes are left out. -/

namespace Hyperchains.Marf

inductive TrieNodeID where
  | empty
  | leaf
  | node4
  | node16
  | node48
  | node256
  deriving DecidableEq, Repr

def TrieNodeID.toU8 : TrieNodeID → UInt8
  | empty => 0
  | leaf => 1
  | node4 => 2
  | node16 => 3
  | node48 => 4
  | node256 => 5

def isBackptr (id : UInt8) : Bool := id &&& 0x80 != 0

def setBackptr (id : UInt8) : UInt8 := id ||| 0x80

def clearBackptr (id : UInt8) : UInt8 := id &&& 0x7f

/-- `TriePtr`; the `u32` slot and block fields never come near `2^32` and are
kept as `Nat`. -/
structure TriePtr where
  id : UInt8
  chr : UInt8
  ptr : Nat
  backBlock : Nat
  deriving DecidableEq, Repr, Inhabited

namespace TriePtr

def new (id chr : UInt8) (ptr : Nat) : TriePtr := ⟨id, chr, ptr, 0⟩

def fromBackptr (p : TriePtr) : TriePtr := ⟨clearBackptr p.id, p.chr, p.ptr, 0⟩

def isEmpty (p : TriePtr) : Bool := p.id == TrieNodeID.empty.toU8

end TriePtr

/-- `MARFValue`: the 40 bytes a leaf stores. -/
structure MARFValue where
  bytes : List UInt8
  length_eq : bytes.length = 40
  deriving DecidableEq

structure TrieLeaf where
  path : List UInt8
  data : MARFValue
  deriving DecidableEq

def TrieLeaf.fromValue (path : List UInt8) (value : MARFValue) : TrieLeaf := ⟨path, value⟩

/-! The scans shared by Node4 and Node16. -/

section Scan
variable {n : Nat}

/-- The first non-empty pointer with the byte. -/
def firstWith (ptrs : Fin n → TriePtr) (chr : UInt8) : Option (Fin n) :=
  (List.finRange n).find? fun i => !(ptrs i).isEmpty && (ptrs i).chr == chr

def firstEmpty (ptrs : Fin n → TriePtr) : Option (Fin n) :=
  (List.finRange n).find? fun i => (ptrs i).isEmpty

def scanWalk (ptrs : Fin n → TriePtr) (chr : UInt8) : Option TriePtr :=
  (firstWith ptrs chr).map ptrs

def scanReplace (ptrs : Fin n → TriePtr) (ptr : TriePtr) : (Fin n → TriePtr) × Bool :=
  match firstWith ptrs ptr.chr with
  | some i => (Function.update ptrs i ptr, true)
  | none => (ptrs, false)

def scanInsert (ptrs : Fin n → TriePtr) (ptr : TriePtr) : (Fin n → TriePtr) × Bool :=
  match scanReplace ptrs ptr with
  | (replaced, true) => (replaced, true)
  | (_, false) =>
      match firstEmpty ptrs with
      | some i => (Function.update ptrs i ptr, true)
      | none => (ptrs, false)

end Scan

structure TrieNode4 where
  path : List UInt8
  ptrs : Fin 4 → TriePtr

structure TrieNode16 where
  path : List UInt8
  ptrs : Fin 16 → TriePtr

/-- `TrieNode48`: `indexes[c]`, when not negative, is the slot of the pointer
for byte `c`. Every index the code writes is below 48, which the structure
records so that the array accesses are in bounds. -/
structure TrieNode48 where
  path : List UInt8
  indexes : UInt8 → Int
  ptrs : Fin 48 → TriePtr
  indexes_lt : ∀ c, indexes c < 48

structure TrieNode256 where
  path : List UInt8
  ptrs : UInt8 → TriePtr

namespace TrieNode4

def new (path : List UInt8) : TrieNode4 := ⟨path, fun _ => default⟩

def walk (node : TrieNode4) (chr : UInt8) : Option TriePtr := scanWalk node.ptrs chr

def replace (node : TrieNode4) (ptr : TriePtr) : TrieNode4 × Bool :=
  let (ptrs, done) := scanReplace node.ptrs ptr
  (⟨node.path, ptrs⟩, done)

def insert (node : TrieNode4) (ptr : TriePtr) : TrieNode4 × Bool :=
  let (ptrs, done) := scanInsert node.ptrs ptr
  (⟨node.path, ptrs⟩, done)

end TrieNode4

namespace TrieNode16

def new (path : List UInt8) : TrieNode16 := ⟨path, fun _ => default⟩

def walk (node : TrieNode16) (chr : UInt8) : Option TriePtr := scanWalk node.ptrs chr

def replace (node : TrieNode16) (ptr : TriePtr) : TrieNode16 × Bool :=
  let (ptrs, done) := scanReplace node.ptrs ptr
  (⟨node.path, ptrs⟩, done)

def insert (node : TrieNode16) (ptr : TriePtr) : TrieNode16 × Bool :=
  let (ptrs, done) := scanInsert node.ptrs ptr
  (⟨node.path, ptrs⟩, done)

def fromNode4 (node4 : TrieNode4) : TrieNode16 where
  path := node4.path
  ptrs := fun i => if h : i.val < 4 then node4.ptrs ⟨i.val, h⟩ else default

end TrieNode16

namespace TrieNode48

def new (path : List UInt8) : TrieNode48 := ⟨path, fun _ => -1, fun _ => default, fun _ => by decide⟩

/-- The slot `indexes[c]` names, when it is not negative. -/
def slotOf (node : TrieNode48) (c : UInt8) : Option (Fin 48) :=
  if h : 0 ≤ node.indexes c then some ⟨(node.indexes c).toNat, by have := node.indexes_lt c; omega⟩
  else none

def walk (node : TrieNode48) (chr : UInt8) : Option TriePtr :=
  match node.slotOf chr with
  | some i => if (node.ptrs i).isEmpty then none else some (node.ptrs i)
  | none => none

def replace (node : TrieNode48) (ptr : TriePtr) : TrieNode48 × Bool :=
  match node.slotOf ptr.chr with
  | some i => ({ node with ptrs := Function.update node.ptrs i ptr }, true)
  | none => (node, false)

def insert (node : TrieNode48) (ptr : TriePtr) : TrieNode48 × Bool :=
  match node.replace ptr with
  | (replaced, true) => (replaced, true)
  | (_, false) =>
      match firstEmpty node.ptrs with
      | some i =>
          ({ path := node.path
             indexes := Function.update node.indexes ptr.chr i.val
             ptrs := Function.update node.ptrs i ptr
             indexes_lt := by
               intro c
               by_cases same : c = ptr.chr
               · subst same
                 simp only [Function.update_self]
                 exact_mod_cast i.isLt
               · simp only [Function.update_of_ne same]
                 exact node.indexes_lt c }, true)
      | none => (node, false)

/-- `from_node16`: the sixteen pointers in order, each byte indexed to its
pointer's slot. -/
def fromNode16 (node16 : TrieNode16) : TrieNode48 where
  path := node16.path
  indexes := (List.finRange 16).foldl
    (fun indexes i => Function.update indexes (node16.ptrs i).chr i.val) fun _ => -1
  ptrs := fun i => if h : i.val < 16 then node16.ptrs ⟨i.val, h⟩ else default
  indexes_lt := by
    -- every index written is a slot below 16
    have bound : ∀ (list : List (Fin 16)) (start : UInt8 → Int), (∀ c, start c < 48) →
        ∀ c, list.foldl (fun indexes i => Function.update indexes (node16.ptrs i).chr i.val)
          start c < 48 := by
      intro list
      induction list with
      | nil => intro start below c; exact below c
      | cons i rest ih =>
          intro start below c
          apply ih
          intro c'
          by_cases same : c' = (node16.ptrs i).chr
          · subst same
            simp only [Function.update_self]
            have := i.isLt
            omega
          · simp only [Function.update_of_ne same]
            exact below c'
    exact bound _ _ (fun _ => by decide)

end TrieNode48

namespace TrieNode256

def new (path : List UInt8) : TrieNode256 := ⟨path, fun _ => default⟩

def walk (node : TrieNode256) (chr : UInt8) : Option TriePtr :=
  if (node.ptrs chr).isEmpty then none else some (node.ptrs chr)

def replace (node : TrieNode256) (ptr : TriePtr) : TrieNode256 × Bool :=
  if !(node.ptrs ptr.chr).isEmpty && (node.ptrs ptr.chr).chr == ptr.chr then
    ({ node with ptrs := Function.update node.ptrs ptr.chr ptr }, true)
  else (node, false)

def insert (node : TrieNode256) (ptr : TriePtr) : TrieNode256 × Bool :=
  match node.replace ptr with
  | (replaced, true) => (replaced, true)
  | (_, false) => ({ node with ptrs := Function.update node.ptrs ptr.chr ptr }, true)

def fromNode4 (node4 : TrieNode4) : TrieNode256 where
  path := node4.path
  ptrs := (List.finRange 4).foldl
    (fun ptrs i => Function.update ptrs (node4.ptrs i).chr (node4.ptrs i)) fun _ => default

def fromNode48 (node48 : TrieNode48) : TrieNode256 where
  path := node48.path
  ptrs := (List.finRange 48).foldl
    (fun ptrs i => Function.update ptrs (node48.ptrs i).chr (node48.ptrs i)) fun _ => default

end TrieNode256

inductive TrieNodeType where
  | node4 (data : TrieNode4)
  | node16 (data : TrieNode16)
  | node48 (data : TrieNode48)
  | node256 (data : TrieNode256)
  | leaf (data : TrieLeaf)

namespace TrieNodeType

def isLeaf : TrieNodeType → Bool
  | leaf _ => true
  | _ => false

def isNode256 : TrieNodeType → Bool
  | node256 _ => true
  | _ => false

def id : TrieNodeType → UInt8
  | node4 _ => TrieNodeID.node4.toU8
  | node16 _ => TrieNodeID.node16.toU8
  | node48 _ => TrieNodeID.node48.toU8
  | node256 _ => TrieNodeID.node256.toU8
  | leaf _ => TrieNodeID.leaf.toU8

def walk : TrieNodeType → UInt8 → Option TriePtr
  | node4 data, chr => data.walk chr
  | node16 data, chr => data.walk chr
  | node48 data, chr => data.walk chr
  | node256 data, chr => data.walk chr
  | leaf _, _ => none

def insert : TrieNodeType → TriePtr → Except String (TrieNodeType × Bool)
  | node4 data, ptr => let (data, done) := data.insert ptr; .ok (node4 data, done)
  | node16 data, ptr => let (data, done) := data.insert ptr; .ok (node16 data, done)
  | node48 data, ptr => let (data, done) := data.insert ptr; .ok (node48 data, done)
  | node256 data, ptr => let (data, done) := data.insert ptr; .ok (node256 data, done)
  | leaf _, _ => .error "can't insert into a leaf"

def replace : TrieNodeType → TriePtr → Except String (TrieNodeType × Bool)
  | node4 data, ptr => let (data, done) := data.replace ptr; .ok (node4 data, done)
  | node16 data, ptr => let (data, done) := data.replace ptr; .ok (node16 data, done)
  | node48 data, ptr => let (data, done) := data.replace ptr; .ok (node48 data, done)
  | node256 data, ptr => let (data, done) := data.replace ptr; .ok (node256 data, done)
  | leaf _, _ => .error "can't replace in a leaf"

/-- `ptrs()`: the whole pointer array, empty slots included. -/
def ptrs : TrieNodeType → List TriePtr
  | node4 data => (List.finRange 4).map data.ptrs
  | node16 data => (List.finRange 16).map data.ptrs
  | node48 data => (List.finRange 48).map data.ptrs
  | node256 data => (List.range 256).map fun c => data.ptrs c.toUInt8
  | leaf _ => []

def pathBytes : TrieNodeType → List UInt8
  | node4 data => data.path
  | node16 data => data.path
  | node48 data => data.path
  | node256 data => data.path
  | leaf data => data.path

def setPath : TrieNodeType → List UInt8 → TrieNodeType
  | node4 data, path => node4 { data with path }
  | node16 data, path => node16 { data with path }
  | node48 data, path => node48 { data with path }
  | node256 data, path => node256 { data with path }
  | leaf data, path => leaf { data with path }

end TrieNodeType

/-- `MARF::node_copy_update_ptrs` on one pointer: a child in the copied node's
own trie becomes a back-pointer into the block it was copied from. -/
def TriePtr.copyUpdate (childBlockId : Nat) (p : TriePtr) : TriePtr :=
  if p.isEmpty || isBackptr p.id then p else { p with backBlock := childBlockId, id := setBackptr p.id }

/-- `MARF::node_copy_update`: a leaf is copied as it is. -/
def TrieNodeType.copyUpdate (childBlockId : Nat) : TrieNodeType → TrieNodeType
  | node4 data => node4 { data with ptrs := TriePtr.copyUpdate childBlockId ∘ data.ptrs }
  | node16 data => node16 { data with ptrs := TriePtr.copyUpdate childBlockId ∘ data.ptrs }
  | node48 data => node48 { data with ptrs := TriePtr.copyUpdate childBlockId ∘ data.ptrs }
  | node256 data => node256 { data with ptrs := TriePtr.copyUpdate childBlockId ∘ data.ptrs }
  | leaf data => leaf data

end Hyperchains.Marf
