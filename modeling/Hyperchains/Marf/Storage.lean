import Hyperchains.Marf.Cursor

/-! `storage.rs`: tries in RAM and the storage that holds them. The trie being
extended is a `TrieRAM`, an array of nodes whose slot 0 is the root; writing at
the slot one past the end appends. Flushed tries are kept as the arrays they
were, in flush order, and a block's identifier is its position there (the file
and database layout, node hashes and caches are left out). A storage is opened
at one block at a time: reads go to the trie being extended when the open
block is that one, and otherwise to the flushed trie of the open identifier. -/

namespace Hyperchains.Marf

/-- The variants of `index::Error` the modelled code raises, and Rust panics. -/
inductive Error where
  | notFoundError
  | backptrNotFoundError
  | existsError
  | inProgressError
  | writeNotBegunError
  | requestedIdentifierForExtensionTrie
  | notOpenedError
  | blockHashMapCorruptionError
  | corruptionError (message : String)
  | cursorError (error : CursorError)
  | panic (message : String)
  deriving DecidableEq, Repr

/-- Rust's `assert!`. -/
def ensure (condition : Bool) (message : String) : Except Error Unit :=
  if condition then .ok () else .error (.panic message)

/-- `v[i]`, which panics past the end. -/
def index {α : Type} (list : List α) (i : Nat) : Except Error α :=
  match list[i]? with
  | some a => .ok a
  | none => .error (.panic "index out of bounds")

/-- `v[start..]`. -/
def sliceFrom {α : Type} (list : List α) (start : Nat) : Except Error (List α) :=
  if start ≤ list.length then .ok (list.drop start) else .error (.panic "slice index out of range")

/-- `v[0..stop]`. -/
def sliceTo {α : Type} (list : List α) (stop : Nat) : Except Error (List α) :=
  if stop ≤ list.length then .ok (list.take stop) else .error (.panic "slice index out of range")

structure TrieRAM where
  data : List TrieNodeType

namespace TrieRAM

def readNodetype (ram : TrieRAM) (ptr : TriePtr) : Except Error TrieNodeType :=
  match ram.data[ptr.ptr]? with
  | some node => .ok node
  | none => .error .notFoundError

def writeNodetype (ram : TrieRAM) (slot : Nat) (node : TrieNodeType) : Except Error TrieRAM :=
  if slot < ram.data.length then .ok ⟨ram.data.set slot node⟩
  else if slot = ram.data.length then .ok ⟨ram.data ++ [node]⟩
  else .error .notFoundError

def lastPtr (ram : TrieRAM) : Nat := ram.data.length

end TrieRAM

/-- `MarfTrieId`: block identifiers are 32 bytes, shown in hex, with one value
reserved as the sentinel parent of the first block. -/
class MarfTrieId (T : Type) where
  sentinel : T
  toBytes : T → List UInt8
  fromBytes : List UInt8 → T
  display : T → String
  toBytes_length : ∀ t, (toBytes t).length = 32
  fromBytes_toBytes : ∀ t, fromBytes (toBytes t) = t

/-- The slot of the root in every trie, and `root_trieptr`. -/
def rootPtr : Nat := 0

def rootTriePtr : TriePtr := TriePtr.new TrieNodeID.node256.toU8 0 rootPtr

/-- A storage connection: the flushed tries, the trie being extended, and the
block the connection is open at (`cur_block`, `cur_block_id`). -/
structure TrieStorage (T : Type) where
  committed : List (T × TrieRAM)
  uncommitted : Option (T × TrieRAM)
  curBlock : T
  curBlockId : Option Nat

namespace TrieStorage

variable {T : Type} [DecidableEq T] [MarfTrieId T]

def getBlockId (s : TrieStorage T) (bhh : T) : Option Nat :=
  s.committed.findIdx? fun entry => entry.1 = bhh

def isExtending (s : TrieStorage T) (bhh : T) : Bool :=
  match s.uncommitted with
  | some (building, _) => building = bhh
  | none => false

def hasBlock (s : TrieStorage T) (bhh : T) : Bool := (s.getBlockId bhh).isSome

def numBlocks (s : TrieStorage T) : Nat :=
  s.committed.length + (if s.uncommitted.isSome then 1 else 0)

def setBlock (s : TrieStorage T) (bhh : T) (id : Option Nat) : TrieStorage T :=
  { s with curBlock := bhh, curBlockId := id }

def openBlock (s : TrieStorage T) (bhh : T) : Except Error (TrieStorage T) :=
  if bhh = MarfTrieId.sentinel then .ok (s.setBlock bhh (s.getBlockId bhh))
  else if s.isExtending bhh then .ok (s.setBlock bhh none)
  else
    match s.getBlockId bhh with
    | some id => .ok (s.setBlock bhh (some id))
    | none => .error .notFoundError

def openBlockKnownId (s : TrieStorage T) (bhh : T) (id : Nat) : Except Error (TrieStorage T) :=
  if s.isExtending bhh then .error (.panic "BUG: passed id of a currently building block")
  else .ok (s.setBlock bhh (some id))

def openBlockMaybeId (s : TrieStorage T) (bhh : T) : Option Nat → Except Error (TrieStorage T)
  | some id => s.openBlockKnownId bhh id
  | none => s.openBlock bhh

/-- `None` for the block being extended, whose identifier is not known yet. -/
def getBlockIdentifier (s : TrieStorage T) (bhh : T) : Option Nat :=
  if s.isExtending bhh then none else s.getBlockId bhh

def getCurBlockIdentifier (s : TrieStorage T) : Except Error Nat :=
  if s.isExtending s.curBlock then .error .requestedIdentifierForExtensionTrie
  else
    match s.curBlockId with
    | some id => .ok id
    | none => .error .notOpenedError

def getBlockFromLocalId (s : TrieStorage T) (localId : Nat) : Except Error T :=
  match s.committed[localId]? with
  | some (bhh, _) => .ok bhh
  | none => .error .notFoundError

/-- The flushed trie of the open identifier. -/
def readFlushed (s : TrieStorage T) (ptr : TriePtr) : Except Error TrieNodeType :=
  match s.curBlockId with
  | some id =>
      match s.committed[id]? with
      | some (_, ram) => ram.readNodetype ptr.fromBackptr
      | none => .error .notFoundError
  | none => .error .notFoundError

/-- Reads ignore the back-pointer bit and go to the open block's trie. -/
def readNodetype (s : TrieStorage T) (ptr : TriePtr) : Except Error TrieNodeType :=
  match s.uncommitted with
  | some (building, ram) =>
      if building = s.curBlock then ram.readNodetype ptr.fromBackptr else s.readFlushed ptr
  | none => s.readFlushed ptr

def readRoot (s : TrieStorage T) : Except Error TrieNodeType :=
  s.readNodetype (TriePtr.new (setBackptr TrieNodeID.node256.toU8) 0 rootPtr)

/-- Writes only go to the trie being extended, and only while it is open. -/
def writeNodetype (s : TrieStorage T) (slot : Nat) (node : TrieNodeType) :
    Except Error (TrieStorage T) :=
  match s.uncommitted with
  | some (building, ram) =>
      if building = s.curBlock then do
        let ram ← ram.writeNodetype slot node
        return { s with uncommitted := some (building, ram) }
      else .error (.panic "Tried to write to another Trie besides the currently-buffered one.")
  | none => .error (.panic "Tried to write to another Trie besides the currently-buffered one.")

def lastPtr (s : TrieStorage T) : Except Error Nat :=
  match s.uncommitted with
  | some (_, ram) => .ok ram.lastPtr
  | none => .error (.panic "Cannot allocate new ptrs in a Trie that is not in RAM")

/-- `flush`: the trie being extended joins the flushed ones. -/
def flush (s : TrieStorage T) : TrieStorage T :=
  match s.uncommitted with
  | some entry => { s with committed := s.committed ++ [entry], uncommitted := none }
  | none => s

/-- `extend_to_block`: flush what was being extended and start an empty trie at
the new block, which the connection is then open at. -/
def extendToBlock (s : TrieStorage T) (bhh : T) : Except Error (TrieStorage T) :=
  if (s.getBlockId bhh).isSome then .error .existsError
  else .ok { s.flush with uncommitted := some (bhh, ⟨[]⟩), curBlock := bhh, curBlockId := none }

end TrieStorage

end Hyperchains.Marf
