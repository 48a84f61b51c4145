import Hyperchains.Marf.Node

/-! `TrieCursor` of `node.rs`: a walk down one key path, recording the nodes it
visited and the pointers it took. `walk` consumes a node's compressed path,
then the byte after it; it stops with `PathDiverged` or `ChrNotFound`, and
hands a back-pointer to the caller with `BackptrEncountered`. The cursor's
`block_hashes` and `last_error` are only read by assertions and are left out. -/

namespace Hyperchains.Marf

/-- `TriePath`: the 32 bytes a key hashes to. -/
structure TriePath where
  bytes : List UInt8
  length_eq : bytes.length = 32

inductive CursorError where
  | pathDiverged
  | backptrEncountered (ptr : TriePtr)
  | chrNotFound
  deriving DecidableEq, Repr

structure TrieCursor where
  path : TriePath
  index : Nat
  nodePathIndex : Nat
  nodes : List TrieNodeType
  nodePtrs : List TriePtr

namespace TrieCursor

def new (path : TriePath) (rootPtr : TriePtr) : TrieCursor := ⟨path, 0, 0, [], [rootPtr]⟩

/-- The byte last consumed. -/
def chr (cursor : TrieCursor) : Option UInt8 :=
  if 0 < cursor.index ∧ cursor.index ≤ cursor.path.bytes.length then
    cursor.path.bytes[cursor.index - 1]?
  else none

def eop (cursor : TrieCursor) : Bool := cursor.index == cursor.path.bytes.length

/-- The last pointer taken; the list starts with the root's. -/
def ptr (cursor : TrieCursor) : TriePtr := cursor.nodePtrs.getLastD default

def node (cursor : TrieCursor) : Option TrieNodeType := cursor.nodes.getLast?

def eonp (cursor : TrieCursor) (node : TrieNodeType) : Bool :=
  cursor.nodePathIndex == node.pathBytes.length

/-- The loop of `walk` over a node's compressed path: `true` when it diverged.
Reading the key past its end is Rust's out-of-bounds panic. -/
def consumePath : List UInt8 → TrieCursor → Except String (Bool × TrieCursor)
  | [], cursor => .ok (false, cursor)
  | b :: rest, cursor =>
      match cursor.path.bytes[cursor.index]? with
      | none => .error "index out of bounds"
      | some byte =>
          if b != byte then .ok (true, cursor)
          else consumePath rest
            { cursor with index := cursor.index + 1, nodePathIndex := cursor.nodePathIndex + 1 }

def walk (cursor : TrieCursor) (node : TrieNodeType) :
    Except String (Except CursorError (Option TriePtr) × TrieCursor) := do
  let cursor := { cursor with nodes := cursor.nodes ++ [node], nodePathIndex := 0 }
  if cursor.index ≥ cursor.path.bytes.length then return (.ok none, cursor)
  let (diverged, cursor) ← consumePath node.pathBytes cursor
  if diverged then return (.error .pathDiverged, cursor)
  match cursor.path.bytes[cursor.index]? with
  | none => return (.ok none, cursor)
  | some chr =>
      let cursor := { cursor with index := cursor.index + 1 }
      match node.walk chr with
      | some ptr =>
          if !isBackptr ptr.id then
            return (.ok (some ptr), { cursor with nodePtrs := cursor.nodePtrs ++ [ptr] })
          else return (.error (.backptrEncountered ptr), cursor)
      | none => return (.error .chrNotFound, cursor)

/-- Make the last node and pointer the given ones, after a node was rewritten
or promoted. -/
def repairRetarget (cursor : TrieCursor) (node : TrieNodeType) (ptr : TriePtr) : TrieCursor :=
  { cursor with
    nodes := cursor.nodes.dropLast ++ [node]
    nodePtrs := cursor.nodePtrs.dropLast ++ [ptr] }

/-- Record a node reached through a back-pointer; the pointer is pushed with its
back-pointer bit so that the root hash update skips it. -/
def repairBackptrStepBackptr (cursor : TrieCursor) (nextNode : TrieNodeType) (ptr : TriePtr) :
    TrieCursor :=
  { cursor with
    nodePtrs := cursor.nodePtrs ++ [TriePtr.new (setBackptr ptr.id) ptr.chr ptr.ptr]
    nodes := cursor.nodes ++ [nextNode] }

def repairBackptrFinish (cursor : TrieCursor) (ptr : TriePtr) : TrieCursor :=
  { cursor with nodePtrs := cursor.nodePtrs ++ [ptr] }

end TrieCursor

end Hyperchains.Marf
