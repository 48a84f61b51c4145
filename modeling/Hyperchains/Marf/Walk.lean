import Hyperchains.Marf.Trie

/-! The static methods of `MARF` in `marf.rs` that walk and extend the forest of
tries. A lookup walks the trie of its block and follows back-pointers into the
tries of earlier blocks. An insertion first walks copy-on-write: every node on
the key's path that still lives in an earlier trie is copied into the trie
being extended, its own children turned into back-pointers to where they are;
the parent keeps its back-pointer until `recalculate_root_hash` runs. Both
walks take at most one step per byte of the key and one more. -/

namespace Hyperchains.Marf

namespace MARF

variable {T : Type} [DecidableEq T] [MarfTrieId T]

/-- `MARF::walk_backptr`: take the back-pointer of a node for a byte. -/
def walkBackptr (s : TrieStorage T) (startNode : TrieNodeType) (chr : UInt8) (cursor : TrieCursor) :
    Except Error (TrieNodeType × TriePtr × Nat × TrieStorage T × TrieCursor) := do
  if startNode.isLeaf then throw (.panic "Did not get an intermediate node")
  match startNode.walk chr with
  | none => throw .backptrNotFoundError
  | some ptr =>
      let (node, nodePtr, s, cursor) ← Trie.walkBackptr s ptr cursor
      return (node, nodePtr, ptr.backBlock, s, cursor)

/-- `node_child_copy`: bring the child of a node for a byte into the trie being
extended, as it was in its block but with its local children turned into
back-pointers to that block. -/
def nodeChildCopy (s : TrieStorage T) (node : TrieNodeType) (chr : UInt8) (cursor : TrieCursor) :
    Except Error (TrieNodeType × TriePtr × TrieStorage T × TrieCursor) := do
  let curBlockHash := s.curBlock
  let curBlockId := s.curBlockId
  let (childNode, childPtr, _, s, cursor) ← walkBackptr s node chr cursor
  let childBlockIdentifier ← s.getCurBlockIdentifier
  let s ← s.openBlockMaybeId curBlockHash curBlockId
  let childNode := childNode.copyUpdate childBlockIdentifier
  let s ← s.openBlockMaybeId curBlockHash curBlockId
  let childDiskPtr ← s.lastPtr
  let childPtr := TriePtr.new childPtr.id chr childDiskPtr
  let s ← s.writeNodetype childDiskPtr childNode
  return (childNode, childPtr, s, cursor)

/-- `root_copy`: the new trie's root is its parent's, pointing back into it. -/
def rootCopy (s : TrieStorage T) (prevBlockHash : T) : Except Error (TrieStorage T) := do
  let curBlockHash := s.curBlock
  let curBlockId := s.curBlockId
  let s ← s.openBlock prevBlockHash
  let prevBlockIdentifier ← match s.getCurBlockIdentifier with
    | .ok id => pure id
    | .error _ => throw (.panic "called open_block, but found no identifier")
  let prevRoot ← s.readRoot
  let s ← s.openBlockMaybeId curBlockHash curBlockId
  s.writeNodetype rootPtr (prevRoot.copyUpdate prevBlockIdentifier)

/-- `extend_trie`: open the trie of `newBhh`, creating it from the open block. -/
def extendTrie (s : TrieStorage T) (newBhh : T) : Except Error (TrieStorage T) := do
  let curBhh := s.curBlock
  let curBlockId := s.curBlockId
  if s.numBlocks == 0 || curBhh == MarfTrieId.sentinel then
    let s ← s.extendToBlock newBhh
    s.writeNodetype rootPtr (.node256 (TrieNode256.new []))
  else
    match s.openBlock newBhh with
    | .ok s => return s
    | .error .notFoundError =>
        let s ← s.openBlockMaybeId curBhh curBlockId
        let s ← s.extendToBlock newBhh
        let s ← rootCopy s curBhh
        s.openBlock newBhh
    | .error error => throw error

/-- The loop of `walk_cow`; `nodePtr` is the pointer the node was reached by. -/
def walkCowLoop (blockHash : T) (blockId : Option Nat) :
    Nat → TrieStorage T → TrieCursor → TrieNodeType → TriePtr →
      Except Error (TrieCursor × TrieStorage T)
  | 0, _, _, _, _ => .error (.corruptionError "Trie has a cycle")
  | fuel + 1, s, cursor, node, nodePtr => do
      let (step, cursor) ← Trie.walkFromNohash s node cursor
      match step with
      | .ok (some (nextPtr, next)) => walkCowLoop blockHash blockId fuel s cursor next nextPtr
      | .ok none =>
          if !node.isLeaf || clearBackptr nodePtr.id != TrieNodeID.leaf.toU8 then
            throw (.corruptionError "Non-leaf encountered at end of path")
          let s ← s.openBlockMaybeId blockHash blockId
          return (cursor, s)
      | .error .pathDiverged =>
          let s ← s.openBlockMaybeId blockHash blockId
          return (cursor, s)
      | .error .chrNotFound =>
          let s ← s.openBlockMaybeId blockHash blockId
          return (cursor, s)
      | .error (.backptrEncountered ptr) =>
          let s ← s.openBlockMaybeId blockHash blockId
          let (next, nextPtr, s, cursor) ← nodeChildCopy s node ptr.chr cursor
          let cursor := cursor.repairBackptrFinish nextPtr
          let s ← s.openBlockMaybeId blockHash blockId
          walkCowLoop blockHash blockId fuel s cursor next nextPtr

def walkCow (s : TrieStorage T) (blockHash : T) (path : TriePath) :
    Except Error (TrieCursor × TrieStorage T) := do
  let blockId := s.getBlockIdentifier blockHash
  let s ← extendTrie s blockHash
  let node ← s.readRoot
  walkCowLoop blockHash blockId (path.bytes.length + 1) s (TrieCursor.new path rootTriePtr) node
    (TriePtr.new 0 0 0)

/-- The loop of `MARF::walk`. -/
def walkLoop : Nat → TrieStorage T → TrieCursor → TrieNodeType →
    Except Error (TrieCursor × TrieNodeType × TrieStorage T)
  | 0, _, _, _ => .error (.corruptionError "Trie has a cycle")
  | fuel + 1, s, cursor, node => do
      let (step, cursor) ← Trie.walkFromNohash s node cursor
      match step with
      | .ok (some (_, next)) => walkLoop fuel s cursor next
      | .ok none =>
          if clearBackptr cursor.ptr.id != TrieNodeID.leaf.toU8 then
            throw (.corruptionError "Non-leaf encountered at end of path")
          return (cursor, node, s)
      | .error .pathDiverged => throw .notFoundError
      | .error .chrNotFound => throw .notFoundError
      | .error (.backptrEncountered ptr) =>
          let (next, nextPtr, _, s, cursor) ← walkBackptr s node ptr.chr cursor
          walkLoop fuel s (cursor.repairBackptrFinish nextPtr) next

def walk (s : TrieStorage T) (blockHash : T) (path : TriePath) :
    Except Error (TrieCursor × TrieNodeType × TrieStorage T) := do
  let s ← s.openBlock blockHash
  let node ← s.readRoot
  walkLoop (path.bytes.length + 1) s (TrieCursor.new path rootTriePtr) node

def getPath (s : TrieStorage T) (blockHash : T) (path : TriePath) : Except Error (Option TrieLeaf) := do
  let s ← s.openBlock blockHash
  let (cursor, node, _) ← walk s blockHash path
  ensure cursor.eop "assertion failed: cursor.eop()"
  match node with
  | .leaf data => return some data
  | _ => throw (.corruptionError "Path reached a non-leaf")

/-- `get_by_key`: a key no walk reaches is absent. The connection is reopened
at the block it was open at. -/
def getByKey (fromKey : String → TriePath) (s : TrieStorage T) (blockHash : T) (key : String) :
    Except Error (Option MARFValue) := do
  let result : Except Error (Option TrieLeaf) := match getPath s blockHash (fromKey key) with
    | .error .notFoundError => .ok none
    | other => other
  let _ ← s.openBlockMaybeId s.curBlock s.curBlockId
  result.map (·.map TrieLeaf.data)

/-- `do_insert_leaf`, as `insert_leaf` and `insert_leaf_in_batch` both run it:
they differ only in how the root hash is computed. -/
def doInsertLeaf (s : TrieStorage T) (blockHash : T) (path : TriePath) (leafValue : TrieLeaf) :
    Except Error (TrieStorage T) := do
  let (cursor, s) ← walkCow s blockHash path
  let (_, s, cursor) ← Trie.addValue s cursor leafValue
  Trie.recalculateRootHash s cursor

end MARF

end Hyperchains.Marf
