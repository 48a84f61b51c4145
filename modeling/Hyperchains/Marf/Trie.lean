import Hyperchains.Marf.Storage

/-! `trie.rs`: one trie's walk and `add_value`, the insertion at the point a
cursor stopped. The connection is open at the block being extended: reads and
writes go to its `TrieRAM`. Depending on where the cursor stopped, the new leaf
replaces a leaf of the same path, is attached to a node that still has room,
widens a full node (4 → 16 → 48 → 256) into a new slot, splits a leaf whose
path it leaves into a Node4 over both, or splits a node's compressed path with
a Node4. The parent pointers are rewritten afterwards by
`recalculate_root_hash`, from the bottom of the cursor up; node hashes are left
out. -/

namespace Hyperchains.Marf

namespace Trie

variable {T : Type} [DecidableEq T] [MarfTrieId T]

/-- `walk_from_nohash`: a step of the cursor, then a read of the node it reached.
Cursor errors come back with the cursor as it was left, as the callers use it. -/
def walkFromNohash (s : TrieStorage T) (node : TrieNodeType) (cursor : TrieCursor) :
    Except Error (Except CursorError (Option (TriePtr × TrieNodeType)) × TrieCursor) := do
  let (step, cursor) ← (cursor.walk node).mapError .panic
  match step with
  | .ok none => return (.ok none, cursor)
  | .ok (some ptr) =>
      let next ← s.readNodetype ptr
      return (.ok (some (ptr, next)), cursor)
  | .error error => return (.error error, cursor)

/-- `Trie::walk_backptr`: read the node a pointer names, opening the block of a
back-pointer first. -/
def walkBackptr (s : TrieStorage T) (ptr : TriePtr) (cursor : TrieCursor) :
    Except Error (TrieNodeType × TriePtr × TrieStorage T × TrieCursor) := do
  if !isBackptr ptr.id then
    if ptr.id == TrieNodeID.empty.toU8 then throw (.corruptionError "ptr is empty")
    let node ← s.readNodetype ptr
    return (node, ptr, s, cursor)
  else
    let backBlockHash ← s.getBlockFromLocalId ptr.backBlock
    let s ← s.openBlockKnownId backBlockHash ptr.backBlock
    let backptr := ptr.fromBackptr
    let node ← s.readNodetype backptr
    return (node, backptr, s, cursor.repairBackptrStepBackptr node backptr)

def replaceLeaf (s : TrieStorage T) (cursor : TrieCursor) (value : TrieLeaf) :
    Except Error (TriePtr × TrieStorage T) := do
  let curLeaf ← s.readNodetype cursor.ptr
  if !curLeaf.isLeaf then throw (.corruptionError "Not a leaf")
  let value := { value with path := curLeaf.pathBytes }
  let s ← s.writeNodetype cursor.ptr.ptr (.leaf value)
  return (cursor.ptr, s)

/-- Append the leaf with the rest of the key as its path. -/
def appendLeaf (s : TrieStorage T) (cursor : TrieCursor) (value : TrieLeaf) :
    Except Error (TriePtr × TrieStorage T) := do
  let chr ← match cursor.chr with
    | some chr => pure chr
    | none => throw (.panic "assertion failed: cursor.chr().is_some()")
  let ptr ← s.lastPtr
  let path ← sliceFrom cursor.path.bytes cursor.index
  let leafPtr := TriePtr.new TrieNodeID.leaf.toU8 chr ptr
  let s ← s.writeNodetype ptr (.leaf { value with path })
  return (leafPtr, s)

/-- The cursor stopped inside a leaf's path: the leaf keeps its slot with the
part after the split, and a Node4 over the shared part takes both leaves. -/
def promoteLeafToNode4 (s : TrieStorage T) (cursor : TrieCursor) (curLeafData newLeafData : TrieLeaf) :
    Except Error (TriePtr × TrieStorage T × TrieCursor) := do
  ensure (!cursor.eop) "assertion failed: !cursor.eop()"
  ensure (curLeafData.path.length > 0) "assertion failed: cur_leaf_data.path.len() > 0"
  let curLeafPtr := cursor.ptr
  let node4Path ← sliceTo curLeafData.path cursor.nodePathIndex
  let node4Chr := curLeafPtr.chr
  let curLeafChr ← index curLeafData.path cursor.nodePathIndex
  let curLeafPath ← sliceFrom curLeafData.path
    (if cursor.nodePathIndex ≥ curLeafData.path.length then cursor.nodePathIndex
     else cursor.nodePathIndex + 1)
  let curLeafNewPtr := TriePtr.new TrieNodeID.leaf.toU8 curLeafChr curLeafPtr.ptr
  ensure (curLeafPath.length ≤ curLeafData.path.length)
    "assertion failed: cur_leaf_path.len() <= cur_leaf_data.path.len()"
  let s ← s.writeNodetype curLeafPtr.ptr (.leaf { curLeafData with path := curLeafPath })
  let newLeafDiskPtr ← s.lastPtr
  let newLeafChr ← index cursor.path.bytes cursor.index
  let newLeafPath ← sliceFrom cursor.path.bytes
    (if cursor.index + 1 ≤ cursor.path.bytes.length then cursor.index + 1
     else cursor.path.bytes.length)
  let newLeafPtr := TriePtr.new TrieNodeID.leaf.toU8 newLeafChr newLeafDiskPtr
  let s ← s.writeNodetype newLeafDiskPtr (.leaf { newLeafData with path := newLeafPath })
  let (node4Data, inserted) := (TrieNode4.new node4Path).insert curLeafNewPtr
  ensure inserted "assertion failed: node4_data.insert(&cur_leaf_new_ptr)"
  let (node4Data, inserted) := node4Data.insert newLeafPtr
  ensure inserted "assertion failed: node4_data.insert(&new_leaf_ptr)"
  let node4 := TrieNodeType.node4 node4Data
  let node4DiskPtr ← s.lastPtr
  let ret := TriePtr.new TrieNodeID.node4.toU8 node4Chr node4DiskPtr
  let s ← s.writeNodetype node4DiskPtr node4
  return (ret, s, cursor.repairRetarget node4 ret)

/-- Whether a pointer array has an empty slot or already a pointer for the byte. -/
def nodeHasSpace (chr : UInt8) (children : List TriePtr) : Bool :=
  children.reverse.any fun child => child.isEmpty || child.chr == chr

def tryAttachLeaf (s : TrieStorage T) (cursor : TrieCursor) (leaf : TrieLeaf)
    (node : TrieNodeType) : Except Error (Option TriePtr × TrieStorage T) := do
  if !cursor.eonp node then return (none, s)
  let chr ← match cursor.chr with
    | some chr => pure chr
    | none => throw (.panic "assertion failed: cursor.chr().is_some()")
  ensure (!node.isLeaf) "assertion failed: !node.is_leaf()"
  if !nodeHasSpace chr node.ptrs then return (none, s)
  let (leafPtr, s) ← appendLeaf s cursor leaf
  let (node, inserted) ← (node.insert leafPtr).mapError .panic
  ensure inserted "assertion failed: inserted"
  let s ← s.writeNodetype cursor.ptr.ptr node
  return (some cursor.ptr, s)

/-- Attach the leaf, widening a full node into a new slot when it must. -/
def insertLeaf (s : TrieStorage T) (cursor : TrieCursor) (leaf : TrieLeaf) (node : TrieNodeType) :
    Except Error (TriePtr × TrieStorage T × TrieCursor) := do
  ensure (cursor.eonp node) "assertion failed: cursor.eonp(node)"
  let (attached, s) ← tryAttachLeaf s cursor leaf node
  match attached with
  | some ptr => return (ptr, s, cursor)
  | none =>
      let newNode ← match node with
        | .leaf _ => throw (.panic "Cannot insert into a leaf")
        | .node256 _ => throw (.panic "Somehow could not insert into a Node256")
        | .node4 data => pure (TrieNodeType.node16 (TrieNode16.fromNode4 data))
        | .node16 data => pure (TrieNodeType.node48 (TrieNode48.fromNode16 data))
        | .node48 data => pure (TrieNodeType.node256 (TrieNode256.fromNode48 data))
      let nodePtr := cursor.ptr
      let (leafPtr, s) ← appendLeaf s cursor leaf
      let (newNode, inserted) ← (newNode.insert leafPtr).mapError .panic
      ensure inserted "assertion failed: inserted"
      let newNodeDiskPtr ← s.lastPtr
      let ret := TriePtr.new newNode.id nodePtr.chr newNodeDiskPtr
      let s ← s.writeNodetype newNodeDiskPtr newNode
      return (ret, s, cursor.repairRetarget newNode ret)

/-- The cursor stopped inside a node's compressed path: a Node4 over the shared
part takes the node's slot, with the leaf and the node, moved to a new slot
with the rest of its path, as children. -/
def spliceLeaf (s : TrieStorage T) (cursor : TrieCursor) (leaf : TrieLeaf) (node : TrieNodeType) :
    Except Error (TriePtr × TrieStorage T × TrieCursor) := do
  ensure (!cursor.eop) "assertion failed: !cursor.eop()"
  ensure (!cursor.eonp node) "assertion failed: !cursor.eonp(node)"
  ensure cursor.chr.isSome "assertion failed: cursor.chr().is_some()"
  ensure (!node.isLeaf) "assertion failed: !node.is_leaf()"
  let nodePath := node.pathBytes
  let sharedPathPrefix ← sliceTo nodePath cursor.nodePathIndex
  let leafPath ← sliceFrom cursor.path.bytes (cursor.index + 1)
  let newCurNodePath ← sliceFrom nodePath (cursor.nodePathIndex + 1)
  let newCurNodeChr ← index nodePath cursor.nodePathIndex
  let leafChr ← index cursor.path.bytes cursor.index
  let leafDiskPtr ← s.lastPtr
  let leafPtr := TriePtr.new TrieNodeID.leaf.toU8 leafChr leafDiskPtr
  let s ← s.writeNodetype leafDiskPtr (.leaf { leaf with path := leafPath })
  let curNodeCurPtr := cursor.ptr
  let newCurNodeDiskPtr ← s.lastPtr
  let newCurNodePtr := TriePtr.new curNodeCurPtr.id newCurNodeChr newCurNodeDiskPtr
  let node := node.setPath newCurNodePath
  let newNode4 := (((TrieNode4.new sharedPathPrefix).insert leafPtr).1.insert newCurNodePtr).1
  -- a split root stays a Node256
  let (newNodeId, newNode) :=
    if cursor.nodePtrs.length = 1 then
      (TrieNodeID.node256, TrieNodeType.node256 (TrieNode256.fromNode4 newNode4))
    else (TrieNodeID.node4, TrieNodeType.node4 newNode4)
  let s ← s.writeNodetype curNodeCurPtr.ptr newNode
  let s ← s.writeNodetype newCurNodeDiskPtr node
  let ret := TriePtr.new newNodeId.toU8 curNodeCurPtr.chr curNodeCurPtr.ptr
  return (ret, s, cursor.repairRetarget newNode ret)

def addValue (s : TrieStorage T) (cursor : TrieCursor) (value : TrieLeaf) :
    Except Error (TriePtr × TrieStorage T × TrieCursor) := do
  let node ← match cursor.node with
    | some node => pure node
    | none => throw (.panic "Cursor is uninitialized")
  if cursor.eop then
    match node with
    | .leaf _ =>
        let (ptr, s) ← replaceLeaf s cursor value
        return (ptr, s, cursor)
    | _ => insertLeaf s cursor value node
  else if cursor.eonp node then insertLeaf s cursor value node
  else
    match node with
    | .leaf data => promoteLeafToNode4 s cursor data value
    | _ => spliceLeaf s cursor value node

/-- The loop of `recalculate_root_hash`, from the last pointer of the cursor up:
each parent in this trie takes its child's pointer; pointers a back-pointer was
followed through are skipped. -/
def updateParents : TrieStorage T → TriePtr → List TriePtr → Except Error (TriePtr × TrieStorage T)
  | s, child, [] => .ok (child, s)
  | s, child, ptr :: rest =>
      if isBackptr ptr.id then updateParents s child rest
      else do
        let node ← s.readNodetype ptr
        ensure (!node.isLeaf) "assertion failed: !node.is_leaf()"
        let (node, updated) ← (node.replace child).mapError .panic
        ensure updated "assertion failed: updated"
        let s ← s.writeNodetype ptr.ptr node
        updateParents s { ptr with id := clearBackptr ptr.id } rest

def recalculateRootHash (s : TrieStorage T) (cursor : TrieCursor) : Except Error (TrieStorage T) :=
  match cursor.nodePtrs.reverse with
  | [] => .error (.panic "assertion failed: cursor.node_ptrs.len() > 0")
  | [childPtr] => do
      let node ← s.readNodetype childPtr
      if !node.isNode256 then throw (.corruptionError "Only ptr was not a node256")
      if childPtr != rootTriePtr then throw (.corruptionError "Only ptr is not the root")
      s.writeNodetype childPtr.ptr node
  | childPtr :: parents => do
      let (childPtr, s) ← updateParents s childPtr parents
      ensure (childPtr == rootTriePtr) "assertion failed: child_ptr == storage.root_trieptr()"
      return s

end Trie

end Hyperchains.Marf
