import Hyperchains.Marf.Storage
import Hyperchains.Library.Reader

/-! The on-disk form of a trie node (`chainstate/stacks/index/bits.rs` and the
codecs of `node.rs`). A node is written as its 32-byte hash, its id, its
pointers of ten bytes each (id, byte, then the `u32` slot and block
big-endian), for a Node48 its 256 index bytes, and its path behind a length
byte; a leaf writes its path and its 40-byte value after its id. Reads go
through a `Read` over bytes in memory: `read_exact` fails at the end of the
input with the caller's `CorruptionError`, and a plain `read` returns what is
left up to the size of its buffer. -/

namespace Hyperchains.Marf

open Bytes

def triepathMaxLen : Nat := 32

def trieptrSize : Nat := 10

def triehashEncodedSize : Nat := 32

def marfValueEncodedSize : Nat := 40

abbrev TrieHash := FixedBytes triehashEncodedSize

/-- `{:x}` of a byte. -/
def lowerHex (byte : UInt8) : String := String.ofList (Nat.toDigits 16 byte.toNat)

/-- `to_hex`: two lowercase hex digits a byte. -/
def toHex (bytes : List UInt8) : String :=
  String.ofList (bytes.flatMap fun byte => [Nat.digitChar (byte.toNat / 16), Nat.digitChar (byte.toNat % 16)])

def TrieNodeID.fromU8 : UInt8 → Option TrieNodeID
  | 0 => some .empty
  | 1 => some .leaf
  | 2 => some .node4
  | 3 => some .node16
  | 4 => some .node48
  | 5 => some .node256
  | _ => none

/-- An `i8` index written as its `u8` bits. -/
def i8AsU8 (index : Int) : UInt8 := (index % 256).toNat.toUInt8

/-- A `u8` read back as an `i8`. -/
def u8AsI8 (byte : UInt8) : Int := if byte.toNat < 128 then byte.toNat else (byte.toNat : Int) - 256

/-! ## Writing -/

def TriePtr.writeBytes (ptr : TriePtr) : List UInt8 :=
  [ptr.id, ptr.chr] ++ beBytes 4 ptr.ptr ++ beBytes 4 ptr.backBlock

def writePtrsToBytes (ptrs : List TriePtr) : List UInt8 := ptrs.flatMap TriePtr.writeBytes

def writePathToBytes (path : List UInt8) : List UInt8 := path.length.toUInt8 :: path

/-- `write_bytes`: the trait's default for Node4, Node16 and Node256; Node48
writes its indexes before its path, and a leaf its value after it. -/
def TrieNodeType.writeBytes : TrieNodeType → List UInt8
  | node48 data =>
      [TrieNodeID.node48.toU8] ++ writePtrsToBytes (node48 data).ptrs ++
        (List.range 256).map (fun c => i8AsU8 (data.indexes c.toUInt8)) ++ writePathToBytes data.path
  | leaf data => [TrieNodeID.leaf.toU8] ++ writePathToBytes data.path ++ data.data.bytes
  | node => [node.id] ++ writePtrsToBytes node.ptrs ++ writePathToBytes node.pathBytes

/-- `write_nodetype_bytes`: the bytes written after the stream's position, and
their count. -/
def writeNodetypeBytes (node : TrieNodeType) (hash : TrieHash) : List UInt8 × Nat :=
  let written := hash.val ++ node.writeBytes
  (written, written.length)

def getPtrsByteLen (ptrs : List TriePtr) : Nat := 1 + trieptrSize * ptrs.length

def getPathByteLen (path : List UInt8) : Except Error Nat := do
  ensure (path.length < 255) "assertion failed: p.len() < 255"
  pure (1 + path.length)

def TrieNodeType.byteLen : TrieNodeType → Except Error Nat
  | node48 data => do
      let pathLen ← getPathByteLen data.path
      pure (getPtrsByteLen (node48 data).ptrs + 256 + pathLen)
  | leaf data => do
      let pathLen ← getPathByteLen data.path
      pure (1 + pathLen + data.data.bytes.length)
  | node => do
      let pathLen ← getPathByteLen node.pathBytes
      pure (getPtrsByteLen node.ptrs + pathLen)

def getNodeByteLen (node : TrieNodeType) : Except Error Nat := do
  let nodeByteLen ← node.byteLen
  pure (triehashEncodedSize + nodeByteLen)

/-! ## Reading -/

def pathFromBytes : Reader Error (List UInt8) := do
  let len ← readByte (.corruptionError "Failed to read len buf")
  if len.toNat > triepathMaxLen then
    throw (.corruptionError s!"Node path is longer than {triepathMaxLen} bytes (got {len})")
  readBytes (.corruptionError s!"Failed to read {len} bytes of path") len.toNat

def checkNodeId (nid : UInt8) : Bool := (TrieNodeID.fromU8 (clearBackptr nid)).isSome

def nodeIdToPtrCount (nodeId : UInt8) : Except Error Nat :=
  match TrieNodeID.fromU8 (clearBackptr nodeId) with
  | some .leaf => .ok 1
  | some .node4 => .ok 4
  | some .node16 => .ok 16
  | some .node48 => .ok 48
  | some .node256 => .ok 256
  | some .empty => .error (.panic "node_id_to_ptr_count: tried getting empty node pointer count")
  | none => .error (.panic s!"Unknown node ID {nodeId}")

/-- `TriePtr::from_bytes`. Its callers pass ten-byte slices, so its length
assertion holds. -/
def TriePtr.fromBytes (bytes : List UInt8) : TriePtr :=
  ⟨bytes.getD 0 0, bytes.getD 1 0, natOfBE ((bytes.drop 2).take 4), natOfBE ((bytes.drop 6).take 4)⟩

/-- `ptrs_from_bytes`: the id read and the pointers, as many as the id names. -/
def ptrsFromBytes (nodeId : UInt8) : Reader Error (UInt8 × List TriePtr) := do
  if !checkNodeId nodeId then throw (.corruptionError ("Bad node ID: " ++ lowerHex nodeId))
  let numPtrs ← liftM (nodeIdToPtrCount nodeId)
  let ptrsLen := numPtrs * trieptrSize
  let bytes ← readBytes (.corruptionError s!"Failed to read 1 + {ptrsLen} bytes of ptrs") (1 + ptrsLen)
  let nid := bytes.getD 0 0
  if clearBackptr nid != clearBackptr nodeId then throw (.corruptionError "Failed to read expected node ID")
  let ptrBytes := bytes.drop 1
  pure (nid, (List.range numPtrs).map fun i => TriePtr.fromBytes ((ptrBytes.drop (i * trieptrSize)).take trieptrSize))

def TrieNode4.fromBytes : Reader Error TrieNode4 := do
  let (_, ptrs) ← ptrsFromBytes TrieNodeID.node4.toU8
  let path ← pathFromBytes
  pure ⟨path, fun i => ptrs.getD i default⟩

def TrieNode16.fromBytes : Reader Error TrieNode16 := do
  let (_, ptrs) ← ptrsFromBytes TrieNodeID.node16.toU8
  let path ← pathFromBytes
  pure ⟨path, fun i => ptrs.getD i default⟩

/-- `TrieNode48::from_bytes`: after the path, every non-empty pointer's byte
must have an index, and every index that is not negative must name a
non-empty pointer. -/
def TrieNode48.fromBytes : Reader Error TrieNode48 := do
  let (_, ptrs) ← ptrsFromBytes TrieNodeID.node48.toU8
  let indexes ← readSome 256
  if indexes.length != 256 then throw (.corruptionError "Node48: Failed to read 256 indexes")
  let path ← pathFromBytes
  let indexesSlice : Nat → Int := fun c => u8AsI8 (indexes.getD c 0)
  let ptrsSlice : Nat → TriePtr := fun i => ptrs.getD i default
  if !(List.range 48).all fun i => (ptrsSlice i).id == TrieNodeID.empty.toU8 ||
      (decide (0 ≤ indexesSlice (ptrsSlice i).chr.toNat) && decide (indexesSlice (ptrsSlice i).chr.toNat < 48)) then
    throw (.corruptionError "Node48: corrupt index array: invalid index value")
  if named : ∀ c : Nat, c < 256 → indexesSlice c < 0 ∨
      (0 ≤ indexesSlice c ∧ (indexesSlice c).toNat < 48 ∧ (ptrsSlice (indexesSlice c).toNat).id ≠ TrieNodeID.empty.toU8) then
    pure ⟨path, fun c => indexesSlice c.toNat, fun i => ptrsSlice i, fun c => by
      rcases named c.toNat c.toNat_lt with negative | ⟨-, below, -⟩ <;> omega⟩
  else throw (.corruptionError "Node48: corrupt index array: index points to empty node")

def TrieNode256.fromBytes : Reader Error TrieNode256 := do
  let (_, ptrs) ← ptrsFromBytes TrieNodeID.node256.toU8
  let path ← pathFromBytes
  pure ⟨path, fun c => ptrs.getD c.toNat default⟩

def TrieLeaf.fromBytes : Reader Error TrieLeaf := do
  let idbuf ← readSome 1
  if idbuf.length != 1 then throw (.corruptionError "Leaf: failed to read ID")
  let id := idbuf.getD 0 0
  if clearBackptr id != TrieNodeID.leaf.toU8 then throw (.corruptionError ("Leaf: bad ID " ++ lowerHex id))
  let path ← pathFromBytes
  let leafData ← readSome marfValueEncodedSize
  let lLeafData := leafData.length
  if sized : lLeafData = marfValueEncodedSize then pure ⟨path, ⟨leafData, sized.trans rfl⟩⟩
  else throw (.corruptionError s!"Leaf: read only {lLeafData} out of {marfValueEncodedSize} bytes")

/-- `read_hash_bytes`. At the end of the input the buffer is left unfilled, and
the message shows its zeros. -/
def readHashBytes : Reader Error TrieHash :=
  readFixed (.corruptionError ("Failed to read hash in full from " ++ toHex (List.replicate triehashEncodedSize 0)))
    triehashEncodedSize

/-- `inner_read_nodetype_at_head`: without the hash, the stream seeks past it. -/
def innerReadNodetypeAtHead (ptrId : UInt8) (readHash : Bool) :
    Reader Error (TrieNodeType × Option TrieHash) := do
  let h ← if readHash then some <$> readHashBytes else do
    modify (·.drop triehashEncodedSize)
    pure none
  let node ← match TrieNodeID.fromU8 ptrId with
    | none => throw (.corruptionError s!"read_node_type: Unknown trie node type {ptrId}")
    | some .node4 => TrieNodeType.node4 <$> TrieNode4.fromBytes
    | some .node16 => TrieNodeType.node16 <$> TrieNode16.fromBytes
    | some .node48 => TrieNodeType.node48 <$> TrieNode48.fromBytes
    | some .node256 => TrieNodeType.node256 <$> TrieNode256.fromBytes
    | some .leaf => TrieNodeType.leaf <$> TrieLeaf.fromBytes
    | some .empty => throw (.corruptionError "read_node_type: stored empty node type")
  pure (node, h)

def readNodetypeAtHead (ptrId : UInt8) : Reader Error (TrieNodeType × TrieHash) := do
  let (node, hashOpt) ← innerReadNodetypeAtHead ptrId true
  match hashOpt with
  | some hash => pure (node, hash)
  | none => throw (.panic "FATAL: queried hash but received None")

end Hyperchains.Marf
