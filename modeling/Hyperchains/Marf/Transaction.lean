import Hyperchains.Marf.Walk

/-! The public operations of a `MARF` (`marf.rs`): `begin` opens a new block on
top of a committed one (or of the sentinel, for a first block), the inserts
write into it, and `commit` flushes it. `begin` also records block heights in
the new block's own trie under reserved keys: its own height, its height and
hash in both directions, and the same two entries for its parent. The height
lookups read them back. Keys reach paths through `TriePath::from_key`, the
SHA-512/256 hash of the key, which is a parameter here. The read-only mode,
unconfirmed tries and `commit_to` are left out. -/

namespace Hyperchains.Marf

/-- `BLOCK_HASH_TO_HEIGHT_MAPPING_KEY`. -/
def blockHashToHeightMappingKey : String := "__MARF_BLOCK_HASH_TO_HEIGHT"

/-- `BLOCK_HEIGHT_TO_HASH_MAPPING_KEY`. -/
def blockHeightToHashMappingKey : String := "__MARF_BLOCK_HEIGHT_TO_HASH"

/-- `OWN_BLOCK_HEIGHT_KEY`. -/
def ownBlockHeightKey : String := "__MARF_BLOCK_HEIGHT_SELF"

def heightToHashKey (height : Nat) : String := blockHeightToHashMappingKey ++ "::" ++ toString height

def hashToHeightKey {T : Type} [MarfTrieId T] (bhh : T) : String :=
  blockHashToHeightMappingKey ++ "::" ++ MarfTrieId.display bhh

namespace MARFValue

/-- `From<u32>`: the little-endian bytes, then zeros. -/
def fromU32 (value : Nat) : MARFValue :=
  ⟨[value, value / 256, value / 65536, value / 16777216].map Nat.toUInt8 ++ List.replicate 36 0,
    by simp⟩

/-- `From<MARFValue> for u32`, which panics on a value with more than four bytes. -/
def toU32 (m : MARFValue) : Except Error Nat :=
  if (m.bytes.drop 4).all (· == 0) then
    .ok ((m.bytes.take 4).foldr (fun byte rest => byte.toNat + 256 * rest) 0)
  else .error (.panic "Failed to convert MARF value into u32: data stored after 4th byte")

def fromTrieId {T : Type} [MarfTrieId T] (bhh : T) : MARFValue :=
  ⟨MarfTrieId.toBytes bhh ++ List.replicate 8 0, by simp [MarfTrieId.toBytes_length]⟩

def toTrieId {T : Type} [MarfTrieId T] (m : MARFValue) : Except Error T :=
  if (m.bytes.drop 32).all (· == 0) then .ok (MarfTrieId.fromBytes (m.bytes.take 32))
  else .error (.panic "Failed to convert MARF value into BHH: data stored after 32nd byte")

end MARFValue

/-- The block being written and the height it will have. -/
structure WriteChainTip (T : Type) where
  blockHash : T
  height : Nat

structure MARF (T : Type) where
  storage : TrieStorage T
  openChainTip : Option (WriteChainTip T)

namespace MARF

variable {T : Type} [DecidableEq T] [MarfTrieId T] (fromKey : String → TriePath)

/-- `inner_insert_batch`: insert the pairs in order, then reopen the block the
connection was open at. -/
def innerInsertBatch (s : TrieStorage T) (blockHash : T) (keys : List String)
    (values : List MARFValue) : Except Error (TrieStorage T) := do
  ensure (keys.length == values.length) "assertion failed: keys.len() == values.len()"
  if keys.length == 0 then return s
  let curBlockHash := s.curBlock
  let curBlockId := s.curBlockId
  let s ← (keys.zip values).foldlM
    (fun s (key, value) => doInsertLeaf s blockHash (fromKey key) (TrieLeaf.fromValue [] value)) s
  s.openBlockMaybeId curBlockHash curBlockId

def insertBatch (m : MARF T) (keys : List String) (values : List MARFValue) :
    Except Error (MARF T) := do
  ensure (keys.length == values.length) "assertion failed: keys.len() == values.len()"
  let blockHash ← match m.openChainTip with
    | none => throw .writeNotBegunError
    | some tip => pure tip.blockHash
  if keys.length == 0 then return m
  let s ← innerInsertBatch fromKey m.storage blockHash keys values
  return { m with storage := s }

def insertRaw (m : MARF T) (path : TriePath) (marfLeaf : TrieLeaf) : Except Error (MARF T) := do
  match m.openChainTip with
  | none => throw .writeNotBegunError
  | some tip =>
      let curBlockHash := m.storage.curBlock
      let curBlockId := m.storage.curBlockId
      let s ← doInsertLeaf m.storage tip.blockHash path marfLeaf
      let s ← s.openBlockMaybeId curBlockHash curBlockId
      return { m with storage := s }

def insert (m : MARF T) (key : String) (value : MARFValue) : Except Error (MARF T) :=
  insertRaw m (fromKey key) (TrieLeaf.fromValue [] value)

/-- `MarfConnection::get`. -/
def get (m : MARF T) (blockHash : T) (key : String) : Except Error (Option MARFValue) :=
  getByKey fromKey m.storage blockHash key

def getBlockHeightMinerTip (s : TrieStorage T) (blockHash currentBlockHash : T) :
    Except Error (Option Nat) := do
  let value ← if blockHash = currentBlockHash then getByKey fromKey s currentBlockHash ownBlockHeightKey
    else getByKey fromKey s currentBlockHash (hashToHeightKey blockHash)
  match value with
  | none => return none
  | some value => some <$> value.toU32

/-- `MarfConnection::get_block_height`. -/
def getBlockHeight (m : MARF T) (ancestor tip : T) : Except Error (Option Nat) :=
  getBlockHeightMinerTip fromKey m.storage ancestor tip

/-- `MarfConnection::get_block_at_height`. -/
def getBlockAtHeight (m : MARF T) (height : Nat) (tip : T) : Except Error (Option T) := do
  match ← getBlockHeightMinerTip fromKey m.storage tip tip with
  | none => return none
  | some currentBlockHeight =>
      if height = currentBlockHeight then return some tip
      match ← getByKey fromKey m.storage tip (heightToHashKey height) with
      | none => return none
      | some value => some <$> value.toTrieId

/-- `set_block_heights`: the reserved keys of a new block, inserted as one batch. -/
def setBlockHeights (m : MARF T) (blockHash nextBlockHash : T) (height : Nat) :
    Except Error (MARF T) :=
  let own := [(ownBlockHeightKey, MARFValue.fromU32 height),
    (heightToHashKey height, MARFValue.fromTrieId nextBlockHash),
    (hashToHeightKey nextBlockHash, MARFValue.fromU32 height)]
  let parent := if height > 0 then
      [(heightToHashKey (height - 1), MARFValue.fromTrieId blockHash),
        (hashToHeightKey blockHash, MARFValue.fromU32 (height - 1))]
    else []
  insertBatch fromKey m ((own ++ parent).map Prod.fst) ((own ++ parent).map Prod.snd)

/-- `inner_get_extension_height`: the sentinel's child is at height 0, any other
block one above its parent. The connection is left open at the parent. -/
def innerGetExtensionHeight (s : TrieStorage T) (chainTip : T) :
    Except Error (Nat × TrieStorage T) := do
  let isParentSentinel := chainTip = MarfTrieId.sentinel
  let s ← s.openBlock chainTip
  if isParentSentinel then return (0, s)
  let height ← match ← getBlockHeightMinerTip fromKey s chainTip chainTip with
    | some height => pure height
    | none => throw (.corruptionError "Failed to find block height")
  if height + 1 < 2 ^ 32 then return (height + 1, s)
  else throw (.panic "FATAL: block height overflow!")

def begin (m : MARF T) (chainTip nextChainTip : T) : Except Error (MARF T) := do
  if m.openChainTip.isSome then throw .inProgressError
  if m.storage.hasBlock nextChainTip then throw .existsError
  let (blockHeight, s) ← innerGetExtensionHeight fromKey m.storage chainTip
  let s ← extendTrie s nextChainTip
  let s ← s.openBlock nextChainTip
  setBlockHeights fromKey ⟨s, some ⟨nextChainTip, blockHeight⟩⟩ chainTip nextChainTip blockHeight

def commit (m : MARF T) : MARF T :=
  match m.openChainTip with
  | some _ => ⟨m.storage.flush, none⟩
  | none => m

end MARF

end Hyperchains.Marf
