import Hyperchains.Transaction

/-! The microblock stream between two anchored blocks
(`chainstate/stacks/db/blocks.rs`): `validate_parent_microblock_stream` decides
whether the microblocks a parent block's miner streamed connect the parent to a
child block, how many of them the child confirms, and whether the stream holds a
deliberate fork to punish with a poison-microblock payload;
`extract_connecting_microblocks` keeps the confirmed ones. The microblock headers
and their hashes and signatures are those of `chainstate/stacks/block.rs`.

SHA-512/256, secp256k1 recovery and the anchored header's own hash are external
and given as `Crypto` and `blockHash`. Of an anchored header the validation reads the parent
block, the parent microblock and its sequence and the microblock key hash; the
other fields only enter its hash and are kept whole as `rest`. The `for` loops
are recursions over the list, each with the early returns of its body. -/

namespace Hyperchains.Transaction
open Bytes

/-- SHA-512/256 and secp256k1 key recovery. -/
structure Crypto where
  /-- `Sha512Trunc256Sum::from_data`, also `BlockHeaderHash::from_serialized_header`. -/
  sha512Trunc256 : List UInt8 → FixedBytes 32
  /-- `StacksPublicKey::recover_to_pubkey` from a digest and a signature, the key
  compressed and hashed by `Hash160::from_node_public_key`. -/
  recoverPubkeyHash : FixedBytes 32 → MessageSignature → Option (FixedBytes 20)

variable (crypto : Crypto)

def StacksMicroblockHeader.blockHash (header : StacksMicroblockHeader) : FixedBytes 32 :=
  crypto.sha512Trunc256 header.consensusSerialize

/-- `check_recover_pubkey`: the key hash of each signature over the header
serialized with no signatures. -/
def StacksMicroblockHeader.checkRecoverPubkey (header : StacksMicroblockHeader) :
    Except String (List (FixedBytes 20)) :=
  let digestBits := crypto.sha512Trunc256 { header with minerSignatures := [] }.consensusSerialize
  header.minerSignatures.mapM fun signature =>
    match crypto.recoverPubkeyHash digestBits signature with
    | some pubkh => .ok pubkh
    | none => .error "Failed to verify signature: failed to recover public key"

def StacksMicroblockHeader.verify (header : StacksMicroblockHeader) (pubkHash : FixedBytes 20) : Except String Unit := do
  let pubkhVec ← header.checkRecoverPubkey crypto
  if pubkhVec.contains pubkHash then pure ()
  else throw "Failed to verify miner_signatures: public key did not recover to expected hash"

end Hyperchains.Transaction

namespace Hyperchains.Microblocks
open Bytes
open Hyperchains.Transaction

abbrev BlockHeaderHash := FixedBytes 32

abbrev Hash160 := FixedBytes 20

/-- `FIRST_STACKS_BLOCK_HASH`. -/
def firstStacksBlockHash : BlockHeaderHash := ⟨List.replicate 32 0, List.length_replicate⟩

/-- `EMPTY_MICROBLOCK_PARENT_HASH`. -/
def emptyMicroblockParentHash : BlockHeaderHash := ⟨List.replicate 32 0, List.length_replicate⟩

/-- The anchored block header: the fields the validation reads, and the rest
(version, total work, VRF proof, the three roots and the miner signatures). -/
structure StacksBlockHeader (Rest : Type) where
  parentBlock : BlockHeaderHash
  parentMicroblock : BlockHeaderHash
  parentMicroblockSequence : UInt16
  microblockPubkeyHash : Hash160
  rest : Rest

structure StacksMicroblock (E : External) where
  header : StacksMicroblockHeader
  txs : List (StacksTransaction E)

variable {Rest : Type} {E : External} (crypto : Crypto) (blockHash : StacksBlockHeader Rest → BlockHeaderHash)

def StacksBlockHeader.isFirstMined (header : StacksBlockHeader Rest) : Bool :=
  header.parentBlock = firstStacksBlockHash

/-- The child names no parent microblock: it confirms none of the stream. -/
def StacksBlockHeader.confirmsNoMicroblocks (header : StacksBlockHeader Rest) : Bool :=
  header.parentMicroblock = emptyMicroblockParentHash && header.parentMicroblockSequence = 0

/-- The microblocks the parent's microblock key signed. -/
def extractSignedMicroblocks (parentAnchoredBlockHeader : StacksBlockHeader Rest)
    (microblocks : List (StacksMicroblock E)) : List (StacksMicroblock E) :=
  microblocks.filter fun microblock =>
    (microblock.header.verify crypto parentAnchoredBlockHeader.microblockPubkeyHash).toBool

/-- The `signed_microblocks` that the validation works on. -/
def signedMicroblocks (parentAnchoredBlockHeader : StacksBlockHeader Rest) (microblocks : List (StacksMicroblock E))
    (verifySignatures : Bool) : List (StacksMicroblock E) :=
  if verifySignatures then extractSignedMicroblocks crypto parentAnchoredBlockHeader microblocks else microblocks

/-- The first sanity loop, in order by sequence with no gap: `false` at a gap,
and a panic where the sequence goes down. -/
def checkSequenceOrder : List (StacksMicroblock E) → Except String Bool
  | first :: second :: rest =>
      if first.header.sequence > second.header.sequence then .error "BUG: out-of-sequence microblock stream"
      else if first.header.sequence.toNat + 1 < second.header.sequence.toNat then .ok false
      else checkSequenceOrder (second :: rest)
  | _ => .ok true

/-- The second loop over the `parent_hashes` map: at the first microblock whose
parent hash was already seen, the index before it, its header and the header
seen with that parent. -/
def findDuplicateParent (parentHashes : List (BlockHeaderHash × StacksMicroblockHeader)) :
    Nat → List (StacksMicroblock E) → Option (Nat × StacksMicroblockHeader × StacksMicroblockHeader)
  | _, [] => none
  | i, signedMicroblock :: rest =>
      match parentHashes.lookup signedMicroblock.header.prevBlock with
      | some conflictingMicroblockHeader => some (i - 1, signedMicroblock.header, conflictingMicroblockHeader)
      | none => findDuplicateParent ((signedMicroblock.header.prevBlock, signedMicroblock.header) :: parentHashes)
          (i + 1) rest

/-- The third loop over neighbours, `i` the index of the first: `some` of what
the function returns (a poison payload for two microblocks with one sequence,
`none` for a broken hash link), or `none` when the loop runs out. -/
def checkHashLinks : Nat → List (StacksMicroblock E) → Option (Option (Nat × Option (TransactionPayload E)))
  | i, first :: second :: rest =>
      if first.header.sequence = second.header.sequence ∧
          first.header.blockHash crypto ≠ second.header.blockHash crypto then
        -- deliberate microblock fork
        some (some (i, some (.poisonMicroblock first.header second.header)))
      else if first.header.blockHash crypto ≠ second.header.prevBlock then some none
      else checkHashLinks (i + 1) (second :: rest)
  | _, _ => none

/-- The rest of `validate_parent_microblock_stream` once the signed stream
starts at sequence 0 from the parent: the three loops, then the microblock the
child names. -/
def validateSignedStream (anchoredBlockHeader : StacksBlockHeader Rest) (signed : List (StacksMicroblock E)) :
    Except String (Option (Nat × Option (TransactionPayload E))) := do
  let contiguous ← checkSequenceOrder signed
  if !contiguous then return none
  match findDuplicateParent [] 0 signed with
  | some (i, header, conflicting) => return some (i, some (.poisonMicroblock header conflicting))
  | none =>
      match checkHashLinks crypto 0 signed with
      | some result => return result
      | none =>
          if anchoredBlockHeader.confirmsNoMicroblocks then return some (0, none)
          else
            return (signed.findIdx? fun microblock =>
              microblock.header.blockHash crypto = anchoredBlockHeader.parentMicroblock).map fun i => (i + 1, none)

/-- `validate_parent_microblock_stream`: `some (n, poison)` when the first `n`
signed microblocks connect the parent to the child, `none` when the stream does
not connect, a panic on a stream out of order. -/
def validateParentMicroblockStream (parentAnchoredBlockHeader anchoredBlockHeader : StacksBlockHeader Rest)
    (microblocks : List (StacksMicroblock E)) (verifySignatures : Bool) :
    Except String (Option (Nat × Option (TransactionPayload E))) :=
  if anchoredBlockHeader.isFirstMined then
    -- there had better be zero microblocks
    .ok (if anchoredBlockHeader.confirmsNoMicroblocks then some (0, none) else none)
  else
    match signedMicroblocks crypto parentAnchoredBlockHeader microblocks verifySignatures with
    | [] => .ok (if anchoredBlockHeader.confirmsNoMicroblocks then some (0, none) else none)
    | first :: rest =>
        if first.header.sequence ≠ 0 then .ok none
        else if first.header.prevBlock ≠ blockHash parentAnchoredBlockHeader then .ok none
        else validateSignedStream crypto anchoredBlockHeader (first :: rest)

/-- `extract_connecting_microblocks` of the parent's and the child's headers:
the stream cut to the microblocks the child confirms, or none of it. The
signatures were checked when the microblocks were staged. -/
def extractConnectingMicroblocks (parentAnchoredHeader blockHeader : StacksBlockHeader Rest)
    (nextMicroblocks : List (StacksMicroblock E)) : Except String (List (StacksMicroblock E)) := do
  match ← validateParentMicroblockStream crypto blockHash parentAnchoredHeader blockHeader nextMicroblocks false with
  | some (microblockTerminus, _) => pure (nextMicroblocks.take microblockTerminus)
  | none => pure []

end Hyperchains.Microblocks
