import Hyperchains.Marf.Node
import Hyperchains.Library.Panic

/-! The verifier of MARF Merkle proofs (`chainstate/stacks/index/proofs.rs`). A
proof is a list of entries: segment proofs (a leaf, then the nodes up to a trie
root, each with the hashes of its other children) alternate with shunt proofs
(the skip-list of ancestor roots that leads from one block's trie to the next).
`TrieMerkleProof::verify_proof` checks the shape with `is_proof_well_formed` and
then recomputes the hashes up to the expected root.

The hash functions (`get_leaf_hash`, `get_node_hash`,
`TrieHash::from_data_array`) and the hash a block id is read as are parameters:
`Hash` stands for `TrieHash` and `T` for the block id. `root_to_block` is a
lookup function. A panic is an `Except String` error; the only ones the
verifier can raise are the assertions of `get_segment_proof_hash` and the
`unreachable!` after the shape check. -/

namespace Hyperchains.Marf.Proofs
open Panic

structure ProofTriePtr (T : Type) where
  id : UInt8
  chr : UInt8
  backBlock : T
  deriving DecidableEq, Repr

structure ProofTrieNode (T : Type) where
  id : UInt8
  path : List UInt8
  ptrs : List (ProofTriePtr T)
  deriving DecidableEq, Repr

/-- `TrieMerkleProofType`. A node entry holds the byte of the child the path
goes through and the hashes of the other children, in an array of fixed size;
its `ptrs` may have any length. A shunt's `i64` index is an `Int`: its one
computation, `idx - 1`, is compared with a small index, which the wrap at
`i64::MIN` never meets. -/
inductive TrieMerkleProofType (T Hash : Type) where
  | node4 (chr : UInt8) (node : ProofTrieNode T) (hashes : Vector Hash 3)
  | node16 (chr : UInt8) (node : ProofTrieNode T) (hashes : Vector Hash 15)
  | node48 (chr : UInt8) (node : ProofTrieNode T) (hashes : Vector Hash 47)
  | node256 (chr : UInt8) (node : ProofTrieNode T) (hashes : Vector Hash 255)
  | leaf (chr : UInt8) (node : TrieLeaf)
  | shunt (idx : Int) (hashes : List Hash)
  deriving DecidableEq

/-- The hash functions the verifier is built on. -/
structure Hashing (T Hash : Type) where
  getLeafHash : TrieLeaf → Hash
  getNodeHash : ProofTrieNode T → List Hash → Hash
  fromDataArray : List Hash → Hash
  /-- `TrieHash(bhh.to_bytes())`: a block id read as a hash. -/
  ofBlock : T → Hash

variable {T Hash : Type}

namespace TrieMerkleProofType

def isShunt : TrieMerkleProofType T Hash → Bool
  | shunt _ _ => true
  | _ => false

/-- A shunt with a nonzero index: an entry of a shunt proof's tail or its junction. -/
def isTailShunt : TrieMerkleProofType T Hash → Bool
  | shunt idx _ => idx != 0
  | _ => false

end TrieMerkleProofType

open TrieMerkleProofType

/-- The loop of `next_shunt_hash` and `verify_shunt_proof_junction`: after
`start`, the proof's hashes in order with `hash` at position `idx - 1`, or
`none` when the proof's hashes run out first. -/
def spliceHash (hash : Hash) (idx : Int) (hashes : List Hash) (start : List Hash) :
    Option (List Hash) := do
  let step := fun (acc : List Hash × Nat) (i : Nat) =>
    if idx - 1 = i then some (acc.1 ++ [hash], acc.2)
    else
      match hashes[acc.2]? with
      | none => none
      | some next => some (acc.1 ++ [next], acc.2 + 1)
  let (allHashes, _) ← (List.range (hashes.length + 1)).foldlM step (start, 0)
  pure allHashes

section Verifier
variable (hashing : Hashing T Hash)

def nextShuntHash (hash : Hash) (idx : Int) (hashes : List Hash) : Option Hash :=
  -- the source tests `idx == 0` at the top of each pass of a loop that runs at least once
  if idx = 0 then none else (spliceHash hash idx hashes []).map hashing.fromDataArray

def verifyShuntProofHead (nodeRootHash : Hash) : TrieMerkleProofType T Hash → Option Hash
  | shunt idx hashes =>
      if idx ≠ 0 then none
      else if hashes.length = 0 then some nodeRootHash
      else some (hashing.fromDataArray (nodeRootHash :: hashes))
  | _ => none

def verifyShuntProofTail (initialHash : Hash) (shuntProof : List (TrieMerkleProofType T Hash)) :
    Option Hash :=
  shuntProof.foldlM (fun hash entry =>
    match entry with
    | shunt idx hashes => if idx = 0 then none else nextShuntHash hashing hash idx hashes
    | _ => none) initialHash

def verifyShuntProofJunction (nodeRootHash penultimateTrieHash : Hash) :
    TrieMerkleProofType T Hash → Option Hash
  | shunt idx hashes =>
      if idx = 0 then none
      else (spliceHash penultimateTrieHash idx hashes [nodeRootHash]).map hashing.fromDataArray
  | _ => none

/-- `get_segment_proof_hash`: the hash of a node from its child's hash, put at
the first non-empty pointer with the child's byte, and the proof's hashes at
the others. It asserts that the node has `count` pointers. -/
def getSegmentProofHash (node : ProofTrieNode T) (hash : Hash) (chr : UInt8) (hashes : List Hash)
    (count : Nat) : Except String (Option Hash) :=
  if node.ptrs.length ≠ count then .error "assertion failed: node.ptrs().len() == count"
  else if ¬(count > 0 ∧ hashes.length = count - 1) then
    .error "assertion failed: count > 0 && hashes.len() == count - 1"
  else
    .ok do
      let step := fun (acc : List Hash × Nat) (childPtr : ProofTriePtr T) =>
        if childPtr.id ≠ TrieNodeID.empty.toU8 ∧ childPtr.chr = chr then some (acc.1 ++ [hash], acc.2)
        else
          match hashes[acc.2]? with
          | none => none
          | some next => some (acc.1 ++ [next], acc.2 + 1)
      let (allHashes, _) ← node.ptrs.foldlM step ([], 0)
      if allHashes.length ≠ count then none else some (hashing.getNodeHash node allHashes)

/-- The `match proof[i]` of `verify_segment_proof`: one entry's hash from its
child's; a shunt ends the segment with `None`. -/
def segmentEntryHash (hash : Hash) : TrieMerkleProofType T Hash → Except String (Option Hash)
  | leaf _ node => .ok (some (hashing.getLeafHash node))
  | node4 chr node hashes => getSegmentProofHash hashing node hash chr hashes.toList 4
  | node16 chr node hashes => getSegmentProofHash hashing node hash chr hashes.toList 16
  | node48 chr node hashes => getSegmentProofHash hashing node hash chr hashes.toList 48
  | node256 chr node hashes => getSegmentProofHash hashing node hash chr hashes.toList 256
  | shunt _ _ => .ok none

def verifySegmentProof : List (TrieMerkleProofType T Hash) → Hash → Except String (Option Hash)
  | [], hash => .ok (some hash)
  | entry :: rest, hash => do
      match ← segmentEntryHash hashing hash entry with
      | none => pure none
      | some next => verifySegmentProof rest next

end Verifier

/-- The path bytes one entry of a segment proof contributes. -/
def entryPathParts : TrieMerkleProofType T Hash → Option (List (List UInt8))
  | leaf _ node => some [node.path]
  | node4 chr node _ | node16 chr node _ | node48 chr node _ | node256 chr node _ =>
      some [[chr], node.path]
  | shunt _ _ => none

def getSegmentProofPathPrefix (segmentProof : List (TrieMerkleProofType T Hash)) :
    Option (List UInt8) := do
  let pathParts ← segmentProof.mapM entryPathParts
  -- the parts from the last pushed to the first: the root's comes first
  pure pathParts.flatten.reverse.flatten

/-- The outer loop of `is_proof_well_formed`, at the start of a segment proof:
the segment runs to the next shunt and the shunt proof over the shunts after
it. The first segment's path must be the expected path, and every later one a
prefix of that first path. -/
def wellFormedSegments (expectedPath pathBytes : List UInt8) (first : Bool) :
    List (TrieMerkleProofType T Hash) → Bool
  | [] => true
  | head :: tail =>
      match getSegmentProofPathPrefix (head :: tail.takeWhile (! ·.isShunt)) with
      | none => false
      | some newPathBytes =>
          if first && expectedPath != newPathBytes then false
          else if !first && !newPathBytes.isPrefixOf pathBytes then false
          else
            match _rest : tail.dropWhile (! ·.isShunt) with
            | [] => false
            | _ :: shunts =>
                wellFormedSegments expectedPath (if first then newPathBytes else pathBytes) false
                  (shunts.dropWhile (·.isShunt))
termination_by proof => proof.length
decreasing_by
  have fewer := congrArg List.length _rest
  have below := List.length_dropWhile_le (! ·.isShunt) tail
  have shorter := List.length_dropWhile_le (·.isShunt) shunts
  simp only [List.length_cons] at fewer ⊢
  omega

def isProofWellFormed (proof : List (TrieMerkleProofType T Hash)) (expectedPath : List UInt8) : Bool :=
  match proof with
  | leaf _ _ :: _ => wellFormedSegments expectedPath [] true proof
  | _ => false

section Verifier
variable (hashing : Hashing T Hash) [DecidableEq Hash]

/-- The `while i < proof.len()` loop of `verify_proof`, at the start of a
segment proof: the segment up to the next shunt gives the next root of a node,
the shunts with a nonzero index after it are the tail and, last, the junction
that gives the next trie hash. It stops early on the expected root. -/
def verifyLoop (rootHash : Hash) (rootToBlock : Hash → Option T) (nodeHash trieHash : Hash) :
    List (TrieMerkleProofType T Hash) → Except String Bool
  | [] => .ok (rootHash == trieHash)
  | head :: tail => do
      match ← verifySegmentProof hashing (head :: tail.takeWhile (! ·.isShunt)) nodeHash with
      | none => pure false
      | some nextNodeRootHash =>
          let afterSegment := tail.dropWhile (! ·.isShunt)
          -- `j - i` shunts with a nonzero index; none leaves `j < i`
          match (afterSegment.takeWhile (·.isTailShunt)).length with
          | 0 => pure false
          | tailLength + 1 =>
              match verifyShuntProofTail hashing trieHash (afterSegment.take tailLength) with
              | none => pure false
              | some penultimateTrieHash =>
                  match afterSegment[tailLength]? with
                  | none => pure false
                  | some junction =>
                      match verifyShuntProofJunction hashing nextNodeRootHash penultimateTrieHash
                          junction with
                      | none => pure false
                      | some nextTrieHash =>
                          match rootToBlock nextTrieHash with
                          | none => pure false
                          | some bhh =>
                              -- `break` on the expected root, then the final comparison
                              if nextTrieHash = rootHash then pure (rootHash == nextTrieHash)
                              else
                                verifyLoop rootHash rootToBlock (hashing.ofBlock bhh) nextTrieHash
                                  (afterSegment.drop (tailLength + 1))
termination_by proof => proof.length
decreasing_by
  have below := List.length_dropWhile_le (! ·.isShunt) tail
  simp only [List.length_drop, List.length_cons]
  omega

/-- `TrieMerkleProof::verify_proof`. -/
def verifyProof (proof : List (TrieMerkleProofType T Hash)) (path : List UInt8) (value : MARFValue)
    (rootHash : Hash) (rootToBlock : Hash → Option T) : Except String Bool :=
  if !isProofWellFormed proof path then .ok false
  else
    match proof with
    | leaf chr node :: rest =>
        if node.data ≠ value then .ok false
        else do
          let segmentProof := leaf chr node :: rest.takeWhile (! ·.isShunt)
          match ← verifySegmentProof hashing segmentProof (hashing.getLeafHash node) with
          | none => pure false
          | some nodeRootHash =>
              match rest.dropWhile (! ·.isShunt) with
              | [] => pure false
              | head :: more =>
                  match verifyShuntProofHead hashing nodeRootHash head with
                  | none => pure false
                  | some trieHash =>
                      match more with
                      | [] => pure (rootHash == trieHash)
                      | next :: _ =>
                          match rootToBlock trieHash with
                          | none => pure false
                          | some bhh =>
                              if next.isShunt then pure false
                              else verifyLoop hashing rootHash rootToBlock (hashing.ofBlock bhh) trieHash more
    | _ => .error "internal error: entered unreachable code"

end Verifier

end Hyperchains.Marf.Proofs

namespace Hyperchains.Marf.Proofs
open Panic TrieMerkleProofType

variable {T Hash : Type}

/-- A node entry has as many pointers as its width, as an honest prover writes
it and as `get_segment_proof_hash` asserts. -/
def TrieMerkleProofType.ptrsSized : TrieMerkleProofType T Hash → Bool
  | node4 _ node _ => node.ptrs.length == 4
  | node16 _ node _ => node.ptrs.length == 16
  | node48 _ node _ => node.ptrs.length == 48
  | node256 _ node _ => node.ptrs.length == 256
  | _ => true

section Panics
variable (hashing : Hashing T Hash)

theorem get_segment_proof_hash_panics {node : ProofTrieNode T} {count : Nat}
    (unsized : node.ptrs.length ≠ count) (hash : Hash) (chr : UInt8) (hashes : List Hash) :
    getSegmentProofHash hashing node hash chr hashes count =
      .error "assertion failed: node.ptrs().len() == count" := by
  simp [getSegmentProofHash, unsized]

theorem get_segment_proof_hash_ok {node : ProofTrieNode T} {hashes : List Hash} {count : Nat}
    (sized : node.ptrs.length = count) (positive : 0 < count) (others : hashes.length = count - 1)
    (hash : Hash) (chr : UInt8) :
    ∃ result, getSegmentProofHash hashing node hash chr hashes count = .ok result := by
  simp only [getSegmentProofHash, sized, ne_eq, not_true_eq_false, ↓reduceIte, positive, others,
    and_self]
  exact ⟨_, rfl⟩

theorem segment_entry_hash_ok {entry : TrieMerkleProofType T Hash} (sized : entry.ptrsSized = true)
    (hash : Hash) : ∃ result, segmentEntryHash hashing hash entry = .ok result := by
  cases entry with
  | node4 chr node hashes =>
      exact get_segment_proof_hash_ok hashing (by simpa [ptrsSized] using sized) (by decide) (by simp) hash chr
  | node16 chr node hashes =>
      exact get_segment_proof_hash_ok hashing (by simpa [ptrsSized] using sized) (by decide) (by simp) hash chr
  | node48 chr node hashes =>
      exact get_segment_proof_hash_ok hashing (by simpa [ptrsSized] using sized) (by decide) (by simp) hash chr
  | node256 chr node hashes =>
      exact get_segment_proof_hash_ok hashing (by simpa [ptrsSized] using sized) (by decide) (by simp) hash chr
  | leaf _ node => exact ⟨_, rfl⟩
  | shunt _ _ => exact ⟨_, rfl⟩

theorem verify_segment_proof_ok :
    ∀ {segment : List (TrieMerkleProofType T Hash)}, (∀ entry ∈ segment, entry.ptrsSized = true) →
      ∀ hash, ∃ result, verifySegmentProof hashing segment hash = .ok result
  | [], _, hash => ⟨_, rfl⟩
  | entry :: rest, sized, hash => by
      obtain ⟨first, ranFirst⟩ := segment_entry_hash_ok hashing (sized entry List.mem_cons_self) hash
      rw [verifySegmentProof, ranFirst, ok_bind]
      cases first with
      | none => exact ⟨_, rfl⟩
      | some next =>
          exact verify_segment_proof_ok (fun other mem => sized other (List.mem_cons_of_mem _ mem)) next

theorem verify_loop_ok [DecidableEq Hash] (rootHash : Hash) (rootToBlock : Hash → Option T)
    (nodeHash trieHash : Hash) (proof : List (TrieMerkleProofType T Hash))
    (sized : ∀ entry ∈ proof, entry.ptrsSized = true) :
    ∃ verified, verifyLoop hashing rootHash rootToBlock nodeHash trieHash proof = .ok verified := by
  fun_induction verifyLoop hashing rootHash rootToBlock nodeHash trieHash proof with
  | case1 => exact ⟨_, rfl⟩
  | case2 nodeHash trieHash head tail ih =>
      have inSegment : head :: tail.takeWhile (! ·.isShunt) ⊆ head :: tail :=
        List.cons_subset_cons _ (List.takeWhile_prefix _).subset
      obtain ⟨segmentHash, ranSegment⟩ :=
        verify_segment_proof_ok hashing (fun entry mem => sized entry (inSegment mem)) nodeHash
      rw [ranSegment, ok_bind]
      dsimp only at ih ⊢
      -- every branch answers at once but the recursive call, on a suffix of the proof
      repeat' split
      all_goals try exact ⟨_, rfl⟩
      exact ih _ _ _ fun entry mem =>
        sized entry (List.mem_cons_of_mem _ ((List.dropWhile_suffix _).subset (List.mem_of_mem_drop mem)))

theorem is_proof_well_formed_head {proof : List (TrieMerkleProofType T Hash)} {path : List UInt8}
    (wellFormed : isProofWellFormed proof path = true) :
    ∃ chr node rest, proof = leaf chr node :: rest := by
  unfold isProofWellFormed at wellFormed
  split at wellFormed
  · exact ⟨_, _, _, rfl⟩
  · cases wellFormed

/-- The verifier answers on every proof whose node entries have as many
pointers as their widths, whatever their paths, hashes and shunt indexes. -/
theorem verify_proof_ok [DecidableEq Hash] (proof : List (TrieMerkleProofType T Hash))
    (path : List UInt8) (value : MARFValue) (rootHash : Hash) (rootToBlock : Hash → Option T)
    (sized : ∀ entry ∈ proof, entry.ptrsSized = true) :
    ∃ verified, verifyProof hashing proof path value rootHash rootToBlock = .ok verified := by
  unfold verifyProof
  by_cases wellFormed : isProofWellFormed proof path = true
  · -- the shape check puts a leaf first, so `unreachable!` is not reached
    obtain ⟨chr, node, rest, rfl⟩ := is_proof_well_formed_head wellFormed
    simp only [wellFormed, Bool.not_true, Bool.false_eq_true, ↓reduceIte]
    split
    · exact ⟨_, rfl⟩
    · have inSegment : leaf chr node :: rest.takeWhile (! ·.isShunt) ⊆ leaf chr node :: rest :=
        List.cons_subset_cons _ (List.takeWhile_prefix _).subset
      obtain ⟨segmentHash, ranSegment⟩ :=
        verify_segment_proof_ok hashing (fun entry mem => sized entry (inSegment mem)) _
      rw [ranSegment, ok_bind]
      repeat' split
      all_goals try exact ⟨_, rfl⟩
      -- the loop runs over the entries after the first shunt proof head
      rename_i dropped _ _ _ _
      have inRest : ∀ entry ∈ rest.dropWhile (! ·.isShunt), entry ∈ rest :=
        fun entry mem => (List.dropWhile_suffix _).subset mem
      rw [dropped] at inRest
      exact verify_loop_ok hashing _ _ _ _ _ fun entry mem =>
        sized entry (List.mem_cons_of_mem _ (inRest entry (List.mem_cons_of_mem _ mem)))
  · simp [wellFormed]

/-- A proof that passes the shape check and is for the value, but whose first
node entry above the leaf is a `Node4` with other than four pointers, makes the
verifier panic in `get_segment_proof_hash`, whatever follows it. -/
theorem verify_proof_panics [DecidableEq Hash] {chr nodeChr : UInt8} {leafNode : TrieLeaf}
    {node : ProofTrieNode T} {hashes : Vector Hash 3} {rest : List (TrieMerkleProofType T Hash)}
    {path : List UInt8} {value : MARFValue}
    (wellFormed : isProofWellFormed (leaf chr leafNode :: node4 nodeChr node hashes :: rest) path = true)
    (forValue : leafNode.data = value) (unsized : node.ptrs.length ≠ 4) (rootHash : Hash)
    (rootToBlock : Hash → Option T) :
    verifyProof hashing (leaf chr leafNode :: node4 nodeChr node hashes :: rest) path value rootHash
      rootToBlock = .error "assertion failed: node.ptrs().len() == count" := by
  -- the first segment starts with the leaf and the node, whatever comes after them
  have segment : ∀ segmentTail, verifySegmentProof hashing (leaf chr leafNode :: node4 nodeChr node hashes ::
      segmentTail) (hashing.getLeafHash leafNode) = .error "assertion failed: node.ptrs().len() == count" := by
    intro segmentTail
    simp [verifySegmentProof, segmentEntryHash, get_segment_proof_hash_panics hashing unsized]
  simp [verifyProof, wellFormed, forValue, isShunt, segment]

end Panics

/-- Hashes that are all zero, for the witness below. -/
def zeroHashing : Hashing Nat Nat := ⟨fun _ => 0, fun _ _ => 0, fun _ => 0, fun _ => 0⟩

/-- A leaf at the end of the all-zero path. -/
def zeroPathLeaf : TrieLeaf := ⟨List.replicate 31 0, ⟨List.replicate 40 0, rfl⟩⟩

/-- The leaf, under a `Node4` with no pointers that is its trie's root, then
an empty shunt proof. -/
def pointerlessProof : List (TrieMerkleProofType Nat Nat) :=
  [leaf 0 zeroPathLeaf, node4 0 ⟨TrieNodeID.node4.toU8, [], []⟩ (Vector.replicate 3 0), shunt 0 []]

theorem pointerless_node_proof_panics :
    verifyProof zeroHashing pointerlessProof (List.replicate 32 0) zeroPathLeaf.data 0 (fun _ => none) =
      .error "assertion failed: node.ptrs().len() == count" :=
  verify_proof_panics zeroHashing
    (by decide +kernel)
    rfl (by decide) 0 (fun _ => none)

end Hyperchains.Marf.Proofs
