import Hyperchains.Library.Bytes
import Hyperchains.Library.Panic

/-! The Bloom filters a peer sends in a `/v2/mempool/query` request
(`util_lib/bloom.rs`, the `MemPoolSyncData` codec of `net/codec.rs`) and the
query that tests the mempool's transactions against them
(`MemPoolDB::find_next_missing_transactions`). The decoder takes any bit count
with any byte vector, and the filter's test trusts both: with no bits,
`pick_bin` divides by zero, and with fewer bytes than bits, `BitField::test`
indexes past the vector. SipHash (the `siphasher` crate) is a parameter, and so
are the length bound of the external `read_next` of a vector and the transaction
decoder. A call ends with a value, a returned error, a panic, or a run of the
modulus-bias loop of `pick_bin` longer than its fuel. -/

namespace Hyperchains.Bloom
open Bytes

/-- `codec::Error` as these decoders raise it. -/
inductive CodecError where
  | readError
  | deserializeError (message : String)
  | tooLong
  deriving DecidableEq, Repr

/-- How a call fails. -/
inductive Fault where
  | panic (message : String)
  | diverged
  | parseError
  deriving DecidableEq, Repr

/-! ## The codec -/

def readU8 : Reader CodecError Nat := readNatBE .readError 1

def readU32 : Reader CodecError Nat := readNatBE .readError 4

/-- `[u8; n]`. -/
def readArray (n : Nat) : Reader CodecError (List UInt8) := readBytes .readError n

/-- `read_next` of a `Vec`: a `u32` count, then the items; the external codec
refuses a count whose items would pass `maxMessageLen` bytes. -/
def readVec {α : Type} (maxMessageLen itemSize : Nat) (item : Reader CodecError α) :
    Reader CodecError (List α) := do
  let count ← readU32
  if count * itemSize > maxMessageLen then throw .tooLong
  readMany item count

/-- The pairs of a sparse bit vector, each written over the zeroed vector. -/
def readSparse (vecLen : Nat) : Nat → List UInt8 → Reader CodecError (List UInt8)
  | 0, ret => pure ret
  | numFilled + 1, ret => do
      let idx ← readU32
      if idx ≥ vecLen then throw (.deserializeError s!"Index overflow: {idx} >= {vecLen}")
      let value ← readByte .readError
      readSparse vecLen numFilled (ret.set idx value)

/-- `decode_bitfield`: sparse (`0x01`) or full (`0x02`). -/
def decodeBitfield (maxMessageLen : Nat) : Reader CodecError (List UInt8) := do
  let encoding ← readU8
  if encoding = 1 then do
    let vecLen ← readU32
    let numFilled ← readU32
    readSparse vecLen numFilled (List.replicate vecLen 0)
  else if encoding = 2 then readVec maxMessageLen 1 (readByte .readError)
  else throw (.deserializeError s!"Unrecognized bloom count encoding: {encoding}")

/-- `BitField(bytes, num_bits)`: a bit count and the bytes that hold the bits. -/
structure BitField where
  bits : List UInt8
  numBits : Nat
  deriving DecidableEq, Repr

/-- `BitField::consensus_deserialize`: the count and the bytes are read apart and
never compared. -/
def decodeBitField (maxMessageLen : Nat) : Reader CodecError BitField := do
  let numBits ← readU32
  let bits ← decodeBitfield maxMessageLen
  pure ⟨bits, numBits⟩

/-- `BloomFilter<BloomNodeHasher>`: the hasher's seed, the bits, the number of
hash functions. -/
structure BloomFilter where
  seed : List UInt8
  bits : BitField
  numHashes : Nat
  deriving DecidableEq, Repr

def decodeBloomFilter (maxMessageLen : Nat) : Reader CodecError BloomFilter := do
  let hasherType ← readU8
  if hasherType = 1 then do
    let seed ← readArray 32
    let numHashes ← readU32
    let bits ← decodeBitField maxMessageLen
    pure ⟨seed, bits, numHashes⟩
  else throw (.deserializeError s!"Not a supported bloom hasher type ID: {hasherType}")

/-- The `(index as u32, byte)` pairs of the non-zero bytes, from index `i` on. -/
def writeSparse : Nat → List UInt8 → List UInt8
  | _, [] => []
  | i, bits :: rest => (if bits > 0 then beBytes 4 i ++ [bits] else []) ++ writeSparse (i + 1) rest

/-- `encode_bitfield`: the pairs of the non-zero bytes when they are shorter
(`num_filled * 5 + 4 < len`), else the bytes as a vector. Lengths and counts
are written `as u32`. -/
def encodeBitfield (bytes : List UInt8) : List UInt8 :=
  let numFilled := bytes.countP (· > 0)
  if numFilled * 5 + 4 < bytes.length then
    1 :: beBytes 4 bytes.length ++ beBytes 4 numFilled ++ writeSparse 0 bytes
  else 2 :: beBytes 4 bytes.length ++ bytes

/-- `BitField::consensus_serialize`: the bit count, then the bytes without a
length of their own. -/
def encodeBitField (field : BitField) : List UInt8 :=
  beBytes 4 field.numBits ++ encodeBitfield field.bits

/-- `BloomFilter::consensus_serialize`: the hasher's id and seed, the number of
hashes, the bits. -/
def encodeBloomFilter (filter : BloomFilter) : List UInt8 :=
  1 :: filter.seed ++ beBytes 4 filter.numHashes ++ encodeBitField filter.bits

inductive MemPoolSyncData where
  | bloomFilter (filter : BloomFilter)
  | txTags (seed : List UInt8) (tags : List (List UInt8))
  deriving DecidableEq, Repr

/-- `MemPoolSyncData::consensus_deserialize`, the body of a mempool query. -/
def decodeMemPoolSyncData (maxMessageLen : Nat) : Reader CodecError MemPoolSyncData := do
  let dataId ← readU8
  if dataId = 1 then do
    let filter ← decodeBloomFilter maxMessageLen
    pure (.bloomFilter filter)
  else if dataId = 2 then do
    let seed ← readArray 32
    let tags ← readVec maxMessageLen 8 (readArray 8)
    pure (.txTags seed tags)
  else throw (.deserializeError s!"Unrecognized MemPoolSyncDataID {dataId}")

/-! ## The filter -/

/-- `BITVEC_LEN!` of stacks-common: the bytes that hold `sz` bits. -/
def bitvecLen (sz : Nat) : Nat := sz / 8 + if sz % 8 > 0 then 1 else 0

namespace BitField

/-- `BitField::new`: `sz` bits, all clear. -/
def new (sz : Nat) : BitField := ⟨List.replicate (bitvecLen sz) 0, sz⟩

def test (field : BitField) (bit : Nat) : Except Fault Bool :=
  if bit ≥ field.numBits then .error (.panic "Attempted to read beyind end of bitfield")
  else match field.bits[bit / 8]? with
    | none => .error (.panic "index out of bounds")
    | some byte => .ok (byte &&& ((1 : UInt8) <<< (bit % 8).toUInt8) ≠ 0)

def set (field : BitField) (bit : Nat) : Except Fault BitField :=
  if bit ≥ field.numBits then .error (.panic "Attempted to write beyond end of bitfield")
  else match field.bits[bit / 8]? with
    | none => .error (.panic "index out of bounds")
    | some byte => .ok ⟨field.bits.set (bit / 8) (byte ||| ((1 : UInt8) <<< (bit % 8).toUInt8)), field.numBits⟩

end BitField

/-- SipHash-2-4 as the node uses it: a state that takes bytes and `u64`s, and
its 64-bit digest. -/
structure SipHasher (State : Type) where
  new : State
  write : State → List UInt8 → State
  writeU64 : State → UInt64 → State
  finish : State → UInt64

def u32Max : Nat := 2 ^ 32 - 1

section Hashing
variable {State : Type} (sip : SipHasher State)

/-- The loop of `pick_bin` that removes the modulus bias by rehashing;
`u32::MAX % num_bins` panics when there are no bins. -/
def pickBinLoop (numBins : Nat) : Nat → State → Except Fault Nat
  | 0, _ => .error .diverged
  | fuel + 1, hasher =>
      let result64 := sip.finish hasher
      let result := result64.toNat % 2 ^ 32
      if numBins = 0 then .error (.panic "attempt to calculate the remainder with a divisor of zero")
      else if result < u32Max - u32Max % numBins then .ok (result % numBins)
      else pickBinLoop numBins fuel (sip.writeU64 hasher result64)

/-- `BloomNodeHasher::pick_bin`: hash the count, the seed and the item. -/
def pickBin (seed : List UInt8) (fuel count : Nat) (data : List UInt8) (numBins : Nat) : Except Fault Nat :=
  pickBinLoop sip numBins fuel (sip.write sip.new (beBytes 4 count ++ seed ++ data))

/-- The loop of `contains_raw` over the hash functions left. -/
def containsSlots (filter : BloomFilter) (fuel : Nat) (item : List UInt8) : List Nat → Except Fault Bool
  | [] => .ok true
  | i :: rest => do
      let slot ← pickBin sip filter.seed fuel i item filter.bits.numBits
      if slot < filter.bits.numBits then do
        let present ← filter.bits.test slot
        if present then containsSlots filter fuel item rest else .ok false
      else .error (.panic s!"BUG: hasher selected a slot outside the bitfield: {slot}")

/-- `BloomFilter::contains_raw`. -/
def containsRaw (fuel : Nat) (filter : BloomFilter) (item : List UInt8) : Except Fault Bool :=
  containsSlots sip filter fuel item (List.range filter.numHashes)

/-- `TxTag::from`: the big-endian digest of the seed and the txid. -/
def txTagFrom (seed txid : List UInt8) : List UInt8 :=
  beBytes 8 (sip.finish (sip.write (sip.write sip.new seed) txid)).toNat

end Hashing

/-! ## The query -/

/-- A row of `mempool` joined with `randomized_txids`; `removed` is whether the
txid is in `removed_txids`. -/
structure MemPoolRow where
  txid : List UInt8
  tx : List UInt8
  hashedTxid : List UInt8
  height : Nat
  removed : Bool
  deriving DecidableEq, Repr

def bloomCounterDepth : Nat := 2

/-- The rows the query of `find_next_missing_transactions` selects: after the
last randomized txid, above the Bloom counter's window, not removed, in
randomized order, at most `maxRun`. -/
def selectRows (rows : List MemPoolRow) (height : Nat) (lastRandomizedTxid : List UInt8)
    (maxRun : Nat) : List MemPoolRow :=
  ((rows.filter fun row => decide (lastRandomizedTxid < row.hashedTxid) &&
      decide (height - bloomCounterDepth < row.height) && !row.removed).mergeSort
    fun first second => decide (first.hashedTxid ≤ second.hashedTxid)).take maxRun

section Query
variable {State Tx : Type} (sip : SipHasher State) (decodeTx : List UInt8 → Option Tx)

/-- The loop over the selected rows: skip what the peer has, decode and return
the rest, up to `maxTxs`. -/
def findNextMissingLoop (fuel : Nat) (data : MemPoolSyncData) (maxTxs maxRun : Nat) :
    List MemPoolRow → List Tx → Option (List UInt8) → Nat →
      Except Fault (List Tx × Option (List UInt8) × Nat)
  | [], ret, nextPage, numRowsVisited => .ok (ret, nextPage, numRowsVisited)
  | row :: rows, ret, nextPage, numRowsVisited =>
      if numRowsVisited ≥ maxRun then .ok (ret, nextPage, numRowsVisited)
      else do
        let contains ← match data with
          | .bloomFilter filter => containsRaw sip fuel filter row.txid
          | .txTags seed tags => pure (tags.contains (txTagFrom sip seed row.txid))
        let visited := numRowsVisited + 1
        if contains then findNextMissingLoop fuel data maxTxs maxRun rows ret (some row.hashedTxid) visited
        else match decodeTx row.tx with
          | none => .error .parseError
          | some tx =>
              if (ret ++ [tx]).length ≥ maxTxs then .ok (ret ++ [tx], some row.hashedTxid, visited)
              else findNextMissingLoop fuel data maxTxs maxRun rows (ret ++ [tx]) (some row.hashedTxid) visited

/-- `MemPoolDB::find_next_missing_transactions`. -/
def findNextMissingTransactions (fuel : Nat) (rows : List MemPoolRow) (data : MemPoolSyncData)
    (height : Nat) (lastRandomizedTxid : List UInt8) (maxTxs maxRun : Nat) :
    Except Fault (List Tx × Option (List UInt8) × Nat) :=
  findNextMissingLoop sip decodeTx fuel data maxTxs maxRun (selectRows rows height lastRandomizedTxid maxRun) [] none 0

end Query

/-! ## What the test of a filter does -/

/-- A call that does not panic. -/
def NoPanic {α : Type} (result : Except Fault α) : Prop := ∀ message, result ≠ .error (.panic message)

theorem NoPanic.bind {α β : Type} {run : Except Fault α} {next : α → Except Fault β}
    (first : NoPanic run) (rest : ∀ value, run = .ok value → NoPanic (next value)) : NoPanic (run >>= next) := by
  cases run with
  | error fault =>
      intro message failed
      have same : fault = .panic message := by simpa [Panic.error_bind] using failed
      exact first message (by rw [same])
  | ok value => exact rest value rfl

@[simp] theorem no_panic_ok {α : Type} (value : α) : NoPanic (.ok value : Except Fault α) := fun _ => nofun

@[simp] theorem no_panic_diverged {α : Type} : NoPanic (.error .diverged : Except Fault α) := fun _ => nofun

/-- Bits that the byte vector holds, at least one. -/
structure BitField.WellFormed (field : BitField) : Prop where
  positive : 0 < field.numBits
  backed : field.numBits ≤ 8 * field.bits.length

theorem BitField.test_of_lt {field : BitField} (wf : field.WellFormed) {bit : Nat} (below : bit < field.numBits) :
    ∃ present, field.test bit = .ok present := by
  have inside : bit / 8 < field.bits.length := by
    have := wf.backed
    omega
  simp only [test, ge_iff_le, Nat.not_le.mpr below, ↓reduceIte, List.getElem?_eq_getElem inside]
  exact ⟨_, rfl⟩

section Hashing
variable {State : Type} (sip : SipHasher State)

theorem pick_bin_loop_no_bins (fuel : Nat) (positive : 0 < fuel) (hasher : State) :
    pickBinLoop sip 0 fuel hasher = .error (.panic "attempt to calculate the remainder with a divisor of zero") := by
  obtain ⟨fuel, rfl⟩ : ∃ rest, fuel = rest + 1 := ⟨fuel - 1, by omega⟩
  simp [pickBinLoop]

/-- With some bins, the loop only ever lands in one of them, or runs out of fuel. -/
theorem pick_bin_loop_spec {numBins : Nat} (positive : 0 < numBins) :
    ∀ fuel hasher, pickBinLoop sip numBins fuel hasher = .error .diverged ∨
      ∃ slot, pickBinLoop sip numBins fuel hasher = .ok slot ∧ slot < numBins := by
  intro fuel
  induction fuel with
  | zero => intro hasher; exact .inl rfl
  | succ fuel ih =>
      intro hasher
      simp only [pickBinLoop, Nat.pos_iff_ne_zero.mp positive, ↓reduceIte]
      split
      · exact .inr ⟨_, rfl, Nat.mod_lt _ positive⟩
      · exact ih _

/-- A filter without bits panics at its first hash function. -/
theorem contains_raw_no_bits (fuel : Nat) (positive : 0 < fuel) (seed bits item : List UInt8) (numHashes : Nat) :
    containsRaw sip fuel ⟨seed, ⟨bits, 0⟩, numHashes + 1⟩ item =
      .error (.panic "attempt to calculate the remainder with a divisor of zero") := by
  simp [containsRaw, List.range_succ_eq_map, containsSlots, pickBin, pick_bin_loop_no_bins sip fuel positive,
    Panic.error_bind]

/-- A filter whose bits the vector does not hold never answers: the first slot
is past the end of the vector. -/
theorem contains_raw_no_bytes (fuel : Nat) (seed item : List UInt8) (numBits numHashes : Nat)
    (answer : Bool) : containsRaw sip fuel ⟨seed, ⟨[], numBits⟩, numHashes + 1⟩ item ≠ .ok answer := by
  simp only [containsRaw, List.range_succ_eq_map, containsSlots]
  intro answered
  obtain ⟨slot, picked, rest⟩ := Panic.bind_eq_ok answered
  by_cases inside : slot < numBits
  · simp [inside, Nat.not_le.mpr inside, BitField.test] at rest
  · simp [inside] at rest

theorem contains_slots_no_panic {filter : BloomFilter} (wf : filter.bits.WellFormed) (fuel : Nat)
    (item : List UInt8) : ∀ slots, NoPanic (containsSlots sip filter fuel item slots) := by
  intro slots
  induction slots with
  | nil => simp [containsSlots]
  | cons i rest ih =>
      simp only [containsSlots]
      rcases pick_bin_loop_spec sip wf.positive fuel
          (sip.write sip.new (beBytes 4 i ++ filter.seed ++ item)) with diverged | ⟨slot, picked, below⟩
      · simp only [pickBin, diverged]
        exact no_panic_diverged.bind fun _ wrong => nomatch wrong
      · simp only [pickBin, picked, Panic.ok_bind, below, ↓reduceIte]
        obtain ⟨present, tested⟩ := BitField.test_of_lt wf below
        rw [tested, Panic.ok_bind]
        cases present
        · simp
        · simpa using ih

/-- A filter whose bits the vector holds never panics. -/
theorem contains_raw_no_panic {filter : BloomFilter} (wf : filter.bits.WellFormed) (fuel : Nat)
    (item : List UInt8) : NoPanic (containsRaw sip fuel filter item) :=
  contains_slots_no_panic sip wf fuel item _

end Hashing

/-! ## A request that crashes the query -/

/-- The body of a `/v2/mempool/query` request: a Bloom filter of the node hasher
with a zero seed, one hash function, no bits, and an empty full byte vector. -/
def zeroBitQuery : List UInt8 :=
  [1, 1] ++ List.replicate 32 0 ++ [0, 0, 0, 1] ++ [0, 0, 0, 0] ++ [2] ++ [0, 0, 0, 0]

theorem zero_bit_query_decodes (maxMessageLen : Nat) :
    decodeMemPoolSyncData maxMessageLen zeroBitQuery =
      .ok (.bloomFilter ⟨List.replicate 32 0, ⟨[], 0⟩, 1⟩, []) := by
  simp [decodeMemPoolSyncData, zeroBitQuery, readU8, readNatBE, readBytes, natOfBE, Except.map,
    decodeBloomFilter, readArray, readU32, decodeBitField, decodeBitfield, readVec, readMany,
    StateT.bind, bind, Except.bind, pure, StateT.pure, Except.pure]

/-- Whatever the mempool, the hasher and the transaction decoder, once the query
selects a row, the decoded zero-bit filter makes the query panic in `pick_bin`. -/
theorem zero_bit_query_panics {State Tx : Type} (sip : SipHasher State) (decodeTx : List UInt8 → Option Tx)
    (maxMessageLen fuel : Nat) (positive : 0 < fuel) (rows : List MemPoolRow) (height : Nat)
    (lastRandomizedTxid : List UInt8) (maxTxs maxRun : Nat)
    (selected : selectRows rows height lastRandomizedTxid maxRun ≠ []) :
    ∃ data, decodeMemPoolSyncData maxMessageLen zeroBitQuery = .ok (data, []) ∧
      findNextMissingTransactions sip decodeTx fuel rows data height lastRandomizedTxid maxTxs maxRun =
        .error (.panic "attempt to calculate the remainder with a divisor of zero") := by
  refine ⟨_, zero_bit_query_decodes maxMessageLen, ?_⟩
  obtain ⟨row, others, split⟩ := List.exists_cons_of_ne_nil selected
  -- the query visits at least one row, so `maxRun` is positive
  have running : 0 < maxRun := by
    rcases Nat.eq_zero_or_pos maxRun with none | some
    · simp [selectRows, none] at split
    · exact some
  simp [findNextMissingTransactions, split, findNextMissingLoop, Nat.not_le.mpr running,
    contains_raw_no_bits sip fuel positive]

/-- One row at height 5, a hasher that always answers 0, and a decoder
that decodes nothing. -/
theorem zero_bit_query_panics_on_one_row :
    (0 : Nat) < 1 ∧ selectRows [⟨[1], [], [1], 5, false⟩] 5 [] 1 ≠ [] ∧
      ∃ data, decodeMemPoolSyncData 0 zeroBitQuery = .ok (data, []) ∧
        findNextMissingTransactions (⟨(), fun _ _ => (), fun _ _ => (), fun _ => 0⟩ : SipHasher Unit)
            (fun _ => (none : Option Unit)) 1 [⟨[1], [], [1], 5, false⟩] data 5 [] 1 1 =
          .error (.panic "attempt to calculate the remainder with a divisor of zero") :=
  ⟨by decide, by simp [selectRows, bloomCounterDepth],
    zero_bit_query_panics _ _ 0 1 (by decide) [⟨[1], [], [1], 5, false⟩] 5 [] 1 1
      (by simp [selectRows, bloomCounterDepth])⟩

end Hyperchains.Bloom
