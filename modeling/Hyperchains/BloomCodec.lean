import Hyperchains.Bloom
import Hyperchains.Library.Reader

/-! The Bloom filter codec in the forward direction. A byte vector reads back
from `encode_bitfield` in both encodings while its length fits the bound of
the external vector reader; the sparse encoding needs only a `u32` length. The
full encoding is picked for dense vectors whatever their length, so a dense
vector longer than that bound is written and then refused. -/

namespace Hyperchains.Bloom
open Bytes

/-! ## Integers -/

theorem read_u8_cons (byte : UInt8) (rest : List UInt8) : readU8 (byte :: rest) = .ok (byte.toNat, rest) := by
  simp [readU8, readNatBE, readBytes, Except.map, natOfBE]

theorem read_u32_be_bytes {n : Nat} (below : n < 2 ^ 32) (rest : List UInt8) :
    readU32 (beBytes 4 n ++ rest) = .ok (n, rest) := by
  rw [readU32, read_nat_be_be_bytes, Nat.mod_eq_of_lt (by simpa using below)]

@[simp] theorem read_u32_bind {β : Type} {n : Nat} (below : n < 2 ^ 32) (next : Nat → Reader CodecError β)
    (rest : List UInt8) : (readU32 >>= next) (beBytes 4 n ++ rest) = next n rest :=
  bind_run_of_ok (read_u32_be_bytes below rest)

/-! ## The sparse encoding -/

theorem count_filled_le (bytes : List UInt8) : bytes.countP (· > 0) ≤ bytes.length :=
  List.countP_le_length

/-- The pairs from index `start` on read back over a vector that is zero from
`start` on: each non-zero byte is set at its index, and the zero ones are
already there. The induction is on the bytes still to read, the invariant that
the vector is zero past the bytes read so far. -/
theorem read_sparse_write_sparse {len : Nat} (bounded : len < 2 ^ 32) :
    ∀ (bits : List UInt8) (start : Nat) (ret : List UInt8), start + bits.length = len → ret.length = len →
      ret.drop start = List.replicate bits.length 0 → ∀ rest,
      readSparse len (bits.countP (· > 0)) ret (writeSparse start bits ++ rest) = .ok (ret.take start ++ bits, rest)
  | [], start, ret, sized, length, _, rest => by
      have whole : ret.take start = ret := List.take_of_length_le (by simp at sized; omega)
      simp [readSparse, writeSparse, whole]
  | bits :: others, start, ret, sized, length, zeros, rest => by
      simp only [List.length_cons] at sized zeros
      have inside : start < ret.length := by omega
      -- past the first byte the vector is still zero, and at it there is a zero
      have zerosAfter : ret.drop (start + 1) = List.replicate others.length 0 := by
        rw [← List.drop_drop, zeros]
        simp [List.replicate_succ]
      have zeroAt : ret[start]? = some 0 := by
        have first := congrArg (·[0]?) zeros
        simp only [List.getElem?_drop, Nat.add_zero, List.replicate_succ, List.getElem?_cons_zero] at first
        exact first
      by_cases filled : bits > 0
      · have set := read_sparse_write_sparse bounded others (start + 1) (ret.set start bits) (by omega)
          (by simp [length]) (by rw [List.drop_set_of_lt (Nat.lt_succ_self start), zerosAfter]) rest
        have taken : (ret.set start bits).take (start + 1) = ret.take start ++ [bits] := by
          rw [List.take_add_one, List.take_set_of_le (le_refl _), List.getElem?_set_self inside]
          rfl
        have notOver : ¬ start ≥ len := by omega
        simp only [List.countP_cons, filled, decide_true, if_true, writeSparse, List.append_assoc,
          readSparse, read_u32_bind (show start < 2 ^ 32 by omega), notOver, if_false, List.cons_append,
          read_byte_bind]
        simpa [taken] using set
      · have zero : bits = 0 := by simpa using filled
        have kept := read_sparse_write_sparse bounded others (start + 1) ret (by omega) length zerosAfter rest
        have taken : ret.take (start + 1) = ret.take start ++ [bits] := by
          rw [List.take_add_one, zeroAt, zero]
          rfl
        simp only [List.countP_cons, filled, decide_false, writeSparse, if_false, List.nil_append]
        simpa [taken] using kept

@[simp] theorem read_u8_bind {β : Type} (next : Nat → Reader CodecError β) (byte : UInt8) (rest : List UInt8) :
    (readU8 >>= next) (byte :: rest) = next byte.toNat rest :=
  bind_run_of_ok (read_u8_cons byte rest)

theorem decode_bitfield_sparse (maxMessageLen : Nat) {bytes : List UInt8} (counted : bytes.length < 2 ^ 32)
    (rest : List UInt8) :
    decodeBitfield maxMessageLen
        (1 :: beBytes 4 bytes.length ++ beBytes 4 (bytes.countP (· > 0)) ++ writeSparse 0 bytes ++ rest) =
      .ok (bytes, rest) := by
  have filled : bytes.countP (· > 0) < 2 ^ 32 := lt_of_le_of_lt (count_filled_le bytes) counted
  have pairs := read_sparse_write_sparse counted bytes 0 (List.replicate bytes.length 0) (by simp) (by simp)
    (by simp) rest
  simp only [List.take_zero, List.nil_append] at pairs
  simp only [decodeBitfield, List.append_assoc, List.cons_append, read_u8_bind, UInt8.toNat_one, if_true,
    read_u32_bind counted, read_u32_bind filled, pairs]

theorem decode_bitfield_full {maxMessageLen : Nat} {bytes : List UInt8} (fits : bytes.length ≤ maxMessageLen)
    (counted : bytes.length < 2 ^ 32) (rest : List UInt8) :
    decodeBitfield maxMessageLen (2 :: beBytes 4 bytes.length ++ bytes ++ rest) = .ok (bytes, rest) := by
  have items := read_many_append (readByte CodecError.readError) (fun byte => [byte]) (fun _ _ => rfl) bytes rest
  have within : ¬ maxMessageLen < bytes.length := by omega
  simp only [List.flatMap_singleton'] at items
  simp [decodeBitfield, readVec, List.append_assoc, read_u32_bind counted, within, items]

/-- `encode_bitfield` reads back unless the full encoding is picked for a
vector longer than the bound. -/
theorem decode_bitfield_encode {maxMessageLen : Nat} {bytes : List UInt8}
    (readable : bytes.countP (· > 0) * 5 + 4 < bytes.length ∨ bytes.length ≤ maxMessageLen)
    (counted : bytes.length < 2 ^ 32) (rest : List UInt8) :
    decodeBitfield maxMessageLen (encodeBitfield bytes ++ rest) = .ok (bytes, rest) := by
  by_cases sparse : bytes.countP (· > 0) * 5 + 4 < bytes.length
  · simp only [encodeBitfield, sparse, if_true]
    exact decode_bitfield_sparse maxMessageLen counted rest
  · simp only [encodeBitfield, sparse, if_false]
    exact decode_bitfield_full (readable.resolve_left sparse) counted rest

/-- What the codec needs of a `BitField`: a `u32` bit count and bytes that
`decode_bitfield` reads back. -/
def BitField.Readable (maxMessageLen : Nat) (field : BitField) : Prop :=
  field.numBits < 2 ^ 32 ∧ field.bits.length < 2 ^ 32 ∧
    (field.bits.countP (· > 0) * 5 + 4 < field.bits.length ∨ field.bits.length ≤ maxMessageLen)

theorem decode_bit_field_encode {maxMessageLen : Nat} {field : BitField} (readable : field.Readable maxMessageLen)
    (rest : List UInt8) : decodeBitField maxMessageLen (encodeBitField field ++ rest) = .ok (field, rest) := by
  obtain ⟨numBits, counted, bits⟩ := readable
  simp only [decodeBitField, encodeBitField, List.append_assoc, read_u32_bind numBits]
  rw [bind_run_of_ok (decode_bitfield_encode bits counted rest)]
  rfl

/-- A filter reads back from its bytes: its seed is the 32-byte array of the
source, its hash count a `u32`, and its bits readable. -/
theorem decode_bloom_filter_encode {maxMessageLen : Nat} {filter : BloomFilter} (seeded : filter.seed.length = 32)
    (numHashes : filter.numHashes < 2 ^ 32) (readable : filter.bits.Readable maxMessageLen) (rest : List UInt8) :
    decodeBloomFilter maxMessageLen (encodeBloomFilter filter ++ rest) = .ok (filter, rest) := by
  have seed := read_bytes_append CodecError.readError filter.seed
    (beBytes 4 filter.numHashes ++ (encodeBitField filter.bits ++ rest))
  rw [seeded] at seed
  simp only [decodeBloomFilter, encodeBloomFilter, readArray, List.append_assoc, List.cons_append,
    read_u8_bind, UInt8.toNat_one, if_true, bind_run_of_ok seed, read_u32_bind numHashes]
  rw [bind_run_of_ok (decode_bit_field_encode readable rest)]
  rfl

/-- A dense vector longer than the bound of the vector reader: `encode_bitfield`
picks the full encoding, which `decode_bitfield` refuses. -/
theorem dense_bitfield_refused {maxMessageLen : Nat} {bytes : List UInt8}
    (dense : bytes.length ≤ bytes.countP (· > 0) * 5 + 4) (beyond : maxMessageLen < bytes.length)
    (counted : bytes.length < 2 ^ 32) (rest : List UInt8) :
    decodeBitfield maxMessageLen (encodeBitfield bytes ++ rest) = .error .tooLong := by
  have full : ¬ bytes.countP (· > 0) * 5 + 4 < bytes.length := by omega
  simp [encodeBitfield, full, decodeBitfield, readVec, List.append_assoc, read_u32_bind counted, beyond]

/-- `MAX_MESSAGE_LEN` of the `stacks-common` codec, the bound of its vector
reader. -/
def maxMessageLen : Nat := 1 + 16 * 1024 * 1024

/-- A vector one byte over `MAX_MESSAGE_LEN`, every byte set, is written in
the full encoding and refused. -/
theorem max_message_len_dense_bitfield_refused :
    decodeBitfield maxMessageLen (encodeBitfield (List.replicate (maxMessageLen + 1) 1)) = .error .tooLong := by
  have dense : (List.replicate (maxMessageLen + 1) (1 : UInt8)).length ≤
      (List.replicate (maxMessageLen + 1) (1 : UInt8)).countP (· > 0) * 5 + 4 := by
    rw [List.countP_replicate, List.length_replicate]
    simp only [gt_iff_lt, decide_eq_true_eq, show (0 : UInt8) < 1 from by decide, if_true]
    omega
  have beyond : maxMessageLen < (List.replicate (maxMessageLen + 1) (1 : UInt8)).length := by
    rw [List.length_replicate]
    exact Nat.lt_succ_self _
  have counted : (List.replicate (maxMessageLen + 1) (1 : UInt8)).length < 2 ^ 32 := by
    rw [List.length_replicate, maxMessageLen]
    norm_num
  have refused := @dense_bitfield_refused maxMessageLen _ dense beyond counted []
  rwa [List.append_nil] at refused

/-- The three codecs read back what they write, consuming exactly it, within
the bounds their readers check: the bit vector in both encodings while its
length is a `u32` and, in the full encoding, fits the vector reader; a
`BitField` whose bit count is a `u32` and whose bits read back; a
`BloomFilter` with a 32-byte seed, a `u32` hash count and bits that read back. -/
theorem bloom_codecs_round_trip {maxMessageLen : Nat} {bytes : List UInt8} {field : BitField}
    {filter : BloomFilter} (readable : bytes.countP (· > 0) * 5 + 4 < bytes.length ∨ bytes.length ≤ maxMessageLen)
    (counted : bytes.length < 2 ^ 32) (fieldReadable : field.Readable maxMessageLen)
    (seeded : filter.seed.length = 32) (numHashes : filter.numHashes < 2 ^ 32)
    (filterReadable : filter.bits.Readable maxMessageLen) (rest : List UInt8) :
    decodeBitfield maxMessageLen (encodeBitfield bytes ++ rest) = .ok (bytes, rest) ∧
      decodeBitField maxMessageLen (encodeBitField field ++ rest) = .ok (field, rest) ∧
      decodeBloomFilter maxMessageLen (encodeBloomFilter filter ++ rest) = .ok (filter, rest) :=
  ⟨decode_bitfield_encode readable counted rest, decode_bit_field_encode fieldReadable rest,
    decode_bloom_filter_encode seeded numHashes filterReadable rest⟩

/-- A three-byte vector in the full encoding, and a filter over it, at the
node's `MAX_MESSAGE_LEN`. -/
theorem filter_over_three_bytes_round_trip :
    (([0, 7, 0] : List UInt8).countP (· > 0) * 5 + 4 < [0, 7, 0].length ∨ [0, 7, 0].length ≤ maxMessageLen) ∧
      ([0, 7, 0] : List UInt8).length < 2 ^ 32 ∧ BitField.Readable maxMessageLen ⟨[0, 7, 0], 20⟩ ∧
      (List.replicate 32 (0 : UInt8)).length = 32 ∧ 2 < 2 ^ 32 ∧
      decodeBitfield maxMessageLen (encodeBitfield [0, 7, 0] ++ [9]) = .ok ([0, 7, 0], [9]) ∧
      decodeBitField maxMessageLen (encodeBitField ⟨[0, 7, 0], 20⟩ ++ [9]) = .ok (⟨[0, 7, 0], 20⟩, [9]) ∧
      decodeBloomFilter maxMessageLen (encodeBloomFilter ⟨List.replicate 32 0, ⟨[0, 7, 0], 20⟩, 2⟩ ++ [9]) =
        .ok (⟨List.replicate 32 0, ⟨[0, 7, 0], 20⟩, 2⟩, [9]) := by
  have readable : ([0, 7, 0] : List UInt8).countP (· > 0) * 5 + 4 < [0, 7, 0].length ∨
      [0, 7, 0].length ≤ maxMessageLen := by decide
  have fieldReadable : BitField.Readable maxMessageLen ⟨[0, 7, 0], 20⟩ := by
    unfold BitField.Readable
    decide
  exact ⟨readable, by decide, fieldReadable, by decide, by decide,
    @bloom_codecs_round_trip maxMessageLen [0, 7, 0] ⟨[0, 7, 0], 20⟩ ⟨List.replicate 32 0, ⟨[0, 7, 0], 20⟩, 2⟩
      readable (by decide) fieldReadable (by decide) (by decide) fieldReadable [9]⟩

end Hyperchains.Bloom
