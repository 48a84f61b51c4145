import Mathlib

/-! Decoders over a byte stream: a state of unread bytes in an error monad, so
that each decoder reads a prefix and leaves the rest. Fixed-length byte strings,
fixed-width big-endian naturals and counted lists, with the encoders they
invert: reading what was written gives the value back and leaves the bytes
after it. -/

namespace Bytes

variable {ε α : Type}

/-- A decoder: the value read and the bytes after it, or an error. -/
abbrev Reader (ε α : Type) := StateT (List UInt8) (Except ε) α

/-- `n` bytes, or `eof` when fewer are left. -/
def readBytes (eof : ε) (n : Nat) : Reader ε (List UInt8) := fun bytes =>
  if n ≤ bytes.length then .ok (bytes.take n, bytes.drop n) else .error eof

/-- One byte, or `eof` at the end. -/
def readByte (eof : ε) : Reader ε UInt8 := fun bytes =>
  match bytes with
  | [] => .error eof
  | byte :: rest => .ok (byte, rest)

/-- The natural number a big-endian byte string stands for. -/
def natOfBE (bytes : List UInt8) : Nat :=
  bytes.foldl (fun acc byte => acc * 256 + byte.toNat) 0

/-- The `width` big-endian bytes of `n`, modulo `256 ^ width`. -/
def beBytes : Nat → Nat → List UInt8
  | 0, _ => []
  | width + 1, n => beBytes width (n / 256) ++ [(n % 256).toUInt8]

/-- A natural written as `width` big-endian bytes. -/
def readNatBE (eof : ε) (width : Nat) : Reader ε Nat := fun bytes =>
  (readBytes eof width bytes).map fun (read, rest) => (natOfBE read, rest)

/-- `count` items, one after the other. -/
def readMany (item : Reader ε α) : Nat → Reader ε (List α)
  | 0 => pure []
  | count + 1 => do
      let first ← item
      let rest ← readMany item count
      pure (first :: rest)

/-- `Read::read` into an `n`-byte buffer over bytes in memory: what is left,
up to `n`, and never an error. -/
def readSome (n : Nat) : Reader ε (List UInt8) := fun bytes => .ok (bytes.take n, bytes.drop n)

theorem read_some_append (written rest : List UInt8) :
    (readSome written.length (written ++ rest) : Except ε _) = .ok (written, rest) := by
  simp [readSome]

theorem read_bytes_append (eof : ε) (written rest : List UInt8) :
    readBytes eof written.length (written ++ rest) = .ok (written, rest) := by
  simp [readBytes]

theorem read_bytes_short (eof : ε) {n : Nat} {bytes : List UInt8} (short : bytes.length < n) :
    readBytes eof n bytes = .error eof := by
  simp [readBytes, Nat.not_le.mpr short]

@[simp] theorem be_bytes_length (width n : Nat) : (beBytes width n).length = width := by
  induction width generalizing n with
  | zero => rfl
  | succ width ih => simp [beBytes, ih]

theorem nat_of_be_append (bytes : List UInt8) (last : UInt8) :
    natOfBE (bytes ++ [last]) = natOfBE bytes * 256 + last.toNat := by
  simp [natOfBE, List.foldl_append]

theorem nat_of_be_be_bytes (width n : Nat) : natOfBE (beBytes width n) = n % 256 ^ width := by
  induction width generalizing n with
  | zero => simp [beBytes, natOfBE, Nat.mod_one]
  | succ width ih =>
      rw [beBytes, nat_of_be_append, ih]
      -- the low byte, then the higher digits shifted by one byte
      have low : (n % 256).toUInt8.toNat = n % 256 := by simp
      rw [low, pow_succ, Nat.mul_comm (256 ^ width) 256, Nat.mod_mul]
      ring

theorem nat_of_be_lt (bytes : List UInt8) : natOfBE bytes < 256 ^ bytes.length := by
  induction bytes using List.reverseRecOn with
  | nil => simp [natOfBE]
  | append_singleton bytes last ih =>
      rw [nat_of_be_append, List.length_append, List.length_singleton, pow_succ]
      have := last.toNat_lt
      omega

theorem read_nat_be_be_bytes (eof : ε) (width n : Nat) (rest : List UInt8) :
    readNatBE eof width (beBytes width n ++ rest) = .ok (n % 256 ^ width, rest) := by
  have read := read_bytes_append eof (beBytes width n) rest
  rw [be_bytes_length] at read
  simp [readNatBE, read, Except.map, nat_of_be_be_bytes]

/-- Reading `count` items that each read back what they wrote. -/
theorem read_many_append (item : Reader ε α) (encode : α → List UInt8)
    (readsBack : ∀ value rest, item (encode value ++ rest) = .ok (value, rest)) :
    ∀ (values : List α) (rest : List UInt8),
      readMany item values.length (values.flatMap encode ++ rest) = .ok (values, rest)
  | [], rest => rfl
  | value :: values, rest => by
      have tail := read_many_append item encode readsBack values rest
      simp only [List.length_cons, readMany, List.flatMap_cons, List.append_assoc]
      simp only [bind, StateT.bind, readsBack, Except.bind, tail, pure, StateT.pure, Except.pure]

/-- The `i`-th chunk of `width` bytes of items that each encode to `width`
bytes is the encoding of the `i`-th item. -/
theorem take_drop_flat_map {f : α → List UInt8} {width : Nat} (sized : ∀ value, (f value).length = width) :
    ∀ (values : List α) (i : Nat) (inside : i < values.length),
      ((values.flatMap f).drop (i * width)).take width = f values[i]
  | [], _, inside => absurd inside (Nat.not_lt_zero _)
  | value :: values, 0, _ => by
      rw [List.flatMap_cons, Nat.zero_mul, List.drop_zero, List.take_append_of_le_length (sized value).ge,
        List.take_of_length_le (sized value).le, List.getElem_cons_zero]
  | value :: values, i + 1, inside => by
      have later := take_drop_flat_map sized values i (by simpa using inside)
      rw [List.flatMap_cons, Nat.succ_mul, Nat.add_comm, ← List.drop_drop, List.drop_append_of_le_length (sized value).ge,
        List.drop_of_length_le (sized value).le, List.nil_append, List.getElem_cons_succ]
      simpa [sized value] using later

/-! ## The bits of a byte

A byte as eight flags: bit `k` is tested with the mask `1 <<< k` and set by
or-ing the mask in. -/

theorem mask_to_bit_vec {k : Nat} (below : k < 8) :
    ((1 : UInt8) <<< k.toUInt8).toBitVec = BitVec.twoPow 8 k := by
  have shift : k.toUInt8.toBitVec % 8 = BitVec.ofNat 8 k := by
    apply BitVec.eq_of_toNat_eq
    simp [Nat.mod_eq_of_lt below, Nat.mod_eq_of_lt (show k < 256 by omega)]
  simp only [UInt8.toBitVec_shiftLeft, shift, BitVec.shiftLeft_eq', UInt8.toBitVec_one, BitVec.toNat_ofNat,
    Nat.mod_eq_of_lt (show k < 2 ^ 8 by omega), BitVec.twoPow_eq]

/-- The mask of bit `k` meets a byte exactly when the byte has bit `k`. -/
theorem and_mask_ne_zero_iff (byte : UInt8) {k : Nat} (below : k < 8) :
    byte &&& ((1 : UInt8) <<< k.toUInt8) ≠ 0 ↔ byte.toBitVec.getLsbD k = true := by
  rw [Ne, ← UInt8.toBitVec_inj, UInt8.toBitVec_and, mask_to_bit_vec below, BitVec.and_twoPow]
  split
  · rename_i set
    simp only [set, iff_true]
    intro zero
    have bit := congrArg (·.getLsbD k) zero
    simp [below] at bit
  · simp_all

/-- Or-ing in the mask of bit `i` sets bit `i` and keeps the others. -/
theorem get_lsb_d_or_mask (byte : UInt8) {i : Nat} (below : i < 8) (j : Nat) :
    (byte ||| ((1 : UInt8) <<< i.toUInt8)).toBitVec.getLsbD j = (byte.toBitVec.getLsbD j || decide (i = j)) := by
  rw [UInt8.toBitVec_or, BitVec.getLsbD_or, mask_to_bit_vec below, BitVec.getLsbD_twoPow]
  simp [below]

end Bytes
