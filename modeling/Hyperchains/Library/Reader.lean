import Hyperchains.Library.Bytes

/-! Running decoders over a byte stream, in both directions. Forward, a read of
what was written returns it and leaves the bytes after it; backward, what a
reader accepted is the encoding of what it returned, followed by the bytes it
left. With both, a codec is a bijection between the values it writes and the
inputs it accepts. Besides the readers of `Bytes`: fixed-length byte arrays
that carry their length, a byte read and put back (a peek), and a reader held
to a length bound. -/

namespace Bytes

variable {ε α β : Type}

/-! ## Running a sequence of reads -/

section Run
variable {read : Reader ε α} {next : α → Reader ε β}

@[simp] theorem pure_run (value : α) (bytes : List UInt8) :
    (pure value : Reader ε α) bytes = .ok (value, bytes) := rfl

@[simp] theorem throw_run (error : ε) (bytes : List UInt8) :
    (throw error : Reader ε α) bytes = .error error := rfl

theorem bind_run (bytes : List UInt8) :
    (read >>= next) bytes = match read bytes with
      | .ok (value, rest) => next value rest
      | .error error => .error error := by
  show (read bytes >>= fun step => next step.1 step.2) = _
  cases read bytes <;> rfl

theorem bind_run_of_ok {bytes rest : List UInt8} {value : α} (ran : read bytes = .ok (value, rest)) :
    (read >>= next) bytes = next value rest := by
  rw [bind_run, ran]

theorem bind_run_of_error {bytes : List UInt8} {error : ε} (failed : read bytes = .error error) :
    (read >>= next) bytes = .error error := by
  rw [bind_run, failed]

/-- A sequence of reads that returned: the first read returned, and the rest
read on from where it stopped. -/
theorem bind_run_eq_ok {bytes rest : List UInt8} {result : β}
    (ran : (read >>= next) bytes = .ok (result, rest)) :
    ∃ value middle, read bytes = .ok (value, middle) ∧ next value middle = .ok (result, rest) := by
  rw [bind_run] at ran
  split at ran
  · rename_i value middle first
    exact ⟨value, middle, first, ran⟩
  · cases ran

@[simp] theorem throw_bind (error : ε) (next : α → Reader ε β) :
    (throw error >>= next : Reader ε β) = throw error := rfl

/-- A check, `if failed { return Err(error) }`, as the `do` notation writes it
ahead of the reads after it: when they returned, the check passed. -/
theorem check_run_eq_ok {failed : Prop} [Decidable failed] {error : ε} {next : Unit → Reader ε α}
    {bytes rest : List UInt8} {value : α}
    (ran : (if failed then throw error >>= next else next ()) bytes = .ok (value, rest)) :
    ¬failed ∧ next () bytes = .ok (value, rest) := by
  by_cases checked : failed
  · simp [checked] at ran
  · simp only [checked, if_false] at ran
    exact ⟨checked, ran⟩

/-- Plain `Except` code run between the reads, as `liftM`: it leaves the bytes
alone. -/
theorem lift_bind_run_of_ok {run : Except ε α} {value : α} (ok : run = .ok value) (bytes : List UInt8) :
    (liftM run >>= next) bytes = next value bytes := by
  subst ok
  rfl

theorem lift_bind_run_eq_ok {run : Except ε α} {bytes rest : List UInt8} {result : β}
    (ran : (liftM run >>= next) bytes = .ok (result, rest)) :
    ∃ value, run = .ok value ∧ next value bytes = .ok (result, rest) := by
  cases run with
  | error error => cases ran
  | ok value => exact ⟨value, rfl, ran⟩

theorem map_run (f : α → β) (bytes : List UInt8) :
    (f <$> read) bytes = (read bytes).map fun step => (f step.1, step.2) := by
  show (read bytes >>= fun step => pure (f step.1, step.2)) = _
  cases read bytes <;> rfl

theorem map_run_of_ok {f : α → β} {bytes rest : List UInt8} {value : α} (ran : read bytes = .ok (value, rest)) :
    (f <$> read) bytes = .ok (f value, rest) := by
  rw [map_run, ran]
  rfl

end Run

/-! ## A codec's two laws -/

/-- Reading what was written, for a value that `valid` admits, returns it and
leaves the bytes after it. -/
def ReadsBack (read : Reader ε α) (write : α → List UInt8) (valid : α → Prop) : Prop :=
  ∀ value, valid value → ∀ rest, read (write value ++ rest) = .ok (value, rest)

/-- What the reader accepted is the encoding of a value that `valid` admits,
followed by the bytes it left. -/
def Accepts (read : Reader ε α) (write : α → List UInt8) (valid : α → Prop) : Prop :=
  ∀ bytes value rest, read bytes = .ok (value, rest) → bytes = write value ++ rest ∧ valid value

section Laws
variable {read : Reader ε α} {write : α → List UInt8} {valid : α → Prop}

theorem ReadsBack.run (readsBack : ReadsBack read write valid) {value : α} (admitted : valid value)
    (rest : List UInt8) : read (write value ++ rest) = .ok (value, rest) :=
  readsBack value admitted rest

theorem ReadsBack.bind (readsBack : ReadsBack read write valid) {value : α} (admitted : valid value)
    (next : α → Reader ε β) (rest : List UInt8) : (read >>= next) (write value ++ rest) = next value rest :=
  bind_run_of_ok (readsBack value admitted rest)

theorem Accepts.bind (accepts : Accepts read write valid) {next : α → Reader ε β} {bytes rest : List UInt8}
    {result : β} (ran : (read >>= next) bytes = .ok (result, rest)) :
    ∃ value middle, bytes = write value ++ middle ∧ valid value ∧ next value middle = .ok (result, rest) := by
  obtain ⟨value, middle, first, later⟩ := bind_run_eq_ok ran
  obtain ⟨split, admitted⟩ := accepts _ _ _ first
  exact ⟨value, middle, split, admitted, later⟩

/-- A read through a map that returned: the inner read accepted the encoding
of a value that the map sends to the result. -/
theorem Accepts.map_eq_ok (accepts : Accepts read write valid) {f : α → β} {bytes rest : List UInt8}
    {result : β} (ran : (f <$> read) bytes = .ok (result, rest)) :
    ∃ value, result = f value ∧ bytes = write value ++ rest ∧ valid value := by
  rw [map_run] at ran
  cases inner : read bytes with
  | error error =>
      rw [inner] at ran
      cases ran
  | ok step =>
      obtain ⟨value, left⟩ := step
      rw [inner] at ran
      simp only [Except.map, Except.ok.injEq, Prod.mk.injEq] at ran
      obtain ⟨rfl, rfl⟩ := ran
      obtain ⟨split, admitted⟩ := accepts _ _ _ inner
      exact ⟨value, rfl, split, admitted⟩

theorem ReadsBack.run_map (readsBack : ReadsBack read write valid) {value : α} (admitted : valid value)
    (f : α → β) (rest : List UInt8) : (f <$> read) (write value ++ rest) = .ok (f value, rest) := by
  simp only [map_run, readsBack.run admitted, Except.map]

/-- Reading through a map: the value mapped back is written. -/
theorem ReadsBack.map (readsBack : ReadsBack read write valid) {f : α → β} {back : β → α}
    (inverse : ∀ value, valid (back value) ∧ f (back value) = value) :
    ReadsBack (f <$> read) (fun value => write (back value)) fun _ => True := by
  intro value _ rest
  rw [map_run, readsBack.run (inverse value).1]
  simp only [Except.map, (inverse value).2]

theorem Accepts.map (accepts : Accepts read write valid) {f : α → β} {back : β → α}
    (inverse : ∀ value, valid value → back (f value) = value) :
    Accepts (f <$> read) (fun value => write (back value)) fun _ => True := by
  intro bytes value rest ran
  rw [map_run] at ran
  cases inner : read bytes with
  | error error =>
      rw [inner] at ran
      cases ran
  | ok step =>
      obtain ⟨read, left⟩ := step
      rw [inner] at ran
      simp only [Except.map, Except.ok.injEq, Prod.mk.injEq] at ran
      obtain ⟨rfl, rfl⟩ := ran
      obtain ⟨split, admitted⟩ := accepts _ _ _ inner
      exact ⟨by simp only [inverse read admitted, split], trivial⟩

end Laws

/-! ## The readers of `Bytes`, in both directions -/

theorem read_byte_reads_back (eof : ε) : ReadsBack (readByte eof) (fun byte => [byte]) fun _ => True :=
  fun _ _ _ => rfl

theorem read_byte_accepts (eof : ε) : Accepts (readByte eof) (fun byte => [byte]) fun _ => True := by
  intro bytes byte rest ran
  cases bytes with
  | nil => cases ran
  | cons first others =>
      simp only [readByte, Except.ok.injEq, Prod.mk.injEq] at ran
      obtain ⟨rfl, rfl⟩ := ran
      exact ⟨rfl, trivial⟩

@[simp] theorem read_byte_cons (eof : ε) (byte : UInt8) (rest : List UInt8) :
    readByte eof (byte :: rest) = .ok (byte, rest) := rfl

@[simp] theorem read_byte_bind (eof : ε) (next : UInt8 → Reader ε β) (byte : UInt8) (rest : List UInt8) :
    (readByte eof >>= next) (byte :: rest) = next byte rest := rfl

theorem be_bytes_nat_of_be (bytes : List UInt8) : beBytes bytes.length (natOfBE bytes) = bytes := by
  induction bytes using List.reverseRecOn with
  | nil => rfl
  | append_singleton bytes last ih =>
      rw [List.length_append, List.length_singleton, beBytes, nat_of_be_append]
      have high : (natOfBE bytes * 256 + last.toNat) / 256 = natOfBE bytes := by
        have := last.toNat_lt
        omega
      have low : ((natOfBE bytes * 256 + last.toNat) % 256).toUInt8 = last := by
        have := last.toNat_lt
        rw [Nat.mul_add_mod_self_right, Nat.mod_eq_of_lt this]
        exact UInt8.ofNat_toNat
      rw [high, low, ih]

theorem read_nat_be_reads_back (eof : ε) (width : Nat) :
    ReadsBack (readNatBE eof width) (beBytes width) (· < 256 ^ width) := by
  intro n below rest
  rw [read_nat_be_be_bytes, Nat.mod_eq_of_lt below]

theorem read_nat_be_accepts (eof : ε) (width : Nat) :
    Accepts (readNatBE eof width) (beBytes width) (· < 256 ^ width) := by
  intro bytes n rest ran
  unfold readNatBE readBytes at ran
  split at ran
  · simp only [Except.map, Except.ok.injEq, Prod.mk.injEq] at ran
    obtain ⟨rfl, rfl⟩ := ran
    rename_i enough
    have sized : (bytes.take width).length = width := by simp [enough]
    have below := nat_of_be_lt (bytes.take width)
    rw [sized] at below
    refine ⟨?_, below⟩
    have written := be_bytes_nat_of_be (bytes.take width)
    rw [sized] at written
    rw [written, List.take_append_drop]
  · cases ran

theorem read_many_reads_back {item : Reader ε α} {encode : α → List UInt8} {valid : α → Prop}
    (readsBack : ReadsBack item encode valid) :
    ∀ (values : List α), (∀ value ∈ values, valid value) → ∀ rest,
      readMany item values.length (values.flatMap encode ++ rest) = .ok (values, rest)
  | [], _, rest => rfl
  | value :: values, admitted, rest => by
      have tail := read_many_reads_back readsBack values
        (fun other mem => admitted other (List.mem_cons_of_mem _ mem)) rest
      simp only [List.length_cons, readMany, List.flatMap_cons, List.append_assoc]
      rw [readsBack.bind (admitted value List.mem_cons_self), bind_run_of_ok tail]
      rfl

theorem read_many_accepts {item : Reader ε α} {encode : α → List UInt8} {valid : α → Prop}
    (accepts : Accepts item encode valid) :
    ∀ {count : Nat} {bytes rest : List UInt8} {values : List α},
      readMany item count bytes = .ok (values, rest) →
        values.length = count ∧ bytes = values.flatMap encode ++ rest ∧ ∀ value ∈ values, valid value
  | 0, bytes, rest, values, ran => by
      simp only [readMany, pure_run, Except.ok.injEq, Prod.mk.injEq] at ran
      obtain ⟨rfl, rfl⟩ := ran
      simp
  | count + 1, bytes, rest, values, ran => by
      simp only [readMany] at ran
      obtain ⟨first, middle, rfl, admitted, ran⟩ := accepts.bind ran
      obtain ⟨others, after, othersRan, ran⟩ := bind_run_eq_ok ran
      simp only [pure_run, Except.ok.injEq, Prod.mk.injEq] at ran
      obtain ⟨rfl, rfl⟩ := ran
      obtain ⟨counted, rfl, othersAdmitted⟩ := read_many_accepts accepts othersRan
      refine ⟨by simp [counted], by simp, ?_⟩
      simp only [List.mem_cons, forall_eq_or_imp]
      exact ⟨admitted, othersAdmitted⟩

/-! ## Fixed-length arrays -/

/-- `[u8; n]`: a byte string that carries its length. -/
abbrev FixedBytes (n : Nat) := { bytes : List UInt8 // bytes.length = n }

/-- `n` bytes as an array, or `eof` when fewer are left. -/
def readFixed (eof : ε) (n : Nat) : Reader ε (FixedBytes n) := fun bytes =>
  if enough : n ≤ bytes.length then .ok (⟨bytes.take n, by simp [enough]⟩, bytes.drop n) else .error eof

theorem read_fixed_reads_back (eof : ε) (n : Nat) :
    ReadsBack (readFixed eof n) Subtype.val fun _ => True := by
  rintro ⟨bytes, rfl⟩ _ rest
  simp [readFixed]

theorem read_fixed_accepts (eof : ε) (n : Nat) : Accepts (readFixed eof n) Subtype.val fun _ => True := by
  intro bytes array rest ran
  unfold readFixed at ran
  split at ran
  · simp only [Except.ok.injEq, Prod.mk.injEq] at ran
    obtain ⟨rfl, rfl⟩ := ran
    exact ⟨(List.take_append_drop n bytes).symm, trivial⟩
  · cases ran

/-! ## A byte put back -/

/-- Read a byte and put it back in front of the rest, as a reader chained
after a one-byte buffer does. -/
def peekByte (eof : ε) : Reader ε UInt8 := do
  let byte ← readByte eof
  modify (byte :: ·)
  pure byte

@[simp] theorem peek_byte_cons (eof : ε) (byte : UInt8) (rest : List UInt8) :
    peekByte eof (byte :: rest) = .ok (byte, byte :: rest) := rfl

theorem peek_byte_eq_ok {eof : ε} {bytes rest : List UInt8} {byte : UInt8}
    (ran : peekByte eof bytes = .ok (byte, rest)) : rest = bytes ∧ bytes = byte :: bytes.tail := by
  cases bytes with
  | nil => cases ran
  | cons first others =>
      simp only [peek_byte_cons, Except.ok.injEq, Prod.mk.injEq] at ran
      obtain ⟨rfl, rfl⟩ := ran
      exact ⟨rfl, rfl⟩

/-! ## A length bound -/

/-- A reader that sees at most `limit` bytes, as through a bounded reader: past
the bound it meets the end of its input. -/
def bounded (limit : Nat) (read : Reader ε α) : Reader ε α := fun bytes =>
  (read (bytes.take limit)).map fun step => (step.1, step.2 ++ bytes.drop limit)

section Bounded
variable {read : Reader ε α} {write : α → List UInt8} {valid : α → Prop}

/-- Within the bound, the bound changes nothing of a read that returns what
was written. -/
theorem ReadsBack.bounded (readsBack : ReadsBack read write valid) (limit : Nat) :
    ReadsBack (bounded limit read) write fun value => valid value ∧ (write value).length ≤ limit := by
  rintro value ⟨admitted, fits⟩ rest
  -- the bound cuts the input inside the bytes after the value
  have cut : (write value ++ rest).take limit = write value ++ rest.take (limit - (write value).length) := by
    rw [List.take_append, List.take_of_length_le fits]
  have after : (write value ++ rest).drop limit = rest.drop (limit - (write value).length) := by
    rw [List.drop_append, List.drop_of_length_le fits, List.nil_append]
  unfold Bytes.bounded
  rw [cut, readsBack.run admitted, after]
  simp only [Except.map, List.take_append_drop]

/-- What a bounded reader accepted fits the bound. -/
theorem Accepts.bounded (accepts : Accepts read write valid) (limit : Nat) :
    Accepts (bounded limit read) write fun value => valid value ∧ (write value).length ≤ limit := by
  intro bytes value rest ran
  unfold Bytes.bounded at ran
  cases inner : read (bytes.take limit) with
  | error error =>
      rw [inner] at ran
      cases ran
  | ok step =>
      obtain ⟨read, left⟩ := step
      rw [inner] at ran
      simp only [Except.map, Except.ok.injEq, Prod.mk.injEq] at ran
      obtain ⟨rfl, rfl⟩ := ran
      obtain ⟨split, admitted⟩ := accepts _ _ _ inner
      refine ⟨?_, admitted, ?_⟩
      · rw [← List.append_assoc, ← split, List.take_append_drop]
      · have within : (bytes.take limit).length ≤ limit := by simp
        rw [split, List.length_append] at within
        omega

end Bounded

end Bytes
