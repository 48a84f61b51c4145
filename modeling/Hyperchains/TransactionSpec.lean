import Hyperchains.Transaction

/-! The transaction codec in both directions. Forward, every transaction that
passes the decoder's checks reads back from its bytes, with any bytes after it;
backward, every byte string the decoder accepts is the encoding of what it
returned, up to the version byte, whose low seven bits the decoder never looks
at. Each wire type has a validity predicate that says what its decoder checks,
and two lemmas, `ReadsBack` and `Accepts` over that predicate, assembled from
those of its parts. The external codecs are assumed lawful in the same two
senses. -/

namespace Hyperchains.Transaction
open Bytes
open Hyperchains.Bloom (CodecError readVec)

/-! ## Integers -/

@[simp] theorem read_u8_bind {β : Type} (next : UInt8 → Reader CodecError β) (byte : UInt8)
    (rest : List UInt8) : (readU8 >>= next) (byte :: rest) = next byte rest := rfl

theorem read_u8_reads_back : ReadsBack readU8 (fun byte => [byte]) fun _ => True :=
  read_byte_reads_back _

theorem read_u8_accepts : Accepts readU8 (fun byte => [byte]) fun _ => True :=
  read_byte_accepts _

theorem read_u16_reads_back : ReadsBack readU16 writeU16 fun _ => True :=
  (read_nat_be_reads_back _ 2).map fun n => ⟨n.toNat_lt, UInt16.ofNat_toNat⟩

theorem read_u16_accepts : Accepts readU16 writeU16 fun _ => True :=
  (read_nat_be_accepts _ 2).map fun n below => by
    rw [Nat.toUInt16, UInt16.toNat_ofNat']
    exact Nat.mod_eq_of_lt below

theorem read_u32_reads_back : ReadsBack readU32 writeU32 fun _ => True :=
  (read_nat_be_reads_back _ 4).map fun n => ⟨n.toNat_lt, UInt32.ofNat_toNat⟩

theorem read_u32_accepts : Accepts readU32 writeU32 fun _ => True :=
  (read_nat_be_accepts _ 4).map fun n below => by
    rw [Nat.toUInt32, UInt32.toNat_ofNat']
    exact Nat.mod_eq_of_lt below

theorem read_u64_reads_back : ReadsBack readU64 writeU64 fun _ => True :=
  (read_nat_be_reads_back _ 8).map fun n => ⟨n.toNat_lt, UInt64.ofNat_toNat⟩

theorem read_u64_accepts : Accepts readU64 writeU64 fun _ => True :=
  (read_nat_be_accepts _ 8).map fun n below => by
    rw [Nat.toUInt64, UInt64.toNat_ofNat']
    exact Nat.mod_eq_of_lt below

section Binds
variable {β : Type}

@[simp] theorem read_u16_bind {next : UInt16 → Reader CodecError β} (n : UInt16) (rest : List UInt8) :
    (readU16 >>= next) (writeU16 n ++ rest) = next n rest :=
  read_u16_reads_back.bind trivial next rest

@[simp] theorem read_u32_bind {next : UInt32 → Reader CodecError β} (n : UInt32) (rest : List UInt8) :
    (readU32 >>= next) (writeU32 n ++ rest) = next n rest :=
  read_u32_reads_back.bind trivial next rest

@[simp] theorem read_u64_bind {next : UInt64 → Reader CodecError β} (n : UInt64) (rest : List UInt8) :
    (readU64 >>= next) (writeU64 n ++ rest) = next n rest :=
  read_u64_reads_back.bind trivial next rest

@[simp] theorem read_fixed_bind {n : Nat} {next : FixedBytes n → Reader CodecError β} (array : FixedBytes n)
    (rest : List UInt8) : (readFixed .readError n >>= next) (array.val ++ rest) = next array rest :=
  (read_fixed_reads_back _ n).bind trivial next rest

@[simp] theorem read_fixed_map {n : Nat} (f : FixedBytes n → β) (array : FixedBytes n) (rest : List UInt8) :
    (f <$> readFixed CodecError.readError n) (array.val ++ rest) = .ok (f array, rest) :=
  (read_fixed_reads_back _ n).run_map trivial f rest

end Binds

/-! ## Vectors -/

/-- What `read_next` of a `Vec` checks of its count: a `u32`, and items that
fit `MAX_MESSAGE_LEN` at their in-memory size. -/
def VecFits {α : Type} (maxMessageLen itemSize : Nat) (items : List α) : Prop :=
  items.length < 256 ^ 4 ∧ items.length * itemSize ≤ maxMessageLen

section Vectors
variable {α : Type} {item : Reader CodecError α} {encode : α → List UInt8} {valid : α → Prop}
  {maxMessageLen itemSize : Nat}

theorem read_vec_reads_back (readsBack : ReadsBack item encode valid) :
    ReadsBack (readVec maxMessageLen itemSize item) (writeVec encode)
      fun items => VecFits maxMessageLen itemSize items ∧ ∀ value ∈ items, valid value := by
  rintro items ⟨⟨counted, fits⟩, admitted⟩ rest
  unfold readVec writeVec Hyperchains.Bloom.readU32
  rw [List.append_assoc, (read_nat_be_reads_back _ 4).bind counted]
  have within : ¬ items.length * itemSize > maxMessageLen := by omega
  simp only [within, if_false]
  exact read_many_reads_back readsBack items admitted rest

theorem read_vec_accepts (accepts : Accepts item encode valid) :
    Accepts (readVec maxMessageLen itemSize item) (writeVec encode)
      fun items => VecFits maxMessageLen itemSize items ∧ ∀ value ∈ items, valid value := by
  intro bytes items rest ran
  unfold readVec Hyperchains.Bloom.readU32 at ran
  obtain ⟨count, middle, rfl, counted, ran⟩ := (read_nat_be_accepts _ 4).bind ran
  split at ran
  · cases ran
  · obtain ⟨rfl, rfl, admitted⟩ := read_many_accepts accepts ran
    exact ⟨by simp [writeVec], ⟨counted, by omega⟩, admitted⟩

end Vectors

/-! ## One-byte enumerations -/

@[simp] theorem TransactionPublicKeyEncoding.from_u8_to_u8 (encoding : TransactionPublicKeyEncoding) :
    fromU8 encoding.toU8 = some encoding := by
  cases encoding <;> rfl

theorem TransactionPublicKeyEncoding.to_u8_of_from_u8 {byte : UInt8} {encoding : TransactionPublicKeyEncoding}
    (decoded : fromU8 byte = some encoding) : encoding.toU8 = byte := by
  unfold fromU8 at decoded
  split_ifs at decoded with zero one <;> cases decoded <;> simp [toU8, *]

@[simp] theorem SinglesigHashMode.from_u8_to_u8 (mode : SinglesigHashMode) : fromU8 mode.toU8 = some mode := by
  cases mode <;> rfl

theorem SinglesigHashMode.to_u8_of_from_u8 {byte : UInt8} {mode : SinglesigHashMode}
    (decoded : fromU8 byte = some mode) : mode.toU8 = byte := by
  unfold fromU8 at decoded
  split_ifs at decoded with p2pkh p2wpkh <;> cases decoded <;> simp [toU8, *]

@[simp] theorem MultisigHashMode.from_u8_to_u8 (mode : MultisigHashMode) : fromU8 mode.toU8 = some mode := by
  cases mode <;> rfl

theorem MultisigHashMode.to_u8_of_from_u8 {byte : UInt8} {mode : MultisigHashMode}
    (decoded : fromU8 byte = some mode) : mode.toU8 = byte := by
  unfold fromU8 at decoded
  split_ifs at decoded with p2sh p2wsh <;> cases decoded <;> simp [toU8, *]

-- The two hash mode ranges are apart: the peeked byte picks the decoder.
@[simp] theorem singlesig_from_multisig_to_u8 (mode : MultisigHashMode) :
    SinglesigHashMode.fromU8 mode.toU8 = none := by
  cases mode <;> rfl

@[simp] theorem FungibleConditionCode.from_u8_to_u8 (code : FungibleConditionCode) :
    fromU8 code.toU8 = some code := by
  cases code <;> rfl

theorem FungibleConditionCode.to_u8_of_from_u8 {byte : UInt8} {code : FungibleConditionCode}
    (decoded : fromU8 byte = some code) : code.toU8 = byte := by
  unfold fromU8 at decoded
  split_ifs at decoded <;> cases decoded <;> simp [toU8, *]

@[simp] theorem NonfungibleConditionCode.from_u8_to_u8 (code : NonfungibleConditionCode) :
    fromU8 code.toU8 = some code := by
  cases code <;> rfl

theorem NonfungibleConditionCode.to_u8_of_from_u8 {byte : UInt8} {code : NonfungibleConditionCode}
    (decoded : fromU8 byte = some code) : code.toU8 = byte := by
  unfold fromU8 at decoded
  split_ifs at decoded with sent notSent <;> cases decoded <;> simp [toU8, *]

/-! ## The external codecs -/

/-- A codec that is a bijection between its values and the bytes it accepts. -/
structure Codec.Lawful {α : Type} (codec : Codec α) : Prop where
  readsBack : ReadsBack codec.read codec.write fun _ => True
  accepts : Accepts codec.read codec.write fun _ => True

@[simp] theorem Codec.Lawful.bind {α β : Type} {codec : Codec α} (lawful : codec.Lawful) (value : α)
    (next : α → Reader CodecError β) (rest : List UInt8) :
    (codec.read >>= next) (codec.write value ++ rest) = next value rest :=
  lawful.readsBack.bind trivial next rest

variable (E : External)

/-- What the transaction codec assumes of the code it calls outside the
repository: its codecs are bijections, the 33 bytes of a point are the only
ones that parse to it, and ASCII is UTF-8. -/
structure External.Lawful : Prop where
  address : E.address.Lawful
  contractName : E.contractName.Lawful
  clarityName : E.clarityName.Lawful
  value : E.value.Lawful
  principal : E.principal.Lawful
  parsesPoint : ∀ point, E.toPublicKey (E.pointBytes point) = .ok point
  parsedBytes : ∀ {bytes point}, E.toPublicKey bytes = .ok point → E.pointBytes point = bytes
  asciiUtf8 : ∀ bytes : List UInt8, (∀ byte ∈ bytes, byte < 0x80) → E.validUtf8 bytes = true

/-! ## Strings -/

/-- What `StacksString::consensus_deserialize` checks: the bytes fit its bound,
and they are a printable ASCII string. -/
def StacksString.Valid (string : StacksString) : Prop :=
  VecFits E.maxMessageLen 1 string.bytes ∧ string.consensusSerialize.length ≤ E.maxMessageLen ∧
    isValidString string.bytes = true

variable {E}

theorem ascii_of_is_valid_string {bytes : List UInt8} (valid : isValidString bytes = true) :
    ∀ byte ∈ bytes, byte < 0x80 := by
  simp only [isValidString, Bool.and_eq_true, List.all_eq_true, decide_eq_true_eq] at valid
  exact valid.1

theorem StacksString.reads_back (lawful : E.Lawful) :
    ReadsBack (StacksString.consensusDeserialize E) StacksString.consensusSerialize (StacksString.Valid E) := by
  rintro ⟨bytes⟩ ⟨fits, within, printable⟩ rest
  have utf8 : E.validUtf8 bytes = true := lawful.asciiUtf8 bytes (ascii_of_is_valid_string printable)
  have vector : ReadsBack (readVec E.maxMessageLen 1 readU8) (writeVec fun byte => [byte]) _ :=
    read_vec_reads_back read_u8_reads_back
  unfold StacksString.consensusDeserialize StacksString.consensusSerialize
  rw [(vector.bounded E.maxMessageLen).bind ⟨⟨fits, fun _ _ => trivial⟩, within⟩]
  simp [utf8, printable]

theorem StacksString.accepts :
    Accepts (StacksString.consensusDeserialize E) StacksString.consensusSerialize (StacksString.Valid E) := by
  intro bytes string rest ran
  have vector : Accepts (readVec E.maxMessageLen 1 readU8) (writeVec fun byte => [byte]) _ :=
    read_vec_accepts read_u8_accepts
  unfold StacksString.consensusDeserialize at ran
  obtain ⟨chars, middle, rfl, ⟨⟨fits, -⟩, within⟩, ran⟩ := (vector.bounded E.maxMessageLen).bind ran
  simp only at ran
  obtain ⟨utf8, ran⟩ := check_run_eq_ok ran
  obtain ⟨printable, ran⟩ := check_run_eq_ok ran
  simp only [pure_run, Except.ok.injEq, Prod.mk.injEq] at ran
  obtain ⟨rfl, rfl⟩ := ran
  simp only [Bool.not_eq_true', Bool.not_eq_false] at printable
  exact ⟨rfl, fits, within, printable⟩

/-! ## Auth fields -/

theorem TransactionAuthField.reads_back (lawful : E.Lawful) :
    ReadsBack (TransactionAuthField.consensusDeserialize E) (TransactionAuthField.consensusSerialize E)
      fun _ => True := by
  rintro (⟨point, compressed⟩ | ⟨keyEncoding, sig⟩) - rest
  · cases compressed <;>
      simp [consensusSerialize, consensusDeserialize, readPublicKey, lawful.parsesPoint]
  · cases keyEncoding <;> simp [consensusSerialize, consensusDeserialize]

theorem read_public_key_eq_ok (lawful : E.Lawful) {compressed : Bool} {bytes rest : List UInt8}
    {field : TransactionAuthField E} (ran : readPublicKey E compressed bytes = .ok (field, rest)) :
    ∃ point, field = .publicKey ⟨point, compressed⟩ ∧ bytes = (E.pointBytes point).val ++ rest := by
  unfold readPublicKey at ran
  obtain ⟨buffer, middle, rfl, -, ran⟩ := (read_fixed_accepts _ 33).bind ran
  cases parsed : E.toPublicKey buffer with
  | error message =>
      simp only [parsed, throw_run] at ran
      cases ran
  | ok point =>
      simp only [parsed, pure_run, Except.ok.injEq, Prod.mk.injEq] at ran
      obtain ⟨rfl, rfl⟩ := ran
      exact ⟨point, rfl, by rw [lawful.parsedBytes parsed]⟩

theorem TransactionAuthField.accepts (lawful : E.Lawful) :
    Accepts (TransactionAuthField.consensusDeserialize E) (TransactionAuthField.consensusSerialize E)
      fun _ => True := by
  intro bytes field rest ran
  unfold consensusDeserialize at ran
  obtain ⟨fieldId, middle, rfl, -, ran⟩ := read_u8_accepts.bind ran
  refine ⟨?_, trivial⟩
  -- the field id says which kind of field, and how it is compressed
  split_ifs at ran with compressedKey uncompressedKey compressedSignature uncompressedSignature
  · obtain ⟨point, rfl, rfl⟩ := read_public_key_eq_ok lawful ran
    simp [consensusSerialize, compressedKey]
  · obtain ⟨point, rfl, rfl⟩ := read_public_key_eq_ok lawful ran
    simp [consensusSerialize, uncompressedKey]
  · obtain ⟨sig, after, rfl, -, ran⟩ := (read_fixed_accepts _ 65).bind ran
    simp only [pure_run, Except.ok.injEq, Prod.mk.injEq] at ran
    obtain ⟨rfl, rfl⟩ := ran
    simp [consensusSerialize, compressedSignature]
  · obtain ⟨sig, after, rfl, -, ran⟩ := (read_fixed_accepts _ 65).bind ran
    simp only [pure_run, Except.ok.injEq, Prod.mk.injEq] at ran
    obtain ⟨rfl, rfl⟩ := ran
    simp [consensusSerialize, uncompressedSignature]
  · cases ran

/-! ## The version byte -/

/-- The decoder reads the version byte by its high bit alone: any two bytes
with the same high bit start the same transaction. -/
theorem read_transaction_version_high_bit (versionU8 : UInt8) (rest : List UInt8) :
    readTransaction E (versionU8 :: rest) = readTransaction E ((versionU8 &&& 0x80) :: rest) := by
  have masked : versionU8 &&& 0x80 &&& 0x80 = versionU8 &&& 0x80 := by
    rw [UInt8.and_assoc]
    rfl
  simp only [readTransaction, read_u8_bind, masked]

/-- External codecs over one-point types, each written as no bytes; the one
point is written as 33 zero bytes. -/
def unitCodec : Codec Unit := ⟨fun _ => [], pure ()⟩

def unitExternal : External where
  Address := Unit
  ContractName := Unit
  ClarityName := Unit
  Value := Unit
  Principal := Unit
  Point := Unit
  address := unitCodec
  contractName := unitCodec
  clarityName := unitCodec
  value := unitCodec
  principal := unitCodec
  pointBytes _ := ⟨List.replicate 33 0, by simp⟩
  toPublicKey bytes := if bytes.val = List.replicate 33 0 then .ok () else .error "invalid public key"
  isClarityVariable _ := true
  recoverable _ := true
  validUtf8 _ := true
  valueSize := 1
  authFieldSize := 1
  postConditionSize := 1
  signatureSize := 1
  maxMessageLen := 2 * 1024 * 1024

theorem unit_codec_lawful : unitCodec.Lawful where
  readsBack _ _ _ := rfl
  accepts bytes _ rest ran := by
    simp only [unitCodec, pure_run, Except.ok.injEq, Prod.mk.injEq] at ran
    exact ⟨by rw [← ran.2]; rfl, trivial⟩

theorem unit_external_lawful : unitExternal.Lawful where
  address := unit_codec_lawful
  contractName := unit_codec_lawful
  clarityName := unit_codec_lawful
  value := unit_codec_lawful
  principal := unit_codec_lawful
  parsesPoint _ := by
    simp only [unitExternal, if_true]
    rfl
  parsedBytes := by
    intro bytes point parsed
    simp only [unitExternal] at parsed
    split at parsed
    · rename_i zeros
      exact Subtype.ext zeros.symm
    · cases parsed
  asciiUtf8 _ _ := rfl

/-- A mainnet contract call, signed by one key. -/
def lenientTransaction : StacksTransaction unitExternal :=
  ⟨.mainnet, 0, .standard (.singlesig ⟨.p2pkh, ⟨List.replicate 20 0, by simp⟩, 0, 0, .compressed,
    ⟨List.replicate 65 0, by simp⟩⟩), .any, .allow, [], .contractCall ⟨(), (), (), []⟩⟩

set_option maxRecDepth 20000 in
/-- With lawful external codecs, the 120 bytes of a transaction with its
version byte `0x00` replaced by `0x01` decode, taking them all, to the same
transaction as the bytes themselves, and that transaction is written back with
`0x00`. -/
theorem version_byte_not_canonical :
    unitExternal.Lawful ∧
      StacksTransaction.consensusDeserializeWithLen unitExternal
          (0x01 :: (StacksTransaction.consensusSerialize unitExternal lenientTransaction).tail) =
        .ok ((lenientTransaction, 120), []) ∧
      StacksTransaction.consensusDeserializeWithLen unitExternal
          (StacksTransaction.consensusSerialize unitExternal lenientTransaction) =
        .ok ((lenientTransaction, 120), []) ∧
      StacksTransaction.consensusSerialize unitExternal lenientTransaction ≠
        0x01 :: (StacksTransaction.consensusSerialize unitExternal lenientTransaction).tail :=
  ⟨unit_external_lawful, rfl, rfl, by decide⟩

end Hyperchains.Transaction
