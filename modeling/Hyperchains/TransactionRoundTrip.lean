import Hyperchains.TransactionSpec

/-! The transaction codec forward, for the whole transaction: every transaction
that passes the decoder's checks reads back from its bytes, with any bytes
after it. Each wire type gets a `Valid` predicate that gathers what its decoder
checks (the multisig tally, the P2WPKH and P2WSH key rules, the vector bounds,
the Clarity name, the poison headers, the anchor mode of a coinbase or poison
payload, the transaction's length), and a `ReadsBack` lemma assembled from
those of its parts. -/

namespace Hyperchains.Transaction
open Bytes
open Hyperchains.Bloom (CodecError readVec)

variable {E : External}

/-! ## Auth -/

section Auth
variable (E)

/-- What the tally of the multisig decoder counts as uncompressed. -/
def TransactionAuthField.uncompressed : TransactionAuthField E → Bool
  | .publicKey key => !key.compressed
  | .signature keyEncoding _ => keyEncoding == .uncompressed

/-- The signatures among the fields of a multisig condition. -/
def numSignatures (fields : List (TransactionAuthField E)) : Nat :=
  (fields.filter (TransactionAuthField.isSignature E)).length

/-- What the multisig decoder checks: the fields fit the vector reader and its
bound, they hold exactly `signatures_required` signatures, and a P2WSH
condition has nothing uncompressed. -/
structure MultisigSpendingCondition.Valid (condition : MultisigSpendingCondition E) : Prop where
  fits : VecFits E.maxMessageLen E.authFieldSize condition.fields
  bounded : (writeVec (TransactionAuthField.consensusSerialize E) condition.fields).length ≤ E.maxMessageLen
  signatures : numSignatures E condition.fields = condition.signaturesRequired.toNat
  compressed : condition.hashMode = .p2wsh → ∀ field ∈ condition.fields, field.uncompressed = false

def SinglesigSpendingCondition.Valid (condition : SinglesigSpendingCondition) : Prop :=
  condition.hashMode = .p2wpkh → condition.keyEncoding = .compressed

def TransactionSpendingCondition.Valid : TransactionSpendingCondition E → Prop
  | .singlesig condition => condition.Valid
  | .multisig condition => condition.Valid E

def TransactionAuth.Valid : TransactionAuth E → Prop
  | .standard origin => origin.Valid E
  | .sponsored origin sponsor => origin.Valid E ∧ sponsor.Valid E

end Auth

@[simp] theorem num_signatures_nil : numSignatures E [] = 0 := rfl

theorem num_signatures_cons (field : TransactionAuthField E) (fields : List (TransactionAuthField E)) :
    numSignatures E (field :: fields) = (if field.isSignature E then 1 else 0) + numSignatures E fields := by
  cases field with
  | publicKey key => simp [numSignatures, TransactionAuthField.isSignature]
  | signature keyEncoding sig =>
      simp [numSignatures, TransactionAuthField.isSignature, List.filter_cons]
      omega

/-- The tally counts the signatures in a `u16` and finds what is uncompressed,
while the count stays below `2 ^ 16`. The induction is on the fields. -/
theorem tally_fields_eq : ∀ (fields : List (TransactionAuthField E)) (numSigsGiven : UInt16)
    (haveUncompressed : Bool), numSigsGiven.toNat + numSignatures E fields < 2 ^ 16 →
    tallyFields E fields numSigsGiven haveUncompressed =
      .ok (.ofNat (numSigsGiven.toNat + numSignatures E fields),
        haveUncompressed || fields.any (TransactionAuthField.uncompressed E))
  | [], numSigsGiven, haveUncompressed, _ => by simp [tallyFields]
  | .signature keyEncoding sig :: fields, numSigsGiven, haveUncompressed, below => by
      rw [num_signatures_cons] at below
      simp only [TransactionAuthField.isSignature, if_true] at below
      -- the count is below `0xffff`, so the next one does not wrap
      have notFull : numSigsGiven ≠ 0xffff := by
        rintro rfl
        simp at below
        omega
      have next : (numSigsGiven + 1).toNat = numSigsGiven.toNat + 1 := by
        rw [UInt16.toNat_add, UInt16.toNat_one]
        exact Nat.mod_eq_of_lt (by omega)
      rw [tallyFields, if_neg notFull, tally_fields_eq fields _ _ (by omega), next, num_signatures_cons]
      simp [TransactionAuthField.isSignature, TransactionAuthField.uncompressed, Nat.add_assoc, Nat.add_comm 1,
        Bool.or_assoc]
  | .publicKey key :: fields, numSigsGiven, haveUncompressed, below => by
      rw [num_signatures_cons] at below
      simp only [TransactionAuthField.isSignature, Bool.false_eq_true, if_false, Nat.zero_add] at below
      rw [tallyFields, tally_fields_eq fields _ _ below, num_signatures_cons]
      simp [TransactionAuthField.isSignature, TransactionAuthField.uncompressed, Bool.or_assoc]

theorem SinglesigSpendingCondition.reads_back :
    ReadsBack SinglesigSpendingCondition.consensusDeserialize SinglesigSpendingCondition.consensusSerialize
      SinglesigSpendingCondition.Valid := by
  rintro ⟨hashMode, signer, nonce, txFee, keyEncoding, signature⟩ valid rest
  -- a P2WPKH condition has a compressed key
  have keys : ¬ (hashMode = .p2wpkh ∧ keyEncoding ≠ .compressed) := fun ⟨wpkh, loose⟩ => loose (valid wpkh)
  unfold consensusDeserialize consensusSerialize
  simp only [List.cons_append, List.append_assoc, read_u8_bind, SinglesigHashMode.from_u8_to_u8, read_fixed_bind,
    read_u64_bind, TransactionPublicKeyEncoding.from_u8_to_u8]
  simp [keys]

section ReadsBack
variable (lawful : E.Lawful)
include lawful

theorem MultisigSpendingCondition.reads_back :
    ReadsBack (MultisigSpendingCondition.consensusDeserialize E) (MultisigSpendingCondition.consensusSerialize E)
      (MultisigSpendingCondition.Valid E) := by
  rintro ⟨hashMode, signer, nonce, txFee, fields, signaturesRequired⟩ valid rest
  have vector : ReadsBack (readVec E.maxMessageLen E.authFieldSize (TransactionAuthField.consensusDeserialize E))
      (writeVec (TransactionAuthField.consensusSerialize E)) _ :=
    read_vec_reads_back (TransactionAuthField.reads_back lawful)
  have tally := tally_fields_eq fields 0 false (by simpa [valid.signatures] using signaturesRequired.toNat_lt)
  simp only [UInt16.toNat_zero, Nat.zero_add, valid.signatures, UInt16.ofNat_toNat, Bool.false_or] at tally
  -- a P2WSH condition has nothing uncompressed
  have keys : (fields.any (TransactionAuthField.uncompressed E) && hashMode == .p2wsh) = false := by
    cases hashMode with
    | p2sh => simp
    | p2wsh =>
        simpa using fun field mem => valid.compressed rfl field mem
  unfold consensusDeserialize consensusSerialize
  simp only [List.cons_append, List.append_assoc, read_u8_bind, MultisigHashMode.from_u8_to_u8, read_fixed_bind,
    read_u64_bind]
  rw [(vector.bounded E.maxMessageLen).bind ⟨⟨valid.fits, fun _ _ => trivial⟩, valid.bounded⟩, read_u16_bind,
    lift_bind_run_of_ok tally]
  simp [keys]

theorem TransactionSpendingCondition.reads_back :
    ReadsBack (TransactionSpendingCondition.consensusDeserialize E)
      (TransactionSpendingCondition.consensusSerialize E) (TransactionSpendingCondition.Valid E) := by
  rintro (condition | condition) valid rest
  · -- the peeked byte is the singlesig hash mode, read again by the condition
    have read := SinglesigSpendingCondition.reads_back condition valid rest
    obtain ⟨tail, written⟩ : ∃ tail, condition.consensusSerialize ++ rest = condition.hashMode.toU8 :: tail :=
      ⟨_, rfl⟩
    unfold consensusSerialize consensusDeserialize
    rw [written, bind_run_of_ok (peek_byte_cons _ _ _), ← written]
    simp [map_run_of_ok read]
  · have read := MultisigSpendingCondition.reads_back lawful condition valid rest
    obtain ⟨tail, written⟩ : ∃ tail, condition.consensusSerialize E ++ rest = condition.hashMode.toU8 :: tail :=
      ⟨_, rfl⟩
    unfold consensusSerialize consensusDeserialize
    rw [written, bind_run_of_ok (peek_byte_cons _ _ _), ← written]
    simp [map_run_of_ok read]

theorem TransactionAuth.reads_back :
    ReadsBack (TransactionAuth.consensusDeserialize E) (TransactionAuth.consensusSerialize E)
      (TransactionAuth.Valid E) := by
  have condition := TransactionSpendingCondition.reads_back lawful
  rintro (origin | ⟨origin, sponsor⟩) valid rest
  · simp only [consensusSerialize, consensusDeserialize, List.cons_append, read_u8_bind, if_true]
    exact condition.run_map valid _ rest
  · simp only [consensusSerialize, consensusDeserialize, List.cons_append, List.append_assoc, read_u8_bind,
      show ¬ (0x05 : UInt8) = 0x04 from by decide, if_false, if_true, condition.bind valid.1]
    exact condition.run_map valid.2 _ rest

end ReadsBack

/-! ## Post-conditions -/

@[simp] theorem Codec.Lawful.map {α β : Type} {codec : Codec α} (lawful : codec.Lawful) (value : α) (f : α → β)
    (rest : List UInt8) : (f <$> codec.read) (codec.write value ++ rest) = .ok (f value, rest) :=
  lawful.readsBack.run_map trivial f rest

section PostConditions
variable (lawful : E.Lawful)
include lawful

theorem AssetInfo.reads_back :
    ReadsBack (AssetInfo.consensusDeserialize E) (AssetInfo.consensusSerialize E) fun _ => True := by
  rintro ⟨contractAddress, contractName, assetName⟩ - rest
  simp [consensusDeserialize, consensusSerialize, List.append_assoc, lawful.address.bind, lawful.contractName.bind,
    lawful.clarityName.map]

theorem PostConditionPrincipal.reads_back :
    ReadsBack (PostConditionPrincipal.consensusDeserialize E) (PostConditionPrincipal.consensusSerialize E)
      fun _ => True := by
  rintro (_ | address | ⟨address, contractName⟩) - rest
  · rfl
  · simp [consensusDeserialize, consensusSerialize, lawful.address.map]
  · simp [consensusDeserialize, consensusSerialize, List.append_assoc, lawful.address.bind,
      lawful.contractName.map]

theorem TransactionPostCondition.reads_back :
    ReadsBack (TransactionPostCondition.consensusDeserialize E) (TransactionPostCondition.consensusSerialize E)
      fun _ => True := by
  have principal := PostConditionPrincipal.reads_back lawful
  have asset := AssetInfo.reads_back lawful
  rintro (⟨who, code, amount⟩ | ⟨who, info, code, amount⟩ | ⟨who, info, assetValue, code⟩) - rest
  · simp [consensusDeserialize, consensusSerialize, List.append_assoc, principal.bind trivial,
      FungibleConditionCode.from_u8_to_u8]
  · simp [consensusDeserialize, consensusSerialize, List.append_assoc, principal.bind trivial, asset.bind trivial,
      FungibleConditionCode.from_u8_to_u8]
  · simp [consensusDeserialize, consensusSerialize, List.append_assoc, principal.bind trivial, asset.bind trivial,
      lawful.value.bind, NonfungibleConditionCode.from_u8_to_u8]

end PostConditions

/-! ## Payloads -/

section Payloads
variable (E)

/-- What the contract-call decoder checks: the arguments fit the vector reader
and the transaction's bound, and the function name is a Clarity variable. -/
structure TransactionContractCall.Valid (call : TransactionContractCall E) : Prop where
  fits : VecFits E.maxMessageLen E.valueSize call.functionArgs
  bounded : (writeVec E.value.write call.functionArgs).length ≤ maxTransactionLen
  functionName : E.isClarityVariable call.functionName = true

/-- What the microblock header decoder checks: its signatures fit the vector
reader, and each is recoverable. -/
def StacksMicroblockHeader.Valid (header : StacksMicroblockHeader) : Prop :=
  VecFits E.maxMessageLen E.signatureSize header.minerSignatures ∧
    ∀ sig ∈ header.minerSignatures, E.recoverable sig = true

/-- What the payload decoder checks; two poison headers differ and share a
sequence or a parent. -/
def TransactionPayload.Valid : TransactionPayload E → Prop
  | .tokenTransfer _ _ _ => True
  | .contractCall call => call.Valid E
  | .smartContract contract _ => contract.codeBody.Valid E
  | .poisonMicroblock first second => first.Valid E ∧ second.Valid E ∧ first ≠ second ∧
      (first.sequence = second.sequence ∨ first.prevBlock = second.prevBlock)
  | .coinbase _ => True

/-- The payloads that must be anchored. -/
def TransactionPayload.onChainOnly : TransactionPayload E → Bool
  | .poisonMicroblock _ _ => true
  | .coinbase _ => true
  | _ => false

end Payloads

@[simp] theorem clarity_version_bind {β : Type} (next : ClarityVersion → Reader CodecError β)
    (version : ClarityVersion) (rest : List UInt8) :
    (clarityVersionConsensusDeserialize >>= next) (clarityVersionConsensusSerialize version :: rest) =
      next version rest := by
  cases version <;> rfl

theorem read_message_signature_list_reads_back :
    ReadsBack (readMessageSignatureList E) (writeVec Subtype.val) fun signatures =>
      VecFits E.maxMessageLen E.signatureSize signatures ∧ ∀ sig ∈ signatures, E.recoverable sig = true := by
  rintro signatures ⟨fits, recoverable⟩ rest
  have vector : ReadsBack (readVec E.maxMessageLen E.signatureSize (readFixed CodecError.readError 65))
      (writeVec Subtype.val) _ :=
    read_vec_reads_back (read_fixed_reads_back CodecError.readError 65)
  have all : signatures.all E.recoverable = true := List.all_eq_true.mpr recoverable
  unfold readMessageSignatureList
  rw [vector.bind ⟨fits, fun _ _ => trivial⟩]
  simp [all]

theorem StacksMicroblockHeader.reads_back :
    ReadsBack (StacksMicroblockHeader.consensusDeserialize E) StacksMicroblockHeader.consensusSerialize
      (StacksMicroblockHeader.Valid E) := by
  rintro ⟨version, sequence, prevBlock, txMerkleRoot, minerSignatures⟩ valid rest
  simp [consensusDeserialize, consensusSerialize, List.append_assoc,
    read_message_signature_list_reads_back.run_map valid]

section PayloadReads
variable (lawful : E.Lawful)
include lawful

theorem TransactionContractCall.reads_back :
    ReadsBack (TransactionContractCall.consensusDeserialize E) (TransactionContractCall.consensusSerialize E)
      (TransactionContractCall.Valid E) := by
  rintro ⟨address, contractName, functionName, functionArgs⟩ valid rest
  have vector : ReadsBack (readVec E.maxMessageLen E.valueSize E.value.read) (writeVec E.value.write) _ :=
    read_vec_reads_back lawful.value.readsBack
  simp only [consensusDeserialize, consensusSerialize, List.append_assoc, lawful.address.bind,
    lawful.contractName.bind, lawful.clarityName.bind]
  rw [(vector.bounded maxTransactionLen).bind ⟨⟨valid.fits, fun _ _ => trivial⟩, valid.bounded⟩]
  simp [valid.functionName]

theorem TransactionSmartContract.reads_back :
    ReadsBack (TransactionSmartContract.consensusDeserialize E) (TransactionSmartContract.consensusSerialize E)
      fun contract => contract.codeBody.Valid E := by
  rintro ⟨name, codeBody⟩ valid rest
  simp [consensusDeserialize, consensusSerialize, List.append_assoc, lawful.contractName.bind,
    (StacksString.reads_back lawful).run_map valid]

theorem TransactionPayload.reads_back :
    ReadsBack (TransactionPayload.consensusDeserialize E) (TransactionPayload.consensusSerialize E)
      (TransactionPayload.Valid E) := by
  rintro (⟨recipient, amount, memo⟩ | call | ⟨contract, _ | version⟩ | ⟨first, second⟩ | payload) valid rest
  · simp [consensusDeserialize, consensusSerialize, List.append_assoc, lawful.principal.bind]
  · simp [consensusDeserialize, consensusSerialize, (TransactionContractCall.reads_back lawful).run_map valid]
  · simp [consensusDeserialize, consensusSerialize, (TransactionSmartContract.reads_back lawful).run_map valid]
  · simp [consensusDeserialize, consensusSerialize, (TransactionSmartContract.reads_back lawful).run_map valid]
  · obtain ⟨firstValid, secondValid, differ, fork⟩ := valid
    have header : ReadsBack (StacksMicroblockHeader.consensusDeserialize E) _ _ := StacksMicroblockHeader.reads_back
    have identifies : ¬ (first.sequence ≠ second.sequence ∧ first.prevBlock ≠ second.prevBlock) := by
      rintro ⟨sequence, prevBlock⟩
      exact fork.elim sequence prevBlock
    simp [consensusDeserialize, consensusSerialize, List.append_assoc, header.bind firstValid,
      header.bind secondValid, differ, identifies]
  · simp [consensusDeserialize, consensusSerialize]

end PayloadReads

/-! ## The transaction -/

section Transaction
variable (E)

/-- What `consensus_deserialize_with_len` checks of a transaction: its auth,
post-conditions and payload pass their decoders, a coinbase or poison payload
is anchored, and the whole fits `MAX_TRANSACTION_LEN`. -/
structure StacksTransaction.Valid (tx : StacksTransaction E) : Prop where
  auth : tx.auth.Valid E
  postConditions : VecFits E.maxMessageLen E.postConditionSize tx.postConditions
  payload : tx.payload.Valid E
  anchored : tx.payload.onChainOnly E = true → tx.anchorMode = .onChainOnly
  fits : (tx.consensusSerialize E).length ≤ maxTransactionLen

end Transaction

theorem read_transaction_reads_back (lawful : E.Lawful) :
    ReadsBack (readTransaction E) (StacksTransaction.consensusSerialize E) fun tx =>
      tx.auth.Valid E ∧ VecFits E.maxMessageLen E.postConditionSize tx.postConditions ∧ tx.payload.Valid E ∧
        (tx.payload.onChainOnly E = true → tx.anchorMode = .onChainOnly) := by
  rintro ⟨version, chainId, auth, anchorMode, postConditionMode, postConditions, payload⟩
    ⟨authValid, fits, payloadValid, anchored⟩ rest
  have postConditionVector : ReadsBack (readVec E.maxMessageLen E.postConditionSize
      (TransactionPostCondition.consensusDeserialize E)) (writeVec (TransactionPostCondition.consensusSerialize E)) _ :=
    read_vec_reads_back (TransactionPostCondition.reads_back lawful)
  simp only [readTransaction, StacksTransaction.consensusSerialize, List.cons_append, List.append_assoc,
    read_u8_bind, read_u32_bind, (TransactionAuth.reads_back lawful).bind authValid,
    postConditionVector.bind ⟨fits, fun _ _ => trivial⟩, (TransactionPayload.reads_back lawful).bind payloadValid]
  -- the version byte keeps its high bit
  have versionByte : (if version.toU8 &&& 128 = 0 then TransactionVersion.mainnet else .testnet) = version := by
    cases version <;> rfl
  simp only [versionByte]
  -- each mode byte decodes to its mode, and the anchor check passes: a coinbase
  -- or poison payload is anchored
  cases anchorMode with
  | onChainOnly => cases postConditionMode <;> cases payload <;> rfl
  | offChainOnly | any =>
      cases postConditionMode <;> cases payload <;> first | rfl | simp [TransactionPayload.onChainOnly] at anchored

/-! ## Backward: what the decoder accepts -/

/-- A tally that returns counted fewer than `2 ^ 16` signatures. -/
theorem tally_fields_bounded : ∀ {fields : List (TransactionAuthField E)} {numSigsGiven : UInt16}
    {haveUncompressed : Bool} {result : UInt16 × Bool},
    tallyFields E fields numSigsGiven haveUncompressed = .ok result →
      numSigsGiven.toNat + numSignatures E fields < 2 ^ 16
  | [], numSigsGiven, _, _, _ => by simpa using numSigsGiven.toNat_lt
  | .signature keyEncoding sig :: fields, numSigsGiven, haveUncompressed, result, ran => by
      rw [tallyFields] at ran
      split at ran
      · cases ran
      · rename_i notFull
        have later := tally_fields_bounded ran
        have below : numSigsGiven.toNat < 0xffff := by
          have := numSigsGiven.toNat_lt
          have : numSigsGiven.toNat ≠ 0xffff := fun full => notFull (UInt16.toNat_inj.mp full)
          omega
        rw [UInt16.toNat_add, UInt16.toNat_one, Nat.mod_eq_of_lt (by omega)] at later
        rw [num_signatures_cons]
        simp only [TransactionAuthField.isSignature, if_true]
        omega
  | .publicKey key :: fields, numSigsGiven, haveUncompressed, result, ran => by
      rw [tallyFields] at ran
      rw [num_signatures_cons]
      simpa [TransactionAuthField.isSignature] using tally_fields_bounded ran

theorem SinglesigSpendingCondition.accepts :
    Accepts SinglesigSpendingCondition.consensusDeserialize SinglesigSpendingCondition.consensusSerialize
      SinglesigSpendingCondition.Valid := by
  intro bytes condition rest ran
  unfold consensusDeserialize at ran
  obtain ⟨hashModeU8, afterMode, rfl, -, ran⟩ := read_u8_accepts.bind ran
  cases hashModeFound : SinglesigHashMode.fromU8 hashModeU8 with
  | none => simp [hashModeFound] at ran
  | some hashMode =>
      simp only [hashModeFound] at ran
      obtain ⟨signer, afterSigner, rfl, -, ran⟩ := (read_fixed_accepts _ 20).bind ran
      obtain ⟨nonce, afterNonce, rfl, -, ran⟩ := read_u64_accepts.bind ran
      obtain ⟨txFee, afterFee, rfl, -, ran⟩ := read_u64_accepts.bind ran
      obtain ⟨keyEncodingU8, afterKey, rfl, -, ran⟩ := read_u8_accepts.bind ran
      cases keyFound : TransactionPublicKeyEncoding.fromU8 keyEncodingU8 with
      | none => simp [keyFound] at ran
      | some keyEncoding =>
          simp only [keyFound] at ran
          obtain ⟨signature, after, rfl, -, ran⟩ := (read_fixed_accepts _ 65).bind ran
          obtain ⟨keys, ran⟩ := check_run_eq_ok ran
          simp only [pure_run, Except.ok.injEq, Prod.mk.injEq] at ran
          obtain ⟨rfl, rfl⟩ := ran
          have rule : hashMode = .p2wpkh → keyEncoding = .compressed := by simpa using keys
          refine ⟨?_, rule⟩
          simp [consensusSerialize, SinglesigHashMode.to_u8_of_from_u8 hashModeFound,
            TransactionPublicKeyEncoding.to_u8_of_from_u8 keyFound]

section Accepts
variable (lawful : E.Lawful)
include lawful

theorem MultisigSpendingCondition.accepts :
    Accepts (MultisigSpendingCondition.consensusDeserialize E) (MultisigSpendingCondition.consensusSerialize E)
      (MultisigSpendingCondition.Valid E) := by
  intro bytes condition rest ran
  have vector : Accepts (readVec E.maxMessageLen E.authFieldSize (TransactionAuthField.consensusDeserialize E))
      (writeVec (TransactionAuthField.consensusSerialize E)) _ :=
    read_vec_accepts (TransactionAuthField.accepts lawful)
  unfold consensusDeserialize at ran
  obtain ⟨hashModeU8, afterMode, rfl, -, ran⟩ := read_u8_accepts.bind ran
  cases hashModeFound : MultisigHashMode.fromU8 hashModeU8 with
  | none => simp [hashModeFound] at ran
  | some hashMode =>
      simp only [hashModeFound] at ran
      obtain ⟨signer, afterSigner, rfl, -, ran⟩ := (read_fixed_accepts _ 20).bind ran
      obtain ⟨nonce, afterNonce, rfl, -, ran⟩ := read_u64_accepts.bind ran
      obtain ⟨txFee, afterFee, rfl, -, ran⟩ := read_u64_accepts.bind ran
      obtain ⟨fields, afterFields, rfl, ⟨⟨fits, -⟩, bounded⟩, ran⟩ := (vector.bounded E.maxMessageLen).bind ran
      obtain ⟨signaturesRequired, after, rfl, -, ran⟩ := read_u16_accepts.bind ran
      obtain ⟨⟨numSigsGiven, haveUncompressed⟩, tally, ran⟩ := lift_bind_run_eq_ok ran
      obtain ⟨counted, ran⟩ := check_run_eq_ok ran
      obtain ⟨keys, ran⟩ := check_run_eq_ok ran
      simp only [pure_run, Except.ok.injEq, Prod.mk.injEq] at ran
      obtain ⟨rfl, rfl⟩ := ran
      -- the tally counted every signature, and found what is uncompressed
      have below := tally_fields_bounded tally
      rw [tally_fields_eq fields 0 false below, Except.ok.injEq, Prod.mk.injEq] at tally
      obtain ⟨rfl, rfl⟩ := tally
      simp only [UInt16.toNat_zero, Nat.zero_add] at below
      refine ⟨?_, fits, bounded, ?_, fun wsh field mem => ?_⟩
      · simp [consensusSerialize, MultisigHashMode.to_u8_of_from_u8 hashModeFound, List.append_assoc]
      · have same : UInt16.ofNat (numSignatures E fields) = signaturesRequired := by simpa using counted
        rw [← same, UInt16.toNat_ofNat', Nat.mod_eq_of_lt below]
      · have rule : ∀ field ∈ fields, field.uncompressed E = true → hashMode ≠ .p2wsh := by simpa using keys
        exact Bool.eq_false_iff.mpr fun loose => rule field mem loose wsh

theorem TransactionSpendingCondition.accepts :
    Accepts (TransactionSpendingCondition.consensusDeserialize E)
      (TransactionSpendingCondition.consensusSerialize E) (TransactionSpendingCondition.Valid E) := by
  intro bytes condition rest ran
  unfold consensusDeserialize at ran
  -- the peeked byte is put back, and read again by the condition it picks
  obtain ⟨hashModeU8, peeked, peekedRan, picked⟩ := bind_run_eq_ok ran
  obtain ⟨rfl, -⟩ := peek_byte_eq_ok peekedRan
  by_cases single : (SinglesigHashMode.fromU8 hashModeU8).isSome = true
  · rw [if_pos single] at picked
    obtain ⟨condition, rfl, rfl, valid⟩ := SinglesigSpendingCondition.accepts.map_eq_ok picked
    exact ⟨rfl, valid⟩
  · by_cases multi : (MultisigHashMode.fromU8 hashModeU8).isSome = true
    · rw [if_neg single, if_pos multi] at picked
      obtain ⟨condition, rfl, rfl, valid⟩ := (MultisigSpendingCondition.accepts lawful).map_eq_ok picked
      exact ⟨rfl, valid⟩
    · rw [if_neg single, if_neg multi] at picked
      cases picked

theorem TransactionAuth.accepts :
    Accepts (TransactionAuth.consensusDeserialize E) (TransactionAuth.consensusSerialize E)
      (TransactionAuth.Valid E) := by
  have condition := TransactionSpendingCondition.accepts lawful
  intro bytes auth rest ran
  unfold consensusDeserialize at ran
  obtain ⟨typeId, afterType, rfl, -, ran⟩ := read_u8_accepts.bind ran
  split_ifs at ran with standard sponsored
  · obtain ⟨origin, rfl, rfl, valid⟩ := condition.map_eq_ok ran
    exact ⟨by simp [consensusSerialize, standard], valid⟩
  · obtain ⟨origin, middle, rfl, originValid, ran⟩ := condition.bind ran
    obtain ⟨sponsor, rfl, rfl, sponsorValid⟩ := condition.map_eq_ok ran
    exact ⟨by simp [consensusSerialize, sponsored], originValid, sponsorValid⟩
  · cases ran

theorem AssetInfo.accepts :
    Accepts (AssetInfo.consensusDeserialize E) (AssetInfo.consensusSerialize E) fun _ => True := by
  intro bytes info rest ran
  unfold consensusDeserialize at ran
  obtain ⟨contractAddress, afterAddress, rfl, -, ran⟩ := lawful.address.accepts.bind ran
  obtain ⟨contractName, afterName, rfl, -, ran⟩ := lawful.contractName.accepts.bind ran
  obtain ⟨assetName, rfl, rfl, -⟩ := lawful.clarityName.accepts.map_eq_ok ran
  exact ⟨by simp [consensusSerialize], trivial⟩

theorem PostConditionPrincipal.accepts :
    Accepts (PostConditionPrincipal.consensusDeserialize E) (PostConditionPrincipal.consensusSerialize E)
      fun _ => True := by
  intro bytes principal rest ran
  unfold consensusDeserialize at ran
  obtain ⟨principalId, afterId, rfl, -, ran⟩ := read_u8_accepts.bind ran
  split_ifs at ran with origin standard contract
  · simp only [pure_run, Except.ok.injEq, Prod.mk.injEq] at ran
    obtain ⟨rfl, rfl⟩ := ran
    exact ⟨by simp [consensusSerialize, origin], trivial⟩
  · obtain ⟨address, rfl, rfl, -⟩ := lawful.address.accepts.map_eq_ok ran
    exact ⟨by simp [consensusSerialize, standard], trivial⟩
  · obtain ⟨address, afterAddress, rfl, -, ran⟩ := lawful.address.accepts.bind ran
    obtain ⟨contractName, rfl, rfl, -⟩ := lawful.contractName.accepts.map_eq_ok ran
    exact ⟨by simp [consensusSerialize, contract], trivial⟩
  · cases ran

theorem TransactionPostCondition.accepts :
    Accepts (TransactionPostCondition.consensusDeserialize E) (TransactionPostCondition.consensusSerialize E)
      fun _ => True := by
  have principal := PostConditionPrincipal.accepts lawful
  have asset := AssetInfo.accepts lawful
  intro bytes condition rest ran
  unfold consensusDeserialize at ran
  obtain ⟨assetInfoId, afterId, rfl, -, ran⟩ := read_u8_accepts.bind ran
  refine ⟨?_, trivial⟩
  split_ifs at ran with stx fungible nonfungible
  · obtain ⟨who, afterWho, rfl, -, ran⟩ := principal.bind ran
    obtain ⟨codeU8, afterCode, rfl, -, ran⟩ := read_u8_accepts.bind ran
    obtain ⟨amount, after, rfl, -, ran⟩ := read_u64_accepts.bind ran
    cases codeFound : FungibleConditionCode.fromU8 codeU8 with
    | none => simp [codeFound] at ran
    | some code =>
        simp only [codeFound, pure_run, Except.ok.injEq, Prod.mk.injEq] at ran
        obtain ⟨rfl, rfl⟩ := ran
        simp [consensusSerialize, stx, FungibleConditionCode.to_u8_of_from_u8 codeFound]
  · obtain ⟨who, afterWho, rfl, -, ran⟩ := principal.bind ran
    obtain ⟨info, afterInfo, rfl, -, ran⟩ := asset.bind ran
    obtain ⟨codeU8, afterCode, rfl, -, ran⟩ := read_u8_accepts.bind ran
    obtain ⟨amount, after, rfl, -, ran⟩ := read_u64_accepts.bind ran
    cases codeFound : FungibleConditionCode.fromU8 codeU8 with
    | none => simp [codeFound] at ran
    | some code =>
        simp only [codeFound, pure_run, Except.ok.injEq, Prod.mk.injEq] at ran
        obtain ⟨rfl, rfl⟩ := ran
        simp [consensusSerialize, fungible, FungibleConditionCode.to_u8_of_from_u8 codeFound]
  · obtain ⟨who, afterWho, rfl, -, ran⟩ := principal.bind ran
    obtain ⟨info, afterInfo, rfl, -, ran⟩ := asset.bind ran
    obtain ⟨assetValue, afterValue, rfl, -, ran⟩ := lawful.value.accepts.bind ran
    obtain ⟨codeU8, after, rfl, -, ran⟩ := read_u8_accepts.bind ran
    cases codeFound : NonfungibleConditionCode.fromU8 codeU8 with
    | none => simp [codeFound] at ran
    | some code =>
        simp only [codeFound, pure_run, Except.ok.injEq, Prod.mk.injEq] at ran
        obtain ⟨rfl, rfl⟩ := ran
        simp [consensusSerialize, nonfungible, NonfungibleConditionCode.to_u8_of_from_u8 codeFound]
  · cases ran

end Accepts

/-- Every valid transaction reads back from its bytes followed by any others:
`consensus_deserialize_with_len` returns it with the number of bytes written,
and leaves the rest. -/
theorem consensus_deserialize_with_len_serialize (lawful : E.Lawful) {tx : StacksTransaction E}
    (valid : tx.Valid E) (rest : List UInt8) :
    StacksTransaction.consensusDeserializeWithLen E (tx.consensusSerialize E ++ rest) =
      .ok ((tx, (tx.consensusSerialize E).length), rest) := by
  have read := (read_transaction_reads_back lawful).bounded maxTransactionLen
  unfold StacksTransaction.consensusDeserializeWithLen
  rw [read.run ⟨⟨valid.auth, valid.postConditions, valid.payload, valid.anchored⟩, valid.fits⟩]
  simp

section PayloadAccepts
variable (lawful : E.Lawful)
include lawful

theorem TransactionContractCall.accepts :
    Accepts (TransactionContractCall.consensusDeserialize E) (TransactionContractCall.consensusSerialize E)
      (TransactionContractCall.Valid E) := by
  intro bytes call rest ran
  have vector : Accepts (readVec E.maxMessageLen E.valueSize E.value.read) (writeVec E.value.write) _ :=
    read_vec_accepts lawful.value.accepts
  unfold consensusDeserialize at ran
  obtain ⟨address, afterAddress, rfl, -, ran⟩ := lawful.address.accepts.bind ran
  obtain ⟨contractName, afterName, rfl, -, ran⟩ := lawful.contractName.accepts.bind ran
  obtain ⟨functionName, afterFunction, rfl, -, ran⟩ := lawful.clarityName.accepts.bind ran
  obtain ⟨functionArgs, after, rfl, ⟨⟨fits, -⟩, bounded⟩, ran⟩ := (vector.bounded maxTransactionLen).bind ran
  obtain ⟨named, ran⟩ := check_run_eq_ok ran
  simp only [pure_run, Except.ok.injEq, Prod.mk.injEq] at ran
  obtain ⟨rfl, rfl⟩ := ran
  exact ⟨by simp [consensusSerialize], fits, bounded, by simpa using named⟩

theorem TransactionSmartContract.accepts :
    Accepts (TransactionSmartContract.consensusDeserialize E) (TransactionSmartContract.consensusSerialize E)
      fun contract => contract.codeBody.Valid E := by
  intro bytes contract rest ran
  unfold consensusDeserialize at ran
  obtain ⟨name, afterName, rfl, -, ran⟩ := lawful.contractName.accepts.bind ran
  obtain ⟨codeBody, rfl, rfl, valid⟩ := StacksString.accepts.map_eq_ok ran
  exact ⟨by simp [consensusSerialize], valid⟩

end PayloadAccepts

theorem clarity_version_accepts :
    Accepts clarityVersionConsensusDeserialize (fun version => [clarityVersionConsensusSerialize version])
      fun _ => True := by
  intro bytes version rest ran
  unfold clarityVersionConsensusDeserialize at ran
  obtain ⟨versionByte, after, rfl, -, ran⟩ := read_u8_accepts.bind ran
  split_ifs at ran with one two <;> simp only [pure_run, throw_run, Except.ok.injEq, Prod.mk.injEq] at ran
  all_goals obtain ⟨rfl, rfl⟩ := ran
  · exact ⟨by simp [clarityVersionConsensusSerialize, one], trivial⟩
  · exact ⟨by simp [clarityVersionConsensusSerialize, two], trivial⟩

theorem read_message_signature_list_accepts :
    Accepts (readMessageSignatureList E) (writeVec Subtype.val) fun signatures =>
      VecFits E.maxMessageLen E.signatureSize signatures ∧ ∀ sig ∈ signatures, E.recoverable sig = true := by
  intro bytes signatures rest ran
  have vector : Accepts (readVec E.maxMessageLen E.signatureSize (readFixed CodecError.readError 65))
      (writeVec Subtype.val) _ :=
    read_vec_accepts (read_fixed_accepts CodecError.readError 65)
  unfold readMessageSignatureList at ran
  obtain ⟨read, after, rfl, ⟨fits, -⟩, ran⟩ := vector.bind ran
  obtain ⟨recoverable, ran⟩ := check_run_eq_ok ran
  simp only [pure_run, Except.ok.injEq, Prod.mk.injEq] at ran
  obtain ⟨rfl, rfl⟩ := ran
  exact ⟨rfl, fits, by simpa using recoverable⟩

theorem StacksMicroblockHeader.accepts :
    Accepts (StacksMicroblockHeader.consensusDeserialize E) StacksMicroblockHeader.consensusSerialize
      (StacksMicroblockHeader.Valid E) := by
  intro bytes header rest ran
  unfold consensusDeserialize at ran
  obtain ⟨version, afterVersion, rfl, -, ran⟩ := read_u8_accepts.bind ran
  obtain ⟨sequence, afterSequence, rfl, -, ran⟩ := read_u16_accepts.bind ran
  obtain ⟨prevBlock, afterPrev, rfl, -, ran⟩ := (read_fixed_accepts _ 32).bind ran
  obtain ⟨txMerkleRoot, afterRoot, rfl, -, ran⟩ := (read_fixed_accepts _ 32).bind ran
  obtain ⟨minerSignatures, rfl, rfl, valid⟩ := read_message_signature_list_accepts.map_eq_ok ran
  exact ⟨by simp [consensusSerialize], valid⟩

theorem TransactionPayload.accepts (lawful : E.Lawful) :
    Accepts (TransactionPayload.consensusDeserialize E) (TransactionPayload.consensusSerialize E)
      (TransactionPayload.Valid E) := by
  have header : Accepts (StacksMicroblockHeader.consensusDeserialize E) _ _ := StacksMicroblockHeader.accepts
  intro bytes payload rest ran
  unfold consensusDeserialize at ran
  obtain ⟨typeId, afterType, rfl, -, ran⟩ := read_u8_accepts.bind ran
  split_ifs at ran with transferId callId deployId versionedId poisonId coinbaseId
  · obtain ⟨principal, afterPrincipal, rfl, -, ran⟩ := lawful.principal.accepts.bind ran
    obtain ⟨amount, afterAmount, rfl, -, ran⟩ := read_u64_accepts.bind ran
    obtain ⟨memo, rfl, rfl, -⟩ := (read_fixed_accepts _ 34).map_eq_ok ran
    exact ⟨by simp [consensusSerialize, transferId, List.append_assoc], trivial⟩
  · obtain ⟨call, rfl, rfl, valid⟩ := (TransactionContractCall.accepts lawful).map_eq_ok ran
    exact ⟨by simp [consensusSerialize, callId], valid⟩
  · obtain ⟨contract, after, rfl, valid, ran⟩ := (TransactionSmartContract.accepts lawful).bind ran
    simp only [pure_run, Except.ok.injEq, Prod.mk.injEq] at ran
    obtain ⟨rfl, rfl⟩ := ran
    exact ⟨by simp [consensusSerialize, deployId], valid⟩
  · obtain ⟨version, afterVersion, rfl, -, ran⟩ := clarity_version_accepts.bind ran
    obtain ⟨contract, after, rfl, valid, ran⟩ := (TransactionSmartContract.accepts lawful).bind ran
    simp only [pure_run, Except.ok.injEq, Prod.mk.injEq] at ran
    obtain ⟨rfl, rfl⟩ := ran
    exact ⟨by simp [consensusSerialize, versionedId], valid⟩
  · obtain ⟨first, afterFirst, rfl, firstValid, ran⟩ := header.bind ran
    obtain ⟨second, after, rfl, secondValid, ran⟩ := header.bind ran
    obtain ⟨differ, ran⟩ := check_run_eq_ok ran
    obtain ⟨fork, ran⟩ := check_run_eq_ok ran
    simp only [pure_run, Except.ok.injEq, Prod.mk.injEq] at ran
    obtain ⟨rfl, rfl⟩ := ran
    -- the headers share a sequence or a parent
    have identifies : first.sequence = second.sequence ∨ first.prevBlock = second.prevBlock := by
      by_cases sameSequence : first.sequence = second.sequence
      · exact Or.inl sameSequence
      · exact Or.inr (by simpa [sameSequence] using fork)
    exact ⟨by simp [consensusSerialize, poisonId, List.append_assoc], firstValid, secondValid, differ,
      identifies⟩
  · obtain ⟨payload, rfl, rfl, -⟩ := (read_fixed_accepts _ 32).map_eq_ok ran
    exact ⟨by simp [consensusSerialize, coinbaseId], trivial⟩
  · cases ran

/-! The checks at the end of `consensus_deserialize_with_len`, each on the
bytes read before them. -/

section Modes
variable {β : Type} {error : CodecError} {bytes rest : List UInt8} {result : β}

theorem anchor_mode_bind_eq_ok {anchorModeU8 : UInt8} {next : TransactionAnchorMode → Reader CodecError β}
    (ran : (if anchorModeU8 = 2 then pure .offChainOnly >>= next
      else if anchorModeU8 = 1 then pure .onChainOnly >>= next
      else if anchorModeU8 = 3 then pure .any >>= next
      else throw error >>= next) bytes = .ok (result, rest)) :
    ∃ anchorMode, anchorModeU8 = anchorMode.toU8 ∧ next anchorMode bytes = .ok (result, rest) := by
  split_ifs at ran with off on any
  · exact ⟨.offChainOnly, off, ran⟩
  · exact ⟨.onChainOnly, on, ran⟩
  · exact ⟨.any, any, ran⟩
  · cases ran

theorem post_condition_mode_pure_eq_ok {postConditionModeU8 : UInt8} {make : TransactionPostConditionMode → β}
    (ran : (if postConditionModeU8 = 1 then
        (pure TransactionPostConditionMode.allow >>= fun mode => pure (make mode) : Reader CodecError β)
      else if postConditionModeU8 = 2 then pure .deny >>= fun mode => pure (make mode)
      else throw error >>= fun mode => pure (make mode)) bytes = .ok (result, rest)) :
    ∃ mode, postConditionModeU8 = mode.toU8 ∧ result = make mode ∧ rest = bytes := by
  split_ifs at ran with allow deny
  · simp only [pure_bind, pure_run, Except.ok.injEq, Prod.mk.injEq] at ran
    exact ⟨.allow, allow, ran.1.symm, ran.2.symm⟩
  · simp only [pure_bind, pure_run, Except.ok.injEq, Prod.mk.injEq] at ran
    exact ⟨.deny, deny, ran.1.symm, ran.2.symm⟩
  · cases ran

end Modes

/-- The high bit of the version byte is the version's byte. -/
theorem version_byte_high_bit (versionU8 : UInt8) :
    versionU8 &&& 0x80 = (if versionU8 &&& 0x80 = 0 then TransactionVersion.mainnet else .testnet).toU8 := by
  have bit : ∀ byte : UInt8, byte &&& 0x80 = 0 ∨ byte &&& 0x80 = 0x80 := by decide +kernel
  rcases bit versionU8 with clear | set
  · simp [clear, TransactionVersion.toU8]
  · simp [set, TransactionVersion.toU8]

/-- Every byte string the decoder reads a transaction from is that
transaction's encoding with a version byte of the same high bit, followed by
the bytes it left; and the transaction passes the checks. -/
theorem read_transaction_accepts (lawful : E.Lawful) {bytes rest : List UInt8} {tx : StacksTransaction E}
    (ran : readTransaction E bytes = .ok (tx, rest)) :
    (∃ versionU8, versionU8 &&& 0x80 = tx.version.toU8 ∧
      bytes = versionU8 :: (tx.consensusSerialize E).tail ++ rest) ∧
    tx.auth.Valid E ∧ VecFits E.maxMessageLen E.postConditionSize tx.postConditions ∧ tx.payload.Valid E ∧
      (tx.payload.onChainOnly E = true → tx.anchorMode = .onChainOnly) := by
  have postConditionVector : Accepts (readVec E.maxMessageLen E.postConditionSize
      (TransactionPostCondition.consensusDeserialize E)) (writeVec (TransactionPostCondition.consensusSerialize E)) _ :=
    read_vec_accepts (TransactionPostCondition.accepts lawful)
  unfold readTransaction at ran
  obtain ⟨versionU8, afterVersion, rfl, -, ran⟩ := read_u8_accepts.bind ran
  obtain ⟨chainId, afterChain, rfl, -, ran⟩ := read_u32_accepts.bind ran
  obtain ⟨auth, afterAuth, rfl, authValid, ran⟩ := (TransactionAuth.accepts lawful).bind ran
  obtain ⟨anchorModeU8, afterAnchor, rfl, -, ran⟩ := read_u8_accepts.bind ran
  obtain ⟨postConditionModeU8, afterMode, rfl, -, ran⟩ := read_u8_accepts.bind ran
  obtain ⟨postConditions, afterConditions, rfl, ⟨fits, -⟩, ran⟩ := postConditionVector.bind ran
  obtain ⟨payload, after, rfl, payloadValid, ran⟩ := (TransactionPayload.accepts lawful).bind ran
  dsimp only at ran
  obtain ⟨anchorMode, anchorByte, ran⟩ := anchor_mode_bind_eq_ok ran
  -- what is left is the anchor check of the payload and the post-condition mode
  have conclude : ∀ mode : TransactionPostConditionMode, postConditionModeU8 = mode.toU8 →
      (payload.onChainOnly E = true → anchorMode = .onChainOnly) →
      let tx : StacksTransaction E := ⟨if versionU8 &&& 0x80 = 0 then .mainnet else .testnet, chainId, auth,
        anchorMode, mode, postConditions, payload⟩
      (∃ versionU8', versionU8' &&& 0x80 = tx.version.toU8 ∧
        [versionU8] ++ (writeU32 chainId ++ (TransactionAuth.consensusSerialize E auth ++ ([anchorModeU8] ++
          ([postConditionModeU8] ++ (writeVec (TransactionPostCondition.consensusSerialize E) postConditions ++
            (TransactionPayload.consensusSerialize E payload ++ after)))))) =
          versionU8' :: (tx.consensusSerialize E).tail ++ after) ∧
      tx.auth.Valid E ∧ VecFits E.maxMessageLen E.postConditionSize tx.postConditions ∧ tx.payload.Valid E ∧
        (tx.payload.onChainOnly E = true → tx.anchorMode = .onChainOnly) := by
    intro mode modeByte anchored
    refine ⟨⟨versionU8, version_byte_high_bit versionU8, ?_⟩, authValid, fits, payloadValid, anchored⟩
    simp [StacksTransaction.consensusSerialize, anchorByte, modeByte]
  cases payload with
  | poisonMicroblock first second =>
      dsimp only at ran
      split at ran
      · cases ran
      · rename_i onChain
        obtain ⟨mode, modeByte, rfl, rfl⟩ := post_condition_mode_pure_eq_ok ran
        exact conclude mode modeByte fun _ => not_not.mp onChain
  | coinbase payload =>
      dsimp only at ran
      split at ran
      · cases ran
      · rename_i onChain
        obtain ⟨mode, modeByte, rfl, rfl⟩ := post_condition_mode_pure_eq_ok ran
        exact conclude mode modeByte fun _ => not_not.mp onChain
  | tokenTransfer recipient amount memo =>
      obtain ⟨mode, modeByte, rfl, rfl⟩ := post_condition_mode_pure_eq_ok ran
      exact conclude mode modeByte nofun
  | contractCall call =>
      obtain ⟨mode, modeByte, rfl, rfl⟩ := post_condition_mode_pure_eq_ok ran
      exact conclude mode modeByte nofun
  | smartContract contract version =>
      obtain ⟨mode, modeByte, rfl, rfl⟩ := post_condition_mode_pure_eq_ok ran
      exact conclude mode modeByte nofun

theorem consensus_serialize_cons (tx : StacksTransaction E) :
    tx.consensusSerialize E = tx.version.toU8 :: (tx.consensusSerialize E).tail := by
  simp [StacksTransaction.consensusSerialize]

/-- Every byte string `consensus_deserialize_with_len` accepts starts with the
encoding of the transaction it returns, but for the low bits of the version
byte; the count it returns is that encoding's length, and the transaction is
valid. -/
theorem consensus_deserialize_with_len_accepts (lawful : E.Lawful) {bytes rest : List UInt8}
    {tx : StacksTransaction E} {taken : Nat}
    (ran : StacksTransaction.consensusDeserializeWithLen E bytes = .ok ((tx, taken), rest)) :
    tx.Valid E ∧ taken = (tx.consensusSerialize E).length ∧
      ∃ versionU8, versionU8 &&& 0x80 = tx.version.toU8 ∧
        bytes = versionU8 :: (tx.consensusSerialize E).tail ++ rest := by
  unfold StacksTransaction.consensusDeserializeWithLen Bytes.bounded at ran
  cases inner : readTransaction E (bytes.take maxTransactionLen) with
  | error error =>
      rw [inner] at ran
      cases ran
  | ok step =>
      obtain ⟨read, left⟩ := step
      rw [inner] at ran
      simp only [Except.map, Except.ok.injEq, Prod.mk.injEq] at ran
      obtain ⟨⟨rfl, rfl⟩, rfl⟩ := ran
      obtain ⟨⟨versionU8, high, taken⟩, auth, postConditions, payload, anchored⟩ :=
        read_transaction_accepts lawful inner
      -- the bytes the bound cut off are the tail of those the decoder left
      have whole : bytes = versionU8 :: (read.consensusSerialize E).tail ++ (left ++ bytes.drop maxTransactionLen) := by
        conv_lhs => rw [← List.take_append_drop maxTransactionLen bytes, taken]
        simp
      have length : (read.consensusSerialize E).length = (versionU8 :: (read.consensusSerialize E).tail).length := by
        rw [consensus_serialize_cons read]
        rfl
      have fits : (read.consensusSerialize E).length ≤ maxTransactionLen := by
        have cut := congrArg List.length taken
        have short := List.length_take_le maxTransactionLen bytes
        simp only [List.length_append] at cut
        omega
      refine ⟨⟨auth, postConditions, payload, anchored, fits⟩, ?_, versionU8, high, whole⟩
      have count := congrArg List.length whole
      simp only [List.length_cons, List.length_append] at count length
      simp only [List.length_append]
      omega

/-- The transaction wire format: every valid transaction reads back from its
bytes, taking them all; and every byte string the decoder accepts is the
encoding of the valid transaction it returns, but for the low seven bits of
its version byte, which the decoder ignores. -/
theorem transaction_wire_format_round_trip (lawful : E.Lawful) :
    (∀ tx : StacksTransaction E, tx.Valid E → ∀ rest,
      StacksTransaction.consensusDeserializeWithLen E (tx.consensusSerialize E ++ rest) =
        .ok ((tx, (tx.consensusSerialize E).length), rest)) ∧
    ∀ bytes (tx : StacksTransaction E) taken rest,
      StacksTransaction.consensusDeserializeWithLen E bytes = .ok ((tx, taken), rest) →
        tx.Valid E ∧ taken = (tx.consensusSerialize E).length ∧
          ∃ versionU8, versionU8 &&& 0x80 = tx.version.toU8 ∧
            bytes = versionU8 :: (tx.consensusSerialize E).tail ++ rest :=
  ⟨fun _ valid rest => consensus_deserialize_with_len_serialize lawful valid rest,
    fun _ _ _ _ ran => consensus_deserialize_with_len_accepts lawful ran⟩

/-- A sponsored testnet contract deployment: the origin signs with one
P2WPKH key, the sponsor is a 1-of-2 P2SH multisig, and one STX post-condition
guards the origin. -/
def sponsoredDeployment : StacksTransaction unitExternal :=
  ⟨.testnet, 0x80000000,
    .sponsored (.singlesig ⟨.p2wpkh, ⟨List.replicate 20 1, by simp⟩, 3, 180, .compressed,
        ⟨List.replicate 65 2, by simp⟩⟩)
      (.multisig ⟨.p2sh, ⟨List.replicate 20 4, by simp⟩, 9, 20,
        [.publicKey ⟨(), true⟩, .signature .uncompressed ⟨List.replicate 65 5, by simp⟩], 1⟩),
    .any, .deny, [.stx .origin .sentLe 10],
    .smartContract ⟨(), ⟨[0x28, 0x6f, 0x6b, 0x20, 0x31, 0x29]⟩⟩ (some .clarity2)⟩

set_option maxRecDepth 20000 in
theorem sponsored_deployment_round_trip :
    unitExternal.Lawful ∧ sponsoredDeployment.Valid unitExternal ∧
      StacksTransaction.consensusDeserializeWithLen unitExternal
          (sponsoredDeployment.consensusSerialize unitExternal ++ [7]) =
        .ok ((sponsoredDeployment, (sponsoredDeployment.consensusSerialize unitExternal).length), [7]) := by
  -- the sponsor's one signature meets its requirement, and the code is printable
  have sponsor : MultisigSpendingCondition.Valid unitExternal
      ⟨.p2sh, ⟨List.replicate 20 4, by simp⟩, 9, 20,
        [.publicKey ⟨(), true⟩, .signature .uncompressed ⟨List.replicate 65 5, by simp⟩], 1⟩ :=
    ⟨⟨by decide, by decide⟩, by decide, rfl, fun p2wsh => by cases p2wsh⟩
  have code : StacksString.Valid unitExternal ⟨[0x28, 0x6f, 0x6b, 0x20, 0x31, 0x29]⟩ :=
    ⟨⟨by decide, by decide⟩, by decide, by decide⟩
  have auth : sponsoredDeployment.auth.Valid unitExternal := ⟨fun _ => rfl, sponsor⟩
  have postConditions : VecFits unitExternal.maxMessageLen unitExternal.postConditionSize
      sponsoredDeployment.postConditions := ⟨by decide, by decide⟩
  have anchored : sponsoredDeployment.payload.onChainOnly unitExternal = true →
      sponsoredDeployment.anchorMode = .onChainOnly := by
    intro onChain
    cases onChain
  have valid : sponsoredDeployment.Valid unitExternal := ⟨auth, postConditions, code, anchored, by decide⟩
  exact ⟨unit_external_lawful, valid, (transaction_wire_format_round_trip unit_external_lawful).1 _ valid [7]⟩

end Hyperchains.Transaction
