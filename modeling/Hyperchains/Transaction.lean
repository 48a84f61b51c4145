import Hyperchains.Library.Reader
import Hyperchains.Bloom

/-! The wire format of a transaction: `StacksTransaction` and its parts
(`chainstate/stacks/transaction.rs`), the spending conditions and auth fields
(`chainstate/stacks/auth.rs`), the microblock headers a poison payload carries
and their signature lists (`chainstate/stacks/block.rs`), and `StacksString`
(`util_lib/strings.rs`). Each type has its `consensus_serialize`, as the bytes
it writes, and its `consensus_deserialize`, as a reader of the byte stream with
the checks of the source and their error texts.

The codecs of `clarity` and `stacks-common` that these call are parameters,
gathered in `External`: addresses, contract and Clarity names, values and
principals, the 33-byte form of a public key, signature recovery, UTF-8
decoding, and the in-memory item sizes and `MAX_MESSAGE_LEN` that the external
vector reader checks. The vector reader, `read_next` of a `Vec`, is the one the
Bloom filter codec models. A `BoundReader` is `bounded`: past its bound the
reader meets the end of its input. -/

namespace Hyperchains.Transaction
open Bytes
open Hyperchains.Bloom (CodecError readVec)

/-! ## Fixed-width integers -/

def readU8 : Reader CodecError UInt8 := readByte .readError

def readU16 : Reader CodecError UInt16 := (fun n => n.toUInt16) <$> readNatBE .readError 2

def readU32 : Reader CodecError UInt32 := (fun n => n.toUInt32) <$> readNatBE .readError 4

def readU64 : Reader CodecError UInt64 := (fun n => n.toUInt64) <$> readNatBE .readError 8

def writeU16 (n : UInt16) : List UInt8 := beBytes 2 n.toNat

def writeU32 (n : UInt32) : List UInt8 := beBytes 4 n.toNat

def writeU64 (n : UInt64) : List UInt8 := beBytes 8 n.toNat

/-- `write_next` of a `Vec`: the count as a `u32`, then the items. -/
def writeVec {α : Type} (write : α → List UInt8) (items : List α) : List UInt8 :=
  beBytes 4 items.length ++ items.flatMap write

/-- `MAX_BLOCK_LEN`, the bound of a transaction. -/
def maxTransactionLen : Nat := 2 * 1024 * 1024

/-! ## What the codec calls outside the repository -/

/-- A codec of `clarity` or `stacks-common`: the bytes of a value, and the
reader of `read_next`. -/
structure Codec (α : Type) where
  write : α → List UInt8
  read : Reader CodecError α

structure External where
  /-- `StacksAddress`. -/
  Address : Type
  ContractName : Type
  ClarityName : Type
  Value : Type
  /-- `PrincipalData`. -/
  Principal : Type
  /-- A secp256k1 point, the key of a `StacksPublicKey` apart from its
  compression flag. -/
  Point : Type
  address : Codec Address
  contractName : Codec ContractName
  clarityName : Codec ClarityName
  value : Codec Value
  principal : Codec Principal
  /-- `StacksPublicKeyBuffer::from_public_key`. -/
  pointBytes : Point → FixedBytes 33
  /-- `StacksPublicKeyBuffer::to_public_key`, with the error's text. -/
  toPublicKey : FixedBytes 33 → Except String Point
  /-- `StacksString::from(name).is_clarity_variable()`. -/
  isClarityVariable : ClarityName → Bool
  /-- `MessageSignature::to_secp256k1_recoverable` returns a signature. -/
  recoverable : FixedBytes 65 → Bool
  /-- `String::from_utf8` succeeds. -/
  validUtf8 : List UInt8 → Bool
  /-- `mem::size_of` of the items of the vectors read. -/
  valueSize : Nat
  authFieldSize : Nat
  postConditionSize : Nat
  signatureSize : Nat
  maxMessageLen : Nat

variable (E : External)

/-! ## Strings -/

/-- `StacksString`: the bytes of a printable ASCII string. -/
structure StacksString where
  bytes : List UInt8
  deriving DecidableEq, Repr

/-- `StacksString::is_printable` of an ASCII string: `0x20` to `0x7e`, tab and
newline. -/
def isPrintable (bytes : List UInt8) : Bool :=
  bytes.all fun c => !((c < 0x20 && c != 0x09 && c != 0x0a) || c > 0x7e)

/-- `StacksString::is_valid_string`. -/
def isValidString (bytes : List UInt8) : Bool :=
  bytes.all (· < 0x80) && isPrintable bytes

def StacksString.consensusSerialize (string : StacksString) : List UInt8 :=
  writeVec (fun byte => [byte]) string.bytes

def StacksString.consensusDeserialize : Reader CodecError StacksString := do
  let bytes ← bounded E.maxMessageLen (readVec E.maxMessageLen 1 readU8)
  if !E.validUtf8 bytes then throw (.deserializeError "Invalid Stacks string: could not build from utf8")
  if !isValidString bytes then
    throw (.deserializeError "Invalid Stacks string: non-printable or non-ASCII string")
  pure ⟨bytes⟩

/-! ## Auth -/

inductive TransactionPublicKeyEncoding where
  | compressed
  | uncompressed
  deriving DecidableEq, Repr

def TransactionPublicKeyEncoding.toU8 : TransactionPublicKeyEncoding → UInt8
  | .compressed => 0x00
  | .uncompressed => 0x01

def TransactionPublicKeyEncoding.fromU8 (n : UInt8) : Option TransactionPublicKeyEncoding :=
  if n = 0x00 then some .compressed else if n = 0x01 then some .uncompressed else none

inductive SinglesigHashMode where
  | p2pkh
  | p2wpkh
  deriving DecidableEq, Repr

def SinglesigHashMode.toU8 : SinglesigHashMode → UInt8
  | .p2pkh => 0x00
  | .p2wpkh => 0x02

def SinglesigHashMode.fromU8 (n : UInt8) : Option SinglesigHashMode :=
  if n = 0x00 then some .p2pkh else if n = 0x02 then some .p2wpkh else none

inductive MultisigHashMode where
  | p2sh
  | p2wsh
  deriving DecidableEq, Repr

def MultisigHashMode.toU8 : MultisigHashMode → UInt8
  | .p2sh => 0x01
  | .p2wsh => 0x03

def MultisigHashMode.fromU8 (n : UInt8) : Option MultisigHashMode :=
  if n = 0x01 then some .p2sh else if n = 0x03 then some .p2wsh else none

/-- `StacksPublicKey`: a point and whether it is written compressed. -/
structure StacksPublicKey where
  point : E.Point
  compressed : Bool

/-- `MessageSignature`. -/
abbrev MessageSignature := FixedBytes 65

inductive TransactionAuthField where
  | publicKey (key : StacksPublicKey E)
  | signature (keyEncoding : TransactionPublicKeyEncoding) (signature : MessageSignature)

def TransactionAuthField.isSignature : TransactionAuthField E → Bool
  | .publicKey _ => false
  | .signature _ _ => true

def TransactionAuthField.consensusSerialize : TransactionAuthField E → List UInt8
  | .publicKey key => (if key.compressed then 0x00 else 0x01) :: (E.pointBytes key.point).val
  | .signature keyEncoding sig => (if keyEncoding = .compressed then 0x02 else 0x03) :: sig.val

/-- The public key of an auth field, marked compressed or not. -/
def readPublicKey (compressed : Bool) : Reader CodecError (TransactionAuthField E) := do
  let pubkeyBuf ← readFixed .readError 33
  match E.toPublicKey pubkeyBuf with
  | .ok point => pure (.publicKey ⟨point, compressed⟩)
  | .error message => throw (.deserializeError message)

def TransactionAuthField.consensusDeserialize : Reader CodecError (TransactionAuthField E) := do
  let fieldId ← readU8
  if fieldId = 0x00 then readPublicKey E true
  else if fieldId = 0x01 then readPublicKey E false
  else if fieldId = 0x02 then do
    let sig ← readFixed .readError 65
    pure (.signature .compressed sig)
  else if fieldId = 0x03 then do
    let sig ← readFixed .readError 65
    pure (.signature .uncompressed sig)
  else throw (.deserializeError s!"Failed to parse auth field: unkonwn auth field ID {fieldId}")

structure MultisigSpendingCondition where
  hashMode : MultisigHashMode
  signer : FixedBytes 20
  nonce : UInt64
  txFee : UInt64
  fields : List (TransactionAuthField E)
  signaturesRequired : UInt16

structure SinglesigSpendingCondition where
  hashMode : SinglesigHashMode
  signer : FixedBytes 20
  nonce : UInt64
  txFee : UInt64
  keyEncoding : TransactionPublicKeyEncoding
  signature : MessageSignature
  deriving DecidableEq

inductive TransactionSpendingCondition where
  | singlesig (condition : SinglesigSpendingCondition)
  | multisig (condition : MultisigSpendingCondition E)

inductive TransactionAuth where
  | standard (origin : TransactionSpendingCondition E)
  | sponsored (origin sponsor : TransactionSpendingCondition E)

def MultisigSpendingCondition.consensusSerialize (condition : MultisigSpendingCondition E) : List UInt8 :=
  condition.hashMode.toU8 :: condition.signer.val ++ writeU64 condition.nonce ++ writeU64 condition.txFee ++
    writeVec (TransactionAuthField.consensusSerialize E) condition.fields ++
    writeU16 condition.signaturesRequired

/-- The loop of the multisig decoder over the fields: the signatures counted in
a `u16` with `checked_add`, and whether a key or signature is uncompressed. -/
def tallyFields : List (TransactionAuthField E) → UInt16 → Bool → Except CodecError (UInt16 × Bool)
  | [], numSigsGiven, haveUncompressed => .ok (numSigsGiven, haveUncompressed)
  | (.signature keyEncoding _) :: fields, numSigsGiven, haveUncompressed =>
      if numSigsGiven = 0xffff then
        .error (.deserializeError "Failed to parse multisig spending condition: too many signatures")
      else
        tallyFields fields (numSigsGiven + 1) (haveUncompressed || keyEncoding == .uncompressed)
  | (.publicKey key) :: fields, numSigsGiven, haveUncompressed =>
      tallyFields fields numSigsGiven (haveUncompressed || !key.compressed)

def MultisigSpendingCondition.consensusDeserialize : Reader CodecError (MultisigSpendingCondition E) := do
  let hashModeU8 ← readU8
  let some hashMode := MultisigHashMode.fromU8 hashModeU8
    | throw (.deserializeError s!"Failed to parse multisig spending condition: unknown hash mode {hashModeU8}")
  let signer ← readFixed .readError 20
  let nonce ← readU64
  let txFee ← readU64
  let fields ← bounded E.maxMessageLen
    (readVec E.maxMessageLen E.authFieldSize (TransactionAuthField.consensusDeserialize E))
  let signaturesRequired ← readU16
  -- read and decode exactly `signatures_required` signature buffers
  let (numSigsGiven, haveUncompressed) ← liftM (tallyFields E fields 0 false)
  if numSigsGiven ≠ signaturesRequired then
    throw (.deserializeError
      s!"Failed to parse multisig spending condition: got {numSigsGiven} sigs, expected {signaturesRequired}")
  if haveUncompressed && hashMode == .p2wsh then
    throw (.deserializeError "Failed to parse multisig spending condition: expected compressed keys only")
  pure ⟨hashMode, signer, nonce, txFee, fields, signaturesRequired⟩

def SinglesigSpendingCondition.consensusSerialize (condition : SinglesigSpendingCondition) : List UInt8 :=
  condition.hashMode.toU8 :: condition.signer.val ++ writeU64 condition.nonce ++ writeU64 condition.txFee ++
    condition.keyEncoding.toU8 :: condition.signature.val

def SinglesigSpendingCondition.consensusDeserialize : Reader CodecError SinglesigSpendingCondition := do
  let hashModeU8 ← readU8
  let some hashMode := SinglesigHashMode.fromU8 hashModeU8
    | throw (.deserializeError s!"Failed to parse singlesig spending condition: unknown hash mode {hashModeU8}")
  let signer ← readFixed .readError 20
  let nonce ← readU64
  let txFee ← readU64
  let keyEncodingU8 ← readU8
  let some keyEncoding := TransactionPublicKeyEncoding.fromU8 keyEncodingU8
    | throw (.deserializeError
        s!"Failed to parse singlesig spending condition: unknown key encoding {keyEncodingU8}")
  let signature ← readFixed .readError 65
  -- must be compressed if we're using p2wpkh
  if hashMode == .p2wpkh && keyEncoding != .compressed then
    throw (.deserializeError
      "Failed to parse singlesig spending condition: incomaptible hash mode and key encoding")
  pure ⟨hashMode, signer, nonce, txFee, keyEncoding, signature⟩

def TransactionSpendingCondition.consensusSerialize : TransactionSpendingCondition E → List UInt8
  | .singlesig condition => condition.consensusSerialize
  | .multisig condition => condition.consensusSerialize

/-- The hash mode byte is peeked, and the condition's own reader reads it
again. -/
def TransactionSpendingCondition.consensusDeserialize : Reader CodecError (TransactionSpendingCondition E) := do
  let hashModeU8 ← peekByte .readError
  if (SinglesigHashMode.fromU8 hashModeU8).isSome then
    .singlesig <$> SinglesigSpendingCondition.consensusDeserialize
  else if (MultisigHashMode.fromU8 hashModeU8).isSome then
    .multisig <$> MultisigSpendingCondition.consensusDeserialize E
  else throw (.deserializeError s!"Failed to parse spending condition: invalid hash mode {hashModeU8}")

def TransactionAuth.consensusSerialize : TransactionAuth E → List UInt8
  | .standard origin => 0x04 :: origin.consensusSerialize
  | .sponsored origin sponsor => 0x05 :: origin.consensusSerialize ++ sponsor.consensusSerialize

def TransactionAuth.consensusDeserialize : Reader CodecError (TransactionAuth E) := do
  let typeId ← readU8
  if typeId = 0x04 then do
    let originAuth ← TransactionSpendingCondition.consensusDeserialize E
    pure (.standard originAuth)
  else if typeId = 0x05 then do
    let originAuth ← TransactionSpendingCondition.consensusDeserialize E
    let sponsorAuth ← TransactionSpendingCondition.consensusDeserialize E
    pure (.sponsored originAuth sponsorAuth)
  else
    throw (.deserializeError s!"Failed to parse transaction authorization: unrecognized auth flags {typeId}")

/-! ## Post-conditions -/

structure AssetInfo where
  contractAddress : E.Address
  contractName : E.ContractName
  assetName : E.ClarityName

def AssetInfo.consensusSerialize (info : AssetInfo E) : List UInt8 :=
  E.address.write info.contractAddress ++ E.contractName.write info.contractName ++
    E.clarityName.write info.assetName

def AssetInfo.consensusDeserialize : Reader CodecError (AssetInfo E) := do
  let contractAddress ← E.address.read
  let contractName ← E.contractName.read
  let assetName ← E.clarityName.read
  pure ⟨contractAddress, contractName, assetName⟩

inductive PostConditionPrincipal where
  | origin
  | standard (address : E.Address)
  | contract (address : E.Address) (contractName : E.ContractName)

def PostConditionPrincipal.consensusSerialize : PostConditionPrincipal E → List UInt8
  | .origin => [0x01]
  | .standard address => 0x02 :: E.address.write address
  | .contract address contractName => 0x03 :: E.address.write address ++ E.contractName.write contractName

def PostConditionPrincipal.consensusDeserialize : Reader CodecError (PostConditionPrincipal E) := do
  let principalId ← readU8
  if principalId = 0x01 then pure .origin
  else if principalId = 0x02 then do
    let addr ← E.address.read
    pure (.standard addr)
  else if principalId = 0x03 then do
    let addr ← E.address.read
    let contractName ← E.contractName.read
    pure (.contract addr contractName)
  else throw (.deserializeError
    s!"Failed to parse transaction: unknown post condition principal ID {principalId}")

inductive FungibleConditionCode where
  | sentEq
  | sentGt
  | sentGe
  | sentLt
  | sentLe
  deriving DecidableEq, Repr

def FungibleConditionCode.toU8 : FungibleConditionCode → UInt8
  | .sentEq => 0x01
  | .sentGt => 0x02
  | .sentGe => 0x03
  | .sentLt => 0x04
  | .sentLe => 0x05

def FungibleConditionCode.fromU8 (b : UInt8) : Option FungibleConditionCode :=
  if b = 0x01 then some .sentEq
  else if b = 0x02 then some .sentGt
  else if b = 0x03 then some .sentGe
  else if b = 0x04 then some .sentLt
  else if b = 0x05 then some .sentLe
  else none

inductive NonfungibleConditionCode where
  | sent
  | notSent
  deriving DecidableEq, Repr

def NonfungibleConditionCode.toU8 : NonfungibleConditionCode → UInt8
  | .sent => 0x10
  | .notSent => 0x11

def NonfungibleConditionCode.fromU8 (b : UInt8) : Option NonfungibleConditionCode :=
  if b = 0x10 then some .sent else if b = 0x11 then some .notSent else none

inductive TransactionPostCondition where
  | stx (principal : PostConditionPrincipal E) (code : FungibleConditionCode) (amount : UInt64)
  | fungible (principal : PostConditionPrincipal E) (asset : AssetInfo E) (code : FungibleConditionCode)
      (amount : UInt64)
  | nonfungible (principal : PostConditionPrincipal E) (asset : AssetInfo E) (assetValue : E.Value)
      (code : NonfungibleConditionCode)

def TransactionPostCondition.consensusSerialize : TransactionPostCondition E → List UInt8
  | .stx principal code amount => 0 :: principal.consensusSerialize ++ code.toU8 :: writeU64 amount
  | .fungible principal asset code amount =>
      1 :: principal.consensusSerialize ++ asset.consensusSerialize ++ code.toU8 :: writeU64 amount
  | .nonfungible principal asset assetValue code =>
      2 :: principal.consensusSerialize ++ asset.consensusSerialize ++ E.value.write assetValue ++ [code.toU8]

/-- A fungible condition code, or the error that names the asset kind. -/
def readFungibleCode (kind : String) : Reader CodecError FungibleConditionCode := do
  let conditionU8 ← readU8
  let some code := FungibleConditionCode.fromU8 conditionU8
    | throw (.deserializeError s!"Failed to parse transaction: Failed to parse {kind} fungible condition code {conditionU8}")
  pure code

def TransactionPostCondition.consensusDeserialize : Reader CodecError (TransactionPostCondition E) := do
  let assetInfoId ← readU8
  if assetInfoId = 0 then do
    let principal ← PostConditionPrincipal.consensusDeserialize E
    let conditionU8 ← readU8
    let amount ← readU64
    let some conditionCode := FungibleConditionCode.fromU8 conditionU8
      | throw (.deserializeError
          s!"Failed to parse transaction: Failed to parse STX fungible condition code {conditionU8}")
    pure (.stx principal conditionCode amount)
  else if assetInfoId = 1 then do
    let principal ← PostConditionPrincipal.consensusDeserialize E
    let asset ← AssetInfo.consensusDeserialize E
    let conditionU8 ← readU8
    let amount ← readU64
    let some conditionCode := FungibleConditionCode.fromU8 conditionU8
      | throw (.deserializeError
          s!"Failed to parse transaction: Failed to parse FungibleAsset condition code {conditionU8}")
    pure (.fungible principal asset conditionCode amount)
  else if assetInfoId = 2 then do
    let principal ← PostConditionPrincipal.consensusDeserialize E
    let asset ← AssetInfo.consensusDeserialize E
    let assetValue ← E.value.read
    let conditionU8 ← readU8
    let some conditionCode := NonfungibleConditionCode.fromU8 conditionU8
      | throw (.deserializeError
          s!"Failed to parse transaction: Failed to parse NonfungibleAsset condition code {conditionU8}")
    pure (.nonfungible principal asset assetValue conditionCode)
  else throw (.deserializeError s!"Failed to aprse transaction: unknown asset info ID {assetInfoId}")

/-! ## Payloads -/

structure TransactionContractCall where
  address : E.Address
  contractName : E.ContractName
  functionName : E.ClarityName
  functionArgs : List E.Value

def TransactionContractCall.consensusSerialize (call : TransactionContractCall E) : List UInt8 :=
  E.address.write call.address ++ E.contractName.write call.contractName ++
    E.clarityName.write call.functionName ++ writeVec E.value.write call.functionArgs

def TransactionContractCall.consensusDeserialize : Reader CodecError (TransactionContractCall E) := do
  let address ← E.address.read
  let contractName ← E.contractName.read
  let functionName ← E.clarityName.read
  let functionArgs ← bounded maxTransactionLen (readVec E.maxMessageLen E.valueSize E.value.read)
  -- function name must be valid Clarity variable
  if !E.isClarityVariable functionName then
    throw (.deserializeError
      "Failed to parse transaction: invalid function name -- not a Clarity variable")
  pure ⟨address, contractName, functionName, functionArgs⟩

structure TransactionSmartContract where
  name : E.ContractName
  codeBody : StacksString

def TransactionSmartContract.consensusSerialize (contract : TransactionSmartContract E) : List UInt8 :=
  E.contractName.write contract.name ++ contract.codeBody.consensusSerialize

def TransactionSmartContract.consensusDeserialize : Reader CodecError (TransactionSmartContract E) := do
  let name ← E.contractName.read
  let codeBody ← StacksString.consensusDeserialize E
  pure ⟨name, codeBody⟩

inductive ClarityVersion where
  | clarity1
  | clarity2
  deriving DecidableEq, Repr

def clarityVersionConsensusSerialize : ClarityVersion → UInt8
  | .clarity1 => 1
  | .clarity2 => 2

def clarityVersionConsensusDeserialize : Reader CodecError ClarityVersion := do
  let versionByte ← readU8
  if versionByte = 1 then pure .clarity1
  else if versionByte = 2 then pure .clarity2
  else throw (.deserializeError s!"Unrecognized ClarityVersion byte {versionByte}")

/-- `MessageSignatureList::consensus_deserialize`: the vector, each signature
recoverable. -/
def readMessageSignatureList : Reader CodecError (List MessageSignature) := do
  let signatures ← readVec E.maxMessageLen E.signatureSize (readFixed .readError 65)
  -- signature must be well-formed
  if !signatures.all E.recoverable then throw (.deserializeError "Failed to parse signature")
  pure signatures

structure StacksMicroblockHeader where
  version : UInt8
  sequence : UInt16
  prevBlock : FixedBytes 32
  txMerkleRoot : FixedBytes 32
  minerSignatures : List MessageSignature
  deriving DecidableEq

def StacksMicroblockHeader.consensusSerialize (header : StacksMicroblockHeader) : List UInt8 :=
  header.version :: writeU16 header.sequence ++ header.prevBlock.val ++ header.txMerkleRoot.val ++
    writeVec Subtype.val header.minerSignatures

def StacksMicroblockHeader.consensusDeserialize : Reader CodecError StacksMicroblockHeader := do
  let version ← readU8
  let sequence ← readU16
  let prevBlock ← readFixed .readError 32
  let txMerkleRoot ← readFixed .readError 32
  let minerSignatures ← readMessageSignatureList E
  pure ⟨version, sequence, prevBlock, txMerkleRoot, minerSignatures⟩

inductive TransactionPayload where
  | tokenTransfer (recipient : E.Principal) (amount : UInt64) (memo : FixedBytes 34)
  | contractCall (call : TransactionContractCall E)
  | smartContract (contract : TransactionSmartContract E) (version : Option ClarityVersion)
  | poisonMicroblock (first second : StacksMicroblockHeader)
  | coinbase (payload : FixedBytes 32)

def TransactionPayload.consensusSerialize : TransactionPayload E → List UInt8
  | .tokenTransfer address amount memo => 0 :: E.principal.write address ++ writeU64 amount ++ memo.val
  | .contractCall call => 2 :: call.consensusSerialize
  | .smartContract contract (some version) =>
      6 :: clarityVersionConsensusSerialize version :: contract.consensusSerialize
  | .smartContract contract none => 1 :: contract.consensusSerialize
  | .poisonMicroblock first second => 3 :: first.consensusSerialize ++ second.consensusSerialize
  | .coinbase payload => 4 :: payload.val

def TransactionPayload.consensusDeserialize : Reader CodecError (TransactionPayload E) := do
  let typeId ← readU8
  if typeId = 0 then do
    let principal ← E.principal.read
    let amount ← readU64
    let memo ← readFixed .readError 34
    pure (.tokenTransfer principal amount memo)
  else if typeId = 2 then do
    let payload ← TransactionContractCall.consensusDeserialize E
    pure (.contractCall payload)
  else if typeId = 1 then do
    let payload ← TransactionSmartContract.consensusDeserialize E
    pure (.smartContract payload none)
  else if typeId = 6 then do
    let version ← clarityVersionConsensusDeserialize
    let payload ← TransactionSmartContract.consensusDeserialize E
    pure (.smartContract payload (some version))
  else if typeId = 3 then do
    let h1 ← StacksMicroblockHeader.consensusDeserialize E
    let h2 ← StacksMicroblockHeader.consensusDeserialize E
    -- must differ in some field
    if h1 = h2 then throw (.deserializeError "Failed to parse transaction -- microblock headers match")
    -- must have the same sequence number or same block parent
    if h1.sequence ≠ h2.sequence && h1.prevBlock ≠ h2.prevBlock then
      throw (.deserializeError
        "Failed to parse transaction -- microblock headers do not identify a fork")
    pure (.poisonMicroblock h1 h2)
  else if typeId = 4 then do
    let payload ← readFixed .readError 32
    pure (.coinbase payload)
  else throw (.deserializeError s!"Failed to parse transaction -- unknown payload ID {typeId}")

/-! ## The transaction -/

inductive TransactionVersion where
  | mainnet
  | testnet
  deriving DecidableEq, Repr

def TransactionVersion.toU8 : TransactionVersion → UInt8
  | .mainnet => 0x00
  | .testnet => 0x80

inductive TransactionAnchorMode where
  | onChainOnly
  | offChainOnly
  | any
  deriving DecidableEq, Repr

def TransactionAnchorMode.toU8 : TransactionAnchorMode → UInt8
  | .onChainOnly => 1
  | .offChainOnly => 2
  | .any => 3

inductive TransactionPostConditionMode where
  | allow
  | deny
  deriving DecidableEq, Repr

def TransactionPostConditionMode.toU8 : TransactionPostConditionMode → UInt8
  | .allow => 0x01
  | .deny => 0x02

structure StacksTransaction where
  version : TransactionVersion
  chainId : UInt32
  auth : TransactionAuth E
  anchorMode : TransactionAnchorMode
  postConditionMode : TransactionPostConditionMode
  postConditions : List (TransactionPostCondition E)
  payload : TransactionPayload E

def StacksTransaction.consensusSerialize (tx : StacksTransaction E) : List UInt8 :=
  tx.version.toU8 :: writeU32 tx.chainId ++ tx.auth.consensusSerialize ++ tx.anchorMode.toU8 ::
    tx.postConditionMode.toU8 :: writeVec (TransactionPostCondition.consensusSerialize E) tx.postConditions ++
    tx.payload.consensusSerialize

/-- The reads and checks of `consensus_deserialize_with_len`, inside its
bound. -/
def readTransaction : Reader CodecError (StacksTransaction E) := do
  let versionU8 ← readU8
  let chainId ← readU32
  let auth ← TransactionAuth.consensusDeserialize E
  let anchorModeU8 ← readU8
  let postConditionModeU8 ← readU8
  let postConditions ← readVec E.maxMessageLen E.postConditionSize (TransactionPostCondition.consensusDeserialize E)
  let payload ← TransactionPayload.consensusDeserialize E
  let version := if versionU8 &&& 0x80 = 0 then TransactionVersion.mainnet else .testnet
  let anchorMode ←
    if anchorModeU8 = 2 then pure TransactionAnchorMode.offChainOnly
    else if anchorModeU8 = 1 then pure .onChainOnly
    else if anchorModeU8 = 3 then pure .any
    else throw (.deserializeError s!"Failed to parse transaction: invalid anchor mode {anchorModeU8}")
  -- a poison proof or a coinbase must be anchored
  match payload with
  | .poisonMicroblock _ _ =>
      if anchorMode ≠ .onChainOnly then
        throw (.deserializeError "Failed to parse transaction: invalid anchor mode for PoisonMicroblock")
  | .coinbase _ =>
      if anchorMode ≠ .onChainOnly then
        throw (.deserializeError "Failed to parse transaction: invalid anchor mode for Coinbase")
  | _ => pure ()
  let postConditionMode ←
    if postConditionModeU8 = 0x01 then pure TransactionPostConditionMode.allow
    else if postConditionModeU8 = 0x02 then pure .deny
    else throw (.deserializeError
      s!"Failed to parse transaction: invalid post-condition mode {postConditionModeU8}")
  pure ⟨version, chainId, auth, anchorMode, postConditionMode, postConditions, payload⟩

/-- `StacksTransaction::consensus_deserialize_with_len`: the transaction, the
bytes it took, and the bytes after it. -/
def StacksTransaction.consensusDeserializeWithLen (bytes : List UInt8) :
    Except CodecError ((StacksTransaction E × Nat) × List UInt8) :=
  (bounded maxTransactionLen (readTransaction E) bytes).map fun step =>
    ((step.1, bytes.length - step.2.length), step.2)

end Hyperchains.Transaction
