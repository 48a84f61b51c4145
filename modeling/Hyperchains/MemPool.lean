import Hyperchains.BloomCounter

/-! The mempool's admission of transactions (`MemPoolDB::try_add_tx` and
`tx_submit` in `core/mempool.rs`), its garbage collection, and the bookkeeping
of its bloom counter (`update_bloom_counter`, `prune_bloom_counter`). A new
transaction replaces the one that holds its origin's nonce, or failing that its
sponsor's, when it pays a higher fee or lies in another fork. The counter holds
the txids of the recent transactions: a transaction goes in when it is admitted,
and comes out when the first transaction of a new height moves the counter's
window past its height, when it is replaced, or when it is evicted to keep the
counter below `MAX_BLOOM_COUNTER_TXS`.

The database is three tables: `mempool` in row order with the columns these
calls read, `removed_txids`, and the bins of the counter as `BloomCounter`
models them; SQLite itself does not fail here. `INSERT OR REPLACE` deletes
every row that conflicts with the new one on the primary key or on either
`UNIQUE` constraint, and `ON DELETE CASCADE` deletes their `removed_txids`
rows. The eviction query orders by fee alone, and among rows of one fee this
model takes the first. A transaction's `consensus_hash` and
`block_header_hash` are its `Tip`; the chain state answers
`get_ancestor_block_height`. `tx_submit` is modelled from the height it finds
for the tip on: its admission checks, the fee rate column and the randomized
txids are left out, and the drop event is returned rather than sent. A call
that fails rolls its database transaction back. -/

namespace Hyperchains.MemPool
open Hyperchains.Bloom

/-- `MAX_BLOOM_COUNTER_TXS`. -/
def maxBloomCounterTxs : Nat := 8192

/-- The columns of a `mempool` row that admission and the counter read. -/
structure MemPoolTxMetadata (Address Tip : Type) where
  txid : List UInt8
  originAddress : Address
  originNonce : Nat
  sponsorAddress : Address
  sponsorNonce : Nat
  txFee : Nat
  tip : Tip
  height : Nat
  deriving DecidableEq, Repr

/-- The two calls the mempool makes of its bloom counter, on its state `β`. -/
structure Counter (β : Type) where
  insertRaw : β → List UInt8 → Except Fault β
  removeRaw : β → List UInt8 → Except Fault β

/-- `BloomCounter<BloomNodeHasher>` on its bins; the counts the calls return
are not read. -/
def bloomNodeCounter {State : Type} (sip : SipHasher State) (counter : BloomCounter) (fuel : Nat) :
    Counter (List Nat) :=
  ⟨fun counts item => Prod.snd <$> BloomCounter.insertRaw sip counter fuel counts item,
    fun counts item => Prod.snd <$> BloomCounter.removeRaw sip counter fuel counts item⟩

structure MemPoolDB (Address Tip β : Type) where
  mempool : List (MemPoolTxMetadata Address Tip)
  removedTxids : List (List UInt8)
  bloomCounter : β
  deriving DecidableEq, Repr

inductive MemPoolDropReason where
  | replaceAcrossFork
  | replaceByFee
  | staleCollect
  | tooExpensive
  deriving DecidableEq, Repr

/-- The rejections of `try_add_tx`; a fault of the bloom counter is its panic,
or its hasher running out of fuel. -/
inductive MemPoolRejection where
  | conflictingNonceInMempool
  | bloomCounter (fault : Fault)
  deriving DecidableEq, Repr

/-- `get_ancestor_block_height` of the chain state's index: the height of the
first block in the fork that the second ends, if it lies there. -/
structure ChainState (Tip : Type) where
  getAncestorBlockHeight : Tip → Tip → Option Nat

variable {Address Tip β : Type} [DecidableEq Address] [DecidableEq Tip]

/-- A new database, its counter as `BloomCounter::new` leaves it. -/
def MemPoolDB.new (bloomCounter : β) : MemPoolDB Address Tip β := ⟨[], [], bloomCounter⟩

def areBlocksInSameFork (chainstate : ChainState Tip) (first second : Tip) : Bool :=
  -- short circuit equality
  if second = first then true
  else
    match chainstate.getAncestorBlockHeight second first, chainstate.getAncestorBlockHeight first second with
    | none, none => false
    | _, _ => true

/-! ## Queries -/

section Queries
variable (mempool : List (MemPoolTxMetadata Address Tip))

/-- `get_tx_metadata_by_address`: the row with the origin's, or the sponsor's,
address and nonce. -/
def getTxMetadataByAddress (isOrigin : Bool) (addr : Address) (nonce : Nat) :
    Option (MemPoolTxMetadata Address Tip) :=
  mempool.find? fun row =>
    if isOrigin then decide (row.originAddress = addr ∧ row.originNonce = nonce)
    else decide (row.sponsorAddress = addr ∧ row.sponsorNonce = nonce)

def getMaxHeight : Option Nat := (mempool.map (·.height)).max?

/-- The rows within `BLOOM_COUNTER_DEPTH` heights of the highest. -/
def recentRows : List (MemPoolTxMetadata Address Tip) :=
  match getMaxHeight mempool with
  | none => []
  | some maxHeight =>
      let minHeight := maxHeight - bloomCounterDepth
      mempool.filter fun row => decide (minHeight < row.height ∧ row.height ≤ maxHeight)

def getNumRecentTxs : Nat := (recentRows mempool).length

/-- `get_bloom_txids`: "the set of transactions that are represented in the
bloom counter". -/
def getBloomTxids (removedTxids : List (List UInt8)) : List (List UInt8) :=
  ((recentRows mempool).filter fun row => decide (row.txid ∉ removedTxids)).map (·.txid)

end Queries

/-! ## Writes to the tables -/

/-- `INSERT OR REPLACE INTO removed_txids`. -/
def addRemoved (removedTxids : List (List UInt8)) (txid : List UInt8) : List (List UInt8) :=
  if txid ∈ removedTxids then removedTxids else removedTxids ++ [txid]

/-- `DELETE FROM mempool` of the rows `doomed` picks, with their
`removed_txids` rows. -/
def MemPoolDB.deleteWhere (self : MemPoolDB Address Tip β) (doomed : MemPoolTxMetadata Address Tip → Bool) :
    MemPoolDB Address Tip β :=
  let deleted := (self.mempool.filter doomed).map (·.txid)
  { self with
    mempool := self.mempool.filter fun row => !doomed row
    removedTxids := self.removedTxids.filter fun txid => decide (txid ∉ deleted) }

/-- The rows that the primary key or a `UNIQUE` constraint of `mempool` keeps
from standing beside `row`. -/
def conflicts (row other : MemPoolTxMetadata Address Tip) : Bool :=
  decide (other.txid = row.txid ∨ (other.originAddress = row.originAddress ∧ other.originNonce = row.originNonce) ∨
    (other.sponsorAddress = row.sponsorAddress ∧ other.sponsorNonce = row.sponsorNonce))

/-- `INSERT OR REPLACE INTO mempool`. -/
def MemPoolDB.insertOrReplace (self : MemPoolDB Address Tip β) (row : MemPoolTxMetadata Address Tip) :
    MemPoolDB Address Tip β :=
  let self := self.deleteWhere (conflicts row)
  { self with mempool := self.mempool ++ [row] }

/-- `garbage_collect`: the rows below `min_height` are deleted, and their
txids dropped as stale. -/
def MemPoolDB.garbageCollect (self : MemPoolDB Address Tip β) (minHeight : Nat) :
    MemPoolDB Address Tip β × List (List UInt8) :=
  let doomed := fun row : MemPoolTxMetadata Address Tip => decide (row.height < minHeight)
  (self.deleteWhere doomed, (self.mempool.filter doomed).map (·.txid))

def MemPoolDB.dropTxs (self : MemPoolDB Address Tip β) (txids : List (List UInt8)) : MemPoolDB Address Tip β :=
  self.deleteWhere fun row => decide (row.txid ∈ txids)

/-! ## The bloom counter -/

section Counter
variable (bloom : Counter β)

/-- `bloom_counter.remove_raw` in the database. -/
def MemPoolDB.removeRaw (self : MemPoolDB Address Tip β) (txid : List UInt8) :
    Except MemPoolRejection (MemPoolDB Address Tip β) := do
  let bloomCounter ← (bloom.removeRaw self.bloomCounter txid).mapError .bloomCounter
  pure { self with bloomCounter }

/-- `bloom_counter.insert_raw` in the database. -/
def MemPoolDB.insertRaw (self : MemPoolDB Address Tip β) (txid : List UInt8) :
    Except MemPoolRejection (MemPoolDB Address Tip β) := do
  let bloomCounter ← (bloom.insertRaw self.bloomCounter txid).mapError .bloomCounter
  pure { self with bloomCounter }

/-- The query of `prune_bloom_counter`: the txids at the height not yet removed. -/
def MemPoolDB.prunedTxids (self : MemPoolDB Address Tip β) (targetHeight : Nat) : List (List UInt8) :=
  (self.mempool.filter fun row => decide (row.txid ∉ self.removedTxids ∧ row.height = targetHeight)).map (·.txid)

/-- One turn of the loop of `prune_bloom_counter`. -/
def MemPoolDB.pruneTxid (self : MemPoolDB Address Tip β) (txid : List UInt8) :
    Except MemPoolRejection (MemPoolDB Address Tip β) := do
  let self ← self.removeRaw bloom txid
  pure { self with removedTxids := addRemoved self.removedTxids txid }

def MemPoolDB.pruneBloomCounter (self : MemPoolDB Address Tip β) (targetHeight : Nat) :
    Except MemPoolRejection (MemPoolDB Address Tip β) :=
  (self.prunedTxids targetHeight).foldlM (fun self txid => self.pruneTxid bloom txid) self

/-- The eviction query of `update_bloom_counter`: a txid of least fee among the
recent rows not yet removed. -/
def MemPoolDB.evictTxid (self : MemPoolDB Address Tip β) (height : Nat) : Option (List UInt8) :=
  ((self.mempool.filter fun row => decide (row.txid ∉ self.removedTxids ∧ height - bloomCounterDepth < row.height)).argmin
    (·.txFee)).map (·.txid)

/-- The first txid at a height moves the counter's window: the txids at the
height that falls out of it are pruned. -/
def MemPoolDB.pruneOnNewHeight (self : MemPoolDB Address Tip β) (height : Nat) :
    Except MemPoolRejection (MemPoolDB Address Tip β) :=
  -- is this the first-ever txid at this height?
  let present := self.mempool.any fun row => decide (row.height = height)
  if !present && decide (height > bloomCounterDepth) then
    self.pruneBloomCounter bloom (height - bloomCounterDepth)
  else pure self

/-- The replaced transaction goes out of the counter. -/
def MemPoolDB.removeReplaced (self : MemPoolDB Address Tip β) (priorTxid : Option (List UInt8)) :
    Except MemPoolRejection (MemPoolDB Address Tip β) :=
  match priorTxid with
  | some priorTxid => self.removeRaw bloom priorTxid
  | none => pure self

/-- A full counter evicts one transaction, to keep the error rate at or below
its target; with the evicted txid. -/
def MemPoolDB.evictOne (self : MemPoolDB Address Tip β) (height : Nat) :
    Except MemPoolRejection (MemPoolDB Address Tip β × Option (List UInt8)) :=
  if getNumRecentTxs self.mempool ≥ maxBloomCounterTxs then
    match self.evictTxid height with
    | some evictTxid => do
        let self ← self.removeRaw bloom evictTxid
        pure ({ self with removedTxids := addRemoved self.removedTxids evictTxid }, some evictTxid)
    | none => pure (self, none)
  else pure (self, none)

/-- `update_bloom_counter`, with the evicted txid. -/
def MemPoolDB.updateBloomCounter (self : MemPoolDB Address Tip β) (height : Nat) (txid : List UInt8)
    (priorTxid : Option (List UInt8)) : Except MemPoolRejection (MemPoolDB Address Tip β × Option (List UInt8)) := do
  let self ← self.pruneOnNewHeight bloom height
  let self ← self.removeReplaced bloom priorTxid
  let (self, evicted) ← self.evictOne bloom height
  -- finally add the new transaction
  let self ← self.insertRaw bloom txid
  pure (self, evicted)

/-- The transaction that holds the origin's nonce, or failing that the sponsor's. -/
def priorTx (mempool : List (MemPoolTxMetadata Address Tip)) (originAddress : Address) (originNonce : Nat)
    (sponsorAddress : Address) (sponsorNonce : Nat) : Option (MemPoolTxMetadata Address Tip) :=
  match getTxMetadataByAddress mempool true originAddress originNonce with
  | some priorTx => some priorTx
  | none => getTxMetadataByAddress mempool false sponsorAddress sponsorNonce

/-- Whether a transaction of fee `txFee` at `tip` may replace `priorTx`, and
why. -/
def replaces (chainstate : ChainState Tip) (tip : Tip) (txFee : Nat) (priorTx : MemPoolTxMetadata Address Tip) :
    Bool × MemPoolDropReason :=
  if txFee > priorTx.txFee then (true, .replaceByFee)
  else if !areBlocksInSameFork chainstate priorTx.tip tip then (true, .replaceAcrossFork)
  else (false, .replaceByFee)

def MemPoolDB.tryAddTx (chainstate : ChainState Tip) (self : MemPoolDB Address Tip β) (tip : Tip)
    (txid : List UInt8) (txFee height : Nat) (originAddress : Address) (originNonce : Nat)
    (sponsorAddress : Address) (sponsorNonce : Nat) :
    Except MemPoolRejection (MemPoolDB Address Tip β × Option (List (List UInt8) × MemPoolDropReason)) := do
  let priorTx := priorTx self.mempool originAddress originNonce sponsorAddress sponsorNonce
  let (addTx, replaceReason) := match priorTx with
    | some priorTx => replaces chainstate tip txFee priorTx
    | none => (true, .replaceByFee)
  if !addTx then throw .conflictingNonceInMempool
  let (self, _) ← self.updateBloomCounter bloom height txid (priorTx.map (·.txid))
  let self := self.insertOrReplace ⟨txid, originAddress, originNonce, sponsorAddress, sponsorNonce, txFee, tip, height⟩
  -- the drop event of the replaced transaction
  pure (self, priorTx.map fun priorTx => ([priorTx.txid], replaceReason))

/-- What `tx_submit` reads of a transaction, with the height of its tip. A
sponsored transaction has its sponsor's address and nonce. -/
structure Submission (Address Tip : Type) where
  tip : Tip
  height : Nat
  txid : List UInt8
  txFee : Nat
  originAddress : Address
  originNonce : Nat
  sponsor : Option (Address × Nat)
  deriving DecidableEq, Repr

/-- `tx_submit` from the height on: a transaction without a sponsor is its own. -/
def MemPoolDB.txSubmit (chainstate : ChainState Tip) (self : MemPoolDB Address Tip β) (tx : Submission Address Tip) :
    Except MemPoolRejection (MemPoolDB Address Tip β × Option (List (List UInt8) × MemPoolDropReason)) :=
  let (sponsorAddress, sponsorNonce) := tx.sponsor.getD (tx.originAddress, tx.originNonce)
  self.tryAddTx bloom chainstate tx.tip tx.txid tx.txFee tx.height tx.originAddress tx.originNonce
    sponsorAddress sponsorNonce

inductive Call (Address Tip : Type) where
  | submit (tx : Submission Address Tip)
  | garbageCollect (minHeight : Nat)
  | dropTxs (txids : List (List UInt8))

/-- One call on the database; a rejected submission leaves it as it was. -/
def MemPoolDB.step (chainstate : ChainState Tip) (self : MemPoolDB Address Tip β) : Call Address Tip → MemPoolDB Address Tip β
  | .submit tx =>
      match self.txSubmit bloom chainstate tx with
      | .ok (self, _) => self
      | .error _ => self
  | .garbageCollect minHeight => (self.garbageCollect minHeight).1
  | .dropTxs txids => self.dropTxs txids

def MemPoolDB.run (chainstate : ChainState Tip) (self : MemPoolDB Address Tip β) (calls : List (Call Address Tip)) :
    MemPoolDB Address Tip β :=
  calls.foldl (MemPoolDB.step bloom chainstate) self

end Counter

end Hyperchains.MemPool
