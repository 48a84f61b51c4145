import Hyperchains.MemPoolSpec

/-! The mempool on `BloomCounter<BloomNodeHasher>` refines the mempool on the
ledger of its counter. While the ledger records no broken removal, a call on
the bins does what the call on the ledger does, with the same tables, and the
bins stay the pair counts of the ledger's outstanding insertions
(`BloomCounter.Counts`). This holds for a hasher that lands every item in a
bin, while the counter holds fewer than `u32::MAX / num_hashes` insertions.
Over such a run, then, the bloom filter of the counter holds the txid of every
row outside `removed_txids`, as `Counted` says of the ledger. -/

namespace Hyperchains.Bloom.BloomCounter

/-! ## Room in the bins -/

section Bins
variable {State : Type} {sip : SipHasher State} {counter : BloomCounter} {fuel : Nat}

theorem hits_le (item : List UInt8) (bin : Nat) :
    hits sip counter fuel (List.range counter.numHashes) item bin ≤ counter.numHashes :=
  (List.length_filter_le _ _).trans_eq List.length_range

theorem pair_count_le (live : List (List UInt8)) (bin : Nat) :
    pairCount sip counter fuel live bin ≤ live.length * counter.numHashes := by
  have bounded := List.sum_le_card_nsmul (live.map fun item => hits sip counter fuel (List.range counter.numHashes)
    item bin) counter.numHashes (by simpa using fun item _ => hits_le item bin)
  simpa [pairCount] using bounded

/-- An `insert_raw` loop over hash functions that land the item in bins with
room for their hits returns, every bin below `u32::MAX`. -/
theorem insert_slots_eq_ok {item : List UInt8} : ∀ (indices : List Nat) (count : Nat) (counts : List Nat),
    counts.length = counter.numBins → Picks sip counter fuel item indices →
    (∀ bin, getCountsBin counts bin + hits sip counter fuel indices item bin < u32Max) →
    ∃ count' counts', insertSlots sip counter fuel item indices count counts = .ok (count', counts') ∧
      ∀ bin ∈ counts', bin < u32Max
  | [], count, counts, _, _, room => by
      refine ⟨count, counts, rfl, fun bin mem => ?_⟩
      obtain ⟨slot, inside, rfl⟩ := List.getElem_of_mem mem
      have atSlot := room slot
      simpa [getCountsBin, hits, List.getD_eq_getElem?_getD, List.getElem?_eq_getElem inside] using atSlot
  | i :: rest, count, counts, sized, picks, room => by
      obtain ⟨slot, picked, inside⟩ := picks i List.mem_cons_self
      have inBlob : slot < counts.length := sized ▸ inside
      -- the slot has room for this hit, so adding one does not saturate
      have atSlot := room slot
      rw [hits_cons, picked, if_pos rfl] at atSlot
      have grown : saturatingAdd (getCountsBin counts slot) = getCountsBin counts slot + 1 := by
        unfold saturatingAdd
        omega
      have roomRest : ∀ bin, getCountsBin (setCountsBin counts slot (saturatingAdd (getCountsBin counts slot))) bin +
          hits sip counter fuel rest item bin < u32Max := by
        intro bin
        rw [get_counts_bin_set_counts_bin inBlob, grown]
        have atBin := room bin
        rw [hits_cons, picked] at atBin
        by_cases same : bin = slot
        · rw [if_pos same, same]
          omega
        · rw [if_neg same]
          simp only [Except.ok.injEq, Ne.symm same, if_false] at atBin
          omega
      obtain ⟨count', counts', ran, bounded⟩ := insert_slots_eq_ok rest _ _ (by simp [setCountsBin, sized])
        (fun j mem => picks j (List.mem_cons_of_mem i mem)) roomRest
      refine ⟨count', counts', ?_, bounded⟩
      simp only [insertSlots, picked, Panic.ok_bind, inside, if_true]
      exact ran

/-- An insertion into a counter of fewer than `u32::MAX / num_hashes`
insertions returns and keeps the invariant, for an item the hasher lands. -/
theorem Counts.insert_raw_eq_ok {counts : List Nat} {live : List (List UInt8)}
    (inv : Counts sip counter fuel counts live) {item : List UInt8}
    (lands : Picks sip counter fuel item (List.range counter.numHashes))
    (room : (live.length + 1) * counter.numHashes < u32Max) :
    ∃ count counts', insertRaw sip counter fuel counts item = .ok (count, counts') ∧
      Counts sip counter fuel counts' (item :: live) := by
  have roomBins : ∀ bin, getCountsBin counts bin + hits sip counter fuel (List.range counter.numHashes) item bin <
      u32Max := by
    intro bin
    have atMost := @pair_count_le State sip counter fuel (item :: live) bin
    rw [pairCount, List.map_cons, List.sum_cons, List.length_cons] at atMost
    rw [inv.bins, pairCount]
    omega
  obtain ⟨count, counts', ran, bounded⟩ := insert_slots_eq_ok _ u32Max counts inv.sized lands roomBins
  exact ⟨count, counts', ran, inv.insert ran bounded⟩

/-- A loop of removals, each of an outstanding insertion, returns and keeps
the invariant. -/
theorem Counts.remove_all : ∀ {txids : List (List UInt8)} {counts : List Nat} {live : List (List UInt8)},
    Counts sip counter fuel counts live → MemPool.RemovesHeld live txids →
    ∃ counts', txids.foldlM (MemPool.bloomNodeCounter sip counter fuel).removeRaw counts = .ok counts' ∧
      Counts sip counter fuel counts' (txids.foldl List.erase live)
  | [], counts, _, inv, _ => ⟨counts, rfl, inv⟩
  | _ :: _, _, _, inv, ⟨held, rest⟩ => by
      obtain ⟨count, counts', removed, inv'⟩ := inv.remove_raw_eq_ok held
      obtain ⟨counts'', ran, inv''⟩ := Counts.remove_all inv' rest
      refine ⟨counts'', ?_, inv''⟩
      simp only [List.foldlM_cons, MemPool.bloomNodeCounter, removed]
      exact ran

end Bins

end Hyperchains.Bloom.BloomCounter

namespace Hyperchains.MemPool
open Hyperchains.Bloom Hyperchains.Bloom.BloomCounter

variable {Address Tip : Type}

/-! ## The ledger along runs -/

section Ledger

/-- `update_bloom_counter` on the ledger returns, and records a break unless
each of its removals takes out an outstanding insertion. -/
theorem ledger_update_bloom_counter (db : MemPoolDB Address Tip Ledger) (height : Nat) (txid : List UInt8)
    (priorTxid : Option (List UInt8)) : ∃ missed,
    db.updateBloomCounter ledger height txid priorTxid = .ok (⟨db.mempool, db.removedOnUpdate height,
      ⟨txid :: (db.bloomRemovals height priorTxid).foldl List.erase db.bloomCounter.live,
        db.bloomCounter.breaks ++ missed⟩⟩, db.evictedOnUpdate height) ∧
    (missed = [] → RemovesHeld db.bloomCounter.live (db.bloomRemovals height priorTxid)) := by
  obtain ⟨missed, ran, held⟩ := ledger_remove_all (db.bloomRemovals height priorTxid) db.bloomCounter
  refine ⟨missed, (update_bloom_counter_eq_ok ledger db).mpr ⟨_, ?_, rfl⟩, held⟩
  rw [ran, Panic.ok_bind]
  rfl

variable [DecidableEq Address] [DecidableEq Tip] (chainstate : ChainState Tip)

/-- A call on the ledger adds at most one outstanding insertion, and keeps the
breaks it has recorded. -/
theorem ledger_step_growth (db : MemPoolDB Address Tip Ledger) (call : Call Address Tip) : ∃ missed,
    (db.step ledger chainstate call).bloomCounter.breaks = db.bloomCounter.breaks ++ missed ∧
      (db.step ledger chainstate call).bloomCounter.live.length ≤ db.bloomCounter.live.length + 1 := by
  cases call with
  | submit tx =>
      simp only [MemPoolDB.step]
      cases submitted : db.txSubmit ledger chainstate tx with
      | error _ => exact ⟨[], by simp, by simp⟩
      | ok result =>
          obtain ⟨mid, evicted, -, ranUpdate, rfl⟩ :=
            (try_add_tx_eq_ok ledger chainstate).mp (tx_submit_eq ledger chainstate db tx ▸ submitted)
          obtain ⟨missed, ran, -⟩ := ledger_update_bloom_counter db tx.height tx.txid
            ((priorTx db.mempool tx.originAddress tx.originNonce (tx.sponsor.getD (tx.originAddress, tx.originNonce)).1
              (tx.sponsor.getD (tx.originAddress, tx.originNonce)).2).map (·.txid))
          rw [ran, Except.ok.injEq, Prod.mk.injEq] at ranUpdate
          obtain ⟨rfl, -⟩ := ranUpdate
          refine ⟨missed, rfl, ?_⟩
          have shorter := length_foldl_erase_le (db.bloomRemovals tx.height
            ((priorTx db.mempool tx.originAddress tx.originNonce (tx.sponsor.getD (tx.originAddress, tx.originNonce)).1
              (tx.sponsor.getD (tx.originAddress, tx.originNonce)).2).map (·.txid))) db.bloomCounter.live
          simp only [insert_or_replace_bloom_counter, List.length_cons]
          omega
  | garbageCollect minHeight => exact ⟨[], by simp [MemPoolDB.step, MemPoolDB.garbageCollect], by
      simp [MemPoolDB.step, MemPoolDB.garbageCollect]⟩
  | dropTxs txids => exact ⟨[], by simp [MemPoolDB.step, MemPoolDB.dropTxs], by
      simp [MemPoolDB.step, MemPoolDB.dropTxs]⟩

theorem ledger_run_breaks (db : MemPoolDB Address Tip Ledger) (calls : List (Call Address Tip)) : ∃ missed,
    (db.run ledger chainstate calls).bloomCounter.breaks = db.bloomCounter.breaks ++ missed := by
  induction calls generalizing db with
  | nil => exact ⟨[], by simp [MemPoolDB.run]⟩
  | cons call calls ih =>
      obtain ⟨first, stepped, -⟩ := ledger_step_growth chainstate db call
      obtain ⟨rest, ran⟩ := ih (db.step ledger chainstate call)
      exact ⟨first ++ rest, by rw [← List.append_assoc, ← stepped, ← ran]; rfl⟩

end Ledger

/-! ## The bins against the ledger -/

section Refinement
variable {State : Type} (sip : SipHasher State) (counter : BloomCounter) (fuel : Nat)

/-- The bins refine the ledger: the same tables, and the bins count the
ledger's outstanding insertions. -/
structure Refines (db : MemPoolDB Address Tip (List Nat)) (spec : MemPoolDB Address Tip Ledger) : Prop where
  mempool : db.mempool = spec.mempool
  removedTxids : db.removedTxids = spec.removedTxids
  counts : Counts sip counter fuel db.bloomCounter spec.bloomCounter.live

variable {sip counter fuel} {db : MemPoolDB Address Tip (List Nat)} {spec : MemPoolDB Address Tip Ledger}

theorem Refines.delete_where (same : Refines sip counter fuel db spec) (doomed : MemPoolTxMetadata Address Tip → Bool) :
    Refines sip counter fuel (db.deleteWhere doomed) (spec.deleteWhere doomed) :=
  ⟨by simp [same.mempool], by simp [same.mempool, same.removedTxids], same.counts⟩

/-- `update_bloom_counter` on the bins returns whenever it returns on the
ledger without a new break, with the same tables and the same evicted txid. -/
theorem Refines.update_bloom_counter (same : Refines sip counter fuel db spec)
    (lands : ∀ item, Picks sip counter fuel item (List.range counter.numHashes))
    (room : (spec.bloomCounter.live.length + 1) * counter.numHashes < u32Max) {height : Nat} {txid : List UInt8}
    {priorTxid : Option (List UInt8)} {specResult : MemPoolDB Address Tip Ledger × Option (List UInt8)}
    (done : spec.updateBloomCounter ledger height txid priorTxid = .ok specResult)
    (intact : specResult.1.bloomCounter.breaks = spec.bloomCounter.breaks) :
    ∃ mid, db.updateBloomCounter (bloomNodeCounter sip counter fuel) height txid priorTxid = .ok (mid, specResult.2) ∧
      Refines sip counter fuel mid specResult.1 := by
  obtain ⟨missed, ran, held⟩ := ledger_update_bloom_counter spec height txid priorTxid
  rw [ran, Except.ok.injEq] at done
  subst done
  -- no new break, so every removal takes out an outstanding insertion
  have none : missed = [] := by simpa using intact
  obtain ⟨removals, removed, evicted⟩ := update_tables_congr db same.mempool same.removedTxids height priorTxid
  obtain ⟨counts, ranRemovals, inv⟩ := same.counts.remove_all (held none)
  have roomLeft : (((spec.bloomRemovals height priorTxid).foldl List.erase spec.bloomCounter.live).length + 1) *
      counter.numHashes < u32Max := by
    have shorter := length_foldl_erase_le (spec.bloomRemovals height priorTxid) spec.bloomCounter.live
    calc _ ≤ (spec.bloomCounter.live.length + 1) * counter.numHashes := Nat.mul_le_mul_right _ (by omega)
      _ < u32Max := room
  obtain ⟨count, counts', ranInsert, inv'⟩ := inv.insert_raw_eq_ok (lands txid) roomLeft
  refine ⟨⟨db.mempool, db.removedOnUpdate height, counts'⟩, (update_bloom_counter_eq_ok _ db).mpr ⟨counts', ?_, ?_⟩,
    same.mempool, removed, inv'⟩
  · rw [removals, ranRemovals, Panic.ok_bind]
    simp [bloomNodeCounter, ranInsert]
  · rw [evicted]

variable [DecidableEq Address]

theorem Refines.insert_or_replace (same : Refines sip counter fuel db spec)
    (row : MemPoolTxMetadata Address Tip) :
    Refines sip counter fuel (db.insertOrReplace row) (spec.insertOrReplace row) :=
  ⟨by simp [same.mempool], by simp [same.mempool, same.removedTxids], same.counts⟩

theorem Refines.schema (same : Refines sip counter fuel db spec) (schema : Schema spec) : Schema db := by
  refine ⟨same.mempool ▸ schema.unique, fun txid mem => ?_⟩
  rw [same.removedTxids] at mem
  rw [same.mempool]
  exact schema.references txid mem

variable [DecidableEq Tip] (chainstate : ChainState Tip)

/-- The step lemma: while the ledger records no new break, a call on the bins
does what the same call does on the ledger. -/
theorem Refines.step (same : Refines sip counter fuel db spec)
    (lands : ∀ item, Picks sip counter fuel item (List.range counter.numHashes))
    (room : (spec.bloomCounter.live.length + 1) * counter.numHashes < u32Max) (call : Call Address Tip)
    (intact : (spec.step ledger chainstate call).bloomCounter.breaks = spec.bloomCounter.breaks) :
    Refines sip counter fuel (db.step (bloomNodeCounter sip counter fuel) chainstate call)
      (spec.step ledger chainstate call) := by
  cases call with
  | submit tx =>
      simp only [MemPoolDB.step, tx_submit_eq] at intact ⊢
      obtain ⟨mempool, removedTxids, counts⟩ := db
      obtain ⟨rfl, rfl, inv⟩ := same
      by_cases admitted : Admitted chainstate spec.mempool tx.tip tx.txFee tx.originAddress tx.originNonce
          (tx.sponsor.getD (tx.originAddress, tx.originNonce)).1 (tx.sponsor.getD (tx.originAddress, tx.originNonce)).2
      · -- the ledger carries the submission out, and so do the bins
        obtain ⟨missed, ran, -⟩ := ledger_update_bloom_counter spec tx.height tx.txid
          ((priorTx spec.mempool tx.originAddress tx.originNonce (tx.sponsor.getD (tx.originAddress, tx.originNonce)).1
            (tx.sponsor.getD (tx.originAddress, tx.originNonce)).2).map (·.txid))
        rw [(try_add_tx_eq_ok ledger chainstate).mpr ⟨_, _, admitted, ran, rfl⟩] at intact ⊢
        obtain ⟨mid, update, midSame⟩ := Refines.update_bloom_counter ⟨rfl, rfl, inv⟩ lands room ran intact
        rw [(try_add_tx_eq_ok (bloomNodeCounter sip counter fuel) chainstate).mpr ⟨mid, _, admitted, update, rfl⟩]
        exact midSame.insert_or_replace _
      · -- both refuse it for its nonce
        rw [(try_add_tx_eq_error_conflicting ledger chainstate).mpr admitted,
          (try_add_tx_eq_error_conflicting (bloomNodeCounter sip counter fuel) chainstate).mpr admitted]
        exact ⟨rfl, rfl, inv⟩
  | garbageCollect minHeight => exact same.delete_where _
  | dropTxs txids => exact same.delete_where _

/-- The run lemma: over calls that leave room for their insertions and after
which the ledger has recorded no new break. -/
theorem Refines.run (lands : ∀ item, Picks sip counter fuel item (List.range counter.numHashes)) :
    ∀ (calls : List (Call Address Tip)) {db : MemPoolDB Address Tip (List Nat)} {spec : MemPoolDB Address Tip Ledger},
      Refines sip counter fuel db spec →
      (spec.bloomCounter.live.length + calls.length) * counter.numHashes < u32Max →
      (spec.run ledger chainstate calls).bloomCounter.breaks = spec.bloomCounter.breaks →
      Refines sip counter fuel (db.run (bloomNodeCounter sip counter fuel) chainstate calls)
        (spec.run ledger chainstate calls)
  | [], _, _, same, _, _ => same
  | call :: calls, db, spec, same, room, intact => by
      obtain ⟨first, stepped, grown⟩ := ledger_step_growth chainstate spec call
      obtain ⟨rest, ran⟩ := ledger_run_breaks chainstate (spec.step ledger chainstate call) calls
      -- the run ends with no new break, so this call made none
      have none : first = [] := by
        have whole : (spec.bloomCounter.breaks ++ first) ++ rest = spec.bloomCounter.breaks ++ [] := by
          rw [← stepped, ← ran, List.append_nil]
          exact intact
        rw [List.append_assoc, List.append_cancel_left_eq] at whole
        exact (List.append_eq_nil_iff.mp whole).1
      have stepIntact : (spec.step ledger chainstate call).bloomCounter.breaks = spec.bloomCounter.breaks := by
        rw [stepped, none, List.append_nil]
      have roomNow : (spec.bloomCounter.live.length + 1) * counter.numHashes < u32Max :=
        calc _ ≤ (spec.bloomCounter.live.length + (call :: calls).length) * counter.numHashes :=
              Nat.mul_le_mul_right _ (by simp)
          _ < u32Max := room
      have roomLater : ((spec.step ledger chainstate call).bloomCounter.live.length + calls.length) *
          counter.numHashes < u32Max :=
        calc _ ≤ (spec.bloomCounter.live.length + (call :: calls).length) * counter.numHashes :=
              Nat.mul_le_mul_right _ (by simp only [List.length_cons]; omega)
          _ < u32Max := room
      exact Refines.run lands calls (same.step chainstate lands roomNow call stepIntact) roomLater
        (intact.trans stepIntact.symm)

end Refinement

/-- Over every run of calls from new databases in which the ledger records no
broken removal, with a hasher that lands every item in a bin and fewer calls
than `u32::MAX / num_hashes`: the run on the bins of
`BloomCounter<BloomNodeHasher>` keeps the tables of the run on the ledger, its
bins count the ledger's outstanding insertions, its tables keep their
constraints, and the bloom filter of its bins holds the txid of every row
outside `removed_txids`. -/
theorem bins_run_refines_ledger_run [DecidableEq Address] [DecidableEq Tip] (chainstate : ChainState Tip)
    {State : Type} {sip : SipHasher State} {counter : BloomCounter} {fuel : Nat}
    (lands : ∀ item, Picks sip counter fuel item (List.range counter.numHashes)) (calls : List (Call Address Tip))
    (room : calls.length * counter.numHashes < u32Max)
    (intact : ((MemPoolDB.new ⟨[], []⟩ : MemPoolDB Address Tip Ledger).run ledger chainstate calls).bloomCounter.breaks =
      []) :
    let spec := (MemPoolDB.new ⟨[], []⟩ : MemPoolDB Address Tip Ledger).run ledger chainstate calls
    let db := (MemPoolDB.new (List.replicate counter.numBins 0) : MemPoolDB Address Tip (List Nat)).run
      (bloomNodeCounter sip counter fuel) chainstate calls
    db.mempool = spec.mempool ∧ db.removedTxids = spec.removedTxids ∧
      Counts sip counter fuel db.bloomCounter spec.bloomCounter.live ∧ Schema db ∧
      ∃ filter, toBloomFilter counter db.bloomCounter = .ok filter ∧
        ∀ row ∈ db.mempool, row.txid ∉ db.removedTxids → containsRaw sip fuel filter row.txid = .ok true := by
  intro spec db
  have same : Refines sip counter fuel db spec :=
    Refines.run chainstate lands calls ⟨rfl, rfl, counts_new⟩ (by simpa [MemPoolDB.new] using room) intact
  have inv : Consistent Ledger.live spec := (consistent_new ⟨[], []⟩).run chainstate ledger_tracks calls
  obtain ⟨filter, built, holds⟩ := same.counts.contains
  refine ⟨same.mempool, same.removedTxids, same.counts, same.schema inv.schema, filter, built,
    fun row inRow notRemoved => holds row.txid ?_⟩
  rw [same.mempool] at inRow
  rw [same.removedTxids] at notRemoved
  exact inv.counted row inRow notRemoved

/-- Two transfers from new databases, over two bins into which every item
lands: the ledger records no break, and the filter of the bins holds both. -/
theorem two_transfers_in_filter :
    let calls : List (Call Nat Nat) := [.submit (sampleTx 1 1 1 1 none), .submit (sampleTx 2 1 1 2 none)]
    let spec := (MemPoolDB.new ⟨[], []⟩ : MemPoolDB Nat Nat Ledger).run ledger noAncestry calls
    let db := (MemPoolDB.new (List.replicate 2 0) : MemPoolDB Nat Nat (List Nat)).run
      (bloomNodeCounter fiveHasher ⟨[], 2, 1⟩ 1) noAncestry calls
    (∀ item, Picks fiveHasher ⟨[], 2, 1⟩ 1 item (List.range 1)) ∧ calls.length * 1 < u32Max ∧
      spec.bloomCounter.breaks = [] ∧
      db.mempool = spec.mempool ∧ db.removedTxids = spec.removedTxids ∧
      Counts fiveHasher ⟨[], 2, 1⟩ 1 db.bloomCounter spec.bloomCounter.live ∧ Schema db ∧
      ∃ filter, toBloomFilter ⟨[], 2, 1⟩ db.bloomCounter = .ok filter ∧
        ∀ row ∈ db.mempool, row.txid ∉ db.removedTxids → containsRaw fiveHasher 1 filter row.txid = .ok true := by
  intro calls spec db
  have lands : ∀ item, Picks fiveHasher ⟨[], 2, 1⟩ 1 item (List.range 1) := by
    intro item i _
    exact ⟨1, by simp [pickBin, pickBinLoop, fiveHasher, u32Max], by decide⟩
  have room : calls.length * 1 < u32Max := by decide
  have intact : spec.bloomCounter.breaks = [] := by decide
  exact ⟨lands, room, intact, bins_run_refines_ledger_run noAncestry lands calls room intact⟩

end Hyperchains.MemPool
