import Hyperchains.MemPool

/-! What the mempool's calls do to its tables, and what they ask of the bloom
counter. Whatever the counter, `update_bloom_counter` removes txids read from
the tables alone and then inserts the new one (`update_bloom_counter_eq`).
`Schema` is what SQLite keeps of the tables: no two rows conflict, and
`removed_txids` names rows. `Counted` is what the bookkeeping is for: every row
not in `removed_txids` is an outstanding insertion of the counter.

Both hold over every run on a counter that `Tracks` its insertions, such as the
`ledger`: the outstanding insertions, with each removal of a txid the counter
does not hold answered `Ok`, as `remove_raw` answers it, and recorded as a
break of its contract. A txid that is outstanding but has no row is never
removed again. On `outstanding`, the counter that refuses such a removal, a
submission that replaces a pruned transaction fails, and one that conflicts
with two rows deletes both, though only one was weighed. -/

namespace Hyperchains.MemPool
open Hyperchains.Bloom

variable {Address Tip β : Type}

/-! ## Deleting rows -/

section Delete
variable {db : MemPoolDB Address Tip β} (doomed : MemPoolTxMetadata Address Tip → Bool)

@[simp] theorem delete_where_mempool : (db.deleteWhere doomed).mempool = db.mempool.filter fun row => !doomed row :=
  rfl

@[simp] theorem delete_where_removed_txids :
    (db.deleteWhere doomed).removedTxids =
      db.removedTxids.filter fun txid => decide (txid ∉ (db.mempool.filter doomed).map (·.txid)) :=
  rfl

@[simp] theorem delete_where_bloom_counter : (db.deleteWhere doomed).bloomCounter = db.bloomCounter := rfl

end Delete

/-! ## Batches of removals -/

theorem mem_add_removed {removedTxids : List (List UInt8)} {txid other : List UInt8} :
    other ∈ addRemoved removedTxids txid ↔ other ∈ removedTxids ∨ other = txid := by
  unfold addRemoved
  split
  · constructor
    · exact Or.inl
    · rintro (mem | rfl) <;> assumption
  · simp

theorem mem_foldl_add_removed {other : List UInt8} :
    ∀ (txids removedTxids : List (List UInt8)),
      other ∈ txids.foldl addRemoved removedTxids ↔ other ∈ removedTxids ∨ other ∈ txids
  | [], removedTxids => by simp
  | txid :: txids, removedTxids => by
      rw [List.foldl_cons, mem_foldl_add_removed txids, mem_add_removed, List.mem_cons]
      tauto

/-- Removals of other txids leave a txid's outstanding insertions alone. -/
theorem count_foldl_erase {other : List UInt8} :
    ∀ {txids : List (List UInt8)}, other ∉ txids → ∀ live : List (List UInt8),
      (txids.foldl List.erase live).count other = live.count other
  | [], _, live => rfl
  | txid :: txids, absent, live => by
      rw [List.mem_cons, not_or] at absent
      rw [List.foldl_cons, count_foldl_erase absent.2, List.count_erase_of_ne absent.1]

theorem length_foldl_erase_le : ∀ (txids live : List (List UInt8)),
    (txids.foldl List.erase live).length ≤ live.length
  | [], _ => le_refl _
  | _ :: txids, _ => (length_foldl_erase_le txids _).trans List.length_erase_le

theorem mem_foldl_erase {other : List UInt8} {txids : List (List UInt8)} (absent : other ∉ txids)
    (live : List (List UInt8)) : other ∈ txids.foldl List.erase live ↔ other ∈ live := by
  rw [← List.count_pos_iff, ← List.count_pos_iff, count_foldl_erase absent]

/-! ## The counter calls of `update_bloom_counter`

Whatever the counter, `update_bloom_counter` makes the same calls of it: it
removes the pruned txids, the replaced one and the evicted one, each read from
the tables alone, and then inserts the new txid. -/

section NormalForm
variable (bloom : Counter β) (db : MemPoolDB Address Tip β)

/-- The txids the first transaction at `height` prunes. -/
def MemPoolDB.prunedOnNewHeight (self : MemPoolDB Address Tip β) (height : Nat) : List (List UInt8) :=
  let present := self.mempool.any fun row => decide (row.height = height)
  if !present && decide (height > bloomCounterDepth) then self.prunedTxids (height - bloomCounterDepth) else []

/-- The txid a full counter evicts. -/
def MemPoolDB.toEvict (self : MemPoolDB Address Tip β) (height : Nat) : Option (List UInt8) :=
  if getNumRecentTxs self.mempool ≥ maxBloomCounterTxs then self.evictTxid height else none

/-- The txid `update_bloom_counter` evicts, once the window has moved. -/
def MemPoolDB.evictedOnUpdate (self : MemPoolDB Address Tip β) (height : Nat) : Option (List UInt8) :=
  { self with removedTxids := (self.prunedOnNewHeight height).foldl addRemoved self.removedTxids }.toEvict height

/-- The txids `update_bloom_counter` removes from the counter, in order. -/
def MemPoolDB.bloomRemovals (self : MemPoolDB Address Tip β) (height : Nat) (priorTxid : Option (List UInt8)) :
    List (List UInt8) :=
  self.prunedOnNewHeight height ++ priorTxid.toList ++ (self.evictedOnUpdate height).toList

/-- `removed_txids` after `update_bloom_counter`. -/
def MemPoolDB.removedOnUpdate (self : MemPoolDB Address Tip β) (height : Nat) : List (List UInt8) :=
  (self.prunedOnNewHeight height ++ (self.evictedOnUpdate height).toList).foldl addRemoved self.removedTxids

theorem to_evict_bloom_counter {γ : Type} (mempool : List (MemPoolTxMetadata Address Tip))
    (removedTxids : List (List UInt8)) (bloomCounter : β) (other : γ) (height : Nat) :
    (⟨mempool, removedTxids, bloomCounter⟩ : MemPoolDB Address Tip β).toEvict height =
      (⟨mempool, removedTxids, other⟩ : MemPoolDB Address Tip γ).toEvict height :=
  rfl

theorem foldl_m_prune_txid_eq : ∀ (txids : List (List UInt8)) (db : MemPoolDB Address Tip β),
    txids.foldlM (fun self txid => self.pruneTxid bloom txid) db =
      (fun bloomCounter => ⟨db.mempool, txids.foldl addRemoved db.removedTxids, bloomCounter⟩) <$>
        (txids.foldlM bloom.removeRaw db.bloomCounter).mapError .bloomCounter
  | [], db => rfl
  | txid :: txids, db => by
      simp only [List.foldlM_cons, MemPoolDB.pruneTxid, MemPoolDB.removeRaw]
      cases bloom.removeRaw db.bloomCounter txid with
      | error fault => rfl
      | ok bloomCounter => exact foldl_m_prune_txid_eq txids _

theorem prune_on_new_height_eq (height : Nat) :
    db.pruneOnNewHeight bloom height =
      (fun bloomCounter => ⟨db.mempool, (db.prunedOnNewHeight height).foldl addRemoved db.removedTxids,
        bloomCounter⟩) <$> ((db.prunedOnNewHeight height).foldlM bloom.removeRaw db.bloomCounter).mapError .bloomCounter := by
  unfold MemPoolDB.pruneOnNewHeight MemPoolDB.prunedOnNewHeight MemPoolDB.pruneBloomCounter
  dsimp only
  split
  · exact foldl_m_prune_txid_eq bloom _ db
  · rfl

theorem remove_replaced_eq (priorTxid : Option (List UInt8)) :
    db.removeReplaced bloom priorTxid =
      (fun bloomCounter => { db with bloomCounter }) <$>
        (priorTxid.toList.foldlM bloom.removeRaw db.bloomCounter).mapError .bloomCounter := by
  cases priorTxid with
  | none => rfl
  | some priorTxid =>
      simp only [MemPoolDB.removeReplaced, MemPoolDB.removeRaw, Option.toList_some, List.foldlM_cons,
        List.foldlM_nil]
      cases bloom.removeRaw db.bloomCounter priorTxid <;> rfl

theorem evict_one_eq (height : Nat) :
    db.evictOne bloom height =
      (fun bloomCounter => ({ db with
          removedTxids := (db.toEvict height).toList.foldl addRemoved db.removedTxids
          bloomCounter := bloomCounter }, db.toEvict height)) <$>
        ((db.toEvict height).toList.foldlM bloom.removeRaw db.bloomCounter).mapError .bloomCounter := by
  unfold MemPoolDB.evictOne MemPoolDB.toEvict
  split
  · cases db.evictTxid height with
    | none => rfl
    | some evictTxid =>
        simp only [MemPoolDB.removeRaw, Option.toList_some, List.foldlM_cons, List.foldlM_nil]
        cases bloom.removeRaw db.bloomCounter evictTxid <;> rfl
  · rfl

theorem update_bloom_counter_eq (height : Nat) (txid : List UInt8) (priorTxid : Option (List UInt8)) :
    db.updateBloomCounter bloom height txid priorTxid =
      (fun bloomCounter => (⟨db.mempool, db.removedOnUpdate height, bloomCounter⟩, db.evictedOnUpdate height)) <$>
        ((db.bloomRemovals height priorTxid).foldlM bloom.removeRaw db.bloomCounter >>= fun bloomCounter =>
          bloom.insertRaw bloomCounter txid).mapError .bloomCounter := by
  unfold MemPoolDB.updateBloomCounter MemPoolDB.bloomRemovals MemPoolDB.removedOnUpdate MemPoolDB.evictedOnUpdate
  rw [prune_on_new_height_eq]
  simp only [List.foldlM_append]
  cases (db.prunedOnNewHeight height).foldlM bloom.removeRaw db.bloomCounter with
  | error fault => rfl
  | ok pruned =>
      simp only [Panic.map_error_ok, Functor.map, Panic.map_ok, Panic.ok_bind]
      rw [remove_replaced_eq]
      cases priorTxid.toList.foldlM bloom.removeRaw pruned with
      | error fault => rfl
      | ok replaced =>
          simp only [Panic.map_error_ok, Functor.map, Panic.map_ok, Panic.ok_bind]
          rw [evict_one_eq, to_evict_bloom_counter db.mempool _ replaced db.bloomCounter]
          cases ({ db with removedTxids := (db.prunedOnNewHeight height).foldl addRemoved db.removedTxids }.toEvict
              height).toList.foldlM bloom.removeRaw replaced with
          | error fault => rfl
          | ok evicted =>
              simp only [Panic.map_error_ok, Functor.map, Panic.map_ok, Panic.ok_bind, MemPoolDB.insertRaw,
                List.foldl_append]
              cases bloom.insertRaw evicted txid <;> rfl

theorem update_bloom_counter_eq_ok {height : Nat} {txid : List UInt8} {priorTxid : Option (List UInt8)}
    {result : MemPoolDB Address Tip β × Option (List UInt8)} :
    db.updateBloomCounter bloom height txid priorTxid = .ok result ↔
      ∃ bloomCounter, ((db.bloomRemovals height priorTxid).foldlM bloom.removeRaw db.bloomCounter >>= fun counter =>
          bloom.insertRaw counter txid) = .ok bloomCounter ∧
        result = (⟨db.mempool, db.removedOnUpdate height, bloomCounter⟩, db.evictedOnUpdate height) := by
  rw [update_bloom_counter_eq]
  cases (db.bloomRemovals height priorTxid).foldlM bloom.removeRaw db.bloomCounter >>= fun counter =>
      bloom.insertRaw counter txid with
  | error fault =>
      constructor
      · intro failed
        cases failed
      · rintro ⟨_, failed, -⟩
        cases failed
  | ok bloomCounter =>
      simp only [Panic.map_error_ok, Functor.map, Panic.map_ok, Except.ok.injEq, exists_eq_left']
      exact eq_comm

theorem mem_pruned_on_new_height {height : Nat} {other : List UInt8} (mem : other ∈ db.prunedOnNewHeight height) :
    ∃ row ∈ db.mempool, row.txid = other := by
  unfold MemPoolDB.prunedOnNewHeight at mem
  dsimp only at mem
  split at mem
  · obtain ⟨row, kept, rfl⟩ := List.mem_map.mp mem
    exact ⟨row, (List.mem_filter.mp kept).1, rfl⟩
  · cases mem

theorem to_evict_eq_some {height : Nat} {other : List UInt8} (found : db.toEvict height = some other) :
    ∃ row ∈ db.mempool, row.txid = other := by
  unfold MemPoolDB.toEvict MemPoolDB.evictTxid at found
  split at found
  · obtain ⟨row, candidate, named⟩ := Option.map_eq_some_iff.mp found
    exact ⟨row, (List.mem_filter.mp (List.argmin_mem candidate)).1, named⟩
  · cases found

theorem pruned_or_evicted_of_rows {height : Nat} {other : List UInt8}
    (mem : other ∈ db.prunedOnNewHeight height ++ (db.evictedOnUpdate height).toList) :
    ∃ row ∈ db.mempool, row.txid = other := by
  rcases List.mem_append.mp mem with pruned | evicted
  · exact mem_pruned_on_new_height db pruned
  · rw [Option.mem_toList] at evicted
    exact to_evict_eq_some { db with removedTxids := (db.prunedOnNewHeight height).foldl addRemoved db.removedTxids }
      evicted

theorem update_tables_congr {γ : Type} {other : MemPoolDB Address Tip γ} (mempool : db.mempool = other.mempool)
    (removedTxids : db.removedTxids = other.removedTxids) (height : Nat) (priorTxid : Option (List UInt8)) :
    db.bloomRemovals height priorTxid = other.bloomRemovals height priorTxid ∧
      db.removedOnUpdate height = other.removedOnUpdate height ∧
      db.evictedOnUpdate height = other.evictedOnUpdate height := by
  obtain ⟨mempool, removedTxids, bloomCounter⟩ := db
  obtain ⟨_, _, otherCounter⟩ := other
  dsimp only at mempool removedTxids
  subst mempool removedTxids
  exact ⟨rfl, rfl, rfl⟩

end NormalForm

/-! ## The counter as its outstanding insertions -/

/-- The counter as the list of its outstanding insertions, under the contract
of `BloomCounter.Reached`: only an outstanding insertion may be removed. -/
def outstanding : Counter (List (List UInt8)) :=
  ⟨fun live item => .ok (item :: live),
    fun live item => if live.contains item then .ok (live.erase item)
      else .error (.panic "remove_raw of an item the counter does not hold")⟩

/-- A counter whose state `live` reads as its outstanding insertions: an
insertion adds one, and a removal that returns takes one out, if there is one. -/
structure Tracks (bloom : Counter β) (live : β → List (List UInt8)) : Prop where
  insert : ∀ {counter counter' : β} {item : List UInt8}, bloom.insertRaw counter item = .ok counter' →
    live counter' = item :: live counter
  remove : ∀ {counter counter' : β} {item : List UInt8}, bloom.removeRaw counter item = .ok counter' →
    live counter' = (live counter).erase item

section Tracks
variable {bloom : Counter β} {live : β → List (List UInt8)}

theorem Tracks.remove_all (tracks : Tracks bloom live) : ∀ (txids : List (List UInt8)) {counter counter' : β},
    txids.foldlM bloom.removeRaw counter = .ok counter' → live counter' = txids.foldl List.erase (live counter)
  | [], _, _, done => by
      cases done
      rfl
  | txid :: txids, counter, counter', done => by
      rw [List.foldlM_cons] at done
      obtain ⟨removed, ranFirst, ranRest⟩ := Panic.bind_eq_ok done
      rw [tracks.remove_all txids ranRest, tracks.remove ranFirst, List.foldl_cons]

/-- What `update_bloom_counter` does to a counter that tracks its insertions:
the rows stay, the pruned and the evicted txids, all of rows, go to
`removed_txids`, and the counter loses the pruned, the replaced and the evicted
txids and gains the new one. -/
theorem Tracks.update_bloom_counter (tracks : Tracks bloom live) {db db' : MemPoolDB Address Tip β} {height : Nat}
    {txid : List UInt8} {priorTxid evicted : Option (List UInt8)}
    (done : db.updateBloomCounter bloom height txid priorTxid = .ok (db', evicted)) :
    ∃ pruned : List (List UInt8), (∀ other ∈ pruned ++ evicted.toList, ∃ row ∈ db.mempool, row.txid = other) ∧
      db'.mempool = db.mempool ∧ db'.removedTxids = (pruned ++ evicted.toList).foldl addRemoved db.removedTxids ∧
      live db'.bloomCounter = txid :: (pruned ++ priorTxid.toList ++ evicted.toList).foldl List.erase
        (live db.bloomCounter) := by
  obtain ⟨bloomCounter, ran, result⟩ := (update_bloom_counter_eq_ok bloom db).mp done
  rw [Prod.mk.injEq] at result
  obtain ⟨rfl, rfl⟩ := result
  obtain ⟨removed, ranRemovals, ranInsert⟩ := Panic.bind_eq_ok ran
  refine ⟨db.prunedOnNewHeight height, fun other mem => pruned_or_evicted_of_rows db mem, rfl, rfl, ?_⟩
  rw [tracks.insert ranInsert, tracks.remove_all _ ranRemovals]
  rfl

end Tracks

/-! ## The ledger of the counter

`BloomCounter::remove_raw` asks that its item was inserted, and of one that was
not it returns `Ok` all the same: when `count_raw` finds the item absent the
bins stay, and when a false positive finds it present the bins of other items
lose counts. The ledger keeps the outstanding insertions and records each such
removal as a break of the contract, with no rollback. -/

structure Ledger where
  live : List (List UInt8)
  breaks : List (List UInt8)
  deriving DecidableEq, Repr

def ledger : Counter Ledger :=
  ⟨fun counter item => .ok { counter with live := item :: counter.live },
    fun counter item => if counter.live.contains item then .ok { counter with live := counter.live.erase item }
      else .ok { counter with breaks := counter.breaks ++ [item] }⟩

theorem ledger_tracks : Tracks ledger Ledger.live where
  insert done := by
    cases done
    rfl
  remove done := by
    unfold ledger at done
    dsimp only at done
    split at done
    · cases done
      rfl
    · rename_i absent
      cases done
      exact (List.erase_of_not_mem (by simpa using absent)).symm

/-- Every txid of `txids` is outstanding when its turn to be removed comes. -/
def RemovesHeld : List (List UInt8) → List (List UInt8) → Prop
  | _, [] => True
  | live, txid :: txids => txid ∈ live ∧ RemovesHeld (live.erase txid) txids

/-- A loop of removals on the ledger returns, and records a break unless every
txid is outstanding at its turn. -/
theorem ledger_remove_all : ∀ (txids : List (List UInt8)) (counter : Ledger), ∃ missed,
    txids.foldlM ledger.removeRaw counter = .ok ⟨txids.foldl List.erase counter.live, counter.breaks ++ missed⟩ ∧
      (missed = [] → RemovesHeld counter.live txids)
  | [], counter => ⟨[], by simp, fun _ => trivial⟩
  | txid :: txids, counter => by
      by_cases held : txid ∈ counter.live
      · obtain ⟨missed, ran, allHeld⟩ := ledger_remove_all txids ⟨counter.live.erase txid, counter.breaks⟩
        refine ⟨missed, ?_, fun none => ⟨held, allHeld none⟩⟩
        have first : ledger.removeRaw counter txid = .ok ⟨counter.live.erase txid, counter.breaks⟩ := by
          simp [ledger, held]
        rw [List.foldlM_cons, first, Panic.ok_bind, List.foldl_cons]
        exact ran
      · obtain ⟨missed, ran, -⟩ := ledger_remove_all txids ⟨counter.live, counter.breaks ++ [txid]⟩
        refine ⟨txid :: missed, ?_, nofun⟩
        have first : ledger.removeRaw counter txid = .ok ⟨counter.live, counter.breaks ++ [txid]⟩ := by
          simp [ledger, held]
        rw [List.foldlM_cons, first, Panic.ok_bind, List.foldl_cons, List.erase_of_not_mem held]
        simpa using ran


/-! ## Faults -/

/-- A rejection for a conflicting nonce, the one failure that is not the
counter's. -/
def IsConflict (error : MemPoolRejection) : Prop := error = .conflictingNonceInMempool

section Faults
variable (bloom : Counter β) {db : MemPoolDB Address Tip β}

theorem avoids_map_error {α : Type} (run : Except Fault α) :
    Panic.Avoids IsConflict (run.mapError MemPoolRejection.bloomCounter) := by
  cases run with
  | error fault =>
      intro error failed conflict
      cases failed
      cases conflict
  | ok value => exact Panic.avoids_ok _ value

theorem avoids_remove_raw (txid : List UInt8) : Panic.Avoids IsConflict (db.removeRaw bloom txid) :=
  Panic.Avoids.bind (avoids_map_error _) fun _ _ => Panic.avoids_ok _ _

theorem avoids_insert_raw (txid : List UInt8) : Panic.Avoids IsConflict (db.insertRaw bloom txid) :=
  Panic.Avoids.bind (avoids_map_error _) fun _ _ => Panic.avoids_ok _ _

theorem avoids_foldl_m_prune_txid : ∀ (txids : List (List UInt8)) (db : MemPoolDB Address Tip β),
    Panic.Avoids IsConflict (txids.foldlM (fun self txid => self.pruneTxid bloom txid) db)
  | [], db => Panic.avoids_ok _ db
  | txid :: txids, db => by
      rw [List.foldlM_cons]
      exact Panic.Avoids.bind (Panic.Avoids.bind (avoids_remove_raw bloom txid) fun _ _ => Panic.avoids_ok _ _)
        fun pruned _ => avoids_foldl_m_prune_txid txids pruned

theorem avoids_update_bloom_counter (height : Nat) (txid : List UInt8) (priorTxid : Option (List UInt8)) :
    Panic.Avoids IsConflict (db.updateBloomCounter bloom height txid priorTxid) := by
  unfold MemPoolDB.updateBloomCounter
  refine Panic.Avoids.bind ?_ fun moved _ => Panic.Avoids.bind ?_ fun replaced _ => Panic.Avoids.bind ?_ ?_
  · unfold MemPoolDB.pruneOnNewHeight
    dsimp only
    split
    · exact avoids_foldl_m_prune_txid bloom _ db
    · exact Panic.avoids_ok _ db
  · unfold MemPoolDB.removeReplaced
    cases priorTxid with
    | none => exact Panic.avoids_ok _ moved
    | some priorTxid => exact avoids_remove_raw bloom priorTxid
  · unfold MemPoolDB.evictOne
    split
    · split
      · exact Panic.Avoids.bind (avoids_remove_raw bloom _) fun _ _ => Panic.avoids_ok _ _
      · exact Panic.avoids_ok _ _
    · exact Panic.avoids_ok _ _
  · rintro ⟨evicted, evictTxid⟩ -
    exact Panic.Avoids.bind (avoids_insert_raw bloom txid) fun _ _ => Panic.avoids_ok _ _

theorem update_bloom_counter_bind_ne_conflict {γ : Type} (height : Nat) (txid : List UInt8)
    (priorTxid : Option (List UInt8)) (next : MemPoolDB Address Tip β × Option (List UInt8) → γ) :
    (db.updateBloomCounter bloom height txid priorTxid >>= fun updated => pure (next updated)) ≠
      .error .conflictingNonceInMempool :=
  fun failed => Panic.Avoids.bind (avoids_update_bloom_counter bloom height txid priorTxid)
    (fun _ _ => Panic.avoids_ok IsConflict _) _ failed rfl

end Faults

variable [DecidableEq Address]

/-! ## Conflicts -/

theorem conflicts_eq_true (row other : MemPoolTxMetadata Address Tip) :
    conflicts row other = true ↔ other.txid = row.txid ∨
      (other.originAddress = row.originAddress ∧ other.originNonce = row.originNonce) ∨
      (other.sponsorAddress = row.sponsorAddress ∧ other.sponsorNonce = row.sponsorNonce) := by
  simp [conflicts]

theorem conflicts_comm (row other : MemPoolTxMetadata Address Tip) : conflicts row other = conflicts other row := by
  rw [Bool.eq_iff_iff, conflicts_eq_true, conflicts_eq_true]
  constructor <;> rintro (same | ⟨address, nonce⟩ | ⟨address, nonce⟩)
  all_goals first
    | exact Or.inl same.symm
    | exact Or.inr (Or.inl ⟨address.symm, nonce.symm⟩)
    | exact Or.inr (Or.inr ⟨address.symm, nonce.symm⟩)

@[simp] theorem conflicts_self (row : MemPoolTxMetadata Address Tip) : conflicts row row = true := by
  simp [conflicts]

theorem eq_of_pairwise_conflicts : ∀ {rows : List (MemPoolTxMetadata Address Tip)},
    rows.Pairwise (fun row other => conflicts row other = false) →
    ∀ {row other}, row ∈ rows → other ∈ rows → conflicts row other = true → row = other
  | [], _, _, _, absent, _, _ => nomatch absent
  | head :: rest, apart, row, other, inRow, inOther, hit => by
      rw [List.pairwise_cons] at apart
      rcases List.mem_cons.mp inRow with rfl | rowLater <;> rcases List.mem_cons.mp inOther with rfl | otherLater
      · rfl
      · rw [apart.1 other otherLater] at hit
        cases hit
      · rw [conflicts_comm, apart.1 row rowLater] at hit
        cases hit
      · exact eq_of_pairwise_conflicts apart.2 rowLater otherLater hit

/-! ## The schema -/

/-- The primary key and both `UNIQUE` constraints of `mempool`, and the foreign
key of `removed_txids`. -/
structure Schema (db : MemPoolDB Address Tip β) : Prop where
  unique : db.mempool.Pairwise fun row other => conflicts row other = false
  references : ∀ txid ∈ db.removedTxids, ∃ row ∈ db.mempool, row.txid = txid

variable {db : MemPoolDB Address Tip β}

theorem schema_new (bloomCounter : β) : Schema (MemPoolDB.new bloomCounter : MemPoolDB Address Tip β) :=
  ⟨List.Pairwise.nil, fun _ absent => nomatch absent⟩

theorem Schema.eq_of_conflicts (schema : Schema db) {row other : MemPoolTxMetadata Address Tip}
    (inRow : row ∈ db.mempool) (inOther : other ∈ db.mempool) (hit : conflicts row other = true) : row = other :=
  eq_of_pairwise_conflicts schema.unique inRow inOther hit

theorem Schema.eq_of_txid_eq (schema : Schema db) {row other : MemPoolTxMetadata Address Tip}
    (inRow : row ∈ db.mempool) (inOther : other ∈ db.mempool) (same : row.txid = other.txid) : row = other :=
  schema.eq_of_conflicts inRow inOther ((conflicts_eq_true row other).mpr (Or.inl same.symm))

/-! ## Deleting and inserting rows -/

section Writes
variable (doomed : MemPoolTxMetadata Address Tip → Bool)

/-- A txid still in `removed_txids` after a deletion names a row that stays. -/
theorem Schema.delete_where (schema : Schema db) : Schema (db.deleteWhere doomed) := by
  refine ⟨schema.unique.filter _, fun txid mem => ?_⟩
  simp only [delete_where_removed_txids, List.mem_filter, decide_eq_true_eq] at mem
  obtain ⟨removed, notDeleted⟩ := mem
  obtain ⟨row, inRow, named⟩ := schema.references txid removed
  -- the row it names was not deleted, or its txid would have gone with it
  have stays : doomed row = false := by
    by_contra deleted
    exact notDeleted (List.mem_map.mpr ⟨row, List.mem_filter.mpr ⟨inRow, by simpa using deleted⟩, named⟩)
  exact ⟨row, by simp [inRow, stays], named⟩

theorem mem_delete_where_removed_txids (schema : Schema db) {row : MemPoolTxMetadata Address Tip}
    (inRow : row ∈ db.mempool) (stays : doomed row = false) :
    row.txid ∈ (db.deleteWhere doomed).removedTxids ↔ row.txid ∈ db.removedTxids := by
  simp only [delete_where_removed_txids, List.mem_filter, decide_eq_true_eq, and_iff_left_iff_imp]
  rintro - deleted
  obtain ⟨other, inDoomed, same⟩ := List.mem_map.mp deleted
  obtain ⟨inOther, otherDoomed⟩ := List.mem_filter.mp inDoomed
  rw [schema.eq_of_txid_eq inOther inRow same] at otherDoomed
  rw [stays] at otherDoomed
  cases otherDoomed

end Writes

section Insert
variable (row : MemPoolTxMetadata Address Tip)

@[simp] theorem insert_or_replace_mempool :
    (db.insertOrReplace row).mempool = db.mempool.filter (fun other => !conflicts row other) ++ [row] := rfl

@[simp] theorem insert_or_replace_removed_txids :
    (db.insertOrReplace row).removedTxids = (db.deleteWhere (conflicts row)).removedTxids := rfl

@[simp] theorem insert_or_replace_bloom_counter : (db.insertOrReplace row).bloomCounter = db.bloomCounter := rfl

/-- The new row conflicts with none left, and the txids of `removed_txids` name
rows that stay. -/
theorem Schema.insert_or_replace (schema : Schema db) : Schema (db.insertOrReplace row) := by
  have deleted := schema.delete_where (conflicts row)
  refine ⟨?_, fun txid mem => ?_⟩
  · rw [insert_or_replace_mempool, List.pairwise_append]
    refine ⟨deleted.unique, List.pairwise_singleton _ row, fun other kept new inNew => ?_⟩
    rw [List.mem_singleton.mp inNew, conflicts_comm]
    simpa using (List.mem_filter.mp kept).2
  · obtain ⟨other, kept, named⟩ := deleted.references txid mem
    exact ⟨other, by simp only [insert_or_replace_mempool, List.mem_append]; exact Or.inl kept, named⟩

theorem Schema.txid_not_mem_insert_or_replace (schema : Schema db) :
    row.txid ∉ (db.insertOrReplace row).removedTxids := by
  intro mem
  obtain ⟨other, inOther, named⟩ := (schema.delete_where (conflicts row)).references row.txid mem
  have kept := (List.mem_filter.mp inOther).2
  rw [(conflicts_eq_true row other).mpr (Or.inl named)] at kept
  cases kept

end Insert

/-! ## Admission -/

section Admission
variable {mempool : List (MemPoolTxMetadata Address Tip)}

theorem get_tx_metadata_by_address_eq_some {isOrigin : Bool} {addr : Address} {nonce : Nat}
    {row : MemPoolTxMetadata Address Tip} (found : getTxMetadataByAddress mempool isOrigin addr nonce = some row) :
    row ∈ mempool ∧ if isOrigin then row.originAddress = addr ∧ row.originNonce = nonce
      else row.sponsorAddress = addr ∧ row.sponsorNonce = nonce := by
  refine ⟨List.mem_of_find?_eq_some found, ?_⟩
  have matched := List.find?_some found
  cases isOrigin <;> simpa using matched

/-- The replaced transaction is a row that conflicts with the new one, on its
origin or on its sponsor. -/
theorem prior_tx_conflicts {originAddress sponsorAddress : Address} {originNonce sponsorNonce : Nat}
    {prior : MemPoolTxMetadata Address Tip}
    (found : priorTx mempool originAddress originNonce sponsorAddress sponsorNonce = some prior)
    (txid : List UInt8) (txFee : Nat) (tip : Tip) (height : Nat) :
    prior ∈ mempool ∧
      conflicts ⟨txid, originAddress, originNonce, sponsorAddress, sponsorNonce, txFee, tip, height⟩ prior = true := by
  unfold priorTx at found
  split at found
  · rename_i byOrigin
    cases found
    obtain ⟨inRow, address, nonce⟩ := get_tx_metadata_by_address_eq_some byOrigin
    exact ⟨inRow, (conflicts_eq_true _ _).mpr (Or.inr (Or.inl ⟨address, nonce⟩))⟩
  · obtain ⟨inRow, address, nonce⟩ := get_tx_metadata_by_address_eq_some found
    exact ⟨inRow, (conflicts_eq_true _ _).mpr (Or.inr (Or.inr ⟨address, nonce⟩))⟩

end Admission



/-! ## A submission -/

section Submission
variable [DecidableEq Tip] (bloom : Counter β) (chainstate : ChainState Tip) {db : MemPoolDB Address Tip β}
  {tip : Tip} {txid : List UInt8} {txFee height : Nat} {originAddress sponsorAddress : Address}
  {originNonce sponsorNonce : Nat}

theorem tx_submit_eq (db : MemPoolDB Address Tip β) (tx : Submission Address Tip) :
    db.txSubmit bloom chainstate tx =
      db.tryAddTx bloom chainstate tx.tip tx.txid tx.txFee tx.height tx.originAddress tx.originNonce
        (tx.sponsor.getD (tx.originAddress, tx.originNonce)).1 (tx.sponsor.getD (tx.originAddress, tx.originNonce)).2 :=
  rfl

/-- Whether the fee and fork rule lets the transaction in. -/
def Admitted (mempool : List (MemPoolTxMetadata Address Tip)) (tip : Tip) (txFee : Nat) (originAddress : Address)
    (originNonce : Nat) (sponsorAddress : Address) (sponsorNonce : Nat) : Prop :=
  ∀ prior ∈ priorTx mempool originAddress originNonce sponsorAddress sponsorNonce,
    (replaces chainstate tip txFee prior).1 = true

/-- `try_add_tx` returns when the fee and fork rule lets the transaction in and
the counter calls return: it inserts the row and reports the replaced
transaction. -/
theorem try_add_tx_eq_ok {result : MemPoolDB Address Tip β × Option (List (List UInt8) × MemPoolDropReason)} :
    db.tryAddTx bloom chainstate tip txid txFee height originAddress originNonce sponsorAddress sponsorNonce =
        .ok result ↔
      ∃ mid evicted, Admitted chainstate db.mempool tip txFee originAddress originNonce sponsorAddress sponsorNonce ∧
        db.updateBloomCounter bloom height txid
            ((priorTx db.mempool originAddress originNonce sponsorAddress sponsorNonce).map (·.txid)) =
          .ok (mid, evicted) ∧
        result = (mid.insertOrReplace ⟨txid, originAddress, originNonce, sponsorAddress, sponsorNonce, txFee, tip, height⟩,
          (priorTx db.mempool originAddress originNonce sponsorAddress sponsorNonce).map
            fun prior => ([prior.txid], (replaces chainstate tip txFee prior).2)) := by
  unfold MemPoolDB.tryAddTx Admitted
  cases priorTx db.mempool originAddress originNonce sponsorAddress sponsorNonce with
  | none =>
      simp only [Bool.not_true, Option.map_none, Bool.false_eq_true, if_false, Option.mem_def, reduceCtorEq,
        false_implies, implies_true, true_and]
      constructor
      · intro done
        obtain ⟨⟨mid, evicted⟩, ran, rest⟩ := Panic.bind_eq_ok done
        exact ⟨mid, evicted, ran, (Except.ok.inj rest).symm⟩
      · rintro ⟨mid, evicted, ran, rfl⟩
        simp [ran]
  | some prior =>
      simp only [Option.map_some, Option.mem_def, Option.some.injEq, forall_eq']
      cases (replaces chainstate tip txFee prior) with
      | mk addTx reason =>
          cases addTx with
          | false => simp
          | true =>
              simp only [Bool.not_true, Bool.false_eq_true, if_false, true_and]
              constructor
              · intro done
                obtain ⟨⟨mid, evicted⟩, ran, rest⟩ := Panic.bind_eq_ok done
                exact ⟨mid, evicted, ran, (Except.ok.inj rest).symm⟩
              · rintro ⟨mid, evicted, ran, rfl⟩
                simp [ran]

/-- `try_add_tx` rejects a conflicting nonce exactly when the fee and fork rule
keeps the transaction out; it fails otherwise only with a fault of its counter. -/
theorem try_add_tx_eq_error_conflicting :
    db.tryAddTx bloom chainstate tip txid txFee height originAddress originNonce sponsorAddress sponsorNonce =
        .error .conflictingNonceInMempool ↔
      ¬ Admitted chainstate db.mempool tip txFee originAddress originNonce sponsorAddress sponsorNonce := by
  unfold MemPoolDB.tryAddTx Admitted
  cases priorTx db.mempool originAddress originNonce sponsorAddress sponsorNonce with
  | none =>
      simp only [Bool.not_true, Bool.false_eq_true, if_false, Option.mem_def, reduceCtorEq, false_implies,
        implies_true, not_true_eq_false, iff_false]
      exact update_bloom_counter_bind_ne_conflict bloom height txid _ _
  | some prior =>
      simp only [Option.mem_def, Option.some.injEq, forall_eq']
      cases replaces chainstate tip txFee prior with
      | mk addTx reason =>
          cases addTx with
          | false => simp
          | true =>
              simp only [Bool.not_true, Bool.false_eq_true, if_false, not_true_eq_false, iff_false]
              exact update_bloom_counter_bind_ne_conflict bloom height txid _ _

end Submission

/-! ## The bookkeeping over runs -/

/-- Every row outside `removed_txids` is an outstanding insertion of the counter. -/
def Counted (live : β → List (List UInt8)) (db : MemPoolDB Address Tip β) : Prop :=
  ∀ row ∈ db.mempool, row.txid ∉ db.removedTxids → row.txid ∈ live db.bloomCounter

/-- What every run of calls on a counter that tracks its insertions keeps. -/
structure Consistent (live : β → List (List UInt8)) (db : MemPoolDB Address Tip β) : Prop where
  schema : Schema db
  counted : Counted live db

section Runs
variable {live : β → List (List UInt8)} {db db' : MemPoolDB Address Tip β}

theorem consistent_new (bloomCounter : β) :
    Consistent live (MemPoolDB.new bloomCounter : MemPoolDB Address Tip β) :=
  ⟨schema_new bloomCounter, fun _ absent => nomatch absent⟩

theorem Consistent.delete_where (inv : Consistent live db) (doomed : MemPoolTxMetadata Address Tip → Bool) :
    Consistent live (db.deleteWhere doomed) := by
  refine ⟨inv.schema.delete_where doomed, fun row kept notRemoved => ?_⟩
  rw [delete_where_mempool, List.mem_filter, Bool.not_eq_true'] at kept
  rw [mem_delete_where_removed_txids doomed inv.schema kept.1 kept.2] at notRemoved
  exact inv.counted row kept.1 notRemoved

variable [DecidableEq Tip] {bloom : Counter β} (chainstate : ChainState Tip)

/-- The step lemma of a submission: the row it replaces goes with the
replaced txid, every other row outside `removed_txids` was neither pruned nor
evicted and stays counted, and the new row is counted. -/
theorem Consistent.try_add_tx (tracks : Tracks bloom live) (inv : Consistent live db) {tip : Tip}
    {txid : List UInt8} {txFee height : Nat} {originAddress sponsorAddress : Address} {originNonce sponsorNonce : Nat}
    {event : Option (List (List UInt8) × MemPoolDropReason)}
    (done : db.tryAddTx bloom chainstate tip txid txFee height originAddress originNonce sponsorAddress
      sponsorNonce = .ok (db', event)) : Consistent live db' := by
  obtain ⟨mid, evicted, -, ranUpdate, result⟩ := (try_add_tx_eq_ok bloom chainstate).mp done
  rw [Prod.mk.injEq] at result
  obtain ⟨rfl, -⟩ := result
  obtain ⟨pruned, ofRows, sameRows, removedEq, counterEq⟩ := tracks.update_bloom_counter ranUpdate
  set row : MemPoolTxMetadata Address Tip :=
    ⟨txid, originAddress, originNonce, sponsorAddress, sponsorNonce, txFee, tip, height⟩
  -- the middle state has the rows of the first and more txids of them removed
  have midSchema : Schema mid := by
    refine ⟨sameRows ▸ inv.schema.unique, fun other mem => ?_⟩
    rw [removedEq, mem_foldl_add_removed] at mem
    rw [sameRows]
    rcases mem with old | added
    · exact inv.schema.references other old
    · exact ofRows other added
  refine ⟨midSchema.insert_or_replace row, fun other inOther notRemoved => ?_⟩
  rw [insert_or_replace_mempool, List.mem_append, List.mem_filter, Bool.not_eq_true', List.mem_singleton]
    at inOther
  rw [insert_or_replace_bloom_counter, counterEq]
  rcases inOther with ⟨inMid, stays⟩ | rfl
  · rw [insert_or_replace_removed_txids, mem_delete_where_removed_txids _ midSchema inMid stays, removedEq,
      mem_foldl_add_removed, not_or] at notRemoved
    have inDb : other ∈ db.mempool := sameRows ▸ inMid
    -- the replaced row conflicts with the new one, and this one does not
    have notPrior : other.txid ∉ ((priorTx db.mempool originAddress originNonce sponsorAddress sponsorNonce).map
        (·.txid)).toList := by
      cases found : priorTx db.mempool originAddress originNonce sponsorAddress sponsorNonce with
      | none => simp
      | some prior =>
          obtain ⟨inPrior, hit⟩ := prior_tx_conflicts found txid txFee tip height
          simp only [Option.map_some, Option.toList_some, List.mem_singleton]
          intro same
          rw [inv.schema.eq_of_txid_eq inDb inPrior same, hit] at stays
          cases stays
    have notRemovals : other.txid ∉ pruned ++ ((priorTx db.mempool originAddress originNonce sponsorAddress
        sponsorNonce).map (·.txid)).toList ++ evicted.toList := by
      simp only [List.mem_append, not_or]
      exact ⟨⟨fun early => notRemoved.2 (List.mem_append_left _ early), notPrior⟩,
        fun late => notRemoved.2 (List.mem_append_right _ late)⟩
    exact List.mem_cons_of_mem _ ((mem_foldl_erase notRemovals _).mpr (inv.counted other inDb notRemoved.1))
  · exact List.mem_cons_self

theorem Consistent.step (tracks : Tracks bloom live) (inv : Consistent live db) (call : Call Address Tip) :
    Consistent live (db.step bloom chainstate call) := by
  cases call with
  | submit tx =>
      simp only [MemPoolDB.step]
      cases submitted : db.txSubmit bloom chainstate tx with
      | error _ => exact inv
      | ok result => exact inv.try_add_tx chainstate tracks (tx_submit_eq bloom chainstate db tx ▸ submitted)
  | garbageCollect minHeight => exact inv.delete_where _
  | dropTxs txids => exact inv.delete_where _

theorem Consistent.run (tracks : Tracks bloom live) (inv : Consistent live db) (calls : List (Call Address Tip)) :
    Consistent live (db.run bloom chainstate calls) := by
  induction calls generalizing db with
  | nil => exact inv
  | cons call calls ih => exact ih (inv.step chainstate tracks call)

/-! ## Txids without rows -/

/-- A chain state that knows no ancestry: two tips are in one fork when they
are one. -/
def noAncestry : ChainState Nat := ⟨fun _ _ => none⟩

/-- A transaction at tip `0`, from the origin's nonce `0`. -/
def sampleTx (txid : UInt8) (txFee height originAddress : Nat) (sponsor : Option (Nat × Nat)) : Submission Nat Nat :=
  ⟨0, height, [txid], txFee, originAddress, 0, sponsor⟩

/-- The database after a run from a new one, on the outstanding insertions. -/
def sampleRun (calls : List (Call Nat Nat)) : MemPoolDB Nat Nat (List (List UInt8)) :=
  (MemPoolDB.new []).run outstanding noAncestry calls

/-- Every removal of a call names the txid of a row, so the counter keeps the
insertions of a txid that has no row while no submission brings one. -/
theorem try_add_tx_keeps_rowless (tracks : Tracks bloom live) {tip : Tip} {txid : List UInt8} {txFee height : Nat}
    {originAddress sponsorAddress : Address} {originNonce sponsorNonce : Nat}
    {event : Option (List (List UInt8) × MemPoolDropReason)} {other : List UInt8}
    (done : db.tryAddTx bloom chainstate tip txid txFee height originAddress originNonce sponsorAddress
      sponsorNonce = .ok (db', event))
    (rowless : ∀ row ∈ db.mempool, row.txid ≠ other) (fresh : txid ≠ other) :
    (∀ row ∈ db'.mempool, row.txid ≠ other) ∧
      (live db.bloomCounter).count other ≤ (live db'.bloomCounter).count other := by
  obtain ⟨mid, evicted, -, ranUpdate, result⟩ := (try_add_tx_eq_ok bloom chainstate).mp done
  rw [Prod.mk.injEq] at result
  obtain ⟨rfl, -⟩ := result
  obtain ⟨pruned, ofRows, sameRows, -, counterEq⟩ := tracks.update_bloom_counter ranUpdate
  refine ⟨fun row inRow => ?_, ?_⟩
  · rw [insert_or_replace_mempool, List.mem_append, List.mem_filter, List.mem_singleton] at inRow
    rcases inRow with ⟨inMid, -⟩ | rfl
    · exact rowless row (sameRows ▸ inMid)
    · exact fresh
  · -- the pruned, the replaced and the evicted txids are all txids of rows
    have notRemoved : other ∉ pruned ++ ((priorTx db.mempool originAddress originNonce sponsorAddress
        sponsorNonce).map (·.txid)).toList ++ evicted.toList := by
      simp only [List.mem_append, not_or]
      refine ⟨⟨fun early => ?_, fun replaced => ?_⟩, fun late => ?_⟩
      · obtain ⟨row, inRow, named⟩ := ofRows other (List.mem_append_left _ early)
        exact rowless row inRow named
      · cases found : priorTx db.mempool originAddress originNonce sponsorAddress sponsorNonce with
        | none => simp [found] at replaced
        | some prior =>
            simp only [found, Option.map_some, Option.toList_some, List.mem_singleton] at replaced
            exact rowless prior (prior_tx_conflicts found txid txFee tip height).1 replaced.symm
      · obtain ⟨row, inRow, named⟩ := ofRows other (List.mem_append_right _ late)
        exact rowless row inRow named
    rw [insert_or_replace_bloom_counter, counterEq, List.count_cons, count_foldl_erase notRemoved]
    exact Nat.le_add_right _ _

theorem step_keeps_rowless (tracks : Tracks bloom live) {other : List UInt8}
    (rowless : ∀ row ∈ db.mempool, row.txid ≠ other)
    (call : Call Address Tip) (notSubmitted : ∀ tx, call = .submit tx → tx.txid ≠ other) :
    (∀ row ∈ (db.step bloom chainstate call).mempool, row.txid ≠ other) ∧
      (live db.bloomCounter).count other ≤ (live (db.step bloom chainstate call).bloomCounter).count other := by
  -- a deletion keeps the counter and some of the rows
  have deleting : ∀ doomed : MemPoolTxMetadata Address Tip → Bool,
      (∀ row ∈ (db.deleteWhere doomed).mempool, row.txid ≠ other) ∧
        (live db.bloomCounter).count other ≤ (live (db.deleteWhere doomed).bloomCounter).count other :=
    fun doomed => ⟨fun row kept => rowless row (List.mem_filter.mp kept).1, le_refl _⟩
  cases call with
  | submit tx =>
      simp only [MemPoolDB.step]
      cases submitted : db.txSubmit bloom chainstate tx with
      | error _ => exact ⟨rowless, le_refl _⟩
      | ok result =>
          exact try_add_tx_keeps_rowless chainstate tracks (tx_submit_eq bloom chainstate db tx ▸ submitted) rowless
            (notSubmitted tx rfl)
  | garbageCollect minHeight => exact deleting _
  | dropTxs txids => exact deleting _

/-- A txid that the ledger holds and no row has stays in the ledger, as often as
it was, and still has no row, through every run that does not submit it:
prune and eviction take out txids of rows, and so does a replacement. -/
theorem rowless_txid_stays_counted {db : MemPoolDB Address Tip Ledger} {other : List UInt8}
    (calls : List (Call Address Tip)) (rowless : ∀ row ∈ db.mempool, row.txid ≠ other)
    (notSubmitted : ∀ tx, .submit tx ∈ calls → tx.txid ≠ other) :
    (∀ row ∈ (db.run ledger chainstate calls).mempool, row.txid ≠ other) ∧
      db.bloomCounter.live.count other ≤ (db.run ledger chainstate calls).bloomCounter.live.count other := by
  induction calls generalizing db with
  | nil => exact ⟨rowless, le_refl _⟩
  | cons call calls ih =>
      obtain ⟨stillRowless, counted⟩ := step_keeps_rowless chainstate ledger_tracks rowless call
        fun tx same => notSubmitted tx (same ▸ List.mem_cons_self)
      obtain ⟨rowlessAfter, countedAfter⟩ :=
        ih stillRowless fun tx mem => notSubmitted tx (List.mem_cons_of_mem call mem)
      exact ⟨rowlessAfter, counted.trans countedAfter⟩

/-- The txid of account `2`'s transaction, deleted with the one a sponsored
transaction replaced, stays in the ledger and without a row through a
collection of every row and a later submission. -/
theorem unweighed_txid_stays_counted :
    let db := (MemPoolDB.new ⟨[], []⟩ : MemPoolDB Nat Nat Ledger).run ledger noAncestry
      [.submit (sampleTx 1 1 1 1 none), .submit (sampleTx 2 100 1 2 none), .submit (sampleTx 3 2 1 1 (some (2, 0)))]
    let calls : List (Call Nat Nat) := [.garbageCollect 5, .submit (sampleTx 6 1 7 6 none)]
    (∀ row ∈ db.mempool, row.txid ≠ [2]) ∧ (∀ tx, .submit tx ∈ calls → tx.txid ≠ [2]) ∧
      (∀ row ∈ (db.run ledger noAncestry calls).mempool, row.txid ≠ [2]) ∧
      db.bloomCounter.live.count [2] ≤ (db.run ledger noAncestry calls).bloomCounter.live.count [2] := by
  intro db calls
  have rowless : ∀ row ∈ db.mempool, row.txid ≠ [2] := by decide
  have notSubmitted : ∀ tx, .submit tx ∈ calls → tx.txid ≠ [2] := by
    intro tx mem
    simp only [calls, List.mem_cons, reduceCtorEq, Call.submit.injEq, List.not_mem_nil, or_false, false_or] at mem
    subst mem
    decide
  exact ⟨rowless, notSubmitted, rowless_txid_stays_counted noAncestry calls rowless notSubmitted⟩

end Runs

/-! ## Two runs that go wrong -/

/-- A transaction of origin `1`, sponsored by account `2` at its nonce `0`,
conflicts with `1`'s transaction on the origin and with `2`'s own on the
sponsor. It outbids only the first, but both go; only the first is reported
dropped, and the counter keeps the txid of the second, which has no row. -/
theorem sponsored_replacement_drops_unweighed :
    (sampleRun [.submit (sampleTx 1 1 1 1 none), .submit (sampleTx 2 100 1 2 none)]).txSubmit outstanding
        noAncestry (sampleTx 3 2 1 1 (some (2, 0))) =
      .ok (⟨[⟨[3], 1, 0, 2, 0, 2, 0, 1⟩], [], [[3], [2]]⟩, some ([[1]], .replaceByFee)) := by
  decide

/-- A transaction at height 1 is pruned when the first one at height 3
arrives; a replacement of it by fee then has the counter remove its txid
again, though the counter no longer holds it. -/
theorem replacing_pruned_tx_removes_it_twice :
    (sampleRun [.submit (sampleTx 1 1 1 1 none), .submit (sampleTx 4 1 3 4 none)]).txSubmit outstanding
        noAncestry (sampleTx 5 2 3 1 none) =
      .error (.bloomCounter (.panic "remove_raw of an item the counter does not hold")) := by
  decide

end Hyperchains.MemPool
