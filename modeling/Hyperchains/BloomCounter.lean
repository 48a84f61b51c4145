import Hyperchains.Bloom

/-! The counting Bloom filter of the mempool (`BloomCounter<BloomNodeHasher>` in
`util_lib/bloom.rs`). Its bins are a blob of big-endian `u32`s in a table of its
own; here they are a list of numbers, and the table's name and row id are left
out. `insert_raw` adds one to the bin each hash function picks, saturating at
`u32::MAX`; `remove_raw` takes one off each once `count_raw` has seen the item;
`to_bloom_filter` sets the bit of every positive bin.

Over a run that removes only outstanding insertions and never takes a bin to
`u32::MAX`, each bin counts the pairs of an outstanding insertion and a hash
function that pick it. So a removal never panics, the filter holds every
outstanding item, and the bins empty with the insertions. `count_raw` starts
from `u32::MAX` and takes the least bin, so it bounds the outstanding
insertions of an item from above, except without hash functions, where it
answers `u32::MAX` whatever was inserted. -/

namespace Hyperchains.Bloom

/-- The fields of `BloomCounter<BloomNodeHasher>` its calls read. -/
structure BloomCounter where
  seed : List UInt8
  numBins : Nat
  numHashes : Nat
  deriving DecidableEq, Repr

namespace BloomCounter
variable {State : Type} (sip : SipHasher State) (counter : BloomCounter) (fuel : Nat)

/-- `get_counts_bin`: the `u32` at offset `4 * slot` of the blob. -/
def getCountsBin (counts : List Nat) (slot : Nat) : Nat := counts.getD slot 0

def setCountsBin (counts : List Nat) (slot count : Nat) : List Nat := counts.set slot count

/-- `bin.saturating_add(1)` of a `u32`. -/
def saturatingAdd (bin : Nat) : Nat := min (bin + 1) u32Max

/-- The loop of `insert_raw` over the hash functions left: the least bin seen so
far, and the blob. -/
def insertSlots (item : List UInt8) : List Nat → Nat → List Nat → Except Fault (Nat × List Nat)
  | [], count, counts => .ok (count, counts)
  | i :: rest, count, counts => do
      let slot ← pickBin sip counter.seed fuel i item counter.numBins
      if slot < counter.numBins then
        let bin := getCountsBin counts slot
        insertSlots item rest (min bin count) (setCountsBin counts slot (saturatingAdd bin))
      else .error (.panic "BUG: hasher selected a slot outside the bloom counters")

def insertRaw (counts : List Nat) (item : List UInt8) : Except Fault (Nat × List Nat) :=
  insertSlots sip counter fuel item (List.range counter.numHashes) u32Max counts

/-- The loop of `count_raw`: an empty bin answers 0 at once. -/
def countSlots (counts : List Nat) (item : List UInt8) : List Nat → Nat → Except Fault Nat
  | [], count => .ok count
  | i :: rest, count => do
      let slot ← pickBin sip counter.seed fuel i item counter.numBins
      if slot < counter.numBins then
        let bin := getCountsBin counts slot
        if bin = 0 then .ok 0 else countSlots counts item rest (min bin count)
      else .error (.panic "BUG: hasher selected a slot outside the bloom counters")

def countRaw (counts : List Nat) (item : List UInt8) : Except Fault Nat :=
  countSlots sip counter fuel counts item (List.range counter.numHashes) u32Max

/-- The loop of `remove_raw`: an empty bin panics. -/
def removeSlots (item : List UInt8) : List Nat → Nat → List Nat → Except Fault (Nat × List Nat)
  | [], count, counts => .ok (count, counts)
  | i :: rest, count, counts => do
      let slot ← pickBin sip counter.seed fuel i item counter.numBins
      if slot < counter.numBins then
        let bin := getCountsBin counts slot
        if bin > 0 then removeSlots item rest (min (bin - 1) count) (setCountsBin counts slot (bin - 1))
        else .error (.panic s!"BUG: item is present in the bloom counter, but has a zero count (i = {i}, slot = {slot})")
      else .error (.panic "BUG: hasher selected a slot outside the bloom counters")

def removeRaw (counts : List Nat) (item : List UInt8) : Except Fault (Nat × List Nat) := do
  let count ← countRaw sip counter fuel counts item
  if count = 0 then .ok (0, counts)
  else removeSlots sip counter fuel item (List.range counter.numHashes) u32Max counts

/-- The loop of `to_bloom_filter`: a bin whose four bytes are not all zero sets its bit. -/
def setPositive (counts : List Nat) : List Nat → BitField → Except Fault BitField
  | [], field => .ok field
  | i :: rest, field =>
      if getCountsBin counts i > 0 then do
        let field ← field.set i
        setPositive counts rest field
      else setPositive counts rest field

def toBloomFilter (counts : List Nat) : Except Fault BloomFilter := do
  let bits ← setPositive counts (List.range counter.numBins) (BitField.new counter.numBins)
  pure ⟨counter.seed, bits, counter.numHashes⟩

/-- The blobs and outstanding insertions a run of calls reaches from a new
counter: a removal names an outstanding insertion, and an insertion leaves every
bin below `u32::MAX`. -/
inductive Reached : List Nat → List (List UInt8) → Prop
  | new : Reached (List.replicate counter.numBins 0) []
  | insert {counts : List Nat} {live : List (List UInt8)} {item : List UInt8} {count : Nat} {counts' : List Nat} :
      Reached counts live → insertRaw sip counter fuel counts item = .ok (count, counts') →
      (∀ bin ∈ counts', bin < u32Max) → Reached counts' (item :: live)
  | remove {counts : List Nat} {live : List (List UInt8)} {item : List UInt8} {count : Nat} {counts' : List Nat} :
      Reached counts live → item ∈ live → removeRaw sip counter fuel counts item = .ok (count, counts') →
      Reached counts' (live.erase item)

/-- The hash functions among `indices` that `pick_bin` maps the item to `bin`. -/
def hits (indices : List Nat) (item : List UInt8) (bin : Nat) : Nat :=
  (indices.filter fun i => pickBin sip counter.seed fuel i item counter.numBins = .ok bin).length

/-- The pairs of an outstanding insertion and a hash function that `pick_bin`
maps to `bin`. -/
def pairCount (live : List (List UInt8)) (bin : Nat) : Nat :=
  (live.map fun item => hits sip counter fuel (List.range counter.numHashes) item bin).sum

/-- Every hash function among `indices` lands the item in a bin. -/
def Picks (item : List UInt8) (indices : List Nat) : Prop :=
  ∀ i ∈ indices, ∃ slot, pickBin sip counter.seed fuel i item counter.numBins = .ok slot ∧ slot < counter.numBins

/-! ## The blob -/

section Blob
variable {counts : List Nat}

theorem get_counts_bin_set_counts_bin {slot : Nat} (inside : slot < counts.length) (count bin : Nat) :
    getCountsBin (setCountsBin counts slot count) bin = if bin = slot then count else getCountsBin counts bin := by
  unfold getCountsBin setCountsBin
  rw [List.getD_eq_getElem?_getD, List.getD_eq_getElem?_getD, List.getElem?_set]
  by_cases same : bin = slot
  · simp [same, inside]
  · simp [Ne.symm same, same]

theorem get_counts_bin_mem {bin : Nat} (inside : bin < counts.length) : getCountsBin counts bin ∈ counts := by
  simp [getCountsBin, List.getD_eq_getElem?_getD, List.getElem?_eq_getElem inside]

theorem get_counts_bin_of_length_le {bin : Nat} (outside : counts.length ≤ bin) : getCountsBin counts bin = 0 := by
  simp [getCountsBin, List.getD_eq_getElem?_getD, List.getElem?_eq_none outside]

theorem bins_lt_of_le {counts' : List Nat} {bound : Nat} (sized : counts'.length = counts.length)
    (le : ∀ bin, getCountsBin counts' bin ≤ getCountsBin counts bin) (bounded : ∀ bin ∈ counts, bin < bound) :
    ∀ bin ∈ counts', bin < bound := by
  intro x mem
  obtain ⟨bin, inside, rfl⟩ := List.getElem_of_mem mem
  have same : getCountsBin counts' bin = counts'[bin] := by
    simp [getCountsBin, List.getD_eq_getElem?_getD, List.getElem?_eq_getElem inside]
  rw [← same]
  exact lt_of_le_of_lt (le bin) (bounded _ (get_counts_bin_mem (sized ▸ inside)))

end Blob

/-! ## One call -/

section Calls
variable {sip : SipHasher State} {counter : BloomCounter} {fuel : Nat} {item : List UInt8}

theorem hits_cons (i : Nat) (rest : List Nat) (bin : Nat) :
    hits sip counter fuel (i :: rest) item bin =
      (if pickBin sip counter.seed fuel i item counter.numBins = .ok bin then 1 else 0) +
        hits sip counter fuel rest item bin := by
  unfold hits
  rw [List.filter_cons]
  split <;> simp_all [Nat.add_comm]

/-- An `insert_raw` loop that returns with every bin below `u32::MAX` saturated
nothing: each bin grew by the hash functions that picked it. -/
theorem insert_slots_bins : ∀ (indices : List Nat) (count : Nat) (counts : List Nat) {count' : Nat}
    {counts' : List Nat}, counts.length = counter.numBins →
    insertSlots sip counter fuel item indices count counts = .ok (count', counts') →
    (∀ bin ∈ counts', bin < u32Max) →
    Picks sip counter fuel item indices ∧ counts'.length = counter.numBins ∧
      ∀ bin, getCountsBin counts' bin = getCountsBin counts bin + hits sip counter fuel indices item bin
  | [], count, counts, count', counts', sized, ran, _ => by
      simp only [insertSlots, Except.ok.injEq, Prod.mk.injEq] at ran
      obtain ⟨-, rfl⟩ := ran
      exact ⟨(fun _ absent => nomatch absent), sized, fun bin => by simp [hits]⟩
  | i :: rest, count, counts, count', counts', sized, ran, bounded => by
      simp only [insertSlots] at ran
      obtain ⟨slot, picked, ran⟩ := Panic.bind_eq_ok ran
      split at ran
      · rename_i inside
        have inBlob : slot < counts.length := sized ▸ inside
        obtain ⟨picks, sized', grown⟩ :=
          insert_slots_bins rest _ _ (by simp [setCountsBin, sized]) ran bounded
        -- the slot's bin ends below the maximum, so adding one did not saturate
        have notSaturated : getCountsBin counts slot + 1 < u32Max := by
          have final := grown slot
          rw [get_counts_bin_set_counts_bin inBlob, if_pos rfl] at final
          have below := bounded _ (get_counts_bin_mem (show slot < counts'.length by omega))
          have atMost : saturatingAdd (getCountsBin counts slot) < u32Max := by omega
          simpa [saturatingAdd] using atMost
        refine ⟨fun j mem => ?_, sized', fun bin => ?_⟩
        · rcases List.mem_cons.mp mem with rfl | later
          · exact ⟨slot, picked, inside⟩
          · exact picks j later
        · rw [grown bin, get_counts_bin_set_counts_bin inBlob, hits_cons, picked]
          by_cases same : bin = slot
          · simp [same, saturatingAdd, Nat.min_eq_left (le_of_lt notSaturated)]
            omega
          · simp [same, Ne.symm same]
      · cases ran

/-- A `remove_raw` loop over hash functions that all land the item in bins
holding at least their hits returns, each bin down by its hits. -/
theorem remove_slots_bins : ∀ (indices : List Nat) (count : Nat) (counts : List Nat),
    counts.length = counter.numBins → Picks sip counter fuel item indices →
    (∀ bin, hits sip counter fuel indices item bin ≤ getCountsBin counts bin) →
    ∃ count' counts', removeSlots sip counter fuel item indices count counts = .ok (count', counts') ∧
      counts'.length = counter.numBins ∧
      ∀ bin, getCountsBin counts' bin = getCountsBin counts bin - hits sip counter fuel indices item bin
  | [], count, counts, sized, _, _ => ⟨count, counts, rfl, sized, fun bin => by simp [hits]⟩
  | i :: rest, count, counts, sized, picks, enough => by
      obtain ⟨slot, picked, inside⟩ := picks i (by simp)
      have inBlob : slot < counts.length := sized ▸ inside
      -- the slot's bin holds this hit and those of the hash functions left
      have atSlot := enough slot
      rw [hits_cons, picked, if_pos rfl] at atSlot
      have enoughRest : ∀ bin, hits sip counter fuel rest item bin ≤
          getCountsBin (setCountsBin counts slot (getCountsBin counts slot - 1)) bin := by
        intro bin
        rw [get_counts_bin_set_counts_bin inBlob]
        by_cases same : bin = slot
        · rw [if_pos same, same]
          omega
        · have atBin := enough bin
          rw [hits_cons, picked] at atBin
          simp only [Except.ok.injEq, Ne.symm same, if_false, Nat.zero_add] at atBin
          rw [if_neg same]
          exact atBin
      obtain ⟨count', counts', ran, sized', shrunk⟩ := remove_slots_bins rest _ _
        (by simp [setCountsBin, sized]) (fun j mem => picks j (List.mem_cons_of_mem i mem)) enoughRest
      refine ⟨count', counts', ?_, sized', fun bin => ?_⟩
      · simp only [removeSlots, picked, Panic.ok_bind, inside, if_true]
        rw [if_pos (by omega)]
        exact ran
      · rw [shrunk bin, get_counts_bin_set_counts_bin inBlob, hits_cons, picked]
        by_cases same : bin = slot
        · simp only [same, if_true]
          omega
        · simp [same, Ne.symm same]

/-- A `count_raw` loop over hash functions that land the item in bins holding
at least `least > 0` answers at least the smaller of `least` and where it started. -/
theorem count_slots_ge {counts : List Nat} {least : Nat} (positive : 0 < least) :
    ∀ (indices : List Nat) (count : Nat), Picks sip counter fuel item indices →
    (∀ i ∈ indices, ∀ slot, pickBin sip counter.seed fuel i item counter.numBins = .ok slot →
      least ≤ getCountsBin counts slot) →
    ∃ answer, countSlots sip counter fuel counts item indices count = .ok answer ∧ min least count ≤ answer
  | [], count, _, _ => ⟨count, rfl, Nat.min_le_right _ _⟩
  | i :: rest, count, picks, full => by
      obtain ⟨slot, picked, inside⟩ := picks i (by simp)
      have atSlot := full i (by simp) slot picked
      obtain ⟨answer, ran, bound⟩ := count_slots_ge positive rest (min (getCountsBin counts slot) count)
        (fun j mem => picks j (List.mem_cons_of_mem i mem)) (fun j mem => full j (List.mem_cons_of_mem i mem))
      refine ⟨answer, ?_, ?_⟩
      · simp only [countSlots, picked, Panic.ok_bind, inside, if_true]
        rw [if_neg (by omega)]
        exact ran
      · omega

end Calls

/-! ## The filter -/

/-- Bit `bit` of a field, read from its byte; a missing byte reads as zero. -/
def bitOf (field : BitField) (bit : Nat) : Bool :=
  (field.bits.getD (bit / 8) 0).toBitVec.getLsbD (bit % 8)

section Filter

theorem div_eight_lt_bitvec_len {bit sz : Nat} (below : bit < sz) : bit / 8 < bitvecLen sz := by
  unfold bitvecLen
  split <;> omega

@[simp] theorem bit_of_new (sz bit : Nat) : bitOf (BitField.new sz) bit = false := by
  simp [bitOf, BitField.new, List.getD_eq_getElem?_getD, List.getElem?_replicate]
  split <;> simp

theorem test_eq_ok {field : BitField} {bit : Nat} (below : bit < field.numBits)
    (inside : bit / 8 < field.bits.length) : field.test bit = .ok (bitOf field bit) := by
  have mask := Bytes.and_mask_ne_zero_iff field.bits[bit / 8] (Nat.mod_lt bit (show 8 > 0 by omega))
  simp only [BitField.test, ge_iff_le, Nat.not_le.mpr below, ↓reduceIte, List.getElem?_eq_getElem inside, bitOf,
    List.getD_eq_getElem?_getD, Option.getD_some, Except.ok.injEq]
  rw [Bool.eq_iff_iff, decide_eq_true_iff]
  exact mask

theorem set_eq_ok {field : BitField} {bit : Nat} (below : bit < field.numBits)
    (inside : bit / 8 < field.bits.length) :
    ∃ field', field.set bit = .ok field' ∧ field'.numBits = field.numBits ∧
      field'.bits.length = field.bits.length ∧ ∀ other, bitOf field' other = (bitOf field other || decide (other = bit)) := by
  refine ⟨⟨field.bits.set (bit / 8) (field.bits[bit / 8] ||| ((1 : UInt8) <<< (bit % 8).toUInt8)), field.numBits⟩,
    by simp [BitField.set, Nat.not_le.mpr below, List.getElem?_eq_getElem inside], rfl, by simp, fun other => ?_⟩
  simp only [bitOf, List.getD_eq_getElem?_getD, List.getElem?_set]
  by_cases sameByte : bit / 8 = other / 8
  · rw [if_pos sameByte, if_pos inside, Option.getD_some,
      Bytes.get_lsb_d_or_mask _ (Nat.mod_lt bit (show 8 > 0 by omega)), ← sameByte,
      List.getElem?_eq_getElem inside, Option.getD_some]
    -- within one byte, the bit is the one set exactly when its offset is
    have sameBit : (bit % 8 = other % 8) ↔ other = bit := by omega
    simp [sameBit]
  · rw [if_neg sameByte]
    have apart : other ≠ bit := fun same => sameByte (same ▸ rfl)
    simp [apart]

theorem set_positive_eq_ok (counts : List Nat) : ∀ (indices : List Nat) (field : BitField),
    (∀ i ∈ indices, i < field.numBits) → field.bits.length = bitvecLen field.numBits →
    ∃ field', setPositive counts indices field = .ok field' ∧ field'.numBits = field.numBits ∧
      field'.bits.length = field.bits.length ∧
      ∀ bit, bitOf field' bit = (bitOf field bit || decide (bit ∈ indices ∧ 0 < getCountsBin counts bit))
  | [], field, _, _ => ⟨field, rfl, rfl, rfl, fun bit => by simp⟩
  | i :: rest, field, below, sized => by
      have inside : i / 8 < field.bits.length := sized ▸ div_eight_lt_bitvec_len (below i (by simp))
      by_cases positive : getCountsBin counts i > 0
      · obtain ⟨set, setRan, setBits, setLength, setBit⟩ := set_eq_ok (below i (by simp)) inside
        obtain ⟨field', ran, bits', length', bit'⟩ := set_positive_eq_ok counts rest set
          (fun j mem => setBits ▸ below j (List.mem_cons_of_mem i mem)) (by rw [setBits, setLength, sized])
        refine ⟨field', ?_, bits'.trans setBits, length'.trans setLength, fun bit => ?_⟩
        · simp only [setPositive, positive, if_true, setRan, Panic.ok_bind]
          exact ran
        · rw [bit', setBit]
          by_cases same : bit = i
          · simp [same, positive]
          · simp [same]
      · obtain ⟨field', ran, bits', length', bit'⟩ := set_positive_eq_ok counts rest field
          (fun j mem => below j (List.mem_cons_of_mem i mem)) sized
        refine ⟨field', ?_, bits', length', fun bit => ?_⟩
        · simp only [setPositive, positive, if_false]
          exact ran
        · rw [bit']
          by_cases same : bit = i
          · simp [same, positive]
          · simp [same]

/-- `to_bloom_filter` of a blob with a bin per slot: the counter's hasher and
hash count, and a bit set exactly at each positive bin. -/
theorem to_bloom_filter_eq_ok (counter : BloomCounter) (counts : List Nat) :
    ∃ filter, toBloomFilter counter counts = .ok filter ∧ filter.seed = counter.seed ∧
      filter.numHashes = counter.numHashes ∧ filter.bits.numBits = counter.numBins ∧
      filter.bits.bits.length = bitvecLen counter.numBins ∧
      ∀ bit < counter.numBins, bitOf filter.bits bit = decide (0 < getCountsBin counts bit) := by
  obtain ⟨bits, ran, numBits, length, bitAt⟩ := set_positive_eq_ok counts (List.range counter.numBins)
    (BitField.new counter.numBins) (fun i mem => List.mem_range.mp mem) (by simp [BitField.new])
  refine ⟨⟨counter.seed, bits, counter.numHashes⟩, ?_, rfl, rfl, numBits, by simpa [BitField.new] using length,
    fun bit below => ?_⟩
  · simp only [toBloomFilter, ran, Panic.ok_bind]
    rfl
  · simp [bitAt, below]

theorem contains_slots_eq_true {State : Type} {sip : SipHasher State} {filter : BloomFilter} {fuel : Nat}
    {item : List UInt8} : ∀ indices : List Nat,
    (∀ i ∈ indices, ∃ slot, pickBin sip filter.seed fuel i item filter.bits.numBits = .ok slot ∧
      slot < filter.bits.numBits ∧ filter.bits.test slot = .ok true) →
    containsSlots sip filter fuel item indices = .ok true
  | [], _ => rfl
  | i :: rest, set => by
      obtain ⟨slot, picked, inside, present⟩ := set i (by simp)
      simp only [containsSlots, picked, Panic.ok_bind, inside, if_true, present, if_true]
      exact contains_slots_eq_true rest fun j mem => set j (List.mem_cons_of_mem i mem)

end Filter

/-! ## A whole run -/

theorem count_mul_le_sum_map {α : Type} [BEq α] [LawfulBEq α] (f : α → Nat) (x : α) :
    ∀ live : List α, live.count x * f x ≤ (live.map f).sum
  | [] => by simp
  | y :: rest => by
      have below := count_mul_le_sum_map f x rest
      by_cases same : y = x
      · subst same
        simp only [List.count_cons_self, List.map_cons, List.sum_cons, Nat.succ_mul]
        omega
      · simp only [List.count_cons, beq_iff_eq, same, if_false, Nat.add_zero, List.map_cons, List.sum_cons]
        omega

/-- What a run keeps: a bin per slot, each the count of its pairs and below
`u32::MAX`, and every outstanding item landed in bins by each hash function. -/
structure Counts {State : Type} (sip : SipHasher State) (counter : BloomCounter) (fuel : Nat)
    (counts : List Nat) (live : List (List UInt8)) : Prop where
  sized : counts.length = counter.numBins
  bins : ∀ bin, getCountsBin counts bin = pairCount sip counter fuel live bin
  bounded : ∀ bin ∈ counts, bin < u32Max
  picks : ∀ item ∈ live, Picks sip counter fuel item (List.range counter.numHashes)

section Run
variable {State : Type} {sip : SipHasher State} {counter : BloomCounter} {fuel : Nat} {counts : List Nat}
  {live : List (List UInt8)}

theorem counts_new : Counts sip counter fuel (List.replicate counter.numBins 0) [] where
  sized := List.length_replicate
  bins := fun bin => by
    simp only [getCountsBin, pairCount, List.getD_eq_getElem?_getD, List.getElem?_replicate, List.map_nil,
      List.sum_nil]
    split <;> rfl
  bounded := fun bin mem => by simp [(List.mem_replicate.mp mem).2, u32Max]
  picks := fun _ absent => nomatch absent

theorem Counts.count_le_bin (inv : Counts sip counter fuel counts live) {item : List UInt8} {i slot : Nat}
    (index : i < counter.numHashes) (picked : pickBin sip counter.seed fuel i item counter.numBins = .ok slot) :
    live.count item ≤ getCountsBin counts slot := by
  have hit : 1 ≤ hits sip counter fuel (List.range counter.numHashes) item slot := by
    have chosen : i ∈ (List.range counter.numHashes).filter fun j =>
        pickBin sip counter.seed fuel j item counter.numBins = .ok slot := by
      simp [index, picked]
    exact List.length_pos_of_mem chosen
  have below := count_mul_le_sum_map (fun item => hits sip counter fuel (List.range counter.numHashes) item slot)
    item live
  rw [inv.bins]
  unfold pairCount
  nlinarith

theorem Counts.insert (inv : Counts sip counter fuel counts live) {item : List UInt8} {count : Nat}
    {counts' : List Nat} (ran : insertRaw sip counter fuel counts item = .ok (count, counts'))
    (bounded : ∀ bin ∈ counts', bin < u32Max) : Counts sip counter fuel counts' (item :: live) := by
  obtain ⟨picks, sized, grown⟩ := insert_slots_bins _ _ _ inv.sized ran bounded
  refine ⟨sized, fun bin => ?_, bounded, fun other mem => ?_⟩
  · rw [grown, inv.bins, pairCount, pairCount, List.map_cons, List.sum_cons, Nat.add_comm]
  · rcases List.mem_cons.mp mem with rfl | old
    · exact picks
    · exact inv.picks other old

/-- `count_raw` of an outstanding item returns, at least its outstanding
insertions up to `u32::MAX`. -/
theorem Counts.count_raw_live (inv : Counts sip counter fuel counts live) {item : List UInt8} (mem : item ∈ live) :
    ∃ count, countRaw sip counter fuel counts item = .ok count ∧ min (live.count item) u32Max ≤ count :=
  count_slots_ge (List.count_pos_iff.mpr mem) _ _ (inv.picks item mem)
    fun _ index _ picked => inv.count_le_bin (List.mem_range.mp index) picked

/-- `count_raw` bounds the outstanding insertions of an item, except with no
hash functions, where it answers `u32::MAX`. -/
theorem Counts.count_raw (inv : Counts sip counter fuel counts live) {item : List UInt8} {count : Nat}
    (ran : countRaw sip counter fuel counts item = .ok count) :
    live.count item ≤ count ∨ (counter.numHashes = 0 ∧ count = u32Max) := by
  by_cases mem : item ∈ live
  · obtain ⟨answer, answered, bound⟩ := inv.count_raw_live mem
    rw [answered, Except.ok.injEq] at ran
    subst ran
    by_cases none : counter.numHashes = 0
    · right
      refine ⟨none, ?_⟩
      simp only [countRaw, none, List.range_zero, countSlots, Except.ok.injEq] at answered
      exact answered.symm
    · -- the first hash function lands the item in a bin below the maximum
      left
      obtain ⟨slot, picked, inside⟩ := inv.picks item mem 0 (List.mem_range.mpr (by omega))
      have capped : live.count item < u32Max :=
        lt_of_le_of_lt (inv.count_le_bin (by omega) picked) (inv.bounded _ (get_counts_bin_mem (inv.sized ▸ inside)))
      omega
  · left
    simp [List.count_eq_zero_of_not_mem mem]

theorem Counts.remove_raw_eq_ok (inv : Counts sip counter fuel counts live) {item : List UInt8}
    (mem : item ∈ live) :
    ∃ count counts', removeRaw sip counter fuel counts item = .ok (count, counts') ∧
      Counts sip counter fuel counts' (live.erase item) := by
  obtain ⟨count, counted, bound⟩ := inv.count_raw_live mem
  have positive : count ≠ 0 := by
    have outstanding := List.count_pos_iff.mpr mem
    unfold u32Max at bound
    omega
  -- an outstanding item's hits are among the pairs of every bin
  have enough : ∀ bin, hits sip counter fuel (List.range counter.numHashes) item bin ≤ getCountsBin counts bin := by
    intro bin
    rw [inv.bins]
    exact List.le_sum_of_mem (List.mem_map_of_mem mem)
  obtain ⟨count', counts', removed, sized, shrunk⟩ :=
    remove_slots_bins _ u32Max counts inv.sized (inv.picks item mem) enough
  refine ⟨count', counts', by simp [removeRaw, counted, positive, removed], sized, fun bin => ?_,
    bins_lt_of_le (sized.trans inv.sized.symm) (fun bin => by rw [shrunk]; omega) inv.bounded,
    fun other kept => inv.picks other (List.mem_of_mem_erase kept)⟩
  have erased := ((List.perm_cons_erase mem).map
    fun item => hits sip counter fuel (List.range counter.numHashes) item bin).sum_eq
  rw [List.map_cons, List.sum_cons] at erased
  rw [shrunk, inv.bins]
  unfold pairCount
  omega

theorem Counts.remove (inv : Counts sip counter fuel counts live) {item : List UInt8} {count : Nat}
    {counts' : List Nat} (mem : item ∈ live) (ran : removeRaw sip counter fuel counts item = .ok (count, counts')) :
    Counts sip counter fuel counts' (live.erase item) := by
  obtain ⟨_, counts'', ran', inv'⟩ := inv.remove_raw_eq_ok mem
  rw [ran, Except.ok.injEq, Prod.mk.injEq] at ran'
  rw [ran'.2]
  exact inv'

theorem Reached.invariant (reached : Reached sip counter fuel counts live) : Counts sip counter fuel counts live := by
  induction reached with
  | new => exact counts_new
  | insert _ ran bounded inv => exact inv.insert ran bounded
  | remove _ mem ran inv => exact inv.remove mem ran

theorem Counts.contains (inv : Counts sip counter fuel counts live) :
    ∃ filter, toBloomFilter counter counts = .ok filter ∧
      ∀ item ∈ live, containsRaw sip fuel filter item = .ok true := by
  obtain ⟨filter, built, seed, numHashes, numBits, length, bitAt⟩ := to_bloom_filter_eq_ok counter counts
  refine ⟨filter, built, fun item mem => contains_slots_eq_true _ fun i index => ?_⟩
  rw [numHashes] at index
  obtain ⟨slot, picked, inside⟩ := inv.picks item mem i index
  have outstanding := List.count_pos_iff.mpr mem
  have counted := inv.count_le_bin (List.mem_range.mp index) picked
  have test := test_eq_ok (numBits ▸ inside) (length ▸ div_eight_lt_bitvec_len inside)
  rw [bitAt slot inside, decide_eq_true (by omega)] at test
  exact ⟨slot, by rw [seed, numBits]; exact picked, numBits ▸ inside, test⟩

theorem Counts.empty (inv : Counts sip counter fuel counts []) : ∀ bin ∈ counts, bin = 0 := by
  intro x mem
  obtain ⟨bin, inside, rfl⟩ := List.getElem_of_mem mem
  have atBin := inv.bins bin
  simpa [pairCount, getCountsBin, List.getD_eq_getElem?_getD, List.getElem?_eq_getElem inside] using atBin

end Run

/-- Over every run that removes only outstanding insertions and keeps every bin
below `u32::MAX`, each bin counts the pairs of an outstanding insertion and a
hash function that pick it; removing an outstanding item returns; `count_raw`
bounds the outstanding insertions of an item, except with no hash functions;
the filter holds every outstanding item; and with none outstanding every bin
is empty. -/
theorem bins_count_outstanding_pairs {State : Type} {sip : SipHasher State} {counter : BloomCounter}
    {fuel : Nat} {counts : List Nat} {live : List (List UInt8)} (reached : Reached sip counter fuel counts live) :
    (∀ bin, getCountsBin counts bin = pairCount sip counter fuel live bin) ∧
    (∀ item ∈ live, ∃ count counts', removeRaw sip counter fuel counts item = .ok (count, counts')) ∧
    (∀ item ∈ live, ∃ count, countRaw sip counter fuel counts item = .ok count) ∧
    (∀ item count, countRaw sip counter fuel counts item = .ok count →
      live.count item ≤ count ∨ (counter.numHashes = 0 ∧ count = u32Max)) ∧
    (∃ filter, toBloomFilter counter counts = .ok filter ∧
      ∀ item ∈ live, containsRaw sip fuel filter item = .ok true) ∧
    (live = [] → ∀ bin ∈ counts, bin = 0) := by
  have inv := reached.invariant
  refine ⟨inv.bins, fun item mem => ?_, fun item mem => ?_, fun item count ran => inv.count_raw ran,
    inv.contains, ?_⟩
  · obtain ⟨count, counts', removed, -⟩ := inv.remove_raw_eq_ok mem
    exact ⟨count, counts', removed⟩
  · obtain ⟨count, counted, -⟩ := inv.count_raw_live mem
    exact ⟨count, counted⟩
  · rintro rfl
    exact inv.empty

/-- A hasher whose digest is always 5: over two bins, every item lands in bin 1. -/
def fiveHasher : SipHasher Nat := ⟨0, fun state _ => state, fun state _ => state, fun _ => 5⟩

theorem one_insertion_counted :
    Reached fiveHasher ⟨[], 2, 1⟩ 1 [0, 1] [[1]] ∧
      (∀ bin, getCountsBin [0, 1] bin = pairCount fiveHasher ⟨[], 2, 1⟩ 1 [[1]] bin) ∧
      (∀ item ∈ [[(1 : UInt8)]], ∃ count counts',
        removeRaw fiveHasher ⟨[], 2, 1⟩ 1 [0, 1] item = .ok (count, counts')) ∧
      (∀ item ∈ [[(1 : UInt8)]], ∃ count, countRaw fiveHasher ⟨[], 2, 1⟩ 1 [0, 1] item = .ok count) ∧
      (∀ item count, countRaw fiveHasher ⟨[], 2, 1⟩ 1 [0, 1] item = .ok count →
        [[(1 : UInt8)]].count item ≤ count ∨ ((⟨[], 2, 1⟩ : BloomCounter).numHashes = 0 ∧ count = u32Max)) ∧
      (∃ filter, toBloomFilter ⟨[], 2, 1⟩ [0, 1] = .ok filter ∧
        ∀ item ∈ [[(1 : UInt8)]], containsRaw fiveHasher 1 filter item = .ok true) ∧
      ([[(1 : UInt8)]] = [] → ∀ bin ∈ [0, 1], bin = 0) :=
  have reached : Reached fiveHasher ⟨[], 2, 1⟩ 1 [0, 1] [[1]] :=
    Reached.insert Reached.new
      (show insertRaw fiveHasher ⟨[], 2, 1⟩ 1 (List.replicate 2 0) [1] = .ok (0, [0, 1]) by decide) (by decide)
  ⟨reached, bins_count_outstanding_pairs reached⟩

theorem reached_replicate_without_hashes {State : Type} (sip : SipHasher State) (seed : List UInt8)
    (numBins fuel : Nat) (item : List UInt8) :
    ∀ n, Reached sip ⟨seed, numBins, 0⟩ fuel (List.replicate numBins 0) (List.replicate n item)
  | 0 => Reached.new
  | n + 1 => Reached.insert (reached_replicate_without_hashes sip seed numBins fuel item n) rfl
      fun bin mem => by simp [(List.mem_replicate.mp mem).2, u32Max]

/-- Without hash functions, `count_raw` answers `u32::MAX` after `2 ^ 32`
insertions of one item. -/
theorem count_raw_capped_without_hashes :
    Reached fiveHasher ⟨[], 1, 0⟩ 1 [0] (List.replicate (2 ^ 32) []) ∧
      countRaw fiveHasher ⟨[], 1, 0⟩ 1 [0] [] = .ok u32Max ∧
      u32Max < (List.replicate (2 ^ 32) ([] : List UInt8)).count [] := by
  refine ⟨reached_replicate_without_hashes fiveHasher [] 1 1 [] (2 ^ 32), rfl, ?_⟩
  -- the count is the number of insertions; no list of that length is built
  rw [List.count_replicate_self]
  unfold u32Max
  norm_num

end BloomCounter

end Hyperchains.Bloom
