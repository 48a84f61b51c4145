import Hyperchains.Microblocks
import Hyperchains.TransactionSpec

/-! What `validate_parent_microblock_stream` guarantees. A stream `Connects`
a block hash to a tip when each microblock names the hash of the one before it
(the first names the given hash), the sequence numbers count up by one, and the
last one hashes to the tip. Each loop of the validation is characterised once;
the validation then confirms exactly the prefix that connects the parent to the
microblock the child names, builds a poison payload only from two microblocks of
the stream that fork, and panics only on a stream out of order by sequence. -/

namespace Hyperchains.Microblocks
open Bytes Hyperchains.Transaction

variable {Rest : Type} {E : External} (crypto : Crypto) (blockHash : StacksBlockHeader Rest → BlockHeaderHash)

def Connects (prev : BlockHeaderHash) (sequence : Nat) (tip : BlockHeaderHash) : List (StacksMicroblock E) → Prop
  | [] => prev = tip
  | microblock :: rest => microblock.header.prevBlock = prev ∧ microblock.header.sequence.toNat = sequence ∧
      Connects (microblock.header.blockHash crypto) (sequence + 1) tip rest

/-! ## The first loop -/

/-- Neighbours the first loop lets through. -/
def SequenceStep (first second : StacksMicroblock E) : Prop :=
  first.header.sequence.toNat ≤ second.header.sequence.toNat ∧
    second.header.sequence.toNat ≤ first.header.sequence.toNat + 1

theorem check_sequence_order_eq_ok_true : ∀ {signed : List (StacksMicroblock E)},
    checkSequenceOrder signed = .ok true → signed.IsChain SequenceStep
  | [], _ => .nil
  | [first], _ => List.isChain_singleton first
  | first :: second :: rest, ordered => by
      by_cases descends : first.header.sequence > second.header.sequence
      · simp [checkSequenceOrder, descends] at ordered
      by_cases gap : first.header.sequence.toNat + 1 < second.header.sequence.toNat
      · simp [checkSequenceOrder, descends, gap] at ordered
      rw [checkSequenceOrder, if_neg descends, if_neg gap] at ordered
      rw [gt_iff_lt, UInt16.lt_iff_toNat_lt] at descends
      exact List.isChain_cons_cons.mpr ⟨⟨by omega, by omega⟩, check_sequence_order_eq_ok_true ordered⟩

theorem check_sequence_order_of_counts : ∀ {signed : List (StacksMicroblock E)},
    signed.IsChain (fun first second => second.header.sequence.toNat = first.header.sequence.toNat + 1) →
    checkSequenceOrder signed = .ok true
  | [], _ => rfl
  | [_], _ => rfl
  | first :: second :: rest, counts => by
      rw [List.isChain_cons_cons] at counts
      have ascends : ¬ first.header.sequence > second.header.sequence := by
        rw [gt_iff_lt, UInt16.lt_iff_toNat_lt]
        omega
      have noGap : ¬ first.header.sequence.toNat + 1 < second.header.sequence.toNat := by omega
      rw [checkSequenceOrder, if_neg ascends, if_neg noGap]
      exact check_sequence_order_of_counts counts.2

theorem check_sequence_order_ne_error : ∀ {signed : List (StacksMicroblock E)},
    signed.IsChain (fun first second => first.header.sequence ≤ second.header.sequence) →
    ∀ message, checkSequenceOrder signed ≠ .error message
  | [], _, _ => by simp [checkSequenceOrder]
  | [_], _, _ => by simp [checkSequenceOrder]
  | first :: second :: rest, sorted, message => by
      rw [List.isChain_cons_cons] at sorted
      have ascends : ¬ first.header.sequence > second.header.sequence := by
        have ordered := UInt16.le_iff_toNat_le.mp sorted.1
        rw [gt_iff_lt, UInt16.lt_iff_toNat_lt]
        omega
      rw [checkSequenceOrder, if_neg ascends]
      split_ifs
      · simp
      · exact check_sequence_order_ne_error sorted.2 message

/-- After a stretch counting up by one, a microblock with a lower sequence than
the last one makes the loop panic, whatever follows. -/
theorem check_sequence_order_descends : ∀ {front : List (StacksMicroblock E)} {last next : StacksMicroblock E}
    (rest : List (StacksMicroblock E)),
    (front ++ [last]).IsChain (fun first second => second.header.sequence.toNat = first.header.sequence.toNat + 1) →
    next.header.sequence < last.header.sequence →
    checkSequenceOrder (front ++ last :: next :: rest) = .error "BUG: out-of-sequence microblock stream"
  | [], last, next, rest, _, lower => by
      rw [List.nil_append, checkSequenceOrder, if_pos lower]
  | [first], last, next, rest, counts, lower => by
      rw [List.singleton_append, List.isChain_pair] at counts
      have ascends : ¬ first.header.sequence > last.header.sequence := by
        rw [gt_iff_lt, UInt16.lt_iff_toNat_lt]
        omega
      have noGap : ¬ first.header.sequence.toNat + 1 < last.header.sequence.toNat := by omega
      rw [List.singleton_append, checkSequenceOrder, if_neg ascends, if_neg noGap, checkSequenceOrder, if_pos lower]
  | first :: second :: front, last, next, rest, counts, lower => by
      rw [List.cons_append, List.cons_append, List.isChain_cons_cons] at counts
      have ascends : ¬ first.header.sequence > second.header.sequence := by
        rw [gt_iff_lt, UInt16.lt_iff_toNat_lt]
        omega
      have noGap : ¬ first.header.sequence.toNat + 1 < second.header.sequence.toNat := by omega
      rw [List.cons_append, List.cons_append, checkSequenceOrder, if_neg ascends, if_neg noGap, ← List.cons_append]
      exact check_sequence_order_descends rest counts.2 lower

/-! ## The second loop -/

/-- The entry the second loop puts in `parent_hashes` for a microblock. -/
def parentEntry (microblock : StacksMicroblock E) : BlockHeaderHash × StacksMicroblockHeader :=
  (microblock.header.prevBlock, microblock.header)

theorem lookup_cons_eq_none {key : BlockHeaderHash} {header : StacksMicroblockHeader}
    {parentHashes : List (BlockHeaderHash × StacksMicroblockHeader)} {prevBlock : BlockHeaderHash} :
    ((key, header) :: parentHashes).lookup prevBlock = none ↔ prevBlock ≠ key ∧ parentHashes.lookup prevBlock = none := by
  rw [List.lookup_cons]
  cases compared : (prevBlock == key)
  · have differ : prevBlock ≠ key := fun same => by simp [same] at compared
    simp only [differ, ne_eq, not_false_eq_true, true_and]
  · have same : prevBlock = key := Subtype.ext (by simpa using compared)
    simp only [same, ne_eq, not_true_eq_false, false_and, reduceCtorEq]

theorem find_duplicate_parent_eq_none_iff :
    ∀ (parentHashes : List (BlockHeaderHash × StacksMicroblockHeader)) (i : Nat) (signed : List (StacksMicroblock E)),
      findDuplicateParent parentHashes i signed = none ↔
        (signed.map fun microblock => microblock.header.prevBlock).Nodup ∧
          ∀ microblock ∈ signed, parentHashes.lookup microblock.header.prevBlock = none
  | _, _, [] => iff_of_true rfl ⟨List.nodup_nil, fun _ mem => absurd mem List.not_mem_nil⟩
  | parentHashes, i, microblock :: rest => by
      have later := find_duplicate_parent_eq_none_iff
        ((microblock.header.prevBlock, microblock.header) :: parentHashes) (i + 1) rest
      rw [findDuplicateParent]
      cases seen : parentHashes.lookup microblock.header.prevBlock with
      | some conflicting =>
          refine iff_of_false (by simp) fun ⟨_, unseen⟩ => ?_
          rw [unseen microblock List.mem_cons_self] at seen
          cases seen
      | none =>
          simp only [later, lookup_cons_eq_none, List.map_cons, List.nodup_cons, List.forall_mem_cons]
          constructor
          · rintro ⟨distinct, fresh⟩
            refine ⟨⟨fun mem => ?_, distinct⟩, seen, fun other mem => (fresh other mem).2⟩
            obtain ⟨other, mem, same⟩ := List.mem_map.mp mem
            exact (fresh other mem).1 same
          · rintro ⟨⟨notMem, distinct⟩, -, unseen⟩
            exact ⟨distinct, fun other mem =>
              ⟨fun same => notMem (List.mem_map.mpr ⟨other, mem, same⟩), unseen other mem⟩⟩

/-- The second loop's poison: the later microblock stands right after the index
it returns, and an earlier one named the same parent. `seen` is what the loop
has passed, its entries in the map. -/
theorem find_duplicate_parent_eq_some :
    ∀ (seen signed : List (StacksMicroblock E)) {i : Nat} {header conflicting : StacksMicroblockHeader},
      findDuplicateParent (seen.map parentEntry).reverse seen.length signed = some (i, header, conflicting) →
      ∃ (front : List (StacksMicroblock E)) (later : StacksMicroblock E) (back : List (StacksMicroblock E)), seen ++ signed = front ++ later :: back ∧
        front.length = i + 1 ∧ header = later.header ∧
        ∃ earlier ∈ front, conflicting = earlier.header ∧ earlier.header.prevBlock = later.header.prevBlock
  | _, [], _, _, _, found => by simp [findDuplicateParent] at found
  | seen, microblock :: rest, i, header, conflicting, found => by
      rw [findDuplicateParent] at found
      cases before : ((seen.map parentEntry).reverse).lookup microblock.header.prevBlock with
      | some earlierHeader =>
          rw [before, Option.some.injEq, Prod.mk.injEq, Prod.mk.injEq] at found
          obtain ⟨returned, rfl, rfl⟩ := found
          obtain ⟨front, back, split, -⟩ := List.lookup_eq_some_iff.mp before
          have entered : (microblock.header.prevBlock, earlierHeader) ∈ seen.map parentEntry := by
            rw [← List.mem_reverse, split]
            exact List.mem_append_right front List.mem_cons_self
          obtain ⟨earlier, inSeen, entry⟩ := List.mem_map.mp entered
          rw [parentEntry, Prod.mk.injEq] at entry
          have passed : 0 < seen.length := List.length_pos_of_mem inSeen
          exact ⟨seen, microblock, rest, rfl, by omega, rfl, earlier, inSeen, entry.2.symm, entry.1⟩
      | none =>
          rw [before] at found
          have step := find_duplicate_parent_eq_some (seen ++ [microblock]) rest
            (by simpa [parentEntry] using found)
          simpa using step

/-! ## The third loop -/

/-- Neighbours the third loop lets through. -/
def HashStep (first second : StacksMicroblock E) : Prop :=
  (first.header.sequence = second.header.sequence →
      first.header.blockHash crypto = second.header.blockHash crypto) ∧
    first.header.blockHash crypto = second.header.prevBlock

theorem check_hash_links_eq_none_iff : ∀ (i : Nat) (signed : List (StacksMicroblock E)),
    checkHashLinks crypto i signed = none ↔ signed.IsChain (HashStep crypto)
  | _, [] => by simp [checkHashLinks]
  | _, [first] => by simp [checkHashLinks]
  | i, first :: second :: rest => by
      rw [checkHashLinks, List.isChain_cons_cons, ← check_hash_links_eq_none_iff (i + 1)]
      by_cases fork : first.header.sequence = second.header.sequence ∧
          first.header.blockHash crypto ≠ second.header.blockHash crypto
      · rw [if_pos fork]
        exact iff_of_false (by simp) fun ⟨⟨same, _⟩, _⟩ => fork.2 (same fork.1)
      by_cases broken : first.header.blockHash crypto ≠ second.header.prevBlock
      · rw [if_neg fork, if_pos broken]
        exact iff_of_false (by simp) fun ⟨⟨_, linked⟩, _⟩ => broken linked
      rw [if_neg fork, if_neg broken]
      have step : HashStep crypto first second :=
        ⟨fun same => not_not.mp fun differ => fork ⟨same, differ⟩, not_not.mp broken⟩
      exact ⟨fun later => ⟨step, later⟩, And.right⟩

/-- The third loop's poison: two neighbours with one sequence and two hashes,
the first at the index it returns. -/
theorem check_hash_links_eq_some_some : ∀ (i : Nat) {signed : List (StacksMicroblock E)} {j : Nat}
    {poison : Option (TransactionPayload E)},
    checkHashLinks crypto i signed = some (some (j, poison)) →
    ∃ (front : List (StacksMicroblock E)) (earlier later : StacksMicroblock E) (back : List (StacksMicroblock E)), signed = front ++ earlier :: later :: back ∧
      j = i + front.length ∧
      poison = some (.poisonMicroblock earlier.header later.header) ∧
      earlier.header.sequence = later.header.sequence ∧
      earlier.header.blockHash crypto ≠ later.header.blockHash crypto
  | _, [], _, _, found => by simp [checkHashLinks] at found
  | _, [_], _, _, found => by simp [checkHashLinks] at found
  | i, first :: second :: rest, j, poison, found => by
      rw [checkHashLinks] at found
      split_ifs at found with fork broken
      · simp only [Option.some.injEq, Prod.mk.injEq] at found
        obtain ⟨rfl, rfl⟩ := found
        exact ⟨[], first, second, rest, rfl, rfl, rfl, fork.1, fork.2⟩
      · cases found
      · obtain ⟨front, earlier, later, back, split, index, payload, same, differ⟩ :=
          check_hash_links_eq_some_some (i + 1) found
        refine ⟨first :: front, earlier, later, back, by rw [split, List.cons_append], ?_, payload, same, differ⟩
        rw [index, List.length_cons]
        omega

/-! ## Connected streams -/

theorem connects_append : ∀ {prev : BlockHeaderHash} {sequence : Nat} {mid tip : BlockHeaderHash}
    {front back : List (StacksMicroblock E)},
    Connects crypto prev sequence mid front → Connects crypto mid (sequence + front.length) tip back →
    Connects crypto prev sequence tip (front ++ back)
  | _, _, _, _, [], _, toMid, beyond => by
      rw [Connects] at toMid
      subst toMid
      simpa using beyond
  | _, sequence, _, _, microblock :: front, _, ⟨named, counted, rest⟩, beyond => by
      have shifted : sequence + (microblock :: front).length = sequence + 1 + front.length := by
        rw [List.length_cons]
        omega
      rw [shifted] at beyond
      exact ⟨named, counted, connects_append rest beyond⟩

/-- Neighbours of a connected stream: the sequence goes up by one and the second
names the hash of the first. -/
theorem Connects.is_chain : ∀ {prev : BlockHeaderHash} {sequence : Nat} {tip : BlockHeaderHash}
    {signed : List (StacksMicroblock E)}, Connects crypto prev sequence tip signed →
    signed.IsChain fun first second => second.header.sequence.toNat = first.header.sequence.toNat + 1 ∧
      first.header.blockHash crypto = second.header.prevBlock
  | _, _, _, [], _ => .nil
  | _, _, _, [_], _ => List.isChain_singleton _
  | _, _, _, _ :: _ :: _, ⟨_, counted, named, counted', rest⟩ =>
      List.isChain_cons_cons.mpr ⟨⟨by omega, named.symm⟩, Connects.is_chain ⟨named, counted', rest⟩⟩

theorem Connects.hash_steps {prev : BlockHeaderHash} {sequence : Nat} {tip : BlockHeaderHash}
    {signed : List (StacksMicroblock E)} (connects : Connects crypto prev sequence tip signed) :
    signed.IsChain (HashStep crypto) :=
  (connects.is_chain crypto).imp fun first second ⟨up, linked⟩ =>
    ⟨fun same => absurd (congrArg UInt16.toNat same) (by omega), linked⟩

theorem Connects.prev_blocks : ∀ {prev : BlockHeaderHash} {sequence : Nat} {tip : BlockHeaderHash}
    {signed : List (StacksMicroblock E)}, Connects crypto prev sequence tip signed →
    (signed.map fun microblock => microblock.header.prevBlock) =
      (prev :: signed.map fun microblock => microblock.header.blockHash crypto).dropLast
  | _, _, _, [], _ => rfl
  | _, _, _, _ :: _, ⟨named, _, rest⟩ => by
      rw [List.map_cons, List.map_cons, List.dropLast_cons_cons, Connects.prev_blocks rest, named]

/-- What the three loops let through, cut after the first microblock that hashes
to the tip, connects: a sequence that does not go up forks by one hash, which
either repeats a parent or leaves the tip to the earlier one. -/
theorem connects_take_of_find_idx : ∀ {first : StacksMicroblock E} {rest : List (StacksMicroblock E)}
    {prev : BlockHeaderHash} {sequence k : Nat} {tip : BlockHeaderHash},
    first.header.prevBlock = prev → first.header.sequence.toNat = sequence →
    (first :: rest).IsChain SequenceStep → (first :: rest).IsChain (HashStep crypto) →
    ((first :: rest).map fun microblock => microblock.header.prevBlock).Nodup →
    (first :: rest).findIdx? (fun microblock => microblock.header.blockHash crypto = tip) = some k →
    Connects crypto prev sequence tip ((first :: rest).take (k + 1))
  | first, rest, _, _, k, tip, named, counted, steps, links, distinct, found => by
      rw [List.findIdx?_cons] at found
      simp only [decide_eq_true_eq] at found
      by_cases reached : first.header.blockHash crypto = tip
      · rw [if_pos reached, Option.some.injEq] at found
        subst found
        exact ⟨named, counted, reached⟩
      rw [if_neg reached] at found
      obtain ⟨k', foundRest, rfl⟩ := Option.map_eq_some_iff.mp found
      cases rest with
      | nil => simp at foundRest
      | cons second rest =>
          rw [List.isChain_cons_cons] at steps links
          obtain ⟨⟨up, atMostOne⟩, steps⟩ := steps
          obtain ⟨⟨sameHash, linked⟩, links⟩ := links
          have next : second.header.sequence.toNat = first.header.sequence.toNat + 1 := by
            by_contra notNext
            have forked := sameHash (UInt16.toNat_inj.mp (by omega))
            cases rest with
            | nil =>
                rw [List.findIdx?_cons] at foundRest
                simp only [decide_eq_true_eq, List.findIdx?_nil, Option.map_none] at foundRest
                split_ifs at foundRest with tipped
                exact reached (forked.trans tipped)
            | cons third rest =>
                rw [List.isChain_cons_cons] at links
                have repeated : third.header.prevBlock = second.header.prevBlock := by
                  rw [← links.1.2, ← forked, linked]
                rw [List.map_cons, List.map_cons, List.map_cons, List.nodup_cons, List.nodup_cons] at distinct
                exact distinct.2.1 (repeated ▸ List.mem_cons_self)
          rw [List.take_succ_cons]
          exact ⟨named, counted, connects_take_of_find_idx linked.symm (by omega) steps links
            (List.nodup_cons.mp distinct).2 foundRest⟩

theorem Connects.tip : ∀ {prev : BlockHeaderHash} {sequence : Nat} {tip : BlockHeaderHash}
    {front : List (StacksMicroblock E)} {last : StacksMicroblock E},
    Connects crypto prev sequence tip (front ++ [last]) → last.header.blockHash crypto = tip
  | _, _, _, [], _, ⟨_, _, reached⟩ => reached
  | _, _, _, _ :: _, _, ⟨_, _, rest⟩ => Connects.tip rest

/-! ## The validation -/

/-- What the part after the start checks can answer: nothing, a poison from the
second loop, what the third loop returns, or the count up to the microblock the
child names. -/
theorem validate_signed_stream_eq_ok {anchored : StacksBlockHeader Rest} {signed : List (StacksMicroblock E)}
    {result : Option (Nat × Option (TransactionPayload E))}
    (validated : validateSignedStream crypto anchored signed = .ok result) :
    result = none ∨
      checkSequenceOrder signed = .ok true ∧ (∃ i header conflicting,
        findDuplicateParent [] 0 signed = some (i, header, conflicting) ∧
          result = some (i, some (.poisonMicroblock header conflicting))) ∨
      checkSequenceOrder signed = .ok true ∧ findDuplicateParent [] 0 signed = none ∧
        checkHashLinks crypto 0 signed = some result ∨
      checkSequenceOrder signed = .ok true ∧ findDuplicateParent [] 0 signed = none ∧
        checkHashLinks crypto 0 signed = none ∧ anchored.confirmsNoMicroblocks = false ∧
        result = (signed.findIdx? fun microblock =>
          microblock.header.blockHash crypto = anchored.parentMicroblock).map (fun i => (i + 1, none)) ∨
      result = some (0, none) ∧ anchored.confirmsNoMicroblocks = true := by
  rw [validateSignedStream] at validated
  cases ordered : checkSequenceOrder signed with
  | error message => rw [ordered] at validated; cases validated
  | ok contiguous =>
      rw [ordered] at validated
      cases contiguous with
      | false => exact .inl (Except.ok.inj validated).symm
      | true =>
          cases duplicate : findDuplicateParent [] 0 signed with
          | some found =>
              obtain ⟨i, header, conflicting⟩ := found
              simp only [duplicate] at validated
              exact .inr (.inl ⟨rfl, i, header, conflicting, rfl, (Except.ok.inj validated).symm⟩)
          | none =>
              cases links : checkHashLinks crypto 0 signed with
              | some returned =>
                  simp only [duplicate, links] at validated
                  exact .inr (.inr (.inl ⟨rfl, rfl, by rw [(Except.ok.inj validated)]⟩))
              | none =>
                  simp only [duplicate, links] at validated
                  cases confirms : anchored.confirmsNoMicroblocks
                  · simp only [confirms] at validated
                    exact .inr (.inr (.inr (.inl ⟨rfl, rfl, rfl, rfl, (Except.ok.inj validated).symm⟩)))
                  · simp only [confirms] at validated
                    exact .inr (.inr (.inr (.inr ⟨(Except.ok.inj validated).symm, rfl⟩)))

theorem validate_signed_stream_of_checks {anchored : StacksBlockHeader Rest} {signed : List (StacksMicroblock E)}
    (ordered : checkSequenceOrder signed = .ok true) (unique : findDuplicateParent [] 0 signed = none)
    (links : checkHashLinks crypto 0 signed = none) :
    validateSignedStream crypto anchored signed =
      .ok (if anchored.confirmsNoMicroblocks then some (0, none)
        else (signed.findIdx? fun microblock =>
          microblock.header.blockHash crypto = anchored.parentMicroblock).map fun i => (i + 1, none)) := by
  simp only [validateSignedStream, ordered, unique, links]
  split <;> rfl

theorem validate_signed_stream_eq_error {anchored : StacksBlockHeader Rest} {signed : List (StacksMicroblock E)}
    {message : String} :
    validateSignedStream crypto anchored signed = .error message ↔ checkSequenceOrder signed = .error message := by
  rw [validateSignedStream]
  cases ordered : checkSequenceOrder signed with
  | error failure => simp only [bind, Except.bind, Except.error.injEq]
  | ok contiguous =>
      refine iff_of_false ?_ (by simp)
      cases contiguous
      · simp
      · simp only [bind, Except.bind, pure, Except.pure, Bool.not_true, Bool.false_eq_true, if_false]
        split
        · simp
        · split
          · simp
          · split <;> simp

/-- What the validation can answer: nothing, an empty confirmation, or what the
rest answers for a signed stream that starts at sequence 0 from the parent. -/
theorem validate_parent_microblock_stream_eq_ok {parent anchored : StacksBlockHeader Rest}
    {microblocks : List (StacksMicroblock E)} {verifySignatures : Bool}
    {result : Option (Nat × Option (TransactionPayload E))}
    (validated : validateParentMicroblockStream crypto blockHash parent anchored microblocks verifySignatures =
      .ok result) :
    result = none ∨ result = some (0, none) ∧ anchored.confirmsNoMicroblocks = true ∨
      anchored.isFirstMined = false ∧ ∃ (first : StacksMicroblock E) (rest : List (StacksMicroblock E)),
        signedMicroblocks crypto parent microblocks verifySignatures = first :: rest ∧
        first.header.sequence = 0 ∧ first.header.prevBlock = blockHash parent ∧
        validateSignedStream crypto anchored (first :: rest) = .ok result := by
  -- the answer when the child confirms no microblocks, or else none
  have empty : ∀ (confirms : Bool) (answer : Option (Nat × Option (TransactionPayload E))),
      confirms = anchored.confirmsNoMicroblocks → (if confirms then some (0, none) else none) = answer →
      answer = none ∨ answer = some (0, none) ∧ anchored.confirmsNoMicroblocks = true := by
    rintro (_ | _) answer confirms rfl
    · exact .inl rfl
    · exact .inr ⟨rfl, confirms.symm⟩
  rw [validateParentMicroblockStream] at validated
  cases firstMined : anchored.isFirstMined
  · rw [if_neg (by simp [firstMined])] at validated
    cases signed : signedMicroblocks crypto parent microblocks verifySignatures with
    | nil =>
        rw [signed] at validated
        exact (empty _ _ rfl (Except.ok.inj validated)).elim .inl fun emptied => .inr (.inl emptied)
    | cons first rest =>
        simp only [signed] at validated
        by_cases counted : first.header.sequence = 0
        · by_cases named : first.header.prevBlock = blockHash parent
          · rw [if_neg (not_not.mpr counted), if_neg (not_not.mpr named)] at validated
            exact .inr (.inr ⟨rfl, first, rest, rfl, counted, named, validated⟩)
          · rw [if_neg (not_not.mpr counted), if_pos named] at validated
            exact .inl (Except.ok.inj validated).symm
        · rw [if_pos counted] at validated
          exact .inl (Except.ok.inj validated).symm
  · rw [if_pos firstMined] at validated
    exact (empty _ _ rfl (Except.ok.inj validated)).elim .inl fun emptied => .inr (.inl emptied)

/-! A parent, two microblocks streamed after it and a child naming one of them,
for the witnesses: the sample hash keeps the first 32 bytes it is given. -/

def prefixCrypto : Crypto := ⟨fun bytes => ⟨(bytes ++ List.replicate 32 0).take 32, by
  rw [List.length_take, List.length_append, List.length_replicate]
  omega⟩, fun _ _ => none⟩

def sampleHash (_ : StacksBlockHeader Unit) : BlockHeaderHash := ⟨List.replicate 32 7, List.length_replicate⟩

def sampleHeader (parentBlock parentMicroblock : BlockHeaderHash) (sequence : UInt16) : StacksBlockHeader Unit :=
  ⟨parentBlock, parentMicroblock, sequence, ⟨List.replicate 20 2, List.length_replicate⟩, ()⟩

def sampleParent : StacksBlockHeader Unit := sampleHeader ⟨List.replicate 32 1, List.length_replicate⟩ emptyMicroblockParentHash 0

def sampleMicroblock (sequence : UInt16) (prevBlock : BlockHeaderHash) (root : UInt8) : StacksMicroblock unitExternal :=
  ⟨⟨1, sequence, prevBlock, ⟨List.replicate 32 root, List.length_replicate⟩, []⟩, []⟩

def firstMicroblock : StacksMicroblock unitExternal := sampleMicroblock 0 (sampleHash sampleParent) 0

def secondMicroblock : StacksMicroblock unitExternal :=
  sampleMicroblock 1 (firstMicroblock.header.blockHash prefixCrypto) 0

/-- The child of `sampleParent` that confirms the stream up to `tip`. -/
def sampleChild (tip : StacksMicroblock unitExternal) : StacksBlockHeader Unit :=
  sampleHeader ⟨List.replicate 32 2, List.length_replicate⟩ (tip.header.blockHash prefixCrypto) tip.header.sequence

/-- A validation that confirms microblocks without a poison confirms a prefix of
the signed stream that connects the parent block to the microblock the child
names, sequence numbers counting from 0. -/
theorem validate_parent_microblock_stream_connects {parent anchored : StacksBlockHeader Rest}
    {microblocks : List (StacksMicroblock E)} {verifySignatures : Bool} {confirmed : Nat}
    (validated : validateParentMicroblockStream crypto blockHash parent anchored microblocks verifySignatures =
      .ok (some (confirmed, none)))
    (named : anchored.confirmsNoMicroblocks = false) :
    0 < confirmed ∧ confirmed ≤ (signedMicroblocks crypto parent microblocks verifySignatures).length ∧
      Connects crypto (blockHash parent) 0 anchored.parentMicroblock
        ((signedMicroblocks crypto parent microblocks verifySignatures).take confirmed) := by
  rcases validate_parent_microblock_stream_eq_ok crypto blockHash validated with
    answered | ⟨_, confirms⟩ | ⟨_, first, rest, signed, counted, linked, checked⟩
  · cases answered
  · rw [named] at confirms
    cases confirms
  rw [signed]
  rcases validate_signed_stream_eq_ok crypto checked with
    answered | ⟨_, _, _, _, _, poisoned⟩ | ⟨_, _, links⟩ | ⟨ordered, unique, links, _, found⟩ | ⟨_, confirms⟩
  · cases answered
  · cases poisoned
  · obtain ⟨_, _, _, _, _, _, poison, _⟩ := check_hash_links_eq_some_some crypto 0 links
    cases poison
  · obtain ⟨k, foundAt, index⟩ := Option.map_eq_some_iff.mp found.symm
    cases index
    have inside := (List.findIdx?_eq_some_iff_findIdx_eq.mp foundAt).1
    refine ⟨Nat.succ_pos k, inside, ?_⟩
    apply connects_take_of_find_idx crypto linked (by rw [counted]; rfl)
      (check_sequence_order_eq_ok_true ordered) ((check_hash_links_eq_none_iff crypto 0 _).mp links)
      ((find_duplicate_parent_eq_none_iff [] 0 _).mp unique).1 foundAt
  · rw [named] at confirms
    cases confirms

theorem two_microblocks_connect :
    validateParentMicroblockStream prefixCrypto sampleHash sampleParent (sampleChild secondMicroblock)
        [firstMicroblock, secondMicroblock] false = .ok (some (2, none)) ∧
      (sampleChild secondMicroblock).confirmsNoMicroblocks = false ∧
      0 < 2 ∧ 2 ≤ (signedMicroblocks prefixCrypto sampleParent [firstMicroblock, secondMicroblock] false).length ∧
        Connects prefixCrypto (sampleHash sampleParent) 0 (sampleChild secondMicroblock).parentMicroblock
          ((signedMicroblocks prefixCrypto sampleParent [firstMicroblock, secondMicroblock] false).take 2) :=
  have validated : validateParentMicroblockStream prefixCrypto sampleHash sampleParent (sampleChild secondMicroblock)
      [firstMicroblock, secondMicroblock] false = .ok (some (2, none)) := by rfl
  ⟨validated, by rfl, validate_parent_microblock_stream_connects prefixCrypto sampleHash validated (by rfl)⟩

/-- A poison payload is evidence from the stream: two signed microblocks at two
places, the later one right after the returned index, that name the same parent
or carry one sequence number with two hashes. -/
theorem validate_parent_microblock_stream_poison {parent anchored : StacksBlockHeader Rest}
    {microblocks : List (StacksMicroblock E)} {verifySignatures : Bool} {i : Nat} {payload : TransactionPayload E}
    (validated : validateParentMicroblockStream crypto blockHash parent anchored microblocks verifySignatures =
      .ok (some (i, some payload))) :
    (∃ (front : List (StacksMicroblock E)) (later : StacksMicroblock E) (back : List (StacksMicroblock E)),
        signedMicroblocks crypto parent microblocks verifySignatures = front ++ later :: back ∧
        front.length = i + 1 ∧ ∃ earlier ∈ front,
          payload = .poisonMicroblock later.header earlier.header ∧ earlier.header.prevBlock = later.header.prevBlock) ∨
      ∃ (front : List (StacksMicroblock E)) (earlier later : StacksMicroblock E) (back : List (StacksMicroblock E)),
        signedMicroblocks crypto parent microblocks verifySignatures =
          front ++ earlier :: later :: back ∧ front.length = i ∧
        payload = .poisonMicroblock earlier.header later.header ∧ earlier.header.sequence = later.header.sequence ∧
        earlier.header.blockHash crypto ≠ later.header.blockHash crypto := by
  rcases validate_parent_microblock_stream_eq_ok crypto blockHash validated with
    answered | ⟨answered, _⟩ | ⟨_, first, rest, signed, _, _, checked⟩
  · cases answered
  · cases answered
  rw [signed]
  rcases validate_signed_stream_eq_ok crypto checked with
    answered | ⟨_, i', header, conflicting, duplicate, poisoned⟩ | ⟨_, _, links⟩ | ⟨_, _, _, _, found⟩ |
      ⟨answered, _⟩
  · cases answered
  · rw [Option.some.injEq, Prod.mk.injEq, Option.some.injEq] at poisoned
    obtain ⟨rfl, rfl⟩ := poisoned
    obtain ⟨front, later, back, split, length, rfl, earlier, inFront, rfl, sameParent⟩ :=
      find_duplicate_parent_eq_some [] (first :: rest) duplicate
    exact .inl ⟨front, later, back, split, length, earlier, inFront, rfl, sameParent⟩
  · obtain ⟨front, earlier, later, back, split, index, poison, same, differ⟩ :=
      check_hash_links_eq_some_some crypto 0 links
    rw [Option.some.injEq] at poison
    exact .inr ⟨front, earlier, later, back, split, by omega, poison, same, differ⟩
  · obtain ⟨_, _, index⟩ := Option.map_eq_some_iff.mp found.symm
    simp at index
  · cases answered

/-- A second microblock with the same parent as `secondMicroblock`. -/
def forkedMicroblock : StacksMicroblock unitExternal :=
  sampleMicroblock 1 (firstMicroblock.header.blockHash prefixCrypto) 5

theorem forked_stream_poisoned :
    validateParentMicroblockStream prefixCrypto sampleHash sampleParent (sampleChild secondMicroblock)
        [firstMicroblock, secondMicroblock, forkedMicroblock] false =
      .ok (some (1, some (.poisonMicroblock forkedMicroblock.header secondMicroblock.header))) ∧
      ((∃ (front : List (StacksMicroblock unitExternal)) (later : StacksMicroblock unitExternal) (back : List (StacksMicroblock unitExternal)), signedMicroblocks prefixCrypto sampleParent
            [firstMicroblock, secondMicroblock, forkedMicroblock] false = front ++ later :: back ∧
          front.length = 1 + 1 ∧ ∃ earlier ∈ front,
            (.poisonMicroblock forkedMicroblock.header secondMicroblock.header : TransactionPayload unitExternal) =
              .poisonMicroblock later.header earlier.header ∧ earlier.header.prevBlock = later.header.prevBlock) ∨
        ∃ (front : List (StacksMicroblock unitExternal)) (earlier later : StacksMicroblock unitExternal) (back : List (StacksMicroblock unitExternal)), signedMicroblocks prefixCrypto sampleParent
            [firstMicroblock, secondMicroblock, forkedMicroblock] false = front ++ earlier :: later :: back ∧
          front.length = 1 ∧
          (.poisonMicroblock forkedMicroblock.header secondMicroblock.header : TransactionPayload unitExternal) =
            .poisonMicroblock earlier.header later.header ∧
          earlier.header.sequence = later.header.sequence ∧
          earlier.header.blockHash prefixCrypto ≠ later.header.blockHash prefixCrypto) :=
  have validated : validateParentMicroblockStream prefixCrypto sampleHash sampleParent (sampleChild secondMicroblock)
      [firstMicroblock, secondMicroblock, forkedMicroblock] false =
      .ok (some (1, some (.poisonMicroblock forkedMicroblock.header secondMicroblock.header))) := by rfl
  ⟨validated, validate_parent_microblock_stream_poison prefixCrypto sampleHash validated⟩

/-- A signed stream made of the prefix that connects the parent to the
microblock the child names and of more microblocks linked after it is confirmed
up to that microblock, with no poison, when the hashes of the parent and of the
stream are distinct. -/
theorem validate_parent_microblock_stream_confirms {parent anchored : StacksBlockHeader Rest}
    {microblocks : List (StacksMicroblock E)} {verifySignatures : Bool}
    {confirmed unconfirmed : List (StacksMicroblock E)} {tip : BlockHeaderHash}
    (notFirst : anchored.isFirstMined = false) (named : anchored.confirmsNoMicroblocks = false)
    (signed : signedMicroblocks crypto parent microblocks verifySignatures = confirmed ++ unconfirmed)
    (nonempty : confirmed ≠ [])
    (toParent : Connects crypto (blockHash parent) 0 anchored.parentMicroblock confirmed)
    (beyond : Connects crypto anchored.parentMicroblock confirmed.length tip unconfirmed)
    (distinct : (blockHash parent :: (confirmed ++ unconfirmed).map fun microblock =>
      microblock.header.blockHash crypto).Nodup) :
    validateParentMicroblockStream crypto blockHash parent anchored microblocks verifySignatures =
      .ok (some (confirmed.length, none)) := by
  have whole : Connects crypto (blockHash parent) 0 tip (confirmed ++ unconfirmed) :=
    connects_append crypto toParent (by rwa [Nat.zero_add])
  have unique : findDuplicateParent [] 0 (confirmed ++ unconfirmed) = none := by
    refine (find_duplicate_parent_eq_none_iff [] 0 _).mpr ⟨?_, fun _ _ => rfl⟩
    rw [whole.prev_blocks crypto]
    exact distinct.sublist (List.dropLast_sublist _)
  -- the first microblock the child confirms that hashes to its parent microblock is the last one
  have found : ((confirmed ++ unconfirmed).findIdx? fun microblock =>
      microblock.header.blockHash crypto = anchored.parentMicroblock) = some (confirmed.length - 1) := by
    obtain ⟨front, last, rfl⟩ := (List.eq_nil_or_concat' confirmed).resolve_left nonempty
    have reached := toParent.tip crypto
    rw [List.map_append, List.map_append, List.nodup_cons, List.nodup_append, List.nodup_append] at distinct
    have missed : ∀ earlier ∈ front, decide (earlier.header.blockHash crypto = anchored.parentMicroblock) = false := by
      intro earlier mem
      rw [decide_eq_false_iff_not, ← reached]
      exact distinct.2.1.2.2 _ (List.mem_map_of_mem mem) _ (by simp)
    rw [List.append_assoc, List.findIdx?_append, List.findIdx?_eq_none_iff.mpr missed, Option.none_or,
      List.singleton_append, List.findIdx?_cons, decide_eq_true reached]
    simp
  cases stream : confirmed ++ unconfirmed with
  | nil => exact absurd (List.append_eq_nil_iff.mp stream).1 nonempty
  | cons first rest =>
      rw [stream] at whole unique found
      obtain ⟨linked, counted, -⟩ := id whole
      have zero : first.header.sequence = 0 := UInt16.toNat_inj.mp counted
      rw [validateParentMicroblockStream, if_neg (by simp [notFirst]), signed, stream]
      simp only [zero, linked, ne_eq, not_true_eq_false, if_false]
      rw [validate_signed_stream_of_checks crypto
        (check_sequence_order_of_counts ((whole.is_chain crypto).imp fun _ _ step => step.1)) unique
        ((check_hash_links_eq_none_iff crypto 0 _).mpr (whole.hash_steps crypto)), named, found]
      have positive : 0 < confirmed.length := List.length_pos_of_ne_nil nonempty
      simp only [Bool.false_eq_true, if_false, Option.map_some]
      rw [Nat.sub_add_cancel positive]

theorem first_of_two_microblocks_confirmed :
    (sampleChild firstMicroblock).isFirstMined = false ∧ (sampleChild firstMicroblock).confirmsNoMicroblocks = false ∧
      signedMicroblocks prefixCrypto sampleParent [firstMicroblock, secondMicroblock] false =
        [firstMicroblock] ++ [secondMicroblock] ∧ [firstMicroblock] ≠ [] ∧
      Connects prefixCrypto (sampleHash sampleParent) 0 (sampleChild firstMicroblock).parentMicroblock
        [firstMicroblock] ∧
      Connects prefixCrypto (sampleChild firstMicroblock).parentMicroblock [firstMicroblock].length
        (secondMicroblock.header.blockHash prefixCrypto) [secondMicroblock] ∧
      (sampleHash sampleParent :: ([firstMicroblock] ++ [secondMicroblock]).map fun microblock =>
        microblock.header.blockHash prefixCrypto).Nodup ∧
      validateParentMicroblockStream prefixCrypto sampleHash sampleParent (sampleChild firstMicroblock)
        [firstMicroblock, secondMicroblock] false = .ok (some ([firstMicroblock].length, none)) :=
  have notFirst : (sampleChild firstMicroblock).isFirstMined = false := by rfl
  have named : (sampleChild firstMicroblock).confirmsNoMicroblocks = false := by rfl
  have toParent : Connects prefixCrypto (sampleHash sampleParent) 0 (sampleChild firstMicroblock).parentMicroblock
      [firstMicroblock] := ⟨rfl, rfl, rfl⟩
  have beyond : Connects prefixCrypto (sampleChild firstMicroblock).parentMicroblock [firstMicroblock].length
      (secondMicroblock.header.blockHash prefixCrypto) [secondMicroblock] := ⟨rfl, rfl, rfl⟩
  have distinct : (sampleHash sampleParent :: ([firstMicroblock] ++ [secondMicroblock]).map fun microblock =>
      microblock.header.blockHash prefixCrypto).Nodup := by decide
  ⟨notFirst, named, rfl, List.cons_ne_nil _ _, toParent, beyond, distinct,
    validate_parent_microblock_stream_confirms prefixCrypto sampleHash notFirst named rfl (List.cons_ne_nil _ _)
      toParent beyond distinct⟩

theorem validate_parent_microblock_stream_eq_error {parent anchored : StacksBlockHeader Rest}
    {microblocks : List (StacksMicroblock E)} {verifySignatures : Bool} {message : String}
    (failed : validateParentMicroblockStream crypto blockHash parent anchored microblocks verifySignatures =
      .error message) :
    ∃ (first : StacksMicroblock E) (rest : List (StacksMicroblock E)), signedMicroblocks crypto parent microblocks verifySignatures = first :: rest ∧
      checkSequenceOrder (first :: rest) = .error message := by
  rw [validateParentMicroblockStream] at failed
  by_cases firstMined : anchored.isFirstMined
  · rw [if_pos firstMined] at failed
    cases failed
  rw [if_neg firstMined] at failed
  cases signed : signedMicroblocks crypto parent microblocks verifySignatures with
  | nil =>
      rw [signed] at failed
      cases failed
  | cons first rest =>
      simp only [signed] at failed
      split_ifs at failed
      exact ⟨first, rest, rfl, (validate_signed_stream_eq_error crypto).mp failed⟩

theorem signed_microblocks_sublist (parent : StacksBlockHeader Rest) (microblocks : List (StacksMicroblock E))
    (verifySignatures : Bool) : (signedMicroblocks crypto parent microblocks verifySignatures).Sublist microblocks := by
  cases verifySignatures
  · exact List.Sublist.refl _
  · exact List.filter_sublist

/-- Microblocks in order by sequence, as the staging database loads them, never
make the validation panic. -/
theorem validate_parent_microblock_stream_ordered_no_panic {parent anchored : StacksBlockHeader Rest}
    {microblocks : List (StacksMicroblock E)} (verifySignatures : Bool)
    (sorted : microblocks.Pairwise fun first second => first.header.sequence ≤ second.header.sequence)
    (message : String) :
    validateParentMicroblockStream crypto blockHash parent anchored microblocks verifySignatures ≠ .error message := by
  intro failed
  obtain ⟨first, rest, signed, panicked⟩ := validate_parent_microblock_stream_eq_error crypto blockHash failed
  have ordered := (sorted.sublist (signed_microblocks_sublist crypto parent microblocks verifySignatures)).isChain
  rw [signed] at ordered
  exact check_sequence_order_ne_error ordered message panicked

theorem ordered_stream_no_panic :
    [firstMicroblock, secondMicroblock, forkedMicroblock].Pairwise
        (fun first second => first.header.sequence ≤ second.header.sequence) ∧
      validateParentMicroblockStream prefixCrypto sampleHash sampleParent (sampleChild secondMicroblock)
        [firstMicroblock, secondMicroblock, forkedMicroblock] true ≠ .error "BUG: out-of-sequence microblock stream" :=
  have sorted : [firstMicroblock, secondMicroblock, forkedMicroblock].Pairwise
      (fun first second => first.header.sequence ≤ second.header.sequence) := by decide
  ⟨sorted, validate_parent_microblock_stream_ordered_no_panic prefixCrypto sampleHash true sorted _⟩

theorem Connects.last_sequence : ∀ {prev : BlockHeaderHash} {sequence : Nat} {tip : BlockHeaderHash}
    {front : List (StacksMicroblock E)} {last : StacksMicroblock E},
    Connects crypto prev sequence tip (front ++ [last]) → last.header.sequence.toNat = sequence + front.length
  | _, _, _, [], _, ⟨_, counted, _⟩ => counted
  | _, sequence, _, _ :: front, _, ⟨_, _, rest⟩ => by
      rw [Connects.last_sequence rest, List.length_cons]
      omega

/-- A stream that leads from the parent and then repeats a microblock of a lower
sequence (a peer can send any list of microblocks the parent's miner signed)
makes the validation panic, whatever follows. -/
theorem validate_parent_microblock_stream_replay_panics {parent anchored : StacksBlockHeader Rest}
    {chain back : List (StacksMicroblock E)} {replayed : StacksMicroblock E} {verifySignatures : Bool}
    {tip : BlockHeaderHash}
    (notFirst : anchored.isFirstMined = false)
    (connects : Connects crypto (blockHash parent) 0 tip chain)
    (signed : verifySignatures = true → ∀ microblock ∈ replayed :: chain,
      (microblock.header.verify crypto parent.microblockPubkeyHash).toBool = true)
    (lower : replayed.header.sequence.toNat + 1 < chain.length) :
    validateParentMicroblockStream crypto blockHash parent anchored (chain ++ replayed :: back) verifySignatures =
      .error "BUG: out-of-sequence microblock stream" := by
  -- the signed stream keeps the chain and the replayed microblock in place
  obtain ⟨kept, stream⟩ : ∃ kept : List (StacksMicroblock E), signedMicroblocks crypto parent (chain ++ replayed :: back) verifySignatures =
      chain ++ replayed :: kept := by
    cases verifySignatures
    · exact ⟨back, rfl⟩
    · have valid := signed rfl
      refine ⟨extractSignedMicroblocks crypto parent back, ?_⟩
      rw [signedMicroblocks, if_pos rfl, extractSignedMicroblocks, List.filter_append,
        List.filter_eq_self.mpr fun microblock mem => valid microblock (List.mem_cons_of_mem _ mem),
        List.filter_cons, if_pos (valid replayed List.mem_cons_self)]
      rfl
  obtain ⟨front, last, rfl⟩ := (List.eq_nil_or_concat' chain).resolve_left (by
    rintro rfl
    simp at lower)
  have descends : replayed.header.sequence < last.header.sequence := by
    rw [UInt16.lt_iff_toNat_lt, connects.last_sequence crypto]
    rw [List.length_append, List.length_singleton] at lower
    omega
  have panicked := check_sequence_order_descends kept
    ((connects.is_chain crypto).imp fun _ _ step => step.1) descends
  simp only [List.append_assoc, List.singleton_append] at stream
  cases whole : front ++ last :: replayed :: kept with
  | nil => simp at whole
  | cons first rest =>
      rw [whole] at stream panicked
      have start : first.header.prevBlock = blockHash parent ∧ first.header.sequence.toNat = 0 := by
        cases front with
        | nil =>
            rw [List.nil_append, List.cons.injEq] at whole
            rw [← whole.1]
            exact ⟨connects.1, connects.2.1⟩
        | cons head front =>
            rw [List.cons_append, List.cons.injEq] at whole
            rw [← whole.1]
            exact ⟨connects.1, connects.2.1⟩
      rw [validateParentMicroblockStream, if_neg (by simp [notFirst]), List.append_assoc, List.singleton_append, stream]
      have zero : first.header.sequence = 0 := UInt16.toNat_inj.mp (by rw [start.2]; rfl)
      simp only [zero, start.1, ne_eq, not_true_eq_false, if_false]
      exact (validate_signed_stream_eq_error crypto).mpr panicked

theorem replayed_first_microblock_panics :
    (sampleChild secondMicroblock).isFirstMined = false ∧
      Connects prefixCrypto (sampleHash sampleParent) 0 (secondMicroblock.header.blockHash prefixCrypto)
        [firstMicroblock, secondMicroblock] ∧
      (false = true → ∀ microblock ∈ [firstMicroblock, firstMicroblock, secondMicroblock],
        (microblock.header.verify prefixCrypto sampleParent.microblockPubkeyHash).toBool = true) ∧
      firstMicroblock.header.sequence.toNat + 1 < [firstMicroblock, secondMicroblock].length ∧
      validateParentMicroblockStream prefixCrypto sampleHash sampleParent (sampleChild secondMicroblock)
        ([firstMicroblock, secondMicroblock] ++ [firstMicroblock]) false =
          .error "BUG: out-of-sequence microblock stream" :=
  have connects : Connects prefixCrypto (sampleHash sampleParent) 0 (secondMicroblock.header.blockHash prefixCrypto)
      [firstMicroblock, secondMicroblock] := ⟨rfl, rfl, rfl, rfl, rfl⟩
  have unsigned : false = true → ∀ microblock ∈ [firstMicroblock, firstMicroblock, secondMicroblock],
      (microblock.header.verify prefixCrypto sampleParent.microblockPubkeyHash).toBool = true := nofun
  ⟨rfl, connects, unsigned, by decide,
    validate_parent_microblock_stream_replay_panics prefixCrypto sampleHash rfl connects unsigned (by decide)⟩

end Hyperchains.Microblocks
