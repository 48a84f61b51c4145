import Hyperchains.BurnIndexerSpec

/-! How the burnchain indexer finds an L1 reorg (`DBBurnchainIndexer::find_chain_reorg`).
The indexer records the canonical tip it last saw; on the next call it walks
up from that block to the first one still marked canonical, and answers that
block's height, or the tip's height when the recorded block is still on the
tip's chain.

The recorded block stays anchored: some block of its chain keeps its mark
through every call of `push_block` that fits the table, since a reorg unmarks
only the old tip's chain above the greatest common ancestor. So the walk ends
within the recorded block's height, on the greatest common ancestor of the
recorded block and the new tip, and every block of the recorded chain at or
below the answer is still canonical. `push_block` assumes it has seen every
block before its children, which `Fits` states: a parent stored after its child
would go in unmarked below a marked block, and the walk would pass it. -/

namespace Hyperchains.BurnIndexer
open Panic Relation

variable {H : Type} [LinearOrder H]

/-- Some block of `top`'s chain is marked canonical. -/
def Anchored (rows : BlockIndex H) (top : H) : Prop :=
  ∃ anchor, OnChain rows top anchor ∧ canonicalMark rows anchor = true

/-- `ancestor` is the greatest common ancestor of `a` and `b`: it is on both
chains, and every block on both is on its chain. -/
def GreatestCommonAncestor (rows : BlockIndex H) (a b ancestor : H) : Prop :=
  OnChain rows a ancestor ∧ OnChain rows b ancestor ∧
    ∀ hash, OnChain rows a hash → OnChain rows b hash → OnChain rows ancestor hash

section Chains
variable {rows : BlockIndex H}

theorem lookup_is_some_of_canonical_mark {hash : H} (marked : canonicalMark rows hash = true) :
    (lookup rows hash).isSome := by
  unfold canonicalMark at marked
  split at marked
  · rename_i found
    simp [found]
  · cases marked

/-- Down a chain the stored height drops, so a block no higher than one below
it is that block. -/
theorem on_chain_eq_of_height_le (linked : Linked rows) {a b : H} (chain : OnChain rows a b)
    (notLower : heightOf rows a ≤ heightOf rows b) : a = b := by
  rcases reflTransGen_iff_eq_or_transGen.mp chain with same | strict
  · exact same.symm
  · have lower := height_of_trans_gen linked strict
    omega

theorem Anchored.present {top : H} (anchored : Anchored rows top) : (lookup rows top).isSome := by
  obtain ⟨anchor, chain, marked⟩ := anchored
  exact on_chain_top_present (lookup_is_some_of_canonical_mark marked) chain

end Chains

/-! ## The anchor through one call of `push_block` -/

section Push
variable {rows : BlockIndex H} {newBlock : NewBlock H} (indexed : Indexed rows) (fits : Fits rows newBlock)
  (fresh : lookup rows newBlock.indexBlockHash = none)
include indexed fits fresh

omit indexed in
/-- An insert without a reorg keeps every old mark and every old chain. -/
theorem anchored_append {flag : Bool} {top : H} (anchored : Anchored rows top) :
    Anchored (rows ++ [insertedRow newBlock flag]) top := by
  obtain ⟨anchor, chain, marked⟩ := anchored
  have topOld : top ≠ (insertedRow newBlock flag).headerHash :=
    ne_of_lookup_is_some fresh (Anchored.present ⟨anchor, chain, marked⟩)
  refine ⟨anchor, (on_chain_append_old fresh fits.childless fits.notOwnParent topOld).mpr chain, ?_⟩
  exact (canonical_mark_append_fresh fresh anchor).mpr (Or.inr marked)

/-- A reorg unmarks only the old tip's chain above the greatest common ancestor,
so the lower of a block's anchor and that ancestor anchors it afterwards. -/
theorem anchored_push_reorg {tip : BurnBlockIndexRow H} (tipFound : getCanonicalChainTip rows = some tip)
    {height : Nat} {after : BlockIndex H}
    (ran : processReorg (rows ++ [insertedRow newBlock true]) newBlock.header tip = .ok (height, after))
    {top : H} (anchored : Anchored rows top) : Anchored after top := by
  obtain ⟨anchor, chain, marked⟩ := anchored
  obtain ⟨ancestor, middle, up, down⟩ := process_reorg_eq_ok ran
  simp only [NewBlock.header_height, NewBlock.header_parent_header_hash] at up
  have linked := linked_append_inserted indexed fits fresh true
  obtain ⟨-, ancestorMarked, -, -, remarkedUp, marksUp⟩ := up_loop_ok linked up
  obtain ⟨ancestorFound, -, chainTip, -⟩ := reorg_ancestor indexed fits fresh tipFound up
  obtain ⟨-, -, remarkedDown, marksDown⟩ := down_loop_ok _ (remarkedUp.linked linked) down
  have tipOld : tip.headerHash ≠ (insertedRow newBlock true).headerHash :=
    ne_of_lookup_is_some fresh (by simp [indexed.lookup_tip tipFound])
  have topOld : top ≠ (insertedRow newBlock true).headerHash :=
    ne_of_lookup_is_some fresh (Anchored.present ⟨anchor, chain, marked⟩)
  -- the loops change marks only, and the old chains are the chains of the longer table
  have onAfter : ∀ hash, OnChain rows top hash → OnChain after top hash := by
    intro hash below
    rw [(remarkedUp.trans remarkedDown).on_chain]
    exact (on_chain_append_old fresh fits.childless fits.notOwnParent topOld).mpr below
  -- a marked block below the ancestor is marked by the up loop and left by the down loop
  have keeps : ∀ hash, OnChain rows ancestor.headerHash hash → canonicalMark rows hash = true →
      canonicalMark after hash = true := by
    intro hash below markedOld
    rw [marksDown, marksUp, remarkedUp.between, between_append_old fresh fits.childless fits.notOwnParent tipOld]
    exact ⟨Or.inl ((canonical_mark_append_fresh fresh hash).mpr (Or.inr markedOld)),
      fun between => between_not_on_chain indexed.linked between below⟩
  -- the anchor and the ancestor are both on the old tip's chain
  rcases on_chain_total ((indexed.marks_iff tipFound anchor).mp marked) chainTip with above | below
  · refine ⟨ancestor.headerHash, onAfter _ (chain.trans above), ?_⟩
    exact keeps _ ReflTransGen.refl (by simp [canonicalMark, ancestorFound, ancestorMarked])
  · exact ⟨anchor, onAfter _ chain, keeps _ below marked⟩

end Push

section Run
variable {first : Nat} {rows : BlockIndex H} {newBlock : NewBlock H} {top : H}

/-- The step lemma: every call keeps a block anchored. -/
theorem pushed_anchored (indexed : Indexed rows) (admissible : Admissible first rows newBlock)
    (anchored : Anchored rows top) : Anchored (pushed first rows newBlock) top := by
  unfold pushed
  split
  · rename_i after ran
    rcases push_block_cases ran with rfl | ⟨fresh, above, inserted⟩
    · exact anchored
    · have fits := admissible above fresh
      rcases inserted with ⟨_, rfl⟩ | ⟨tip, tipFound, ⟨_, rfl⟩ | ⟨_, _, rfl⟩ | ⟨_, _, _, reorg⟩⟩
      · exact anchored_append fits fresh anchored
      · exact anchored_append fits fresh anchored
      · exact anchored_append fits fresh anchored
      · exact anchored_push_reorg indexed fits fresh tipFound reorg anchored
  · exact anchored

/-- The run lemma: a block anchored before an admissible run is anchored after it. -/
theorem foldl_pushed_anchored {blocks : List (NewBlock H)} : ∀ {rows : BlockIndex H}, Indexed rows →
    AdmissibleRun first rows blocks → Anchored rows top → Anchored (blocks.foldl (pushed first) rows) top := by
  induction blocks with
  | nil => exact fun _ _ anchored => anchored
  | cons newBlock blocks ih =>
      intro rows indexed run anchored
      exact ih (pushed_indexed indexed run.1) run.2 (pushed_anchored indexed run.1 anchored)

end Run

/-! ## The walk of `find_first_canonical_ancestor` -/

section Walk
variable {rows : BlockIndex H} (linked : Linked rows)
include linked

/-- With the height difference to a marked block of its chain below the fuel,
the walk answers the height of the first marked block of the chain. The
induction is on the fuel, the cursor moving one block down per pass. -/
theorem find_first_canonical_ancestor_eq_ok : ∀ {fuel : Nat} {cursor anchor : H},
    OnChain rows cursor anchor → canonicalMark rows anchor = true →
    heightOf rows cursor - heightOf rows anchor < fuel →
    ∃ found, OnChain rows cursor found ∧ canonicalMark rows found = true ∧
      (∀ hash, Between rows cursor found hash → canonicalMark rows hash = false) ∧
      findFirstCanonicalAncestor fuel rows cursor = .ok (heightOf rows found)
  | 0, _, _, _, _, enough => by omega
  | fuel + 1, cursor, anchor, chain, marked, enough => by
      obtain ⟨row, found⟩ := Option.isSome_iff_exists.mp
        (on_chain_top_present (lookup_is_some_of_canonical_mark marked) chain)
      have height : heightOf rows cursor = row.height := by simp [heightOf, found]
      unfold findFirstCanonicalAncestor
      simp only [getHeaderForHash, found, ok_bind]
      by_cases canonical : row.isCanonical = true
      · -- the cursor is marked: it is the first marked block
        simp only [canonical, ↓reduceIte, pure_eq_ok]
        refine ⟨cursor, ReflTransGen.refl, by simp [canonicalMark, found, canonical],
          fun hash between => absurd between (between_self linked), by rw [height]⟩
      · simp only [canonical, Bool.false_eq_true, ↓reduceIte]
        have unmarked : canonicalMark rows cursor = false := by simpa [canonicalMark, found] using canonical
        have apart : cursor ≠ anchor := by
          rintro rfl
          rw [unmarked] at marked
          cases marked
        -- off the anchor, the chain goes on through the cursor's parent
        obtain ⟨parent, step, rest⟩ := (ReflTransGen.cases_head_iff.mp chain).resolve_left apart
        have isParent : parent = row.parentHeaderHash := by
          have stepped := step.1
          rw [found] at stepped
          exact (Option.some.inj stepped).symm
        subst isParent
        have lower := linked _ _ step
        have above := height_of_on_chain linked rest
        have enoughParent : heightOf rows row.parentHeaderHash - heightOf rows anchor < fuel := by omega
        obtain ⟨first, chainFirst, markedFirst, unmarkedAbove, walked⟩ :=
          find_first_canonical_ancestor_eq_ok rest marked enoughParent
        have cursorApart : cursor ≠ first := by
          rintro rfl
          rw [unmarked] at markedFirst
          cases markedFirst
        refine ⟨first, ReflTransGen.head step chainFirst, markedFirst, fun hash between => ?_, walked⟩
        rcases (between_step_iff step cursorApart chainFirst).mp between with rfl | above
        · exact unmarked
        · exact unmarkedAbove hash above

end Walk

/-! ## `find_chain_reorg` on an anchored block -/

section Detection
variable {rows : BlockIndex H} (indexed : Indexed rows)
include indexed

/-- In a table that keeps the invariant, the first marked block of a chain is
the greatest common ancestor of the chain's top and the tip. -/
theorem first_marked_greatest_common_ancestor {tip : BurnBlockIndexRow H}
    (tipFound : getCanonicalChainTip rows = some tip) {top found : H} (chain : OnChain rows top found)
    (marked : canonicalMark rows found = true)
    (unmarkedAbove : ∀ hash, Between rows top found hash → canonicalMark rows hash = false) :
    GreatestCommonAncestor rows top tip.headerHash found := by
  refine ⟨chain, (indexed.marks_iff tipFound found).mp marked, fun hash onTop onTip => ?_⟩
  rcases on_chain_total chain onTop with below | above
  · exact below
  · -- a common block above the first marked one would be marked itself
    by_cases same : hash = found
    · rw [same]
      exact ReflTransGen.refl
    · have unmarked := unmarkedAbove hash ⟨onTop, above, same⟩
      rw [(indexed.marks_iff tipFound hash).mpr onTip] at unmarked
      cases unmarked

/-- Below the answer, an anchored block's chain is the tip's: every block of it
at or below the answered height is marked. -/
theorem find_chain_reorg_anchored {top : H} (anchored : Anchored rows top) (firstBlockHeight : Nat) :
    ∃ tip height, getCanonicalChainTip rows = some tip ∧
      findChainReorg firstBlockHeight rows (some top) = .ok (.ok height, some tip.headerHash) ∧
      (∀ hash, OnChain rows top hash → heightOf rows hash ≤ height → canonicalMark rows hash = true) ∧
      (canonicalMark rows top = false →
        ∃ ancestor, GreatestCommonAncestor rows top tip.headerHash ancestor ∧ height = heightOf rows ancestor) := by
  obtain ⟨row, found⟩ := Option.isSome_iff_exists.mp anchored.present
  obtain ⟨tip, tipFound⟩ : ∃ tip, getCanonicalChainTip rows = some tip := by
    cases search : getCanonicalChainTip rows with
    | none =>
        rw [get_canonical_chain_tip_eq_none.mp search] at found
        cases found
    | some tip => exact ⟨tip, rfl⟩
  have rowMark : canonicalMark rows top = row.isCanonical := by simp [canonicalMark, found]
  have onTip : ∀ hash, canonicalMark rows hash = true ↔ OnChain rows tip.headerHash hash :=
    indexed.marks_iff tipFound
  unfold findChainReorg
  simp only [getHeaderForHash, found, ok_bind, getHighestHeaderHeight, tipFound, Option.map_some,
    Option.getD_some]
  by_cases canonical : row.isCanonical = true
  · -- the recorded block is on the tip's chain, and so is all of its own chain
    simp only [canonical, ↓reduceIte, pure_eq_ok, ok_bind]
    refine ⟨tip, tip.height, rfl, rfl, fun hash below _ => ?_, fun unmarked => ?_⟩
    · exact (onTip hash).mpr (((onTip top).mp (rowMark.trans canonical)).trans below)
    · rw [rowMark, canonical] at unmarked
      cases unmarked
  · simp only [canonical, Bool.false_eq_true, ↓reduceIte, pure_eq_ok, ok_bind]
    obtain ⟨anchor, chain, marked⟩ := anchored
    have height : heightOf rows top = row.height := by simp [heightOf, found]
    have enough : heightOf rows top - heightOf rows anchor < row.height + 1 := by omega
    obtain ⟨first, chainFirst, markedFirst, unmarkedAbove, walked⟩ :=
      find_first_canonical_ancestor_eq_ok indexed.linked chain marked enough
    rw [walked]
    refine ⟨tip, heightOf rows first, rfl, rfl, fun hash below lower => ?_, fun _ =>
      ⟨first, first_marked_greatest_common_ancestor indexed tipFound chainFirst markedFirst unmarkedAbove, rfl⟩⟩
    -- a block no higher than the first marked one is on that block's chain
    rcases on_chain_total chainFirst below with beneath | above
    · exact (onTip hash).mpr (((onTip first).mp markedFirst).trans beneath)
    · rw [on_chain_eq_of_height_le indexed.linked above lower]
      exact markedFirst

end Detection

/-- The indexer records the tip in a table `earlier` calls reached and runs
again after `later` calls: it answers a height at or below which the recorded
block's chain is still canonical, the height of the greatest common ancestor
of the recorded block and the new tip when the recorded block has left the tip's
chain, and records the new tip. -/
theorem find_chain_reorg_after_pushes {first firstBlockHeight : Nat} {earlier later : List (NewBlock H)}
    (earlierRun : AdmissibleRun first [] earlier)
    (laterRun : AdmissibleRun first (pushAll first earlier) later) {recorded : BurnBlockIndexRow H}
    (recordedFound : getCanonicalChainTip (pushAll first earlier) = some recorded) :
    ∃ tip height, getCanonicalChainTip (later.foldl (pushed first) (pushAll first earlier)) = some tip ∧
      findChainReorg firstBlockHeight (later.foldl (pushed first) (pushAll first earlier))
          (some recorded.headerHash) = .ok (.ok height, some tip.headerHash) ∧
      (∀ hash, OnChain (later.foldl (pushed first) (pushAll first earlier)) recorded.headerHash hash →
        heightOf (later.foldl (pushed first) (pushAll first earlier)) hash ≤ height →
        canonicalMark (later.foldl (pushed first) (pushAll first earlier)) hash = true) ∧
      (canonicalMark (later.foldl (pushed first) (pushAll first earlier)) recorded.headerHash = false →
        ∃ ancestor, GreatestCommonAncestor (later.foldl (pushed first) (pushAll first earlier))
            recorded.headerHash tip.headerHash ancestor ∧
          height = heightOf (later.foldl (pushed first) (pushAll first earlier)) ancestor) := by
  have indexed := push_all_indexed earlierRun
  -- the recorded tip anchors itself, and stays anchored through the later calls
  have anchored : Anchored (pushAll first earlier) recorded.headerHash :=
    ⟨recorded.headerHash, ReflTransGen.refl, (indexed.marks_iff recordedFound _).mpr ReflTransGen.refl⟩
  exact find_chain_reorg_anchored (foldl_pushed_indexed indexed laterRun)
    (foldl_pushed_anchored indexed laterRun anchored) firstBlockHeight

/-- The tip 2 is recorded, then its sibling 3 gets the child 4: the walk from
2 meets the canonical block 1, at height 1. -/
theorem overtaken_tip_reorg_height :
    AdmissibleRun 0 [] [(⟨1, 1, 0⟩ : NewBlock Nat), ⟨2, 2, 1⟩, ⟨2, 3, 1⟩] ∧
      AdmissibleRun 0 (pushAll 0 [(⟨1, 1, 0⟩ : NewBlock Nat), ⟨2, 2, 1⟩, ⟨2, 3, 1⟩]) [⟨3, 4, 3⟩] ∧
      getCanonicalChainTip (pushAll 0 [(⟨1, 1, 0⟩ : NewBlock Nat), ⟨2, 2, 1⟩, ⟨2, 3, 1⟩]) = some ⟨2, 2, 1, true⟩ ∧
      ∃ tip height, getCanonicalChainTip ([(⟨3, 4, 3⟩ : NewBlock Nat)].foldl (pushed 0)
          (pushAll 0 [(⟨1, 1, 0⟩ : NewBlock Nat), ⟨2, 2, 1⟩, ⟨2, 3, 1⟩])) = some tip ∧
        findChainReorg 0 ([(⟨3, 4, 3⟩ : NewBlock Nat)].foldl (pushed 0)
            (pushAll 0 [(⟨1, 1, 0⟩ : NewBlock Nat), ⟨2, 2, 1⟩, ⟨2, 3, 1⟩])) (some 2) =
          .ok (.ok height, some tip.headerHash) ∧
        (∀ hash, OnChain ([(⟨3, 4, 3⟩ : NewBlock Nat)].foldl (pushed 0)
            (pushAll 0 [(⟨1, 1, 0⟩ : NewBlock Nat), ⟨2, 2, 1⟩, ⟨2, 3, 1⟩])) 2 hash →
          heightOf ([(⟨3, 4, 3⟩ : NewBlock Nat)].foldl (pushed 0)
            (pushAll 0 [(⟨1, 1, 0⟩ : NewBlock Nat), ⟨2, 2, 1⟩, ⟨2, 3, 1⟩])) hash ≤ height →
          canonicalMark ([(⟨3, 4, 3⟩ : NewBlock Nat)].foldl (pushed 0)
            (pushAll 0 [(⟨1, 1, 0⟩ : NewBlock Nat), ⟨2, 2, 1⟩, ⟨2, 3, 1⟩])) hash = true) ∧
        (canonicalMark ([(⟨3, 4, 3⟩ : NewBlock Nat)].foldl (pushed 0)
            (pushAll 0 [(⟨1, 1, 0⟩ : NewBlock Nat), ⟨2, 2, 1⟩, ⟨2, 3, 1⟩])) 2 = false →
          ∃ ancestor, GreatestCommonAncestor ([(⟨3, 4, 3⟩ : NewBlock Nat)].foldl (pushed 0)
              (pushAll 0 [(⟨1, 1, 0⟩ : NewBlock Nat), ⟨2, 2, 1⟩, ⟨2, 3, 1⟩])) 2 tip.headerHash ancestor ∧
            height = heightOf ([(⟨3, 4, 3⟩ : NewBlock Nat)].foldl (pushed 0)
              (pushAll 0 [(⟨1, 1, 0⟩ : NewBlock Nat), ⟨2, 2, 1⟩, ⟨2, 3, 1⟩])) ancestor) := by
  have earlierRun : AdmissibleRun 0 [] [(⟨1, 1, 0⟩ : NewBlock Nat), ⟨2, 2, 1⟩, ⟨2, 3, 1⟩] := by
    refine ⟨fun _ _ => ⟨?_, ?_, ?_, ?_⟩, fun _ _ => ⟨?_, ?_, ?_, ?_⟩, fun _ _ => ⟨?_, ?_, ?_, ?_⟩, trivial⟩ <;>
      decide
  have laterRun : AdmissibleRun 0 (pushAll 0 [(⟨1, 1, 0⟩ : NewBlock Nat), ⟨2, 2, 1⟩, ⟨2, 3, 1⟩]) [⟨3, 4, 3⟩] := by
    refine ⟨fun _ _ => ⟨?_, ?_, ?_, ?_⟩, trivial⟩ <;> decide
  have recordedFound : getCanonicalChainTip (pushAll 0 [(⟨1, 1, 0⟩ : NewBlock Nat), ⟨2, 2, 1⟩, ⟨2, 3, 1⟩]) =
      some ⟨2, 2, 1, true⟩ := by decide
  exact ⟨earlierRun, laterRun, recordedFound, find_chain_reorg_after_pushes earlierRun laterRun recordedFound⟩

end Hyperchains.BurnIndexer
