import Hyperchains.BurnIndexer

/-! What `push_block` keeps: the rows marked canonical are exactly the chain
below the tip. The chain is the reflexive-transitive closure of the parent step
between stored blocks; each block has one parent, so two blocks on one chain
are on each other's chain one way or the other, and since heights drop by one a
step, no chain comes back to where it started.

`Indexed` holds of the empty table and after each call on a block that fits the
table: its height below `2 ^ 32`, one more than its parent's when the parent
is stored, not its own parent, and no stored block its child. Over it, the
reorg loops end, `read_headers` reads the chain in height order, and a block at
height `2 ^ 32` breaks the invariant through the `as u32` of the insert. -/

namespace Hyperchains.BurnIndexer
open Panic Relation

variable {H : Type}

/-- The row `push_block` inserts for a block: the height as the `u32` column
stores it. -/
def insertedRow (newBlock : NewBlock H) (isCanonical : Bool) : BurnBlockIndexRow H :=
  ⟨newBlock.blockHeight % 2 ^ 32, newBlock.indexBlockHash, newBlock.parentIndexBlockHash, isCanonical⟩

@[simp] theorem inserted_row_header_hash (newBlock : NewBlock H) (flag : Bool) :
    (insertedRow newBlock flag).headerHash = newBlock.indexBlockHash := rfl

@[simp] theorem inserted_row_parent_header_hash (newBlock : NewBlock H) (flag : Bool) :
    (insertedRow newBlock flag).parentHeaderHash = newBlock.parentIndexBlockHash := rfl

theorem inserted_row_height {newBlock : NewBlock H} (below : newBlock.blockHeight < 2 ^ 32) (flag : Bool) :
    (insertedRow newBlock flag).height = newBlock.blockHeight :=
  Nat.mod_eq_of_lt below

@[simp] theorem inserted_row_is_canonical (newBlock : NewBlock H) (flag : Bool) :
    (insertedRow newBlock flag).isCanonical = flag := rfl

@[simp] theorem NewBlock.header_height (newBlock : NewBlock H) :
    newBlock.header.height = newBlock.blockHeight := rfl

@[simp] theorem NewBlock.header_header_hash (newBlock : NewBlock H) :
    newBlock.header.headerHash = newBlock.indexBlockHash := rfl

@[simp] theorem NewBlock.header_parent_header_hash (newBlock : NewBlock H) :
    newBlock.header.parentHeaderHash = newBlock.parentIndexBlockHash := rfl

variable [LinearOrder H]

/-- `child` is stored and its parent `parent` too: one step down a chain. -/
def ParentStep (rows : BlockIndex H) (child parent : H) : Prop :=
  (lookup rows child).map (·.parentHeaderHash) = some parent ∧ (lookup rows parent).isSome

/-- The chain below `top`: the blocks its parent steps reach, `top` included. -/
def OnChain (rows : BlockIndex H) (top hash : H) : Prop :=
  ReflTransGen (ParentStep rows) top hash

/-- The canonical mark of a stored block; a block the table lacks has none. -/
def canonicalMark (rows : BlockIndex H) (hash : H) : Bool :=
  match lookup rows hash with
  | some row => row.isCanonical
  | none => false

/-- The height the table stores for a block. -/
def heightOf (rows : BlockIndex H) (hash : H) : Nat :=
  ((lookup rows hash).map (·.height)).getD 0

/-- The canonical marks are the chain below the tip. -/
def MarksTipChain (rows : BlockIndex H) : Prop :=
  ∀ hash, canonicalMark rows hash = true ↔
    ∃ tip, getCanonicalChainTip rows = some tip ∧ OnChain rows tip.headerHash hash

/-- The blocks of the chain from `top` down to `bottom`, `bottom` left out. -/
def Between (rows : BlockIndex H) (top bottom hash : H) : Prop :=
  OnChain rows top hash ∧ OnChain rows hash bottom ∧ hash ≠ bottom

/-- Steps from child to parent that lower the stored height by one. -/
def Linked (rows : BlockIndex H) : Prop :=
  ∀ child parent, ParentStep rows child parent → heightOf rows child = heightOf rows parent + 1

/-- The invariant of the block index. -/
structure Indexed (rows : BlockIndex H) : Prop where
  unique : (rows.map (·.headerHash)).Nodup
  linked : Linked rows
  marks : MarksTipChain rows

/-- What `push_block` needs of a block to keep the invariant. -/
structure Fits (rows : BlockIndex H) (newBlock : NewBlock H) : Prop where
  below : newBlock.blockHeight < 2 ^ 32
  aboveParent : ∀ parent ∈ rows, parent.headerHash = newBlock.parentIndexBlockHash →
    newBlock.blockHeight = parent.height + 1
  notOwnParent : newBlock.parentIndexBlockHash ≠ newBlock.indexBlockHash
  childless : ∀ row ∈ rows, row.parentHeaderHash ≠ newBlock.indexBlockHash

section Steps
variable {rows : BlockIndex H}

theorem parent_step_right_unique : Relator.RightUnique (ParentStep rows) := by
  intro child parent other first second
  have same := second.1
  rw [first.1] at same
  exact Option.some.inj same

theorem parent_step_present {child parent : H} (step : ParentStep rows child parent) :
    (lookup rows child).isSome := by
  have stored := step.1
  cases found : lookup rows child
  · simp [found] at stored
  · rfl

theorem on_chain_present {top hash : H} (present : (lookup rows top).isSome)
    (chain : OnChain rows top hash) : (lookup rows hash).isSome := by
  induction chain with
  | refl => exact present
  | tail _ step _ => exact step.2

theorem on_chain_top_present {top hash : H} (present : (lookup rows hash).isSome)
    (chain : OnChain rows top hash) : (lookup rows top).isSome := by
  cases chain using ReflTransGen.head_induction_on with
  | refl => exact present
  | head step _ => exact parent_step_present step

theorem on_chain_step_iff {top parent hash : H} (step : ParentStep rows top parent) :
    OnChain rows top hash ↔ hash = top ∨ OnChain rows parent hash := by
  constructor
  · intro chain
    cases chain using ReflTransGen.head_induction_on with
    | refl => exact Or.inl rfl
    | head first rest =>
        rw [parent_step_right_unique step first]
        exact Or.inr rest
  · rintro (rfl | below)
    · exact ReflTransGen.refl
    · exact ReflTransGen.head step below

theorem on_chain_total {top a b : H} (toA : OnChain rows top a) (toB : OnChain rows top b) :
    OnChain rows a b ∨ OnChain rows b a :=
  ReflTransGen.total_of_right_unique parent_step_right_unique toA toB

section Heights
variable (linked : Linked rows)
include linked

theorem height_of_trans_gen {a b : H} (chain : TransGen (ParentStep rows) a b) :
    heightOf rows b < heightOf rows a := by
  induction chain with
  | single step => have := linked _ _ step; omega
  | tail _ step ih => have := linked _ _ step; omega

theorem height_of_on_chain {a b : H} (chain : OnChain rows a b) : heightOf rows b ≤ heightOf rows a := by
  rcases reflTransGen_iff_eq_or_transGen.mp chain with same | strict
  · rw [same]
  · exact le_of_lt (height_of_trans_gen linked strict)

theorem on_chain_antisymm {a b : H} (down : OnChain rows a b) (up : OnChain rows b a) : a = b := by
  rcases reflTransGen_iff_eq_or_transGen.mp down with same | strict
  · exact same.symm
  · have lower := height_of_trans_gen linked strict
    have higher := height_of_on_chain linked up
    omega

end Heights

end Steps

/-! Changing a mark changes no step, height or tip but the tip's mark. -/

section Marks
variable (rows : BlockIndex H) (hash : H) (flag : Bool)

@[simp] theorem parent_step_update_is_canonical :
    ParentStep (updateIsCanonical rows hash flag) = ParentStep rows := by
  funext child parent
  simp [ParentStep, lookup_update_is_canonical, Option.map_map, Function.comp_def]

@[simp] theorem on_chain_update_is_canonical :
    OnChain (updateIsCanonical rows hash flag) = OnChain rows := by
  funext top other
  simp [OnChain]

@[simp] theorem height_of_update_is_canonical :
    heightOf (updateIsCanonical rows hash flag) = heightOf rows := by
  funext other
  simp [heightOf, lookup_update_is_canonical, Option.map_map, Function.comp_def]

theorem canonical_mark_update_is_canonical (other : H) :
    canonicalMark (updateIsCanonical rows hash flag) other =
      if other = hash ∧ (lookup rows other).isSome then flag else canonicalMark rows other := by
  unfold canonicalMark
  rw [lookup_update_is_canonical]
  cases found : lookup rows other with
  | none => simp
  | some row =>
      have named := lookup_header_hash rows found
      by_cases same : other = hash <;> simp [marked, named, same]

@[simp] theorem lookup_is_some_update_is_canonical (other : H) :
    (lookup (updateIsCanonical rows hash flag) other).isSome = (lookup rows other).isSome := by
  rw [lookup_update_is_canonical, Option.isSome_map]

theorem lookup_update_is_canonical_of_ne {other : H} (apart : other ≠ hash) :
    lookup (updateIsCanonical rows hash flag) other = lookup rows other := by
  rw [lookup_update_is_canonical]
  cases found : lookup rows other with
  | none => rfl
  | some row => simp [marked, lookup_header_hash rows found, apart]

theorem get_canonical_chain_tip_update_is_canonical :
    getCanonicalChainTip (updateIsCanonical rows hash flag) =
      (getCanonicalChainTip rows).map (marked hash flag) :=
  get_canonical_chain_tip_map rows _ (marked_height hash flag) (marked_header_hash hash flag)

end Marks

/-! Tables that differ in their marks alone: what the reorg loops leave. -/

/-- `after` is `before` with some marks changed. -/
def Remarked (before after : BlockIndex H) : Prop :=
  ReflTransGen (fun rows next => ∃ hash flag, next = updateIsCanonical rows hash flag) before after

section Remarked
variable {before after : BlockIndex H}

theorem Remarked.update (hash : H) (flag : Bool) (rest : Remarked (updateIsCanonical before hash flag) after) :
    Remarked before after :=
  ReflTransGen.head ⟨hash, flag, rfl⟩ rest

theorem Remarked.trans {last : BlockIndex H} (first : Remarked before after) (second : Remarked after last) :
    Remarked before last :=
  ReflTransGen.trans first second

theorem Remarked.parent_step (remarked : Remarked before after) : ParentStep after = ParentStep before := by
  induction remarked with
  | refl => rfl
  | tail _ step ih =>
      obtain ⟨hash, flag, rfl⟩ := step
      rw [parent_step_update_is_canonical, ih]

theorem Remarked.on_chain (remarked : Remarked before after) : OnChain after = OnChain before := by
  funext top other
  simp [OnChain, remarked.parent_step]

theorem Remarked.height_of (remarked : Remarked before after) : heightOf after = heightOf before := by
  induction remarked with
  | refl => rfl
  | tail _ step ih =>
      obtain ⟨hash, flag, rfl⟩ := step
      rw [height_of_update_is_canonical, ih]

theorem Remarked.header_hashes (remarked : Remarked before after) :
    after.map (·.headerHash) = before.map (·.headerHash) := by
  induction remarked with
  | refl => rfl
  | tail _ step ih =>
      obtain ⟨hash, flag, rfl⟩ := step
      rw [update_is_canonical_eq_map, List.map_map, ← ih]
      simp [Function.comp_def]

theorem Remarked.lookup_is_some (remarked : Remarked before after) (hash : H) :
    (lookup after hash).isSome = (lookup before hash).isSome := by
  induction remarked with
  | refl => rfl
  | tail _ step ih =>
      obtain ⟨marked, flag, rfl⟩ := step
      rw [lookup_update_is_canonical, Option.isSome_map, ih]

theorem Remarked.tip (remarked : Remarked before after) :
    (getCanonicalChainTip after).map (·.headerHash) = (getCanonicalChainTip before).map (·.headerHash) := by
  induction remarked with
  | refl => rfl
  | tail _ step ih =>
      obtain ⟨hash, flag, rfl⟩ := step
      rw [get_canonical_chain_tip_update_is_canonical, Option.map_map, ← ih]
      simp [Function.comp_def]

theorem Remarked.between (remarked : Remarked before after) : Between after = Between before := by
  funext top bottom hash
  simp [Between, remarked.on_chain]

theorem Remarked.linked (remarked : Remarked before after) (linked : Linked before) : Linked after := by
  intro child parent step
  rw [remarked.parent_step] at step
  rw [remarked.height_of]
  exact linked _ _ step

end Remarked

@[simp] theorem between_update_is_canonical (rows : BlockIndex H) (hash : H) (flag : Bool) :
    Between (updateIsCanonical rows hash flag) = Between rows := by
  funext top bottom other
  simp [Between]

theorem Linked.update {rows : BlockIndex H} (linked : Linked rows) (hash : H) (flag : Bool) :
    Linked (updateIsCanonical rows hash flag) := by
  simpa [Linked] using linked

theorem between_step_iff {rows : BlockIndex H} {top parent bottom hash : H}
    (step : ParentStep rows top parent) (apart : top ≠ bottom) (reaches : OnChain rows parent bottom) :
    Between rows top bottom hash ↔ hash = top ∨ Between rows parent bottom hash := by
  constructor
  · rintro ⟨down, up, off⟩
    rcases (on_chain_step_iff step).mp down with same | below
    · exact Or.inl same
    · exact Or.inr ⟨below, up, off⟩
  · rintro (rfl | ⟨down, up, off⟩)
    · exact ⟨ReflTransGen.refl, ReflTransGen.head step reaches, apart⟩
    · exact ⟨ReflTransGen.head step down, up, off⟩

theorem between_self {rows : BlockIndex H} (linked : Linked rows) {top hash : H} :
    ¬ Between rows top top hash := by
  rintro ⟨down, up, apart⟩
  exact apart (on_chain_antisymm linked up down)

/-- A chain through `bottom` splits there: the blocks above it, then its own chain. -/
theorem on_chain_split {rows : BlockIndex H} {top bottom hash : H} (reaches : OnChain rows top bottom) :
    OnChain rows top hash ↔ Between rows top bottom hash ∨ OnChain rows bottom hash := by
  constructor
  · intro chain
    rcases on_chain_total reaches chain with below | above
    · exact Or.inr below
    · by_cases same : hash = bottom
      · rw [same]
        exact Or.inr ReflTransGen.refl
      · exact Or.inl ⟨chain, above, same⟩
  · rintro (⟨chain, _, _⟩ | below)
    · exact chain
    · exact reaches.trans below

theorem between_not_on_chain {rows : BlockIndex H} (linked : Linked rows) {top bottom hash : H}
    (between : Between rows top bottom hash) : ¬ OnChain rows bottom hash := by
  intro below
  exact between.2.2 (on_chain_antisymm linked between.2.1 below)

/-! The loops of `process_reorg`. The up loop marks the chain below the new
tip's parent until it meets a marked block; the down loop unmarks the old tip's
chain until it meets that block. -/

section Loops

theorem up_loop_ok : ∀ {fuel : Nat} {rows : BlockIndex H} {cursor : H}
    {ancestor : BurnBlockIndexRow H} {after : BlockIndex H}, Linked rows →
    upLoop fuel rows cursor = .ok (ancestor, after) →
    lookup rows ancestor.headerHash = some ancestor ∧ ancestor.isCanonical = true ∧
      OnChain rows cursor ancestor.headerHash ∧
      (∀ hash, Between rows cursor ancestor.headerHash hash → canonicalMark rows hash = false) ∧
      Remarked rows after ∧
      ∀ hash, canonicalMark after hash = true ↔
        canonicalMark rows hash = true ∨ Between rows cursor ancestor.headerHash hash
  | 0, _, _, _, _, _, ran => by cases ran
  | fuel + 1, rows, cursor, ancestor, after, linked, ran => by
      obtain ⟨row, found, rest⟩ := bind_eq_ok ran
      rw [get_header_for_hash_eq_ok] at found
      have named := lookup_header_hash rows found
      by_cases marked : row.isCanonical = true
      · -- the cursor is marked: it is the greatest common ancestor
        simp only [marked, ↓reduceIte, pure_eq_ok, Except.ok.injEq, Prod.mk.injEq] at rest
        obtain ⟨rfl, rfl⟩ := rest
        rw [named]
        refine ⟨named ▸ found, marked, ReflTransGen.refl, fun hash between => ?_, ReflTransGen.refl,
          fun hash => ?_⟩
        · exact absurd between (between_self linked)
        · simp [between_self linked]
      · simp only [marked, Bool.false_eq_true, ↓reduceIte] at rest
        obtain ⟨found', canonical', chain', unmarked', remarked', marks'⟩ :=
          up_loop_ok (linked.update cursor true) rest
        simp only [on_chain_update_is_canonical, between_update_is_canonical] at chain' unmarked' marks'
        -- the ancestor is stored below the parent, so the cursor steps to the parent
        have ancestorStored : (lookup rows ancestor.headerHash).isSome := by
          simpa using congrArg Option.isSome found'
        have step : ParentStep rows cursor row.parentHeaderHash :=
          ⟨by simp [found], on_chain_top_present ancestorStored chain'⟩
        -- and the ancestor sits lower than the cursor
        have apart : cursor ≠ ancestor.headerHash := by
          intro same
          have higher := linked _ _ step
          have lower := height_of_on_chain linked chain'
          rw [← same] at lower
          omega
        rw [lookup_update_is_canonical_of_ne _ _ _ (Ne.symm apart)] at found'
        refine ⟨found', canonical', ReflTransGen.head step chain', fun hash between => ?_,
          Remarked.update cursor true remarked', fun hash => ?_⟩
        · rcases (between_step_iff step apart chain').mp between with rfl | below
          · simpa [canonicalMark, found] using marked
          · have unmarked := unmarked' hash below
            rw [canonical_mark_update_is_canonical] at unmarked
            split_ifs at unmarked
            exact unmarked
        · rw [marks' hash, canonical_mark_update_is_canonical, between_step_iff step apart chain']
          by_cases same : hash = cursor
          · simp [same, found]
          · simp [same]

theorem down_loop_ok (ancestor : H) : ∀ {fuel : Nat} {rows : BlockIndex H} {cursor : H}
    {after : BlockIndex H}, Linked rows → downLoop ancestor fuel rows cursor = .ok after →
    (lookup rows ancestor).isSome ∧ OnChain rows cursor ancestor ∧ Remarked rows after ∧
      ∀ hash, canonicalMark after hash = true ↔
        canonicalMark rows hash = true ∧ ¬ Between rows cursor ancestor hash
  | 0, _, _, _, _, ran => by cases ran
  | fuel + 1, rows, cursor, after, linked, ran => by
      obtain ⟨row, found, rest⟩ := bind_eq_ok ran
      rw [get_header_for_hash_eq_ok] at found
      have named := lookup_header_hash rows found
      by_cases reached : row.headerHash = ancestor
      · simp only [reached, ↓reduceIte, pure_eq_ok, Except.ok.injEq] at rest
        subst rest
        rw [← named, reached] at found ⊢
        refine ⟨by simp [found], ReflTransGen.refl, ReflTransGen.refl, fun hash => ?_⟩
        simp [between_self linked]
      · simp only [reached, ↓reduceIte] at rest
        obtain ⟨stored', chain', remarked', marks'⟩ := down_loop_ok ancestor (linked.update cursor false) rest
        simp only [lookup_is_some_update_is_canonical, on_chain_update_is_canonical,
          between_update_is_canonical] at stored' chain' marks'
        have step : ParentStep rows cursor row.parentHeaderHash :=
          ⟨by simp [found], on_chain_top_present stored' chain'⟩
        have apart : cursor ≠ ancestor := named ▸ reached
        refine ⟨stored', ReflTransGen.head step chain', Remarked.update cursor false remarked',
          fun hash => ?_⟩
        rw [marks' hash, canonical_mark_update_is_canonical, between_step_iff step apart chain']
        by_cases same : hash = cursor
        · simp [same, found]
        · simp [same]

/-- The up loop stops on a marked block or a missing one before its fuel runs
out: each pass moves one block down, to a stored height one lower. So it fails
only on a missing header. -/
theorem up_loop_eq_error {fuel : Nat} {rows : BlockIndex H} {cursor : H} {failure : Failure H}
    (linked : Linked rows) (some : 1 ≤ fuel)
    (enough : (lookup rows cursor).isSome → heightOf rows cursor + 2 ≤ fuel)
    (failed : upLoop fuel rows cursor = .error failure) :
    ∃ hash, failure = .error (.missingHeaders hash) := by
  induction fuel generalizing rows cursor with
  | zero => omega
  | succ fuel ih =>
      unfold upLoop at failed
      cases found : lookup rows cursor with
      | none =>
          simp only [getHeaderForHash, found, error_bind, Except.error.injEq] at failed
          exact ⟨cursor, failed.symm⟩
      | some row =>
          have enough := enough (by simp [found])
          have height : heightOf rows cursor = row.height := by simp [heightOf, found]
          simp only [getHeaderForHash, found, ok_bind] at failed
          split at failed
          · cases failed
          · refine ih (linked.update cursor true) (by omega) (fun parentStored => ?_) failed
            -- a stored parent sits one below the cursor
            rw [lookup_is_some_update_is_canonical] at parentStored
            have step : ParentStep rows cursor row.parentHeaderHash := ⟨by simp [found], parentStored⟩
            have lower := linked _ _ step
            rw [height_of_update_is_canonical]
            omega

/-- The down loop reaches a stored block below the cursor: the difference of
heights bounds its passes. -/
theorem down_loop_eq_ok {ancestor : H} {fuel : Nat} {rows : BlockIndex H} {cursor : H}
    (linked : Linked rows) (stored : (lookup rows ancestor).isSome) (chain : OnChain rows cursor ancestor)
    (enough : heightOf rows cursor - heightOf rows ancestor < fuel) :
    ∃ after, downLoop ancestor fuel rows cursor = .ok after := by
  induction fuel generalizing rows cursor with
  | zero => omega
  | succ fuel ih =>
      obtain ⟨row, found⟩ := Option.isSome_iff_exists.mp (on_chain_top_present stored chain)
      have named := lookup_header_hash rows found
      unfold downLoop
      simp only [getHeaderForHash, found, ok_bind]
      split
      · exact ⟨rows, rfl⟩
      · rename_i apart
        rw [named] at apart
        -- off the ancestor, the chain goes on through the cursor's parent
        obtain ⟨parent, step, rest⟩ := (ReflTransGen.cases_head_iff.mp chain).resolve_left apart
        have isParent : parent = row.parentHeaderHash := by
          have stepped := step.1
          rw [found] at stepped
          exact (Option.some.inj stepped).symm
        subst isParent
        have lower := linked _ _ step
        have above := height_of_on_chain linked rest
        apply ih (linked.update cursor false) (by simpa using stored)
          (by rw [on_chain_update_is_canonical]; exact rest)
        rw [height_of_update_is_canonical]
        omega

theorem process_reorg_eq_ok {rows after : BlockIndex H} {newTip oldTip : BurnBlockIndexRow H} {height : Nat}
    (ran : processReorg rows newTip oldTip = .ok (height, after)) :
    ∃ ancestor middle, upLoop (newTip.height + 1) rows newTip.parentHeaderHash = .ok (ancestor, middle) ∧
      downLoop ancestor.headerHash (oldTip.height + 1) middle oldTip.headerHash = .ok after := by
  unfold processReorg at ran
  obtain ⟨⟨ancestor, middle⟩, up, rest⟩ := bind_eq_ok ran
  obtain ⟨last, down, done⟩ := bind_eq_ok rest
  simp only [pure_eq_ok, Except.ok.injEq, Prod.mk.injEq] at done
  obtain ⟨-, rfl⟩ := done
  exact ⟨ancestor, middle, up, down⟩

theorem process_reorg_eq_error {rows : BlockIndex H} {newTip oldTip : BurnBlockIndexRow H}
    {failure : Failure H} (failed : processReorg rows newTip oldTip = .error failure) :
    upLoop (newTip.height + 1) rows newTip.parentHeaderHash = .error failure ∨
      ∃ ancestor middle, upLoop (newTip.height + 1) rows newTip.parentHeaderHash = .ok (ancestor, middle) ∧
        downLoop ancestor.headerHash (oldTip.height + 1) middle oldTip.headerHash = .error failure := by
  unfold processReorg at failed
  cases up : upLoop (newTip.height + 1) rows newTip.parentHeaderHash with
  | error upFailure =>
      rw [up, error_bind] at failed
      exact Or.inl (congrArg Except.error (Except.error.inj failed))
  | ok result =>
      obtain ⟨ancestor, middle⟩ := result
      rw [up, ok_bind] at failed
      dsimp only at failed
      cases down : downLoop ancestor.headerHash (oldTip.height + 1) middle oldTip.headerHash with
      | error downFailure =>
          rw [down, error_bind] at failed
          exact Or.inr ⟨ancestor, middle, rfl, down.trans (congrArg Except.error (Except.error.inj failed))⟩
      | ok last =>
          rw [down, ok_bind] at failed
          cases failed

end Loops

/-! The row an insert appends. It is new to the table, and when no stored block
is its child, every chain from an old block stays among the old ones: the
steps of the table are the old steps and one from the new row to its parent. -/

section Append
variable {rows : BlockIndex H} {x : BurnBlockIndexRow H} (fresh : lookup rows x.headerHash = none)
include fresh

theorem ne_of_lookup_is_some {hash : H} (stored : (lookup rows hash).isSome) : hash ≠ x.headerHash := by
  rintro rfl
  simp [fresh] at stored

theorem lookup_append_fresh (hash : H) :
    lookup (rows ++ [x]) hash = if hash = x.headerHash then some x else lookup rows hash := by
  rw [lookup_append]
  by_cases same : hash = x.headerHash
  · simp [same, fresh]
  · simp [same, Ne.symm same]

theorem height_of_append_fresh (hash : H) :
    heightOf (rows ++ [x]) hash = if hash = x.headerHash then x.height else heightOf rows hash := by
  unfold heightOf
  rw [lookup_append_fresh fresh]
  split <;> rfl

theorem canonical_mark_append_fresh (hash : H) :
    canonicalMark (rows ++ [x]) hash = true ↔
      (hash = x.headerHash ∧ x.isCanonical = true) ∨ canonicalMark rows hash = true := by
  unfold canonicalMark
  rw [lookup_append_fresh fresh]
  by_cases same : hash = x.headerHash
  · simp [same, fresh]
  · simp [same]

theorem header_hashes_append_nodup (unique : (rows.map (·.headerHash)).Nodup) :
    ((rows ++ [x]).map (·.headerHash)).Nodup := by
  rw [List.map_append, List.nodup_append]
  refine ⟨unique, List.nodup_singleton _, ?_⟩
  simp only [List.mem_map, List.mem_singleton]
  rintro _ ⟨row, mem, rfl⟩ _ ⟨_, rfl, rfl⟩ same
  exact List.find?_eq_none.mp fresh row mem (by simp [same])

variable (childless : ∀ row ∈ rows, row.parentHeaderHash ≠ x.headerHash)
  (notOwnParent : x.parentHeaderHash ≠ x.headerHash)
include childless notOwnParent

/-- The steps of the longer table: the old ones and, when its parent is stored,
the one from the new row. -/
theorem parent_step_append_iff {child parent : H} :
    ParentStep (rows ++ [x]) child parent ↔
      ParentStep rows child parent ∨
        (child = x.headerHash ∧ parent = x.parentHeaderHash ∧ (lookup rows parent).isSome) := by
  unfold ParentStep
  rw [lookup_append_fresh fresh, lookup_append_fresh fresh]
  by_cases isNew : child = x.headerHash
  · -- no stored block has the new row's hash, so the old steps leave it out
    subst isNew
    by_cases toNew : parent = x.headerHash
    · subst toNew
      simp [fresh, notOwnParent]
    · simp only [fresh, toNew, ↓reduceIte, Option.map_some, Option.some.injEq, Option.map_none,
        reduceCtorEq, false_and, true_and, false_or]
      exact and_congr_left fun _ => eq_comm
  · by_cases toNew : parent = x.headerHash
    · -- no old block has the new row as its parent
      have noChild : (lookup rows child).map (·.parentHeaderHash) ≠ some x.headerHash := by
        cases found : lookup rows child with
        | none => simp
        | some row => simpa using childless row (lookup_mem rows found)
      simp [isNew, toNew, noChild]
    · simp [isNew, toNew]

theorem on_chain_append_to_new {top : H} (chain : OnChain (rows ++ [x]) top x.headerHash) :
    top = x.headerHash := by
  cases chain with
  | refl => rfl
  | tail _ step =>
      rcases (parent_step_append_iff fresh childless notOwnParent).mp step with old | ⟨_, toParent, _⟩
      · exact absurd old.2 (by simp [fresh])
      · exact absurd toParent.symm notOwnParent

theorem on_chain_append_old {top hash : H} (apart : top ≠ x.headerHash) :
    OnChain (rows ++ [x]) top hash ↔ OnChain rows top hash := by
  constructor
  · intro chain
    induction chain with
    | refl => exact ReflTransGen.refl
    | @tail middle hash chain step ih =>
        rcases (parent_step_append_iff fresh childless notOwnParent).mp step with old | ⟨atNew, _, _⟩
        · exact ih.tail old
        · subst atNew
          exact absurd (on_chain_append_to_new fresh childless notOwnParent chain) apart
  · intro chain
    exact ReflTransGen.mono (fun _ _ step => (parent_step_append_iff fresh childless notOwnParent).mpr
      (Or.inl step)) _ _ chain

theorem on_chain_append_new {hash : H} :
    OnChain (rows ++ [x]) x.headerHash hash ↔
      hash = x.headerHash ∨ ((lookup rows x.parentHeaderHash).isSome ∧
        OnChain rows x.parentHeaderHash hash) := by
  rw [OnChain, ReflTransGen.cases_head_iff]
  apply or_congr eq_comm
  constructor
  · rintro ⟨parent, step, rest⟩
    rcases (parent_step_append_iff fresh childless notOwnParent).mp step with old | ⟨_, rfl, stored⟩
    · exact absurd (parent_step_present old) (by simp [fresh])
    · exact ⟨stored, (on_chain_append_old fresh childless notOwnParent notOwnParent).mp rest⟩
  · rintro ⟨stored, rest⟩
    exact ⟨x.parentHeaderHash, (parent_step_append_iff fresh childless notOwnParent).mpr
      (Or.inr ⟨rfl, rfl, stored⟩), (on_chain_append_old fresh childless notOwnParent notOwnParent).mpr rest⟩

theorem between_append_old {top bottom hash : H} (apart : top ≠ x.headerHash) :
    Between (rows ++ [x]) top bottom hash ↔ Between rows top bottom hash := by
  constructor
  · rintro ⟨down, up, off⟩
    have hashOld : hash ≠ x.headerHash := fun same =>
      apart (on_chain_append_to_new fresh childless notOwnParent (same ▸ down))
    exact ⟨(on_chain_append_old fresh childless notOwnParent apart).mp down,
      (on_chain_append_old fresh childless notOwnParent hashOld).mp up, off⟩
  · rintro ⟨down, up, off⟩
    have downAfter := (on_chain_append_old fresh childless notOwnParent apart).mpr down
    have hashOld : hash ≠ x.headerHash := fun same =>
      apart (on_chain_append_to_new fresh childless notOwnParent (same ▸ downAfter))
    exact ⟨downAfter, (on_chain_append_old fresh childless notOwnParent hashOld).mpr up, off⟩

theorem Linked.append (linked : Linked rows)
    (aboveParent : (lookup rows x.parentHeaderHash).isSome →
      x.height = heightOf rows x.parentHeaderHash + 1) :
    Linked (rows ++ [x]) := by
  intro child parent step
  rw [height_of_append_fresh fresh, height_of_append_fresh fresh]
  rcases (parent_step_append_iff fresh childless notOwnParent).mp step with step | ⟨rfl, rfl, stored⟩
  · simp only [ne_of_lookup_is_some fresh (parent_step_present step), ne_of_lookup_is_some fresh step.2,
      ↓reduceIte]
    exact linked _ _ step
  · simp only [↓reduceIte, notOwnParent]
    exact aboveParent stored

end Append

/-! One call of `push_block`: what it can do, then what each case keeps. -/

theorem canonicity_cases {tipOpt : Option (BurnBlockIndexRow H)} {header : BurnBlockIndexRow H}
    {flag needsReorg : Bool} (decided : canonicity tipOpt header = (flag, needsReorg)) :
    (tipOpt = none ∧ flag = true ∧ needsReorg = false) ∨
      ∃ tip, tipOpt = some tip ∧
        ((header.parentHeaderHash = tip.headerHash ∧ flag = true ∧ needsReorg = false) ∨
          (header.parentHeaderHash ≠ tip.headerHash ∧ compareHeaders tip header ≠ .gt ∧
            flag = false ∧ needsReorg = false) ∨
          (header.parentHeaderHash ≠ tip.headerHash ∧ compareHeaders tip header = .gt ∧
            flag = true ∧ needsReorg = true)) := by
  cases tipOpt with
  | none =>
      simp only [canonicity, Prod.mk.injEq] at decided
      exact Or.inl ⟨rfl, decided.1.symm, decided.2.symm⟩
  | some tip =>
      refine Or.inr ⟨tip, rfl, ?_⟩
      simp only [canonicity] at decided
      split_ifs at decided with child before <;> simp only [Prod.mk.injEq] at decided
      · exact Or.inl ⟨child, decided.1.symm, decided.2.symm⟩
      · exact Or.inr (Or.inr ⟨child, before, decided.1.symm, decided.2.symm⟩)
      · exact Or.inr (Or.inl ⟨child, before, decided.1.symm, decided.2.symm⟩)

/-- Everything a call that returns can do: leave the table (a skipped block or a
stored hash), or insert the block as the first row, as a child of the tip, as a
row that does not sort before the tip, or before the tip with a reorg. -/
theorem push_block_cases {first : Nat} {rows after : BlockIndex H} {newBlock : NewBlock H}
    (ran : pushBlock first rows newBlock = .ok after) :
    after = rows ∨
      lookup rows newBlock.indexBlockHash = none ∧ first ≤ newBlock.blockHeight ∧
        ((getCanonicalChainTip rows = none ∧ after = rows ++ [insertedRow newBlock true]) ∨
          ∃ tip, getCanonicalChainTip rows = some tip ∧
            ((newBlock.parentIndexBlockHash = tip.headerHash ∧
                after = rows ++ [insertedRow newBlock true]) ∨
              (newBlock.parentIndexBlockHash ≠ tip.headerHash ∧
                compareHeaders tip newBlock.header ≠ .gt ∧ after = rows ++ [insertedRow newBlock false]) ∨
              (newBlock.parentIndexBlockHash ≠ tip.headerHash ∧ compareHeaders tip newBlock.header = .gt ∧
                ∃ height, processReorg (rows ++ [insertedRow newBlock true]) newBlock.header tip =
                  .ok (height, after)))) := by
  obtain ⟨height, hash, parent⟩ := newBlock
  unfold pushBlock at ran
  simp only [NewBlock.header] at ran ⊢
  rcases decided : canonicity (getCanonicalChainTip rows) ⟨height, hash, parent, false⟩ with ⟨flag, reorg⟩
  simp only [decided] at ran
  split_ifs at ran with skipped stored needsReorg
  · exact Or.inl (Except.ok.inj ran).symm
  · -- whatever the decision, the insert of a stored hash fails and the call returns
    exact Or.inl (Except.ok.inj ran).symm
  all_goals refine Or.inr ⟨Option.not_isSome_iff_eq_none.mp stored, Nat.le_of_not_gt skipped, ?_⟩
  · -- a reorg: the decision is the last one, and the tip exists
    rcases canonicity_cases decided with ⟨_, _, rfl⟩ | ⟨tip, tipFound, ⟨_, _, rfl⟩ | ⟨_, _, _, rfl⟩ |
        ⟨child, before, rfl, -⟩⟩
    · cases needsReorg
    · cases needsReorg
    · cases needsReorg
    · simp only [tipFound] at ran
      obtain ⟨⟨_, reorged⟩, reorg, done⟩ := bind_eq_ok ran
      cases done
      exact Or.inr ⟨tip, tipFound, Or.inr (Or.inr ⟨child, before, _, reorg⟩)⟩
  · rcases canonicity_cases decided with ⟨tipNone, rfl, -⟩ | ⟨tip, tipFound, ⟨child, rfl, -⟩ |
        ⟨child, notBefore, rfl, -⟩ | ⟨_, _, _, rfl⟩⟩
    · exact Or.inl ⟨tipNone, (Except.ok.inj ran).symm⟩
    · exact Or.inr ⟨tip, tipFound, Or.inl ⟨child, (Except.ok.inj ran).symm⟩⟩
    · exact Or.inr ⟨tip, tipFound, Or.inr (Or.inl ⟨child, notBefore, (Except.ok.inj ran).symm⟩)⟩
    · exact absurd rfl needsReorg

/-- A call that fails was a reorg that failed. -/
theorem push_block_eq_error {first : Nat} {rows : BlockIndex H} {newBlock : NewBlock H} {failure : Failure H}
    (failed : pushBlock first rows newBlock = .error failure) :
    lookup rows newBlock.indexBlockHash = none ∧ first ≤ newBlock.blockHeight ∧
      ∃ tip, getCanonicalChainTip rows = some tip ∧ compareHeaders tip newBlock.header = .gt ∧
        processReorg (rows ++ [insertedRow newBlock true]) newBlock.header tip = .error failure := by
  obtain ⟨height, hash, parent⟩ := newBlock
  unfold pushBlock at failed
  simp only [NewBlock.header] at failed ⊢
  rcases decided : canonicity (getCanonicalChainTip rows) ⟨height, hash, parent, false⟩ with ⟨flag, reorg⟩
  simp only [decided] at failed
  -- the calls that return were split off; what is left is the reorg
  split_ifs at failed with skipped stored needsReorg
  refine ⟨Option.not_isSome_iff_eq_none.mp stored, Nat.le_of_not_gt skipped, ?_⟩
  -- only a reorg can fail, and its decision names a tip
  rcases canonicity_cases decided with ⟨_, _, rfl⟩ | ⟨tip, tipFound, ⟨_, _, rfl⟩ | ⟨_, _, _, rfl⟩ |
      ⟨_, before, rfl, -⟩⟩
  · cases needsReorg
  · cases needsReorg
  · cases needsReorg
  · simp only [tipFound] at failed
    refine ⟨tip, tipFound, before, ?_⟩
    cases reorg : processReorg (rows ++ [⟨height % 2 ^ 32, hash, parent, true⟩]) ⟨height, hash, parent, false⟩
        tip with
    | error reorgFailure =>
        rw [reorg, error_bind] at failed
        exact reorg.trans (congrArg Except.error (Except.error.inj failed))
    | ok result =>
        rw [reorg, ok_bind] at failed
        cases failed

/-! The invariant from one call to the next. -/

theorem lookup_of_mem {rows : BlockIndex H} (unique : (rows.map (·.headerHash)).Nodup)
    {row : BurnBlockIndexRow H} (mem : row ∈ rows) : lookup rows row.headerHash = some row := by
  obtain ⟨found, foundFound⟩ : ∃ found, lookup rows row.headerHash = some found := by
    cases search : lookup rows row.headerHash with
    | none => exact absurd (List.find?_eq_none.mp search row mem) (by simp)
    | some found => exact ⟨found, rfl⟩
  rw [foundFound, List.inj_on_of_nodup_map unique (lookup_mem rows foundFound) mem
    (lookup_header_hash rows foundFound)]

theorem marks_tip_chain_of_tip {rows : BlockIndex H} {tip : BurnBlockIndexRow H}
    (tipFound : getCanonicalChainTip rows = some tip)
    (marks : ∀ hash, canonicalMark rows hash = true ↔ OnChain rows tip.headerHash hash) :
    MarksTipChain rows := by
  intro hash
  simp [marks, tipFound]

theorem Indexed.marks_iff {rows : BlockIndex H} (indexed : Indexed rows) {tip : BurnBlockIndexRow H}
    (tipFound : getCanonicalChainTip rows = some tip) (hash : H) :
    canonicalMark rows hash = true ↔ OnChain rows tip.headerHash hash := by
  simp [indexed.marks hash, tipFound]

theorem Indexed.lookup_tip {rows : BlockIndex H} (indexed : Indexed rows) {tip : BurnBlockIndexRow H}
    (tipFound : getCanonicalChainTip rows = some tip) : lookup rows tip.headerHash = some tip :=
  lookup_of_mem indexed.unique (get_canonical_chain_tip_spec tipFound).1

theorem indexed_nil : Indexed ([] : BlockIndex H) where
  unique := List.nodup_nil
  linked := fun _ _ step => absurd step.2 (by simp [lookup])
  marks := fun _ => by simp [canonicalMark, lookup, getCanonicalChainTip]

section Push
variable {rows : BlockIndex H} {newBlock : NewBlock H} (indexed : Indexed rows) (fits : Fits rows newBlock)
  (fresh : lookup rows newBlock.indexBlockHash = none)
include indexed fits fresh

theorem linked_append_inserted (flag : Bool) : Linked (rows ++ [insertedRow newBlock flag]) := by
  refine indexed.linked.append fresh fits.childless fits.notOwnParent fun stored => ?_
  obtain ⟨parent, found⟩ := Option.isSome_iff_exists.mp stored
  rw [inserted_row_parent_header_hash] at found
  have above := fits.aboveParent parent (lookup_mem rows found) (lookup_header_hash rows found)
  rw [inserted_row_height fits.below, above]
  simp [heightOf, found]

/-- An inserted row keeps the hashes unique and the heights linked; what is left
to show is the marks. -/
theorem Indexed.append {flag : Bool} (marks : MarksTipChain (rows ++ [insertedRow newBlock flag])) :
    Indexed (rows ++ [insertedRow newBlock flag]) where
  unique := header_hashes_append_nodup fresh indexed.unique
  linked := linked_append_inserted indexed fits fresh flag
  marks := marks

theorem indexed_push_first (empty : getCanonicalChainTip rows = none) :
    Indexed (rows ++ [insertedRow newBlock true]) := by
  have newTip : getCanonicalChainTip (rows ++ [insertedRow newBlock true]) = some (insertedRow newBlock true) := by
    rw [get_canonical_chain_tip_append, empty]
  refine indexed.append fits fresh (marks_tip_chain_of_tip newTip fun hash => ?_)
  rw [canonical_mark_append_fresh fresh, on_chain_append_new fresh fits.childless fits.notOwnParent]
  obtain rfl := get_canonical_chain_tip_eq_none.mp empty
  simp [canonicalMark, lookup]

/-- A child of the tip becomes the tip, its chain the old one and itself. -/
theorem indexed_push_child {tip : BurnBlockIndexRow H} (tipFound : getCanonicalChainTip rows = some tip)
    (child : newBlock.parentIndexBlockHash = tip.headerHash) :
    Indexed (rows ++ [insertedRow newBlock true]) := by
  have higher : tip.height < (insertedRow newBlock true).height := by
    have above := fits.aboveParent tip (get_canonical_chain_tip_spec tipFound).1 child.symm
    rw [inserted_row_height fits.below]
    omega
  have newTip : getCanonicalChainTip (rows ++ [insertedRow newBlock true]) = some (insertedRow newBlock true) := by
    rw [get_canonical_chain_tip_append, tipFound]
    simp [compare_headers_eq_lt, higher]
  refine indexed.append fits fresh (marks_tip_chain_of_tip newTip fun hash => ?_)
  rw [canonical_mark_append_fresh fresh, on_chain_append_new fresh fits.childless fits.notOwnParent,
    indexed.marks_iff tipFound]
  simp [child, indexed.lookup_tip tipFound]

/-- A block that does not sort before the tip goes in unmarked, off the tip's chain. -/
theorem indexed_push_unmarked {tip : BurnBlockIndexRow H} (tipFound : getCanonicalChainTip rows = some tip)
    (notBefore : compareHeaders tip newBlock.header ≠ .gt) :
    Indexed (rows ++ [insertedRow newBlock false]) := by
  have sameOrder : compareHeaders tip (insertedRow newBlock false) = compareHeaders tip newBlock.header :=
    compare_headers_congr rfl rfl (inserted_row_height fits.below false) rfl
  have notFirst : compareHeaders (insertedRow newBlock false) tip ≠ .lt := by
    intro first
    have swapped := compare_headers_swap.mpr first
    rw [sameOrder] at swapped
    exact notBefore swapped
  have newTip : getCanonicalChainTip (rows ++ [insertedRow newBlock false]) = some tip := by
    rw [get_canonical_chain_tip_append, tipFound]
    simp [notFirst]
  have tipOld : tip.headerHash ≠ (insertedRow newBlock false).headerHash :=
    ne_of_lookup_is_some fresh (by simp [indexed.lookup_tip tipFound])
  refine indexed.append fits fresh (marks_tip_chain_of_tip newTip fun hash => ?_)
  rw [canonical_mark_append_fresh fresh, on_chain_append_old fresh fits.childless fits.notOwnParent tipOld,
    indexed.marks_iff tipFound]
  simp

/-- The greatest common ancestor the up loop of a reorg finds is an old block,
on the new block's parent's chain and on the tip's chain. -/
theorem reorg_ancestor {tip : BurnBlockIndexRow H} (tipFound : getCanonicalChainTip rows = some tip)
    {fuel : Nat} {ancestor : BurnBlockIndexRow H} {middle : BlockIndex H}
    (up : upLoop fuel (rows ++ [insertedRow newBlock true]) newBlock.parentIndexBlockHash =
      .ok (ancestor, middle)) :
    lookup rows ancestor.headerHash = some ancestor ∧
      OnChain rows newBlock.parentIndexBlockHash ancestor.headerHash ∧
      OnChain rows tip.headerHash ancestor.headerHash ∧ (lookup rows newBlock.parentIndexBlockHash).isSome := by
  obtain ⟨found, marked, chain, -, -, -⟩ := up_loop_ok (linked_append_inserted indexed fits fresh true) up
  have parentOld : newBlock.parentIndexBlockHash ≠ (insertedRow newBlock true).headerHash := fits.notOwnParent
  have chainOld := (on_chain_append_old fresh fits.childless fits.notOwnParent parentOld).mp chain
  have ancestorOld : ancestor.headerHash ≠ (insertedRow newBlock true).headerHash := fun same =>
    parentOld (on_chain_append_to_new fresh fits.childless fits.notOwnParent (same ▸ chain))
  rw [lookup_append_fresh fresh, if_neg ancestorOld] at found
  refine ⟨found, chainOld, ?_, on_chain_top_present (by simp [found]) chainOld⟩
  -- the ancestor is marked, so on the tip's chain
  exact (indexed.marks_iff tipFound _).mp (by simp [canonicalMark, found, marked])

/-- A block that sorts before the tip is inserted marked, and a reorg that
returns leaves the marks on the new block's chain: the up loop marks its chain
down to the greatest common ancestor, the down loop unmarks the old tip's chain
above it. -/
theorem indexed_push_reorg {tip : BurnBlockIndexRow H} (tipFound : getCanonicalChainTip rows = some tip)
    (before : compareHeaders tip newBlock.header = .gt) {height : Nat} {after : BlockIndex H}
    (ran : processReorg (rows ++ [insertedRow newBlock true]) newBlock.header tip = .ok (height, after)) :
    Indexed after := by
  obtain ⟨ancestor, middle, up, down⟩ := process_reorg_eq_ok ran
  simp only [NewBlock.header_height, NewBlock.header_parent_header_hash] at up
  have linked := linked_append_inserted indexed fits fresh true
  obtain ⟨-, -, -, unmarked, remarkedUp, marksUp⟩ := up_loop_ok linked up
  obtain ⟨-, chainParent, chainTip, parentStored⟩ := reorg_ancestor indexed fits fresh tipFound up
  obtain ⟨-, -, remarkedDown, marksDown⟩ := down_loop_ok _ (remarkedUp.linked linked) down
  have remarked := remarkedUp.trans remarkedDown
  -- the new block is the tip, and the loops only change marks
  have newTip : getCanonicalChainTip (rows ++ [insertedRow newBlock true]) = some (insertedRow newBlock true) := by
    have sameOrder : compareHeaders tip (insertedRow newBlock true) = compareHeaders tip newBlock.header :=
      compare_headers_congr rfl rfl (inserted_row_height fits.below true) rfl
    have first : compareHeaders (insertedRow newBlock true) tip = .lt := by
      rw [← compare_headers_swap, sameOrder, before]
    rw [get_canonical_chain_tip_append, tipFound]
    simp [first]
  obtain ⟨last, lastFound, lastHash⟩ :
      ∃ last, getCanonicalChainTip after = some last ∧
        last.headerHash = (insertedRow newBlock true).headerHash := by
    have moved := remarked.tip
    rw [newTip] at moved
    simpa using moved
  have tipOld : tip.headerHash ≠ (insertedRow newBlock true).headerHash :=
    ne_of_lookup_is_some fresh (by simp [indexed.lookup_tip tipFound])
  have parentOld : newBlock.parentIndexBlockHash ≠ (insertedRow newBlock true).headerHash := fits.notOwnParent
  refine ⟨?_, remarked.linked linked, marks_tip_chain_of_tip lastFound fun hash => ?_⟩
  · rw [remarked.header_hashes]
    exact header_hashes_append_nodup fresh indexed.unique
  rw [marksDown, marksUp, remarkedUp.between, remarked.on_chain, lastHash,
    canonical_mark_append_fresh fresh, between_append_old fresh fits.childless fits.notOwnParent parentOld,
    between_append_old fresh fits.childless fits.notOwnParent tipOld,
    on_chain_append_new fresh fits.childless fits.notOwnParent, indexed.marks_iff tipFound]
  simp only [inserted_row_header_hash, inserted_row_is_canonical, inserted_row_parent_header_hash, and_true,
    parentStored, true_and]
  -- the old tip's chain splits at the ancestor, and so does the new block's
  have splitTip : OnChain rows tip.headerHash hash ↔
      Between rows tip.headerHash ancestor.headerHash hash ∨ OnChain rows ancestor.headerHash hash :=
    on_chain_split chainTip
  have splitParent : OnChain rows newBlock.parentIndexBlockHash hash ↔
      Between rows newBlock.parentIndexBlockHash ancestor.headerHash hash ∨
        OnChain rows ancestor.headerHash hash :=
    on_chain_split chainParent
  have aboveAncestor : Between rows tip.headerHash ancestor.headerHash hash →
      ¬ OnChain rows ancestor.headerHash hash :=
    between_not_on_chain indexed.linked
  -- the new block is on no old chain
  have newOff : hash = newBlock.indexBlockHash → ¬ Between rows tip.headerHash ancestor.headerHash hash := by
    rintro rfl between
    exact absurd (on_chain_present (by simp [indexed.lookup_tip tipFound]) between.1) (by simp [fresh])
  -- the path the up loop marks was unmarked, so off the old tip's chain
  have pathOff : Between rows newBlock.parentIndexBlockHash ancestor.headerHash hash →
      ¬ OnChain rows tip.headerHash hash := by
    intro between onTip
    have cleared := unmarked hash
      ((between_append_old fresh fits.childless fits.notOwnParent parentOld).mpr between)
    have freshRow : lookup rows (insertedRow newBlock true).headerHash = none := fresh
    have kept := (canonical_mark_append_fresh freshRow hash).mpr
      (Or.inr ((indexed.marks_iff tipFound hash).mpr onTip))
    rw [cleared] at kept
    cases kept
  rw [splitParent]
  tauto

/-- A reorg of a fitting block fails only on a missing header: its up loop
has the block's height and one more pass as fuel, and its down loop walks the
old tip's chain to a stored ancestor. -/
theorem process_reorg_missing_header {tip : BurnBlockIndexRow H}
    (tipFound : getCanonicalChainTip rows = some tip) {failure : Failure H}
    (failed : processReorg (rows ++ [insertedRow newBlock true]) newBlock.header tip = .error failure) :
    ∃ hash, failure = .error (.missingHeaders hash) := by
  have linked := linked_append_inserted indexed fits fresh true
  have parentOld : newBlock.parentIndexBlockHash ≠ (insertedRow newBlock true).headerHash := fits.notOwnParent
  rcases process_reorg_eq_error failed with up | ⟨ancestor, middle, up, down⟩
  · simp only [NewBlock.header_height, NewBlock.header_parent_header_hash] at up
    refine up_loop_eq_error linked (by omega) (fun stored => ?_) up
    -- the stored parent is an old block one below the new one
    rw [lookup_append_fresh fresh, if_neg parentOld] at stored
    obtain ⟨parent, found⟩ := Option.isSome_iff_exists.mp stored
    have above := fits.aboveParent parent (lookup_mem rows found) (lookup_header_hash rows found)
    rw [height_of_append_fresh fresh, if_neg parentOld]
    simp only [heightOf, found, Option.map_some, Option.getD_some]
    omega
  · simp only [NewBlock.header_height, NewBlock.header_parent_header_hash] at up
    obtain ⟨found, -, chainTip, -⟩ := reorg_ancestor indexed fits fresh tipFound up
    obtain ⟨-, -, -, -, remarked, -⟩ := up_loop_ok linked up
    have tipOld : tip.headerHash ≠ (insertedRow newBlock true).headerHash :=
      ne_of_lookup_is_some fresh (by simp [indexed.lookup_tip tipFound])
    have ancestorOld : ancestor.headerHash ≠ (insertedRow newBlock true).headerHash :=
      ne_of_lookup_is_some fresh (by simp [found])
    have stored : (lookup middle ancestor.headerHash).isSome := by
      rw [remarked.lookup_is_some, lookup_append_fresh fresh, if_neg ancestorOld, found]
      rfl
    have chain : OnChain middle tip.headerHash ancestor.headerHash := by
      rw [remarked.on_chain]
      exact (on_chain_append_old fresh fits.childless fits.notOwnParent tipOld).mpr chainTip
    have tipHeight : heightOf middle tip.headerHash = tip.height := by
      rw [remarked.height_of, height_of_append_fresh fresh, if_neg tipOld]
      simp [heightOf, indexed.lookup_tip tipFound]
    have enough : heightOf middle tip.headerHash - heightOf middle ancestor.headerHash < tip.height + 1 := by
      omega
    obtain ⟨after, done⟩ := down_loop_eq_ok (remarked.linked linked) stored chain enough
    rw [done] at down
    cases down

end Push

/-- What the invariant needs of a call: a block that it inserts fits the table. -/
def Admissible (firstBurnHeaderHeight : Nat) (rows : BlockIndex H) (newBlock : NewBlock H) : Prop :=
  firstBurnHeaderHeight ≤ newBlock.blockHeight → lookup rows newBlock.indexBlockHash = none →
    Fits rows newBlock

/-- Every call of a run is admissible on the table the calls before it left. -/
def AdmissibleRun (firstBurnHeaderHeight : Nat) : BlockIndex H → List (NewBlock H) → Prop
  | _, [] => True
  | rows, newBlock :: blocks => Admissible firstBurnHeaderHeight rows newBlock ∧
      AdmissibleRun firstBurnHeaderHeight (pushed firstBurnHeaderHeight rows newBlock) blocks

section Run
variable {first : Nat} {rows : BlockIndex H} {newBlock : NewBlock H}

/-- The step lemma: a call that returns keeps the invariant. -/
theorem push_block_indexed (indexed : Indexed rows) (admissible : Admissible first rows newBlock)
    {after : BlockIndex H} (ran : pushBlock first rows newBlock = .ok after) : Indexed after := by
  rcases push_block_cases ran with rfl | ⟨fresh, above, inserted⟩
  · exact indexed
  · have fits := admissible above fresh
    rcases inserted with ⟨empty, rfl⟩ | ⟨tip, tipFound, ⟨child, rfl⟩ | ⟨_, notBefore, rfl⟩ |
        ⟨_, before, _, reorg⟩⟩
    · exact indexed_push_first indexed fits fresh empty
    · exact indexed_push_child indexed fits fresh tipFound child
    · exact indexed_push_unmarked indexed fits fresh tipFound notBefore
    · exact indexed_push_reorg indexed fits fresh tipFound before reorg

/-- A call fails only in a reorg, and only on a missing header: no loop runs
out of fuel and the panic of `expect` is never reached. -/
theorem push_block_missing_header (indexed : Indexed rows) (admissible : Admissible first rows newBlock)
    {failure : Failure H} (failed : pushBlock first rows newBlock = .error failure) :
    ∃ hash, failure = .error (.missingHeaders hash) := by
  obtain ⟨fresh, above, tip, tipFound, -, reorg⟩ := push_block_eq_error failed
  exact process_reorg_missing_header indexed (admissible above fresh) fresh tipFound reorg

theorem pushed_indexed (indexed : Indexed rows) (admissible : Admissible first rows newBlock) :
    Indexed (pushed first rows newBlock) := by
  unfold pushed
  split
  · rename_i after ran
    exact push_block_indexed indexed admissible ran
  · exact indexed

/-- The run lemma: the invariant holds after every call of an admissible run. -/
theorem foldl_pushed_indexed {blocks : List (NewBlock H)} : ∀ {rows : BlockIndex H}, Indexed rows →
    AdmissibleRun first rows blocks → Indexed (blocks.foldl (pushed first) rows) := by
  induction blocks with
  | nil => exact fun indexed _ => indexed
  | cons newBlock blocks ih => exact fun indexed run => ih (pushed_indexed indexed run.1) run.2

theorem push_all_indexed {blocks : List (NewBlock H)} (run : AdmissibleRun first [] blocks) :
    Indexed (pushAll first blocks) :=
  foldl_pushed_indexed indexed_nil run

end Run

/-! What `read_headers` reads from a table that keeps the invariant: the tip's
chain in a height range, lowest first. -/

section Reads
variable {rows : BlockIndex H} (indexed : Indexed rows)
include indexed

theorem Indexed.is_canonical_iff {tip : BurnBlockIndexRow H} (tipFound : getCanonicalChainTip rows = some tip)
    {row : BurnBlockIndexRow H} (mem : row ∈ rows) :
    row.isCanonical = true ↔ OnChain rows tip.headerHash row.headerHash := by
  rw [← indexed.marks_iff tipFound]
  simp [canonicalMark, lookup_of_mem indexed.unique mem]

theorem Indexed.height_ne {top : H} {first second : BurnBlockIndexRow H} (memFirst : first ∈ rows)
    (memSecond : second ∈ rows) (onFirst : OnChain rows top first.headerHash)
    (onSecond : OnChain rows top second.headerHash) (apart : first.headerHash ≠ second.headerHash) :
    first.height ≠ second.height := by
  have heightFirst : heightOf rows first.headerHash = first.height := by
    simp [heightOf, lookup_of_mem indexed.unique memFirst]
  have heightSecond : heightOf rows second.headerHash = second.height := by
    simp [heightOf, lookup_of_mem indexed.unique memSecond]
  -- one is on the other's chain, strictly below it
  rcases on_chain_total onFirst onSecond with down | up
  · have strict := (reflTransGen_iff_eq_or_transGen.mp down).resolve_left (Ne.symm apart)
    have lower := height_of_trans_gen indexed.linked strict
    omega
  · have strict := (reflTransGen_iff_eq_or_transGen.mp up).resolve_left apart
    have lower := height_of_trans_gen indexed.linked strict
    omega

theorem read_headers_mem {tip : BurnBlockIndexRow H} (tipFound : getCanonicalChainTip rows = some tip)
    (startBlock endBlock : Nat) (header : MockHeader H) :
    header ∈ readHeaders rows startBlock endBlock ↔
      ∃ row ∈ rows, OnChain rows tip.headerHash row.headerHash ∧ startBlock ≤ row.height ∧
        row.height < endBlock ∧ rowToMockHeader row = header := by
  unfold readHeaders
  simp only [List.mem_map, List.mem_mergeSort, List.mem_filter, Bool.and_eq_true, decide_eq_true_eq]
  constructor
  · rintro ⟨row, ⟨mem, ⟨low, high⟩, marked⟩, rfl⟩
    exact ⟨row, mem, (indexed.is_canonical_iff tipFound mem).mp marked, low, high, rfl⟩
  · rintro ⟨row, mem, chain, low, high, rfl⟩
    exact ⟨row, ⟨mem, ⟨low, high⟩, (indexed.is_canonical_iff tipFound mem).mpr chain⟩, rfl⟩

omit indexed in
theorem merge_sort_strictly_sorted {α : Type} (key : α → Nat) (items : List α)
    (distinct : items.Pairwise fun a b => key a ≠ key b) :
    (items.mergeSort fun a b => key a ≤ key b).Pairwise fun a b => key a < key b := by
  have sorted : (items.mergeSort fun a b => key a ≤ key b).Pairwise fun a b => decide (key a ≤ key b) = true :=
    List.pairwise_mergeSort (fun a b c first second => by simp only [decide_eq_true_eq] at *; omega)
      (fun a b => by simp only [Bool.or_eq_true, decide_eq_true_eq]; omega) items
  have apart : (items.mergeSort fun a b => key a ≤ key b).Pairwise fun a b => key a ≠ key b :=
    distinct.perm (List.mergeSort_perm items _).symm fun different => Ne.symm different
  exact (sorted.and apart).imp fun ordered => lt_of_le_of_ne (by simpa using ordered.1) ordered.2

theorem read_headers_sorted (startBlock endBlock : Nat) :
    (readHeaders rows startBlock endBlock).Pairwise fun a b => a.height < b.height := by
  cases tipFound : getCanonicalChainTip rows with
  | none =>
      rw [get_canonical_chain_tip_eq_none.mp tipFound]
      simp [readHeaders]
  | some tip =>
      unfold readHeaders
      rw [List.pairwise_map]
      apply merge_sort_strictly_sorted
      -- the read rows are marked, so on the tip's chain, with distinct hashes
      have hashes : rows.Pairwise fun a b => a.headerHash ≠ b.headerHash :=
        List.pairwise_map.mp indexed.unique
      refine (hashes.filter _).imp_of_mem fun memFirst memSecond apart => ?_
      simp only [List.mem_filter, Bool.and_eq_true] at memFirst memSecond
      exact indexed.height_ne memFirst.1 memSecond.1
        ((indexed.is_canonical_iff tipFound memFirst.1).mp memFirst.2.2)
        ((indexed.is_canonical_iff tipFound memSecond.1).mp memSecond.2.2) apart

end Reads

/-- After every admissible run, the marked rows are the tip's chain, and
`read_headers` returns that chain's headers in the range, in height order. -/
theorem push_all_reads_tip_chain {first : Nat} {blocks : List (NewBlock H)} (run : AdmissibleRun first [] blocks)
    {tip : BurnBlockIndexRow H} (tipFound : getCanonicalChainTip (pushAll first blocks) = some tip)
    (startBlock endBlock : Nat) :
    (∀ hash, canonicalMark (pushAll first blocks) hash = true ↔
      OnChain (pushAll first blocks) tip.headerHash hash) ∧
    (∀ header, header ∈ readHeaders (pushAll first blocks) startBlock endBlock ↔
      ∃ row ∈ pushAll first blocks, OnChain (pushAll first blocks) tip.headerHash row.headerHash ∧
        startBlock ≤ row.height ∧ row.height < endBlock ∧ rowToMockHeader row = header) ∧
    (readHeaders (pushAll first blocks) startBlock endBlock).Pairwise fun a b => a.height < b.height :=
  have indexed := push_all_indexed run
  ⟨indexed.marks_iff tipFound, read_headers_mem indexed tipFound startBlock endBlock,
    read_headers_sorted indexed startBlock endBlock⟩

/-- A fork that overtakes: block 2 is the tip until its sibling 3 gets a
child, and the marks then follow the new tip's chain. -/
theorem overtaking_fork_reads_tip_chain :
    AdmissibleRun 0 [] [(⟨1, 1, 0⟩ : NewBlock Nat), ⟨2, 2, 1⟩, ⟨2, 3, 1⟩, ⟨3, 4, 3⟩] ∧
      getCanonicalChainTip (pushAll 0 [(⟨1, 1, 0⟩ : NewBlock Nat), ⟨2, 2, 1⟩, ⟨2, 3, 1⟩, ⟨3, 4, 3⟩]) =
        some ⟨3, 4, 3, true⟩ ∧
      (∀ hash, canonicalMark (pushAll 0 [(⟨1, 1, 0⟩ : NewBlock Nat), ⟨2, 2, 1⟩, ⟨2, 3, 1⟩, ⟨3, 4, 3⟩]) hash = true ↔
        OnChain (pushAll 0 [(⟨1, 1, 0⟩ : NewBlock Nat), ⟨2, 2, 1⟩, ⟨2, 3, 1⟩, ⟨3, 4, 3⟩]) 4 hash) ∧
      (∀ header, header ∈ readHeaders (pushAll 0 [(⟨1, 1, 0⟩ : NewBlock Nat), ⟨2, 2, 1⟩, ⟨2, 3, 1⟩, ⟨3, 4, 3⟩]) 0 4 ↔
        ∃ row ∈ pushAll 0 [(⟨1, 1, 0⟩ : NewBlock Nat), ⟨2, 2, 1⟩, ⟨2, 3, 1⟩, ⟨3, 4, 3⟩],
          OnChain (pushAll 0 [(⟨1, 1, 0⟩ : NewBlock Nat), ⟨2, 2, 1⟩, ⟨2, 3, 1⟩, ⟨3, 4, 3⟩]) 4 row.headerHash ∧
          0 ≤ row.height ∧ row.height < 4 ∧ rowToMockHeader row = header) ∧
      (readHeaders (pushAll 0 [(⟨1, 1, 0⟩ : NewBlock Nat), ⟨2, 2, 1⟩, ⟨2, 3, 1⟩, ⟨3, 4, 3⟩]) 0 4).Pairwise
        fun a b => a.height < b.height := by
  have run : AdmissibleRun 0 [] [(⟨1, 1, 0⟩ : NewBlock Nat), ⟨2, 2, 1⟩, ⟨2, 3, 1⟩, ⟨3, 4, 3⟩] := by
    refine ⟨fun _ _ => ⟨?_, ?_, ?_, ?_⟩, fun _ _ => ⟨?_, ?_, ?_, ?_⟩, fun _ _ => ⟨?_, ?_, ?_, ?_⟩,
      fun _ _ => ⟨?_, ?_, ?_, ?_⟩, trivial⟩ <;> decide
  have tipFound : getCanonicalChainTip (pushAll 0 [(⟨1, 1, 0⟩ : NewBlock Nat), ⟨2, 2, 1⟩, ⟨2, 3, 1⟩, ⟨3, 4, 3⟩]) =
      some ⟨3, 4, 3, true⟩ := by decide
  exact ⟨run, tipFound, push_all_reads_tip_chain run tipFound 0 4⟩

/-! The insert stores `header.height() as u32`, so a block at height `2 ^ 32`
is stored at height 0. A child of the tip at that height is marked as an
extension of the tip's chain, but the tip, chosen by stored height, stays its
parent: the marks are no longer the tip's chain, and `read_headers` returns a
header off it. -/

section Truncation
variable {first height : Nat} {parent older newer : H}

theorem push_all_wrapping_child (wraps : height % 2 ^ 32 = 2 ^ 32 - 1) (above : first ≤ height)
    (distinct : older ≠ newer) :
    pushAll first [⟨height, older, parent⟩, ⟨height + 1, newer, older⟩] =
      [⟨2 ^ 32 - 1, older, parent, true⟩, ⟨0, newer, older, true⟩] := by
  have notSkipped : ¬ first > height := Nat.not_lt.mpr above
  -- simp computes with the power normalized
  have wrapsNormal : height % 4294967296 = 4294967295 := wraps
  have wrapsNext : (height + 1) % 4294967296 = 0 := by omega
  have firstPushed : pushed first [] ⟨height, older, parent⟩ = [⟨2 ^ 32 - 1, older, parent, true⟩] := by
    simp [pushed, pushBlock, lookup, getCanonicalChainTip, canonicity, NewBlock.header, notSkipped,
      wrapsNormal]
  have secondPushed : pushed first [⟨2 ^ 32 - 1, older, parent, true⟩] ⟨height + 1, newer, older⟩ =
      [⟨2 ^ 32 - 1, older, parent, true⟩, ⟨0, newer, older, true⟩] := by
    have notSkippedNext : ¬ first > height + 1 := by omega
    simp [pushed, pushBlock, lookup, getCanonicalChainTip, canonicity, NewBlock.header, notSkippedNext,
      wrapsNext, distinct]
  rw [pushAll, List.foldl_cons, List.foldl_cons, List.foldl_nil, firstPushed, secondPushed]

/-- Why `Fits` bounds the height: a block and its child at height `2 ^ 32`,
each one above its parent, leave the child marked and read back while the tip
stays the parent, off whose chain the child lies. -/
theorem truncated_height_breaks_tip_chain (wraps : height % 2 ^ 32 = 2 ^ 32 - 1) (above : first ≤ height)
    (distinct : older ≠ newer) (parentOlder : parent ≠ older) (parentNewer : parent ≠ newer) :
    getCanonicalChainTip (pushAll first [⟨height, older, parent⟩, ⟨height + 1, newer, older⟩]) =
        some ⟨2 ^ 32 - 1, older, parent, true⟩ ∧
      canonicalMark (pushAll first [⟨height, older, parent⟩, ⟨height + 1, newer, older⟩]) newer = true ∧
      ¬ OnChain (pushAll first [⟨height, older, parent⟩, ⟨height + 1, newer, older⟩]) older newer ∧
      ⟨0, newer, older⟩ ∈ readHeaders (pushAll first [⟨height, older, parent⟩, ⟨height + 1, newer, older⟩]) 0
        (2 ^ 32) := by
  rw [push_all_wrapping_child wraps above distinct]
  refine ⟨?_, ?_, fun chain => ?_, ?_⟩
  · -- the child's stored height 0 sorts after its parent's
    simp [getCanonicalChainTip, compareHeaders]
  · simp [canonicalMark, lookup, distinct]
  · -- the parent's own parent is not stored, so its chain is itself alone
    rcases ReflTransGen.cases_head_iff.mp chain with same | ⟨next, step, -⟩
    · exact distinct same
    · have stepped := step.1
      simp only [lookup, List.find?_cons, decide_true, Option.map_some, Option.some.injEq] at stepped
      subst stepped
      have stored := step.2
      simp [lookup, Ne.symm parentOlder, Ne.symm parentNewer] at stored
  · simp [readHeaders, rowToMockHeader]

end Truncation

end Hyperchains.BurnIndexer
