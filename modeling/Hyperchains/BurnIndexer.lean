import Hyperchains.Library.Panic

/-! The L1 block index of the subnet node (`testnet/stacks-node/src/burnchains/db_indexer.rs`).
`DBBurnBlockInputChannel::push_block` stores each L1 block as a row of the
`block_index` table and keeps the rows of the canonical chain marked: a child of
the canonical tip extends it, a block that sorts before the tip starts a reorg
(`process_reorg` marks the new block's ancestors up to the first canonical one
and unmarks the old tip's chain down to it), and any other block is stored
unmarked. The tip is the first row of `ORDER BY height DESC, header_hash ASC`,
the order `compare_headers` defines. `read_headers` reads the marked rows of a
height range.

The table is a list of rows in insertion order, its primary key the header
hash; an `INSERT` of a stored hash fails, and `push_block` then returns. A
`push_block` that fails rolls its transaction back, so the table is the one
before the call. The row's `time_stamp` and `block` columns are left out. The
loops of `process_reorg` have no bound in the source; here they take fuel, and
`Failure.diverged` stands for a loop that would not end. -/

namespace Hyperchains.BurnIndexer
open Panic

/-- A row of `block_index`, with the height as the table stores it. -/
structure BurnBlockIndexRow (H : Type) where
  height : Nat
  headerHash : H
  parentHeaderHash : H
  isCanonical : Bool
  deriving DecidableEq, Repr

/-- The fields of `NewBlock` that `push_block` reads. -/
structure NewBlock (H : Type) where
  blockHeight : Nat
  indexBlockHash : H
  parentIndexBlockHash : H
  deriving DecidableEq, Repr

/-- What `read_headers` returns for a row. -/
structure MockHeader (H : Type) where
  height : Nat
  indexHash : H
  parentIndexHash : H
  deriving DecidableEq, Repr

inductive BurnchainError (H : Type) where
  | missingHeaders (hash : H)
  deriving DecidableEq, Repr

inductive Failure (H : Type) where
  | error (error : BurnchainError H)
  | panic (message : String)
  | diverged
  deriving DecidableEq, Repr

variable {H : Type} [LinearOrder H]

abbrev BlockIndex (H : Type) := List (BurnBlockIndexRow H)

/-- `SELECT * FROM block_index WHERE header_hash = ?1`. -/
def lookup (rows : BlockIndex H) (hash : H) : Option (BurnBlockIndexRow H) :=
  rows.find? (·.headerHash = hash)

def getHeaderForHash (rows : BlockIndex H) (hash : H) : Except (Failure H) (BurnBlockIndexRow H) :=
  match lookup rows hash with
  | some row => .ok row
  | none => .error (.error (.missingHeaders hash))

/-- `UPDATE block_index SET is_canonical = ? WHERE header_hash = ?1`. -/
def updateIsCanonical (rows : BlockIndex H) (hash : H) (isCanonical : Bool) : BlockIndex H :=
  rows.map fun row => if row.headerHash = hash then { row with isCanonical := isCanonical } else row

/-- `compare_headers`: the higher block first, then the smaller hash. -/
def compareHeaders (a b : BurnBlockIndexRow H) : Ordering :=
  if a.height > b.height then .lt
  else if a.height < b.height then .gt
  else if a.headerHash < b.headerHash then .lt
  else if a.headerHash > b.headerHash then .gt
  else .eq

/-- `get_canonical_chain_tip`: the first row in the order of `compare_headers`,
which is the order of `ORDER BY height DESC, header_hash ASC`. -/
def getCanonicalChainTip (rows : BlockIndex H) : Option (BurnBlockIndexRow H) :=
  rows.foldl (fun best row =>
    match best with
    | none => some row
    | some tip => if compareHeaders row tip = .lt then some row else some tip) none

/-- Step 1 of `process_reorg`: mark the ancestors of the new tip canonical up to
the first one that already is, the greatest common ancestor. -/
def upLoop : Nat → BlockIndex H → H → Except (Failure H) (BurnBlockIndexRow H × BlockIndex H)
  | 0, _, _ => .error .diverged
  | fuel + 1, rows, upCursor => do
      let cursorHeader ← getHeaderForHash rows upCursor
      if cursorHeader.isCanonical then pure (cursorHeader, rows)
      else upLoop fuel (updateIsCanonical rows upCursor true) cursorHeader.parentHeaderHash

/-- Step 2 of `process_reorg`: unmark the old tip's chain down to the greatest
common ancestor, which stays marked. -/
def downLoop (greatestCommonAncestor : H) : Nat → BlockIndex H → H → Except (Failure H) (BlockIndex H)
  | 0, _, _ => .error .diverged
  | fuel + 1, rows, downCursor => do
      let cursorHeader ← getHeaderForHash rows downCursor
      if cursorHeader.headerHash = greatestCommonAncestor then pure rows
      else
        downLoop greatestCommonAncestor fuel (updateIsCanonical rows downCursor false)
          cursorHeader.parentHeaderHash

/-- `process_reorg`: the height of the greatest common ancestor and the table.
Each pass of a loop moves one block down the chain, so a tip's height and one
more pass bound it. -/
def processReorg (rows : BlockIndex H) (newTip oldTip : BurnBlockIndexRow H) :
    Except (Failure H) (Nat × BlockIndex H) := do
  let (greatestCommonAncestor, rows) ← upLoop (newTip.height + 1) rows newTip.parentHeaderHash
  let rows ← downLoop greatestCommonAncestor.headerHash (oldTip.height + 1) rows oldTip.headerHash
  pure (greatestCommonAncestor.height, rows)

/-- `BurnBlockIndexRow::from(&new_block)`. -/
def NewBlock.header (newBlock : NewBlock H) : BurnBlockIndexRow H :=
  ⟨newBlock.blockHeight, newBlock.indexBlockHash, newBlock.parentIndexBlockHash, false⟩

/-- The decision of `push_block`: whether the new block is canonical, and
whether it starts a reorg. -/
def canonicity (currentCanonicalTipOpt : Option (BurnBlockIndexRow H)) (header : BurnBlockIndexRow H) :
    Bool × Bool :=
  match currentCanonicalTipOpt with
  | none => (true, false)
  | some currentCanonicalTip =>
      if header.parentHeaderHash = currentCanonicalTip.headerHash then (true, false)
      else if compareHeaders currentCanonicalTip header = .gt then (true, true)
      else (false, false)

/-- `DBBurnBlockInputChannel::push_block`: the table after the call, or the
failure that rolls it back. -/
def pushBlock (firstBurnHeaderHeight : Nat) (rows : BlockIndex H) (newBlock : NewBlock H) :
    Except (Failure H) (BlockIndex H) :=
  if firstBurnHeaderHeight > newBlock.blockHeight then .ok rows
  else
    let currentCanonicalTipOpt := getCanonicalChainTip rows
    let header := newBlock.header
    let (isCanonical, needsReorg) := canonicity currentCanonicalTipOpt header
    -- the INSERT writes `header.height() as u32`; a stored hash makes it fail
    if (lookup rows header.headerHash).isSome then .ok rows
    else
      let rows := rows ++ [⟨header.height % 2 ^ 32, header.headerHash, header.parentHeaderHash,
        isCanonical⟩]
      if needsReorg then
        match currentCanonicalTipOpt with
        | some currentCanonicalTip => do
            let (_, rows) ← processReorg rows header currentCanonicalTip
            pure rows
        | none => .error (.panic "Canonical tip should exist if we are doing a reorg")
      else .ok rows

/-- The table after a call: a failed call rolls back. -/
def pushed (firstBurnHeaderHeight : Nat) (rows : BlockIndex H) (newBlock : NewBlock H) : BlockIndex H :=
  match pushBlock firstBurnHeaderHeight rows newBlock with
  | .ok rows => rows
  | .error _ => rows

/-- The table after a sequence of calls on an empty one. -/
def pushAll (firstBurnHeaderHeight : Nat) (blocks : List (NewBlock H)) : BlockIndex H :=
  blocks.foldl (pushed firstBurnHeaderHeight) []

/-- `find_first_canonical_ancestor`: up the parent links from the recorded tip
to the first block marked canonical. -/
def findFirstCanonicalAncestor : Nat → BlockIndex H → H → Except (Failure H) Nat
  | 0, _, _ => .error .diverged
  | fuel + 1, rows, cursor => do
      let cursorHeader ← getHeaderForHash rows cursor
      if cursorHeader.isCanonical then pure cursorHeader.height
      else findFirstCanonicalAncestor fuel rows cursorHeader.parentHeaderHash

/-- `get_highest_header_height`: the tip's height. -/
def getHighestHeaderHeight (rows : BlockIndex H) : Option Nat :=
  (getCanonicalChainTip rows).map (·.height)

/-- `DBBurnchainIndexer::find_chain_reorg`, the `burnchain_cursor` row being the
recorded tip: the fork height, and the recorded tip afterwards. The height is
kept as a result while the cursor is updated, so a walk that fails still moves
the cursor; a failed read of the recorded tip's row rolls the transaction back.
The walk has the recorded tip's height and one more pass as fuel. -/
def findChainReorg (firstBlockHeight : Nat) (rows : BlockIndex H) (lastCanonicalTip : Option H) :
    Except (Failure H) (Except (Failure H) Nat × Option H) := do
  let result ← match lastCanonicalTip with
    | some lastCanonicalTip => do
        let header ← getHeaderForHash rows lastCanonicalTip
        if header.isCanonical then pure (.ok ((getHighestHeaderHeight rows).getD firstBlockHeight))
        else pure (findFirstCanonicalAncestor (header.height + 1) rows lastCanonicalTip)
    | none => pure (.ok ((getHighestHeaderHeight rows).getD firstBlockHeight))
  -- the cursor moves to the current tip, if there is one
  let cursor := match getCanonicalChainTip rows with
    | some currentTip => some currentTip.headerHash
    | none => lastCanonicalTip
  pure (result, cursor)

def rowToMockHeader (input : BurnBlockIndexRow H) : MockHeader H :=
  ⟨input.height, input.headerHash, input.parentHeaderHash⟩

/-- `DBBurnchainIndexer::read_headers`: `SELECT * FROM block_index WHERE height
>= ?1 AND height < ?2 and is_canonical = true ORDER BY height`. -/
def readHeaders (rows : BlockIndex H) (startBlock endBlock : Nat) : List (MockHeader H) :=
  ((rows.filter fun row => startBlock ≤ row.height && row.height < endBlock && row.isCanonical).mergeSort
    fun a b => a.height ≤ b.height).map rowToMockHeader

/-! The table's reads after each write, and the order of `compare_headers`. -/

section Table
variable (rows : BlockIndex H)

/-- A row with its canonical mark set as `updateIsCanonical` sets it. -/
def marked (hash : H) (isCanonical : Bool) (row : BurnBlockIndexRow H) : BurnBlockIndexRow H :=
  if row.headerHash = hash then { row with isCanonical := isCanonical } else row

@[simp] theorem marked_height (hash : H) (flag : Bool) (row : BurnBlockIndexRow H) :
    (marked hash flag row).height = row.height := by
  unfold marked; split <;> rfl

@[simp] theorem marked_header_hash (hash : H) (flag : Bool) (row : BurnBlockIndexRow H) :
    (marked hash flag row).headerHash = row.headerHash := by
  unfold marked; split <;> rfl

@[simp] theorem marked_parent_header_hash (hash : H) (flag : Bool) (row : BurnBlockIndexRow H) :
    (marked hash flag row).parentHeaderHash = row.parentHeaderHash := by
  unfold marked; split <;> rfl

theorem update_is_canonical_eq_map (hash : H) (flag : Bool) :
    updateIsCanonical rows hash flag = rows.map (marked hash flag) := rfl

theorem lookup_update_is_canonical (hash : H) (flag : Bool) (other : H) :
    lookup (updateIsCanonical rows hash flag) other = (lookup rows other).map (marked hash flag) := by
  unfold lookup
  rw [update_is_canonical_eq_map, List.find?_map]
  congr 2
  funext row
  simp

theorem lookup_append (row : BurnBlockIndexRow H) (hash : H) :
    lookup (rows ++ [row]) hash = (lookup rows hash).or (if row.headerHash = hash then some row else none) := by
  unfold lookup
  rw [List.find?_append]
  by_cases same : row.headerHash = hash <;> simp [same]

theorem lookup_header_hash {hash : H} {row : BurnBlockIndexRow H} (found : lookup rows hash = some row) :
    row.headerHash = hash := by
  simpa using List.find?_some found

theorem lookup_mem {hash : H} {row : BurnBlockIndexRow H} (found : lookup rows hash = some row) :
    row ∈ rows :=
  List.mem_of_find?_eq_some found

theorem get_header_for_hash_eq_ok {hash : H} {row : BurnBlockIndexRow H} :
    getHeaderForHash rows hash = .ok row ↔ lookup rows hash = some row := by
  unfold getHeaderForHash
  split <;> simp_all

end Table

section Order
variable {a b c : BurnBlockIndexRow H}

/-- `compare_headers` puts `a` first: a higher block, or the same height and a
smaller hash. -/
theorem compare_headers_eq_lt :
    compareHeaders a b = .lt ↔ b.height < a.height ∨ (a.height = b.height ∧ a.headerHash < b.headerHash) := by
  unfold compareHeaders
  split_ifs <;> simp_all <;> omega

/-- ... and `b` first in the other order. -/
theorem compare_headers_eq_gt :
    compareHeaders a b = .gt ↔ a.height < b.height ∨ (a.height = b.height ∧ b.headerHash < a.headerHash) := by
  unfold compareHeaders
  split_ifs <;> simp_all
  -- what is left compares the hashes where the heights already decide
  all_goals first
    | exact ⟨by omega, fun _ => by omega⟩
    | exact fun _ => le_of_lt ‹_›
    | exact Or.inr (by omega)

theorem compare_headers_swap : compareHeaders a b = .gt ↔ compareHeaders b a = .lt := by
  rw [compare_headers_eq_gt, compare_headers_eq_lt]
  constructor <;> rintro (higher | ⟨same, smaller⟩)
  · exact Or.inl higher
  · exact Or.inr ⟨same.symm, smaller⟩
  · exact Or.inl higher
  · exact Or.inr ⟨same.symm, smaller⟩

theorem compare_headers_self (a : BurnBlockIndexRow H) : compareHeaders a a ≠ .lt := by
  simp [compare_headers_eq_lt]

theorem compare_headers_trans (first : compareHeaders a b = .lt) (second : compareHeaders b c = .lt) :
    compareHeaders a c = .lt := by
  rw [compare_headers_eq_lt] at *
  rcases first with higher | ⟨same, smaller⟩ <;> rcases second with higher' | ⟨same', smaller'⟩
  · omega
  · omega
  · omega
  · exact Or.inr ⟨same.trans same', smaller.trans smaller'⟩

theorem compare_headers_congr {a' b' : BurnBlockIndexRow H} (heightA : a'.height = a.height)
    (hashA : a'.headerHash = a.headerHash) (heightB : b'.height = b.height)
    (hashB : b'.headerHash = b.headerHash) : compareHeaders a' b' = compareHeaders a b := by
  simp [compareHeaders, heightA, hashA, heightB, hashB]

end Order

/-! The scan of `get_canonical_chain_tip` keeps the first row so far, so a row
appended to the table is compared with the old tip alone. -/

section Tip

theorem get_canonical_chain_tip_append (rows : BlockIndex H) (row : BurnBlockIndexRow H) :
    getCanonicalChainTip (rows ++ [row]) =
      some (match getCanonicalChainTip rows with
        | none => row
        | some tip => if compareHeaders row tip = .lt then row else tip) := by
  unfold getCanonicalChainTip
  rw [List.foldl_append, List.foldl_cons, List.foldl_nil]
  split
  · rfl
  · split <;> rfl

theorem get_canonical_chain_tip_eq_none {rows : BlockIndex H} :
    getCanonicalChainTip rows = none ↔ rows = [] := by
  induction rows using List.reverseRecOn with
  | nil => simp [getCanonicalChainTip]
  | append_singleton rows row _ => simp [get_canonical_chain_tip_append]

/-- The tip is a row that no row of the table sorts before. -/
theorem get_canonical_chain_tip_spec {rows : BlockIndex H} {tip : BurnBlockIndexRow H}
    (found : getCanonicalChainTip rows = some tip) :
    tip ∈ rows ∧ ∀ row ∈ rows, compareHeaders row tip ≠ .lt := by
  induction rows using List.reverseRecOn generalizing tip with
  | nil => simp [getCanonicalChainTip] at found
  | append_singleton rows row ih =>
      rw [get_canonical_chain_tip_append] at found
      cases earlier : getCanonicalChainTip rows with
      | none =>
          rw [get_canonical_chain_tip_eq_none.mp earlier]
          simp only [earlier, Option.some.injEq] at found
          subst found
          simp [compare_headers_self]
      | some old =>
          obtain ⟨oldMem, oldFirst⟩ := ih earlier
          simp only [earlier, Option.some.injEq] at found
          split at found
          · -- the new row sorts before the old tip, so before every row
            rename_i before
            subst found
            refine ⟨by simp, fun other mem => ?_⟩
            rcases List.mem_append.mp mem with inRows | isRow
            · exact fun after => oldFirst other inRows (compare_headers_trans after before)
            · rw [List.mem_singleton.mp isRow]
              exact compare_headers_self _
          · rename_i notBefore
            subst found
            refine ⟨List.mem_append_left _ oldMem, fun other mem => ?_⟩
            rcases List.mem_append.mp mem with inRows | isRow
            · exact oldFirst other inRows
            · rw [List.mem_singleton.mp isRow]
              exact notBefore

/-- Changing marks does not move the tip. -/
theorem get_canonical_chain_tip_map (rows : BlockIndex H) (f : BurnBlockIndexRow H → BurnBlockIndexRow H)
    (keepsHeight : ∀ row, (f row).height = row.height)
    (keepsHash : ∀ row, (f row).headerHash = row.headerHash) :
    getCanonicalChainTip (rows.map f) = (getCanonicalChainTip rows).map f := by
  induction rows using List.reverseRecOn with
  | nil => rfl
  | append_singleton rows row ih =>
      rw [List.map_append, List.map_singleton, get_canonical_chain_tip_append,
        get_canonical_chain_tip_append, ih]
      cases getCanonicalChainTip rows with
      | none => rfl
      | some tip =>
          simp only [Option.map_some]
          rw [compare_headers_congr (keepsHeight row) (keepsHash row) (keepsHeight tip) (keepsHash tip)]
          split <;> rfl

end Tip

end Hyperchains.BurnIndexer
