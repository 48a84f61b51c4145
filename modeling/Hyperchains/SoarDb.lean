import Hyperchains.Library.Panic

/-! `soar-db` (`lib.rs`, `memory.rs`): a key-value store that keeps one view, of
its current block, and the put log of every block. Moving to another block
undoes the logs from the current block down to the fork point and replays those
from the fork point up to the block. The `HashMap`s are association lists, and
block ids are of any type with equality. A call fails by returning a
`SoarError`, by panicking, or by running a loop of `set_block` that never ends;
each loop is given the heights as fuel, which is enough wherever the parent
links are those `add_block_ops` stores (`set_block_ends`). -/

namespace Hyperchains.SoarDb

/-- `PutCommand`: a put, with the value it overwrote. -/
structure PutCommand where
  key : String
  priorValue : Option String
  value : String
  deriving DecidableEq, Repr

inductive SoarError (B : Type) where
  | noParentBlock (message : String)
  | blockNotFound (block : B)
  | genesisRewriteAttempted
  | blockHeightOverflow
  | mismatchViewDuringRollback
  | rollbackBeyondGenesis
  deriving DecidableEq, Repr

inductive Failure (B : Type) where
  | error (error : SoarError B)
  | panic (message : String)
  | diverged
  deriving DecidableEq, Repr

structure BlockData (B : Type) where
  putLog : List PutCommand
  parent : Option B
  height : Nat
  deriving DecidableEq, Repr

/-- `u64::MAX`, the bound of `checked_add` on heights. -/
def u64Max : Nat := 2 ^ 64 - 1

variable {B : Type} [DecidableEq B]

structure MemoryBackingStore (B : Type) where
  currentBlock : Option B
  entries : AList (fun _ : String => String)
  blocks : AList (fun _ : B => BlockData B)
  deriving DecidableEq

namespace MemoryBackingStore

def new : MemoryBackingStore B := ⟨none, ∅, ∅⟩

def hasBlock (store : MemoryBackingStore B) (block : B) : Bool :=
  (store.blocks.lookup block).isSome

def applyPut (store : MemoryBackingStore B) (command : PutCommand) : MemoryBackingStore B :=
  { store with entries := store.entries.insert command.key command.value }

/-- `undo_put`: put back the prior value; the entry must hold the value the put
wrote. -/
def undoPut (store : MemoryBackingStore B) (command : PutCommand) :
    Except (Failure B) (MemoryBackingStore B) :=
  let oldValue := store.entries.lookup command.key
  let entries := match command.priorValue with
    | some priorValue => store.entries.insert command.key priorValue
    | none => store.entries.erase command.key
  if oldValue = some command.value then .ok { store with entries }
  else .error (.panic "Undo operation applied to an entry that had an unexpected value")

def setCurrentBlock (store : MemoryBackingStore B) (block : B) : MemoryBackingStore B :=
  { store with currentBlock := some block }

def reapplyBlock (store : MemoryBackingStore B) (block : B) :
    Except (Failure B) (MemoryBackingStore B) :=
  match store.blocks.lookup block with
  | none => .error (.error (.blockNotFound block))
  | some blockData => .ok ((blockData.putLog.foldl applyPut store).setCurrentBlock block)

def undoBlock (store : MemoryBackingStore B) (expectedCurBlock : B) :
    Except (Failure B) (MemoryBackingStore B) :=
  if store.currentBlock ≠ some expectedCurBlock then .error (.error .mismatchViewDuringRollback)
  else match store.blocks.lookup expectedCurBlock with
    | none => .error (.panic "Could not find block data for current block")
    | some blockData => do
        -- undo each operation in reverse order from the edit log
        let undone ← blockData.putLog.reverse.foldlM undoPut store
        pure { undone with currentBlock := blockData.parent }

def getBlockParent (store : MemoryBackingStore B) (block : B) : Except (Failure B) B :=
  match store.blocks.lookup block with
  | some data => match data.parent with
    | some parent => .ok parent
    | none => .error (.error (.noParentBlock "No parent at zero-block"))
  | none => .error (.error (.blockNotFound block))

def getBlockHeight (store : MemoryBackingStore B) (block : B) : Except (Failure B) Nat :=
  match store.blocks.lookup block with
  | some data => .ok data.height
  | none => .error (.error (.blockNotFound block))

def isEmpty (store : MemoryBackingStore B) : Bool :=
  store.currentBlock.isNone && store.blocks.entries.isEmpty && store.entries.entries.isEmpty

/-- `store_genesis_block`; the entry is written before the assertion reads what
it replaced, so a panic leaves it overwritten. -/
def storeGenesisBlock (store : MemoryBackingStore B) (block : B) (putLog : List PutCommand) :
    Except (Failure B) (MemoryBackingStore B) :=
  if store.currentBlock.isSome then .error (.error .genesisRewriteAttempted)
  else
    let prior := store.blocks.lookup block
    let blocks := store.blocks.insert block ⟨putLog, none, 0⟩
    if prior.isSome then .error (.panic "Stored block data over an existing block entry")
    else .ok { store with blocks }

def storeBlockData (store : MemoryBackingStore B) (block parent : B) (putLog : List PutCommand) :
    Except (Failure B) (MemoryBackingStore B) :=
  match store.blocks.lookup parent with
  | none => .error (.error (.noParentBlock "Parent block has not been processed yet"))
  | some parentData =>
      if parentData.height + 1 > u64Max then .error (.error .blockHeightOverflow)
      else
        let prior := store.blocks.lookup block
        let blocks := store.blocks.insert block ⟨putLog, some parent, parentData.height + 1⟩
        if prior.isSome then .error (.panic "Stored block data over an existing block entry")
        else .ok { store with blocks }

end MemoryBackingStore

structure SoarDB (B : Type) where
  storage : MemoryBackingStore B
  deriving DecidableEq

namespace SoarDB

open MemoryBackingStore

def newMemory : SoarDB B := ⟨.new⟩

def currentBlock (db : SoarDB B) : Option B := db.storage.currentBlock

/-- `get_value`, which never fails. -/
def getValue (db : SoarDB B) (key : String) : Option String := db.storage.entries.lookup key

/-- `current_block().ok_or_else(|| RollbackBeyondGenesis)`. -/
def currentBlockOrRollback (db : SoarDB B) : Except (Failure B) B :=
  match db.currentBlock with
  | some block => .ok block
  | none => .error (.error .rollbackBeyondGenesis)

/-- `SoarDB::get_block_parent`: the parent and its height, asserted one below. -/
def getBlockParent (db : SoarDB B) (block : B) (blockHt : Nat) : Except (Failure B) (B × Nat) :=
  if blockHt = 0 then .error (.error (.noParentBlock "No parent at zero-block"))
  else do
    let parent ← db.storage.getBlockParent block
    let parentHt ← db.storage.getBlockHeight parent
    if blockHt - 1 = parentHt then pure (parent, parentHt)
    else .error (.panic "assertion failed: block_ht - 1 == parent_ht")

/-- The first loop of `set_block`: step the higher of the two ancestors to its
parent until the heights agree, recording each ancestor of the target taken. -/
def equalizeHeights (db : SoarDB B) :
    Nat → B × Nat → B × Nat → List B → Except (Failure B) ((B × Nat) × (B × Nat) × List B)
  | 0, _, _, _ => .error .diverged
  | fuel + 1, (a, aHt), (b, bHt), ancestorsB =>
      if aHt = bHt then .ok ((a, aHt), (b, bHt), ancestorsB)
      else if aHt > bHt then do
        let nextA ← db.getBlockParent a aHt
        equalizeHeights db fuel nextA (b, bHt) ancestorsB
      else do
        let nextB ← db.getBlockParent b bHt
        equalizeHeights db fuel (a, aHt) nextB (ancestorsB ++ [nextB.1])

/-- The second loop: step both ancestors until they meet, at the fork point.
Unlike the first loop, it records nothing. -/
def meetAncestors (db : SoarDB B) : Nat → B × Nat → B × Nat → Except (Failure B) (B × Nat)
  | 0, _, _ => .error .diverged
  | fuel + 1, (a, aHt), (b, bHt) =>
      if a = b then .ok (a, aHt)
      else do
        let nextA ← db.getBlockParent a aHt
        let nextB ← db.getBlockParent b bHt
        meetAncestors db fuel nextA nextB

/-- Step 2 of `set_block`: undo from the current block down to the fork point. -/
def undoToForkPoint (forkPoint : B) : Nat → SoarDB B → Except (Failure B) (SoarDB B)
  | 0, _ => .error .diverged
  | fuel + 1, db => do
      let current ← db.currentBlockOrRollback
      if current = forkPoint then pure db
      else do
        let storage ← db.storage.undoBlock current
        undoToForkPoint forkPoint fuel ⟨storage⟩

/-- Step 3: reapply the recorded blocks, oldest first, each onto its parent. -/
def replayBlocks : List B → SoarDB B → Except (Failure B) (SoarDB B)
  | [], db => .ok db
  | blockToApply :: rest, db => do
      let current ← db.currentBlockOrRollback
      let parent ← db.storage.getBlockParent blockToApply
      if current = parent then do
        let storage ← db.storage.reapplyBlock blockToApply
        replayBlocks rest ⟨storage⟩
      else .error (.panic "Failed while replaying operations: expected parent and current block to align")

/-- `set_block`: retarget the view to `block`. -/
def setBlock (db : SoarDB B) (block : B) : Except (Failure B) (SoarDB B) :=
  if db.currentBlock = some block then .ok db
  else if !db.storage.hasBlock block then .error (.error (.blockNotFound block))
  else do
    let ancestorA ← db.currentBlockOrRollback
    let ancestorAHt ← db.storage.getBlockHeight ancestorA
    let ancestorBHt ← db.storage.getBlockHeight block
    let (a, b, ancestorsB) ← db.equalizeHeights (ancestorAHt + ancestorBHt + 1)
      (ancestorA, ancestorAHt) (block, ancestorBHt) [block]
    let (forkPoint, _) ← db.meetAncestors (a.2 + 1) a b
    let ancestorsB := if ancestorsB.getLast? = some forkPoint then ancestorsB.dropLast else ancestorsB
    let undone ← undoToForkPoint forkPoint (ancestorAHt + 2) db
    let replayed ← replayBlocks ancestorsB.reverse undone
    let current ← replayed.currentBlockOrRollback
    if current = block then .ok replayed
    else .error (.panic "Failed while replaying operations: expected current block to align to block")

def addGenesis (db : SoarDB B) (block : B) (putList : List PutCommand) :
    Except (Failure B) (SoarDB B) :=
  if !db.storage.isEmpty then .error (.error .genesisRewriteAttempted)
  else do
    let storage ← db.storage.storeGenesisBlock block putList
    pure ⟨(putList.foldl applyPut storage).setCurrentBlock block⟩

/-- `add_block_ops`: retarget to the parent, then store and apply the block. -/
def addBlockOps (db : SoarDB B) (block parent : B) (putList : List PutCommand) :
    Except (Failure B) (SoarDB B) := do
  let db ← db.setBlock parent
  let storage ← db.storage.storeBlockData block parent putList
  pure ⟨(putList.foldl applyPut storage).setCurrentBlock block⟩

end SoarDB

/-! ## The view of a block

The view a block stands for is its chain's put logs, genesis first, applied to
the empty view. `chainLogs` reads the chain through the parent links, with the
block's height as fuel: the heights go down by one along a link. -/

/-- What each key reads. -/
abbrev View := String → Option String

def applyPuts (view : View) (puts : List PutCommand) : View :=
  puts.foldl (fun view put => Function.update view put.key (some put.value)) view

@[simp] theorem apply_puts_nil (view : View) : applyPuts view [] = view := rfl

@[simp] theorem apply_puts_cons (view : View) (put : PutCommand) (rest : List PutCommand) :
    applyPuts view (put :: rest) = applyPuts (Function.update view put.key (some put.value)) rest := rfl

theorem apply_puts_append (view : View) (first second : List PutCommand) :
    applyPuts view (first ++ second) = applyPuts (applyPuts view first) second :=
  List.foldl_append ..

/-- Each put names, as its prior value, what its key read just before it. -/
def Consistent : View → List PutCommand → Prop
  | _, [] => True
  | view, put :: rest =>
      put.priorValue = view put.key ∧ Consistent (Function.update view put.key (some put.value)) rest

abbrev Blocks (B : Type) := AList (fun _ : B => BlockData B)

def chainLogs (blocks : Blocks B) : Nat → B → List PutCommand
  | 0, _ => []
  | fuel + 1, block =>
      match blocks.lookup block with
      | none => []
      | some data =>
          match data.parent with
          | none => data.putLog
          | some parent => chainLogs blocks fuel parent ++ data.putLog

def viewAt (blocks : Blocks B) (block : B) : View :=
  ((blocks.lookup block).map fun data =>
    applyPuts (fun _ => none) (chainLogs blocks (data.height + 1) block)).getD fun _ => none

theorem view_at_genesis {blocks : Blocks B} {block : B} {data : BlockData B}
    (found : blocks.lookup block = some data) (root : data.parent = none) :
    viewAt blocks block = applyPuts (fun _ => none) data.putLog := by
  simp [viewAt, found, chainLogs, root]

theorem view_at_child {blocks : Blocks B} {block parent : B} {data parentData : BlockData B}
    (found : blocks.lookup block = some data) (link : data.parent = some parent)
    (parentFound : blocks.lookup parent = some parentData) (height : data.height = parentData.height + 1) :
    viewAt blocks block = applyPuts (viewAt blocks parent) data.putLog := by
  simp [viewAt, found, parentFound, height, chainLogs, link, apply_puts_append]

/-- The parent links `add_genesis` and `add_block_ops` store: a block without a
parent is at height 0 and is the only one, and every other block is one above
its stored parent, within `u64`. -/
structure Linked (blocks : Blocks B) : Prop where
  genesis : ∀ block data, blocks.lookup block = some data → data.parent = none → data.height = 0
  child : ∀ block data parent, blocks.lookup block = some data → data.parent = some parent →
    ∃ parentData, blocks.lookup parent = some parentData ∧ data.height = parentData.height + 1
  unique : ∀ block data other otherData, blocks.lookup block = some data →
    blocks.lookup other = some otherData → data.parent = none → otherData.parent = none → block = other
  bounded : ∀ block data, blocks.lookup block = some data → data.height ≤ u64Max

/-- Every stored block descends from a block at height 0 without a parent. -/
theorem Linked.genesis_exists {blocks : Blocks B} (linked : Linked blocks) :
    ∀ height block data, blocks.lookup block = some data → data.height = height →
      ∃ root rootData, blocks.lookup root = some rootData ∧ rootData.parent = none ∧ rootData.height = 0 := by
  intro height
  induction height with
  | zero =>
      intro block data found low
      cases link : data.parent with
      | none => exact ⟨block, data, found, link, low⟩
      | some parent =>
          obtain ⟨_, _, above⟩ := linked.child block data parent found link
          omega
  | succ height ih =>
      intro block data found high
      cases link : data.parent with
      | none => exact ⟨block, data, found, link, linked.genesis block data found link⟩
      | some parent =>
          obtain ⟨parentData, parentFound, above⟩ := linked.child block data parent found link
          exact ih parent parentData parentFound (by omega)

-- Storing a new block leaves the chain of every stored block as it was.
theorem chain_logs_insert {blocks : Blocks B} (linked : Linked blocks) {fresh : B}
    (notStored : blocks.lookup fresh = none) (data : BlockData B) :
    ∀ fuel block, (blocks.lookup block).isSome →
      chainLogs (blocks.insert fresh data) fuel block = chainLogs blocks fuel block := by
  intro fuel
  induction fuel with
  | zero => intros; rfl
  | succ fuel ih =>
      intro block stored
      have other : block ≠ fresh := by
        rintro rfl
        simp [notStored] at stored
      obtain ⟨blockData, found⟩ := Option.isSome_iff_exists.mp stored
      simp only [chainLogs, AList.lookup_insert_ne other, found]
      cases link : blockData.parent with
      | none => rfl
      | some parent =>
          obtain ⟨parentData, parentFound, _⟩ := linked.child block blockData parent found link
          simp [ih parent (by simp [parentFound])]

theorem view_at_insert {blocks : Blocks B} (linked : Linked blocks) {fresh : B}
    (notStored : blocks.lookup fresh = none) (data : BlockData B) {block : B}
    (stored : (blocks.lookup block).isSome) :
    viewAt (blocks.insert fresh data) block = viewAt blocks block := by
  have other : block ≠ fresh := by
    rintro rfl
    simp [notStored] at stored
  obtain ⟨blockData, found⟩ := Option.isSome_iff_exists.mp stored
  simp [viewAt, AList.lookup_insert_ne other, found, chain_logs_insert linked notStored data _ block stored]

theorem Linked.insert_child {blocks : Blocks B} (linked : Linked blocks) {block parent : B}
    {parentData : BlockData B} (fresh : blocks.lookup block = none)
    (parentFound : blocks.lookup parent = some parentData) (room : parentData.height + 1 ≤ u64Max)
    (putLog : List PutCommand) :
    Linked (blocks.insert block ⟨putLog, some parent, parentData.height + 1⟩) := by
  -- every other block reads as before
  have before : ∀ other, other ≠ block → (blocks.insert block ⟨putLog, some parent, parentData.height + 1⟩).lookup other =
      blocks.lookup other := fun other ne => AList.lookup_insert_ne ne
  have parentBefore : parent ≠ block := by
    rintro rfl
    rw [fresh] at parentFound
    cases parentFound
  constructor
  · intro other data found root
    by_cases same : other = block
    · subst same
      simp [AList.lookup_insert] at found
      rw [← found] at root
      cases root
    · rw [before other same] at found
      exact linked.genesis other data found root
  · intro other data otherParent found link
    by_cases same : other = block
    · subst same
      simp only [AList.lookup_insert, Option.some.injEq] at found
      subst found
      cases link
      exact ⟨parentData, by rw [before _ parentBefore, parentFound], rfl⟩
    · rw [before other same] at found
      obtain ⟨grandData, grandFound, height⟩ := linked.child other data otherParent found link
      have grandBefore : otherParent ≠ block := by
        rintro rfl
        rw [fresh] at grandFound
        cases grandFound
      exact ⟨grandData, by rw [before _ grandBefore, grandFound], height⟩
  · intro first data second secondData found secondFound root secondRoot
    have notNew : ∀ other otherData, (blocks.insert block ⟨putLog, some parent, parentData.height + 1⟩).lookup other =
        some otherData → otherData.parent = none → blocks.lookup other = some otherData := by
      intro other otherData otherFound otherRoot
      by_cases same : other = block
      · subst same
        simp only [AList.lookup_insert, Option.some.injEq] at otherFound
        rw [← otherFound] at otherRoot
        cases otherRoot
      · rwa [before other same] at otherFound
    exact linked.unique first data second secondData (notNew first data found root)
      (notNew second secondData secondFound secondRoot) root secondRoot
  · intro other data found
    by_cases same : other = block
    · subst same
      simp only [AList.lookup_insert, Option.some.injEq] at found
      rw [← found]
      exact room
    · rw [before other same] at found
      exact linked.bounded other data found

namespace MemoryBackingStore

/-- The entries as a view. -/
def view (store : MemoryBackingStore B) : View := fun key => store.entries.lookup key

omit [DecidableEq B] in
@[simp] theorem view_apply_put (store : MemoryBackingStore B) (put : PutCommand) :
    (store.applyPut put).view = Function.update store.view put.key (some put.value) := by
  funext key
  by_cases same : key = put.key
  · subst same
    simp [view, applyPut, AList.lookup_insert]
  · simp [view, applyPut, AList.lookup_insert_ne same, same]

omit [DecidableEq B] in
/-- Applying a log: the entries read the log applied to them, and nothing else changes. -/
theorem fold_apply_put (puts : List PutCommand) :
    ∀ store : MemoryBackingStore B, (puts.foldl applyPut store).view = applyPuts store.view puts ∧
      (puts.foldl applyPut store).blocks = store.blocks ∧
      (puts.foldl applyPut store).currentBlock = store.currentBlock := by
  induction puts with
  | nil => intro store; exact ⟨rfl, rfl, rfl⟩
  | cons put rest ih =>
      intro store
      obtain ⟨view, blocks, current⟩ := ih (store.applyPut put)
      refine ⟨?_, blocks, current⟩
      simp only [List.foldl_cons, view, view_apply_put, apply_puts_cons]

omit [DecidableEq B] in
theorem undo_put_spec (store : MemoryBackingStore B) (put : PutCommand)
    (holds : store.view put.key = some put.value) :
    ∃ store', store.undoPut put = .ok store' ∧
      store'.view = Function.update store.view put.key put.priorValue ∧
      store'.blocks = store.blocks ∧ store'.currentBlock = store.currentBlock := by
  have written : store.entries.lookup put.key = some put.value := holds
  cases prior : put.priorValue with
  | none =>
      refine ⟨{ store with entries := store.entries.erase put.key }, ?_, ?_, rfl, rfl⟩
      · simp [undoPut, written, prior]
      · funext key
        by_cases same : key = put.key
        · subst same
          simp [view, AList.lookup_erase]
        · simp [view, same, AList.lookup_erase_ne same]
  | some priorValue =>
      refine ⟨{ store with entries := store.entries.insert put.key priorValue }, ?_, ?_, rfl, rfl⟩
      · simp [undoPut, written, prior]
      · funext key
        by_cases same : key = put.key
        · subst same
          simp [view, AList.lookup_insert]
        · simp [view, same, AList.lookup_insert_ne same]

omit [DecidableEq B] in
/-- Undoing a consistent log, last put first, gives back the view it was applied to. -/
theorem undo_puts_restores (puts : List PutCommand) :
    ∀ (view : View), Consistent view puts → ∀ store : MemoryBackingStore B,
      store.view = applyPuts view puts →
      ∃ store', puts.reverse.foldlM undoPut store = .ok store' ∧ store'.view = view ∧
        store'.blocks = store.blocks ∧ store'.currentBlock = store.currentBlock := by
  induction puts with
  | nil =>
      intro view _ store holds
      exact ⟨store, rfl, holds, rfl, rfl⟩
  | cons put rest ih =>
      intro view consistent store holds
      obtain ⟨prior, restConsistent⟩ := consistent
      -- the rest of the log is undone first, back to the view just after `put`
      obtain ⟨middle, undoneRest, middleView, middleBlocks, middleCurrent⟩ :=
        ih _ restConsistent store holds
      have written : middle.view put.key = some put.value := by simp [middleView]
      obtain ⟨last, undone, lastView, lastBlocks, lastCurrent⟩ := undo_put_spec middle put written
      refine ⟨last, ?_, ?_, lastBlocks.trans middleBlocks, lastCurrent.trans middleCurrent⟩
      · simp [List.reverse_cons, List.foldlM_append, undoneRest, undone]
      · rw [lastView, middleView, Function.update_idem, prior, Function.update_eq_self]

omit [DecidableEq B] in
/-- A consistent log applied with `apply_put` and undone with `undo_put`, last
put first, as `undo_block` does: no check of `undo_put` fails, and the entries
read as they did before. -/
theorem apply_then_undo_restores (store : MemoryBackingStore B) (puts : List PutCommand)
    (consistent : Consistent store.view puts) :
    ∃ store', puts.reverse.foldlM undoPut (puts.foldl applyPut store) = .ok store' ∧
      store'.view = store.view ∧ store'.blocks = store.blocks ∧ store'.currentBlock = store.currentBlock := by
  obtain ⟨applied, appliedBlocks, appliedCurrent⟩ := fold_apply_put puts store
  obtain ⟨store', undone, restored, blocks, current⟩ :=
    undo_puts_restores puts store.view consistent _ applied
  exact ⟨store', undone, restored, blocks.trans appliedBlocks, current.trans appliedCurrent⟩

theorem apply_then_undo_restores_repeated_key :
    Consistent (new : MemoryBackingStore Nat).view [⟨"a", none, "1"⟩, ⟨"a", some "1", "2"⟩] ∧
      ∃ store', [⟨"a", none, "1"⟩, ⟨"a", some "1", "2"⟩].reverse.foldlM undoPut
          ([⟨"a", none, "1"⟩, ⟨"a", some "1", "2"⟩].foldl applyPut (new : MemoryBackingStore Nat)) = .ok store' ∧
        store'.view = (new : MemoryBackingStore Nat).view ∧ store'.blocks = (new : MemoryBackingStore Nat).blocks ∧
        store'.currentBlock = (new : MemoryBackingStore Nat).currentBlock := by
  have consistent : Consistent (new : MemoryBackingStore Nat).view [⟨"a", none, "1"⟩, ⟨"a", some "1", "2"⟩] := by
    simp [Consistent, view, new]
  exact ⟨consistent, apply_then_undo_restores _ _ consistent⟩

theorem get_block_parent_ok {store : MemoryBackingStore B} {block parent : B}
    (found : store.getBlockParent block = .ok parent) :
    ∃ data, store.blocks.lookup block = some data ∧ data.parent = some parent := by
  unfold getBlockParent at found
  split at found
  · rename_i data lookup
    split at found
    · rename_i link
      cases found
      exact ⟨data, lookup, link⟩
    · cases found
  · cases found

end MemoryBackingStore

namespace SoarDB

open MemoryBackingStore Panic

/-- A store reached by `add_genesis` and `add_block_ops`: its blocks are linked,
each block's log is consistent with the view at its parent, and the entries are
the view of the current block. -/
structure WellFormed (db : SoarDB B) : Prop where
  linked : Linked db.storage.blocks
  consistent : ∀ block data parent, db.storage.blocks.lookup block = some data →
    data.parent = some parent → Consistent (viewAt db.storage.blocks parent) data.putLog
  current : ∃ block data, db.currentBlock = some block ∧ db.storage.blocks.lookup block = some data
  view : ∀ block, db.currentBlock = some block → db.storage.view = viewAt db.storage.blocks block

theorem WellFormed.retarget {db : SoarDB B} (wf : db.WellFormed) {storage : MemoryBackingStore B}
    (blocks : storage.blocks = db.storage.blocks) {block : B} {data : BlockData B}
    (current : storage.currentBlock = some block) (found : db.storage.blocks.lookup block = some data)
    (view : storage.view = viewAt db.storage.blocks block) : WellFormed ⟨storage⟩ where
  linked := blocks ▸ wf.linked
  consistent := blocks ▸ wf.consistent
  current := ⟨block, data, current, blocks ▸ found⟩
  view := by
    intro other atOther
    simp only [currentBlock, current, Option.some.injEq] at atOther
    subst atOther
    simpa [blocks] using view

omit [DecidableEq B] in
theorem current_block_or_rollback_ok {db : SoarDB B} {block : B} (current : db.currentBlock = some block) :
    db.currentBlockOrRollback = .ok block := by
  simp [currentBlockOrRollback, current]

/-- Undoing the current block, which has a parent, moves the view to the parent. -/
theorem undo_block_spec {db : SoarDB B} (wf : db.WellFormed) {current parent : B} {data : BlockData B}
    (atBlock : db.currentBlock = some current) (found : db.storage.blocks.lookup current = some data)
    (link : data.parent = some parent) :
    ∃ storage, db.storage.undoBlock current = .ok storage ∧ WellFormed ⟨storage⟩ ∧
      storage.currentBlock = some parent ∧ storage.blocks = db.storage.blocks := by
  obtain ⟨parentData, parentFound, height⟩ := wf.linked.child current data parent found link
  have applied : db.storage.view = applyPuts (viewAt db.storage.blocks parent) data.putLog := by
    rw [wf.view current atBlock, view_at_child found link parentFound height]
  obtain ⟨undone, ran, undoneView, undoneBlocks, _⟩ :=
    undo_puts_restores data.putLog _ (wf.consistent current data parent found link) db.storage applied
  have atCurrent : db.storage.currentBlock = some current := atBlock
  refine ⟨{ undone with currentBlock := some parent }, ?_, ?_, rfl, undoneBlocks⟩
  · simp [undoBlock, atCurrent, found, ran, link]
  · exact wf.retarget undoneBlocks rfl parentFound undoneView

omit [DecidableEq B] in
theorem undo_puts_frame (puts : List PutCommand) :
    ∀ (store undone : MemoryBackingStore B), puts.foldlM undoPut store = .ok undone →
      undone.blocks = store.blocks := by
  induction puts with
  | nil =>
      intro store undone ran
      cases ran
      rfl
  | cons put rest ih =>
      intro store undone ran
      simp only [List.foldlM_cons] at ran
      obtain ⟨middle, first, ran⟩ := bind_eq_ok ran
      have kept : middle.blocks = store.blocks := by
        unfold undoPut at first
        by_cases written : store.entries.lookup put.key = some put.value
        · simp only [written, ↓reduceIte, Except.ok.injEq] at first
          rw [← first]
        · simp [written] at first
      exact (ih middle undone ran).trans kept

-- Whatever undoing a block does to the entries, it keeps the blocks and moves
-- the current block to the block's parent.
theorem undo_block_ok {store storage : MemoryBackingStore B} {block : B}
    (ran : store.undoBlock block = .ok storage) :
    ∃ data, store.blocks.lookup block = some data ∧ storage.currentBlock = data.parent ∧
      storage.blocks = store.blocks := by
  unfold undoBlock at ran
  split at ran
  · cases ran
  · split at ran
    · cases ran
    · rename_i data found
      obtain ⟨undone, ranUndo, done⟩ := bind_eq_ok ran
      cases done
      exact ⟨data, found, rfl, undo_puts_frame _ store undone ranUndo⟩

theorem undo_to_fork_point_rollback (forkPoint : B) (fuel : Nat) {db : SoarDB B}
    (none : db.currentBlock = none) : ∃ failure, undoToForkPoint forkPoint fuel db = .error failure := by
  cases fuel with
  | zero => exact ⟨_, rfl⟩
  | succ fuel => exact ⟨.error .rollbackBeyondGenesis, by simp [undoToForkPoint, currentBlockOrRollback, none]⟩

/-- The undo loop keeps a store well formed: it never undoes the genesis block
and comes back, since the view would then have no block. -/
theorem undo_to_fork_point_well_formed (forkPoint : B) (fuel : Nat) :
    ∀ db db' : SoarDB B, db.WellFormed → undoToForkPoint forkPoint fuel db = .ok db' →
      db'.WellFormed ∧ db'.storage.blocks = db.storage.blocks := by
  induction fuel with
  | zero => intro db db' _ ran; cases ran
  | succ fuel ih =>
      intro db db' wf ran
      obtain ⟨current, data, atBlock, found⟩ := wf.current
      simp only [undoToForkPoint, current_block_or_rollback_ok atBlock, ok_bind] at ran
      by_cases reached : current = forkPoint
      · simp only [reached, ↓reduceIte, pure_eq_ok, Except.ok.injEq] at ran
        subst ran
        exact ⟨wf, rfl⟩
      · simp only [reached, ↓reduceIte] at ran
        cases link : data.parent with
        | none =>
            -- undoing the genesis block leaves no current block, and the loop fails
            obtain ⟨storage, undone, rest⟩ := bind_eq_ok ran
            obtain ⟨data', found', current', _⟩ := undo_block_ok undone
            rw [found] at found'
            cases found'
            obtain ⟨failure, failed⟩ :=
              undo_to_fork_point_rollback forkPoint fuel
                (show (⟨storage⟩ : SoarDB B).currentBlock = none by simp [currentBlock, current', link])
            rw [failed] at rest
            cases rest
        | some parent =>
            obtain ⟨storage, undone, wf', _, blocks⟩ := undo_block_spec wf atBlock found link
            rw [undone, ok_bind] at ran
            obtain ⟨wfFinal, blocksFinal⟩ := ih ⟨storage⟩ db' wf' ran
            exact ⟨wfFinal, blocksFinal.trans blocks⟩

theorem replay_blocks_well_formed (blocks : List B) :
    ∀ db db' : SoarDB B, db.WellFormed → replayBlocks blocks db = .ok db' →
      db'.WellFormed ∧ db'.storage.blocks = db.storage.blocks := by
  induction blocks with
  | nil =>
      intro db db' wf ran
      cases ran
      exact ⟨wf, rfl⟩
  | cons block rest ih =>
      intro db db' wf ran
      obtain ⟨current, data, atBlock, _⟩ := wf.current
      simp only [replayBlocks, current_block_or_rollback_ok atBlock, ok_bind] at ran
      obtain ⟨parent, parentOk, ran⟩ := bind_eq_ok ran
      obtain ⟨blockData, found, link⟩ := get_block_parent_ok parentOk
      by_cases aligned : current = parent
      · subst aligned
        simp only [↓reduceIte] at ran
        obtain ⟨parentData, parentFound, height⟩ := wf.linked.child block blockData current found link
        obtain ⟨applied, appliedBlocks, _⟩ := fold_apply_put blockData.putLog db.storage
        have replayed : db.storage.reapplyBlock block =
            .ok ((blockData.putLog.foldl applyPut db.storage).setCurrentBlock block) := by
          simp [reapplyBlock, found]
        rw [replayed, ok_bind] at ran
        have wf' : WellFormed ⟨(blockData.putLog.foldl applyPut db.storage).setCurrentBlock block⟩ := by
          refine wf.retarget appliedBlocks rfl found ?_
          rw [view_at_child found link parentFound height, ← wf.view current atBlock]
          exact applied
        obtain ⟨wfFinal, blocksFinal⟩ := ih _ db' wf' ran
        exact ⟨wfFinal, blocksFinal.trans appliedBlocks⟩
      · simp only [aligned, ↓reduceIte] at ran
        cases ran

/-- `set_block`, when it returns, leaves a well-formed store viewing the block:
whatever fork point its walks chose, each undo and each replay keeps the view
that of the current block, and its last assertion checks that the current block
is the target. -/
theorem set_block_well_formed {db db' : SoarDB B} (wf : db.WellFormed) {block : B}
    (ran : db.setBlock block = .ok db') :
    db'.WellFormed ∧ db'.currentBlock = some block ∧ db'.storage.blocks = db.storage.blocks := by
  unfold setBlock at ran
  split at ran
  · rename_i already
    cases ran
    exact ⟨wf, already, rfl⟩
  · split at ran
    · cases ran
    · obtain ⟨_, _, ran⟩ := bind_eq_ok ran
      obtain ⟨_, _, ran⟩ := bind_eq_ok ran
      obtain ⟨_, _, ran⟩ := bind_eq_ok ran
      obtain ⟨⟨a, b, ancestorsB⟩, _, ran⟩ := bind_eq_ok ran
      obtain ⟨⟨forkPoint, _⟩, _, ran⟩ := bind_eq_ok ran
      obtain ⟨undone, undoOk, ran⟩ := bind_eq_ok ran
      obtain ⟨replayed, replayOk, ran⟩ := bind_eq_ok ran
      obtain ⟨current, currentOk, ran⟩ := bind_eq_ok ran
      split at ran
      · rename_i reached
        cases ran
        obtain ⟨wfUndone, blocksUndone⟩ := undo_to_fork_point_well_formed forkPoint _ db undone wf undoOk
        obtain ⟨wfReplayed, blocksReplayed⟩ := replay_blocks_well_formed _ undone _ wfUndone replayOk
        refine ⟨wfReplayed, ?_, blocksReplayed.trans blocksUndone⟩
        unfold currentBlockOrRollback at currentOk
        split at currentOk
        · rename_i found
          cases currentOk
          exact reached ▸ found
        · cases currentOk
      · cases ran

theorem store_block_data_ok {store storage : MemoryBackingStore B} {block parent : B}
    {putLog : List PutCommand} (ran : store.storeBlockData block parent putLog = .ok storage) :
    ∃ parentData, store.blocks.lookup parent = some parentData ∧ parentData.height + 1 ≤ u64Max ∧
      store.blocks.lookup block = none ∧
      storage = { store with blocks := store.blocks.insert block ⟨putLog, some parent, parentData.height + 1⟩ } := by
  unfold storeBlockData at ran
  split at ran
  · cases ran
  · rename_i parentData parentFound
    dsimp only at ran
    split at ran
    · cases ran
    · rename_i room
      split at ran
      · cases ran
      · rename_i fresh
        cases ran
        exact ⟨parentData, parentFound, by omega, by simpa using fresh, rfl⟩

/-- Storing and applying a block on top of the current block, its parent, keeps
a store well formed and views the block. -/
theorem WellFormed.store_child {db : SoarDB B} (wf : db.WellFormed) {block parent : B}
    {parentData : BlockData B} (atParent : db.currentBlock = some parent)
    (fresh : db.storage.blocks.lookup block = none)
    (parentFound : db.storage.blocks.lookup parent = some parentData) (room : parentData.height + 1 ≤ u64Max)
    {putList : List PutCommand} (consistent : Consistent (viewAt db.storage.blocks parent) putList) :
    WellFormed ⟨(putList.foldl applyPut { db.storage with
      blocks := db.storage.blocks.insert block ⟨putList, some parent, parentData.height + 1⟩ }).setCurrentBlock block⟩ := by
  set blocks' := db.storage.blocks.insert block ⟨putList, some parent, parentData.height + 1⟩ with blocksEq
  have linked' : Linked blocks' := wf.linked.insert_child fresh parentFound room putList
  have parentBefore : parent ≠ block := by
    rintro rfl
    rw [fresh] at parentFound
    cases parentFound
  -- the views of the stored blocks are kept
  have kept : ∀ other, (db.storage.blocks.lookup other).isSome → viewAt blocks' other = viewAt db.storage.blocks other :=
    fun other stored => view_at_insert wf.linked fresh _ stored
  have newFound : blocks'.lookup block = some ⟨putList, some parent, parentData.height + 1⟩ := AList.lookup_insert _
  have parentFound' : blocks'.lookup parent = some parentData := by
    rw [blocksEq, AList.lookup_insert_ne parentBefore, parentFound]
  obtain ⟨applied, appliedBlocks, _⟩ := fold_apply_put putList { db.storage with blocks := blocks' }
  refine ⟨by simpa [currentBlock, setCurrentBlock, appliedBlocks] using linked', ?_, ?_, ?_⟩
  · simp only [setCurrentBlock, appliedBlocks]
    intro other data otherParent found link
    by_cases same : other = block
    · subst same
      rw [newFound] at found
      cases found
      cases link
      rw [kept parent (by simp [parentFound])]
      exact consistent
    · rw [blocksEq, AList.lookup_insert_ne same] at found
      obtain ⟨grandData, grandFound, _⟩ := wf.linked.child other data otherParent found link
      rw [kept otherParent (by simp [grandFound])]
      exact wf.consistent other data otherParent found link
  · exact ⟨block, _, rfl, by simpa [setCurrentBlock, appliedBlocks] using newFound⟩
  · intro other atOther
    simp only [currentBlock, setCurrentBlock, Option.some.injEq] at atOther
    subst atOther
    have entries : ({ db.storage with blocks := blocks' } : MemoryBackingStore B).view = db.storage.view := rfl
    simp only [setCurrentBlock, appliedBlocks]
    change (putList.foldl applyPut { db.storage with blocks := blocks' }).view = _
    rw [applied, entries, wf.view parent atParent, view_at_child newFound rfl parentFound' rfl,
      kept parent (by simp [parentFound])]

/-- `add_block_ops`, when it returns, leaves a well-formed store viewing the new
block, provided its put list is consistent with the view at the parent. -/
theorem add_block_ops_well_formed {db db' : SoarDB B} (wf : db.WellFormed) {block parent : B}
    {putList : List PutCommand} (consistent : Consistent (viewAt db.storage.blocks parent) putList)
    (ran : db.addBlockOps block parent putList = .ok db') :
    db'.WellFormed ∧ db'.currentBlock = some block := by
  obtain ⟨retargeted, setOk, ran⟩ := bind_eq_ok ran
  obtain ⟨wfRetargeted, atParent, sameBlocks⟩ := set_block_well_formed wf setOk
  obtain ⟨storage, storeOk, ran⟩ := bind_eq_ok ran
  cases ran
  obtain ⟨parentData, parentFound, room, fresh, rfl⟩ := store_block_data_ok storeOk
  exact ⟨wfRetargeted.store_child atParent fresh parentFound room (sameBlocks ▸ consistent), rfl⟩

/-- `add_genesis` on an empty store leaves a well-formed store viewing the genesis block. -/
theorem add_genesis_well_formed {db db' : SoarDB B} {block : B} {putList : List PutCommand}
    (ran : db.addGenesis block putList = .ok db') : db'.WellFormed ∧ db'.currentBlock = some block := by
  unfold addGenesis at ran
  split at ran
  · cases ran
  · rename_i empty
    simp only [Bool.not_eq_true', Bool.not_eq_false, isEmpty, Bool.and_eq_true, Option.isNone_iff_eq_none,
      List.isEmpty_iff] at empty
    obtain ⟨⟨noCurrent, noBlocks⟩, noEntries⟩ := empty
    obtain ⟨storage, storeOk, ran⟩ := bind_eq_ok ran
    cases ran
    have stored : storage = { db.storage with blocks := db.storage.blocks.insert block ⟨putList, none, 0⟩ } := by
      have notSome : db.storage.currentBlock.isSome = false := by simp [noCurrent]
      unfold storeGenesisBlock at storeOk
      simp only [notSome, Bool.false_eq_true, ↓reduceIte] at storeOk
      split at storeOk
      · cases storeOk
      · cases storeOk
        rfl
    subst stored
    have noneStored : ∀ other, db.storage.blocks.lookup other = none := by
      intro other
      simp [AList.lookup, noBlocks]
    have only : ∀ other data, (db.storage.blocks.insert block ⟨putList, none, 0⟩).lookup other = some data →
        other = block ∧ data = ⟨putList, none, 0⟩ := by
      intro other data found
      by_cases same : other = block
      · subst same
        simp only [AList.lookup_insert, Option.some.injEq] at found
        exact ⟨rfl, found.symm⟩
      · rw [AList.lookup_insert_ne same, noneStored] at found
        cases found
    obtain ⟨applied, appliedBlocks, _⟩ := fold_apply_put putList
      { db.storage with blocks := db.storage.blocks.insert block ⟨putList, none, 0⟩ }
    have emptyView : db.storage.view = fun _ => Option.none := by
      funext key
      simp [MemoryBackingStore.view, AList.lookup, noEntries]
    refine ⟨⟨?_, ?_, ?_, ?_⟩, rfl⟩
    · simp only [setCurrentBlock, appliedBlocks]
      refine ⟨?_, ?_, ?_, ?_⟩
      · intro other data found _
        rw [(only other data found).2]
      · intro other data otherParent found link
        rw [(only other data found).2] at link
        cases link
      · intro first data second secondData found secondFound _ _
        exact (only first data found).1.trans (only second secondData secondFound).1.symm
      · intro other data found
        rw [(only other data found).2]
        simp [u64Max]
    · simp only [setCurrentBlock, appliedBlocks]
      intro other data otherParent found link
      rw [(only other data found).2] at link
      cases link
    · exact ⟨block, ⟨putList, none, 0⟩, rfl, by simp [setCurrentBlock, appliedBlocks, AList.lookup_insert]⟩
    · intro other atOther
      simp only [currentBlock, setCurrentBlock, Option.some.injEq] at atOther
      subst atOther
      simp only [setCurrentBlock, appliedBlocks]
      change (putList.foldl applyPut _).view = _
      rw [applied, view_at_genesis (AList.lookup_insert _) rfl]
      exact congrArg (applyPuts · putList) emptyView

/-! ## The loops of `set_block` end

Each loop's fuel outlasts it: the ancestor walks step down one height per turn,
checked by `get_block_parent`'s assertion, and the undo loop steps down the
parent links of a well-formed store. -/

/-- A call that does not run a loop of `set_block` forever. -/
def Ends {α : Type} (result : Except (Failure B) α) : Prop := result ≠ .error .diverged

omit [DecidableEq B] in
theorem Ends.bind {α β : Type} {run : Except (Failure B) α} {next : α → Except (Failure B) β}
    (first : Ends run) (rest : ∀ value, run = .ok value → Ends (next value)) : Ends (run >>= next) := by
  cases run with
  | error failure => simpa [Ends] using first
  | ok value => exact rest value rfl

omit [DecidableEq B] in
@[simp] theorem ends_ok {α : Type} (value : α) : Ends (.ok value : Except (Failure B) α) := nofun

omit [DecidableEq B] in
@[simp] theorem ends_error {α : Type} (error : SoarError B) : Ends (.error (.error error) : Except (Failure B) α) :=
  nofun

omit [DecidableEq B] in
@[simp] theorem ends_panic {α : Type} (message : String) : Ends (.error (.panic message) : Except (Failure B) α) :=
  nofun

omit [DecidableEq B] in
theorem current_block_or_rollback_ends (db : SoarDB B) : Ends db.currentBlockOrRollback := by
  unfold currentBlockOrRollback
  split <;> simp

theorem get_block_height_ends (store : MemoryBackingStore B) (block : B) : Ends (store.getBlockHeight block) := by
  unfold MemoryBackingStore.getBlockHeight
  split <;> simp

theorem store_get_block_parent_ends (store : MemoryBackingStore B) (block : B) :
    Ends (store.getBlockParent block) := by
  unfold MemoryBackingStore.getBlockParent
  split
  · split <;> simp
  · simp

theorem get_block_parent_ends (db : SoarDB B) (block : B) (blockHt : Nat) :
    Ends (db.getBlockParent block blockHt) := by
  unfold getBlockParent
  split
  · simp
  · refine (store_get_block_parent_ends _ _).bind fun parent _ => (get_block_height_ends _ _).bind ?_
    intro parentHt _
    split <;> simp

theorem get_block_parent_height {db : SoarDB B} {block : B} {blockHt : Nat} {next : B × Nat}
    (stepped : db.getBlockParent block blockHt = .ok next) : next.2 + 1 = blockHt := by
  unfold getBlockParent at stepped
  split at stepped
  · cases stepped
  · obtain ⟨_, _, stepped⟩ := bind_eq_ok stepped
    obtain ⟨_, _, stepped⟩ := bind_eq_ok stepped
    split at stepped
    · cases stepped
      simp only
      omega
    · cases stepped

theorem equalize_heights_ends (db : SoarDB B) (fuel : Nat) :
    ∀ (a b : B × Nat) (ancestorsB : List B), a.2 + b.2 < fuel → Ends (db.equalizeHeights fuel a b ancestorsB) := by
  induction fuel with
  | zero => intros; omega
  | succ fuel ih =>
      rintro ⟨a, aHt⟩ ⟨b, bHt⟩ ancestorsB enough
      simp only [equalizeHeights]
      split
      · simp
      · split
        · refine (get_block_parent_ends db a aHt).bind fun next stepped => ih _ _ _ ?_
          have := get_block_parent_height stepped
          simp only at enough ⊢
          omega
        · refine (get_block_parent_ends db b bHt).bind fun next stepped => ih _ _ _ ?_
          have := get_block_parent_height stepped
          simp only at enough ⊢
          omega

theorem meet_ancestors_ends (db : SoarDB B) (fuel : Nat) :
    ∀ a b : B × Nat, a.2 < fuel → Ends (db.meetAncestors fuel a b) := by
  induction fuel with
  | zero => intros; omega
  | succ fuel ih =>
      rintro ⟨a, aHt⟩ ⟨b, bHt⟩ enough
      simp only [meetAncestors]
      split
      · simp
      · refine (get_block_parent_ends db a aHt).bind fun nextA stepped => ?_
        refine (get_block_parent_ends db b bHt).bind fun nextB _ => ih _ _ ?_
        have := get_block_parent_height stepped
        simp only at enough
        omega

omit [DecidableEq B] in
theorem undo_puts_ends (puts : List PutCommand) :
    ∀ store : MemoryBackingStore B, Ends (puts.foldlM undoPut store) := by
  induction puts with
  | nil => intro store; simp
  | cons put rest ih =>
      intro store
      simp only [List.foldlM_cons]
      refine Ends.bind ?_ fun middle _ => ih middle
      by_cases written : store.entries.lookup put.key = some put.value <;> simp [undoPut, written]

theorem undo_block_ends (store : MemoryBackingStore B) (block : B) : Ends (store.undoBlock block) := by
  unfold undoBlock
  split
  · simp
  · split
    · simp
    · exact (undo_puts_ends _ store).bind fun _ _ => by simp

theorem undo_to_fork_point_rollback_ends (forkPoint : B) (fuel : Nat) {db : SoarDB B}
    (noCurrent : db.currentBlock = none) : Ends (undoToForkPoint forkPoint (fuel + 1) db) := by
  simp [Ends, undoToForkPoint, currentBlockOrRollback, noCurrent]

/-- The undo loop takes at most one step more than the current block's height:
past the genesis block it fails for want of a current block. -/
theorem undo_to_fork_point_ends (forkPoint : B) (fuel : Nat) :
    ∀ (db : SoarDB B) (current : B) (data : BlockData B), db.WellFormed → db.currentBlock = some current →
      db.storage.blocks.lookup current = some data → data.height + 1 < fuel →
      Ends (undoToForkPoint forkPoint fuel db) := by
  induction fuel with
  | zero => intros; omega
  | succ fuel ih =>
      intro db current data wf atBlock found enough
      simp only [undoToForkPoint, current_block_or_rollback_ok atBlock, ok_bind]
      split
      · simp
      · cases link : data.parent with
        | none =>
            refine (undo_block_ends _ current).bind fun storage undone => ?_
            obtain ⟨data', found', current', _⟩ := undo_block_ok undone
            rw [found] at found'
            cases found'
            obtain ⟨fuel, rfl⟩ : ∃ rest, fuel = rest + 1 := ⟨fuel - 1, by omega⟩
            exact undo_to_fork_point_rollback_ends forkPoint fuel
              (show (⟨storage⟩ : SoarDB B).currentBlock = none by simp [currentBlock, current', link])
        | some parent =>
            obtain ⟨storage, undone, wf', atParent, blocks⟩ := undo_block_spec wf atBlock found link
            obtain ⟨parentData, parentFound, height⟩ := wf.linked.child current data parent found link
            rw [undone, ok_bind]
            exact ih ⟨storage⟩ parent parentData wf' atParent (by simpa [blocks] using parentFound) (by omega)

theorem reapply_block_ends (store : MemoryBackingStore B) (block : B) : Ends (store.reapplyBlock block) := by
  unfold reapplyBlock
  split <;> simp

theorem replay_blocks_ends (blocks : List B) : ∀ db : SoarDB B, Ends (replayBlocks blocks db) := by
  induction blocks with
  | nil => intro db; simp [replayBlocks]
  | cons block rest ih =>
      intro db
      refine (current_block_or_rollback_ends db).bind fun current _ => ?_
      refine (store_get_block_parent_ends _ block).bind fun parent _ => ?_
      split
      · exact (reapply_block_ends _ block).bind fun storage _ => ih _
      · simp

/-- On a well-formed store `set_block` ends: it returns, errs or panics. -/
theorem set_block_ends {db : SoarDB B} (wf : db.WellFormed) (block : B) : Ends (db.setBlock block) := by
  unfold setBlock
  split
  · simp
  · split
    · simp
    · obtain ⟨current, data, atBlock, found⟩ := wf.current
      rw [current_block_or_rollback_ok atBlock, ok_bind]
      have height : db.storage.getBlockHeight current = .ok data.height := by
        simp [MemoryBackingStore.getBlockHeight, found]
      rw [height, ok_bind]
      refine (get_block_height_ends _ block).bind fun blockHt _ => ?_
      refine (equalize_heights_ends db _ _ _ _ (by simp only; omega)).bind fun walked _ => ?_
      obtain ⟨a, b, ancestorsB⟩ := walked
      refine (meet_ancestors_ends db _ a b (by omega)).bind fun met _ => ?_
      obtain ⟨forkPoint, _⟩ := met
      refine (undo_to_fork_point_ends forkPoint _ db current data wf atBlock found (by omega)).bind
        fun undone _ => ?_
      refine (replay_blocks_ends _ undone).bind fun replayed _ => ?_
      refine (current_block_or_rollback_ends replayed).bind fun _ _ => ?_
      split <;> simp

/-! ## Runs -/

/-- `add_block_ops` call after call, each with its block, parent and put list. -/
def runOps : SoarDB B → List (B × B × List PutCommand) → Except (Failure B) (SoarDB B)
  | db, [] => .ok db
  | db, (block, parent, putList) :: rest => do
      let db ← db.addBlockOps block parent putList
      runOps db rest

/-- Each call's put list names the prior values of the view at its parent, in
the store the call is made on. -/
def ConsistentOps : SoarDB B → List (B × B × List PutCommand) → Prop
  | _, [] => True
  | db, (block, parent, putList) :: rest =>
      Consistent (viewAt db.storage.blocks parent) putList ∧
        ∀ db', db.addBlockOps block parent putList = .ok db' → ConsistentOps db' rest

theorem run_ops_well_formed (ops : List (B × B × List PutCommand)) :
    ∀ db db' : SoarDB B, db.WellFormed → ConsistentOps db ops → runOps db ops = .ok db' → db'.WellFormed := by
  induction ops with
  | nil =>
      intro db db' wf _ ran
      cases ran
      exact wf
  | cons op rest ih =>
      obtain ⟨block, parent, putList⟩ := op
      intro db db' wf consistent ran
      obtain ⟨next, stepOk, ran⟩ := bind_eq_ok ran
      exact ih next db' (add_block_ops_well_formed wf consistent.1 stepOk).1 (consistent.2 next stepOk) ran

/-- Whenever a run of `add_genesis` and `add_block_ops` with consistent put lists
returns, every key reads the replay of the current block's chain, and the blocks
keep one genesis at height 0 and every other block one above its parent. -/
theorem run_reads_chain {genesis : B} {putList : List PutCommand} {ops : List (B × B × List PutCommand)}
    {db db' : SoarDB B} (started : (newMemory : SoarDB B).addGenesis genesis putList = .ok db)
    (consistent : ConsistentOps db ops) (ran : runOps db ops = .ok db') :
    Linked db'.storage.blocks ∧ ∃ block, db'.currentBlock = some block ∧
      ∀ key, db'.getValue key = viewAt db'.storage.blocks block key := by
  have wf := run_ops_well_formed ops db db' (add_genesis_well_formed started).1 consistent ran
  obtain ⟨block, _, atBlock, _⟩ := wf.current
  exact ⟨wf.linked, block, atBlock, fun key => congrFun (wf.view block atBlock) key⟩

/-! ## Two failing runs -/

/-- `add_block_ops` with a block id already stored, on the current block as
parent: the store writes the new data over the stored block's, then panics. -/
theorem add_block_ops_stored_block_panics (db : SoarDB B) {block parent : B} {parentData : BlockData B}
    (putList : List PutCommand) (atParent : db.currentBlock = some parent)
    (stored : db.storage.hasBlock block = true) (parentFound : db.storage.blocks.lookup parent = some parentData)
    (room : parentData.height + 1 ≤ u64Max) :
    db.addBlockOps block parent putList = .error (.panic "Stored block data over an existing block entry") := by
  have notOver : ¬ u64Max ≤ parentData.height := by omega
  unfold hasBlock at stored
  simp [addBlockOps, setBlock, atParent, storeBlockData, parentFound, notOver, stored]

/-- The store `add_genesis 0 []` leaves. -/
def genesisStore : SoarDB Nat := ⟨⟨some 0, ∅, (∅ : Blocks Nat).insert 0 ⟨[], none, 0⟩⟩⟩

theorem genesis_readded_panics :
    (newMemory : SoarDB Nat).addGenesis 0 [] = .ok genesisStore ∧
      genesisStore.addBlockOps 0 0 [] = .error (.panic "Stored block data over an existing block entry") :=
  ⟨rfl, add_block_ops_stored_block_panics genesisStore [] rfl rfl rfl (by decide)⟩

/-- Blocks 1 ← 2 ← 3 and 1 ← 12 ← 13, stored in that order, viewing 13. -/
def twoBranches : Except (Failure Nat) (SoarDB Nat) := do
  let db ← (newMemory : SoarDB Nat).addGenesis 1 []
  let db ← db.addBlockOps 2 1 []
  let db ← db.addBlockOps 3 2 []
  let db ← db.addBlockOps 12 1 []
  db.addBlockOps 13 12 []

/-- Moving from 13 back to 3: the heights already agree at 2 and the fork point,
1, is two blocks below. The replay list keeps only 3, whose parent 2 is not the
current block 1 after the undo, so the replay's assertion panics; building 4 on 3
fails the same way. -/
theorem deep_fork_replay_panics :
    ∃ db, twoBranches = .ok db ∧
      db.setBlock 3 = .error (.panic "Failed while replaying operations: expected parent and current block to align") ∧
      db.addBlockOps 4 3 [] = .error (.panic "Failed while replaying operations: expected parent and current block to align") :=
  ⟨_, rfl, rfl, rfl⟩

end SoarDB

end Hyperchains.SoarDb
