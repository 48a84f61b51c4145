import Hyperchains.Marf.NodeSpec
import Hyperchains.Library.RadixTree

/-! The map a forest of tries stands for. A slot of a trie stands for a
compressed radix tree over 32-byte paths (`RadixTree.Radix`): a leaf for a
leaf, and a node for a node whose walk gives each byte's child, local children
in the same trie and back-pointers in the trie of the block they name.

`Stored` relates the flushed tries. `Local` relates the trie being extended,
which may point back into them; it carries a ghost `addr`, the part of the key
that leads to each slot, which every local edge extends by the node's path and
its byte. An insertion only rewrites slots whose address is a prefix of its
key, or new ones, so the subtrees off the key keep their derivations
(`Local.frame`). -/

namespace Hyperchains.Marf

open RadixTree

/-- What a trie stands for: paths to values. -/
abbrev PathMap := Radix UInt8 MARFValue

def trieAt {T : Type} (committed : List (T × TrieRAM)) (blockId : Nat) : Option TrieRAM :=
  (committed[blockId]?).map Prod.snd

/-- A pointer to a leaf says so in its id, which the walks check at the end of
the key. -/
def NamesLeaf (ptr : TriePtr) (t : PathMap) : Prop :=
  ∀ path value, t = .leaf path value → clearBackptr ptr.id = TrieNodeID.leaf.toU8

section Relations

variable {T : Type} (committed : List (T × TrieRAM))

/-- `Stored committed b s t`: slot `s` of the flushed trie of block `b` stands for `t`. -/
inductive Stored : Nat → Nat → PathMap → Prop
  | leaf {blockId slot : Nat} {ram : TrieRAM} {data : TrieLeaf}
      (trie : trieAt committed blockId = some ram) (read : ram.data[slot]? = some (.leaf data)) :
      Stored blockId slot (.leaf data.path data.data)
  | node {blockId slot : Nat} {ram : TrieRAM} {node : TrieNodeType} {child : UInt8 → PathMap}
      (trie : trieAt committed blockId = some ram) (read : ram.data[slot]? = some node)
      (inner : node.isLeaf = false) (wf : node.WF)
      (absent : ∀ c, node.walk c = none → child c = .empty)
      (kind : ∀ c ptr, node.walk c = some ptr → NamesLeaf ptr (child c))
      (here : ∀ c ptr, node.walk c = some ptr → isBackptr ptr.id = false →
        Stored blockId ptr.ptr (child c))
      (back : ∀ c ptr, node.walk c = some ptr → isBackptr ptr.id = true →
        Stored ptr.backBlock ptr.ptr (child c)) :
      Stored blockId slot (.node node.pathBytes child)

/-- `Local committed ram addr s t`: slot `s` of the trie being extended stands for `t`. -/
inductive Local (ram : TrieRAM) (addr : Nat → List UInt8) : Nat → PathMap → Prop
  | leaf {slot : Nat} {data : TrieLeaf} (read : ram.data[slot]? = some (.leaf data)) :
      Local ram addr slot (.leaf data.path data.data)
  | node {slot : Nat} {node : TrieNodeType} {child : UInt8 → PathMap}
      (read : ram.data[slot]? = some node) (inner : node.isLeaf = false) (wf : node.WF)
      (absent : ∀ c, node.walk c = none → child c = .empty)
      (kind : ∀ c ptr, node.walk c = some ptr → NamesLeaf ptr (child c))
      (addrOf : ∀ c ptr, node.walk c = some ptr → isBackptr ptr.id = false →
        addr ptr.ptr = addr slot ++ node.pathBytes ++ [c])
      (here : ∀ c ptr, node.walk c = some ptr → isBackptr ptr.id = false →
        Local ram addr ptr.ptr (child c))
      (back : ∀ c ptr, node.walk c = some ptr → isBackptr ptr.id = true →
        Stored committed ptr.backBlock ptr.ptr (child c)) :
      Local ram addr slot (.node node.pathBytes child)

/-- The trie being extended stands for `t`, from its root: a Node256 with an
empty path at slot 0. -/
def Extends (ram : TrieRAM) (t : PathMap) : Prop :=
  ∃ addr : Nat → List UInt8, addr rootPtr = [] ∧ Local committed ram addr rootPtr t ∧
    ∃ root : TrieNode256, ram.data[rootPtr]? = some (.node256 root) ∧ root.path = []

end Relations

variable {T : Type} {committed : List (T × TrieRAM)}

theorem trie_at_append {blockId : Nat} {ram : TrieRAM} (trie : trieAt committed blockId = some ram)
    (more : List (T × TrieRAM)) : trieAt (committed ++ more) blockId = some ram := by
  have inside : blockId < committed.length := by
    by_contra outside
    simp [trieAt, List.getElem?_eq_none (Nat.le_of_not_gt outside)] at trie
  simpa [trieAt, List.getElem?_append_left inside] using trie

@[simp] theorem trie_at_length (committed : List (T × TrieRAM)) (block : T) (ram : TrieRAM) :
    trieAt (committed ++ [(block, ram)]) committed.length = some ram := by
  simp [trieAt]

/-- Flushing more tries keeps what the flushed ones stand for. -/
theorem Stored.append {blockId slot : Nat} {t : PathMap} (rep : Stored committed blockId slot t)
    (more : List (T × TrieRAM)) : Stored (committed ++ more) blockId slot t := by
  induction rep with
  | leaf trie read => exact .leaf (trie_at_append trie more) read
  | node trie read inner wf absent kind _ _ here back =>
      exact .node (trie_at_append trie more) read inner wf absent kind here back

theorem trie_at_entry {blockId : Nat} {ram : TrieRAM} (trie : trieAt committed blockId = some ram) :
    ∃ block, committed[blockId]? = some (block, ram) := by
  obtain ⟨⟨block, _⟩, found, rfl⟩ := Option.map_eq_some_iff.mp trie
  exact ⟨block, found⟩

theorem Stored.read {blockId slot : Nat} {t : PathMap} (rep : Stored committed blockId slot t) :
    ∃ ram node, trieAt committed blockId = some ram ∧ ram.data[slot]? = some node := by
  cases rep with
  | leaf trie read => exact ⟨_, _, trie, read⟩
  | node trie read => exact ⟨_, _, trie, read⟩

theorem Local.lt_length {ram : TrieRAM} {addr : Nat → List UInt8} {slot : Nat} {t : PathMap}
    (rep : Local committed ram addr slot t) : slot < ram.data.length := by
  cases rep with
  | leaf read => exact (List.getElem?_eq_some_iff.mp read).1
  | node read => exact (List.getElem?_eq_some_iff.mp read).1

/-- A derivation only reads the slots whose address extends its own: where a
new trie and address map agree with the old ones there, it carries over. -/
theorem Local.frame {ram ram' : TrieRAM} {addr addr' : Nat → List UInt8} {slot : Nat} {t : PathMap}
    (rep : Local committed ram addr slot t)
    (same : ∀ s, addr slot <+: addr s → s < ram.data.length →
      ram'.data[s]? = ram.data[s]? ∧ addr' s = addr s) :
    Local committed ram' addr' slot t := by
  induction rep with
  | leaf read =>
      have bound := (List.getElem?_eq_some_iff.mp read).1
      exact .leaf (((same _ (List.prefix_refl _) bound).1).trans read)
  | @node slot node child read inner wf absent kind addrOf here back ih =>
      have bound := (List.getElem?_eq_some_iff.mp read).1
      have atSlot := same slot (List.prefix_refl _) bound
      -- each local child's region lies inside this node's
      have below : ∀ c ptr, node.walk c = some ptr → isBackptr ptr.id = false →
          ∀ s, addr ptr.ptr <+: addr s → addr slot <+: addr s := fun c ptr found notBack s inside => by
        rw [addrOf c ptr found notBack] at inside
        exact (List.prefix_append _ _).trans ((List.prefix_append _ _).trans inside)
      refine .node (atSlot.1.trans read) inner wf absent kind ?_ ?_ back
      · intro c ptr found notBack
        have childBound := (here c ptr found notBack).lt_length
        rw [(same _ (below c ptr found notBack _ (List.prefix_refl _)) childBound).2, atSlot.2]
        exact addrOf c ptr found notBack
      · intro c ptr found notBack
        exact ih c ptr found notBack fun s inside bound => same s (below c ptr found notBack s inside) bound

/-- Appending slots keeps every derivation. -/
theorem Local.append {ram : TrieRAM} {addr : Nat → List UInt8} {slot : Nat} {t : PathMap}
    (rep : Local committed ram addr slot t) (more : List TrieNodeType) :
    Local committed ⟨ram.data ++ more⟩ addr slot t :=
  rep.frame fun _ _ bound => ⟨List.getElem?_append_left bound, rfl⟩

/-- Flushing the trie being extended makes it a stored one. -/
theorem Local.stored {ram : TrieRAM} {addr : Nat → List UInt8} {slot : Nat} {t : PathMap}
    (rep : Local committed ram addr slot t) (block : T) :
    Stored (committed ++ [(block, ram)]) committed.length slot t := by
  induction rep with
  | leaf read => exact .leaf (trie_at_length committed block ram) read
  | node read inner wf absent kind _ _ back ih =>
      exact .node (trie_at_length committed block ram) read inner wf absent kind ih
        fun c ptr found backptr => (back c ptr found backptr).append _

theorem TriePtr.is_backptr_copy_update (childBlockId : Nat) {p : TriePtr} (full : p.isEmpty = false) :
    isBackptr (p.copyUpdate childBlockId).id = true := by
  cases back : isBackptr p.id
  · rw [TriePtr.copy_update_of_local childBlockId full back]
    exact is_backptr_set_backptr p.id
  · rw [TriePtr.copy_update_of_backptr childBlockId back, back]

theorem TriePtr.clear_backptr_copy_update (childBlockId : Nat) (p : TriePtr) :
    clearBackptr (p.copyUpdate childBlockId).id = clearBackptr p.id := by
  unfold TriePtr.copyUpdate
  split
  · rfl
  · exact clear_backptr_set_backptr p.id

theorem TrieNodeType.is_leaf_copy_update (childBlockId : Nat) (node : TrieNodeType) :
    (node.copyUpdate childBlockId).isLeaf = node.isLeaf := by
  cases node <;> rfl

/-- A stored node copied into the trie being extended, its local children
turned into back-pointers to its block, stands for the same tree there. -/
theorem Stored.copy {blockId slot : Nat} {t : PathMap} (rep : Stored committed blockId slot t)
    {ram : TrieRAM} {node : TrieNodeType} (trie : trieAt committed blockId = some ram)
    (read : ram.data[slot]? = some node) {ram' : TrieRAM} {addr : Nat → List UInt8} {slot' : Nat}
    (read' : ram'.data[slot']? = some (node.copyUpdate blockId)) : Local committed ram' addr slot' t := by
  cases rep with
  | leaf trie₀ read₀ =>
      rw [trie] at trie₀
      cases trie₀
      rw [read] at read₀
      cases read₀
      exact .leaf read'
  | node trie₀ read₀ inner wf absent kind here back =>
      rw [trie] at trie₀
      cases trie₀
      rw [read] at read₀
      cases read₀
      obtain ⟨wf', path', _, walk'⟩ := TrieNodeType.copy_update_spec wf blockId
      -- every child of the copy is a back-pointer
      have copied : ∀ c ptr, (node.copyUpdate blockId).walk c = some ptr →
          ∃ ptr₀, node.walk c = some ptr₀ ∧ ptr₀.copyUpdate blockId = ptr := fun c ptr found => by
        rw [walk'] at found
        exact Option.map_eq_some_iff.mp found
      have allBack : ∀ c ptr, (node.copyUpdate blockId).walk c = some ptr → isBackptr ptr.id = true :=
        fun c ptr found => by
          obtain ⟨ptr₀, found₀, rfl⟩ := copied c ptr found
          exact TriePtr.is_backptr_copy_update blockId (TrieNodeType.walk_some wf found₀).2
      rw [← path']
      refine .node read' (by rw [TrieNodeType.is_leaf_copy_update, inner]) wf' ?_ ?_ ?_ ?_ ?_
      · intro c missing
        rw [walk', Option.map_eq_none_iff] at missing
        exact absent c missing
      · intro c ptr found
        obtain ⟨ptr₀, found₀, rfl⟩ := copied c ptr found
        intro path value isLeaf
        rw [TriePtr.clear_backptr_copy_update]
        exact kind c ptr₀ found₀ path value isLeaf
      · intro c ptr found notBack
        rw [allBack c ptr found] at notBack
        cases notBack
      · intro c ptr found notBack
        rw [allBack c ptr found] at notBack
        cases notBack
      · intro c ptr found _
        obtain ⟨ptr₀, found₀, rfl⟩ := copied c ptr found
        cases backptr : isBackptr ptr₀.id
        · rw [TriePtr.copy_update_of_local blockId (TrieNodeType.walk_some wf found₀).2 backptr]
          exact here c ptr₀ found₀ backptr
        · rw [TriePtr.copy_update_of_backptr blockId backptr]
          exact back c ptr₀ found₀ backptr

end Hyperchains.Marf
