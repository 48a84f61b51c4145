import Mathlib

/-! Compressed radix trees whose keys all have one length. A node keeps the
part of the key its entries share after the byte that led to it, and a subtree
for every next byte; a leaf keeps the rest of its key. `insert` is the usual
insertion with path compression: it replaces a leaf of the same key, descends
into the child of the next byte, or forks where the key leaves a leaf's or a
node's path. `lookup_insert` says an insertion changes the map at its key
only. -/

namespace RadixTree

inductive Radix (β ν : Type) where
  | empty
  | leaf (path : List β) (value : ν)
  | node (path : List β) (child : β → Radix β ν)

namespace Radix

variable {β ν : Type} [DecidableEq β]

def lookup : Radix β ν → List β → Option ν
  | empty, _ => none
  | leaf path value, key => if key = path then some value else none
  | node path child, key =>
      match key.dropPrefix? path with
      | some (c :: rest) => lookup (child c) rest
      | _ => none

/-- Where two lists first differ: their shared prefix, then each one's element
and rest at that point. -/
def diverge : List β → List β → Option (List β × β × List β × β × List β)
  | a :: as, b :: bs =>
      if a = b then (diverge as bs).map fun (shared, x, xs, y, ys) => (a :: shared, x, xs, y, ys)
      else some ([], a, as, b, bs)
  | _, _ => none

/-- A node over `shared` with two children, the old one tried first. -/
def fork (shared : List β) (oldByte : β) (old : Radix β ν) (newByte : β) (new : Radix β ν) :
    Radix β ν :=
  node shared fun c => if c = oldByte then old else if c = newByte then new else empty

def insert : Radix β ν → List β → ν → Radix β ν
  | empty, key, value => leaf key value
  | leaf path old, key, value =>
      match diverge path key with
      | some (shared, x, xs, y, ys) => fork shared x (leaf xs old) y (leaf ys value)
      | none => leaf path value
  | node path child, key, value =>
      match diverge path key with
      | some (shared, x, xs, y, ys) => fork shared x (node xs child) y (leaf ys value)
      | none =>
          match key.drop path.length with
          | c :: rest => node path (Function.update child c (insert (child c) rest value))
          | [] => node path child

/-- Every key below a tree has `n` elements left: leaves end exactly there and
nodes stop short of it. -/
def Uniform : Radix β ν → Nat → Prop
  | empty, _ => True
  | leaf path _, n => path.length = n
  | node path child, n => path.length < n ∧ ∀ c, Uniform (child c) (n - (path.length + 1))

theorem drop_prefix_eq_some {key path rest : List β} :
    key.dropPrefix? path = some rest ↔ key = path ++ rest := by
  rw [List.dropPrefix?_eq_some_iff]
  constructor
  · rintro ⟨shared, split, same⟩
    rw [split, beq_iff_eq.mp same]
  · intro split
    exact ⟨path, split, beq_self_eq_true path⟩

theorem drop_prefix_append (path rest : List β) : (path ++ rest).dropPrefix? path = some rest :=
  drop_prefix_eq_some.mpr rfl

theorem drop_prefix_eq_none {key path : List β} :
    key.dropPrefix? path = none ↔ ¬ path <+: key := by
  constructor
  · rintro absent ⟨rest, split⟩
    rw [← split, drop_prefix_append] at absent
    cases absent
  · intro outside
    cases found : key.dropPrefix? path with
    | none => rfl
    | some rest => exact absurd ⟨rest, (drop_prefix_eq_some.mp found).symm⟩ outside

theorem lookup_node (path : List β) (child : β → Radix β ν) (c : β) (rest : List β) :
    lookup (node path child) (path ++ c :: rest) = lookup (child c) rest := by
  simp only [lookup, drop_prefix_append]

theorem lookup_node_outside (path : List β) (child : β → Radix β ν) (key : List β)
    (outside : ∀ c rest, key ≠ path ++ c :: rest) : lookup (node path child) key = none := by
  simp only [lookup]
  split
  · rename_i c rest found
    exact absurd (drop_prefix_eq_some.mp found) (outside c rest)
  · rfl

theorem diverge_some {as bs shared : List β} {x y : β} {xs ys : List β}
    (split : diverge as bs = some (shared, x, xs, y, ys)) :
    as = shared ++ x :: xs ∧ bs = shared ++ y :: ys ∧ x ≠ y := by
  induction as generalizing bs shared with
  | nil => simp [diverge] at split
  | cons a as ih =>
      cases bs with
      | nil => simp [diverge] at split
      | cons b bs =>
          by_cases same : a = b
          · subst same
            simp only [diverge, if_true, Option.map_eq_some_iff] at split
            obtain ⟨⟨shared', x', xs', y', ys'⟩, inner, result⟩ := split
            simp only [Prod.mk.injEq] at result
            obtain ⟨rfl, rfl, rfl, rfl, rfl⟩ := result
            obtain ⟨left, right, apart⟩ := ih inner
            exact ⟨by rw [left]; rfl, by rw [right]; rfl, apart⟩
          · simp only [diverge, same, if_false, Option.some.injEq, Prod.mk.injEq] at split
            obtain ⟨rfl, rfl, rfl, rfl, rfl⟩ := split
            exact ⟨rfl, rfl, same⟩

theorem diverge_none {as bs : List β} (agree : diverge as bs = none) : as <+: bs ∨ bs <+: as := by
  induction as generalizing bs with
  | nil => exact Or.inl (List.nil_prefix)
  | cons a as ih =>
      cases bs with
      | nil => exact Or.inr List.nil_prefix
      | cons b bs =>
          by_cases same : a = b
          · subst same
            simp only [diverge, if_true, Option.map_eq_none_iff] at agree
            rcases ih agree with shorter | longer
            · exact Or.inl (List.prefix_cons_inj a |>.mpr shorter)
            · exact Or.inr (List.prefix_cons_inj a |>.mpr longer)
          · simp [diverge, same] at agree

-- Two lists of one length that never differ are equal.
theorem diverge_none_eq {as bs : List β} (agree : diverge as bs = none)
    (sameLength : as.length = bs.length) : as = bs := by
  rcases diverge_none agree with shorter | longer
  · exact shorter.eq_of_length sameLength
  · exact (longer.eq_of_length sameLength.symm).symm

theorem not_prefix_of_diverge {as bs shared : List β} {x y : β} {xs ys : List β}
    (split : diverge as bs = some (shared, x, xs, y, ys)) : ¬ as <+: bs := by
  obtain ⟨rfl, rfl, apart⟩ := diverge_some split
  intro isPrefix
  rw [List.prefix_append_right_inj, List.cons_prefix_cons] at isPrefix
  exact apart isPrefix.1

theorem diverge_of_prefix {as bs : List β} (isPrefix : as <+: bs) : diverge as bs = none := by
  cases split : diverge as bs with
  | none => rfl
  | some parts =>
      obtain ⟨shared, x, xs, y, ys⟩ := parts
      exact absurd isPrefix (not_prefix_of_diverge split)

/-- A path that agrees with a longer key is followed in the key by a next element. -/
theorem diverge_none_split {path key : List β} (agree : diverge path key = none)
    (shorter : path.length < key.length) : ∃ c rest, key = path ++ c :: rest := by
  rcases diverge_none agree with isPrefix | longer
  · obtain ⟨rest, split⟩ := isPrefix
    cases rest with
    | nil => simp [← split] at shorter
    | cons c rest => exact ⟨c, rest, split.symm⟩
  · exact absurd longer.length_le (Nat.not_le.mpr shorter)

theorem drop_prefix_append_append (shared key path : List β) :
    (shared ++ key).dropPrefix? (shared ++ path) = key.dropPrefix? path := by
  cases found : key.dropPrefix? path with
  | some rest =>
      rw [drop_prefix_eq_some.mp found, ← List.append_assoc, drop_prefix_append]
  | none =>
      apply drop_prefix_eq_none.mpr
      rintro ⟨rest, split⟩
      rw [List.append_assoc, List.append_cancel_left_eq] at split
      rw [← split, drop_prefix_append] at found
      cases found

theorem lookup_node_append (shared path : List β) (child : β → Radix β ν) (key : List β) :
    lookup (node (shared ++ path) child) (shared ++ key) = lookup (node path child) key := by
  simp only [lookup, drop_prefix_append_append]

theorem lookup_leaf_diverged {path key shared xs ys : List β} {x y : β} (value : ν)
    (split : diverge path key = some (shared, x, xs, y, ys)) : lookup (leaf path value) key = none := by
  have differ : key ≠ path := fun same => not_prefix_of_diverge split (same ▸ List.prefix_refl _)
  simp [lookup, differ]

theorem lookup_node_diverged {path key shared xs ys : List β} {x y : β} (child : β → Radix β ν)
    (split : diverge path key = some (shared, x, xs, y, ys)) : lookup (node path child) key = none := by
  simp only [lookup, drop_prefix_eq_none.mpr (not_prefix_of_diverge split)]

section Insert

variable {shared ys : List β} {x y : β} (value : ν)

-- A fork where the key leaves an old path: keys through `x` see the old
-- subtree, the key itself sees its new leaf, every other key sees nothing.
theorem lookup_fork_new (apart : x ≠ y) (old original : Radix β ν) (key' : List β)
    (throughOld : ∀ rest, lookup original (shared ++ x :: rest) = lookup old rest)
    (elsewhere : ∀ key', (∀ rest, key' ≠ shared ++ x :: rest) → lookup original key' = none) :
    lookup (fork shared x old y (leaf ys value)) key' =
      if key' = shared ++ y :: ys then some value else lookup original key' := by
  by_cases through : ∃ c rest, key' = shared ++ c :: rest
  · obtain ⟨c, rest, rfl⟩ := through
    simp only [fork, lookup_node, List.append_cancel_left_eq, List.cons.injEq]
    by_cases isOld : c = x
    · subst isOld
      simp [apart, throughOld]
    · have away : lookup original (shared ++ c :: rest) = none := by
        apply elsewhere
        intro rest' split
        rw [List.append_cancel_left_eq, List.cons.injEq] at split
        exact isOld split.1
      by_cases isNew : c = y
      · subst isNew
        simp [isOld, lookup, away]
      · simp [isOld, isNew, lookup, away]
  · have outside : ∀ c rest, key' ≠ shared ++ c :: rest := fun c rest split =>
      through ⟨c, rest, split⟩
    rw [fork, lookup_node_outside shared _ key' outside, if_neg (outside y ys)]
    exact (elsewhere key' (fun rest => outside x rest)).symm

theorem lookup_insert_leaf {path key : List β} (old : ν) (key' : List β)
    (sameLength : path.length = key.length) :
    lookup (insert (leaf path old) key value) key' =
      if key' = key then some value else lookup (leaf path old) key' := by
  cases split : diverge path key with
  | none =>
      obtain rfl := diverge_none_eq split sameLength
      by_cases hit : key' = path <;> simp [insert, split, lookup, hit]
  | some parts =>
      obtain ⟨shared, x, xs, y, ys⟩ := parts
      obtain ⟨rfl, rfl, apart⟩ := diverge_some split
      simp only [insert, split]
      apply lookup_fork_new value apart
      · intro rest
        simp [lookup]
      · intro key' outside
        simp [lookup, outside xs]

theorem lookup_insert_forked {path key : List β} (child : β → Radix β ν) (key' : List β)
    {xs : List β} (split : diverge path key = some (shared, x, xs, y, ys)) :
    lookup (insert (node path child) key value) key' =
      if key' = key then some value else lookup (node path child) key' := by
  obtain ⟨rfl, rfl, apart⟩ := diverge_some split
  simp only [insert, split]
  apply lookup_fork_new value apart
  · intro rest
    simpa using lookup_node_append (shared ++ [x]) xs child rest
  · intro key' outside
    apply lookup_node_outside
    intro c rest split
    exact outside (xs ++ c :: rest) (by rw [split]; simp)

-- Under a node the key takes the child of its next element.
theorem insert_descends {path key : List β} (child : β → Radix β ν)
    (agree : diverge path key = none) (shorter : path.length < key.length) :
    ∃ c rest, key = path ++ c :: rest ∧
      insert (node path child) key value =
        node path (Function.update child c (insert (child c) rest value)) := by
  obtain ⟨c, rest, split⟩ := diverge_none_split agree shorter
  refine ⟨c, rest, split, ?_⟩
  rw [split] at agree ⊢
  simp only [insert, agree, List.drop_left]

theorem lookup_insert (t : Radix β ν) (key key' : List β) (uniform : Uniform t key.length)
    (sameLength : key'.length = key.length) :
    lookup (insert t key value) key' = if key' = key then some value else lookup t key' := by
  induction t generalizing key key' with
  | empty => simp [insert, lookup]
  | leaf path old => exact lookup_insert_leaf value old key' uniform
  | node path child ih =>
      obtain ⟨shorter, below⟩ := uniform
      cases split : diverge path key with
      | some parts =>
          obtain ⟨shared, x, xs, y, ys⟩ := parts
          exact lookup_insert_forked value child key' split
      | none =>
          obtain ⟨c, rest, rfl, inserted⟩ := insert_descends value child split shorter
          rw [inserted]
          by_cases through : ∃ c' rest', key' = path ++ c' :: rest'
          · obtain ⟨c', rest', rfl⟩ := through
            have restLength : rest'.length = rest.length := by
              simp only [List.length_append, List.length_cons] at sameLength
              omega
            have childUniform : Uniform (child c) rest.length := by
              have := below c
              simp only [List.length_append, List.length_cons] at this
              rwa [show path.length + (rest.length + 1) - (path.length + 1) = rest.length by omega]
                at this
            simp only [lookup_node, List.append_cancel_left_eq, List.cons.injEq]
            by_cases same : c' = c
            · subst same
              simp [ih c' rest rest' childUniform restLength]
            · simp [same]
          · have outside : ∀ c' rest', key' ≠ path ++ c' :: rest' := fun c' rest' split =>
              through ⟨c', rest', split⟩
            rw [lookup_node_outside _ _ key' outside, lookup_node_outside _ _ key' outside,
              if_neg (outside c rest)]

theorem uniform_insert (t : Radix β ν) (key : List β) (uniform : Uniform t key.length) :
    Uniform (insert t key value) key.length := by
  induction t generalizing key with
  | empty => rfl
  | leaf path old =>
      cases split : diverge path key with
      | none => simpa [insert, split, Uniform] using uniform
      | some parts =>
          obtain ⟨shared, x, xs, y, ys⟩ := parts
          obtain ⟨rfl, rfl, apart⟩ := diverge_some split
          simp only [Uniform, List.length_append, List.length_cons] at uniform
          simp only [insert, split, fork, Uniform, List.length_append, List.length_cons]
          refine ⟨by omega, fun c => ?_⟩
          by_cases isOld : c = x
          · simp only [isOld, if_true, Uniform]
            omega
          · by_cases isNew : c = y
            · subst isNew
              simp only [isOld, if_false, if_true, Uniform]
              omega
            · simp [isOld, isNew, Uniform]
  | node path child ih =>
      obtain ⟨shorter, below⟩ := uniform
      cases split : diverge path key with
      | some parts =>
          obtain ⟨shared, x, xs, y, ys⟩ := parts
          obtain ⟨rfl, rfl, apart⟩ := diverge_some split
          simp only [List.length_append, List.length_cons] at shorter below
          simp only [insert, split, fork, Uniform, List.length_append, List.length_cons]
          refine ⟨by omega, fun c => ?_⟩
          by_cases isOld : c = x
          · simp only [isOld, if_true, Uniform]
            refine ⟨by omega, fun c' => ?_⟩
            have := below c'
            rwa [show shared.length + (ys.length + 1) - (shared.length + 1) - (xs.length + 1) =
              shared.length + (ys.length + 1) - (shared.length + (xs.length + 1) + 1) by omega]
          · by_cases isNew : c = y
            · subst isNew
              simp only [isOld, if_false, if_true, Uniform]
              omega
            · simp [isOld, isNew, Uniform]
      | none =>
          obtain ⟨c, rest, rfl, inserted⟩ := insert_descends value child split shorter
          rw [inserted]
          simp only [List.length_append, List.length_cons] at shorter below ⊢
          refine ⟨shorter, fun c' => ?_⟩
          have restLength : path.length + (rest.length + 1) - (path.length + 1) = rest.length := by
            omega
          by_cases same : c' = c
          · subst same
            rw [Function.update_self, restLength]
            apply ih
            simpa [restLength] using below c'
          · rw [Function.update_of_ne same]
            exact below c'

end Insert

end Radix

end RadixTree
