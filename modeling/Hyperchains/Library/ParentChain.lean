import Mathlib

/-! Chains of nodes along a parent function, oldest first: the path from an
ancestor down to a descendant, how two paths join when the second starts at a
child of the first's last node, and why a path never repeats a node once the
parent relation lowers a height by one. -/

namespace ParentChain

universe u
variable {Node : Type u} (parent : Node → Option Node)

/-- `Path parent first last nodes`: `nodes` runs from `first` to `last`, both
included, each node after the first being a child of the one before it. -/
inductive Path : Node → Node → List Node → Prop where
  | single (node : Node) : Path node node [node]
  | step {first previous last : Node} {nodes : List Node} :
      Path first previous nodes → parent last = some previous → Path first last (nodes ++ [last])

variable {parent}

theorem path_head {first last : Node} {nodes : List Node}
    (path : Path parent first last nodes) : nodes.head? = some first := by
  induction path with
  | single => rfl
  | step earlier _ ih => simp [List.head?_append, ih]

theorem path_ne_nil {first last : Node} {nodes : List Node}
    (path : Path parent first last nodes) : nodes ≠ [] := by
  have head := path_head path
  intro empty
  simp [empty] at head

/-- A path ending at a node joins a path starting at one of that node's
children. -/
theorem path_join {first middle next last : Node} {left right : List Node}
    (before : Path parent first middle left) (link : parent next = some middle)
    (after : Path parent next last right) : Path parent first last (left ++ right) := by
  induction after with
  | single => exact Path.step before link
  | step earlier hop ih =>
      rw [← List.append_assoc]
      exact Path.step ih hop

/-- A path that does not stay at its first node ends with a step. -/
theorem path_last_step {first last : Node} {nodes : List Node}
    (path : Path parent first last nodes) (apart : first ≠ last) :
    ∃ previous earlier, Path parent first previous earlier ∧ parent last = some previous ∧
      nodes = earlier ++ [last] := by
  cases path with
  | single => exact absurd rfl apart
  | step earlier hop => exact ⟨_, _, earlier, hop, rfl⟩

section Heights
variable (height : Node → Nat)
  (grows : ∀ child above, parent child = some above → height child = height above + 1)
include grows

/-- A path has one node more than the heights it climbs. -/
theorem path_length {first last : Node} {nodes : List Node} (path : Path parent first last nodes) :
    nodes.length + height first = height last + 1 := by
  induction path with
  | single => simp [Nat.add_comm]
  | step earlier hop ih =>
      rename_i previous last' nodes
      have lifted := grows last' previous hop
      simp only [List.length_append, List.length_singleton]
      omega

theorem path_members_below {first last : Node} {nodes : List Node}
    (path : Path parent first last nodes) :
    ∀ node ∈ nodes, height node ≤ height last := by
  induction path with
  | single =>
      intro member present
      simp only [List.mem_singleton] at present
      rw [present]
  | step earlier hop ih =>
      rename_i previous last' nodes
      have lifted := grows last' previous hop
      intro member present
      rcases List.mem_append.mp present with old | new
      · have below := ih member old
        omega
      · simp only [List.mem_singleton] at new
        rw [new]

/-- Heights that grow by one from parent to child keep a path free of
repeats. -/
theorem path_nodup {first last : Node} {nodes : List Node} (path : Path parent first last nodes) :
    nodes.Nodup := by
  induction path with
  | single => exact List.nodup_singleton _
  | step earlier hop ih =>
      rename_i previous last' nodes
      have lifted := grows last' previous hop
      have fresh : last' ∉ nodes := by
        intro present
        have below := path_members_below height grows earlier last' present
        omega
      exact List.Nodup.append ih (List.nodup_singleton last')
        (List.disjoint_singleton.mpr fresh)

end Heights

end ParentChain
