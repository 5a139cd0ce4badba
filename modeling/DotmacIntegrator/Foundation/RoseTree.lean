import Mathlib.Tactic.TypeStar

/-!
# Labelled trees

A node has a label and any number of children.

## Main definitions

* `RoseTree.labels`, `RoseTree.descendants`: the labels of a tree, and those under its root
* `RoseTree.Occurs`: a label stands somewhere in a tree

## Main results

* `mem_labels_iff`, `mem_descendants_iff`: the lists have the labels that occur
-/

/-- A tree whose nodes have any number of children. -/
inductive RoseTree (α : Type*)
  | node (label : α) (children : List (RoseTree α))

namespace RoseTree

variable {α : Type*}

/-- The children of the root. -/
def children : RoseTree α → List (RoseTree α)
  | node _ ts => ts

mutual

/-- The labels of a tree, a node before its children. -/
def labels : RoseTree α → List α
  | node a ts => a :: forestLabels ts

/-- The labels of several trees. -/
def forestLabels : List (RoseTree α) → List α
  | [] => []
  | t :: ts => labels t ++ forestLabels ts

end

/-- The labels under the root. -/
def descendants (t : RoseTree α) : List α := forestLabels t.children

/-- The label stands somewhere in the tree. -/
inductive Occurs (a : α) : RoseTree α → Prop
  | root {ts : List (RoseTree α)} : Occurs a (node a ts)
  | child {b : α} {ts : List (RoseTree α)} {t : RoseTree α} (ht : t ∈ ts) (h : Occurs a t) :
    Occurs a (node b ts)

theorem occurs_node_iff {a b : α} {ts : List (RoseTree α)} :
    Occurs a (node b ts) ↔ a = b ∨ ∃ t ∈ ts, Occurs a t := by
  constructor
  · rintro (_ | ⟨ht, h⟩)
    · exact Or.inl rfl
    · exact Or.inr ⟨_, ht, h⟩
  · rintro (rfl | ⟨t, ht, h⟩)
    · exact .root
    · exact .child ht h

mutual

theorem mem_labels_iff {a : α} : (t : RoseTree α) → (a ∈ labels t ↔ Occurs a t)
  | node b ts => by rw [labels, List.mem_cons, mem_forestLabels_iff ts, occurs_node_iff]

theorem mem_forestLabels_iff {a : α} :
    (ts : List (RoseTree α)) → (a ∈ forestLabels ts ↔ ∃ t ∈ ts, Occurs a t)
  | [] => by simp [forestLabels]
  | t :: ts => by
    simp only [forestLabels, List.mem_append, mem_labels_iff t, mem_forestLabels_iff ts,
      List.mem_cons, exists_eq_or_imp]

end

/-- A label is under the root iff it stands in a child. -/
theorem mem_descendants_iff {a : α} {t : RoseTree α} :
    a ∈ descendants t ↔ ∃ s ∈ t.children, Occurs a s :=
  mem_forestLabels_iff t.children

end RoseTree
