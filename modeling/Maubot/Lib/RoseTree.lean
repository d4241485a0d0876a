import Mathlib.Data.List.Basic
import Mathlib.Tactic.Common

namespace Maubot

/-!
# Finite trees with lists of children

* `labels`, `height`, `map` — what stands in a tree, how deep it is, and a tree of the same shape;
* `RoseTree.induct` — what holds of a tree once it holds of its children;
* `labels_map` — a map maps the labels.
-/

inductive RoseTree (α : Type) : Type
  | node (label : α) (children : List (RoseTree α))

namespace RoseTree

variable {α β : Type}

def label : RoseTree α → α
  | node a _ => a

/-- The labels, those of a node before those of its children. -/
def labels : RoseTree α → List α
  | node a ts => a :: ts.flatMap labels

/-- The number of nodes on the longest path from the root. -/
def height : RoseTree α → Nat
  | node _ ts => (ts.map height).foldr max 0 + 1

/-- The tree of the same shape with other labels. -/
def map (f : α → β) : RoseTree α → RoseTree β
  | node a ts => node (f a) (ts.map (map f))

/-- A property of every tree follows from that of a node whose children have it. -/
@[elab_as_elim]
theorem induct {p : RoseTree α → Prop}
    (node : ∀ a ts, (∀ t ∈ ts, p t) → p (node a ts)) (t : RoseTree α) : p t := by
  induction hn : sizeOf t using Nat.strongRecOn generalizing t with
  | ind n ih =>
    obtain ⟨a, ts⟩ := t
    refine node a ts fun t ht => ih (sizeOf t) ?_ t rfl
    have hlt : sizeOf t < sizeOf ts := List.sizeOf_lt_of_mem ht
    rw [← hn]
    simp only [RoseTree.node.sizeOf_spec]
    omega

/-- The label of a node. -/
@[simp] theorem label_node (a : α) (ts : List (RoseTree α)) : (node a ts).label = a := rfl

/-- A map goes over the label and the children. -/
@[simp] theorem map_node (f : α → β) (a : α) (ts : List (RoseTree α)) :
    (node a ts).map f = node (f a) (ts.map (map f)) := by
  rw [map]

/-- So the label is mapped. -/
@[simp] theorem label_map (f : α → β) (t : RoseTree α) : (t.map f).label = f t.label := by
  cases t
  rw [map_node]
  rfl

/-- A label of a node is its own or one of a child. -/
@[simp] theorem mem_labels_node {b a : α} {ts : List (RoseTree α)} :
    b ∈ (node a ts).labels ↔ b = a ∨ ∃ t ∈ ts, b ∈ t.labels := by
  rw [labels, List.mem_cons, List.mem_flatMap]

/-- The label of the root is one of the tree. -/
theorem label_mem_labels (t : RoseTree α) : t.label ∈ t.labels := by
  cases t
  exact mem_labels_node.mpr (.inl rfl)

/-- A child is less high. -/
theorem height_lt_of_mem {t : RoseTree α} {a : α} {ts : List (RoseTree α)} (h : t ∈ ts) :
    t.height < (node a ts).height := by
  have hle : t.height ≤ (ts.map height).foldr max 0 := by
    induction ts with
    | nil => cases h
    | cons u us ih =>
      rw [List.map_cons, List.foldr_cons]
      rcases List.mem_cons.mp h with rfl | hmem
      · exact Nat.le_max_left _ _
      · exact Nat.le_trans (ih hmem) (Nat.le_max_right _ _)
  rw [height]
  exact Nat.lt_succ_of_le hle

/-- The labels are mapped too. -/
theorem labels_map (f : α → β) (t : RoseTree α) : (t.map f).labels = t.labels.map f := by
  induction t using induct with
  | node a ts ih =>
    rw [map_node, labels, labels, List.map_cons, List.flatMap_map, List.map_flatMap]
    congr 1
    exact List.flatMap_congr ih

end RoseTree

end Maubot
