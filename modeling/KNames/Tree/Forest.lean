import KNames.Tree.Kind

set_option autoImplicit false

/-!
# Ordered forests and their numbering

A forest is kept in first-child, next-sibling form. Its nodes are numbered in document order: a
node comes first, then the forest below it, then its later siblings. A node's number is therefore
never stored. `nodes` lists a forest in this order, `tops` its roots only, `path` goes from one
node up to its root, and `innermost` descends by position.
-/
namespace KNames

inductive Forest where
  | nil
  | cons (kind : Kind) (span : Span) (children rest : Forest)
deriving DecidableEq, Repr, Inhabited

structure Node where
  id : NodeId
  kind : Kind
  span : Span
  parent : Option NodeId
  below : Forest
deriving DecidableEq, Repr

namespace Forest

def size : Forest → Nat
  | nil => 0
  | cons _ _ children rest => children.size + rest.size + 1

def append : Forest → Forest → Forest
  | nil, later => later
  | cons kind span children rest, later => cons kind span children (rest.append later)

/-- The roots, when the first of them is numbered `base` and all hang under `parent`. -/
def tops (parent : Option NodeId) (base : NodeId) : Forest → List Node
  | nil => []
  | cons kind span children rest =>
    ⟨base, kind, span, parent, children⟩ :: rest.tops parent (base + 1 + children.size)

def nodes (parent : Option NodeId) (base : NodeId) : Forest → List Node
  | nil => []
  | cons kind span children rest =>
    ⟨base, kind, span, parent, children⟩ ::
      (children.nodes (some base) (base + 1) ++ rest.nodes parent (base + 1 + children.size))

/-- The `i`-th node in document order and what stands above it, innermost first. -/
def path (parent : Option NodeId) (base : NodeId) : Forest → Nat → List Node
  | nil, _ => []
  | cons kind span children _, 0 => [⟨base, kind, span, parent, children⟩]
  | cons kind span children rest, i + 1 =>
    if i < children.size then
      children.path (some base) (base + 1) i ++ [⟨base, kind, span, parent, children⟩]
    else rest.path parent (base + 1 + children.size) (i - children.size)

/-- Enters the first root whose span has the offset, and never leaves it again. -/
def innermost (base : NodeId) (offset : Nat) : Forest → Option NodeId
  | nil => none
  | cons _ span children rest =>
    if span.contains offset then some ((children.innermost (base + 1) offset).getD base)
    else rest.innermost (base + 1 + children.size) offset

theorem append_nil (f : Forest) : f.append nil = f := by
  induction f with
  | nil => rfl
  | cons kind span children rest _ ih => simp [append, ih]

theorem append_assoc (f g h : Forest) : (f.append g).append h = f.append (g.append h) := by
  induction f with
  | nil => rfl
  | cons kind span children rest _ ih => rw [append, append, append, ih]

theorem nodes_length (parent : Option NodeId) (base : NodeId) (f : Forest) :
    (f.nodes parent base).length = f.size := by
  induction f generalizing parent base with
  | nil => rfl
  | cons kind span children rest ihc ihr => simp [nodes, size, ihc, ihr]

theorem nodes_map_id (parent : Option NodeId) (base : NodeId) (f : Forest) :
    (f.nodes parent base).map (·.id) = List.range' base f.size := by
  induction f generalizing parent base with
  | nil => rfl
  | cons kind span children rest ihc ihr =>
    have h : children.size + rest.size + 1 = 1 + (children.size + rest.size) := by omega
    simp only [nodes, List.map_cons, List.map_append, ihc, ihr, size, h]
    rw [Nat.add_comm 1, List.range'_succ, ← List.range'_append_1]

theorem path_ne_nil {f : Forest} {i : Nat} (parent : Option NodeId) (base : NodeId)
    (h : i < f.size) : f.path parent base i ≠ [] := by
  induction f generalizing parent base i with
  | nil => simp [size] at h
  | cons kind span children rest ihc ihr =>
    cases i with
    | zero => simp [path]
    | succ i =>
      rw [path]
      split
      · simp
      · apply ihr
        simp only [size] at h
        omega

theorem path_head? (parent : Option NodeId) (base : NodeId) (f : Forest) (i : Nat) :
    (f.path parent base i).head? = (f.nodes parent base)[i]? := by
  induction f generalizing parent base i with
  | nil => rfl
  | cons kind span children rest ihc ihr =>
    cases i with
    | zero => rfl
    | succ i =>
      rw [path, nodes, List.getElem?_cons_succ]
      split
      · next h =>
        have inner := path_ne_nil (some base) (base + 1) h
        rw [List.getElem?_append_left (by rwa [nodes_length]), ← ihc, List.head?_append]
        cases found : (children.path (some base) (base + 1) i).head? with
        | none => exact absurd (List.head?_eq_none_iff.mp found) inner
        | some n => rfl
      · next h =>
        rw [List.getElem?_append_right (by rw [nodes_length]; omega), nodes_length, ihr]

end Forest

namespace Node

def subtree (n : Node) : List Node := n :: n.below.nodes (some n.id) (n.id + 1)

def childNodes (n : Node) : List Node := n.below.tops (some n.id) (n.id + 1)

def children (n : Node) : List NodeId := n.childNodes.map (·.id)

def body? (n : Node) : Option Node :=
  if n.kind.isRule then n.childNodes.find? (·.kind.isRuleBody) else none

end Node

end KNames
