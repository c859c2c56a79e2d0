import Mathlib.Tactic.Common
import Mathlib.Tactic.Ring

/-!
# Sparse Merkle trees

A full binary tree over leaves indexed by natural numbers, in which a node over two
empty children is empty without being hashed.  `fold` recomputes an ancestor from one
node and its siblings.  With the tree's own siblings it gives the tree's own ancestor,
and two folds along one index that end in the same node started from the same node,
unless the hash collides on a pair it was applied to or maps one to the empty node.
-/

namespace StellarIbc.SparseMerkle

variable {N : Type} [DecidableEq N] (empty : N) (hash : N → N → N)

/-- A parent of two nodes. -/
def inner (left right : N) : N :=
  if left = empty ∧ right = empty then empty else hash left right

/-- The parent of the node at `index` and its sibling: even indices are left children. -/
def parent (index : Nat) (current sibling : N) : N :=
  if index % 2 = 0 then inner empty hash current sibling
  else inner empty hash sibling current

/-- The ancestor reached from the node `current` at `index` along `siblings`. -/
def fold : Nat → N → List N → N
  | _, current, [] => current
  | index, current, sibling :: siblings =>
      fold (index / 2) (parent empty hash index current sibling) siblings

/-- The node at `height` and `index` of the tree over `leaf`. -/
def node (leaf : Nat → N) : Nat → Nat → N
  | 0, index => leaf index
  | height + 1, index =>
      inner empty hash (node leaf height (2 * index)) (node leaf height (2 * index + 1))

def siblingIndex (index : Nat) : Nat := if index % 2 = 0 then index + 1 else index - 1

/-- The siblings on the way up from `height` and `index`, `depth` of them. -/
def siblings (leaf : Nat → N) : Nat → Nat → Nat → List N
  | 0, _, _ => []
  | depth + 1, height, index =>
      node empty hash leaf height (siblingIndex index) ::
        siblings leaf depth (height + 1) (index / 2)

variable {empty hash}

@[simp] theorem inner_empty : inner empty hash empty empty = empty := if_pos ⟨rfl, rfl⟩

/-! ### A tree's own siblings -/

theorem parent_node (leaf : Nat → N) (height index : Nat) :
    parent empty hash index (node empty hash leaf height index)
      (node empty hash leaf height (siblingIndex index)) =
      node empty hash leaf (height + 1) (index / 2) := by
  have hnode : node empty hash leaf (height + 1) (index / 2) =
      inner empty hash (node empty hash leaf height (2 * (index / 2)))
        (node empty hash leaf height (2 * (index / 2) + 1)) := rfl
  rw [hnode, parent, siblingIndex]
  by_cases heven : index % 2 = 0
  · have hleft : 2 * (index / 2) = index := by omega
    rw [if_pos heven, if_pos heven, hleft]
  · have hleft : 2 * (index / 2) = index - 1 := by omega
    have hright : index - 1 + 1 = index := by omega
    rw [if_neg heven, if_neg heven, hleft, hright]

theorem fold_siblings (leaf : Nat → N) (depth height index : Nat) :
    fold empty hash index (node empty hash leaf height index)
      (siblings empty hash leaf depth height index) =
      node empty hash leaf (height + depth) (index / 2 ^ depth) := by
  induction depth generalizing height index with
  | zero => simp [siblings, fold]
  | succ depth ih =>
      rw [siblings, fold, parent_node, ih, Nat.div_div_eq_div_mul, pow_succ']
      congr 1
      omega

@[simp] theorem length_siblings (leaf : Nat → N) (depth height index : Nat) :
    (siblings empty hash leaf depth height index).length = depth := by
  induction depth generalizing height index with
  | zero => rfl
  | succ depth ih => simp [siblings, ih]

theorem getElem_siblings (leaf : Nat → N) (depth height index : Nat) {l : Nat} (hl : l < depth) :
    (siblings empty hash leaf depth height index)[l]? =
      some (node empty hash leaf (height + l) (siblingIndex (index / 2 ^ l))) := by
  induction depth generalizing height index l with
  | zero => omega
  | succ depth ih =>
      cases l with
      | zero => simp [siblings]
      | succ l =>
          have hheight : height + (l + 1) = height + 1 + l := by omega
          rw [siblings, List.getElem?_cons_succ, ih _ _ (by omega), Nat.div_div_eq_div_mul,
            ← pow_succ', hheight]

theorem node_eq_empty {leaf : Nat → N} (hleaf : ∀ index, leaf index = empty)
    (height index : Nat) : node empty hash leaf height index = empty := by
  induction height generalizing index with
  | zero => exact hleaf index
  | succ height ih => rw [node, ih, ih, inner_empty]

/-! ### Position binding -/

/-- The pair a parent is the hash of. -/
def children (index : Nat) (current sibling : N) : N × N :=
  if index % 2 = 0 then (current, sibling) else (sibling, current)

variable (empty hash) in
/-- The pairs that a fold hashes. -/
def hashedPairs : Nat → N → List N → List (N × N)
  | _, _, [] => []
  | index, current, sibling :: siblings =>
      (if current = empty ∧ sibling = empty then [] else [children index current sibling]) ++
        hashedPairs (index / 2) (parent empty hash index current sibling) siblings

/-- The hash misbehaves on `pairs`: two of them collide, or one hashes to the empty
node. -/
def Broken (empty : N) (hash : N → N → N) (pairs : Set (N × N)) : Prop :=
  (∃ p ∈ pairs, ∃ q ∈ pairs, p ≠ q ∧ hash p.1 p.2 = hash q.1 q.2) ∨
    ∃ p ∈ pairs, hash p.1 p.2 = empty

omit [DecidableEq N] in
theorem Broken.mono {small large : Set (N × N)} (hsubset : small ⊆ large)
    (h : Broken empty hash small) : Broken empty hash large := by
  rcases h with ⟨p, hp, q, hq, hne, heq⟩ | ⟨p, hp, hempty⟩
  · exact .inl ⟨p, hsubset hp, q, hsubset hq, hne, heq⟩
  · exact .inr ⟨p, hsubset hp, hempty⟩

theorem parent_eq (index : Nat) (current sibling : N) :
    parent empty hash index current sibling =
      if current = empty ∧ sibling = empty then empty
      else hash (children index current sibling).1 (children index current sibling).2 := by
  unfold parent children inner
  by_cases heven : index % 2 = 0
  · simp only [heven, if_true]
  · simp only [heven, if_false, and_comm]

omit [DecidableEq N] in
theorem children_injective {index : Nat} {x y s t : N}
    (h : children index x s = children index y t) : x = y := by
  unfold children at h
  by_cases heven : index % 2 = 0
  · simp only [heven, if_true, Prod.mk.injEq] at h
    exact h.1
  · simp only [heven, if_false, Prod.mk.injEq] at h
    exact h.2

/-- One level: equal parents have equal children on the path, the empty rule included. -/
theorem parent_binding {index : Nat} {x y s t : N}
    (h : parent empty hash index x s = parent empty hash index y t) :
    x = y ∨ Broken empty hash
      { p | p ∈ hashedPairs empty hash index x [s] ∨ p ∈ hashedPairs empty hash index y [t] } := by
  rw [parent_eq, parent_eq] at h
  by_cases hx : x = empty ∧ s = empty
  · by_cases hy : y = empty ∧ t = empty
    · exact .inl (hx.1.trans hy.1.symm)
    · rw [if_pos hx, if_neg hy] at h
      refine .inr (.inr ⟨children index y t, .inr ?_, h.symm⟩)
      simp [hashedPairs, hy]
  · by_cases hy : y = empty ∧ t = empty
    · rw [if_neg hx, if_pos hy] at h
      refine .inr (.inr ⟨children index x s, .inl ?_, h⟩)
      simp [hashedPairs, hx]
    · rw [if_neg hx, if_neg hy] at h
      by_cases hpair : children index x s = children index y t
      · exact .inl (children_injective hpair)
      · refine .inr (.inl ⟨_, .inl ?_, _, .inr ?_, hpair, h⟩)
        · simp [hashedPairs, hx]
        · simp [hashedPairs, hy]

/-- **Position binding.**  Two folds of one length along one index that end alike started
alike, unless the hash misbehaves on the pairs they hash. -/
theorem fold_binding {index : Nat} {x y : N} {xs ys : List N}
    (hlength : xs.length = ys.length)
    (h : fold empty hash index x xs = fold empty hash index y ys) :
    x = y ∨ Broken empty hash
      { p | p ∈ hashedPairs empty hash index x xs ∨ p ∈ hashedPairs empty hash index y ys } := by
  induction xs generalizing index x y ys with
  | nil =>
      obtain rfl := List.length_eq_zero_iff.mp hlength.symm
      exact .inl h
  | cons s xs ih =>
      cases ys with
      | nil => simp at hlength
      | cons t ys =>
          rw [fold, fold] at h
          -- first the levels above, then this one
          rcases ih (by simpa using hlength) h with hparent | hbroken
          · rcases parent_binding hparent with hsame | hbroken
            · exact .inl hsame
            · refine .inr (hbroken.mono ?_)
              rintro p (hp | hp)
              · exact .inl (by simp_all [hashedPairs])
              · exact .inr (by simp_all [hashedPairs])
          · refine .inr (hbroken.mono ?_)
            rintro p (hp | hp)
            · exact .inl (List.mem_append_right _ hp)
            · exact .inr (List.mem_append_right _ hp)

end StellarIbc.SparseMerkle
