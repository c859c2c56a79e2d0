import StellarIbc.CoreSmt
import StellarIbc.Sha256

/-!
# The sparse tree as a tree and as a map

What `smt.rs` computes from the occupied leaves only is what the full binary tree of
depth 64 holds: every level, the root and the siblings of every index.  Over keys with
distinct indices a run of insertions, updates and removals makes a map that can be
proved: what it holds has a membership proof and nothing else has, and what it does not
hold has a proof of absence.  Nothing is assumed of the hash.
-/

namespace StellarIbc.Core

variable {sha256 : Bytes → Hash}

/-! ### The dense tree -/

theorem Smt.getElem_materializeLevels (smt : Smt) {height : Nat} (hheight : height ≤ TREE_DEPTH) :
    (smt.materializeLevels sha256)[height]? =
      some ((Level.next sha256)^[height] (smt.bottom sha256)) :=
  Level.upwards_get _ _ _ hheight

/-- **The sparse tree is the dense tree.**  Every level, the root and the siblings of every
index are those of the full tree over the leaves. -/
theorem sparse_eq_dense (sha256 : Bytes → Hash) (smt : Smt) :
    (∀ height ≤ TREE_DEPTH, ∀ i < 2 ^ (TREE_DEPTH - height), ∃ level,
      (smt.materializeLevels sha256)[height]? = some level ∧
        level.get (UInt64.ofNat i) = smt.node sha256 height i) ∧
    smt.root sha256 = smt.node sha256 TREE_DEPTH 0 ∧
    ∀ (idx : UInt64), ∀ l < TREE_DEPTH, (smt.siblingsFor sha256 idx)[l]? =
      some (smt.node sha256 l ((idx.toNat >>> l) ^^^ 1)) := by
  refine ⟨?_, smt.root_eq, ?_⟩
  · intro height hheight i hi
    refine ⟨_, smt.getElem_materializeLevels hheight, ?_⟩
    have hfits : i < 2 ^ 64 :=
      Nat.lt_of_lt_of_le hi (Nat.pow_le_pow_right (by decide) (Nat.sub_le _ _))
    rw [← Smt.lookup_level, Level.lookup, if_pos hfits]
  · intro idx l hl
    rw [Smt.siblingsFor_eq, SparseMerkle.getElem_siblings _ _ _ _ hl, siblingIndex_eq_xor,
      Nat.zero_add, Nat.shiftRight_eq_div_pow]
    rfl

/-! ### A map that can be proved -/

/-- What the tree proves of `key` where the map has `value` there. -/
structure Smt.ProvesPresent (sha256 : Bytes → Hash) (smt : Smt) (key value : Bytes)
    (proof : MembershipProof) : Prop where
  generated : smt.generateMembershipProof sha256 key = some proof
  depth : proof.siblings.length = TREE_DEPTH
  accepted : Smt.verifyMembership sha256 (smt.root sha256) proof key value = true
  rejected : ∀ other, sha256 other ≠ sha256 value →
    Smt.verifyMembership sha256 (smt.root sha256) proof key other = false
  notAbsent : smt.generateNonMembershipProof sha256 key = none

/-- What it proves where the map has nothing. -/
structure Smt.ProvesAbsent (sha256 : Bytes → Hash) (smt : Smt) (key : Bytes)
    (proof : NonMembershipProof) : Prop where
  generated : smt.generateNonMembershipProof sha256 key = some proof
  accepted : Smt.verifyNonMembership sha256 (smt.root sha256) proof key = true
  notPresent : smt.generateMembershipProof sha256 key = none

theorem Smt.provesPresent_of_leaf {smt : Smt} {key value : Bytes} (hvalue : value ≠ [])
    (h : smt.leaves[keyIndex sha256 key]? = some (sha256 key, sha256 value)) :
    smt.ProvesPresent sha256 key value
      ⟨sha256 key, sha256 value, smt.siblingsFor sha256 (keyIndex sha256 key)⟩ := by
  have hfold : foldSiblings sha256 (keyIndex sha256 key)
      (leafHash sha256 (sha256 key) (sha256 value))
      (smt.siblingsFor sha256 (keyIndex sha256 key)) = smt.root sha256 := by
    rw [← Smt.leafAt_of_some h]
    exact smt.foldSiblings_siblingsFor _
  refine ⟨Smt.generateMembershipProof_of_some h, Smt.length_siblingsFor _ _, ?_, ?_, ?_⟩
  · unfold keyIndex at hfold ⊢
    simp [Smt.verifyMembership, hvalue, hfold]
  · intro other hother
    simp [Smt.verifyMembership, hother]
  · unfold keyIndex at h
    simp [Smt.generateNonMembershipProof, h]

theorem Smt.provesAbsent_of_leaf {smt : Smt} {key : Bytes}
    (h : smt.leaves[keyIndex sha256 key]? = none) :
    smt.ProvesAbsent sha256 key
      ⟨sha256 key, smt.siblingsFor sha256 (keyIndex sha256 key)⟩ := by
  have hfold : foldSiblings sha256 (keyIndex sha256 key) EMPTY
      (smt.siblingsFor sha256 (keyIndex sha256 key)) = smt.root sha256 := by
    rw [← Smt.leafAt_of_none h]
    exact smt.foldSiblings_siblingsFor _
  refine ⟨Smt.generateNonMembershipProof_of_none h, ?_, ?_⟩
  · unfold keyIndex at hfold ⊢
    simp [Smt.verifyNonMembership, hfold]
  · unfold keyIndex at h
    simp [Smt.generateMembershipProof, h]

/-- **The tree is a provable map.**  After any operations over keys with distinct indices,
each of these keys is provably present with its value, or provably absent. -/
theorem provable_map {keys : Set Bytes} (hindex : Set.InjOn (keyIndex sha256) keys)
    {ops : List Op} (hops : ∀ op ∈ ops, op.key ∈ keys) {key : Bytes} (hkey : key ∈ keys) :
    (∀ value, currentValue ops key = some value →
      ∃ proof, (Smt.ofOps sha256 ops).ProvesPresent sha256 key value proof) ∧
    (currentValue ops key = none →
      ∃ proof, (Smt.ofOps sha256 ops).ProvesAbsent sha256 key proof) := by
  have hholds := Smt.holds_ofOps hindex hops key hkey
  constructor
  · intro value hvalue
    rw [hvalue] at hholds
    exact ⟨_, Smt.provesPresent_of_leaf (currentValue_cases hvalue).1 hholds⟩
  · intro hnone
    rw [hnone] at hholds
    exact ⟨_, Smt.provesAbsent_of_leaf hholds⟩

/-- Two keys are written, and one of them is removed by writing the empty value. -/
def mapOps : List Op := [.insert [97] [1], .insert [98] [2], .update [97] [3], .update [98] []]

theorem provable_map_mapOps :
    (∃ proof, (Smt.ofOps Sha256.sha256 mapOps).ProvesPresent Sha256.sha256 [97] [3] proof) ∧
      ∃ proof, (Smt.ofOps Sha256.sha256 mapOps).ProvesAbsent Sha256.sha256 [98] proof := by
  have hindex : Set.InjOn (keyIndex Sha256.sha256) {[97], [98]} := by
    have hne : keyIndex Sha256.sha256 [97] ≠ keyIndex Sha256.sha256 [98] := by
      decide +kernel
    rw [Set.injOn_pair]
    exact fun heq => absurd heq hne
  have hops : ∀ op ∈ mapOps, op.key ∈ ({[97], [98]} : Set Bytes) := by
    simp [mapOps, Op.key]
  exact ⟨(provable_map hindex hops (.inl rfl)).1 [3] (by decide),
    (provable_map hindex hops (.inr rfl)).2 (by decide)⟩

end StellarIbc.Core
