import StellarIbc.CoreCommitment
import StellarIbc.SmtMap

/-!
# What a write of one key does to another

The tree addresses its leaves by the first eight bytes of a key's hash.  The proof
generators compare the whole stored hash; `insert`, `update` and `remove` do not, so a
write takes the leaf of any key with the same index.  A key keeps what is proved of it
under the operations on other keys exactly when no such write finds its leaf.
-/

namespace StellarIbc.Core

variable {sha256 : Bytes → Hash}

/-- The value hash of the membership proof of `key`, if there is one. -/
def Smt.provenValue (sha256 : Bytes → Hash) (smt : Smt) (key : Bytes) : Option Hash :=
  (smt.generateMembershipProof sha256 key).map MembershipProof.valueHash

/-- A leaf at the index of `key` that carries the hash of `key`. -/
def Smt.Stores (sha256 : Bytes → Hash) (smt : Smt) (key : Bytes) : Prop :=
  ∃ valueHash, smt.leaves[keyIndex sha256 key]? = some (sha256 key, valueHash)

/-- The operation leaves the leaf of `key` alone. -/
def Smt.Spares (sha256 : Bytes → Hash) (smt : Smt) (op : Op) (key : Bytes) : Prop :=
  keyIndex sha256 op.key ≠ keyIndex sha256 key ∨ ¬ smt.Stores sha256 key

/-! ### One operation -/

theorem Smt.provenValue_eq (smt : Smt) (key : Bytes) :
    smt.provenValue sha256 key =
      smt.leaves[keyIndex sha256 key]?.bind fun leaf =>
        if leaf.1 = sha256 key then some leaf.2 else none := by
  unfold Smt.provenValue Smt.generateMembershipProof keyIndex
  cases hleaf : smt.leaves[keyIndexFromHash (sha256 key)]? with
  | none => simp [hleaf]
  | some leaf =>
      by_cases h : leaf.1 = sha256 key
      · simp [hleaf, h]
      · simp [hleaf, h]

theorem Smt.provenValue_eq_some {smt : Smt} {key : Bytes} {valueHash : Hash} :
    smt.provenValue sha256 key = some valueHash ↔
      smt.leaves[keyIndex sha256 key]? = some (sha256 key, valueHash) := by
  rw [Smt.provenValue_eq]
  cases smt.leaves[keyIndex sha256 key]? with
  | none => simp
  | some leaf =>
      obtain ⟨keyHash, stored⟩ := leaf
      simp

theorem Smt.provenValue_eq_none {smt : Smt} {key : Bytes} :
    smt.provenValue sha256 key = none ↔ ¬ smt.Stores sha256 key := by
  unfold Smt.Stores
  simp only [← Smt.provenValue_eq_some]
  cases smt.provenValue sha256 key <;> simp

/-- The operation on `key` itself. -/
theorem Smt.provenValue_apply_same (smt : Smt) (op : Op) {key : Bytes}
    (h : sha256 op.key = sha256 key) :
    (smt.apply sha256 op).provenValue sha256 key = op.value.map sha256 := by
  have hindex : keyIndex sha256 op.key = keyIndex sha256 key := by
    unfold keyIndex
    rw [h]
  rw [Smt.provenValue_eq, Smt.leaves_apply, if_pos hindex, h]
  cases op.value <;> simp

theorem Smt.provenValue_apply_of_index_ne {smt : Smt} {op : Op} {key : Bytes}
    (h : keyIndex sha256 op.key ≠ keyIndex sha256 key) :
    (smt.apply sha256 op).provenValue sha256 key = smt.provenValue sha256 key := by
  rw [Smt.provenValue_eq, Smt.provenValue_eq, Smt.leaves_apply, if_neg h]

/-- An operation on another key with the same index leaves nothing of `key`. -/
theorem Smt.provenValue_apply_of_index_eq (smt : Smt) (op : Op) {key : Bytes}
    (hother : sha256 op.key ≠ sha256 key) (h : keyIndex sha256 op.key = keyIndex sha256 key) :
    (smt.apply sha256 op).provenValue sha256 key = none := by
  rw [Smt.provenValue_eq, Smt.leaves_apply, if_pos h]
  cases op.value with
  | none => rfl
  | some value => simp [hother]

theorem Smt.provenValue_apply_iff {smt : Smt} {op : Op} {key : Bytes}
    (hother : sha256 op.key ≠ sha256 key) :
    (smt.apply sha256 op).provenValue sha256 key = smt.provenValue sha256 key ↔
      smt.Spares sha256 op key := by
  unfold Smt.Spares
  by_cases hindex : keyIndex sha256 op.key = keyIndex sha256 key
  · rw [Smt.provenValue_apply_of_index_eq _ _ hother hindex, eq_comm, Smt.provenValue_eq_none]
    simp [hindex]
  · simp [Smt.provenValue_apply_of_index_ne hindex, hindex]

/-! ### Runs -/

/-- The value hash that the last operation on `key` leaves. -/
def lastWritten (sha256 : Bytes → Hash) (key : Bytes) (ops : List Op) : Option Hash :=
  ops.foldl
    (fun written op => if sha256 op.key = sha256 key then op.value.map sha256 else written) none

/-- No operation of the run on another key finds the leaf of `key`. -/
def Undisturbed (sha256 : Bytes → Hash) (key : Bytes) (ops : List Op) : Prop :=
  ∀ before op after, ops = before ++ op :: after → sha256 op.key ≠ sha256 key →
    (Smt.ofOps sha256 before).Spares sha256 op key

theorem Smt.ofOps_append_singleton (ops : List Op) (op : Op) :
    Smt.ofOps sha256 (ops ++ [op]) = (Smt.ofOps sha256 ops).apply sha256 op := by
  simp [Smt.ofOps]

theorem lastWritten_append_singleton (key : Bytes) (ops : List Op) (op : Op) :
    lastWritten sha256 key (ops ++ [op]) =
      if sha256 op.key = sha256 key then op.value.map sha256
      else lastWritten sha256 key ops := by
  simp [lastWritten]

theorem Undisturbed.of_append_singleton {key : Bytes} {ops : List Op} {op : Op}
    (h : Undisturbed sha256 key (ops ++ [op])) : Undisturbed sha256 key ops := by
  intro before earlier after hops
  exact h before earlier (after ++ [op]) (by simp [hops])

/-- In an undisturbed run a key is proved with what was last written under it. -/
theorem Smt.provenValue_ofOps {key : Bytes} {ops : List Op} (h : Undisturbed sha256 key ops) :
    (Smt.ofOps sha256 ops).provenValue sha256 key = lastWritten sha256 key ops := by
  induction ops using List.reverseRecOn with
  | nil => simp [Smt.provenValue_eq, Smt.ofOps, Smt.new, lastWritten]
  | append_singleton ops op ih =>
      rw [Smt.ofOps_append_singleton, lastWritten_append_singleton]
      by_cases hsame : sha256 op.key = sha256 key
      · rw [if_pos hsame, Smt.provenValue_apply_same _ _ hsame]
      · have hspares := h ops op [] rfl hsame
        rw [if_neg hsame, ← ih h.of_append_singleton]
        exact (Smt.provenValue_apply_iff hsame).mpr hspares

/-- **A write of one key and the proof of another.**  In every reachable tree an operation
on another key leaves what is proved of `key` if and only if it does not find the leaf of
`key` at its own index; over a run of such operations `key` is proved with what was last
written under it. -/
theorem provenValue_frame (sha256 : Bytes → Hash) (ops : List Op) (key : Bytes) :
    (∀ op : Op, sha256 op.key ≠ sha256 key →
      (((Smt.ofOps sha256 ops).apply sha256 op).provenValue sha256 key =
          (Smt.ofOps sha256 ops).provenValue sha256 key ↔
        (Smt.ofOps sha256 ops).Spares sha256 op key)) ∧
    (Undisturbed sha256 key ops →
      (Smt.ofOps sha256 ops).provenValue sha256 key = lastWritten sha256 key ops) :=
  ⟨fun _ hother => Smt.provenValue_apply_iff hother, Smt.provenValue_ofOps⟩

/-- A run with one key, and then the removal of another. -/
theorem provenValue_frame_removed :
    ((Smt.ofOps Sha256.sha256 [.insert [97] [1]]).apply Sha256.sha256
        (.remove [98])).provenValue Sha256.sha256 [97] =
      (Smt.ofOps Sha256.sha256 [.insert [97] [1]]).provenValue Sha256.sha256 [97] ∧
    (Smt.ofOps Sha256.sha256 [.insert [97] [1]]).provenValue Sha256.sha256 [97] =
      some (Sha256.sha256 [1]) := by
  have hframe := provenValue_frame Sha256.sha256 [.insert [97] [1]] [97]
  have hindex : keyIndex Sha256.sha256 [98] ≠ keyIndex Sha256.sha256 [97] := by
    decide +kernel
  have hother : Sha256.sha256 [98] ≠ Sha256.sha256 [97] := by
    intro h
    apply hindex
    unfold keyIndex
    rw [h]
  have hundisturbed : Undisturbed Sha256.sha256 [97] [.insert [97] [1]] := by
    intro before op after hops hne
    cases before with
    | nil =>
        cases hops
        exact absurd rfl hne
    | cons => simp at hops
  constructor
  · exact (hframe.1 (.remove [98]) hother).mpr (.inl hindex)
  · exact hframe.2 hundisturbed

/-! ### Two packets with one index -/

/-- Two commitment paths of one client whose hashes begin with the same eight bytes. -/
def erasedPath : Bytes := packetCommitmentPath (ascii "stellar-0") 13083273632006848064

def erasingPath : Bytes := packetCommitmentPath (ascii "stellar-0") 3392475731943778443

theorem provenValue_lost :
    Sha256.sha256 erasingPath ≠ Sha256.sha256 erasedPath ∧
      keyIndex Sha256.sha256 erasingPath = keyIndex Sha256.sha256 erasedPath ∧
      (Smt.ofOps Sha256.sha256 [.insert erasedPath [1]]).provenValue Sha256.sha256 erasedPath =
        some (Sha256.sha256 [1]) ∧
      ((Smt.ofOps Sha256.sha256 [.insert erasedPath [1]]).insert Sha256.sha256 erasingPath
        [2]).provenValue Sha256.sha256 erasedPath = none ∧
      ((Smt.ofOps Sha256.sha256 [.insert erasedPath [1]]).remove Sha256.sha256
        erasingPath).provenValue Sha256.sha256 erasedPath = none := by
  have hother : Sha256.sha256 erasingPath ≠ Sha256.sha256 erasedPath := by decide
  have hindex : keyIndex Sha256.sha256 erasingPath = keyIndex Sha256.sha256 erasedPath := by
    decide
  refine ⟨hother, hindex, ?_, ?_, ?_⟩
  · exact Smt.provenValue_apply_same _ (.insert erasedPath [1]) rfl
  · exact Smt.provenValue_apply_of_index_eq _ (.insert erasingPath [2]) hother hindex
  · exact Smt.provenValue_apply_of_index_eq _ (.remove erasingPath) hother hindex

end StellarIbc.Core
