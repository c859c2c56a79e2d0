import StellarIbc.FrozenClients

/-!
# The quorum of the attestation light client

`verify_quorum` is meant as m-of-n: enough distinct attestors of the client signed the
attestation.  It marks the signers it has seen in a table of 64 flags, and an index behind
the table counts as a duplicate, whatever the number of attestors.  So the check is exact
for committees of up to 64 attestors and rejects every quorum that names a later one.
-/

namespace StellarIbc.Attestation

open Contract SorobanClient

variable {host : Host} {pre : Storage}

/-- The number of flags in the table of `verify_quorum`. -/
def SEEN_SLOTS : Nat := 64

/-- Every signer has a flag in the table. -/
def AttestationProof.FitsTable (proof : AttestationProof) : Prop :=
  ∀ idx ∈ proof.signerIndices, idx.toNat < SEEN_SLOTS

instance (proof : AttestationProof) : Decidable proof.FitsTable :=
  inferInstanceAs (Decidable (∀ _ ∈ _, _))

/-- The signer at `idx` and its signature at position `i`. -/
def Signed (host : Host) (cs : AttestorClientState) (proof : AttestationProof)
    (idx : UInt32) (i : Nat) : Prop :=
  ∃ pubkey signature, cs.attestorKeys[idx.toNat]? = some pubkey ∧
    proof.signatures[i]? = some signature ∧
    host.ed25519Verify pubkey proof.attestationData signature = true

/-- The loop returns on signers that are distinct, signed and not marked yet. -/
theorem verifySigners_returns {cs : AttestorClientState} {proof : AttestationProof}
    {items : List (UInt32 × Nat)} {seen : List Bool}
    (hdistinct : (items.map Prod.fst).Nodup)
    (hfresh : ∀ idx ∈ items.map Prod.fst, seen[idx.toNat]? = some false)
    (hsigned : ∀ idx i, (idx, i) ∈ items → Signed host cs proof idx i) :
    Returns (verifySigners host cs proof items seen) pre () pre := by
  induction items generalizing seen with
  | nil => simp [verifySigners]
  | cons item items ih =>
      obtain ⟨idx, i⟩ := item
      rw [List.map_cons, List.nodup_cons] at hdistinct
      rw [List.map_cons, List.forall_mem_cons] at hfresh
      obtain ⟨pubkey, signature, hkey, hsignature, hverified⟩ :=
        hsigned idx i List.mem_cons_self
      have hknown : ¬ cs.attestorKeys.length ≤ idx.toNat :=
        Nat.not_le.mpr (List.getElem?_eq_some_iff.mp hkey).1
      have hslot : ¬ (seen.length ≤ idx.toNat ∨ seen[idx.toNat]? = some true) := by
        have hfits := (List.getElem?_eq_some_iff.mp hfresh.1).1
        rw [hfresh.1]
        simp [hfits]
      -- marking this signer leaves the flags of the other ones
      have hrest : ∀ later ∈ items.map Prod.fst,
          (seen.set idx.toNat true)[later.toNat]? = some false := by
        intro later hlater
        have hne : idx.toNat ≠ later.toNat := by
          intro heq
          obtain rfl := UInt32.toNat_inj.mp heq
          exact hdistinct.1 hlater
        rw [List.getElem?_set_ne hne]
        exact hfresh.2 later hlater
      have hloop := ih hdistinct.2 hrest fun idx' i' hmem =>
        hsigned idx' i' (List.mem_cons_of_mem _ hmem)
      simp only [verifySigners, returns_bind, returns_panicIf, returns_orTrap,
        returns_trapUnless]
      exact ⟨(), pre, ⟨hknown, rfl⟩, (), pre, ⟨hslot, rfl⟩, pubkey, pre, ⟨hkey, rfl⟩,
        signature, pre, ⟨hsignature, rfl⟩, (), pre, ⟨hverified, rfl⟩, hloop⟩

/-- What the loop returns on had a free flag. -/
theorem fitsTable_of_returns {cs : AttestorClientState} {proof : AttestationProof}
    {post : Storage} {result : Unit} (h : Returns (verifyQuorum host cs proof) pre result post) :
    proof.FitsTable := by
  simp only [verifyQuorum, returns_bind, returns_panicIf] at h
  obtain ⟨_, _, -, _, _, -, hloop⟩ := h
  obtain ⟨-, -, hfresh, -⟩ := returns_verifySigners hloop
  rw [List.zipIdx_map_fst] at hfresh
  intro idx hidx
  have hslot := (List.getElem?_eq_some_iff.mp (hfresh idx hidx)).1
  rwa [List.length_replicate] at hslot

/-- What `verify_quorum` checks. -/
theorem returns_verifyQuorum_iff {cs : AttestorClientState} {proof : AttestationProof} :
    Returns (verifyQuorum host cs proof) pre () pre ↔
      QuorumSigned host cs proof ∧ proof.FitsTable := by
  constructor
  · intro h
    exact ⟨(returns_verifyQuorum h).1, fitsTable_of_returns h⟩
  · rintro ⟨hquorum, hfits⟩
    have hfresh : ∀ idx ∈ proof.signerIndices.zipIdx.map Prod.fst,
        (List.replicate 64 false)[idx.toNat]? = some false := by
      rw [List.zipIdx_map_fst]
      intro idx hidx
      have hslot : idx.toNat < 64 := hfits idx hidx
      rw [List.getElem?_replicate, if_pos hslot]
    have hdistinct := hquorum.distinct
    rw [← List.zipIdx_map_fst 0 proof.signerIndices] at hdistinct
    have hloop : Returns (verifySigners host cs proof proof.signerIndices.zipIdx
        (List.replicate 64 false)) pre () pre :=
      verifySigners_returns hdistinct hfresh hquorum.signed
    simp only [verifyQuorum, returns_bind, returns_panicIf, ne_eq, not_not, Nat.not_lt]
    exact ⟨(), pre, ⟨hquorum.lengths, rfl⟩, (), pre, ⟨hquorum.enough, rfl⟩, hloop⟩

/-- **The quorum is m-of-n** for exactly the proofs whose signers all have a flag in the
table, apart from those that no quorum signed. -/
theorem quorum_exact_iff (host : Host) (cs : AttestorClientState) (proof : AttestationProof)
    (pre : Storage) :
    (Returns (verifyQuorum host cs proof) pre () pre ↔ QuorumSigned host cs proof) ↔
      (proof.FitsTable ∨ ¬ QuorumSigned host cs proof) := by
  rw [returns_verifyQuorum_iff]
  by_cases hquorum : QuorumSigned host cs proof
  · simp [hquorum]
  · simp [hquorum]

/-! ### A committee of 65 -/

/-- 64 other keys and, at index 64, the attestor of `FrozenClients`. -/
def largeCommittee : AttestorClientState where
  attestorKeys := (List.range 64).map (fun i => ⟨List.replicate 32 (UInt8.ofNat i), by simp⟩) ++
    [FrozenClients.attestorKey]
  minRequiredSigs := 1
  latestHeight := 5
  frozen := false

/-- The attestor's signature under its own index. -/
def lastSignerProof : AttestationProof :=
  ⟨FrozenClients.conflictingTime.toScVal.toXdr, [FrozenClients.timeSignature], [64]⟩

theorem quorum_rejected :
    QuorumSigned FrozenClients.sampleHost largeCommittee lastSignerProof ∧
      ¬ Returns (verifyQuorum FrozenClients.sampleHost largeCommittee lastSignerProof)
        .empty () .empty := by
  constructor
  · refine ⟨rfl, Nat.le_refl _, by decide, ?_⟩
    intro idx i hmem
    obtain ⟨rfl, rfl⟩ : idx = 64 ∧ i = 0 := by simpa [lastSignerProof] using hmem
    exact ⟨FrozenClients.attestorKey, FrozenClients.timeSignature, by decide, rfl, by decide⟩
  · rw [returns_verifyQuorum_iff]
    rintro ⟨-, hfits⟩
    have hslot : (64 : UInt32).toNat < SEEN_SLOTS := hfits 64 (by decide)
    exact absurd hslot (by decide)

end StellarIbc.Attestation
