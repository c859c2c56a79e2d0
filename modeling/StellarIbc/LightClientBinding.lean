import StellarIbc.ServedProofs

/-!
# Position binding of the light client's verifier

A root fixes what can be verified at a key's index: one value hash or absence, and
against the root of a tree that tree's own leaf.  The exceptions are named: among the
strings that the verifications hash, and those on the tree's own path where a tree is
involved, two distinct ones have equal hashes or one hashes to the empty node.
-/

namespace StellarIbc.LightClient

variable {sha256 : Bytes → Hash}

/-! ### The strings that are hashed -/

/-- The string that is hashed for an inner node. -/
def innerPreimage (pair : Hash × Hash) : Bytes := 0x01 :: pair.1.val ++ pair.2.val

def leafPreimage (keyHash valueHash : Hash) : Bytes := 0x00 :: keyHash.val ++ valueHash.val

/-- The strings that `foldSiblings` hashes. -/
def foldStrings (sha256 : Bytes → Hash) (subIdx : UInt64) (current : Hash) :
    List Hash → List Bytes
  | [] => []
  | sibling :: siblings =>
      let pair := if subIdx &&& 1 = 0 then (current, sibling) else (sibling, current)
      (if pair.1 = EMPTY ∧ pair.2 = EMPTY then [] else [innerPreimage pair]) ++
        foldStrings sha256 (subIdx >>> 1) (innerHash sha256 pair.1 pair.2) siblings

/-- The strings that an accepted `VerifyMembership` hashes. -/
def membershipStrings (sha256 : Bytes → Hash) (key value : Bytes) (siblings : List Hash) :
    List Bytes :=
  key :: value :: leafPreimage (sha256 key) (sha256 value) ::
    foldStrings sha256 (keyIndex sha256 key)
      (leafHash sha256 (sha256 key) (sha256 value)) siblings

/-- The strings that an accepted `VerifyNonMembership` hashes. -/
def nonMembershipStrings (sha256 : Bytes → Hash) (key : Bytes) (siblings : List Hash) :
    List Bytes :=
  key :: foldStrings sha256 (keyIndex sha256 key) EMPTY siblings

/-- Two distinct strings collide, or one hashes to the empty node. -/
def HashBroken (sha256 : Bytes → Hash) (strings : List Bytes) : Prop :=
  Collision sha256 { s | s ∈ strings } ∨ ∃ s ∈ strings, sha256 s = EMPTY

theorem innerPreimage_injective {left right : Hash × Hash}
    (h : innerPreimage left = innerPreimage right) : left = right := by
  unfold innerPreimage at h
  have hwidth : left.1.val.length = right.1.val.length := by
    rw [left.1.property, right.1.property]
  obtain ⟨hfirst, hsecond⟩ := List.append_inj (List.cons.inj h).2 hwidth
  exact Prod.ext (BytesN.ext hfirst) (BytesN.ext hsecond)

theorem leafPreimage_injective {keyHash keyHash' valueHash valueHash' : Hash}
    (h : leafPreimage keyHash valueHash = leafPreimage keyHash' valueHash') :
    keyHash = keyHash' ∧ valueHash = valueHash' := by
  unfold leafPreimage at h
  have hwidth : keyHash.val.length = keyHash'.val.length := by
    rw [keyHash.property, keyHash'.property]
  obtain ⟨hfirst, hsecond⟩ := List.append_inj (List.cons.inj h).2 hwidth
  exact ⟨BytesN.ext hfirst, BytesN.ext hsecond⟩

theorem HashBroken.mono {small large : List Bytes} (hsubset : small ⊆ large)
    (h : HashBroken sha256 small) : HashBroken sha256 large := by
  rcases h with hcollision | ⟨s, hs, hempty⟩
  · exact .inl (hcollision.mono fun s hs => hsubset hs)
  · exact .inr ⟨s, hsubset hs, hempty⟩

theorem foldStrings_eq (idx : UInt64) (leaf : Hash) (siblings : List Hash) :
    foldStrings sha256 idx leaf siblings =
      (SparseMerkle.hashedPairs EMPTY (hashPair sha256) idx.toNat leaf siblings).map
        innerPreimage := by
  induction siblings generalizing idx leaf with
  | nil => rfl
  | cons sibling siblings ih =>
      have hinner : innerHash sha256 = SparseMerkle.inner EMPTY (hashPair sha256) := rfl
      rw [foldStrings, SparseMerkle.hashedPairs, SparseMerkle.children, SparseMerkle.parent]
      by_cases heven : idx.toNat % 2 = 0
      · simp only [and_one_eq_zero_iff, heven, if_true, ih, toNat_shiftRight_one, hinner,
          List.map_append]
        split <;> rfl
      · simp only [and_one_eq_zero_iff, heven, if_false, ih, toNat_shiftRight_one, hinner,
          List.map_append, and_comm]
        split <;> rfl

/-- The hash misbehaves on pairs only where it does on the strings they stand for. -/
theorem hashBroken_of_pairs {pairs : Set (Hash × Hash)} {strings : List Bytes}
    (hpairs : ∀ pair ∈ pairs, innerPreimage pair ∈ strings)
    (h : SparseMerkle.Broken EMPTY (hashPair sha256) pairs) : HashBroken sha256 strings := by
  rcases h with ⟨p, hp, q, hq, hne, heq⟩ | ⟨p, hp, hempty⟩
  · exact .inl ⟨innerPreimage p, hpairs p hp, innerPreimage q, hpairs q hq,
      fun hsame => hne (innerPreimage_injective hsame), heq⟩
  · exact .inr ⟨innerPreimage p, hpairs p hp, hempty⟩

/-- Two folds of a full path along one index that end alike started alike. -/
theorem foldSiblings_binding {idx : UInt64} {left right : Hash} {xs ys : List Hash}
    (hlength : xs.length = ys.length)
    (h : foldSiblings sha256 idx left xs = foldSiblings sha256 idx right ys) :
    left = right ∨ HashBroken sha256
      (foldStrings sha256 idx left xs ++ foldStrings sha256 idx right ys) := by
  rw [foldSiblings_eq, foldSiblings_eq] at h
  rcases SparseMerkle.fold_binding hlength h with heq | hbroken
  · exact .inl heq
  · refine .inr (hashBroken_of_pairs ?_ hbroken)
    intro pair hpair
    rw [foldStrings_eq, foldStrings_eq, ← List.map_append]
    exact List.mem_map_of_mem (List.mem_append.mpr hpair)

/-! ### Accepted verifications -/

/-- A contract that has `root` at the height of its message accepts `value` for `key`, and
hashes `strings` for it. -/
def ProvesMembership (sha256 : Bytes → Hash) (root : Hash) (key value : Bytes)
    (strings : List Bytes) : Prop :=
  ∃ (deps : Deps) (msg : VerifyMembershipMsg) (proofKey proofValue : Bytes)
    (siblings : List Hash),
    deps.api.sha256 = sha256 ∧ requireRoot deps msg.height.revisionHeight = .ok root ∧
      concatPath msg.merklePath = key ∧ msg.value = value ∧
      decodeMembershipProof msg.proof = .ok (proofKey, proofValue, siblings) ∧
      strings = membershipStrings sha256 key value siblings ∧
      runSudo deps (.verifyMembership msg) = .ok (.empty, deps.storage)

/-- Likewise for the absence of `key`. -/
def ProvesNonMembership (sha256 : Bytes → Hash) (root : Hash) (key : Bytes)
    (strings : List Bytes) : Prop :=
  ∃ (deps : Deps) (msg : VerifyNonMembershipMsg) (proofKey : Bytes) (siblings : List Hash),
    deps.api.sha256 = sha256 ∧ requireRoot deps msg.height.revisionHeight = .ok root ∧
      concatPath msg.merklePath = key ∧
      decodeNonMembershipProof msg.proof = .ok (proofKey, siblings) ∧
      strings = nonMembershipStrings sha256 key siblings ∧
      runSudo deps (.verifyNonMembership msg) = .ok (.empty, deps.storage)

variable {root : Hash} {key value : Bytes} {strings : List Bytes}

theorem ProvesMembership.fold (h : ProvesMembership sha256 root key value strings) :
    ∃ siblings, strings = membershipStrings sha256 key value siblings ∧
      siblings.length = TREE_DEPTH ∧
      foldSiblings sha256 (keyIndex sha256 key) (leafHash sha256 (sha256 key) (sha256 value))
        siblings = root := by
  obtain ⟨deps, msg, proofKey, proofValue, siblings, rfl, hroot, rfl, rfl, hdecode, rfl, hsudo⟩ := h
  simp only [runSudo, bind_ok_iff] at hsudo
  obtain ⟨_, hok, -⟩ := hsudo
  obtain ⟨siblings', hdecode', hlength, -, hroot'⟩ := verifyMembership_eq_ok.mp hok
  rw [hdecode, Except.ok.injEq, Prod.mk.injEq, Prod.mk.injEq] at hdecode'
  rw [hroot, Except.ok.injEq] at hroot'
  obtain ⟨-, -, rfl⟩ := hdecode'
  exact ⟨siblings, rfl, hlength, hroot'.symm⟩

theorem ProvesNonMembership.fold (h : ProvesNonMembership sha256 root key strings) :
    ∃ siblings, strings = nonMembershipStrings sha256 key siblings ∧
      siblings.length = TREE_DEPTH ∧
      foldSiblings sha256 (keyIndex sha256 key) EMPTY siblings = root := by
  obtain ⟨deps, msg, proofKey, siblings, rfl, hroot, rfl, hdecode, rfl, hsudo⟩ := h
  simp only [runSudo, bind_ok_iff] at hsudo
  obtain ⟨_, hok, -⟩ := hsudo
  obtain ⟨siblings', hdecode', hlength, hroot'⟩ := verifyNonMembership_eq_ok.mp hok
  rw [hdecode, Except.ok.injEq, Prod.mk.injEq] at hdecode'
  rw [hroot, Except.ok.injEq] at hroot'
  obtain ⟨-, rfl⟩ := hdecode'
  exact ⟨siblings, rfl, hlength, hroot'.symm⟩

/-- Equal leaf hashes have equal parts, or their strings collide. -/
theorem leafHash_binding {keyHash keyHash' valueHash valueHash' : Hash}
    (h : leafHash sha256 keyHash valueHash = leafHash sha256 keyHash' valueHash') :
    (keyHash = keyHash' ∧ valueHash = valueHash') ∨
      HashBroken sha256 [leafPreimage keyHash valueHash, leafPreimage keyHash' valueHash'] := by
  by_cases hsame : leafPreimage keyHash valueHash = leafPreimage keyHash' valueHash'
  · exact .inl (leafPreimage_injective hsame)
  · exact .inr (.inl ⟨_, by simp, _, by simp, hsame, h⟩)

/-- One root does not prove two values. -/
theorem value_binding {value' : Bytes} {strings' : List Bytes}
    (h : ProvesMembership sha256 root key value strings)
    (h' : ProvesMembership sha256 root key value' strings') :
    sha256 value = sha256 value' ∨ HashBroken sha256 (strings ++ strings') := by
  obtain ⟨siblings, rfl, hlength, hfold⟩ := h.fold
  obtain ⟨siblings', rfl, hlength', hfold'⟩ := h'.fold
  rcases foldSiblings_binding (hlength.trans hlength'.symm) (hfold.trans hfold'.symm) with
    hleaf | hbroken
  · rcases leafHash_binding hleaf with ⟨-, hvalue⟩ | hbroken
    · exact .inl hvalue
    · refine .inr (hbroken.mono ?_)
      intro s hs
      simp only [List.mem_cons, List.not_mem_nil, or_false] at hs
      rcases hs with rfl | rfl
      · simp [membershipStrings]
      · simp [membershipStrings]
  · refine .inr (hbroken.mono ?_)
    intro s hs
    rcases List.mem_append.mp hs with hs | hs
    · simp [membershipStrings, hs]
    · simp [membershipStrings, hs]

/-- One root does not prove a value and its absence. -/
theorem absence_binding {strings' : List Bytes}
    (h : ProvesMembership sha256 root key value strings)
    (h' : ProvesNonMembership sha256 root key strings') :
    HashBroken sha256 (strings ++ strings') := by
  obtain ⟨siblings, rfl, hlength, hfold⟩ := h.fold
  obtain ⟨siblings', rfl, hlength', hfold'⟩ := h'.fold
  rcases foldSiblings_binding (hlength.trans hlength'.symm) (hfold.trans hfold'.symm) with
    hleaf | hbroken
  · refine .inr ⟨leafPreimage (sha256 key) (sha256 value), ?_, hleaf⟩
    simp [membershipStrings]
  · apply hbroken.mono
    intro s hs
    rcases List.mem_append.mp hs with hs | hs
    · simp [membershipStrings, hs]
    · simp [nonMembershipStrings, hs]

/-! ### Against a tree -/

/-- The strings that the tree hashes on the path of `key`. -/
def treeStrings (sha256 : Bytes → Hash) (smt : Core.Smt) (key : Bytes) : List Bytes :=
  let idx := keyIndex sha256 key
  (match smt.leaves[idx]? with
    | some (keyHash, valueHash) => [leafPreimage keyHash valueHash]
    | none => []) ++
    foldStrings sha256 idx (smt.leafAt sha256 idx.toNat) (smt.siblingsFor sha256 idx)

/-- A path that ends in the tree's root starts in the tree's leaf. -/
theorem tree_binding {smt : Core.Smt} {leaf : Hash} {siblings : List Hash}
    (hlength : siblings.length = TREE_DEPTH)
    (hfold : foldSiblings sha256 (keyIndex sha256 key) leaf siblings = smt.root sha256) :
    leaf = smt.leafAt sha256 (keyIndex sha256 key).toNat ∨
      HashBroken sha256 (foldStrings sha256 (keyIndex sha256 key) leaf siblings ++
        treeStrings sha256 smt key) := by
  have hown : foldSiblings sha256 (keyIndex sha256 key)
      (smt.leafAt sha256 (keyIndex sha256 key).toNat)
      (smt.siblingsFor sha256 (keyIndex sha256 key)) = smt.root sha256 :=
    (ServedProofs.foldSiblings_eq_core _ _ _).trans (smt.foldSiblings_siblingsFor _)
  rcases foldSiblings_binding (hlength.trans (smt.length_siblingsFor _).symm)
    (hfold.trans hown.symm) with hleaf | hbroken
  · exact .inl hleaf
  · refine .inr (hbroken.mono ?_)
    intro s hs
    rcases List.mem_append.mp hs with hs | hs
    · exact List.mem_append_left _ hs
    · exact List.mem_append_right _ (List.mem_append_right _ hs)

/-- Against a tree's root only the tree's own leaf can be proved. -/
theorem tree_membership {smt : Core.Smt}
    (h : ProvesMembership sha256 (smt.root sha256) key value strings) :
    smt.leaves[keyIndex sha256 key]? = some (sha256 key, sha256 value) ∨
      HashBroken sha256 (strings ++ treeStrings sha256 smt key) := by
  obtain ⟨siblings, rfl, hlength, hfold⟩ := h.fold
  rcases tree_binding hlength hfold with hleaf | hbroken
  · cases hstored : smt.leaves[keyIndex sha256 key]? with
    | none =>
        rw [Core.Smt.leafAt_of_none hstored] at hleaf
        refine .inr (.inr ⟨leafPreimage (sha256 key) (sha256 value), ?_, hleaf⟩)
        simp [membershipStrings]
    | some stored =>
        obtain ⟨keyHash, valueHash⟩ := stored
        rw [Core.Smt.leafAt_of_some hstored] at hleaf
        rcases leafHash_binding hleaf with ⟨hkey, hvalue⟩ | hbroken
        · rw [hkey, hvalue]
          exact .inl rfl
        · refine .inr (hbroken.mono ?_)
          intro s hs
          simp only [List.mem_cons, List.not_mem_nil, or_false] at hs
          rcases hs with rfl | rfl
          · simp [membershipStrings]
          · simp [treeStrings, hstored]
  · refine .inr (hbroken.mono ?_)
    intro s hs
    rcases List.mem_append.mp hs with hs | hs
    · simp [membershipStrings, hs]
    · exact List.mem_append_right _ hs

/-- And absence only where the tree has no leaf. -/
theorem tree_nonMembership {smt : Core.Smt}
    (h : ProvesNonMembership sha256 (smt.root sha256) key strings) :
    smt.leaves[keyIndex sha256 key]? = none ∨
      HashBroken sha256 (strings ++ treeStrings sha256 smt key) := by
  obtain ⟨siblings, rfl, hlength, hfold⟩ := h.fold
  rcases tree_binding hlength hfold with hleaf | hbroken
  · cases hstored : smt.leaves[keyIndex sha256 key]? with
    | none => exact .inl rfl
    | some stored =>
        obtain ⟨keyHash, valueHash⟩ := stored
        rw [Core.Smt.leafAt_of_some hstored] at hleaf
        refine .inr (.inr ⟨leafPreimage keyHash valueHash, ?_, hleaf.symm⟩)
        simp [treeStrings, hstored]
  · refine .inr (hbroken.mono ?_)
    intro s hs
    rcases List.mem_append.mp hs with hs | hs
    · simp [nonMembershipStrings, hs]
    · exact List.mem_append_right _ hs

/-- A served membership proof is one that the binding is about. -/
theorem provesMembership_of_leaf (smt : Core.Smt) (deps : Deps) (height : Height)
    (htrusts : ServedProofs.Trusts deps height.revisionHeight (smt.root deps.api.sha256))
    (hleaf : smt.leaves[keyIndex deps.api.sha256 key]? =
      some (deps.api.sha256 key, deps.api.sha256 value))
    (hvalue : value ≠ []) (hkey : key.length < 2 ^ 63) :
    ∃ strings, ProvesMembership deps.api.sha256 (smt.root deps.api.sha256) key value strings := by
  obtain ⟨proof, hproof⟩ : ∃ proof, smt.generateMembershipProof deps.api.sha256 key = some proof :=
    ⟨_, Core.Smt.generateMembershipProof_of_some hleaf⟩
  have hpath : [key].flatten = key := List.flatten_singleton
  have hsize := ServedProofs.length_serializeMembership_lt
    (Core.keyIndex deps.api.sha256 key) hkey proof.valueHash.property
    (ServedProofs.length_siblings_of_generate hproof)
  have hverify := ServedProofs.verifyMembership_of_leaf htrusts hleaf hproof hvalue hkey hpath
  have hdecode := ServedProofs.decodeMembershipProof_serialize hsize
  refine ⟨_, deps, ⟨height, Core.serializeMembershipProofWithIndex proof key
    proof.valueHash.val (Core.keyIndex deps.api.sha256 key), [key], value⟩, _, _, _, rfl,
    htrusts.requireRoot, hpath, rfl, hdecode, rfl, ?_⟩
  simp only [runSudo, hverify]
  rfl

/-- **Position binding.**  For every root and key, whatever the proof bytes: two accepted
values have one hash; a value and its absence are not both accepted; and against the root
of a tree reached by any operations only the tree's own leaf, or its absence, is accepted.
The exceptions are a collision among the strings hashed, and one of them hashing to the
empty node. -/
theorem position_binding (sha256 : Bytes → Hash) (root : Hash) (key : Bytes) :
    (∀ value value' strings strings', ProvesMembership sha256 root key value strings →
      ProvesMembership sha256 root key value' strings' →
      sha256 value = sha256 value' ∨ HashBroken sha256 (strings ++ strings')) ∧
    (∀ value strings strings', ProvesMembership sha256 root key value strings →
      ProvesNonMembership sha256 root key strings' →
      HashBroken sha256 (strings ++ strings')) ∧
    ∀ ops, (Core.Smt.ofOps sha256 ops).root sha256 = root →
      (∀ value strings, ProvesMembership sha256 root key value strings →
        (Core.Smt.ofOps sha256 ops).leaves[keyIndex sha256 key]? =
            some (sha256 key, sha256 value) ∨
          HashBroken sha256 (strings ++ treeStrings sha256 (.ofOps sha256 ops) key)) ∧
      ∀ strings, ProvesNonMembership sha256 root key strings →
        (Core.Smt.ofOps sha256 ops).leaves[keyIndex sha256 key]? = none ∨
          HashBroken sha256 (strings ++ treeStrings sha256 (.ofOps sha256 ops) key) := by
  refine ⟨fun _ _ _ _ h h' => value_binding h h', fun _ _ _ h h' => absence_binding h h', ?_⟩
  rintro ops rfl
  exact ⟨fun _ _ h => tree_membership h, fun _ h => tree_nonMembership h⟩

/-- The updated key of the sample tree. -/
theorem position_binding_sample :
    ∃ strings,
      ProvesMembership Sha256.sha256 (ServedProofs.sampleTree.root Sha256.sha256) [97] [3]
        strings ∧
      (ServedProofs.sampleTree.leaves[keyIndex Sha256.sha256 [97]]? =
          some (Sha256.sha256 [97], Sha256.sha256 [3]) ∨
        HashBroken Sha256.sha256
          (strings ++ treeStrings Sha256.sha256 ServedProofs.sampleTree [97])) := by
  have hleaf : ServedProofs.sampleTree.leaves[keyIndex Sha256.sha256 [97]]? =
      some (Sha256.sha256 [97], Sha256.sha256 [3]) :=
    Core.Smt.holds_ofOps ServedProofs.sampleOps_indices (fun op hop => ⟨op, hop, rfl⟩) [97]
      ⟨.insert [97] [1], by decide, rfl⟩
  have htrusts := ServedProofs.sampleDeps_trusts
    (ServedProofs.sampleTree.root Sha256.sha256)
  obtain ⟨strings, hproves⟩ :=
    provesMembership_of_leaf _ (ServedProofs.sampleDeps _) ⟨0, 7⟩ htrusts hleaf (by decide)
      (by decide)
  have hbinding := position_binding Sha256.sha256
    (ServedProofs.sampleTree.root Sha256.sha256) [97]
  exact ⟨strings, hproves,
    (hbinding.2.2 ServedProofs.sampleOps rfl).1 [3] strings hproves⟩

end StellarIbc.LightClient
