import StellarIbc.CoreProof
import StellarIbc.LightClient
import StellarIbc.Sha256

/-!
# The gateway's proofs at the light client

The gateway writes its proofs with the messages of the `ics23` crate, the light client
reads them with messages of its own.  Field by field the two agree on existence proofs,
so a membership proof that the gateway serves for a current value is accepted.  They
disagree on where a non-existence proof stands, so none of those is.
-/

namespace StellarIbc.ServedProofs

open Protobuf

variable {sha256 : Bytes → Hash}

/-! ### What the light client reads -/

/-- An inner operation as the light client's message. -/
def readInnerOp (op : Core.InnerOp) : LightClient.InnerOp :=
  ⟨op.hash, op.prefixBytes, op.suffix⟩

def readLeafOp (op : Core.LeafOp) : LightClient.LeafOp :=
  ⟨op.hash, op.prehashKey, op.prehashValue, op.length, op.prefixBytes⟩

def readExistence (proof : Core.ExistenceProof) : LightClient.ExistenceProof :=
  ⟨proof.key, proof.value, proof.leaf.map readLeafOp, proof.path.map readInnerOp⟩

theorem plain_innerOp (op : Core.InnerOp) : ∀ record ∈ op.records, record.Plain := by
  intro record hrecord
  simp only [Core.InnerOp.records, List.mem_append] at hrecord
  rcases hrecord with hrecord | hrecord | hrecord
  · exact plain_int32Record (by norm_num) _ record hrecord
  · exact plain_bytesRecord (by norm_num) _ record hrecord
  · exact plain_bytesRecord (by norm_num) _ record hrecord

theorem plain_leafOp (op : Core.LeafOp) : ∀ record ∈ op.records, record.Plain := by
  intro record hrecord
  simp only [Core.LeafOp.records, List.mem_append] at hrecord
  rcases hrecord with hrecord | hrecord | hrecord | hrecord | hrecord
  · exact plain_int32Record (by norm_num) _ record hrecord
  · exact plain_int32Record (by norm_num) _ record hrecord
  · exact plain_int32Record (by norm_num) _ record hrecord
  · exact plain_int32Record (by norm_num) _ record hrecord
  · exact plain_bytesRecord (by norm_num) _ record hrecord

theorem plain_existence (proof : Core.ExistenceProof) :
    ∀ record ∈ proof.records, record.Plain := by
  intro record hrecord
  simp only [Core.ExistenceProof.records, List.mem_append] at hrecord
  rcases hrecord with hrecord | hrecord | hrecord | hrecord
  · exact plain_bytesRecord (by norm_num) _ record hrecord
  · exact plain_bytesRecord (by norm_num) _ record hrecord
  · exact plain_optionalRecord (by norm_num) _ record hrecord
  · obtain ⟨op, -, rfl⟩ := List.mem_map.mp hrecord
    exact plain_messageRecord (by norm_num) _

theorem foldlM_innerOp (op : Core.InnerOp) (depth : Nat) :
    op.records.foldlM (LightClient.InnerOp.merge depth) default = some (readInnerOp op) := by
  unfold Core.InnerOp.records
  refine foldlM_append_of_eq
    (foldlM_int32Record (fun n => ⟨n, [], []⟩) (fun _ => rfl) rfl rfl) ?_
  refine foldlM_append_of_eq
    (foldlM_bytesRecord (fun b => ⟨op.hash, b, []⟩) (fun _ => rfl) rfl rfl) ?_
  exact foldlM_bytesRecord (fun b => ⟨op.hash, op.prefixBytes, b⟩) (fun _ => rfl) rfl rfl

theorem foldlM_leafOp (op : Core.LeafOp) (depth : Nat) :
    op.records.foldlM (LightClient.LeafOp.merge depth) default = some (readLeafOp op) := by
  obtain ⟨hash, prehashKey, prehashValue, length, bytes⟩ := op
  unfold Core.LeafOp.records
  refine foldlM_append_of_eq
    (foldlM_int32Record (fun n => ⟨n, 0, 0, 0, []⟩) (fun _ => rfl) rfl rfl) ?_
  refine foldlM_append_of_eq
    (foldlM_int32Record (fun n => ⟨hash, n, 0, 0, []⟩) (fun _ => rfl) rfl rfl) ?_
  refine foldlM_append_of_eq
    (foldlM_int32Record (fun n => ⟨hash, prehashKey, n, 0, []⟩) (fun _ => rfl) rfl rfl) ?_
  refine foldlM_append_of_eq
    (foldlM_int32Record (fun n => ⟨hash, prehashKey, prehashValue, n, []⟩) (fun _ => rfl) rfl
      rfl) ?_
  exact foldlM_bytesRecord (fun b => ⟨hash, prehashKey, prehashValue, length, b⟩)
    (fun _ => rfl) rfl rfl

/-- What is embedded in a message of bounded size has bounded size. -/
theorem length_encodeRecords_lt_of_mem {tag : Nat} {values inner : List Record}
    (hmem : messageRecord tag inner ∈ values) (hsize : (encodeRecords values).length < 2 ^ 64) :
    (encodeRecords inner).length < 2 ^ 64 :=
  Nat.lt_of_le_of_lt (payload_le_length hmem) hsize

theorem foldlM_existence {proof : Core.ExistenceProof}
    (hsize : (encodeRecords proof.records).length < 2 ^ 64) (depth : Nat) :
    proof.records.foldlM (LightClient.ExistenceProof.merge (depth + 1)) default =
      some (readExistence proof) := by
  obtain ⟨key, value, leaf, path⟩ := proof
  have hmem : ∀ record, record ∈ optionalRecord 3 (leaf.map Core.LeafOp.records) ∨
      record ∈ path.map (fun op => messageRecord 4 op.records) →
      record ∈ (Core.ExistenceProof.mk key value leaf path).records := by
    intro record hrecord
    simp only [Core.ExistenceProof.records, List.mem_append]
    exact .inr (.inr hrecord)
  unfold Core.ExistenceProof.records
  refine foldlM_append_of_eq
    (foldlM_bytesRecord (fun b => ⟨b, [], none, []⟩) (fun _ => rfl) rfl rfl) ?_
  refine foldlM_append_of_eq
    (foldlM_bytesRecord (fun b => ⟨key, b, none, []⟩) (fun _ => rfl) rfl rfl) ?_
  refine foldlM_append_of_eq (foldlM_optionalRecord
    (fun l => ⟨key, value, l.map readLeafOp, []⟩) (fun op hop => ?_) rfl rfl) ?_
  · have hwritten : messageRecord 3 op.records ∈
        optionalRecord 3 (leaf.map Core.LeafOp.records) := by
      have hleaf : leaf = some op := hop
      simp [optionalRecord, hleaf]
    have hleaf := length_encodeRecords_lt_of_mem (hmem _ (.inl hwritten)) hsize
    simp [LightClient.ExistenceProof.merge, messageRecord_tag,
      message_messageRecord (plain_leafOp op) hleaf, foldlM_leafOp]
  refine foldlM_repeatedRecords
    (fun ops => ⟨key, value, leaf.map readLeafOp, ops⟩) readInnerOp (fun earlier op hop => ?_) rfl
    rfl
  have hinner := length_encodeRecords_lt_of_mem
    (hmem _ (.inr (List.mem_map_of_mem hop))) hsize
  simp [LightClient.ExistenceProof.merge, messageRecord_tag,
    message_messageRecord (plain_innerOp op) hinner, foldlM_innerOp]

/-- A single commitment proof reads as its records. -/
theorem decode_merkle {values : List Record} (hplain : ∀ record ∈ values, record.Plain)
    (hsize : (encodeRecords [messageRecord 1 values]).length < 2 ^ 64) :
    decode LightClient.MerkleProof.merge (encodeRecords [messageRecord 1 values]) =
      (values.foldlM (LightClient.CommitmentProof.merge 99) default).map
        fun commitment => ⟨[commitment]⟩ := by
  have hmessage : ∀ record ∈ [messageRecord 1 values], record.Plain := by
    intro record hrecord
    obtain rfl := List.mem_singleton.mp hrecord
    exact plain_messageRecord (by norm_num) values
  have hvalues := length_encodeRecords_lt_of_mem List.mem_cons_self hsize
  have hread : (messageRecord 1 values).value.message LightClient.CommitmentProof.merge 100
      default = values.foldlM (LightClient.CommitmentProof.merge 99) default :=
    message_messageRecord hplain hvalues
  rw [decode, mergeInto_encodeRecords hmessage hsize, RECURSION_LIMIT, List.foldlM_cons,
    LightClient.MerkleProof.merge]
  dsimp only [messageRecord_tag]
  rw [hread]
  cases values.foldlM (LightClient.CommitmentProof.merge 99) default <;> rfl

/-- The light client knows existence proofs by their field number. -/
theorem decodeProof_exist {proof : Core.ExistenceProof}
    (hsize : (Core.MerkleProof.mk [⟨some (.exist proof)⟩]).encode.length < 2 ^ 64) :
    LightClient.decodeProof (Core.MerkleProof.mk [⟨some (.exist proof)⟩]).encode =
      .ok (.exist (readExistence proof)) := by
  have hcommitment : ∀ record ∈ [messageRecord 1 proof.records], record.Plain := by
    intro record hrecord
    obtain rfl := List.mem_singleton.mp hrecord
    exact plain_messageRecord (by norm_num) _
  have hencode : (Core.MerkleProof.mk [⟨some (.exist proof)⟩]).encode =
      encodeRecords [messageRecord 1 [messageRecord 1 proof.records]] := rfl
  rw [hencode] at hsize ⊢
  have hinner := length_encodeRecords_lt_of_mem List.mem_cons_self
    (length_encodeRecords_lt_of_mem List.mem_cons_self hsize)
  have hread : (messageRecord 1 proof.records).value.message LightClient.ExistenceProof.merge 99
      default = some (readExistence proof) :=
    (message_messageRecord (plain_existence proof) hinner).trans (foldlM_existence hinner 97)
  have hfold : [messageRecord 1 proof.records].foldlM (LightClient.CommitmentProof.merge 99)
      default = some ⟨some (.exist (readExistence proof))⟩ := by
    rw [List.foldlM_cons, LightClient.CommitmentProof.merge]
    dsimp only [messageRecord_tag]
    have hcurrent : (default : LightClient.CommitmentProof).proof = none := rfl
    rw [hcurrent]
    dsimp only
    rw [hread]
    rfl
  rw [LightClient.decodeProof, decode_merkle hcommitment hsize, hfold]
  rfl

/-- A non-existence proof stands in a field that the light client does not know. -/
theorem decodeProof_nonexist {proof : Core.NonExistenceProof}
    (hsize : (Core.MerkleProof.mk [⟨some (.nonexist proof)⟩]).encode.length < 2 ^ 64) :
    LightClient.decodeProof (Core.MerkleProof.mk [⟨some (.nonexist proof)⟩]).encode =
      .error .merkleVerificationFailed := by
  have hcommitment : ∀ record ∈ [messageRecord 2 proof.records], record.Plain := by
    intro record hrecord
    obtain rfl := List.mem_singleton.mp hrecord
    exact plain_messageRecord (by norm_num) _
  have hencode : (Core.MerkleProof.mk [⟨some (.nonexist proof)⟩]).encode =
      encodeRecords [messageRecord 1 [messageRecord 2 proof.records]] := rfl
  rw [hencode] at hsize ⊢
  have hfold : [messageRecord 2 proof.records].foldlM (LightClient.CommitmentProof.merge 99)
      default = some default := rfl
  rw [LightClient.decodeProof, decode_merkle hcommitment hsize, hfold]
  rfl

/-! ### Sizes -/

theorem cost_innerOpWithParity_le (sibling : Hash) (isLeftChild : Bool) :
    cost (Core.innerOpWithParity sibling isLeftChild).records ≤ 93 := by
  have hsibling := sibling.property
  have hhash := cost_int32Record_le 1 Core.SHA256
  unfold Core.innerOpWithParity Core.InnerOp.records
  cases isLeftChild with
  | true =>
      have hprefix := cost_bytesRecord_le 2 [0x01]
      have hsuffix := cost_bytesRecord_le 3 sibling.val
      simp only [cost_append, if_true, List.length_singleton] at hprefix ⊢
      omega
  | false =>
      have hprefix := cost_bytesRecord_le 2 (0x01 :: sibling.val)
      have hsuffix := cost_bytesRecord_le 3 []
      simp only [cost_append, Bool.false_eq_true, if_false, List.length_cons, List.length_nil]
        at hprefix hsuffix ⊢
      omega

theorem mem_pathWithIndex {op : Core.InnerOp} {siblings : List Hash} {subIdx : UInt64}
    (h : op ∈ Core.pathWithIndex subIdx siblings) :
    ∃ sibling isLeftChild, op = Core.innerOpWithParity sibling isLeftChild := by
  induction siblings generalizing subIdx with
  | nil => cases h
  | cons sibling siblings ih =>
      rcases List.mem_cons.mp h with rfl | hrest
      · exact ⟨_, _, rfl⟩
      · exact ih hrest

theorem length_pathWithIndex (subIdx : UInt64) (siblings : List Hash) :
    (Core.pathWithIndex subIdx siblings).length = siblings.length := by
  induction siblings generalizing subIdx with
  | nil => rfl
  | cons sibling siblings ih => simp [Core.pathWithIndex, ih]

theorem cost_existence_le (key value : Bytes) (siblings : List Hash) (index : UInt64) :
    cost (Core.buildExistenceProofWithIndex key value siblings index).records ≤
      200 + key.length + value.length + siblings.length * 113 := by
  have hkey := cost_bytesRecord_le 1 key
  have hvalue := cost_bytesRecord_le 2 value
  have hleaf : cost (optionalRecord 3
      ((Core.buildExistenceProofWithIndex key value siblings index).leaf.map
        Core.LeafOp.records)) ≤ 160 := by
    show cost (optionalRecord 3 (some (Core.LeafOp.records ⟨Core.SHA256, Core.NO_HASH,
      Core.NO_HASH, 0, []⟩))) ≤ 160
    decide
  have hpath : cost ((Core.pathWithIndex index siblings).map
      fun op => messageRecord 4 op.records) ≤ siblings.length * (20 + 93) := by
    rw [← length_pathWithIndex index siblings]
    refine cost_repeatedRecords_le fun op hop => ?_
    obtain ⟨sibling, isLeftChild, rfl⟩ := mem_pathWithIndex hop
    exact cost_innerOpWithParity_le sibling isLeftChild
  simp only [Core.ExistenceProof.records, cost_append]
  simp only [Core.buildExistenceProofWithIndex] at hleaf ⊢
  omega

theorem length_serializeMembership_lt {proof : Core.MembershipProof} {key value : Bytes}
    (index : UInt64) (hkey : key.length < 2 ^ 63) (hvalue : value.length = 32)
    (hsiblings : proof.siblings.length = Core.TREE_DEPTH) :
    (Core.serializeMembershipProofWithIndex proof key value index).length < 2 ^ 64 := by
  have hcost := cost_existence_le key value proof.siblings index
  have hinner := cost_messageRecord_le 1
    (Core.buildExistenceProofWithIndex key value proof.siblings index).records
  have houter := cost_messageRecord_le 1 [messageRecord 1
    (Core.buildExistenceProofWithIndex key value proof.siblings index).records]
  have hlength : (Core.serializeMembershipProofWithIndex proof key value index).length ≤ _ :=
    length_encodeRecords_le [messageRecord 1 [messageRecord 1
      (Core.buildExistenceProofWithIndex key value proof.siblings index).records]]
  rw [hsiblings, Core.TREE_DEPTH] at hcost
  omega

theorem length_serializeNonMembership_lt {proof : Core.NonMembershipProof} {key : Bytes}
    (index : UInt64) (hkey : key.length < 2 ^ 62)
    (hsiblings : proof.siblings.length = Core.TREE_DEPTH) :
    (Core.serializeNonMembershipProofWithIndex proof key index).length < 2 ^ 64 := by
  have hcost := cost_existence_le key [] proof.siblings index
  have hleft := cost_messageRecord_le 2
    (Core.buildExistenceProofWithIndex key [] proof.siblings index).records
  have houterKey := cost_bytesRecord_le 1 key
  have hnonexist : cost (Core.NonExistenceProof.mk key
      (some (Core.buildExistenceProofWithIndex key [] proof.siblings index)) none).records =
      cost (bytesRecord 1 key) + (cost [messageRecord 2
        (Core.buildExistenceProofWithIndex key [] proof.siblings index).records] + 0) := by
    rw [Core.NonExistenceProof.records, cost_append, cost_append]
    rfl
  have hinner := cost_messageRecord_le 2 (Core.NonExistenceProof.mk key
    (some (Core.buildExistenceProofWithIndex key [] proof.siblings index)) none).records
  have houter := cost_messageRecord_le 1 [messageRecord 2 (Core.NonExistenceProof.mk key
    (some (Core.buildExistenceProofWithIndex key [] proof.siblings index)) none).records]
  have hlength : (Core.serializeNonMembershipProofWithIndex proof key index).length ≤ _ :=
    length_encodeRecords_le [messageRecord 1 [messageRecord 2 (Core.NonExistenceProof.mk key
      (some (Core.buildExistenceProofWithIndex key [] proof.siblings index)) none).records]]
  rw [hsiblings, Core.TREE_DEPTH, List.length_nil] at hcost
  omega

/-! ### Siblings -/

theorem extractSibling_innerOpWithParity (sibling : Hash) (isLeftChild : Bool) :
    LightClient.extractSibling (readInnerOp (Core.innerOpWithParity sibling isLeftChild)) =
      .ok sibling := by
  obtain ⟨bytes, hbytes⟩ := sibling
  have hne : bytes ≠ [] := by
    rintro rfl
    simp at hbytes
  cases isLeftChild with
  | true =>
      simp [Core.innerOpWithParity, readInnerOp, LightClient.extractSibling, hne, hbytes,
        LightClient.HASH_SIZE, LightClient.toHash, LightClient.orError]
  | false =>
      simp [Core.innerOpWithParity, readInnerOp, LightClient.extractSibling, hbytes,
        LightClient.HASH_SIZE, LightClient.toHash, LightClient.orError]

/-- The parity of an operation says only on which side the sibling stands. -/
theorem extractSiblings_pathWithIndex (subIdx : UInt64) (siblings : List Hash) :
    LightClient.extractSiblings ((Core.pathWithIndex subIdx siblings).map readInnerOp) =
      .ok siblings := by
  unfold LightClient.extractSiblings
  induction siblings generalizing subIdx with
  | nil => rfl
  | cons sibling siblings ih =>
      rw [Core.pathWithIndex, List.map_cons, List.mapM_cons, extractSibling_innerOpWithParity, ih]
      rfl

theorem decodeMembershipProof_serialize {proof : Core.MembershipProof} {key value : Bytes}
    {index : UInt64}
    (hsize : (Core.serializeMembershipProofWithIndex proof key value index).length < 2 ^ 64) :
    LightClient.decodeMembershipProof
      (Core.serializeMembershipProofWithIndex proof key value index) =
      .ok (key, value, proof.siblings) := by
  unfold Core.serializeMembershipProofWithIndex at hsize ⊢
  rw [LightClient.decodeMembershipProof, decodeProof_exist hsize]
  have hpath := extractSiblings_pathWithIndex index proof.siblings
  simp [readExistence, Core.buildExistenceProofWithIndex, hpath, bind, Except.bind, pure,
    Except.pure]

theorem decodeNonMembershipProof_serialize {proof : Core.NonMembershipProof} {key : Bytes}
    {index : UInt64}
    (hsize : (Core.serializeNonMembershipProofWithIndex proof key index).length < 2 ^ 64) :
    LightClient.decodeNonMembershipProof
      (Core.serializeNonMembershipProofWithIndex proof key index) =
      .error .merkleVerificationFailed := by
  unfold Core.serializeNonMembershipProofWithIndex at hsize ⊢
  rw [LightClient.decodeNonMembershipProof, decodeProof_nonexist hsize]
  rfl

/-! ### Acceptance -/

/-- The light client is not frozen and has `root` at `height`. -/
structure Trusts (deps : LightClient.Deps) (height : UInt64) (root : Hash) : Prop where
  unfrozen : ∃ cs, deps.storage.clientState = some cs ∧ cs.frozenHeight = none
  consensus : ∃ consensus, deps.storage.consensusState height = some consensus ∧
    consensus.root = root.val

theorem Trusts.requireRoot {deps : LightClient.Deps} {height : UInt64} {root : Hash}
    (h : Trusts deps height root) : LightClient.requireRoot deps height = .ok root := by
  obtain ⟨cs, hcs, hfrozen⟩ := h.unfrozen
  obtain ⟨consensus, hconsensus, hroot⟩ := h.consensus
  have hhash : LightClient.toHash consensus.root = some root := by
    rw [hroot, LightClient.toHash, dif_pos root.property]
  simp [LightClient.requireRoot, LightClient.requireClientState,
    LightClient.requireNotFrozen, LightClient.requireConsensusState, LightClient.orError, hcs,
    hfrozen, hconsensus, hhash, bind, Except.bind]

/-- The tree and the verifier have one leaf hash, one index and one fold. -/
theorem foldSiblings_eq_core (idx : UInt64) (leaf : Hash) (siblings : List Hash) :
    LightClient.foldSiblings sha256 idx leaf siblings =
      Core.foldSiblings sha256 idx leaf siblings := by
  rw [LightClient.foldSiblings_eq, Core.foldSiblings_eq]
  rfl

theorem length_siblings_of_generate {smt : Core.Smt} {key : Bytes} {proof : Core.MembershipProof}
    (h : smt.generateMembershipProof sha256 key = some proof) :
    proof.siblings.length = Core.TREE_DEPTH := by
  unfold Core.Smt.generateMembershipProof at h
  simp only [Option.bind_eq_bind, Option.bind_eq_some_iff] at h
  obtain ⟨stored, -, hproof⟩ := h
  obtain ⟨-, hproof⟩ := Option.ite_none_left_eq_some.mp hproof
  cases hproof
  exact smt.length_siblingsFor _

/-- A proof of the value that the tree has at the key's index. -/
theorem verifyMembership_of_leaf {deps : LightClient.Deps} {smt : Core.Smt}
    {height : LightClient.Height} {key value : Bytes} {chunks : List Bytes}
    {proof : Core.MembershipProof}
    (htrusts : Trusts deps height.revisionHeight (smt.root deps.api.sha256))
    (hleaf : smt.leaves[Core.keyIndex deps.api.sha256 key]? =
      some (deps.api.sha256 key, deps.api.sha256 value))
    (hproof : smt.generateMembershipProof deps.api.sha256 key = some proof)
    (hvalue : value ≠ []) (hkey : key.length < 2 ^ 63) (hchunks : chunks.flatten = key) :
    LightClient.verifyMembership deps
      ⟨height, Core.serializeMembershipProofWithIndex proof key proof.valueHash.val
        (Core.keyIndex deps.api.sha256 key), chunks, value⟩ = .ok () := by
  rw [Core.Smt.generateMembershipProof_of_some hleaf, Option.some.injEq] at hproof
  subst hproof hchunks
  rw [LightClient.verifyMembership_eq_ok]
  refine ⟨_, decodeMembershipProof_serialize (length_serializeMembership_lt _ hkey
    (deps.api.sha256 value).property (smt.length_siblingsFor _)), smt.length_siblingsFor _,
    hvalue, ?_⟩
  rw [htrusts.requireRoot, ← smt.foldSiblings_siblingsFor
    (Core.keyIndex deps.api.sha256 chunks.flatten), Core.Smt.leafAt_of_some hleaf]
  exact congrArg _ (foldSiblings_eq_core _ _ _).symm

/-- **Served membership proofs are accepted.**  After any operations on keys with distinct
indices, the gateway finds every current value, and a light client that trusts the root
of the tree accepts the proof it serves for the key, however the path is split. -/
theorem found_accepted (deps : LightClient.Deps) (height : LightClient.Height)
    {ops : List Core.Op} {key value : Bytes} {chunks : List Bytes}
    (hindices : Set.InjOn (Core.keyIndex deps.api.sha256) { k | ∃ op ∈ ops, op.key = k })
    (hvalue : Core.currentValue ops key = some value) (hkey : key.length < 2 ^ 63)
    (htrusts : Trusts deps height.revisionHeight
      ((Core.Smt.ofOps deps.api.sha256 ops).root deps.api.sha256))
    (hchunks : chunks.flatten = key) :
    ∃ valueHash proofBytes,
      (Core.Smt.ofOps deps.api.sha256 ops).proofForPath deps.api.sha256 key =
          some (.found valueHash proofBytes) ∧
        LightClient.runSudo deps (.verifyMembership ⟨height, proofBytes, chunks, value⟩) =
          .ok (.empty, deps.storage) := by
  obtain ⟨hne, op, hop, hopKey, -⟩ := Core.currentValue_cases hvalue
  have hleaf := Core.Smt.holds_ofOps hindices (fun op hop => ⟨op, hop, rfl⟩) key
    ⟨op, hop, hopKey⟩
  rw [hvalue, Option.map_some] at hleaf
  have hproof := Core.Smt.generateMembershipProof_of_some hleaf
  refine ⟨_, _, Core.Smt.proofForPath_of_some hproof, ?_⟩
  simp only [LightClient.runSudo]
  rw [verifyMembership_of_leaf htrusts hleaf hproof hne hkey hchunks]
  rfl

/-- A light client with `root` at height 7. -/
def sampleDeps (root : Hash) : LightClient.Deps :=
  { storage := LightClient.sampleStorage root
    api := { ed25519Verify := fun _ _ _ => some false, sha256 := Sha256.sha256 } }

theorem sampleDeps_trusts (root : Hash) : Trusts (sampleDeps root) 7 root where
  unfrozen := ⟨_, LightClient.sampleStorage_clientState root, rfl⟩
  consensus := ⟨_, LightClient.sampleStorage_consensusState root, rfl⟩

def sampleOps : List Core.Op :=
  [.insert [97] [1], .insert [98] [2], .update [97] [3], .remove [98]]

def sampleTree : Core.Smt := Core.Smt.ofOps Sha256.sha256 sampleOps

theorem sampleOps_indices :
    Set.InjOn (Core.keyIndex Sha256.sha256) { k | ∃ op ∈ sampleOps, op.key = k } := by
  have hkeys : ∀ k, (∃ op ∈ sampleOps, op.key = k) → k = [97] ∨ k = [98] := by
    rintro k ⟨op, hop, rfl⟩
    have hall : ∀ op ∈ sampleOps, op.key = [97] ∨ op.key = [98] := by decide
    exact hall op hop
  have hne : Core.keyIndex Sha256.sha256 [97] ≠ Core.keyIndex Sha256.sha256 [98] := by
    decide +kernel
  intro a ha b hb hab
  rcases hkeys a ha with rfl | rfl
  · rcases hkeys b hb with rfl | rfl
    · rfl
    · exact absurd hab hne
  · rcases hkeys b hb with rfl | rfl
    · exact absurd hab.symm hne
    · rfl

theorem found_accepted_sample :
    ∃ valueHash proofBytes,
      sampleTree.proofForPath Sha256.sha256 [97] = some (.found valueHash proofBytes) ∧
        LightClient.runSudo (sampleDeps (sampleTree.root Sha256.sha256))
          (.verifyMembership ⟨⟨0, 7⟩, proofBytes, [[], [97]], [3]⟩) =
          .ok (.empty, (sampleDeps (sampleTree.root Sha256.sha256)).storage) :=
  found_accepted (sampleDeps (sampleTree.root Sha256.sha256)) ⟨0, 7⟩ sampleOps_indices
    (by decide) (by decide) (sampleDeps_trusts _) rfl

/-! ### Rejection -/

/-- What the light client should answer to the non-membership proof of `key`. -/
def NonMembershipAccepted (deps : LightClient.Deps) (height : LightClient.Height)
    (smt : Core.Smt) (key : Bytes) (chunks : List Bytes) : Prop :=
  ∀ proof, smt.generateNonMembershipProof deps.api.sha256 key = some proof →
    LightClient.runSudo deps (.verifyNonMembership ⟨height,
      Core.serializeNonMembershipProofWithIndex proof key (Core.keyIndex deps.api.sha256 key),
      chunks⟩) = .ok (.empty, deps.storage)

theorem verifyNonMembership_serialize {deps : LightClient.Deps} {height : LightClient.Height}
    {root : Hash} {proof : Core.NonMembershipProof} {key : Bytes} {index : UInt64}
    {chunks : List Bytes} (htrusts : Trusts deps height.revisionHeight root)
    (hsize : (Core.serializeNonMembershipProofWithIndex proof key index).length < 2 ^ 64) :
    LightClient.runSudo deps (.verifyNonMembership ⟨height,
      Core.serializeNonMembershipProofWithIndex proof key index, chunks⟩) =
      .error .merkleVerificationFailed := by
  simp only [LightClient.runSudo, LightClient.verifyNonMembership]
  rw [htrusts.requireRoot, decodeNonMembershipProof_serialize hsize]
  rfl

theorem nonMembership_rejected {deps : LightClient.Deps} {height : LightClient.Height}
    {smt : Core.Smt} {key : Bytes} (chunks : List Bytes)
    (habsent : smt.leaves[Core.keyIndex deps.api.sha256 key]? = none)
    (htrusts : Trusts deps height.revisionHeight (smt.root deps.api.sha256))
    (hkey : key.length < 2 ^ 62) : ¬ NonMembershipAccepted deps height smt key chunks := by
  intro haccepted
  have hok := haccepted _ (Core.Smt.generateNonMembershipProof_of_none habsent)
  rw [verifyNonMembership_serialize htrusts
    (length_serializeNonMembership_lt _ hkey (smt.length_siblingsFor _))] at hok
  cases hok

/-- The key of an empty tree. -/
theorem nonMembershipAccepted_fails_on_empty :
    Core.Smt.new.leaves[Core.keyIndex Sha256.sha256 (ascii "absent")]? = none ∧
      Trusts (sampleDeps (Core.Smt.new.root Sha256.sha256)) 7
        (Core.Smt.new.root Sha256.sha256) ∧
      ¬ NonMembershipAccepted (sampleDeps (Core.Smt.new.root Sha256.sha256)) ⟨0, 7⟩ .new
        (ascii "absent") [ascii "absent"] := by
  have habsent : Core.Smt.new.leaves[Core.keyIndex Sha256.sha256 (ascii "absent")]? = none := by
    simp [Core.Smt.new]
  exact ⟨habsent, sampleDeps_trusts _,
    nonMembership_rejected _ habsent (sampleDeps_trusts _) (by decide)⟩

/-- **Served non-membership proofs are never accepted**, whatever the tree and the absent
key: the light client, not frozen and trusting the root of the tree, fails on the bytes.
The key stands in them twice, so its length leaves room for both. -/
theorem not_nonMembershipAccepted (deps : LightClient.Deps) (height : LightClient.Height)
    {ops : List Core.Op} {key : Bytes} (chunks : List Bytes)
    (habsent : (Core.Smt.ofOps deps.api.sha256 ops).leaves[Core.keyIndex deps.api.sha256 key]? =
      none)
    (htrusts : Trusts deps height.revisionHeight
      ((Core.Smt.ofOps deps.api.sha256 ops).root deps.api.sha256))
    (hkey : key.length < 2 ^ 62) :
    ¬ NonMembershipAccepted deps height (Core.Smt.ofOps deps.api.sha256 ops) key chunks :=
  nonMembership_rejected chunks habsent htrusts hkey

theorem not_nonMembershipAccepted_removed :
    ¬ NonMembershipAccepted (sampleDeps (sampleTree.root Sha256.sha256)) ⟨0, 7⟩ sampleTree [98]
      [[98]] := by
  refine not_nonMembershipAccepted (sampleDeps (sampleTree.root Sha256.sha256)) ⟨0, 7⟩ [[98]]
    ?_ (sampleDeps_trusts _) (by decide)
  exact Core.Smt.holds_ofOps sampleOps_indices (fun op hop => ⟨op, hop, rfl⟩) [98]
    ⟨.remove [98], by decide, rfl⟩

end StellarIbc.ServedProofs
