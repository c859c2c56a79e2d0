import Mathlib.Data.Nat.Bitwise
import StellarIbc.Bytes
import StellarIbc.SparseMerkle

/-!
# The gateway's sparse Merkle tree

`crates/core/src/ibc/smt.rs`: the tree of depth 64 that the gateway keeps over the
router's provable entries.  Only the occupied leaves are stored; the root and the
siblings of a proof are computed from levels that hold the nodes that are not empty.
Reading a level with empty for what is missing gives the full tree of
`SparseMerkle`, and from this the root is the fold of any leaf along its own siblings.
-/

namespace StellarIbc.Core

def TREE_DEPTH : Nat := 64

def EMPTY : Hash := .fill 32 0

section

variable (sha256 : Bytes → Hash)

def keyIndexFromHash (keyHash : Hash) : UInt64 :=
  UInt64.ofNat (ofBeBytes (keyHash.val.take 8))

def keyIndex (key : Bytes) : UInt64 := keyIndexFromHash (sha256 key)

def leafHash (keyHash valueHash : Hash) : Hash :=
  sha256 (0x00 :: keyHash.val ++ valueHash.val)

def innerHash (left right : Hash) : Hash :=
  if left = EMPTY ∧ right = EMPTY then EMPTY else sha256 (0x01 :: left.val ++ right.val)

/-- The loop over the siblings, with `subIdx` and `current` as its state. -/
def foldSiblings (subIdx : UInt64) (current : Hash) : List Hash → Hash
  | [] => current
  | sibling :: siblings =>
      let next :=
        if subIdx &&& 1 = 0 then innerHash sha256 current sibling
        else innerHash sha256 sibling current
      foldSiblings (subIdx >>> 1) next siblings

end

/-- Key hash and value hash of the occupied leaves, by index. -/
structure Smt where
  leaves : Std.TreeMap UInt64 (Hash × Hash)

structure MembershipProof where
  keyHash : Hash
  valueHash : Hash
  siblings : List Hash
deriving DecidableEq

structure NonMembershipProof where
  keyHash : Hash
  siblings : List Hash
deriving DecidableEq

/-- The nodes of one level that are stored. -/
abbrev Level := Std.TreeMap UInt64 Hash

def Level.get (level : Level) (index : UInt64) : Hash := level.getD index EMPTY

section

variable (sha256 : Bytes → Hash)

/-- The parent at `pidx`. -/
def Level.parent (below : Level) (pidx : UInt64) : Hash :=
  let leftIdx := pidx <<< 1
  let rightIdx := leftIdx ||| 1
  innerHash sha256 (below.get leftIdx) (below.get rightIdx)

/-- The indices above the stored nodes. -/
def Level.parents (below : Level) : Std.TreeSet UInt64 :=
  .ofList (below.keys.map fun i : UInt64 => i >>> 1)

/-- The body of the loop over the levels. -/
def Level.next (below : Level) : Level :=
  below.parents.foldl
    (fun level pidx =>
      let p := below.parent sha256 pidx
      if p ≠ EMPTY then level.insert pidx p else level)
    ∅

/-- A level and the `height` levels above it. -/
def Level.upwards (level : Level) : Nat → List Level
  | 0 => [level]
  | height + 1 => level :: Level.upwards (level.next sha256) height

namespace Smt

def new : Smt := ⟨∅⟩

def remove (smt : Smt) (key : Bytes) : Smt := ⟨smt.leaves.erase (keyIndex sha256 key)⟩

def insert (smt : Smt) (key value : Bytes) : Smt :=
  if value = [] then
    smt.remove sha256 key
  else
    let keyHash := sha256 key
    let valueHash := sha256 value
    ⟨smt.leaves.insert (keyIndexFromHash keyHash) (keyHash, valueHash)⟩

def update (smt : Smt) (key value : Bytes) : Smt := smt.insert sha256 key value

/-- Level 0: the hashes of the leaves. -/
def bottom (smt : Smt) : Level :=
  smt.leaves.map fun _ leaf => leafHash sha256 leaf.1 leaf.2

def materializeLevels (smt : Smt) : List Level :=
  (smt.bottom sha256).upwards sha256 TREE_DEPTH

/-- The loop of `siblings_for` over the levels, with `i` as its state. -/
def siblingsAlong (i : UInt64) : List Level → List Hash
  | [] => []
  | level :: levels => level.get (i ^^^ 1) :: siblingsAlong (i >>> 1) levels

def siblingsFor (smt : Smt) (idx : UInt64) : List Hash :=
  siblingsAlong idx ((smt.materializeLevels sha256).take TREE_DEPTH)

def root (smt : Smt) : Hash :=
  if smt.leaves.isEmpty then EMPTY
  else (((smt.materializeLevels sha256)[TREE_DEPTH]?).getD ∅).get 0

def generateMembershipProof (smt : Smt) (key : Bytes) : Option MembershipProof := do
  let keyHash := sha256 key
  let idx := keyIndexFromHash keyHash
  let (storedKh, storedVh) ← smt.leaves[idx]?
  if storedKh ≠ keyHash then
    none
  else
    some { keyHash, valueHash := storedVh, siblings := smt.siblingsFor sha256 idx }

def generateNonMembershipProof (smt : Smt) (key : Bytes) : Option NonMembershipProof :=
  let keyHash := sha256 key
  let idx := keyIndexFromHash keyHash
  match smt.leaves[idx]? with
  | some (storedKh, _) => if storedKh = keyHash then none else none
  | none => some { keyHash, siblings := smt.siblingsFor sha256 idx }

def verifyMembership (root : Hash) (proof : MembershipProof) (key value : Bytes) : Bool :=
  let keyHash := sha256 key
  let valueHash := sha256 value
  if value = [] then false
  else if keyHash ≠ proof.keyHash then false
  else if valueHash ≠ proof.valueHash then false
  else if proof.siblings.length ≠ TREE_DEPTH then false
  else
    let idx := keyIndexFromHash keyHash
    foldSiblings sha256 idx (leafHash sha256 keyHash valueHash) proof.siblings = root

def verifyNonMembership (root : Hash) (proof : NonMembershipProof) (key : Bytes) : Bool :=
  let keyHash := sha256 key
  if keyHash ≠ proof.keyHash then false
  else if proof.siblings.length ≠ TREE_DEPTH then false
  else
    let idx := keyIndexFromHash keyHash
    foldSiblings sha256 idx EMPTY proof.siblings = root

end Smt

end

/-! ### The fold over natural indices -/

variable {sha256 : Bytes → Hash}

/-- The hash of a pair of nodes that are not both empty. -/
def hashPair (sha256 : Bytes → Hash) (left right : Hash) : Hash :=
  sha256 (0x01 :: left.val ++ right.val)

theorem innerHash_eq (left right : Hash) :
    innerHash sha256 left right = SparseMerkle.inner EMPTY (hashPair sha256) left right := rfl

theorem foldSiblings_eq (idx : UInt64) (leaf : Hash) (siblings : List Hash) :
    foldSiblings sha256 idx leaf siblings =
      SparseMerkle.fold EMPTY (hashPair sha256) idx.toNat leaf siblings := by
  induction siblings generalizing idx leaf with
  | nil => rfl
  | cons sibling siblings ih =>
      rw [foldSiblings, SparseMerkle.fold, ih, toNat_shiftRight_one, SparseMerkle.parent]
      simp only [and_one_eq_zero_iff, innerHash_eq]

/-! ### Levels as full levels -/

/-- A level read at any natural index. -/
def Level.lookup (level : Level) (i : Nat) : Hash :=
  if i < 2 ^ 64 then level.get (UInt64.ofNat i) else EMPTY

theorem Level.lookup_toNat (level : Level) (i : UInt64) :
    level.lookup i.toNat = level.get i := by
  rw [Level.lookup, if_pos i.toNat_lt, UInt64.ofNat_toNat]

theorem Level.get_of_not_mem {level : Level} {i : UInt64} (h : i ∉ level) :
    level.get i = EMPTY :=
  Std.TreeMap.getD_eq_fallback h

/-- Inserting the parents that are not empty, one after the other. -/
theorem get_foldl_insert (f : UInt64 → Hash) (parents : List UInt64) (level : Level)
    (i : UInt64) :
    Level.get (parents.foldl
      (fun level pidx => if f pidx ≠ EMPTY then level.insert pidx (f pidx) else level) level) i =
      if i ∈ parents ∧ f i ≠ EMPTY then f i else level.get i := by
  induction parents generalizing level with
  | nil => simp
  | cons pidx parents ih =>
      rw [List.foldl_cons, ih]
      by_cases hempty : f pidx = EMPTY
      · by_cases hi : i = pidx
        · simp [hi, hempty]
        · simp [hi, hempty]
      · by_cases hi : i = pidx
        · subst hi
          simp [hempty, Level.get]
        · have hne : pidx ≠ i := Ne.symm hi
          simp [hi, hempty, Level.get, Std.TreeMap.getD_insert, hne]

theorem Level.mem_parents {below : Level} {i : UInt64} :
    i ∈ below.parents ↔ ∃ j ∈ below, j >>> 1 = i := by
  rw [Level.parents, Std.TreeSet.mem_ofList]
  simp

theorem Level.get_next (below : Level) (i : UInt64) :
    (below.next sha256).get i =
      if i ∈ below.parents then below.parent sha256 i else EMPTY := by
  have hget := get_foldl_insert (below.parent sha256) below.parents.toList ∅ i
  have hnone : Level.get ∅ i = EMPTY := by simp [Level.get]
  simp only [Std.TreeSet.mem_toList, hnone] at hget
  unfold Level.next
  rw [Std.TreeSet.foldl_eq_foldl_toList, hget]
  by_cases hempty : below.parent sha256 i = EMPTY
  · simp [hempty]
  · simp [hempty]

theorem ofNat_shiftLeft_one (i : Nat) : UInt64.ofNat i <<< 1 = UInt64.ofNat (2 * i) := by
  rw [← UInt64.toNat_inj]
  simp [UInt64.toNat_shiftLeft, Nat.shiftLeft_eq, Nat.mul_comm]

theorem ofNat_two_mul_or_one {i : Nat} (hfits : 2 * i + 1 < 2 ^ 64) :
    UInt64.ofNat (2 * i) ||| 1 = UInt64.ofNat (2 * i + 1) := by
  rw [← UInt64.toNat_inj, UInt64.toNat_or, toNat_ofNat (by omega),
    toNat_ofNat hfits]
  have hone : (1 : UInt64).toNat = 1 := rfl
  rw [hone, ← Nat.two_pow_add_eq_or_of_lt (i := 1) (by norm_num : 1 < 2 ^ 1) i]

/-- What is stored is read below its parent. -/
theorem Level.lookup_of_not_mem_parents {below : Level} {i j : Nat} (hij : j / 2 = i)
    (h : UInt64.ofNat i ∉ below.parents) : below.lookup j = EMPTY := by
  unfold Level.lookup
  split
  · rename_i hj
    refine Level.get_of_not_mem fun hmem => h (Level.mem_parents.mpr ⟨_, hmem, ?_⟩)
    rw [← UInt64.toNat_inj, toNat_shiftRight_one, toNat_ofNat hj,
      toNat_ofNat (by omega), hij]
  · rfl

theorem Level.index_lt_of_mem_parents {below : Level} {i : Nat} (hi : i < 2 ^ 64)
    (h : UInt64.ofNat i ∈ below.parents) : i < 2 ^ 63 := by
  obtain ⟨j, -, hj⟩ := Level.mem_parents.mp h
  have hhalf := congrArg UInt64.toNat hj
  rw [toNat_shiftRight_one, toNat_ofNat hi] at hhalf
  have hlt := j.toNat_lt
  omega

/-- A stored level above reads as the full level above: what it leaves out is empty. -/
theorem Level.lookup_next (below : Level) (i : Nat) :
    (below.next sha256).lookup i =
      innerHash sha256 (below.lookup (2 * i)) (below.lookup (2 * i + 1)) := by
  by_cases hi : i < 2 ^ 64
  · rw [Level.lookup, if_pos hi, Level.get_next]
    by_cases hmem : UInt64.ofNat i ∈ below.parents
    · have hfits := Level.index_lt_of_mem_parents hi hmem
      rw [if_pos hmem, Level.parent, ofNat_shiftLeft_one, ofNat_two_mul_or_one (by omega),
        Level.lookup, Level.lookup, if_pos (by omega), if_pos (by omega)]
    · rw [if_neg hmem, Level.lookup_of_not_mem_parents (by omega) hmem,
        Level.lookup_of_not_mem_parents (by omega) hmem]
      rfl
  · rw [Level.lookup, Level.lookup, Level.lookup, if_neg hi, if_neg (by omega),
      if_neg (by omega)]
    rfl

/-! ### The tree behind the levels -/

/-- The leaves of the full tree. -/
def Smt.leafAt (sha256 : Bytes → Hash) (smt : Smt) (i : Nat) : Hash :=
  if i < 2 ^ 64 then
    match smt.leaves[UInt64.ofNat i]? with
    | some (keyHash, valueHash) => leafHash sha256 keyHash valueHash
    | none => EMPTY
  else EMPTY

/-- The node of the full tree at `height` and `i`. -/
def Smt.node (sha256 : Bytes → Hash) (smt : Smt) (height i : Nat) : Hash :=
  SparseMerkle.node EMPTY (hashPair sha256) (smt.leafAt sha256) height i

theorem Level.upwards_get (level : Level) (height k : Nat) (hk : k ≤ height) :
    (level.upwards sha256 height)[k]? = some ((Level.next sha256)^[k] level) := by
  induction height generalizing level k with
  | zero =>
      obtain rfl : k = 0 := by omega
      rfl
  | succ height ih =>
      cases k with
      | zero => rfl
      | succ k =>
          rw [Level.upwards, List.getElem?_cons_succ, ih _ _ (by omega)]
          rfl

/-- The stored levels are the levels of the full tree. -/
theorem Smt.lookup_level (smt : Smt) (height i : Nat) :
    ((Level.next sha256)^[height] (smt.bottom sha256)).lookup i = smt.node sha256 height i := by
  induction height generalizing i with
  | zero =>
      have hleaf : smt.node sha256 0 i = smt.leafAt sha256 i := rfl
      rw [hleaf, Function.iterate_zero_apply, Level.lookup, Smt.leafAt]
      by_cases hi : i < 2 ^ 64
      · rw [if_pos hi, if_pos hi, Level.get, Smt.bottom, Std.TreeMap.getD_eq_getD_getElem?,
          Std.TreeMap.getElem?_map]
        cases smt.leaves[UInt64.ofNat i]? <;> rfl
      · rw [if_neg hi, if_neg hi]
  | succ height ih =>
      rw [Function.iterate_succ_apply', Level.lookup_next, ih, ih]
      rfl

theorem siblingIndex_eq_xor (index : Nat) : SparseMerkle.siblingIndex index = index ^^^ 1 := by
  unfold SparseMerkle.siblingIndex
  by_cases heven : index % 2 = 0
  · rw [if_pos heven, Nat.xor_one_of_even (Nat.even_iff.mpr heven)]
  · rw [if_neg heven, Nat.xor_one_of_odd (Nat.odd_iff.mpr (by omega))]

theorem toNat_xor_one (i : UInt64) : (i ^^^ 1).toNat = SparseMerkle.siblingIndex i.toNat := by
  have hone : (1 : UInt64).toNat = 1 := rfl
  rw [UInt64.toNat_xor, hone, siblingIndex_eq_xor]

theorem Smt.siblingsAlong_upwards (smt : Smt) (depth height : Nat) (i : UInt64) :
    Smt.siblingsAlong i ((Level.upwards sha256
      ((Level.next sha256)^[height] (smt.bottom sha256)) depth).take depth) =
      SparseMerkle.siblings EMPTY (hashPair sha256) (smt.leafAt sha256) depth height i.toNat := by
  induction depth generalizing height i with
  | zero => rfl
  | succ depth ih =>
      rw [Level.upwards, List.take_succ_cons, Smt.siblingsAlong, SparseMerkle.siblings,
        ← Level.lookup_toNat, Smt.lookup_level, toNat_xor_one,
        ← Function.iterate_succ_apply' (Level.next sha256), ih, toNat_shiftRight_one]
      rfl

theorem Smt.siblingsFor_eq (smt : Smt) (idx : UInt64) :
    smt.siblingsFor sha256 idx =
      SparseMerkle.siblings EMPTY (hashPair sha256) (smt.leafAt sha256) TREE_DEPTH 0 idx.toNat :=
  smt.siblingsAlong_upwards TREE_DEPTH 0 idx

@[simp] theorem Smt.length_siblingsFor (smt : Smt) (idx : UInt64) :
    (smt.siblingsFor sha256 idx).length = TREE_DEPTH := by
  rw [Smt.siblingsFor_eq, SparseMerkle.length_siblings]

theorem Smt.root_eq (smt : Smt) : smt.root sha256 = smt.node sha256 TREE_DEPTH 0 := by
  unfold Smt.root
  by_cases hempty : smt.leaves.isEmpty
  · rw [if_pos hempty]
    have hleaf : ∀ i, smt.leafAt sha256 i = EMPTY := by
      intro i
      have hnone : smt.leaves[UInt64.ofNat i]? = none :=
        Std.TreeMap.getElem?_of_isEmpty hempty
      simp [Smt.leafAt, hnone]
    exact (SparseMerkle.node_eq_empty hleaf TREE_DEPTH 0).symm
  · rw [if_neg hempty, Smt.materializeLevels, Level.upwards_get _ _ _ (Nat.le_refl _),
      Option.getD_some, ← Level.lookup_toNat, Smt.lookup_level]
    rfl

/-- The root is the fold of the leaf at any index, present or not, along its siblings. -/
theorem Smt.foldSiblings_siblingsFor (smt : Smt) (idx : UInt64) :
    foldSiblings sha256 idx (smt.leafAt sha256 idx.toNat) (smt.siblingsFor sha256 idx) =
      smt.root sha256 := by
  have htop : idx.toNat / 2 ^ TREE_DEPTH = 0 := Nat.div_eq_of_lt idx.toNat_lt
  have hleaf : smt.leafAt sha256 idx.toNat = smt.node sha256 0 idx.toNat := rfl
  rw [foldSiblings_eq, Smt.siblingsFor_eq, Smt.root_eq, hleaf]
  unfold Smt.node
  rw [SparseMerkle.fold_siblings, Nat.zero_add, htop]

theorem Smt.leafAt_of_some {smt : Smt} {idx : UInt64} {keyHash valueHash : Hash}
    (h : smt.leaves[idx]? = some (keyHash, valueHash)) :
    smt.leafAt sha256 idx.toNat = leafHash sha256 keyHash valueHash := by
  rw [Smt.leafAt, if_pos idx.toNat_lt, UInt64.ofNat_toNat, h]

theorem Smt.leafAt_of_none {smt : Smt} {idx : UInt64} (h : smt.leaves[idx]? = none) :
    smt.leafAt sha256 idx.toNat = EMPTY := by
  rw [Smt.leafAt, if_pos idx.toNat_lt, UInt64.ofNat_toNat, h]

theorem Smt.generateMembershipProof_of_some {smt : Smt} {key : Bytes} {valueHash : Hash}
    (h : smt.leaves[keyIndex sha256 key]? = some (sha256 key, valueHash)) :
    smt.generateMembershipProof sha256 key =
      some ⟨sha256 key, valueHash, smt.siblingsFor sha256 (keyIndex sha256 key)⟩ := by
  unfold keyIndex at h
  simp [Smt.generateMembershipProof, h, keyIndex]

theorem Smt.generateNonMembershipProof_of_none {smt : Smt} {key : Bytes}
    (h : smt.leaves[keyIndex sha256 key]? = none) :
    smt.generateNonMembershipProof sha256 key =
      some ⟨sha256 key, smt.siblingsFor sha256 (keyIndex sha256 key)⟩ := by
  unfold keyIndex at h
  simp [Smt.generateNonMembershipProof, h, keyIndex]

/-! ### Runs of the tree

What the tree is for: a map from keys to values that are not empty.  The tree itself is
indexed by a truncated hash, so it keeps this map as long as the keys in use have
distinct indices. -/

inductive Op where
  | insert (key value : Bytes)
  | update (key value : Bytes)
  | remove (key : Bytes)
deriving DecidableEq, Repr

def Op.key : Op → Bytes
  | .insert key _ | .update key _ | .remove key => key

/-- What the operation leaves at its key. -/
def Op.value : Op → Option Bytes
  | .insert _ value | .update _ value => if value = [] then none else some value
  | .remove _ => none

def Smt.apply (sha256 : Bytes → Hash) (smt : Smt) : Op → Smt
  | .insert key value => smt.insert sha256 key value
  | .update key value => smt.update sha256 key value
  | .remove key => smt.remove sha256 key

/-- The tree after `ops`. -/
def Smt.ofOps (sha256 : Bytes → Hash) (ops : List Op) : Smt := ops.foldl (Smt.apply sha256) .new

/-- The value of each key after `ops`. -/
def currentValue (ops : List Op) : Bytes → Option Bytes :=
  ops.foldl (fun entries op => Function.update entries op.key op.value) fun _ => none

/-- What an operation leaves at its index. -/
theorem Smt.leaves_apply (smt : Smt) (op : Op) (i : UInt64) :
    (smt.apply sha256 op).leaves[i]? =
      if keyIndex sha256 op.key = i then op.value.map fun v => (sha256 op.key, sha256 v)
      else smt.leaves[i]? := by
  have hremove : ∀ key, (smt.remove sha256 key).leaves[i]? =
      if keyIndex sha256 key = i then none else smt.leaves[i]? := by
    intro key
    rw [Smt.remove, Std.TreeMap.getElem?_erase]
    simp
  have hinsert : ∀ key value, (smt.insert sha256 key value).leaves[i]? =
      if keyIndex sha256 key = i then
        (if value = [] then none else some value).map fun v => (sha256 key, sha256 v)
      else smt.leaves[i]? := by
    intro key value
    by_cases hvalue : value = []
    · rw [Smt.insert, if_pos hvalue, if_pos hvalue, hremove]
      rfl
    · have hcompare : compare (keyIndexFromHash (sha256 key)) i = .eq ↔
          keyIndex sha256 key = i := Std.compare_eq_iff_eq
      rw [Smt.insert, if_neg hvalue, if_neg hvalue, Std.TreeMap.getElem?_insert]
      by_cases hi : keyIndex sha256 key = i
      · rw [if_pos (hcompare.mpr hi), if_pos hi]
        rfl
      · rw [if_neg (fun heq => hi (hcompare.mp heq)), if_neg hi]
  cases op with
  | insert key value => exact hinsert key value
  | update key value => exact hinsert key value
  | remove key => exact hremove key

/-- On `keys` the tree holds exactly `entries`. -/
def Smt.Holds (sha256 : Bytes → Hash) (smt : Smt) (keys : Set Bytes)
    (entries : Bytes → Option Bytes) : Prop :=
  ∀ key ∈ keys,
    smt.leaves[keyIndex sha256 key]? = (entries key).map fun v => (sha256 key, sha256 v)

theorem Smt.Holds.apply {smt : Smt} {keys : Set Bytes} {entries : Bytes → Option Bytes}
    (hindex : Set.InjOn (keyIndex sha256) keys) (h : smt.Holds sha256 keys entries) {op : Op}
    (hop : op.key ∈ keys) :
    (smt.apply sha256 op).Holds sha256 keys (Function.update entries op.key op.value) := by
  intro key hkey
  rw [Smt.leaves_apply]
  by_cases hsame : key = op.key
  · subst hsame
    simp
  · have hne : keyIndex sha256 op.key ≠ keyIndex sha256 key := fun heq =>
      hsame (hindex hop hkey heq).symm
    rw [if_neg hne, Function.update_of_ne hsame, h key hkey]

theorem Smt.Holds.foldl {keys : Set Bytes} (hindex : Set.InjOn (keyIndex sha256) keys)
    {ops : List Op} (hops : ∀ op ∈ ops, op.key ∈ keys) {smt : Smt}
    {entries : Bytes → Option Bytes} (h : smt.Holds sha256 keys entries) :
    (ops.foldl (Smt.apply sha256) smt).Holds sha256 keys
      (ops.foldl (fun entries op => Function.update entries op.key op.value) entries) := by
  induction ops generalizing smt entries with
  | nil => exact h
  | cons op ops ih =>
      obtain ⟨hop, hrest⟩ := List.forall_mem_cons.mp hops
      exact ih hrest (h.apply hindex hop)

/-- A run over keys with distinct indices holds the current values. -/
theorem Smt.holds_ofOps {keys : Set Bytes} (hindex : Set.InjOn (keyIndex sha256) keys)
    {ops : List Op} (hops : ∀ op ∈ ops, op.key ∈ keys) :
    (Smt.ofOps sha256 ops).Holds sha256 keys (currentValue ops) := by
  apply Smt.Holds.foldl hindex hops
  intro key _
  simp [Smt.new]

/-- A current value was left by an operation, and is not empty. -/
theorem currentValue_cases {ops : List Op} {key value : Bytes}
    (h : currentValue ops key = some value) :
    value ≠ [] ∧ ∃ op ∈ ops, op.key = key ∧ op.value = some value := by
  have horigin : ∃ op ∈ ops, op.key = key ∧ op.value = some value := by
    induction ops using List.reverseRecOn with
    | nil => simp [currentValue] at h
    | append_singleton ops op ih =>
        rw [currentValue, List.foldl_append, List.foldl_cons, List.foldl_nil] at h
        by_cases hkey : key = op.key
        · subst hkey
          rw [Function.update_self] at h
          exact ⟨op, by simp, rfl, h⟩
        · rw [Function.update_of_ne hkey] at h
          obtain ⟨earlier, hmem, hrest⟩ := ih h
          exact ⟨earlier, by simp [hmem], hrest⟩
  refine ⟨?_, horigin⟩
  obtain ⟨op, -, -, hvalue⟩ := horigin
  rintro rfl
  cases op <;> simp [Op.value] at hvalue

end StellarIbc.Core
