import StellarIbc.ServedProofs

/-!
# The ICS-23 path and the tree

A generic ICS-23 verifier knows nothing of the sparse Merkle tree: it replays the inner
operations of a proof one by one, each hashing the child between its two affixes.  The
path that the gateway writes spells out the fold over the siblings, up to the rule that a
pair of empty nodes is empty, which the replay lacks.  The rule never fires while no
string that is hashed maps to the empty hash.

The light client goes back from an operation to its sibling, and the side that the
operation puts it on is lost; the index gives it again.
-/

namespace StellarIbc.Ics23Path

open StellarIbc.Core

section

variable (sha256 : Bytes → Hash)

/-! ### Plain ICS-23 semantics -/

/-- The string that an inner operation hashes. -/
def innerInput (op : InnerOp) (child : Hash) : Bytes :=
  op.prefixBytes ++ child.val ++ op.suffix

def applyInnerOp (op : InnerOp) (child : Hash) : Option Hash :=
  if op.hash = SHA256 then some (sha256 (innerInput op child)) else none

def replay : List InnerOp → Hash → Option Hash
  | [], child => some child
  | op :: path, child => (applyInnerOp sha256 op child).bind (replay path)

/-- Every string that a replay of SHA-256 operations hashes. -/
def hashedInputs : List InnerOp → Hash → List Bytes
  | [], _ => []
  | op :: path, child =>
      innerInput op child :: hashedInputs path (sha256 (innerInput op child))

/-- The string that the leaf of a key and a value is the hash of. -/
def leafInput (key value : Bytes) : Bytes :=
  0x00 :: (sha256 key).val ++ (sha256 value).val

end

variable {sha256 : Bytes → Hash}

/-! ### One step of the path -/

theorem applyInnerOp_innerOpWithParity (sibling child : Hash) (isLeftChild : Bool) :
    applyInnerOp sha256 (innerOpWithParity sibling isLeftChild) child =
      some (sha256 (innerInput (innerOpWithParity sibling isLeftChild) child)) := by
  cases isLeftChild <;> rfl

/-- The affixes put the sibling on the other side of the child. -/
theorem innerInput_innerOpWithParity (sibling child : Hash) (isLeftChild : Bool) :
    innerInput (innerOpWithParity sibling isLeftChild) child =
      if isLeftChild then 0x01 :: child.val ++ sibling.val
      else 0x01 :: sibling.val ++ child.val := by
  cases isLeftChild with
  | true => simp [innerInput, innerOpWithParity]
  | false => simp [innerInput, innerOpWithParity]

theorem innerHash_of_left_ne {left right : Hash} (hleft : left ≠ EMPTY) :
    innerHash sha256 left right = sha256 (0x01 :: left.val ++ right.val) := by
  rw [innerHash, if_neg]
  rintro ⟨hempty, -⟩
  exact hleft hempty

theorem innerHash_of_right_ne {left right : Hash} (hright : right ≠ EMPTY) :
    innerHash sha256 left right = sha256 (0x01 :: left.val ++ right.val) := by
  rw [innerHash, if_neg]
  rintro ⟨-, hempty⟩
  exact hright hempty

/-- Next to a node that is not empty, the fold hashes what the operation hashes. -/
theorem foldStep_eq_sha256 (subIdx : UInt64) {current : Hash} (sibling : Hash)
    (hcurrent : current ≠ EMPTY) :
    (if subIdx &&& 1 = 0 then innerHash sha256 current sibling
      else innerHash sha256 sibling current) =
      sha256 (innerInput (innerOpWithParity sibling (subIdx &&& 1 = 0)) current) := by
  rw [innerInput_innerOpWithParity]
  by_cases hparity : subIdx &&& 1 = 0
  · rw [if_pos hparity, innerHash_of_left_ne hcurrent, if_pos (decide_eq_true hparity)]
  · rw [if_neg hparity, innerHash_of_right_ne hcurrent, if_neg (by simpa using hparity)]

/-! ### The whole path -/

/-- The node reached so far is not empty: it is the leaf or the hash of a string hashed
before. -/
theorem replay_pathWithIndex (subIdx : UInt64) {current : Hash} (siblings : List Hash)
    (hcurrent : current ≠ EMPTY)
    (hinputs : ∀ input ∈ hashedInputs sha256 (pathWithIndex subIdx siblings) current,
      sha256 input ≠ EMPTY) :
    replay sha256 (pathWithIndex subIdx siblings) current =
      some (foldSiblings sha256 subIdx current siblings) := by
  induction siblings generalizing subIdx current with
  | nil => rfl
  | cons sibling siblings ih =>
      rw [pathWithIndex, hashedInputs] at hinputs
      have hnext := hinputs _ List.mem_cons_self
      have hrest := fun input hinput => hinputs input (List.mem_cons_of_mem _ hinput)
      rw [pathWithIndex, replay, applyInnerOp_innerOpWithParity, Option.bind_some, foldSiblings,
        foldStep_eq_sha256 subIdx sibling hcurrent]
      exact ih (subIdx >>> 1) hnext hrest

/-- **The ICS-23 path spells out the fold.**  Replayed from the leaf of the key and the
value, the operations give the hash that the tree folds the siblings to, if neither the
leaf nor a string hashed on the way maps to the empty hash.  The light client reads the
sibling of an operation on either side, and the siblings it reads from a path encode, with
the same index, to that path. -/
theorem path_replays_fold (sha256 : Bytes → Hash) (key value : Bytes) (siblings : List Hash) :
    ((∀ input ∈ leafInput sha256 key value :: hashedInputs sha256
          (buildExistenceProofWithIndex key value siblings (keyIndex sha256 key)).path
          (leafHash sha256 (sha256 key) (sha256 value)), sha256 input ≠ EMPTY) →
      replay sha256 (buildExistenceProofWithIndex key value siblings (keyIndex sha256 key)).path
          (leafHash sha256 (sha256 key) (sha256 value)) =
        some (foldSiblings sha256 (keyIndex sha256 key)
          (leafHash sha256 (sha256 key) (sha256 value)) siblings)) ∧
    (∀ (sibling : Hash) (isLeftChild : Bool),
      LightClient.extractSibling (ServedProofs.readInnerOp
        (innerOpWithParity sibling isLeftChild)) = .ok sibling) ∧
    ∀ index : UInt64, ∃ decoded : List Hash,
      LightClient.extractSiblings ((buildExistenceProofWithIndex key value siblings
        index).path.map ServedProofs.readInnerOp) = .ok decoded ∧
      (buildExistenceProofWithIndex key value decoded index).path =
        (buildExistenceProofWithIndex key value siblings index).path := by
  refine ⟨?_, ServedProofs.extractSibling_innerOpWithParity, ?_⟩
  · intro hinputs
    have hleaf : leafHash sha256 (sha256 key) (sha256 value) ≠ EMPTY :=
      hinputs _ List.mem_cons_self
    apply replay_pathWithIndex (keyIndex sha256 key) siblings hleaf
    intro input hinput
    exact hinputs input (List.mem_cons_of_mem _ hinput)
  · intro index
    exact ⟨siblings, ServedProofs.extractSiblings_pathWithIndex index siblings, rfl⟩

/-- The leaf of the key `a` next to the hash of `b`, and twice next to nothing. -/
theorem path_replays_fold_sample :
    replay Sha256.sha256 (buildExistenceProofWithIndex [97] [1]
        [Sha256.sha256 [98], EMPTY, EMPTY] (keyIndex Sha256.sha256 [97])).path
        (leafHash Sha256.sha256 (Sha256.sha256 [97]) (Sha256.sha256 [1])) =
      some (foldSiblings Sha256.sha256 (keyIndex Sha256.sha256 [97])
        (leafHash Sha256.sha256 (Sha256.sha256 [97]) (Sha256.sha256 [1]))
        [Sha256.sha256 [98], EMPTY, EMPTY]) :=
  (path_replays_fold Sha256.sha256 [97] [1] [Sha256.sha256 [98], EMPTY, EMPTY]).1 (by
    rw [Sha256.sha256_eq_eval]
    decide +kernel)

end StellarIbc.Ics23Path
