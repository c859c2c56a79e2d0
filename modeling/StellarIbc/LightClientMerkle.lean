import StellarIbc.LightClientTypes
import StellarIbc.SparseMerkle

/-!
# The light client's Merkle proofs

`contracts/cosmwasm/light-client/src/smt.rs` and `merkle.rs`: the contract's own copy of
the tree's hashing, and the ICS-23 messages it declares for the proofs it is given.  Its
`CommitmentProof` knows the fields 1 and 3 only.
-/

namespace StellarIbc.LightClient

open Protobuf

/-! ### Hashing -/

def HASH_SIZE : Nat := 32

def TREE_DEPTH : Nat := 64

def EMPTY : Hash := .fill 32 0

section

variable (sha256 : Bytes → Hash)

def keyIndex (key : Bytes) : UInt64 :=
  let h := sha256 key
  UInt64.ofNat (ofBeBytes (h.val.take 8))

def leafHash (keyHash valueHash : Hash) : Hash :=
  sha256 (0x00 :: keyHash.val ++ valueHash.val)

def innerHash (left right : Hash) : Hash :=
  if left = EMPTY ∧ right = EMPTY then EMPTY else sha256 (0x01 :: left.val ++ right.val)

/-- The loop over the siblings, with `subIdx` and `current` as its state. -/
def foldSiblings (subIdx : UInt64) (current : Hash) : List Hash → Hash
  | [] => current
  | sibling :: siblings =>
      let next :=
        if subIdx &&& 1 = 0 then innerHash sha256 current sibling
        else innerHash sha256 sibling current
      foldSiblings (subIdx >>> 1) next siblings

def verifyNonMembershipRaw (root : Hash) (key : Bytes) (siblings : List Hash) : Bool :=
  if siblings.length ≠ TREE_DEPTH then false
  else
    let idx := keyIndex sha256 key
    foldSiblings sha256 idx EMPTY siblings = root

/-- The hash of a pair of nodes that are not both empty. -/
def hashPair (left right : Hash) : Hash := sha256 (0x01 :: left.val ++ right.val)

end

theorem foldSiblings_eq (sha256 : Bytes → Hash) (idx : UInt64) (leaf : Hash)
    (siblings : List Hash) :
    foldSiblings sha256 idx leaf siblings =
      SparseMerkle.fold EMPTY (hashPair sha256) idx.toNat leaf siblings := by
  induction siblings generalizing idx leaf with
  | nil => rfl
  | cons sibling siblings ih =>
      have hinner : innerHash sha256 = SparseMerkle.inner EMPTY (hashPair sha256) := rfl
      rw [foldSiblings, SparseMerkle.fold, ih, toNat_shiftRight_one, SparseMerkle.parent]
      simp only [and_one_eq_zero_iff, hinner]

/-! ### Messages -/

structure LeafOp where
  hash : Int32
  prehashKey : Int32
  prehashValue : Int32
  length : Int32
  prefixBytes : Bytes
deriving DecidableEq, Inhabited, Repr

structure InnerOp where
  hash : Int32
  prefixBytes : Bytes
  suffix : Bytes
deriving DecidableEq, Inhabited, Repr

structure ExistenceProof where
  key : Bytes
  value : Bytes
  leaf : Option LeafOp
  path : List InnerOp
deriving DecidableEq, Inhabited, Repr

structure NonExistenceProof where
  key : Bytes
  left : Option ExistenceProof
  right : Option ExistenceProof
deriving DecidableEq, Inhabited, Repr

inductive Proof where
  | exist (proof : ExistenceProof)
  | nonexist (proof : NonExistenceProof)
deriving DecidableEq, Repr

structure CommitmentProof where
  proof : Option Proof
deriving DecidableEq, Inhabited, Repr

structure MerkleProof where
  proofs : List CommitmentProof
deriving DecidableEq, Inhabited, Repr

def LeafOp.merge : Merge LeafOp := fun _ op record =>
  match record.tag with
  | 1 => do return { op with hash := ← record.value.int32 }
  | 2 => do return { op with prehashKey := ← record.value.int32 }
  | 3 => do return { op with prehashValue := ← record.value.int32 }
  | 4 => do return { op with length := ← record.value.int32 }
  | 5 => do return { op with prefixBytes := ← record.value.bytes }
  | _ => some op

def InnerOp.merge : Merge InnerOp := fun _ op record =>
  match record.tag with
  | 1 => do return { op with hash := ← record.value.int32 }
  | 2 => do return { op with prefixBytes := ← record.value.bytes }
  | 3 => do return { op with suffix := ← record.value.bytes }
  | _ => some op

def ExistenceProof.merge : Merge ExistenceProof := fun depth proof record =>
  match record.tag with
  | 1 => do return { proof with key := ← record.value.bytes }
  | 2 => do return { proof with value := ← record.value.bytes }
  | 3 => do
      let leaf ← record.value.message LeafOp.merge depth (proof.leaf.getD default)
      return { proof with leaf := some leaf }
  | 4 => do
      let op ← record.value.message InnerOp.merge depth default
      return { proof with path := proof.path ++ [op] }
  | _ => some proof

def NonExistenceProof.merge : Merge NonExistenceProof := fun depth proof record =>
  match record.tag with
  | 1 => do return { proof with key := ← record.value.bytes }
  | 2 => do
      let left ← record.value.message ExistenceProof.merge depth (proof.left.getD default)
      return { proof with left := some left }
  | 3 => do
      let right ← record.value.message ExistenceProof.merge depth (proof.right.getD default)
      return { proof with right := some right }
  | _ => some proof

/-- A variant that is already there is merged into, another one is replaced. -/
def CommitmentProof.merge : Merge CommitmentProof := fun depth commitment record =>
  match record.tag with
  | 1 => do
      let current :=
        match commitment.proof with
        | some (.exist proof) => proof
        | _ => default
      return { proof := some (.exist (← record.value.message ExistenceProof.merge depth current)) }
  | 3 => do
      let current :=
        match commitment.proof with
        | some (.nonexist proof) => proof
        | _ => default
      return { proof := some (.nonexist
        (← record.value.message NonExistenceProof.merge depth current)) }
  | _ => some commitment

def MerkleProof.merge : Merge MerkleProof := fun depth merkle record =>
  match record.tag with
  | 1 => do
      let proof ← record.value.message CommitmentProof.merge depth default
      return { proofs := merkle.proofs ++ [proof] }
  | _ => some merkle

/-! ### Decoding -/

/-- `bytes.try_into()` for a 32-byte array. -/
def toHash (bytes : Bytes) : Option Hash :=
  if h : bytes.length = 32 then some ⟨bytes, h⟩ else none

def orError {α : Type} (error : ContractError) : Option α → Except ContractError α
  | some value => .ok value
  | none => .error error

def extractSibling (op : InnerOp) : Except ContractError Hash :=
  if op.suffix ≠ [] ∧ op.suffix.length = HASH_SIZE ∧ op.prefixBytes.length = 1 ∧
      op.prefixBytes[0]? = some 0x01 then
    orError .merkleVerificationFailed (toHash op.suffix)
  else if op.suffix = [] ∧ op.prefixBytes.length = 1 + HASH_SIZE ∧
      op.prefixBytes[0]? = some 0x01 then
    orError .merkleVerificationFailed (toHash (op.prefixBytes.drop 1))
  else
    .error .merkleVerificationFailed

def extractSiblings (ops : List InnerOp) : Except ContractError (List Hash) :=
  ops.mapM extractSibling

/-- The first commitment proof's variant. -/
def decodeProof (bytes : Bytes) : Except ContractError Proof := do
  let merkle ← orError (.invalidWire "MerkleProof") (decode MerkleProof.merge bytes)
  let first ← orError .merkleVerificationFailed merkle.proofs.head?
  orError .merkleVerificationFailed first.proof

def decodeMembershipProof (bytes : Bytes) :
    Except ContractError (Bytes × Bytes × List Hash) := do
  let existence ←
    match ← decodeProof bytes with
    | .exist proof => pure proof
    | .nonexist _ => throw .merkleVerificationFailed
  let siblings ← extractSiblings existence.path
  return (existence.key, existence.value, siblings)

def decodeNonMembershipProof (bytes : Bytes) : Except ContractError (Bytes × List Hash) := do
  let nonexist ←
    match ← decodeProof bytes with
    | .nonexist proof => pure proof
    | .exist _ => throw .merkleVerificationFailed
  let inner ← orError .merkleVerificationFailed nonexist.left
  if inner.value ≠ [] then
    throw .merkleVerificationFailed
  let siblings ← extractSiblings inner.path
  return (nonexist.key, siblings)

end StellarIbc.LightClient
