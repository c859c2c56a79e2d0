import StellarIbc.CoreSmt
import StellarIbc.ProtobufWire

/-!
# The gateway's proofs

`crates/core/src/ibc/proof.rs`: a proof of the sparse Merkle tree written as an ICS-23
`MerkleProof`, and the lookup of `state.rs` that serves it.  The messages and their
field numbers are those of the `ics23` crate.
-/

namespace StellarIbc.Core

open Protobuf

/-! ### ICS-23 messages -/

/-- `HashOp::NoHash`. -/
def NO_HASH : Int32 := 0

/-- `HashOp::Sha256`. -/
def SHA256 : Int32 := 1

structure LeafOp where
  hash : Int32
  prehashKey : Int32
  prehashValue : Int32
  length : Int32
  prefixBytes : Bytes

structure InnerOp where
  hash : Int32
  prefixBytes : Bytes
  suffix : Bytes

structure ExistenceProof where
  key : Bytes
  value : Bytes
  leaf : Option LeafOp
  path : List InnerOp

structure NonExistenceProof where
  key : Bytes
  left : Option ExistenceProof
  right : Option ExistenceProof

inductive Proof where
  | exist (proof : ExistenceProof)
  | nonexist (proof : NonExistenceProof)

structure CommitmentProof where
  proof : Option Proof

structure MerkleProof where
  proofs : List CommitmentProof

def LeafOp.records (op : LeafOp) : List Record :=
  int32Record 1 op.hash ++
    (int32Record 2 op.prehashKey ++
      (int32Record 3 op.prehashValue ++
        (int32Record 4 op.length ++ bytesRecord 5 op.prefixBytes)))

def InnerOp.records (op : InnerOp) : List Record :=
  int32Record 1 op.hash ++ (bytesRecord 2 op.prefixBytes ++ bytesRecord 3 op.suffix)

def ExistenceProof.records (proof : ExistenceProof) : List Record :=
  bytesRecord 1 proof.key ++
    (bytesRecord 2 proof.value ++
      (optionalRecord 3 (proof.leaf.map LeafOp.records) ++
        proof.path.map fun op => messageRecord 4 op.records))

def NonExistenceProof.records (proof : NonExistenceProof) : List Record :=
  bytesRecord 1 proof.key ++
    (optionalRecord 2 (proof.left.map ExistenceProof.records) ++
      optionalRecord 3 (proof.right.map ExistenceProof.records))

def CommitmentProof.records (commitment : CommitmentProof) : List Record :=
  match commitment.proof with
  | some (.exist proof) => [messageRecord 1 proof.records]
  | some (.nonexist proof) => [messageRecord 2 proof.records]
  | none => []

def MerkleProof.encode (merkle : MerkleProof) : Bytes :=
  encodeRecords (merkle.proofs.map fun proof => messageRecord 1 proof.records)

/-! ### Serialising proofs -/

def innerOpWithParity (sibling : Hash) (isLeftChild : Bool) : InnerOp :=
  if isLeftChild then
    { hash := SHA256, prefixBytes := [0x01], suffix := sibling.val }
  else
    { hash := SHA256, prefixBytes := 0x01 :: sibling.val, suffix := [] }

/-- The loop over the siblings, with `subIdx` as its state. -/
def pathWithIndex (subIdx : UInt64) : List Hash → List InnerOp
  | [] => []
  | sibling :: siblings =>
      innerOpWithParity sibling (subIdx &&& 1 = 0) :: pathWithIndex (subIdx >>> 1) siblings

def buildExistenceProofWithIndex (key value : Bytes) (siblings : List Hash) (index : UInt64) :
    ExistenceProof :=
  { key
    value
    leaf := some
      { hash := SHA256
        prehashKey := NO_HASH
        prehashValue := NO_HASH
        length := 0
        prefixBytes := [] }
    path := pathWithIndex index siblings }

def serializeMembershipProofWithIndex (proof : MembershipProof) (key value : Bytes)
    (index : UInt64) : Bytes :=
  let existence := buildExistenceProofWithIndex key value proof.siblings index
  MerkleProof.encode { proofs := [{ proof := some (.exist existence) }] }

def serializeNonMembershipProofWithIndex (proof : NonMembershipProof) (key : Bytes)
    (index : UInt64) : Bytes :=
  let innerExistence := buildExistenceProofWithIndex key [] proof.siblings index
  let nonexist := { key, left := some innerExistence, right := none }
  MerkleProof.encode { proofs := [{ proof := some (.nonexist nonexist) }] }

/-! ### Serving proofs -/

inductive PathLookup where
  | found (valueHash : Hash) (proofBytes : Bytes)
  | absent (proofBytes : Bytes)

/-- `State::proof_for_path` once the tree is at the requested ledger; none is the error
that no non-membership proof is available. -/
def Smt.proofForPath (sha256 : Bytes → Hash) (smt : Smt) (key : Bytes) : Option PathLookup :=
  let index := keyIndex sha256 key
  match smt.generateMembershipProof sha256 key with
  | some proof =>
      let valueHash := proof.valueHash
      some (.found valueHash (serializeMembershipProofWithIndex proof key valueHash.val index))
  | none => do
      let proof ← smt.generateNonMembershipProof sha256 key
      some (.absent (serializeNonMembershipProofWithIndex proof key index))

theorem Smt.proofForPath_of_some {sha256 : Bytes → Hash} {smt : Smt} {key : Bytes}
    {proof : MembershipProof} (h : smt.generateMembershipProof sha256 key = some proof) :
    smt.proofForPath sha256 key =
      some (.found proof.valueHash (serializeMembershipProofWithIndex proof key
        proof.valueHash.val (keyIndex sha256 key))) := by
  rw [Smt.proofForPath, h]

end StellarIbc.Core
