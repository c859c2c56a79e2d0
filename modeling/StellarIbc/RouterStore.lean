import StellarIbc.RouterHost
import Mathlib.Tactic.Simps.Basic

/-!
# The provable store

The functions of `ibc_store.rs`: packet commitments, receipts and acknowledgement
commitments under their v2 path bytes.  Each reader and writer has one lemma that
says when it returns and what it leaves.  The rent extension of an entry's
time-to-live does not change what the store holds and is left out.
-/

namespace StellarIbc.Router

open Contract

variable {X : Type}

/-! ### Keys and lookups -/

/-- The three provable keys of `(client, sequence)`. -/
abbrev commitmentKey (clientId : HostString) (sequence : UInt64) : Bytes :=
  pathBytes clientId PACKET_COMMITMENT_DISCRIMINATOR sequence

abbrev receiptKey (clientId : HostString) (sequence : UInt64) : Bytes :=
  pathBytes clientId PACKET_RECEIPT_DISCRIMINATOR sequence

abbrev ackKey (clientId : HostString) (sequence : UInt64) : Bytes :=
  pathBytes clientId ACK_COMMITMENT_DISCRIMINATOR sequence

/-- Reading a stored byte string at type `BytesN<32>`; other lengths do not convert. -/
def toHash (bytes : Bytes) : Option Hash :=
  if h : bytes.length = 32 then some ⟨bytes, h⟩ else none

theorem toHash_eq_some {bytes : Bytes} {hash : Hash} :
    toHash bytes = some hash ↔ bytes = hash.val := by
  unfold toHash
  constructor
  · intro h
    split at h
    · cases h
      rfl
    · cases h
  · rintro rfl
    rw [dif_pos hash.property]

@[simps]
def Storage.write (s : Storage) (key value : Bytes) : Storage :=
  { s with provable := Function.update s.provable key (some value) }

@[simps]
def Storage.erase (s : Storage) (key : Bytes) : Storage :=
  { s with provable := Function.update s.provable key none }

/-- What is left after erasing an entry was there before. -/
theorem Storage.of_erase {s : Storage} {erased key value : Bytes}
    (h : (s.erase erased).provable key = some value) : s.provable key = some value := by
  rw [Storage.erase_provable] at h
  by_cases hkey : key = erased
  · rw [hkey, Function.update_self] at h
    cases h
  · rwa [Function.update_of_ne hkey] at h

/-- `storage.get::<Bytes, BytesN<32>>(&key)`. -/
def getHash (key : Bytes) : RouterM X (Option Hash) := do
  match (← storage).provable key with
  | none => return none
  | some bytes =>
      let hash ← orTrap (toHash bytes)
      return some hash

@[simp] theorem returns_getHash {key : Bytes} {pre post : Ctx X} {result : Option Hash} :
    Returns (getHash key) pre result post ↔
      pre.storage.provable key = result.map Subtype.val ∧ post = pre := by
  simp only [getHash, returns_bind, returns_storage]
  constructor
  · rintro ⟨s, middle, ⟨hs, hmiddle⟩, h⟩
    subst hs hmiddle
    cases hstored : middle.storage.provable key with
    | none =>
        simp only [hstored, returns_pure] at h
        obtain ⟨rfl, rfl⟩ := h
        exact ⟨rfl, rfl⟩
    | some bytes =>
        simp only [hstored, returns_bind, returns_orTrap, toHash_eq_some, returns_pure] at h
        obtain ⟨_, _, ⟨rfl, rfl⟩, rfl, rfl⟩ := h
        exact ⟨rfl, rfl⟩
  · rintro ⟨hstored, rfl⟩
    refine ⟨_, _, ⟨rfl, rfl⟩, ?_⟩
    cases result with
    | none => simp [hstored]
    | some hash =>
        simp only [hstored, Option.map_some, returns_bind, returns_orTrap, toHash_eq_some,
          returns_pure]
        exact ⟨hash, _, ⟨rfl, rfl⟩, rfl, rfl⟩

/-! ### The entrypoints of `ibc_store.rs` -/

def setPacketCommitment (sourceClientId : HostString) (sequence : UInt64)
    (commitment : Hash) : RouterM X Unit := do
  let key ← packetCommitmentPath sourceClientId sequence
  setStorage fun s => s.write key commitment.val

def packetCommitment (sourceClientId : HostString) (sequence : UInt64) :
    RouterM X (Option Hash) := do
  let key ← packetCommitmentPath sourceClientId sequence
  getHash key

def deletePacketCommitment (sourceClientId : HostString) (sequence : UInt64) :
    RouterM X Unit := do
  let key ← packetCommitmentPath sourceClientId sequence
  setStorage fun s => s.erase key

def setPacketReceipt (destClientId : HostString) (sequence : UInt64) : RouterM X Unit := do
  let key ← packetReceiptPath destClientId sequence
  setStorage fun s => s.write key [RECEIPT_SENTINEL]

def hasPacketReceipt (destClientId : HostString) (sequence : UInt64) :
    RouterM X Bool := do
  let key ← packetReceiptPath destClientId sequence
  return ((← storage).provable key).isSome

def setAckCommitment (destClientId : HostString) (sequence : UInt64) (ackHash : Hash) :
    RouterM X Unit := do
  let key ← ackCommitmentPath destClientId sequence
  setStorage fun s => s.write key ackHash.val

def acknowledgement (destClientId : HostString) (sequence : UInt64) :
    RouterM X (Option Hash) := do
  let key ← ackCommitmentPath destClientId sequence
  getHash key

variable {c : HostString} {n : UInt64} {pre post : Ctx X}

theorem returns_setPacketCommitment {commitment : Hash} {result : Unit}
    (h : Returns (setPacketCommitment c n commitment) pre result post) :
    post = { pre with storage := pre.storage.write (commitmentKey c n) commitment.val } := by
  simp only [setPacketCommitment, packetCommitmentPath, returns_bind, returns_v2PathKey,
    returns_setStorage] at h
  obtain ⟨_, _, ⟨-, rfl, rfl⟩, rfl⟩ := h
  rfl

theorem returns_packetCommitment {result : Option Hash}
    (h : Returns (packetCommitment c n) pre result post) :
    pre.storage.provable (commitmentKey c n) = result.map Subtype.val ∧ post = pre := by
  simp only [packetCommitment, packetCommitmentPath, returns_bind, returns_v2PathKey,
    returns_getHash] at h
  obtain ⟨_, _, ⟨-, rfl, rfl⟩, hstored, rfl⟩ := h
  exact ⟨hstored, rfl⟩

theorem returns_deletePacketCommitment {result : Unit}
    (h : Returns (deletePacketCommitment c n) pre result post) :
    post = { pre with storage := pre.storage.erase (commitmentKey c n) } := by
  simp only [deletePacketCommitment, packetCommitmentPath, returns_bind, returns_v2PathKey,
    returns_setStorage] at h
  obtain ⟨_, _, ⟨-, rfl, rfl⟩, rfl⟩ := h
  rfl

theorem returns_setPacketReceipt {result : Unit}
    (h : Returns (setPacketReceipt c n) pre result post) :
    post = { pre with storage := pre.storage.write (receiptKey c n) [RECEIPT_SENTINEL] } := by
  simp only [setPacketReceipt, packetReceiptPath, returns_bind, returns_v2PathKey,
    returns_setStorage] at h
  obtain ⟨_, _, ⟨-, rfl, rfl⟩, rfl⟩ := h
  rfl

theorem returns_hasPacketReceipt {result : Bool}
    (h : Returns (hasPacketReceipt c n) pre result post) :
    result = (pre.storage.provable (receiptKey c n)).isSome ∧ post = pre := by
  simp only [hasPacketReceipt, packetReceiptPath, returns_bind, returns_v2PathKey,
    returns_storage, returns_pure] at h
  obtain ⟨_, _, ⟨-, rfl, rfl⟩, _, _, ⟨rfl, rfl⟩, rfl, rfl⟩ := h
  exact ⟨rfl, rfl⟩

theorem returns_setAckCommitment {ackHash : Hash} {result : Unit}
    (h : Returns (setAckCommitment c n ackHash) pre result post) :
    post = { pre with storage := pre.storage.write (ackKey c n) ackHash.val } := by
  simp only [setAckCommitment, ackCommitmentPath, returns_bind, returns_v2PathKey,
    returns_setStorage] at h
  obtain ⟨_, _, ⟨-, rfl, rfl⟩, rfl⟩ := h
  rfl

theorem returns_acknowledgement {result : Option Hash}
    (h : Returns (acknowledgement c n) pre result post) :
    pre.storage.provable (ackKey c n) = result.map Subtype.val ∧ post = pre := by
  simp only [acknowledgement, ackCommitmentPath, returns_bind, returns_v2PathKey,
    returns_getHash] at h
  obtain ⟨_, _, ⟨-, rfl, rfl⟩, hstored, rfl⟩ := h
  exact ⟨hstored, rfl⟩

end StellarIbc.Router
