import StellarIbc.RouterSpecs
import StellarIbc.Sha256

/-!
# Paths and commitments off the chain

The functions of the core crate's `commitment.rs`, which the gateway and the relayer use
to recompute what the router stores.  They are written independently of `ics24_host.rs`:
vectors instead of host buffers, separate fields instead of a packet, and no length at
which they trap.  Where the router returns at all the two compute the same bytes, and the
bytes determine what was committed up to a collision of the hash.
-/

namespace StellarIbc.Core

variable (sha256 : Bytes → Hash)

def PACKET_COMMITMENT_DISCRIMINATOR : UInt8 := 0x01
def PACKET_RECEIPT_DISCRIMINATOR : UInt8 := 0x02
def ACK_COMMITMENT_DISCRIMINATOR : UInt8 := 0x03

def COMMITMENT_VERSION_PREFIX : UInt8 := 0x02

def v2Path (clientId : Bytes) (discriminator : UInt8) (sequence : UInt64) : Bytes :=
  clientId ++ [discriminator] ++ be64 sequence

def packetCommitmentPath (sourceClientId : Bytes) (sequence : UInt64) : Bytes :=
  v2Path sourceClientId PACKET_COMMITMENT_DISCRIMINATOR sequence

def packetReceiptPath (destClientId : Bytes) (sequence : UInt64) : Bytes :=
  v2Path destClientId PACKET_RECEIPT_DISCRIMINATOR sequence

def ackCommitmentPath (destClientId : Bytes) (sequence : UInt64) : Bytes :=
  v2Path destClientId ACK_COMMITMENT_DISCRIMINATOR sequence

/-- `version` and `encoding` are `&str` in the source and are given by their bytes. -/
def commitPayload (sourcePort destPort version encoding appData : Bytes) : Hash :=
  let buf := (sha256 sourcePort).val ++ (sha256 destPort).val ++ (sha256 version).val ++
    (sha256 encoding).val ++ (sha256 appData).val
  sha256 buf

def commitV2Packet (destClientId : Bytes) (timeoutTimestamp : UInt64)
    (payloadHashes : List Hash) : Hash :=
  let appBytes := payloadHashes.foldl (fun out hash => out ++ hash.val) []
  let timeoutBe := be64 timeoutTimestamp
  let buf := [COMMITMENT_VERSION_PREFIX] ++ (sha256 destClientId).val ++
    (sha256 timeoutBe).val ++ (sha256 appBytes).val
  sha256 buf

def commitV2Acknowledgement (appAcks : List Bytes) : Hash :=
  let concat := appAcks.foldl (fun out ack => out ++ (sha256 ack).val) []
  let buf := [COMMITMENT_VERSION_PREFIX] ++ concat
  sha256 buf

/-! ### The same bytes as the router's -/

theorem v2Path_eq (clientId : Bytes) (discriminator : UInt8) (sequence : UInt64) :
    v2Path clientId discriminator sequence =
      Router.pathBytes clientId discriminator sequence := by
  simp [v2Path, Router.pathBytes]

/-- The loops extend one buffer; the router's commitments are stated with `flatten`. -/
theorem foldl_append_eq_flatten {α : Type} (bytes : α → Bytes) (items : List α)
    (out : Bytes) :
    items.foldl (fun out item => out ++ bytes item) out =
      out ++ (items.map bytes).flatten := by
  induction items generalizing out with
  | nil => simp
  | cons item items ih => simp [ih]

variable {sha256}

theorem commitPayload_eq (payload : Payload) :
    commitPayload sha256 payload.sourcePort payload.destPort payload.version
      payload.encoding payload.value = Router.v2PayloadCommitment sha256 payload :=
  rfl

theorem commitV2Packet_eq (packet : Packet) :
    commitV2Packet sha256 packet.destClient packet.timeoutTimestamp
      (packet.payloads.map (Router.v2PayloadCommitment sha256)) =
        Router.v2PacketCommitment sha256 packet := by
  simp only [commitV2Packet, foldl_append_eq_flatten, List.nil_append]
  rfl

theorem commitV2Acknowledgement_eq (appAcks : List Bytes) :
    commitV2Acknowledgement sha256 appAcks = Router.v2AckCommitment sha256 appAcks := by
  simp only [commitV2Acknowledgement, foldl_append_eq_flatten, List.nil_append]
  simp [Router.v2AckCommitment, Router.ackPreimage, COMMITMENT_VERSION_PREFIX,
    Router.COMMITMENT_VERSION_PREFIX, Function.comp_def]

end StellarIbc.Core

namespace StellarIbc.Router

open Contract

variable {X : Type} {sha256 : Bytes → Hash}

/-- From every state `program` returns `value`; the storage and the other contracts stay
as they are. -/
def Computes {α : Type} (program : RouterM X α) (value : α) : Prop :=
  ∀ pre, ∃ post, Returns program pre value post ∧ post.storage = pre.storage ∧
    post.ext = pre.ext

/-- The router computes, for `packet` and `appAcks`, what core computes from their fields. -/
structure AgreesWithCore (X : Type) (sha256 : Bytes → Hash) (packet : Packet)
    (appAcks : List Bytes) : Prop where
  payloadHash : ∀ payload ∈ packet.payloads,
    @Computes X _ (commitPayload sha256 payload)
      (Core.commitPayload sha256 payload.sourcePort payload.destPort payload.version
        payload.encoding payload.value)
  packetHash : @Computes X _ (commitV2Packet sha256 packet)
    (Core.commitV2Packet sha256 packet.destClient packet.timeoutTimestamp
      (packet.payloads.map fun payload =>
        Core.commitPayload sha256 payload.sourcePort payload.destPort payload.version
          payload.encoding payload.value))
  ackHash : @Computes X _ (commitV2Acknowledgement sha256 appAcks)
    (Core.commitV2Acknowledgement sha256 appAcks)
  path : ∀ (clientId : HostString) discriminator sequence, clientId.length ≤ 119 →
    @Computes X _ (v2PathKey clientId discriminator sequence)
      (Core.v2Path clientId discriminator sequence)
  counterpartyPath :
    ∀ (clientId : HostString) discriminator sequence, clientId.length ≤ 119 →
      @Computes X _ (counterpartyV2Path [] clientId discriminator sequence)
        (Core.v2Path clientId discriminator sequence)

theorem computes_commitPayload {payload : Payload} (hfits : Payload.Fits payload) :
    @Computes X _ (commitPayload sha256 payload)
      (Core.commitPayload sha256 payload.sourcePort payload.destPort payload.version
        payload.encoding payload.value) := by
  intro pre
  exact ⟨_, returns_commitPayload.mpr ⟨hfits, Core.commitPayload_eq payload, rfl⟩, rfl, rfl⟩

theorem computes_v2PathKey (clientId : HostString) (discriminator : UInt8)
    (sequence : UInt64) (hfits : clientId.length ≤ 119) :
    @Computes X _ (v2PathKey clientId discriminator sequence)
      (Core.v2Path clientId discriminator sequence) := by
  intro pre
  have hbuffer : clientId.length + 9 ≤ 128 := by omega
  exact ⟨_, returns_v2PathKey.mpr ⟨hbuffer, Core.v2Path_eq _ _ _, rfl⟩, rfl, rfl⟩

theorem computes_counterpartyV2Path (clientId : HostString) (discriminator : UInt8)
    (sequence : UInt64) (hfits : clientId.length ≤ 119) :
    @Computes X _ (counterpartyV2Path [] clientId discriminator sequence)
      (Core.v2Path clientId discriminator sequence) := by
  intro pre
  have hbuffer : clientId.length + 9 ≤ 128 := by omega
  refine ⟨_, returns_counterpartyV2Path.mpr ⟨hbuffer, ?_, rfl⟩, rfl, rfl⟩
  rw [Core.v2Path_eq]
  rfl

/-- **One commitment on both sides.**  For every packet whose strings fit the buffers and
every list of acknowledgements the router and core compute the same bytes. -/
theorem agreesWithCore (X : Type) (sha256 : Bytes → Hash) {packet : Packet}
    (hpayloads : ∀ payload ∈ packet.payloads, Payload.Fits payload)
    (hdest : packet.destClient.length ≤ 119) (appAcks : List Bytes) :
    AgreesWithCore X sha256 packet appAcks where
  payloadHash := fun payload hmem => computes_commitPayload (hpayloads payload hmem)
  packetHash := by
    intro pre
    have hbuffer : packet.destClient.length ≤ 256 := by omega
    exact ⟨_, returns_commitV2Packet.mpr
      ⟨⟨hpayloads, hbuffer⟩, Core.commitV2Packet_eq packet, rfl⟩, rfl, rfl⟩
  ackHash := by
    intro pre
    exact ⟨_, returns_commitV2Acknowledgement.mpr
      ⟨Core.commitV2Acknowledgement_eq appAcks, rfl⟩, rfl, rfl⟩
  path := computes_v2PathKey
  counterpartyPath := computes_counterpartyV2Path

/-- Two payloads, one of them with an empty value. -/
def twoPayloads : Packet :=
  ⟨7, ascii "10-stellar-0", ascii "07-tendermint-3", 1700000000,
    [⟨ascii "transfer", ascii "transfer", ascii "ics20-1", ascii "json", [1, 2, 3]⟩,
     ⟨ascii "oracle", ascii "feed", ascii "v1", ascii "abi", []⟩]⟩

theorem agreesWithCore_twoPayloads :
    AgreesWithCore Unit Sha256.sha256 twoPayloads [[1], []] := by
  refine agreesWithCore Unit Sha256.sha256 ?_ ?_ _
  · simp [twoPayloads, Payload.Fits, ascii]
  · simp [twoPayloads, ascii]

/-! ### Binding -/

theorem packet_eq_or_collision {p q : Packet}
    (h : v2PacketCommitment sha256 p = v2PacketCommitment sha256 q) :
    (p.destClient = q.destClient ∧ p.timeoutTimestamp = q.timeoutTimestamp ∧
        p.payloads = q.payloads) ∨
      Collision sha256 { s | s ∈ packetStrings sha256 p ∨ s ∈ packetStrings sha256 q } := by
  by_cases hcollision :
      Collision sha256 { s | s ∈ packetStrings sha256 p ∨ s ∈ packetStrings sha256 q }
  · exact .inr hcollision
  · left
    exact v2PacketCommitment_binding (not_collision_iff_injOn.mp hcollision)
      (fun s hs => .inl hs) (fun s hs => .inr hs) h

theorem acks_eq_or_collision {left right : List Bytes}
    (h : v2AckCommitment sha256 left = v2AckCommitment sha256 right) :
    left = right ∨
      Collision sha256 { s | s ∈ ackStrings sha256 left ∨ s ∈ ackStrings sha256 right } := by
  by_cases hcollision :
      Collision sha256 { s | s ∈ ackStrings sha256 left ∨ s ∈ ackStrings sha256 right }
  · exact .inr hcollision
  · left
    exact v2AckCommitment_binding (not_collision_iff_injOn.mp hcollision)
      (fun s hs => .inl hs) (fun s hs => .inr hs) h

/-- **Commitments and paths are binding.**  The strings named are those each call hashed:
its log grew by exactly them. -/
theorem commitments_binding (X : Type) (sha256 : Bytes → Hash) :
    (∀ (p q : Packet) (pre post pre' post' : Ctx X) (hash : Hash),
      Returns (commitV2Packet sha256 p) pre hash post →
      Returns (commitV2Packet sha256 q) pre' hash post' →
      ∃ strings strings', post = pre.hashing strings ∧ post' = pre'.hashing strings' ∧
        ((p.destClient = q.destClient ∧ p.timeoutTimestamp = q.timeoutTimestamp ∧
            p.payloads = q.payloads) ∨
          Collision sha256 { s | s ∈ strings ∨ s ∈ strings' })) ∧
    (∀ (left right : List Bytes) (pre post pre' post' : Ctx X) (hash : Hash),
      Returns (commitV2Acknowledgement sha256 left) pre hash post →
      Returns (commitV2Acknowledgement sha256 right) pre' hash post' →
      ∃ strings strings', post = pre.hashing strings ∧ post' = pre'.hashing strings' ∧
        (left = right ∨ Collision sha256 { s | s ∈ strings ∨ s ∈ strings' })) ∧
    (∀ (c c' : HostString), c.length ≤ 119 → c'.length ≤ 119 →
      ∀ (d d' : UInt8) (n n' : UInt64) (pre pre' : Ctx X), ∃ path path',
        Returns (v2PathKey c d n) pre path pre ∧
        Returns (v2PathKey c' d' n') pre' path' pre' ∧
        (path = path' → c = c' ∧ d = d' ∧ n = n')) := by
  refine ⟨?_, ?_, ?_⟩
  · intro p q pre post pre' post' hash hp hq
    obtain ⟨-, hpcommit, rfl⟩ := returns_commitV2Packet.mp hp
    obtain ⟨-, hqcommit, rfl⟩ := returns_commitV2Packet.mp hq
    exact ⟨_, _, rfl, rfl, packet_eq_or_collision (hpcommit.symm.trans hqcommit)⟩
  · intro left right pre post pre' post' hash hleft hright
    obtain ⟨hleftCommit, rfl⟩ := returns_commitV2Acknowledgement.mp hleft
    obtain ⟨hrightCommit, rfl⟩ := returns_commitV2Acknowledgement.mp hright
    exact ⟨_, _, rfl, rfl, acks_eq_or_collision (hleftCommit.symm.trans hrightCommit)⟩
  · intro c c' hc hc' d d' n n' pre pre'
    have hfits : c.length + 9 ≤ 128 := by omega
    have hfits' : c'.length + 9 ≤ 128 := by omega
    exact ⟨_, _, returns_v2PathKey.mpr ⟨hfits, rfl, rfl⟩,
      returns_v2PathKey.mpr ⟨hfits', rfl, rfl⟩, pathBytes_injective⟩

end StellarIbc.Router
