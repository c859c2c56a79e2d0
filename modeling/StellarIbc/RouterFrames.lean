import StellarIbc.Router

/-!
# Which contracts a call of the router reaches

The router changes nothing outside its own storage except by `invoke_contract`, and each
entrypoint makes calls of a few kinds only.  A view of the run that the router's storage,
hashes and events do not show in is kept by every call whose kinds of invocation keep it.
-/

namespace StellarIbc.Router

open Contract

variable {X : Type} {sha256 : Bytes → Hash} {env : Env X}

/-! ### Kinds of invocation -/

inductive InvocationKind where
  | client
  | proof
  | time
  | receive
  | settle
deriving DecidableEq

def Invocation.kind : Invocation → InvocationKind
  | .initialise .. | .checkForMisbehaviour .. | .updateStateOnMisbehaviour ..
  | .updateState .. => .client
  | .verifyMembership .. | .verifyNonMembership .. => .proof
  | .getTimestampAtHeight .. => .time
  | .onRecvPacket .. => .receive
  | .onAcknowledgementPacket .. | .onTimeoutPacket .. => .settle

/-- The kinds of invocation an entrypoint makes. -/
def Call.invokes : Call → List InvocationKind
  | .createClient .. | .updateClient .. => [.client]
  | .recvPacket .. => [.proof, .receive]
  | .acknowledgePacket .. => [.proof, .settle]
  | .timeoutPacket .. => [.time, .proof, .settle]
  | _ => []

/-- The client and the sequence of an event are those of the packet it carries: the
destination's client for a packet received, the source's for the others. -/
def Event.OfPacket : Event → Prop
  | .sendPacket c n packet | .ackPacket c n packet _ | .timeoutPacket c n packet =>
      c = packet.sourceClient ∧ n = packet.sequence
  | .recvPacket c n packet => c = packet.destClient ∧ n = packet.sequence
  | .writeAck .. => True

/-- The view shows nothing of the storage, the hashes and the events. -/
class SeesCalls {υ : Type} (view : Ctx X → υ) : Prop where
  storage : ∀ (ctx : Ctx X) (update : Storage → Storage),
    view { ctx with storage := update ctx.storage } = view ctx
  hashed : ∀ (ctx : Ctx X) data, view { ctx with log := ctx.log ++ [.hashed data] } = view ctx
  published : ∀ (ctx : Ctx X) event,
    view { ctx with log := ctx.log ++ [.published event] } = view ctx

/-- The same, except that an event may show when it is not of its packet. -/
class SeesEvents {υ : Type} (view : Ctx X → υ) : Prop where
  storage : ∀ (ctx : Ctx X) (update : Storage → Storage),
    view { ctx with storage := update ctx.storage } = view ctx
  hashed : ∀ (ctx : Ctx X) data, view { ctx with log := ctx.log ++ [.hashed data] } = view ctx
  published : ∀ (ctx : Ctx X) event, event.OfPacket →
    view { ctx with log := ctx.log ++ [.published event] } = view ctx

/-- The view shows nothing of the storage and the hashes. -/
class SeesPublished {υ : Type} (view : Ctx X → υ) : Prop where
  storage : ∀ (ctx : Ctx X) (update : Storage → Storage),
    view { ctx with storage := update ctx.storage } = view ctx
  hashed : ∀ (ctx : Ctx X) data, view { ctx with log := ctx.log ++ [.hashed data] } = view ctx

instance {υ : Type} {view : Ctx X → υ} [hsees : SeesCalls view] : SeesEvents view where
  storage := hsees.storage
  hashed := hsees.hashed
  published ctx event _ := hsees.published ctx event

instance {υ : Type} {view : Ctx X → υ} [hsees : SeesEvents view] : SeesPublished view where
  storage := hsees.storage
  hashed := hsees.hashed

/-- Invocations of the kind keep the view. -/
class KeepsKind {υ : Type} (view : Ctx X → υ) (env : Env X) (kind : InvocationKind) :
    Prop where
  keeps : ∀ callee (call : Invocation), call.kind = kind →
    Keeps view (invokeContract env callee call)

section

variable {υ : Type} {view : Ctx X → υ} {c : HostString} {n height : UInt64}
variable {callee : Address} {message proof path value : Bytes} {packet : Packet}

/-! ### Invocations -/

instance [hkind : KeepsKind view env .client] {clientState consensusState : Bytes} :
    Keeps view (invokeContract env callee (.initialise c clientState consensusState height)) :=
  hkind.keeps _ _ rfl

instance [hkind : KeepsKind view env .client] :
    Keeps view (invokeContract env callee (.checkForMisbehaviour c message)) :=
  hkind.keeps _ _ rfl

instance [hkind : KeepsKind view env .client] :
    Keeps view (invokeContract env callee (.updateStateOnMisbehaviour c message)) :=
  hkind.keeps _ _ rfl

instance [hkind : KeepsKind view env .client] :
    Keeps view (invokeContract env callee (.updateState c message)) :=
  hkind.keeps _ _ rfl

instance [hkind : KeepsKind view env .proof] :
    Keeps view (invokeContract env callee (.verifyMembership c height proof path value)) :=
  hkind.keeps _ _ rfl

instance [hkind : KeepsKind view env .proof] :
    Keeps view (invokeContract env callee (.verifyNonMembership c height proof path)) :=
  hkind.keeps _ _ rfl

instance [hkind : KeepsKind view env .time] :
    Keeps view (invokeContract env callee (.getTimestampAtHeight c height)) :=
  hkind.keeps _ _ rfl

instance [hkind : KeepsKind view env .receive] {callback : OnRecvPacketCallback} :
    Keeps view (invokeContract env callee (.onRecvPacket callback)) :=
  hkind.keeps _ _ rfl

instance [hkind : KeepsKind view env .settle] {callback : OnAcknowledgementPacketCallback} :
    Keeps view (invokeContract env callee (.onAcknowledgementPacket callback)) :=
  hkind.keeps _ _ rfl

instance [hkind : KeepsKind view env .settle] {callback : OnTimeoutPacketCallback} :
    Keeps view (invokeContract env callee (.onTimeoutPacket callback)) :=
  hkind.keeps _ _ rfl

/-! ### Storage and hashes -/

section

variable [hsees : SeesPublished view]

instance {update : Storage → Storage} : Keeps view (setStorage update) :=
  .modify fun ctx => hsees.storage ctx update

instance {data : Bytes} : Keeps view (sha256Bytes sha256 data) := by
  have hemit : Keeps view (emit (.hashed data)) := .modify fun ctx => hsees.hashed ctx data
  unfold sha256Bytes
  infer_instance

instance {text : HostString} : Keeps view (sha256String sha256 text) := by
  unfold sha256String
  infer_instance

instance {acks : List Bytes} {i : Nat} : Keeps view (ackAt sha256 acks i) := by
  unfold ackAt errorAckHash
  cases acks[i]? with
  | some ack => exact .pure ack
  | none => infer_instance

instance : Keeps view (commitV2Packet sha256 packet) := by
  unfold commitV2Packet commitPayload
  dsimp only
  infer_instance

instance {acks : List Bytes} : Keeps view (commitV2Acknowledgement sha256 acks) := by
  unfold commitV2Acknowledgement
  dsimp only
  infer_instance

instance : Keeps view (checkCommitted sha256 packet) := by
  unfold checkCommitted packetCommitment packetCommitmentPath
  infer_instance

instance {clientType : HostString} : Keeps view (mintClientId clientType) := by
  unfold mintClientId
  dsimp only
  infer_instance

instance {hash : Hash} : Keeps view (setPacketCommitment c n hash) := by
  unfold setPacketCommitment packetCommitmentPath
  infer_instance

instance : Keeps view (deletePacketCommitment c n) := by
  unfold deletePacketCommitment packetCommitmentPath
  infer_instance

instance : Keeps view (setPacketReceipt c n) := by
  unfold setPacketReceipt packetReceiptPath
  infer_instance

instance {hash : Hash} : Keeps view (setAckCommitment c n hash) := by
  unfold setAckCommitment ackCommitmentPath
  infer_instance

instance : Keeps view (bumpNextSeqSend c) := by
  unfold bumpNextSeqSend
  dsimp only
  infer_instance

/-! ### Questions and callbacks -/

instance [KeepsKind view env .proof] :
    Keeps view (verifyMembership env c height proof path value) := by
  unfold verifyMembership
  infer_instance

instance [KeepsKind view env .proof] :
    Keeps view (verifyNonMembership env c height proof path) := by
  unfold verifyNonMembership
  infer_instance

instance [KeepsKind view env .receive] : Keeps view (dispatchRecvCallbacks sha256 env packet) := by
  unfold dispatchRecvCallbacks onRecvPayload errorAckHash
  infer_instance

instance [KeepsKind view env .settle] {acks : List Bytes} :
    Keeps view (dispatchAckCallbacks sha256 env packet acks) := by
  unfold dispatchAckCallbacks onAckPayload
  infer_instance

instance [KeepsKind view env .settle] : Keeps view (dispatchTimeoutCallbacks env packet) := by
  unfold dispatchTimeoutCallbacks onTimeoutPayload
  infer_instance

/-! ### Entrypoints -/

instance [KeepsKind view env .client] {clientType : HostString}
    {clientState consensusState : Bytes} :
    Keeps view (createClient env clientType clientState consensusState height) := by
  unfold createClient
  infer_instance

set_option synthInstance.maxSize 1024 in
instance [KeepsKind view env .client] : Keeps view (updateClient env c message) := by
  unfold updateClient
  infer_instance

set_option synthInstance.maxSize 1024 in
instance [KeepsKind view env .proof] :
    Keeps view (recvChecks sha256 env packet proof height) := by
  unfold recvChecks hasPacketReceipt packetReceiptPath counterpartyPacketCommitmentPath
  infer_instance

instance [KeepsKind view env .proof] {acks : List Bytes} :
    Keeps view (ackChecks sha256 env packet acks proof height) := by
  unfold ackChecks counterpartyAckCommitmentPath
  infer_instance

instance [KeepsKind view env .time] [KeepsKind view env .proof] :
    Keeps view (timeoutChecks sha256 env packet proof height) := by
  unfold timeoutChecks counterpartyPacketReceiptPath
  infer_instance

/-- The calls that set nothing raw and take no packet publish no event. -/
theorem keeps_registry {call : Call} (hkind : call.kind = .registry)
    (hclient : .client ∈ call.invokes → KeepsKind view env .client) :
    Keeps view (call.exec sha256 env) := by
  cases call with
  | createClient clientType clientState consensusState height | updateClient c message =>
      have hkeeps := hclient List.mem_cons_self
      unfold Call.exec
      infer_instance
  | registerClientType clientType address =>
      unfold Call.exec registerClientType validateClientType
      infer_instance
  | registerCounterparty clientId counterpartyClientId chunks =>
      unfold Call.exec registerCounterparty validateCounterpartyClientId
      infer_instance
  | registerPort portId appAddress =>
      unfold Call.exec registerPort validatePortId
      infer_instance
  | lcAddress clientType | frozen clientId =>
      unfold Call.exec lcAddress frozen
      infer_instance
  | packetCommitment c n =>
      unfold Call.exec packetCommitment packetCommitmentPath
      infer_instance
  | hasPacketReceipt c n =>
      unfold Call.exec hasPacketReceipt packetReceiptPath
      infer_instance
  | acknowledgement c n =>
      unfold Call.exec acknowledgement ackCommitmentPath
      infer_instance
  | counterparty clientId | clientLcAddress clientId | portApp portId =>
      unfold Call.exec
      infer_instance
  | _ => cases hkind

end

/-! ### Events -/

section

variable [hsees : SeesEvents view]

theorem keeps_publish {event : Event} (hof : event.OfPacket) : Keeps view (publish event) :=
  .modify fun ctx => hsees.published ctx event hof

instance {dest : HostString} {timeout : UInt64} {payloads : List Payload} :
    Keeps view (publish (.sendPacket c n ⟨n, c, dest, timeout, payloads⟩)) :=
  keeps_publish ⟨rfl, rfl⟩

instance : Keeps view (publish (.recvPacket packet.destClient packet.sequence packet)) :=
  keeps_publish ⟨rfl, rfl⟩

instance {acks : List Bytes} : Keeps view (publish (.writeAck c n acks)) :=
  keeps_publish trivial

instance {acks : List Bytes} :
    Keeps view (publish (.ackPacket packet.sourceClient packet.sequence packet acks)) :=
  keeps_publish ⟨rfl, rfl⟩

instance : Keeps view (publish (.timeoutPacket packet.sourceClient packet.sequence packet)) :=
  keeps_publish ⟨rfl, rfl⟩

set_option synthInstance.maxSize 1024 in
instance {timeout : UInt64} {payloads : List Payload} :
    Keeps view (sendPacket sha256 env c timeout payloads) := by
  unfold sendPacket
  dsimp only
  infer_instance

set_option synthInstance.maxSize 1024 in
instance [KeepsKind view env .proof] [KeepsKind view env .receive] :
    Keeps view (recvPacket sha256 env packet proof height) := by
  rw [recvPacket_eq]
  infer_instance

instance [KeepsKind view env .proof] [KeepsKind view env .settle] {acks : List Bytes} :
    Keeps view (acknowledgePacket sha256 env packet acks proof height) := by
  unfold acknowledgePacket counterpartyAckCommitmentPath
  infer_instance

set_option synthInstance.maxSize 1024 in
instance [KeepsKind view env .time] [KeepsKind view env .proof] [KeepsKind view env .settle] :
    Keeps view (timeoutPacket sha256 env packet proof height) := by
  unfold timeoutPacket counterpartyPacketReceiptPath
  infer_instance

instance {acks : List Bytes} : Keeps view (writeAcknowledgement sha256 c n acks) := by
  unfold writeAcknowledgement hasPacketReceipt acknowledgement packetReceiptPath
    ackCommitmentPath
  infer_instance

/-- **What a call keeps** is what its kinds of invocation keep. -/
theorem keeps_exec {call : Call} (hkinds : ∀ kind ∈ call.invokes, KeepsKind view env kind) :
    Keeps view (call.exec sha256 env) := by
  cases call with
  | recvPacket packet proof height =>
      have hproof := hkinds .proof (by simp [Call.invokes])
      have hreceive := hkinds .receive (by simp [Call.invokes])
      unfold Call.exec
      infer_instance
  | acknowledgePacket packet acks proof height =>
      have hproof := hkinds .proof (by simp [Call.invokes])
      have hsettle := hkinds .settle (by simp [Call.invokes])
      unfold Call.exec
      infer_instance
  | timeoutPacket packet proof height =>
      have htime := hkinds .time (by simp [Call.invokes])
      have hproof := hkinds .proof (by simp [Call.invokes])
      have hsettle := hkinds .settle (by simp [Call.invokes])
      unfold Call.exec
      infer_instance
  | setPacketCommitment c n commitment | deletePacketCommitment c n | setPacketReceipt c n
  | setAckCommitment c n hash | sendPacket c timeout payloads
  | writeAcknowledgement c n acks =>
      unfold Call.exec
      infer_instance
  | _ => exact keeps_registry rfl (hkinds .client)

end

end

end StellarIbc.Router
