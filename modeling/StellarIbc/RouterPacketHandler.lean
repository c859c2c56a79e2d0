import StellarIbc.RouterRegistry
import StellarIbc.RouterStore

/-!
# Packet lifecycle

The functions of `packet_handler.rs`: sending, receiving, acknowledging and timing
out a packet, the callbacks dispatched to the apps and the checks asked of the
light client.
-/

namespace StellarIbc.Router

open Contract

variable {X : Type} (sha256 : Bytes → Hash)

/-! ### Paths on the counterparty -/

/-- The registered prefix chunks, concatenated, in front of the v2 path. -/
def prefixedPath (commitmentPrefix : List Bytes) (path : Bytes) : Bytes :=
  commitmentPrefix.flatten ++ path

def counterpartyV2Path (commitmentPrefix : List Bytes) (clientId : HostString)
    (discriminator : UInt8) (sequence : UInt64) : RouterM X Bytes := do
  trapUnless (clientId.length + 9 ≤ 128)
  return prefixedPath commitmentPrefix (pathBytes clientId discriminator sequence)

def counterpartyPacketCommitmentPath (commitmentPrefix : List Bytes)
    (sourceClientId : HostString) (sequence : UInt64) : RouterM X Bytes :=
  counterpartyV2Path commitmentPrefix sourceClientId 0x01 sequence

def counterpartyPacketReceiptPath (commitmentPrefix : List Bytes)
    (destClientId : HostString) (sequence : UInt64) : RouterM X Bytes :=
  counterpartyV2Path commitmentPrefix destClientId 0x02 sequence

def counterpartyAckCommitmentPath (commitmentPrefix : List Bytes)
    (destClientId : HostString) (sequence : UInt64) : RouterM X Bytes :=
  counterpartyV2Path commitmentPrefix destClientId 0x03 sequence

/-! ### Questions to the light client -/

def verifyMembership (env : Env X) (clientId : HostString) (proofHeight : UInt64)
    (proof path value : Bytes) : RouterM X Unit := do
  let lcAddr ← unwrapOr (← clientLcAddress clientId) .clientIdNotFound
  let ok ← invokeContract env lcAddr
    (.verifyMembership clientId proofHeight proof path value)
  panicIf (ok = false) .membershipVerificationFailed

def verifyNonMembership (env : Env X) (clientId : HostString) (proofHeight : UInt64)
    (proof path : Bytes) : RouterM X Unit := do
  let lcAddr ← unwrapOr (← clientLcAddress clientId) .clientIdNotFound
  let ok ← invokeContract env lcAddr (.verifyNonMembership clientId proofHeight proof path)
  panicIf (ok = false) .nonMembershipVerificationFailed

/-! ### Callbacks -/

def recvCallback (packet : Packet) (payload : Payload) : OnRecvPacketCallback :=
  ⟨packet.sourceClient, packet.destClient, packet.sequence, payload⟩

def ackCallback (packet : Packet) (payload : Payload) (ack : Bytes) :
    OnAcknowledgementPacketCallback :=
  ⟨packet.sourceClient, packet.destClient, packet.sequence, payload, ack⟩

def timeoutCallback (packet : Packet) (payload : Payload) : OnTimeoutPacketCallback :=
  ⟨packet.sourceClient, packet.destClient, packet.sequence, payload⟩

/-- The body of the receive loop. -/
def onRecvPayload (env : Env X) (packet : Packet) (payload : Payload) :
    RouterM X Bytes := do
  let app ← unwrapOr (← portApp payload.destPort) .portNotRegistered
  invokeContract env app (.onRecvPacket (recvCallback packet payload))

def dispatchRecvCallbacks (env : Env X) (packet : Packet) : RouterM X (List Bytes) := do
  let acks ← packet.payloads.mapM (onRecvPayload env packet)
  if acks = [] then
    let errAck ← errorAckHash sha256
    return [errAck.val]
  else
    return acks

/-- `acks.get(i)`, or the error acknowledgement where the list is too short. -/
def ackAt (acks : List Bytes) (i : Nat) : RouterM X Bytes :=
  match acks[i]? with
  | some ack => pure ack
  | none => do
      let errAck ← errorAckHash sha256
      return errAck.val

/-- The body of the acknowledgement loop. -/
def onAckPayload (env : Env X) (packet : Packet) (acks : List Bytes)
    (item : Payload × Nat) : RouterM X Unit := do
  let ack ← ackAt sha256 acks item.2
  let app ← unwrapOr (← portApp item.1.sourcePort) .portNotRegistered
  invokeContract env app (.onAcknowledgementPacket (ackCallback packet item.1 ack))

def dispatchAckCallbacks (env : Env X) (packet : Packet) (acks : List Bytes) :
    RouterM X Unit :=
  packet.payloads.zipIdx.forM (onAckPayload sha256 env packet acks)

/-- The body of the timeout loop. -/
def onTimeoutPayload (env : Env X) (packet : Packet) (payload : Payload) :
    RouterM X Unit := do
  let app ← unwrapOr (← portApp payload.sourcePort) .portNotRegistered
  invokeContract env app (.onTimeoutPacket (timeoutCallback packet payload))

def dispatchTimeoutCallbacks (env : Env X) (packet : Packet) : RouterM X Unit :=
  packet.payloads.forM (onTimeoutPayload env packet)

/-! ### Entrypoints -/

/-- The authorisation `send_packet` asks for each payload. -/
def requirePortAuth (env : Env X) (payload : Payload) : RouterM X Unit := do
  let app ← unwrapOr (← portApp payload.sourcePort) .portNotRegistered
  requireAuth env app

@[simps]
def Storage.assignSequence (s : Storage) (clientId : HostString) (next : UInt64) : Storage :=
  { s with nextSeqSend := Function.update s.nextSeqSend clientId (some next) }

/-- `storage.get(&NextSeqSend(client)).unwrap_or(0) + 1`, stored and returned. -/
def bumpNextSeqSend (clientId : HostString) : RouterM X UInt64 := do
  let last := ((← storage).nextSeqSend clientId).getD 0
  trapUnless (last.toNat + 1 < 2 ^ 64)
  let next := last + 1
  setStorage fun s => s.assignSequence clientId next
  return next

def sendPacket (env : Env X) (sourceClientId : HostString) (timeoutTimestamp : UInt64)
    (payloads : List Payload) : RouterM X UInt64 := do
  panicIf (payloads = []) .payloadsEmpty
  let cp ← unwrapOr (← counterparty sourceClientId) .counterpartyNotRegistered
  panicIf (timeoutTimestamp ≤ env.timestamp) .timeoutAlreadyElapsed
  payloads.forM (requirePortAuth env)
  let next ← bumpNextSeqSend sourceClientId
  let packet : Packet := ⟨next, sourceClientId, cp.clientId, timeoutTimestamp, payloads⟩
  let hash ← commitV2Packet sha256 packet
  setPacketCommitment sourceClientId next hash
  publish (.sendPacket sourceClientId next packet)
  return next

def recvPacket (env : Env X) (packet : Packet) (proof : Bytes) (proofHeight : UInt64) :
    RouterM X Unit := do
  let cp ← unwrapOr (← counterparty packet.destClient) .counterpartyNotRegistered
  panicIf (cp.clientId ≠ packet.sourceClient) .packetCounterpartyMismatch
  panicIf (packet.timeoutTimestamp ≤ env.timestamp) .timeoutAlreadyElapsed
  let received ← hasPacketReceipt packet.destClient packet.sequence
  panicIf (received = true) .receiptAlreadyExists
  let expectedHash ← commitV2Packet sha256 packet
  let cpPath ← counterpartyPacketCommitmentPath cp.commitmentPrefix packet.sourceClient
    packet.sequence
  verifyMembership env packet.destClient proofHeight proof cpPath expectedHash.val
  setPacketReceipt packet.destClient packet.sequence
  let acks ← dispatchRecvCallbacks sha256 env packet
  let ackHash ← commitV2Acknowledgement sha256 acks
  setAckCommitment packet.destClient packet.sequence ackHash
  publish (.recvPacket packet.destClient packet.sequence packet)
  publish (.writeAck packet.destClient packet.sequence acks)

def writeAcknowledgement (destClientId : HostString) (sequence : UInt64)
    (acknowledgements : List Bytes) : RouterM X Unit := do
  let received ← hasPacketReceipt destClientId sequence
  panicIf (received = false) .noReceiptForSequence
  let stored ← acknowledgement destClientId sequence
  panicIf (stored ≠ none) .ackAlreadyExists
  let ackHash ← commitV2Acknowledgement sha256 acknowledgements
  setAckCommitment destClientId sequence ackHash
  publish (.writeAck destClientId sequence acknowledgements)

/-- The opening checks that `acknowledge_packet` and `timeout_packet` share: the
stored commitment is the packet's, and the destination is the counterparty. -/
def checkCommitted (packet : Packet) : RouterM X Counterparty := do
  let stored ← unwrapOr (← packetCommitment packet.sourceClient packet.sequence)
    .noCommitmentForSequence
  let expectedHash ← commitV2Packet sha256 packet
  panicIf (stored ≠ expectedHash) .commitmentMismatch
  let cp ← unwrapOr (← counterparty packet.sourceClient) .counterpartyNotRegistered
  panicIf (cp.clientId ≠ packet.destClient) .packetCounterpartyMismatch
  return cp

def acknowledgePacket (env : Env X) (packet : Packet) (acknowledgements : List Bytes)
    (proof : Bytes) (proofHeight : UInt64) : RouterM X Unit := do
  let cp ← checkCommitted sha256 packet
  let ackHash ← commitV2Acknowledgement sha256 acknowledgements
  let cpPath ← counterpartyAckCommitmentPath cp.commitmentPrefix packet.destClient
    packet.sequence
  verifyMembership env packet.sourceClient proofHeight proof cpPath ackHash.val
  dispatchAckCallbacks sha256 env packet acknowledgements
  deletePacketCommitment packet.sourceClient packet.sequence
  publish (.ackPacket packet.sourceClient packet.sequence packet acknowledgements)

def timeoutPacket (env : Env X) (packet : Packet) (proof : Bytes) (proofHeight : UInt64) :
    RouterM X Unit := do
  let cp ← checkCommitted sha256 packet
  let lcAddr ← unwrapOr (← clientLcAddress packet.sourceClient) .clientIdNotFound
  let proofTs ← invokeContract env lcAddr
    (.getTimestampAtHeight packet.sourceClient proofHeight)
  panicIf (proofTs ≤ packet.timeoutTimestamp) .timeoutNotYetElapsed
  let cpPath ← counterpartyPacketReceiptPath cp.commitmentPrefix packet.destClient
    packet.sequence
  verifyNonMembership env packet.sourceClient proofHeight proof cpPath
  dispatchTimeoutCallbacks env packet
  deletePacketCommitment packet.sourceClient packet.sequence
  publish (.timeoutPacket packet.sourceClient packet.sequence packet)

end StellarIbc.Router
