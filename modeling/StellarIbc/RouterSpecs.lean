import StellarIbc.RouterPacketHandler

/-!
# What a successful lifecycle call established

One lemma for each function of `packet_handler.rs`: the guards that held, the
storage it left, and the calls and strings its record holds.  Everything after
this module reasons from these lemmas and opens no entrypoint again.
-/

namespace StellarIbc.Router

open Contract

variable {X : Type} {sha256 : Bytes → Hash}

/-! ### Reading a record -/

/-- The strings hashed, in order. -/
def hashedStrings (log : List Effect) : List Bytes :=
  log.filterMap fun
    | .hashed data => some data
    | _ => none

/-- The receive callbacks made: callee, argument and the bytes it returned. -/
def recvCalls (log : List Effect) : List (Option Address × OnRecvPacketCallback × Bytes) :=
  log.filterMap fun
    | .invoked callee (.onRecvPacket callback) result => some (some callee, callback, result)
    | _ => none

/-- The acknowledgement callbacks made: callee and argument. -/
def ackCalls (log : List Effect) : List (Option Address × OnAcknowledgementPacketCallback) :=
  log.filterMap fun
    | .invoked callee (.onAcknowledgementPacket callback) _ => some (some callee, callback)
    | _ => none

/-- The timeout callbacks made: callee and argument. -/
def timeoutCalls (log : List Effect) : List (Option Address × OnTimeoutPacketCallback) :=
  log.filterMap fun
    | .invoked callee (.onTimeoutPacket callback) _ => some (some callee, callback)
    | _ => none

/-- The proofs asked about: the light client asked and the client id. -/
def proofCalls (log : List Effect) : List (Address × HostString) :=
  log.filterMap fun
    | .invoked callee (.verifyMembership c _ _ _ _) _ => some (callee, c)
    | .invoked callee (.verifyNonMembership c _ _ _) _ => some (callee, c)
    | _ => none

/-- The packets announced by `SendPacket` events. -/
def sentPackets (log : List Effect) : List Packet :=
  log.filterMap fun
    | .published (.sendPacket _ _ packet) => some packet
    | _ => none

variable (first second log : List Effect) (strings : List Bytes) (event : Event)

@[simp] theorem hashedStrings_append :
    hashedStrings (first ++ second) = hashedStrings first ++ hashedStrings second := by
  simp [hashedStrings]

@[simp] theorem recvCalls_append :
    recvCalls (first ++ second) = recvCalls first ++ recvCalls second := by
  simp [recvCalls]

@[simp] theorem ackCalls_append :
    ackCalls (first ++ second) = ackCalls first ++ ackCalls second := by
  simp [ackCalls]

@[simp] theorem timeoutCalls_append :
    timeoutCalls (first ++ second) = timeoutCalls first ++ timeoutCalls second := by
  simp [timeoutCalls]

@[simp] theorem proofCalls_append :
    proofCalls (first ++ second) = proofCalls first ++ proofCalls second := by
  simp [proofCalls]

@[simp] theorem sentPackets_append :
    sentPackets (first ++ second) = sentPackets first ++ sentPackets second := by
  simp [sentPackets]

@[simp] theorem hashedStrings_hashed :
    hashedStrings (strings.map .hashed) = strings := by
  rw [hashedStrings, List.filterMap_map]
  exact List.filterMap_some

@[simp] theorem recvCalls_hashed : recvCalls (strings.map .hashed) = [] := by
  simp [recvCalls]

@[simp] theorem ackCalls_hashed : ackCalls (strings.map .hashed) = [] := by
  simp [ackCalls]

@[simp] theorem timeoutCalls_hashed : timeoutCalls (strings.map .hashed) = [] := by
  simp [timeoutCalls]

@[simp] theorem proofCalls_hashed : proofCalls (strings.map .hashed) = [] := by
  simp [proofCalls]

@[simp] theorem sentPackets_hashed : sentPackets (strings.map .hashed) = [] := by
  simp [sentPackets]

variable {env : Env X} {packet : Packet} {acks : List Bytes} {pre post : Ctx X}

/-! ### Questions to the light client -/

theorem returns_counterpartyV2Path {commitmentPrefix : List Bytes} {c : HostString}
    {d : UInt8} {n : UInt64} {path : Bytes} :
    Returns (counterpartyV2Path commitmentPrefix c d n) pre path post ↔
      c.length + 9 ≤ 128 ∧ path = prefixedPath commitmentPrefix (pathBytes c d n) ∧
        post = pre := by
  simp only [counterpartyV2Path, returns_bind, returns_trapUnless, returns_pure]
  constructor
  · rintro ⟨_, _, ⟨hfits, rfl⟩, rfl, rfl⟩
    exact ⟨hfits, rfl, rfl⟩
  · rintro ⟨hfits, rfl, rfl⟩
    exact ⟨(), _, ⟨hfits, rfl⟩, rfl, rfl⟩

theorem returns_verifyMembership {c : HostString} {height : UInt64}
    {proof path value : Bytes} {result : Unit}
    (h : Returns (verifyMembership env c height proof path value) pre result post) :
    ∃ lcAddr ext, pre.storage.clientLcAddr c = some lcAddr ∧
      env.invoke lcAddr (.verifyMembership c height proof path value) pre.ext = some (true, ext) ∧
      post = ⟨pre.storage, ext,
        pre.log ++ [.invoked lcAddr (.verifyMembership c height proof path value) true]⟩ := by
  simp only [verifyMembership, clientLcAddress, returns_bind, returns_storage, returns_pure,
    returns_unwrapOr, returns_panicIf, Bool.not_eq_false] at h
  obtain ⟨_, _, ⟨_, _, ⟨rfl, rfl⟩, rfl, rfl⟩, lcAddr, _, ⟨hlc, rfl⟩, _, _, hcall, rfl,
    rfl⟩ := h
  obtain ⟨ext, hinvoke, rfl⟩ := returns_invokeContract.mp hcall
  exact ⟨lcAddr, ext, hlc, hinvoke, rfl⟩

theorem returns_verifyNonMembership {c : HostString} {height : UInt64}
    {proof path : Bytes} {result : Unit}
    (h : Returns (verifyNonMembership env c height proof path) pre result post) :
    ∃ lcAddr ext, pre.storage.clientLcAddr c = some lcAddr ∧
      env.invoke lcAddr (.verifyNonMembership c height proof path) pre.ext = some (true, ext) ∧
      post = ⟨pre.storage, ext,
        pre.log ++ [.invoked lcAddr (.verifyNonMembership c height proof path) true]⟩ := by
  simp only [verifyNonMembership, clientLcAddress, returns_bind, returns_storage,
    returns_pure, returns_unwrapOr, returns_panicIf, Bool.not_eq_false] at h
  obtain ⟨_, _, ⟨_, _, ⟨rfl, rfl⟩, rfl, rfl⟩, lcAddr, _, ⟨hlc, rfl⟩, _, _, hcall, rfl,
    rfl⟩ := h
  obtain ⟨ext, hinvoke, rfl⟩ := returns_invokeContract.mp hcall
  exact ⟨lcAddr, ext, hlc, hinvoke, rfl⟩

/-! ### Dispatch loops

Each loop leaves the storage alone and records one call per payload, in order.  The
storage stays the same through the loop, so every port is looked up in the one the
loop started with. -/

theorem returns_recvLoop {payloads : List Payload}
    (h : Returns (payloads.mapM (onRecvPayload env packet)) pre acks post) :
    post.storage = pre.storage ∧ acks.length = payloads.length ∧
      ∃ calls, post.log = pre.log ++ calls ∧ hashedStrings calls = [] ∧
        recvCalls calls = (payloads.zip acks).map fun item =>
          (pre.storage.port item.1.destPort, recvCallback packet item.1, item.2) := by
  induction payloads generalizing pre acks with
  | nil =>
      simp only [List.mapM_nil, returns_pure] at h
      obtain ⟨rfl, rfl⟩ := h
      exact ⟨rfl, rfl, [], by simp [hashedStrings, recvCalls]⟩
  | cons payload payloads ih =>
      simp only [List.mapM_cons, onRecvPayload, portApp, returns_bind, returns_storage,
        returns_pure, returns_unwrapOr] at h
      obtain ⟨ack, _, ⟨_, _, ⟨_, _, ⟨rfl, rfl⟩, rfl, rfl⟩, app, _, ⟨happ, rfl⟩, hcall⟩,
        rest, _, hrest, rfl, rfl⟩ := h
      obtain ⟨ext, -, rfl⟩ := returns_invokeContract.mp hcall
      obtain ⟨hstorage, hlength, calls, hlog, hhashed, hcalls⟩ := ih hrest
      refine ⟨hstorage, by simpa using hlength,
        .invoked app (.onRecvPacket (recvCallback packet payload)) ack :: calls, ?_, ?_, ?_⟩
      · rw [hlog, List.append_assoc, List.singleton_append]
      · simpa [hashedStrings] using hhashed
      · simp only [recvCalls] at hcalls
        simp [recvCalls, hcalls, happ]

/-- The list `dispatchRecvCallbacks` returns for the results `acks` of the apps. -/
def returnedAcks (sha256 : Bytes → Hash) (acks : List Bytes) : List Bytes :=
  if acks = [] then [(sha256 ERROR_ACK_PREIMAGE).val] else acks

theorem returns_dispatchRecvCallbacks {result : List Bytes}
    (h : Returns (dispatchRecvCallbacks sha256 env packet) pre result post) :
    post.storage = pre.storage ∧ ∃ acks, result = returnedAcks sha256 acks ∧
      acks.length = packet.payloads.length ∧ ∃ calls, post.log = pre.log ++ calls ∧
        recvCalls calls = (packet.payloads.zip acks).map fun item =>
          (pre.storage.port item.1.destPort, recvCallback packet item.1, item.2) := by
  simp only [dispatchRecvCallbacks, errorAckHash, returns_bind, returns_ite,
    returns_sha256Bytes, returns_pure] at h
  obtain ⟨acks, middle, hloop, htail⟩ := h
  obtain ⟨hstorage, hlength, calls, hlog, -, hcalls⟩ := returns_recvLoop hloop
  rcases htail with ⟨hempty, _, _, ⟨rfl, rfl⟩, rfl, rfl⟩ | ⟨hne, rfl, rfl⟩
  · refine ⟨hstorage, acks, (if_pos hempty).symm, hlength,
      calls ++ [.hashed ERROR_ACK_PREIMAGE], ?_, ?_⟩
    · simp [hlog]
    · rw [recvCalls_append, hcalls]
      simp [recvCalls]
  · exact ⟨hstorage, _, (if_neg hne).symm, hlength, calls, hlog, hcalls⟩

/-- The acknowledgement given to the app of payload `i`. -/
def ackOrError (sha256 : Bytes → Hash) (acks : List Bytes) (i : Nat) : Bytes :=
  acks[i]?.getD (sha256 ERROR_ACK_PREIMAGE).val

theorem returns_ackAt {i : Nat} {ack : Bytes}
    (h : Returns (ackAt sha256 acks i) pre ack post) :
    ack = ackOrError sha256 acks i ∧ ∃ strings, post = pre.hashing strings := by
  unfold ackAt at h
  unfold ackOrError
  cases hget : acks[i]? with
  | some found =>
      simp only [hget, returns_pure] at h
      exact ⟨h.1, [], by simp [h.2]⟩
  | none =>
      simp only [hget, errorAckHash, returns_bind, returns_sha256Bytes, returns_pure] at h
      obtain ⟨_, _, ⟨rfl, rfl⟩, rfl, rfl⟩ := h
      exact ⟨rfl, _, rfl⟩

theorem returns_ackLoop {items : List (Payload × Nat)} {result : PUnit}
    (h : Returns (items.forM (onAckPayload sha256 env packet acks)) pre result post) :
    post.storage = pre.storage ∧ ∃ calls, post.log = pre.log ++ calls ∧
      ackCalls calls = items.map fun item =>
        (pre.storage.port item.1.sourcePort,
          ackCallback packet item.1 (ackOrError sha256 acks item.2)) := by
  induction items generalizing pre with
  | nil =>
      simp only [List.forM_eq_forM, List.forM_nil, returns_pure] at h
      obtain ⟨-, rfl⟩ := h
      exact ⟨rfl, [], by simp [ackCalls]⟩
  | cons item items ih =>
      simp only [List.forM_eq_forM, List.forM_cons, onAckPayload, portApp, returns_bind,
        returns_storage, returns_pure, returns_unwrapOr] at h
      obtain ⟨_, _, ⟨ack, _, hack, _, _, ⟨_, _, ⟨rfl, rfl⟩, rfl, rfl⟩, app, _, ⟨happ, rfl⟩,
        hcall⟩, hrest⟩ := h
      obtain ⟨ext, -, rfl⟩ := returns_invokeContract.mp hcall
      obtain ⟨rfl, strings, rfl⟩ := returns_ackAt hack
      obtain ⟨hstorage, calls, hlog, hcalls⟩ := ih hrest
      refine ⟨hstorage, strings.map .hashed ++ (.invoked app (.onAcknowledgementPacket
        (ackCallback packet item.1 (ackOrError sha256 acks item.2))) () :: calls), ?_, ?_⟩
      · simp [hlog]
      · have hport : pre.storage.port item.1.sourcePort = some app := happ
        rw [ackCalls_append, ackCalls_hashed, List.nil_append, List.map_cons, hport]
        simp only [ackCalls] at hcalls
        simp [ackCalls, hcalls]

theorem returns_timeoutLoop {payloads : List Payload} {result : PUnit}
    (h : Returns (payloads.forM (onTimeoutPayload env packet)) pre result post) :
    post.storage = pre.storage ∧ ∃ calls, post.log = pre.log ++ calls ∧
      timeoutCalls calls = payloads.map fun payload =>
        (pre.storage.port payload.sourcePort, timeoutCallback packet payload) := by
  induction payloads generalizing pre with
  | nil =>
      simp only [List.forM_eq_forM, List.forM_nil, returns_pure] at h
      obtain ⟨-, rfl⟩ := h
      exact ⟨rfl, [], by simp [timeoutCalls]⟩
  | cons payload payloads ih =>
      simp only [List.forM_eq_forM, List.forM_cons, onTimeoutPayload, portApp, returns_bind,
        returns_storage, returns_pure, returns_unwrapOr] at h
      obtain ⟨_, _, ⟨_, _, ⟨_, _, ⟨rfl, rfl⟩, rfl, rfl⟩, app, _, ⟨happ, rfl⟩, hcall⟩,
        hrest⟩ := h
      obtain ⟨ext, -, rfl⟩ := returns_invokeContract.mp hcall
      obtain ⟨hstorage, calls, hlog, hcalls⟩ := ih hrest
      refine ⟨hstorage,
        .invoked app (.onTimeoutPacket (timeoutCallback packet payload)) () :: calls, ?_, ?_⟩
      · rw [hlog, List.append_assoc, List.singleton_append]
      · simp only [timeoutCalls] at hcalls
        simp [timeoutCalls, hcalls, happ]

/-! ### `send_packet` -/

theorem returns_requirePortAuth {payloads : List Payload} {result : PUnit}
    (h : Returns (payloads.forM (requirePortAuth env)) pre result post) :
    post = pre ∧ ∀ payload ∈ payloads, ∃ app,
      pre.storage.port payload.sourcePort = some app ∧ env.authorized app = true := by
  induction payloads generalizing pre with
  | nil =>
      simp only [List.forM_eq_forM, List.forM_nil, returns_pure] at h
      exact ⟨h.2, by simp⟩
  | cons payload payloads ih =>
      simp only [List.forM_eq_forM, List.forM_cons, requirePortAuth, portApp, returns_bind,
        returns_storage, returns_pure, returns_unwrapOr, returns_requireAuth] at h
      obtain ⟨_, _, ⟨_, _, ⟨_, _, ⟨rfl, rfl⟩, rfl, rfl⟩, app, _, ⟨happ, rfl⟩, hauth, rfl⟩,
        hrest⟩ := h
      obtain ⟨rfl, hauths⟩ := ih hrest
      exact ⟨rfl, List.forall_mem_cons.mpr ⟨⟨app, happ, hauth⟩, hauths⟩⟩

theorem returns_bumpNextSeqSend {c : HostString} {next : UInt64}
    (h : Returns (bumpNextSeqSend c) pre next post) :
    next.toNat = ((pre.storage.nextSeqSend c).getD 0).toNat + 1 ∧
      post = { pre with storage := pre.storage.assignSequence c next } := by
  simp only [bumpNextSeqSend, returns_bind, returns_storage, returns_trapUnless,
    returns_setStorage, returns_pure] at h
  obtain ⟨_, _, ⟨rfl, rfl⟩, _, _, ⟨hfits, rfl⟩, _, _, rfl, rfl, rfl⟩ := h
  refine ⟨?_, rfl⟩
  rw [UInt64.toNat_add]
  exact Nat.mod_eq_of_lt hfits

/-- A successful send of `packet`. -/
structure SendSpec (sha256 : Bytes → Hash) (env : Env X) (packet : Packet)
    (pre post : Ctx X) : Prop where
  nonempty : packet.payloads ≠ []
  counterparty : ∃ cp, pre.storage.counterparty packet.sourceClient = some cp ∧
    cp.clientId = packet.destClient
  notElapsed : env.timestamp < packet.timeoutTimestamp
  authorised : ∀ payload ∈ packet.payloads, ∃ app,
    pre.storage.port payload.sourcePort = some app ∧ env.authorized app = true
  sequence : packet.sequence.toNat =
    ((pre.storage.nextSeqSend packet.sourceClient).getD 0).toNat + 1
  storage : post.storage =
    (pre.storage.assignSequence packet.sourceClient packet.sequence).write
      (commitmentKey packet.sourceClient packet.sequence)
      (v2PacketCommitment sha256 packet).val
  sent : sentPackets post.log = sentPackets pre.log ++ [packet]
  hashed : ∀ s ∈ packetStrings sha256 packet, s ∈ hashedStrings post.log

theorem returns_sendPacket {c : HostString} {timeout : UInt64} {payloads : List Payload}
    {sequence : UInt64}
    (h : Returns (sendPacket sha256 env c timeout payloads) pre sequence post) :
    ∃ dest, SendSpec sha256 env ⟨sequence, c, dest, timeout, payloads⟩ pre post := by
  simp only [sendPacket, Router.counterparty, returns_bind, returns_panicIf,
    returns_storage, returns_pure, returns_unwrapOr, returns_publish, UInt64.not_le] at h
  obtain ⟨_, _, ⟨hne, rfl⟩, _, _, ⟨_, _, ⟨rfl, rfl⟩, rfl, rfl⟩, cp, _, ⟨hcp, rfl⟩, _, _,
    ⟨htime, rfl⟩, _, _, hauth, next, _, hnext, hash, _, hcommit, _, _, hset, _, _, rfl, rfl,
    rfl⟩ := h
  obtain ⟨rfl, hauths⟩ := returns_requirePortAuth hauth
  obtain ⟨hseq, rfl⟩ := returns_bumpNextSeqSend hnext
  obtain ⟨-, rfl, rfl⟩ := returns_commitV2Packet.mp hcommit
  obtain rfl := returns_setPacketCommitment hset
  refine ⟨cp.clientId, hne, ⟨cp, hcp, rfl⟩, htime, hauths, hseq, rfl, ?_, ?_⟩
  · simp only [Ctx.hashing_log, sentPackets_append, sentPackets_hashed]
    simp [sentPackets]
  intro s hs
  simp only [Ctx.hashing_log, hashedStrings_append, hashedStrings_hashed, List.mem_append]
  exact .inl (.inr hs)

/-! ### `recv_packet` and `write_acknowledgement` -/

/-- A successful receive of `packet`, to which the apps answered `acks`. -/
structure RecvSpec (sha256 : Bytes → Hash) (env : Env X) (packet : Packet) (proof : Bytes)
    (height : UInt64) (cp : Counterparty) (acks : List Bytes) (pre post : Ctx X) : Prop where
  counterparty : pre.storage.counterparty packet.destClient = some cp
  source : cp.clientId = packet.sourceClient
  notElapsed : env.timestamp < packet.timeoutTimestamp
  fresh : pre.storage.provable (receiptKey packet.destClient packet.sequence) = none
  proved : ∃ lcAddr ext, pre.storage.clientLcAddr packet.destClient = some lcAddr ∧
    env.invoke lcAddr (.verifyMembership packet.destClient height proof
      (prefixedPath cp.commitmentPrefix (commitmentKey packet.sourceClient packet.sequence))
      (v2PacketCommitment sha256 packet).val) pre.ext = some (true, ext)
  length : acks.length = packet.payloads.length
  calls : recvCalls post.log = recvCalls pre.log ++
    (packet.payloads.zip acks).map fun item =>
      (pre.storage.port item.1.destPort, recvCallback packet item.1, item.2)
  storage : post.storage =
    (pre.storage.write (receiptKey packet.destClient packet.sequence)
      [RECEIPT_SENTINEL]).write (ackKey packet.destClient packet.sequence)
      (v2AckCommitment sha256 (returnedAcks sha256 acks)).val
  hashedPacket : ∀ s ∈ packetStrings sha256 packet, s ∈ hashedStrings post.log
  hashedAcks : ∀ s ∈ ackStrings sha256 (returnedAcks sha256 acks),
    s ∈ hashedStrings post.log

/-- `recv_packet` up to its receipt. -/
def recvChecks (sha256 : Bytes → Hash) (env : Env X) (packet : Packet) (proof : Bytes)
    (proofHeight : UInt64) : RouterM X Unit := do
  let cp ← unwrapOr (← counterparty packet.destClient) .counterpartyNotRegistered
  panicIf (cp.clientId ≠ packet.sourceClient) .packetCounterpartyMismatch
  panicIf (packet.timeoutTimestamp ≤ env.timestamp) .timeoutAlreadyElapsed
  let received ← hasPacketReceipt packet.destClient packet.sequence
  panicIf (received = true) .receiptAlreadyExists
  let expectedHash ← commitV2Packet sha256 packet
  let cpPath ← counterpartyPacketCommitmentPath cp.commitmentPrefix packet.sourceClient
    packet.sequence
  verifyMembership env packet.destClient proofHeight proof cpPath expectedHash.val

theorem recvPacket_eq (sha256 : Bytes → Hash) (env : Env X) (packet : Packet)
    (proof : Bytes) (proofHeight : UInt64) :
    recvPacket sha256 env packet proof proofHeight = (do
      recvChecks sha256 env packet proof proofHeight
      setPacketReceipt packet.destClient packet.sequence
      let acks ← dispatchRecvCallbacks sha256 env packet
      let ackHash ← commitV2Acknowledgement sha256 acks
      setAckCommitment packet.destClient packet.sequence ackHash
      publish (.recvPacket packet.destClient packet.sequence packet)
      publish (.writeAck packet.destClient packet.sequence acks)) := by
  simp only [recvPacket, recvChecks, bind_assoc]

theorem returns_recvChecks {proof : Bytes} {height : UInt64} {result : Unit}
    (h : Returns (recvChecks sha256 env packet proof height) pre result post) :
    ∃ cp lcAddr ext, pre.storage.counterparty packet.destClient = some cp ∧
      cp.clientId = packet.sourceClient ∧ env.timestamp < packet.timeoutTimestamp ∧
      pre.storage.provable (receiptKey packet.destClient packet.sequence) = none ∧
      pre.storage.clientLcAddr packet.destClient = some lcAddr ∧
      env.invoke lcAddr (.verifyMembership packet.destClient height proof
        (prefixedPath cp.commitmentPrefix (commitmentKey packet.sourceClient packet.sequence))
        (v2PacketCommitment sha256 packet).val) pre.ext = some (true, ext) ∧
      post.storage = pre.storage ∧ recvCalls post.log = recvCalls pre.log ∧
      proofCalls post.log = proofCalls pre.log ++ [(lcAddr, packet.destClient)] ∧
      ∀ s ∈ packetStrings sha256 packet, s ∈ hashedStrings post.log := by
  simp only [recvChecks, Router.counterparty, returns_bind, returns_panicIf,
    returns_storage, returns_pure, returns_unwrapOr, UInt64.not_le, ne_eq, not_not,
    Bool.not_eq_true] at h
  obtain ⟨_, _, ⟨_, _, ⟨rfl, rfl⟩, rfl, rfl⟩, cp, _, ⟨hcp, rfl⟩, _, _, ⟨hsource, rfl⟩, _, _,
    ⟨htime, rfl⟩, received, _, hreceived, _, _, ⟨rfl, rfl⟩, hash, _, hcommit, path, _, hpath,
    hverify⟩ := h
  obtain ⟨hfresh, rfl⟩ := returns_hasPacketReceipt hreceived
  obtain ⟨-, rfl, rfl⟩ := returns_commitV2Packet.mp hcommit
  obtain ⟨-, rfl, rfl⟩ := returns_counterpartyV2Path.mp hpath
  obtain ⟨lcAddr, ext, hlc, hinvoke, rfl⟩ := returns_verifyMembership hverify
  refine ⟨cp, lcAddr, ext, hcp, hsource, htime, by simpa using hfresh.symm, hlc, hinvoke, rfl,
    ?_, ?_, ?_⟩
  · simp only [Ctx.hashing_log, recvCalls_append, recvCalls_hashed, List.append_nil]
    simp [recvCalls]
  · simp only [Ctx.hashing_log, proofCalls_append, proofCalls_hashed, List.append_nil]
    simp [proofCalls]
  · intro s hs
    simp only [Ctx.hashing_log, hashedStrings_append, hashedStrings_hashed, List.mem_append,
      hs, or_true, true_or]

theorem returns_recvPacket {proof : Bytes} {height : UInt64} {result : Unit}
    (h : Returns (recvPacket sha256 env packet proof height) pre result post) :
    ∃ cp acks, RecvSpec sha256 env packet proof height cp acks pre post := by
  simp only [recvPacket_eq, returns_bind, returns_publish] at h
  obtain ⟨_, checked, hchecks, _, _, hreceipt, result, _, hdispatch, ackHash, _, hackHash, _,
    _, hset, _, _, rfl, rfl⟩ := h
  obtain ⟨cp, lcAddr, ext, hcp, hsource, htime, hfresh, hlc, hinvoke, hsame, hnone, -,
    hhashed⟩ := returns_recvChecks hchecks
  obtain rfl := returns_setPacketReceipt hreceipt
  obtain ⟨hstorage, acks, rfl, hlength, calls, hlog, hcalls⟩ :=
    returns_dispatchRecvCallbacks hdispatch
  obtain ⟨rfl, rfl⟩ := returns_commitV2Acknowledgement.mp hackHash
  obtain rfl := returns_setAckCommitment hset
  refine ⟨cp, acks, hcp, hsource, htime, hfresh, ⟨lcAddr, ext, hlc, hinvoke⟩, hlength, ?_, ?_,
    ?_, ?_⟩
  · simp only [Ctx.hashing_log, recvCalls_append, hlog, recvCalls_hashed, hcalls, hnone]
    simp [recvCalls, hsame]
  · simp only [Ctx.hashing_storage, hstorage, hsame]
  · intro s hs
    simp only [Ctx.hashing_log, hashedStrings_append, hlog, List.mem_append, hhashed s hs,
      true_or]
  · intro s hs
    simp only [Ctx.hashing_log, hashedStrings_append, hashedStrings_hashed, List.mem_append,
      hs, or_true, true_or]

theorem returns_writeAcknowledgement {c : HostString} {n : UInt64} {result : Unit}
    (h : Returns (writeAcknowledgement sha256 c n acks) pre result post) :
    pre.storage.provable (receiptKey c n) ≠ none ∧
      pre.storage.provable (ackKey c n) = none ∧
      post.storage = pre.storage.write (ackKey c n) (v2AckCommitment sha256 acks).val := by
  simp only [writeAcknowledgement, returns_bind, returns_panicIf, returns_publish, ne_eq,
    not_not, Bool.not_eq_false] at h
  obtain ⟨_, _, hreceived, _, _, ⟨rfl, rfl⟩, _, _, hstored, _, _, ⟨rfl, rfl⟩, _, _, hcommit,
    _, _, hset, rfl⟩ := h
  obtain ⟨hreceipt, rfl⟩ := returns_hasPacketReceipt hreceived
  obtain ⟨hack, rfl⟩ := returns_acknowledgement hstored
  obtain ⟨rfl, rfl⟩ := returns_commitV2Acknowledgement.mp hcommit
  obtain rfl := returns_setAckCommitment hset
  exact ⟨Option.isSome_iff_ne_none.mp hreceipt.symm, hack, rfl⟩

/-! ### `acknowledge_packet` and `timeout_packet` -/

/-- What the opening checks of both establish. -/
structure CommittedSpec (sha256 : Bytes → Hash) (packet : Packet) (cp : Counterparty)
    (s : Storage) : Prop where
  stored : s.provable (commitmentKey packet.sourceClient packet.sequence) =
    some (v2PacketCommitment sha256 packet).val
  counterparty : s.counterparty packet.sourceClient = some cp
  dest : cp.clientId = packet.destClient

theorem returns_checkCommitted {cp : Counterparty}
    (h : Returns (checkCommitted sha256 packet) pre cp post) :
    CommittedSpec sha256 packet cp pre.storage ∧
      post = pre.hashing (packetStrings sha256 packet) := by
  simp only [checkCommitted, Router.counterparty, returns_bind, returns_panicIf,
    returns_storage, returns_pure, returns_unwrapOr, ne_eq, not_not] at h
  obtain ⟨_, _, hstored, _, _, ⟨rfl, rfl⟩, _, _, hcommit, _, _, ⟨rfl, rfl⟩, _, _,
    ⟨_, _, ⟨rfl, rfl⟩, rfl, rfl⟩, _, _, ⟨hcp, rfl⟩, _, _, ⟨hdest, rfl⟩, rfl, rfl⟩ := h
  obtain ⟨hread, rfl⟩ := returns_packetCommitment hstored
  obtain ⟨-, rfl, rfl⟩ := returns_commitV2Packet.mp hcommit
  exact ⟨⟨hread, hcp, hdest⟩, rfl⟩

/-- A successful acknowledgement of `packet` with `acks`. -/
structure AckSpec (sha256 : Bytes → Hash) (env : Env X) (packet : Packet)
    (acks : List Bytes) (proof : Bytes) (height : UInt64) (cp : Counterparty)
    (pre post : Ctx X) : Prop where
  committed : CommittedSpec sha256 packet cp pre.storage
  proved : ∃ lcAddr ext, pre.storage.clientLcAddr packet.sourceClient = some lcAddr ∧
    env.invoke lcAddr (.verifyMembership packet.sourceClient height proof
      (prefixedPath cp.commitmentPrefix (ackKey packet.destClient packet.sequence))
      (v2AckCommitment sha256 acks).val) pre.ext = some (true, ext)
  calls : ackCalls post.log = ackCalls pre.log ++ packet.payloads.zipIdx.map fun item =>
    (pre.storage.port item.1.sourcePort,
      ackCallback packet item.1 (ackOrError sha256 acks item.2))
  storage : post.storage =
    pre.storage.erase (commitmentKey packet.sourceClient packet.sequence)
  hashedPacket : ∀ s ∈ packetStrings sha256 packet, s ∈ hashedStrings post.log
  hashedAcks : ∀ s ∈ ackStrings sha256 acks, s ∈ hashedStrings post.log

/-- `acknowledge_packet` up to its callbacks. -/
def ackChecks (sha256 : Bytes → Hash) (env : Env X) (packet : Packet)
    (acknowledgements : List Bytes) (proof : Bytes) (proofHeight : UInt64) :
    RouterM X Unit := do
  let cp ← checkCommitted sha256 packet
  let ackHash ← commitV2Acknowledgement sha256 acknowledgements
  let cpPath ← counterpartyAckCommitmentPath cp.commitmentPrefix packet.destClient
    packet.sequence
  verifyMembership env packet.sourceClient proofHeight proof cpPath ackHash.val

theorem acknowledgePacket_eq (sha256 : Bytes → Hash) (env : Env X) (packet : Packet)
    (acknowledgements : List Bytes) (proof : Bytes) (proofHeight : UInt64) :
    acknowledgePacket sha256 env packet acknowledgements proof proofHeight = (do
      ackChecks sha256 env packet acknowledgements proof proofHeight
      dispatchAckCallbacks sha256 env packet acknowledgements
      deletePacketCommitment packet.sourceClient packet.sequence
      publish (.ackPacket packet.sourceClient packet.sequence packet acknowledgements)) := by
  simp only [acknowledgePacket, ackChecks, bind_assoc]

theorem returns_ackChecks {proof : Bytes} {height : UInt64} {result : Unit}
    (h : Returns (ackChecks sha256 env packet acks proof height) pre result post) :
    ∃ cp lcAddr ext, CommittedSpec sha256 packet cp pre.storage ∧
      pre.storage.clientLcAddr packet.sourceClient = some lcAddr ∧
      env.invoke lcAddr (.verifyMembership packet.sourceClient height proof
        (prefixedPath cp.commitmentPrefix (ackKey packet.destClient packet.sequence))
        (v2AckCommitment sha256 acks).val) pre.ext = some (true, ext) ∧
      post.storage = pre.storage ∧ ackCalls post.log = ackCalls pre.log ∧
      proofCalls post.log = proofCalls pre.log ++ [(lcAddr, packet.sourceClient)] ∧
      (∀ s ∈ packetStrings sha256 packet, s ∈ hashedStrings post.log) ∧
      ∀ s ∈ ackStrings sha256 acks, s ∈ hashedStrings post.log := by
  simp only [ackChecks, returns_bind] at h
  obtain ⟨cp, _, hcommitted, hash, _, hcommit, path, _, hpath, hverify⟩ := h
  obtain ⟨hspec, rfl⟩ := returns_checkCommitted hcommitted
  obtain ⟨rfl, rfl⟩ := returns_commitV2Acknowledgement.mp hcommit
  obtain ⟨-, rfl, rfl⟩ := returns_counterpartyV2Path.mp hpath
  obtain ⟨lcAddr, ext, hlc, hinvoke, rfl⟩ := returns_verifyMembership hverify
  refine ⟨cp, lcAddr, ext, hspec, hlc, hinvoke, rfl, ?_, ?_, ?_, ?_⟩
  · simp only [Ctx.hashing_log, ackCalls_append, ackCalls_hashed, List.append_nil]
    simp [ackCalls]
  · simp only [Ctx.hashing_log, proofCalls_append, proofCalls_hashed, List.append_nil]
    simp [proofCalls]
  · intro s hs
    simp only [Ctx.hashing_log, hashedStrings_append, hashedStrings_hashed, List.mem_append,
      hs, or_true, true_or]
  · intro s hs
    simp only [Ctx.hashing_log, hashedStrings_append, hashedStrings_hashed, List.mem_append,
      hs, or_true, true_or]

theorem returns_acknowledgePacket {proof : Bytes} {height : UInt64} {result : Unit}
    (h : Returns (acknowledgePacket sha256 env packet acks proof height) pre result post) :
    ∃ cp, AckSpec sha256 env packet acks proof height cp pre post := by
  simp only [acknowledgePacket_eq, returns_bind, returns_publish] at h
  obtain ⟨_, checked, hchecks, _, _, hdispatch, _, _, hdelete, rfl⟩ := h
  obtain ⟨cp, lcAddr, ext, hcommitted, hlc, hinvoke, hsame, hnone, -, hpacket, hacks⟩ :=
    returns_ackChecks hchecks
  obtain ⟨hstorage, calls, hlog, hcalls⟩ := returns_ackLoop hdispatch
  obtain rfl := returns_deletePacketCommitment hdelete
  refine ⟨cp, hcommitted, ⟨lcAddr, ext, hlc, hinvoke⟩, ?_, ?_, ?_, ?_⟩
  · simp only [hlog, ackCalls_append, hcalls, hnone, hsame]
    simp [ackCalls]
  · simp only [hstorage, hsame]
  · intro s hs
    simp only [hlog, hashedStrings_append, List.mem_append, hpacket s hs, true_or]
  · intro s hs
    simp only [hlog, hashedStrings_append, List.mem_append, hacks s hs, true_or]

/-- A successful timeout of `packet`. -/
structure TimeoutSpec (sha256 : Bytes → Hash) (env : Env X) (packet : Packet)
    (proof : Bytes) (height : UInt64) (cp : Counterparty) (pre post : Ctx X) : Prop where
  committed : CommittedSpec sha256 packet cp pre.storage
  proved : ∃ lcAddr proofTs middle ext,
    pre.storage.clientLcAddr packet.sourceClient = some lcAddr ∧
    env.invoke lcAddr (.getTimestampAtHeight packet.sourceClient height) pre.ext =
      some (proofTs, middle) ∧
    packet.timeoutTimestamp < (proofTs : UInt64) ∧
    env.invoke lcAddr (.verifyNonMembership packet.sourceClient height proof
      (prefixedPath cp.commitmentPrefix (receiptKey packet.destClient packet.sequence)))
      middle = some (true, ext)
  calls : timeoutCalls post.log = timeoutCalls pre.log ++ packet.payloads.map fun payload =>
    (pre.storage.port payload.sourcePort, timeoutCallback packet payload)
  storage : post.storage =
    pre.storage.erase (commitmentKey packet.sourceClient packet.sequence)
  hashed : ∀ s ∈ packetStrings sha256 packet, s ∈ hashedStrings post.log

/-- `timeout_packet` up to its callbacks. -/
def timeoutChecks (sha256 : Bytes → Hash) (env : Env X) (packet : Packet) (proof : Bytes)
    (proofHeight : UInt64) : RouterM X Unit := do
  let cp ← checkCommitted sha256 packet
  let lcAddr ← unwrapOr (← clientLcAddress packet.sourceClient) .clientIdNotFound
  let proofTs ← invokeContract env lcAddr
    (.getTimestampAtHeight packet.sourceClient proofHeight)
  panicIf (proofTs ≤ packet.timeoutTimestamp) .timeoutNotYetElapsed
  let cpPath ← counterpartyPacketReceiptPath cp.commitmentPrefix packet.destClient
    packet.sequence
  verifyNonMembership env packet.sourceClient proofHeight proof cpPath

theorem timeoutPacket_eq (sha256 : Bytes → Hash) (env : Env X) (packet : Packet)
    (proof : Bytes) (proofHeight : UInt64) :
    timeoutPacket sha256 env packet proof proofHeight = (do
      timeoutChecks sha256 env packet proof proofHeight
      dispatchTimeoutCallbacks env packet
      deletePacketCommitment packet.sourceClient packet.sequence
      publish (.timeoutPacket packet.sourceClient packet.sequence packet)) := by
  simp only [timeoutPacket, timeoutChecks, bind_assoc]

theorem returns_timeoutChecks {proof : Bytes} {height : UInt64} {result : Unit}
    (h : Returns (timeoutChecks sha256 env packet proof height) pre result post) :
    ∃ cp lcAddr proofTs middle ext, CommittedSpec sha256 packet cp pre.storage ∧
      pre.storage.clientLcAddr packet.sourceClient = some lcAddr ∧
      env.invoke lcAddr (.getTimestampAtHeight packet.sourceClient height) pre.ext =
        some (proofTs, middle) ∧
      packet.timeoutTimestamp < (proofTs : UInt64) ∧
      env.invoke lcAddr (.verifyNonMembership packet.sourceClient height proof
        (prefixedPath cp.commitmentPrefix (receiptKey packet.destClient packet.sequence)))
        middle = some (true, ext) ∧
      post.storage = pre.storage ∧ timeoutCalls post.log = timeoutCalls pre.log ∧
      proofCalls post.log = proofCalls pre.log ++ [(lcAddr, packet.sourceClient)] ∧
      ∀ s ∈ packetStrings sha256 packet, s ∈ hashedStrings post.log := by
  simp only [timeoutChecks, clientLcAddress, returns_bind, returns_storage, returns_pure,
    returns_unwrapOr, returns_panicIf, UInt64.not_le] at h
  obtain ⟨cp, _, hcommitted, _, _, ⟨_, _, ⟨rfl, rfl⟩, rfl, rfl⟩, lcAddr, _, ⟨hlc, rfl⟩,
    proofTs, _, hask, _, _, ⟨htime, rfl⟩, path, _, hpath, hverify⟩ := h
  obtain ⟨hspec, rfl⟩ := returns_checkCommitted hcommitted
  obtain ⟨middle, hts, rfl⟩ := returns_invokeContract.mp hask
  obtain ⟨-, rfl, rfl⟩ := returns_counterpartyV2Path.mp hpath
  obtain ⟨lcAddr', ext, hlc', hinvoke, rfl⟩ := returns_verifyNonMembership hverify
  obtain rfl : lcAddr = lcAddr' := Option.some.inj (hlc.symm.trans hlc')
  refine ⟨cp, lcAddr, proofTs, middle, ext, hspec, hlc, hts, htime, hinvoke, rfl, ?_, ?_, ?_⟩
  · simp only [Ctx.hashing_log, timeoutCalls_append, timeoutCalls_hashed, List.append_nil]
    simp [timeoutCalls]
  · simp only [Ctx.hashing_log, proofCalls_append, proofCalls_hashed, List.append_nil]
    simp [proofCalls]
  · intro s hs
    simp only [Ctx.hashing_log, hashedStrings_append, hashedStrings_hashed, List.mem_append,
      hs, or_true, true_or]

theorem returns_timeoutPacket {proof : Bytes} {height : UInt64} {result : Unit}
    (h : Returns (timeoutPacket sha256 env packet proof height) pre result post) :
    ∃ cp, TimeoutSpec sha256 env packet proof height cp pre post := by
  simp only [timeoutPacket_eq, returns_bind, returns_publish] at h
  obtain ⟨_, checked, hchecks, _, _, hdispatch, _, _, hdelete, rfl⟩ := h
  obtain ⟨cp, lcAddr, proofTs, middle, ext, hcommitted, hlc, hts, htime, hinvoke, hsame, hnone,
    -, hhashed⟩ := returns_timeoutChecks hchecks
  obtain ⟨hstorage, calls, hlog, hcalls⟩ := returns_timeoutLoop hdispatch
  obtain rfl := returns_deletePacketCommitment hdelete
  refine ⟨cp, hcommitted, ⟨lcAddr, proofTs, middle, ext, hlc, hts, htime, hinvoke⟩, ?_, ?_, ?_⟩
  · simp only [hlog, timeoutCalls_append, hcalls, hnone, hsame]
    simp [timeoutCalls]
  · simp only [hstorage, hsame]
  · intro s hs
    simp only [hlog, hashedStrings_append, List.mem_append, hhashed s hs, true_or]

/-! ### Calls that only read -/

section

variable {τ : Type} {view : Ctx X → τ} {c : HostString} {n : UInt64}

instance : Keeps view storage := by
  unfold storage
  infer_instance

instance {address : Address} : Keeps view (requireAuth env address) := by
  unfold requireAuth
  infer_instance

instance {id : HostString} : Keeps view (validateCustomIdentifier id) := by
  unfold validateCustomIdentifier
  infer_instance

instance {d : UInt8} : Keeps view (v2PathKey c d n) := by
  unfold v2PathKey
  infer_instance

instance {commitmentPrefix : List Bytes} {d : UInt8} :
    Keeps view (counterpartyV2Path commitmentPrefix c d n) := by
  unfold counterpartyV2Path
  infer_instance

instance {key : Bytes} : Keeps view (getHash key) where
  keeps h := by rw [(returns_getHash.mp h).2]

instance : Keeps view (Router.counterparty c) := by
  unfold Router.counterparty
  infer_instance

instance : Keeps view (Router.clientLcAddress c) := by
  unfold Router.clientLcAddress
  infer_instance

instance : Keeps view (portApp c) := by
  unfold portApp
  infer_instance

instance {payload : Payload} : Keeps view (requirePortAuth env payload) := by
  unfold requirePortAuth
  infer_instance

end

end StellarIbc.Router
