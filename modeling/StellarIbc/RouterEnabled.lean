import StellarIbc.IdentifierBuffers

/-!
# When the packet calls return

`RouterSpecs` says what a call established if it returned.  Here is the other direction:
`recv_packet`, `acknowledge_packet` and `timeout_packet` return as soon as their guards hold,
their strings fit the buffers they are copied into, the light client accepts the proof and the
ports of the packet have apps that accept the callbacks.
-/

namespace StellarIbc.Router

open Contract

variable {X : Type} {sha256 : Bytes → Hash} {env : Env X}
variable {s s' : Storage}

/-- `callee` answers the call with `result`, whatever state the callees are in. -/
def Env.Answers (env : Env X) (callee : Address) (call : Invocation) (result : call.Result) :
    Prop :=
  ∀ ext, ∃ ext', env.invoke callee call ext = some (result, ext')

/-- `callee` answers the call, whatever state the callees are in. -/
def Env.Accepts (env : Env X) (callee : Address) (call : Invocation) : Prop :=
  ∀ ext, ∃ result ext', env.invoke callee call ext = some (result, ext')

/-- `program` returns `value` from every context with storage `s` and leaves storage `s'`. -/
abbrev Stores {α : Type} (program : RouterM X α) (s : Storage) (value : α) (s' : Storage) :
    Prop :=
  Yields Ctx.storage program s value s'

/-! ### Primitives -/

theorem stores_storage : Stores (X := X) storage s s s :=
  fun pre hpre => ⟨pre, returns_storage.mpr ⟨hpre.symm, rfl⟩, hpre⟩

theorem stores_setStorage {update : Storage → Storage} :
    Stores (X := X) (setStorage update) s () (update s) := by
  intro pre hpre
  exact ⟨_, returns_setStorage.mpr rfl, congrArg update hpre⟩

theorem stores_publish {event : Event} : Stores (X := X) (publish event) s () s :=
  fun _ hpre => ⟨_, returns_publish.mpr rfl, hpre⟩

theorem stores_invokeContract {callee : Address} {call : Invocation} {result : call.Result}
    (hanswers : env.Answers callee call result) :
    Stores (invokeContract env callee call) s result s := by
  intro pre hpre
  obtain ⟨ext, hext⟩ := hanswers pre.ext
  exact ⟨_, returns_invokeContract.mpr ⟨ext, hext, rfl⟩, hpre⟩

theorem attains_invokeContract {callee : Address} {call : Invocation}
    (haccepts : env.Accepts callee call) :
    Attains Ctx.storage (invokeContract env callee call) s fun _ last => last = s := by
  intro pre hpre
  obtain ⟨result, ext, hext⟩ := haccepts pre.ext
  exact ⟨result, _, returns_invokeContract.mpr ⟨ext, hext, rfl⟩, hpre⟩

theorem stores_sha256Bytes {data : Bytes} :
    Stores (X := X) (sha256Bytes sha256 data) s (sha256 data) s :=
  fun _ hpre => ⟨_, returns_sha256Bytes.mpr ⟨rfl, rfl⟩, hpre⟩

theorem stores_counterparty {c : HostString} :
    Stores (X := X) (counterparty c) s (s.counterparty c) s :=
  stores_storage.bind (Yields.pure _)

theorem stores_clientLcAddress {c : HostString} :
    Stores (X := X) (clientLcAddress c) s (s.clientLcAddr c) s :=
  stores_storage.bind (Yields.pure _)

theorem stores_portApp {p : HostString} : Stores (X := X) (portApp p) s (s.port p) s :=
  stores_storage.bind (Yields.pure _)

/-! ### Paths and hashes -/

/-- The client ids and the strings of the payloads fit their buffers. -/
structure PacketFits (packet : Packet) : Prop where
  sourceClient : packet.sourceClient.length + 9 ≤ 128
  destClient : packet.destClient.length + 9 ≤ 128
  payloads : ∀ payload ∈ packet.payloads, Payload.Fits payload

variable {c : HostString} {n : UInt64} {d : UInt8} {packet : Packet}

theorem stores_v2PathKey (hfits : c.length + 9 ≤ 128) :
    Stores (X := X) (v2PathKey c d n) s (pathBytes c d n) s :=
  fun _ hpre => ⟨_, returns_v2PathKey.mpr ⟨hfits, rfl, rfl⟩, hpre⟩

theorem stores_counterpartyV2Path {chunks : List Bytes} (hfits : c.length + 9 ≤ 128) :
    Stores (X := X) (counterpartyV2Path chunks c d n) s
      (prefixedPath chunks (pathBytes c d n)) s :=
  fun _ hpre => ⟨_, returns_counterpartyV2Path.mpr ⟨hfits, rfl, rfl⟩, hpre⟩

theorem stores_commitV2Packet (hfits : PacketFits packet) :
    Stores (X := X) (commitV2Packet sha256 packet) s (v2PacketCommitment sha256 packet) s := by
  have hdest := hfits.destClient
  exact fun _ hpre => ⟨_, returns_commitV2Packet.mpr
    ⟨⟨hfits.payloads, by omega⟩, rfl, rfl⟩, hpre⟩

theorem stores_commitV2Acknowledgement {acks : List Bytes} :
    Stores (X := X) (commitV2Acknowledgement sha256 acks) s (v2AckCommitment sha256 acks) s :=
  fun _ hpre => ⟨_, returns_commitV2Acknowledgement.mpr ⟨rfl, rfl⟩, hpre⟩

/-! ### The provable store -/

theorem stores_getHash {key : Bytes} {stored : Option Hash}
    (hstored : s.provable key = stored.map Subtype.val) :
    Stores (X := X) (getHash key) s stored s := by
  rintro pre rfl
  exact ⟨pre, returns_getHash.mpr ⟨hstored, rfl⟩, rfl⟩

theorem stores_packetCommitment (hfits : c.length + 9 ≤ 128) {stored : Option Hash}
    (hstored : s.provable (commitmentKey c n) = stored.map Subtype.val) :
    Stores (X := X) (packetCommitment c n) s stored s :=
  (stores_v2PathKey hfits).bind (stores_getHash hstored)

theorem stores_deletePacketCommitment (hfits : c.length + 9 ≤ 128) :
    Stores (X := X) (deletePacketCommitment c n) s () (s.erase (commitmentKey c n)) :=
  (stores_v2PathKey hfits).bind stores_setStorage

theorem stores_setPacketReceipt (hfits : c.length + 9 ≤ 128) :
    Stores (X := X) (setPacketReceipt c n) s ()
      (s.write (receiptKey c n) [RECEIPT_SENTINEL]) :=
  (stores_v2PathKey hfits).bind stores_setStorage

theorem stores_hasPacketReceipt (hfits : c.length + 9 ≤ 128) :
    Stores (X := X) (hasPacketReceipt c n) s (s.provable (receiptKey c n)).isSome s :=
  (stores_v2PathKey hfits).bind (stores_storage.bind (Yields.pure _))

theorem stores_setAckCommitment (hfits : c.length + 9 ≤ 128) {hash : Hash} :
    Stores (X := X) (setAckCommitment c n hash) s () (s.write (ackKey c n) hash.val) :=
  (stores_v2PathKey hfits).bind stores_setStorage

/-! ### Questions to the light client -/

theorem stores_verifyMembership {lcAddr : Address} {height : UInt64}
    {proof path value : Bytes} (hlc : s.clientLcAddr c = some lcAddr)
    (hyes : env.Answers lcAddr (.verifyMembership c height proof path value) true) :
    Stores (verifyMembership env c height proof path value) s () s :=
  stores_clientLcAddress.bind ((Yields.unwrapOr hlc).bind
    ((stores_invokeContract hyes).bind (Yields.panicIf Bool.noConfusion)))

theorem stores_verifyNonMembership {lcAddr : Address} {height : UInt64} {proof path : Bytes}
    (hlc : s.clientLcAddr c = some lcAddr)
    (hyes : env.Answers lcAddr (.verifyNonMembership c height proof path) true) :
    Stores (verifyNonMembership env c height proof path) s () s :=
  stores_clientLcAddress.bind ((Yields.unwrapOr hlc).bind
    ((stores_invokeContract hyes).bind (Yields.panicIf Bool.noConfusion)))

/-! ### Callbacks -/

/-- Every payload's port, as `port` picks it, has an app. -/
def PortsHeld (s : Storage) (port : Payload → HostString) (packet : Packet) : Prop :=
  ∀ payload ∈ packet.payloads, ∃ app, s.port (port payload) = some app

/-- The app at an item's port accepts the callback for the item. -/
def AppsAccept {α : Type} (env : Env X) (s : Storage) (port : α → HostString)
    (callback : α → Invocation) (items : List α) : Prop :=
  ∀ item ∈ items, ∀ app, s.port (port item) = some app → env.Accepts app (callback item)

def recvInvocation (packet : Packet) (payload : Payload) : Invocation :=
  .onRecvPacket (recvCallback packet payload)

def ackInvocation (sha256 : Bytes → Hash) (packet : Packet) (acks : List Bytes)
    (item : Payload × Nat) : Invocation :=
  .onAcknowledgementPacket (ackCallback packet item.1 (ackOrError sha256 acks item.2))

def timeoutInvocation (packet : Packet) (payload : Payload) : Invocation :=
  .onTimeoutPacket (timeoutCallback packet payload)

theorem attains_dispatchRecvCallbacks (hports : PortsHeld s Payload.destPort packet)
    (haccept : AppsAccept env s Payload.destPort (recvInvocation packet) packet.payloads) :
    Attains Ctx.storage (dispatchRecvCallbacks sha256 env packet) s
      fun _ last => last = s := by
  have hloop : Attains Ctx.storage (packet.payloads.mapM (onRecvPayload env packet)) s
      fun _ last => last = s := by
    apply Attains.mapM
    intro payload hpayload
    obtain ⟨app, happ⟩ := hports payload hpayload
    exact stores_portApp.andThen ((Yields.unwrapOr happ).andThen
      (attains_invokeContract (haccept payload hpayload app happ)))
  refine hloop.bind ?_
  rintro acks _ rfl
  by_cases hempty : acks = []
  · rw [if_pos hempty]
    exact Yields.andThen stores_sha256Bytes ((Yields.pure _).attains rfl)
  · rw [if_neg hempty]
    exact (Yields.pure _).attains rfl

theorem stores_ackAt {acks : List Bytes} {i : Nat} :
    Stores (X := X) (ackAt sha256 acks i) s (ackOrError sha256 acks i) s := by
  unfold ackAt ackOrError
  cases acks[i]? with
  | some ack => exact Yields.pure _
  | none => exact stores_sha256Bytes.bind (Yields.pure _)

theorem stores_dispatchAckCallbacks {acks : List Bytes}
    (hports : PortsHeld s Payload.sourcePort packet)
    (haccept : AppsAccept env s (fun item => item.1.sourcePort)
      (ackInvocation sha256 packet acks) packet.payloads.zipIdx) :
    Stores (dispatchAckCallbacks sha256 env packet acks) s () s := by
  apply Yields.forM
  intro item hitem
  obtain ⟨app, happ⟩ := hports item.1 (List.fst_mem_of_mem_zipIdx hitem)
  exact stores_ackAt.bind (stores_portApp.bind ((Yields.unwrapOr happ).bind
    (attains_invokeContract (haccept item hitem app happ)).yields))

theorem stores_dispatchTimeoutCallbacks (hports : PortsHeld s Payload.sourcePort packet)
    (haccept : AppsAccept env s Payload.sourcePort (timeoutInvocation packet)
      packet.payloads) :
    Stores (dispatchTimeoutCallbacks env packet) s () s := by
  apply Yields.forM
  intro payload hpayload
  obtain ⟨app, happ⟩ := hports payload hpayload
  exact stores_portApp.bind ((Yields.unwrapOr happ).bind
    (attains_invokeContract (haccept payload hpayload app happ)).yields)

/-! ### The packet calls -/

/-- `recv_packet` returns: the counterparty is the source, the packet is neither late nor
received, the light client accepts the proof and the apps accept the payloads.  The
acknowledgements are what they answer. -/
theorem attains_recvPacket (hfits : PacketFits packet) {proof : Bytes} {height : UInt64}
    {cp : Counterparty} {lcAddr : Address}
    (hcounterparty : s.counterparty packet.destClient = some cp)
    (hsource : cp.clientId = packet.sourceClient)
    (htime : env.timestamp < packet.timeoutTimestamp)
    (hfresh : s.provable (receiptKey packet.destClient packet.sequence) = none)
    (hlc : s.clientLcAddr packet.destClient = some lcAddr)
    (hyes : env.Answers lcAddr (.verifyMembership packet.destClient height proof
      (prefixedPath cp.commitmentPrefix (commitmentKey packet.sourceClient packet.sequence))
      (v2PacketCommitment sha256 packet).val) true)
    (hports : PortsHeld s Payload.destPort packet)
    (haccept : AppsAccept env s Payload.destPort (recvInvocation packet) packet.payloads) :
    Attains Ctx.storage (recvPacket sha256 env packet proof height) s fun _ last =>
      ∃ acks, last = (s.write (receiptKey packet.destClient packet.sequence)
        [RECEIPT_SENTINEL]).write (ackKey packet.destClient packet.sequence)
          (v2AckCommitment sha256 acks).val := by
  have hreceipt := stores_hasPacketReceipt (X := X) (s := s) (n := packet.sequence)
    hfits.destClient
  rw [hfresh] at hreceipt
  -- the receipt is written before the callbacks, which look at the ports only
  have hdispatch : Attains Ctx.storage (dispatchRecvCallbacks sha256 env packet)
      (s.write (receiptKey packet.destClient packet.sequence) [RECEIPT_SENTINEL])
      fun _ last => last = s.write (receiptKey packet.destClient packet.sequence)
        [RECEIPT_SENTINEL] :=
    attains_dispatchRecvCallbacks hports haccept
  refine stores_counterparty.andThen ((Yields.unwrapOr hcounterparty).andThen ?_)
  refine (Yields.panicIf (not_not_intro hsource)).andThen ?_
  refine (Yields.panicIf (UInt64.not_le.mpr htime)).andThen ?_
  refine hreceipt.andThen ((Yields.panicIf Bool.noConfusion).andThen ?_)
  refine (stores_commitV2Packet hfits).andThen ?_
  refine (stores_counterpartyV2Path hfits.sourceClient).andThen ?_
  refine (stores_verifyMembership hlc hyes).andThen ?_
  refine (stores_setPacketReceipt hfits.destClient).andThen ?_
  refine hdispatch.bind ?_
  rintro acks _ rfl
  refine stores_commitV2Acknowledgement.andThen ?_
  refine (stores_setAckCommitment hfits.destClient).andThen (stores_publish.andThen ?_)
  exact stores_publish.attains ⟨acks, rfl⟩

theorem stores_checkCommitted {cp : Counterparty} (hfits : PacketFits packet)
    (hspec : CommittedSpec sha256 packet cp s) :
    Stores (X := X) (checkCommitted sha256 packet) s cp s := by
  have hstored : Stores (X := X) (packetCommitment packet.sourceClient packet.sequence) s
      (some (v2PacketCommitment sha256 packet)) s :=
    stores_packetCommitment hfits.sourceClient hspec.stored
  refine hstored.bind ?_
  refine (Yields.unwrapOr rfl).bind ((stores_commitV2Packet hfits).bind ?_)
  refine (Yields.panicIf (not_not_intro rfl)).bind (stores_counterparty.bind ?_)
  refine (Yields.unwrapOr hspec.counterparty).bind ?_
  exact (Yields.panicIf (not_not_intro hspec.dest)).bind (Yields.pure _)

/-- `acknowledge_packet` returns: the commitment is there, the light client accepts the
proof of the acknowledgement and the apps accept their parts of it. -/
theorem stores_acknowledgePacket (hfits : PacketFits packet) {acks : List Bytes}
    {proof : Bytes} {height : UInt64} {cp : Counterparty} {lcAddr : Address}
    (hspec : CommittedSpec sha256 packet cp s)
    (hlc : s.clientLcAddr packet.sourceClient = some lcAddr)
    (hyes : env.Answers lcAddr (.verifyMembership packet.sourceClient height proof
      (prefixedPath cp.commitmentPrefix (ackKey packet.destClient packet.sequence))
      (v2AckCommitment sha256 acks).val) true)
    (hports : PortsHeld s Payload.sourcePort packet)
    (haccept : AppsAccept env s (fun item => item.1.sourcePort)
      (ackInvocation sha256 packet acks) packet.payloads.zipIdx) :
    Stores (acknowledgePacket sha256 env packet acks proof height) s ()
      (s.erase (commitmentKey packet.sourceClient packet.sequence)) := by
  refine (stores_checkCommitted hfits hspec).bind ?_
  refine stores_commitV2Acknowledgement.bind ?_
  refine (stores_counterpartyV2Path hfits.destClient).bind ?_
  refine (stores_verifyMembership hlc hyes).bind ?_
  refine (stores_dispatchAckCallbacks hports haccept).bind ?_
  exact (stores_deletePacketCommitment hfits.sourceClient).bind stores_publish

/-- `timeout_packet` returns: the commitment is there, the light client has a time past the
timeout and accepts the proof that there is no receipt, and the apps accept the timeout. -/
theorem stores_timeoutPacket (hfits : PacketFits packet) {proof : Bytes} {height : UInt64}
    {cp : Counterparty} {lcAddr : Address} (hspec : CommittedSpec sha256 packet cp s)
    (hlc : s.clientLcAddr packet.sourceClient = some lcAddr) {time : UInt64}
    (hanswers : env.Answers lcAddr (.getTimestampAtHeight packet.sourceClient height) time)
    (htime : packet.timeoutTimestamp < time)
    (hyes : env.Answers lcAddr (.verifyNonMembership packet.sourceClient height proof
      (prefixedPath cp.commitmentPrefix (receiptKey packet.destClient packet.sequence))) true)
    (hports : PortsHeld s Payload.sourcePort packet)
    (haccept : AppsAccept env s Payload.sourcePort (timeoutInvocation packet)
      packet.payloads) :
    Stores (timeoutPacket sha256 env packet proof height) s ()
      (s.erase (commitmentKey packet.sourceClient packet.sequence)) := by
  refine (stores_checkCommitted hfits hspec).bind ?_
  refine stores_clientLcAddress.bind ((Yields.unwrapOr hlc).bind ?_)
  refine (stores_invokeContract hanswers).bind ?_
  refine (Yields.panicIf (UInt64.not_le.mpr htime)).bind ?_
  refine (stores_counterpartyV2Path hfits.destClient).bind ?_
  refine (stores_verifyNonMembership hlc hyes).bind ?_
  refine (stores_dispatchTimeoutCallbacks hports haccept).bind ?_
  exact (stores_deletePacketCommitment hfits.sourceClient).bind stores_publish

variable {pre post : State X} {log : List Effect}

/-- The strings of a packet that was sent fit their buffers. -/
theorem payloadsFit_of_sendPacket {timeout : UInt64} {payloads : List Payload}
    (h : Returned sha256 env (.sendPacket c timeout payloads) pre n log post) :
    ∀ payload ∈ payloads, Payload.Fits payload := by
  simp only [Returned, Call.exec, sendPacket, returns_bind, returns_panicIf,
    returns_unwrapOr] at h
  obtain ⟨_, _, -, _, _, -, _, _, -, _, _, -, _, _, -, _, _, -, hash, _, hcommit, -⟩ := h
  exact (returns_commitV2Packet.mp hcommit).1.1

/-! ### Clients with a counterparty -/

/-- A counterparty is registered for a client that exists. -/
theorem Returned.counterparty_cases {call : Call} {value : call.Result}
    (h : Returned sha256 env call pre value log post) {cp : Counterparty}
    (hcp : post.storage.counterparty c = some cp) :
    pre.storage.counterparty c = some cp ∨ pre.storage.clientType c ≠ none := by
  have hsame : ∀ {s : Storage}, post.storage = s →
      s.counterparty = pre.storage.counterparty → pre.storage.counterparty c = some cp := by
    intro s hpost hs
    rwa [hpost, hs] at hcp
  cases call with
  | registerCounterparty clientId counterpartyClientId chunks =>
      simp only [Returned, Call.exec, registerCounterparty, validateCounterpartyClientId,
        returns_bind, returns_storage, returns_validateCustomIdentifier, returns_panicIf,
        returns_setStorage, ne_eq, not_not] at h
      obtain ⟨_, _, ⟨-, -, -, rfl⟩, _, _, ⟨rfl, rfl⟩, _, _, ⟨htype, rfl⟩, _, _, ⟨rfl, rfl⟩, _,
        _, ⟨-, rfl⟩, hpost⟩ := h
      by_cases hc : c = clientId
      · rw [hc]
        exact .inr htype
      · have hcounterparty : post.storage.counterparty = Function.update
            pre.storage.counterparty clientId (some ⟨counterpartyClientId, chunks⟩) :=
          congrArg (fun ctx : Ctx X => ctx.storage.counterparty) hpost
        rw [hcounterparty, Function.update_of_ne hc] at hcp
        exact .inl hcp
  | registerClientType clientType address =>
      simp only [Returned, Call.exec, registerClientType, validateClientType, returns_bind,
        returns_storage, returns_unwrapOr, returns_requireAuth,
        returns_validateCustomIdentifier, returns_setStorage] at h
      obtain ⟨_, _, ⟨rfl, rfl⟩, _, _, ⟨-, rfl⟩, _, _, ⟨-, rfl⟩, _, _, ⟨-, -, -, rfl⟩, hpost⟩ := h
      exact .inl (hsame (congrArg Ctx.storage hpost) rfl)
  | registerPort portId appAddress =>
      simp only [Returned, Call.exec, registerPort, validatePortId, returns_bind,
        returns_storage, returns_unwrapOr, returns_requireAuth, returns_panicIf,
        returns_validateCustomIdentifier, returns_setStorage] at h
      obtain ⟨_, _, ⟨rfl, rfl⟩, _, _, ⟨-, rfl⟩, _, _, ⟨-, rfl⟩, _, _, ⟨-, -, -, rfl⟩, _, _,
        ⟨rfl, rfl⟩, _, _, ⟨-, rfl⟩, hpost⟩ := h
      exact .inl (hsame (congrArg Ctx.storage hpost) rfl)
  | createClient clientType clientState consensusState height =>
      simp only [Returned, Call.exec, createClient, mintClientId, returns_bind,
        returns_storage, returns_unwrapOr, returns_trapUnless, returns_setStorage,
        returns_orTrap, returns_pure] at h
      obtain ⟨_, _, ⟨rfl, rfl⟩, lcAddr, _, ⟨-, rfl⟩, _, _, ⟨_, _, ⟨rfl, rfl⟩, _, _,
        ⟨-, rfl⟩, _, _, rfl, _, _, ⟨-, rfl⟩, digits, _, ⟨-, rfl⟩, rfl, rfl⟩, _, _, hcall, _, _,
        rfl, _, _, rfl, -, hpost⟩ := h
      obtain ⟨ext, -, rfl⟩ := returns_invokeContract.mp hcall
      exact .inl (hsame (congrArg Ctx.storage hpost) rfl)
  | updateClient clientId message =>
      obtain ⟨-, lcAddr, ext, -, ⟨-, -, -, hstorage⟩ | ⟨-, -, hstorage⟩⟩ :=
        returns_updateClient_calls h
      · exact .inl (hsame hstorage rfl)
      · exact .inl (hsame hstorage rfl)
  | sendPacket | recvPacket | writeAcknowledgement | acknowledgePacket | timeoutPacket =>
      exact .inl (hsame rfl (h.lifecycle rfl).counterparty_eq)
  | setPacketCommitment c n commitment =>
      exact .inl (hsame (congrArg Ctx.storage (returns_setPacketCommitment h)) rfl)
  | deletePacketCommitment c n =>
      exact .inl (hsame (congrArg Ctx.storage (returns_deletePacketCommitment h)) rfl)
  | setPacketReceipt c n =>
      exact .inl (hsame (congrArg Ctx.storage (returns_setPacketReceipt h)) rfl)
  | setAckCommitment c n hash =>
      exact .inl (hsame (congrArg Ctx.storage (returns_setAckCommitment h)) rfl)
  | packetCommitment c n =>
      exact .inl (hsame (congrArg Ctx.storage (returns_packetCommitment h).2) rfl)
  | hasPacketReceipt c n =>
      exact .inl (hsame (congrArg Ctx.storage (returns_hasPacketReceipt h).2) rfl)
  | acknowledgement c n =>
      exact .inl (hsame (congrArg Ctx.storage (returns_acknowledgement h).2) rfl)
  | lcAddress clientType | counterparty clientId | clientLcAddress clientId
  | frozen clientId | portApp portId =>
      simp only [Returned, Call.exec, Router.lcAddress, Router.counterparty,
        Router.clientLcAddress, Router.frozen, Router.portApp, returns_bind,
        returns_storage, returns_pure] at h
      obtain ⟨_, _, ⟨-, rfl⟩, -, hpost⟩ := h
      exact .inl (hsame (congrArg Ctx.storage hpost) rfl)

/-- Only a call that returned changes the storage. -/
theorem Step.storage_cases {act : Act X} (hstep : Step sha256 pre act post) :
    post.storage = pre.storage ∨
      ∃ env call value log, Returned sha256 env call pre value log post := by
  cases act with
  | elsewhere => exact .inl hstep
  | tx tx =>
      obtain ⟨env, call, outcome⟩ := tx
      cases outcome with
      | aborted => exact .inl (congrArg State.storage hstep.2)
      | returned value log => exact .inr ⟨env, call, value, log, hstep.returned⟩

/-- In every run, a client with a counterparty has a light client. -/
theorem lcAddr_of_counterparty {history : List (Entry (State X) (Act X))} {state : State X}
    (hrun : Run sha256 history state) {cp : Counterparty}
    (hcp : state.storage.counterparty c = some cp) :
    ∃ lcAddr, state.storage.clientLcAddr c = some lcAddr := by
  have htype : state.storage.clientType c ≠ none := by
    refine hrun.invariant (fun _ state => ∀ c cp, state.storage.counterparty c = some cp →
      state.storage.clientType c ≠ none) ?_ ?_ c cp hcp
    · rintro state ⟨admin, hstorage⟩ c cp hcp
      rw [hstorage] at hcp
      cases hcp
    · intro history entry hprev ih hstep c cp hcp
      have hkept := hstep.registryKept (minted_of_run hprev) (paired_of_run hprev)
      have htyped : entry.pre.storage.clientType c ≠ none := by
        rcases Step.storage_cases hstep with hsame | ⟨env, call, value, log, hreturned⟩
        · rw [hsame] at hcp
          exact ih c cp hcp
        · rcases hreturned.counterparty_cases hcp with hold | hnew
          · exact ih c cp hold
          · exact hnew
      obtain ⟨clientType, hclientType⟩ := Option.ne_none_iff_exists'.mp htyped
      rw [hkept.clientType c clientType hclientType]
      exact Option.some_ne_none _
  exact Option.ne_none_iff_exists'.mp fun hnone => htype ((paired_of_run hrun c).mpr hnone)

/-- A client id was minted, so its paths and hashes fit their buffers. -/
theorem length_of_lcAddr {history : List (Entry (State X) (Act X))} {state : State X}
    (hrun : Run sha256 history state) {lcAddr : Address}
    (hlc : state.storage.clientLcAddr c = some lcAddr) : c.length ≤ 64 := by
  have hpresent : state.storage.clients.clientLcAddr c ≠ none := by
    intro hnone
    cases hlc.symm.trans hnone
  obtain ⟨clientType, n, ⟨digits, hdigits, rfl⟩, -⟩ := minted_of_run hrun c hpresent
  obtain ⟨hlength, hroom⟩ := length_writeU32 hdigits
  have hpos : 1 ≤ decimalLength n := Nat.le_max_left _ _
  rw [List.length_append, List.length_cons]
  omega

end StellarIbc.Router
