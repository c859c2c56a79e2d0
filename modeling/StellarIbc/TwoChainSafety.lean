import StellarIbc.TwoChain
import Mathlib.Data.List.Nodup

/-!
# Safety across two linked chains

What holds of a packet in every interleaving of two linked chains: it is not both
received and timed out, what is received was sent exactly so, and an acknowledgement
is what the receiving apps returned.
-/

namespace StellarIbc.TwoChain

open Router

variable {X : Type} {link : Link} {sha256 : Bytes → Hash}
variable {history before after : List (Entry (System X) (Act X))}
variable {system system' : System X}
variable {entry : Entry (System X) (Act X)} {side : Side} {packet : Packet}
variable {log : List Effect}

/-! ### Calls on a side -/

/-- A successful `send_packet` on `side` that produced exactly `packet`. -/
def SentOn (side : Side) (entry : Entry (System X) (Act X)) (packet : Packet) : Prop :=
  entry.act.side = side ∧ ∃ env log, entry.act.act = .router (.tx ⟨env,
      .sendPacket packet.sourceClient packet.timeoutTimestamp packet.payloads,
      .returned packet.sequence log⟩) ∧
    sentPackets log = [packet]

/-- A successful `recv_packet` of `packet` on `side`, with record `log`. -/
def ReceivedOn (side : Side) (entry : Entry (System X) (Act X)) (packet : Packet)
    (log : List Effect) : Prop :=
  entry.act.side = side ∧ ∃ env proof height, entry.act.act =
    .router (.tx ⟨env, .recvPacket packet proof height, .returned () log⟩)

/-- A successful `timeout_packet` of `packet` on `side`. -/
def TimedOutOn (side : Side) (entry : Entry (System X) (Act X)) (packet : Packet) : Prop :=
  entry.act.side = side ∧ ∃ env proof height log, entry.act.act =
    .router (.tx ⟨env, .timeoutPacket packet proof height, .returned () log⟩)

/-- A successful `acknowledge_packet` of `packet` with `acks` on `side`, with record
`log`. -/
def AckedOn (side : Side) (entry : Entry (System X) (Act X)) (packet : Packet)
    (acks : List Bytes) (log : List Effect) : Prop :=
  entry.act.side = side ∧ ∃ env proof height, entry.act.act =
    .router (.tx ⟨env, .acknowledgePacket packet acks proof height, .returned () log⟩)

/-! ### What a light client's answer says -/

/-- A counterparty that a call found for the linked client is the linked one. -/
theorem Linked.counterparty_eq (hlinked : Linked link system)
    (hrun : Run link sha256 history system) (hmem : entry ∈ history)
    (hside : entry.act.side = side) {cp : Counterparty}
    (hcp : (entry.pre side).router.storage.counterparty (link.client side) = some cp) :
    cp = ⟨link.client side.other, link.commitmentPrefix side.other⟩ := by
  have hstep : onChain side entry ∈ historyOf side history :=
    mem_historyOf.mpr ⟨entry, hmem, hside, rfl⟩
  have hfinal := Chain.counterparty_final (hrun.on side) hstep hcp
  exact Option.some.inj (hfinal.symm.trans (hlinked side))

theorem holds_of_closed {chain : Chain X} {height : Nat} {ledger : Ledger}
    (h : chain.closed[height]? = some ledger) : chain.Holds ledger.provable :=
  .inr ⟨ledger, List.mem_of_getElem? h, rfl⟩

theorem prefixedPath_injective {chunks : List Bytes} {left right : Bytes}
    (h : prefixedPath chunks left = prefixedPath chunks right) : left = right :=
  List.append_cancel_left h

/-- An accepted membership proof is about a store the other chain has. -/
theorem IdealClient.holds_of_membership {env : Env X} {lcAddr : Address}
    (hideal : IdealClient link system side env lcAddr) {height : UInt64}
    {proof key value : Bytes} {ext ext' : X}
    (h : env.invoke lcAddr (.verifyMembership (link.client side) height proof
      (prefixedPath (link.commitmentPrefix side.other) key) value) ext = some (true, ext')) :
    ∃ store, (system side.other).Holds store ∧ store key = some value := by
  obtain ⟨ledger, key', hclosed, hpath, hvalue⟩ := hideal.membership _ _ _ _ _ _ h
  rw [← prefixedPath_injective hpath] at hvalue
  exact ⟨ledger.provable, holds_of_closed hclosed, hvalue⟩

/-! ### Receive and timeout exclude each other -/

/-- A successful timeout saw a ledger of the other chain that closed after the packet's
timeout without its receipt. -/
theorem TimedOutOn.ledger (htimedOut : TimedOutOn side entry packet)
    (hrun : Run link sha256 history system) (hlinked : Linked link system)
    (hmem : entry ∈ history) (hsource : packet.sourceClient = link.client side) :
    ∃ ledger ∈ (system side.other).closed, packet.timeoutTimestamp < ledger.timestamp ∧
      ledger.provable (receiptKey packet.destClient packet.sequence) = none := by
  obtain ⟨hside, env, proof, height, log, hact⟩ := htimedOut
  obtain ⟨hchain, -, hideal⟩ := hrun.step_of_mem hmem
  rw [hside, hact] at hchain
  rw [hside] at hideal
  cases hchain.1.1.returned.lifecycle rfl with
  | timeout hspec =>
      obtain ⟨lcAddr, proofTs, middle, ext, hlc, htimestamp, hlate, habsent⟩ := hspec.proved
      have hcounterparty := hspec.committed.counterparty
      rw [hsource] at hlc htimestamp habsent hcounterparty
      obtain rfl := hlinked.counterparty_eq hrun hmem hside hcounterparty
      have hideal := hideal _ lcAddr hact hlc
      -- the timestamp is not the 0 of an unknown height, since it exceeds the timeout
      rcases hideal.timestamp _ _ _ _ htimestamp with hzero | ⟨ledger, hclosed, hts⟩
      · rw [hzero] at hlate
        exact absurd hlate (UInt64.not_lt.mpr UInt64.zero_le)
      · obtain ⟨ledger', key, hclosed', hpath, hnone⟩ := hideal.nonMembership _ _ _ _ _ habsent
        obtain rfl : ledger = ledger' := Option.some.inj (hclosed.symm.trans hclosed')
        rw [← prefixedPath_injective hpath] at hnone
        refine ⟨ledger, closed_final hrun hmem (List.mem_of_getElem? hclosed), ?_, hnone⟩
        rw [← hts]
        exact hlate

/-- **Receive and timeout exclude each other.**  In no interleaving is a packet both
received on one chain and timed out on the other. -/
theorem not_received_and_timedOut (hrun : Run link sha256 history system)
    (hlinked : Linked link system) (hsource : packet.sourceClient = link.client side) :
    ¬ ((∃ received ∈ history, ∃ log, ReceivedOn side.other received packet log) ∧
      ∃ timedOut ∈ history, TimedOutOn side timedOut packet) := by
  rintro ⟨⟨received, hreceivedMem, log, hside, hreceived⟩, timedOut, htimedOutMem, htimedOut⟩
  obtain ⟨ledger, hledger, hlate, habsent⟩ := htimedOut.ledger hrun hlinked htimedOutMem hsource
  have hmem : onChain side.other received ∈ historyOf side.other history :=
    mem_historyOf.mpr ⟨received, hreceivedMem, hside, rfl⟩
  have hreceivedOn : Chain.Received (onChain side.other received) packet log := hreceived
  have hother := hrun.on side.other
  obtain ⟨env, proof, height, cp, acks, htime, hspec⟩ :=
    hreceivedOn.spec (hother.step_of_mem hmem)
  have hsince := Chain.receiptSince_of_received hother hmem hreceivedOn
  -- received before the timeout, so before that ledger closed
  have hearlier : (received.pre side.other).timestamp < ledger.timestamp := by
    have hbefore := hspec.notElapsed
    rw [htime] at hbefore
    exact UInt64.lt_trans hbefore hlate
  exact hsince.closed ledger hledger hearlier habsent

/-- The receive of the sample exchange. -/
def sampleRecv : Entry (System Unit) (Act Unit) :=
  execute sampleLink Sha256.sha256 afterSend.2 (.call .b (.recvPacket samplePacket [] 0))

theorem sampleRecv_run :
    Run sampleLink Sha256.sha256 (afterSend.1 ++ [sampleRecv]) sampleRecv.post :=
  afterSend_run.execute (by decide)

/-- `Linked` for a concrete system. -/
def linked (link : Link) (system : System Unit) : Bool :=
  [Side.a, Side.b].all fun side =>
    (system side).router.storage.counterparty (link.client side) =
      some ⟨link.client side.other, link.commitmentPrefix side.other⟩

theorem linked_iff {link : Link} {system : System Unit} (h : linked link system = true) :
    Linked link system := by
  simp only [linked, List.all_cons, List.all_nil, Bool.and_true, Bool.and_eq_true,
    decide_eq_true_eq] at h
  intro side
  cases side with
  | a => exact h.1
  | b => exact h.2

theorem sampleRecv_evaluated :
    (((Call.recvPacket samplePacket [] 0).exec Sha256.sha256
      (truthfulEnv sampleLink afterSend.2 .b)).run (afterSend.2 .b).router.start).isOk =
        true ∧
      linked sampleLink sampleRecv.post = true := by
  unfold sampleRecv afterSend
  rw [Sha256.sha256_eq_eval]
  decide +kernel

theorem sampleRecv_received : ∃ log, ReceivedOn .b sampleRecv samplePacket log := by
  obtain ⟨value, log, hact⟩ := State.execute_returned Sha256.sha256 (afterSend.2 .b).router
    (truthfulEnv sampleLink afterSend.2 .b) (.recvPacket samplePacket [] 0)
    sampleRecv_evaluated.1
  exact ⟨log, rfl, _, _, _, congrArg Chain.Act.router hact⟩

theorem sampleRecv_linked : Linked sampleLink sampleRecv.post :=
  linked_iff sampleRecv_evaluated.2

theorem not_timedOut_after_sampleRecv :
    (∃ received ∈ afterSend.1 ++ [sampleRecv], ∃ log,
        ReceivedOn .b received samplePacket log) ∧
      ¬ ∃ timedOut ∈ afterSend.1 ++ [sampleRecv], TimedOutOn .a timedOut samplePacket := by
  have hreceived : ∃ received ∈ afterSend.1 ++ [sampleRecv], ∃ log,
      ReceivedOn .b received samplePacket log :=
    ⟨sampleRecv, by simp, sampleRecv_received⟩
  refine ⟨hreceived, fun htimedOut => ?_⟩
  have hsource : samplePacket.sourceClient = sampleLink.client .a := rfl
  exact not_received_and_timedOut sampleRecv_run sampleRecv_linked hsource
    ⟨hreceived, htimedOut⟩

/-! ### Receives are authentic -/

theorem mem_hashedIn (hmem : entry ∈ history) {env : Env X} {call : Call}
    {value : call.Result}
    (hact : entry.act.act = .router (.tx ⟨env, call, .returned value log⟩)) {data : Bytes}
    (hdata : data ∈ hashedStrings log) : data ∈ hashedIn history := by
  refine ⟨entry, hmem, ?_⟩
  rw [hact]
  exact hdata

/-- What a send established, on the chain it happened on. -/
theorem SentOn.spec (hsent : SentOn side entry packet)
    (hrun : Run link sha256 history system) (hmem : entry ∈ history) :
    ∃ env log, entry.act.act.log = log ∧ SendSpec sha256 env packet
      (entry.pre side).router.start ((entry.post side).router.finish log) := by
  have hstep := (hrun.on side).step_of_mem
    (mem_historyOf.mpr ⟨entry, hmem, hsent.1, rfl⟩)
  have hsentOn : Chain.Sent (onChain side entry) packet := hsent.2
  exact hsentOn.spec hstep

theorem SentOn.nonempty (hsent : SentOn side entry packet)
    (hrun : Run link sha256 history system) (hmem : entry ∈ history) :
    packet.payloads ≠ [] := by
  obtain ⟨env, log, -, hspec⟩ := hsent.spec hrun hmem
  exact hspec.nonempty

/-- The strings of a sent packet's commitment were hashed. -/
theorem SentOn.hashed (hsent : SentOn side entry packet)
    (hrun : Run link sha256 history system) (hmem : entry ∈ history) :
    ∀ s ∈ packetStrings sha256 packet, s ∈ hashedIn history := by
  obtain ⟨env, log, rfl, hspec⟩ := hsent.spec hrun hmem
  exact fun s hs => ⟨entry, hmem, hspec.hashed s hs⟩

/-- A commitment that some store of `side` holds for `packet` means that `side` sent a
packet with the same commitment at the same place; where hashes do not collide it is
`packet`. -/
theorem sent_of_commitment (hrun : Run link sha256 history system)
    (hinj : Set.InjOn sha256 (hashedIn history)) (hsplit : history = before ++ after)
    (hbefore : Run link sha256 before system') {store : Bytes → Option Bytes}
    (hholds : (system' side).Holds store)
    (hvalue : store (commitmentKey packet.sourceClient packet.sequence) =
      some (v2PacketCommitment sha256 packet).val)
    (hhashed : ∀ s ∈ packetStrings sha256 packet, s ∈ hashedIn history) :
    ∃ sent ∈ before, SentOn side sent packet := by
  obtain ⟨step, hstep, sent, hsent, hclient, hsequence, hcommitment⟩ :=
    Chain.commitment_origin (hbefore.on side) hholds hvalue
  obtain ⟨entry, hmem, hside, rfl⟩ := mem_historyOf.mp hstep
  have hsentOn : SentOn side entry sent := ⟨hside, hsent⟩
  have hmem' : entry ∈ history := by
    rw [hsplit]
    exact List.mem_append_left _ hmem
  obtain ⟨hdest, htimeout, hpayloads⟩ := v2PacketCommitment_binding hinj
    hhashed (hsentOn.hashed hrun hmem') (BytesN.ext hcommitment)
  -- the path fixes the two fields the commitment leaves out
  obtain rfl : sent = packet := by
    cases sent
    cases packet
    simp_all
  exact ⟨entry, hmem, hsentOn⟩

theorem ReceivedOn.sent (hreceived : ReceivedOn side entry packet log)
    (hrun : Run link sha256 history system) (hlinked : Linked link system)
    (hinj : Set.InjOn sha256 (hashedIn history))
    (hsplit : history = before ++ entry :: after)
    (hdest : packet.destClient = link.client side) :
    packet.sourceClient = link.client side.other ∧
      ∃ sent ∈ before, SentOn side.other sent packet := by
  have hmem : entry ∈ history := by simp [hsplit]
  obtain ⟨hbefore, hchain, -, hideal⟩ := hrun.split hsplit
  obtain ⟨hside, env, proof, height, hact⟩ := hreceived
  rw [hside, hact] at hchain
  rw [hside] at hideal
  cases hchain.1.1.returned.lifecycle rfl with
  | recv hspec =>
      obtain ⟨lcAddr, ext, hlc, hinvoke⟩ := hspec.proved
      have hcounterparty := hspec.counterparty
      rw [hdest] at hlc hinvoke hcounterparty
      obtain rfl := hlinked.counterparty_eq hrun hmem hside hcounterparty
      obtain ⟨store, hholds, hvalue⟩ := (hideal _ lcAddr hact hlc).holds_of_membership hinvoke
      have hhashed : ∀ s ∈ packetStrings sha256 packet, s ∈ hashedIn history :=
        fun s hs => mem_hashedIn hmem hact (hspec.hashedPacket s hs)
      exact ⟨hspec.source.symm,
        sent_of_commitment hrun hinj hsplit hbefore hholds hvalue hhashed⟩

/-- **Receives are authentic.**  Whatever a chain receives on the linked client, the
other chain has sent before, field for field, unless two hashed strings collide. -/
theorem received_authentic (hrun : Run link sha256 history system)
    (hlinked : Linked link system) (hsplit : history = before ++ entry :: after)
    (hreceived : ReceivedOn side entry packet log)
    (hdest : packet.destClient = link.client side) :
    (∃ sent ∈ before, SentOn side.other sent packet) ∨
      Collision sha256 (hashedIn history) := by
  by_cases hcollision : Collision sha256 (hashedIn history)
  · exact .inr hcollision
  · have hinj := not_collision_iff_injOn.mp hcollision
    exact .inl (hreceived.sent hrun hlinked hinj hsplit hdest).2

theorem received_authentic_sample :
    (∃ log, ReceivedOn .b sampleRecv samplePacket log) ∧
      ((∃ sent ∈ afterSend.1, SentOn .a sent samplePacket) ∨
        Collision Sha256.sha256 (hashedIn (afterSend.1 ++ [sampleRecv]))) := by
  refine ⟨sampleRecv_received, ?_⟩
  obtain ⟨log, hreceived⟩ := sampleRecv_received
  exact received_authentic sampleRecv_run sampleRecv_linked rfl hreceived rfl

/-! ### Acknowledgements agree -/

/-- With one acknowledgement per payload, the loop never falls back to the error
acknowledgement. -/
theorem zipIdx_map_ackOrError {payloads : List Payload} {acks : List Bytes}
    (hlength : acks.length = payloads.length) {β : Type} (f : Payload → Bytes → β) :
    (payloads.zipIdx.map fun item => f item.1 (ackOrError sha256 acks item.2)) =
      (payloads.zip acks).map fun item => f item.1 item.2 := by
  apply List.ext_getElem
  · simp [hlength]
  · intro i hleft hright
    have hi : i < acks.length := by simp at hright; omega
    simp [ackOrError, hi]

/-- An acknowledged packet was sent here, and the acknowledgements are those of a packet
received there at the same place. -/
theorem AckedOn.origin (hrun : Run link sha256 history system)
    (hlinked : Linked link system) (hinj : Set.InjOn sha256 (hashedIn history))
    (hsplit : history = before ++ entry :: after) {acks : List Bytes}
    (hacked : AckedOn side entry packet acks log)
    (hsource : packet.sourceClient = link.client side) :
    packet.destClient = link.client side.other ∧
      (∃ sent ∈ before, SentOn side sent packet) ∧
      ∃ received ∈ before, ∃ env q proof height cp acks' recvLog,
        ReceivedOn side.other received q recvLog ∧
        q.destClient = packet.destClient ∧ q.sequence = packet.sequence ∧
        RecvSpec sha256 env q proof height cp acks' (received.pre side.other).router.start
          ((received.post side.other).router.finish recvLog) ∧
        acks = returnedAcks sha256 acks' := by
  have hmem : entry ∈ history := by simp [hsplit]
  obtain ⟨hbefore, hchain, -, hideal⟩ := hrun.split hsplit
  obtain ⟨hside, env, proof, height, hact⟩ := hacked
  rw [hside, hact] at hchain
  rw [hside] at hideal
  cases hchain.1.1.returned.lifecycle rfl with
  | ack hspec =>
      obtain ⟨lcAddr, ext, hlc, hinvoke⟩ := hspec.proved
      obtain ⟨hstored, hcounterparty, hdest⟩ := hspec.committed
      rw [hsource] at hlc hinvoke hcounterparty
      obtain rfl := hlinked.counterparty_eq hrun hmem hside hcounterparty
      have hhashed : ∀ s ∈ packetStrings sha256 packet, s ∈ hashedIn history :=
        fun s hs => mem_hashedIn hmem hact (hspec.hashedPacket s hs)
      refine ⟨hdest.symm,
        sent_of_commitment hrun hinj hsplit hbefore (.inl rfl) hstored hhashed, ?_⟩
      obtain ⟨store, hholds, hvalue⟩ := (hideal _ lcAddr hact hlc).holds_of_membership hinvoke
      obtain ⟨step, hstep, env', q, proof', height', cp, acks', recvLog, hreceived, hqdest,
        hqsequence, hrecvSpec, hcommitment⟩ :=
        Chain.ack_origin (Run.on hbefore side.other) hholds hvalue
      obtain ⟨received, hreceivedMem, hreceivedSide, rfl⟩ := mem_historyOf.mp hstep
      have hreceivedMem' : received ∈ history := by
        rw [hsplit]
        exact List.mem_append_left _ hreceivedMem
      obtain ⟨env'', proof'', height'', hreceivedAct⟩ := hreceived
      -- both acknowledgement lists were hashed, so equal commitments mean equal lists
      have hacks : acks = returnedAcks sha256 acks' := by
        apply v2AckCommitment_binding hinj _ _ (BytesN.ext hcommitment)
        · exact fun s hs => mem_hashedIn hmem hact (hspec.hashedAcks s hs)
        · exact fun s hs => mem_hashedIn hreceivedMem' hreceivedAct (hrecvSpec.hashedAcks s hs)
      exact ⟨received, hreceivedMem, env', q, proof', height', cp, acks', recvLog,
        ⟨hreceivedSide, env'', proof'', height'', hreceivedAct⟩, hqdest, hqsequence,
        hrecvSpec, hacks⟩

/-- The calls an acknowledgement makes. -/
theorem AckedOn.calls (hrun : Run link sha256 history system) (hmem : entry ∈ history)
    {acks : List Bytes} (hacked : AckedOn side entry packet acks log) :
    ackCalls log = packet.payloads.zipIdx.map fun item =>
      ((entry.pre side).router.storage.port item.1.sourcePort,
        ackCallback packet item.1 (ackOrError sha256 acks item.2)) := by
  obtain ⟨hside, env, proof, height, hact⟩ := hacked
  obtain ⟨hchain, -, -⟩ := hrun.step_of_mem hmem
  rw [hside, hact] at hchain
  cases hchain.1.1.returned.lifecycle rfl with
  | ack hspec => exact hspec.calls

/-- **Acknowledgements agree.**  A packet acknowledged with `acks` on one chain was
received exactly so on the other, and `acks` are what its apps returned, one for each
payload and in order, and what the acknowledging apps are given. -/
theorem acknowledged_agrees (hrun : Run link sha256 history system)
    (hlinked : Linked link system) (hfree : ¬ Collision sha256 (hashedIn history))
    (hsplit : history = before ++ entry :: after) {acks : List Bytes}
    (hacked : AckedOn side entry packet acks log)
    (hsource : packet.sourceClient = link.client side) :
    ∃ received ∈ before, ∃ recvLog, ReceivedOn side.other received packet recvLog ∧
      acks.length = packet.payloads.length ∧
      recvCalls recvLog = ((packet.payloads.zip acks).map fun item =>
        ((received.pre side.other).router.storage.port item.1.destPort,
          recvCallback packet item.1, item.2)) ∧
      ackCalls log = ((packet.payloads.zip acks).map fun item =>
        ((entry.pre side).router.storage.port item.1.sourcePort,
          ackCallback packet item.1 item.2)) := by
  have hinj := not_collision_iff_injOn.mp hfree
  have hmem : entry ∈ history := by simp [hsplit]
  obtain ⟨hdest, ⟨sent, hsentMem, hsent⟩, received, hreceivedMem, env, q, proof, height, cp,
    acks', recvLog, hreceived, hqdest, hqsequence, hspec, rfl⟩ :=
    hacked.origin hrun hlinked hinj hsplit hsource
  -- what was received there was sent here, at the sequence of `packet`: it is `packet`
  obtain rfl : q = packet := by
    obtain ⟨early, late, hearly⟩ := List.append_of_mem hreceivedMem
    have hsplit' : history = early ++ received :: (late ++ entry :: after) := by
      simp [hsplit, hearly]
    obtain ⟨hqsource, qsent, hqsentMem, hqsent⟩ :=
      hreceived.sent hrun hlinked hinj hsplit' (hqdest.trans hdest)
    rw [Side.other_other] at hqsource hqsent
    have hunique := Chain.sent_unique (hrun.on side) (onChain side qsent) ?_
      (onChain side sent) ?_ q packet hqsent.2 hsent.2 (hqsource.trans hsource.symm) hqsequence
    · exact hunique
    · exact mem_historyOf.mpr ⟨qsent, by simp [hsplit', hqsentMem], hqsent.1, rfl⟩
    · exact mem_historyOf.mpr ⟨sent, by simp [hsplit, hsentMem], hsent.1, rfl⟩
  have hsentMem' : sent ∈ history := by simp [hsplit, hsentMem]
  have hnonempty : acks' ≠ [] := by
    have hlength := hspec.length
    have hpayloads := hsent.nonempty hrun hsentMem'
    rintro rfl
    exact hpayloads (List.length_eq_zero_iff.mp hlength.symm)
  have hreturned : returnedAcks sha256 acks' = acks' := if_neg hnonempty
  rw [hreturned] at hacked ⊢
  refine ⟨received, hreceivedMem, recvLog, hreceived, hspec.length, hspec.calls, ?_⟩
  rw [hacked.calls hrun hmem]
  exact zipIdx_map_ackOrError hspec.length fun payload ack =>
    ((entry.pre side).router.storage.port payload.sourcePort, ackCallback q payload ack)

/-- The acknowledgement of the sample exchange. -/
def sampleAck : Entry (System Unit) (Act Unit) :=
  execute sampleLink Sha256.sha256 afterRecv.2
    (.call .a (.acknowledgePacket samplePacket [ascii "ok"] [] 0))

/-- The strings the sample exchange hashes, each once. -/
def sampleStrings : List Bytes :=
  (packetStrings Sha256.sha256 samplePacket ++ ackStrings Sha256.sha256 [ascii "ok"]).dedup

theorem sampleAck_evaluated :
    (((Call.acknowledgePacket samplePacket [ascii "ok"] [] 0).exec Sha256.sha256
      (truthfulEnv sampleLink afterRecv.2 .a)).run (afterRecv.2 .a).router.start).isOk =
        true ∧
      linked sampleLink sampleAck.post = true ∧
      (sampleStrings.map Sha256.sha256).Nodup ∧
      ∀ entry ∈ afterRecv.1 ++ [sampleAck],
        ∀ s ∈ hashedStrings entry.act.act.log, s ∈ sampleStrings := by
  unfold sampleAck sampleStrings afterRecv
  rw [Sha256.sha256_eq_eval]
  decide +kernel

theorem sampleAck_acked : ∃ log, AckedOn .a sampleAck samplePacket [ascii "ok"] log := by
  obtain ⟨value, log, hact⟩ := State.execute_returned Sha256.sha256 (afterRecv.2 .a).router
    (truthfulEnv sampleLink afterRecv.2 .a)
    (.acknowledgePacket samplePacket [ascii "ok"] [] 0) sampleAck_evaluated.1
  exact ⟨log, rfl, _, _, _, congrArg Chain.Act.router hact⟩

theorem sampleAck_no_collision :
    ¬ Collision Sha256.sha256 (hashedIn (afterRecv.1 ++ [sampleAck])) := by
  obtain ⟨-, -, hnodup, hstrings⟩ := sampleAck_evaluated
  apply not_collision_iff_injOn.mpr
  rintro left ⟨entry, hmem, hleft⟩ right ⟨entry', hmem', hright⟩ hequal
  exact List.inj_on_of_nodup_map hnodup (hstrings entry hmem left hleft)
    (hstrings entry' hmem' right hright) hequal

theorem acknowledged_agrees_sample :
    ∃ received ∈ afterRecv.1, ∃ recvLog, ReceivedOn .b received samplePacket recvLog ∧
      (recvCalls recvLog).map (fun call => call.2.2) = [ascii "ok"] := by
  have hlinked : Linked sampleLink sampleAck.post := linked_iff sampleAck_evaluated.2.1
  obtain ⟨log, hacked⟩ := sampleAck_acked
  have hsource : samplePacket.sourceClient = sampleLink.client .a := rfl
  obtain ⟨received, hmem, recvLog, hreceived, -, hcalls, -⟩ :=
    acknowledged_agrees (afterRecv_run.execute (by decide)) hlinked sampleAck_no_collision rfl
      hacked hsource
  exact ⟨received, hmem, recvLog, hreceived, by rw [hcalls]; rfl⟩

end StellarIbc.TwoChain
