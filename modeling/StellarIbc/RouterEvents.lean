import StellarIbc.Decimal
import StellarIbc.EventAttributes
import StellarIbc.RouterDestination
import StellarIbc.XdrReader

/-!
# What the gateway reads of the router's events

`events.rs` of the router says which fields of an event are topics and which are data, and
`event_attributes` of the gateway reads the kind from the topics and everything else from
the data.  The events that carry a packet can be told apart by their texts; the written
acknowledgements cannot, because their client and sequence are topics only.
-/

namespace StellarIbc.Router

open Contract
open StellarIbc.Core (Xdr Fits FieldNames PacketText eventAttributes scvalField structMap
  unlines newline)

/-! ### Events in XDR -/

/-- The name of the event, which is its first topic. -/
def Event.kind : Event → Bytes
  | .sendPacket .. => ascii "send_packet"
  | .recvPacket .. => ascii "recv_packet"
  | .writeAck .. => ascii "write_ack"
  | .ackPacket .. => ascii "ack_packet"
  | .timeoutPacket .. => ascii "timeout_packet"

def Event.clientId : Event → HostString
  | .sendPacket c _ _ | .recvPacket c _ _ | .writeAck c _ _ | .ackPacket c _ _ _
  | .timeoutPacket c _ _ => c

def Event.sequence : Event → UInt64
  | .sendPacket _ n _ | .recvPacket _ n _ | .writeAck _ n _ | .ackPacket _ n _ _
  | .timeoutPacket _ n _ => n

def Event.packet : Event → Option Packet
  | .sendPacket _ _ packet | .recvPacket _ _ packet | .ackPacket _ _ packet _
  | .timeoutPacket _ _ packet => some packet
  | .writeAck .. => none

def payloadFields (payload : Payload) : List (Bytes × ScVal) :=
  [(ascii "dest_port", .string payload.destPort),
    (ascii "encoding", .string payload.encoding),
    (ascii "source_port", .string payload.sourcePort),
    (ascii "value", .bytes payload.value),
    (ascii "version", .string payload.version)]

def packetFields (packet : Packet) : List (Bytes × ScVal) :=
  [(ascii "dest_client", .string packet.destClient),
    (ascii "payloads", .vec (packet.payloads.map fun payload => .struct (payloadFields payload))),
    (ascii "sequence", .u64 packet.sequence),
    (ascii "source_client", .string packet.sourceClient),
    (ascii "timeout_timestamp", .u64 packet.timeoutTimestamp)]

/-- The fields that are not topics. -/
def Event.dataFields : Event → List (Bytes × ScVal)
  | .sendPacket _ _ packet | .recvPacket _ _ packet | .timeoutPacket _ _ packet =>
      [(ascii "packet", .struct (packetFields packet))]
  | .writeAck _ _ acknowledgements =>
      [(ascii "acknowledgements", .vec (acknowledgements.map .bytes))]
  | .ackPacket _ _ packet acknowledgements =>
      [(ascii "acknowledgements", .vec (acknowledgements.map .bytes)),
        (ascii "packet", .struct (packetFields packet))]

def Event.topics (event : Event) : List ScVal :=
  [.symbol event.kind, .string event.clientId, .u64 event.sequence]

def Event.data (event : Event) : ScVal := .struct event.dataFields

/-- The text of the event as the gateway gets it from the ledger. -/
def Event.attributes (xdr : Xdr) (event : Event) : Option Bytes :=
  eventAttributes xdr (event.topics.map ScVal.toXdr) event.data.toXdr

/-- The topics and the data are within the limits of XDR. -/
structure Event.Bounded (event : Event) : Prop where
  topics : ∀ topic ∈ event.topics, Fits topic
  data : Fits event.data

/-! ### Published events -/

def Act.events {X : Type} (act : Act X) : List Event :=
  act.log.filterMap fun
    | .published event => some event
    | _ => none

/-- Some run of the router published the event. -/
def Published (X : Type) (sha256 : Bytes → Hash) (event : Event) : Prop :=
  ∃ (history : List (Entry (State X) (Act X))) (state : State X),
    Run sha256 history state ∧ ∃ entry ∈ history, event ∈ entry.act.events

section

variable {X : Type} {sha256 : Bytes → Hash} {env : Env X}

/-- Every event so far is of its packet. -/
def Ctx.Truthful (ctx : Ctx X) : Prop :=
  ∀ event, Effect.published event ∈ ctx.log → event.OfPacket

theorem truthful_append {ctx : Ctx X} {effect : Effect}
    (h : ∀ event, effect = .published event → event.OfPacket) :
    Ctx.Truthful { ctx with log := ctx.log ++ [effect] } = ctx.Truthful := by
  apply propext
  constructor
  · intro htruthful event hmem
    exact htruthful event (List.mem_append_left _ hmem)
  · intro htruthful event hmem
    rcases List.mem_append.mp hmem with hmem | hmem
    · exact htruthful event hmem
    · exact h event (List.mem_singleton.mp hmem).symm

instance : SeesEvents (Ctx.Truthful (X := X)) where
  storage _ _ := rfl
  hashed ctx data := by
    apply truthful_append
    intro event heq
    cases heq
  published ctx event hof := by
    apply truthful_append
    intro event' heq
    cases heq
    exact hof

theorem keepsKind_truthful (kind : InvocationKind) :
    KeepsKind (Ctx.Truthful (X := X)) env kind where
  keeps callee call hcall := by
    refine ⟨fun h => ?_⟩
    obtain ⟨ext, -, rfl⟩ := returns_invokeContract.mp h
    apply truthful_append
    intro event heq
    cases heq

theorem Published.ofPacket {event : Event} (h : Published X sha256 event) : event.OfPacket := by
  obtain ⟨history, state, hrun, ⟨pre, act, post⟩, hmem, hevent⟩ := h
  obtain ⟨effect, heffect, hpublished⟩ := List.mem_filterMap.mp hevent
  rcases Step.log_cases (hrun.step_of_mem hmem) with hlog | ⟨env, call, value, log, rfl, hreturned⟩
  · dsimp only at hlog
    rw [hlog] at heffect
    cases heffect
  · have hkeeps : Keeps (Ctx.Truthful (X := X)) (call.exec sha256 env) := by
      apply keeps_exec
      intro kind _
      exact keepsKind_truthful kind
    have hstart : Ctx.Truthful (X := X) pre.start := by
      intro event hmem
      cases hmem
    have htruthful := (hkeeps.keeps hreturned).mpr hstart
    cases effect with
    | published event' =>
        obtain rfl := Option.some.inj hpublished
        exact htruthful _ heffect
    | hashed data => cases hpublished
    | invoked callee call result => cases hpublished

end

/-! ### Texts -/

theorem names_payload : FieldNames [ascii "dest_port", ascii "encoding", ascii "source_port",
    ascii "value", ascii "version"] := by
  decide

theorem names_packet : FieldNames [ascii "dest_client", ascii "payloads", ascii "sequence",
    ascii "source_client", ascii "timeout_timestamp"] := by
  decide

theorem names_payloadFields (payload : Payload) :
    FieldNames ((payloadFields payload).map Prod.fst) :=
  names_payload

theorem names_packetFields (packet : Packet) :
    FieldNames ((packetFields packet).map Prod.fst) :=
  names_packet

theorem names_packetOnly : FieldNames [ascii "packet"] := by decide

theorem names_acknowledgements : FieldNames [ascii "acknowledgements"] := by decide

theorem names_acknowledged : FieldNames [ascii "acknowledgements", ascii "packet"] := by
  decide

theorem Event.names_data (event : Event) : FieldNames (event.dataFields.map Prod.fst) := by
  cases event with
  | sendPacket c n packet | recvPacket c n packet | timeoutPacket c n packet =>
      exact names_packetOnly
  | writeAck c n acks => exact names_acknowledgements
  | ackPacket c n packet acks => exact names_acknowledged

theorem Event.packet_mem_dataFields {event : Event} {packet : Packet}
    (h : event.packet = some packet) :
    (ascii "packet", .struct (packetFields packet)) ∈ event.dataFields := by
  cases event with
  | sendPacket c n packet' | recvPacket c n packet' | timeoutPacket c n packet' =>
      obtain rfl := Option.some.inj h
      exact List.mem_cons_self
  | writeAck c n acks => cases h
  | ackPacket c n packet' acks =>
      obtain rfl := Option.some.inj h
      exact List.mem_cons_of_mem _ List.mem_cons_self

/-- The ports of the first payload, as the text has them. -/
def firstPorts (packet : Packet) : HostString × HostString :=
  match packet.payloads.head? with
  | some payload => (payload.sourcePort, payload.destPort)
  | none => (ascii "transfer", ascii "transfer")

/-- What goes into the text of a packet. -/
def packetText (xdr : Xdr) (kind : Bytes) (packet : Packet) : PacketText where
  kind := kind
  sequence := decimal packet.sequence.toNat
  sourceClient := xdr.display packet.sourceClient
  destClient := xdr.display packet.destClient
  sourcePort := xdr.display (firstPorts packet).1
  destPort := xdr.display (firstPorts packet).2

variable {xdr : Xdr}

theorem scvalField_payload (hxdr : xdr.Lawful) {payload : Payload} {i : Nat} {name : Bytes}
    {val : ScVal} (h : (payloadFields payload)[i]? = some (name, val)) :
    scvalField xdr (structMap (payloadFields payload)) name = some val :=
  Core.scvalField_struct hxdr (names_payloadFields payload) (List.mem_of_getElem? h)

theorem scvalField_packet (hxdr : xdr.Lawful) {packet : Packet} {i : Nat} {name : Bytes}
    {val : ScVal} (h : (packetFields packet)[i]? = some (name, val)) :
    scvalField xdr (structMap (packetFields packet)) name = some val :=
  Core.scvalField_struct hxdr (names_packetFields packet) (List.mem_of_getElem? h)

theorem firstPayloadPorts_packet (hxdr : xdr.Lawful) (packet : Packet) :
    Core.firstPayloadPorts xdr (structMap (packetFields packet)) =
      (xdr.display (firstPorts packet).1, xdr.display (firstPorts packet).2) := by
  have hpayloads := scvalField_packet hxdr (rfl : (packetFields packet)[1]? = _)
  have htransfer : xdr.display (ascii "transfer") = ascii "transfer" :=
    hxdr.display_plain _ (by decide)
  unfold Core.firstPayloadPorts firstPorts
  rw [hpayloads]
  cases packet.payloads with
  | nil =>
      simp only [List.map_nil, List.head?_nil, Option.bind_none, htransfer]
  | cons payload payloads =>
      have hsource := scvalField_payload hxdr (rfl : (payloadFields payload)[2]? = _)
      have hdest := scvalField_payload hxdr (rfl : (payloadFields payload)[0]? = _)
      simp only [List.map_cons, List.head?_cons, Option.bind_some, Core.scvalAsMap_struct]
      rw [hsource, hdest]
      rfl

theorem packetAttributes_packet (hxdr : xdr.Lawful) (kind : Bytes) (packet : Packet) :
    Core.packetAttributes xdr kind (structMap (packetFields packet)) =
      unlines (packetText xdr kind packet).lines := by
  have hdest := scvalField_packet hxdr (rfl : (packetFields packet)[0]? = _)
  have hsequence := scvalField_packet hxdr (rfl : (packetFields packet)[2]? = _)
  have hsource := scvalField_packet hxdr (rfl : (packetFields packet)[3]? = _)
  unfold Core.packetAttributes
  rw [firstPayloadPorts_packet hxdr, hsequence, hsource, hdest]
  have hsequenceKey : ascii "\npacket_sequence=" = newline :: ascii "packet_sequence=" := by
    decide
  have hportKey : ascii "\npacket_dst_port=" = newline :: ascii "packet_dst_port=" := by
    decide
  have hend : ascii "\n" = [newline] := by decide
  simp only [Option.bind_some, Core.scvalAsU64, Core.scvalAsString, Option.getD_some]
  rw [hsequenceKey, hportKey, hend]
  simp only [PacketText.lines, PacketText.destLines, PacketText.portLines, packetText,
    Core.unlines_cons, Core.unlines_append, Core.unlines_optionalLine, Core.unlines_nil,
    List.append_assoc, List.cons_append, List.nil_append]

theorem Event.plain_kind (event : Event) : Core.Plain event.kind := by
  have hkinds : ∀ kind ∈ [ascii "send_packet", ascii "recv_packet", ascii "write_ack",
      ascii "ack_packet", ascii "timeout_packet"], Core.Plain kind := by
    decide
  apply hkinds
  cases event <;> simp [Event.kind]

/-- The kind is the text of the first topic. -/
theorem Event.attributes_eq (hxdr : xdr.Lawful) {event : Event} (hbounded : event.Bounded) :
    event.attributes xdr =
      match (scvalField xdr (structMap event.dataFields) (ascii "packet")).bind
          Core.scvalAsMap with
      | some packet => some (Core.packetAttributes xdr event.kind packet)
      | none =>
          match (scvalField xdr (structMap event.dataFields) (ascii "client_id")).bind
              (Core.scvalAsString xdr) with
          | some clientId =>
              some (ascii "type=" ++ event.kind ++ ascii "\n" ++ (ascii "client_id=" ++ clientId ++
                ascii "\n"))
          | none => some (ascii "type=" ++ event.kind ++ ascii "\n") := by
  have htopic : Core.scvalFromXdr xdr (ScVal.symbol event.kind).toXdr = .ok (.symbol event.kind) :=
    Core.scvalFromXdr_toXdr hxdr (hbounded.topics _ List.mem_cons_self)
  have hdata := Core.scvalFromXdr_toXdr hxdr hbounded.data
  have hkind : Core.scvalAsSymbol xdr (.symbol event.kind) = some event.kind := by
    rw [Core.scvalAsSymbol, hxdr.display_plain _ event.plain_kind]
  have hmap : Core.scvalAsMap event.data = some (structMap event.dataFields) :=
    Core.scvalAsMap_struct _
  unfold Event.attributes eventAttributes
  simp only [Event.topics, List.map_cons, List.head?_cons, bind, Option.bind, htopic, hdata, hkind,
    hmap, Except.toOption]
  rfl

theorem Event.attributes_packet (hxdr : xdr.Lawful) {event : Event} (hbounded : event.Bounded)
    {packet : Packet} (hpacket : event.packet = some packet) :
    event.attributes xdr = some (unlines (packetText xdr event.kind packet).lines) := by
  have hfield := Core.scvalField_struct hxdr event.names_data (packet_mem_dataFields hpacket)
  rw [event.attributes_eq hxdr hbounded, hfield, Option.bind_some, Core.scvalAsMap_struct]
  dsimp only
  rw [packetAttributes_packet hxdr]

/-- Neither the client nor the sequence of a written acknowledgement is in its text. -/
theorem Event.attributes_writeAck (hxdr : xdr.Lawful) {c : HostString} {n : UInt64}
    {acks : List Bytes} (hbounded : (Event.writeAck c n acks).Bounded) :
    (Event.writeAck c n acks).attributes xdr = some (unlines [ascii "type=write_ack"]) := by
  have hpacket := @Core.scvalField_struct_none xdr hxdr _ (Event.writeAck c n acks).names_data
    (ascii "packet") (by decide : ascii "packet" ∉ [ascii "acknowledgements"])
  have hclientId := @Core.scvalField_struct_none xdr hxdr _ (Event.writeAck c n acks).names_data
    (ascii "client_id") (by decide : ascii "client_id" ∉ [ascii "acknowledgements"])
  rw [Event.attributes_eq hxdr hbounded, hpacket, hclientId]
  rfl

theorem newline_not_mem_display (hxdr : xdr.Lawful) (text : Bytes) :
    newline ∉ xdr.display text := by
  intro hmem
  have hprintable := hxdr.display_printable text _ hmem
  revert hprintable
  decide

theorem newline_not_mem_decimal (n : Nat) : newline ∉ decimal n := by
  intro hmem
  have hdigit := (canonical_decimal n).digit _ hmem
  revert hdigit
  decide

theorem oneLine_packetText (hxdr : xdr.Lawful) (event : Event) (packet : Packet) :
    (packetText xdr event.kind packet).OneLine where
  kind := by
    have hkind : newline ∉ xdr.display event.kind := newline_not_mem_display hxdr _
    rwa [hxdr.display_plain _ event.plain_kind] at hkind
  sequence := newline_not_mem_decimal _
  sourceClient := newline_not_mem_display hxdr _
  destClient := newline_not_mem_display hxdr _
  sourcePort := newline_not_mem_display hxdr _
  destPort := newline_not_mem_display hxdr _

/-! ### Reading the texts back -/

/-- What is read back from a text. -/
structure EventReading where
  kind : Bytes
  clientId : HostString
  sequence : UInt64
  sourceClient : HostString
  destClient : HostString
  sourcePort : HostString
  destPort : HostString

/-- The reading is right about the event, as far as it has a packet and a first payload. -/
structure EventReading.Describes (reading : EventReading) (event : Event) : Prop where
  kind : reading.kind = event.kind
  clientId : reading.clientId = event.clientId
  sequence : reading.sequence = event.sequence
  packet : ∀ packet, event.packet = some packet →
    reading.sourceClient = packet.sourceClient ∧ reading.destClient = packet.destClient ∧
      ∀ payload, packet.payloads.head? = some payload →
        reading.sourcePort = payload.sourcePort ∧ reading.destPort = payload.destPort

/-- The event has a text, and there is one reading of that text that is right about every
published event that has it. -/
def Event.Readable (xdr : Xdr) (X : Type) (sha256 : Bytes → Hash) (event : Event) : Prop :=
  ∃ text, event.attributes xdr = some text ∧ ∃ reading : EventReading,
    ∀ other : Event, Published X sha256 other → other.Bounded → other.attributes xdr = some text →
      reading.Describes other

/-- The client of an event is told by its kind and its packet. -/
theorem Event.OfPacket.clientId_eq {event : Event} (h : event.OfPacket) {packet : Packet}
    (hpacket : event.packet = some packet) :
    event.clientId = (if event.kind = ascii "recv_packet" then packet.destClient
        else packet.sourceClient) ∧
      event.sequence = packet.sequence := by
  have hsend : ascii "send_packet" ≠ ascii "recv_packet" := by decide
  have hack : ascii "ack_packet" ≠ ascii "recv_packet" := by decide
  have htimeout : ascii "timeout_packet" ≠ ascii "recv_packet" := by decide
  cases event with
  | sendPacket c n packet' =>
      obtain rfl := Option.some.inj hpacket
      rw [Event.kind, if_neg hsend]
      exact h
  | recvPacket c n packet' =>
      obtain rfl := Option.some.inj hpacket
      rw [Event.kind, if_pos rfl]
      exact h
  | writeAck c n acks => cases hpacket
  | ackPacket c n packet' acks =>
      obtain rfl := Option.some.inj hpacket
      rw [Event.kind, if_neg hack]
      exact h
  | timeoutPacket c n packet' =>
      obtain rfl := Option.some.inj hpacket
      rw [Event.kind, if_neg htimeout]
      exact h

/-- Two events with packets and the same text agree on what the text is made of. -/
theorem Event.parts_eq (hxdr : xdr.Lawful) {event other : Event} {packet packet' : Packet}
    (h : packetText xdr event.kind packet = packetText xdr other.kind packet') :
    event.kind = other.kind ∧ packet.sequence = packet'.sequence ∧
      packet.sourceClient = packet'.sourceClient ∧ packet.destClient = packet'.destClient ∧
      firstPorts packet = firstPorts packet' := by
  simp only [packetText, PacketText.mk.injEq] at h
  obtain ⟨hkind, hsequence, hsource, hdest, hsourcePort, hdestPort⟩ := h
  exact ⟨hkind, UInt64.toNat_inj.mp (decimal_injective hsequence),
    hxdr.display_injective hsource, hxdr.display_injective hdest,
    Prod.ext (hxdr.display_injective hsourcePort) (hxdr.display_injective hdestPort)⟩

variable {X : Type} {sha256 : Bytes → Hash}

theorem Event.readable_of_packet (hxdr : xdr.Lawful) {event : Event}
    (hpublished : Published X sha256 event) (hbounded : event.Bounded) {packet : Packet}
    (hpacket : event.packet = some packet) : event.Readable xdr X sha256 := by
  obtain ⟨hclientId, hsequence⟩ := hpublished.ofPacket.clientId_eq hpacket
  have hline := oneLine_packetText hxdr event packet
  refine ⟨_, event.attributes_packet hxdr hbounded hpacket, ⟨event.kind, event.clientId,
    event.sequence, packet.sourceClient, packet.destClient, (firstPorts packet).1,
    (firstPorts packet).2⟩, ?_⟩
  intro other hother hother' htext
  cases hpacket' : other.packet with
  | none =>
      -- an acknowledgement's text is one line, a packet's at least four
      cases other with
      | writeAck c n acks =>
          rw [attributes_writeAck hxdr hother', Option.some.injEq] at htext
          have hlines := Core.unlines_injective
            (by decide : ∀ line ∈ [ascii "type=write_ack"], newline ∉ line)
            (PacketText.newline_not_mem_lines hline) htext
          exact absurd (List.cons_eq_cons.mp hlines).2.symm (List.cons_ne_nil _ _)
      | _ => cases hpacket'
  | some packet' =>
      rw [other.attributes_packet hxdr hother' hpacket', Option.some.injEq] at htext
      have htexts := PacketText.unlines_lines_injective hline
        (oneLine_packetText hxdr other packet') htext.symm
      obtain ⟨hkind, hsame, hsource, hdest, hports⟩ := Event.parts_eq hxdr htexts
      obtain ⟨hclientId', hsequence'⟩ := hother.ofPacket.clientId_eq hpacket'
      refine ⟨hkind, ?_, ?_, ?_⟩
      · rw [hclientId', ← hkind, ← hsource, ← hdest]
        exact hclientId
      · rw [hsequence', ← hsame]
        exact hsequence
      · intro packet'' heq
        obtain rfl := Option.some.inj (hpacket'.symm.trans heq)
        refine ⟨hsource, hdest, ?_⟩
        intro payload hpayload
        rw [hports, firstPorts, hpayload]
        exact ⟨rfl, rfl⟩

/-! ### Written acknowledgements -/

theorem setPacketReceipt_returns {c : HostString} (hlength : c.length + 9 ≤ 128) (n : UInt64)
    (pre : Ctx X) :
    Returns (setPacketReceipt c n) pre ()
      { pre with storage := pre.storage.write (receiptKey c n) [RECEIPT_SENTINEL] } := by
  unfold setPacketReceipt packetReceiptPath
  simp only [returns_bind, returns_v2PathKey, returns_setStorage]
  exact ⟨_, _, ⟨hlength, rfl, rfl⟩, rfl⟩

/-- `write_acknowledgement` asks for a receipt and no acknowledgement. -/
theorem writeAcknowledgement_returns {c : HostString} (hlength : c.length + 9 ≤ 128) {n : UInt64}
    (acks : List Bytes) {pre : Ctx X} (hreceipt : pre.storage.provable (receiptKey c n) ≠ none)
    (hfresh : pre.storage.provable (ackKey c n) = none) :
    Returns (writeAcknowledgement sha256 c n acks) pre ()
      ⟨pre.storage.write (ackKey c n) (v2AckCommitment sha256 acks).val, pre.ext,
        pre.log ++ (ackStrings sha256 acks).map .hashed ++ [.published (.writeAck c n acks)]⟩ := by
  have hreceived : Returns (hasPacketReceipt c n) pre true pre := by
    unfold hasPacketReceipt packetReceiptPath
    simp only [returns_bind, returns_v2PathKey, returns_storage, returns_pure]
    exact ⟨_, _, ⟨hlength, rfl, rfl⟩, _, _, ⟨rfl, rfl⟩,
      (Option.isSome_iff_ne_none.mpr hreceipt).symm, rfl⟩
  have hstored : Returns (acknowledgement c n) pre none pre := by
    unfold acknowledgement ackCommitmentPath
    simp only [returns_bind, returns_v2PathKey, returns_getHash]
    exact ⟨_, _, ⟨hlength, rfl, rfl⟩, hfresh, rfl⟩
  have hwrite : Returns (setAckCommitment c n (v2AckCommitment sha256 acks))
      (pre.hashing (ackStrings sha256 acks)) ()
      ⟨pre.storage.write (ackKey c n) (v2AckCommitment sha256 acks).val, pre.ext,
        pre.log ++ (ackStrings sha256 acks).map .hashed⟩ := by
    unfold setAckCommitment ackCommitmentPath
    simp only [returns_bind, returns_v2PathKey, returns_setStorage]
    exact ⟨_, _, ⟨hlength, rfl, rfl⟩, rfl⟩
  unfold writeAcknowledgement
  simp only [returns_bind, returns_panicIf, returns_publish]
  exact ⟨_, _, hreceived, (), _, ⟨by decide, rfl⟩, _, _, hstored, (), _, ⟨by decide, rfl⟩, _, _,
    returns_commitV2Acknowledgement.mpr ⟨rfl, rfl⟩, _, _, hwrite, rfl⟩

/-- Anyone can have an acknowledgement written for any sequence of a client. -/
theorem published_writeAck {c : HostString} (hlength : c.length + 9 ≤ 128) (n : UInt64) (ext : X) :
    Published X sha256 (.writeAck c n []) := by
  let env : Env X := ⟨0, fun _ => false, fun _ _ _ => none⟩
  let start : State X := ⟨.initial zeroAddress, ext⟩
  let received : State X := ⟨start.storage.write (receiptKey c n) [RECEIPT_SENTINEL], ext⟩
  have hreceived : Step sha256 start (.tx ⟨env, .setPacketReceipt c n, .returned () []⟩) received :=
    setPacketReceipt_returns hlength n start.start
  have hreceipt : received.storage.provable (receiptKey c n) ≠ none := by
    rw [Storage.write_provable, Function.update_self]
    exact Option.some_ne_none _
  have hfresh : received.storage.provable (ackKey c n) = none := by
    rw [Storage.write_provable, Function.update_of_ne (receiptKey_ne_ackKey _ _ _ _).symm]
    rfl
  have hwritten : Step sha256 received (.tx ⟨env, .writeAcknowledgement c n [], .returned () _⟩)
      ⟨_, _⟩ := writeAcknowledgement_returns hlength [] hreceipt hfresh
  have hstart : Run sha256 [] start := .start ⟨zeroAddress, rfl⟩
  refine ⟨_, _, (hstart.next hreceived).next hwritten, _,
    List.mem_append_right _ List.mem_cons_self, ?_⟩
  exact List.mem_filterMap.mpr ⟨_, List.mem_append_right _ List.mem_cons_self, rfl⟩

theorem bounded_writeAck {c : HostString} {acks : List Bytes} (hlength : c.length < 2 ^ 32)
    (n : UInt64) (hcount : acks.length < 2 ^ 32) (hacks : ∀ ack ∈ acks, ack.length < 2 ^ 32) :
    (Event.writeAck c n acks).Bounded := by
  refine ⟨?_, ?_⟩
  · rw [Event.topics, List.forall_mem_cons, List.forall_mem_cons, List.forall_mem_singleton]
    exact ⟨.symbol (by decide : (ascii "write_ack").length ≤ 32), .string hlength, .u64 n⟩
  · refine Core.fits_struct names_acknowledgements ?_
    rw [Event.dataFields, List.forall_mem_singleton]
    refine .vec (by rwa [List.length_map]) ?_
    intro item hitem
    obtain ⟨ack, hack, rfl⟩ := List.mem_map.mp hitem
    exact .bytes (hacks ack hack)

/-- All acknowledgements have one text, and more than one sequence is published. -/
theorem Event.not_readable_writeAck (hxdr : xdr.Lawful) (ext : X) {c : HostString} {n : UInt64}
    {acks : List Bytes} (hbounded : (Event.writeAck c n acks).Bounded) :
    ¬ (Event.writeAck c n acks).Readable xdr X sha256 := by
  rintro ⟨text, htext, reading, hreading⟩
  rw [attributes_writeAck hxdr hbounded, Option.some.injEq] at htext
  have hsequence : ∀ n, reading.sequence = n := by
    intro n
    have hbounded' : (Event.writeAck [] n []).Bounded := by
      apply bounded_writeAck (by decide) n (by decide)
      intro ack hack
      cases hack
    have hsame : (Event.writeAck [] n []).attributes xdr = some text := by
      rw [attributes_writeAck hxdr hbounded', htext]
    exact (hreading _ (published_writeAck (by decide) n ext) hbounded' hsame).sequence
  have hne : (0 : UInt64) ≠ 1 := by decide
  exact hne ((hsequence 0).symm.trans (hsequence 1))

/-- **Which events the gateway can tell apart**: those that carry a packet. -/
theorem router_events_readable (xdr : Xdr) (X : Type) (sha256 : Bytes → Hash) (event : Event)
    (hxdr : xdr.Lawful) (hpublished : Published X sha256 event) (hbounded : event.Bounded) :
    event.Readable xdr X sha256 ↔ event.packet ≠ none := by
  constructor
  · intro hreadable hnone
    obtain ⟨history, state, -⟩ := hpublished
    cases event with
    | writeAck c n acks => exact Event.not_readable_writeAck hxdr state.ext hbounded hreadable
    | _ => cases hnone
  · intro hpacket
    obtain ⟨packet, hsome⟩ := Option.ne_none_iff_exists'.mp hpacket
    exact Event.readable_of_packet hxdr hpublished hbounded hsome

/-! ### A packet received -/

/-- The packet that `receiveTwice` delivers. -/
def deliveredPacket : Packet :=
  ⟨1, ascii "cosmos-7", ascii "stellar-0", 100, [transferPayload]⟩

def receivedEvent : Event := .recvPacket (ascii "stellar-0") 1 deliveredPacket

def acknowledgedEvent : Event := .writeAck (ascii "stellar-0") 1 [ascii "ok"]

theorem published_receiveTwice {event : Event}
    (h : event ∈ [receivedEvent, acknowledgedEvent]) :
    Published Unit Sha256.sha256 event := by
  have hstart : Run Sha256.sha256 [] freshState := .start ⟨zeroAddress, rfl⟩
  refine ⟨_, _, Run.executeAll hstart (receiveTwice [transferPayload]), ?_⟩
  have hevents : ∀ event ∈ [receivedEvent, acknowledgedEvent],
      ∃ entry ∈ (freshState.executeAll Sha256.sha256 [] (receiveTwice [transferPayload])).1,
        event ∈ entry.act.events := by
    decide
  exact hevents event h

theorem bounded_acknowledgedEvent : acknowledgedEvent.Bounded :=
  bounded_writeAck (by decide) 1 (by decide) (by decide)

theorem bounded_receivedEvent : receivedEvent.Bounded := by
  have hfits : ∀ {text : HostString}, text.length ≤ 16 → Fits (.string text) :=
    fun hlength => .string (by omega)
  refine ⟨?_, ?_⟩
  · rw [Event.topics, List.forall_mem_cons, List.forall_mem_cons, List.forall_mem_singleton]
    exact ⟨.symbol (by decide : (ascii "recv_packet").length ≤ 32),
      hfits (by decide : (ascii "stellar-0").length ≤ 16), .u64 1⟩
  · have hpayload : Fits (.struct (payloadFields transferPayload)) := by
      refine Core.fits_struct (names_payloadFields _) ?_
      simp only [payloadFields, List.forall_mem_cons, List.not_mem_nil, false_imp_iff,
        implies_true, and_true]
      exact ⟨hfits (by decide), hfits (by decide), hfits (by decide),
        .bytes (by decide), hfits (by decide)⟩
    refine Core.fits_struct names_packetOnly ?_
    rw [receivedEvent, Event.dataFields, List.forall_mem_singleton]
    refine Core.fits_struct (names_packetFields _) ?_
    simp only [packetFields, List.forall_mem_cons, List.not_mem_nil, false_imp_iff,
      implies_true, and_true]
    refine ⟨hfits (by decide), .vec (by decide) ?_, .u64 _, hfits (by decide),
      .u64 _⟩
    intro item hitem
    obtain rfl := List.mem_singleton.mp hitem
    exact hpayload

/-- The acknowledgement of a packet received cannot be told from another. -/
theorem acknowledged_event_unreadable :
    Published Unit Sha256.sha256 acknowledgedEvent ∧ acknowledgedEvent.Bounded ∧
      ¬ acknowledgedEvent.Readable .reader Unit Sha256.sha256 := by
  refine ⟨?_, bounded_acknowledgedEvent, ?_⟩
  · exact published_receiveTwice (List.mem_cons_of_mem _ List.mem_cons_self)
  · exact Event.not_readable_writeAck Xdr.reader_lawful () bounded_acknowledgedEvent

theorem router_events_readable_received :
    receivedEvent.Readable .reader Unit Sha256.sha256 ∧
      ¬ acknowledgedEvent.Readable .reader Unit Sha256.sha256 := by
  constructor
  · refine (router_events_readable .reader Unit Sha256.sha256 receivedEvent Xdr.reader_lawful
      (published_receiveTwice List.mem_cons_self) bounded_receivedEvent).mpr ?_
    exact Option.some_ne_none _
  · intro hreadable
    refine (router_events_readable .reader Unit Sha256.sha256 acknowledgedEvent Xdr.reader_lawful
      (published_receiveTwice (List.mem_cons_of_mem _ List.mem_cons_self))
      bounded_acknowledgedEvent).mp hreadable ?_
    rfl

end StellarIbc.Router
