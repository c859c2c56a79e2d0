import StellarIbc.GatewayAnswers
import StellarIbc.ServedProofs
import StellarIbc.LightClientHistory

/-!
# From the gateway to the light client

The three parties of a relay together.  Once the light client has accepted a message with
the root that the gateway gave for a ledger, it accepts the gateway's proof of every entry
that the router had there, in every later state in which it is not frozen.  The message has
to be built anew: the two formats of a header differ in the kind of a field, so the
gateway's own header is refused.
-/

namespace StellarIbc.LightClient

variable {api : Api} {history : List (Entry Storage Tx)} {storage : Storage}

/-- `entry` is an update that was accepted and whose message decodes to `header`. -/
def Accepted (entry : Entry Storage Tx) (header : StellarHeader) : Prop :=
  ∃ message data, entry.act.msg = .sudoMsg (.updateState message) ∧
    entry.act.outcome = .ok data ∧ Protobuf.decode StellarHeader.merge message = some header

/-- The consensus state of an accepted header stays. -/
theorem consensusState_of_accepted (hrun : Run api history storage)
    {entry : Entry Storage Tx} (hmem : entry ∈ history) {header : StellarHeader}
    (haccepted : Accepted entry header) :
    storage.consensusState header.ledgerSeq = some header.consensusState := by
  obtain ⟨before, after, hsplit⟩ := List.append_of_mem hmem
  obtain ⟨hbefore, hstep⟩ := hrun.split hsplit
  obtain ⟨message, data, hmsg, hok, hheader⟩ := haccepted
  have hpost : ∃ client, Represents entry.post client ∧
      client.consensus header.ledgerSeq = some header.consensusState := by
    rcases hstep.settled with ⟨error, herror, -⟩ | ⟨data', -, hrespond⟩
    · rw [hok] at herror
      cases herror
    have heffect := Effect.of_respond hrespond
    rw [hmsg] at hrespond heffect
    rw [Msg.respond, bind_ok_iff] at hrespond
    obtain ⟨⟨result, written⟩, hwritten, heq⟩ := hrespond
    obtain ⟨-, rfl⟩ := Prod.mk.inj (Except.ok.inj heq)
    rw [runSudo, bind_ok_iff] at hwritten
    obtain ⟨⟨heights, updated⟩, hupdated, heq⟩ := hwritten
    obtain ⟨-, rfl⟩ := Prod.mk.inj (Except.ok.inj heq)
    obtain ⟨header', state, hstate, hlive, hheader', hagrees, hstored⟩ :=
      updateState_eq_ok hupdated
    obtain rfl := Option.some.inj (hheader.symm.trans hheader')
    rcases sound_of_run hbefore with hempty | ⟨client, -, hclient⟩
    · rw [show (Deps.mk entry.pre api).storage = entry.pre from rfl, hempty] at hstate
      cases hstate
    · have hfits : message.length < 2 ^ 32 := by
        have hall := entry.act.fits
        rw [hmsg] at hall
        exact hall message (List.mem_singleton_self _)
      have hbulk : header.bulk ≤ BULK := by
        have hsize := StellarHeader.bulk_of_decode hheader
        unfold BULK
        omega
      obtain rfl := Option.some.inj (hclient.clientState.symm.trans hstate)
      refine ⟨_, hstored ▸ hclient.writeHeader hbulk, ?_⟩
      exact Function.update_self ..
  obtain ⟨client, hclient, hconsensus⟩ := hpost
  have hstays := hrun.since (fun storage => ∃ client, Represents storage client ∧
    client.consensus header.ledgerSeq = some header.consensusState) ?_ hmem
    ⟨client, hclient, hconsensus⟩
  · obtain ⟨client', hclient', hconsensus'⟩ := hstays
    rw [hclient'.consensusState, hconsensus']
  · rintro entry hstep ⟨client, hclient, hconsensus⟩
    obtain ⟨client', hnext, hclient'⟩ := hstep.client hclient
    exact ⟨client', hclient', hnext.extends.kept _ _ hconsensus⟩

/-- The client is there and not frozen. -/
def Storage.Unfrozen (storage : Storage) : Prop :=
  ∃ state, storage.clientState = some state ∧ state.frozenHeight = none

theorem trusts_of_accepted (hrun : Run api history storage) (hlive : storage.Unfrozen)
    {entry : Entry Storage Tx} (hmem : entry ∈ history) {header : StellarHeader}
    (haccepted : Accepted entry header) {root : Hash} (hroot : header.ibcStateRoot = root.val) :
    ServedProofs.Trusts ⟨storage, api⟩ header.ledgerSeq root :=
  ⟨hlive, _, consensusState_of_accepted hrun hmem haccepted, hroot⟩

/-! ### Messages that hold no header -/

section

variable {message : Bytes} {deps : Deps} {data : Option SudoData} {post : Storage}
variable (hunread : Protobuf.decode StellarHeader.merge message = none)

include hunread

theorem decodeHeader_of_unread : decodeHeader message = .error (.invalidWire "header") := by
  rw [decodeHeader, hunread]
  rfl

theorem respond_update_of_unread :
    (Msg.sudoMsg (.updateState message)).respond deps ≠ .ok (data, post) := by
  intro hrespond
  rw [Msg.respond, bind_ok_iff] at hrespond
  obtain ⟨⟨result, written⟩, hwritten, -⟩ := hrespond
  rw [runSudo, bind_ok_iff] at hwritten
  obtain ⟨⟨heights, updated⟩, hupdated, -⟩ := hwritten
  obtain ⟨header, state, -, -, hheader, -⟩ := updateState_eq_ok hupdated
  rw [hunread] at hheader
  cases hheader

theorem checkForMisbehaviour_of_unread {found : Bool}
    (h : checkForMisbehaviour deps message = .ok found) : found = false := by
  unfold checkForMisbehaviour at h
  rw [decodeHeader_of_unread hunread, bind_ok_iff] at h
  obtain ⟨cs, -, h⟩ := h
  by_cases hfrozen : cs.frozenHeight.isSome = true
  · rw [if_pos hfrozen] at h
    exact (Except.ok.inj h).symm
  · rw [if_neg hfrozen] at h
    cases h

theorem respond_check_of_unread
    (h : (Msg.sudoMsg (.checkForMisbehaviour message)).respond deps = .ok (data, post)) :
    data = some (.checkForMisbehaviour false) ∧ post = deps.storage := by
  rw [Msg.respond, bind_ok_iff] at h
  obtain ⟨⟨result, written⟩, hwritten, heq⟩ := h
  obtain ⟨rfl, rfl⟩ := Prod.mk.inj (Except.ok.inj heq)
  rw [runSudo, bind_ok_iff] at hwritten
  obtain ⟨found, hfound, heq⟩ := hwritten
  obtain ⟨rfl, rfl⟩ := Prod.mk.inj (Except.ok.inj heq)
  exact ⟨by rw [checkForMisbehaviour_of_unread hunread hfound], rfl⟩

theorem query_verify_of_unread (deps : Deps) :
    ∃ error, query deps (.verifyClientMessage message) = .error error := by
  cases hquery : query deps (.verifyClientMessage message) with
  | error error => exact ⟨error, rfl⟩
  | ok result =>
      rw [query, bind_ok_iff] at hquery
      obtain ⟨header, hverified, -⟩ := hquery
      obtain ⟨_, _, -, -, hdecoded, -⟩ := verifyClientMessage_eq_ok.mp hverified
      rw [hunread] at hdecoded
      cases hdecoded

end

end StellarIbc.LightClient

namespace StellarIbc.Gateway

open StellarIbc.Core Fallible Contract

variable {sha256 : Bytes → Hash} {decodeHeader : Bytes → Option StellarValue}
variable {archive : Archive} {host : Host} {routerId : Hash}
variable {history before after : List (Entry State Act)} {entry : Entry State Act}
variable {st pre post : State} {first seq : UInt32}
variable {writes : List (Entry Router.Storage Mirror.Act)} {storage : Router.Storage}

/-! ### Relaying to the light client -/

/-- The path that a packet query asks for. -/
def Request.path : Request → Option Bytes
  | .packetCommitment req => some (packetCommitmentPath req.clientId req.sequence)
  | .packetReceipt req => some (packetReceiptPath req.clientId req.sequence)
  | .acknowledgement req => some (ackCommitmentPath req.clientId req.sequence)
  | .ibcHeader _ => none

/-- The proof that an answered packet query carries. -/
def Act.proof : Act → Option Bytes
  | ⟨_, .packetCommitment _, .ok response⟩ => some response.proof
  | ⟨_, .packetReceipt _, .ok response⟩ => some response.proof
  | ⟨_, .acknowledgement _, .ok response⟩ => some response.proof
  | _ => none

/-- The light client's header has the ledger and the root of the gateway's. -/
def Relays (reply : Bytes) (header : LightClient.StellarHeader) : Prop :=
  ∃ gatewayHeader, Protobuf.decode StellarHeader.merge reply = some gatewayHeader ∧
    header.ledgerSeq = gatewayHeader.ledgerSeq.toUInt64 ∧
    header.ibcStateRoot = gatewayHeader.ibcStateRoot

theorem Act.replays_of_proof {act : Act} {proof : Bytes} (h : act.proof = some proof) :
    act.replays = true := by
  obtain ⟨host, request, reply⟩ := act
  cases reply with
  | error status => cases request <;> cases h
  | ok response => rfl

/-- An answered packet query for a path of the tree carries the proof of its leaf. -/
theorem proof_of_request (hstep : Step sha256 decodeHeader archive pre entry.act post)
    {path proof : Bytes} (hpath : entry.act.request.path = some path)
    (hproof : entry.act.proof = some proof) {found : MembershipProof}
    (hfound : post.smt.generateMembershipProof sha256 path = some found) :
    proof = serializeMembershipProofWithIndex found path found.valueHash.val
      (keyIndex sha256 path) := by
  have hquery : ∀ {α : Type} {read : Option Hash → α} {host : Host} {height : UInt64}
      {response : PathResponse α},
      Ends (queryPath sha256 archive host path read height) pre (.ok response) post →
      response.proof = serializeMembershipProofWithIndex found path found.valueHash.val
        (keyIndex sha256 path) := by
    intro α read host height response hends
    rcases response_of_queryPath hends with ⟨found', hfound', rfl⟩ | ⟨hnone, -⟩
    · obtain rfl := Option.some.inj (hfound.symm.trans hfound')
      rfl
    · rw [hfound] at hnone
      cases hnone
  obtain ⟨pre', ⟨host, request, reply⟩, post'⟩ := entry
  cases reply with
  | error status => cases request <;> cases hproof
  | ok response =>
      cases request with
      | packetCommitment req =>
          obtain rfl := Option.some.inj hpath
          obtain rfl := Option.some.inj hproof
          exact hquery hstep
      | packetReceipt req =>
          obtain rfl := Option.some.inj hpath
          obtain rfl := Option.some.inj hproof
          exact hquery hstep
      | acknowledgement req =>
          obtain rfl := Option.some.inj hpath
          obtain rfl := Option.some.inj hproof
          exact hquery hstep
      | ibcHeader height => cases hpath

/-- **What the gateway serves, the light client accepts.**  A gateway answered a header query
and a packet query for one ledger, with any requests before, between and after them.  Once the
light client accepted an update with the header's root, it accepts the packet query's proof of
the entry that the router has at the path, however the path is split and whatever the light
client did since, unless it froze. -/
theorem relayed_proof_accepted {api : LightClient.Api}
    (hrun : Run api.sha256 decodeHeader archive (some routerId) history st)
    (hascending : Ascending decodeHeader archive history)
    (hstarted : started decodeHeader archive history = some first)
    {headerEntry packetEntry : Entry State Act}
    (hheaderMem : headerEntry ∈ history) (hpacketMem : packetEntry ∈ history)
    (hheaderAsked : headerEntry.act.asked decodeHeader archive = some seq)
    (hpacketAsked : packetEntry.act.asked decodeHeader archive = some seq)
    (hroom : seq.toNat + 1 < 2 ^ 32)
    (hreports : Reports archive routerId first seq writes storage)
    (hindex : Set.InjOn (keyIndex api.sha256) (Mirror.writtenPaths writes))
    {height : UInt64} {reply : Bytes}
    (hheader : headerEntry.act = ⟨host, .ibcHeader height, .ok reply⟩)
    (hreply : reply.length < 2 ^ 64) {path proof value : Bytes}
    (hpath : packetEntry.act.request.path = some path)
    (hproof : packetEntry.act.proof = some proof)
    (hstored : storage.provable path = some value)
    {messages : List (Entry LightClient.Storage LightClient.Tx)}
    {clientStorage : LightClient.Storage}
    (hclient : LightClient.Run api messages clientStorage) (hunfrozen : clientStorage.Unfrozen)
    {update : Entry LightClient.Storage LightClient.Tx} (hupdate : update ∈ messages)
    {header : LightClient.StellarHeader} (haccepted : LightClient.Accepted update header)
    (hrelays : Relays reply header) (revision : UInt64) {chunks : List Bytes}
    (hchunks : chunks.flatten = path) :
    LightClient.runSudo ⟨clientStorage, api⟩
        (.verifyMembership ⟨⟨revision, seq.toUInt64⟩, proof, chunks, value⟩) =
      .ok (.empty, clientStorage) := by
  have htracked := Mirror.tracked_of_run hreports.run
  have hwritten : path ∈ Mirror.writtenPaths writes :=
    htracked.mem_written (by simp [hstored])
  -- the root that the header carries
  have hroot : ServedProofs.Trusts ⟨clientStorage, api⟩ seq.toUInt64
      ((routerTree api.sha256 routerId writes).root api.sha256) := by
    obtain ⟨before, after, hsplit⟩ := List.append_of_mem hheaderMem
    obtain ⟨-, hstep⟩ := hrun.split hsplit
    have hrecorded := (served_of_request hrun hascending hstarted hheaderMem
      (by rw [hheader]; rfl) hheaderAsked hroom hreports).root
    rw [hheader] at hstep hheaderAsked
    obtain ⟨content, root, hsome, -, hrootStep, rfl⟩ := header_of_reply hstep
    obtain rfl : height.toUInt32 = seq := Option.some.inj (hsome.symm.trans hheaderAsked)
    obtain rfl := Option.some.inj ((Tracker.roots_of_ok hrootStep).symm.trans hrecorded)
    obtain ⟨gatewayHeader, hdecoded, hseq, hstateRoot⟩ := hrelays
    obtain rfl := Option.some.inj
      ((StellarHeader.decode_encode hreply).symm.trans hdecoded)
    rw [show height.toUInt32.toUInt64 = header.ledgerSeq from hseq.symm]
    exact LightClient.trusts_of_accepted hclient hunfrozen hupdate haccepted hstateRoot
  -- the leaf that the proof is about
  obtain ⟨before, after, hsplit⟩ := List.append_of_mem hpacketMem
  obtain ⟨-, hstep⟩ := hrun.split hsplit
  have htree := (served_of_request hrun hascending hstarted hpacketMem
    (Act.replays_of_proof hproof) hpacketAsked hroom hreports).tree
  have hleaf := (htree (keyIndex api.sha256 path) (by simp)).trans
    (htracked.holds hindex path hwritten)
  rw [hstored, Option.map_some] at hleaf
  have hfound := Smt.generateMembershipProof_of_some hleaf
  obtain rfl := proof_of_request hstep hpath hproof hfound
  obtain ⟨write, -, rfl⟩ := htracked.origin path value hstored
  have hshort := Mirror.length_of_written hreports.run hwritten
  rw [← htree.root_eq] at hroot
  simp only [LightClient.runSudo]
  rw [ServedProofs.verifyMembership_of_leaf hroot hleaf hfound write.value_ne_nil
    (by omega) hchunks]
  rfl

/-- The light client gets the root of ledger 9. -/
def sampleUpdate : Bytes := LightClient.headerMessage 9 sampleRoot.val

theorem fits_sampleUpdate :
    (LightClient.Msg.sudoMsg (.updateState sampleUpdate)).Fits := by
  unfold LightClient.Msg.Fits
  decide +kernel

def sampleUpdateEntry : Entry LightClient.Storage LightClient.Tx :=
  LightClient.executeMsg LightClient.validatorApi
    (LightClient.executeMsg LightClient.validatorApi (fun _ => none)
      LightClient.instantiateSample).post
    ⟨_, fits_sampleUpdate⟩

def sampleUpdateHeader : LightClient.StellarHeader where
  ledgerSeq := 9
  ledgerHeaderXdr := []
  ibcStateRoot := sampleRoot.val
  scpEnvelopes := [LightClient.validatorEnvelope]
  trustedHeight := some ⟨0, 7⟩
  timestamp := 1700000005
  ledgerHash := List.replicate 32 5
  previousLedgerHash := []

theorem accepted_sampleUpdate : LightClient.Accepted sampleUpdateEntry sampleUpdateHeader :=
  ⟨sampleUpdate, some (.updateState [⟨0, 9⟩]), rfl, by decide +kernel, by decide +kernel⟩

theorem unfrozen_sampleUpdate : sampleUpdateEntry.post.Unfrozen :=
  ⟨{ LightClient.validatedState with latestHeight := some ⟨0, 9⟩ }, by decide +kernel, rfl⟩

def sampleMessages : List (Entry LightClient.Storage LightClient.Tx) :=
  (LightClient.executeMsgs LightClient.validatorApi
    [LightClient.instantiateSample, ⟨_, fits_sampleUpdate⟩]).1

set_option maxRecDepth 8000 in
theorem run_sampleMessages :
    LightClient.Run LightClient.validatorApi sampleMessages sampleUpdateEntry.post :=
  LightClient.run_executeMsgs LightClient.validatorApi
    [LightClient.instantiateSample, ⟨_, fits_sampleUpdate⟩]

theorem mem_sampleMessages : sampleUpdateEntry ∈ sampleMessages :=
  List.mem_cons_of_mem _ (List.mem_singleton_self _)

set_option maxRecDepth 8000 in
theorem relayed_proof_accepted_sample :
    LightClient.runSudo ⟨sampleUpdateEntry.post, LightClient.validatorApi⟩
        (.verifyMembership ⟨⟨0, (9 : UInt32).toUInt64⟩, samplePacketProof, [Mirror.sampleClient, 0x01 :: be64 1],
          Mirror.sampleId.val⟩) =
      .ok (.empty, sampleUpdateEntry.post) := by
  have hheaderAsked : sampleHeaderEntry.act.asked sampleDecode sampleArchive = some 9 := rfl
  have hasked : samplePacketEntry.act.asked sampleDecode sampleArchive = some 9 := rfl
  have hreply : sampleReply.length < 2 ^ 64 := by decide +kernel
  have hpath : samplePacketEntry.act.request.path =
      some (packetCommitmentPath Mirror.sampleClient 1) := rfl
  have hproof : samplePacketEntry.act.proof = some samplePacketProof := by
    rw [samplePacketEntry_act]
    rfl
  have hstored : Mirror.committed.provable (packetCommitmentPath Mirror.sampleClient 1) =
      some Mirror.sampleId.val := by decide
  have hrelays : Relays sampleReply sampleUpdateHeader :=
    ⟨_, StellarHeader.decode_encode hreply, rfl, rfl⟩
  have hchunks : [Mirror.sampleClient, 0x01 :: be64 1].flatten =
      packetCommitmentPath Mirror.sampleClient 1 := by decide
  have hrun : Run LightClient.validatorApi.sha256 sampleDecode sampleArchive
      (some Mirror.sampleId) sampleRun.1 sampleRun.2 := run_executeAll _ _ _ _ sampleRequests
  have hindex : Set.InjOn (keyIndex LightClient.validatorApi.sha256)
      (Mirror.writtenPaths sampleWrites) := sampleWrites_index
  exact relayed_proof_accepted hrun
    ascending_sampleRun started_sampleRun mem_sampleHeaderEntry mem_samplePacketEntry hheaderAsked hasked
    (by decide) reports_sampleArchive hindex sampleHeaderEntry_act hreply hpath
    hproof hstored run_sampleMessages unfrozen_sampleUpdate mem_sampleMessages
    accepted_sampleUpdate hrelays 0 hchunks

/-! ### A reply that is passed on as it is -/

/-- The light client reads a number in the field where the gateway writes the signed value. -/
theorem decode_reply (h : Step sha256 decodeHeader archive pre ⟨host, .ibcHeader height, .ok reply⟩
      post) (hreply : reply.length < 2 ^ 64) :
    Protobuf.decode LightClient.StellarHeader.merge reply = none := by
  obtain ⟨value, root, -, -, -, rfl⟩ := header_of_reply h
  have hsigned : value.txSetHash.val ++ be64 value.closeTime ≠ [] := by
    intro hempty
    have hlength := value.txSetHash.property
    rw [(List.append_eq_nil_iff.mp hempty).1] at hlength
    cases hlength
  have hmem : ⟨6, .lengthDelimited (value.txSetHash.val ++ be64 value.closeTime)⟩ ∈
      (stellarHeader height.toUInt32 (archive.headers height.toUInt32) value root).records := by
    simp [StellarHeader.records, stellarHeader, Protobuf.bytesRecord, hsigned]
  rw [Protobuf.decode, StellarHeader.encode,
    Protobuf.mergeInto_encodeRecords (StellarHeader.plain_records _) hreply]
  exact Protobuf.foldlM_eq_none_of_mem hmem fun _ => rfl

/-- **The light client does not read the gateway's header.**  Whatever it stores, a header
reply that is handed on as it is fails verification and the update, is no evidence of
misbehaviour, and changes nothing. -/
theorem header_reply_refused
    (hrun : Run sha256 decodeHeader archive (some routerId) history st)
    (hmem : entry ∈ history) {height : UInt64} {reply : Bytes}
    (hact : entry.act = ⟨host, .ibcHeader height, .ok reply⟩) (hreply : reply.length < 2 ^ 64)
    {api : LightClient.Api} {messages : List (Entry LightClient.Storage LightClient.Tx)}
    {clientStorage : LightClient.Storage}
    (hclient : LightClient.Run api messages clientStorage)
    {received : Entry LightClient.Storage LightClient.Tx} (hreceived : received ∈ messages) :
    (received.act.msg = .sudoMsg (.updateState reply) →
        (∃ error, received.act.outcome = .error error) ∧ received.post = received.pre) ∧
      (received.act.msg = .sudoMsg (.checkForMisbehaviour reply) →
        (∀ data, received.act.outcome = .ok data → data = some (.checkForMisbehaviour false)) ∧
          received.post = received.pre) ∧
      ∃ error, LightClient.query ⟨clientStorage, api⟩ (.verifyClientMessage reply) =
        .error error := by
  obtain ⟨before, after, hsplit⟩ := List.append_of_mem hmem
  obtain ⟨-, hstep⟩ := hrun.split hsplit
  rw [hact] at hstep
  have hunread := decode_reply hstep hreply
  have hsettled := (hclient.step_of_mem hreceived).settled
  refine ⟨?_, ?_, ?_⟩
  · intro hmsg
    rcases hsettled with ⟨error, houtcome, -, hpost⟩ | ⟨data, -, hrespond⟩
    · exact ⟨⟨error, houtcome⟩, hpost⟩
    · rw [hmsg] at hrespond
      exact absurd hrespond (LightClient.respond_update_of_unread hunread)
  · intro hmsg
    rcases hsettled with ⟨error, houtcome, -, hpost⟩ | ⟨data, houtcome, hrespond⟩
    · refine ⟨?_, hpost⟩
      rw [houtcome]
      rintro _ ⟨⟩
    · rw [hmsg] at hrespond
      obtain ⟨rfl, hpost⟩ := LightClient.respond_check_of_unread hunread hrespond
      refine ⟨?_, hpost⟩
      rw [houtcome]
      rintro _ ⟨⟩
      rfl
  · exact LightClient.query_verify_of_unread hunread _

theorem fits_sampleReply : (LightClient.Msg.sudoMsg (.updateState sampleReply)).Fits := by
  unfold LightClient.Msg.Fits
  decide +kernel

/-- An update with the reply itself. -/
def sampleRefusedEntry : Entry LightClient.Storage LightClient.Tx :=
  LightClient.executeMsg LightClient.validatorApi
    (LightClient.executeMsg LightClient.validatorApi (fun _ => none)
      LightClient.instantiateSample).post
    ⟨_, fits_sampleReply⟩

set_option maxRecDepth 8000 in
theorem header_reply_refused_sample :
    (∃ error, sampleRefusedEntry.act.outcome = .error error) ∧
      sampleRefusedEntry.post = sampleRefusedEntry.pre := by
  have hrun : Run Sha256.sha256 sampleDecode sampleArchive (some Mirror.sampleId) sampleRun.1
      sampleRun.2 := run_executeAll _ _ _ _ sampleRequests
  have hreply : sampleReply.length < 2 ^ 64 := by decide +kernel
  have hclient := LightClient.run_executeMsgs LightClient.validatorApi
    [LightClient.instantiateSample, ⟨_, fits_sampleReply⟩]
  have hreceived : sampleRefusedEntry ∈ (LightClient.executeMsgs LightClient.validatorApi
      [LightClient.instantiateSample, ⟨_, fits_sampleReply⟩]).1 :=
    List.mem_cons_of_mem _ (List.mem_singleton_self _)
  exact (header_reply_refused hrun mem_sampleHeaderEntry sampleHeaderEntry_act hreply hclient
    hreceived).1 rfl

end StellarIbc.Gateway
