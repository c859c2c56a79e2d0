import StellarIbc.AttestationClient
import StellarIbc.ClientTrust
import StellarIbc.RouterClients
import StellarIbc.RouterDestination
import StellarIbc.RouterSource

/-!
# The router over the attestation light client

The router keeps a frozen flag of its own, which only `update_client` reads, and the
attestation light client looks at its flag for updates but not for proofs.  So a frozen
client takes no update, while a packet is still received, acknowledged or timed out
through it whenever a quorum signed what the router asks for.
-/

namespace StellarIbc.FrozenClients

open Contract Router

/-- The light client's storage beside that of the other contracts. -/
abbrev World (Y : Type) := Attestation.Storage × Y

variable {Y : Type}

/-! ### The light client as the router's callee -/

/-- A call that aborts makes the router's call abort. -/
def callee {α : Type} (program : Attestation.AttestationM α) (s : Attestation.Storage) :
    Option (α × Attestation.Storage) :=
  (program.run s).toOption

/-- What the light client answers; it has no entrypoint for the callbacks of apps. -/
def answer (host : Attestation.Host) : (call : Invocation) → Attestation.Storage →
    Option (call.Result × Attestation.Storage)
  | .initialise c clientState consensusState height =>
      callee (Attestation.initialise host c clientState consensusState height)
  | .checkForMisbehaviour c message => callee (Attestation.checkForMisbehaviour host c message)
  | .updateStateOnMisbehaviour c message =>
      callee (Attestation.updateStateOnMisbehaviour c message)
  | .updateState c message => callee (Attestation.updateState host c message)
  | .verifyMembership c height proof path value =>
      callee (Attestation.verifyMembership host c height proof path value)
  | .verifyNonMembership c height proof path =>
      callee (Attestation.verifyNonMembership host c height proof path)
  | .getTimestampAtHeight c height => callee (Attestation.getTimestampAtHeight c height)
  | .onRecvPacket _ | .onAcknowledgementPacket _ | .onTimeoutPacket _ => fun _ => none

/-- The contract at `lc` is the attestation light client. -/
def Wired (host : Attestation.Host) (lc : Address) (env : Env (World Y)) : Prop :=
  ∀ call world, env.invoke lc call world =
    (answer host call world.1).map fun reply => (reply.1, (reply.2, world.2))

/-- Every call of the router reaches the light client at `lc`. -/
def WiredAct (host : Attestation.Host) (lc : Address) : Act (World Y) → Prop
  | .tx tx => Wired host lc tx.env
  | .elsewhere => True

variable {host : Attestation.Host} {lc : Address} {env : Env (World Y)}
variable {world world' : World Y}

theorem returns_of_callee {α : Type} {program : Attestation.AttestationM α}
    {s s' : Attestation.Storage} {value : α} (h : callee program s = some (value, s')) :
    Returns program s value s' :=
  returns_of_toOption h

theorem Wired.answered (hwired : Wired host lc env) {call : Invocation} {result : call.Result}
    (h : env.invoke lc call world = some (result, world')) :
    answer host call world.1 = some (result, world'.1) := by
  rw [hwired, Option.map_eq_some_iff] at h
  obtain ⟨⟨value, s⟩, hanswer, heq⟩ := h
  obtain ⟨rfl, rfl⟩ := Prod.mk.inj heq
  exact hanswer

theorem Wired.membership (hwired : Wired host lc env) {c : HostString} {height : UInt64}
    {proof path value : Bytes}
    (h : env.invoke lc (.verifyMembership c height proof path value) world =
      some (true, world')) :
    Attestation.Attested host world.1 c height proof path value :=
  (Attestation.returns_verifyMembership (returns_of_callee (hwired.answered h))).1

theorem Wired.nonMembership (hwired : Wired host lc env) {c : HostString} {height : UInt64}
    {proof path : Bytes}
    (h : env.invoke lc (.verifyNonMembership c height proof path) world =
      some (true, world')) :
    Attestation.Attested host world.1 c height proof path [] :=
  (Attestation.returns_verifyNonMembership (returns_of_callee (hwired.answered h))).1

/-- Asking for a timestamp changes nothing in the light client. -/
theorem Wired.timestamp (hwired : Wired host lc env) {c : HostString} {height proofTs : UInt64}
    (h : env.invoke lc (.getTimestampAtHeight c height) world = some (proofTs, world')) :
    world'.1 = world.1 := by
  have hreturns := returns_of_callee (hwired.answered h)
  unfold Attestation.getTimestampAtHeight at hreturns
  exact hreturns.post_eq

/-! ### After a freeze -/

variable {sha256 : Bytes → Hash}
variable {history : List (Entry (State (World Y)) (Act (World Y)))} {state : State (World Y)}
variable {entry : Entry (State (World Y)) (Act (World Y))} {c : HostString}

/-- A successful `update_client` on `c`. -/
def UpdatesClient (act : Act (World Y)) (c : HostString) : Prop :=
  ∃ env message value log, act = .tx ⟨env, .updateClient c message, .returned value log⟩

/-- An `update_client` on `c`, a client of the light client at `lc`, found misbehaviour. -/
def FoundMisbehaviour (lc : Address) (entry : Entry (State (World Y)) (Act (World Y)))
    (c : HostString) : Prop :=
  UpdatesClient entry.act c ∧ entry.post.storage.frozen c = some true ∧
    entry.post.storage.clientLcAddr c = some lc

/-- A successful packet call that verified through `c`. -/
def VerifiesThrough (act : Act (World Y)) (c : HostString) : Prop :=
  (∃ packet, act.received = some packet ∧ packet.destClient = c) ∨
    ∃ packet, act.settled = some packet ∧ packet.sourceClient = c

def FrozenVerifiesNothing (lc : Address)
    (history : List (Entry (State (World Y)) (Act (World Y)))) : Prop :=
  ∀ before entry after, history = before ++ entry :: after → ∀ c,
    FoundMisbehaviour lc entry c → ∀ later ∈ after,
      ¬ VerifiesThrough later.act c ∧ ¬ UpdatesClient later.act c

/-- The call is a packet call through `c` whose proof is signed by a quorum of `c`, at a
height with a consensus state, for the path and value the router will ask for. -/
def CarriesAttestation (sha256 : Bytes → Hash) (host : Attestation.Host)
    (entry : Entry (State (World Y)) (Act (World Y))) (c : HostString) : Prop :=
  ∃ tx cp, entry.act = .tx tx ∧ entry.pre.storage.counterparty c = some cp ∧
    match tx.call with
    | .recvPacket packet proof height => packet.destClient = c ∧
        Attestation.Attested host entry.pre.ext.1 c height proof
          (prefixedPath cp.commitmentPrefix
            (commitmentKey packet.sourceClient packet.sequence))
          (v2PacketCommitment sha256 packet).val
    | .acknowledgePacket packet acks proof height => packet.sourceClient = c ∧
        Attestation.Attested host entry.pre.ext.1 c height proof
          (prefixedPath cp.commitmentPrefix (ackKey packet.destClient packet.sequence))
          (v2AckCommitment sha256 acks).val
    | .timeoutPacket packet proof height => packet.sourceClient = c ∧
        Attestation.Attested host entry.pre.ext.1 c height proof
          (prefixedPath cp.commitmentPrefix (receiptKey packet.destClient packet.sequence)) []
    | _ => False

/-- A packet call succeeds only with such a proof. -/
theorem carriesAttestation_of_verifiesThrough
    (hstep : Step sha256 entry.pre entry.act entry.post)
    (hwired : WiredAct host lc entry.act)
    (hlc : entry.pre.storage.clientLcAddr c = some lc)
    (hverifies : VerifiesThrough entry.act c) : CarriesAttestation sha256 host entry c := by
  rcases hverifies with ⟨packet, hreceived, rfl⟩ | ⟨packet, hsettled, rfl⟩
  · obtain ⟨env, proof, height, log, hact⟩ := Act.eq_of_received hreceived
    rw [hact] at hstep hwired
    cases hstep.returned.lifecycle rfl with
    | @recv _ _ _ cp acks hspec =>
        obtain ⟨lcAddr, ext, hlc', hinvoke⟩ := hspec.proved
        obtain rfl := Option.some.inj (hlc'.symm.trans hlc)
        have hwired' : Wired host lcAddr env := hwired
        exact ⟨_, cp, hact, hspec.counterparty, rfl, hwired'.membership hinvoke⟩
  · rcases Act.eq_of_settled hsettled with ⟨env, acks, proof, height, log, hact⟩ |
      ⟨env, proof, height, log, hact⟩
    · rw [hact] at hstep hwired
      cases hstep.returned.lifecycle rfl with
      | @ack _ _ _ _ cp hspec =>
          obtain ⟨lcAddr, ext, hlc', hinvoke⟩ := hspec.proved
          obtain rfl := Option.some.inj (hlc'.symm.trans hlc)
          have hwired' : Wired host lcAddr env := hwired
          exact ⟨_, cp, hact, hspec.committed.counterparty, rfl, hwired'.membership hinvoke⟩
    · rw [hact] at hstep hwired
      cases hstep.returned.lifecycle rfl with
      | @timeout _ _ _ cp hspec =>
          obtain ⟨lcAddr, proofTs, middle, ext, hlc', hask, -, hinvoke⟩ := hspec.proved
          obtain rfl := Option.some.inj (hlc'.symm.trans hlc)
          have hwired' : Wired host lcAddr env := hwired
          have hattested := hwired'.nonMembership hinvoke
          rw [hwired'.timestamp hask] at hattested
          exact ⟨_, cp, hact, hspec.committed.counterparty, rfl, hattested⟩

/-- **A frozen client verifies nothing**, in every run in which no packet call after the
freeze carries what a quorum signed.  It takes no update in any case. -/
theorem frozen_verifies_nothing_of_unattested (hrun : Run sha256 history state)
    (hwired : ∀ entry ∈ history, WiredAct host lc entry.act)
    (hunattested : ∀ before entry after, history = before ++ entry :: after → ∀ c,
      FoundMisbehaviour lc entry c → ∀ later ∈ after,
        ¬ CarriesAttestation sha256 host later c) :
    FrozenVerifiesNothing lc history := by
  intro before entry after hsplit c hfound later hlater
  obtain ⟨hupdated, hfrozen, hlc⟩ := hfound
  -- the freeze and the light client of `c` are still there when the later call is made
  have hstays : (later.pre.storage.clients.Minted ∧
      later.pre.storage.clientLcAddr c = some lc) ∧
      later.pre.storage.frozen c = some true := by
    refine hrun.before_later (fun state : State (World Y) => (state.storage.clients.Minted ∧
      state.storage.clientLcAddr c = some lc) ∧ state.storage.frozen c = some true)
      ?_ hsplit ⟨⟨?_, hlc⟩, hfrozen⟩ hlater
    · rintro step hstep ⟨⟨hminted, hstepLc⟩, hstepFrozen⟩
      have htables := hstep.tablesStep
      exact ⟨⟨hminted.step htables, htables.clientLcAddr_stays hminted hstepLc⟩,
        htables.frozen_stays hstepFrozen⟩
    · obtain ⟨hbefore, hstep⟩ := hrun.split hsplit
      exact (minted_of_run hbefore).step hstep.tablesStep
  obtain ⟨⟨-, hlaterLc⟩, hlaterFrozen⟩ := hstays
  have hmem : later ∈ history := Reach.mem_of_later hsplit hlater
  have hstep := hrun.step_of_mem hmem
  refine ⟨?_, ?_⟩
  · intro hverifies
    exact hunattested before entry after hsplit c ⟨hupdated, hfrozen, hlc⟩ later hlater
      (carriesAttestation_of_verifiesThrough hstep (hwired later hmem) hlaterLc hverifies)
  · rintro ⟨env, message, value, log, hact⟩
    rw [hact] at hstep
    have hlive := (returns_updateClient_tables hstep.returned).1
    have hthawed : (later.pre.storage.frozen c).getD false = false := hlive
    rw [hlaterFrozen] at hthawed
    cases hthawed

/-! ### Concrete runs -/

/-- The one attestor of the sample client. -/
def attestorKey : BytesN 32 :=
  ⟨[215, 90, 152, 1, 130, 177, 10, 183, 213, 75, 254, 211, 201, 100, 7, 58,
    14, 225, 114, 243, 218, 166, 35, 37, 175, 2, 26, 104, 247, 7, 81, 26], by decide⟩

def sampleRecord : Attestation.AttestorClientState := ⟨[attestorKey], 1, 5, false⟩

/-- Another time for the height of `Attestation.firstTime`. -/
def conflictingTime : Attestation.StateAttestation := ⟨5, 999⟩

def samplePacket : Packet :=
  ⟨1, ascii "cosmos-7", ascii "attestor-0", 100, [transferPayload]⟩

/-- What the counterparty committed to when it sent `samplePacket`. -/
def sampleCommitment : Attestation.PacketAttestation :=
  ⟨5, [⟨prefixedPath [ascii "ibc"] (commitmentKey (ascii "cosmos-7") 1),
    (v2PacketCommitment Sha256.sha256 samplePacket).val⟩]⟩

/-- The attestor's Ed25519 signature of `conflictingTime`. -/
def timeSignature : BytesN 64 :=
  ⟨[94, 119, 255, 12, 244, 32, 237, 168, 84, 179, 147, 45, 41, 112, 113, 9,
    126, 32, 238, 185, 34, 244, 65, 154, 149, 128, 238, 12, 154, 251, 221, 172,
    122, 13, 88, 164, 250, 249, 208, 200, 209, 248, 187, 210, 126, 128, 133, 165,
    168, 134, 168, 229, 108, 46, 117, 174, 135, 217, 75, 103, 115, 9, 45, 1], by decide⟩

/-- The attestor's Ed25519 signature of `sampleCommitment`. -/
def commitmentSignature : BytesN 64 :=
  ⟨[170, 48, 252, 145, 166, 208, 225, 169, 1, 112, 186, 206, 26, 114, 51, 122,
    179, 156, 198, 108, 66, 248, 229, 184, 22, 113, 129, 138, 142, 33, 232, 103,
    250, 250, 150, 98, 185, 130, 235, 193, 35, 38, 114, 209, 236, 91, 170, 193,
    235, 25, 41, 67, 225, 209, 90, 216, 71, 209, 197, 197, 99, 63, 18, 6], by decide⟩

def timeProof : Attestation.AttestationProof :=
  ⟨conflictingTime.toScVal.toXdr, [timeSignature], [0]⟩

def commitmentProof : Attestation.AttestationProof :=
  ⟨sampleCommitment.toScVal.toXdr, [commitmentSignature], [0]⟩

def sampleHost : Attestation.Host where
  clientState := decodeSample Attestation.AttestorClientState.toScVal [sampleRecord]
  stateAttestation := decodeSample Attestation.StateAttestation.toScVal
    [Attestation.firstTime, conflictingTime]
  packetAttestation := decodeSample Attestation.PacketAttestation.toScVal [sampleCommitment]
  attestationProof := decodeSample Attestation.AttestationProof.toScVal
    [timeProof, commitmentProof]
  ed25519Verify key message signature := key == attestorKey &&
    (message == timeProof.attestationData && signature == timeSignature ||
      message == commitmentProof.attestationData && signature == commitmentSignature)

def appAddress : Address := .contract (.fill 32 1)

/-- The light client is at `zeroAddress`; every other contract accepts. -/
def sampleEnv : Env (World Unit) where
  timestamp := 10
  authorized _ := true
  invoke address call world :=
    if address = zeroAddress then
      (answer sampleHost call world.1).map fun reply => (reply.1, (reply.2, world.2))
    else
      some (call.accept, world)

theorem sampleEnv_wired : Wired sampleHost zeroAddress sampleEnv := by
  intro call world
  simp [sampleEnv]

def emptyWorld : State (World Unit) := ⟨.initial zeroAddress, (.empty, ())⟩

/-- A client of the light client, its counterparty and a port. -/
def setUp : List Call :=
  [.registerClientType (ascii "attestor") zeroAddress,
    .createClient (ascii "attestor") sampleRecord.toScVal.toXdr
      Attestation.firstTime.toScVal.toXdr 5,
    .registerCounterparty (ascii "attestor-0") (ascii "cosmos-7") [ascii "ibc"],
    .registerPort (ascii "transfer") appAddress]

/-- The attestor signed two times for one height. -/
def freezeCall : Call := .updateClient (ascii "attestor-0") timeProof.toScVal.toXdr

def receiveCall (proof : Bytes) : Call := .recvPacket samplePacket proof 5

def executeSample (calls : List Call) :
    List (Entry (State (World Unit)) (Act (World Unit))) × State (World Unit) :=
  emptyWorld.executeAll Sha256.sha256 [] (calls.map fun call => (sampleEnv, call))

theorem run_executeSample (calls : List Call) :
    Run Sha256.sha256 (executeSample calls).1 (executeSample calls).2 :=
  Run.executeAll (.start ⟨zeroAddress, rfl⟩) _

theorem forall_mem_executeSample {P : Entry (State (World Unit)) (Act (World Unit)) → Prop}
    {calls : List Call}
    (hcalls : ∀ call ∈ calls, ∀ entry outcome,
      entry.act = .tx ⟨sampleEnv, call, outcome⟩ → P entry) :
    ∀ entry ∈ (executeSample calls).1, P entry := by
  unfold executeSample State.executeAll
  refine forall_mem_feed (by simp) ?_
  intro item hitem state
  obtain ⟨call, hcall, rfl⟩ := List.mem_map.mp hitem
  obtain ⟨-, -, outcome, hact⟩ := State.execute_step Sha256.sha256 state sampleEnv call
  exact hcalls call hcall _ outcome hact

theorem wiredAct_executeSample (calls : List Call) :
    ∀ entry ∈ (executeSample calls).1, WiredAct sampleHost zeroAddress entry.act := by
  apply forall_mem_executeSample
  intro call _ entry outcome hact
  rw [hact]
  exact sampleEnv_wired

/-- The proof a packet call carries. -/
def proofOf : Call → Option Bytes
  | .recvPacket _ proof _ | .acknowledgePacket _ _ proof _ | .timeoutPacket _ proof _ =>
      some proof
  | _ => none

theorem not_carriesAttestation {sha256 : Bytes → Hash} {host : Attestation.Host}
    {entry : Entry (State (World Y)) (Act (World Y))} {tx : Tx (World Y)}
    (hact : entry.act = .tx tx)
    (hproof : ∀ proof, proofOf tx.call = some proof →
      ∀ decoded, host.attestationProof proof ≠ .decoded decoded) (c : HostString) :
    ¬ CarriesAttestation sha256 host entry c := by
  rintro ⟨tx', cp, hact', -, hcarries⟩
  obtain rfl : tx = tx' := Act.tx.inj (hact.symm.trans hact')
  split at hcarries
  · next hcall =>
      obtain ⟨-, -, cs, p, att, -, hdecoded, -⟩ := hcarries
      exact hproof _ (by rw [hcall, proofOf]) p hdecoded
  · next hcall =>
      obtain ⟨-, -, cs, p, att, -, hdecoded, -⟩ := hcarries
      exact hproof _ (by rw [hcall, proofOf]) p hdecoded
  · next hcall =>
      obtain ⟨-, -, cs, p, att, -, hdecoded, -⟩ := hcarries
      exact hproof _ (by rw [hcall, proofOf]) p hdecoded
  · exact hcarries

/-- After the freeze another update and a packet with an empty proof are tried. -/
def frozenRun : List Call := setUp ++ [freezeCall, freezeCall, receiveCall []]

theorem frozen_verifies_nothing_sample :
    (executeSample frozenRun).2.storage.frozen (ascii "attestor-0") = some true ∧
      FrozenVerifiesNothing zeroAddress (executeSample frozenRun).1 := by
  refine ⟨by decide +kernel, ?_⟩
  refine frozen_verifies_nothing_of_unattested (run_executeSample frozenRun)
    (wiredAct_executeSample frozenRun) ?_
  have hproofs : ∀ call ∈ frozenRun, proofOf call = none ∨ proofOf call = some [] := by
    decide
  have hnone : ∀ entry ∈ (executeSample frozenRun).1, ∀ c,
      ¬ CarriesAttestation Sha256.sha256 sampleHost entry c := by
    apply forall_mem_executeSample
    intro call hcall entry outcome hact
    apply not_carriesAttestation hact
    intro proof hproof decoded hdecoded
    rcases hproofs call hcall with hcarried | hcarried
    · rw [hcarried] at hproof
      cases hproof
    · obtain rfl := Option.some.inj (hcarried.symm.trans hproof)
      have htrapped : sampleHost.attestationProof [] = .trapped := rfl
      rw [htrapped] at hdecoded
      cases hdecoded
  intro before entry after hsplit c _ later hlater
  apply hnone
  rw [hsplit]
  exact List.mem_append_right _ (List.mem_cons_of_mem _ hlater)

/-- The state in which the client is frozen, and the one a packet is received in. -/
def beforeFreeze : State (World Unit) := (executeSample setUp).2

def afterFreeze : State (World Unit) :=
  (beforeFreeze.execute Sha256.sha256 sampleEnv freezeCall).post

/-- The packet call after the freeze carries a commitment that the attestor signed. -/
def frozenReceiveRun : List Call :=
  setUp ++ [freezeCall, receiveCall commitmentProof.toScVal.toXdr]

theorem frozen_receives_attested :
    (Run Sha256.sha256 (executeSample frozenReceiveRun).1
        (executeSample frozenReceiveRun).2 ∧
      ∀ entry ∈ (executeSample frozenReceiveRun).1,
        WiredAct sampleHost zeroAddress entry.act) ∧
      ¬ FrozenVerifiesNothing zeroAddress (executeSample frozenReceiveRun).1 := by
  refine ⟨⟨run_executeSample _, wiredAct_executeSample _⟩, ?_⟩
  intro hnothing
  have hsplit : (executeSample frozenReceiveRun).1 = (executeSample setUp).1 ++
      beforeFreeze.execute Sha256.sha256 sampleEnv freezeCall ::
        [afterFreeze.execute Sha256.sha256 sampleEnv
          (receiveCall commitmentProof.toScVal.toXdr)] := by
    unfold executeSample State.executeAll frozenReceiveRun
    rw [List.map_append, feed_append]
    simp only [List.map_cons, List.map_nil, feed, List.append_assoc]
    rfl
  have hfound : FoundMisbehaviour zeroAddress
      (beforeFreeze.execute Sha256.sha256 sampleEnv freezeCall) (ascii "attestor-0") := by
    refine ⟨?_, by decide +kernel, by decide +kernel⟩
    obtain ⟨value, log, hact⟩ := State.execute_returned Sha256.sha256 beforeFreeze sampleEnv
      freezeCall (by decide +kernel)
    exact ⟨_, _, value, log, hact⟩
  have hreceived : (afterFreeze.execute Sha256.sha256 sampleEnv
      (receiveCall commitmentProof.toScVal.toXdr)).act.received = some samplePacket := by
    unfold afterFreeze beforeFreeze executeSample
    rw [Sha256.sha256_eq_eval]
    decide +kernel
  have hverifies : VerifiesThrough (afterFreeze.execute Sha256.sha256 sampleEnv
      (receiveCall commitmentProof.toScVal.toXdr)).act (ascii "attestor-0") :=
    .inl ⟨samplePacket, hreceived, rfl⟩
  exact (hnothing _ _ _ hsplit _ hfound _ (List.mem_singleton_self _)).1 hverifies

end StellarIbc.FrozenClients
