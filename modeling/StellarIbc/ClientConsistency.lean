import StellarIbc.FrozenClients
import StellarIbc.MediatedClients

/-!
# Histories and freezes over runs

Over every run in which only the router calls the two light clients, updates keep the
history of a client and the two frozen flags agree.  A call of `update_client` changes
nothing, stores the consensus state of its message, or freezes the client for good.
-/

namespace StellarIbc.Mediated

open Contract Router SorobanClient

variable {X ε κ τ : Type}

/-! ### Every run -/

/-- The frozen flags of the router and of the light client, for every client that is not
another light client's. -/
def FlagsAgree (lc : Deployed X ε κ τ) (state : State X) : Prop :=
  ∀ c, (∀ other, state.storage.clientLcAddr c = some other → other = lc.address) →
    (state.storage.frozen c).getD false = ((lc.view state.ext).frozen c).getD false

/-- A successful `update_client` on `c`. -/
def Updates (act : Act X) (c : HostString) : Prop :=
  ∃ env message height log, act = .tx ⟨env, .updateClient c message, .returned height log⟩

/-- How a call of `update_client` ended: with nothing changed, with the message's consensus
state stored, or with a client that is frozen for good. -/
def UpdateEnds (lc : Deployed X ε κ τ) (entry : Entry (State X) (Act X))
    (after : List (Entry (State X) (Act X))) (c : HostString) (message : Bytes) :
    Router.Outcome (.updateClient c message) → Prop
  | .aborted => entry.post = entry.pre
  | .returned height _ =>
      (∃ consensus, lc.kind.message message = some (height, consensus) ∧
        (lc.view entry.post.ext).consensus c height = some consensus) ∨
      ((height : UInt64) = 0 ∧
        (lc.view entry.post.ext).consensus = (lc.view entry.pre.ext).consensus ∧
        entry.post.storage.frozen c = some true ∧
        (lc.view entry.post.ext).frozen c = some true ∧
        ∀ later ∈ after, ¬ Updates later.act c)

structure Consistent (lc : Deployed X ε κ τ) (history : List (Entry (State X) (Act X)))
    (state : State X) : Prop where
  kept : ∀ entry ∈ history,
    HistoryKept lc.kind (lc.view entry.pre.ext) (lc.view entry.post.ext) ∧
      HistoryKept lc.kind (lc.view entry.post.ext) (lc.view state.ext)
  flags : FlagsAgree lc state ∧ ∀ entry ∈ history, FlagsAgree lc entry.post
  updates : ∀ before entry after, history = before ++ entry :: after →
    ∀ env c message outcome, entry.act = .tx ⟨env, .updateClient c message, outcome⟩ →
      (∀ other, entry.pre.storage.clientLcAddr c = some other → other = lc.address) →
      UpdateEnds lc entry after c message outcome

section

variable {lc : Deployed X ε κ τ} {sha256 : Bytes → Hash}
variable {history : List (Entry (State X) (Act X))} {state : State X}
variable {entry : Entry (State X) (Act X)}

theorem Inv.flagsAgree (hinv : Inv lc state) : FlagsAgree lc state := by
  intro c hother
  cases hlc : state.storage.clientLcAddr c with
  | none =>
      have hunknown := hinv.unknown c (by simp [hlc])
      rw [hinv.unfrozen c hlc, hunknown.frozen]
  | some lcAddr =>
      rw [hother lcAddr hlc] at hlc
      rw [hinv.frozen c hlc]

theorem Deployed.Run.router (hrun : lc.Run sha256 history state) :
    Router.Run sha256 history state :=
  hrun.mono (fun _ h => h.1) fun _ _ _ h => h.1

/-- What an entry of a mediated run starts with and does. -/
theorem Deployed.Run.at_entry (hlawful : lc.kind.Lawful) (hrun : lc.Run sha256 history state)
    (hmem : entry ∈ history) :
    Inv lc entry.pre ∧ Router.Step sha256 entry.pre entry.act entry.post ∧
      lc.MediatedStep entry.pre entry.act entry.post := by
  obtain ⟨before, after, hsplit⟩ := List.append_of_mem hmem
  obtain ⟨hbefore, hstep, hmediated⟩ := hrun.split hsplit
  exact ⟨inv_of_run hlawful hbefore, hstep, hmediated⟩

theorem historyKept_since (hlawful : lc.kind.Lawful) (hrun : lc.Run sha256 history state)
    (hmem : entry ∈ history) :
    HistoryKept lc.kind (lc.view entry.post.ext) (lc.view state.ext) := by
  obtain ⟨hinv, hstep, hmediated⟩ := hrun.at_entry hlawful hmem
  have hstays : Inv lc state ∧
      HistoryKept lc.kind (lc.view entry.post.ext) (lc.view state.ext) := by
    refine hrun.since (fun state => Inv lc state ∧
      HistoryKept lc.kind (lc.view entry.post.ext) (lc.view state.ext)) ?_ hmem ?_
    · rintro later ⟨hlater, hlaterMediated⟩ ⟨hlaterInv, hkept⟩
      exact ⟨hlaterInv.step hlawful hlater hlaterMediated, hkept.trans
        (hlaterInv.historyKept hlawful (.of_step hlawful hlater hlaterMediated))⟩
    · exact ⟨hinv.step hlawful hstep hmediated, .refl _ _⟩
  exact hstays.2

/-- Once the router froze a client it accepts no update for it. -/
theorem not_updates_after_freeze (hrun : Router.Run sha256 history state)
    {before after : List (Entry (State X) (Act X))} (hsplit : history = before ++ entry :: after)
    {c : HostString} (hfrozen : entry.post.storage.frozen c = some true)
    {later : Entry (State X) (Act X)} (hlater : later ∈ after) : ¬ Updates later.act c := by
  have hstill : later.pre.storage.frozen c = some true :=
    hrun.before_later (fun state : State X => state.storage.frozen c = some true)
      (fun step hstep => hstep.tablesStep.frozen_stays) hsplit hfrozen hlater
  rintro ⟨env, message, height, log, hact⟩
  have hstep := hrun.step_of_mem (Reach.mem_of_later hsplit hlater)
  rw [hact] at hstep
  have hlive : (later.pre.storage.frozen c).getD false = false :=
    (returns_updateClient_calls hstep.returned).1
  rw [hstill] at hlive
  cases hlive

theorem updateEnds_of_run (hlawful : lc.kind.Lawful) (hrun : lc.Run sha256 history state)
    {before after : List (Entry (State X) (Act X))} (hsplit : history = before ++ entry :: after)
    {env : Env X} {c : HostString} {message : Bytes}
    {outcome : Router.Outcome (.updateClient c message)}
    (hact : entry.act = .tx ⟨env, .updateClient c message, outcome⟩)
    (hother : ∀ other, entry.pre.storage.clientLcAddr c = some other → other = lc.address) :
    UpdateEnds lc entry after c message outcome := by
  have hmem : entry ∈ history := by
    rw [hsplit]
    exact List.mem_append_right _ (List.mem_cons_self ..)
  obtain ⟨hinv, hstep, hmediated⟩ := hrun.at_entry hlawful hmem
  rw [hact] at hstep hmediated
  obtain ⟨hmediates, -⟩ := hmediated
  cases outcome with
  | aborted => exact hstep.2
  | returned height log =>
      have hreturned := hstep.returned
      obtain ⟨-, lcAddr, -, hlc, -⟩ := returns_updateClient_calls hreturned
      have hserved : entry.pre.storage.clientLcAddr c = some lc.address := by
        rw [← hother lcAddr hlc]
        exact hlc
      rcases returns_updateClient_mediated hlawful hmediates hreturned hserved with
        ⟨hcheck, hupdate, -⟩ | ⟨hzero, hfreeze, hstorage⟩
      · obtain ⟨record, record', consensus, -, hmessage, hview, -⟩ :=
          hinv.updated hlawful hcheck hupdate
        have hview' : lc.view entry.post.ext = _ := hview
        exact .inl ⟨consensus, hmessage, by simp [hview']⟩
      · obtain ⟨record, record', -, hview, -, -⟩ := hlawful.freeze hfreeze
        have hview' : lc.view entry.post.ext = _ := hview
        have hfrozen : entry.post.storage.frozen c = some true := by
          have hpost : entry.post.storage = _ := hstorage
          rw [hpost]
          exact Function.update_self ..
        refine .inr ⟨hzero, by rw [hview']; rfl, hfrozen, by simp [hview'], ?_⟩
        intro later hlater
        exact not_updates_after_freeze hrun.router hsplit hfrozen hlater

theorem consistent_of_run (hlawful : lc.kind.Lawful) (hrun : lc.Run sha256 history state) :
    Consistent lc history state := by
  refine ⟨?_, ⟨(inv_of_run hlawful hrun).flagsAgree, ?_⟩, ?_⟩
  · intro entry hmem
    obtain ⟨hinv, hstep, hmediated⟩ := hrun.at_entry hlawful hmem
    exact ⟨hinv.historyKept hlawful (.of_step hlawful hstep hmediated),
      historyKept_since hlawful hrun hmem⟩
  · intro entry hmem
    obtain ⟨hinv, hstep, hmediated⟩ := hrun.at_entry hlawful hmem
    exact (hinv.step hlawful hstep hmediated).flagsAgree
  · intro before entry after hsplit env c message outcome hact hother
    exact updateEnds_of_run hlawful hrun hsplit hact hother

end

/-- The runs of the router in which only it calls the two light clients. -/
abbrev Run (attestor : Deployed X Attestation.Error Attestation.AttestorClientState UInt64)
    (tender : Deployed X Tendermint.Error Tendermint.TendermintClientState
      Tendermint.TendermintConsensusState) (sha256 : Bytes → Hash) :
    List (Entry (State X) (Act X)) → State X → Prop :=
  Reach
    (fun state => Init state ∧ attestor.view state.ext = .empty ∧ tender.view state.ext = .empty)
    (fun pre act post => Router.Step sha256 pre act post ∧
      attestor.MediatedStep pre act post ∧ tender.MediatedStep pre act post)

/-- **Router-mediated updates are consistent**, for both light clients. -/
theorem clients_consistent {attestationHost : Attestation.Host}
    {tendermintHost : Tendermint.Host} {attestationAddress tendermintAddress : Address}
    {attestationView : X → Attestation.Storage} {tendermintView : X → Tendermint.Storage}
    {sha256 : Bytes → Hash} {history : List (Entry (State X) (Act X))} {state : State X}
    (hrun : Run ⟨attestation attestationHost, attestationAddress, attestationView⟩
      ⟨tendermint tendermintHost, tendermintAddress, tendermintView⟩ sha256 history state) :
    Consistent ⟨attestation attestationHost, attestationAddress, attestationView⟩ history
        state ∧
      Consistent ⟨tendermint tendermintHost, tendermintAddress, tendermintView⟩ history
        state := by
  constructor
  · apply consistent_of_run (attestation_lawful attestationHost)
    exact hrun.mono (fun _ h => ⟨h.1, h.2.1⟩) fun _ _ _ h => ⟨h.1, h.2.1⟩
  · apply consistent_of_run (tendermint_lawful tendermintHost)
    exact hrun.mono (fun _ h => ⟨h.1, h.2.2⟩) fun _ _ _ h => ⟨h.1, h.2.2⟩

/-! ### A concrete run -/

def sampleHeader : Tendermint.TendermintHeader :=
  ⟨⟨4, 5⟩, ⟨4, 8⟩, 1100, .fill 32 3, .fill 32 9, [], []⟩

def tendermintHost : Tendermint.Host :=
  { Tendermint.sampleHost with
    header := decodeSample Tendermint.TendermintHeader.toScVal [sampleHeader] }

abbrev SampleWorld := Attestation.Storage × Tendermint.Storage

def attestorAt : Deployed SampleWorld Attestation.Error Attestation.AttestorClientState UInt64 :=
  ⟨attestation FrozenClients.sampleHost, zeroAddress, Prod.fst⟩

def tendermintAt : Deployed SampleWorld Tendermint.Error Tendermint.TendermintClientState
    Tendermint.TendermintConsensusState :=
  ⟨tendermint tendermintHost, FrozenClients.appAddress, Prod.snd⟩

/-- The two light clients at their addresses; every other contract accepts. -/
def sampleEnv : Env SampleWorld where
  timestamp := 10
  authorized _ := true
  invoke address call world :=
    if address = zeroAddress then
      (reply attestorAt.kind.machine call world.1).map fun out => (out.1, (out.2, world.2))
    else if address = FrozenClients.appAddress then
      (reply tendermintAt.kind.machine call world.2).map fun out => (out.1, (world.1, out.2))
    else
      some (call.accept, world)

theorem appAddress_ne_zeroAddress : FrozenClients.appAddress ≠ zeroAddress := by decide

theorem sampleEnv_mediates_attestor : attestorAt.Mediates sampleEnv where
  answered call x value x' h := by
    simp only [sampleEnv, attestorAt, if_true, Option.map_eq_some_iff] at h
    obtain ⟨⟨result, s⟩, hreply, hout⟩ := h
    obtain ⟨rfl, rfl⟩ := Prod.mk.inj hout
    exact hreply
  untouched callee call x value x' hcallee h := by
    have hne : callee ≠ zeroAddress := hcallee
    simp only [sampleEnv, if_neg hne] at h
    split at h
    · obtain ⟨out, -, hout⟩ := Option.map_eq_some_iff.mp h
      obtain ⟨-, rfl⟩ := Prod.mk.inj hout
      rfl
    · obtain ⟨-, rfl⟩ := Prod.mk.inj (Option.some.inj h)
      rfl

theorem sampleEnv_mediates_tendermint : tendermintAt.Mediates sampleEnv where
  answered call x value x' h := by
    simp only [sampleEnv, tendermintAt, if_neg appAddress_ne_zeroAddress, if_true,
      Option.map_eq_some_iff] at h
    obtain ⟨⟨result, s⟩, hreply, hout⟩ := h
    obtain ⟨rfl, rfl⟩ := Prod.mk.inj hout
    exact hreply
  untouched callee call x value x' hcallee h := by
    have hne : callee ≠ FrozenClients.appAddress := hcallee
    simp only [sampleEnv, if_neg hne] at h
    split at h
    · obtain ⟨out, -, hout⟩ := Option.map_eq_some_iff.mp h
      obtain ⟨-, rfl⟩ := Prod.mk.inj hout
      rfl
    · obtain ⟨-, rfl⟩ := Prod.mk.inj (Option.some.inj h)
      rfl

/-- One client of each light client; the tendermint client is updated, and the attestor
signed two times for one height. -/
def sampleCalls : List Router.Call :=
  [.registerClientType (ascii "attestor") zeroAddress,
    .registerClientType (ascii "tendermint") FrozenClients.appAddress,
    .createClient (ascii "attestor") FrozenClients.sampleRecord.toScVal.toXdr
      Attestation.firstTime.toScVal.toXdr 5,
    .createClient (ascii "tendermint") Tendermint.firstRecord.toScVal.toXdr
      Tendermint.firstConsensus.toScVal.toXdr 5,
    .updateClient (ascii "tendermint-0") sampleHeader.toScVal.toXdr,
    FrozenClients.freezeCall,
    FrozenClients.freezeCall]

/-- The calls create tendermint clients at the latest height. -/
def AdmitsCall (call : Router.Call) : Prop :=
  ∀ clientType clientState consensusState height,
    call = .createClient clientType clientState consensusState height →
    tendermintAt.kind.Admits clientState height

theorem admits_sampleCalls : ∀ call ∈ sampleCalls, AdmitsCall call := by
  have hattestor : tendermintHost.clientState FrozenClients.sampleRecord.toScVal.toXdr =
      .trapped := by decide
  have htendermint : tendermintHost.clientState Tendermint.firstRecord.toScVal.toXdr =
      .decoded Tendermint.firstRecord := by decide +kernel
  simp only [sampleCalls, FrozenClients.freezeCall, List.forall_mem_cons]
  refine ⟨?_, ?_, ?_, ?_, ?_, ?_, ?_, by simp⟩
  all_goals rintro clientType clientState consensusState height hcall
  all_goals try cases hcall
  · intro cs hdecoded
    rw [hattestor] at hdecoded
    cases hdecoded
  · intro cs hdecoded
    rw [htendermint] at hdecoded
    obtain rfl := SorobanClient.Decoded.decoded.inj hdecoded
    rfl

def executeSample : List (Entry (State SampleWorld) (Act SampleWorld)) × State SampleWorld :=
  State.executeAll Sha256.sha256 [] ⟨.initial zeroAddress, (.empty, .empty)⟩
    (sampleCalls.map fun call => (sampleEnv, call))

theorem run_executeSample :
    Run attestorAt tendermintAt Sha256.sha256 executeSample.1 executeSample.2 := by
  have hstart : Run attestorAt tendermintAt Sha256.sha256 []
      ⟨.initial zeroAddress, (.empty, .empty)⟩ := .start ⟨⟨zeroAddress, rfl⟩, rfl, rfl⟩
  unfold executeSample State.executeAll
  have hexecute : ∀ {history state} {item : Env SampleWorld × Router.Call},
      item.1 = sampleEnv ∧ AdmitsCall item.2 →
      Run attestorAt tendermintAt Sha256.sha256 history state →
      Run attestorAt tendermintAt Sha256.sha256
        (history ++ [state.execute Sha256.sha256 item.1 item.2])
        (state.execute Sha256.sha256 item.1 item.2).post := by
    rintro history state ⟨env, call⟩ ⟨rfl, hadmits⟩ hrun
    obtain ⟨hpre, hstep, outcome, hact⟩ :=
      state.execute_step Sha256.sha256 sampleEnv call
    refine hrun.extend hpre ⟨hstep, ?_, ?_⟩
    · rw [hact]
      exact ⟨sampleEnv_mediates_attestor, fun _ _ _ _ _ _ => trivial⟩
    · rw [hact]
      exact ⟨sampleEnv_mediates_tendermint, fun _ _ _ _ hcall _ => hadmits _ _ _ _ hcall⟩
  refine hstart.feed hexecute ?_
  intro item hitem
  obtain ⟨call, hcall, rfl⟩ := List.mem_map.mp hitem
  exact ⟨rfl, admits_sampleCalls call hcall⟩

theorem clients_consistent_sample :
    (executeSample.2.ext.2.consensus (ascii "tendermint-0") 8 = some
        ⟨1100, sampleHeader.nextValidatorsHash, sampleHeader.appHash⟩ ∧
      executeSample.2.storage.frozen (ascii "attestor-0") = some true ∧
      executeSample.2.ext.1.frozen (ascii "attestor-0") = some true ∧
      executeSample.2.ext.1.consensus (ascii "attestor-0") 5 = some 1000) ∧
    Consistent attestorAt executeSample.1 executeSample.2 ∧
      Consistent tendermintAt executeSample.1 executeSample.2 := by
  refine ⟨by decide +kernel, ?_⟩
  exact clients_consistent run_executeSample

end StellarIbc.Mediated
