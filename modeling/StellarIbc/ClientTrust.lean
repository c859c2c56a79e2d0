import StellarIbc.AttestationClient
import StellarIbc.TendermintClient

/-!
# What a light client keeps of its first initialisation

Both Soroban light clients let anyone call `initialise`, and it overwrites the record of
an existing client: keys, threshold, height and freeze are the caller's.  `Pinned` says
what a client record keeps from one state to a later one, and holds in every run in which
no client id is initialised a second time.
-/

namespace StellarIbc.SorobanClient

variable {ε κ τ θ : Type}

/-- What there is to trust in a client record. -/
structure Trust (κ θ : Type) where
  params : κ → θ
  frozen : κ → Bool
  height : κ → UInt64

/-- From `s` to the later `s'` no client changed its trust parameters, thawed or went back
to a lower height. -/
structure Pinned (trust : Trust κ θ) (s s' : Store κ τ) : Prop where
  record : ∀ c cs, s.client c = some cs → ∃ cs', s'.client c = some cs' ∧
    trust.params cs' = trust.params cs ∧
    (trust.frozen cs = true → trust.frozen cs' = true) ∧ trust.height cs ≤ trust.height cs'
  flag : ∀ c, s.frozen c = some true → s'.frozen c = some true

variable {trust : Trust κ θ} {s s' s'' : Store κ τ}

theorem Pinned.refl : Pinned trust s s :=
  ⟨fun _ cs hcs => ⟨cs, hcs, rfl, id, UInt64.le_refl _⟩, fun _ h => h⟩

theorem Pinned.trans (h : Pinned trust s s') (h' : Pinned trust s' s'') :
    Pinned trust s s'' := by
  refine ⟨?_, fun c hflag => h'.flag c (h.flag c hflag)⟩
  intro c cs hcs
  obtain ⟨cs', hcs', hparams, hfrozen, hheight⟩ := h.record c cs hcs
  obtain ⟨cs'', hcs'', hparams', hfrozen', hheight'⟩ := h'.record c cs' hcs'
  exact ⟨cs'', hcs'', hparams'.trans hparams, fun h => hfrozen' (hfrozen h),
    UInt64.le_trans hheight hheight'⟩

/-- Consensus states are no part of the record. -/
theorem Pinned.setConsensus (h : Pinned trust s s') (c : HostString) (height : UInt64)
    (consensus : τ) : Pinned trust s (s'.setConsensus c height consensus) :=
  ⟨h.record, h.flag⟩

/-- A client that was not there before has nothing to keep. -/
theorem Pinned.setClient_new {c : HostString} (hnew : s.client c = none) (cs : κ) :
    Pinned trust s (s.setClient c cs) := by
  refine ⟨?_, fun _ h => h⟩
  intro c' cs' hcs'
  have hne : c' ≠ c := by
    rintro rfl
    rw [hnew] at hcs'
    cases hcs'
  refine ⟨cs', ?_, rfl, id, UInt64.le_refl _⟩
  rw [Store.setClient_client, Function.update_of_ne hne]
  exact hcs'

theorem Pinned.setClient {c : HostString} {cs cs' : κ} (hcs : s.client c = some cs)
    (hparams : trust.params cs' = trust.params cs)
    (hfrozen : trust.frozen cs = true → trust.frozen cs' = true)
    (hheight : trust.height cs ≤ trust.height cs') :
    Pinned trust s (s.setClient c cs') := by
  refine ⟨?_, fun _ h => h⟩
  intro c' old hold
  rw [Store.setClient_client]
  by_cases hc : c' = c
  · subst hc
    obtain rfl := Option.some.inj (hcs.symm.trans hold)
    exact ⟨cs', by simp, hparams, hfrozen, hheight⟩
  · exact ⟨old, by rw [Function.update_of_ne hc]; exact hold, rfl, id, UInt64.le_refl _⟩

theorem Pinned.setFrozen (h : Pinned trust s s') (c : HostString) :
    Pinned trust s (s'.setFrozen c) := by
  refine ⟨h.record, ?_⟩
  intro c' hflag
  rw [Store.setFrozen_frozen]
  by_cases hc : c' = c
  · simp [hc]
  · rw [Function.update_of_ne hc]
    exact h.flag c' hflag

/-! ### Runs -/

/-- The call does not initialise a client that has a record. -/
def InitialisesNew (entry : Entry (Store κ τ) Tx) : Prop :=
  ∀ c clientState consensusState height,
    entry.act.call = .initialise c clientState consensusState height →
    entry.pre.client c = none

/-- After every step of the run, nothing that was pinned then has changed since. -/
def PinsTrust (trust : Trust κ θ) (history : List (Entry (Store κ τ) Tx))
    (s : Store κ τ) : Prop :=
  ∀ entry ∈ history, Pinned trust entry.post s

/-- A contract whose returning calls pin the trust pins it over its runs. -/
theorem pinsTrust_of_returns {machine : Machine ε κ τ}
    (hreturns : ∀ {pre post : Store κ τ} {call : Call} {value : call.Result},
      Contract.Returns (machine call) pre value post →
      (∀ c clientState consensusState height,
        call = .initialise c clientState consensusState height → pre.client c = none) →
      Pinned trust pre post)
    {history : List (Entry (Store κ τ) Tx)} (hrun : Run machine history s)
    (hnew : ∀ entry ∈ history, InitialisesNew entry) : PinsTrust trust history s := by
  intro entry hmem
  have hstep : ∀ step : Entry (Store κ τ) Tx,
      Step machine step.pre step.act step.post ∧ InitialisesNew step →
      Pinned trust entry.post step.pre → Pinned trust entry.post step.post := by
    rintro ⟨pre, ⟨call, outcome⟩, post⟩ ⟨hstep, hnew⟩ hpinned
    cases outcome with
    | returned value => exact hpinned.trans (hreturns hstep hnew)
    | aborted =>
        have hsame : post = pre := hstep.2
        rw [hsame]
        exact hpinned
  exact (hrun.restrictEntries hnew).since _ hstep hmem .refl

end StellarIbc.SorobanClient

namespace StellarIbc

open SorobanClient

/-- The attestor keys and the threshold. -/
def Attestation.trust :
    Trust Attestation.AttestorClientState (List (BytesN 32) × UInt32) where
  params cs := (cs.attestorKeys, cs.minRequiredSigs)
  frozen := Attestation.AttestorClientState.frozen
  height := Attestation.AttestorClientState.latestHeight

/-- The chain, the trust level and the three periods. -/
def Tendermint.trust : Trust Tendermint.TendermintClientState
    (HostString × Tendermint.TrustThreshold × UInt64 × UInt64 × UInt64) where
  params cs := (cs.chainId, cs.trustLevel, cs.trustingPeriodSecs, cs.unbondingPeriodSecs,
    cs.maxClockDriftSecs)
  frozen := Tendermint.TendermintClientState.isFrozen
  height cs := cs.latestHeight.revisionHeight

theorem Attestation.Effect.pinned {host : Attestation.Host} {pre post : Attestation.Storage}
    {call : Call} (h : Attestation.Effect host pre call post)
    (hnew : ∀ c clientState consensusState height,
      call = .initialise c clientState consensusState height → pre.client c = none) :
    Pinned Attestation.trust pre post := by
  cases h with
  | initialise hdecoded =>
      exact (Pinned.setClient_new (hnew _ _ _ _ rfl) _).setConsensus _ _ _
  | update hclient hlive hsigned hpost =>
      rcases hpost with ⟨hgreater, rfl⟩ | ⟨-, rfl⟩
      · exact (Pinned.refl.setConsensus _ _ _).trans
          (.setClient hclient rfl id (UInt64.le_of_lt hgreater))
      · exact Pinned.refl.setConsensus _ _ _
  | @freeze c message cs hclient =>
      have hrecord : Pinned Attestation.trust pre (pre.setClient c { cs with frozen := true }) :=
        .setClient hclient rfl (fun _ => rfl) (UInt64.le_refl _)
      exact hrecord.setFrozen _
  | read => exact .refl

theorem Tendermint.Effect.pinned {host : Tendermint.Host} {pre post : Tendermint.Storage}
    {call : Call} (h : Tendermint.Effect host pre call post)
    (hnew : ∀ c clientState consensusState height,
      call = .initialise c clientState consensusState height → pre.client c = none) :
    Pinned Tendermint.trust pre post := by
  cases h with
  | initialise hdecoded =>
      exact (Pinned.setClient_new (hnew _ _ _ _ rfl) _).setConsensus _ _ _
  | update hclient hlive hgreater =>
      exact (Pinned.refl.setConsensus _ _ _).trans
        (.setClient hclient rfl id (UInt64.le_of_lt hgreater))
  | @freeze c message cs hclient =>
      have hrecord : Pinned Tendermint.trust pre
          (pre.setClient c { cs with isFrozen := true, frozenHeight := cs.latestHeight }) :=
        .setClient hclient rfl (fun _ => rfl) (UInt64.le_refl _)
      exact hrecord.setFrozen _
  | read => exact .refl

/-- **Both light clients pin their trust** in every run in which no client id is
initialised a second time. -/
theorem trust_pinned_of_initialised_once (attestor : Attestation.Host)
    (tendermint : Tendermint.Host) :
    (∀ history s, Run (Attestation.exec attestor) history s →
      (∀ entry ∈ history, InitialisesNew entry) → PinsTrust Attestation.trust history s) ∧
    (∀ history s, Run (Tendermint.exec tendermint) history s →
      (∀ entry ∈ history, InitialisesNew entry) → PinsTrust Tendermint.trust history s) := by
  refine ⟨?_, ?_⟩
  · intro history s hrun hnew
    exact pinsTrust_of_returns (fun h => (Attestation.Effect.of_returns h).pinned) hrun hnew
  · intro history s hrun hnew
    exact pinsTrust_of_returns (fun h => (Tendermint.Effect.of_returns h).pinned) hrun hnew

/-! ### Concrete runs -/

/-- The first call finds no client, and the others initialise none. -/
theorem initialisesNew_executeAll {ε κ τ : Type} {machine : Machine ε κ τ} {first : Call}
    {rest : List Call}
    (hrest : ∀ call ∈ rest, ∀ c clientState consensusState height,
      call ≠ .initialise c clientState consensusState height) :
    ∀ entry ∈ (executeAll machine (first :: rest)).1, InitialisesNew entry := by
  have hfeed : executeAll machine (first :: rest) = feed (execute machine)
      [execute machine .empty first] (execute machine .empty first).post rest := rfl
  rw [hfeed]
  apply forall_mem_feed
  · rw [List.forall_mem_singleton]
    intro c clientState consensusState height _
    rw [execute_pre]
    rfl
  · intro call hmem s c clientState consensusState height hcall
    rw [execute_call] at hcall
    exact absurd hcall (hrest call hmem c clientState consensusState height)

/-- A decoder that knows the encodings of `samples`. -/
def decodeSample {α : Type} (toScVal : α → ScVal) (samples : List α) (bytes : Bytes) :
    Decoded α :=
  match samples.find? fun sample => (toScVal sample).toXdr == bytes with
  | some sample => .decoded sample
  | none => .trapped

namespace Attestation

def firstRecord : AttestorClientState := ⟨[.fill 32 1], 0, 5, false⟩

/-- The record of whoever initialises the client again. -/
def secondRecord : AttestorClientState := ⟨[.fill 32 2], 0, 0, false⟩

def firstTime : StateAttestation := ⟨5, 1000⟩

def nextTime : StateAttestation := ⟨6, 1001⟩

/-- With a threshold of 0 an update needs no signature. -/
def unsignedUpdate : AttestationProof := ⟨nextTime.toScVal.toXdr, [], []⟩

def sampleHost : Host where
  clientState := decodeSample AttestorClientState.toScVal [firstRecord, secondRecord]
  stateAttestation := decodeSample StateAttestation.toScVal [firstTime, nextTime]
  packetAttestation := decodeSample PacketAttestation.toScVal []
  attestationProof := decodeSample AttestationProof.toScVal [unsignedUpdate]
  ed25519Verify _ _ _ := false

def sampleInitialise (record : AttestorClientState) : Call :=
  .initialise (ascii "attestor-0") record.toScVal.toXdr firstTime.toScVal.toXdr 5

end Attestation

namespace Tendermint

def firstRecord : TendermintClientState :=
  ⟨ascii "cosmoshub-4", ⟨1, 3⟩, 1209600, 1814400, 40, ⟨4, 5⟩, false, ⟨0, 0⟩, []⟩

/-- The record of whoever initialises the client again. -/
def secondRecord : TendermintClientState :=
  ⟨ascii "forked-1", ⟨0, 1⟩, 1209600, 1814400, 40, ⟨4, 0⟩, false, ⟨0, 0⟩, []⟩

def firstConsensus : TendermintConsensusState :=
  ⟨1000, .fill 32 3, .fill 32 4⟩

def sampleHost : Host where
  clientState := decodeSample TendermintClientState.toScVal [firstRecord, secondRecord]
  consensusState := decodeSample TendermintConsensusState.toScVal [firstConsensus]
  header _ := .trapped

def sampleInitialise (record : TendermintClientState) : Call :=
  .initialise (ascii "tendermint-0") record.toScVal.toXdr firstConsensus.toScVal.toXdr 5

end Tendermint

/-- One initialisation, an update without signatures and a freeze. -/
def attestationRun : List Call :=
  [Attestation.sampleInitialise Attestation.firstRecord,
    .updateState (ascii "attestor-0") Attestation.unsignedUpdate.toScVal.toXdr,
    .updateStateOnMisbehaviour (ascii "attestor-0") []]

def tendermintRun : List Call :=
  [Tendermint.sampleInitialise Tendermint.firstRecord,
    .updateStateOnMisbehaviour (ascii "tendermint-0") []]

theorem trust_pinned_sample :
    ((executeAll (Attestation.exec Attestation.sampleHost) attestationRun).2.client
        (ascii "attestor-0") = some { Attestation.firstRecord with
          latestHeight := 6, frozen := true }) ∧
      PinsTrust Attestation.trust
        (executeAll (Attestation.exec Attestation.sampleHost) attestationRun).1
        (executeAll (Attestation.exec Attestation.sampleHost) attestationRun).2 ∧
      PinsTrust Tendermint.trust
        (executeAll (Tendermint.exec Tendermint.sampleHost) tendermintRun).1
        (executeAll (Tendermint.exec Tendermint.sampleHost) tendermintRun).2 := by
  obtain ⟨hattestor, htendermint⟩ :=
    trust_pinned_of_initialised_once Attestation.sampleHost Tendermint.sampleHost
  refine ⟨by decide +kernel, ?_, ?_⟩
  · apply hattestor
    · exact run_executeAll _ attestationRun
    · exact initialisesNew_executeAll (by simp)
  · apply htendermint
    · exact run_executeAll _ tendermintRun
    · exact initialisesNew_executeAll (by simp)

/-- The client is frozen, and then initialised again by anyone. -/
def attestationRerun : List Call :=
  attestationRun ++ [Attestation.sampleInitialise Attestation.secondRecord]

def tendermintRerun : List Call :=
  tendermintRun ++ [Tendermint.sampleInitialise Tendermint.secondRecord]

/-- A record that is there and whose trust parameters are not those of a later record. -/
theorem not_pinsTrust_of_params {κ τ θ : Type} {trust : Trust κ θ}
    {history : List (Entry (Store κ τ) Tx)} {s : Store κ τ} {entry : Entry (Store κ τ) Tx}
    {c : HostString} {cs cs' : κ} (hmem : entry ∈ history)
    (hpost : entry.post.client c = some cs) (hlater : s.client c = some cs')
    (hparams : trust.params cs' ≠ trust.params cs) : ¬ PinsTrust trust history s := by
  intro hpinned
  obtain ⟨record, hrecord, hsame, -⟩ := (hpinned entry hmem).record c cs hpost
  obtain rfl := Option.some.inj (hlater.symm.trans hrecord)
  exact hparams hsame

theorem trust_not_pinned_after_reinitialise :
    (Run (Attestation.exec Attestation.sampleHost)
        (executeAll (Attestation.exec Attestation.sampleHost) attestationRerun).1
        (executeAll (Attestation.exec Attestation.sampleHost) attestationRerun).2 ∧
      ¬ PinsTrust Attestation.trust
        (executeAll (Attestation.exec Attestation.sampleHost) attestationRerun).1
        (executeAll (Attestation.exec Attestation.sampleHost) attestationRerun).2) ∧
    (Run (Tendermint.exec Tendermint.sampleHost)
        (executeAll (Tendermint.exec Tendermint.sampleHost) tendermintRerun).1
        (executeAll (Tendermint.exec Tendermint.sampleHost) tendermintRerun).2 ∧
      ¬ PinsTrust Tendermint.trust
        (executeAll (Tendermint.exec Tendermint.sampleHost) tendermintRerun).1
        (executeAll (Tendermint.exec Tendermint.sampleHost) tendermintRerun).2) := by
  refine ⟨⟨run_executeAll _ _, ?_⟩, ⟨run_executeAll _ _, ?_⟩⟩
  · have hfirst : (executeAll (Attestation.exec Attestation.sampleHost)
        attestationRerun).1.head?.bind (·.post.client (ascii "attestor-0")) =
          some Attestation.firstRecord := by
      decide
    have hlast : (executeAll (Attestation.exec Attestation.sampleHost)
        attestationRerun).2.client (ascii "attestor-0") = some Attestation.secondRecord := by
      decide
    obtain ⟨entry, hentry, hpost⟩ := Option.bind_eq_some_iff.mp hfirst
    exact not_pinsTrust_of_params (List.mem_of_mem_head? hentry) hpost hlast (by decide)
  · have hfirst : (executeAll (Tendermint.exec Tendermint.sampleHost)
        tendermintRerun).1.head?.bind (·.post.client (ascii "tendermint-0")) =
          some Tendermint.firstRecord := by
      decide +kernel
    have hlast : (executeAll (Tendermint.exec Tendermint.sampleHost)
        tendermintRerun).2.client (ascii "tendermint-0") = some Tendermint.secondRecord := by
      decide +kernel
    obtain ⟨entry, hentry, hpost⟩ := Option.bind_eq_some_iff.mp hfirst
    exact not_pinsTrust_of_params (List.mem_of_mem_head? hentry) hpost hlast (by decide)

end StellarIbc
