import StellarIbc.AttestationClient
import StellarIbc.TendermintClient

/-!
# What the router relies on in a light client

The two light clients resolve conflicts differently: the attestation client overwrites the
timestamp of a height and has compared it before, the tendermint client takes greater
heights only.  What `update_client` relies on is stated once, for any light client that has
the twelve entrypoints, and both are shown to provide it.
-/

namespace StellarIbc.Mediated

open Contract SorobanClient

/-! ### What the router relies on -/

section

variable {ε κ τ : Type}

/-- A light client contract and how its entries are read. -/
structure Kind (ε κ τ : Type) where
  machine : Machine ε κ τ
  /-- What `latest_height` answers for a client record. -/
  latest : κ → UInt64
  /-- The height and the consensus state that an update message carries. -/
  message : Bytes → Option (UInt64 × τ)
  /-- The client states and heights that clients are created with. -/
  Admits : Bytes → UInt64 → Prop
  /-- What the record of a client says about its consensus states. -/
  Ordered : κ → (UInt64 → Option τ) → Prop

/-- The entrypoints that write nothing. -/
def Reads : SorobanClient.Call → Prop
  | .initialise .. | .updateState .. | .updateStateOnMisbehaviour .. => False
  | _ => True

structure Kind.Lawful (kind : Kind ε κ τ) : Prop where
  reads : ∀ {call : SorobanClient.Call} {value : call.Result} {s s' : Store κ τ}, Reads call →
    Returns (kind.machine call) s value s' → s' = s
  initialise : ∀ {c : HostString} {clientState consensusState : Bytes} {height : UInt64}
    {result : Unit} {s s' : Store κ τ},
    Returns (kind.machine (.initialise c clientState consensusState height)) s result s' →
      ∃ record consensus, s' = (s.setClient c record).setConsensus c height consensus ∧
        (kind.Admits clientState height →
          kind.Ordered record (Function.update (fun _ => none) height (some consensus)))
  /-- An update after a check that found nothing. -/
  update : ∀ {c : HostString} {message : Bytes} {height : UInt64} {record : κ}
    {s s' : Store κ τ},
    Returns (kind.machine (.checkForMisbehaviour c message)) s false s →
      Returns (kind.machine (.updateState c message)) s height s' →
      s.client c = some record → kind.Ordered record (s.consensus c) →
      ∃ record' consensus, kind.message message = some (height, consensus) ∧
        s' = (s.setConsensus c height consensus).setClient c record' ∧
        kind.latest record ≤ kind.latest record' ∧
        (∀ old, s.consensus c height = some old → old = consensus) ∧
        kind.Ordered record' (Function.update (s.consensus c) height (some consensus))
  updateRecorded : ∀ {c : HostString} {message : Bytes} {height : UInt64} {s s' : Store κ τ},
    Returns (kind.machine (.updateState c message)) s height s' → s.client c ≠ none
  freeze : ∀ {c : HostString} {message : Bytes} {result : Unit} {s s' : Store κ τ},
    Returns (kind.machine (.updateStateOnMisbehaviour c message)) s result s' →
      ∃ record record', s.client c = some record ∧
        s' = (s.setClient c record').setFrozen c ∧ kind.latest record' = kind.latest record ∧
        ∀ consensus, kind.Ordered record consensus → kind.Ordered record' consensus

end

/-! ### The attestation client -/

/-- Any client state with any height may be created. -/
def attestation (host : Attestation.Host) :
    Kind Attestation.Error Attestation.AttestorClientState UInt64 where
  machine := Attestation.exec host
  latest record := record.latestHeight
  message bytes :=
    match host.attestationProof bytes with
    | .decoded proof =>
        match host.stateAttestation proof.attestationData with
        | .decoded att => some (att.height, att.timestamp)
        | _ => none
    | _ => none
  Admits _ _ := True
  Ordered _ _ := True

theorem setClient_self {κ τ : Type} {s : Store κ τ} {c : HostString} {record : κ}
    (h : s.client c = some record) : s.setClient c record = s := by
  rw [Store.setClient, ← h, Function.update_eq_self]

theorem attestation_lawful (host : Attestation.Host) : (attestation host).Lawful where
  reads {call value s s'} hreads h := by
    have heffect := Attestation.Effect.of_returns h
    cases heffect with
    | read => rfl
    | initialise | update | freeze => exact hreads.elim
  initialise h := by
    obtain ⟨record, timestamp, -, rfl⟩ := Attestation.returns_initialise h
    exact ⟨record, timestamp, rfl, fun _ => trivial⟩
  update {c message height record s s'} hcheck hupdate hrecord hordered := by
    obtain ⟨cs, proof, att, hclient, hlive, hproof, -, hatt, rfl, hbranch⟩ :=
      Attestation.returns_updateState hupdate
    obtain rfl := Option.some.inj (hclient.symm.trans hrecord)
    have hmessage : (attestation host).message message = some (att.height, att.timestamp) := by
      simp [attestation, hproof, hatt]
    have hsame : ∀ old, s.consensus c att.height = some old → old = att.timestamp :=
      fun old hold => Attestation.returns_checkForMisbehaviour_false hclient hlive hproof hatt
        hcheck hold
    rcases hbranch with ⟨hgreater, rfl⟩ | ⟨-, rfl⟩
    · exact ⟨_, att.timestamp, hmessage, rfl, UInt64.le_of_lt hgreater, hsame, trivial⟩
    · have hclient' : (s.setConsensus c att.height att.timestamp).client c = some cs := hclient
      exact ⟨cs, att.timestamp, hmessage, (setClient_self hclient').symm, UInt64.le_refl _,
        hsame, trivial⟩
  updateRecorded h := by
    obtain ⟨cs, -, -, hclient, -⟩ := Attestation.returns_updateState h
    simp [hclient]
  freeze {c message result s s'} h := by
    have hfreeze : Returns (Attestation.updateStateOnMisbehaviour c message) s result s' := h
    obtain ⟨cs, hclient, rfl⟩ := Attestation.returns_updateStateOnMisbehaviour hfreeze
    exact ⟨cs, _, hclient, rfl, rfl, fun _ _ => trivial⟩

/-! ### The tendermint client -/

/-- A client is created at the latest height of its client state, and no consensus state is
above the latest height. -/
def tendermint (host : Tendermint.Host) :
    Kind Tendermint.Error Tendermint.TendermintClientState
      Tendermint.TendermintConsensusState where
  machine := Tendermint.exec host
  latest record := record.latestHeight.revisionHeight
  message bytes :=
    match host.header bytes with
    | .decoded header => some (header.targetHeight.revisionHeight,
        ⟨header.timestampSecs, header.nextValidatorsHash, header.appHash⟩)
    | _ => none
  Admits clientState height := ∀ cs, host.clientState clientState = .decoded cs →
    height = cs.latestHeight.revisionHeight
  Ordered record consensus :=
    ∀ height, consensus height ≠ none → height ≤ record.latestHeight.revisionHeight

theorem tendermint_lawful (host : Tendermint.Host) : (tendermint host).Lawful where
  reads {call value s s'} hreads h := by
    have heffect := Tendermint.Effect.of_returns h
    cases heffect with
    | read => rfl
    | initialise | update | freeze => exact hreads.elim
  initialise {c clientState consensusState height result s s'} h := by
    obtain ⟨record, consensus, hdecoded, rfl⟩ := Tendermint.returns_initialise h
    refine ⟨record, consensus, rfl, ?_⟩
    intro hadmits other hother
    by_cases hheight : other = height
    · rw [hheight, hadmits record hdecoded]
      exact UInt64.le_refl _
    · rw [Function.update_of_ne hheight] at hother
      exact absurd rfl hother
  update {c message height record s s'} hcheck hupdate hrecord hordered := by
    obtain ⟨cs, header, hclient, -, hheader, hgreater, rfl, rfl⟩ :=
      Tendermint.returns_updateState hupdate
    obtain rfl := Option.some.inj (hclient.symm.trans hrecord)
    have hmessage : (tendermint host).message message =
        some (header.targetHeight.revisionHeight,
          ⟨header.timestampSecs, header.nextValidatorsHash, header.appHash⟩) := by
      simp [tendermint, hheader]
    refine ⟨_, _, hmessage, rfl, UInt64.le_of_lt hgreater, ?_, ?_⟩
    · intro old hold
      have hle := hordered header.targetHeight.revisionHeight (by simp [hold])
      exact absurd hgreater (UInt64.not_lt.mpr hle)
    · intro other hother
      by_cases hheight : other = header.targetHeight.revisionHeight
      · rw [hheight]
        exact UInt64.le_refl _
      · rw [Function.update_of_ne hheight] at hother
        exact UInt64.le_trans (hordered other hother) (UInt64.le_of_lt hgreater)
  updateRecorded h := by
    obtain ⟨cs, -, hclient, -⟩ := Tendermint.returns_updateState h
    simp [hclient]
  freeze {c message result s s'} h := by
    have hfreeze : Returns (Tendermint.updateStateOnMisbehaviour c message) s result s' := h
    obtain ⟨cs, hclient, rfl⟩ := Tendermint.returns_updateStateOnMisbehaviour hfreeze
    exact ⟨cs, _, hclient, rfl, rfl, fun _ hordered => hordered⟩

end StellarIbc.Mediated
