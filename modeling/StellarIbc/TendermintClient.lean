import StellarIbc.SorobanClient

/-!
# The tendermint light client

`light-clients/tendermint/src/lib.rs`: headers are taken as they come and proofs are not
looked at, as long as the client is not frozen and a consensus state stands at the height.
The host's decoders are parameters.
-/

namespace StellarIbc.Tendermint

open Contract SorobanClient

inductive Error where
  | clientNotInitialised
  | clientFrozen
  | invalidClientState
  | invalidConsensusState
  | invalidHeader
  | consensusStateMissing
  | heightAlreadyExistsWithDifferentRoot
  | chainIdMismatch
  | headerHeightNotAfterTrusted
  | trustingPeriodElapsed
deriving DecidableEq, Repr

structure TrustThreshold where
  numerator : UInt32
  denominator : UInt32
deriving DecidableEq

structure Height where
  revisionNumber : UInt64
  revisionHeight : UInt64
deriving DecidableEq

structure TendermintClientState where
  chainId : HostString
  trustLevel : TrustThreshold
  trustingPeriodSecs : UInt64
  unbondingPeriodSecs : UInt64
  maxClockDriftSecs : UInt64
  latestHeight : Height
  isFrozen : Bool
  frozenHeight : Height
  proofSpecs : Bytes
deriving DecidableEq

structure TendermintConsensusState where
  timestampSecs : UInt64
  nextValidatorsHash : BytesN 32
  root : BytesN 32
deriving DecidableEq

structure TendermintHeader where
  trustedHeight : Height
  targetHeight : Height
  timestampSecs : UInt64
  nextValidatorsHash : BytesN 32
  appHash : BytesN 32
  signedHeaderBytes : Bytes
  validatorSetBytes : Bytes
deriving DecidableEq

/-! ### XDR of the structs -/

def TrustThreshold.toScVal (level : TrustThreshold) : ScVal :=
  .struct [(ascii "denominator", .u32 level.denominator),
    (ascii "numerator", .u32 level.numerator)]

def Height.toScVal (height : Height) : ScVal :=
  .struct [(ascii "revision_height", .u64 height.revisionHeight),
    (ascii "revision_number", .u64 height.revisionNumber)]

def TendermintClientState.toScVal (cs : TendermintClientState) : ScVal :=
  .struct [(ascii "chain_id", .string cs.chainId),
    (ascii "frozen_height", cs.frozenHeight.toScVal),
    (ascii "is_frozen", .bool cs.isFrozen),
    (ascii "latest_height", cs.latestHeight.toScVal),
    (ascii "max_clock_drift_secs", .u64 cs.maxClockDriftSecs),
    (ascii "proof_specs", .bytes cs.proofSpecs),
    (ascii "trust_level", cs.trustLevel.toScVal),
    (ascii "trusting_period_secs", .u64 cs.trustingPeriodSecs),
    (ascii "unbonding_period_secs", .u64 cs.unbondingPeriodSecs)]

def TendermintConsensusState.toScVal (cons : TendermintConsensusState) : ScVal :=
  .struct [(ascii "next_validators_hash", .bytes cons.nextValidatorsHash.val),
    (ascii "root", .bytes cons.root.val),
    (ascii "timestamp_secs", .u64 cons.timestampSecs)]

def TendermintHeader.toScVal (header : TendermintHeader) : ScVal :=
  .struct [(ascii "app_hash", .bytes header.appHash.val),
    (ascii "next_validators_hash", .bytes header.nextValidatorsHash.val),
    (ascii "signed_header_bytes", .bytes header.signedHeaderBytes),
    (ascii "target_height", header.targetHeight.toScVal),
    (ascii "timestamp_secs", .u64 header.timestampSecs),
    (ascii "trusted_height", header.trustedHeight.toScVal),
    (ascii "validator_set_bytes", .bytes header.validatorSetBytes)]

/-- What the contract asks of its host. -/
structure Host where
  clientState : Bytes → Decoded TendermintClientState
  consensusState : Bytes → Decoded TendermintConsensusState
  header : Bytes → Decoded TendermintHeader

abbrev Storage := Store TendermintClientState TendermintConsensusState

abbrev TendermintM (α : Type) := Contract Error Storage α

variable (host : Host)

/-! ### Helpers -/

def loadClientState (clientId : HostString) : TendermintM TendermintClientState := do
  unwrapOr ((← get).client clientId) .clientNotInitialised

def loadConsensusState (clientId : HostString) (height : UInt64) :
    TendermintM TendermintConsensusState := do
  unwrapOr ((← get).consensus clientId height) .consensusStateMissing

def decodeHeader (bytes : Bytes) : TendermintM TendermintHeader :=
  decodeOr (host.header bytes) .invalidHeader

/-! ### Entrypoints -/

def initialise (clientId : HostString) (clientState consensusState : Bytes)
    (height : UInt64) : TendermintM Unit := do
  let cs ← decodeOr (host.clientState clientState) .invalidClientState
  let cons ← decodeOr (host.consensusState consensusState) .invalidConsensusState
  modify fun s => s.setClient clientId cs
  modify fun s => s.setConsensus clientId height cons

def latestHeight (clientId : HostString) : TendermintM UInt64 := do
  return (← loadClientState clientId).latestHeight.revisionHeight

def clientState (clientId : HostString) : TendermintM Bytes := do
  return (← loadClientState clientId).toScVal.toXdr

def consensusState (clientId : HostString) (height : UInt64) : TendermintM Bytes := do
  return (← loadConsensusState clientId height).toScVal.toXdr

def verifyClientMessage (_clientId : HostString) (_clientMessage : Bytes) :
    TendermintM (Bytes × UInt64) :=
  return ([], 0)

def checkForMisbehaviour (clientId : HostString) (clientMessage : Bytes) :
    TendermintM Bool := do
  if (← loadClientState clientId).isFrozen = true then
    return false
  else
    let header ← decodeHeader host clientMessage
    match (← get).consensus clientId header.targetHeight.revisionHeight with
    | some existing => return existing.root != header.appHash
    | none => return false

def updateState (clientId : HostString) (clientMessage : Bytes) : TendermintM UInt64 := do
  let cs ← loadClientState clientId
  panicIf (cs.isFrozen = true) .clientFrozen
  let header ← decodeHeader host clientMessage
  panicIf (header.targetHeight.revisionHeight ≤ cs.latestHeight.revisionHeight)
    .headerHeightNotAfterTrusted
  modify fun s => s.setConsensus clientId header.targetHeight.revisionHeight
    ⟨header.timestampSecs, header.nextValidatorsHash, header.appHash⟩
  modify fun s => s.setClient clientId { cs with latestHeight := header.targetHeight }
  return header.targetHeight.revisionHeight

def updateStateOnMisbehaviour (clientId : HostString) (_clientMessage : Bytes) :
    TendermintM Unit := do
  let cs ← loadClientState clientId
  modify fun s => s.setClient clientId
    { cs with isFrozen := true, frozenHeight := cs.latestHeight }
  modify fun s => s.setFrozen clientId

def frozen (clientId : HostString) : TendermintM Bool := do
  return ((← get).frozen clientId).getD false

/-- `verify_membership` and `verify_non_membership` look at no proof. -/
def verifyAtHeight (clientId : HostString) (height : UInt64) : TendermintM Bool := do
  if (← get).consensus clientId height = none then
    return false
  else if (← loadClientState clientId).isFrozen = true then
    return false
  else
    return true

def verifyMembership (clientId : HostString) (height : UInt64)
    (_proof _path _value : Bytes) : TendermintM Bool :=
  verifyAtHeight clientId height

def verifyNonMembership (clientId : HostString) (height : UInt64) (_proof _path : Bytes) :
    TendermintM Bool :=
  verifyAtHeight clientId height

def getTimestampAtHeight (clientId : HostString) (height : UInt64) : TendermintM UInt64 := do
  return (((← get).consensus clientId height).map (·.timestampSecs)).getD 0

/-- The contract. -/
def exec : Machine Error TendermintClientState TendermintConsensusState
  | .initialise clientId cs consensus height => initialise host clientId cs consensus height
  | .latestHeight clientId => latestHeight clientId
  | .clientState clientId => clientState clientId
  | .consensusState clientId height => consensusState clientId height
  | .verifyClientMessage clientId message => verifyClientMessage clientId message
  | .checkForMisbehaviour clientId message => checkForMisbehaviour host clientId message
  | .updateState clientId message => updateState host clientId message
  | .updateStateOnMisbehaviour clientId message =>
      updateStateOnMisbehaviour clientId message
  | .frozen clientId => frozen clientId
  | .verifyMembership clientId height proof path value =>
      verifyMembership clientId height proof path value
  | .verifyNonMembership clientId height proof path =>
      verifyNonMembership clientId height proof path
  | .getTimestampAtHeight clientId height => getTimestampAtHeight clientId height

/-! ### What the calls do -/

variable {host} {c : HostString} {height : UInt64} {pre post : Storage}

@[simp] theorem returns_loadClientState {cs : TendermintClientState} :
    Returns (loadClientState c) pre cs post ↔ pre.client c = some cs ∧ post = pre := by
  simp only [loadClientState, returns_bind, returns_get, returns_unwrapOr]
  constructor
  · rintro ⟨_, _, ⟨rfl, rfl⟩, hclient, rfl⟩
    exact ⟨hclient, rfl⟩
  · rintro ⟨hclient, rfl⟩
    exact ⟨_, _, ⟨rfl, rfl⟩, hclient, rfl⟩

theorem returns_initialise {clientState consensusState : Bytes} {result : Unit}
    (h : Returns (initialise host c clientState consensusState height) pre result post) :
    ∃ cs cons, host.clientState clientState = .decoded cs ∧
      post = (pre.setClient c cs).setConsensus c height cons := by
  simp only [initialise, returns_bind, returns_decodeOr, returns_modify] at h
  obtain ⟨cs, _, ⟨hdecoded, rfl⟩, cons, _, ⟨-, rfl⟩, _, _, rfl, rfl⟩ := h
  exact ⟨cs, cons, hdecoded, rfl⟩

theorem returns_updateState {message : Bytes} {result : UInt64}
    (h : Returns (updateState host c message) pre result post) :
    ∃ cs header, pre.client c = some cs ∧ cs.isFrozen = false ∧
      host.header message = .decoded header ∧
      cs.latestHeight.revisionHeight < header.targetHeight.revisionHeight ∧
      result = header.targetHeight.revisionHeight ∧
      post = (pre.setConsensus c header.targetHeight.revisionHeight
        ⟨header.timestampSecs, header.nextValidatorsHash, header.appHash⟩).setClient c
          { cs with latestHeight := header.targetHeight } := by
  simp only [updateState, decodeHeader, returns_bind, returns_loadClientState,
    returns_panicIf, returns_decodeOr, returns_modify, returns_pure, Bool.not_eq_true,
    UInt64.not_le] at h
  obtain ⟨cs, _, ⟨hclient, rfl⟩, _, _, ⟨hlive, rfl⟩, header, _, ⟨hheader, rfl⟩, _, _,
    ⟨hgreater, rfl⟩, _, _, rfl, _, _, rfl, rfl, rfl⟩ := h
  exact ⟨cs, header, hclient, hlive, hheader, hgreater, rfl, rfl⟩

theorem returns_updateStateOnMisbehaviour {message : Bytes} {result : Unit}
    (h : Returns (updateStateOnMisbehaviour c message) pre result post) :
    ∃ cs, pre.client c = some cs ∧ post = (pre.setClient c
      { cs with isFrozen := true, frozenHeight := cs.latestHeight }).setFrozen c := by
  simp only [updateStateOnMisbehaviour, returns_bind, returns_loadClientState,
    returns_modify] at h
  obtain ⟨cs, _, ⟨hclient, rfl⟩, _, _, rfl, rfl⟩ := h
  exact ⟨cs, hclient, rfl⟩

/-! ### Calls that only read -/

section

variable {υ : Type} {view : Storage → υ}

instance : Keeps view (loadClientState c) where
  keeps h := by rw [(returns_loadClientState.mp h).2]

instance : Keeps view (loadConsensusState c height) := by
  unfold loadConsensusState
  infer_instance

instance : Keeps view (verifyAtHeight c height) := by
  unfold verifyAtHeight
  infer_instance

instance {message : Bytes} : Keeps view (checkForMisbehaviour host c message) where
  keeps h := by
    simp only [checkForMisbehaviour, decodeHeader, returns_bind, returns_loadClientState,
      returns_decodeOr, returns_ite, returns_pure, returns_get] at h
    obtain ⟨cs, _, ⟨-, rfl⟩, ⟨-, -, rfl⟩ | ⟨-, header, _, ⟨-, rfl⟩, _, _, ⟨rfl, rfl⟩,
      hread⟩⟩ := h
    · rfl
    · split at hread
      · rw [(returns_pure.mp hread).2]
      · rw [(returns_pure.mp hread).2]

end

/-- Everything a call that returns can do to the storage. -/
inductive Effect (host : Host) (pre : Storage) : Call → Storage → Prop
  | initialise {c : HostString} {clientState consensusState : Bytes} {height : UInt64}
      {cs : TendermintClientState} {cons : TendermintConsensusState}
      (hdecoded : host.clientState clientState = .decoded cs) :
      Effect host pre (.initialise c clientState consensusState height)
        ((pre.setClient c cs).setConsensus c height cons)
  | update {c : HostString} {message : Bytes} {cs : TendermintClientState}
      {header : TendermintHeader} (hclient : pre.client c = some cs)
      (hlive : cs.isFrozen = false)
      (hgreater : cs.latestHeight.revisionHeight < header.targetHeight.revisionHeight) :
      Effect host pre (.updateState c message)
        ((pre.setConsensus c header.targetHeight.revisionHeight
          ⟨header.timestampSecs, header.nextValidatorsHash, header.appHash⟩).setClient c
            { cs with latestHeight := header.targetHeight })
  | freeze {c : HostString} {message : Bytes} {cs : TendermintClientState}
      (hclient : pre.client c = some cs) :
      Effect host pre (.updateStateOnMisbehaviour c message)
        ((pre.setClient c
          { cs with isFrozen := true, frozenHeight := cs.latestHeight }).setFrozen c)
  | read {call : Call} : Effect host pre call pre

theorem Effect.of_returns {call : Call} {value : call.Result}
    (h : Returns (exec host call) pre value post) : Effect host pre call post := by
  cases call with
  | initialise c clientState consensusState height =>
      obtain ⟨cs, cons, hdecoded, rfl⟩ := returns_initialise h
      exact .initialise hdecoded
  | updateState c message =>
      obtain ⟨cs, header, hclient, hlive, -, hgreater, -, rfl⟩ := returns_updateState h
      exact .update hclient hlive hgreater
  | updateStateOnMisbehaviour c message =>
      unfold exec at h
      obtain ⟨cs, hclient, rfl⟩ := returns_updateStateOnMisbehaviour h
      exact .freeze hclient
  | checkForMisbehaviour c message =>
      unfold exec at h
      rw [h.post_eq]
      exact .read
  | verifyMembership c height proof path value =>
      unfold exec verifyMembership at h
      rw [h.post_eq]
      exact .read
  | verifyNonMembership c height proof path =>
      unfold exec verifyNonMembership at h
      rw [h.post_eq]
      exact .read
  | latestHeight c =>
      unfold exec latestHeight at h
      rw [h.post_eq]
      exact .read
  | clientState c =>
      unfold exec clientState at h
      rw [h.post_eq]
      exact .read
  | consensusState c height =>
      unfold exec consensusState at h
      rw [h.post_eq]
      exact .read
  | verifyClientMessage c message =>
      unfold exec verifyClientMessage at h
      rw [h.post_eq]
      exact .read
  | frozen c =>
      unfold exec frozen at h
      rw [h.post_eq]
      exact .read
  | getTimestampAtHeight c height =>
      unfold exec getTimestampAtHeight at h
      rw [h.post_eq]
      exact .read

end StellarIbc.Tendermint
