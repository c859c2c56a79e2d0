import StellarIbc.LightClientMerkle
import StellarIbc.LightClientStore

/-!
# The Stellar light client on Cosmos

`contracts/cosmwasm/light-client/src/entrypoint.rs` with the messages of `msg.rs`.  An
entry point reads the storage and the host's signature check, and either fails or
returns its data and the new storage.
-/

namespace StellarIbc.LightClient

open Protobuf

/-! ### Messages of the contract -/

structure InstantiateMsg where
  clientState : Bytes
  consensusState : Bytes
  checksum : Bytes

structure VerifyMembershipMsg where
  height : Height
  proof : Bytes
  merklePath : List Bytes
  value : Bytes

structure VerifyNonMembershipMsg where
  height : Height
  proof : Bytes
  merklePath : List Bytes

inductive SudoMsg where
  | updateState (clientMessage : Bytes)
  | updateStateOnMisbehaviour (clientMessage : Bytes)
  | checkForMisbehaviour (clientMessage : Bytes)
  | verifyMembership (msg : VerifyMembershipMsg)
  | verifyNonMembership (msg : VerifyNonMembershipMsg)

inductive QueryMsg where
  | clientState
  | consensusState (height : Height)
  | latestHeight
  | status
  | timestampAtHeight (height : Height)
  | verifyClientMessage (clientMessage : Bytes)
  | checkForMisbehaviour (clientMessage : Bytes)

inductive ClientStatus where
  | active
  | frozen
  | expired
deriving DecidableEq, Repr

/-- The data of a response, before it is written as JSON. -/
inductive SudoData where
  | updateState (heights : List Height)
  | checkForMisbehaviour (foundMisbehaviour : Bool)
  | empty
deriving DecidableEq, Repr

inductive QueryData where
  | bytes (bytes : Bytes)
  | latestHeight (height : Height)
  | status (status : ClientStatus)
  | timestampAtHeight (timestamp : UInt64)
  | checkForMisbehaviour (foundMisbehaviour : Bool)
  | empty
deriving DecidableEq, Repr

/-- `cosmwasm_std::Api` and the hash function: `ed25519Verify` of a message, a signature
and a public key is none when the host reports an error. -/
structure Api where
  ed25519Verify : Bytes → Bytes → Bytes → Option Bool
  sha256 : Bytes → Hash

structure Deps where
  storage : Storage
  api : Api

abbrev Result (α : Type) := Except ContractError α

/-! ### Helpers -/

def concatPath (path : List Bytes) : Bytes := path.flatten

def decodeHeader (bytes : Bytes) : Result StellarHeader :=
  orError (.invalidWire "header") (decode StellarHeader.merge bytes)

def requireClientState (deps : Deps) : Result ClientState :=
  orError .notInitialised deps.storage.clientState

def requireConsensusState (deps : Deps) (height : UInt64) : Result ConsensusState :=
  orError (.consensusStateMissing height) (deps.storage.consensusState height)

/-- A lower-case hexadecimal digit. -/
def hexDigit (n : Nat) : UInt8 := if n < 10 then UInt8.ofNat (48 + n) else UInt8.ofNat (87 + n)

def hexEncode (bytes : Bytes) : Bytes :=
  bytes.flatMap fun b => [hexDigit (b.toNat / 16), hexDigit (b.toNat % 16)]

/-- The guard that every proof and every update passes. -/
def requireNotFrozen (cs : ClientState) : Result Unit :=
  match cs.frozenHeight with
  | some h => .error (.frozen h.revisionHeight)
  | none => .ok ()

/-! ### SCP signatures -/

def ENVELOPE_TYPE_SCPVALUE : Bytes := [0, 0, 0, 4]

/-- What the loop over the envelopes has seen. -/
structure QuorumScan where
  matched : Nat
  lastRawOk : Bool
  lastHashOk : Bool
  lastStatementLen : Nat
deriving Inhabited

/-- An envelope of the right widths from a trusted validator. -/
def ScpEnvelope.trusted (cs : ClientState) (env : ScpEnvelope) : Prop :=
  env.nodeId.length = 32 ∧ env.signature.length = 64 ∧ env.nodeId ∈ cs.trustedValidators

instance (cs : ClientState) (env : ScpEnvelope) : Decidable (env.trusted cs) :=
  inferInstanceAs (Decidable (_ ∧ _))

/-- The bytes a validator signs. -/
def ScpEnvelope.preimage (cs : ClientState) (env : ScpEnvelope) : Bytes :=
  cs.networkId ++ ENVELOPE_TYPE_SCPVALUE ++ env.statementXdr

def Api.verifies (api : Api) (message : Bytes) (env : ScpEnvelope) : Bool :=
  (api.ed25519Verify message env.signature env.nodeId).getD false

/-- The loop of `verify_scp_quorum`: it returns at the first valid signature, over the
preimage or over its hash. -/
def scanEnvelopes (api : Api) (cs : ClientState) :
    QuorumScan → List ScpEnvelope → Except QuorumScan Unit
  | scan, [] => .error scan
  | scan, env :: envelopes =>
      if ¬ env.trusted cs then
        scanEnvelopes api cs scan envelopes
      else if env.statementXdr = [] then
        scanEnvelopes api cs { scan with matched := scan.matched + 1 } envelopes
      else
        let preimage := env.preimage cs
        let digest := api.sha256 preimage
        let rawOk := api.verifies preimage env
        let hashOk := api.verifies digest.val env
        if rawOk then .ok ()
        else if hashOk then .ok ()
        else
          scanEnvelopes api cs
            { matched := scan.matched + 1
              lastRawOk := rawOk
              lastHashOk := hashOk
              lastStatementLen := env.statementXdr.length }
            envelopes

def verifyScpQuorum (api : Api) (cs : ClientState) (envelopes : List ScpEnvelope) :
    Result Unit :=
  if cs.networkId = [] then
    .error .networkIdMissing
  else if cs.networkId.length ≠ 32 then
    .error (.scpSignatureError
      ("network_id must be 32 bytes, got " ++ toString cs.networkId.length))
  else
    match scanEnvelopes api cs default envelopes with
    | .ok () => .ok ()
    | .error scan =>
        .error (.quorumNotMet envelopes.length scan.matched scan.lastRawOk scan.lastHashOk
          ((envelopes.head?.map fun env => hexEncode env.nodeId).getD [])
          (hexEncode cs.networkId) scan.lastStatementLen)

/-! ### Updates -/

def verifyClientMessage (deps : Deps) (clientMessage : Bytes) : Result StellarHeader := do
  let cs ← requireClientState deps
  requireNotFrozen cs
  let header ← decodeHeader clientMessage
  let trusted ← orError (.invalidWire "header.trusted_height") header.trustedHeight
  let trustedHeight := trusted.revisionHeight
  if header.ledgerSeq ≤ trustedHeight then
    throw (.nonAdvancingHeight trustedHeight header.ledgerSeq)
  else
    let _ ← requireConsensusState deps trustedHeight
    verifyScpQuorum deps.api cs header.scpEnvelopes
    return header

/-- The consensus state a header carries. -/
def StellarHeader.consensusState (header : StellarHeader) : ConsensusState :=
  { timestamp := header.timestamp
    ledgerHash := header.ledgerHash
    root := header.ibcStateRoot }

def updateState (deps : Deps) (clientMessage : Bytes) : Result (List Height × Storage) := do
  let header ← verifyClientMessage deps clientMessage
  let cs ← requireClientState deps
  let newConsensus := header.consensusState
  match deps.storage.consensusState header.ledgerSeq with
  | some existing =>
      if existing ≠ newConsensus then
        throw (.consensusStateConflict header.ledgerSeq)
  | none => pure ()
  let storage := deps.storage.setConsensusState header.ledgerSeq newConsensus
  let latest := (cs.latestHeight.map Height.revisionHeight).getD 0
  let height : Height := { revisionNumber := 0, revisionHeight := header.ledgerSeq }
  let storage :=
    if latest < header.ledgerSeq then
      storage.setClientState { cs with latestHeight := some height }
    else
      storage
  return ([height], storage)

def updateStateOnMisbehaviour (deps : Deps) : Result Storage := do
  let cs ← requireClientState deps
  let latest := cs.latestHeight.getD default
  return deps.storage.setClientState { cs with frozenHeight := some latest }

def checkForMisbehaviour (deps : Deps) (clientMessage : Bytes) : Result Bool := do
  let cs ← requireClientState deps
  if cs.frozenHeight.isSome then
    return false
  let header ← decodeHeader clientMessage
  match deps.storage.consensusState header.ledgerSeq with
  | some existing => return decide (existing ≠ header.consensusState)
  | none => return false

/-! ### Proofs -/

/-- The root of the consensus state at `height`, of an unfrozen client. -/
def requireRoot (deps : Deps) (height : UInt64) : Result Hash := do
  let cs ← requireClientState deps
  requireNotFrozen cs
  let consensus ← requireConsensusState deps height
  orError .merkleVerificationFailed (toHash consensus.root)

def verifyMembership (deps : Deps) (msg : VerifyMembershipMsg) : Result Unit := do
  let sha256 := deps.api.sha256
  let root ← requireRoot deps msg.height.revisionHeight
  let key := concatPath msg.merklePath
  let (proofKey, proofValue, siblings) ← decodeMembershipProof msg.proof
  let keyMatch := decide (proofKey = key)
  let valueMatch := decide (proofValue = (sha256 msg.value).val)
  let computedRoot :=
    if siblings.length = TREE_DEPTH ∧ msg.value ≠ [] then
      let leaf := leafHash sha256 (sha256 key) (sha256 msg.value)
      some (foldSiblings sha256 (keyIndex sha256 key) leaf siblings)
    else
      none
  let rootMatch := computedRoot = some root
  if keyMatch ∧ valueMatch ∧ rootMatch then
    return ()
  else
    throw (.membershipMismatch keyMatch valueMatch siblings.length msg.height.revisionHeight
      (hexEncode key) (hexEncode proofKey) msg.value.length proofValue.length
      (hexEncode root.val) ((computedRoot.map fun r => hexEncode r.val).getD []))

def verifyNonMembership (deps : Deps) (msg : VerifyNonMembershipMsg) : Result Unit := do
  let root ← requireRoot deps msg.height.revisionHeight
  let key := concatPath msg.merklePath
  let (proofKey, siblings) ← decodeNonMembershipProof msg.proof
  if proofKey ≠ key then
    throw .merkleVerificationFailed
  else if verifyNonMembershipRaw deps.api.sha256 root key siblings = false then
    throw .merkleVerificationFailed
  else
    return ()

/-! ### Entry points -/

def instantiate (deps : Deps) (msg : InstantiateMsg) : Result Storage := do
  if deps.storage.clientState.isSome then
    throw .alreadyInitialised
  let clientState ← orError (.invalidWire "client_state") (decode ClientState.merge msg.clientState)
  let consensusState ←
    orError (.invalidWire "consensus_state") (decode ConsensusState.merge msg.consensusState)
  let height ← orError (.invalidWire "client_state.latest_height") clientState.latestHeight
  return ((deps.storage.setChecksum msg.checksum).setClientState clientState).setConsensusState
    height.revisionHeight consensusState

def runSudo (deps : Deps) : SudoMsg → Result (SudoData × Storage)
  | .updateState clientMessage => do
      let (heights, storage) ← updateState deps clientMessage
      return (.updateState heights, storage)
  | .updateStateOnMisbehaviour _ => do return (.empty, ← updateStateOnMisbehaviour deps)
  | .checkForMisbehaviour clientMessage => do
      return (.checkForMisbehaviour (← checkForMisbehaviour deps clientMessage), deps.storage)
  | .verifyMembership msg => do
      verifyMembership deps msg
      return (.empty, deps.storage)
  | .verifyNonMembership msg => do
      verifyNonMembership deps msg
      return (.empty, deps.storage)

def query (deps : Deps) : QueryMsg → Result QueryData
  | .clientState => do return .bytes (← requireClientState deps).encode
  | .consensusState height => do
      return .bytes (← requireConsensusState deps height.revisionHeight).encode
  | .latestHeight => do
      return .latestHeight ((← requireClientState deps).latestHeight.getD default)
  | .status => do
      let cs ← requireClientState deps
      return .status (if cs.frozenHeight.isSome then .frozen else .active)
  | .timestampAtHeight height => do
      return .timestampAtHeight (← requireConsensusState deps height.revisionHeight).timestamp
  | .verifyClientMessage clientMessage => do
      let _ ← verifyClientMessage deps clientMessage
      return .empty
  | .checkForMisbehaviour _ => return .checkForMisbehaviour false

/-! ### What acceptance means -/

theorem bind_ok_iff {α β : Type} {x : Result α} {f : α → Result β} {b : β} :
    x >>= f = .ok b ↔ ∃ a, x = .ok a ∧ f a = .ok b := by
  cases x with
  | error e => simp [bind, Except.bind]
  | ok a => simp [bind, Except.bind]

@[simp] theorem orError_eq_ok {α : Type} {error : ContractError} {value : Option α} {a : α} :
    orError error value = .ok a ↔ value = some a := by
  cases value <;> simp [orError]

theorem requireNotFrozen_eq_ok {cs : ClientState} :
    requireNotFrozen cs = .ok () ↔ cs.frozenHeight = none := by
  unfold requireNotFrozen
  cases cs.frozenHeight <;> simp

theorem ite_ok_iff {α : Type} {condition : Prop} [Decidable condition] {a b : α}
    {error : ContractError} :
    (if condition then pure a else throw error : Result α) = .ok b ↔ condition ∧ a = b := by
  by_cases h : condition
  · simp [h, pure, Except.pure]
  · simp [h, throw, throwThe, MonadExceptOf.throw]

/-- The root that a sequence of siblings gives for `key` from `leaf`. -/
def rootOf (sha256 : Bytes → Hash) (key : Bytes) (leaf : Hash) (siblings : List Hash) : Hash :=
  foldSiblings sha256 (keyIndex sha256 key) leaf siblings

theorem verifyNonMembershipRaw_iff {sha256 : Bytes → Hash} {root : Hash} {key : Bytes}
    {siblings : List Hash} :
    verifyNonMembershipRaw sha256 root key siblings = true ↔
      siblings.length = TREE_DEPTH ∧ rootOf sha256 key EMPTY siblings = root := by
  simp [verifyNonMembershipRaw, rootOf]

theorem verifyMembership_eq_ok {deps : Deps} {msg : VerifyMembershipMsg} :
    verifyMembership deps msg = .ok () ↔
      ∃ siblings, decodeMembershipProof msg.proof =
          .ok (concatPath msg.merklePath, (deps.api.sha256 msg.value).val, siblings) ∧
        siblings.length = TREE_DEPTH ∧ msg.value ≠ [] ∧
        requireRoot deps msg.height.revisionHeight =
          .ok (rootOf deps.api.sha256 (concatPath msg.merklePath)
            (leafHash deps.api.sha256 (deps.api.sha256 (concatPath msg.merklePath))
              (deps.api.sha256 msg.value)) siblings) := by
  unfold verifyMembership
  simp only [bind_ok_iff]
  constructor
  · rintro ⟨root, hroot, ⟨proofKey, proofValue, siblings⟩, hdecode, h⟩
    rw [ite_ok_iff] at h
    obtain ⟨⟨hkey, hvalue, hfold⟩, -⟩ := h
    obtain ⟨⟨hlength, hne⟩, hfold⟩ := Option.ite_none_right_eq_some.mp hfold
    rw [decide_eq_true_iff] at hkey hvalue
    rw [Option.some.injEq] at hfold
    subst hkey hvalue hfold
    exact ⟨siblings, hdecode, hlength, hne, hroot⟩
  · rintro ⟨siblings, hdecode, hlength, hvalue, hroot⟩
    refine ⟨_, hroot, _, hdecode, ?_⟩
    simp [hlength, hvalue, rootOf]
    rfl

theorem verifyNonMembership_eq_ok {deps : Deps} {msg : VerifyNonMembershipMsg} :
    verifyNonMembership deps msg = .ok () ↔
      ∃ siblings, decodeNonMembershipProof msg.proof = .ok (concatPath msg.merklePath, siblings) ∧
        siblings.length = TREE_DEPTH ∧
        requireRoot deps msg.height.revisionHeight =
          .ok (rootOf deps.api.sha256 (concatPath msg.merklePath) EMPTY siblings) := by
  unfold verifyNonMembership
  simp only [bind_ok_iff]
  constructor
  · rintro ⟨root, hroot, ⟨proofKey, siblings⟩, hdecode, h⟩
    by_cases hkey : proofKey = concatPath msg.merklePath
    · by_cases hraw : verifyNonMembershipRaw deps.api.sha256 root proofKey siblings = true
      · subst hkey
        rw [verifyNonMembershipRaw_iff] at hraw
        obtain ⟨hlength, rfl⟩ := hraw
        exact ⟨siblings, hdecode, hlength, hroot⟩
      · simp [← hkey, hraw, throw, throwThe, MonadExceptOf.throw] at h
    · simp [hkey, throw, throwThe, MonadExceptOf.throw] at h
  · rintro ⟨siblings, hdecode, hlength, hroot⟩
    refine ⟨_, hroot, _, hdecode, ?_⟩
    simp [hlength, rootOf, verifyNonMembershipRaw]
    rfl

end StellarIbc.LightClient
