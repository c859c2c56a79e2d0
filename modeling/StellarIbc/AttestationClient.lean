import StellarIbc.SorobanClient

/-!
# The attestation light client

`light-clients/attestation/src/lib.rs`: a client trusts a fixed set of Ed25519 keys and
accepts what enough of them signed, a height with its timestamp for an update and a list
of paths and values for a proof.  The host's decoders and its signature check are
parameters; a failed signature check traps.
-/

namespace StellarIbc.Attestation

open Contract SorobanClient

inductive Error where
  | clientNotInitialised
  | clientFrozen
  | invalidClientState
  | invalidProof
  | signerIndexOutOfRange
  | duplicateSigner
  | quorumNotMet
  | attestationHeightMismatch
  | consensusStateMissing
deriving DecidableEq, Repr

structure AttestorClientState where
  attestorKeys : List (BytesN 32)
  minRequiredSigs : UInt32
  latestHeight : UInt64
  frozen : Bool
deriving DecidableEq

structure StateAttestation where
  height : UInt64
  timestamp : UInt64
deriving DecidableEq

structure PacketCompact where
  path : Bytes
  value : Bytes
deriving DecidableEq

structure PacketAttestation where
  height : UInt64
  packets : List PacketCompact
deriving DecidableEq

structure AttestationProof where
  attestationData : Bytes
  signatures : List (BytesN 64)
  signerIndices : List UInt32
deriving DecidableEq

/-! ### XDR of the structs -/

def AttestorClientState.toScVal (cs : AttestorClientState) : ScVal :=
  .struct [(ascii "attestor_keys", .vec (cs.attestorKeys.map fun key => .bytes key.val)),
    (ascii "frozen", .bool cs.frozen),
    (ascii "latest_height", .u64 cs.latestHeight),
    (ascii "min_required_sigs", .u32 cs.minRequiredSigs)]

def StateAttestation.toScVal (att : StateAttestation) : ScVal :=
  .struct [(ascii "height", .u64 att.height), (ascii "timestamp", .u64 att.timestamp)]

def PacketCompact.toScVal (pkt : PacketCompact) : ScVal :=
  .struct [(ascii "path", .bytes pkt.path), (ascii "value", .bytes pkt.value)]

def PacketAttestation.toScVal (att : PacketAttestation) : ScVal :=
  .struct [(ascii "height", .u64 att.height),
    (ascii "packets", .vec (att.packets.map PacketCompact.toScVal))]

def AttestationProof.toScVal (proof : AttestationProof) : ScVal :=
  .struct [(ascii "attestation_data", .bytes proof.attestationData),
    (ascii "signatures", .vec (proof.signatures.map fun signature => .bytes signature.val)),
    (ascii "signer_indices", .vec (proof.signerIndices.map .u32))]

/-- What the contract asks of its host. -/
structure Host where
  clientState : Bytes → Decoded AttestorClientState
  stateAttestation : Bytes → Decoded StateAttestation
  packetAttestation : Bytes → Decoded PacketAttestation
  attestationProof : Bytes → Decoded AttestationProof
  ed25519Verify : BytesN 32 → Bytes → BytesN 64 → Bool

/-- A consensus state is a timestamp. -/
abbrev Storage := Store AttestorClientState UInt64

abbrev AttestationM (α : Type) := Contract Error Storage α

variable (host : Host)

/-! ### Helpers -/

def loadClientState (clientId : HostString) : AttestationM AttestorClientState := do
  unwrapOr ((← get).client clientId) .clientNotInitialised

def decodeProof (bytes : Bytes) : AttestationM AttestationProof :=
  decodeOr (host.attestationProof bytes) .invalidProof

def decodeAttestation (bytes : Bytes) : AttestationM StateAttestation :=
  decodeOr (host.stateAttestation bytes) .invalidProof

def decodePacketAttestation (bytes : Bytes) : AttestationM PacketAttestation :=
  decodeOr (host.packetAttestation bytes) .invalidProof

/-- A value of another type counts as time 0; bytes that are no value still trap. -/
def decodeInitialTimestamp (bytes : Bytes) : AttestationM UInt64 :=
  match host.stateAttestation bytes with
  | .trapped => throw .trap
  | .mismatch => pure 0
  | .decoded att => pure att.timestamp

/-- The loop of `verify_quorum` over the signer indices and their positions. -/
def verifySigners (cs : AttestorClientState) (proof : AttestationProof) :
    List (UInt32 × Nat) → List Bool → AttestationM Unit
  | [], _ => pure ()
  | (idx, i) :: rest, seen => do
      panicIf (cs.attestorKeys.length ≤ idx.toNat) .signerIndexOutOfRange
      panicIf (seen.length ≤ idx.toNat ∨ seen[idx.toNat]? = some true) .duplicateSigner
      let pubkey ← orTrap cs.attestorKeys[idx.toNat]?
      let signature ← orTrap proof.signatures[i]?
      trapUnless (host.ed25519Verify pubkey proof.attestationData signature = true)
      verifySigners cs proof rest (seen.set idx.toNat true)

def verifyQuorum (cs : AttestorClientState) (proof : AttestationProof) :
    AttestationM Unit := do
  panicIf (proof.signatures.length ≠ proof.signerIndices.length) .invalidProof
  panicIf (proof.signatures.length < cs.minRequiredSigs.toNat) .quorumNotMet
  verifySigners host cs proof proof.signerIndices.zipIdx (List.replicate 64 false)

/-! ### Entrypoints -/

def initialise (clientId : HostString) (clientState consensusState : Bytes)
    (height : UInt64) : AttestationM Unit := do
  let cs ← decodeOr (host.clientState clientState) .invalidClientState
  let timestamp ← decodeInitialTimestamp host consensusState
  modify fun s => s.setClient clientId cs
  modify fun s => s.setConsensus clientId height timestamp

def latestHeight (clientId : HostString) : AttestationM UInt64 := do
  return (← loadClientState clientId).latestHeight

def clientState (clientId : HostString) : AttestationM Bytes := do
  return (← loadClientState clientId).toScVal.toXdr

def consensusState (clientId : HostString) (height : UInt64) : AttestationM Bytes := do
  let ts ← unwrapOr ((← get).consensus clientId height) .consensusStateMissing
  return (StateAttestation.toScVal ⟨height, ts⟩).toXdr

def verifyClientMessage (_clientId : HostString) (_clientMessage : Bytes) :
    AttestationM (Bytes × UInt64) :=
  return ([], 0)

def checkForMisbehaviour (clientId : HostString) (clientMessage : Bytes) :
    AttestationM Bool := do
  let cs ← loadClientState clientId
  if cs.frozen = true then
    return false
  else
    let proof ← decodeProof host clientMessage
    verifyQuorum host cs proof
    let att ← decodeAttestation host proof.attestationData
    match (← get).consensus clientId att.height with
    | some existing => return existing != att.timestamp
    | none => return false

def updateState (clientId : HostString) (clientMessage : Bytes) : AttestationM UInt64 := do
  let cs ← loadClientState clientId
  panicIf (cs.frozen = true) .clientFrozen
  let proof ← decodeProof host clientMessage
  verifyQuorum host cs proof
  let att ← decodeAttestation host proof.attestationData
  modify fun s => s.setConsensus clientId att.height att.timestamp
  if cs.latestHeight < att.height then
    modify fun s => s.setClient clientId { cs with latestHeight := att.height }
    return att.height
  else
    return att.height

def updateStateOnMisbehaviour (clientId : HostString) (_clientMessage : Bytes) :
    AttestationM Unit := do
  let cs ← loadClientState clientId
  modify fun s => s.setClient clientId { cs with frozen := true }
  modify fun s => s.setFrozen clientId

def frozen (clientId : HostString) : AttestationM Bool := do
  return ((← get).frozen clientId).getD false

def verifyMembership (clientId : HostString) (height : UInt64) (proof path value : Bytes) :
    AttestationM Bool := do
  let cs ← loadClientState clientId
  if (← get).consensus clientId height = none then
    return false
  else
    let p ← decodeProof host proof
    verifyQuorum host cs p
    let att ← decodePacketAttestation host p.attestationData
    if att.height ≠ height then
      return false
    else
      return att.packets.any fun pkt => pkt.path == path && pkt.value == value

def verifyNonMembership (clientId : HostString) (height : UInt64) (proof path : Bytes) :
    AttestationM Bool := do
  let cs ← loadClientState clientId
  if (← get).consensus clientId height = none then
    return false
  else
    let p ← decodeProof host proof
    verifyQuorum host cs p
    let att ← decodePacketAttestation host p.attestationData
    if att.height ≠ height then
      return false
    else
      return att.packets.any fun pkt => pkt.path == path && pkt.value == []

def getTimestampAtHeight (clientId : HostString) (height : UInt64) : AttestationM UInt64 := do
  return ((← get).consensus clientId height).getD 0

/-- The contract. -/
def exec : Machine Error AttestorClientState UInt64
  | .initialise clientId cs consensus height => initialise host clientId cs consensus height
  | .latestHeight clientId => latestHeight clientId
  | .clientState clientId => clientState clientId
  | .consensusState clientId height => consensusState clientId height
  | .verifyClientMessage clientId message => verifyClientMessage clientId message
  | .checkForMisbehaviour clientId message => checkForMisbehaviour host clientId message
  | .updateState clientId message => updateState host clientId message
  | .updateStateOnMisbehaviour clientId message =>
      updateStateOnMisbehaviour clientId message
  | .frozen clientId => frozen clientId
  | .verifyMembership clientId height proof path value =>
      verifyMembership host clientId height proof path value
  | .verifyNonMembership clientId height proof path =>
      verifyNonMembership host clientId height proof path
  | .getTimestampAtHeight clientId height => getTimestampAtHeight clientId height

/-! ### What the calls do -/

variable {host} {c : HostString} {height : UInt64} {pre post : Storage}

@[simp] theorem returns_loadClientState {cs : AttestorClientState} :
    Returns (loadClientState c) pre cs post ↔ pre.client c = some cs ∧ post = pre := by
  simp only [loadClientState, returns_bind, returns_get, returns_unwrapOr]
  constructor
  · rintro ⟨_, _, ⟨rfl, rfl⟩, hclient, rfl⟩
    exact ⟨hclient, rfl⟩
  · rintro ⟨hclient, rfl⟩
    exact ⟨_, _, ⟨rfl, rfl⟩, hclient, rfl⟩

theorem returns_decodeInitialTimestamp {bytes : Bytes} {timestamp : UInt64}
    (h : Returns (decodeInitialTimestamp host bytes) pre timestamp post) : post = pre := by
  unfold decodeInitialTimestamp at h
  cases hdecoded : host.stateAttestation bytes with
  | trapped => simp [hdecoded] at h
  | mismatch =>
      simp only [hdecoded, returns_pure] at h
      exact h.2
  | decoded att =>
      simp only [hdecoded, returns_pure] at h
      exact h.2

/-- The signatures of `proof` are those of the signers it names, each named once. -/
structure QuorumSigned (host : Host) (cs : AttestorClientState) (proof : AttestationProof) :
    Prop where
  lengths : proof.signatures.length = proof.signerIndices.length
  enough : cs.minRequiredSigs.toNat ≤ proof.signatures.length
  distinct : proof.signerIndices.Nodup
  signed : ∀ idx i, (idx, i) ∈ proof.signerIndices.zipIdx → ∃ pubkey signature,
    cs.attestorKeys[idx.toNat]? = some pubkey ∧ proof.signatures[i]? = some signature ∧
      host.ed25519Verify pubkey proof.attestationData signature = true

/-- The loop accepts signers that are new, known and signed. -/
theorem returns_verifySigners {cs : AttestorClientState} {proof : AttestationProof}
    {items : List (UInt32 × Nat)} {seen : List Bool} {result : Unit}
    (h : Returns (verifySigners host cs proof items seen) pre result post) :
    post = pre ∧ (items.map Prod.fst).Nodup ∧
      (∀ idx ∈ items.map Prod.fst, seen[idx.toNat]? = some false) ∧
      ∀ idx i, (idx, i) ∈ items → ∃ pubkey signature,
        cs.attestorKeys[idx.toNat]? = some pubkey ∧ proof.signatures[i]? = some signature ∧
          host.ed25519Verify pubkey proof.attestationData signature = true := by
  induction items generalizing seen with
  | nil =>
      simp only [verifySigners, returns_pure] at h
      exact ⟨h.2, by simp⟩
  | cons item items ih =>
      obtain ⟨idx, i⟩ := item
      simp only [verifySigners, returns_bind, returns_panicIf, returns_orTrap,
        returns_trapUnless, not_or, Nat.not_le] at h
      obtain ⟨_, _, ⟨-, rfl⟩, _, _, ⟨⟨hfits, hunseen⟩, rfl⟩, pubkey, _, ⟨hkey, rfl⟩, signature,
        _, ⟨hsignature, rfl⟩, _, _, ⟨hverified, rfl⟩, hrest⟩ := h
      obtain ⟨rfl, hnodup, hfresh, hsigned⟩ := ih hrest
      have hslot : seen[idx.toNat]? = some false := by
        obtain ⟨value, hvalue⟩ : ∃ value, seen[idx.toNat]? = some value :=
          ⟨_, List.getElem?_eq_getElem hfits⟩
        cases value with
        | false => exact hvalue
        | true => exact absurd hvalue hunseen
      -- a later signer is another one, since the slot of this one is taken by then
      have hother : ∀ later ∈ items.map Prod.fst, later.toNat ≠ idx.toNat := by
        intro later hlater hsame
        have hset := hfresh later hlater
        rw [hsame, List.getElem?_set_self hfits] at hset
        cases hset
      refine ⟨rfl, ?_, ?_, ?_⟩
      · rw [List.map_cons, List.nodup_cons]
        exact ⟨fun hmem => hother idx hmem rfl, hnodup⟩
      · rw [List.map_cons, List.forall_mem_cons]
        refine ⟨hslot, ?_⟩
        intro later hlater
        have hset := hfresh later hlater
        rwa [List.getElem?_set_ne (hother later hlater).symm] at hset
      · intro idx' i' hmem
        rcases List.mem_cons.mp hmem with heq | hmem
        · obtain ⟨rfl, rfl⟩ := Prod.mk.inj heq
          exact ⟨pubkey, signature, hkey, hsignature, hverified⟩
        · exact hsigned idx' i' hmem

theorem returns_verifyQuorum {cs : AttestorClientState} {proof : AttestationProof}
    {result : Unit} (h : Returns (verifyQuorum host cs proof) pre result post) :
    QuorumSigned host cs proof ∧ post = pre := by
  simp only [verifyQuorum, returns_bind, returns_panicIf, ne_eq, not_not, Nat.not_lt] at h
  obtain ⟨_, _, ⟨hlengths, rfl⟩, _, _, ⟨henough, rfl⟩, hloop⟩ := h
  obtain ⟨rfl, hnodup, -, hsigned⟩ := returns_verifySigners hloop
  rw [List.zipIdx_map_fst] at hnodup
  exact ⟨⟨hlengths, henough, hnodup, hsigned⟩, rfl⟩

theorem returns_initialise {clientState consensusState : Bytes} {result : Unit}
    (h : Returns (initialise host c clientState consensusState height) pre result post) :
    ∃ cs timestamp, host.clientState clientState = .decoded cs ∧
      post = (pre.setClient c cs).setConsensus c height timestamp := by
  simp only [initialise, returns_bind, returns_decodeOr, returns_modify] at h
  obtain ⟨cs, _, ⟨hdecoded, rfl⟩, timestamp, _, htimestamp, _, _, rfl, rfl⟩ := h
  obtain rfl := returns_decodeInitialTimestamp htimestamp
  exact ⟨cs, timestamp, hdecoded, rfl⟩

/-- An update stores the signed timestamp and raises the latest height to the signed one
if that is greater. -/
theorem returns_updateState {message : Bytes} {result : UInt64}
    (h : Returns (updateState host c message) pre result post) :
    ∃ cs proof att, pre.client c = some cs ∧ cs.frozen = false ∧
      host.attestationProof message = .decoded proof ∧ QuorumSigned host cs proof ∧
      host.stateAttestation proof.attestationData = .decoded att ∧ result = att.height ∧
      ((cs.latestHeight < att.height ∧
        post = (pre.setConsensus c att.height att.timestamp).setClient c
          { cs with latestHeight := att.height }) ∨
      (¬ cs.latestHeight < att.height ∧
        post = pre.setConsensus c att.height att.timestamp)) := by
  simp only [updateState, decodeProof, decodeAttestation, returns_bind,
    returns_loadClientState, returns_panicIf, returns_decodeOr, returns_modify, returns_ite,
    returns_pure, Bool.not_eq_true] at h
  obtain ⟨cs, _, ⟨hclient, rfl⟩, _, _, ⟨hlive, rfl⟩, proof, _, ⟨hproof, rfl⟩, _, _, hquorum,
    att, _, ⟨hatt, rfl⟩, _, _, rfl, hbranch⟩ := h
  obtain ⟨hsigned, rfl⟩ := returns_verifyQuorum hquorum
  refine ⟨cs, proof, att, hclient, hlive, hproof, hsigned, hatt, ?_⟩
  rcases hbranch with ⟨hgreater, _, _, rfl, rfl, rfl⟩ | ⟨hnot, rfl, rfl⟩
  · exact ⟨rfl, .inl ⟨hgreater, rfl⟩⟩
  · exact ⟨rfl, .inr ⟨hnot, rfl⟩⟩

/-- No misbehaviour is found in a message of a live client whose height holds the same
timestamp or none. -/
theorem returns_checkForMisbehaviour_false {message : Bytes} {cs : AttestorClientState}
    {proof : AttestationProof} {att : StateAttestation} (hclient : pre.client c = some cs)
    (hlive : cs.frozen = false) (hproof : host.attestationProof message = .decoded proof)
    (hatt : host.stateAttestation proof.attestationData = .decoded att)
    (h : Returns (checkForMisbehaviour host c message) pre false post) {existing : UInt64}
    (hexisting : pre.consensus c att.height = some existing) : existing = att.timestamp := by
  simp only [checkForMisbehaviour, decodeProof, decodeAttestation, returns_bind,
    returns_loadClientState, returns_decodeOr, returns_ite, returns_pure, returns_get] at h
  obtain ⟨cs', _, ⟨hclient', rfl⟩, hbranch⟩ := h
  obtain rfl := Option.some.inj (hclient'.symm.trans hclient)
  rcases hbranch with ⟨hfrozen, -⟩ | ⟨-, proof', _, ⟨hproof', rfl⟩, _, _, hquorum, att', _,
    ⟨hatt', rfl⟩, _, _, ⟨rfl, rfl⟩, hread⟩
  · rw [hlive] at hfrozen
    cases hfrozen
  · obtain ⟨-, rfl⟩ := returns_verifyQuorum hquorum
    obtain rfl := Decoded.decoded.inj (hproof'.symm.trans hproof)
    obtain rfl := Decoded.decoded.inj (hatt'.symm.trans hatt)
    simp only [hexisting, returns_pure] at hread
    simpa using hread.1.symm

theorem returns_updateStateOnMisbehaviour {message : Bytes} {result : Unit}
    (h : Returns (updateStateOnMisbehaviour c message) pre result post) :
    ∃ cs, pre.client c = some cs ∧
      post = (pre.setClient c { cs with frozen := true }).setFrozen c := by
  simp only [updateStateOnMisbehaviour, returns_bind, returns_loadClientState,
    returns_modify] at h
  obtain ⟨cs, _, ⟨hclient, rfl⟩, _, _, rfl, rfl⟩ := h
  exact ⟨cs, hclient, rfl⟩

/-- A quorum of the client signed that `path` holds `value` at `height`, for which a
consensus state is stored. -/
structure Attested (host : Host) (s : Storage) (c : HostString) (height : UInt64)
    (proof path value : Bytes) : Prop where
  stored : s.consensus c height ≠ none
  signed : ∃ cs p att, s.client c = some cs ∧ host.attestationProof proof = .decoded p ∧
    QuorumSigned host cs p ∧ host.packetAttestation p.attestationData = .decoded att ∧
    att.height = height ∧ ⟨path, value⟩ ∈ att.packets

theorem mem_packets_of_any {packets : List PacketCompact} {path value : Bytes}
    (h : (packets.any fun pkt => pkt.path == path && pkt.value == value) = true) :
    ⟨path, value⟩ ∈ packets := by
  obtain ⟨pkt, hmem, hmatch⟩ := List.any_eq_true.mp h
  rw [Bool.and_eq_true, beq_iff_eq, beq_iff_eq] at hmatch
  obtain ⟨rfl, rfl⟩ := hmatch
  exact hmem

/-- A membership proof is accepted where the quorum signed it, frozen or not. -/
theorem returns_verifyMembership {proof path value : Bytes}
    (h : Returns (verifyMembership host c height proof path value) pre true post) :
    Attested host pre c height proof path value ∧ post = pre := by
  simp only [verifyMembership, decodeProof, decodePacketAttestation, returns_bind,
    returns_loadClientState, returns_get, returns_decodeOr, returns_ite, returns_pure,
    Bool.true_eq_false, false_and, and_false, false_or, ne_eq, not_not] at h
  obtain ⟨cs, _, ⟨hclient, rfl⟩, _, _, ⟨rfl, rfl⟩, hstored, p, _, ⟨hproof, rfl⟩, _, _, hquorum,
    att, _, ⟨hatt, rfl⟩, hheight, hany, rfl⟩ := h
  obtain ⟨hsigned, rfl⟩ := returns_verifyQuorum hquorum
  exact ⟨⟨hstored, cs, p, att, hclient, hproof, hsigned, hatt, hheight,
    mem_packets_of_any hany.symm⟩, rfl⟩

/-- Absence is attested as an empty value. -/
theorem returns_verifyNonMembership {proof path : Bytes}
    (h : Returns (verifyNonMembership host c height proof path) pre true post) :
    Attested host pre c height proof path [] ∧ post = pre := by
  simp only [verifyNonMembership, decodeProof, decodePacketAttestation, returns_bind,
    returns_loadClientState, returns_get, returns_decodeOr, returns_ite, returns_pure,
    Bool.true_eq_false, false_and, and_false, false_or, ne_eq, not_not] at h
  obtain ⟨cs, _, ⟨hclient, rfl⟩, _, _, ⟨rfl, rfl⟩, hstored, p, _, ⟨hproof, rfl⟩, _, _, hquorum,
    att, _, ⟨hatt, rfl⟩, hheight, hany, rfl⟩ := h
  obtain ⟨hsigned, rfl⟩ := returns_verifyQuorum hquorum
  exact ⟨⟨hstored, cs, p, att, hclient, hproof, hsigned, hatt, hheight,
    mem_packets_of_any hany.symm⟩, rfl⟩

/-! ### Calls that only read -/

section

variable {υ : Type} {view : Storage → υ}

instance : Keeps view (loadClientState c) where
  keeps h := by rw [(returns_loadClientState.mp h).2]

instance {cs : AttestorClientState} {proof : AttestationProof} :
    Keeps view (verifyQuorum host cs proof) where
  keeps h := by rw [(returns_verifyQuorum h).2]

instance {bytes : Bytes} : Keeps view (decodeProof host bytes) := by
  unfold decodeProof
  infer_instance

instance {bytes : Bytes} : Keeps view (decodeAttestation host bytes) := by
  unfold decodeAttestation
  infer_instance

instance {bytes : Bytes} : Keeps view (decodePacketAttestation host bytes) := by
  unfold decodePacketAttestation
  infer_instance

instance {message : Bytes} : Keeps view (checkForMisbehaviour host c message) where
  keeps h := by
    simp only [checkForMisbehaviour, decodeProof, decodeAttestation, returns_bind,
      returns_loadClientState, returns_decodeOr, returns_ite, returns_pure, returns_get] at h
    obtain ⟨cs, _, ⟨-, rfl⟩, ⟨-, -, rfl⟩ | ⟨-, proof, _, ⟨-, rfl⟩, _, _, hquorum, att, _,
      ⟨-, rfl⟩, _, _, ⟨rfl, rfl⟩, hread⟩⟩ := h
    · rfl
    · obtain ⟨-, rfl⟩ := returns_verifyQuorum hquorum
      split at hread
      · rw [(returns_pure.mp hread).2]
      · rw [(returns_pure.mp hread).2]

instance {proof path value : Bytes} :
    Keeps view (verifyMembership host c height proof path value) := by
  unfold verifyMembership
  infer_instance

instance {proof path : Bytes} :
    Keeps view (verifyNonMembership host c height proof path) := by
  unfold verifyNonMembership
  infer_instance

end

/-- Everything a call that returns can do to the storage. -/
inductive Effect (host : Host) (pre : Storage) : Call → Storage → Prop
  | initialise {c : HostString} {clientState consensusState : Bytes} {height : UInt64}
      {cs : AttestorClientState} {timestamp : UInt64}
      (hdecoded : host.clientState clientState = .decoded cs) :
      Effect host pre (.initialise c clientState consensusState height)
        ((pre.setClient c cs).setConsensus c height timestamp)
  | update {c : HostString} {message : Bytes} {cs : AttestorClientState}
      {proof : AttestationProof} {att : StateAttestation} {post : Storage}
      (hclient : pre.client c = some cs) (hlive : cs.frozen = false)
      (hsigned : QuorumSigned host cs proof)
      (hpost : (cs.latestHeight < att.height ∧
          post = (pre.setConsensus c att.height att.timestamp).setClient c
            { cs with latestHeight := att.height }) ∨
        (¬ cs.latestHeight < att.height ∧
          post = pre.setConsensus c att.height att.timestamp)) :
      Effect host pre (.updateState c message) post
  | freeze {c : HostString} {message : Bytes} {cs : AttestorClientState}
      (hclient : pre.client c = some cs) :
      Effect host pre (.updateStateOnMisbehaviour c message)
        ((pre.setClient c { cs with frozen := true }).setFrozen c)
  | read {call : Call} : Effect host pre call pre

theorem Effect.of_returns {call : Call} {value : call.Result}
    (h : Returns (exec host call) pre value post) : Effect host pre call post := by
  cases call with
  | initialise c clientState consensusState height =>
      obtain ⟨cs, timestamp, hdecoded, rfl⟩ := returns_initialise h
      exact .initialise hdecoded
  | updateState c message =>
      obtain ⟨cs, proof, att, hclient, hlive, -, hsigned, -, -, hpost⟩ :=
        returns_updateState h
      exact .update hclient hlive hsigned hpost
  | updateStateOnMisbehaviour c message =>
      unfold exec at h
      obtain ⟨cs, hclient, rfl⟩ := returns_updateStateOnMisbehaviour h
      exact .freeze hclient
  | checkForMisbehaviour c message =>
      unfold exec at h
      rw [h.post_eq]
      exact .read
  | verifyMembership c height proof path value =>
      unfold exec at h
      rw [h.post_eq]
      exact .read
  | verifyNonMembership c height proof path =>
      unfold exec at h
      rw [h.post_eq]
      exact .read
  | latestHeight c =>
      unfold exec latestHeight at h
      rw [h.post_eq]
      exact .read
  | clientState c =>
      unfold exec clientState at h
      rw [h.post_eq]
      exact .read
  | consensusState c height =>
      unfold exec consensusState at h
      rw [h.post_eq]
      exact .read
  | verifyClientMessage c message =>
      unfold exec verifyClientMessage at h
      rw [h.post_eq]
      exact .read
  | frozen c =>
      unfold exec frozen at h
      rw [h.post_eq]
      exact .read
  | getTimestampAtHeight c height =>
      unfold exec getTimestampAtHeight at h
      rw [h.post_eq]
      exact .read

end StellarIbc.Attestation
