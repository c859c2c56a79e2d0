import StellarIbc.RouterTypes

/-!
# Client registry and port router

The functions of `identifiers.rs`, `ics02_client.rs` and `port_router.rs`: which
light client serves a client type, which client ids were minted, who their
counterparties are, which clients are frozen and which app owns a port.
`RegistryStep` is the frame of the whole group: none of them touches the provable
paths or the send counters, and counterparties and ports are written once.
-/

namespace StellarIbc.Router

open Contract

variable {X : Type}

/-! ### Identifiers -/

def MIN_LEN : Nat := 4
def MAX_LEN : Nat := 128

def CHANNEL_PREFIX : Bytes := ascii "channel-"
def CLIENT_PREFIX : Bytes := ascii "client-"

def isAllowedChar (c : UInt8) : Bool :=
  (97 ≤ c && c ≤ 122) || (65 ≤ c && c ≤ 90) || (48 ≤ c && c ≤ 57) ||
    (ascii "._+-#[]<>").contains c

def validateCustomIdentifier (s : HostString) : RouterM X Unit := do
  panicIf (¬ (MIN_LEN ≤ s.length ∧ s.length ≤ MAX_LEN)) .invalidIdentifierLength
  panicIf (CHANNEL_PREFIX.isPrefixOf s || CLIENT_PREFIX.isPrefixOf s)
    .invalidIdentifierPrefix
  panicIf (¬ s.all isAllowedChar) .invalidIdentifierChar

def validateClientType (s : HostString) : RouterM X Unit := validateCustomIdentifier s
def validateCounterpartyClientId (s : HostString) : RouterM X Unit :=
  validateCustomIdentifier s
def validatePortId (s : HostString) : RouterM X Unit := validateCustomIdentifier s

@[simp] theorem returns_validateCustomIdentifier {s : HostString} {pre post : Ctx X}
    {result : Unit} :
    Returns (validateCustomIdentifier s) pre result post ↔
      (MIN_LEN ≤ s.length ∧ s.length ≤ MAX_LEN) ∧
        ¬ (CHANNEL_PREFIX.isPrefixOf s || CLIENT_PREFIX.isPrefixOf s) = true ∧
        s.all isAllowedChar = true ∧ post = pre := by
  simp only [validateCustomIdentifier, returns_bind, returns_panicIf, not_not]
  constructor
  · rintro ⟨_, _, ⟨hlen, rfl⟩, _, _, ⟨hreserved, rfl⟩, hchars, rfl⟩
    exact ⟨hlen, hreserved, hchars, rfl⟩
  · rintro ⟨hlen, hreserved, hchars, rfl⟩
    exact ⟨(), _, ⟨hlen, rfl⟩, (), _, ⟨hreserved, rfl⟩, hchars, rfl⟩

/-! ### Minting client ids -/

/-- The digit loop of `write_u32`, least significant digit first.  `slots` is what
is left of the ten-byte scratch array. -/
def tmpDigits : Nat → Nat → Option Bytes
  | _, 0 => some []
  | 0, _ + 1 => none
  | slots + 1, n + 1 => do
      let rest ← tmpDigits slots ((n + 1) / 10)
      return UInt8.ofNat (48 + (n + 1) % 10) :: rest

/-- `write_u32(&mut buf[..room], n)`: the bytes it writes, or none when it leaves
the buffer. -/
def writeU32 (room : Nat) (n : UInt32) : Option Bytes := do
  if n = 0 then
    if 0 < room then some [48] else none
  else
    let tmp ← tmpDigits 10 n.toNat
    if tmp.length ≤ room then some tmp.reverse else none

def mintClientId (clientType : HostString) : RouterM X HostString := do
  let n := ((← storage).nextClientId clientType).getD 0
  trapUnless (n.toNat + 1 < 2 ^ 32)
  setStorage fun s =>
    { s with nextClientId := Function.update s.nextClientId clientType (some (n + 1)) }
  -- the 64-byte buffer must hold the type, the dash and the digits
  trapUnless (clientType.length + 1 ≤ 64)
  let digits ← orTrap (writeU32 (64 - (clientType.length + 1)) n)
  return clientType ++ 45 :: digits

/-! ### Clients and counterparties -/

def registerClientType (env : Env X) (clientType : HostString) (lcAddress : Address) :
    RouterM X Unit := do
  let admin ← unwrapOr (← storage).admin .adminNotSet
  requireAuth env admin
  validateClientType clientType
  setStorage fun s =>
    { s with clientTypeAddr := Function.update s.clientTypeAddr clientType (some lcAddress) }

def lcAddress (clientType : HostString) : RouterM X (Option Address) := do
  return (← storage).clientTypeAddr clientType

def createClient (env : Env X) (clientType : HostString)
    (clientState consensusState : Bytes) (height : UInt64) : RouterM X HostString := do
  let lcAddr ← unwrapOr ((← storage).clientTypeAddr clientType) .unknownClientType
  let clientId ← mintClientId clientType
  invokeContract env lcAddr (.initialise clientId clientState consensusState height)
  setStorage fun s =>
    { s with clientType := Function.update s.clientType clientId (some clientType) }
  setStorage fun s =>
    { s with clientLcAddr := Function.update s.clientLcAddr clientId (some lcAddr) }
  return clientId

def registerCounterparty (clientId counterpartyClientId : HostString)
    (counterpartyCommitmentPrefix : List Bytes) : RouterM X Unit := do
  validateCounterpartyClientId counterpartyClientId
  panicIf ((← storage).clientType clientId = none) .clientIdNotFound
  panicIf ((← storage).counterparty clientId ≠ none) .counterpartyAlreadyRegistered
  setStorage fun s =>
    { s with
      counterparty := Function.update s.counterparty clientId
        (some ⟨counterpartyClientId, counterpartyCommitmentPrefix⟩) }

def counterparty (clientId : HostString) : RouterM X (Option Counterparty) := do
  return (← storage).counterparty clientId

def clientLcAddress (clientId : HostString) : RouterM X (Option Address) := do
  return (← storage).clientLcAddr clientId

def frozen (clientId : HostString) : RouterM X Bool := do
  return ((← storage).frozen clientId).getD false

def updateClient (env : Env X) (clientId : HostString) (clientMessage : Bytes) :
    RouterM X UInt64 := do
  panicIf (((← storage).frozen clientId).getD false = true) .clientFrozen
  let lcAddr ← unwrapOr ((← storage).clientLcAddr clientId) .clientIdNotFound
  let misbehaviour ← invokeContract env lcAddr (.checkForMisbehaviour clientId clientMessage)
  if misbehaviour = true then
    invokeContract env lcAddr (.updateStateOnMisbehaviour clientId clientMessage)
    setStorage fun s => { s with frozen := Function.update s.frozen clientId (some true) }
    return 0
  else
    invokeContract env lcAddr (.updateState clientId clientMessage)

/-! ### Ports -/

def registerPort (env : Env X) (portId : HostString) (appAddress : Address) :
    RouterM X Unit := do
  let admin ← unwrapOr (← storage).admin .adminNotSet
  requireAuth env admin
  validatePortId portId
  panicIf ((← storage).port portId ≠ none) .portAlreadyRegistered
  setStorage fun s => { s with port := Function.update s.port portId (some appAddress) }

def portApp (portId : HostString) : RouterM X (Option Address) := do
  return (← storage).port portId

/-! ### Frame -/

/-- What every function of this module keeps. -/
structure RegistryStep (s s' : Storage) : Prop where
  provable : s'.provable = s.provable
  nextSeqSend : s'.nextSeqSend = s.nextSeqSend
  counterparty : ∀ c cp, s.counterparty c = some cp → s'.counterparty c = some cp
  port : ∀ p app, s.port p = some app → s'.port p = some app

theorem RegistryStep.refl (s : Storage) : RegistryStep s s :=
  ⟨rfl, rfl, fun _ _ h => h, fun _ _ h => h⟩

variable {env : Env X} {pre post : Ctx X}

theorem returns_registerClientType {clientType : HostString} {address : Address}
    {result : Unit}
    (h : Returns (registerClientType env clientType address) pre result post) :
    RegistryStep pre.storage post.storage := by
  simp only [registerClientType, validateClientType, returns_bind, returns_storage,
    returns_unwrapOr, returns_requireAuth, returns_validateCustomIdentifier,
    returns_setStorage] at h
  obtain ⟨_, _, ⟨rfl, rfl⟩, _, _, ⟨-, rfl⟩, _, _, ⟨-, rfl⟩, _, _, ⟨-, -, -, rfl⟩, rfl⟩ := h
  exact ⟨rfl, rfl, fun _ _ h => h, fun _ _ h => h⟩

theorem returns_mintClientId {clientType clientId : HostString}
    (h : Returns (mintClientId clientType) pre clientId post) :
    RegistryStep pre.storage post.storage := by
  simp only [mintClientId, returns_bind, returns_storage, returns_trapUnless,
    returns_setStorage, returns_orTrap, returns_pure] at h
  obtain ⟨_, _, ⟨rfl, rfl⟩, _, _, ⟨-, rfl⟩, _, _, rfl, _, _, ⟨-, rfl⟩, _, _, ⟨-, rfl⟩, -,
    rfl⟩ := h
  exact ⟨rfl, rfl, fun _ _ h => h, fun _ _ h => h⟩

theorem returns_createClient {clientType clientId : HostString}
    {clientState consensusState : Bytes} {height : UInt64}
    (h : Returns (createClient env clientType clientState consensusState height) pre
      clientId post) :
    RegistryStep pre.storage post.storage := by
  simp only [createClient, returns_bind, returns_storage, returns_unwrapOr,
    returns_setStorage, returns_pure] at h
  obtain ⟨_, _, ⟨rfl, rfl⟩, _, _, ⟨-, rfl⟩, _, _, hmint, _, _, hcall, _, _, rfl, _, _, rfl, -,
    rfl⟩ := h
  obtain ⟨ext, -, rfl⟩ := returns_invokeContract.mp hcall
  have hstep := returns_mintClientId hmint
  exact ⟨hstep.provable, hstep.nextSeqSend, hstep.counterparty, hstep.port⟩

theorem returns_registerCounterparty {clientId counterpartyClientId : HostString}
    {chunks : List Bytes} {result : Unit}
    (h : Returns (registerCounterparty clientId counterpartyClientId chunks) pre result post) :
    RegistryStep pre.storage post.storage := by
  simp only [registerCounterparty, validateCounterpartyClientId, returns_bind,
    returns_storage, returns_validateCustomIdentifier, returns_panicIf, returns_setStorage,
    ne_eq, not_not] at h
  obtain ⟨_, _, ⟨-, -, -, rfl⟩, _, _, ⟨rfl, rfl⟩, _, _, ⟨-, rfl⟩, _, _, ⟨rfl, rfl⟩, _, _,
    ⟨hunset, rfl⟩, rfl⟩ := h
  refine ⟨rfl, rfl, ?_, fun _ _ h => h⟩
  intro c cp hcp
  -- a client that has a counterparty is not the one being registered
  have hne : c ≠ clientId := by
    rintro rfl
    rw [hunset] at hcp
    cases hcp
  simpa [Function.update_of_ne hne] using hcp

theorem returns_updateClient {clientId : HostString} {clientMessage : Bytes}
    {result : UInt64}
    (h : Returns (updateClient env clientId clientMessage) pre result post) :
    RegistryStep pre.storage post.storage := by
  simp only [updateClient, returns_bind, returns_storage, returns_panicIf,
    returns_unwrapOr, returns_ite, returns_setStorage, returns_pure] at h
  obtain ⟨_, _, ⟨rfl, rfl⟩, _, _, ⟨-, rfl⟩, _, _, ⟨rfl, rfl⟩, _, _, ⟨-, rfl⟩, _, _, hcheck,
    hbranch⟩ := h
  obtain ⟨ext, -, rfl⟩ := returns_invokeContract.mp hcheck
  rcases hbranch with ⟨-, _, _, hcall, _, _, rfl, -, rfl⟩ | ⟨-, hcall⟩
  · obtain ⟨ext', -, rfl⟩ := returns_invokeContract.mp hcall
    exact ⟨rfl, rfl, fun _ _ h => h, fun _ _ h => h⟩
  · obtain ⟨ext', -, rfl⟩ := returns_invokeContract.mp hcall
    exact RegistryStep.refl _

theorem returns_registerPort {portId : HostString} {appAddress : Address} {result : Unit}
    (h : Returns (registerPort env portId appAddress) pre result post) :
    RegistryStep pre.storage post.storage := by
  simp only [registerPort, validatePortId, returns_bind, returns_storage, returns_unwrapOr,
    returns_requireAuth, returns_validateCustomIdentifier, returns_panicIf,
    returns_setStorage, ne_eq, not_not] at h
  obtain ⟨_, _, ⟨rfl, rfl⟩, _, _, ⟨-, rfl⟩, _, _, ⟨-, rfl⟩, _, _, ⟨-, -, -, rfl⟩, _, _,
    ⟨rfl, rfl⟩, _, _, ⟨hunset, rfl⟩, rfl⟩ := h
  refine ⟨rfl, rfl, fun _ _ h => h, ?_⟩
  intro p app happ
  have hne : p ≠ portId := by
    rintro rfl
    rw [hunset] at happ
    cases happ
  simpa [Function.update_of_ne hne] using happ

end StellarIbc.Router
