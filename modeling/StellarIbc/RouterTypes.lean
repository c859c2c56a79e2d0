import StellarIbc.Bytes
import StellarIbc.ContractMonad
import Mathlib.Logic.Function.Basic

/-!
# Data model of the `ibc-router` contract

The types of `types.rs`, `errors.rs` and `events.rs`, the storage behind
`DataKey` and the byte-keyed provable paths, and the host an entrypoint runs in.
A `DataKey` serialises to a vector that starts with the variant's symbol and a
provable path to a byte string, so distinct variants and the provable paths never
share a storage key: the storage is one map for each of them.

The contracts the router calls are arbitrary.  Their joint state has an abstract
type `X` and `Env.invoke` says how a call changes it; because the host forbids
re-entry, a callee cannot touch the router's own storage.
-/

namespace StellarIbc

/-- The host's `String`: any sequence of bytes. -/
abbrev HostString := Bytes

/-- `Address`: an account or a contract. -/
inductive Address where
  | account (key : BytesN 32)
  | contract (id : BytesN 32)
deriving DecidableEq

structure Counterparty where
  clientId : HostString
  commitmentPrefix : List Bytes
deriving DecidableEq

structure Payload where
  sourcePort : HostString
  destPort : HostString
  version : HostString
  encoding : HostString
  value : Bytes
deriving DecidableEq

structure Packet where
  sequence : UInt64
  sourceClient : HostString
  destClient : HostString
  timeoutTimestamp : UInt64
  payloads : List Payload
deriving DecidableEq

structure OnRecvPacketCallback where
  sourceClient : HostString
  destClient : HostString
  sequence : UInt64
  payload : Payload
deriving DecidableEq

structure OnAcknowledgementPacketCallback where
  sourceClient : HostString
  destClient : HostString
  sequence : UInt64
  payload : Payload
  acknowledgement : Bytes
deriving DecidableEq

structure OnTimeoutPacketCallback where
  sourceClient : HostString
  destClient : HostString
  sequence : UInt64
  payload : Payload
deriving DecidableEq

namespace Router

inductive Error where
  | adminNotSet
  | unknownClientType
  | clientIdNotFound
  | counterpartyAlreadyRegistered
  | clientFrozen
  | portAlreadyRegistered
  | invalidIdentifierLength
  | invalidIdentifierPrefix
  | invalidIdentifierChar
  | counterpartyNotRegistered
  | timeoutAlreadyElapsed
  | portNotRegistered
  | payloadsEmpty
  | receiptAlreadyExists
  | packetCounterpartyMismatch
  | membershipVerificationFailed
  | nonMembershipVerificationFailed
  | noCommitmentForSequence
  | commitmentMismatch
  | ackAlreadyExists
  | noReceiptForSequence
  | timeoutNotYetElapsed
deriving DecidableEq, Repr

inductive Event where
  | sendPacket (clientId : HostString) (sequence : UInt64) (packet : Packet)
  | recvPacket (clientId : HostString) (sequence : UInt64) (packet : Packet)
  | writeAck (clientId : HostString) (sequence : UInt64) (acknowledgements : List Bytes)
  | ackPacket (clientId : HostString) (sequence : UInt64) (packet : Packet)
      (acknowledgements : List Bytes)
  | timeoutPacket (clientId : HostString) (sequence : UInt64) (packet : Packet)
deriving DecidableEq

/-! ### Calls into other contracts -/

/-- Every call the router makes with `env.invoke_contract`, by symbol. -/
inductive Invocation where
  | initialise (clientId : HostString) (clientState consensusState : Bytes)
      (height : UInt64)
  | checkForMisbehaviour (clientId : HostString) (clientMessage : Bytes)
  | updateStateOnMisbehaviour (clientId : HostString) (clientMessage : Bytes)
  | updateState (clientId : HostString) (clientMessage : Bytes)
  | verifyMembership (clientId : HostString) (height : UInt64) (proof path value : Bytes)
  | verifyNonMembership (clientId : HostString) (height : UInt64) (proof path : Bytes)
  | getTimestampAtHeight (clientId : HostString) (height : UInt64)
  | onRecvPacket (callback : OnRecvPacketCallback)
  | onAcknowledgementPacket (callback : OnAcknowledgementPacketCallback)
  | onTimeoutPacket (callback : OnTimeoutPacketCallback)
deriving DecidableEq

abbrev Invocation.Result : Invocation → Type
  | .initialise .. => Unit
  | .checkForMisbehaviour .. => Bool
  | .updateStateOnMisbehaviour .. => Unit
  | .updateState .. => UInt64
  | .verifyMembership .. => Bool
  | .verifyNonMembership .. => Bool
  | .getTimestampAtHeight .. => UInt64
  | .onRecvPacket .. => Bytes
  | .onAcknowledgementPacket .. => Unit
  | .onTimeoutPacket .. => Unit

/-- What a call did besides writing storage: the strings it hashed, the contracts
it called and what they answered, and the events it published, in order. -/
inductive Effect where
  | hashed (data : Bytes)
  | invoked (callee : Address) (call : Invocation) (result : call.Result)
  | published (event : Event)

/-! ### Storage and host -/

structure Storage where
  admin : Option Address
  nextClientId : HostString → Option UInt32
  clientTypeAddr : HostString → Option Address
  clientType : HostString → Option HostString
  clientLcAddr : HostString → Option Address
  counterparty : HostString → Option Counterparty
  frozen : HostString → Option Bool
  port : HostString → Option Address
  nextSeqSend : HostString → Option UInt64
  provable : Bytes → Option Bytes

/-- The storage `__constructor` leaves. -/
def Storage.initial (admin : Address) : Storage where
  admin := some admin
  nextClientId _ := none
  clientTypeAddr _ := none
  clientType _ := none
  clientLcAddr _ := none
  counterparty _ := none
  frozen _ := none
  port _ := none
  nextSeqSend _ := none
  provable _ := none

/-- The host of one call: the ledger timestamp, the addresses that authorised the
call, and the contracts it can reach. -/
structure Env (X : Type) where
  timestamp : UInt64
  authorized : Address → Bool
  invoke : Address → (call : Invocation) → X → Option (call.Result × X)

structure Ctx (X : Type) where
  storage : Storage
  ext : X
  log : List Effect

abbrev RouterM (X α : Type) := Contract Error (Ctx X) α

variable {X : Type}

open Contract

def storage : RouterM X Storage := do
  let ctx ← get
  return ctx.storage

def setStorage (update : Storage → Storage) : RouterM X Unit :=
  modify fun ctx => { ctx with storage := update ctx.storage }

def emit (effect : Effect) : RouterM X Unit :=
  modify fun ctx => { ctx with log := ctx.log ++ [effect] }

/-- `event.publish(env)`. -/
def publish (event : Event) : RouterM X Unit := emit (.published event)

/-- `address.require_auth()`. -/
def requireAuth (env : Env X) (address : Address) : RouterM X Unit :=
  trapUnless (env.authorized address = true)

/-- `env.invoke_contract(callee, symbol, args)`: a failed callee aborts the call. -/
def invokeContract (env : Env X) (callee : Address) (call : Invocation) :
    RouterM X call.Result := do
  let ctx ← get
  let (result, ext) ← orTrap (env.invoke callee call ctx.ext)
  modify fun ctx => { ctx with ext := ext }
  emit (.invoked callee call result)
  return result

@[simp] theorem returns_storage {pre post : Ctx X} {result : Storage} :
    Returns storage pre result post ↔ result = pre.storage ∧ post = pre := by
  simp only [storage, returns_bind, returns_get, returns_pure]
  constructor
  · rintro ⟨_, _, ⟨rfl, rfl⟩, rfl, rfl⟩
    exact ⟨rfl, rfl⟩
  · rintro ⟨rfl, rfl⟩
    exact ⟨_, _, ⟨rfl, rfl⟩, rfl, rfl⟩

@[simp] theorem returns_setStorage {update : Storage → Storage} {pre post : Ctx X}
    {result : Unit} :
    Returns (setStorage update) pre result post ↔
      post = { pre with storage := update pre.storage } := by
  simp [setStorage]

@[simp] theorem returns_emit {effect : Effect} {pre post : Ctx X} {result : Unit} :
    Returns (emit effect) pre result post ↔
      post = { pre with log := pre.log ++ [effect] } := by
  simp [emit]

@[simp] theorem returns_publish {event : Event} {pre post : Ctx X} {result : Unit} :
    Returns (publish event) pre result post ↔
      post = { pre with log := pre.log ++ [.published event] } := by
  simp [publish]

@[simp] theorem returns_requireAuth {env : Env X} {address : Address} {pre post : Ctx X}
    {result : Unit} :
    Returns (requireAuth env address) pre result post ↔
      env.authorized address = true ∧ post = pre := by
  simp [requireAuth]

@[simp] theorem returns_invokeContract {env : Env X} {callee : Address}
    {call : Invocation} {pre post : Ctx X} {result : call.Result} :
    Returns (invokeContract env callee call) pre result post ↔
      ∃ ext, env.invoke callee call pre.ext = some (result, ext) ∧
        post = ⟨pre.storage, ext, pre.log ++ [.invoked callee call result]⟩ := by
  simp only [invokeContract, returns_bind, returns_get, returns_orTrap, returns_modify,
    returns_emit, returns_pure]
  constructor
  · rintro ⟨_, _, ⟨rfl, rfl⟩, ⟨_, ext⟩, _, ⟨hinvoke, rfl⟩, _, _, rfl, _, _, rfl, rfl, rfl⟩
    exact ⟨ext, hinvoke, rfl⟩
  · rintro ⟨ext, hinvoke, rfl⟩
    exact ⟨_, _, ⟨rfl, rfl⟩, (result, ext), _, ⟨hinvoke, rfl⟩, (), _, rfl, (), _, rfl,
      rfl, rfl⟩

end Router

end StellarIbc
