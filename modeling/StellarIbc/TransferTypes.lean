import StellarIbc.RouterTypes
import StellarIbc.ScVal

/-!
# Data model of the `ibc-transfer` contract

The types and the storage of `ibc-transfer`, and the host an entrypoint runs in.  The
contract calls one other contract, the router, and only to send a packet; the state of
the rest of the chain has an abstract type `X`, which that call may change.
-/

namespace StellarIbc.Transfer

open Contract

def PORT : HostString := ascii "transfer"

def VERSION : HostString := ascii "ics20-1"

def ENCODING : HostString := ascii "application/json"

def SUCCESS_ACK_BYTE : UInt8 := 0x01

def SECS_PER_DAY : UInt64 := 86400

inductive Error where
  | routerNotSet
  | invalidPacketData
  | insufficientBalance
  | amountMustBePositive
  | callerIsNotRouter
  | unknownSourcePort
  | unknownDestPort
  | adminNotSet
  | dailyLimitExceeded
deriving DecidableEq, Repr

structure Token where
  denom : HostString
  amount : I128
deriving DecidableEq

structure FungibleTokenPacketData where
  token : Token
  sender : HostString
  receiver : HostString
  memo : HostString
deriving DecidableEq

def Token.toScVal (token : Token) : ScVal :=
  .struct [(ascii "amount", .i128 token.amount), (ascii "denom", .string token.denom)]

def FungibleTokenPacketData.toScVal (packet : FungibleTokenPacketData) : ScVal :=
  .struct [(ascii "memo", .string packet.memo), (ascii "receiver", .string packet.receiver),
    (ascii "sender", .string packet.sender), (ascii "token", packet.token.toScVal)]

/-- The host's conversions from and to XDR.  Bytes that are no XDR at all make the host
trap and a value of another shape makes the contract panic; both abort the call, and
`none` stands for either. -/
structure Codec where
  addressToXdr : Address → Bytes
  addressFromXdr : Bytes → Option Address
  packetFromXdr : Bytes → Option FungibleTokenPacketData

/-- `FungibleTokenPacketData::from_xdr` accepts nothing but the XDR of the struct. -/
def Codec.RejectsOthers (codec : Codec) : Prop :=
  ∀ bytes packet, codec.packetFromXdr bytes = some packet → bytes = packet.toScVal.toXdr

/-! ### Storage and host -/

structure Storage where
  router : Option Address
  admin : Option Address
  balance : Address → HostString → Option I128
  dailyCap : HostString → Option I128
  usage : HostString → UInt64 → Option I128

/-- The storage `__constructor` leaves. -/
def Storage.initial (router admin : Address) : Storage where
  router := some router
  admin := some admin
  balance _ _ := none
  dailyCap _ := none
  usage _ _ := none

namespace Storage

/-- `storage.get(&Balance(who, denom)).unwrap_or(0)`. -/
def balanceOf (s : Storage) (who : Address) (denom : HostString) : I128 :=
  (s.balance who denom).getD I128.zero

@[simps]
def setBalance (s : Storage) (who : Address) (denom : HostString) (amount : I128) : Storage :=
  { s with balance := fun who' denom' =>
      if who' = who ∧ denom' = denom then some amount else s.balance who' denom' }

@[simps]
def setDailyCap (s : Storage) (denom : HostString) (cap : I128) : Storage :=
  { s with dailyCap := Function.update s.dailyCap denom (some cap) }

@[simps]
def setUsage (s : Storage) (denom : HostString) (day : UInt64) (used : I128) : Storage :=
  { s with usage := fun denom' day' =>
      if denom' = denom ∧ day' = day then some used else s.usage denom' day' }

@[simp] theorem balanceOf_setBalance (s : Storage) (who who' : Address)
    (denom denom' : HostString) (amount : I128) :
    (s.setBalance who denom amount).balanceOf who' denom' =
      if who' = who ∧ denom' = denom then amount else s.balanceOf who' denom' := by
  by_cases h : who' = who ∧ denom' = denom
  · simp [balanceOf, h]
  · simp [balanceOf, h]

end Storage

/-- The host of one call: the contract's own address, the ledger timestamp, the
addresses that authorised the call, and the router it can reach. -/
structure Env (X : Type) where
  self : Address
  timestamp : UInt64
  authorized : Address → Bool
  sendPacket : Address → HostString → UInt64 → List Payload → X → Option (UInt64 × X)

structure Ctx (X : Type) where
  storage : Storage
  ext : X

abbrev TransferM (X α : Type) := Contract Error (Ctx X) α

variable {X : Type}

def storage : TransferM X Storage := do
  let ctx ← get
  return ctx.storage

def setStorage (update : Storage → Storage) : TransferM X Unit :=
  modify fun ctx => { ctx with storage := update ctx.storage }

/-- `address.require_auth()`. -/
def requireAuth (env : Env X) (address : Address) : TransferM X Unit :=
  trapUnless (env.authorized address = true)

/-- `env.invoke_contract(router, "send_packet", args)`. -/
def invokeSendPacket (env : Env X) (router : Address) (sourceClientId : HostString)
    (timeoutTimestamp : UInt64) (payloads : List Payload) : TransferM X UInt64 := do
  let ctx ← get
  let (sequence, ext) ←
    orTrap (env.sendPacket router sourceClientId timeoutTimestamp payloads ctx.ext)
  modify fun ctx => { ctx with ext := ext }
  return sequence

@[simp] theorem returns_storage {pre post : Ctx X} {result : Storage} :
    Returns storage pre result post ↔ result = pre.storage ∧ post = pre := by
  simp only [storage, returns_bind, returns_get, returns_pure]
  constructor
  · rintro ⟨_, _, ⟨rfl, rfl⟩, rfl, rfl⟩
    exact ⟨rfl, rfl⟩
  · rintro ⟨rfl, rfl⟩
    exact ⟨_, _, ⟨rfl, rfl⟩, rfl, rfl⟩

@[simp] theorem returns_setStorage {update : Storage → Storage} {pre post : Ctx X}
    {result : Unit} :
    Returns (setStorage update) pre result post ↔
      post = { pre with storage := update pre.storage } := by
  simp [setStorage]

@[simp] theorem returns_requireAuth {env : Env X} {address : Address} {pre post : Ctx X}
    {result : Unit} :
    Returns (requireAuth env address) pre result post ↔
      env.authorized address = true ∧ post = pre := by
  simp [requireAuth]

@[simp] theorem returns_invokeSendPacket {env : Env X} {router : Address}
    {client : HostString} {timeout : UInt64} {payloads : List Payload} {pre post : Ctx X}
    {sequence : UInt64} :
    Returns (invokeSendPacket env router client timeout payloads) pre sequence post ↔
      ∃ ext, env.sendPacket router client timeout payloads pre.ext = some (sequence, ext) ∧
        post = ⟨pre.storage, ext⟩ := by
  simp only [invokeSendPacket, returns_bind, returns_get, returns_orTrap, returns_modify,
    returns_pure]
  constructor
  · rintro ⟨_, _, ⟨rfl, rfl⟩, ⟨_, ext⟩, _, ⟨hsend, rfl⟩, _, _, rfl, rfl, rfl⟩
    exact ⟨ext, hsend, rfl⟩
  · rintro ⟨ext, hsend, rfl⟩
    exact ⟨_, _, ⟨rfl, rfl⟩, (sequence, ext), _, ⟨hsend, rfl⟩, (), _, rfl, rfl, rfl⟩

end StellarIbc.Transfer
