import StellarIbc.AddressHex
import StellarIbc.ClientListing
import StellarIbc.GatewayQueries
import StellarIbc.Json
import StellarIbc.TendermintCodec

/-!
# Asking the gateway about a client

`client_state` and `consensus_state` of `crates/api/src/services/clients.rs` look up the
light client of a client in the router's entries, and an entry of the client in the light
client's.  The gateway takes the XDR out of the response, reads it as a state of `ibc-rs`
and answers with its protobuf message.  The transport between the two and the messages of
`ibc-rs` are parameters.
-/

namespace StellarIbc.Json

/-- `value.get(key)` on an object. -/
def Value.get (value : Value) (key : Bytes) : Option Value :=
  match value with
  | .object members => (members.find? fun field => decide (field.1 = key)).map Prod.snd
  | _ => none

def Value.asStr : Value → Option Bytes
  | .string text => some text
  | _ => none

def Value.asArray : Value → Option (List Value)
  | .array items => some items
  | _ => none

end StellarIbc.Json

namespace StellarIbc.Api

open StellarIbc.Core
open StellarIbc.Transfer (hexText)
open StellarIbc.Json (Value)

/-! ### The two handlers -/

inductive LookupStatus where
  | notFound
  | internalServerError
  | badGateway
deriving DecidableEq, Repr

/-- A status and the `error` of the body. -/
structure LookupError where
  status : LookupStatus
  error : Bytes
deriving DecidableEq

/-- `map_err(|e| err(status, format!("{text}{e}")))`. -/
def orLookup {α : Type} (status : LookupStatus) (text : Bytes) : Except Bytes α →
    Except LookupError α
  | .ok value => .ok value
  | .error e => .error ⟨status, text ++ e⟩

/-- `ok_or_else(|| err(status, text))`. -/
def orMissing {α : Type} (status : LookupStatus) (text : Bytes) : Option α →
    Except LookupError α
  | some value => .ok value
  | none => .error ⟨status, text⟩

/-- `ScVal::Address(ScAddress::Contract(ContractId(Hash(id))))`. -/
def contractVal (id : Hash) : ScVal := .other 18 (ScVal.uint32 1 ++ id.val)

def contractOf : ScVal → Option Hash
  | .other discriminant body =>
      if discriminant = 18 ∧ body.take 4 = ScVal.uint32 1 then Router.toHash (body.drop 4)
      else none
  | _ => none

def consensusDataKey (contract : Hash) (clientId : Bytes) (height : UInt64) : Anyhow Bytes := do
  let variantVal ← scvalSymbol (ascii "Consensus")
  let clientVal ← scvalString clientId
  let keyVal ← scvalVec [variantVal, clientVal, .u64 height]
  return persistentContractDataKey contract keyVal

/-- What both handlers do first: find the light client of the client. -/
def lcContract (state : AppState) (clientId : Bytes) : Except LookupError Hash := do
  if state.ibcContractId = [] then
    throw ⟨.badGateway, ascii "ROUTER_CONTRACT_ADDRESS not configured"⟩
  else
    let router ← orLookup .badGateway (ascii "invalid ROUTER_CONTRACT_ADDRESS: ")
      (state.contractFromString state.ibcContractId)
    let lcKey ← orLookup .internalServerError []
      (contractDataKey router (ascii "ClientLcAddr") clientId)
    let lcEntry ← orLookup .badGateway (ascii "get lc address: ") (state.getLedgerEntry lcKey)
    let lcEntry ← orMissing .notFound (ascii "client " ++ clientId ++ ascii " not found") lcEntry
    orMissing .internalServerError (ascii "ClientLcAddr entry is not a contract address")
      ((ledgerEntryContractVal state.xdr lcEntry).bind contractOf)

/-- And last: the XDR of an entry of the light client, in hexadecimal digits.  The texts say
`what` is looked up, and which one is `missing`. -/
def storedHex (state : AppState) (what missing key : Bytes) : Except LookupError Bytes := do
  let entry ← orLookup .badGateway (ascii "get " ++ what ++ ascii ": ")
    (state.getLedgerEntry key)
  let entry ← orMissing .notFound (missing ++ ascii " not found") entry
  let val ← orMissing .internalServerError (what ++ ascii " entry is not contract data")
    (ledgerEntryContractVal state.xdr entry)
  return hexText val.toXdr

def clientState (state : AppState) (clientId : Bytes) : Except LookupError Value := do
  let contract ← lcContract state clientId
  let csKey ← orLookup .internalServerError [] (contractDataKey contract (ascii "Client") clientId)
  let hex ← storedHex state (ascii "client state") (ascii "client state for " ++ clientId) csKey
  return .object [(ascii "client_id", .string clientId),
    (ascii "client_type", .string (clientTypeOf clientId)),
    (ascii "client_state_xdr", .string hex)]

def consensusState (state : AppState) (clientId : Bytes) (height : UInt64) :
    Except LookupError Value := do
  let contract ← lcContract state clientId
  let consKey ← orLookup .internalServerError [] (consensusDataKey contract clientId height)
  let hex ← storedHex state (ascii "consensus state")
    (ascii "consensus state for " ++ clientId ++ ascii " at height " ++ decimal height.toNat)
    consKey
  return .object [(ascii "client_id", .string clientId),
    (ascii "client_type", .string (clientTypeOf clientId)),
    (ascii "height", .number (decimal height.toNat)),
    (ascii "consensus_state_xdr", .string hex)]

/-- The body of `list_clients`. -/
def ClientGroup.toJson (group : ClientGroup) : Value :=
  .object [(ascii "client_type", .string group.clientType),
    (ascii "count", .number (decimal group.count.toNat)),
    (ascii "client_ids", .array (group.clientIds.map .string))]

def groupsJson (groups : List ClientGroup) : Value :=
  .object [(ascii "clients", .array (groups.map ClientGroup.toJson))]

/-! ### What the node answers -/

/-- The RPC node answers a question for an entry of a contract with what is stored. -/
def Answers (state : AppState) (contract : Hash) (key : ScVal) : Option ScVal → Prop
  | none => state.getLedgerEntry (persistentContractDataKey contract key) = .ok none
  | some val => ∃ entryXdr,
      state.getLedgerEntry (persistentContractDataKey contract key) = .ok (some entryXdr) ∧
        state.xdr.ledgerEntryDataFromXdr entryXdr =
          some (.contractData ⟨.contract contract, key, val⟩)

/-- The keys under which the light client keeps its entries. -/
def clientKey (clientId : HostString) : ScVal := .vec [.symbol (ascii "Client"), .string clientId]

def consensusKey (clientId : HostString) (height : UInt64) : ScVal :=
  .vec [.symbol (ascii "Consensus"), .string clientId, .u64 height]

@[simp] theorem contractOf_contractVal (id : Hash) : contractOf (contractVal id) = some id := by
  have htake : (ScVal.uint32 1 ++ id.val).take 4 = ScVal.uint32 1 :=
    List.take_left' (length_beBytes 4 1)
  have hdrop : (ScVal.uint32 1 ++ id.val).drop 4 = id.val :=
    List.drop_left' (length_beBytes 4 1)
  rw [contractVal, contractOf, if_pos ⟨rfl, htake⟩, hdrop]
  exact Router.toHash_eq_some.mpr rfl

theorem contractDataKey_eq (contract : Hash) {variant arg : Bytes} (hvariant : variant.length ≤ 32)
    (harg : arg.length < 2 ^ 32) :
    contractDataKey contract variant arg =
      .ok (persistentContractDataKey contract (.vec [.symbol variant, .string arg])) := by
  have hsymbol : scvalSymbol variant = .ok (.symbol variant) := if_pos hvariant
  have hvec : scvalVec [.symbol variant, .string arg] = .ok (.vec [.symbol variant, .string arg]) :=
    scvalVec_of_lt (by simp)
  rw [contractDataKey, hsymbol, scvalString_of_lt harg]
  simp only [bind, Except.bind, hvec]
  rfl

theorem consensusDataKey_eq (contract : Hash) {clientId : Bytes} (height : UInt64)
    (hlength : clientId.length < 2 ^ 32) :
    consensusDataKey contract clientId height =
      .ok (persistentContractDataKey contract (consensusKey clientId height)) := by
  have hsymbol : scvalSymbol (ascii "Consensus") = .ok (.symbol (ascii "Consensus")) :=
    if_pos (by decide)
  have hvec : scvalVec [.symbol (ascii "Consensus"), .string clientId, .u64 height] =
      .ok (consensusKey clientId height) :=
    scvalVec_of_lt (by simp)
  rw [consensusDataKey, hsymbol, scvalString_of_lt hlength]
  simp only [bind, Except.bind, hvec]
  rfl

variable {state : AppState} {router contract : Hash}

theorem lcContract_of_answers (hconfigured : state.ibcContractId ≠ [])
    (hparsed : state.contractFromString state.ibcContractId = .ok router) {clientId : HostString}
    (hlength : clientId.length < 2 ^ 32)
    (h : Answers state router (Mirror.DataKey.clientLcAddr clientId).ledgerKey
      (some (contractVal contract))) : lcContract state clientId = .ok contract := by
  obtain ⟨entryXdr, hentry, hdata⟩ := h
  have hkey := contractDataKey_eq router (by decide : (ascii "ClientLcAddr").length ≤ 32) hlength
  have hval : ledgerEntryContractVal state.xdr entryXdr = some (contractVal contract) := by
    rw [ledgerEntryContractVal, hdata]
  have hentry' : state.getLedgerEntry (persistentContractDataKey router
      (.vec [.symbol (ascii "ClientLcAddr"), .string clientId])) = .ok (some entryXdr) := hentry
  rw [lcContract, if_neg hconfigured, hparsed]
  simp [orLookup, orMissing, hkey, hentry', hval, bind, Except.bind]

theorem storedHex_of_answers {what missing : Bytes} {key val : ScVal}
    (h : Answers state contract key (some val)) :
    storedHex state what missing (persistentContractDataKey contract key) =
      .ok (hexText val.toXdr) := by
  obtain ⟨entryXdr, hentry, hdata⟩ := h
  have hval : ledgerEntryContractVal state.xdr entryXdr = some val := by
    rw [ledgerEntryContractVal, hdata]
  simp [storedHex, orLookup, orMissing, hentry, hval, bind, Except.bind, pure, Except.pure]

theorem storedHex_of_answers_none {what missing : Bytes} {key : ScVal}
    (h : Answers state contract key none) :
    storedHex state what missing (persistentContractDataKey contract key) =
      .error ⟨.notFound, missing ++ ascii " not found"⟩ := by
  have hentry : state.getLedgerEntry (persistentContractDataKey contract key) = .ok none := h
  simp [storedHex, orLookup, orMissing, hentry, bind, Except.bind]

/-- The service is configured with the router, and its node answers with what the router and
the tendermint light client `lcId` store. -/
structure ServesClients (state : AppState) (router lcId : Hash) (s : Router.Storage)
    (store : Tendermint.Storage) : Prop where
  configured : state.ibcContractId ≠ []
  parsed : state.contractFromString state.ibcContractId = .ok router
  lcAddr : ∀ c : HostString, c.length < 2 ^ 32 → s.clientLcAddr c = some (.contract lcId) →
    Answers state router (Mirror.DataKey.clientLcAddr c).ledgerKey (some (contractVal lcId))
  client : ∀ c : HostString, c.length < 2 ^ 32 →
    Answers state lcId (clientKey c)
      ((store.client c).map Tendermint.TendermintClientState.toScVal)
  consensus : ∀ (c : HostString) (height : UInt64), c.length < 2 ^ 32 →
    Answers state lcId (consensusKey c height)
      ((store.consensus c height).map Tendermint.TendermintConsensusState.toScVal)

variable {s : Router.Storage} {store : Tendermint.Storage} {c : HostString}

theorem ServesClients.lcContract (h : ServesClients state router contract s store)
    (hlength : c.length < 2 ^ 32) (hlc : s.clientLcAddr c = some (.contract contract)) :
    lcContract state c = .ok contract :=
  lcContract_of_answers h.configured h.parsed hlength (h.lcAddr c hlength hlc)

theorem ServesClients.clientState (h : ServesClients state router contract s store)
    (hlength : c.length < 2 ^ 32) (hlc : s.clientLcAddr c = some (.contract contract))
    {record : Tendermint.TendermintClientState} (hrecord : store.client c = some record) :
    clientState state c = .ok (.object [(ascii "client_id", .string c),
      (ascii "client_type", .string (clientTypeOf c)),
      (ascii "client_state_xdr", .string (hexText record.toScVal.toXdr))]) := by
  have hkey : contractDataKey contract (ascii "Client") c =
      .ok (persistentContractDataKey contract (clientKey c)) :=
    contractDataKey_eq contract (by decide) hlength
  have hanswers := h.client c hlength
  rw [hrecord] at hanswers
  rw [Api.clientState, h.lcContract hlength hlc]
  simp only [hkey, orLookup, storedHex_of_answers hanswers, bind, Except.bind]
  rfl

theorem ServesClients.consensusState (h : ServesClients state router contract s store)
    (hlength : c.length < 2 ^ 32) (hlc : s.clientLcAddr c = some (.contract contract))
    {height : UInt64} {record : Tendermint.TendermintConsensusState}
    (hrecord : store.consensus c height = some record) :
    consensusState state c height = .ok (.object [(ascii "client_id", .string c),
      (ascii "client_type", .string (clientTypeOf c)),
      (ascii "height", .number (decimal height.toNat)),
      (ascii "consensus_state_xdr", .string (hexText record.toScVal.toXdr))]) := by
  have hanswers := h.consensus c height hlength
  rw [hrecord] at hanswers
  rw [Api.consensusState, h.lcContract hlength hlc]
  simp only [consensusDataKey_eq contract height hlength, orLookup,
    storedHex_of_answers hanswers, bind, Except.bind]
  rfl

theorem ServesClients.consensusState_missing (h : ServesClients state router contract s store)
    (hlength : c.length < 2 ^ 32) (hlc : s.clientLcAddr c = some (.contract contract))
    {height : UInt64} (hmissing : store.consensus c height = none) :
    Api.consensusState state c height = .error ⟨.notFound, ascii "consensus state for " ++ c ++
      ascii " at height " ++ decimal height.toNat ++ ascii " not found"⟩ := by
  have hanswers := h.consensus c height hlength
  rw [hmissing] at hanswers
  rw [Api.consensusState, h.lcContract hlength hlc]
  simp only [consensusDataKey_eq contract height hlength, orLookup,
    storedHex_of_answers_none hanswers, bind, Except.bind]

end StellarIbc.Api

namespace StellarIbc.Core

open StellarIbc.Json (Value)

/-! ### The client of the service -/

/-- A response: whether its status is a success, the status as it is displayed, and the body,
if it could be read and parsed. -/
structure HttpResponse where
  success : Bool
  status : Bytes
  body : Except Bytes Value

/-- `ApiClient`: how a GET of a path goes, how JSON is displayed, and `hex::decode`. -/
structure ApiClient where
  send : Bytes → Except Bytes HttpResponse
  display : Value → Bytes
  hexDecode : Bytes → Except Bytes Bytes

namespace ApiClient

variable (api : ApiClient)

def getJson (path : Bytes) : Anyhow Value := do
  let resp ← withText (ascii "GET " ++ path ++ ascii " failed: ") (api.send path)
  let body ← withText (ascii "GET " ++ path ++ ascii " response parse failed: ") resp.body
  if resp.success = true then
    return body
  else
    throw (ascii "GET " ++ path ++ ascii " returned " ++ resp.status ++ ascii ": " ++
      api.display body)

/-- The XDR in a field of a body. -/
def getXdr (path field : Bytes) : Anyhow Bytes := do
  let body ← api.getJson path
  let hex ← okOrElse (ascii "missing '" ++ field ++ ascii "' in response")
    ((body.get field).bind Value.asStr)
  withText (field ++ ascii " hex decode: ") (api.hexDecode hex)

def statePath (clientId : Bytes) : Bytes :=
  ascii "/stellar/clients/" ++ clientId ++ ascii "/state"

def consensusPath (clientId : Bytes) (height : UInt64) : Bytes :=
  ascii "/stellar/clients/" ++ clientId ++ ascii "/consensus/" ++ decimal height.toNat

def getClientStateXdr (clientId : Bytes) : Anyhow Bytes :=
  api.getXdr (statePath clientId) (ascii "client_state_xdr")

def getConsensusStateXdr (clientId : Bytes) (height : UInt64) : Anyhow Bytes :=
  api.getXdr (consensusPath clientId height) (ascii "consensus_state_xdr")

/-- The strings of an array; other items are left out. -/
def strings (value : Option Value) : List Bytes :=
  ((value.bind Value.asArray).getD []).filterMap Value.asStr

def listClientIds : Anyhow (List Bytes) := do
  let body ← api.getJson (ascii "/stellar/clients")
  let groups := ((body.get (ascii "clients")).bind Value.asArray).getD []
  return groups.flatMap fun group => strings (group.get (ascii "client_ids"))

end ApiClient

/-! ### Protobuf messages -/

open Protobuf (Text Merge Record bytesRecord encodeRecords)

structure Any where
  typeUrl : Text
  value : Bytes
deriving Inhabited

def Any.records (any : Any) : List Record :=
  bytesRecord 1 any.typeUrl.val ++ bytesRecord 2 any.value

def Any.encode (any : Any) : Bytes := encodeRecords any.records

def Any.merge : Merge Any := fun _ any record =>
  match record.tag with
  | 1 => do return { any with typeUrl := ← record.value.string }
  | 2 => do return { any with value := ← record.value.bytes }
  | _ => some any

theorem Any.decode_encode {any : Any} (hsize : any.encode.length < 2 ^ 64) :
    Protobuf.decode Any.merge any.encode = some any := by
  have hplain : ∀ record ∈ any.records, record.Plain := by
    intro record hrecord
    rcases List.mem_append.mp hrecord with hrecord | hrecord
    · exact Protobuf.plain_bytesRecord (by norm_num) _ record hrecord
    · exact Protobuf.plain_bytesRecord (by norm_num) _ record hrecord
  rw [Protobuf.decode, Any.encode, Protobuf.mergeInto_encodeRecords hplain hsize]
  unfold Any.records
  refine Protobuf.foldlM_append_of_eq
    (Protobuf.foldlM_textRecord (fun text => { (default : Any) with typeUrl := text })
      (fun _ => by simp [Any.merge]) rfl rfl) ?_
  exact Protobuf.foldlM_bytesRecord (fun value => ⟨any.typeUrl, value⟩) (fun _ => rfl) rfl rfl

/-- The protobuf messages of the two states, as `ibc-rs` writes and reads them. -/
structure TmMessages (S : Type) where
  encodeClient : TmClientState S → Bytes
  decodeClient : Bytes → Except Bytes (TmClientState S)
  encodeConsensus : TmConsensusState → Bytes
  decodeConsensus : Bytes → Except Bytes TmConsensusState

/-- What was written is read back. -/
structure TmMessages.Lawful {S : Type} (messages : TmMessages S) (ibc : IbcRs S) : Prop where
  client : ∀ cs, ibc.clientValid cs → messages.decodeClient (messages.encodeClient cs) = .ok cs
  consensus : ∀ cons, ibc.consensusValid cons →
    messages.decodeConsensus (messages.encodeConsensus cons) = .ok cons

def TENDERMINT_CLIENT_STATE_TYPE_URL : Text :=
  ⟨ascii "/ibc.lightclients.tendermint.v1.ClientState", by decide⟩

def TENDERMINT_CONSENSUS_STATE_TYPE_URL : Text :=
  ⟨ascii "/ibc.lightclients.tendermint.v1.ConsensusState", by decide⟩

section

variable {S : Type} (messages : TmMessages S)

/-- `Any::from`. -/
def AnyClientState.toAny : AnyClientState S → Any
  | .tendermint cs => ⟨TENDERMINT_CLIENT_STATE_TYPE_URL, messages.encodeClient cs⟩

/-- `AnyClientState::try_from`. -/
def AnyClientState.ofAny (raw : Any) : Anyhow (AnyClientState S) :=
  if raw.typeUrl = TENDERMINT_CLIENT_STATE_TYPE_URL then do
    let cs ← withText (ascii "decode tendermint client state: ") (messages.decodeClient raw.value)
    return .tendermint cs
  else
    throw (ascii "unknown client state type_url: " ++ raw.typeUrl.val)

def AnyConsensusState.toAny : AnyConsensusState → Any
  | .tendermint cons => ⟨TENDERMINT_CONSENSUS_STATE_TYPE_URL, messages.encodeConsensus cons⟩

def AnyConsensusState.ofAny (raw : Any) : Anyhow AnyConsensusState :=
  if raw.typeUrl = TENDERMINT_CONSENSUS_STATE_TYPE_URL then do
    let cons ← withText (ascii "decode tendermint consensus state: ")
      (messages.decodeConsensus raw.value)
    return .tendermint cons
  else
    throw (ascii "unknown consensus state type_url: " ++ raw.typeUrl.val)

end

theorem Any.encode_lt {any : Any} (htype : any.typeUrl.val.length < 2 ^ 62)
    (hvalue : any.value.length < 2 ^ 63) : any.encode.length < 2 ^ 64 := by
  have hlength := Protobuf.length_encodeRecords_le any.records
  have htypeCost := Protobuf.cost_bytesRecord_le 1 any.typeUrl.val
  have hvalueCost := Protobuf.cost_bytesRecord_le 2 any.value
  rw [Any.records, Protobuf.cost_append] at hlength
  rw [Any.encode, Any.records]
  omega

variable {S : Type} {messages : TmMessages S} {ibc : IbcRs S}

/-- The relayer reads the message back. -/
theorem AnyClientState.ofAny_toAny (hmessages : messages.Lawful ibc) {cs : TmClientState S}
    (hvalid : ibc.clientValid cs) (hsize : (messages.encodeClient cs).length < 2 ^ 63) :
    ∃ any, Protobuf.decode Any.merge ((AnyClientState.tendermint cs).toAny messages).encode =
        some any ∧ AnyClientState.ofAny messages any = .ok (.tendermint cs) := by
  have htype : TENDERMINT_CLIENT_STATE_TYPE_URL.val.length < 2 ^ 62 := by decide
  refine ⟨_, Any.decode_encode (Any.encode_lt htype hsize), ?_⟩
  rw [AnyClientState.toAny, AnyClientState.ofAny, if_pos rfl, hmessages.client cs hvalid]
  rfl

theorem AnyConsensusState.ofAny_toAny (hmessages : messages.Lawful ibc) {cons : TmConsensusState}
    (hvalid : ibc.consensusValid cons)
    (hsize : (messages.encodeConsensus cons).length < 2 ^ 63) :
    ∃ any, Protobuf.decode Any.merge
        ((AnyConsensusState.tendermint cons).toAny messages).encode = some any ∧
      AnyConsensusState.ofAny messages any = .ok (.tendermint cons) := by
  have htype : TENDERMINT_CONSENSUS_STATE_TYPE_URL.val.length < 2 ^ 62 := by decide
  refine ⟨_, Any.decode_encode (Any.encode_lt htype hsize), ?_⟩
  rw [AnyConsensusState.toAny, AnyConsensusState.ofAny, if_pos rfl,
    hmessages.consensus cons hvalid]
  rfl

end StellarIbc.Core

namespace StellarIbc.Gateway

open StellarIbc.Core
open StellarIbc.Transfer (hexText)
open StellarIbc.Json (Value)

/-! ### The queries -/

inductive QueryCode where
  | notFound
  | internal
deriving DecidableEq, Repr

/-- `tonic::Status`. -/
structure QueryStatus where
  code : QueryCode
  message : Bytes
deriving DecidableEq

/-- `map_err(|error| Status::..(format!("{text}{error}")))`. -/
def orQuery {α : Type} (code : QueryCode) (text : Bytes) : Except Bytes α → Except QueryStatus α
  | .ok value => .ok value
  | .error error => .error ⟨code, text ++ error⟩

structure QueryClientStateRequest where
  clientId : Bytes
  height : UInt64

structure QueryClientStateResponse where
  clientState : Bytes
  proof : Bytes
  proofHeight : UInt64

structure IdentifiedClientState where
  clientId : Bytes
  clientState : Bytes

structure QueryConsensusStateRequest where
  clientId : Bytes
  revisionNumber : UInt64
  revisionHeight : UInt64

structure QueryConsensusStateResponse where
  consensusState : Bytes
  proof : Bytes
  proofHeight : UInt64

section

variable {S : Type} (api : ApiClient) (xdr : Xdr) (ibc : IbcRs S) (messages : TmMessages S)

def queryClientState (req : QueryClientStateRequest) :
    Except QueryStatus QueryClientStateResponse := do
  let bytes ← orQuery .internal (ascii "get client state: ") (api.getClientStateXdr req.clientId)
  let cs ← orQuery .internal (ascii "decode soroban client state: ")
    (AnyClientState.fromSorobanXdr xdr ibc bytes)
  return ⟨(cs.toAny messages).encode, [], req.height⟩

/-- One turn of the loop of `query_client_states`; a client that fails is skipped. -/
def identifiedState (clientId : Bytes) : Option IdentifiedClientState :=
  match api.getClientStateXdr clientId with
  | .error _ => none
  | .ok bytes =>
      match AnyClientState.fromSorobanXdr xdr ibc bytes with
      | .error _ => none
      | .ok cs => some ⟨clientId, (cs.toAny messages).encode⟩

def queryClientStates : Except QueryStatus (List IdentifiedClientState) := do
  let ids ← orQuery .internal (ascii "list clients: ") api.listClientIds
  return ids.filterMap (identifiedState api xdr ibc messages)

def queryConsensusState (req : QueryConsensusStateRequest) :
    Except QueryStatus QueryConsensusStateResponse := do
  let bytes ← orQuery .notFound (ascii "consensus state fetch failed: ")
    (api.getConsensusStateXdr req.clientId req.revisionHeight)
  let cs ← orQuery .internal (ascii "consensus state decode failed: ")
    (AnyConsensusState.fromSorobanXdr xdr ibc bytes)
  return ⟨(cs.toAny messages).encode, [], req.revisionHeight⟩

end

/-! ### The transport -/

/-- Letters, digits, `-` and `_` stand in the path of a URL as they are. -/
def urlByte (byte : UInt8) : Bool :=
  (0x30 ≤ byte && byte ≤ 0x39) || (0x41 ≤ byte && byte ≤ 0x5a) ||
    (0x61 ≤ byte && byte ≤ 0x7a) || byte == 0x2d || byte == 0x5f

def UrlSegment (s : Bytes) : Prop := s ≠ [] ∧ s.all urlByte = true

instance (s : Bytes) : Decidable (UrlSegment s) := instDecidableAnd

/-- A response with what the handler returned; an error comes with another status. -/
def Carries {ε : Type} (response : HttpResponse) : Except ε Value → Prop
  | .ok body => response.success = true ∧ response.body = .ok body
  | .error _ => response.success = false

/-- The service can be reached, and the hexadecimal digits it writes are read. -/
structure Delivers (api : ApiClient) (state : Api.AppState) : Prop where
  clientState : ∀ c, UrlSegment c → ∃ response,
    api.send (ApiClient.statePath c) = .ok response ∧ Carries response (Api.clientState state c)
  consensusState : ∀ c height, UrlSegment c → ∃ response,
    api.send (ApiClient.consensusPath c height) = .ok response ∧
      Carries response (Api.consensusState state c height)
  clients : ∃ response, api.send (ascii "/stellar/clients") = .ok response ∧
    Carries response ((Api.listClients state none).map Api.groupsJson)
  hex : ∀ bytes, api.hexDecode (hexText bytes) = .ok bytes

variable {api : ApiClient} {state : Api.AppState} {path : Bytes}

theorem getJson_of_carries {ε : Type} {result : Except ε Value} {body : Value}
    (hsend : ∃ response, api.send path = .ok response ∧ Carries response result)
    (hresult : result = .ok body) : api.getJson path = .ok body := by
  obtain ⟨response, hresponse, hcarries⟩ := hsend
  rw [hresult] at hcarries
  obtain ⟨hsuccess, hbody⟩ := hcarries
  simp [ApiClient.getJson, hresponse, hbody, hsuccess, bind, Except.bind, pure, Except.pure]

theorem getJson_of_error {ε : Type} {result : Except ε Value} {error : ε}
    (hsend : ∃ response, api.send path = .ok response ∧ Carries response result)
    (hresult : result = .error error) : ∃ text, api.getJson path = .error text := by
  obtain ⟨response, hresponse, hcarries⟩ := hsend
  rw [hresult] at hcarries
  have hfailed : response.success = false := hcarries
  cases hjson : api.getJson path with
  | error text => exact ⟨text, rfl⟩
  | ok body =>
      cases hbody : response.body with
      | error text =>
          simp [ApiClient.getJson, hresponse, hbody, withText, bind, Except.bind] at hjson
      | ok body =>
          simp [ApiClient.getJson, hresponse, hbody, hfailed, bind, Except.bind, throw,
            throwThe, MonadExceptOf.throw] at hjson

theorem getXdr_of_body (hhex : ∀ bytes, api.hexDecode (hexText bytes) = .ok bytes)
    {field bytes : Bytes} {body : Value} (hbody : api.getJson path = .ok body)
    (hfield : (body.get field).bind Value.asStr = some (hexText bytes)) :
    api.getXdr path field = .ok bytes := by
  rw [ApiClient.getXdr, hbody]
  simp only [bind, Except.bind, hfield, okOrElse_some, hhex, withText_ok]

theorem strings_array (texts : List Bytes) :
    ApiClient.strings (some (.array (texts.map .string))) = texts := by
  have hread : Value.asStr ∘ Value.string = some := rfl
  rw [ApiClient.strings, Option.bind_some, Value.asArray, Option.getD_some, List.filterMap_map,
    hread, List.filterMap_some]

/-- The ids of the groups, in their order. -/
theorem listClientIds_of_groups (hdelivers : Delivers api state) {groups : List Api.ClientGroup}
    (hgroups : Api.listClients state none = .ok groups) :
    api.listClientIds = .ok (groups.flatMap Api.ClientGroup.clientIds) := by
  have hbody : api.getJson (ascii "/stellar/clients") = .ok (Api.groupsJson groups) := by
    refine getJson_of_carries hdelivers.clients ?_
    rw [hgroups]
    rfl
  have hitems : ((Api.groupsJson groups).get (ascii "clients")).bind Value.asArray =
      some (groups.map Api.ClientGroup.toJson) := rfl
  have hids : ∀ group : Api.ClientGroup,
      ApiClient.strings (group.toJson.get (ascii "client_ids")) = group.clientIds := by
    intro group
    have hfield : group.toJson.get (ascii "client_ids") =
        some (.array (group.clientIds.map .string)) := by
      simp [Api.ClientGroup.toJson, Value.get, ascii]
    rw [hfield, strings_array]
  simp only [ApiClient.listClientIds, hbody, hitems, Option.getD_some, List.flatMap_map, hids,
    bind, Except.bind]
  rfl

section

variable {S : Type} {xdr : Xdr} {ibc : IbcRs S} {messages : TmMessages S} {router lcId : Hash}
variable {s : Router.Storage} {store : Tendermint.Storage} {c : HostString} {height : UInt64}

theorem getClientStateXdr_of_record (hdelivers : Delivers api state)
    (hserves : Api.ServesClients state router lcId s store) (hsegment : UrlSegment c)
    (hlength : c.length < 2 ^ 32) (hlc : s.clientLcAddr c = some (.contract lcId))
    {record : Tendermint.TendermintClientState} (hrecord : store.client c = some record) :
    api.getClientStateXdr c = .ok record.toScVal.toXdr :=
  getXdr_of_body hdelivers.hex (getJson_of_carries (hdelivers.clientState c hsegment)
    (hserves.clientState hlength hlc hrecord)) (by simp [Value.get, Value.asStr, ascii])

/-- What is stored of the client is what is answered, as far as `ibc-rs` admits it. -/
theorem queryClientState_of_record (hxdr : xdr.Lawful) (hdelivers : Delivers api state)
    (hserves : Api.ServesClients state router lcId s store) (hsegment : UrlSegment c)
    (hlength : c.length < 2 ^ 32) (hlc : s.clientLcAddr c = some (.contract lcId))
    {record : Tendermint.TendermintClientState} (hrecord : store.client c = some record)
    (hbounded : Bounded record) {cs : TmClientState S}
    (hread : ibc.clientFromRaw (rawOfRecord xdr ibc record) = .ok cs) :
    queryClientState api xdr ibc messages ⟨c, height⟩ =
      .ok ⟨((AnyClientState.tendermint cs).toAny messages).encode, [], height⟩ := by
  have hbytes := getClientStateXdr_of_record hdelivers hserves hsegment hlength hlc hrecord
  have hstate := @fromSorobanXdr_record S xdr ibc hxdr record hbounded
  rw [hread] at hstate
  simp only [queryClientState, hbytes, hstate, orQuery, withText_ok, Except.map, bind, Except.bind]
  rfl

theorem identifiedState_of_record (hxdr : xdr.Lawful) (hdelivers : Delivers api state)
    (hserves : Api.ServesClients state router lcId s store) (hsegment : UrlSegment c)
    (hlength : c.length < 2 ^ 32) (hlc : s.clientLcAddr c = some (.contract lcId))
    {record : Tendermint.TendermintClientState} (hrecord : store.client c = some record)
    (hbounded : Bounded record) {cs : TmClientState S}
    (hread : ibc.clientFromRaw (rawOfRecord xdr ibc record) = .ok cs) :
    identifiedState api xdr ibc messages c =
      some ⟨c, ((AnyClientState.tendermint cs).toAny messages).encode⟩ := by
  have hbytes := getClientStateXdr_of_record hdelivers hserves hsegment hlength hlc hrecord
  have hstate := @fromSorobanXdr_record S xdr ibc hxdr record hbounded
  rw [hread] at hstate
  simp only [identifiedState, hbytes, hstate, withText_ok, Except.map]

theorem identifiedState_clientId {item : IdentifiedClientState}
    (h : identifiedState api xdr ibc messages c = some item) : item.clientId = c := by
  unfold identifiedState at h
  cases hbytes : api.getClientStateXdr c with
  | error e =>
      rw [hbytes] at h
      cases h
  | ok bytes =>
      rw [hbytes] at h
      cases hstate : AnyClientState.fromSorobanXdr xdr ibc bytes with
      | error e =>
          simp only [hstate] at h
          cases h
      | ok cs =>
          simp only [hstate] at h
          cases h
          rfl

theorem queryConsensusState_of_record (hxdr : xdr.Lawful) (hdelivers : Delivers api state)
    (hserves : Api.ServesClients state router lcId s store) (hsegment : UrlSegment c)
    (hlength : c.length < 2 ^ 32) (hlc : s.clientLcAddr c = some (.contract lcId))
    {record : Tendermint.TendermintConsensusState}
    (hrecord : store.consensus c height = some record) {cons : TmConsensusState}
    (hread : ibc.consensusFromRaw
      { timestamp := some ⟨record.timestampSecs.toInt64, 0⟩
        root := some record.root.val
        nextValidatorsHash := record.nextValidatorsHash.val } = .ok cons)
    (revisionNumber : UInt64) :
    queryConsensusState api xdr ibc messages ⟨c, revisionNumber, height⟩ =
      .ok ⟨((AnyConsensusState.tendermint cons).toAny messages).encode, [], height⟩ := by
  have hbytes : api.getConsensusStateXdr c height = .ok record.toScVal.toXdr :=
    getXdr_of_body hdelivers.hex (getJson_of_carries (hdelivers.consensusState c height hsegment)
      (hserves.consensusState hlength hlc hrecord)) (by simp [Value.get, Value.asStr, ascii])
  have hstate := @fromSorobanXdr_consensus S xdr ibc hxdr record
  rw [hread] at hstate
  simp only [queryConsensusState, hbytes, hstate, orQuery, withText_ok, Except.map, bind,
    Except.bind]
  rfl

/-- Where nothing is stored, nothing is found. -/
theorem queryConsensusState_missing (hdelivers : Delivers api state)
    (hserves : Api.ServesClients state router lcId s store) (hsegment : UrlSegment c)
    (hlength : c.length < 2 ^ 32) (hlc : s.clientLcAddr c = some (.contract lcId))
    (hmissing : store.consensus c height = none) (revisionNumber : UInt64) :
    ∃ message, queryConsensusState api xdr ibc messages ⟨c, revisionNumber, height⟩ =
      .error ⟨.notFound, message⟩ := by
  obtain ⟨text, hfailed⟩ := getJson_of_error (hdelivers.consensusState c height hsegment)
    (hserves.consensusState_missing hlength hlc hmissing)
  refine ⟨ascii "consensus state fetch failed: " ++ text, ?_⟩
  simp only [queryConsensusState, ApiClient.getConsensusStateXdr, ApiClient.getXdr, hfailed,
    orQuery, bind, Except.bind]

end

end StellarIbc.Gateway
