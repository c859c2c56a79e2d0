import StellarIbc.ClientQueries
import StellarIbc.Decimal
import StellarIbc.XdrReader

/-!
# A node and a service

An RPC node that answers from the storages of the router and the tendermint light client,
and a client that calls the handlers of the service itself.  They have every property that
is asked of the node and of the transport.
-/

namespace StellarIbc.Api

open StellarIbc.Core
open ByteParser
open StellarIbc.Json (Value)

/-! ### The node -/

/-- The address of a contract as a value. -/
def readAddress : ByteParser ScVal := do
  let discriminant ← readUint32
  let kind ← readUint32
  let id ← take 32
  if discriminant = 18 ∧ kind = 1 then return .other 18 (ScVal.uint32 1 ++ id) else fail

def readStored (depth : Nat) : ByteParser ScVal := readScVal depth <|> readAddress

/-- An entry whose value may be an address. -/
def readEntry (depth : Nat) : ByteParser LedgerEntryData := do
  let entryType ← readUint32
  let ext ← readUint32
  let addressType ← readUint32
  let id ← take 32
  let contract ← ofOption (Router.toHash id)
  let key ← readScVal depth
  let _ ← readUint32
  let val ← readStored depth
  if entryType = 6 ∧ ext = 0 ∧ addressType = 1 then
    return .contractData ⟨.contract contract, key, val⟩
  else fail

/-- The key of a persistent entry. -/
def readKey (depth : Nat) : ByteParser (Hash × ScVal) := do
  let entryType ← readUint32
  let addressType ← readUint32
  let id ← take 32
  let contract ← ofOption (Router.toHash id)
  let key ← readScVal depth
  let durability ← readUint32
  if entryType = 6 ∧ addressType = 1 ∧ durability = 1 then return (contract, key) else fail

def addressVal : Address → Option ScVal
  | .contract id => some (contractVal id)
  | .account _ => none

/-- What is stored under a key of the router or of the light client. -/
def storedVal (router lcId : Hash) (s : Router.Storage) (store : Tendermint.Storage)
    (contract : Hash) : ScVal → Option ScVal
  | .vec [.symbol name, .string id] =>
      if contract = router ∧ name = ascii "NextClientId" then (s.nextClientId id).map .u32
      else if contract = router ∧ name = ascii "ClientLcAddr" then
        (s.clientLcAddr id).bind addressVal
      else if contract = lcId ∧ name = ascii "Client" then
        (store.client id).map Tendermint.TendermintClientState.toScVal
      else none
  | .vec [.symbol name, .string id, .u64 height] =>
      if contract = lcId ∧ name = ascii "Consensus" then
        (store.consensus id height).map Tendermint.TendermintConsensusState.toScVal
      else none
  | _ => none

def nodeXdr : Xdr :=
  { Xdr.reader with
    ledgerEntryDataFromXdr := fun bytes => ((readEntry bytes.length).run bytes).map Prod.fst }

/-- The service over a node that knows the two storages. -/
def nodeApp (lcId : Hash) (s : Router.Storage) (store : Tendermint.Storage) : AppState :=
  { mockApp with
    getLedgerEntry := fun keyXdr =>
      match (readKey keyXdr.length).run keyXdr with
      | some ((contract, key), _) =>
          .ok ((storedVal mockRouter lcId s store contract key).map
            (contractDataXdr contract key))
      | none => .error (ascii "xdr value invalid")
    xdr := nodeXdr }

/-- A value that the node can read. -/
def Readable (val : ScVal) : Prop := Fits val ∨ ∃ id, val = contractVal id

theorem parses_orElse {α : Type} {p q : ByteParser α} {bytes rest : Bytes} {value : α}
    (h : Parses p bytes value rest ∨ p.run bytes = none ∧ Parses q bytes value rest) :
    Parses (p <|> q) bytes value rest := by
  have hrun : (p <|> q).run bytes = (p.run bytes).orElse fun _ => q.run bytes := rfl
  unfold Parses at h ⊢
  rw [hrun]
  rcases h with h | ⟨hnone, h⟩
  · rw [h]
    rfl
  · rw [hnone]
    exact h

theorem readScVal_contractVal (depth : Nat) (id : Hash) :
    (readScVal depth).run (contractVal id).toXdr = none := by
  cases hread : (readScVal depth).run (contractVal id).toXdr with
  | none => rfl
  | some out =>
      obtain ⟨val, rest⟩ := out
      have hparses : Parses (readScVal depth) (contractVal id).toXdr val rest := hread
      cases depth with
      | zero => exact absurd hparses parses_fail
      | succ depth =>
          obtain ⟨discriminant, middle, hdiscriminant, hrest⟩ := parses_bind.mp hparses
          have hkind := parses_readUint32 (by decide : 18 < 2 ^ 32) (ScVal.uint32 1 ++ id.val)
          obtain ⟨rfl, rfl⟩ := hdiscriminant.deterministic hkind
          exact absurd hrest parses_fail

theorem parses_readStored {val : ScVal} (h : Readable val) {depth : Nat}
    (hdepth : val.toXdr.length ≤ depth) :
    Parses (readStored depth) val.toXdr val [] := by
  refine parses_orElse ?_
  rcases h with hfits | ⟨id, rfl⟩
  · have hparses := parses_readScVal hfits hdepth []
    rw [List.append_nil] at hparses
    exact .inl hparses
  · refine .inr ⟨readScVal_contractVal depth id, ?_⟩
    refine parses_bind.mpr ⟨18, _, parses_readUint32 (by decide) _, ?_⟩
    refine parses_bind.mpr ⟨1, _, parses_readUint32 (by decide) _, ?_⟩
    refine parses_bind.mpr ⟨id.val, [], parses_take.mpr ⟨id.property, (List.append_nil _).symm⟩, ?_⟩
    exact parses_pure.mpr ⟨rfl, rfl⟩

theorem parses_readEntry {contract : Hash} {key val : ScVal} (hkey : Fits key)
    (hval : Readable val) {depth : Nat} (hdepth : (contractDataXdr contract key val).length ≤ depth) :
    Parses (readEntry depth) (contractDataXdr contract key val)
      (.contractData ⟨.contract contract, key, val⟩) [] := by
  have hlength := hdepth
  simp only [contractDataXdr, List.length_append] at hlength
  have hcontract : Router.toHash contract.val = some contract := Router.toHash_eq_some.mpr rfl
  unfold readEntry contractDataXdr
  refine parses_bind.mpr ⟨6, _, parses_readUint32 (by decide) _, ?_⟩
  refine parses_bind.mpr ⟨0, _, parses_readUint32 (by decide) _, ?_⟩
  refine parses_bind.mpr ⟨1, _, parses_readUint32 (by decide) _, ?_⟩
  refine parses_bind.mpr ⟨contract.val, _, parses_take.mpr ⟨contract.property, rfl⟩, ?_⟩
  refine parses_bind.mpr ⟨contract, _, parses_ofOption.mpr ⟨hcontract, rfl⟩, ?_⟩
  refine parses_bind.mpr ⟨key, _, parses_readScVal hkey (by omega) _, ?_⟩
  refine parses_bind.mpr ⟨1, _, parses_readUint32 (by decide) _, ?_⟩
  refine parses_bind.mpr ⟨val, [], parses_readStored hval (by omega), ?_⟩
  rw [if_pos ⟨rfl, rfl, rfl⟩]
  exact parses_pure.mpr ⟨rfl, rfl⟩

theorem parses_readKey (contract : Hash) {key : ScVal} (hkey : Fits key) {depth : Nat}
    (hdepth : (persistentContractDataKey contract key).length ≤ depth) :
    Parses (readKey depth) (persistentContractDataKey contract key) (contract, key) [] := by
  have hlength := hdepth
  simp only [persistentContractDataKey, List.length_append] at hlength
  have hcontract : Router.toHash contract.val = some contract := Router.toHash_eq_some.mpr rfl
  have hend : Parses readUint32 (ScVal.uint32 1) 1 [] := by
    have hparses := parses_readUint32 (by decide : 1 < 2 ^ 32) []
    rwa [List.append_nil] at hparses
  unfold readKey persistentContractDataKey
  rw [List.append_assoc, List.append_assoc, List.append_assoc]
  refine parses_bind.mpr ⟨6, _, parses_readUint32 (by decide) _, ?_⟩
  refine parses_bind.mpr ⟨1, _, parses_readUint32 (by decide) _, ?_⟩
  refine parses_bind.mpr ⟨contract.val, _, parses_take.mpr ⟨contract.property, rfl⟩, ?_⟩
  refine parses_bind.mpr ⟨contract, _, parses_ofOption.mpr ⟨hcontract, rfl⟩, ?_⟩
  refine parses_bind.mpr ⟨key, _, parses_readScVal hkey (by omega) _, ?_⟩
  refine parses_bind.mpr ⟨1, [], hend, ?_⟩
  rw [if_pos ⟨rfl, rfl, rfl⟩]
  exact parses_pure.mpr ⟨rfl, rfl⟩

section

variable {lcId : Hash} {s : Router.Storage} {store : Tendermint.Storage}

/-- The node answers with what is stored. -/
theorem nodeApp_answers {contract : Hash} {key : ScVal} {found : Option ScVal} (hkey : Fits key)
    (hstored : storedVal mockRouter lcId s store contract key = found)
    (hreadable : ∀ val, found = some val → Readable val) :
    Answers (nodeApp lcId s store) contract key found := by
  have hread := parses_readKey contract hkey (Nat.le_refl _)
  unfold Parses at hread
  have hentry : (nodeApp lcId s store).getLedgerEntry (persistentContractDataKey contract key) =
      .ok (found.map (contractDataXdr contract key)) := by
    simp only [nodeApp, hread, hstored]
  cases found with
  | none => exact hentry
  | some val =>
      have hparses := parses_readEntry hkey (hreadable val rfl)
        (Nat.le_refl (contractDataXdr contract key val).length)
      unfold Parses at hparses
      refine ⟨_, hentry, ?_⟩
      simp only [nodeApp, nodeXdr, hparses, Option.map_some]

/-- The records of the light client have chain ids and proof specs within XDR's limits. -/
def AllBounded (store : Tendermint.Storage) : Prop :=
  ∀ c record, store.client c = some record → Bounded record

theorem fits_variantKey {variant id : Bytes} (hvariant : variant.length ≤ 32)
    (hid : id.length < 2 ^ 32) : Fits (.vec [.symbol variant, .string id]) := by
  refine .vec (by simp) ?_
  rw [List.forall_mem_cons, List.forall_mem_singleton]
  exact ⟨.symbol hvariant, .string hid⟩

theorem fits_consensusKey {c : HostString} {height : UInt64} (hlength : c.length < 2 ^ 32) :
    Fits (consensusKey c height) := by
  refine .vec (by simp) ?_
  rw [List.forall_mem_cons, List.forall_mem_cons, List.forall_mem_singleton]
  exact ⟨.symbol (by decide), .string hlength, .u64 height⟩

theorem storedVal_nextClientId (router : Hash) (clientType : HostString) :
    storedVal router lcId s store router (Mirror.DataKey.nextClientId clientType).ledgerKey =
      (s.nextClientId clientType).map .u32 :=
  if_pos ⟨rfl, rfl⟩

theorem storedVal_clientLcAddr (router : Hash) (c : HostString) :
    storedVal router lcId s store router (Mirror.DataKey.clientLcAddr c).ledgerKey =
      (s.clientLcAddr c).bind addressVal := by
  have hname : ascii "ClientLcAddr" ≠ ascii "NextClientId" := by decide
  simp only [storedVal, Mirror.DataKey.ledgerKey, hname, and_false, if_false, and_self, if_true]

theorem storedVal_client (router : Hash) (c : HostString) :
    storedVal router lcId s store lcId (clientKey c) =
      (store.client c).map Tendermint.TendermintClientState.toScVal := by
  have hcounter : ascii "Client" ≠ ascii "NextClientId" := by decide
  have hlc : ascii "Client" ≠ ascii "ClientLcAddr" := by decide
  simp only [storedVal, clientKey, hcounter, hlc, and_false, if_false, and_self, if_true]

theorem storedVal_consensus (router : Hash) (c : HostString) (height : UInt64) :
    storedVal router lcId s store lcId (consensusKey c height) =
      (store.consensus c height).map Tendermint.TendermintConsensusState.toScVal :=
  if_pos ⟨rfl, rfl⟩

theorem configured_nodeApp : (nodeApp lcId s store).ibcContractId ≠ [] := by
  have hid : (nodeApp lcId s store).ibcContractId = mockApp.ibcContractId := rfl
  rw [hid]
  decide

theorem parsed_nodeApp : (nodeApp lcId s store).contractFromString
    (nodeApp lcId s store).ibcContractId = .ok mockRouter := rfl

theorem nodeApp_serves (hbounded : AllBounded store) :
    ServesClients (nodeApp lcId s store) mockRouter lcId s store where
  configured := configured_nodeApp
  parsed := parsed_nodeApp
  lcAddr c hlength hlc := by
    have hkey : Fits (Mirror.DataKey.clientLcAddr c).ledgerKey :=
      fits_variantKey (by decide) hlength
    refine nodeApp_answers hkey ?_ ?_
    · rw [storedVal_clientLcAddr, hlc]
      rfl
    · intro val hval
      exact .inr ⟨lcId, (Option.some.inj hval).symm⟩
  client c hlength := by
    have hkey : Fits (clientKey c) := fits_variantKey (by decide) hlength
    refine nodeApp_answers hkey (storedVal_client mockRouter c) ?_
    intro val hval
    obtain ⟨record, hrecord, rfl⟩ := Option.map_eq_some_iff.mp hval
    exact .inl (fits_client (hbounded c record hrecord))
  consensus c height hlength := by
    refine nodeApp_answers (fits_consensusKey hlength) (storedVal_consensus mockRouter c height) ?_
    intro val hval
    obtain ⟨record, -, rfl⟩ := Option.map_eq_some_iff.mp hval
    exact .inl (fits_consensus record)

theorem nodeApp_counter {clientType : HostString} (hlength : clientType.length < 2 ^ 32) :
    Answers (nodeApp lcId s store) mockRouter
      (Mirror.DataKey.nextClientId clientType).ledgerKey
      ((s.nextClientId clientType).map .u32) := by
  refine nodeApp_answers (fits_ledgerKey hlength) (storedVal_nextClientId mockRouter _) ?_
  intro val hval
  obtain ⟨n, -, rfl⟩ := Option.map_eq_some_iff.mp hval
  exact .inl (.u32 n)

theorem nodeApp_servesCounters
    (hlength : ∀ clientType n, s.nextClientId clientType = some n → clientType.length < 2 ^ 32) :
    ServesCounters (nodeApp lcId s store) mockRouter s where
  configured := configured_nodeApp
  parsed := parsed_nodeApp
  unset clientType hshort hnone := by
    have hanswers := @nodeApp_counter lcId s store clientType hshort
    rw [hnone] at hanswers
    rw [counterKey]
    exact hanswers
  stored clientType n hn := by
    have hanswers := @nodeApp_counter lcId s store clientType (hlength clientType n hn)
    rw [hn] at hanswers
    rw [counterKey]
    exact hanswers

end

end StellarIbc.Api

namespace StellarIbc.Gateway

open StellarIbc.Core
open StellarIbc.Transfer (decodeHex decodeHex_hexText)
open StellarIbc.Json (Value)

/-! ### The service -/

def respond {ε : Type} (text : ε → Bytes) : Except ε Value → HttpResponse
  | .ok body => ⟨true, ascii "200 OK", .ok body⟩
  | .error e => ⟨false, ascii "400 Bad Request", .ok (.object [(ascii "error", .string (text e))])⟩

/-- The handlers of the paths of the client, which differ in their number of segments. -/
def serve (app : Api.AppState) (path : Bytes) : Except Bytes HttpResponse :=
  match path.splitOn 0x2f with
  | [_, _, _] => .ok (respond Api.ErrorResponse.error ((Api.listClients app none).map Api.groupsJson))
  | [_, _, _, c, _] => .ok (respond Api.LookupError.error (Api.clientState app c))
  | [_, _, _, c, _, height] =>
      .ok (respond Api.LookupError.error
        (Api.consensusState app c (UInt64.ofNat (readDecimal height))))
  | _ => .error (ascii "404 Not Found")

def localClient (app : Api.AppState) : ApiClient where
  send := serve app
  display _ := []
  hexDecode text :=
    match decodeHex text with
    | some bytes => .ok bytes
    | none => .error (ascii "Invalid character")

theorem carries_respond {ε : Type} (text : ε → Bytes) (result : Except ε Value) :
    Carries (respond text result) result := by
  cases result with
  | ok body => exact ⟨rfl, rfl⟩
  | error e => rfl

theorem UrlSegment.slash {c : Bytes} (h : UrlSegment c) : 0x2f ∉ c := by
  intro hmem
  have hbyte := List.all_eq_true.mp h.2 _ hmem
  exact absurd hbyte (by decide)

theorem splitOn_statePath {c : Bytes} (h : UrlSegment c) :
    (ApiClient.statePath c).splitOn 0x2f =
      [[], ascii "stellar", ascii "clients", c, ascii "state"] := by
  have hpath : ApiClient.statePath c =
      [(0x2f : UInt8)].intercalate [[], ascii "stellar", ascii "clients", c, ascii "state"] := by
    simp [ApiClient.statePath, ascii]
  rw [hpath]
  apply List.splitOn_intercalate
  · simp only [List.forall_mem_cons, List.not_mem_nil, false_imp_iff, implies_true, and_true]
    exact ⟨not_false, by decide, by decide, h.slash, by decide⟩
  · simp

theorem slash_not_mem_decimal (n : Nat) : 0x2f ∉ decimal n := by
  intro hmem
  have hdigit := (canonical_decimal n).digit _ hmem
  exact absurd hdigit.1 (by decide)

theorem splitOn_consensusPath {c : Bytes} (h : UrlSegment c) (height : UInt64) :
    (ApiClient.consensusPath c height).splitOn 0x2f =
      [[], ascii "stellar", ascii "clients", c, ascii "consensus", decimal height.toNat] := by
  have hpath : ApiClient.consensusPath c height = [(0x2f : UInt8)].intercalate
      [[], ascii "stellar", ascii "clients", c, ascii "consensus", decimal height.toNat] := by
    simp [ApiClient.consensusPath, ascii]
  rw [hpath]
  apply List.splitOn_intercalate
  · simp only [List.forall_mem_cons, List.not_mem_nil, false_imp_iff, implies_true, and_true]
    exact ⟨not_false, by decide, by decide, h.slash, by decide, slash_not_mem_decimal _⟩
  · simp

theorem localClient_delivers (app : Api.AppState) : Delivers (localClient app) app where
  clientState c hsegment := by
    refine ⟨respond Api.LookupError.error (Api.clientState app c), ?_, carries_respond _ _⟩
    simp only [localClient, serve, splitOn_statePath hsegment]
  consensusState c height hsegment := by
    refine ⟨respond Api.LookupError.error (Api.consensusState app c height), ?_,
      carries_respond _ _⟩
    simp only [localClient, serve, splitOn_consensusPath hsegment,
      (canonical_decimal height.toNat).value, UInt64.ofNat_toNat]
  clients := by
    refine ⟨respond Api.ErrorResponse.error ((Api.listClients app none).map Api.groupsJson), ?_,
      carries_respond _ _⟩
    have hsplit : (ascii "/stellar/clients").splitOn 0x2f =
        [[], ascii "stellar", ascii "clients"] := by decide
    simp only [localClient, serve, hsplit]
  hex bytes := by
    simp only [localClient, decodeHex_hexText]

end StellarIbc.Gateway
