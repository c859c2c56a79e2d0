import StellarIbc.DecimalWriters
import StellarIbc.RouterIntegrity
import StellarIbc.StoreMirror
import StellarIbc.XdrReader

/-!
# Listing the clients

`crates/api/src/services/clients.rs`: the API lists the clients of a type from the counter
alone, writing the ids that the router minted, and takes the type off an id at its last
dash.  The router wrote the ids digit by digit.  Types may hold dashes and digits
themselves, and one may be the beginning of another.
-/

namespace StellarIbc.Api

open Contract StellarIbc.Core Router

/-! ### The service -/

/-- `DEFAULT_CLIENT_TYPES`. -/
def DEFAULT_CLIENT_TYPES : List Bytes :=
  [ascii "07-tendermint", ascii "mock", ascii "attestation", ascii "08-wasm"]

inductive StatusCode where
  | badGateway
  | internalServerError
deriving DecidableEq, Repr

/-- A status and the `error` of the body. -/
structure ErrorResponse where
  status : StatusCode
  error : Bytes
deriving DecidableEq

/-- One of the `clients` of the body. -/
structure ClientGroup where
  clientType : Bytes
  count : UInt32
  clientIds : List Bytes
deriving DecidableEq

/-- `AppState`, with what the service calls outside the repository: the RPC node and the
parser of contract addresses, each failing with a text, and the XDR crate. -/
structure AppState where
  ibcContractId : Bytes
  getLedgerEntry : Bytes → Except Bytes (Option Bytes)
  contractFromString : Bytes → Except Bytes Hash
  xdr : Xdr

/-- `map_err(|e| err(status, format!("{text}{e}")))`. -/
def orErr {α : Type} (status : StatusCode) (text : Bytes) : Except Bytes α →
    Except ErrorResponse α
  | .ok value => .ok value
  | .error e => .error ⟨status, text ++ e⟩

/-- `client_id.rfind('-')`. -/
def rfind (byte : UInt8) : Bytes → Option Nat
  | [] => none
  | first :: rest =>
      match rfind byte rest with
      | some i => some (i + 1)
      | none => if first = byte then some 0 else none

def clientTypeOf (clientId : Bytes) : Bytes :=
  match rfind 45 clientId with
  | some i => clientId.take i
  | none => clientId

def decodeCounter (xdr : Xdr) (entryXdr : Bytes) : Option UInt32 :=
  (ledgerEntryContractVal xdr entryXdr).bind scvalAsU32

def contractDataKey (contract : Hash) (variant arg : Bytes) : Anyhow Bytes := do
  let variantVal ← scvalSymbol variant
  let argVal ← scvalString arg
  let keyVal ← scvalVec [variantVal, argVal]
  return persistentContractDataKey contract keyVal

/-- `format!("{client_type}-{n}")`. -/
def formatId (clientType : Bytes) (n : Nat) : Bytes := clientType ++ 45 :: decimal n

def requestedTypes (clientType : Option Bytes) : List Bytes :=
  match clientType with
  | some t => [t]
  | none => DEFAULT_CLIENT_TYPES

/-- The body of the loop over the types. -/
def listType (state : AppState) (router : Hash) (clients : List ClientGroup)
    (clientType : Bytes) : Except ErrorResponse (List ClientGroup) := do
  let key ← orErr .internalServerError [] (contractDataKey router (ascii "NextClientId")
    clientType)
  let entry ← orErr .badGateway (ascii "get_ledger_entry(" ++ clientType ++ ascii "): ")
    (state.getLedgerEntry key)
  let count := (entry.bind (decodeCounter state.xdr)).getD 0
  if count = 0 then
    return clients
  else
    let clientIds := (List.range count.toNat).map (formatId clientType)
    return clients ++ [⟨clientType, count, clientIds⟩]

def listClients (state : AppState) (clientType : Option Bytes) :
    Except ErrorResponse (List ClientGroup) := do
  if state.ibcContractId = [] then
    throw ⟨.badGateway, ascii "ROUTER_CONTRACT_ADDRESS not configured"⟩
  else
    let router ← orErr .badGateway (ascii "invalid ROUTER_CONTRACT_ADDRESS: ")
      (state.contractFromString state.ibcContractId)
    (requestedTypes clientType).foldlM (listType state router) []

/-! ### The type of an id -/

theorem rfind_eq_none {byte : UInt8} {bytes : Bytes} (h : byte ∉ bytes) :
    rfind byte bytes = none := by
  induction bytes with
  | nil => rfl
  | cons first rest ih =>
      rw [List.mem_cons, not_or] at h
      rw [rfind, ih h.2, if_neg fun heq => h.1 heq.symm]

theorem rfind_append {byte : UInt8} {before after : Bytes} (hafter : byte ∉ after) :
    rfind byte (before ++ byte :: after) = some before.length := by
  induction before with
  | nil => rw [List.nil_append, rfind, rfind_eq_none hafter, if_pos rfl, List.length_nil]
  | cons first before ih => rw [List.cons_append, rfind, ih, List.length_cons]

theorem dash_not_mem_decimal (n : Nat) : (45 : UInt8) ∉ decimal n := by
  intro hmem
  have hdigit := (canonical_decimal n).digit 45 hmem
  exact absurd hdigit.1 (by decide)

theorem clientTypeOf_formatId (clientType : Bytes) (n : Nat) :
    clientTypeOf (formatId clientType n) = clientType := by
  rw [clientTypeOf, formatId, rfind_append (dash_not_mem_decimal n)]
  exact List.take_left

theorem formatId_injective {left right : Bytes} {n m : Nat}
    (h : formatId left n = formatId right m) : left = right ∧ n = m := by
  rcases append_dash_injective (dash_not_mem_decimal n) (dash_not_mem_decimal m) h with
    ⟨htype, hdigits⟩
  exact ⟨htype, decimal_injective hdigits⟩

theorem eq_formatId_of_minted {clientType id : HostString} {n : UInt32}
    (h : MintedId clientType n id) : id = formatId clientType n.toNat := by
  rcases h with ⟨digits, hwrite, hid⟩
  rw [hid, writeU32_eq_decimal hwrite, formatId]

/-- A type that an id was minted for leaves room for the dash and a digit. -/
theorem length_le_of_minted {clientType id : HostString} {n : UInt32}
    (h : MintedId clientType n id) : clientType.length ≤ 62 := by
  rcases h with ⟨digits, hwrite, -⟩
  have hroom := (length_writeU32 hwrite).2
  have hone : 1 ≤ decimalLength n := Nat.le_max_left ..
  omega

/-! ### What a history minted -/

variable {X : Type} {sha256 : Bytes → Hash} {pre post : State X}

/-- The type and the id of a `create_client` that returned. -/
def created : Act X → Option (HostString × HostString)
  | .tx ⟨_, .createClient clientType _ _ _, .returned clientId _⟩ => some (clientType, clientId)
  | _ => none

/-- Every id that `create_client` returned, in the order of the run. -/
def allMinted (history : List (Entry (State X) (Act X))) : List (HostString × HostString) :=
  history.filterMap fun entry => created entry.act

def mintedIds (clientType : HostString) (history : List (Entry (State X) (Act X))) :
    List HostString :=
  ((allMinted history).filter fun minted => minted.1 = clientType).map Prod.snd

/-- The number of the next id of the type. -/
def counter (s : Storage) (clientType : HostString) : UInt32 :=
  (s.nextClientId clientType).getD 0

/-- A step that created a client minted the next id of its type. -/
theorem minted_of_created {act : Act X} {clientType clientId : HostString}
    (hstep : Router.Step sha256 pre act post) (h : created act = some (clientType, clientId)) :
    MintedId clientType (counter pre.storage clientType) clientId ∧
      (counter pre.storage clientType).toNat + 1 < 2 ^ 32 ∧
      post.storage.nextClientId = Function.update pre.storage.nextClientId clientType
        (some (counter pre.storage clientType + 1)) := by
  cases act with
  | elsewhere => cases h
  | tx tx =>
      rcases tx with ⟨env, call, outcome⟩
      cases outcome with
      | aborted => cases call <;> cases h
      | returned value log =>
          cases call with
          | createClient clientType' clientState consensusState height =>
              cases h
              obtain ⟨n, lcAddr, -, rfl, hfits, hminted, -, htables⟩ :=
                returns_createClient_tables hstep
              exact ⟨hminted, hfits, congrArg ClientTables.nextClientId htables⟩
          | _ => cases h

/-- Every other step leaves the counters. -/
theorem nextClientId_of_not_created {act : Act X} (hstep : Router.Step sha256 pre act post)
    (h : created act = none) : post.storage.nextClientId = pre.storage.nextClientId := by
  cases act with
  | elsewhere =>
      have hsame : post.storage = pre.storage := hstep
      rw [hsame]
  | tx tx =>
      rcases tx with ⟨env, call, outcome⟩
      cases outcome with
      | aborted =>
          have hsame : post = pre := hstep.2
          rw [hsame]
      | returned value log =>
          by_cases hupdate : ∃ c message, call = .updateClient c message
          · obtain ⟨c, message, rfl⟩ := hupdate
            obtain ⟨-, htables | htables⟩ := returns_updateClient_tables hstep
            · exact congrArg ClientTables.nextClientId htables
            · exact congrArg ClientTables.nextClientId htables
          · have htables : post.storage.clients = pre.storage.clients := by
              apply hstep.returned.clients_eq
              · rintro clientType clientState consensusState height rfl
                cases h
              · rintro c message rfl
                exact hupdate ⟨_, _, rfl⟩
            exact congrArg ClientTables.nextClientId htables

/-- The counters say what was minted. -/
structure MintedInOrder (history : List (Entry (State X) (Act X))) (s : Storage) : Prop where
  inOrder : ∀ clientType, mintedIds clientType history =
    (List.range (counter s clientType).toNat).map (formatId clientType)
  stored : ∀ clientType n, s.nextClientId clientType = some n →
    n ≠ 0 ∧ clientType.length ≤ 62
  ofType : ∀ minted ∈ allMinted history, ∃ n < (counter s minted.1).toNat,
    minted.2 = formatId minted.1 n
  distinct : ((allMinted history).map Prod.snd).Nodup

theorem allMinted_append_singleton (history : List (Entry (State X) (Act X)))
    (entry : Entry (State X) (Act X)) :
    allMinted (history ++ [entry]) = allMinted history ++ (created entry.act).toList := by
  unfold allMinted
  rw [List.filterMap_append]
  cases hcreated : created entry.act with
  | none => simp [hcreated]
  | some minted => simp [hcreated]

theorem MintedInOrder.of_not_created {history : List (Entry (State X) (Act X))}
    {entry : Entry (State X) (Act X)} (h : MintedInOrder history entry.pre.storage)
    (hcreated : created entry.act = none)
    (hsame : entry.post.storage.nextClientId = entry.pre.storage.nextClientId) :
    MintedInOrder (history ++ [entry]) entry.post.storage := by
  have hall : allMinted (history ++ [entry]) = allMinted history := by
    rw [allMinted_append_singleton, hcreated, Option.toList_none, List.append_nil]
  have hcounter : counter entry.post.storage = counter entry.pre.storage := by
    unfold counter
    rw [hsame]
  refine ⟨?_, ?_, ?_, ?_⟩
  · intro clientType
    rw [mintedIds, hall, hcounter]
    exact h.inOrder clientType
  · rw [hsame]
    exact h.stored
  · rw [hall, hcounter]
    exact h.ofType
  · rw [hall]
    exact h.distinct

/-- The next id is new: one minted before has a smaller number or another type. -/
theorem MintedInOrder.fresh {history : List (Entry (State X) (Act X))} {s : Storage}
    (h : MintedInOrder history s) (clientType : HostString) :
    formatId clientType (counter s clientType).toNat ∉ (allMinted history).map Prod.snd := by
  intro hold
  obtain ⟨minted, hmem, hsame⟩ := List.mem_map.mp hold
  obtain ⟨n, hn, hformat⟩ := h.ofType minted hmem
  rcases formatId_injective (hformat.symm.trans hsame) with ⟨htype, hnumber⟩
  rw [htype, hnumber] at hn
  exact Nat.lt_irrefl _ hn

theorem MintedInOrder.of_created {history : List (Entry (State X) (Act X))}
    {entry : Entry (State X) (Act X)} (h : MintedInOrder history entry.pre.storage)
    {clientType clientId : HostString} (hcreated : created entry.act = some (clientType, clientId))
    (hminted : MintedId clientType (counter entry.pre.storage clientType) clientId)
    (hfits : (counter entry.pre.storage clientType).toNat + 1 < 2 ^ 32)
    (hnext : entry.post.storage.nextClientId = Function.update entry.pre.storage.nextClientId
      clientType (some (counter entry.pre.storage clientType + 1))) :
    MintedInOrder (history ++ [entry]) entry.post.storage := by
  have hid := eq_formatId_of_minted hminted
  have hall : allMinted (history ++ [entry]) =
      allMinted history ++ [(clientType, clientId)] := by
    rw [allMinted_append_singleton, hcreated, Option.toList_some]
  have hsucc : (counter entry.pre.storage clientType + 1).toNat =
      (counter entry.pre.storage clientType).toNat + 1 := by
    rw [UInt32.toNat_add]
    exact Nat.mod_eq_of_lt hfits
  have hself : (counter entry.post.storage clientType).toNat =
      (counter entry.pre.storage clientType).toNat + 1 := by
    rw [← hsucc, counter, hnext, Function.update_self]
    rfl
  have hother : ∀ {clientType'}, clientType' ≠ clientType →
      counter entry.post.storage clientType' = counter entry.pre.storage clientType' := by
    intro clientType' hne
    rw [counter, hnext, Function.update_of_ne hne]
    rfl
  refine ⟨?_, ?_, ?_, ?_⟩
  · intro clientType'
    rw [mintedIds, hall, List.filter_append, List.map_append]
    have hbefore := h.inOrder clientType'
    rw [mintedIds] at hbefore
    rw [hbefore]
    by_cases hsame : clientType' = clientType
    · subst hsame
      rw [hself, List.range_succ, List.map_append, hid]
      simp
    · have hne : ¬ clientType = clientType' := fun heq => hsame heq.symm
      rw [hother hsame]
      simp [hne]
  · intro clientType' n hstored
    rw [hnext] at hstored
    by_cases hsame : clientType' = clientType
    · subst hsame
      rw [Function.update_self, Option.some.injEq] at hstored
      refine ⟨?_, length_le_of_minted hminted⟩
      rintro rfl
      rw [hstored] at hsucc
      exact absurd hsucc.symm (Nat.succ_ne_zero _)
    · rw [Function.update_of_ne hsame] at hstored
      exact h.stored clientType' n hstored
  · intro minted hmem
    rw [hall, List.mem_append, List.mem_singleton] at hmem
    rcases hmem with hold | rfl
    · obtain ⟨n, hn, hformat⟩ := h.ofType minted hold
      refine ⟨n, ?_, hformat⟩
      by_cases hsame : minted.1 = clientType
      · rw [hsame, hself]
        rw [hsame] at hn
        exact Nat.lt_succ_of_lt hn
      · rw [hother hsame]
        exact hn
    · refine ⟨_, ?_, hid⟩
      rw [hself]
      exact Nat.lt_succ_self _
  · rw [hall, List.map_append, List.map_singleton, hid]
    apply List.Nodup.append h.distinct (List.nodup_singleton _)
    exact List.disjoint_singleton.mpr (h.fresh clientType)

theorem mintedInOrder_of_run {history : List (Entry (State X) (Act X))} {state : State X}
    (hrun : Router.Run sha256 history state) : MintedInOrder history state.storage := by
  refine hrun.invariant (fun history state => MintedInOrder history state.storage) ?_ ?_
  · rintro state ⟨admin, hstorage⟩
    rw [hstorage]
    refine ⟨fun _ => rfl, ?_, ?_, List.nodup_nil⟩
    · intro clientType n hstored
      cases hstored
    · intro minted hmem
      cases hmem
  · intro history entry hprev ih hstep
    cases hcreated : created entry.act with
    | none => exact ih.of_not_created hcreated (nextClientId_of_not_created hstep hcreated)
    | some minted =>
        obtain ⟨hminted, hfits, hnext⟩ := minted_of_created hstep hcreated
        exact ih.of_created hcreated hminted hfits hnext

/-! ### What is listed -/

/-- The key of the counter of a type, as `list_clients` asks for it. -/
def counterKey (router : Hash) (clientType : HostString) : Bytes :=
  persistentContractDataKey router (Mirror.DataKey.nextClientId clientType).ledgerKey

/-- The service is configured with the router, and the RPC node answers with what the router
stored: nothing for a counter that is not set, and for one that is, XDR of its entry. -/
structure ServesCounters (app : AppState) (router : Hash) (s : Storage) : Prop where
  configured : app.ibcContractId ≠ []
  parsed : app.contractFromString app.ibcContractId = .ok router
  unset : ∀ clientType, clientType.length < 2 ^ 32 → s.nextClientId clientType = none →
    app.getLedgerEntry (counterKey router clientType) = .ok none
  stored : ∀ clientType n, s.nextClientId clientType = some n → ∃ entryXdr,
    app.getLedgerEntry (counterKey router clientType) = .ok (some entryXdr) ∧
      app.xdr.ledgerEntryDataFromXdr entryXdr =
        some (Mirror.routerEntry router (Mirror.DataKey.nextClientId clientType).ledgerKey
          (.u32 n))

/-- The group of a type in the response; a type without clients has none. -/
def listed (s : Storage) (clientType : HostString) : List ClientGroup :=
  if counter s clientType = 0 then []
  else [⟨clientType, counter s clientType,
    (List.range (counter s clientType).toNat).map (formatId clientType)⟩]

theorem contractDataKey_nextClientId {clientType : HostString} (router : Hash)
    (hlength : clientType.length < 2 ^ 32) :
    contractDataKey router (ascii "NextClientId") clientType =
      .ok (counterKey router clientType) := by
  have hsymbol : scvalSymbol (ascii "NextClientId") = .ok (.symbol (ascii "NextClientId")) :=
    if_pos (by decide)
  have hvec : scvalVec [.symbol (ascii "NextClientId"), .string clientType] =
      .ok (.vec [.symbol (ascii "NextClientId"), .string clientType]) :=
    scvalVec_of_lt (by simp)
  rw [contractDataKey, hsymbol, scvalString_of_lt hlength]
  simp only [bind, Except.bind, hvec]
  rfl

variable {app : AppState} {router : Hash} {s : Storage}

theorem ServesCounters.listType (h : ServesCounters app router s) {clientType : HostString}
    (hlength : clientType.length < 2 ^ 32) (clients : List ClientGroup) :
    Api.listType app router clients clientType = .ok (clients ++ listed s clientType) := by
  rw [Api.listType, contractDataKey_nextClientId router hlength]
  cases hstored : s.nextClientId clientType with
  | none =>
      have hcounter : counter s clientType = 0 := by
        rw [counter, hstored]
        rfl
      simp [orErr, h.unset clientType hlength hstored, listed, hcounter, bind, Except.bind, pure,
        Except.pure]
  | some n =>
      obtain ⟨entryXdr, hentry, hdata⟩ := h.stored clientType n hstored
      have hcounter : counter s clientType = n := by
        rw [counter, hstored]
        rfl
      have hdecode : decodeCounter app.xdr entryXdr = some n := by
        rw [decodeCounter, ledgerEntryContractVal, hdata]
        rfl
      by_cases hzero : n = 0
      · simp [orErr, hentry, hdecode, listed, hcounter, hzero, bind, Except.bind, pure,
          Except.pure]
      · simp [orErr, hentry, hdecode, listed, hcounter, hzero, bind, Except.bind, pure,
          Except.pure]

/-- The response groups the requested types, in their order. -/
theorem ServesCounters.listClients (h : ServesCounters app router s) {query : Option Bytes}
    (hlength : ∀ clientType ∈ requestedTypes query, clientType.length < 2 ^ 32) :
    Api.listClients app query = .ok ((requestedTypes query).flatMap (listed s)) := by
  have hloop : ∀ (types : List Bytes) (clients : List ClientGroup),
      (∀ clientType ∈ types, clientType.length < 2 ^ 32) →
      types.foldlM (Api.listType app router) clients =
        .ok (clients ++ types.flatMap (listed s)) := by
    intro types
    induction types with
    | nil =>
        intro clients _
        simp [pure, Except.pure]
    | cons clientType types ih =>
        intro clients hshort
        rw [List.forall_mem_cons] at hshort
        rw [List.foldlM_cons, h.listType hshort.1, List.flatMap_cons, ← List.append_assoc]
        exact ih _ hshort.2
  rw [Api.listClients, if_neg h.configured, h.parsed]
  exact hloop _ [] hlength

/-- **Client ids are unique and recoverable.**  In every run the ids that `create_client`
returned are pairwise distinct, whatever their types, and the API reads the type off each
of them.  For a type with a stored counter it lists exactly the ids minted for the type, in
the order in which they were minted. -/
theorem clients_listed {history : List (Entry (State X) (Act X))} {state : State X}
    (hrun : Router.Run sha256 history state) :
    ((allMinted history).map Prod.snd).Nodup ∧
    (∀ minted ∈ allMinted history, clientTypeOf minted.2 = minted.1) ∧
    ∀ (app : AppState) (router : Hash), ServesCounters app router state.storage →
      ∀ clientType n, state.storage.nextClientId clientType = some n →
        listClients app (some clientType) =
          .ok [⟨clientType, n, mintedIds clientType history⟩] := by
  have hminted := mintedInOrder_of_run hrun
  refine ⟨hminted.distinct, ?_, ?_⟩
  · intro minted hmem
    obtain ⟨n, -, hformat⟩ := hminted.ofType minted hmem
    rw [hformat]
    exact clientTypeOf_formatId minted.1 n
  · intro app router hserves clientType n hstored
    rcases hminted.stored clientType n hstored with ⟨hne, hshort⟩
    have hcounter : counter state.storage clientType = n := by
      rw [counter, hstored]
      rfl
    have hlength : ∀ requested ∈ requestedTypes (some clientType),
        requested.length < 2 ^ 32 := by
      intro requested hmem
      rw [List.mem_singleton.mp hmem]
      omega
    rw [hserves.listClients hlength, requestedTypes, List.flatMap_singleton, listed,
      if_neg (hcounter ▸ hne), hminted.inOrder, hcounter]

/-! ### A type that begins like another -/

/-- Three clients of `mock` and one of `mock-1`. -/
def mockClients : List (Env Unit × Call) :=
  [(acceptingEnv, .registerClientType (ascii "mock") zeroAddress),
    (acceptingEnv, .registerClientType (ascii "mock-1") zeroAddress),
    (acceptingEnv, .createClient (ascii "mock") [] [] 1),
    (acceptingEnv, .createClient (ascii "mock") [] [] 1),
    (acceptingEnv, .createClient (ascii "mock-1") [] [] 1),
    (acceptingEnv, .createClient (ascii "mock") [] [] 1)]

def mockHistory : List (Entry (State Unit) (Act Unit)) :=
  (freshState.executeAll Sha256.sha256 [] mockClients).1

def mockState : State Unit := (freshState.executeAll Sha256.sha256 [] mockClients).2

theorem run_mockClients : Router.Run Sha256.sha256 mockHistory mockState :=
  Run.executeAll (.start ⟨_, rfl⟩) _

def mockRouter : Hash := .fill 32 0

/-- The entries of the two counters. -/
def mockEntry (clientType : HostString) (n : UInt32) : Bytes :=
  contractDataXdr mockRouter (Mirror.DataKey.nextClientId clientType).ledgerKey (.u32 n)

/-- A node that knows the two counters. -/
def mockApp : AppState where
  ibcContractId := ascii "CAAAAAAAAAAAAAAAAAAAAAAAAAAAAAAAAAAAAAAAAAAAAAAAAAAAD2KM"
  getLedgerEntry key :=
    if key = counterKey mockRouter (ascii "mock") then .ok (some (mockEntry (ascii "mock") 3))
    else if key = counterKey mockRouter (ascii "mock-1") then
      .ok (some (mockEntry (ascii "mock-1") 1))
    else .ok none
  contractFromString _ := .ok mockRouter
  xdr := .reader

theorem fits_ledgerKey {clientType : HostString} (h : clientType.length < 2 ^ 32) :
    Fits (Mirror.DataKey.nextClientId clientType).ledgerKey := by
  refine .vec (by simp) ?_
  rw [List.forall_mem_cons, List.forall_mem_singleton]
  exact ⟨.symbol (by decide), .string h⟩

theorem counterKey_injective {router : Hash} {left right : HostString}
    (hleft : left.length < 2 ^ 32) (hright : right.length < 2 ^ 32)
    (h : counterKey router left = counterKey router right) : left = right := by
  unfold counterKey persistentContractDataKey at h
  rw [List.append_assoc, List.append_assoc _ _ (ScVal.uint32 1)] at h
  have hxdr := List.append_cancel_left h
  have hkeys := (toXdr_append_injective (fits_ledgerKey hleft) (fits_ledgerKey hright) hxdr).1
  simpa [Mirror.DataKey.ledgerKey] using hkeys

theorem allMinted_mockHistory : allMinted mockHistory =
    [(ascii "mock", ascii "mock-0"), (ascii "mock", ascii "mock-1"),
      (ascii "mock-1", ascii "mock-1-0"), (ascii "mock", ascii "mock-2")] := by
  decide

/-- A type with a stored counter has a client. -/
theorem mock_of_stored {clientType : HostString} {n : UInt32}
    (h : mockState.storage.nextClientId clientType = some n) :
    (clientType = ascii "mock" ∧ n = 3) ∨ (clientType = ascii "mock-1" ∧ n = 1) := by
  have hminted := mintedInOrder_of_run run_mockClients
  have hcounter : counter mockState.storage clientType = n := by
    rw [counter, h]
    rfl
  have hne := (hminted.stored clientType n h).1
  have hlength : ((allMinted mockHistory).filter fun minted => minted.1 = clientType).length =
      n.toNat := by
    have hids := congrArg List.length (hminted.inOrder clientType)
    rw [mintedIds, List.length_map, List.length_map, List.length_range, hcounter] at hids
    exact hids
  rw [allMinted_mockHistory] at hlength
  by_cases hmock : clientType = ascii "mock"
  · subst hmock
    exact .inl ⟨rfl, UInt32.toNat_inj.mp (hlength.symm.trans (by decide))⟩
  by_cases hmock1 : clientType = ascii "mock-1"
  · subst hmock1
    exact .inr ⟨rfl, UInt32.toNat_inj.mp (hlength.symm.trans (by decide))⟩
  · have hmock' : ¬ ascii "mock" = clientType := fun heq => hmock heq.symm
    have hmock1' : ¬ ascii "mock-1" = clientType := fun heq => hmock1 heq.symm
    simp only [hmock', hmock1', decide_false, List.filter_cons, Bool.false_eq_true, if_false,
      List.filter_nil, List.length_nil] at hlength
    exact absurd (UInt32.toNat_inj.mp hlength.symm) hne

theorem mockApp_serves : ServesCounters mockApp mockRouter mockState.storage where
  configured := by decide
  parsed := rfl
  unset clientType hlength hnone := by
    have hmock : mockState.storage.nextClientId (ascii "mock") = some 3 := by decide
    have hmock1 : mockState.storage.nextClientId (ascii "mock-1") = some 1 := by decide
    have hne : counterKey mockRouter clientType ≠ counterKey mockRouter (ascii "mock") := by
      intro heq
      rw [counterKey_injective hlength (by decide) heq, hmock] at hnone
      cases hnone
    have hne1 : counterKey mockRouter clientType ≠ counterKey mockRouter (ascii "mock-1") := by
      intro heq
      rw [counterKey_injective hlength (by decide) heq, hmock1] at hnone
      cases hnone
    simp only [mockApp, if_neg hne, if_neg hne1]
  stored clientType n hstored := by
    rcases mock_of_stored hstored with ⟨rfl, rfl⟩ | ⟨rfl, rfl⟩
    · refine ⟨mockEntry (ascii "mock") 3, by simp only [mockApp, if_pos], ?_⟩
      exact Xdr.reader_ledgerEntry (fits_ledgerKey (by decide)) (.u32 3)
    · have hne : counterKey mockRouter (ascii "mock-1") ≠ counterKey mockRouter (ascii "mock") := by
        intro heq
        exact absurd (counterKey_injective (by decide) (by decide) heq) (by decide)
      refine ⟨mockEntry (ascii "mock-1") 1, ?_, ?_⟩
      · simp only [mockApp, if_neg hne, if_pos]
      · exact Xdr.reader_ledgerEntry (fits_ledgerKey (by decide)) (.u32 1)

/-- The second client of `mock` is not the first of `mock-1`. -/
theorem clients_listed_mock :
    listClients mockApp (some (ascii "mock")) =
        .ok [⟨ascii "mock", 3, [ascii "mock-0", ascii "mock-1", ascii "mock-2"]⟩] ∧
      listClients mockApp (some (ascii "mock-1")) =
        .ok [⟨ascii "mock-1", 1, [ascii "mock-1-0"]⟩] ∧
      clientTypeOf (ascii "mock-1-0") = ascii "mock-1" := by
  have hlisted := clients_listed run_mockClients
  refine ⟨?_, ?_, ?_⟩
  · rw [hlisted.2.2 mockApp mockRouter mockApp_serves (ascii "mock") 3 (by decide),
      mintedIds, allMinted_mockHistory]
    rfl
  · rw [hlisted.2.2 mockApp mockRouter mockApp_serves (ascii "mock-1") 1 (by decide),
      mintedIds, allMinted_mockHistory]
    rfl
  · apply hlisted.2.1 (ascii "mock-1", ascii "mock-1-0")
    rw [allMinted_mockHistory]
    decide

end StellarIbc.Api
