import StellarIbc.LocalService
import StellarIbc.ReportedClients
import StellarIbc.RouterEnabled

/-!
# What the gateway reports of the tendermint clients

The relayer asks the gateway for the client states and the consensus states.  Between the
two stand the service, its node, and the contracts.  What comes back is what was sent when
the clients were created and updated.
-/

namespace StellarIbc.Mediated

open Contract Router SorobanClient
open StellarIbc.Core (TmClientState TmConsensusState AnyClientState AnyConsensusState IbcRs
  Any ApiClient HeaderMessages TmMessages Xdr)
open Tendermint (TendermintClientState TendermintConsensusState TendermintHeader)
open StellarIbc.Gateway (Delivers UrlSegment IdentifiedClientState identifiedState
  queryClientState queryClientStates queryConsensusState)

variable {X S : Type}

/-! ### What the gateway reports -/

section

variable {ibc : IbcRs S} {host : Tendermint.Host} {lcId router : Hash}
variable {view : X → Tendermint.Storage} {sha256 : Bytes → Hash}
variable {history : List (Entry (State X) (Act X))} {state : State X} {c : HostString}
variable {api : ApiClient} {app : Api.AppState} {xdr : Xdr} {messages : TmMessages S}

/-- The ids of the default types, in the order in which they were minted. -/
def defaultIds (history : List (Entry (State X) (Act X))) : List HostString :=
  Api.DEFAULT_CLIENT_TYPES.flatMap fun clientType => Api.mintedIds clientType history

theorem nodup_defaultIds (hrun : Router.Run sha256 history state) :
    (defaultIds history).Nodup := by
  have hminted := Api.mintedInOrder_of_run hrun
  refine List.nodup_flatMap.mpr ⟨?_, ?_⟩
  · intro clientType _
    exact hminted.distinct.sublist (List.filter_sublist.map _)
  · have hdistinct : Api.DEFAULT_CLIENT_TYPES.Pairwise (· ≠ ·) := by decide
    refine hdistinct.imp ?_
    intro left right hne id hleft hright
    -- the type is read off the id
    have htypeOf : ∀ {clientType}, id ∈ Api.mintedIds clientType history →
        Api.clientTypeOf id = clientType := by
      intro clientType hmem
      obtain ⟨minted, hminted', rfl⟩ := List.mem_map.mp hmem
      obtain ⟨hmem', htype⟩ := List.mem_filter.mp hminted'
      obtain ⟨n, -, hformat⟩ := hminted.ofType minted hmem'
      rw [hformat, Api.clientTypeOf_formatId]
      exact of_decide_eq_true htype
    exact hne ((htypeOf hleft).symm.trans (htypeOf hright))

/-- An id of a default type stands in the path of a URL as it is. -/
theorem urlSegment_of_default (hrun : Router.Run sha256 history state)
    (hmem : c ∈ defaultIds history) : UrlSegment c := by
  obtain ⟨clientType, htype, hid⟩ := List.mem_flatMap.mp hmem
  rw [(Api.mintedInOrder_of_run hrun).inOrder] at hid
  obtain ⟨n, -, rfl⟩ := List.mem_map.mp hid
  have hname : clientType.all Gateway.urlByte = true := by
    have hdefaults : (Api.DEFAULT_CLIENT_TYPES.all fun name => name.all Gateway.urlByte) = true := by
      decide
    exact List.all_eq_true.mp hdefaults clientType htype
  have hdigits : (decimal n).all Gateway.urlByte = true := by
    rw [List.all_eq_true]
    intro byte hbyte
    obtain ⟨hlow, hhigh⟩ := (canonical_decimal n).digit byte hbyte
    have hdigit : 0x30 ≤ byte ∧ byte ≤ 0x39 := by
      rw [UInt8.le_iff_toNat_le, UInt8.le_iff_toNat_le]
      exact ⟨hlow, hhigh⟩
    simp [Gateway.urlByte, hdigit]
  refine ⟨by simp [Api.formatId], ?_⟩
  rw [Api.formatId, List.all_append, List.all_cons, hname, hdigits]
  rfl

theorem listed_clientIds (hrun : Router.Run sha256 history state) (clientType : HostString) :
    (Api.listed state.storage clientType).flatMap Api.ClientGroup.clientIds =
      Api.mintedIds clientType history := by
  rw [(Api.mintedInOrder_of_run hrun).inOrder clientType, Api.listed]
  by_cases hzero : Api.counter state.storage clientType = 0
  · rw [if_pos hzero, hzero]
    rfl
  · rw [if_neg hzero, List.flatMap_singleton]

/-- What is left of a list when the items that fail are skipped. -/
theorem filterMap_map_sublist {α β : Type} {read : α → Option β} {name : β → α}
    (hname : ∀ {a b}, read a = some b → name b = a) (items : List α) :
    ((items.filterMap read).map name).Sublist items := by
  induction items with
  | nil => exact .refl _
  | cons item items ih =>
      cases hread : read item with
      | none =>
          rw [List.filterMap_cons_none hread]
          exact ih.cons item
      | some found =>
          rw [List.filterMap_cons_some hread, List.map_cons, hname hread]
          exact ih.cons_cons item

/-- A node can serve every store of a run. -/
theorem ReportInv.allBounded (hibc : ibc.Lawful)
    (h : ReportInv ibc host lcId view history state) : Api.AllBounded (view state.ext) := by
  intro c record hrecord
  by_cases hlc : state.storage.clientLcAddr c = some (.contract lcId)
  · obtain ⟨⟨cs, created, ⟨_, _, _, _, _, _, _, _, _, hbuilt⟩, hcurrent, hclient⟩, -⟩ :=
      h.holds c hlc
    obtain rfl := Option.some.inj (hclient.symm.trans hrecord)
    have hchainId : cs.chainId = created.chainId := by rw [hcurrent.kept]
    have hlength := (hibc.chainId created hbuilt.valid).2
    rw [← hchainId] at hlength
    exact ⟨hlength, Nat.two_pow_pos 32⟩
  · have hunknown := (h.inv.unknown c hlc).client
    exact absurd (hunknown.symm.trans hrecord) nofun

end

/-! ### A concrete run -/

/-- A reader of structs, by the order of their fields. -/
def readStruct {α : Type} (of : ScVal → Option α) (bytes : Bytes) : Decoded α :=
  match Xdr.reader.fromXdr bytes with
  | .error _ => .trapped
  | .ok val =>
      match of val with
      | none => .mismatch
      | some value => .decoded value

def heightOf : ScVal → Option Tendermint.Height
  | .map [(_, .u64 height), (_, .u64 number)] => some ⟨number, height⟩
  | _ => none

def hashOf (bytes : Bytes) : Option (BytesN 32) := Router.toHash bytes

def trustOf : ScVal → Option Tendermint.TrustThreshold
  | .map [(_, .u32 denominator), (_, .u32 numerator)] => some ⟨numerator, denominator⟩
  | _ => none

def clientOf : ScVal → Option TendermintClientState
  | .map [(_, .string chainId), (_, frozen), (_, .bool isFrozen), (_, latest), (_, .u64 drift),
      (_, .bytes proofSpecs), (_, trust), (_, .u64 trusting), (_, .u64 unbonding)] => do
      return ⟨chainId, ← trustOf trust, trusting, unbonding, drift, ← heightOf latest, isFrozen,
        ← heightOf frozen, proofSpecs⟩
  | _ => none

def consensusOf : ScVal → Option TendermintConsensusState
  | .map [(_, .bytes validators), (_, .bytes root), (_, .u64 timestamp)] => do
      return ⟨timestamp, ← hashOf validators, ← hashOf root⟩
  | _ => none

def headerOf : ScVal → Option TendermintHeader
  | .map [(_, .bytes app), (_, .bytes validators), (_, .bytes signed), (_, target),
      (_, .u64 timestamp), (_, trusted), (_, .bytes validatorSet)] => do
      return ⟨← heightOf trusted, ← heightOf target, timestamp, ← hashOf validators,
        ← hashOf app, signed, validatorSet⟩
  | _ => none

def readingHost : Tendermint.Host where
  clientState := readStruct clientOf
  consensusState := readStruct consensusOf
  header := readStruct headerOf

theorem readStruct_toXdr {α : Type} {of : ScVal → Option α} {val : ScVal} {value : α}
    (hfits : Core.Fits val) (hof : of val = some value) :
    readStruct of val.toXdr = .decoded value := by
  have hread : Xdr.reader.fromXdr val.toXdr = .ok val := Xdr.reader_lawful.roundTrip val hfits
  simp only [readStruct, hread, hof]

theorem hashOf_val (hash : BytesN 32) : hashOf hash.val = some hash := Router.toHash_eq_some.mpr rfl

theorem consensusOf_toScVal (cons : TendermintConsensusState) :
    consensusOf cons.toScVal = some cons := by
  have hread : consensusOf cons.toScVal = (hashOf cons.nextValidatorsHash.val).bind
      fun validators => (hashOf cons.root.val).bind
        fun root => some ⟨cons.timestampSecs, validators, root⟩ := rfl
  rw [hread, hashOf_val, hashOf_val]
  rfl

theorem headerOf_toScVal (header : TendermintHeader) : headerOf header.toScVal = some header := by
  have hread : headerOf header.toScVal = (hashOf header.nextValidatorsHash.val).bind
      fun validators => (hashOf header.appHash.val).bind
        fun app => some ⟨header.trustedHeight, header.targetHeight, header.timestampSecs,
          validators, app, header.signedHeaderBytes, header.validatorSetBytes⟩ := rfl
  rw [hread, hashOf_val, hashOf_val]
  rfl

theorem readingHost_reads : ReadsXdr readingHost where
  clientState cs hfits := by
    have hhost : readingHost.clientState = readStruct clientOf := rfl
    have hread : clientOf cs.toScVal = some cs := rfl
    rw [hhost]
    exact readStruct_toXdr hfits hread
  consensusState cons hfits := by
    have hhost : readingHost.consensusState = readStruct consensusOf := rfl
    rw [hhost]
    exact readStruct_toXdr hfits (consensusOf_toScVal cons)
  header header hfits := by
    have hhost : readingHost.header = readStruct headerOf := rfl
    rw [hhost]
    exact readStruct_toXdr hfits (headerOf_toScVal header)

/-! The messages of the run, with a table for what is read of them. -/

section

open Protobuf (Record bytesRecord encodeRecords messageRecord repeatedBytesRecords uint64Record)

def heightRecords (height : Core.IbcHeight) : List Record :=
  uint64Record 1 height.revisionNumber ++ uint64Record 2 height.revisionHeight

def durationRecord (tag : Nat) (duration : Core.Duration) : Record :=
  messageRecord tag (uint64Record 1 duration.secs ++ uint64Record 2 duration.nanos.toUInt64)

def clientBytes (cs : TmClientState Unit) : Bytes :=
  encodeRecords (bytesRecord 1 cs.chainId ++
    [messageRecord 2 (uint64Record 1 cs.trustLevel.numerator ++
        uint64Record 2 cs.trustLevel.denominator),
      durationRecord 3 cs.trustingPeriod, durationRecord 4 cs.unbondingPeriod,
      durationRecord 5 cs.maxClockDrift,
      messageRecord 6 ((cs.frozenHeight.map heightRecords).getD []),
      messageRecord 7 (heightRecords cs.latestHeight)] ++
    repeatedBytesRecords 9 cs.upgradePath)

def consensusBytes (cons : TmConsensusState) : Bytes :=
  encodeRecords ([messageRecord 1 (uint64Record 1 cons.timestamp.unixTimestamp.toUInt64),
      messageRecord 2 (bytesRecord 1 cons.root)] ++
    bytesRecord 3 cons.nextValidatorsHash.asBytes)

def createdClient : TmClientState Unit := { Core.sampleClientState with frozenHeight := none }

def updatedClient : TmClientState Unit :=
  { createdClient with latestHeight := ⟨1, 50, by decide⟩ }

def firstConsensus : TmConsensusState := Core.sampleConsensusState

def laterConsensus : TmConsensusState where
  timestamp := ⟨1700000500, 0⟩
  root := List.replicate 32 8
  nextValidatorsHash := .sha256 (.fill 32 9)

/-- The samples are the only values that are admitted. -/
def reportedIbc : IbcRs Unit :=
  { Core.sampleIbc with
    clientValid := fun cs => cs = createdClient ∨ cs = updatedClient
    consensusValid := fun cons => cons = firstConsensus ∨ cons = laterConsensus }

def fromTable {α : Type} (encode : α → Bytes) (samples : List α) (bytes : Bytes) :
    Except Bytes α :=
  match samples.find? fun sample => encode sample == bytes with
  | some sample => .ok sample
  | none => .error (ascii "invalid protobuf")

def reportedMessages : TmMessages Unit where
  encodeClient := clientBytes
  decodeClient := fromTable clientBytes [createdClient, updatedClient]
  encodeConsensus := consensusBytes
  decodeConsensus := fromTable consensusBytes [firstConsensus, laterConsensus]

/-- The signed header of the update, which signs a header of height 50. -/
def signedRecords : List Record :=
  [messageRecord 1 (bytesRecord 2 (ascii "testchain-1") ++ uint64Record 3 50 ++
    [messageRecord 4 (uint64Record 1 1700000500)] ++
    bytesRecord 9 (List.replicate 32 9) ++ bytesRecord 11 (List.replicate 32 8))]

def headerBytes : Bytes :=
  encodeRecords [messageRecord 1 signedRecords,
    messageRecord 3 (heightRecords createdClient.latestHeight)]

def innerHeader : Core.TmInnerHeader where
  height := 50
  time := some ⟨1700000500, 0⟩
  nextValidatorsHash := List.replicate 32 9
  appHash := List.replicate 32 8

def reportedHeaders : HeaderMessages Unit Unit where
  decode bytes :=
    if bytes = headerBytes then .ok ⟨some (), none, some createdClient.latestHeight.raw⟩
    else .error (ascii "failed to decode Protobuf message")
  header _ := some innerHeader
  encodeSignedHeader _ := encodeRecords signedRecords
  encodeValidatorSet _ := []

end

theorem reportedIbc_lawful : reportedIbc.Lawful where
  chainId cs h := by
    rcases h with rfl | rfl
    · exact ⟨by decide, by decide⟩
    · exact ⟨by decide, by decide⟩
  client raw cs h := by
    refine Core.sampleIbc_lawful.client raw cs ?_
    rcases h with rfl | rfl
    · exact ⟨by decide, by decide⟩
    · exact ⟨by decide, by decide⟩
  consensus raw cons _ := Core.sampleIbc_lawful.consensus raw cons trivial
  frozenHeight := Core.sampleIbc_lawful.frozenHeight
  latestHeight := Core.sampleIbc_lawful.latestHeight

theorem reportedMessages_lawful : reportedMessages.Lawful reportedIbc where
  client cs h := by
    have hne : (clientBytes createdClient == clientBytes updatedClient) = false := by decide
    rcases h with rfl | rfl
    · simp [reportedMessages, fromTable]
    · simp [reportedMessages, fromTable, hne]
  consensus cons h := by
    have hne : (consensusBytes firstConsensus == consensusBytes laterConsensus) = false := by
      decide
    rcases h with rfl | rfl
    · simp [reportedMessages, fromTable]
    · simp [reportedMessages, fromTable, hne]

def reportedLc : Hash := .fill 32 6

def reportedClient : HostString := ascii "07-tendermint-0"

/-- The light client at its address; every other contract accepts. -/
def reportedEnv : Env Tendermint.Storage where
  timestamp := 10
  authorized _ := true
  invoke address call store :=
    if address = .contract reportedLc then reply (tendermint readingHost).machine call store
    else some (call.accept, store)

theorem reportedEnv_mediates : (tendermintOf readingHost reportedLc id).Mediates reportedEnv where
  answered call store value store' h := by
    simp only [reportedEnv, if_true] at h
    exact h
  untouched callee call store value store' hcallee h := by
    have hne : callee ≠ .contract reportedLc := hcallee
    simp only [reportedEnv, if_neg hne] at h
    exact (Prod.mk.inj (Option.some.inj h)).2.symm

def registerCall : Router.Call := .registerClientType (ascii "07-tendermint") (.contract reportedLc)

def firstRecord : TendermintConsensusState := ⟨1700000000, .fill 32 9, .fill 32 7⟩

def createCall : Router.Call :=
  .createClient (ascii "07-tendermint") createdClient.record.toScVal.toXdr
    firstRecord.toScVal.toXdr 42

def headerRecord : TendermintHeader where
  trustedHeight := ⟨1, 42⟩
  targetHeight := ⟨1, 50⟩
  timestampSecs := 1700000500
  nextValidatorsHash := .fill 32 9
  appHash := .fill 32 8
  signedHeaderBytes := Protobuf.encodeRecords signedRecords
  validatorSetBytes := []

def updateCall : Router.Call := .updateClient reportedClient headerRecord.toScVal.toXdr

def freshReport : State Tendermint.Storage := ⟨.initial zeroAddress, .empty⟩

def afterRegister : State Tendermint.Storage :=
  (freshReport.execute Sha256.sha256 reportedEnv registerCall).post

def afterCreate : State Tendermint.Storage :=
  (afterRegister.execute Sha256.sha256 reportedEnv createCall).post

def reportedHistory : List (Entry (State Tendermint.Storage) (Act Tendermint.Storage)) :=
  [freshReport.execute Sha256.sha256 reportedEnv registerCall,
    afterRegister.execute Sha256.sha256 reportedEnv createCall,
    afterCreate.execute Sha256.sha256 reportedEnv updateCall]

def reportedState : State Tendermint.Storage :=
  (afterCreate.execute Sha256.sha256 reportedEnv updateCall).post

theorem builtFrom_createdClient :
    BuiltFrom reportedIbc createdClient.record.toScVal.toXdr 42 createdClient where
  valid := .inl rfl
  encodable := ⟨⟨by decide, rfl⟩, ⟨by decide, rfl⟩, ⟨by decide, rfl⟩, by decide, by decide, rfl,
    rfl, rfl, rfl⟩
  active := rfl
  clientState := Core.toSorobanXdr_client (by decide)
  height := rfl

/-- Runs in which only the router calls the light client and clients are the gateway's. -/
abbrev GatewayRun : List (Entry (State Tendermint.Storage) (Act Tendermint.Storage)) →
    State Tendermint.Storage → Prop :=
  Reach (fun state : State Tendermint.Storage => Init state ∧ state.ext = .empty)
    (fun pre act post => (Router.Step Sha256.sha256 pre act post ∧
      (tendermintOf readingHost reportedLc id).MediatedStep pre act post) ∧
      Built reportedIbc reportedLc ⟨pre, act, post⟩)

/-- What a call has to be like for its entry to be one of the gateway's. -/
def GatewayCall (call : Router.Call) : Prop :=
  ∀ clientType clientState consensusState height,
    call = .createClient clientType clientState consensusState height →
    clientState = createdClient.record.toScVal.toXdr ∧ height = 42

section

variable {history : List (Entry (State Tendermint.Storage) (Act Tendermint.Storage))}
variable {state : State Tendermint.Storage}

theorem GatewayRun.execute (hrun : GatewayRun history state) {call : Router.Call}
    (hcall : GatewayCall call) :
    GatewayRun (history ++ [state.execute Sha256.sha256 reportedEnv call])
      (state.execute Sha256.sha256 reportedEnv call).post := by
  have hread : readingHost.clientState createdClient.record.toScVal.toXdr =
      .decoded createdClient.record := by
    have hbounded : Core.Bounded createdClient.record := ⟨by decide, by decide⟩
    exact readingHost_reads.clientState createdClient.record (Core.fits_client hbounded)
  obtain ⟨hpre, hstep, outcome, hact⟩ := state.execute_step Sha256.sha256 reportedEnv call
  refine hrun.extend hpre ⟨⟨hstep, ?_⟩, ?_⟩
  · rw [hact]
    refine ⟨reportedEnv_mediates, ?_⟩
    intro clientType clientState consensusState height hcreate _ cs hdecoded
    obtain ⟨rfl, rfl⟩ := hcall _ _ _ _ hcreate
    obtain rfl := Decoded.decoded.inj (hread.symm.trans hdecoded)
    rfl
  · intro env clientType clientState consensusState height outcome' hcreates _
    rw [hact] at hcreates
    cases hcreates
    obtain ⟨rfl, rfl⟩ := hcall _ _ _ _ rfl
    exact ⟨createdClient, builtFrom_createdClient⟩

theorem GatewayRun.tendermint (hrun : GatewayRun history state) :
    (tendermintOf readingHost reportedLc id).Run Sha256.sha256 history state :=
  hrun.mono (fun _ h => h) fun _ _ _ h => h.1

theorem GatewayRun.built (hrun : GatewayRun history state) :
    ∀ entry ∈ history, Built reportedIbc reportedLc entry :=
  fun _ hmem => (hrun.step_of_mem hmem).2

/-- A node that knows the storages at the end of the run. -/
theorem GatewayRun.serves (hrun : GatewayRun history state) :
    Api.ServesClients (Api.nodeApp reportedLc state.storage state.ext) Api.mockRouter reportedLc
      state.storage (id state.ext) := by
  have hinv := reportInv_of_run readingHost_reads reportedIbc_lawful hrun.tendermint hrun.built
  exact Api.nodeApp_serves (hinv.allBounded reportedIbc_lawful)

theorem GatewayRun.servesCounters (hrun : GatewayRun history state) :
    Api.ServesCounters (Api.nodeApp reportedLc state.storage state.ext) Api.mockRouter
      state.storage := by
  refine Api.nodeApp_servesCounters ?_
  intro clientType n hn
  have hlength := ((Api.mintedInOrder_of_run hrun.tendermint.router).stored clientType n hn).2
  exact Nat.lt_of_le_of_lt hlength (by decide)

end

/-- The entry of an executed call that returned a height for a client. -/
theorem execute_returnedHeight {state : State Tendermint.Storage} {call : Router.Call}
    {height : UInt64}
    (h : returnedHeight reportedClient (state.execute Sha256.sha256 reportedEnv call).act =
      some height) :
    (∃ clientType clientState consensusState log,
      (state.execute Sha256.sha256 reportedEnv call).act = .tx ⟨reportedEnv,
        .createClient clientType clientState consensusState height,
        .returned reportedClient log⟩ ∧
      call = .createClient clientType clientState consensusState height) ∨
    ∃ message log, (state.execute Sha256.sha256 reportedEnv call).act =
      .tx ⟨reportedEnv, .updateClient reportedClient message, .returned height log⟩ ∧
      call = .updateClient reportedClient message := by
  obtain ⟨-, -, outcome, hact⟩ := state.execute_step Sha256.sha256 reportedEnv call
  rw [hact] at h ⊢
  cases outcome with
  | aborted => cases call <;> cases h
  | returned value log =>
      cases call with
      | createClient clientType clientState consensusState given =>
          have hreturned : (if value = reportedClient then some given else none) =
              some height := h
          split at hreturned
          · next hvalue =>
              subst hvalue
              obtain rfl := Option.some.inj hreturned
              exact .inl ⟨_, _, _, log, rfl, rfl⟩
          · cases hreturned
      | updateClient c message =>
          have hreturned : (if c = reportedClient then some value else none) = some height := h
          split at hreturned
          · next hid =>
              subst hid
              obtain rfl := Option.some.inj hreturned
              exact .inr ⟨_, log, rfl, rfl⟩
          · cases hreturned
      | _ => cases h

theorem run_reported : GatewayRun reportedHistory reportedState := by
  have hstart : GatewayRun [] freshReport := .start ⟨⟨zeroAddress, rfl⟩, rfl⟩
  have hregister : GatewayCall registerCall := fun _ _ _ _ => Router.Call.noConfusion
  have hcreate : GatewayCall createCall := by
    intro clientType clientState consensusState height hcall
    cases hcall
    exact ⟨rfl, rfl⟩
  have hupdate : GatewayCall updateCall := fun _ _ _ _ => Router.Call.noConfusion
  exact ((hstart.execute hregister).execute hcreate).execute hupdate

theorem created_reported : CreatedFrom reportedIbc reportedHistory reportedClient
    createdClient := by
  have hheight : returnedHeight reportedClient
      (afterRegister.execute Sha256.sha256 reportedEnv createCall).act = some 42 := by
    decide +kernel
  refine ⟨afterRegister.execute Sha256.sha256 reportedEnv createCall, List.mem_of_getElem? (i := 1) rfl, ?_⟩
  rcases execute_returnedHeight hheight with
    ⟨clientType, clientState, consensusState, log, hact, hcall⟩ | ⟨message, log, -, hcall⟩
  · refine ⟨_, _, _, _, _, log, hact, ?_⟩
    cases hcall
    exact builtFrom_createdClient
  · cases hcall

theorem translated_header :
    Core.tendermintHeaderToSorobanXdr reportedHeaders headerBytes =
      .ok headerRecord.toScVal.toXdr := by
  decide +kernel

theorem accepted_reported : ∃ entry ∈ reportedHistory,
    Accepts reportedHeaders reportedClient 50 laterConsensus entry.act := by
  have hheight : returnedHeight reportedClient
      (afterCreate.execute Sha256.sha256 reportedEnv updateCall).act = some 50 := by
    decide +kernel
  refine ⟨afterCreate.execute Sha256.sha256 reportedEnv updateCall, List.mem_of_getElem? (i := 2) rfl, ?_⟩
  rcases execute_returnedHeight hheight with ⟨_, _, _, _, -, hcall⟩ | ⟨message, log, hact, hcall⟩
  · cases hcall
  · rw [hact]
    cases hcall
    refine .updated ⟨_, (), if_pos rfl, rfl, rfl⟩ rfl ⟨rfl, rfl, rfl⟩ translated_header ?_
    decide

theorem stands_reported : Stands reportedIbc reportedHistory reportedState.storage
    (id reportedState.ext) reportedClient updatedClient := by
  have hlatest : greatest (heights reportedClient reportedHistory) = 50 := by decide +kernel
  have hfrozen : reportedState.storage.frozen reportedClient = none := by decide +kernel
  have hrecord : (id reportedState.ext).client reportedClient = some updatedClient.record := by
    decide +kernel
  refine ⟨createdClient, created_reported, ⟨rfl, hlatest.symm, ?_⟩, hrecord⟩
  rw [hfrozen]
  rfl

/-- A service over a node that knows the storages at the end of the run. -/
def reportedApp : Api.AppState := Api.nodeApp reportedLc reportedState.storage reportedState.ext

theorem served_reported :
    reportedState.storage.clientLcAddr reportedClient = some (.contract reportedLc) := by
  decide +kernel

end StellarIbc.Mediated
