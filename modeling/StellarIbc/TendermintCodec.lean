import StellarIbc.TendermintClient
import StellarIbc.XdrReader

/-!
# Tendermint states in the gateway

`crates/core/src/ibc/soroban.rs`: the client and consensus states of `ibc-rs` written as the
structs of the tendermint light client and read back.  Frozenness is written twice, as a
flag and as a height, and only the height is read.  The types of `ibc-rs` and its
conversion from the protobuf messages are outside the repository; the conversion is a
parameter.
-/

namespace StellarIbc.Core

open Contract

/-! ### The types of `ibc-rs` -/

/-- `Height`, whose revision height is never 0. -/
structure IbcHeight where
  revisionNumber : UInt64
  revisionHeight : UInt64
  nonzero : revisionHeight ≠ 0
deriving DecidableEq

/-- `core::time::Duration`. -/
structure Duration where
  secs : UInt64
  nanos : UInt32
deriving DecidableEq

structure TrustLevel where
  numerator : UInt64
  denominator : UInt64
deriving DecidableEq

/-- The inner client state, with proof specs in `S`. -/
structure TmClientState (S : Type) where
  chainId : Bytes
  trustLevel : TrustLevel
  trustingPeriod : Duration
  unbondingPeriod : Duration
  maxClockDrift : Duration
  latestHeight : IbcHeight
  proofSpecs : S
  upgradePath : List Bytes
  allowUpdateAfterExpiry : Bool
  allowUpdateAfterMisbehaviour : Bool
  frozenHeight : Option IbcHeight

/-- `Time`, as seconds since the epoch and nanoseconds. -/
structure TmTime where
  unixTimestamp : Int64
  nanos : UInt32
deriving DecidableEq

inductive TmHash where
  | sha256 (hash : Hash)
  | none
deriving DecidableEq

def TmHash.asBytes : TmHash → Bytes
  | .sha256 hash => hash.val
  | .none => []

structure TmConsensusState where
  timestamp : TmTime
  root : Bytes
  nextValidatorsHash : TmHash
deriving DecidableEq

inductive AnyClientState (S : Type) where
  | tendermint (cs : TmClientState S)

inductive AnyConsensusState where
  | tendermint (cons : TmConsensusState)

/-! ### Protobuf messages -/

/-- `Duration` and `Timestamp` of protobuf. -/
structure RawSeconds where
  seconds : Int64
  nanos : Int32

structure RawHeight where
  revisionNumber : UInt64
  revisionHeight : UInt64

structure Fraction where
  numerator : UInt64
  denominator : UInt64

structure RawTmClientState (S : Type) where
  chainId : Bytes
  trustLevel : Option Fraction
  trustingPeriod : Option RawSeconds
  unbondingPeriod : Option RawSeconds
  maxClockDrift : Option RawSeconds
  frozenHeight : Option RawHeight
  latestHeight : Option RawHeight
  proofSpecs : S
  upgradePath : List Bytes
  allowUpdateAfterExpiry : Bool
  allowUpdateAfterMisbehaviour : Bool

/-- `root` is the hash of the `MerkleRoot`. -/
structure RawTmConsensusState where
  timestamp : Option RawSeconds
  root : Option Bytes
  nextValidatorsHash : Bytes

/-- What is used of `ibc-rs`: which values its types admit, the proof specs of Cosmos, and
`try_from` for the two messages, failing with a text. -/
structure IbcRs (S : Type) where
  clientValid : TmClientState S → Prop
  consensusValid : TmConsensusState → Prop
  cosmosSpecs : S
  clientFromRaw : RawTmClientState S → Except Bytes (TmClientState S)
  consensusFromRaw : RawTmConsensusState → Except Bytes TmConsensusState

/-! ### Client states -/

variable {S : Type}

def AnyClientState.toSorobanXdr : AnyClientState S → Anyhow Bytes
  | .tendermint cs => do
      let trustLevel ← scvalStruct [(ascii "numerator", .u32 cs.trustLevel.numerator.toUInt32),
        (ascii "denominator", .u32 cs.trustLevel.denominator.toUInt32)]
      let (frozenRn, frozenRh) :=
        (cs.frozenHeight.map fun h => (h.revisionNumber, h.revisionHeight)).getD (0, 0)
      let chainId ← scvalString cs.chainId
      let latestHeight ← scvalHeight cs.latestHeight.revisionNumber cs.latestHeight.revisionHeight
      let frozenHeight ← scvalHeight frozenRn frozenRh
      let proofSpecs ← scvalBytes []
      let state ← scvalStruct [(ascii "chain_id", chainId),
        (ascii "trust_level", trustLevel),
        (ascii "trusting_period_secs", .u64 cs.trustingPeriod.secs),
        (ascii "unbonding_period_secs", .u64 cs.unbondingPeriod.secs),
        (ascii "max_clock_drift_secs", .u64 cs.maxClockDrift.secs),
        (ascii "latest_height", latestHeight),
        (ascii "is_frozen", .bool cs.frozenHeight.isSome),
        (ascii "frozen_height", frozenHeight),
        (ascii "proof_specs", proofSpecs)]
      return state.toXdr

section

variable (xdr : Xdr) (ibc : IbcRs S)

def scGetHeight (map : ScMap) (name : Bytes) : Anyhow RawHeight := do
  let h ← scvalMapAsMap xdr map name
  let revisionNumber ← scvalMapU64 xdr h (ascii "revision_number")
  let revisionHeight ← scvalMapU64 xdr h (ascii "revision_height")
  return ⟨revisionNumber, revisionHeight⟩

def AnyClientState.fromSorobanXdr (bytes : Bytes) : Anyhow (AnyClientState S) := do
  let val ← scvalFromXdr xdr bytes
  let map ← okOrElse (ascii "client_state is not a map") (scvalAsMap val)
  let trust ← scvalMapAsMap xdr map (ascii "trust_level")
  let frozenHeight ← scGetHeight xdr map (ascii "frozen_height")
  let chainId ← scvalMapString xdr map (ascii "chain_id")
  let numerator ← scvalMapU32 xdr trust (ascii "numerator")
  let denominator ← scvalMapU32 xdr trust (ascii "denominator")
  let trustingPeriod ← scvalMapU64 xdr map (ascii "trusting_period_secs")
  let unbondingPeriod ← scvalMapU64 xdr map (ascii "unbonding_period_secs")
  let maxClockDrift ← scvalMapU64 xdr map (ascii "max_clock_drift_secs")
  let latestHeight ← scGetHeight xdr map (ascii "latest_height")
  let raw : RawTmClientState S :=
    { chainId
      trustLevel := some ⟨numerator.toUInt64, denominator.toUInt64⟩
      trustingPeriod := some ⟨trustingPeriod.toInt64, 0⟩
      unbondingPeriod := some ⟨unbondingPeriod.toInt64, 0⟩
      maxClockDrift := some ⟨maxClockDrift.toInt64, 0⟩
      frozenHeight := some frozenHeight
      latestHeight := some latestHeight
      proofSpecs := ibc.cosmosSpecs
      upgradePath := [ascii "upgrade", ascii "upgradedIBCState"]
      allowUpdateAfterExpiry := false
      allowUpdateAfterMisbehaviour := false }
  let cs ← withText (ascii "tendermint client state from raw: ") (ibc.clientFromRaw raw)
  return .tendermint cs

end

/-! ### Consensus states -/

def AnyConsensusState.toSorobanXdr : AnyConsensusState → Anyhow Bytes
  | .tendermint cons => do
      let timestampSecs := (max cons.timestamp.unixTimestamp 0).toUInt64
      let nextValidatorsHash ← scvalBytes cons.nextValidatorsHash.asBytes
      let root ← scvalBytes cons.root
      let state ← scvalStruct [(ascii "timestamp_secs", .u64 timestampSecs),
        (ascii "next_validators_hash", nextValidatorsHash),
        (ascii "root", root)]
      return state.toXdr

def AnyConsensusState.fromSorobanXdr (xdr : Xdr) (ibc : IbcRs S) (bytes : Bytes) :
    Anyhow AnyConsensusState := do
  let val ← scvalFromXdr xdr bytes
  let map ← okOrElse (ascii "consensus_state is not a map") (scvalAsMap val)
  let timestampSecs ← scvalMapU64 xdr map (ascii "timestamp_secs")
  let nextValidatorsHash ← scvalMapBytes xdr map (ascii "next_validators_hash")
  let root ← scvalMapBytes xdr map (ascii "root")
  let cons ← withText (ascii "tendermint consensus state from raw: ")
    (ibc.consensusFromRaw
      { timestamp := some ⟨timestampSecs.toInt64, 0⟩, root := some root, nextValidatorsHash })
  return .tendermint cons

/-! ### What is assumed of `ibc-rs` -/

def IbcHeight.raw (height : IbcHeight) : RawHeight :=
  ⟨height.revisionNumber, height.revisionHeight⟩

/-- The seconds and nanoseconds of the message are those of the duration. -/
structure RawSeconds.Represents (raw : RawSeconds) (duration : Duration) : Prop where
  seconds : raw.seconds.toInt = duration.secs.toNat
  nanos : raw.nanos.toInt = duration.nanos.toNat

/-- `raw` is the message of `cs`.  Not frozen is a frozen height with revision height 0. -/
structure RawTmClientState.Represents (raw : RawTmClientState S) (cs : TmClientState S) :
    Prop where
  chainId : raw.chainId = cs.chainId
  trustLevel : raw.trustLevel = some ⟨cs.trustLevel.numerator, cs.trustLevel.denominator⟩
  trustingPeriod : ∃ d, raw.trustingPeriod = some d ∧ d.Represents cs.trustingPeriod
  unbondingPeriod : ∃ d, raw.unbondingPeriod = some d ∧ d.Represents cs.unbondingPeriod
  maxClockDrift : ∃ d, raw.maxClockDrift = some d ∧ d.Represents cs.maxClockDrift
  frozenHeight : ∃ h, raw.frozenHeight = some h ∧
    (cs.frozenHeight = none ∧ h.revisionHeight = 0 ∨
      ∃ frozen, cs.frozenHeight = some frozen ∧ h = frozen.raw)
  latestHeight : raw.latestHeight = some cs.latestHeight.raw
  proofSpecs : raw.proofSpecs = cs.proofSpecs
  upgradePath : raw.upgradePath = cs.upgradePath
  allowUpdateAfterExpiry : raw.allowUpdateAfterExpiry = cs.allowUpdateAfterExpiry
  allowUpdateAfterMisbehaviour :
    raw.allowUpdateAfterMisbehaviour = cs.allowUpdateAfterMisbehaviour

structure RawTmConsensusState.Represents (raw : RawTmConsensusState) (cons : TmConsensusState) :
    Prop where
  timestamp : ∃ t, raw.timestamp = some t ∧ t.seconds = cons.timestamp.unixTimestamp ∧
    t.nanos.toInt = cons.timestamp.nanos.toNat
  root : raw.root = some cons.root
  nextValidatorsHash : raw.nextValidatorsHash = cons.nextValidatorsHash.asBytes

/-- Chain ids are plain texts; a message is read as the state it is the message of; what is
read from a message keeps a frozen height whose revision height is not 0; and a latest
height with revision height 0 is refused. -/
structure IbcRs.Lawful (ibc : IbcRs S) : Prop where
  chainId : ∀ cs, ibc.clientValid cs → Plain cs.chainId ∧ cs.chainId.length < 2 ^ 32
  client : ∀ raw cs, ibc.clientValid cs → raw.Represents cs → ibc.clientFromRaw raw = .ok cs
  consensus : ∀ raw cons, ibc.consensusValid cons → raw.Represents cons →
    ibc.consensusFromRaw raw = .ok cons
  frozenHeight : ∀ raw cs h, ibc.clientFromRaw raw = .ok cs → raw.frozenHeight = some h →
    h.revisionHeight ≠ 0 → ∃ frozen, cs.frozenHeight = some frozen ∧ frozen.raw = h
  latestHeight : ∀ raw h, raw.latestHeight = some h → h.revisionHeight = 0 →
    ∃ e, ibc.clientFromRaw raw = .error e

/-! ### The structs of the light client -/

open Tendermint (TendermintClientState TendermintConsensusState)

/-- The fields of the client state as `to_soroban_xdr` writes them. -/
def TmClientState.record (cs : TmClientState S) : TendermintClientState where
  chainId := cs.chainId
  trustLevel := ⟨cs.trustLevel.numerator.toUInt32, cs.trustLevel.denominator.toUInt32⟩
  trustingPeriodSecs := cs.trustingPeriod.secs
  unbondingPeriodSecs := cs.unbondingPeriod.secs
  maxClockDriftSecs := cs.maxClockDrift.secs
  latestHeight := ⟨cs.latestHeight.revisionNumber, cs.latestHeight.revisionHeight⟩
  isFrozen := cs.frozenHeight.isSome
  frozenHeight :=
    match cs.frozenHeight with
    | some h => ⟨h.revisionNumber, h.revisionHeight⟩
    | none => ⟨0, 0⟩
  proofSpecs := []

theorem names_height : FieldNames [ascii "revision_height", ascii "revision_number"] := by
  decide

theorem names_trustLevel : FieldNames [ascii "denominator", ascii "numerator"] := by
  decide

theorem names_client : FieldNames [ascii "chain_id", ascii "frozen_height", ascii "is_frozen",
    ascii "latest_height", ascii "max_clock_drift_secs", ascii "proof_specs",
    ascii "trust_level", ascii "trusting_period_secs", ascii "unbonding_period_secs"] := by
  decide

/-- The same in the order in which they are written. -/
theorem names_client_written : FieldNames [ascii "chain_id", ascii "trust_level",
    ascii "trusting_period_secs", ascii "unbonding_period_secs", ascii "max_clock_drift_secs",
    ascii "latest_height", ascii "is_frozen", ascii "frozen_height", ascii "proof_specs"] := by
  decide

theorem names_consensus :
    FieldNames [ascii "next_validators_hash", ascii "root", ascii "timestamp_secs"] := by
  decide

theorem scvalHeight_eq (revisionNumber revisionHeight : UInt64) :
    scvalHeight revisionNumber revisionHeight =
      .ok (Tendermint.Height.mk revisionNumber revisionHeight).toScVal := by
  rw [scvalHeight, scvalStruct_of_fieldNames]
  · rfl
  · exact names_height.of_perm (List.Perm.swap _ _ _)

theorem scvalStruct_trustLevel (level : Tendermint.TrustThreshold) :
    scvalStruct [(ascii "numerator", .u32 level.numerator),
      (ascii "denominator", .u32 level.denominator)] = .ok level.toScVal := by
  rw [scvalStruct_of_fieldNames]
  · rfl
  · exact names_trustLevel.of_perm (List.Perm.swap _ _ _)

/-- The fields in the order of `to_soroban_xdr`. -/
theorem scvalStruct_client (record : TendermintClientState) :
    scvalStruct [(ascii "chain_id", .string record.chainId),
        (ascii "trust_level", record.trustLevel.toScVal),
        (ascii "trusting_period_secs", .u64 record.trustingPeriodSecs),
        (ascii "unbonding_period_secs", .u64 record.unbondingPeriodSecs),
        (ascii "max_clock_drift_secs", .u64 record.maxClockDriftSecs),
        (ascii "latest_height", record.latestHeight.toScVal),
        (ascii "is_frozen", .bool record.isFrozen),
        (ascii "frozen_height", record.frozenHeight.toScVal),
        (ascii "proof_specs", .bytes record.proofSpecs)] = .ok record.toScVal := by
  rw [scvalStruct_of_fieldNames]
  · rfl
  · exact names_client_written

/-- What the gateway writes is the struct of the light client. -/
theorem toSorobanXdr_client {cs : TmClientState S} (hlength : cs.chainId.length < 2 ^ 32) :
    (AnyClientState.tendermint cs).toSorobanXdr = .ok cs.record.toScVal.toXdr := by
  have hspecs : scvalBytes [] = .ok (.bytes []) := rfl
  have htrust := scvalStruct_trustLevel cs.record.trustLevel
  have hstruct := scvalStruct_client cs.record
  simp only [TmClientState.record] at htrust hstruct
  unfold AnyClientState.toSorobanXdr TmClientState.record
  dsimp only
  rw [htrust, scvalString_of_lt hlength, hspecs]
  cases hfrozen : cs.frozenHeight with
  | none =>
      rw [hfrozen] at hstruct
      simp only [scvalHeight_eq, bind, Except.bind, Option.map_none, Option.getD_none]
      rw [hstruct]
      rfl
  | some h =>
      rw [hfrozen] at hstruct
      simp only [scvalHeight_eq, bind, Except.bind, Option.map_some, Option.getD_some]
      rw [hstruct]
      rfl

/-- The strings of a record on chain have lengths of 32 bits. -/
structure Bounded (record : TendermintClientState) : Prop where
  chainId : record.chainId.length < 2 ^ 32
  proofSpecs : record.proofSpecs.length < 2 ^ 32

theorem fits_height (height : Tendermint.Height) : Fits height.toScVal := by
  refine fits_struct names_height ?_
  rw [List.forall_mem_cons, List.forall_mem_singleton]
  exact ⟨.u64 _, .u64 _⟩

theorem fits_client {record : TendermintClientState} (h : Bounded record) :
    Fits record.toScVal := by
  have htrust : Fits record.trustLevel.toScVal := by
    refine fits_struct names_trustLevel ?_
    rw [List.forall_mem_cons, List.forall_mem_singleton]
    exact ⟨.u32 _, .u32 _⟩
  refine fits_struct names_client ?_
  simp only [List.forall_mem_cons, List.not_mem_nil, false_imp_iff, implies_true, and_true]
  exact ⟨.string h.chainId, fits_height _, .bool _, fits_height _, .u64 _,
    .bytes h.proofSpecs, htrust, .u64 _, .u64 _⟩

variable {xdr : Xdr} {ibc : IbcRs S}

/-- The fields of a height in its map. -/
def heightFields (height : Tendermint.Height) : List (Bytes × ScVal) :=
  [(ascii "revision_height", .u64 height.revisionHeight),
    (ascii "revision_number", .u64 height.revisionNumber)]

def trustFields (level : Tendermint.TrustThreshold) : List (Bytes × ScVal) :=
  [(ascii "denominator", .u32 level.denominator), (ascii "numerator", .u32 level.numerator)]

def clientFields (record : TendermintClientState) : List (Bytes × ScVal) :=
  [(ascii "chain_id", .string record.chainId),
    (ascii "frozen_height", record.frozenHeight.toScVal),
    (ascii "is_frozen", .bool record.isFrozen),
    (ascii "latest_height", record.latestHeight.toScVal),
    (ascii "max_clock_drift_secs", .u64 record.maxClockDriftSecs),
    (ascii "proof_specs", .bytes record.proofSpecs),
    (ascii "trust_level", record.trustLevel.toScVal),
    (ascii "trusting_period_secs", .u64 record.trustingPeriodSecs),
    (ascii "unbonding_period_secs", .u64 record.unbondingPeriodSecs)]

/-- A height that is a field of a struct. -/
theorem scGetHeight_struct (hxdr : xdr.Lawful) {fields : List (Bytes × ScVal)}
    (h : FieldNames (fields.map Prod.fst)) {name : Bytes} {height : Tendermint.Height}
    (hmem : (name, height.toScVal) ∈ fields) :
    scGetHeight xdr (structMap fields) name =
      .ok ⟨height.revisionNumber, height.revisionHeight⟩ := by
  have hnames : FieldNames ((heightFields height).map Prod.fst) := names_height
  have hmap : scvalMapAsMap xdr (structMap fields) name = .ok (structMap (heightFields height)) :=
    scvalMapAs_struct hxdr h hmem rfl
  have hnumber : scvalMapU64 xdr (structMap (heightFields height)) (ascii "revision_number") =
      .ok height.revisionNumber :=
    scvalMapAs_struct hxdr hnames (List.mem_cons_of_mem _ List.mem_cons_self) rfl
  have hheight : scvalMapU64 xdr (structMap (heightFields height)) (ascii "revision_height") =
      .ok height.revisionHeight :=
    scvalMapAs_struct hxdr hnames List.mem_cons_self rfl
  rw [scGetHeight, hmap]
  simp only [bind, Except.bind, hnumber, hheight]
  rfl

/-- The message that `from_soroban_xdr` makes of a record. -/
def rawOfRecord (xdr : Xdr) (ibc : IbcRs S) (record : TendermintClientState) :
    RawTmClientState S where
  chainId := xdr.display record.chainId
  trustLevel := some ⟨record.trustLevel.numerator.toUInt64, record.trustLevel.denominator.toUInt64⟩
  trustingPeriod := some ⟨record.trustingPeriodSecs.toInt64, 0⟩
  unbondingPeriod := some ⟨record.unbondingPeriodSecs.toInt64, 0⟩
  maxClockDrift := some ⟨record.maxClockDriftSecs.toInt64, 0⟩
  frozenHeight := some ⟨record.frozenHeight.revisionNumber, record.frozenHeight.revisionHeight⟩
  latestHeight := some ⟨record.latestHeight.revisionNumber, record.latestHeight.revisionHeight⟩
  proofSpecs := ibc.cosmosSpecs
  upgradePath := [ascii "upgrade", ascii "upgradedIBCState"]
  allowUpdateAfterExpiry := false
  allowUpdateAfterMisbehaviour := false

theorem fromSorobanXdr_record (hxdr : xdr.Lawful) {record : TendermintClientState}
    (hbounded : Bounded record) :
    AnyClientState.fromSorobanXdr xdr ibc record.toScVal.toXdr =
      (withText (ascii "tendermint client state from raw: ")
        (ibc.clientFromRaw (rawOfRecord xdr ibc record))).map .tendermint := by
  have hnames : FieldNames ((clientFields record).map Prod.fst) := names_client
  have hmap : scvalAsMap record.toScVal = some (structMap (clientFields record)) := rfl
  have htrustNames : FieldNames ((trustFields record.trustLevel).map Prod.fst) :=
    names_trustLevel
  have hread : ∀ {α : Type} {as : ScVal → Option α} {kind name : Bytes} {val : ScVal} {value : α}
      (i : Nat), (clientFields record)[i]? = some (name, val) → as val = some value →
      scvalMapAs xdr as kind (structMap (clientFields record)) name = .ok value := by
    intro α as kind name val value i hfield has
    exact scvalMapAs_struct hxdr hnames (List.mem_of_getElem? hfield) has
  have hchainId : scvalMapString xdr _ (ascii "chain_id") = _ := hread 0 rfl rfl
  have hfrozen := @scGetHeight_struct xdr hxdr _ hnames (ascii "frozen_height")
    record.frozenHeight (List.mem_of_getElem? (i := 1) rfl)
  have hlatest := @scGetHeight_struct xdr hxdr _ hnames (ascii "latest_height")
    record.latestHeight (List.mem_of_getElem? (i := 3) rfl)
  have hdrift : scvalMapU64 xdr _ (ascii "max_clock_drift_secs") = _ := hread 4 rfl rfl
  have htrust : scvalMapAsMap xdr _ (ascii "trust_level") =
      .ok (structMap (trustFields record.trustLevel)) :=
    hread 6 rfl rfl
  have htrusting : scvalMapU64 xdr _ (ascii "trusting_period_secs") = _ := hread 7 rfl rfl
  have hunbonding : scvalMapU64 xdr _ (ascii "unbonding_period_secs") = _ := hread 8 rfl rfl
  have hdenominator : scvalMapU32 xdr _ (ascii "denominator") = _ :=
    scvalMapAs_struct hxdr htrustNames (List.mem_of_getElem? (i := 0) rfl) rfl
  have hnumerator : scvalMapU32 xdr _ (ascii "numerator") = _ :=
    scvalMapAs_struct hxdr htrustNames (List.mem_of_getElem? (i := 1) rfl) rfl
  rw [AnyClientState.fromSorobanXdr, scvalFromXdr_toXdr hxdr (fits_client hbounded)]
  simp only [bind, Except.bind, hmap, okOrElse_some, htrust, hfrozen, hchainId, hnumerator,
    hdenominator, htrusting, hunbonding, hdrift, hlatest]
  unfold rawOfRecord
  cases withText (ascii "tendermint client state from raw: ") (ibc.clientFromRaw _) with
  | error e => rfl
  | ok cs => rfl

/-! ### What the encoding keeps -/

/-- Whole seconds, below `2 ^ 63`. -/
structure Duration.Whole (duration : Duration) : Prop where
  secs : duration.secs.toNat < 2 ^ 63
  nanos : duration.nanos = 0

/-- The struct has a place for all of the client state, and reading supplies the rest. -/
structure TmClientState.Encodable (ibc : IbcRs S) (cs : TmClientState S) : Prop where
  trustingPeriod : cs.trustingPeriod.Whole
  unbondingPeriod : cs.unbondingPeriod.Whole
  maxClockDrift : cs.maxClockDrift.Whole
  numerator : cs.trustLevel.numerator.toNat < 2 ^ 32
  denominator : cs.trustLevel.denominator.toNat < 2 ^ 32
  proofSpecs : cs.proofSpecs = ibc.cosmosSpecs
  upgradePath : cs.upgradePath = [ascii "upgrade", ascii "upgradedIBCState"]
  allowUpdateAfterExpiry : cs.allowUpdateAfterExpiry = false
  allowUpdateAfterMisbehaviour : cs.allowUpdateAfterMisbehaviour = false

/-- A whole-second timestamp from the epoch on and hashes of 32 bytes. -/
structure TmConsensusState.Encodable (cons : TmConsensusState) : Prop where
  seconds : 0 ≤ cons.timestamp.unixTimestamp
  nanos : cons.timestamp.nanos = 0
  root : cons.root.length = 32
  nextValidatorsHash : cons.nextValidatorsHash.asBytes.length = 32

theorem Duration.Whole.represents {duration : Duration} (h : duration.Whole) :
    RawSeconds.Represents ⟨duration.secs.toInt64, 0⟩ duration := by
  have hbits : duration.secs.toInt64.toInt = duration.secs.toBitVec.toInt := rfl
  have hnat : duration.secs.toBitVec.toNat = duration.secs.toNat := rfl
  have hsecs := h.secs
  refine ⟨?_, ?_⟩
  · dsimp only
    rw [hbits, BitVec.toInt_eq_toNat_of_lt (by omega), hnat]
  · rw [h.nanos]
    rfl

theorem toUInt64_toUInt32 {n : UInt64} (h : n.toNat < 2 ^ 32) : n.toUInt32.toUInt64 = n := by
  apply UInt64.toNat_inj.mp
  rw [UInt32.toNat_toUInt64, UInt64.toNat_toUInt32]
  exact Nat.mod_eq_of_lt h

theorem represents_record (hxdr : xdr.Lawful) (hibc : ibc.Lawful) {cs : TmClientState S}
    (hvalid : ibc.clientValid cs) (h : cs.Encodable ibc) :
    (rawOfRecord xdr ibc cs.record).Represents cs where
  chainId := hxdr.display_plain _ (hibc.chainId cs hvalid).1
  trustLevel := by
    simp only [rawOfRecord, TmClientState.record, toUInt64_toUInt32 h.numerator,
      toUInt64_toUInt32 h.denominator]
  trustingPeriod := ⟨_, rfl, h.trustingPeriod.represents⟩
  unbondingPeriod := ⟨_, rfl, h.unbondingPeriod.represents⟩
  maxClockDrift := ⟨_, rfl, h.maxClockDrift.represents⟩
  frozenHeight := by
    refine ⟨_, rfl, ?_⟩
    cases hfrozen : cs.frozenHeight with
    | none => exact .inl ⟨rfl, by simp only [TmClientState.record, hfrozen]⟩
    | some frozen =>
        exact .inr ⟨frozen, rfl, by simp only [TmClientState.record, hfrozen, IbcHeight.raw]⟩
  latestHeight := rfl
  proofSpecs := h.proofSpecs.symm
  upgradePath := h.upgradePath.symm
  allowUpdateAfterExpiry := h.allowUpdateAfterExpiry.symm
  allowUpdateAfterMisbehaviour := h.allowUpdateAfterMisbehaviour.symm

theorem client_roundTrip (hxdr : xdr.Lawful) (hibc : ibc.Lawful) {cs : TmClientState S}
    (hvalid : ibc.clientValid cs) (h : cs.Encodable ibc) :
    (AnyClientState.tendermint cs).toSorobanXdr.bind (AnyClientState.fromSorobanXdr xdr ibc) =
      .ok (.tendermint cs) := by
  have hlength := (hibc.chainId cs hvalid).2
  have hbounded : Bounded cs.record := ⟨hlength, Nat.two_pow_pos 32⟩
  have hraw := hibc.client _ cs hvalid (represents_record hxdr hibc hvalid h)
  have hread := @fromSorobanXdr_record S xdr ibc hxdr cs.record hbounded
  rw [hraw] at hread
  rw [toSorobanXdr_client hlength]
  exact hread

/-! ### Consensus states -/

theorem toSorobanXdr_consensus (record : TendermintConsensusState) :
    scvalStruct [(ascii "timestamp_secs", .u64 record.timestampSecs),
      (ascii "next_validators_hash", .bytes record.nextValidatorsHash.val),
      (ascii "root", .bytes record.root.val)] = .ok record.toScVal := by
  rw [scvalStruct_of_fieldNames]
  · rfl
  · exact names_consensus.of_perm (by decide : [ascii "timestamp_secs",
      ascii "next_validators_hash", ascii "root"].Perm [ascii "next_validators_hash",
      ascii "root", ascii "timestamp_secs"])

/-- The fields of a consensus state in its map. -/
def consensusFields (record : TendermintConsensusState) : List (Bytes × ScVal) :=
  [(ascii "next_validators_hash", .bytes record.nextValidatorsHash.val),
    (ascii "root", .bytes record.root.val), (ascii "timestamp_secs", .u64 record.timestampSecs)]

theorem fits_consensus (record : TendermintConsensusState) : Fits record.toScVal := by
  have hhash : ∀ hash : BytesN 32, hash.val.length < 2 ^ 32 := by
    intro hash
    rw [hash.property]
    decide
  refine fits_struct names_consensus ?_
  simp only [List.forall_mem_cons, List.not_mem_nil, false_imp_iff, implies_true, and_true]
  exact ⟨.bytes (hhash _), .bytes (hhash _), .u64 _⟩

theorem fromSorobanXdr_consensus (hxdr : xdr.Lawful) (record : TendermintConsensusState) :
    AnyConsensusState.fromSorobanXdr xdr ibc record.toScVal.toXdr =
      (withText (ascii "tendermint consensus state from raw: ") (ibc.consensusFromRaw
        { timestamp := some ⟨record.timestampSecs.toInt64, 0⟩
          root := some record.root.val
          nextValidatorsHash := record.nextValidatorsHash.val })).map .tendermint := by
  have hnames : FieldNames ((consensusFields record).map Prod.fst) := names_consensus
  have hmap : scvalAsMap record.toScVal = some (structMap (consensusFields record)) := rfl
  have hvalidators : scvalMapBytes xdr _ (ascii "next_validators_hash") = _ :=
    scvalMapAs_struct hxdr hnames (List.mem_of_getElem? (i := 0) rfl) rfl
  have hroot : scvalMapBytes xdr _ (ascii "root") = _ :=
    scvalMapAs_struct hxdr hnames (List.mem_of_getElem? (i := 1) rfl) rfl
  have htimestamp : scvalMapU64 xdr _ (ascii "timestamp_secs") = _ :=
    scvalMapAs_struct hxdr hnames (List.mem_of_getElem? (i := 2) rfl) rfl
  rw [AnyConsensusState.fromSorobanXdr, scvalFromXdr_toXdr hxdr (fits_consensus record)]
  simp only [bind, Except.bind, hmap, okOrElse_some, hvalidators, hroot, htimestamp]
  cases withText (ascii "tendermint consensus state from raw: ") (ibc.consensusFromRaw _) with
  | error e => rfl
  | ok cons => rfl

theorem max_zero_of_nonneg {n : Int64} (h : 0 ≤ n) : max n 0 = n := by
  show (if n ≤ 0 then 0 else n) = n
  split
  · next hle => exact Int64.le_antisymm h hle
  · rfl

theorem consensus_roundTrip (hxdr : xdr.Lawful) (hibc : ibc.Lawful) {cons : TmConsensusState}
    (hvalid : ibc.consensusValid cons) (h : cons.Encodable) :
    (AnyConsensusState.tendermint cons).toSorobanXdr.bind
      (AnyConsensusState.fromSorobanXdr xdr ibc) = .ok (.tendermint cons) := by
  have hseconds := max_zero_of_nonneg h.seconds
  have hbytes : ∀ {b : Bytes}, b.length = 32 → scvalBytes b = .ok (.bytes b) := by
    intro b hlength
    apply scvalBytes_of_lt
    rw [hlength]
    decide
  let record : TendermintConsensusState :=
    ⟨cons.timestamp.unixTimestamp.toUInt64, ⟨_, h.nextValidatorsHash⟩, ⟨_, h.root⟩⟩
  have hwritten : (AnyConsensusState.tendermint cons).toSorobanXdr = .ok record.toScVal.toXdr := by
    have hstruct := toSorobanXdr_consensus record
    unfold AnyConsensusState.toSorobanXdr
    simp only [hseconds, hbytes h.nextValidatorsHash, hbytes h.root, bind, Except.bind]
    rw [hstruct]
    rfl
  have hraw := hibc.consensus
    { timestamp := some ⟨record.timestampSecs.toInt64, 0⟩
      root := some record.root.val
      nextValidatorsHash := record.nextValidatorsHash.val } cons hvalid
    ⟨⟨_, rfl, Int64.toInt64_toUInt64 _, by rw [h.nanos]; rfl⟩, rfl, rfl⟩
  have hread := @fromSorobanXdr_consensus S xdr ibc hxdr record
  rw [hraw] at hread
  rw [hwritten]
  exact hread

/-! ### Frozen on chain -/

/-- What is read of a record whose frozen height is its latest height is not active. -/
theorem frozen_of_record (hxdr : xdr.Lawful) (hibc : ibc.Lawful)
    {record : TendermintClientState} (hbounded : Bounded record)
    (hfrozen : record.frozenHeight = record.latestHeight) {cs : TmClientState S}
    (h : AnyClientState.fromSorobanXdr xdr ibc record.toScVal.toXdr = .ok (.tendermint cs)) :
    cs.frozenHeight ≠ none := by
  rw [fromSorobanXdr_record hxdr hbounded] at h
  cases hraw : ibc.clientFromRaw (rawOfRecord xdr ibc record) with
  | error e =>
      rw [hraw] at h
      cases h
  | ok read =>
      rw [hraw] at h
      cases h
      by_cases hzero : record.latestHeight.revisionHeight = 0
      · -- a latest height of 0 is refused
        obtain ⟨e, herror⟩ := hibc.latestHeight _ _ (rfl : (rawOfRecord xdr ibc record).latestHeight =
          some ⟨_, record.latestHeight.revisionHeight⟩) hzero
        rw [hraw] at herror
        cases herror
      · rw [← hfrozen] at hzero
        obtain ⟨frozen, hsome, -⟩ := hibc.frozenHeight _ _ _ hraw rfl hzero
        rw [hsome]
        exact Option.some_ne_none frozen

def RawSeconds.duration (raw : RawSeconds) : Duration :=
  ⟨UInt64.ofNat raw.seconds.toInt.toNat, UInt32.ofNat raw.nanos.toInt.toNat⟩

def RawHeight.height (raw : RawHeight) : Option IbcHeight :=
  if h : raw.revisionHeight ≠ 0 then some ⟨raw.revisionNumber, raw.revisionHeight, h⟩ else none

/-- The conversions as far as the encoding goes, with one value for the proof specs. -/
def sampleIbc : IbcRs Unit where
  clientValid cs := Plain cs.chainId ∧ cs.chainId.length ≤ 64
  consensusValid _ := True
  cosmosSpecs := ()
  clientFromRaw raw := do
    let trustLevel ← okOrElse (ascii "missing trust level") raw.trustLevel
    let trustingPeriod ← okOrElse (ascii "missing trusting period") raw.trustingPeriod
    let unbondingPeriod ← okOrElse (ascii "missing unbonding period") raw.unbondingPeriod
    let maxClockDrift ← okOrElse (ascii "missing max clock drift") raw.maxClockDrift
    let latestHeight ← okOrElse (ascii "missing latest height")
      (raw.latestHeight.bind RawHeight.height)
    return {
      chainId := raw.chainId
      trustLevel := ⟨trustLevel.numerator, trustLevel.denominator⟩
      trustingPeriod := trustingPeriod.duration
      unbondingPeriod := unbondingPeriod.duration
      maxClockDrift := maxClockDrift.duration
      latestHeight
      proofSpecs := raw.proofSpecs
      upgradePath := raw.upgradePath
      allowUpdateAfterExpiry := raw.allowUpdateAfterExpiry
      allowUpdateAfterMisbehaviour := raw.allowUpdateAfterMisbehaviour
      frozenHeight := raw.frozenHeight.bind RawHeight.height }
  consensusFromRaw raw := do
    let timestamp ← okOrElse (ascii "missing timestamp") raw.timestamp
    let root ← okOrElse (ascii "missing root") raw.root
    let nextValidatorsHash ← okOrElse (ascii "invalid hash")
      (if h : raw.nextValidatorsHash.length = 32 then some (.sha256 ⟨_, h⟩)
        else if raw.nextValidatorsHash = [] then some .none else none)
    return ⟨⟨timestamp.seconds, UInt32.ofNat timestamp.nanos.toInt.toNat⟩, root,
      nextValidatorsHash⟩

theorem RawSeconds.Represents.duration {raw : RawSeconds} {duration : Duration}
    (h : raw.Represents duration) : raw.duration = duration := by
  rw [RawSeconds.duration, h.seconds, h.nanos, Int.toNat_natCast, Int.toNat_natCast,
    UInt64.ofNat_toNat, UInt32.ofNat_toNat]

theorem IbcHeight.height_raw (height : IbcHeight) : height.raw.height = some height :=
  dif_pos height.nonzero

theorem sampleIbc_heights {raw : RawTmClientState Unit} {cs : TmClientState Unit}
    (h : sampleIbc.clientFromRaw raw = .ok cs) :
    raw.latestHeight.bind RawHeight.height = some cs.latestHeight ∧
      cs.frozenHeight = raw.frozenHeight.bind RawHeight.height := by
  simp only [sampleIbc, okOrElse_bind_eq_ok] at h
  obtain ⟨_, -, _, -, _, -, _, -, latestHeight, hlatest, hcs⟩ := h
  cases hcs
  exact ⟨hlatest, rfl⟩

theorem sampleIbc_lawful : sampleIbc.Lawful where
  chainId cs h := ⟨h.1, Nat.lt_of_le_of_lt h.2 (by decide)⟩
  client raw cs _ h := by
    obtain ⟨trusting, htrusting, htrusting'⟩ := h.trustingPeriod
    obtain ⟨unbonding, hunbonding, hunbonding'⟩ := h.unbondingPeriod
    obtain ⟨drift, hdrift, hdrift'⟩ := h.maxClockDrift
    have hlatest : raw.latestHeight.bind RawHeight.height = some cs.latestHeight := by
      rw [h.latestHeight]
      exact cs.latestHeight.height_raw
    have hfrozen : raw.frozenHeight.bind RawHeight.height = cs.frozenHeight := by
      obtain ⟨frozen, hsome, ⟨hnone, hzero⟩ | ⟨height, hheight, rfl⟩⟩ := h.frozenHeight
      · rw [hsome, hnone, Option.bind_some, RawHeight.height, dif_neg (not_not.mpr hzero)]
      · rw [hsome, hheight]
        exact height.height_raw
    simp only [sampleIbc, h.trustLevel, htrusting, hunbonding, hdrift, hlatest, hfrozen,
      okOrElse_some, htrusting'.duration, hunbonding'.duration, hdrift'.duration, h.chainId,
      h.upgradePath, h.allowUpdateAfterExpiry, h.allowUpdateAfterMisbehaviour, bind, Except.bind]
    rfl
  consensus raw cons _ h := by
    obtain ⟨timestamp, htimestamp, hseconds, hnanos⟩ := h.timestamp
    have hhash : (if hlength : raw.nextValidatorsHash.length = 32 then
        some (TmHash.sha256 ⟨_, hlength⟩)
        else if raw.nextValidatorsHash = [] then some .none else none) =
        some cons.nextValidatorsHash := by
      rw [h.nextValidatorsHash]
      cases cons.nextValidatorsHash with
      | sha256 hash => exact dif_pos hash.property
      | none => rfl
    simp only [sampleIbc, htimestamp, h.root, okOrElse_some, hhash, hseconds, hnanos,
      Int.toNat_natCast, UInt32.ofNat_toNat, bind, Except.bind]
    rfl
  frozenHeight raw cs h hread hsome hne := by
    rw [(sampleIbc_heights hread).2, hsome, Option.bind_some, RawHeight.height, dif_pos hne]
    exact ⟨_, rfl, rfl⟩
  latestHeight raw h hsome hzero := by
    have hnone : raw.latestHeight.bind RawHeight.height = none := by
      rw [hsome, Option.bind_some, RawHeight.height, dif_neg (not_not.mpr hzero)]
    cases hread : sampleIbc.clientFromRaw raw with
    | error e => exact ⟨e, rfl⟩
    | ok cs =>
        rw [(sampleIbc_heights hread).1] at hnone
        cases hnone

/-! ### A frozen client -/

def sampleClientState : TmClientState Unit where
  chainId := ascii "testchain-1"
  trustLevel := ⟨1, 3⟩
  trustingPeriod := ⟨1209600, 0⟩
  unbondingPeriod := ⟨1814400, 0⟩
  maxClockDrift := ⟨10, 0⟩
  latestHeight := ⟨1, 42, by decide⟩
  proofSpecs := ()
  upgradePath := [ascii "upgrade", ascii "upgradedIBCState"]
  allowUpdateAfterExpiry := false
  allowUpdateAfterMisbehaviour := false
  frozenHeight := some ⟨0, 1, by decide⟩

def sampleConsensusState : TmConsensusState where
  timestamp := ⟨1700000000, 0⟩
  root := List.replicate 32 7
  nextValidatorsHash := .sha256 (.fill 32 9)

/-- The record of the same client before it was frozen, at the height 0. -/
def sampleRecord : TendermintClientState :=
  { sampleClientState.record with
    isFrozen := false
    latestHeight := ⟨0, 0⟩
    frozenHeight := ⟨0, 0⟩ }

end StellarIbc.Core
