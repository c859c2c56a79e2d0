import StellarIbc.LightClientTypes

/-!
# The light client's store

`contracts/cosmwasm/light-client/src/store.rs`: the contract keeps its states under the
keys that the host chain's wasm module reads, each wrapped in a wasm state inside an
`Any`.  What is set is read back, and setting one entry leaves the others.
-/

namespace StellarIbc.LightClient

open Protobuf

/-- `cosmwasm_std::Storage`. -/
abbrev Storage := Bytes → Option Bytes

def Storage.set (storage : Storage) (key value : Bytes) : Storage :=
  Function.update storage key (some value)

@[simp] theorem Storage.set_self (storage : Storage) (key value : Bytes) :
    storage.set key value key = some value := Function.update_self ..

theorem Storage.set_of_ne {storage : Storage} {key other value : Bytes} (h : other ≠ key) :
    storage.set key value other = storage other := Function.update_of_ne h ..

def CLIENT_STATE_KEY : Bytes := ascii "clientState"

def CHECKSUM_KEY : Bytes := ascii "wasmChecksum"

def WASM_CLIENT_STATE_TYPE_URL : Text :=
  ⟨ascii "/ibc.lightclients.wasm.v1.ClientState", by decide⟩

def WASM_CONSENSUS_STATE_TYPE_URL : Text :=
  ⟨ascii "/ibc.lightclients.wasm.v1.ConsensusState", by decide⟩

def consensusStateKey (height : UInt64) : Bytes :=
  ascii "consensusStates/0-" ++ decimal height.toNat

/-- What is stored of a client state. -/
def ClientState.wrap (clientState : ClientState) (checksum : Bytes) : Any :=
  let wasm : WasmClientState :=
    { data := clientState.encode, checksum, latestHeight := clientState.latestHeight }
  { typeUrl := WASM_CLIENT_STATE_TYPE_URL, value := wasm.encode }

/-- What is stored of a consensus state. -/
def ConsensusState.wrap (consensusState : ConsensusState) : Any :=
  let wasm : WasmConsensusState := { data := consensusState.encode }
  { typeUrl := WASM_CONSENSUS_STATE_TYPE_URL, value := wasm.encode }

namespace Storage

def setChecksum (storage : Storage) (checksum : Bytes) : Storage :=
  if checksum = [] then storage else storage.set CHECKSUM_KEY checksum

def checksum (storage : Storage) : Bytes := (storage CHECKSUM_KEY).getD []

def setClientState (storage : Storage) (clientState : ClientState) : Storage :=
  storage.set CLIENT_STATE_KEY (clientState.wrap storage.checksum).encode

def clientState (storage : Storage) : Option ClientState := do
  let raw ← storage CLIENT_STATE_KEY
  let any ← decode Any.merge raw
  let wasm ← decode WasmClientState.merge any.value
  decode ClientState.merge wasm.data

def setConsensusState (storage : Storage) (height : UInt64)
    (consensusState : ConsensusState) : Storage :=
  storage.set (consensusStateKey height) consensusState.wrap.encode

def consensusState (storage : Storage) (height : UInt64) : Option ConsensusState := do
  let raw ← storage (consensusStateKey height)
  let any ← decode Any.merge raw
  let wasm ← decode WasmConsensusState.merge any.value
  decode ConsensusState.merge wasm.data

end Storage

/-! ### Reading back and frames -/

theorem consensusStateKey_injective {left right : UInt64}
    (h : consensusStateKey left = consensusStateKey right) : left = right :=
  UInt64.toNat_inj.mp (decimal_injective (List.append_cancel_left h))

theorem consensusStateKey_ne_clientStateKey (height : UInt64) :
    consensusStateKey height ≠ CLIENT_STATE_KEY := by
  intro h
  have hsecond := congrArg (fun key => key[1]?) h
  simp [consensusStateKey, CLIENT_STATE_KEY, ascii] at hsecond

theorem consensusStateKey_ne_checksumKey (height : UInt64) :
    consensusStateKey height ≠ CHECKSUM_KEY := by
  intro h
  have hfirst := congrArg List.head? h
  simp [consensusStateKey, CHECKSUM_KEY, ascii] at hfirst

theorem clientStateKey_ne_checksumKey : CLIENT_STATE_KEY ≠ CHECKSUM_KEY := by decide

namespace Storage

variable {storage : Storage}

@[simp] theorem clientState_setConsensusState (height : UInt64) (state : ConsensusState) :
    (storage.setConsensusState height state).clientState = storage.clientState := by
  rw [setConsensusState, clientState, clientState,
    set_of_ne (consensusStateKey_ne_clientStateKey height).symm]

/-- The wasm state around the client state. -/
def envelope (storage : Storage) : Option WasmClientState := do
  let raw ← storage CLIENT_STATE_KEY
  let any ← decode Any.merge raw
  decode WasmClientState.merge any.value

theorem clientState_eq_envelope :
    storage.clientState = storage.envelope.bind fun wasm => decode ClientState.merge wasm.data := by
  unfold clientState envelope
  cases storage CLIENT_STATE_KEY with
  | none => rfl
  | some raw =>
      simp only [Option.bind_eq_bind, Option.bind_some]
      cases decode Any.merge raw <;> rfl

theorem envelope_of_stored {state : ClientState} {checksum : Bytes}
    (h : storage CLIENT_STATE_KEY = some (state.wrap checksum).encode)
    (hsize : (state.wrap checksum).encode.length < 2 ^ 64) :
    storage.envelope = some ⟨state.encode, checksum, state.latestHeight⟩ := by
  have hwasm := Nat.lt_of_le_of_lt (state.wrap checksum).length_value_le hsize
  rw [envelope, h, Option.bind_eq_bind, Option.bind_some, Any.decode_encode hsize,
    Option.bind_eq_bind, Option.bind_some]
  exact WasmClientState.decode_encode hwasm

theorem decode_of_stored {state : ClientState} {checksum : Bytes}
    (hsize : (state.wrap checksum).encode.length < 2 ^ 64) :
    decode ClientState.merge state.encode = some state := by
  have hwasm := Nat.lt_of_le_of_lt (state.wrap checksum).length_value_le hsize
  have hdata := Nat.lt_of_le_of_lt
    (WasmClientState.length_data_le ⟨state.encode, checksum, state.latestHeight⟩) hwasm
  exact ClientState.decode_encode hdata

theorem clientState_of_stored {state : ClientState} {checksum : Bytes}
    (h : storage CLIENT_STATE_KEY = some (state.wrap checksum).encode)
    (hsize : (state.wrap checksum).encode.length < 2 ^ 64) :
    storage.clientState = some state := by
  rw [clientState_eq_envelope, envelope_of_stored h hsize, Option.bind_some]
  exact decode_of_stored hsize

theorem consensusState_of_stored {height : UInt64} {state : ConsensusState}
    (h : storage (consensusStateKey height) = some state.wrap.encode)
    (hsize : state.wrap.encode.length < 2 ^ 64) :
    storage.consensusState height = some state := by
  have hwasm := Nat.lt_of_le_of_lt state.wrap.length_value_le hsize
  have hdata := Nat.lt_of_le_of_lt (WasmConsensusState.length_data_le _) hwasm
  rw [consensusState, h, Option.bind_eq_bind, Option.bind_some,
    Any.decode_encode hsize, Option.bind_eq_bind, Option.bind_some]
  rw [ConsensusState.wrap, WasmConsensusState.decode_encode hwasm]
  exact ConsensusState.decode_encode hdata

theorem consensusState_of_absent {height : UInt64}
    (h : storage (consensusStateKey height) = none) : storage.consensusState height = none := by
  rw [consensusState, h]
  rfl

theorem clientState_setClientState {state : ClientState}
    (hsize : (state.wrap storage.checksum).encode.length < 2 ^ 64) :
    (storage.setClientState state).clientState = some state :=
  clientState_of_stored (set_self ..) hsize

theorem consensusState_setConsensusState {height : UInt64} {state : ConsensusState}
    (hsize : state.wrap.encode.length < 2 ^ 64) :
    (storage.setConsensusState height state).consensusState height = some state :=
  consensusState_of_stored (set_self ..) hsize

end Storage

theorem ConsensusState.length_encode_le (state : ConsensusState) :
    state.encode.length ≤ 60 + state.ledgerHash.length + state.root.length := by
  have hlength := length_encodeRecords_le state.records
  have htimestamp := cost_uint64Record_le 1 state.timestamp
  have hhash := cost_bytesRecord_le 2 state.ledgerHash
  have hroot := cost_bytesRecord_le 3 state.root
  rw [ConsensusState.records, cost_append, cost_append] at hlength
  rw [ConsensusState.encode, ConsensusState.records]
  omega

theorem ConsensusState.length_wrap_le (state : ConsensusState) :
    state.wrap.encode.length ≤ 200 + state.ledgerHash.length + state.root.length := by
  have hstate := state.length_encode_le
  have hwasm : state.wrap.value.length ≤ 20 + state.encode.length :=
    Nat.le_trans (length_encodeRecords_le _) (cost_bytesRecord_le 1 state.encode)
  have hany := length_encodeRecords_le state.wrap.records
  have htype := cost_bytesRecord_le 1 state.wrap.typeUrl.val
  have hvalue := cost_bytesRecord_le 2 state.wrap.value
  have hurl : state.wrap.typeUrl.val.length = 40 := rfl
  rw [Any.records, cost_append] at hany
  rw [Any.encode, Any.records]
  omega

/-! ### Sizes of decoded states

What is stored was decoded from a message before, so its size is bounded by that of the
message. -/

/-- The bytes of a consensus state beyond its timestamp. -/
def ConsensusState.bulk (state : ConsensusState) : Nat :=
  state.ledgerHash.length + state.root.length

theorem ConsensusState.bulk_merge {depth : Nat} {state state' : ConsensusState}
    {record : Record} (h : ConsensusState.merge depth state record = some state') :
    state'.bulk ≤ state.bulk + (20 + record.value.payload) := by
  unfold ConsensusState.merge at h
  unfold ConsensusState.bulk
  split at h
  · obtain ⟨value, -, hstate⟩ := Option.bind_eq_some_iff.mp h
    cases hstate
    dsimp only
    omega
  · obtain ⟨value, hvalue, hstate⟩ := Option.bind_eq_some_iff.mp h
    have hlength := length_of_bytes hvalue
    cases hstate
    dsimp only
    omega
  · obtain ⟨value, hvalue, hstate⟩ := Option.bind_eq_some_iff.mp h
    have hlength := length_of_bytes hvalue
    cases hstate
    dsimp only
    omega
  · cases h
    omega

theorem ConsensusState.bulk_of_decode {bytes : Bytes} {state : ConsensusState}
    (h : decode ConsensusState.merge bytes = some state) : state.bulk ≤ 20 * bytes.length := by
  have hsize := size_le_of_decode ConsensusState.bulk_merge h
  have hdefault : (default : ConsensusState).bulk = 0 := rfl
  omega

/-- The bytes of a header that an update stores. -/
def StellarHeader.bulk (header : StellarHeader) : Nat :=
  header.ledgerHash.length + header.ibcStateRoot.length

theorem StellarHeader.bulk_merge {depth : Nat} {header header' : StellarHeader}
    {record : Record} (h : StellarHeader.merge depth header record = some header') :
    header'.bulk ≤ header.bulk + (20 + record.value.payload) := by
  unfold StellarHeader.merge at h
  unfold StellarHeader.bulk
  split at h
  case h_3 | h_7 =>
    obtain ⟨value, hvalue, hheader⟩ := Option.bind_eq_some_iff.mp h
    have hlength := length_of_bytes hvalue
    cases hheader
    dsimp only
    omega
  case h_9 =>
    cases h
    omega
  all_goals
    obtain ⟨value, -, hheader⟩ := Option.bind_eq_some_iff.mp h
    cases hheader
    dsimp only
    omega

theorem StellarHeader.bulk_of_decode {bytes : Bytes} {header : StellarHeader}
    (h : decode StellarHeader.merge bytes = some header) : header.bulk ≤ 20 * bytes.length := by
  have hsize := size_le_of_decode StellarHeader.bulk_merge h
  have hdefault : (default : StellarHeader).bulk = 0 := rfl
  omega

/-- The bytes of a client state beyond its two heights. -/
def ClientState.bulk (state : ClientState) : Nat :=
  state.chainId.val.length + state.networkId.length +
    (state.trustedValidators.map fun validator => 20 + validator.length).sum +
    (state.proofSpecs.map fun spec => 20 + spec.length).sum

theorem ClientState.bulk_merge {depth : Nat} {state state' : ClientState} {record : Record}
    (h : ClientState.merge depth state record = some state') :
    state'.bulk ≤ state.bulk + (20 + record.value.payload) := by
  unfold ClientState.merge at h
  unfold ClientState.bulk
  split at h
  case h_1 =>
    obtain ⟨value, hvalue, hstate⟩ := Option.bind_eq_some_iff.mp h
    have hlength := length_of_string hvalue
    cases hstate
    dsimp only
    omega
  case h_2 | h_3 =>
    obtain ⟨value, -, hstate⟩ := Option.bind_eq_some_iff.mp h
    cases hstate
    dsimp only
    omega
  case h_4 | h_5 =>
    obtain ⟨value, hvalue, hstate⟩ := Option.bind_eq_some_iff.mp h
    have hlength := length_of_bytes hvalue
    cases hstate
    simp only [List.map_append, List.sum_append, List.map_cons, List.map_nil, List.sum_cons,
      List.sum_nil]
    omega
  case h_6 =>
    obtain ⟨value, hvalue, hstate⟩ := Option.bind_eq_some_iff.mp h
    have hlength := length_of_bytes hvalue
    cases hstate
    dsimp only
    omega
  case h_7 =>
    cases h
    omega

theorem ClientState.bulk_of_decode {bytes : Bytes} {state : ClientState}
    (h : decode ClientState.merge bytes = some state) : state.bulk ≤ 20 * bytes.length := by
  have hsize := size_le_of_decode ClientState.bulk_merge h
  have hdefault : (default : ClientState).bulk = 0 := rfl
  omega

theorem Height.cost_records_le (height : Height) : cost height.records ≤ 40 := by
  have hnumber := cost_uint64Record_le 1 height.revisionNumber
  have hheight := cost_uint64Record_le 2 height.revisionHeight
  rw [Height.records, cost_append]
  omega

theorem cost_optionalHeight_le (tag : Nat) (height : Option Height) :
    cost (optionalRecord tag (height.map Height.records)) ≤ 20 + 40 := by
  apply cost_optionalRecord_le
  intro records hrecords
  obtain ⟨value, -, rfl⟩ := Option.map_eq_some_iff.mp hrecords
  exact value.cost_records_le

theorem ClientState.length_encode_le (state : ClientState) :
    state.encode.length ≤ 160 + state.bulk := by
  have hlength := length_encodeRecords_le state.records
  have hchain := cost_bytesRecord_le 1 state.chainId.val
  have hlatest := cost_optionalHeight_le 2 state.latestHeight
  have hfrozen := cost_optionalHeight_le 3 state.frozenHeight
  have hvalidators := cost_repeatedBytesRecords 4 state.trustedValidators
  have hspecs := cost_repeatedBytesRecords 5 state.proofSpecs
  have hnetwork := cost_bytesRecord_le 6 state.networkId
  rw [ClientState.records] at hlength
  simp only [cost_append] at hlength
  rw [ClientState.encode, ClientState.records, ClientState.bulk]
  omega

theorem ClientState.length_wrap_le (state : ClientState) (checksum : Bytes) :
    (state.wrap checksum).encode.length ≤ 400 + state.bulk + checksum.length := by
  have hstate := state.length_encode_le
  have hwasm : (state.wrap checksum).value.length ≤
      100 + state.encode.length + checksum.length := by
    have hlength := length_encodeRecords_le
      (WasmClientState.mk state.encode checksum state.latestHeight).records
    have hdata := cost_bytesRecord_le 1 state.encode
    have hchecksum := cost_bytesRecord_le 2 checksum
    have hlatest := cost_optionalHeight_le 3 state.latestHeight
    rw [WasmClientState.records] at hlength
    simp only [cost_append] at hlength
    rw [ClientState.wrap, WasmClientState.encode, WasmClientState.records]
    dsimp only at hlength ⊢
    omega
  have hany := length_encodeRecords_le (state.wrap checksum).records
  have htype := cost_bytesRecord_le 1 (state.wrap checksum).typeUrl.val
  have hvalue := cost_bytesRecord_le 2 (state.wrap checksum).value
  have hurl : (state.wrap checksum).typeUrl.val.length = 37 := rfl
  rw [Any.records, cost_append] at hany
  rw [Any.encode, Any.records]
  omega

/-! ### A stored client -/

def sampleClientState : ClientState :=
  { chainId := ⟨ascii "stellar-testnet", by decide⟩
    latestHeight := some ⟨0, 7⟩
    frozenHeight := none
    trustedValidators := [List.replicate 32 1]
    proofSpecs := []
    networkId := List.replicate 32 2 }

/-- The sample client with `root` at height 7. -/
def sampleStorage (root : Hash) : Storage :=
  Storage.setConsensusState (Storage.setClientState (fun _ => none) sampleClientState) 7
    { timestamp := 1700000000, ledgerHash := List.replicate 32 3, root := root.val }

theorem sampleStorage_clientState (root : Hash) :
    (sampleStorage root).clientState = some sampleClientState := by
  rw [sampleStorage, Storage.clientState_setConsensusState]
  exact Storage.clientState_setClientState (by decide +kernel)

theorem sampleStorage_consensusState (root : Hash) :
    (sampleStorage root).consensusState 7 =
      some { timestamp := 1700000000, ledgerHash := List.replicate 32 3, root := root.val } := by
  apply Storage.consensusState_setConsensusState
  apply Nat.lt_of_le_of_lt (ConsensusState.length_wrap_le _)
  simp [root.property]

end StellarIbc.LightClient
