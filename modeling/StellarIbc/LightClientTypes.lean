import StellarIbc.ProtobufWire

/-!
# The light client's protobuf messages

`contracts/cosmwasm/light-client/src/types.rs`: the messages the contract stores and the
header it is updated with, with the errors of `error.rs`.  For each message `merge` reads
one record into a value and `records` lists what `encode` writes.  Decoding an encoding
gives the value back.
-/

namespace StellarIbc.LightClient

open Protobuf

structure Height where
  revisionNumber : UInt64
  revisionHeight : UInt64
deriving DecidableEq, Inhabited, Repr

structure ScpEnvelope where
  nodeId : Bytes
  statementXdr : Bytes
  signature : Bytes
deriving DecidableEq, Inhabited, Repr

structure ClientState where
  chainId : Text
  latestHeight : Option Height
  frozenHeight : Option Height
  trustedValidators : List Bytes
  proofSpecs : List Bytes
  networkId : Bytes
deriving DecidableEq, Inhabited

structure ConsensusState where
  timestamp : UInt64
  ledgerHash : Bytes
  root : Bytes
deriving DecidableEq, Inhabited, Repr

structure StellarHeader where
  ledgerSeq : UInt64
  ledgerHeaderXdr : Bytes
  ibcStateRoot : Bytes
  scpEnvelopes : List ScpEnvelope
  trustedHeight : Option Height
  timestamp : UInt64
  ledgerHash : Bytes
  previousLedgerHash : Bytes
deriving DecidableEq, Inhabited, Repr

structure Any where
  typeUrl : Text
  value : Bytes
deriving DecidableEq, Inhabited

structure WasmClientState where
  data : Bytes
  checksum : Bytes
  latestHeight : Option Height
deriving DecidableEq, Inhabited, Repr

structure WasmConsensusState where
  data : Bytes
deriving DecidableEq, Inhabited, Repr

/-- Texts that name a field are kept; what `prost` adds to them is not. -/
inductive ContractError where
  | alreadyInitialised
  | notInitialised
  | frozen (height : UInt64)
  | invalidWire (field : String)
  | consensusStateMissing (height : UInt64)
  | nonAdvancingHeight (trusted target : UInt64)
  | consensusStateConflict (height : UInt64)
  | quorumNotMet (envelopes matched : Nat) (rawOk hashOk : Bool) (signer networkId : Bytes)
      (statementLen : Nat)
  | networkIdMissing
  | scpSignatureError (text : String)
  | merkleVerificationFailed
  | membershipMismatch (keyMatch valueMatch : Bool) (siblings : Nat) (height : UInt64)
      (reqKey proofKey : Bytes) (valueLen proofValueLen : Nat) (storedRoot computedRoot : Bytes)
deriving DecidableEq, Repr

/-! ### Reading -/

def Height.merge : Merge Height := fun _ height record =>
  match record.tag with
  | 1 => do return { height with revisionNumber := ← record.value.uint64 }
  | 2 => do return { height with revisionHeight := ← record.value.uint64 }
  | _ => some height

def ScpEnvelope.merge : Merge ScpEnvelope := fun _ envelope record =>
  match record.tag with
  | 1 => do return { envelope with nodeId := ← record.value.bytes }
  | 2 => do return { envelope with statementXdr := ← record.value.bytes }
  | 3 => do return { envelope with signature := ← record.value.bytes }
  | _ => some envelope

/-- An optional embedded height. -/
def mergeHeight (depth : Nat) (field : Option Height) (value : Value) : Option Height :=
  value.message Height.merge depth (field.getD default)

def ClientState.merge : Merge ClientState := fun depth state record =>
  match record.tag with
  | 1 => do return { state with chainId := ← record.value.string }
  | 2 => do
      return { state with latestHeight := some (← mergeHeight depth state.latestHeight record.value) }
  | 3 => do
      return { state with frozenHeight := some (← mergeHeight depth state.frozenHeight record.value) }
  | 4 => do
      return { state with trustedValidators := state.trustedValidators ++ [← record.value.bytes] }
  | 5 => do return { state with proofSpecs := state.proofSpecs ++ [← record.value.bytes] }
  | 6 => do return { state with networkId := ← record.value.bytes }
  | _ => some state

def ConsensusState.merge : Merge ConsensusState := fun _ state record =>
  match record.tag with
  | 1 => do return { state with timestamp := ← record.value.uint64 }
  | 2 => do return { state with ledgerHash := ← record.value.bytes }
  | 3 => do return { state with root := ← record.value.bytes }
  | _ => some state

def StellarHeader.merge : Merge StellarHeader := fun depth header record =>
  match record.tag with
  | 1 => do return { header with ledgerSeq := ← record.value.uint64 }
  | 2 => do return { header with ledgerHeaderXdr := ← record.value.bytes }
  | 3 => do return { header with ibcStateRoot := ← record.value.bytes }
  | 4 => do
      let envelope ← record.value.message ScpEnvelope.merge depth default
      return { header with scpEnvelopes := header.scpEnvelopes ++ [envelope] }
  | 5 => do
      return { header with
        trustedHeight := some (← mergeHeight depth header.trustedHeight record.value) }
  | 6 => do return { header with timestamp := ← record.value.uint64 }
  | 7 => do return { header with ledgerHash := ← record.value.bytes }
  | 8 => do return { header with previousLedgerHash := ← record.value.bytes }
  | _ => some header

def Any.merge : Merge Any := fun _ any record =>
  match record.tag with
  | 1 => do return { any with typeUrl := ← record.value.string }
  | 2 => do return { any with value := ← record.value.bytes }
  | _ => some any

def WasmClientState.merge : Merge WasmClientState := fun depth state record =>
  match record.tag with
  | 1 => do return { state with data := ← record.value.bytes }
  | 2 => do return { state with checksum := ← record.value.bytes }
  | 3 => do
      return { state with latestHeight := some (← mergeHeight depth state.latestHeight record.value) }
  | _ => some state

def WasmConsensusState.merge : Merge WasmConsensusState := fun _ state record =>
  match record.tag with
  | 1 => do return { state with data := ← record.value.bytes }
  | _ => some state

/-! ### Writing -/

def Height.records (height : Height) : List Record :=
  uint64Record 1 height.revisionNumber ++ uint64Record 2 height.revisionHeight

def ClientState.records (state : ClientState) : List Record :=
  bytesRecord 1 state.chainId.val ++
    (optionalRecord 2 (state.latestHeight.map Height.records) ++
      (optionalRecord 3 (state.frozenHeight.map Height.records) ++
        (repeatedBytesRecords 4 state.trustedValidators ++
          (repeatedBytesRecords 5 state.proofSpecs ++ bytesRecord 6 state.networkId))))

def ClientState.encode (state : ClientState) : Bytes := encodeRecords state.records

def ConsensusState.records (state : ConsensusState) : List Record :=
  uint64Record 1 state.timestamp ++ (bytesRecord 2 state.ledgerHash ++ bytesRecord 3 state.root)

def ConsensusState.encode (state : ConsensusState) : Bytes := encodeRecords state.records

def Any.records (any : Any) : List Record :=
  bytesRecord 1 any.typeUrl.val ++ bytesRecord 2 any.value

def Any.encode (any : Any) : Bytes := encodeRecords any.records

def WasmClientState.records (state : WasmClientState) : List Record :=
  bytesRecord 1 state.data ++
    (bytesRecord 2 state.checksum ++ optionalRecord 3 (state.latestHeight.map Height.records))

def WasmClientState.encode (state : WasmClientState) : Bytes := encodeRecords state.records

def WasmConsensusState.encode (state : WasmConsensusState) : Bytes :=
  encodeRecords (bytesRecord 1 state.data)

/-! ### Reading back what was written -/

theorem Height.plain_records (height : Height) : ∀ record ∈ height.records, record.Plain := by
  intro record hrecord
  rcases List.mem_append.mp hrecord with hrecord | hrecord
  · exact plain_uint64Record (by norm_num) _ record hrecord
  · exact plain_uint64Record (by norm_num) _ record hrecord

theorem Height.foldlM_records (height : Height) (depth : Nat) :
    height.records.foldlM (Height.merge depth) default = some height := by
  unfold Height.records
  refine foldlM_append_of_eq
    (foldlM_uint64Record (fun n => ⟨n, 0⟩) (fun _ => rfl) rfl rfl) ?_
  exact foldlM_uint64Record (fun n => ⟨height.revisionNumber, n⟩) (fun _ => rfl) rfl rfl

theorem Height.length_encodeRecords_lt (height : Height) :
    (encodeRecords height.records).length < 2 ^ 64 := by
  have hlength := length_encodeRecords_le height.records
  have hnumber := cost_uint64Record_le 1 height.revisionNumber
  have hheight := cost_uint64Record_le 2 height.revisionHeight
  rw [Height.records, cost_append] at hlength
  rw [Height.records]
  omega

theorem mergeHeight_messageRecord (height : Height) (depth tag : Nat) :
    mergeHeight (depth + 1) none (messageRecord tag height.records).value = some height := by
  rw [mergeHeight, message_messageRecord height.plain_records height.length_encodeRecords_lt]
  exact height.foldlM_records depth

theorem ConsensusState.plain_records (state : ConsensusState) :
    ∀ record ∈ state.records, record.Plain := by
  intro record hrecord
  simp only [ConsensusState.records, List.mem_append] at hrecord
  rcases hrecord with hrecord | hrecord | hrecord
  · exact plain_uint64Record (by norm_num) _ record hrecord
  · exact plain_bytesRecord (by norm_num) _ record hrecord
  · exact plain_bytesRecord (by norm_num) _ record hrecord

theorem ConsensusState.decode_encode {state : ConsensusState}
    (hsize : state.encode.length < 2 ^ 64) :
    decode ConsensusState.merge state.encode = some state := by
  rw [decode, ConsensusState.encode, mergeInto_encodeRecords state.plain_records hsize]
  unfold ConsensusState.records
  refine foldlM_append_of_eq
    (foldlM_uint64Record (fun n => ⟨n, [], []⟩) (fun _ => rfl) rfl rfl) ?_
  refine foldlM_append_of_eq
    (foldlM_bytesRecord (fun b => ⟨state.timestamp, b, []⟩) (fun _ => rfl) rfl rfl) ?_
  exact foldlM_bytesRecord (fun b => ⟨state.timestamp, state.ledgerHash, b⟩) (fun _ => rfl) rfl rfl

theorem WasmConsensusState.decode_encode {state : WasmConsensusState}
    (hsize : state.encode.length < 2 ^ 64) :
    decode WasmConsensusState.merge state.encode = some state := by
  refine (mergeInto_encodeRecords (plain_bytesRecord (by norm_num) _) hsize).trans ?_
  exact foldlM_bytesRecord (fun b => ⟨b⟩) (fun _ => rfl) rfl rfl

theorem WasmConsensusState.length_data_le (state : WasmConsensusState) :
    state.data.length ≤ state.encode.length :=
  length_le_of_bytesRecord (List.Subset.refl _)

theorem Any.plain_records (any : Any) : ∀ record ∈ any.records, record.Plain := by
  intro record hrecord
  rcases List.mem_append.mp hrecord with hrecord | hrecord
  · exact plain_bytesRecord (by norm_num) _ record hrecord
  · exact plain_bytesRecord (by norm_num) _ record hrecord

theorem Any.decode_encode {any : Any} (hsize : any.encode.length < 2 ^ 64) :
    decode Any.merge any.encode = some any := by
  rw [decode, Any.encode, mergeInto_encodeRecords any.plain_records hsize]
  unfold Any.records
  refine foldlM_append_of_eq
    (foldlM_textRecord (fun text => ⟨text, []⟩) (fun text => ?_) rfl rfl) ?_
  · simp only [Any.merge, string_val]
    rfl
  · exact foldlM_bytesRecord (fun b => ⟨any.typeUrl, b⟩) (fun _ => rfl) rfl rfl

theorem Any.length_value_le (any : Any) : any.value.length ≤ any.encode.length :=
  length_le_of_bytesRecord (List.subset_append_right _ _)

theorem WasmClientState.plain_records (state : WasmClientState) :
    ∀ record ∈ state.records, record.Plain := by
  intro record hrecord
  simp only [WasmClientState.records, List.mem_append] at hrecord
  rcases hrecord with hrecord | hrecord | hrecord
  · exact plain_bytesRecord (by norm_num) _ record hrecord
  · exact plain_bytesRecord (by norm_num) _ record hrecord
  · exact plain_optionalRecord (by norm_num) _ record hrecord

theorem WasmClientState.decode_encode {state : WasmClientState}
    (hsize : state.encode.length < 2 ^ 64) :
    decode WasmClientState.merge state.encode = some state := by
  rw [decode, WasmClientState.encode, mergeInto_encodeRecords state.plain_records hsize]
  unfold WasmClientState.records
  refine foldlM_append_of_eq
    (foldlM_bytesRecord (fun b => ⟨b, [], none⟩) (fun _ => rfl) rfl rfl) ?_
  refine foldlM_append_of_eq
    (foldlM_bytesRecord (fun b => ⟨state.data, b, none⟩) (fun _ => rfl) rfl rfl) ?_
  refine foldlM_optionalRecord (fun h => ⟨state.data, state.checksum, h⟩) ?_ rfl rfl
  intro height _
  have hheight := mergeHeight_messageRecord height 99 3
  simp [WasmClientState.merge, RECURSION_LIMIT, hheight, messageRecord_tag]

theorem WasmClientState.length_data_le (state : WasmClientState) :
    state.data.length ≤ state.encode.length :=
  length_le_of_bytesRecord (List.subset_append_left _ _)

theorem ClientState.plain_records (state : ClientState) :
    ∀ record ∈ state.records, record.Plain := by
  intro record hrecord
  simp only [ClientState.records, List.mem_append] at hrecord
  rcases hrecord with hrecord | hrecord | hrecord | hrecord | hrecord | hrecord
  · exact plain_bytesRecord (by norm_num) _ record hrecord
  · exact plain_optionalRecord (by norm_num) _ record hrecord
  · exact plain_optionalRecord (by norm_num) _ record hrecord
  · exact plain_repeatedBytesRecords (by norm_num) _ record hrecord
  · exact plain_repeatedBytesRecords (by norm_num) _ record hrecord
  · exact plain_bytesRecord (by norm_num) _ record hrecord

theorem ClientState.decode_encode {state : ClientState} (hsize : state.encode.length < 2 ^ 64) :
    decode ClientState.merge state.encode = some state := by
  rw [decode, ClientState.encode, mergeInto_encodeRecords state.plain_records hsize]
  obtain ⟨chainId, latest, frozen, validators, specs, network⟩ := state
  unfold ClientState.records
  refine foldlM_append_of_eq (foldlM_textRecord
    (fun text => ⟨text, none, none, [], [], []⟩) (fun text => ?_) rfl rfl) ?_
  · simp only [ClientState.merge, string_val]
    rfl
  refine foldlM_append_of_eq (foldlM_optionalRecord
    (fun h => ⟨chainId, h, none, [], [], []⟩) (fun height _ => ?_) rfl rfl) ?_
  · have hheight := mergeHeight_messageRecord height 99 2
    simp [ClientState.merge, RECURSION_LIMIT, hheight, messageRecord_tag]
  refine foldlM_append_of_eq (foldlM_optionalRecord
    (fun h => ⟨chainId, latest, h, [], [], []⟩) (fun height _ => ?_) rfl rfl) ?_
  · have hheight := mergeHeight_messageRecord height 99 3
    simp [ClientState.merge, RECURSION_LIMIT, hheight, messageRecord_tag]
  refine foldlM_append_of_eq (foldlM_repeatedBytesRecords
    (fun b => ⟨chainId, latest, frozen, b, [], []⟩) (fun _ _ => rfl) rfl rfl) ?_
  refine foldlM_append_of_eq (foldlM_repeatedBytesRecords
    (fun b => ⟨chainId, latest, frozen, validators, b, []⟩) (fun _ _ => rfl) rfl rfl) ?_
  exact foldlM_bytesRecord
    (fun b => ⟨chainId, latest, frozen, validators, specs, b⟩) (fun _ => rfl) rfl rfl

end StellarIbc.LightClient
