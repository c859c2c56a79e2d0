import StellarIbc.LightClientHistory

/-!
# Orders that do not matter to the Stellar light client

The check of a header's envelopes looks for one good envelope, so neither their order nor
further ones matter.  Updates that succeed in some order leave what any other successful
order leaves, and an update that was accepted once never changes the storage again.  Both
are about any storage whose values the contract can read, not only those of a run.
-/

namespace StellarIbc.LightClient

open Protobuf Fallible

variable {api : Api} {first last storage : Storage} {state : ClientState}
variable {header : StellarHeader} {headers : List StellarHeader}

/-! ### Envelopes -/

theorem verifyScpQuorum_mono {api : Api} {cs : ClientState} {envelopes more : List ScpEnvelope}
    (hsubset : envelopes ⊆ more) (h : verifyScpQuorum api cs envelopes = .ok ()) :
    verifyScpQuorum api cs more = .ok () := by
  obtain ⟨hwidth, env, hmem, hsigned⟩ := verifyScpQuorum_eq_ok.mp h
  exact verifyScpQuorum_eq_ok.mpr ⟨hwidth, env, hsubset hmem, hsigned⟩

/-- **One good envelope decides.**  The check passes for a network id of 32 bytes and an
envelope of a trusted validator whose signature verifies over the preimage or over its
hash.  So the order of the envelopes does not matter, and more of them never hurt. -/
theorem scpQuorum_exact (api : Api) (cs : ClientState) (envelopes : List ScpEnvelope) :
    (verifyScpQuorum api cs envelopes = .ok () ↔
      cs.networkId.length = 32 ∧ ∃ env ∈ envelopes,
        env.nodeId.length = 32 ∧ env.nodeId ∈ cs.trustedValidators ∧
        env.signature.length = 64 ∧ env.statementXdr ≠ [] ∧
        (api.ed25519Verify (cs.networkId ++ [0, 0, 0, 4] ++ env.statementXdr)
            env.signature env.nodeId = some true ∨
          api.ed25519Verify
            (api.sha256 (cs.networkId ++ [0, 0, 0, 4] ++ env.statementXdr)).val
            env.signature env.nodeId = some true)) ∧
    (∀ other, envelopes.Perm other →
      (verifyScpQuorum api cs envelopes = .ok () ↔ verifyScpQuorum api cs other = .ok ())) ∧
    ∀ more, envelopes ⊆ more →
      verifyScpQuorum api cs envelopes = .ok () → verifyScpQuorum api cs more = .ok () := by
  have hverifies : ∀ message (env : ScpEnvelope), api.verifies message env = true ↔
      api.ed25519Verify message env.signature env.nodeId = some true := by
    intro message env
    unfold Api.verifies
    cases api.ed25519Verify message env.signature env.nodeId <;> simp
  refine ⟨?_, ?_, ?_⟩
  · rw [verifyScpQuorum_eq_ok]
    apply and_congr_right
    intro _
    apply exists_congr
    intro env
    apply and_congr_right
    intro _
    unfold ScpEnvelope.Signed ScpEnvelope.trusted
    rw [hverifies, hverifies]
    constructor
    · rintro ⟨⟨hnode, hsignature, htrusted⟩, hstatement, hvalid⟩
      exact ⟨hnode, htrusted, hsignature, hstatement, hvalid⟩
    · rintro ⟨hnode, htrusted, hsignature, hstatement, hvalid⟩
      exact ⟨⟨hnode, hsignature, htrusted⟩, hstatement, hvalid⟩
  · intro other hperm
    exact ⟨verifyScpQuorum_mono hperm.subset, verifyScpQuorum_mono hperm.symm.subset⟩
  · intro more hsubset
    exact verifyScpQuorum_mono hsubset

/-- The validator's envelope behind one of a stranger. -/
theorem scpQuorum_exact_validator :
    verifyScpQuorum validatorApi validatedState
      [{ validatorEnvelope with nodeId := List.replicate 32 1 }, validatorEnvelope] = .ok () := by
  have halone : verifyScpQuorum validatorApi validatedState [validatorEnvelope] = .ok () := by
    apply (scpQuorum_exact validatorApi validatedState [validatorEnvelope]).1.mpr
    refine ⟨rfl, validatorEnvelope, List.mem_singleton_self _, rfl, by decide, rfl, by decide, ?_⟩
    exact .inl (by decide)
  have hsubset : [validatorEnvelope] ⊆
      [{ validatorEnvelope with nodeId := List.replicate 32 1 }, validatorEnvelope] := by
    simp
  exact (scpQuorum_exact validatorApi validatedState [validatorEnvelope]).2.2 _ hsubset halone

/-! ### Storages that can be read

A value that the contract reads has to fit the memory of the 32-bit wasm machine.  What it
decodes to is small enough to be written and read again. -/

def Storage.Fits (storage : Storage) : Prop :=
  ∀ key value, storage key = some value → value.length < 2 ^ 32

/-- The size of what a stored client state decodes to, through its two wrappings. -/
def STORED_BULK : Nat := 20 * (20 * (20 * 2 ^ 32))

/-- The stored client state is `state`, and it can be written back. -/
structure Storage.Live (storage : Storage) (state : ClientState) : Prop where
  stored : storage.clientState = some state
  bulk : state.bulk ≤ STORED_BULK
  checksum : storage.checksum.length ≤ STORED_BULK

theorem Any.length_value_of_decode {bytes : Bytes} {any : Any}
    (h : decode Any.merge bytes = some any) : any.value.length ≤ 20 * bytes.length := by
  have hmerge : ∀ {depth : Nat} {any any' : Any} {record : Record},
      Any.merge depth any record = some any' →
        any'.value.length ≤ any.value.length + (20 + record.value.payload) := by
    intro depth any any' record h
    unfold Any.merge at h
    split at h
    · obtain ⟨value, -, hany⟩ := Option.bind_eq_some_iff.mp h
      cases hany
      dsimp only
      omega
    · obtain ⟨value, hvalue, hany⟩ := Option.bind_eq_some_iff.mp h
      have hlength := length_of_bytes hvalue
      cases hany
      dsimp only
      omega
    · cases h
      omega
  have hsize := @size_le_of_decode Any _ Any.merge (fun any => any.value.length) hmerge bytes any h
  have hdefault : (default : Any).value.length = 0 := rfl
  omega

theorem WasmClientState.length_data_of_decode {bytes : Bytes} {wasm : WasmClientState}
    (h : decode WasmClientState.merge bytes = some wasm) :
    wasm.data.length ≤ 20 * bytes.length := by
  have hmerge : ∀ {depth : Nat} {wasm wasm' : WasmClientState} {record : Record},
      WasmClientState.merge depth wasm record = some wasm' →
        wasm'.data.length ≤ wasm.data.length + (20 + record.value.payload) := by
    intro depth wasm wasm' record h
    unfold WasmClientState.merge at h
    split at h
    · obtain ⟨value, hvalue, hwasm⟩ := Option.bind_eq_some_iff.mp h
      have hlength := length_of_bytes hvalue
      cases hwasm
      dsimp only
      omega
    · obtain ⟨value, -, hwasm⟩ := Option.bind_eq_some_iff.mp h
      cases hwasm
      dsimp only
      omega
    · obtain ⟨value, -, hwasm⟩ := Option.bind_eq_some_iff.mp h
      cases hwasm
      dsimp only
      omega
    · cases h
      omega
  have hsize := @size_le_of_decode WasmClientState _ WasmClientState.merge
    (fun wasm => wasm.data.length) hmerge bytes wasm h
  have hdefault : (default : WasmClientState).data.length = 0 := rfl
  omega

theorem Storage.Fits.live (hfits : storage.Fits) (h : storage.clientState = some state) :
    storage.Live state := by
  refine ⟨h, ?_, ?_⟩
  · unfold Storage.clientState at h
    obtain ⟨raw, hraw, h⟩ := Option.bind_eq_some_iff.mp h
    obtain ⟨any, hany, h⟩ := Option.bind_eq_some_iff.mp h
    obtain ⟨wasm, hwasm, hstate⟩ := Option.bind_eq_some_iff.mp h
    have hlength := hfits _ _ hraw
    have hvalue := Any.length_value_of_decode hany
    have hdata := WasmClientState.length_data_of_decode hwasm
    have hbulk := ClientState.bulk_of_decode hstate
    unfold STORED_BULK
    omega
  · unfold Storage.checksum
    cases hchecksum : storage CHECKSUM_KEY with
    | none => exact Nat.zero_le _
    | some checksum =>
        have hlength := hfits _ _ hchecksum
        rw [Option.getD_some]
        unfold STORED_BULK
        omega

theorem length_wrap_stored {checksum : Bytes} (hstate : state.bulk ≤ STORED_BULK)
    (hchecksum : checksum.length ≤ STORED_BULK) :
    (state.wrap checksum).encode.length < 2 ^ 64 := by
  have hlength := state.length_wrap_le checksum
  unfold STORED_BULK at hstate hchecksum
  omega

/-- A client state of the same size can be written and read back. -/
theorem Storage.Live.setClientState (h : storage.Live state) {state' : ClientState}
    (hbulk : state'.bulk = state.bulk) : (storage.setClientState state').Live state' := by
  have hsmall : state'.bulk ≤ STORED_BULK := hbulk ▸ h.bulk
  have hchecksum : (storage.setClientState state').checksum = storage.checksum := by
    unfold Storage.checksum Storage.setClientState
    rw [Storage.set_of_ne clientStateKey_ne_checksumKey.symm]
  refine ⟨Storage.clientState_setClientState (length_wrap_stored hsmall h.checksum), hsmall, ?_⟩
  rw [hchecksum]
  exact h.checksum

theorem Storage.checksum_setConsensusState (storage : Storage) (height : UInt64)
    (consensus : ConsensusState) :
    (storage.setConsensusState height consensus).checksum = storage.checksum := by
  unfold Storage.checksum Storage.setConsensusState
  rw [Storage.set_of_ne (consensusStateKey_ne_checksumKey height).symm]

theorem Storage.Live.setConsensusState (h : storage.Live state) (height : UInt64)
    (consensus : ConsensusState) : (storage.setConsensusState height consensus).Live state := by
  refine ⟨?_, h.bulk, ?_⟩
  · rw [Storage.clientState_setConsensusState]
    exact h.stored
  · rw [Storage.checksum_setConsensusState]
    exact h.checksum

/-! ### What one update writes -/

theorem Storage.writeHeader_eq (storage : Storage) (state : ClientState)
    (header : StellarHeader) :
    storage.writeHeader state header =
      if state.latest < header.ledgerSeq then
        (storage.setConsensusState header.ledgerSeq header.consensusState).setClientState
          { state with latestHeight := some ⟨0, header.ledgerSeq⟩ }
      else storage.setConsensusState header.ledgerSeq header.consensusState := rfl

theorem Storage.writeHeader_consensus (storage : Storage) (state : ClientState)
    (header : StellarHeader) (height : UInt64) :
    storage.writeHeader state header (consensusStateKey height) =
      if height = header.ledgerSeq then some header.consensusState.wrap.encode
      else storage (consensusStateKey height) := by
  have hstored : storage.setConsensusState header.ledgerSeq header.consensusState
      (consensusStateKey height) =
      if height = header.ledgerSeq then some header.consensusState.wrap.encode
      else storage (consensusStateKey height) := by
    unfold Storage.setConsensusState
    by_cases hheight : height = header.ledgerSeq
    · rw [if_pos hheight, hheight, Storage.set_self]
    · rw [if_neg hheight,
        Storage.set_of_ne fun hkey => hheight (consensusStateKey_injective hkey)]
  rw [← hstored, Storage.writeHeader_eq]
  split
  · exact Storage.set_of_ne (consensusStateKey_ne_clientStateKey height)
  · rfl

theorem Storage.writeHeader_client (storage : Storage) (state : ClientState)
    (header : StellarHeader) :
    storage.writeHeader state header CLIENT_STATE_KEY =
      if state.latest < header.ledgerSeq then
        some (({ state with latestHeight := some ⟨0, header.ledgerSeq⟩ } : ClientState).wrap
          storage.checksum).encode
      else storage CLIENT_STATE_KEY := by
  have hkey := (consensusStateKey_ne_clientStateKey header.ledgerSeq).symm
  rw [Storage.writeHeader_eq]
  by_cases hgreater : state.latest < header.ledgerSeq
  · rw [if_pos hgreater, if_pos hgreater, Storage.setClientState, Storage.set_self,
      Storage.checksum_setConsensusState]
  · rw [if_neg hgreater, if_neg hgreater, Storage.setConsensusState, Storage.set_of_ne hkey]

theorem Storage.writeHeader_frame {key : Bytes} (hclient : key ≠ CLIENT_STATE_KEY)
    (hconsensus : key ≠ consensusStateKey header.ledgerSeq) :
    storage.writeHeader state header key = storage key := by
  rw [Storage.writeHeader_eq]
  split
  · rw [Storage.setClientState, Storage.set_of_ne hclient, Storage.setConsensusState,
      Storage.set_of_ne hconsensus]
  · rw [Storage.setConsensusState, Storage.set_of_ne hconsensus]

theorem Storage.Live.writeHeader (h : storage.Live state) (header : StellarHeader) :
    (storage.writeHeader state header).Live
      (if state.latest < header.ledgerSeq then
        { state with latestHeight := some ⟨0, header.ledgerSeq⟩ }
      else state) := by
  have hstored := h.setConsensusState header.ledgerSeq header.consensusState
  rw [Storage.writeHeader_eq]
  by_cases hgreater : state.latest < header.ledgerSeq
  · rw [if_pos hgreater, if_pos hgreater]
    exact hstored.setClientState rfl
  · rw [if_neg hgreater, if_neg hgreater]
    exact hstored

/-! ### What updates leave

A storage after some updates is determined by the storage before and by the headers, as a
set: each header's consensus state, the greatest height, and nothing else. -/

/-- The greatest of `latest` and the headers' heights. -/
def topHeight (latest : UInt64) (headers : List StellarHeader) : UInt64 :=
  headers.foldl
    (fun top header => if top < header.ledgerSeq then header.ledgerSeq else top) latest

/-- The client state with the greatest height as its latest. -/
def ClientState.raised (state : ClientState) (headers : List StellarHeader) : ClientState :=
  if state.latest < topHeight state.latest headers then
    { state with latestHeight := some ⟨0, topHeight state.latest headers⟩ }
  else
    state

/-- `last` is `first` after the updates of `headers`, in some order. -/
structure Records (first : Storage) (state : ClientState) (headers : List StellarHeader)
    (last : Storage) : Prop where
  consensus : ∀ header ∈ headers,
    last (consensusStateKey header.ledgerSeq) = some header.consensusState.wrap.encode
  client : last CLIENT_STATE_KEY =
    if state.latest < topHeight state.latest headers then
      some ((state.raised headers).wrap first.checksum).encode
    else first CLIENT_STATE_KEY
  frame : ∀ key, key ≠ CLIENT_STATE_KEY →
    (∀ header ∈ headers, key ≠ consensusStateKey header.ledgerSeq) → last key = first key
  live : last.Live (state.raised headers)

theorem topHeight_append_singleton (latest : UInt64) (headers : List StellarHeader)
    (header : StellarHeader) :
    topHeight latest (headers ++ [header]) =
      if topHeight latest headers < header.ledgerSeq then header.ledgerSeq
      else topHeight latest headers := by
  rw [topHeight, List.foldl_append]
  rfl

theorem le_topHeight (latest : UInt64) (headers : List StellarHeader) :
    latest ≤ topHeight latest headers := by
  induction headers using List.reverseRecOn with
  | nil => exact UInt64.le_refl _
  | append_singleton headers header ih =>
      rw [topHeight_append_singleton]
      split
      · rename_i hgreater
        exact UInt64.le_of_lt (UInt64.lt_of_le_of_lt ih hgreater)
      · exact ih

theorem topHeight_perm {latest : UInt64} {headers headers' : List StellarHeader}
    (hperm : headers.Perm headers') : topHeight latest headers = topHeight latest headers' := by
  apply hperm.foldl_eq'
  intro left _ right _ top
  rw [← UInt64.toNat_inj]
  simp only [UInt64.lt_iff_toNat_lt]
  split_ifs <;> omega

/-- The client state's own latest height is the greatest. -/
theorem ClientState.latest_raised (state : ClientState) (headers : List StellarHeader) :
    (state.raised headers).latest = topHeight state.latest headers := by
  unfold ClientState.raised
  by_cases hgreater : state.latest < topHeight state.latest headers
  · rw [if_pos hgreater]
    rfl
  · rw [if_neg hgreater]
    exact UInt64.le_antisymm (le_topHeight _ _) (UInt64.not_lt.mp hgreater)

theorem ClientState.raised_append_singleton (state : ClientState)
    (headers : List StellarHeader) (header : StellarHeader) :
    state.raised (headers ++ [header]) =
      if topHeight state.latest headers < header.ledgerSeq then
        { state.raised headers with latestHeight := some ⟨0, header.ledgerSeq⟩ }
      else state.raised headers := by
  have hle := le_topHeight state.latest headers
  unfold ClientState.raised
  rw [topHeight_append_singleton]
  by_cases hgreater : topHeight state.latest headers < header.ledgerSeq
  · have hraised := UInt64.lt_of_le_of_lt hle hgreater
    simp only [if_pos hgreater, if_pos hraised]
    split <;> rfl
  · simp only [if_neg hgreater]

/-- The storage is a function of the headers as a multiset. -/
theorem Records.unique {headers' : List StellarHeader} {last' : Storage}
    (hperm : headers.Perm headers') (h : Records first state headers last)
    (h' : Records first state headers' last') : last = last' := by
  have htop : topHeight state.latest headers = topHeight state.latest headers' :=
    topHeight_perm hperm
  have hraised : state.raised headers = state.raised headers' := by
    unfold ClientState.raised
    rw [htop]
  funext key
  by_cases hclient : key = CLIENT_STATE_KEY
  · rw [hclient, h.client, h'.client, htop, hraised]
  · by_cases hconsensus : ∃ header ∈ headers, key = consensusStateKey header.ledgerSeq
    · obtain ⟨header, hmem, rfl⟩ := hconsensus
      rw [h.consensus header hmem, h'.consensus header (hperm.mem_iff.mp hmem)]
    · have hnone : ∀ header ∈ headers, key ≠ consensusStateKey header.ledgerSeq :=
        fun header hmem heq => hconsensus ⟨header, hmem, heq⟩
      rw [h.frame key hclient hnone, h'.frame key hclient]
      intro header hmem
      exact hnone header (hperm.mem_iff.mpr hmem)

theorem Records.nil (h : first.Live state) : Records first state [] first := by
  have hsame : state.raised [] = state := by
    unfold ClientState.raised
    simp [topHeight, UInt64.lt_irrefl]
  refine ⟨by simp, ?_, fun _ _ _ => rfl, ?_⟩
  · simp [topHeight, UInt64.lt_irrefl]
  · rw [hsame]
    exact h

/-- One more update. -/
theorem Records.writeHeader (h : Records first state headers last)
    (hsmall : ∀ header ∈ headers, header.bulk ≤ BULK) (hagrees : last.Agrees header) :
    Records first state (headers ++ [header])
      (last.writeHeader (state.raised headers) header) := by
  have hchecksum : last.checksum = first.checksum := by
    unfold Storage.checksum
    rw [h.frame CHECKSUM_KEY clientStateKey_ne_checksumKey.symm
      fun header _ => (consensusStateKey_ne_checksumKey header.ledgerSeq).symm]
  refine ⟨?_, ?_, ?_, ?_⟩
  · intro other hother
    rw [Storage.writeHeader_consensus]
    by_cases hheight : other.ledgerSeq = header.ledgerSeq
    · rw [if_pos hheight]
      rcases List.mem_append.mp hother with hearlier | hlast
      · -- both headers were accepted for this height, so they say the same of it
        have hstored := h.consensus other hearlier
        have hread := Storage.consensusState_of_stored hstored
          (length_wrapConsensus_lt (hsmall other hearlier))
        rw [hheight] at hread
        rw [hagrees _ hread]
      · rw [List.mem_singleton.mp hlast]
    · rw [if_neg hheight]
      rcases List.mem_append.mp hother with hearlier | hlast
      · exact h.consensus other hearlier
      · exact absurd (congrArg StellarHeader.ledgerSeq (List.mem_singleton.mp hlast)) hheight
  · rw [Storage.writeHeader_client, ClientState.latest_raised, hchecksum, h.client,
      topHeight_append_singleton, ClientState.raised_append_singleton]
    by_cases hgreater : topHeight state.latest headers < header.ledgerSeq
    · have hraised := UInt64.lt_of_le_of_lt (le_topHeight state.latest headers) hgreater
      simp only [if_pos hgreater, if_pos hraised]
    · simp only [if_neg hgreater]
  · intro key hclient hkey
    rw [Storage.writeHeader_frame hclient (hkey header (by simp))]
    exact h.frame key hclient fun other hother => hkey other (List.mem_append_left _ hother)
  · rw [ClientState.raised_append_singleton, ← ClientState.latest_raised]
    exact h.live.writeHeader header

/-! ### Updates in sequence -/

/-- `update_state` for each message; none when one of them fails. -/
def updateAll (api : Api) (storage : Storage) (messages : List Bytes) : Result Storage :=
  messages.foldlM (fun storage message => do
    return (← updateState ⟨storage, api⟩ message).2) storage

theorem updateAll_append_singleton {messages : List Bytes} {message : Bytes} :
    updateAll api first (messages ++ [message]) = .ok last ↔
      ∃ storage heights, updateAll api first messages = .ok storage ∧
        updateState ⟨storage, api⟩ message = .ok (heights, last) := by
  unfold updateAll
  rw [List.foldlM_append]
  simp only [bind_ok_iff, List.foldlM_cons, List.foldlM_nil]
  constructor
  · rintro ⟨storage, hstorage, _, ⟨⟨heights, post⟩, hupdate, hpost⟩, hlast⟩
    cases hpost
    cases hlast
    exact ⟨storage, heights, hstorage, hupdate⟩
  · rintro ⟨storage, heights, hstorage, hupdate⟩
    exact ⟨storage, hstorage, last, ⟨(heights, last), hupdate, rfl⟩, rfl⟩

/-- The header of each message. -/
def headersOf (messages : List Bytes) : List StellarHeader :=
  messages.filterMap (decode StellarHeader.merge)

theorem records_of_updateAll (hlive : first.Live state) {messages : List Bytes}
    (hsmall : ∀ message ∈ messages, message.length < 2 ^ 32)
    (h : updateAll api first messages = .ok last) :
    Records first state (headersOf messages) last := by
  induction messages using List.reverseRecOn generalizing last with
  | nil =>
      cases h
      exact .nil hlive
  | append_singleton messages message ih =>
      obtain ⟨storage, heights, hstorage, hupdate⟩ := updateAll_append_singleton.mp h
      have hrecords := ih (fun message hmem => hsmall message (List.mem_append_left _ hmem))
        hstorage
      obtain ⟨header, state', hstate, -, hheader, hagrees, rfl⟩ := updateState_eq_ok hupdate
      obtain rfl := Option.some.inj (hrecords.live.stored.symm.trans hstate)
      have hbulk : ∀ header ∈ headersOf messages, header.bulk ≤ BULK := by
        intro header hmem
        obtain ⟨message, hmessage, hdecode⟩ := List.mem_filterMap.mp hmem
        have hlength := hsmall message (List.mem_append_left _ hmessage)
        have hsize := StellarHeader.bulk_of_decode hdecode
        unfold BULK
        omega
      have hheaders : headersOf (messages ++ [message]) = headersOf messages ++ [header] := by
        simp [headersOf, hheader]
      rw [hheaders]
      exact hrecords.writeHeader hbulk hagrees

/-! ### Messages that come again -/

/-- The storage after some sudo messages, of which any may fail. -/
def sudoAll (api : Api) (storage : Storage) (msgs : List SudoMsg) : Storage :=
  msgs.foldl (fun storage msg => (execute (Entrypoint.runSudo api msg) storage).2) storage

/-- The storage has taken `header`. -/
structure Storage.Holds (storage : Storage) (header : StellarHeader) : Prop where
  consensus : storage (consensusStateKey header.ledgerSeq) =
    some header.consensusState.wrap.encode
  live : ∃ state, storage.Live state ∧ header.ledgerSeq ≤ state.latest

theorem Storage.Live.holds_writeHeader (h : storage.Live state) (header : StellarHeader) :
    (storage.writeHeader state header).Holds header := by
  refine ⟨?_, _, h.writeHeader header, ?_⟩
  · rw [Storage.writeHeader_consensus, if_pos rfl]
  · split
    · exact UInt64.le_refl _
    · rename_i hnot
      exact UInt64.not_lt.mp hnot

theorem Storage.Holds.effect {pre post : Storage} (h : pre.Holds header)
    (hsmall : header.bulk ≤ BULK) {msg : SudoMsg} (heffect : Effect pre (.sudoMsg msg) post) :
    post.Holds header := by
  obtain ⟨state, hlive, hle⟩ := h.live
  cases heffect with
  | @update clientMessage later state' hstate _ _ hagrees =>
      obtain rfl := Option.some.inj (hlive.stored.symm.trans hstate)
      refine ⟨?_, _, hlive.writeHeader later, ?_⟩
      · rw [Storage.writeHeader_consensus]
        by_cases hheight : header.ledgerSeq = later.ledgerSeq
        · have hread := Storage.consensusState_of_stored h.consensus
            (length_wrapConsensus_lt hsmall)
          rw [hheight] at hread
          rw [if_pos hheight, hagrees _ hread]
        · rw [if_neg hheight]
          exact h.consensus
      · split
        · rename_i hgreater
          exact UInt64.le_of_lt (UInt64.lt_of_le_of_lt hle hgreater)
        · exact hle
  | freeze hstate =>
      obtain rfl := Option.some.inj (hlive.stored.symm.trans hstate)
      refine ⟨?_, _, hlive.setClientState rfl, hle⟩
      unfold Storage.setClientState
      rw [Storage.set_of_ne (consensusStateKey_ne_clientStateKey _)]
      exact h.consensus
  | read => exact h

theorem Storage.Holds.runSudo (h : storage.Holds header) (hsmall : header.bulk ≤ BULK)
    (msg : SudoMsg) :
    (execute (Entrypoint.runSudo api msg) storage).2.Holds header := by
  rw [Entrypoint.execute_runSudo]
  cases hrun : LightClient.runSudo ⟨storage, api⟩ msg with
  | error error => exact h
  | ok result =>
      obtain ⟨data, post⟩ := result
      have hrespond : (Msg.sudoMsg msg).respond ⟨storage, api⟩ = .ok (some data, post) := by
        rw [Msg.respond, hrun]
        rfl
      exact h.effect hsmall (.of_respond hrespond)

theorem Storage.Holds.sudoAll (h : storage.Holds header) (hsmall : header.bulk ≤ BULK)
    (msgs : List SudoMsg) : (sudoAll api storage msgs).Holds header := by
  induction msgs generalizing storage with
  | nil => exact h
  | cons msg msgs ih => exact ih (h.runSudo hsmall msg)

/-- A storage that has taken a header is not changed by it. -/
theorem Storage.Holds.writeHeader (h : storage.Holds header) (hlive : storage.Live state) :
    storage.writeHeader state header = storage := by
  obtain ⟨state', hlive', hle⟩ := h.live
  obtain rfl := Option.some.inj (hlive'.stored.symm.trans hlive.stored)
  funext key
  by_cases hclient : key = CLIENT_STATE_KEY
  · rw [hclient, Storage.writeHeader_client, if_neg (UInt64.not_lt.mpr hle)]
  · by_cases hconsensus : key = consensusStateKey header.ledgerSeq
    · rw [hconsensus, Storage.writeHeader_consensus, if_pos rfl, h.consensus]
    · exact Storage.writeHeader_frame hclient hconsensus

theorem Storage.Holds.updateState {message : Bytes} (h : storage.Holds header)
    (hheader : decode StellarHeader.merge message = some header) :
    (execute (Entrypoint.updateState api message) storage).2 = storage := by
  rw [Entrypoint.execute_updateState]
  cases hupdate : LightClient.updateState ⟨storage, api⟩ message with
  | error error => rfl
  | ok result =>
      obtain ⟨heights, post⟩ := result
      obtain ⟨header', state, hstate, -, hheader', -, rfl⟩ := updateState_eq_ok hupdate
      obtain rfl := Option.some.inj (hheader'.symm.trans hheader)
      obtain ⟨state', hlive, -⟩ := h.live
      obtain rfl := Option.some.inj (hlive.stored.symm.trans hstate)
      exact h.writeHeader hlive

/-- **Header updates commute.**  Two orders of the same client messages that both succeed
leave the same storage; and once a message was accepted, whatever sudo messages come in
between, it never changes the storage again. -/
theorem updates_commute (api : Api) {storage : Storage} (hstorage : storage.Fits) :
    (∀ messages messages' final final', (∀ message ∈ messages, message.length < 2 ^ 32) →
      messages.Perm messages' → updateAll api storage messages = .ok final →
      updateAll api storage messages' = .ok final' → final = final') ∧
    ∀ message heights accepted msgs, message.length < 2 ^ 32 →
      updateState ⟨storage, api⟩ message = .ok (heights, accepted) →
      (execute (Entrypoint.updateState api message) (sudoAll api accepted msgs)).2 =
        sudoAll api accepted msgs := by
  constructor
  · intro messages messages' final final' hsmall hperm hfinal hfinal'
    cases hstate : storage.clientState with
    | none =>
        -- without a client state no message is accepted, so there are none
        cases messages with
        | nil =>
            obtain rfl := List.nil_perm.mp hperm
            exact Except.ok.inj (hfinal.symm.trans hfinal')
        | cons message messages =>
            unfold updateAll at hfinal
            rw [List.foldlM_cons, bind_ok_iff] at hfinal
            obtain ⟨_, hfirst, -⟩ := hfinal
            rw [bind_ok_iff] at hfirst
            obtain ⟨_, hupdate, -⟩ := hfirst
            obtain ⟨header, state, hstate', -⟩ := updateState_eq_ok hupdate
            rw [hstate] at hstate'
            cases hstate'
    | some state =>
        have hlive := hstorage.live hstate
        have hsmall' : ∀ message ∈ messages', message.length < 2 ^ 32 :=
          fun message hmem => hsmall message (hperm.mem_iff.mpr hmem)
        exact (records_of_updateAll hlive hsmall hfinal).unique
          (hperm.filterMap _) (records_of_updateAll hlive hsmall' hfinal')
  · intro message heights accepted msgs hlength hupdate
    obtain ⟨header, state, hstate, -, hheader, -, rfl⟩ := updateState_eq_ok hupdate
    have hsmall : header.bulk ≤ BULK := by
      have hbulk := StellarHeader.bulk_of_decode hheader
      unfold BULK
      omega
    have hholds := (hstorage.live hstate).holds_writeHeader header
    exact (hholds.sudoAll hsmall msgs).updateState hheader

/-! ### Two orders of two updates -/

theorem Storage.Fits.set (h : storage.Fits) {key value : Bytes} (hvalue : value.length < 2 ^ 32) :
    (storage.set key value).Fits := by
  intro other stored hstored
  by_cases hother : other = key
  · rw [hother, Storage.set_self] at hstored
    obtain rfl := Option.some.inj hstored
    exact hvalue
  · rw [Storage.set_of_ne hother] at hstored
    exact h other stored hstored

/-- A client of the validator at height 7. -/
def validatedStorage : Storage :=
  Storage.setConsensusState (Storage.setClientState (fun _ => none) validatedState) 7
    firstConsensus

theorem validatedStorage_fits : validatedStorage.Fits := by
  have hempty : Storage.Fits fun _ => none := by simp [Storage.Fits]
  exact (hempty.set (by decide +kernel)).set (by decide +kernel)

/-- Height 8 fills the gap below height 9, or comes first. -/
def gapMessages : List Bytes :=
  [headerMessage 9 (List.replicate 32 6), headerMessage 8 (List.replicate 32 7)]

theorem updates_commute_gapMessages :
    (∃ final, updateAll validatorApi validatedStorage gapMessages = .ok final ∧
      updateAll validatorApi validatedStorage gapMessages.reverse = .ok final) ∧
    ∃ heights accepted,
      updateState ⟨validatedStorage, validatorApi⟩ (headerMessage 9 (List.replicate 32 6)) =
        .ok (heights, accepted) ∧
      (execute (Entrypoint.updateState validatorApi (headerMessage 9 (List.replicate 32 6)))
        (sudoAll validatorApi accepted [.updateState (headerMessage 8 (List.replicate 32 7))])).2 =
        sudoAll validatorApi accepted [.updateState (headerMessage 8 (List.replicate 32 7))] := by
  have hcommute := updates_commute validatorApi validatedStorage_fits
  have hsmall : ∀ message ∈ gapMessages, message.length < 2 ^ 32 := by decide +kernel
  have hsuccess : ∀ {α : Type} (result : Result α), result.toOption.isSome = true →
      ∃ value, result = .ok value := by
    intro α result h
    cases result with
    | error error => cases h
    | ok value => exact ⟨value, rfl⟩
  constructor
  · obtain ⟨final, hfinal⟩ := hsuccess (updateAll validatorApi validatedStorage gapMessages)
      (by decide +kernel)
    obtain ⟨final', hfinal'⟩ :=
      hsuccess (updateAll validatorApi validatedStorage gapMessages.reverse) (by decide +kernel)
    obtain rfl := hcommute.1 _ _ final final' hsmall (List.reverse_perm _).symm hfinal hfinal'
    exact ⟨final, hfinal, hfinal'⟩
  · obtain ⟨⟨heights, accepted⟩, haccepted⟩ := hsuccess
      (updateState ⟨validatedStorage, validatorApi⟩ (headerMessage 9 (List.replicate 32 6)))
      (by decide +kernel)
    exact ⟨heights, accepted, haccepted,
      hcommute.2 _ heights accepted _ (by decide +kernel) haccepted⟩

end StellarIbc.LightClient
