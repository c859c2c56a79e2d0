import StellarIbc.LightClientRuns

/-!
# The consensus history of the Stellar light client

An initialised contract stores a `Client`: a client state and a consensus state for some
heights.  What a message does to the storage is what one of three steps does to the
client.  The steps only add consensus states and keep the latest height the greatest, so
every run of the contract does.
-/

namespace StellarIbc.LightClient

open Protobuf Fallible

variable {api : Api} {pre post storage : Storage}

/-! ### The abstract client -/

/-- What an initialised contract stores. -/
structure Client where
  state : ClientState
  checksum : Bytes
  consensus : UInt64 → Option ConsensusState

/-- The height the client state has as its latest. -/
def ClientState.latest (state : ClientState) : UInt64 :=
  (state.latestHeight.map Height.revisionHeight).getD 0

namespace Client

/-- Record a header: its consensus state, and its height where that is the greatest. -/
def record (client : Client) (header : StellarHeader) : Client :=
  { client with
    state :=
      if client.state.latest < header.ledgerSeq then
        { client.state with latestHeight := some ⟨0, header.ledgerSeq⟩ }
      else
        client.state
    consensus :=
      Function.update client.consensus header.ledgerSeq (some header.consensusState) }

def freeze (client : Client) : Client :=
  { client with
    state :=
      { client.state with frozenHeight := some (client.state.latestHeight.getD default) } }

inductive Step (client : Client) : Client → Prop
  | update {header : StellarHeader} (hlive : client.state.frozenHeight = none)
      (hagrees : ∀ existing ∈ client.consensus header.ledgerSeq,
        existing = header.consensusState) :
      Step client (client.record header)
  | freeze : Step client client.freeze
  | read : Step client client

/-- The latest height has a consensus state, and no greater height has one. -/
structure Consistent (client : Client) : Prop where
  latest : ∃ height, client.state.latestHeight = some height
  present : client.consensus client.state.latest ≠ none
  greatest : ∀ height, client.consensus height ≠ none → height ≤ client.state.latest

/-- From `client` to the later `client'` no consensus state changed or went away, and the
latest height did not decrease. -/
structure Extends (client client' : Client) : Prop where
  kept : ∀ height consensus, client.consensus height = some consensus →
    client'.consensus height = some consensus
  latest : client.state.latest ≤ client'.state.latest

variable {client client' client'' : Client}

theorem Extends.refl : Extends client client := ⟨fun _ _ h => h, UInt64.le_refl _⟩

theorem Extends.trans (h : Extends client client') (h' : Extends client' client'') :
    Extends client client'' :=
  ⟨fun height consensus hstored => h'.kept _ _ (h.kept height consensus hstored),
    UInt64.le_trans h.latest h'.latest⟩

theorem record_latest (header : StellarHeader) :
    (client.record header).state.latest =
      if client.state.latest < header.ledgerSeq then header.ledgerSeq
      else client.state.latest := by
  unfold record
  by_cases hgreater : client.state.latest < header.ledgerSeq
  · simp only [if_pos hgreater]
    rfl
  · simp only [if_neg hgreater]

theorem le_record_latest (header : StellarHeader) :
    client.state.latest ≤ (client.record header).state.latest ∧
      header.ledgerSeq ≤ (client.record header).state.latest := by
  rw [record_latest]
  by_cases hgreater : client.state.latest < header.ledgerSeq
  · rw [if_pos hgreater]
    exact ⟨UInt64.le_of_lt hgreater, UInt64.le_refl _⟩
  · rw [if_neg hgreater]
    exact ⟨UInt64.le_refl _, UInt64.not_lt.mp hgreater⟩

theorem Step.extends (hstep : Step client client') : Extends client client' := by
  cases hstep with
  | @update header hlive hagrees =>
      refine ⟨?_, ?_⟩
      · intro height consensus hstored
        by_cases hheight : height = header.ledgerSeq
        · subst hheight
          rw [hagrees consensus hstored]
          exact Function.update_self ..
        · exact (Function.update_of_ne hheight ..).trans hstored
      · exact (le_record_latest header).1
  | freeze => exact ⟨fun _ _ h => h, UInt64.le_refl _⟩
  | read => exact .refl

theorem Consistent.record (hclient : client.Consistent) (header : StellarHeader) :
    (client.record header).Consistent := by
  have hstored : ∀ height, (client.record header).consensus height ≠ none ↔
      height = header.ledgerSeq ∨ client.consensus height ≠ none := by
    intro height
    by_cases hheight : height = header.ledgerSeq
    · simp [Client.record, hheight]
    · simp [Client.record, hheight]
  refine ⟨?_, ?_, ?_⟩
  · unfold Client.record
    by_cases hgreater : client.state.latest < header.ledgerSeq
    · exact ⟨⟨0, header.ledgerSeq⟩, by simp only [if_pos hgreater]⟩
    · simp only [if_neg hgreater]
      exact hclient.latest
  · rw [hstored, record_latest]
    by_cases hgreater : client.state.latest < header.ledgerSeq
    · exact .inl (if_pos hgreater)
    · rw [if_neg hgreater]
      exact .inr hclient.present
  · intro height hheight
    rcases (hstored height).mp hheight with rfl | hold
    · exact (le_record_latest header).2
    · exact UInt64.le_trans (hclient.greatest height hold) (le_record_latest header).1

theorem Step.consistent (hstep : Step client client') (hclient : client.Consistent) :
    client'.Consistent := by
  cases hstep with
  | update hlive hagrees => exact hclient.record _
  | freeze => exact ⟨hclient.latest, hclient.present, hclient.greatest⟩
  | read => exact hclient

end Client

/-! ### The storage of a client -/

/-- The size of what a message of at most `2 ^ 32` bytes decodes to. -/
def BULK : Nat := 20 * 2 ^ 32

/-- The storage holds the encodings of the client, which are small enough to be read. -/
structure Represents (storage : Storage) (client : Client) : Prop where
  stored : storage CLIENT_STATE_KEY = some (client.state.wrap client.checksum).encode
  checksum : storage.checksum = client.checksum
  consensus : ∀ height, storage (consensusStateKey height) =
    (client.consensus height).map fun state => state.wrap.encode
  bulk : client.state.bulk ≤ BULK
  checksumBulk : client.checksum.length ≤ BULK
  consensusBulk : ∀ height state, client.consensus height = some state → state.bulk ≤ BULK

theorem length_wrap_lt {state : ClientState} {checksum : Bytes} (hstate : state.bulk ≤ BULK)
    (hchecksum : checksum.length ≤ BULK) : (state.wrap checksum).encode.length < 2 ^ 64 := by
  have hlength := state.length_wrap_le checksum
  unfold BULK at hstate hchecksum
  omega

theorem length_wrapConsensus_lt {state : ConsensusState} (hstate : state.bulk ≤ BULK) :
    state.wrap.encode.length < 2 ^ 64 := by
  have hlength := state.length_wrap_le
  unfold ConsensusState.bulk BULK at hstate
  omega

namespace Represents

variable {client client' : Client}

theorem clientState (h : Represents storage client) :
    storage.clientState = some client.state :=
  Storage.clientState_of_stored h.stored (length_wrap_lt h.bulk h.checksumBulk)

theorem envelope (h : Represents storage client) :
    storage.envelope =
      some ⟨client.state.encode, client.checksum, client.state.latestHeight⟩ :=
  Storage.envelope_of_stored h.stored (length_wrap_lt h.bulk h.checksumBulk)

theorem consensusState (h : Represents storage client) (height : UInt64) :
    storage.consensusState height = client.consensus height := by
  have hstored := h.consensus height
  cases hconsensus : client.consensus height with
  | none =>
      rw [hconsensus] at hstored
      exact Storage.consensusState_of_absent hstored
  | some state =>
      rw [hconsensus] at hstored
      exact Storage.consensusState_of_stored hstored
        (length_wrapConsensus_lt (h.consensusBulk height state hconsensus))

theorem setClientState (h : Represents storage client) {state : ClientState}
    (hbulk : state.bulk ≤ BULK) :
    Represents (storage.setClientState state) { client with state } where
  stored := by
    rw [← h.checksum]
    exact Storage.set_self ..
  checksum := by
    unfold Storage.checksum Storage.setClientState
    rw [Storage.set_of_ne clientStateKey_ne_checksumKey.symm]
    exact h.checksum
  consensus height := by
    unfold Storage.setClientState
    rw [Storage.set_of_ne (consensusStateKey_ne_clientStateKey height)]
    exact h.consensus height
  bulk := hbulk
  checksumBulk := h.checksumBulk
  consensusBulk := h.consensusBulk

theorem setConsensusState (h : Represents storage client) (height : UInt64)
    {state : ConsensusState} (hbulk : state.bulk ≤ BULK) :
    Represents (storage.setConsensusState height state)
      { client with consensus := Function.update client.consensus height (some state) } where
  stored := by
    unfold Storage.setConsensusState
    rw [Storage.set_of_ne (consensusStateKey_ne_clientStateKey height).symm]
    exact h.stored
  checksum := by
    unfold Storage.checksum Storage.setConsensusState
    rw [Storage.set_of_ne (consensusStateKey_ne_checksumKey height).symm]
    exact h.checksum
  consensus other := by
    unfold Storage.setConsensusState
    by_cases hother : other = height
    · subst hother
      simp
    · rw [Storage.set_of_ne fun hkey => hother (consensusStateKey_injective hkey)]
      simpa only [Function.update_of_ne hother] using h.consensus other
  bulk := h.bulk
  checksumBulk := h.checksumBulk
  consensusBulk other stored hstored := by
    by_cases hother : other = height
    · simp only [hother, Function.update_self] at hstored
      obtain rfl := Option.some.inj hstored
      exact hbulk
    · simp only [Function.update_of_ne hother] at hstored
      exact h.consensusBulk other stored hstored

theorem writeHeader (h : Represents storage client) {header : StellarHeader}
    (hbulk : header.bulk ≤ BULK) :
    Represents (storage.writeHeader client.state header) (client.record header) := by
  have hrecorded := h.setConsensusState header.ledgerSeq
    (show header.consensusState.bulk ≤ BULK from hbulk)
  unfold Storage.writeHeader Client.record
  by_cases hgreater : client.state.latest < header.ledgerSeq
  · rw [if_pos hgreater]
    have hgreater' : (client.state.latestHeight.map Height.revisionHeight).getD 0 <
        header.ledgerSeq := hgreater
    simp only [if_pos hgreater']
    exact hrecorded.setClientState h.bulk
  · rw [if_neg hgreater]
    have hgreater' : ¬ (client.state.latestHeight.map Height.revisionHeight).getD 0 <
        header.ledgerSeq := hgreater
    simp only [if_neg hgreater']
    exact hrecorded

/-- A message to an initialised contract does what a step of its client does. -/
theorem simulates (h : Represents pre client) {msg : Msg} (hfits : msg.Fits)
    (heffect : Effect pre msg post) :
    ∃ client', client.Step client' ∧ Represents post client' := by
  cases heffect with
  | instantiate hnew hstate hconsensus hheight =>
      rw [h.clientState] at hnew
      cases hnew
  | @update clientMessage header state hstate hlive hheader hagrees =>
      obtain rfl := Option.some.inj (h.clientState.symm.trans hstate)
      have hsize : header.bulk ≤ BULK := by
        have hlength := hfits clientMessage (List.mem_singleton_self _)
        have hbulk := StellarHeader.bulk_of_decode hheader
        unfold BULK
        omega
      have hagrees' : ∀ existing ∈ client.consensus header.ledgerSeq,
          existing = header.consensusState := by
        rw [← h.consensusState header.ledgerSeq]
        exact hagrees
      exact ⟨_, .update hlive hagrees', h.writeHeader hsize⟩
  | freeze hstate =>
      obtain rfl := Option.some.inj (h.clientState.symm.trans hstate)
      exact ⟨_, .freeze, h.setClientState h.bulk⟩
  | read => exact ⟨client, .read, h⟩

end Represents

/-- The client that an instantiation sets up. -/
def Client.initial (state : ClientState) (checksum : Bytes) (consensus : ConsensusState) :
    Client where
  state := state
  checksum := checksum
  consensus := Function.update (fun _ => none) state.latest (some consensus)

theorem Client.initial_consistent {state : ClientState} {height : Height}
    (hheight : state.latestHeight = some height) (checksum : Bytes)
    (consensus : ConsensusState) : (initial state checksum consensus).Consistent := by
  refine ⟨⟨height, hheight⟩, ?_, ?_⟩
  · simp [initial]
  · intro other hother
    by_cases hsame : other = state.latest
    · rw [hsame]
      exact UInt64.le_refl _
    · simp [initial, hsame] at hother

theorem Storage.checksum_setChecksum (checksum : Bytes) :
    (Storage.setChecksum (fun _ => none) checksum).checksum = checksum := by
  unfold Storage.setChecksum Storage.checksum
  by_cases hempty : checksum = []
  · rw [if_pos hempty, hempty]
    rfl
  · rw [if_neg hempty, Storage.set_self]
    rfl

theorem Storage.setChecksum_of_ne {checksum key : Bytes} (hkey : key ≠ CHECKSUM_KEY) :
    storage.setChecksum checksum key = storage key := by
  unfold Storage.setChecksum
  split
  · rfl
  · exact Storage.set_of_ne hkey

theorem represents_initial {state : ClientState} {checksum : Bytes}
    {consensus : ConsensusState} {height : Height}
    (hheight : state.latestHeight = some height) (hstate : state.bulk ≤ BULK)
    (hchecksum : checksum.length ≤ BULK) (hconsensus : consensus.bulk ≤ BULK) :
    Represents ((Storage.setClientState (Storage.setChecksum (fun _ => none) checksum)
      state).setConsensusState height.revisionHeight consensus)
      (.initial state checksum consensus) := by
  have hlatest : state.latest = height.revisionHeight := by
    rw [ClientState.latest, hheight]
    rfl
  -- before the consensus state is written
  have hfirst : Represents
      (Storage.setClientState (Storage.setChecksum (fun _ => none) checksum) state)
      ⟨state, checksum, fun _ => none⟩ := by
    refine ⟨?_, ?_, ?_, hstate, hchecksum, by simp⟩
    · unfold Storage.setClientState
      rw [Storage.set_self, Storage.checksum_setChecksum]
    · unfold Storage.setClientState
      rw [Storage.checksum, Storage.set_of_ne clientStateKey_ne_checksumKey.symm]
      exact Storage.checksum_setChecksum checksum
    · intro other
      unfold Storage.setClientState
      rw [Storage.set_of_ne (consensusStateKey_ne_clientStateKey other),
        Storage.setChecksum_of_ne (consensusStateKey_ne_checksumKey other)]
      rfl
  unfold Client.initial
  rw [hlatest]
  exact hfirst.setConsensusState height.revisionHeight hconsensus

/-- The first message that an empty contract does not refuse sets up a client. -/
theorem represents_of_instantiate {msg : Msg} (hfits : msg.Fits)
    (heffect : Effect (fun _ => none) msg post) :
    post = (fun _ => none) ∨ ∃ client, client.Consistent ∧ Represents post client := by
  cases heffect with
  | @instantiate msg state consensus height hnew hstate hconsensus hheight =>
      have hpayload : ∀ payload ∈ [msg.clientState, msg.consensusState, msg.checksum],
          payload.length < 2 ^ 32 := hfits
      simp only [List.mem_cons, List.not_mem_nil, or_false, forall_eq_or_imp, forall_eq] at hpayload
      obtain ⟨hstateLength, hconsensusLength, hchecksumLength⟩ := hpayload
      have hstateBulk := ClientState.bulk_of_decode hstate
      have hconsensusBulk := ConsensusState.bulk_of_decode hconsensus
      refine .inr ⟨_, Client.initial_consistent hheight msg.checksum consensus,
        represents_initial hheight ?_ ?_ ?_⟩
      · unfold BULK
        omega
      · unfold BULK
        omega
      · unfold BULK
        omega
  | update hstate hlive hheader hagrees => cases hstate
  | freeze hstate => cases hstate
  | read => exact .inl rfl

/-! ### The history of consensus states -/

/-- A contract is empty or stores a consistent client. -/
def Sound (storage : Storage) : Prop :=
  storage = (fun _ => none) ∨ ∃ client, client.Consistent ∧ Represents storage client

theorem Step.client {tx : Tx} {client : Client} (hstep : Step api pre tx post)
    (hpre : Represents pre client) :
    ∃ client', client.Step client' ∧ Represents post client' := by
  rcases hstep.settled with ⟨error, -, -, rfl⟩ | ⟨data, -, hrespond⟩
  · exact ⟨client, .read, hpre⟩
  · exact hpre.simulates tx.fits (.of_respond hrespond)

theorem Step.sound {tx : Tx} (hstep : Step api pre tx post) (hpre : Sound pre) :
    Sound post := by
  rcases hpre with rfl | ⟨client, hconsistent, hclient⟩
  · rcases hstep.settled with ⟨error, -, -, rfl⟩ | ⟨data, -, hrespond⟩
    · exact .inl rfl
    · exact represents_of_instantiate tx.fits (.of_respond hrespond)
  · obtain ⟨client', hnext, hclient'⟩ := hstep.client hclient
    exact .inr ⟨client', hnext.consistent hconsistent, hclient'⟩

theorem sound_of_run {history : List (Entry Storage Tx)} (hrun : Run api history storage) :
    Sound storage := by
  apply hrun.invariant fun _ storage => Sound storage
  · rintro _ rfl
    exact .inl rfl
  · intro history entry _ hsound hstep
    exact hstep.sound hsound

variable {history before after : List (Entry Storage Tx)} {entry later : Entry Storage Tx}

theorem sound_after (hrun : Run api history storage)
    (hsplit : history = before ++ entry :: after) : Sound entry.post := by
  obtain ⟨hbefore, hstep⟩ := hrun.split hsplit
  exact hstep.sound (sound_of_run hbefore)

/-- A client is still there, extended, when a later message comes and when it is done. -/
theorem extended_later (hrun : Run api history storage)
    (hsplit : history = before ++ entry :: after) {client : Client}
    (hclient : Represents entry.post client) (hlater : later ∈ after) :
    (∃ client', client.Extends client' ∧ Represents later.pre client') ∧
      ∃ client', client.Extends client' ∧ Represents later.post client' := by
  have hnext : ∀ entry : Entry Storage Tx, Step api entry.pre entry.act entry.post →
      (∃ client', client.Extends client' ∧ Represents entry.pre client') →
      ∃ client', client.Extends client' ∧ Represents entry.post client' := by
    rintro entry hstep ⟨client', hextends, hclient'⟩
    obtain ⟨client'', hstep', hclient''⟩ := hstep.client hclient'
    exact ⟨client'', hextends.trans hstep'.extends, hclient''⟩
  have hpre := hrun.before_later
    (fun storage => ∃ client', client.Extends client' ∧ Represents storage client') hnext
    hsplit ⟨client, .refl, hclient⟩ hlater
  have hmem : later ∈ history := Reach.mem_of_later hsplit hlater
  exact ⟨hpre, hnext later (hrun.step_of_mem hmem) hpre⟩

/-- A successful `instantiate`. -/
def Tx.Instantiates (tx : Tx) : Prop :=
  (∃ msg, tx.msg = .instantiate msg) ∧ ∃ data, tx.outcome = .ok data

/-- What every run guarantees of the stored states. -/
structure AppendOnly (history : List (Entry Storage Tx)) : Prop where
  kept : ∀ before entry after, history = before ++ entry :: after → ∀ height raw,
    entry.post (consensusStateKey height) = some raw →
    ∀ later ∈ after, later.post (consensusStateKey height) = some raw
  /-- A stored client state can be read, and its latest height is the greatest height with
  a consensus state, which can be read too. -/
  latest : ∀ entry ∈ history, entry.post CLIENT_STATE_KEY ≠ none → ∃ state height,
    entry.post.clientState = some state ∧ state.latestHeight = some height ∧
    (entry.post.consensusState height.revisionHeight).isSome ∧
    ∀ other, entry.post (consensusStateKey other) ≠ none → other ≤ height.revisionHeight
  increases : ∀ before entry after, history = before ++ entry :: after → ∀ state,
    entry.post.clientState = some state → ∀ later ∈ after, ∃ state',
      later.post.clientState = some state' ∧ state.latest ≤ state'.latest
  envelope : ∀ entry ∈ history, ∀ wasm, entry.post.envelope = some wasm → ∃ state,
    decode ClientState.merge wasm.data = some state ∧ wasm.latestHeight = state.latestHeight
  once : ∀ before entry after, history = before ++ entry :: after → entry.act.Instantiates →
    ∀ later ∈ after, ∀ msg, later.act.msg = .instantiate msg →
      later.act.outcome = .error .alreadyInitialised
  unchanged : ∀ entry ∈ history, ∀ error, entry.act.outcome = .error error →
    entry.post = entry.pre

theorem Step.represents_of_instantiates {tx : Tx} (hstep : Step api pre tx post)
    (hpost : Sound post) (hinstantiates : tx.Instantiates) :
    ∃ client, Represents post client := by
  obtain ⟨⟨msg, hmsg⟩, data, hdata⟩ := hinstantiates
  rcases hstep.settled with ⟨error, herror, -⟩ | ⟨data', -, hrespond⟩
  · rw [hdata] at herror
    cases herror
  · rw [hmsg, Msg.respond, bind_ok_iff] at hrespond
    obtain ⟨written, hwritten, heq⟩ := hrespond
    obtain ⟨state, consensus, height, -, -, -, -, rfl⟩ := instantiate_eq_ok hwritten
    obtain ⟨-, rfl⟩ := Prod.mk.inj (Except.ok.inj heq)
    rcases hpost with hempty | ⟨client, -, hclient⟩
    · have hkey := congrFun hempty (consensusStateKey height.revisionHeight)
      rw [Storage.setConsensusState, Storage.set_self] at hkey
      cases hkey
    · exact ⟨client, hclient⟩

theorem Step.alreadyInitialised {tx : Tx} (hstep : Step api pre tx post) {client : Client}
    (hclient : Represents pre client) {msg : InstantiateMsg} (hmsg : tx.msg = .instantiate msg) :
    tx.outcome = .error .alreadyInitialised := by
  apply hstep.refused
  rw [hmsg, Msg.respond, LightClient.instantiate, if_pos (by simp [hclient.clientState])]
  rfl

/-- **The consensus history is append-only** in every run. -/
theorem appendOnly_of_run (hrun : Run api history storage) : AppendOnly history := by
  refine ⟨?_, ?_, ?_, ?_, ?_, ?_⟩
  · intro before entry after hsplit height raw hraw later hlater
    rcases sound_after hrun hsplit with hempty | ⟨client, -, hclient⟩
    · rw [hempty] at hraw
      cases hraw
    · obtain ⟨client', hextends, hclient'⟩ := (extended_later hrun hsplit hclient hlater).2
      rw [hclient.consensus] at hraw
      obtain ⟨consensus, hconsensus, rfl⟩ := Option.map_eq_some_iff.mp hraw
      rw [hclient'.consensus, hextends.kept height consensus hconsensus]
      rfl
  · intro entry hmem hstored
    obtain ⟨before, after, hsplit⟩ := List.append_of_mem hmem
    rcases sound_after hrun hsplit with hempty | ⟨client, hconsistent, hclient⟩
    · rw [hempty] at hstored
      exact absurd rfl hstored
    · obtain ⟨height, hheight⟩ := hconsistent.latest
      have hlatest : client.state.latest = height.revisionHeight := by
        rw [ClientState.latest, hheight]
        rfl
      refine ⟨client.state, height, hclient.clientState, hheight, ?_, ?_⟩
      · rw [hclient.consensusState, ← hlatest]
        exact Option.isSome_iff_ne_none.mpr hconsistent.present
      · intro other hother
        rw [← hlatest]
        apply hconsistent.greatest
        rw [hclient.consensus] at hother
        simpa using hother
  · intro before entry after hsplit state hstate later hlater
    rcases sound_after hrun hsplit with hempty | ⟨client, -, hclient⟩
    · rw [hempty] at hstate
      cases hstate
    · obtain ⟨client', hextends, hclient'⟩ := (extended_later hrun hsplit hclient hlater).2
      obtain rfl := Option.some.inj (hclient.clientState.symm.trans hstate)
      exact ⟨client'.state, hclient'.clientState, hextends.latest⟩
  · intro entry hmem wasm hwasm
    obtain ⟨before, after, hsplit⟩ := List.append_of_mem hmem
    rcases sound_after hrun hsplit with hempty | ⟨client, -, hclient⟩
    · rw [hempty] at hwasm
      cases hwasm
    · obtain rfl := Option.some.inj (hclient.envelope.symm.trans hwasm)
      exact ⟨client.state,
        Storage.decode_of_stored (length_wrap_lt hclient.bulk hclient.checksumBulk), rfl⟩
  · intro before entry after hsplit hinstantiates later hlater msg hmsg
    obtain ⟨client, hclient⟩ := (hrun.split hsplit).2.represents_of_instantiates
      (sound_after hrun hsplit) hinstantiates
    obtain ⟨client', -, hclient'⟩ := (extended_later hrun hsplit hclient hlater).1
    have hmem : later ∈ history := Reach.mem_of_later hsplit hlater
    exact (hrun.step_of_mem hmem).alreadyInitialised hclient' hmsg
  · intro entry hmem error herror
    rcases (hrun.step_of_mem hmem).settled with ⟨_, -, -, hpost⟩ | ⟨data, hdata, -⟩
    · exact hpost
    · rw [hdata] at herror
      cases herror

/-! ### Concrete runs -/

/-- Execute one message and record it. -/
def executeMsg (api : Api) (storage : Storage) (msg : { msg : Msg // msg.Fits }) :
    Entry Storage Tx :=
  let ended := Fallible.execute (msg.val.exec api) storage
  ⟨storage, ⟨msg.val, msg.property, ended.1⟩, ended.2⟩

def executeMsgs (api : Api) (msgs : List { msg : Msg // msg.Fits }) :
    List (Entry Storage Tx) × Storage :=
  feed (executeMsg api) [] (fun _ => none) msgs

theorem run_executeMsgs (api : Api) (msgs : List { msg : Msg // msg.Fits }) :
    Run api (executeMsgs api msgs).1 (executeMsgs api msgs).2 := by
  have hstart : Run api [] fun _ => none := .start rfl
  refine hstart.feed_of_step ?_ msgs
  intro storage msg
  exact ⟨rfl, ends_execute _ _⟩

/-- A trusted validator. -/
def validatorKey : Bytes :=
  [215, 90, 152, 1, 130, 177, 10, 183, 213, 75, 254, 211, 201, 100, 7, 58,
    14, 225, 114, 243, 218, 166, 35, 37, 175, 2, 26, 104, 247, 7, 81, 26]

/-- A statement with the validator's Ed25519 signature over its preimage. -/
def validatorEnvelope : ScpEnvelope where
  nodeId := validatorKey
  statementXdr := [5]
  signature :=
    [208, 209, 131, 125, 0, 227, 38, 133, 95, 182, 39, 190, 138, 64, 214, 40,
      59, 205, 87, 114, 202, 37, 37, 88, 23, 26, 31, 72, 17, 149, 176, 73,
      93, 217, 239, 254, 16, 76, 127, 209, 80, 150, 160, 117, 0, 182, 190, 252,
      94, 207, 237, 210, 3, 118, 187, 136, 92, 116, 191, 129, 51, 45, 42, 3]

def validatedState : ClientState :=
  { sampleClientState with trustedValidators := [validatorKey] }

/-- A host that knows this one signature. -/
def validatorApi : Api where
  ed25519Verify message signature key :=
    some (decide (message = validatorEnvelope.preimage validatedState ∧
      signature = validatorEnvelope.signature ∧ key = validatorKey))
  sha256 := Sha256.sha256

def firstConsensus : ConsensusState :=
  { timestamp := 1700000000
    ledgerHash := List.replicate 32 3
    root := List.replicate 32 4 }

def instantiateSample : { msg : Msg // msg.Fits } :=
  ⟨.instantiate ⟨validatedState.encode, firstConsensus.encode, [1, 2, 3]⟩, by
    unfold Msg.Fits
    decide⟩

/-- A header that advances from height 7 to `ledgerSeq`. -/
def headerMessage (ledgerSeq : UInt64) (root : Bytes) : Bytes :=
  encodeRecords (messageRecord 4 (bytesRecord 1 validatorEnvelope.nodeId ++
      (bytesRecord 2 validatorEnvelope.statementXdr ++
        bytesRecord 3 validatorEnvelope.signature)) ::
    messageRecord 5 (Height.mk 0 7).records ::
    storedFields ledgerSeq 1700000005 (List.replicate 32 5) root)

theorem fits_updateSample :
    (Msg.sudoMsg (.updateState (headerMessage 9 (List.replicate 32 6)))).Fits := by
  unfold Msg.Fits
  decide +kernel

/-- Heights 9 and then 8, a second root for 8 and a second instantiation. -/
def sampleMessages : List { msg : Msg // msg.Fits } :=
  [instantiateSample,
    ⟨.sudoMsg (.updateState (headerMessage 9 (List.replicate 32 6))), fits_updateSample⟩,
    ⟨.sudoMsg (.updateState (headerMessage 8 (List.replicate 32 7))), by
      unfold Msg.Fits
      decide +kernel⟩,
    ⟨.sudoMsg (.updateState (headerMessage 8 (List.replicate 32 9))), by
      unfold Msg.Fits
      decide +kernel⟩,
    instantiateSample]

theorem appendOnly_sampleMessages :
    ((executeMsgs validatorApi sampleMessages).1.map (·.act.outcome) =
      [.ok none, .ok (some (.updateState [⟨0, 9⟩])), .ok (some (.updateState [⟨0, 8⟩])),
        .error (.consensusStateConflict 8), .error .alreadyInitialised] ∧
      (executeMsgs validatorApi sampleMessages).2.clientState =
        some { validatedState with latestHeight := some ⟨0, 9⟩ }) ∧
      AppendOnly (executeMsgs validatorApi sampleMessages).1 := by
  refine ⟨by decide +kernel, ?_⟩
  exact appendOnly_of_run (run_executeMsgs validatorApi sampleMessages)

end StellarIbc.LightClient
