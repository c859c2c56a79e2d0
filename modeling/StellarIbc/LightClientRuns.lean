import StellarIbc.Fallible
import StellarIbc.LightClientHeaders
import StellarIbc.Trace

/-!
# Runs of the Stellar light client

The entry points that write, with each write where the source has it: a call that fails
has written nothing, so it leaves the storage as `LightClient` says.  A run is any
sequence of instantiations and sudo messages on a contract that starts empty.
-/

namespace StellarIbc.LightClient

open Protobuf Fallible

/-! ### What an update writes -/

/-- The writes of `update_state`: the consensus state of the header, and its height where
that is the greatest so far. -/
def Storage.writeHeader (storage : Storage) (cs : ClientState) (header : StellarHeader) :
    Storage :=
  let stored := storage.setConsensusState header.ledgerSeq header.consensusState
  if (cs.latestHeight.map Height.revisionHeight).getD 0 < header.ledgerSeq then
    stored.setClientState { cs with latestHeight := some ⟨0, header.ledgerSeq⟩ }
  else
    stored

/-- The header says nothing else of its height than what is stored. -/
def Storage.Agrees (storage : Storage) (header : StellarHeader) : Prop :=
  ∀ existing ∈ storage.consensusState header.ledgerSeq, existing = header.consensusState

instance (storage : Storage) (header : StellarHeader) : Decidable (storage.Agrees header) :=
  inferInstanceAs (Decidable (∀ existing ∈ _, _))

theorem Storage.not_agrees_iff {storage : Storage} {header : StellarHeader} :
    ¬ storage.Agrees header ↔ ∃ existing,
      storage.consensusState header.ledgerSeq = some existing ∧
        existing ≠ header.consensusState := by
  unfold Storage.Agrees
  simp only [Option.mem_def, not_forall, exists_prop, ne_eq]

/-- An update passes the checks on its message and on the height's consensus state, and then
writes. -/
theorem updateState_eq (deps : Deps) (clientMessage : Bytes) :
    updateState deps clientMessage = (do
      let header ← verifyClientMessage deps clientMessage
      let cs ← requireClientState deps
      if deps.storage.Agrees header then
        return ([⟨0, header.ledgerSeq⟩], deps.storage.writeHeader cs header)
      else
        throw (.consensusStateConflict header.ledgerSeq)) := by
  unfold updateState
  congr 1
  funext header
  congr 1
  funext cs
  by_cases hagrees : deps.storage.Agrees header
  · rw [if_pos hagrees]
    cases hstored : deps.storage.consensusState header.ledgerSeq with
    | none => rfl
    | some existing =>
        simp only [hagrees existing hstored, ne_eq, not_true, if_false]
        rfl
  · rw [if_neg hagrees]
    obtain ⟨existing, hstored, hdiffers⟩ := Storage.not_agrees_iff.mp hagrees
    simp only [hstored, hdiffers, ne_eq, not_false_iff, if_true]
    rfl

/-! ### Entry points with their writes -/

namespace Entrypoint

abbrev EntryM (α : Type) := Fallible ContractError Storage α

variable {α : Type} (api : Api)

/-- A function that only reads, and `?` on what it returns. -/
def reading (read : Deps → Result α) : EntryM α := do
  match read ⟨← get, api⟩ with
  | .ok value => pure value
  | .error error => throw error

def instantiate (msg : InstantiateMsg) : EntryM Unit := do
  if (← get).clientState.isSome = true then
    throw .alreadyInitialised
  else
    let clientState ← orThrow (.invalidWire "client_state")
      (decode ClientState.merge msg.clientState)
    let consensusState ← orThrow (.invalidWire "consensus_state")
      (decode ConsensusState.merge msg.consensusState)
    let height ← orThrow (.invalidWire "client_state.latest_height") clientState.latestHeight
    modify fun storage => storage.setChecksum msg.checksum
    modify fun storage => storage.setClientState clientState
    modify fun storage => storage.setConsensusState height.revisionHeight consensusState

/-- The guard of `update_state` on a height that has a consensus state. -/
def requireNoConflict (height : UInt64) (newConsensus : ConsensusState) : EntryM Unit := do
  match (← get).consensusState height with
  | some existing =>
      if existing ≠ newConsensus then throw (.consensusStateConflict height) else pure ()
  | none => pure ()

def updateState (clientMessage : Bytes) : EntryM (List Height) := do
  let header ← reading api (verifyClientMessage · clientMessage)
  let cs ← reading api requireClientState
  let newConsensus := header.consensusState
  requireNoConflict header.ledgerSeq newConsensus
  modify fun storage => storage.setConsensusState header.ledgerSeq newConsensus
  let latest := (cs.latestHeight.map Height.revisionHeight).getD 0
  let height : Height := { revisionNumber := 0, revisionHeight := header.ledgerSeq }
  if latest < header.ledgerSeq then
    modify fun storage => storage.setClientState { cs with latestHeight := some height }
    return [height]
  else
    return [height]

def updateStateOnMisbehaviour : EntryM Unit := do
  let cs ← reading api requireClientState
  let latest := cs.latestHeight.getD default
  modify fun storage => storage.setClientState { cs with frozenHeight := some latest }

def runSudo : SudoMsg → EntryM SudoData
  | .updateState clientMessage => do return .updateState (← updateState api clientMessage)
  | .updateStateOnMisbehaviour _ => do
      updateStateOnMisbehaviour api
      return .empty
  | .checkForMisbehaviour clientMessage => do
      return .checkForMisbehaviour (← reading api (checkForMisbehaviour · clientMessage))
  | .verifyMembership msg => do
      reading api (verifyMembership · msg)
      return .empty
  | .verifyNonMembership msg => do
      reading api (verifyNonMembership · msg)
      return .empty

/-! ### A call that fails writes nothing -/

variable {api} {storage : Storage}

/-- The outcome and the storage of a call that either fails or writes all it has to. -/
def settle (storage : Storage) : Result (α × Storage) → Result α × Storage
  | .ok (value, post) => (.ok value, post)
  | .error error => (.error error, storage)

theorem ok_bind {β : Type} (value : α) (next : α → Result β) :
    Except.ok value >>= next = next value := rfl

theorem execute_reading (read : Deps → Result α) :
    execute (reading api read) storage = (read ⟨storage, api⟩, storage) := by
  have hexecute : execute (reading api read) storage =
      execute (match read ⟨storage, api⟩ with
        | .ok value => pure value
        | .error error => throw error : EntryM α) storage := rfl
  rw [hexecute]
  cases read ⟨storage, api⟩ with
  | ok value => rfl
  | error error => rfl

theorem execute_instantiate (msg : InstantiateMsg) :
    execute (instantiate msg) storage = settle storage
      ((LightClient.instantiate ⟨storage, api⟩ msg).map fun post => ((), post)) := by
  have hguard : execute (instantiate msg) storage =
      execute (if storage.clientState.isSome = true then throw .alreadyInitialised else _ :
        EntryM Unit) storage := rfl
  rw [hguard, LightClient.instantiate]
  by_cases hstored : storage.clientState.isSome = true
  · rw [if_pos hstored, if_pos hstored]
    rfl
  · rw [if_neg hstored, if_neg hstored]
    cases decode ClientState.merge msg.clientState with
    | none => rfl
    | some clientState =>
        cases decode ConsensusState.merge msg.consensusState with
        | none => rfl
        | some consensusState =>
            obtain ⟨chainId, latestHeight, rest⟩ := clientState
            cases latestHeight with
            | none => rfl
            | some height => rfl

theorem execute_requireNoConflict (header : StellarHeader) :
    execute (requireNoConflict header.ledgerSeq header.consensusState) storage =
      (if storage.Agrees header then .ok ()
        else .error (.consensusStateConflict header.ledgerSeq), storage) := by
  have hread : execute (requireNoConflict header.ledgerSeq header.consensusState) storage =
      execute (match storage.consensusState header.ledgerSeq with
        | some existing =>
            if existing ≠ header.consensusState then
              throw (.consensusStateConflict header.ledgerSeq)
            else pure ()
        | none => pure () : EntryM Unit) storage := rfl
  rw [hread]
  by_cases hagrees : storage.Agrees header
  · rw [if_pos hagrees]
    cases hstored : storage.consensusState header.ledgerSeq with
    | none => rfl
    | some existing =>
        simp only [hagrees existing hstored, ne_eq, not_true, if_false]
        rfl
  · rw [if_neg hagrees]
    obtain ⟨existing, hstored, hdiffers⟩ := Storage.not_agrees_iff.mp hagrees
    simp only [hstored, hdiffers, ne_eq, not_false_iff, if_true]
    rfl

theorem execute_updateState (clientMessage : Bytes) :
    execute (updateState api clientMessage) storage =
      settle storage (LightClient.updateState ⟨storage, api⟩ clientMessage) := by
  rw [updateState_eq]
  unfold updateState
  rw [execute_bind, execute_reading]
  cases verifyClientMessage ⟨storage, api⟩ clientMessage with
  | error error => rfl
  | ok header =>
      rw [ok_bind]
      dsimp only
      rw [execute_bind, execute_reading]
      cases requireClientState ⟨storage, api⟩ with
      | error error => rfl
      | ok cs =>
          rw [ok_bind]
          dsimp only
          rw [execute_bind, execute_requireNoConflict]
          by_cases hsame : storage.Agrees header
          · rw [if_pos hsame, if_pos hsame]
            dsimp only
            unfold Storage.writeHeader
            by_cases hgreater : (cs.latestHeight.map Height.revisionHeight).getD 0 <
                header.ledgerSeq
            · rw [if_pos hgreater, if_pos hgreater]
              rfl
            · rw [if_neg hgreater, if_neg hgreater]
              rfl
          · rw [if_neg hsame, if_neg hsame]
            rfl

theorem execute_updateStateOnMisbehaviour :
    execute (updateStateOnMisbehaviour api) storage = settle storage
      ((LightClient.updateStateOnMisbehaviour ⟨storage, api⟩).map fun post => ((), post)) := by
  unfold updateStateOnMisbehaviour LightClient.updateStateOnMisbehaviour
  rw [execute_bind, execute_reading]
  cases requireClientState ⟨storage, api⟩ with
  | error error => rfl
  | ok cs => rfl

theorem execute_runSudo (msg : SudoMsg) :
    execute (runSudo api msg) storage =
      settle storage (LightClient.runSudo ⟨storage, api⟩ msg) := by
  cases msg with
  | updateState clientMessage =>
      rw [runSudo, LightClient.runSudo, execute_bind, execute_updateState]
      cases LightClient.updateState ⟨storage, api⟩ clientMessage with
      | error error => rfl
      | ok result => rfl
  | updateStateOnMisbehaviour clientMessage =>
      rw [runSudo, LightClient.runSudo, execute_bind, execute_updateStateOnMisbehaviour]
      cases LightClient.updateStateOnMisbehaviour ⟨storage, api⟩ with
      | error error => rfl
      | ok post => rfl
  | checkForMisbehaviour clientMessage =>
      rw [runSudo, LightClient.runSudo, execute_bind, execute_reading]
      cases checkForMisbehaviour ⟨storage, api⟩ clientMessage with
      | error error => rfl
      | ok found => rfl
  | verifyMembership msg =>
      rw [runSudo, LightClient.runSudo, execute_bind, execute_reading]
      cases verifyMembership ⟨storage, api⟩ msg with
      | error error => rfl
      | ok result => rfl
  | verifyNonMembership msg =>
      rw [runSudo, LightClient.runSudo, execute_bind, execute_reading]
      cases verifyNonMembership ⟨storage, api⟩ msg with
      | error error => rfl
      | ok result => rfl

end Entrypoint

/-! ### Runs -/

/-- A message to one of the two entry points that may write. -/
inductive Msg where
  | instantiate (msg : InstantiateMsg)
  | sudoMsg (msg : SudoMsg)

/-- The byte vectors of a message. -/
def Msg.payloads : Msg → List Bytes
  | .instantiate msg => [msg.clientState, msg.consensusState, msg.checksum]
  | .sudoMsg (.updateState clientMessage)
  | .sudoMsg (.updateStateOnMisbehaviour clientMessage)
  | .sudoMsg (.checkForMisbehaviour clientMessage) => [clientMessage]
  | .sudoMsg (.verifyMembership msg) => msg.proof :: msg.value :: msg.merklePath
  | .sudoMsg (.verifyNonMembership msg) => msg.proof :: msg.merklePath

/-- No byte vector is larger than the memory of the 32-bit wasm machine. -/
def Msg.Fits (msg : Msg) : Prop := ∀ payload ∈ msg.payloads, payload.length < 2 ^ 32

/-- A message with its outcome; an instantiation returns no data. -/
structure Tx where
  msg : Msg
  fits : msg.Fits
  outcome : Result (Option SudoData)

def Msg.exec (api : Api) : Msg → Entrypoint.EntryM (Option SudoData)
  | .instantiate msg => do
      Entrypoint.instantiate msg
      return none
  | .sudoMsg msg => do return some (← Entrypoint.runSudo api msg)

def Step (api : Api) (pre : Storage) (tx : Tx) (post : Storage) : Prop :=
  Ends (tx.msg.exec api) pre tx.outcome post

/-- Every run of a contract: any messages in any order, on a storage that starts empty. -/
abbrev Run (api : Api) : List (Entry Storage Tx) → Storage → Prop :=
  Reach (fun storage => storage = fun _ => none) (Step api)

/-- What a message returns and the storage it leaves, if it does not fail. -/
def Msg.respond (deps : Deps) : Msg → Result (Option SudoData × Storage)
  | .instantiate msg => do return (none, ← LightClient.instantiate deps msg)
  | .sudoMsg msg => do
      let (data, post) ← runSudo deps msg
      return (some data, post)

variable {api : Api} {pre post storage : Storage}

theorem execute_exec (msg : Msg) :
    execute (msg.exec api) storage =
      Entrypoint.settle storage (msg.respond ⟨storage, api⟩) := by
  cases msg with
  | instantiate msg =>
      rw [Msg.exec, Msg.respond, execute_bind, Entrypoint.execute_instantiate]
      cases instantiate ⟨storage, api⟩ msg with
      | error error => rfl
      | ok post => rfl
  | sudoMsg msg =>
      rw [Msg.exec, Msg.respond, execute_bind, Entrypoint.execute_runSudo]
      cases runSudo ⟨storage, api⟩ msg with
      | error error => rfl
      | ok result => rfl

/-- A message fails and leaves the storage as it was, or returns and leaves what it wrote. -/
theorem Step.settled {tx : Tx} (hstep : Step api pre tx post) :
    (∃ error, tx.outcome = .error error ∧ tx.msg.respond ⟨pre, api⟩ = .error error ∧
      post = pre) ∨
    ∃ data, tx.outcome = .ok data ∧ tx.msg.respond ⟨pre, api⟩ = .ok (data, post) := by
  have hexecute := @execute_exec api pre tx.msg
  rw [hstep] at hexecute
  cases hrespond : tx.msg.respond ⟨pre, api⟩ with
  | error error =>
      rw [hrespond] at hexecute
      obtain ⟨houtcome, hpost⟩ := Prod.mk.inj hexecute
      exact .inl ⟨error, houtcome, rfl, hpost⟩
  | ok result =>
      rw [hrespond] at hexecute
      obtain ⟨houtcome, hpost⟩ := Prod.mk.inj hexecute
      exact .inr ⟨result.1, houtcome, by rw [hpost]⟩

theorem Step.refused {tx : Tx} (hstep : Step api pre tx post) {error : ContractError}
    (h : tx.msg.respond ⟨pre, api⟩ = .error error) : tx.outcome = .error error := by
  rcases hstep.settled with ⟨error', houtcome, hrespond, -⟩ | ⟨data, -, hrespond⟩
  · obtain rfl := Except.error.inj (hrespond.symm.trans h)
    exact houtcome
  · rw [h] at hrespond
    cases hrespond

/-! ### What a message writes -/

/-- Everything a message that returns can do to the storage. -/
inductive Effect (pre : Storage) : Msg → Storage → Prop
  | instantiate {msg : InstantiateMsg} {state : ClientState} {consensus : ConsensusState}
      {height : Height} (hnew : pre.clientState = none)
      (hstate : decode ClientState.merge msg.clientState = some state)
      (hconsensus : decode ConsensusState.merge msg.consensusState = some consensus)
      (hheight : state.latestHeight = some height) :
      Effect pre (.instantiate msg)
        (((pre.setChecksum msg.checksum).setClientState state).setConsensusState
          height.revisionHeight consensus)
  | update {clientMessage : Bytes} {header : StellarHeader} {state : ClientState}
      (hstate : pre.clientState = some state) (hlive : state.frozenHeight = none)
      (hheader : decode StellarHeader.merge clientMessage = some header)
      (hagrees : pre.Agrees header) :
      Effect pre (.sudoMsg (.updateState clientMessage)) (pre.writeHeader state header)
  | freeze {clientMessage : Bytes} {state : ClientState}
      (hstate : pre.clientState = some state) :
      Effect pre (.sudoMsg (.updateStateOnMisbehaviour clientMessage))
        (pre.setClientState
          { state with frozenHeight := some (state.latestHeight.getD default) })
  | read {msg : Msg} : Effect pre msg pre

theorem instantiate_eq_ok {deps : Deps} {msg : InstantiateMsg} {post : Storage}
    (h : instantiate deps msg = .ok post) :
    ∃ state consensus height, deps.storage.clientState = none ∧
      decode ClientState.merge msg.clientState = some state ∧
      decode ConsensusState.merge msg.consensusState = some consensus ∧
      state.latestHeight = some height ∧
      post = ((deps.storage.setChecksum msg.checksum).setClientState state).setConsensusState
        height.revisionHeight consensus := by
  unfold instantiate at h
  by_cases hstored : deps.storage.clientState.isSome = true
  · rw [if_pos hstored] at h
    cases h
  · rw [if_neg hstored] at h
    simp only [bind_ok_iff, orError_eq_ok] at h
    obtain ⟨state, hstate, consensus, hconsensus, height, hheight, hpost⟩ := h
    exact ⟨state, consensus, height, Option.not_isSome_iff_eq_none.mp hstored, hstate,
      hconsensus, hheight, (Except.ok.inj hpost).symm⟩

theorem updateState_eq_ok {deps : Deps} {clientMessage : Bytes} {heights : List Height}
    {post : Storage} (h : updateState deps clientMessage = .ok (heights, post)) :
    ∃ header state, deps.storage.clientState = some state ∧ state.frozenHeight = none ∧
      decode StellarHeader.merge clientMessage = some header ∧
      deps.storage.Agrees header ∧ post = deps.storage.writeHeader state header := by
  rw [updateState_eq] at h
  simp only [bind_ok_iff, requireClientState, orError_eq_ok, ite_ok_iff] at h
  obtain ⟨header, hverified, state, hstate, hagrees, hpost⟩ := h
  obtain ⟨state', trusted, hstate', hlive, hheader, -⟩ := verifyClientMessage_eq_ok.mp hverified
  obtain rfl := Option.some.inj (hstate'.symm.trans hstate)
  exact ⟨header, state', hstate, hlive, hheader, hagrees, (Prod.mk.inj hpost).2.symm⟩

theorem Effect.of_respond {deps : Deps} {msg : Msg} {data : Option SudoData} {post : Storage}
    (h : msg.respond deps = .ok (data, post)) : Effect deps.storage msg post := by
  cases msg with
  | instantiate msg =>
      rw [Msg.respond, bind_ok_iff] at h
      obtain ⟨written, hwritten, heq⟩ := h
      obtain ⟨state, consensus, height, hnew, hstate, hconsensus, hheight, rfl⟩ :=
        instantiate_eq_ok hwritten
      obtain ⟨-, rfl⟩ := Prod.mk.inj (Except.ok.inj heq)
      exact .instantiate hnew hstate hconsensus hheight
  | sudoMsg msg =>
      rw [Msg.respond, bind_ok_iff] at h
      obtain ⟨⟨result, written⟩, hwritten, heq⟩ := h
      obtain ⟨-, rfl⟩ := Prod.mk.inj (Except.ok.inj heq)
      cases msg with
      | updateState clientMessage =>
          rw [runSudo, bind_ok_iff] at hwritten
          obtain ⟨⟨heights, updated⟩, hupdated, heq⟩ := hwritten
          obtain ⟨-, rfl⟩ := Prod.mk.inj (Except.ok.inj heq)
          obtain ⟨header, state, hstate, hlive, hheader, hagrees, rfl⟩ :=
            updateState_eq_ok hupdated
          exact .update hstate hlive hheader hagrees
      | updateStateOnMisbehaviour clientMessage =>
          simp only [runSudo, updateStateOnMisbehaviour, requireClientState, bind_ok_iff,
            orError_eq_ok] at hwritten
          obtain ⟨_, ⟨state, hstate, hfrozen⟩, heq⟩ := hwritten
          obtain rfl := Except.ok.inj hfrozen
          obtain ⟨-, rfl⟩ := Prod.mk.inj (Except.ok.inj heq)
          exact .freeze hstate
      | checkForMisbehaviour clientMessage =>
          rw [runSudo, bind_ok_iff] at hwritten
          obtain ⟨_, -, heq⟩ := hwritten
          obtain ⟨-, rfl⟩ := Prod.mk.inj (Except.ok.inj heq)
          exact .read
      | verifyMembership msg =>
          rw [runSudo, bind_ok_iff] at hwritten
          obtain ⟨_, -, heq⟩ := hwritten
          obtain ⟨-, rfl⟩ := Prod.mk.inj (Except.ok.inj heq)
          exact .read
      | verifyNonMembership msg =>
          rw [runSudo, bind_ok_iff] at hwritten
          obtain ⟨_, -, heq⟩ := hwritten
          obtain ⟨-, rfl⟩ := Prod.mk.inj (Except.ok.inj heq)
          exact .read

end StellarIbc.LightClient
