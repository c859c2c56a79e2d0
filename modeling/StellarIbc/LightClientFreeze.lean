import StellarIbc.LightClientHistory

/-!
# Misbehaviour and freezing of the Stellar light client

A freeze is for good: from then on the storage does not change, and every entry point that
relies on the client refuses.  What leads to it is less sound.  The host can ask for
misbehaviour by a sudo message or by a query, and the query never reports any.
-/

namespace StellarIbc.LightClient

open Protobuf Fallible

variable {api : Api} {pre post storage : Storage} {client client' : Client} {frozen : Height}

/-! ### A frozen client refuses -/

theorem requireNotFrozen_of_frozen {state : ClientState} (h : state.frozenHeight = some frozen) :
    requireNotFrozen state = .error (.frozen frozen.revisionHeight) := by
  rw [requireNotFrozen, h]

theorem verifyClientMessage_of_frozen {deps : Deps} {state : ClientState}
    (hstate : deps.storage.clientState = some state) (h : state.frozenHeight = some frozen)
    (clientMessage : Bytes) :
    verifyClientMessage deps clientMessage = .error (.frozen frozen.revisionHeight) := by
  rw [verifyClientMessage, requireClientState, hstate, orError]
  have hrefused := requireNotFrozen_of_frozen h
  simp only [bind, Except.bind, hrefused]

theorem requireRoot_of_frozen {deps : Deps} {state : ClientState}
    (hstate : deps.storage.clientState = some state) (h : state.frozenHeight = some frozen)
    (height : UInt64) : requireRoot deps height = .error (.frozen frozen.revisionHeight) := by
  rw [requireRoot, requireClientState, hstate, orError]
  have hrefused := requireNotFrozen_of_frozen h
  simp only [bind, Except.bind, hrefused]

/-- The message relies on the client: an update or a proof. -/
def Msg.Relies : Msg → Prop
  | .sudoMsg (.updateState _) | .sudoMsg (.verifyMembership _)
  | .sudoMsg (.verifyNonMembership _) => True
  | _ => False

theorem respond_of_frozen {deps : Deps} {state : ClientState}
    (hstate : deps.storage.clientState = some state) (h : state.frozenHeight = some frozen)
    {msg : Msg} (hmsg : msg.Relies) :
    msg.respond deps = .error (.frozen frozen.revisionHeight) := by
  cases msg with
  | instantiate msg => exact hmsg.elim
  | sudoMsg msg =>
      cases msg with
      | updateState clientMessage =>
          rw [Msg.respond, runSudo, updateState_eq, verifyClientMessage_of_frozen hstate h]
          rfl
      | verifyMembership msg =>
          rw [Msg.respond, runSudo, verifyMembership, requireRoot_of_frozen hstate h]
          rfl
      | verifyNonMembership msg =>
          rw [Msg.respond, runSudo, verifyNonMembership, requireRoot_of_frozen hstate h]
          rfl
      | updateStateOnMisbehaviour clientMessage => exact hmsg.elim
      | checkForMisbehaviour clientMessage => exact hmsg.elim

/-- Every query for a verification is refused, and the status is frozen. -/
structure AnswersFrozen (storage : Storage) (frozen : Height) : Prop where
  verifyClientMessage : ∀ api clientMessage,
    query ⟨storage, api⟩ (.verifyClientMessage clientMessage) =
      .error (.frozen frozen.revisionHeight)
  status : ∀ api, query ⟨storage, api⟩ .status = .ok (.status .frozen)

theorem answersFrozen_of_frozen {state : ClientState}
    (hstate : storage.clientState = some state) (h : state.frozenHeight = some frozen) :
    AnswersFrozen storage frozen := by
  refine ⟨?_, ?_⟩
  · intro api clientMessage
    rw [query, verifyClientMessage_of_frozen hstate h]
    rfl
  · intro api
    rw [query, requireClientState, hstate, orError]
    simp only [bind, Except.bind, h]
    rfl

/-! ### A freeze is for good -/

/-- Frozen as `update_state_on_misbehaviour` leaves it, at the latest height. -/
def Client.FrozenAtLatest (client : Client) : Prop :=
  client.state.frozenHeight = some (client.state.latestHeight.getD default)

theorem Represents.setClientState_self (h : Represents storage client) :
    storage.setClientState client.state = storage := by
  unfold Storage.setClientState Storage.set
  rw [Function.update_eq_self_iff, h.checksum, h.stored]

/-- Freezing a second time writes what is there. -/
theorem Represents.frozen_effect (h : Represents pre client) (hfrozen : client.FrozenAtLatest)
    {msg : Msg} (heffect : Effect pre msg post) : post = pre := by
  cases heffect with
  | instantiate hnew hstate hconsensus hheight =>
      rw [h.clientState] at hnew
      cases hnew
  | update hstate hlive hheader hagrees =>
      obtain rfl := Option.some.inj (h.clientState.symm.trans hstate)
      rw [hfrozen] at hlive
      cases hlive
  | freeze hstate =>
      obtain rfl := Option.some.inj (h.clientState.symm.trans hstate)
      rw [← hfrozen]
      exact h.setClientState_self
  | read => rfl

theorem Step.eq_of_frozen {tx : Tx} (hstep : Step api pre tx post) (h : Represents pre client)
    (hfrozen : client.FrozenAtLatest) : post = pre := by
  rcases hstep.settled with ⟨error, -, -, rfl⟩ | ⟨data, -, hrespond⟩
  · rfl
  · exact h.frozen_effect hfrozen (.of_respond hrespond)

/-- A successful `update_state_on_misbehaviour`. -/
def Tx.Freezes (tx : Tx) : Prop :=
  (∃ clientMessage, tx.msg = .sudoMsg (.updateStateOnMisbehaviour clientMessage)) ∧
    ∃ data, tx.outcome = .ok data

theorem Step.freezes {tx : Tx} (hstep : Step api pre tx post) (hpre : Sound pre)
    (hfreezes : tx.Freezes) :
    ∃ client, client.FrozenAtLatest ∧ Represents post client := by
  obtain ⟨⟨clientMessage, hmsg⟩, data, hdata⟩ := hfreezes
  rcases hstep.settled with ⟨error, herror, -⟩ | ⟨data', -, hrespond⟩
  · rw [hdata] at herror
    cases herror
  · rw [hmsg] at hrespond
    simp only [Msg.respond, runSudo, updateStateOnMisbehaviour, requireClientState, bind_ok_iff,
      orError_eq_ok] at hrespond
    obtain ⟨_, ⟨_, ⟨state, hstate, hwritten⟩, heq⟩, heq'⟩ := hrespond
    obtain rfl := Except.ok.inj hwritten
    obtain rfl := Except.ok.inj heq
    obtain ⟨-, rfl⟩ := Prod.mk.inj (Except.ok.inj heq')
    rcases hpre with rfl | ⟨client, -, hclient⟩
    · cases hstate
    · obtain rfl := Option.some.inj (hclient.clientState.symm.trans hstate)
      exact ⟨client.freeze, rfl, hclient.setClientState hclient.bulk⟩

/-- After a freeze nothing changes and everything that relies on the client is refused. -/
def PermanentFreeze (history : List (Entry Storage Tx)) : Prop :=
  ∀ before entry after, history = before ++ entry :: after → entry.act.Freezes →
    ∃ frozen, AnswersFrozen entry.post frozen ∧ ∀ later ∈ after,
      later.post = entry.post ∧ AnswersFrozen later.post frozen ∧
      (later.act.msg.Relies → later.act.outcome = .error (.frozen frozen.revisionHeight))

/-- **Freezing is permanent and total** in every run. -/
theorem permanentFreeze_of_run {history : List (Entry Storage Tx)}
    (hrun : Run api history storage) : PermanentFreeze history := by
  intro before entry after hsplit hfreezes
  obtain ⟨hbefore, hstep⟩ := hrun.split hsplit
  obtain ⟨client, hfrozen, hclient⟩ := hstep.freezes (sound_of_run hbefore) hfreezes
  have hanswers := answersFrozen_of_frozen hclient.clientState hfrozen
  refine ⟨_, hanswers, ?_⟩
  intro later hlater
  have hpre : later.pre = entry.post := by
    refine hrun.before_later (fun storage => storage = entry.post) ?_ hsplit rfl hlater
    rintro step hstep hsame
    exact (hstep.eq_of_frozen (hsame ▸ hclient) hfrozen).trans hsame
  have hmem : later ∈ history := Reach.mem_of_later hsplit hlater
  have hlaterStep := hrun.step_of_mem hmem
  have hpost : later.post = entry.post :=
    (hlaterStep.eq_of_frozen (hpre ▸ hclient) hfrozen).trans hpre
  refine ⟨hpost, hpost ▸ hanswers, ?_⟩
  intro hrelies
  apply hlaterStep.refused
  exact respond_of_frozen (by rw [hpre]; exact hclient.clientState) hfrozen hrelies

/-- The sample client is frozen, and then tried in every way. -/
def frozenMessages : List { msg : Msg // msg.Fits } :=
  [instantiateSample,
    ⟨.sudoMsg (.updateStateOnMisbehaviour []), by
      unfold Msg.Fits
      decide⟩,
    ⟨.sudoMsg (.updateState (headerMessage 9 (List.replicate 32 6))), fits_updateSample⟩,
    ⟨.sudoMsg (.verifyMembership ⟨⟨0, 7⟩, [], [ascii "path"], [1]⟩), by
      unfold Msg.Fits
      decide⟩,
    ⟨.sudoMsg (.updateStateOnMisbehaviour []), by
      unfold Msg.Fits
      decide⟩]

theorem permanentFreeze_frozenMessages :
    (executeMsgs validatorApi frozenMessages).1.map (·.act.outcome) =
      [.ok none, .ok (some .empty), .error (.frozen 7), .error (.frozen 7),
        .ok (some .empty)] ∧
      PermanentFreeze (executeMsgs validatorApi frozenMessages).1 := by
  refine ⟨by decide +kernel, ?_⟩
  exact permanentFreeze_of_run (run_executeMsgs validatorApi frozenMessages)

/-! ### Two answers to one question -/

/-- What the query says of a message; an error is no verdict. -/
def queryVerdict (deps : Deps) (clientMessage : Bytes) : Option Bool :=
  match query deps (.checkForMisbehaviour clientMessage) with
  | .ok (.checkForMisbehaviour found) => some found
  | _ => none

/-- What the sudo message says. -/
def sudoVerdict (deps : Deps) (clientMessage : Bytes) : Option Bool :=
  match runSudo deps (.checkForMisbehaviour clientMessage) with
  | .ok (.checkForMisbehaviour found, _) => some found
  | _ => none

/-- The host verifies a message, asks for misbehaviour and freezes the client if there is
any. -/
def hostFlow (verdict : Deps → Bytes → Option Bool) (deps : Deps) (clientMessage : Bytes) :
    Option Storage := do
  let _ ← (query deps (.verifyClientMessage clientMessage)).toOption
  if ← verdict deps clientMessage then
    let (_, post) ← (runSudo deps (.updateStateOnMisbehaviour clientMessage)).toOption
    return post
  else
    return deps.storage

/-- The flow ends with a frozen client in the storage. -/
def EndsFrozen (verdict : Deps → Bytes → Option Bool) (deps : Deps) (clientMessage : Bytes) :
    Prop :=
  ∃ post state, hostFlow verdict deps clientMessage = some post ∧
    post.clientState = some state ∧ state.frozenHeight ≠ none

/-- The two entry points agree on a message, and both report a header that is accepted and
contradicts what is stored. -/
structure ChecksAgree (deps : Deps) (clientMessage : Bytes) : Prop where
  verdict : queryVerdict deps clientMessage = sudoVerdict deps clientMessage
  conflict : ∀ header, verifyClientMessage deps clientMessage = .ok header →
    ¬ deps.storage.Agrees header →
    (queryVerdict deps clientMessage = some true ∧ EndsFrozen queryVerdict deps clientMessage) ∧
      sudoVerdict deps clientMessage = some true ∧ EndsFrozen sudoVerdict deps clientMessage

/-- The client is frozen already, or the message is a header that agrees with what is
stored. -/
def NothingToReport (deps : Deps) (clientMessage : Bytes) : Prop :=
  ∃ state, deps.storage.clientState = some state ∧
    (state.frozenHeight ≠ none ∨ ∃ header,
      decode StellarHeader.merge clientMessage = some header ∧ deps.storage.Agrees header)

/-- The client is not frozen, and the message is a header that contradicts what is stored. -/
def Contradicts (deps : Deps) (clientMessage : Bytes) : Prop :=
  ∃ state header, deps.storage.clientState = some state ∧ state.frozenHeight = none ∧
    decode StellarHeader.merge clientMessage = some header ∧ ¬ deps.storage.Agrees header

theorem queryVerdict_eq (deps : Deps) (clientMessage : Bytes) :
    queryVerdict deps clientMessage = some false := rfl

theorem sudoVerdict_eq (deps : Deps) (clientMessage : Bytes) :
    sudoVerdict deps clientMessage = (checkForMisbehaviour deps clientMessage).toOption := by
  rw [sudoVerdict, runSudo]
  cases checkForMisbehaviour deps clientMessage with
  | error error => rfl
  | ok found => rfl

theorem checkForMisbehaviour_of_frozen {deps : Deps} {state : ClientState}
    (hstate : deps.storage.clientState = some state) (h : state.frozenHeight = some frozen)
    (clientMessage : Bytes) : checkForMisbehaviour deps clientMessage = .ok false := by
  rw [checkForMisbehaviour, requireClientState, hstate, orError]
  simp only [bind, Except.bind, h, Option.isSome_some, if_true]
  rfl

theorem checkForMisbehaviour_of_live {deps : Deps} {state : ClientState}
    (hstate : deps.storage.clientState = some state) (h : state.frozenHeight = none)
    (clientMessage : Bytes) :
    checkForMisbehaviour deps clientMessage =
      (decodeHeader clientMessage).map fun header => decide (¬ deps.storage.Agrees header) := by
  rw [checkForMisbehaviour, requireClientState, hstate, orError]
  simp only [bind, Except.bind, h, Option.isSome_none, Bool.false_eq_true, if_false]
  cases decodeHeader clientMessage with
  | error error => rfl
  | ok header =>
      by_cases hagrees : deps.storage.Agrees header
      · cases hstored : deps.storage.consensusState header.ledgerSeq with
        | none => simp [Except.map, hagrees, hstored, pure, Except.pure]
        | some existing =>
            have hsame := hagrees existing hstored
            simp [Except.map, hagrees, hstored, hsame, pure, Except.pure]
      · obtain ⟨existing, hstored, hdiffers⟩ := Storage.not_agrees_iff.mp hagrees
        simp [Except.map, hagrees, hstored, hdiffers, pure, Except.pure]

theorem checkForMisbehaviour_of_missing {deps : Deps}
    (hstate : deps.storage.clientState = none) (clientMessage : Bytes) :
    checkForMisbehaviour deps clientMessage = .error .notInitialised := by
  rw [checkForMisbehaviour, requireClientState, hstate, orError]
  rfl

theorem sudoVerdict_eq_false {deps : Deps} {clientMessage : Bytes} :
    sudoVerdict deps clientMessage = some false ↔ NothingToReport deps clientMessage := by
  rw [sudoVerdict_eq, NothingToReport]
  cases hstate : deps.storage.clientState with
  | none =>
      rw [checkForMisbehaviour_of_missing hstate]
      simp [Except.toOption]
  | some state =>
      cases hfrozen : state.frozenHeight with
      | some frozen =>
          rw [checkForMisbehaviour_of_frozen hstate hfrozen]
          simp [Except.toOption, hfrozen]
      | none =>
          rw [checkForMisbehaviour_of_live hstate hfrozen, decodeHeader]
          cases hheader : decode StellarHeader.merge clientMessage with
          | none => simp [orError, Except.map, Except.toOption, hfrozen]
          | some header => simp [orError, Except.map, Except.toOption, hfrozen]

theorem sudoVerdict_eq_true {deps : Deps} {clientMessage : Bytes} :
    sudoVerdict deps clientMessage = some true ↔ Contradicts deps clientMessage := by
  rw [sudoVerdict_eq, Contradicts]
  cases hstate : deps.storage.clientState with
  | none =>
      rw [checkForMisbehaviour_of_missing hstate]
      simp [Except.toOption]
  | some state =>
      cases hfrozen : state.frozenHeight with
      | some frozen =>
          rw [checkForMisbehaviour_of_frozen hstate hfrozen]
          simp [Except.toOption, hfrozen]
      | none =>
          rw [checkForMisbehaviour_of_live hstate hfrozen, decodeHeader]
          cases hheader : decode StellarHeader.merge clientMessage with
          | none => simp [orError, Except.map, Except.toOption]
          | some header => simp [orError, Except.map, Except.toOption, hfrozen]

theorem contradicts_of_accepted {deps : Deps} {clientMessage : Bytes} {header : StellarHeader}
    (haccepted : verifyClientMessage deps clientMessage = .ok header)
    (hconflict : ¬ deps.storage.Agrees header) : Contradicts deps clientMessage := by
  obtain ⟨state, trusted, hstate, hlive, hheader, -⟩ := verifyClientMessage_eq_ok.mp haccepted
  exact ⟨state, header, hstate, hlive, hheader, hconflict⟩

/-- **The two checks agree** exactly where there is nothing to report.  Whether they differ
in what they report, errors aside, depends on the stored consensus state alone. -/
theorem checksAgree_iff (deps : Deps) (clientMessage : Bytes) :
    (ChecksAgree deps clientMessage ↔ NothingToReport deps clientMessage) ∧
      ((queryVerdict deps clientMessage = some true ↔
          sudoVerdict deps clientMessage = some true) ↔
        ¬ Contradicts deps clientMessage) := by
  refine ⟨⟨?_, ?_⟩, ?_⟩
  · intro hagree
    exact sudoVerdict_eq_false.mp (hagree.verdict.symm.trans (queryVerdict_eq _ _))
  · intro hnothing
    have hsudo := sudoVerdict_eq_false.mpr hnothing
    refine ⟨(queryVerdict_eq _ _).trans hsudo.symm, ?_⟩
    intro header haccepted hconflict
    have hreported := sudoVerdict_eq_true.mpr (contradicts_of_accepted haccepted hconflict)
    rw [hsudo] at hreported
    cases hreported
  · rw [queryVerdict_eq, sudoVerdict_eq_true]
    simp

/-- The sample client with consensus states at heights 7, 8 and 9. -/
def updatedDeps : Deps where
  storage := (executeMsgs validatorApi (sampleMessages.take 3)).2
  api := validatorApi

/-- A second root for height 8, with a signature that is accepted. -/
def conflictingMessage : Bytes := headerMessage 8 (List.replicate 32 9)

/-- The query passes over it, and the client stays active. -/
theorem checksAgree_fails_on_conflict :
    ((query updatedDeps (.verifyClientMessage conflictingMessage) = .ok .empty ∧
        queryVerdict updatedDeps conflictingMessage = some false ∧
        sudoVerdict updatedDeps conflictingMessage = some true) ∧
      (hostFlow queryVerdict updatedDeps conflictingMessage).map
          (fun post => query ⟨post, validatorApi⟩ .status) =
        some (.ok (.status .active))) ∧
      ¬ ChecksAgree updatedDeps conflictingMessage := by
  have hverdicts : queryVerdict updatedDeps conflictingMessage = some false ∧
      sudoVerdict updatedDeps conflictingMessage = some true := by
    decide +kernel
  refine ⟨⟨⟨by decide +kernel, hverdicts⟩, by decide +kernel⟩, ?_⟩
  intro hagree
  have hsame := hagree.verdict
  rw [hverdicts.1, hverdicts.2] at hsame
  cases hsame

end StellarIbc.LightClient
