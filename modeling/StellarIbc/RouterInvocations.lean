import Mathlib.Logic.Relation
import StellarIbc.RouterClients
import StellarIbc.RouterFrames

/-!
# The calls that change the other contracts

What the router does to the other contracts it does by calling them.  `Makes` lists the
calls that an entrypoint can make with a given storage: which contract is called, and with
which arguments.  A call of the router takes the other contracts from one state to another
by a sequence of these.
-/

namespace StellarIbc.Router

open Contract

variable {X : Type} {sha256 : Bytes → Hash} {env : Env X}

/-- An invocation that a call of the router makes while its storage is `s`. -/
inductive Makes (s : Storage) : Call → Address → Invocation → Prop
  | initialise {clientType clientId : HostString} {clientState consensusState : Bytes}
      {height : UInt64} {callee : Address} (hcallee : s.clientTypeAddr clientType = some callee) :
      Makes s (.createClient clientType clientState consensusState height) callee
        (.initialise clientId clientState consensusState height)
  | check {c : HostString} {message : Bytes} {callee : Address}
      (hcallee : s.clientLcAddr c = some callee) :
      Makes s (.updateClient c message) callee (.checkForMisbehaviour c message)
  | freeze {c : HostString} {message : Bytes} {callee : Address}
      (hcallee : s.clientLcAddr c = some callee) :
      Makes s (.updateClient c message) callee (.updateStateOnMisbehaviour c message)
  | update {c : HostString} {message : Bytes} {callee : Address}
      (hcallee : s.clientLcAddr c = some callee) :
      Makes s (.updateClient c message) callee (.updateState c message)
  | received {packet : Packet} {proof path value : Bytes} {height : UInt64} {callee : Address}
      (hcallee : s.clientLcAddr packet.destClient = some callee) :
      Makes s (.recvPacket packet proof height) callee
        (.verifyMembership packet.destClient height proof path value)
  | receive {packet : Packet} {proof : Bytes} {height : UInt64} {payload : Payload}
      {callee : Address} (hmem : payload ∈ packet.payloads)
      (hcallee : s.port payload.destPort = some callee) :
      Makes s (.recvPacket packet proof height) callee
        (.onRecvPacket (recvCallback packet payload))
  | acknowledged {packet : Packet} {acks : List Bytes} {proof path value : Bytes}
      {height : UInt64} {callee : Address}
      (hcallee : s.clientLcAddr packet.sourceClient = some callee) :
      Makes s (.acknowledgePacket packet acks proof height) callee
        (.verifyMembership packet.sourceClient height proof path value)
  | acknowledge {packet : Packet} {acks : List Bytes} {proof ack : Bytes} {height : UInt64}
      {payload : Payload} {callee : Address} (hmem : payload ∈ packet.payloads)
      (hcallee : s.port payload.sourcePort = some callee) :
      Makes s (.acknowledgePacket packet acks proof height) callee
        (.onAcknowledgementPacket (ackCallback packet payload ack))
  | clock {packet : Packet} {proof : Bytes} {height : UInt64} {callee : Address}
      (hcallee : s.clientLcAddr packet.sourceClient = some callee) :
      Makes s (.timeoutPacket packet proof height) callee
        (.getTimestampAtHeight packet.sourceClient height)
  | missing {packet : Packet} {proof path : Bytes} {height : UInt64} {callee : Address}
      (hcallee : s.clientLcAddr packet.sourceClient = some callee) :
      Makes s (.timeoutPacket packet proof height) callee
        (.verifyNonMembership packet.sourceClient height proof path)
  | timeout {packet : Packet} {proof : Bytes} {height : UInt64} {payload : Payload}
      {callee : Address} (hmem : payload ∈ packet.payloads)
      (hcallee : s.port payload.sourcePort = some callee) :
      Makes s (.timeoutPacket packet proof height) callee
        (.onTimeoutPacket (timeoutCallback packet payload))

/-- One of the calls in `allowed` takes the other contracts from `x` to `x'`. -/
def Invokes (env : Env X) (allowed : Address → Invocation → Prop) (x x' : X) : Prop :=
  ∃ callee call value, allowed callee call ∧ env.invoke callee call x = some (value, x')

/-- A sequence of them does. -/
abbrev Reaches (env : Env X) (allowed : Address → Invocation → Prop) : X → X → Prop :=
  Relation.ReflTransGen (Invokes env allowed)

section

variable {allowed : Address → Invocation → Prop} {x x' x'' : X}

theorem Reaches.call {callee : Address} {call : Invocation} {value : call.Result}
    (hallowed : allowed callee call) (hinvoke : env.invoke callee call x = some (value, x')) :
    Reaches env allowed x x' :=
  .single ⟨callee, call, value, hallowed, hinvoke⟩

theorem Reaches.of_eq (h : x' = x) : Reaches env allowed x x' := by
  rw [h]

/-- What each of the calls keeps, the sequence keeps. -/
theorem Reaches.keeps {P : X → Prop} (h : Reaches env allowed x x')
    (hcall : ∀ {callee} {call : Invocation} {value y y'}, allowed callee call →
      env.invoke callee call y = some (value, y') → P y → P y') (hx : P x) : P x' := by
  induction h with
  | refl => exact hx
  | tail _ hlast ih =>
      obtain ⟨callee, call, value, hallowed, hinvoke⟩ := hlast
      exact hcall hallowed hinvoke ih

end

instance : SeesCalls (fun ctx : Ctx X => ctx.ext) where
  storage _ _ := rfl
  hashed _ _ := rfl
  published _ _ := rfl

/-! ### Loops over the payloads -/

section

variable (call : Call) (s : Storage) {packet : Packet} {pre post : Ctx X}

theorem reaches_recvLoop {payloads : List Payload} {acks : List Bytes}
    (h : Returns (payloads.mapM (onRecvPayload env packet)) pre acks post)
    (hmakes : ∀ payload ∈ payloads, ∀ callee, pre.storage.port payload.destPort = some callee →
      Makes s call callee (.onRecvPacket (recvCallback packet payload))) :
    Reaches env (Makes s call) pre.ext post.ext := by
  induction payloads generalizing pre acks with
  | nil =>
      simp only [List.mapM_nil, returns_pure] at h
      rw [h.2]
  | cons payload payloads ih =>
      simp only [List.mapM_cons, onRecvPayload, portApp, returns_bind, returns_storage,
        returns_pure, returns_unwrapOr] at h
      obtain ⟨ack, _, ⟨_, _, ⟨_, _, ⟨rfl, rfl⟩, rfl, rfl⟩, app, _, ⟨happ, rfl⟩, hcall⟩,
        rest, _, hrest, rfl, rfl⟩ := h
      obtain ⟨ext, hinvoke, rfl⟩ := returns_invokeContract.mp hcall
      rw [List.forall_mem_cons] at hmakes
      exact (Reaches.call (hmakes.1 app happ) hinvoke).trans (ih hrest hmakes.2)

theorem reaches_ackLoop {items : List (Payload × Nat)} {acks : List Bytes} {result : PUnit}
    (h : Returns (items.forM (onAckPayload sha256 env packet acks)) pre result post)
    (hmakes : ∀ item ∈ items, ∀ callee ack, pre.storage.port item.1.sourcePort = some callee →
      Makes s call callee (.onAcknowledgementPacket (ackCallback packet item.1 ack))) :
    Reaches env (Makes s call) pre.ext post.ext := by
  induction items generalizing pre with
  | nil =>
      simp only [List.forM_eq_forM, List.forM_nil, returns_pure] at h
      rw [h.2]
  | cons item items ih =>
      simp only [List.forM_eq_forM, List.forM_cons, onAckPayload, portApp, returns_bind,
        returns_storage, returns_pure, returns_unwrapOr] at h
      obtain ⟨_, _, ⟨ack, _, hack, _, _, ⟨_, _, ⟨rfl, rfl⟩, rfl, rfl⟩, app, _, ⟨happ, rfl⟩,
        hcall⟩, hrest⟩ := h
      obtain ⟨ext, hinvoke, rfl⟩ := returns_invokeContract.mp hcall
      obtain ⟨-, strings, rfl⟩ := returns_ackAt hack
      rw [List.forall_mem_cons] at hmakes
      exact (Reaches.call (hmakes.1 app ack happ) hinvoke).trans (ih hrest hmakes.2)

theorem reaches_timeoutLoop {payloads : List Payload} {result : PUnit}
    (h : Returns (payloads.forM (onTimeoutPayload env packet)) pre result post)
    (hmakes : ∀ payload ∈ payloads, ∀ callee,
      pre.storage.port payload.sourcePort = some callee →
      Makes s call callee (.onTimeoutPacket (timeoutCallback packet payload))) :
    Reaches env (Makes s call) pre.ext post.ext := by
  induction payloads generalizing pre with
  | nil =>
      simp only [List.forM_eq_forM, List.forM_nil, returns_pure] at h
      rw [h.2]
  | cons payload payloads ih =>
      simp only [List.forM_eq_forM, List.forM_cons, onTimeoutPayload, portApp, returns_bind,
        returns_storage, returns_pure, returns_unwrapOr] at h
      obtain ⟨_, _, ⟨_, _, ⟨_, _, ⟨rfl, rfl⟩, rfl, rfl⟩, app, _, ⟨happ, rfl⟩, hcall⟩,
        hrest⟩ := h
      obtain ⟨ext, hinvoke, rfl⟩ := returns_invokeContract.mp hcall
      rw [List.forall_mem_cons] at hmakes
      exact (Reaches.call (hmakes.1 app happ) hinvoke).trans (ih hrest hmakes.2)

end

/-! ### Entrypoints -/

section

variable {packet : Packet} {proof path value : Bytes} {acks : List Bytes} {height : UInt64}
variable {c : HostString} {pre post : Ctx X}

theorem reaches_verifyMembership (call : Call) {result : Unit}
    (h : Returns (verifyMembership env c height proof path value) pre result post)
    (hmakes : ∀ callee, pre.storage.clientLcAddr c = some callee →
      Makes pre.storage call callee (.verifyMembership c height proof path value)) :
    Reaches env (Makes pre.storage call) pre.ext post.ext := by
  obtain ⟨lcAddr, ext, hlc, hinvoke, rfl⟩ := returns_verifyMembership h
  exact .call (hmakes lcAddr hlc) hinvoke

theorem reaches_dispatchRecvCallbacks (call : Call) (s : Storage) {result : List Bytes}
    (h : Returns (dispatchRecvCallbacks sha256 env packet) pre result post)
    (hmakes : ∀ payload ∈ packet.payloads, ∀ callee,
      pre.storage.port payload.destPort = some callee →
      Makes s call callee (.onRecvPacket (recvCallback packet payload))) :
    Reaches env (Makes s call) pre.ext post.ext := by
  simp only [dispatchRecvCallbacks, errorAckHash, returns_bind, returns_ite,
    returns_sha256Bytes, returns_pure] at h
  obtain ⟨results, looped, hloop, hanswer⟩ := h
  have hreached := reaches_recvLoop call s hloop hmakes
  obtain ⟨-, _, _, ⟨-, rfl⟩, -, rfl⟩ | ⟨-, -, rfl⟩ := hanswer
  · exact hreached
  · exact hreached

theorem reaches_recvChecks {result : Unit}
    (h : Returns (recvChecks sha256 env packet proof height) pre result post) :
    Reaches env (Makes pre.storage (.recvPacket packet proof height)) pre.ext post.ext := by
  simp only [recvChecks, Router.counterparty, returns_bind, returns_panicIf, returns_storage,
    returns_pure, returns_unwrapOr] at h
  obtain ⟨_, _, ⟨_, _, ⟨rfl, rfl⟩, rfl, rfl⟩, cp, _, ⟨-, rfl⟩, _, _, ⟨-, rfl⟩, _, _,
    ⟨-, rfl⟩, _, _, hreceived, _, _, ⟨-, rfl⟩, _, _, hcommit, _, _, hpath, hverify⟩ := h
  obtain ⟨-, rfl⟩ := returns_hasPacketReceipt hreceived
  obtain ⟨-, -, rfl⟩ := returns_commitV2Packet.mp hcommit
  obtain ⟨-, -, rfl⟩ := returns_counterpartyV2Path.mp hpath
  have hproved := reaches_verifyMembership (.recvPacket packet proof height) hverify
    fun callee hcallee => .received hcallee
  exact hproved

theorem reaches_recvPacket {result : Unit}
    (h : Returns (recvPacket sha256 env packet proof height) pre result post) :
    Reaches env (Makes pre.storage (.recvPacket packet proof height)) pre.ext post.ext := by
  simp only [recvPacket_eq, returns_bind, returns_publish] at h
  obtain ⟨_, checked, hchecks, _, _, hreceipt, _, answered, hdispatch, _, _, hackHash, _, _,
    hset, _, _, rfl, rfl⟩ := h
  obtain ⟨cp, lcAddr, ext, -, -, -, -, -, -, hsame, -⟩ := returns_recvChecks hchecks
  obtain rfl := returns_setPacketReceipt hreceipt
  obtain ⟨-, rfl⟩ := returns_commitV2Acknowledgement.mp hackHash
  obtain rfl := returns_setAckCommitment hset
  have hanswered : Reaches env (Makes pre.storage (.recvPacket packet proof height)) checked.ext
      answered.ext := by
    have hanswered := reaches_dispatchRecvCallbacks (.recvPacket packet proof height)
      pre.storage hdispatch
    refine hanswered ?_
    intro payload hmem callee hcallee
    have hport : pre.storage.port payload.destPort = some callee := by
      rw [← hsame]
      exact hcallee
    exact .receive hmem hport
  exact (reaches_recvChecks hchecks).trans hanswered

theorem reaches_acknowledgePacket {result : Unit}
    (h : Returns (acknowledgePacket sha256 env packet acks proof height) pre result post) :
    Reaches env (Makes pre.storage (.acknowledgePacket packet acks proof height)) pre.ext
      post.ext := by
  simp only [acknowledgePacket, returns_bind, returns_publish] at h
  obtain ⟨cp, _, hcommitted, _, _, hackHash, _, _, hpath, _, _, hverify, _, settled, hdispatch,
    _, _, hdelete, rfl⟩ := h
  obtain ⟨-, rfl⟩ := returns_checkCommitted hcommitted
  obtain ⟨-, rfl⟩ := returns_commitV2Acknowledgement.mp hackHash
  obtain ⟨-, -, rfl⟩ := returns_counterpartyV2Path.mp hpath
  have hproved := reaches_verifyMembership (.acknowledgePacket packet acks proof height) hverify
    fun callee hcallee => .acknowledged hcallee
  obtain ⟨lcAddr, ext, -, -, rfl⟩ := returns_verifyMembership hverify
  obtain rfl := returns_deletePacketCommitment hdelete
  have hsettled := reaches_ackLoop (.acknowledgePacket packet acks proof height) pre.storage
    hdispatch
  refine hproved.trans (hsettled ?_)
  intro item hitem callee ack hcallee
  exact .acknowledge (List.fst_mem_of_mem_zipIdx hitem) hcallee

theorem reaches_timeoutPacket {result : Unit}
    (h : Returns (timeoutPacket sha256 env packet proof height) pre result post) :
    Reaches env (Makes pre.storage (.timeoutPacket packet proof height)) pre.ext post.ext := by
  simp only [timeoutPacket, clientLcAddress, returns_bind, returns_storage, returns_pure,
    returns_unwrapOr, returns_panicIf, returns_publish] at h
  obtain ⟨cp, _, hcommitted, _, _, ⟨_, _, ⟨rfl, rfl⟩, rfl, rfl⟩, lcAddr, _, ⟨hlc, rfl⟩,
    proofTs, _, hask, _, _, ⟨-, rfl⟩, _, _, hpath, _, _, hverify, _, settled, hdispatch, _, _,
    hdelete, rfl⟩ := h
  obtain ⟨-, rfl⟩ := returns_checkCommitted hcommitted
  obtain ⟨middle, hts, rfl⟩ := returns_invokeContract.mp hask
  obtain ⟨-, -, rfl⟩ := returns_counterpartyV2Path.mp hpath
  obtain ⟨lcAddr', ext, hlc', hinvoke, rfl⟩ := returns_verifyNonMembership hverify
  obtain rfl := returns_deletePacketCommitment hdelete
  have hclock : Reaches env (Makes pre.storage (.timeoutPacket packet proof height)) pre.ext
      middle := .call (.clock hlc) hts
  have hmissing : Reaches env (Makes pre.storage (.timeoutPacket packet proof height)) middle
      ext := .call (.missing hlc') hinvoke
  have hsettled := reaches_timeoutLoop (.timeoutPacket packet proof height) pre.storage hdispatch
  refine (hclock.trans hmissing).trans (hsettled ?_)
  intro payload hmem callee hcallee
  exact .timeout hmem hcallee

end

/-- **What a call does to the other contracts** it does by the invocations it makes. -/
theorem Returned.reaches {pre post : State X} {call : Call} {value : call.Result}
    {log : List Effect} (h : Returned sha256 env call pre value log post) :
    Reaches env (Makes pre.storage call) pre.ext post.ext := by
  have hquiet : call.invokes = [] → Reaches env (Makes pre.storage call) pre.ext post.ext := by
    intro hnone
    have hkeeps : Keeps (fun ctx : Ctx X => ctx.ext) (call.exec sha256 env) :=
      keeps_exec (by simp [hnone])
    exact .of_eq (hkeeps.keeps h)
  cases call with
  | createClient clientType clientState consensusState height =>
      obtain ⟨lcAddr, hlc, hinvoke⟩ := returns_createClient_calls h
      exact .call (.initialise hlc) hinvoke
  | updateClient c message =>
      obtain ⟨-, lcAddr, ext, hlc, ⟨hasked, hfroze, -⟩ | ⟨hasked, hupdated, -⟩⟩ :=
        returns_updateClient_calls h
      · exact (Reaches.call (.check hlc) hasked).trans (Reaches.call (.freeze hlc) hfroze)
      · exact (Reaches.call (.check hlc) hasked).trans (Reaches.call (.update hlc) hupdated)
  | recvPacket packet proof height => exact reaches_recvPacket h
  | acknowledgePacket packet acks proof height => exact reaches_acknowledgePacket h
  | timeoutPacket packet proof height => exact reaches_timeoutPacket h
  | _ => exact hquiet rfl

end StellarIbc.Router
