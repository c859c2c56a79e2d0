import StellarIbc.RouterSpecs
import StellarIbc.Trace

/-!
# The router as a transition system

`Call` lists the public methods of `IbcRouter` and `Call.exec` dispatches them.  A
run interleaves calls of anyone, successful or aborted, with steps of the other
contracts that do not enter the router.  `Returned.cases` says once what a
successful call can do to the provable store; invariants are derived from it.
-/

namespace StellarIbc.Router

open Contract

variable {X : Type}

/-! ### Entrypoints -/

inductive Call where
  | registerClientType (clientType : HostString) (lcAddress : Address)
  | lcAddress (clientType : HostString)
  | createClient (clientType : HostString) (clientState consensusState : Bytes)
      (height : UInt64)
  | registerCounterparty (clientId counterpartyClientId : HostString)
      (counterpartyCommitmentPrefix : List Bytes)
  | counterparty (clientId : HostString)
  | updateClient (clientId : HostString) (clientMessage : Bytes)
  | clientLcAddress (clientId : HostString)
  | frozen (clientId : HostString)
  | registerPort (portId : HostString) (appAddress : Address)
  | portApp (portId : HostString)
  | setPacketCommitment (sourceClientId : HostString) (sequence : UInt64) (commitment : Hash)
  | packetCommitment (sourceClientId : HostString) (sequence : UInt64)
  | deletePacketCommitment (sourceClientId : HostString) (sequence : UInt64)
  | setPacketReceipt (destClientId : HostString) (sequence : UInt64)
  | hasPacketReceipt (destClientId : HostString) (sequence : UInt64)
  | setAckCommitment (destClientId : HostString) (sequence : UInt64) (ackHash : Hash)
  | acknowledgement (destClientId : HostString) (sequence : UInt64)
  | sendPacket (sourceClientId : HostString) (timeoutTimestamp : UInt64)
      (payloads : List Payload)
  | recvPacket (packet : Packet) (proof : Bytes) (proofHeight : UInt64)
  | writeAcknowledgement (destClientId : HostString) (sequence : UInt64)
      (acknowledgements : List Bytes)
  | acknowledgePacket (packet : Packet) (acknowledgements : List Bytes) (proof : Bytes)
      (proofHeight : UInt64)
  | timeoutPacket (packet : Packet) (proof : Bytes) (proofHeight : UInt64)
deriving DecidableEq

abbrev Call.Result : Call → Type
  | .registerClientType .. => Unit
  | .lcAddress .. => Option Address
  | .createClient .. => HostString
  | .registerCounterparty .. => Unit
  | .counterparty .. => Option Counterparty
  | .updateClient .. => UInt64
  | .clientLcAddress .. => Option Address
  | .frozen .. => Bool
  | .registerPort .. => Unit
  | .portApp .. => Option Address
  | .setPacketCommitment .. => Unit
  | .packetCommitment .. => Option Hash
  | .deletePacketCommitment .. => Unit
  | .setPacketReceipt .. => Unit
  | .hasPacketReceipt .. => Bool
  | .setAckCommitment .. => Unit
  | .acknowledgement .. => Option Hash
  | .sendPacket .. => UInt64
  | .recvPacket .. => Unit
  | .writeAcknowledgement .. => Unit
  | .acknowledgePacket .. => Unit
  | .timeoutPacket .. => Unit

def Call.exec (sha256 : Bytes → Hash) (env : Env X) : (call : Call) → RouterM X call.Result
  | .registerClientType clientType address =>
      Router.registerClientType env clientType address
  | .lcAddress clientType => Router.lcAddress clientType
  | .createClient clientType clientState consensusState height =>
      Router.createClient env clientType clientState consensusState height
  | .registerCounterparty clientId counterpartyClientId counterpartyCommitmentPrefix =>
      Router.registerCounterparty clientId counterpartyClientId counterpartyCommitmentPrefix
  | .counterparty clientId => Router.counterparty clientId
  | .updateClient clientId clientMessage => Router.updateClient env clientId clientMessage
  | .clientLcAddress clientId => Router.clientLcAddress clientId
  | .frozen clientId => Router.frozen clientId
  | .registerPort portId appAddress => Router.registerPort env portId appAddress
  | .portApp portId => Router.portApp portId
  | .setPacketCommitment sourceClientId sequence commitment =>
      Router.setPacketCommitment sourceClientId sequence commitment
  | .packetCommitment sourceClientId sequence =>
      Router.packetCommitment sourceClientId sequence
  | .deletePacketCommitment sourceClientId sequence =>
      Router.deletePacketCommitment sourceClientId sequence
  | .setPacketReceipt destClientId sequence => Router.setPacketReceipt destClientId sequence
  | .hasPacketReceipt destClientId sequence => Router.hasPacketReceipt destClientId sequence
  | .setAckCommitment destClientId sequence ackHash =>
      Router.setAckCommitment destClientId sequence ackHash
  | .acknowledgement destClientId sequence => Router.acknowledgement destClientId sequence
  | .sendPacket sourceClientId timeoutTimestamp payloads =>
      Router.sendPacket sha256 env sourceClientId timeoutTimestamp payloads
  | .recvPacket packet proof proofHeight =>
      Router.recvPacket sha256 env packet proof proofHeight
  | .writeAcknowledgement destClientId sequence acknowledgements =>
      Router.writeAcknowledgement sha256 destClientId sequence acknowledgements
  | .acknowledgePacket packet acknowledgements proof proofHeight =>
      Router.acknowledgePacket sha256 env packet acknowledgements proof proofHeight
  | .timeoutPacket packet proof proofHeight =>
      Router.timeoutPacket sha256 env packet proof proofHeight

/-- The methods by what they may do to the provable store: write or erase an entry as
they are told, take a packet through its lifecycle, or neither. -/
inductive Kind where
  | rawSetter
  | lifecycle
  | registry
deriving DecidableEq

def Call.kind : Call → Kind
  | .setPacketCommitment .. | .deletePacketCommitment .. | .setPacketReceipt ..
  | .setAckCommitment .. => .rawSetter
  | .sendPacket .. | .recvPacket .. | .writeAcknowledgement .. | .acknowledgePacket ..
  | .timeoutPacket .. => .lifecycle
  | _ => .registry

/-! ### Runs -/

structure State (X : Type) where
  storage : Storage
  ext : X

/-- How a call ended: it returned a value and left a record, or it aborted and the
host rolled it back. -/
inductive Outcome (call : Call) where
  | returned (value : call.Result) (log : List Effect)
  | aborted

/-- One transaction that calls the router. -/
structure Tx (X : Type) where
  env : Env X
  call : Call
  outcome : Outcome call

/-- A step of a run: a call of the router, or a step of the other contracts. -/
inductive Act (X : Type) where
  | tx (tx : Tx X)
  | elsewhere

/-- What the step recorded; an aborted call records nothing. -/
def Act.log : Act X → List Effect
  | .tx ⟨_, _, .returned _ log⟩ => log
  | _ => []

/-- The transaction `tx` returned, from storage and callees `pre` to `post`. -/
def Returned (sha256 : Bytes → Hash) (env : Env X) (call : Call) (pre : State X)
    (value : call.Result) (log : List Effect) (post : State X) : Prop :=
  Returns (call.exec sha256 env) ⟨pre.storage, pre.ext, []⟩ value
    ⟨post.storage, post.ext, log⟩

def Tx.Step (sha256 : Bytes → Hash) (pre : State X) (tx : Tx X) (post : State X) : Prop :=
  match tx.outcome with
  | .returned value log => Returned sha256 tx.env tx.call pre value log post
  | .aborted =>
      Aborts (tx.call.exec sha256 tx.env) ⟨pre.storage, pre.ext, []⟩ ∧ post = pre

def Step (sha256 : Bytes → Hash) (pre : State X) (act : Act X) (post : State X) : Prop :=
  match act with
  | .tx tx => tx.Step sha256 pre post
  | .elsewhere => post.storage = pre.storage

def Init (state : State X) : Prop := ∃ admin, state.storage = .initial admin

/-- Every run of the router: any calls in any order, by anyone. -/
abbrev Run (sha256 : Bytes → Hash) : List (Entry (State X) (Act X)) → State X → Prop :=
  Reach Init (Step sha256)

/-! ### Executing a run -/

/-- A callee that accepts everything. -/
def Invocation.accept : (call : Invocation) → call.Result
  | .initialise .. => ()
  | .checkForMisbehaviour .. => false
  | .updateStateOnMisbehaviour .. => ()
  | .updateState .. => 1
  | .verifyMembership .. => true
  | .verifyNonMembership .. => true
  | .getTimestampAtHeight .. => 0
  | .onRecvPacket .. => ascii "ok"
  | .onAcknowledgementPacket .. => ()
  | .onTimeoutPacket .. => ()

/-- Execute one call and record it. -/
def State.execute (sha256 : Bytes → Hash) (state : State X) (env : Env X) (call : Call) :
    Entry (State X) (Act X) :=
  match (call.exec sha256 env).run ⟨state.storage, state.ext, []⟩ with
  | .ok (value, ctx) =>
      ⟨state, .tx ⟨env, call, .returned value ctx.log⟩, ⟨ctx.storage, ctx.ext⟩⟩
  | .error _ => ⟨state, .tx ⟨env, call, .aborted⟩, state⟩

/-- Execute calls one after the other from `state`, which `history` led to. -/
def State.executeAll (sha256 : Bytes → Hash) (history : List (Entry (State X) (Act X)))
    (state : State X) (calls : List (Env X × Call)) :
    List (Entry (State X) (Act X)) × State X :=
  feed (fun state call => state.execute sha256 call.1 call.2) history state calls

theorem State.execute_step (sha256 : Bytes → Hash) (state : State X) (env : Env X)
    (call : Call) :
    (state.execute sha256 env call).pre = state ∧
      Step sha256 state (state.execute sha256 env call).act
        (state.execute sha256 env call).post ∧
      ∃ outcome, (state.execute sha256 env call).act = .tx ⟨env, call, outcome⟩ := by
  unfold State.execute
  cases hcall : (call.exec sha256 env).run ⟨state.storage, state.ext, []⟩ with
  | error panic => exact ⟨rfl, ⟨⟨panic, hcall⟩, rfl⟩, _, rfl⟩
  | ok outcome => exact ⟨rfl, hcall, _, rfl⟩

/-- A call that does not abort is recorded with what it returned. -/
theorem State.execute_returned (sha256 : Bytes → Hash) (state : State X) (env : Env X)
    (call : Call)
    (h : ((call.exec sha256 env).run ⟨state.storage, state.ext, []⟩).isOk = true) :
    ∃ value log,
      (state.execute sha256 env call).act = .tx ⟨env, call, .returned value log⟩ := by
  unfold State.execute
  cases hcall : (call.exec sha256 env).run ⟨state.storage, state.ext, []⟩ with
  | error panic =>
      rw [hcall] at h
      cases h
  | ok outcome => exact ⟨_, _, rfl⟩

theorem Run.executeAll {sha256 : Bytes → Hash} {history : List (Entry (State X) (Act X))}
    {state : State X} (hrun : Run sha256 history state) (calls : List (Env X × Call)) :
    Run sha256 (state.executeAll sha256 history calls).1
      (state.executeAll sha256 history calls).2 := by
  refine Reach.feed_of_step ?_ hrun calls
  intro state item
  obtain ⟨hpre, hstep, -⟩ := state.execute_step sha256 item.1 item.2
  exact ⟨hpre, hstep⟩

/-! ### What a successful call can do -/

variable {sha256 : Bytes → Hash} {env : Env X} {pre post : State X}
variable {log : List Effect}

/-- `state` as the context a call starts in. -/
abbrev State.start (state : State X) : Ctx X := ⟨state.storage, state.ext, []⟩

/-- `state` as the context a call with record `log` ended in. -/
abbrev State.finish (state : State X) (log : List Effect) : Ctx X :=
  ⟨state.storage, state.ext, log⟩

theorem Step.returned {call : Call} {value : call.Result}
    (h : Step sha256 pre (.tx ⟨env, call, .returned value log⟩) post) :
    Returned sha256 env call pre value log post :=
  h

/-- Only a call that returned leaves a record. -/
theorem Step.log_cases {act : Act X} (h : Step sha256 pre act post) :
    act.log = [] ∨ ∃ env call value log, act = .tx ⟨env, call, .returned value log⟩ ∧
      Returned sha256 env call pre value log post := by
  cases act with
  | elsewhere => exact .inl rfl
  | tx tx =>
      obtain ⟨env, call, outcome⟩ := tx
      cases outcome with
      | aborted => exact .inl rfl
      | returned value log => exact .inr ⟨env, call, value, log, rfl, h.returned⟩

/-- A lifecycle call that returned, with what it established. -/
inductive Lifecycle (sha256 : Bytes → Hash) (env : Env X) (pre : State X)
    (log : List Effect) (post : State X) : (call : Call) → call.Result → Prop
  | send {c : HostString} {timeout : UInt64} {payloads : List Payload} {n : UInt64}
      {dest : HostString}
      (hspec : SendSpec sha256 env ⟨n, c, dest, timeout, payloads⟩ pre.start (post.finish log)) :
      Lifecycle sha256 env pre log post (.sendPacket c timeout payloads) n
  | recv {packet : Packet} {proof : Bytes} {height : UInt64} {cp : Counterparty}
      {acks : List Bytes}
      (hspec : RecvSpec sha256 env packet proof height cp acks pre.start (post.finish log)) :
      Lifecycle sha256 env pre log post (.recvPacket packet proof height) ()
  | ack {packet : Packet} {acks : List Bytes} {proof : Bytes} {height : UInt64}
      {cp : Counterparty}
      (hspec : AckSpec sha256 env packet acks proof height cp pre.start (post.finish log)) :
      Lifecycle sha256 env pre log post (.acknowledgePacket packet acks proof height) ()
  | timeout {packet : Packet} {proof : Bytes} {height : UInt64} {cp : Counterparty}
      (hspec : TimeoutSpec sha256 env packet proof height cp pre.start (post.finish log)) :
      Lifecycle sha256 env pre log post (.timeoutPacket packet proof height) ()
  | writeAck {c : HostString} {n : UInt64} {acks : List Bytes}
      (hreceipt : pre.storage.provable (receiptKey c n) ≠ none)
      (hack : pre.storage.provable (ackKey c n) = none)
      (hstorage : post.storage =
        pre.storage.write (ackKey c n) (v2AckCommitment sha256 acks).val) :
      Lifecycle sha256 env pre log post (.writeAcknowledgement c n acks) ()

theorem Returned.lifecycle {call : Call} {value : call.Result}
    (h : Returned sha256 env call pre value log post) (hkind : call.kind = .lifecycle) :
    Lifecycle sha256 env pre log post call value := by
  cases call with
  | sendPacket c timeout payloads =>
      obtain ⟨dest, hspec⟩ := returns_sendPacket h
      exact .send hspec
  | recvPacket packet proof height =>
      obtain ⟨cp, acks, hspec⟩ := returns_recvPacket h
      exact .recv hspec
  | acknowledgePacket packet acks proof height =>
      obtain ⟨cp, hspec⟩ := returns_acknowledgePacket h
      exact .ack hspec
  | timeoutPacket packet proof height =>
      obtain ⟨cp, hspec⟩ := returns_timeoutPacket h
      exact .timeout hspec
  | writeAcknowledgement c n acks =>
      obtain ⟨hreceipt, hack, hstorage⟩ := returns_writeAcknowledgement h
      exact .writeAck hreceipt hack hstorage
  | _ => cases hkind

/-- A lifecycle call writes provable entries and send counters only. -/
theorem Lifecycle.storage_eq {call : Call} {value : call.Result}
    (h : Lifecycle sha256 env pre log post call value) :
    post.storage = { pre.storage with
      provable := post.storage.provable, nextSeqSend := post.storage.nextSeqSend } := by
  have hwrites : ∃ provable nextSeqSend, post.storage =
      { pre.storage with provable := provable, nextSeqSend := nextSeqSend } := by
    cases h with
    | send hspec => exact ⟨_, _, hspec.storage⟩
    | recv hspec => exact ⟨_, _, hspec.storage⟩
    | ack hspec => exact ⟨_, _, hspec.storage⟩
    | timeout hspec => exact ⟨_, _, hspec.storage⟩
    | writeAck hreceipt hack hstorage => exact ⟨_, _, hstorage⟩
  obtain ⟨provable, nextSeqSend, hstorage⟩ := hwrites
  rw [hstorage]

theorem Lifecycle.counterparty_eq {call : Call} {value : call.Result}
    (h : Lifecycle sha256 env pre log post call value) :
    post.storage.counterparty = pre.storage.counterparty := by
  rw [h.storage_eq]

theorem Lifecycle.port_eq {call : Call} {value : call.Result}
    (h : Lifecycle sha256 env pre log post call value) :
    post.storage.port = pre.storage.port := by
  rw [h.storage_eq]

/-- The send counters change only for the client of a send, which gets the next one. -/
theorem Lifecycle.nextSeqSend_cases {call : Call} {value : call.Result}
    (h : Lifecycle sha256 env pre log post call value) :
    post.storage.nextSeqSend = pre.storage.nextSeqSend ∨
      ∃ c n, n.toNat = ((pre.storage.nextSeqSend c).getD 0).toNat + 1 ∧
        post.storage.nextSeqSend = Function.update pre.storage.nextSeqSend c (some n) := by
  cases h with
  | send hspec =>
      have heq := congrArg Storage.nextSeqSend hspec.storage
      exact .inr ⟨_, _, hspec.sequence, heq⟩
  | recv hspec =>
      have heq := congrArg Storage.nextSeqSend hspec.storage
      exact .inl heq
  | ack hspec =>
      have heq := congrArg Storage.nextSeqSend hspec.storage
      exact .inl heq
  | timeout hspec =>
      have heq := congrArg Storage.nextSeqSend hspec.storage
      exact .inl heq
  | writeAck hreceipt hack hstorage =>
      have heq := congrArg Storage.nextSeqSend hstorage
      exact .inl heq

/-- A call that only reads leaves the context as it was. -/
theorem registryStep_of_eq {first last : Ctx X} (h : last = first) :
    RegistryStep first.storage last.storage := by
  rw [h]
  exact .refl _

theorem Returned.registry {call : Call} {value : call.Result}
    (h : Returned sha256 env call pre value log post) (hkind : call.kind = .registry) :
    RegistryStep pre.storage post.storage := by
  cases call with
  | registerClientType clientType address => exact returns_registerClientType h
  | createClient clientType clientState consensusState height =>
      exact returns_createClient h
  | registerCounterparty clientId counterpartyClientId chunks =>
      exact returns_registerCounterparty h
  | updateClient clientId clientMessage => exact returns_updateClient h
  | registerPort portId appAddress => exact returns_registerPort h
  | packetCommitment c n => exact registryStep_of_eq (returns_packetCommitment h).2
  | hasPacketReceipt c n => exact registryStep_of_eq (returns_hasPacketReceipt h).2
  | acknowledgement c n => exact registryStep_of_eq (returns_acknowledgement h).2
  | lcAddress clientType | counterparty clientId | clientLcAddress clientId
  | frozen clientId | portApp portId =>
      simp only [Returned, Call.exec, Router.lcAddress, Router.counterparty,
        Router.clientLcAddress, Router.frozen, Router.portApp, returns_bind,
        returns_storage, returns_pure] at h
      obtain ⟨_, _, ⟨-, rfl⟩, -, hpost⟩ := h
      exact registryStep_of_eq hpost
  | _ => cases hkind

end StellarIbc.Router
