import StellarIbc.RouterEvents
import StellarIbc.RouterSource

/-!
# The event log of the router

The events of a run, oldest first.  Every change that a call of the packet lifecycle makes to
the provable store is announced by an event, so the store can be rebuilt from the log.  No
event announces what another one announced before.
-/

namespace StellarIbc.Router

open Contract

variable {X : Type} {sha256 : Bytes → Hash} {env : Env X} {pre post : Ctx X} {packet : Packet}
variable {acks : List Bytes} {proof : Bytes} {height : UInt64}

/-! ### What a call publishes -/

def Ctx.published (ctx : Ctx X) : List Event :=
  ctx.log.filterMap fun
    | .published event => some event
    | _ => none

theorem Ctx.published_append (ctx : Ctx X) (event : Event) :
    Ctx.published { ctx with log := ctx.log ++ [.published event] } = ctx.published ++ [event] := by
  simp [Ctx.published]

instance : SeesPublished (Ctx.published (X := X)) where
  storage _ _ := rfl
  hashed ctx data := by simp [Ctx.published]

instance {kind : InvocationKind} : KeepsKind (Ctx.published (X := X)) env kind where
  keeps callee call hcall := by
    refine ⟨fun h => ?_⟩
    obtain ⟨ext, -, rfl⟩ := returns_invokeContract.mp h
    simp [Ctx.published]

theorem published_sendPacket {c : HostString} {timeout : UInt64} {payloads : List Payload}
    {n : UInt64} (h : Returns (sendPacket sha256 env c timeout payloads) pre n post) :
    ∃ cp, pre.storage.counterparty c = some cp ∧ post.published =
      pre.published ++ [.sendPacket c n ⟨n, c, cp.clientId, timeout, payloads⟩] := by
  simp only [sendPacket, Router.counterparty, returns_bind, returns_panicIf, returns_storage,
    returns_pure, returns_unwrapOr, returns_publish] at h
  obtain ⟨_, _, ⟨-, rfl⟩, _, _, ⟨_, _, ⟨rfl, rfl⟩, rfl, rfl⟩, cp, _, ⟨hcp, rfl⟩, _, checked,
    ⟨-, rfl⟩, _, _, hauth, next, _, hnext, hash, _, hcommit, _, written, hset, _, _, rfl, rfl, rfl⟩ := h
  have hkept : written.published = checked.published :=
    ((Keeps.keeps hset).trans (Keeps.keeps hcommit)).trans
      ((Keeps.keeps hnext).trans (Keeps.keeps hauth))
  exact ⟨cp, hcp, by rw [Ctx.published_append, hkept]⟩

/-- What is committed to is what is published. -/
theorem published_recvPacket {result : Unit}
    (h : Returns (recvPacket sha256 env packet proof height) pre result post) :
    ∃ acks, post.published = pre.published ++
        [.recvPacket packet.destClient packet.sequence packet,
          .writeAck packet.destClient packet.sequence acks] ∧
      post.storage = (pre.storage.write (receiptKey packet.destClient packet.sequence)
        [RECEIPT_SENTINEL]).write (ackKey packet.destClient packet.sequence)
        (v2AckCommitment sha256 acks).val := by
  simp only [recvPacket_eq, returns_bind, returns_publish] at h
  obtain ⟨_, checked, hchecks, _, received, hreceipt, acks, dispatched, hdispatch, ackHash, _,
    hcommit, _, written, hset, _, _, rfl, rfl⟩ := h
  have hkept : written.published = pre.published :=
    ((Keeps.keeps hset).trans (Keeps.keeps hcommit)).trans
      (((Keeps.keeps hdispatch).trans (Keeps.keeps hreceipt)).trans (Keeps.keeps hchecks))
  refine ⟨acks, ?_, ?_⟩
  · rw [Ctx.published_append, Ctx.published_append, hkept, List.append_assoc]
    rfl
  · obtain ⟨-, -, -, -, -, -, -, -, -, hsame, -⟩ := returns_recvChecks hchecks
    obtain rfl := returns_setPacketReceipt hreceipt
    obtain ⟨hstorage, -⟩ := returns_dispatchRecvCallbacks hdispatch
    obtain ⟨rfl, rfl⟩ := returns_commitV2Acknowledgement.mp hcommit
    obtain rfl := returns_setAckCommitment hset
    simp only [Ctx.hashing_storage, hstorage, hsame]

theorem published_acknowledgePacket {result : Unit}
    (h : Returns (acknowledgePacket sha256 env packet acks proof height) pre result post) :
    post.published = pre.published ++
      [.ackPacket packet.sourceClient packet.sequence packet acks] := by
  simp only [acknowledgePacket_eq, returns_bind, returns_publish] at h
  obtain ⟨_, checked, hchecks, _, _, hdispatch, _, erased, hdelete, rfl⟩ := h
  have hkept : erased.published = pre.published :=
    ((Keeps.keeps hdelete).trans (Keeps.keeps hdispatch)).trans (Keeps.keeps hchecks)
  rw [Ctx.published_append, hkept]

theorem published_timeoutPacket {result : Unit}
    (h : Returns (timeoutPacket sha256 env packet proof height) pre result post) :
    post.published = pre.published ++
      [.timeoutPacket packet.sourceClient packet.sequence packet] := by
  simp only [timeoutPacket_eq, returns_bind, returns_publish] at h
  obtain ⟨_, checked, hchecks, _, _, hdispatch, _, erased, hdelete, rfl⟩ := h
  have hkept : erased.published = pre.published :=
    ((Keeps.keeps hdelete).trans (Keeps.keeps hdispatch)).trans (Keeps.keeps hchecks)
  rw [Ctx.published_append, hkept]

/-! ### The store and the log -/

/-- The events of a run. -/
def eventLog (history : List (Entry (State X) (Act X))) : List Event :=
  history.flatMap fun entry => entry.act.events

/-- What an event announces. -/
def Event.apply (sha256 : Bytes → Hash) (store : Bytes → Option Bytes) :
    Event → Bytes → Option Bytes
  | .sendPacket c n packet =>
      Function.update store (commitmentKey c n) (some (v2PacketCommitment sha256 packet).val)
  | .recvPacket c n _ => Function.update store (receiptKey c n) (some [RECEIPT_SENTINEL])
  | .writeAck c n acks =>
      Function.update store (ackKey c n) (some (v2AckCommitment sha256 acks).val)
  | .ackPacket c n _ _ | .timeoutPacket c n _ => Function.update store (commitmentKey c n) none

/-- The store that a log leads to. -/
def replay (sha256 : Bytes → Hash) (log : List Event) : Bytes → Option Bytes :=
  log.foldl (Event.apply sha256) fun _ => none

/-- What a step of a guarded run publishes, and what it does to the storage. -/
inductive LogStep (sha256 : Bytes → Hash) (pre post : Storage) : List Event → Prop
  | quiet (hprovable : post.provable = pre.provable) (hnext : post.nextSeqSend = pre.nextSeqSend) :
      LogStep sha256 pre post []
  | send {packet : Packet}
      (hsequence : packet.sequence.toNat = pre.sendCount packet.sourceClient + 1)
      (hstorage : post = (pre.assignSequence packet.sourceClient packet.sequence).write
        (commitmentKey packet.sourceClient packet.sequence)
        (v2PacketCommitment sha256 packet).val) :
      LogStep sha256 pre post [.sendPacket packet.sourceClient packet.sequence packet]
  | recv {packet : Packet} {acks : List Bytes}
      (hfresh : pre.provable (receiptKey packet.destClient packet.sequence) = none)
      (hstorage : post = (pre.write (receiptKey packet.destClient packet.sequence)
        [RECEIPT_SENTINEL]).write (ackKey packet.destClient packet.sequence)
        (v2AckCommitment sha256 acks).val) :
      LogStep sha256 pre post [.recvPacket packet.destClient packet.sequence packet,
        .writeAck packet.destClient packet.sequence acks]
  | settle {packet : Packet} {event : Event}
      (hevent : (∃ acks, event = .ackPacket packet.sourceClient packet.sequence packet acks) ∨
        event = .timeoutPacket packet.sourceClient packet.sequence packet)
      (hstored : pre.provable (commitmentKey packet.sourceClient packet.sequence) =
        some (v2PacketCommitment sha256 packet).val)
      (hstorage : post = pre.erase (commitmentKey packet.sourceClient packet.sequence)) :
      LogStep sha256 pre post [event]

variable {history : List (Entry (State X) (Act X))} {state : State X}
variable {entry : Entry (State X) (Act X)}

theorem GuardedStep.logStep (hpaired : ReceiptsAcknowledged entry.pre.storage)
    (hstep : GuardedStep sha256 entry.pre entry.act entry.post) :
    LogStep sha256 entry.pre.storage entry.post.storage entry.act.events := by
  rcases hstep.cases with ⟨hregistry, haborted⟩ | ⟨env, call, value, log, hact, hlifecycle⟩
  · have hnone : entry.act.events = [] := by
      rcases hstep.1.log_cases with hlog | ⟨env, call, value, log, hact, hreturned⟩
      · rw [Act.events, hlog]
        rfl
      · have hkind : call.kind = .registry := by
          cases hkind : call.kind with
          | registry => rfl
          | rawSetter =>
              have hguarded := hstep.2
              rw [hact] at hguarded
              exact absurd hkind hguarded
          | lifecycle => cases haborted _ hact hkind
        have hkeeps : Keeps (Ctx.published (X := X)) (call.exec sha256 env) :=
          keeps_registry hkind fun _ => inferInstance
        rw [hact]
        exact hkeeps.keeps hreturned
    rw [hnone]
    exact .quiet hregistry.provable hregistry.nextSeqSend
  have hreturned : Returned sha256 env call entry.pre value log entry.post := by
    have hstep' := hstep.1
    rw [hact] at hstep'
    exact hstep'.returned
  rw [hact]
  cases hlifecycle with
  | @send c timeout payloads n dest hspec =>
      obtain ⟨cp, hcp, hevents⟩ := published_sendPacket hreturned
      obtain ⟨cp', hcp', hdest⟩ := hspec.counterparty
      obtain rfl : cp = cp' := Option.some.inj (hcp.symm.trans hcp')
      obtain rfl : cp.clientId = dest := hdest
      have hpublished : Act.events (.tx ⟨env, .sendPacket c timeout payloads, .returned n log⟩) =
          [Event.sendPacket c n ⟨n, c, cp.clientId, timeout, payloads⟩] :=
        hevents
      rw [hpublished]
      exact .send hspec.sequence hspec.storage
  | @recv packet proof height cp acks hspec =>
      obtain ⟨acks, hevents, hstorage⟩ := published_recvPacket hreturned
      have hpublished : Act.events (.tx ⟨env, .recvPacket packet proof height,
          .returned () log⟩) = [Event.recvPacket packet.destClient packet.sequence packet,
            .writeAck packet.destClient packet.sequence acks] :=
        hevents
      rw [hpublished]
      exact .recv hspec.fresh hstorage
  | @ack packet acks proof height cp hspec =>
      have hpublished : Act.events (.tx ⟨env, .acknowledgePacket packet acks proof height,
          .returned () log⟩) =
            [Event.ackPacket packet.sourceClient packet.sequence packet acks] :=
        published_acknowledgePacket hreturned
      rw [hpublished]
      exact .settle (.inl ⟨acks, rfl⟩) hspec.committed.stored hspec.storage
  | @timeout packet proof height cp hspec =>
      have hpublished : Act.events (.tx ⟨env, .timeoutPacket packet proof height,
          .returned () log⟩) =
            [Event.timeoutPacket packet.sourceClient packet.sequence packet] :=
        published_timeoutPacket hreturned
      rw [hpublished]
      exact .settle (.inr rfl) hspec.committed.stored hspec.storage
  | writeAck hreceipt hack hstorage => exact absurd hack (hpaired _ _ hreceipt)

/-! ### Each event once -/

inductive Slot where
  | sent
  | settled
  | received
  | acknowledged
deriving DecidableEq

def Event.slot : Event → Slot
  | .sendPacket .. => .sent
  | .recvPacket .. => .received
  | .writeAck .. => .acknowledged
  | .ackPacket .. | .timeoutPacket .. => .settled

/-- What there is one event of: an acknowledgement and a timeout settle the same packet. -/
def Event.mark (event : Event) : Slot × HostString × UInt64 :=
  (event.slot, event.clientId, event.sequence)

/-- What is said of a log and the store it led to. -/
structure FaithfulLog (sha256 : Bytes → Hash) (log : List Event)
    (provable : Bytes → Option Bytes) : Prop where
  /-- The store is a function of the log. -/
  replayed : provable = replay sha256 log
  /-- Nothing is announced twice. -/
  once : (log.map Event.mark).Nodup
  /-- A packet is settled after it was sent. -/
  settledSent : ∀ before event after, log = before ++ event :: after → event.slot = .settled →
    ∀ packet, event.packet = some packet →
      ∃ original, .sendPacket event.clientId event.sequence original ∈ before ∧
        v2PacketCommitment sha256 packet = v2PacketCommitment sha256 original
  /-- A packet received is acknowledged at once. -/
  answered : ∀ before c n packet after, log = before ++ .recvPacket c n packet :: after →
    ∃ acks rest, after = .writeAck c n acks :: rest

/-- A list that was extended is cut in the old part or in the new one. -/
theorem append_eq_split {α : Type} {old new before after : List α} {item : α}
    (h : old ++ new = before ++ item :: after) :
    (∃ rest, old = before ++ item :: rest ∧ after = rest ++ new) ∨
      ∃ front, before = old ++ front ∧ new = front ++ item :: after := by
  rcases List.append_eq_append_iff.mp h with ⟨front, hbefore, hnew⟩ | ⟨rest, hold, hafter⟩
  · exact .inr ⟨front, hbefore, hnew⟩
  · cases rest with
    | nil => exact .inr ⟨[], by rw [hold, List.append_nil, List.append_nil], hafter.symm⟩
    | cons first rest =>
        obtain ⟨rfl, rfl⟩ := List.cons_eq_cons.mp hafter
        exact .inl ⟨rest, hold, rfl⟩

theorem replay_append (log events : List Event) :
    replay sha256 (log ++ events) = events.foldl (Event.apply sha256) (replay sha256 log) :=
  List.foldl_append

/-- A commitment that is there was announced. -/
theorem sent_of_replay {log : List Event} {c : HostString} {n : UInt64} {value : Bytes}
    (h : replay sha256 log (commitmentKey c n) = some value) :
    ∃ packet, .sendPacket c n packet ∈ log ∧ value = (v2PacketCommitment sha256 packet).val := by
  induction log using List.reverseRecOn with
  | nil => cases h
  | append_singleton log event ih =>
      rw [replay_append, List.foldl_cons, List.foldl_nil] at h
      have hold : replay sha256 log (commitmentKey c n) = some value →
          ∃ packet, .sendPacket c n packet ∈ log ++ [event] ∧
            value = (v2PacketCommitment sha256 packet).val := by
        intro hstored
        obtain ⟨packet, hmem, hvalue⟩ := ih hstored
        exact ⟨packet, List.mem_append_left _ hmem, hvalue⟩
      cases event with
      | sendPacket c' n' packet =>
          by_cases hkey : commitmentKey c n = commitmentKey c' n'
          · obtain ⟨rfl, -, rfl⟩ := pathBytes_injective hkey
            rw [Event.apply, Function.update_self, Option.some.injEq] at h
            exact ⟨packet, List.mem_append_right _ List.mem_cons_self, h.symm⟩
          · rw [Event.apply, Function.update_of_ne hkey] at h
            exact hold h
      | recvPacket c' n' packet =>
          rw [Event.apply, Function.update_of_ne (commitmentKey_ne_receiptKey _ _ _ _)] at h
          exact hold h
      | writeAck c' n' acks =>
          rw [Event.apply, Function.update_of_ne (commitmentKey_ne_ackKey _ _ _ _)] at h
          exact hold h
      | ackPacket c' n' packet acks | timeoutPacket c' n' packet =>
          by_cases hkey : commitmentKey c n = commitmentKey c' n'
          · rw [Event.apply, hkey, Function.update_self] at h
            cases h
          · rw [Event.apply, Function.update_of_ne hkey] at h
            exact hold h

/-- A step replays as its events. -/
theorem LogStep.replays {pre post : Storage} {events : List Event}
    (hstep : LogStep sha256 pre post events) :
    post.provable = events.foldl (Event.apply sha256) pre.provable := by
  cases hstep with
  | quiet hprovable hnext => exact hprovable
  | send hsequence hstorage =>
      rw [hstorage]
      rfl
  | recv hfresh hstorage =>
      rw [hstorage]
      rfl
  | settle hevent hstored hstorage =>
      rw [hstorage]
      rcases hevent with ⟨acks, rfl⟩ | rfl
      · rfl
      · rfl

/-- What keeps the events apart: numbers that were given out are below the counter, those
settled have no commitment left, and those received have their receipt. -/
structure LogInvariant (sha256 : Bytes → Hash) (log : List Event) (s : Storage) : Prop where
  faithful : FaithfulLog sha256 log s.provable
  sent : ∀ event ∈ log, event.slot = .sent → event.sequence.toNat ≤ s.sendCount event.clientId
  settled : ∀ event ∈ log, event.slot = .settled →
    event.sequence.toNat ≤ s.sendCount event.clientId ∧
      s.provable (commitmentKey event.clientId event.sequence) = none
  received : ∀ event ∈ log, event.slot = .received ∨ event.slot = .acknowledged →
    s.provable (receiptKey event.clientId event.sequence) ≠ none

theorem FaithfulLog.append {log events : List Event} {before after : Bytes → Option Bytes}
    (h : FaithfulLog sha256 log before)
    (hreplays : after = events.foldl (Event.apply sha256) before)
    (honce : ((log ++ events).map Event.mark).Nodup)
    (hsettled : ∀ event ∈ events, event.slot = .settled →
      ∀ packet, event.packet = some packet →
        ∃ original, .sendPacket event.clientId event.sequence original ∈ log ∧
          v2PacketCommitment sha256 packet = v2PacketCommitment sha256 original)
    (hanswered : ∀ front c n packet rest, events = front ++ .recvPacket c n packet :: rest →
      ∃ acks rest', rest = .writeAck c n acks :: rest') :
    FaithfulLog sha256 (log ++ events) after where
  replayed := by rw [hreplays, h.replayed, replay_append]
  once := honce
  settledSent before event after hsplit hslot packet hpacket := by
    rcases append_eq_split hsplit with ⟨rest, hold, rfl⟩ | ⟨front, rfl, hnew⟩
    · exact h.settledSent before event rest hold hslot packet hpacket
    · have hmem : event ∈ events := hnew ▸ List.mem_append_right _ List.mem_cons_self
      obtain ⟨original, hsent, hsame⟩ := hsettled event hmem hslot packet hpacket
      exact ⟨original, List.mem_append_left _ hsent, hsame⟩
  answered before c n packet after hsplit := by
    rcases append_eq_split hsplit with ⟨rest, hold, rfl⟩ | ⟨front, rfl, hnew⟩
    · obtain ⟨acks, rest', rfl⟩ := h.answered before c n packet rest hold
      exact ⟨acks, rest' ++ events, rfl⟩
    · exact hanswered front c n packet after hnew

section

variable {log events : List Event} {s s' : Storage} {c : HostString} {n : UInt64}

theorem LogStep.sendCount_le (hstep : LogStep sha256 s s' events) (c : HostString) :
    s.sendCount c ≤ s'.sendCount c := by
  cases hstep with
  | quiet hprovable hnext => rw [Storage.sendCount, Storage.sendCount, hnext]
  | @send packet hsequence hstorage =>
      subst hstorage
      by_cases hclient : c = packet.sourceClient
      · subst hclient
        have hcount : (((s.assignSequence packet.sourceClient packet.sequence).write
            (commitmentKey packet.sourceClient packet.sequence)
            (v2PacketCommitment sha256 packet).val).sendCount packet.sourceClient) =
              packet.sequence.toNat := by
          simp [Storage.sendCount]
        omega
      · simp [Storage.sendCount, hclient]
  | recv hfresh hstorage =>
      rw [hstorage]
      exact Nat.le_refl _
  | settle hevent hstored hstorage =>
      rw [hstorage]
      exact Nat.le_refl _

theorem LogStep.receipt_kept (hstep : LogStep sha256 s s' events)
    (h : s.provable (receiptKey c n) ≠ none) : s'.provable (receiptKey c n) ≠ none := by
  cases hstep with
  | quiet hprovable hnext => rwa [hprovable]
  | send hsequence hstorage =>
      rw [hstorage, Storage.write_provable,
        Function.update_of_ne (commitmentKey_ne_receiptKey _ _ _ _).symm]
      exact h
  | @recv packet acks hfresh hstorage =>
      rw [hstorage, Storage.write_provable, Function.update_of_ne (receiptKey_ne_ackKey _ _ _ _),
        Storage.write_provable, update_pathBytes]
      split
      · exact Option.some_ne_none _
      · exact h
  | settle hevent hstored hstorage =>
      rw [hstorage, Storage.erase_provable,
        Function.update_of_ne (commitmentKey_ne_receiptKey _ _ _ _).symm]
      exact h

/-- A number that was given out is not given out again. -/
theorem LogStep.settled_kept (hstep : LogStep sha256 s s' events)
    (hgiven : n.toNat ≤ s.sendCount c) (h : s.provable (commitmentKey c n) = none) :
    s'.provable (commitmentKey c n) = none := by
  cases hstep with
  | quiet hprovable hnext => rwa [hprovable]
  | @send packet hsequence hstorage =>
      have hother : ¬ (c = packet.sourceClient ∧ n = packet.sequence) := by
        rintro ⟨rfl, rfl⟩
        omega
      rw [hstorage, Storage.write_provable, update_pathBytes, if_neg hother]
      exact h
  | recv hfresh hstorage =>
      rw [hstorage, Storage.write_provable,
        Function.update_of_ne (commitmentKey_ne_ackKey _ _ _ _), Storage.write_provable,
        Function.update_of_ne (commitmentKey_ne_receiptKey _ _ _ _)]
      exact h
  | settle hevent hstored hstorage =>
      rw [hstorage, Storage.erase_provable, update_pathBytes]
      split
      · rfl
      · exact h

/-- A packet that is committed to has an event. -/
theorem LogInvariant.sent_of_stored (hinv : LogInvariant sha256 log s)
    (h : s.provable (commitmentKey c n) = some (v2PacketCommitment sha256 packet).val) :
    ∃ original, .sendPacket c n original ∈ log ∧
      v2PacketCommitment sha256 packet = v2PacketCommitment sha256 original := by
  rw [hinv.faithful.replayed] at h
  obtain ⟨original, hmem, hvalue⟩ := sent_of_replay h
  exact ⟨original, hmem, Subtype.ext hvalue⟩

/-- What the storage says of an event that a step announces, before the step and after it. -/
inductive Announces (sha256 : Bytes → Hash) (s s' : Storage) (event : Event) : Prop
  | sent (hslot : event.slot = .sent)
      (hnumber : event.sequence.toNat = s.sendCount event.clientId + 1)
      (hcount : s'.sendCount event.clientId = event.sequence.toNat)
  | settled {packet : Packet} (hslot : event.slot = .settled) (hpacket : event.packet = some packet)
      (hstored : s.provable (commitmentKey event.clientId event.sequence) =
        some (v2PacketCommitment sha256 packet).val)
      (herased : s'.provable (commitmentKey event.clientId event.sequence) = none)
  | received (hslot : event.slot = .received ∨ event.slot = .acknowledged)
      (hfresh : s.provable (receiptKey event.clientId event.sequence) = none)
      (hpresent : s'.provable (receiptKey event.clientId event.sequence) ≠ none)

theorem LogStep.announces (hstep : LogStep sha256 s s' events) {event : Event}
    (hevent : event ∈ events) : Announces sha256 s s' event := by
  cases hstep with
  | quiet hprovable hnext => cases hevent
  | @send packet hsequence hstorage =>
      obtain rfl := List.mem_singleton.mp hevent
      subst hstorage
      refine .sent rfl hsequence ?_
      simp [Storage.sendCount, Event.sequence, Event.clientId]
  | @recv packet acks hfresh hstorage =>
      have hpresent : s'.provable (receiptKey packet.destClient packet.sequence) ≠ none := by
        rw [hstorage, Storage.write_provable,
          Function.update_of_ne (receiptKey_ne_ackKey _ _ _ _), Storage.write_provable,
          Function.update_self]
        exact Option.some_ne_none _
      rcases List.mem_cons.mp hevent with rfl | hevent
      · exact .received (.inl rfl) hfresh hpresent
      · obtain rfl := List.mem_singleton.mp hevent
        exact .received (.inr rfl) hfresh hpresent
  | @settle packet event' hsettle hstored hstorage =>
      obtain rfl := List.mem_singleton.mp hevent
      have herased : s'.provable (commitmentKey packet.sourceClient packet.sequence) = none := by
        rw [hstorage, Storage.erase_provable, Function.update_self]
      rcases hsettle with ⟨acks, rfl⟩ | rfl
      · exact .settled rfl rfl hstored herased
      · exact .settled rfl rfl hstored herased

theorem LogStep.marks_nodup (hstep : LogStep sha256 s s' events) :
    (events.map Event.mark).Nodup := by
  cases hstep with
  | quiet hprovable hnext => exact .nil
  | send hsequence hstorage => exact List.nodup_singleton _
  | @recv packet acks hfresh hstorage =>
      have hslots : (Event.recvPacket packet.destClient packet.sequence packet).mark ≠
          (Event.writeAck packet.destClient packet.sequence acks).mark := by
        simp [Event.mark, Event.slot]
      simpa using hslots
  | settle hevent hstored hstorage => exact List.nodup_singleton _

theorem LogStep.answered (hstep : LogStep sha256 s s' events) {front rest : List Event}
    {received : Packet} (hsplit : events = front ++ .recvPacket c n received :: rest) :
    ∃ acks rest', rest = .writeAck c n acks :: rest' := by
  cases hstep with
  | quiet hprovable hnext => simp at hsplit
  | send hsequence hstorage =>
      cases front with
      | nil => cases hsplit
      | cons first front => simp at hsplit
  | @recv packet acks hfresh hstorage =>
      cases front with
      | nil =>
          cases hsplit
          exact ⟨acks, [], rfl⟩
      | cons first front =>
          cases front with
          | nil => cases hsplit
          | cons second front => simp at hsplit
  | settle hevent hstored hstorage =>
      cases front with
      | nil => rcases hevent with ⟨acks, rfl⟩ | rfl <;> cases hsplit
      | cons first front => simp at hsplit

section

variable {event : Event} (hnew : Announces sha256 s s' event)
include hnew

theorem Announces.erased (hslot : event.slot = .settled) :
    s'.provable (commitmentKey event.clientId event.sequence) = none := by
  cases hnew with
  | sent hsent hnumber hcount => cases hslot.symm.trans hsent
  | settled hsettled hpacket hstored herased => exact herased
  | received hreceived hfresh hpresent =>
      rw [hslot] at hreceived
      exact absurd hreceived (by decide)

theorem Announces.present (hslot : event.slot = .received ∨ event.slot = .acknowledged) :
    s'.provable (receiptKey event.clientId event.sequence) ≠ none := by
  cases hnew with
  | sent hsent hnumber hcount =>
      rw [hsent] at hslot
      exact absurd hslot (by decide)
  | settled hsettled hpacket hstored herased =>
      rw [hsettled] at hslot
      exact absurd hslot (by decide)
  | received hreceived hfresh hpresent => exact hpresent

/-- What a step announces was not announced before. -/
theorem LogInvariant.fresh (hinv : LogInvariant sha256 log s) {old : Event} (hold : old ∈ log) :
    old.mark ≠ event.mark := by
  intro hmark
  obtain ⟨hslot, hclient, hsequence⟩ : old.slot = event.slot ∧ old.clientId = event.clientId ∧
      old.sequence = event.sequence := by
    simpa only [Event.mark, Prod.mk.injEq] using hmark
  cases hnew with
  | sent hsent hnumber hcount =>
      have hle := hinv.sent old hold (hslot.trans hsent)
      rw [hclient, hsequence] at hle
      omega
  | settled hsettled hpacket hstored herased =>
      have hnone := (hinv.settled old hold (hslot.trans hsettled)).2
      rw [hclient, hsequence, hstored] at hnone
      cases hnone
  | received hreceived hfresh hpresent =>
      rw [← hslot] at hreceived
      have hpresent' := hinv.received old hold hreceived
      rw [hclient, hsequence] at hpresent'
      exact hpresent' hfresh

/-- A packet that a step settles was sent. -/
theorem LogInvariant.settledSent (hinv : LogInvariant sha256 log s)
    (hslot : event.slot = .settled) (hpacket : event.packet = some packet) :
    ∃ original, .sendPacket event.clientId event.sequence original ∈ log ∧
      v2PacketCommitment sha256 packet = v2PacketCommitment sha256 original := by
  cases hnew with
  | sent hsent hnumber hcount => cases hslot.symm.trans hsent
  | settled hsettled hpacket' hstored herased =>
      obtain rfl := Option.some.inj (hpacket'.symm.trans hpacket)
      exact hinv.sent_of_stored hstored
  | received hreceived hfresh hpresent =>
      rw [hslot] at hreceived
      exact absurd hreceived (by decide)

/-- The number of a new event is not above the counter. -/
theorem LogInvariant.given (hinv : LogInvariant sha256 log s)
    (hle : s.sendCount event.clientId ≤ s'.sendCount event.clientId)
    (hslot : event.slot = .sent ∨ event.slot = .settled) :
    event.sequence.toNat ≤ s'.sendCount event.clientId := by
  cases hnew with
  | sent hsent hnumber hcount => exact Nat.le_of_eq hcount.symm
  | settled hsettled hpacket hstored herased =>
      obtain ⟨original, hmem, -⟩ := hinv.sent_of_stored hstored
      exact (hinv.sent _ hmem rfl).trans hle
  | received hreceived hfresh hpresent =>
      rcases hslot with hslot | hslot
      · rw [hslot] at hreceived
        exact absurd hreceived (by decide)
      · rw [hslot] at hreceived
        exact absurd hreceived (by decide)

end

theorem LogInvariant.step (hinv : LogInvariant sha256 log s)
    (hstep : LogStep sha256 s s' events) : LogInvariant sha256 (log ++ events) s' where
  faithful := by
    refine hinv.faithful.append hstep.replays ?_ ?_ fun front c n packet rest => hstep.answered
    · rw [List.map_append, List.nodup_append]
      refine ⟨hinv.faithful.once, hstep.marks_nodup, ?_⟩
      intro mark hmark mark' hmark'
      obtain ⟨old, hold, rfl⟩ := List.mem_map.mp hmark
      obtain ⟨event, hevent, rfl⟩ := List.mem_map.mp hmark'
      exact hinv.fresh (hstep.announces hevent) hold
    · intro event hevent hslot packet hpacket
      exact hinv.settledSent (hstep.announces hevent) hslot hpacket
  sent event hmem hslot := by
    rcases List.mem_append.mp hmem with hold | hnew
    · exact (hinv.sent event hold hslot).trans (hstep.sendCount_le _)
    · exact hinv.given (hstep.announces hnew) (hstep.sendCount_le _) (.inl hslot)
  settled event hmem hslot := by
    rcases List.mem_append.mp hmem with hold | hnew
    · obtain ⟨hle, hnone⟩ := hinv.settled event hold hslot
      exact ⟨hle.trans (hstep.sendCount_le _), hstep.settled_kept hle hnone⟩
    · have hannounces := hstep.announces hnew
      exact ⟨hinv.given hannounces (hstep.sendCount_le _) (.inr hslot), hannounces.erased hslot⟩
  received event hmem hslot := by
    rcases List.mem_append.mp hmem with hold | hnew
    · exact hstep.receipt_kept (hinv.received event hold hslot)
    · exact (hstep.announces hnew).present hslot

end

/-! ### Every run -/

theorem logInvariant_of_guarded (hreach : Reach Init (GuardedStep sha256) history state) :
    LogInvariant sha256 (eventLog history) state.storage := by
  apply hreach.invariant fun history state => LogInvariant sha256 (eventLog history) state.storage
  · rintro state ⟨admin, hstorage⟩
    rw [hstorage]
    exact ⟨⟨rfl, .nil, by simp [eventLog], by simp [eventLog]⟩, by simp [eventLog],
      by simp [eventLog], by simp [eventLog]⟩
  · intro history entry hprev hinv hstep
    have hlog : eventLog (history ++ [entry]) = eventLog history ++ entry.act.events := by
      simp [eventLog]
    rw [hlog]
    exact hinv.step (GuardedStep.logStep (integrity_of_guarded hprev).2 hstep)

/-- **The event log is faithful.**  In every run in which nobody calls a raw setter, the
provable store is what the published events say, one after the other. -/
theorem event_log_faithful (hrun : Run sha256 history state)
    (hguarded : ∀ entry ∈ history, entry.act.Guarded) :
    FaithfulLog sha256 (eventLog history) state.storage.provable :=
  (logInvariant_of_guarded (hrun.restrict hguarded)).faithful

theorem event_log_faithful_sendThenTimeout :
    ((eventLog (freshState.executeAll Sha256.sha256 [] sendThenTimeout).1).map Event.mark =
      [(.sent, ascii "stellar-0", 1), (.settled, ascii "stellar-0", 1)]) ∧
      FaithfulLog Sha256.sha256 (eventLog (freshState.executeAll Sha256.sha256 [] sendThenTimeout).1)
        (freshState.executeAll Sha256.sha256 [] sendThenTimeout).2.storage.provable := by
  constructor
  · rw [Sha256.sha256_eq_eval]
    decide +kernel
  apply event_log_faithful
  · exact Run.executeAll (.start ⟨zeroAddress, rfl⟩) sendThenTimeout
  · exact guarded_executeAll (by simp) (by decide)

end StellarIbc.Router
