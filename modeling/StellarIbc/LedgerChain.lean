import StellarIbc.RouterIntegrity

/-!
# A chain with closed ledgers

A router on a chain that closes ledgers: calls run in an open ledger at its
timestamp, and closing it records the provable store for later proofs.  Timestamps
do not decrease.  The invariants below are what a light client on another chain may
rely on: where the commitments and acknowledgements of any closed ledger come from,
that a receipt is in every later ledger, and that a sequence is assigned once.
-/

namespace StellarIbc

open Router Contract

/-- A closed ledger: its timestamp and the provable store after it. -/
structure Ledger where
  timestamp : UInt64
  provable : Bytes → Option Bytes

/-- A chain: its router, the timestamp of the open ledger and the closed ledgers. -/
structure Chain (X : Type) where
  router : Router.State X
  timestamp : UInt64
  closed : List Ledger

namespace Chain

variable {X : Type}

inductive Act (X : Type) where
  | router (act : Router.Act X)
  | close (timestamp : UInt64)

def Act.log : Act X → List Effect
  | .router act => act.log
  | .close _ => []

/-- A router step runs at the timestamp of the open ledger and calls no raw setter. -/
def Step (sha256 : Bytes → Hash) (pre : Chain X) (act : Act X) (post : Chain X) : Prop :=
  match act with
  | .router act =>
      GuardedStep sha256 pre.router act post.router ∧
        (∀ tx, act = .tx tx → tx.env.timestamp = pre.timestamp) ∧
        post.timestamp = pre.timestamp ∧ post.closed = pre.closed
  | .close timestamp =>
      pre.timestamp ≤ timestamp ∧
        post = ⟨pre.router, timestamp,
          pre.closed ++ [⟨pre.timestamp, pre.router.storage.provable⟩]⟩

def Init (chain : Chain X) : Prop := Router.Init chain.router ∧ chain.closed = []

abbrev Run (sha256 : Bytes → Hash) : List (Entry (Chain X) (Act X)) → Chain X → Prop :=
  Reach Init (Step sha256)

/-- The provable stores a proof can refer to, now or later: those of the closed ledgers
and the open one. -/
def Holds (chain : Chain X) (store : Bytes → Option Bytes) : Prop :=
  store = chain.router.storage.provable ∨ ∃ ledger ∈ chain.closed, store = ledger.provable

/-! ### Calls in a history -/

variable {sha256 : Bytes → Hash} {entry : Entry (Chain X) (Act X)}
variable {packet : Packet} {log : List Effect}

/-- `entry` is a successful `send_packet` that produced `packet`. -/
def Sent (entry : Entry (Chain X) (Act X)) (packet : Packet) : Prop :=
  ∃ env log, entry.act = .router (.tx ⟨env,
      .sendPacket packet.sourceClient packet.timeoutTimestamp packet.payloads,
      .returned packet.sequence log⟩) ∧
    sentPackets log = [packet]

/-- `entry` is a successful `recv_packet` of `packet` with record `log`. -/
def Received (entry : Entry (Chain X) (Act X)) (packet : Packet) (log : List Effect) : Prop :=
  ∃ env proof height, entry.act =
    .router (.tx ⟨env, .recvPacket packet proof height, .returned () log⟩)

theorem Sent.spec (hsent : Sent entry packet)
    (hstep : Step sha256 entry.pre entry.act entry.post) :
    ∃ env log, entry.act.log = log ∧ SendSpec sha256 env packet entry.pre.router.start
      (entry.post.router.finish log) := by
  obtain ⟨env, log, hact, hpackets⟩ := hsent
  rw [hact] at hstep ⊢
  cases hstep.1.1.returned.lifecycle rfl with
  | send hspec =>
      have hsame := hspec.sent.symm.trans hpackets
      simp only [sentPackets, List.filterMap_nil, List.nil_append,
        List.singleton_inj] at hsame
      rw [hsame] at hspec
      exact ⟨env, log, rfl, hspec⟩

theorem Sent.unique {p q : Packet} (hp : Sent entry p) (hq : Sent entry q) : p = q := by
  obtain ⟨env, log, hact, hpackets⟩ := hp
  obtain ⟨env', log', hact', hpackets'⟩ := hq
  have hlog : log = log' := congrArg Act.log (hact.symm.trans hact')
  rw [hlog] at hpackets
  exact List.singleton_inj.mp (hpackets.symm.trans hpackets')

theorem Received.spec (hreceived : Received entry packet log)
    (hstep : Step sha256 entry.pre entry.act entry.post) :
    ∃ env proof height cp acks, env.timestamp = entry.pre.timestamp ∧
      RecvSpec sha256 env packet proof height cp acks entry.pre.router.start
        (entry.post.router.finish log) := by
  obtain ⟨env, proof, height, hact⟩ := hreceived
  rw [hact] at hstep
  have htime := hstep.2.1 _ rfl
  cases hstep.1.1.returned.lifecycle rfl with
  | recv hspec => exact ⟨env, proof, height, _, _, htime, hspec⟩

/-! ### One step -/

/-- What a chain step can do: the registry changes at most, a ledger closes, or a
lifecycle call succeeds. -/
inductive Move (sha256 : Bytes → Hash) (entry : Entry (Chain X) (Act X)) : Prop
  | registry
      (hregistry : RegistryStep entry.pre.router.storage entry.post.router.storage)
      (hquiet : ∀ env call value log, call.kind = .lifecycle →
        entry.act ≠ .router (.tx ⟨env, call, .returned value log⟩))
      (hclosed : entry.post.closed = entry.pre.closed)
      (htimestamp : entry.post.timestamp = entry.pre.timestamp)
  | close {timestamp : UInt64} (hact : entry.act = .close timestamp)
      (hle : entry.pre.timestamp ≤ timestamp)
      (hpost : entry.post = ⟨entry.pre.router, timestamp,
        entry.pre.closed ++ [⟨entry.pre.timestamp, entry.pre.router.storage.provable⟩]⟩)
  | lifecycle {env : Env X} {call : Call} {value : call.Result} {log : List Effect}
      (hact : entry.act = .router (.tx ⟨env, call, .returned value log⟩))
      (htime : env.timestamp = entry.pre.timestamp)
      (hlifecycle : Lifecycle sha256 env entry.pre.router log entry.post.router call value)
      (hclosed : entry.post.closed = entry.pre.closed)
      (htimestamp : entry.post.timestamp = entry.pre.timestamp)

theorem Step.move (hstep : Step sha256 entry.pre entry.act entry.post) :
    Move sha256 entry := by
  cases hact : entry.act with
  | close timestamp =>
      rw [hact] at hstep
      exact .close hact hstep.1 hstep.2
  | router act =>
      rw [hact] at hstep
      obtain ⟨hguarded, htime, htimestamp, hclosed⟩ := hstep
      rcases hguarded.cases with ⟨hregistry, haborted⟩ | ⟨env, call, value, log, rfl, hlifecycle⟩
      · refine .registry hregistry ?_ hclosed htimestamp
        intro env call value log hkind hsame
        rw [hact, Act.router.injEq] at hsame
        exact nomatch haborted _ hsame hkind
      · exact .lifecycle hact (htime _ rfl) hlifecycle hclosed htimestamp

/-- The provable stores after a step are those before it, or the new open one. -/
theorem Holds.of_step {store : Bytes → Option Bytes} (hholds : entry.post.Holds store)
    (hstep : Step sha256 entry.pre entry.act entry.post) :
    entry.pre.Holds store ∨ store = entry.post.router.storage.provable := by
  cases hstep.move with
  | registry hregistry hquiet hclosed htimestamp =>
      rcases hholds with rfl | ⟨ledger, hmem, rfl⟩
      · exact .inr rfl
      · exact .inl (.inr ⟨ledger, hclosed ▸ hmem, rfl⟩)
  | close hact hle hpost =>
      rw [hpost] at hholds
      rcases hholds with rfl | ⟨ledger, hmem, rfl⟩
      · exact .inl (.inl rfl)
      · rcases List.mem_append.mp hmem with hold | hnew
        · exact .inl (.inr ⟨ledger, hold, rfl⟩)
        · rw [List.mem_singleton.mp hnew]
          exact .inl (.inl rfl)
  | lifecycle hact htime hlifecycle hclosed htimestamp =>
      rcases hholds with rfl | ⟨ledger, hmem, rfl⟩
      · exact .inr rfl
      · exact .inl (.inr ⟨ledger, hclosed ▸ hmem, rfl⟩)

/-! ### Where entries come from -/

variable {history : List (Entry (Chain X) (Act X))} {chain : Chain X}

theorem receiptsAcknowledged (hrun : Run sha256 history chain) :
    ReceiptsAcknowledged chain.router.storage := by
  apply hrun.invariant (fun _ chain => ReceiptsAcknowledged chain.router.storage)
  · rintro chain ⟨⟨admin, hstorage⟩, -⟩ c n hpresent
    rw [hstorage] at hpresent
    exact absurd rfl hpresent
  · rintro history entry - hpaired hstep
    cases hact : entry.act with
    | router act =>
        rw [hact] at hstep
        exact hpaired.step hstep.1
    | close timestamp =>
        rw [hact] at hstep
        rw [hstep.2]
        exact hpaired

theorem Init.holds_empty {store : Bytes → Option Bytes} (hinit : Init chain)
    (hholds : chain.Holds store) (key : Bytes) : store key = none := by
  obtain ⟨⟨admin, hstorage⟩, hclosed⟩ := hinit
  rcases hholds with rfl | ⟨ledger, hmem, -⟩
  · rw [hstorage]
    rfl
  · rw [hclosed] at hmem
    cases hmem

/-- What a step writes: the commitment of the packet it sent, or the receipt and the
acknowledgement commitment of the packet it received. -/
theorem Step.written (hstep : Step sha256 entry.pre entry.act entry.post)
    (hpaired : ReceiptsAcknowledged entry.pre.router.storage) {key value : Bytes}
    (hvalue : entry.post.router.storage.provable key = some value) :
    entry.pre.router.storage.provable key = some value ∨
    (∃ packet, Sent entry packet ∧
      key = commitmentKey packet.sourceClient packet.sequence ∧
      value = (v2PacketCommitment sha256 packet).val) ∨
    (∃ env packet proof height cp acks log, Received entry packet log ∧
      RecvSpec sha256 env packet proof height cp acks entry.pre.router.start
        (entry.post.router.finish log) ∧
      (key = receiptKey packet.destClient packet.sequence ∨
        key = ackKey packet.destClient packet.sequence ∧
          value = (v2AckCommitment sha256 (returnedAcks sha256 acks)).val)) := by
  cases hstep.move with
  | registry hregistry hquiet hclosed htimestamp =>
      rw [hregistry.provable] at hvalue
      exact .inl hvalue
  | close hact hle hpost =>
      rw [hpost] at hvalue
      exact .inl hvalue
  | lifecycle hact htime hlifecycle hclosed htimestamp =>
      cases hlifecycle with
      | @send c timeout payloads n dest hspec =>
          have hstorage : entry.post.router.storage = _ := hspec.storage
          rw [hstorage, Storage.write_provable] at hvalue
          by_cases hkey : key = commitmentKey c n
          · rw [hkey, Function.update_self, Option.some.injEq] at hvalue
            exact .inr (.inl ⟨_, ⟨_, _, hact, hspec.sent⟩, hkey, hvalue.symm⟩)
          · rw [Function.update_of_ne hkey] at hvalue
            exact .inl hvalue
      | @recv packet proof height cp acks hspec =>
          have hstorage : entry.post.router.storage = _ := hspec.storage
          rw [hstorage, Storage.write_provable] at hvalue
          have hreceived : Received entry packet _ := ⟨_, _, _, hact⟩
          by_cases hack : key = ackKey packet.destClient packet.sequence
          · rw [hack, Function.update_self, Option.some.injEq] at hvalue
            exact .inr (.inr ⟨_, _, _, _, _, _, _, hreceived, hspec,
              .inr ⟨hack, hvalue.symm⟩⟩)
          rw [Function.update_of_ne hack, Storage.write_provable] at hvalue
          by_cases hreceipt : key = receiptKey packet.destClient packet.sequence
          · exact .inr (.inr ⟨_, _, _, _, _, _, _, hreceived, hspec, .inl hreceipt⟩)
          · rw [Function.update_of_ne hreceipt] at hvalue
            exact .inl hvalue
      | @ack packet acks proof height cp hspec =>
          have hstorage : entry.post.router.storage = _ := hspec.storage
          rw [hstorage] at hvalue
          exact .inl (Storage.of_erase hvalue)
      | @timeout packet proof height cp hspec =>
          have hstorage : entry.post.router.storage = _ := hspec.storage
          rw [hstorage] at hvalue
          exact .inl (Storage.of_erase hvalue)
      | writeAck hpresent hack hstorage => exact absurd hack (hpaired _ _ hpresent)

/-- A witness in a history is a witness in a longer one. -/
theorem mem_append_left_exists {P : Entry (Chain X) (Act X) → Prop}
    (later : List (Entry (Chain X) (Act X))) (h : ∃ entry ∈ history, P entry) :
    ∃ entry ∈ history ++ later, P entry := by
  obtain ⟨entry, hmem, hP⟩ := h
  exact ⟨entry, List.mem_append_left _ hmem, hP⟩

/-- **Origin of commitments.**  A commitment in any ledger is the commitment of a packet
that the chain sent. -/
theorem commitment_origin (hrun : Run sha256 history chain)
    {store : Bytes → Option Bytes} (hholds : chain.Holds store) {c : HostString}
    {n : UInt64} {value : Bytes} (hvalue : store (commitmentKey c n) = some value) :
    ∃ entry ∈ history, ∃ packet, Sent entry packet ∧ packet.sourceClient = c ∧
      packet.sequence = n ∧ value = (v2PacketCommitment sha256 packet).val := by
  refine hrun.invariant (fun history chain => ∀ store, chain.Holds store →
    ∀ c n value, store (commitmentKey c n) = some value →
    ∃ entry ∈ history, ∃ packet, Sent entry packet ∧ packet.sourceClient = c ∧
      packet.sequence = n ∧ value = (v2PacketCommitment sha256 packet).val)
    ?_ ?_ store hholds c n value hvalue
  · rintro chain hinit store hholds c n value hvalue
    rw [hinit.holds_empty hholds] at hvalue
    cases hvalue
  · intro history last hprev ih hstep store hholds c n value hvalue
    have hold := fun store hholds hvalue =>
      mem_append_left_exists [last] (ih store hholds c n value hvalue)
    rcases hholds.of_step hstep with hbefore | rfl
    · exact hold store hbefore hvalue
    · rcases hstep.written (receiptsAcknowledged hprev) hvalue with
        hbefore | ⟨packet, hsent, hkey, rfl⟩ |
        ⟨_, packet, _, _, _, _, _, -, -, hkey | ⟨hkey, -⟩⟩
      · exact hold _ (.inl rfl) hbefore
      · obtain ⟨rfl, -, rfl⟩ := pathBytes_injective hkey
        exact ⟨_, List.mem_append_right _ (List.mem_singleton_self _), packet, hsent, rfl,
          rfl, rfl⟩
      · exact absurd hkey (commitmentKey_ne_receiptKey _ _ _ _)
      · exact absurd hkey (commitmentKey_ne_ackKey _ _ _ _)

/-- **Origin of acknowledgements.**  An acknowledgement commitment in any ledger is the
commitment of what the apps returned for a packet that the chain received. -/
theorem ack_origin (hrun : Run sha256 history chain)
    {store : Bytes → Option Bytes} (hholds : chain.Holds store) {c : HostString}
    {n : UInt64} {value : Bytes} (hvalue : store (ackKey c n) = some value) :
    ∃ entry ∈ history, ∃ env packet proof height cp acks log,
      Received entry packet log ∧ packet.destClient = c ∧ packet.sequence = n ∧
      RecvSpec sha256 env packet proof height cp acks entry.pre.router.start
        (entry.post.router.finish log) ∧
      value = (v2AckCommitment sha256 (returnedAcks sha256 acks)).val := by
  refine hrun.invariant (fun history chain => ∀ store, chain.Holds store →
    ∀ c n value, store (ackKey c n) = some value →
    ∃ entry ∈ history, ∃ env packet proof height cp acks log,
      Received entry packet log ∧ packet.destClient = c ∧ packet.sequence = n ∧
      RecvSpec sha256 env packet proof height cp acks entry.pre.router.start
        (entry.post.router.finish log) ∧
      value = (v2AckCommitment sha256 (returnedAcks sha256 acks)).val)
    ?_ ?_ store hholds c n value hvalue
  · rintro chain hinit store hholds c n value hvalue
    rw [hinit.holds_empty hholds] at hvalue
    cases hvalue
  · intro history last hprev ih hstep store hholds c n value hvalue
    have hold := fun store hholds hvalue =>
      mem_append_left_exists [last] (ih store hholds c n value hvalue)
    rcases hholds.of_step hstep with hbefore | rfl
    · exact hold store hbefore hvalue
    · rcases hstep.written (receiptsAcknowledged hprev) hvalue with hbefore |
        ⟨packet, -, hkey, -⟩ | ⟨env, packet, proof, height, cp, acks, log, hreceived, hspec,
          hkey | ⟨hkey, rfl⟩⟩
      · exact hold _ (.inl rfl) hbefore
      · exact absurd hkey.symm (commitmentKey_ne_ackKey _ _ _ _)
      · exact absurd hkey.symm (receiptKey_ne_ackKey _ _ _ _)
      · obtain ⟨rfl, -, rfl⟩ := pathBytes_injective hkey
        exact ⟨last, List.mem_append_right _ (List.mem_singleton_self _), env, packet, proof,
          height, cp, acks, log, hreceived, rfl, rfl, hspec, rfl⟩

/-! ### Receipts stay -/

theorem closed_timestamp_le (hrun : Run sha256 history chain) :
    ∀ ledger ∈ chain.closed, ledger.timestamp ≤ chain.timestamp := by
  refine hrun.invariant
    (fun _ chain => ∀ ledger ∈ chain.closed, ledger.timestamp ≤ chain.timestamp) ?_ ?_
  · rintro chain ⟨-, hclosed⟩ ledger hmem
    rw [hclosed] at hmem
    cases hmem
  · intro history last hprev ih hstep ledger hmem
    cases hstep.move with
    | registry hregistry hquiet hclosed htimestamp =>
        rw [hclosed] at hmem
        rw [htimestamp]
        exact ih ledger hmem
    | lifecycle hact htime hlifecycle hclosed htimestamp =>
        rw [hclosed] at hmem
        rw [htimestamp]
        exact ih ledger hmem
    | close hact hle hpost =>
        rw [hpost] at hmem ⊢
        rcases List.mem_append.mp hmem with hold | hnew
        · exact UInt64.le_trans (ih ledger hold) hle
        · rw [List.mem_singleton.mp hnew]
          exact hle

theorem Step.closed_stays (hstep : Step sha256 entry.pre entry.act entry.post)
    {ledger : Ledger} (hmem : ledger ∈ entry.pre.closed) : ledger ∈ entry.post.closed := by
  cases hstep.move with
  | registry hregistry hquiet hclosed htimestamp => exact hclosed ▸ hmem
  | lifecycle hact htime hlifecycle hclosed htimestamp => exact hclosed ▸ hmem
  | close hact hle hpost =>
      rw [hpost]
      exact List.mem_append_left _ hmem

/-- A receipt at `(c, n)` from time `t` on: it is in the open ledger, and in every closed
one with a later timestamp. -/
structure ReceiptSince (chain : Chain X) (c : HostString) (n t : UInt64) : Prop where
  clock : t ≤ chain.timestamp
  current : chain.router.storage.provable (receiptKey c n) ≠ none
  closed : ∀ ledger ∈ chain.closed, t < ledger.timestamp →
    ledger.provable (receiptKey c n) ≠ none

/-- No step removes a receipt. -/
theorem Step.receipt_stays (hstep : Step sha256 entry.pre entry.act entry.post)
    {c : HostString} {n : UInt64}
    (hpresent : entry.pre.router.storage.provable (receiptKey c n) ≠ none) :
    entry.post.router.storage.provable (receiptKey c n) ≠ none := by
  cases hstep.move with
  | registry hregistry hquiet hclosed htimestamp =>
      rw [hregistry.provable]
      exact hpresent
  | close hact hle hpost =>
      rw [hpost]
      exact hpresent
  | lifecycle hact htime hlifecycle hclosed htimestamp =>
      cases hlifecycle with
      | send hspec =>
          have hstorage : entry.post.router.storage = _ := hspec.storage
          rw [hstorage, Storage.write_provable,
            Function.update_of_ne (commitmentKey_ne_receiptKey _ _ _ _).symm]
          exact hpresent
      | @recv packet proof height cp acks hspec =>
          have hstorage : entry.post.router.storage = _ := hspec.storage
          rw [hstorage, Storage.write_provable,
            Function.update_of_ne (receiptKey_ne_ackKey _ _ _ _), Storage.write_provable,
            Function.update_apply]
          split
          · simp
          · exact hpresent
      | ack hspec =>
          have hstorage : entry.post.router.storage = _ := hspec.storage
          rw [hstorage, Storage.erase_provable,
            Function.update_of_ne (commitmentKey_ne_receiptKey _ _ _ _).symm]
          exact hpresent
      | timeout hspec =>
          have hstorage : entry.post.router.storage = _ := hspec.storage
          rw [hstorage, Storage.erase_provable,
            Function.update_of_ne (commitmentKey_ne_receiptKey _ _ _ _).symm]
          exact hpresent
      | writeAck hreceipt hack hstorage =>
          rw [hstorage, Storage.write_provable,
            Function.update_of_ne (receiptKey_ne_ackKey _ _ _ _)]
          exact hpresent

theorem ReceiptSince.step {c : HostString} {n t : UInt64}
    (hsince : ReceiptSince entry.pre c n t)
    (hstep : Step sha256 entry.pre entry.act entry.post) :
    ReceiptSince entry.post c n t := by
  have hcurrent := hstep.receipt_stays hsince.current
  cases hstep.move with
  | registry hregistry hquiet hclosed htimestamp =>
      exact ⟨htimestamp ▸ hsince.clock, hcurrent, hclosed ▸ hsince.closed⟩
  | lifecycle hact htime hlifecycle hclosed htimestamp =>
      exact ⟨htimestamp ▸ hsince.clock, hcurrent, hclosed ▸ hsince.closed⟩
  | close hact hle hpost =>
      rw [hpost]
      refine ⟨UInt64.le_trans hsince.clock hle, hsince.current, ?_⟩
      intro ledger hmem hlate
      rcases List.mem_append.mp hmem with hold | hnew
      · exact hsince.closed ledger hold hlate
      · rw [List.mem_singleton.mp hnew]
        exact hsince.current

/-- **Receipts stay.**  Once received, a packet's receipt is in every ledger whose
timestamp is later than the one it was received at. -/
theorem receiptSince_of_received (hrun : Run sha256 history chain)
    (hmem : entry ∈ history) (hreceived : Received entry packet log) :
    ReceiptSince chain packet.destClient packet.sequence entry.pre.timestamp := by
  obtain ⟨before, after, hsplit⟩ := List.append_of_mem hmem
  obtain ⟨hbefore, hstep⟩ := hrun.split hsplit
  refine hrun.since (fun chain => ReceiptSince chain packet.destClient packet.sequence
    entry.pre.timestamp) (fun _ h hsince => hsince.step h) hmem ?_
  obtain ⟨env, proof, height, cp, acks, -, hspec⟩ := hreceived.spec hstep
  obtain ⟨env', proof', height', hact⟩ := hreceived
  rw [hact] at hstep
  obtain ⟨-, -, htimestamp, hclosed⟩ := hstep
  have hstorage : entry.post.router.storage = _ := hspec.storage
  refine ⟨by rw [htimestamp]; exact UInt64.le_refl _, ?_, ?_⟩
  · rw [hstorage, Storage.write_provable,
      Function.update_of_ne (receiptKey_ne_ackKey _ _ _ _), Storage.write_provable]
    simp
  · -- what closed before has no later timestamp
    intro ledger hledger hlate
    rw [hclosed] at hledger
    have hle := closed_timestamp_le hbefore ledger hledger
    exact absurd hlate (UInt64.not_lt.mpr hle)

/-! ### Sequences are assigned once -/

/-- The last sequence assigned for a client. -/
def lastSequence (chain : Chain X) (c : HostString) : Nat :=
  ((chain.router.storage.nextSeqSend c).getD 0).toNat

theorem Sent.lastSequence (hsent : Sent entry packet)
    (hstep : Step sha256 entry.pre entry.act entry.post) :
    packet.sequence.toNat = entry.pre.lastSequence packet.sourceClient + 1 ∧
      entry.post.lastSequence packet.sourceClient = packet.sequence.toNat := by
  obtain ⟨env, log, -, hspec⟩ := hsent.spec hstep
  have hstorage : entry.post.router.storage = _ := hspec.storage
  refine ⟨hspec.sequence, ?_⟩
  rw [Chain.lastSequence, hstorage, Storage.write_nextSeqSend,
    Storage.assignSequence_nextSeqSend, Function.update_self, Option.getD_some]

theorem Step.lastSequence_le (hstep : Step sha256 entry.pre entry.act entry.post)
    (c : HostString) : entry.pre.lastSequence c ≤ entry.post.lastSequence c := by
  unfold Chain.lastSequence
  cases hstep.move with
  | registry hregistry hquiet hclosed htimestamp => rw [hregistry.nextSeqSend]
  | close hact hle hpost => rw [hpost]
  | lifecycle hact htime hlifecycle hclosed htimestamp =>
      rcases hlifecycle.nextSeqSend_cases with hsame | ⟨c', n, hnext, hupdate⟩
      · rw [hsame]
      · rw [hupdate]
        by_cases hc : c = c'
        · rw [hc, Function.update_self, Option.getD_some, hnext]
          exact Nat.le_succ _
        · rw [Function.update_of_ne hc]

theorem sequence_le_of_sent (hrun : Run sha256 history chain) (hmem : entry ∈ history)
    (hsent : Sent entry packet) :
    packet.sequence.toNat ≤ chain.lastSequence packet.sourceClient := by
  have hstep := hrun.step_of_mem hmem
  refine hrun.since
    (fun chain => packet.sequence.toNat ≤ chain.lastSequence packet.sourceClient) ?_ hmem ?_
  · intro entry hstep hle
    exact Nat.le_trans hle (hstep.lastSequence_le _)
  · rw [(hsent.lastSequence hstep).2]

/-- **Sequences are assigned once.**  Two sends for one client with one sequence are the
same packet. -/
theorem sent_unique (hrun : Run sha256 history chain) :
    ∀ first ∈ history, ∀ second ∈ history, ∀ p q, Sent first p → Sent second q →
      p.sourceClient = q.sourceClient → p.sequence = q.sequence → p = q := by
  refine hrun.invariant (fun history _ => ∀ first ∈ history, ∀ second ∈ history, ∀ p q,
    Sent first p → Sent second q → p.sourceClient = q.sourceClient →
    p.sequence = q.sequence → p = q) ?_ ?_
  · intro chain hinit first hfirst
    cases hfirst
  · intro history last hprev ih hstep
    -- the new send gets a sequence above every earlier one
    have hfresh : ∀ earlier ∈ history, ∀ p q, Sent earlier p → Sent last q →
        p.sourceClient = q.sourceClient → p.sequence ≠ q.sequence := by
      intro earlier hearlier p q hp hq hclient hsequence
      have hle := sequence_le_of_sent hprev hearlier hp
      have hnext := (hq.lastSequence hstep).1
      rw [hclient, hsequence, hnext] at hle
      omega
    intro first hfirst second hsecond p q hp hq hclient hsequence
    rcases List.mem_append.mp hfirst with hold | hnew
    · rcases List.mem_append.mp hsecond with hold' | hnew'
      · exact ih first hold second hold' p q hp hq hclient hsequence
      · rw [List.mem_singleton.mp hnew'] at hq
        exact absurd hsequence (hfresh first hold p q hp hq hclient)
    · rw [List.mem_singleton.mp hnew] at hp
      rcases List.mem_append.mp hsecond with hold' | hnew'
      · exact absurd hsequence.symm (hfresh second hold' q p hq hp hclient.symm)
      · rw [List.mem_singleton.mp hnew'] at hq
        exact hp.unique hq

/-! ### Counterparties are registered once -/

theorem Step.counterparty_stays (hstep : Step sha256 entry.pre entry.act entry.post)
    {c : HostString} {cp : Counterparty}
    (hcp : entry.pre.router.storage.counterparty c = some cp) :
    entry.post.router.storage.counterparty c = some cp := by
  cases hstep.move with
  | registry hregistry hquiet hclosed htimestamp => exact hregistry.counterparty c cp hcp
  | close hact hle hpost =>
      rw [hpost]
      exact hcp
  | lifecycle hact htime hlifecycle hclosed htimestamp =>
      rw [hlifecycle.counterparty_eq]
      exact hcp

/-- A counterparty found at some step of a run is the one registered at its end. -/
theorem counterparty_final (hrun : Run sha256 history chain) (hmem : entry ∈ history)
    {c : HostString} {cp : Counterparty}
    (hcp : entry.pre.router.storage.counterparty c = some cp) :
    chain.router.storage.counterparty c = some cp := by
  have hstep := hrun.step_of_mem hmem
  refine hrun.since (fun chain => chain.router.storage.counterparty c = some cp) ?_
    hmem (hstep.counterparty_stays hcp)
  intro entry hstep hcp
  exact hstep.counterparty_stays hcp

end Chain

end StellarIbc
