import StellarIbc.RouterFrames
import StellarIbc.RouterIntegrity

/-!
# The destination side of a packet's life

What every run of the router without raw setters guarantees where packets are received:
a packet is received at most once, so its payloads reach their apps at most once; its
receipt and its acknowledgement commitment appear in one step and stay as they are.
-/

namespace StellarIbc.Router

open Contract

variable {X : Type} {sha256 : Bytes → Hash} {env : Env X}

/-! ### Only `recv_packet` makes receive callbacks -/

/-- The receive callbacks made so far. -/
def Ctx.received (ctx : Ctx X) : List (Option Address × OnRecvPacketCallback × Bytes) :=
  recvCalls ctx.log

instance : SeesCalls (Ctx.received (X := X)) where
  storage _ _ := rfl
  hashed ctx data := by simp [Ctx.received, recvCalls]
  published ctx event := by simp [Ctx.received, recvCalls]

theorem keepsKind_received {kind : InvocationKind} (hkind : kind ≠ .receive) :
    KeepsKind Ctx.received env kind where
  keeps callee call hcall := by
    refine ⟨fun h => ?_⟩
    obtain ⟨ext, -, rfl⟩ := returns_invokeContract.mp h
    cases call with
    | onRecvPacket callback => exact absurd hcall.symm hkind
    | _ => simp [Ctx.received, recvCalls]

theorem keeps_received {call : Call}
    (hcall : ∀ packet proof height, call ≠ .recvPacket packet proof height) :
    Keeps Ctx.received (call.exec sha256 env) := by
  apply keeps_exec
  intro kind hkind
  apply keepsKind_received
  rintro rfl
  cases call with
  | recvPacket packet proof height => exact absurd rfl (hcall packet proof height)
  | _ => simp [Call.invokes] at hkind

theorem Returned.recvCalls_eq_nil {call : Call} {value : call.Result} {pre post : State X}
    {log : List Effect} (h : Returned sha256 env call pre value log post)
    (hcall : ∀ packet proof height, call ≠ .recvPacket packet proof height) :
    recvCalls log = [] := by
  have hframe : Keeps Ctx.received (call.exec sha256 env) := keeps_received hcall
  exact hframe.keeps h

/-! ### Received packets -/

/-- The packet that a successful `recv_packet` was for. -/
def Act.received : Act X → Option Packet
  | .tx ⟨_, .recvPacket packet _ _, .returned _ _⟩ => some packet
  | _ => none

theorem Act.eq_of_received {act : Act X} {packet : Packet}
    (h : act.received = some packet) : ∃ env proof height log,
      act = .tx ⟨env, .recvPacket packet proof height, .returned () log⟩ := by
  unfold Act.received at h
  split at h
  · obtain rfl := Option.some.inj h
    exact ⟨_, _, _, _, rfl⟩
  · cases h

/-- A successful `recv_packet` at `(c, n)`, of any packet with any proof. -/
def ReceivesAt (act : Act X) (c : HostString) (n : UInt64) : Prop :=
  ∃ packet, act.received = some packet ∧ packet.destClient = c ∧ packet.sequence = n

/-- What the apps returned to the receive callbacks of a step. -/
def Act.results (act : Act X) : List Bytes := (recvCalls act.log).map (·.2.2)

/-- The receive callbacks made for `(c, n)` in a run. -/
def dispatchedFor (c : HostString) (n : UInt64) (history : List (Entry (State X) (Act X))) :
    List OnRecvPacketCallback :=
  ((history.flatMap fun entry => recvCalls entry.act.log).map (·.2.1)).filter
    fun callback => callback.destClient = c ∧ callback.sequence = n

/-- A step receives a packet that was not received before, or makes no receive callback
and leaves receipts and acknowledgements alone. -/
inductive DestinationStep (sha256 : Bytes → Hash) (entry : Entry (State X) (Act X)) : Prop
  | quiet (hreceived : entry.act.received = none) (hcalls : recvCalls entry.act.log = [])
      (hstored : ∀ c n, entry.post.storage.provable (receiptKey c n) =
          entry.pre.storage.provable (receiptKey c n) ∧
        entry.post.storage.provable (ackKey c n) = entry.pre.storage.provable (ackKey c n))
  | received {packet : Packet} (hreceived : entry.act.received = some packet)
      (hcallbacks : (recvCalls entry.act.log).map (·.2.1) =
        packet.payloads.map (recvCallback packet))
      (hfresh : entry.pre.storage.provable (receiptKey packet.destClient packet.sequence) =
        none)
      (hreceipts : ∀ c n, entry.post.storage.provable (receiptKey c n) =
        if c = packet.destClient ∧ n = packet.sequence then some [RECEIPT_SENTINEL]
        else entry.pre.storage.provable (receiptKey c n))
      (hacks : ∀ c n, entry.post.storage.provable (ackKey c n) =
        if c = packet.destClient ∧ n = packet.sequence then
          some (v2AckCommitment sha256 (returnedAcks sha256 entry.act.results)).val
        else entry.pre.storage.provable (ackKey c n))

variable {history : List (Entry (State X) (Act X))} {state : State X}
variable {entry : Entry (State X) (Act X)} {c : HostString} {n : UInt64}

theorem Step.recvCalls_eq_nil (hstep : Step sha256 entry.pre entry.act entry.post)
    (hreceived : entry.act.received = none) : recvCalls entry.act.log = [] := by
  rcases hstep.log_cases with hlog | ⟨env, call, value, log, hact, hreturned⟩
  · rw [hlog]
    rfl
  · rw [hact] at hreceived ⊢
    refine hreturned.recvCalls_eq_nil ?_
    rintro packet proof height rfl
    cases hreceived

theorem Act.received_of_call {act : Act X}
    (h : ∀ env packet proof height value log,
      act ≠ .tx ⟨env, .recvPacket packet proof height, .returned value log⟩) :
    act.received = none := by
  unfold Act.received
  split
  · next hact => exact absurd rfl (h _ _ _ _ _ _)
  · rfl

/-- Commitments and the registry are no concern of the destination side. -/
theorem DestinationStep.of_quiet (hstep : Step sha256 entry.pre entry.act entry.post)
    (hreceived : entry.act.received = none)
    (hstored : ∀ key, (∀ c n, key ≠ commitmentKey c n) →
      entry.post.storage.provable key = entry.pre.storage.provable key) :
    DestinationStep sha256 entry := by
  refine .quiet hreceived (hstep.recvCalls_eq_nil hreceived) ?_
  intro c n
  exact ⟨hstored _ fun _ _ => (commitmentKey_ne_receiptKey _ _ _ _).symm,
    hstored _ fun _ _ => (commitmentKey_ne_ackKey _ _ _ _).symm⟩

theorem GuardedStep.destination (hstep : GuardedStep sha256 entry.pre entry.act entry.post)
    (hpaired : ReceiptsAcknowledged entry.pre.storage) : DestinationStep sha256 entry := by
  rcases hstep.cases with ⟨hregistry, haborted⟩ | ⟨env, call, value, log, hact, hlifecycle⟩
  · refine .of_quiet hstep.1 ?_ fun key _ => by rw [hregistry.provable]
    apply Act.received_of_call
    intro env packet proof height value log hact
    cases haborted _ hact rfl
  cases hlifecycle with
  | @send c timeout payloads n dest hspec =>
      have hstorage : entry.post.storage = _ := hspec.storage
      refine .of_quiet hstep.1 (by rw [hact]; rfl) ?_
      intro key hkey
      rw [hstorage, Storage.write_provable, Function.update_of_ne (hkey _ _)]
      rfl
  | @recv packet proof height cp acks hspec =>
      have hstorage : entry.post.storage = _ := hspec.storage
      have hlog : entry.act.log = log := by rw [hact]; rfl
      have hcalls : recvCalls log = _ := hspec.calls
      have hlength : packet.payloads.length = acks.length := hspec.length.symm
      have hresults : entry.act.results = acks := by
        rw [Act.results, hlog, hcalls]
        simp [recvCalls, Function.comp_def, List.map_snd_zip, hlength.ge]
      refine .received (by rw [hact]; rfl) ?_ hspec.fresh ?_ ?_
      · have hfst : ((packet.payloads.zip acks).map Prod.fst).map (recvCallback packet) =
            packet.payloads.map (recvCallback packet) := by
          rw [List.map_fst_zip hlength.le]
        rw [hlog, hcalls]
        simpa [recvCalls, Function.comp_def] using hfst
      · intro c n
        rw [hstorage, Storage.write_provable,
          Function.update_of_ne (receiptKey_ne_ackKey _ _ _ _), Storage.write_provable,
          update_pathBytes]
      · intro c n
        rw [hstorage, hresults, Storage.write_provable, update_pathBytes, Storage.write_provable,
          Function.update_of_ne (receiptKey_ne_ackKey _ _ _ _).symm]
  | @ack packet acks proof height cp hspec =>
      have hstorage : entry.post.storage = _ := hspec.storage
      refine .of_quiet hstep.1 (by rw [hact]; rfl) ?_
      intro key hkey
      rw [hstorage, Storage.erase_provable, Function.update_of_ne (hkey _ _)]
  | @timeout packet proof height cp hspec =>
      have hstorage : entry.post.storage = _ := hspec.storage
      refine .of_quiet hstep.1 (by rw [hact]; rfl) ?_
      intro key hkey
      rw [hstorage, Storage.erase_provable, Function.update_of_ne (hkey _ _)]
  | writeAck hreceipt hack hstorage => exact absurd hack (hpaired _ _ hreceipt)

/-! ### The destination side of a run -/

structure DestinationLifecycle (sha256 : Bytes → Hash)
    (history : List (Entry (State X) (Act X))) : Prop where
  receivedOnce : ∀ before entry after, history = before ++ entry :: after → ∀ c n,
    ReceivesAt entry.act c n → ∀ later ∈ after, ¬ ReceivesAt later.act c n
  /-- The callbacks for `(c, n)` are those of one packet, one for each payload. -/
  dispatchedOnce : ∀ c n, dispatchedFor c n history = [] ∨
    ∃ entry ∈ history, ∃ packet, entry.act.received = some packet ∧
      packet.destClient = c ∧ packet.sequence = n ∧
      dispatchedFor c n history = packet.payloads.map (recvCallback packet)
  /-- Receipt and acknowledgement appear in the step that receives the packet. -/
  together : ∀ entry ∈ history, ∀ c n,
    (entry.pre.storage.provable (receiptKey c n) = none ∧
      entry.post.storage.provable (receiptKey c n) ≠ none ↔ ReceivesAt entry.act c n) ∧
    (entry.pre.storage.provable (ackKey c n) = none ∧
      entry.post.storage.provable (ackKey c n) ≠ none ↔ ReceivesAt entry.act c n)
  kept : ∀ entry ∈ history, ∀ c n key value, key = receiptKey c n ∨ key = ackKey c n →
    entry.pre.storage.provable key = some value → entry.post.storage.provable key = some value
  /-- The commitment is to what the apps returned, or to the error acknowledgement where
  the packet has no payload and no app was called. -/
  committed : ∀ entry ∈ history, ∀ packet, entry.act.received = some packet →
    entry.post.storage.provable (ackKey packet.destClient packet.sequence) =
      some (v2AckCommitment sha256 (returnedAcks sha256 entry.act.results)).val
  writeAckFails : ∀ entry ∈ history, ∀ env c n acks value log,
    entry.act ≠ .tx ⟨env, .writeAcknowledgement c n acks, .returned value log⟩

/-- Receipts and acknowledgements are those of the packets received so far. -/
structure DestinationInvariant (history : List (Entry (State X) (Act X)))
    (state : State X) : Prop where
  receipts : ∀ c n, state.storage.provable (receiptKey c n) ≠ none ↔
    ∃ entry ∈ history, ReceivesAt entry.act c n
  acks : ∀ c n, state.storage.provable (ackKey c n) ≠ none ↔
    ∃ entry ∈ history, ReceivesAt entry.act c n
  dispatched : ∀ c n, (∀ entry ∈ history, ¬ ReceivesAt entry.act c n) ∧
      dispatchedFor c n history = [] ∨
    ∃ entry ∈ history, ∃ packet, entry.act.received = some packet ∧
      packet.destClient = c ∧ packet.sequence = n ∧
      dispatchedFor c n history = packet.payloads.map (recvCallback packet)

theorem receivesAt_of_some {act : Act X} {packet : Packet} (h : act.received = some packet) :
    ReceivesAt act c n ↔ c = packet.destClient ∧ n = packet.sequence := by
  rw [ReceivesAt, h]
  constructor
  · rintro ⟨_, ⟨⟩, rfl, rfl⟩
    exact ⟨rfl, rfl⟩
  · rintro ⟨rfl, rfl⟩
    exact ⟨packet, rfl, rfl, rfl⟩

theorem not_receivesAt_of_none {act : Act X} (h : act.received = none) :
    ¬ ReceivesAt act c n := by
  rintro ⟨packet, hsome, -⟩
  rw [h] at hsome
  cases hsome

theorem dispatchedFor_append :
    dispatchedFor c n (history ++ [entry]) = dispatchedFor c n history ++
      ((recvCalls entry.act.log).map (·.2.1)).filter
        fun callback => callback.destClient = c ∧ callback.sequence = n := by
  simp [dispatchedFor]

/-- All callbacks of a packet carry its destination client and its sequence. -/
theorem filter_recvCallbacks (packet : Packet) :
    (packet.payloads.map (recvCallback packet)).filter
        (fun callback => callback.destClient = c ∧ callback.sequence = n) =
      if c = packet.destClient ∧ n = packet.sequence then
        packet.payloads.map (recvCallback packet)
      else [] := by
  split
  · next hkey =>
      rw [List.filter_eq_self]
      rintro callback hmem
      obtain ⟨payload, -, rfl⟩ := List.mem_map.mp hmem
      simp [recvCallback, hkey]
  · next hkey =>
      rw [List.filter_eq_nil_iff]
      rintro callback hmem hmatch
      obtain ⟨payload, -, rfl⟩ := List.mem_map.mp hmem
      obtain ⟨hclient, hnumber⟩ := of_decide_eq_true hmatch
      exact hkey ⟨hclient.symm, hnumber.symm⟩

theorem exists_receivesAt_append :
    (∃ earlier ∈ history ++ [entry], ReceivesAt earlier.act c n) ↔
      (∃ earlier ∈ history, ReceivesAt earlier.act c n) ∨ ReceivesAt entry.act c n := by
  simp [or_and_right, exists_or]

/-- An entry that a receive writes, and no other step, is there once it was received. -/
theorem present_of_received {packet : Packet} {key : HostString → UInt64 → Bytes}
    {value : Bytes} (hreceived : entry.act.received = some packet)
    (hpre : ∀ c n, entry.pre.storage.provable (key c n) ≠ none ↔
      ∃ earlier ∈ history, ReceivesAt earlier.act c n)
    (hpost : ∀ c n, entry.post.storage.provable (key c n) =
      if c = packet.destClient ∧ n = packet.sequence then some value
      else entry.pre.storage.provable (key c n)) (c : HostString) (n : UInt64) :
    entry.post.storage.provable (key c n) ≠ none ↔
      ∃ earlier ∈ history ++ [entry], ReceivesAt earlier.act c n := by
  rw [hpost, exists_receivesAt_append, receivesAt_of_some hreceived]
  by_cases hkey : c = packet.destClient ∧ n = packet.sequence
  · simp [hkey]
  · rw [if_neg hkey, hpre]
    simp [hkey]

theorem DestinationInvariant.step (hinv : DestinationInvariant history entry.pre)
    (hstep : DestinationStep sha256 entry) :
    DestinationInvariant (history ++ [entry]) entry.post := by
  cases hstep with
  | quiet hreceived hcalls hstored =>
      refine ⟨?_, ?_, ?_⟩
      · intro c n
        rw [(hstored c n).1, hinv.receipts, exists_receivesAt_append]
        simp [not_receivesAt_of_none hreceived]
      · intro c n
        rw [(hstored c n).2, hinv.acks, exists_receivesAt_append]
        simp [not_receivesAt_of_none hreceived]
      · intro c n
        have hsame : dispatchedFor c n (history ++ [entry]) = dispatchedFor c n history := by
          rw [dispatchedFor_append, hcalls, List.map_nil, List.filter_nil, List.append_nil]
        rw [hsame]
        rcases hinv.dispatched c n with ⟨hnone, hempty⟩ | ⟨earlier, hmem, hrest⟩
        · refine .inl ⟨?_, hempty⟩
          rw [List.forall_mem_append, List.forall_mem_singleton]
          exact ⟨hnone, not_receivesAt_of_none hreceived⟩
        · exact .inr ⟨earlier, List.mem_append_left _ hmem, hrest⟩
  | @received packet hreceived hcallbacks hfresh hreceipts hacks =>
      refine ⟨?_, ?_, ?_⟩
      · exact present_of_received hreceived hinv.receipts hreceipts
      · exact present_of_received hreceived hinv.acks hacks
      · intro c n
        rw [dispatchedFor_append, hcallbacks, filter_recvCallbacks]
        rcases hinv.dispatched c n with ⟨hnone, hempty⟩ | ⟨earlier, hmem, other, hother, rfl,
          rfl, hcalls⟩
        · rw [hempty, List.nil_append]
          by_cases hkey : c = packet.destClient ∧ n = packet.sequence
          · rw [if_pos hkey]
            exact .inr ⟨entry, by simp, packet, hreceived, hkey.1.symm, hkey.2.symm, rfl⟩
          · refine .inl ⟨?_, if_neg hkey⟩
            rw [List.forall_mem_append, List.forall_mem_singleton, receivesAt_of_some hreceived]
            exact ⟨hnone, hkey⟩
        · -- a packet received before left its receipt, so this one is another
          have hkey : ¬ (other.destClient = packet.destClient ∧
              other.sequence = packet.sequence) := by
            rintro ⟨hclient, hnumber⟩
            have hpresent := (hinv.receipts other.destClient other.sequence).mpr
              ⟨earlier, hmem, other, hother, rfl, rfl⟩
            rw [hclient, hnumber] at hpresent
            exact hpresent hfresh
          rw [if_neg hkey, List.append_nil]
          exact .inr ⟨earlier, List.mem_append_left _ hmem, other, hother, rfl, rfl, hcalls⟩

theorem destinationInvariant_of_guarded
    (hreach : Reach Init (GuardedStep sha256) history state) :
    DestinationInvariant history state := by
  apply hreach.invariant DestinationInvariant
  · rintro state ⟨admin, hstorage⟩
    refine ⟨?_, ?_, ?_⟩
    · intro c n
      simp [hstorage, Storage.initial]
    · intro c n
      simp [hstorage, Storage.initial]
    · intro c n
      exact .inl ⟨by simp, rfl⟩
  · intro history entry hprev hinv hstep
    exact hinv.step (GuardedStep.destination hstep (integrity_of_guarded hprev).2)

/-- A step of a guarded run, with what the run established before it. -/
theorem destinationStep_of_split {before after : List (Entry (State X) (Act X))}
    (hreach : Reach Init (GuardedStep sha256) history state)
    (hsplit : history = before ++ entry :: after) :
    DestinationInvariant before entry.pre ∧ DestinationStep sha256 entry := by
  obtain ⟨hbefore, hstep⟩ := hreach.split hsplit
  exact ⟨destinationInvariant_of_guarded hbefore,
    GuardedStep.destination hstep (integrity_of_guarded hbefore).2⟩

/-- A packet is received only where there is neither receipt nor acknowledgement. -/
theorem DestinationStep.fresh (hstep : DestinationStep sha256 entry)
    (hat : ReceivesAt entry.act c n) :
    entry.pre.storage.provable (receiptKey c n) = none := by
  cases hstep with
  | quiet hreceived hcalls hstored => exact absurd hat (not_receivesAt_of_none hreceived)
  | received hreceived hcallbacks hfresh hreceipts hacks =>
      obtain ⟨rfl, rfl⟩ := (receivesAt_of_some hreceived).mp hat
      exact hfresh

theorem DestinationStep.together {before : List (Entry (State X) (Act X))}
    (hinv : DestinationInvariant before entry.pre) (hstep : DestinationStep sha256 entry) :
    (entry.pre.storage.provable (receiptKey c n) = none ∧
      entry.post.storage.provable (receiptKey c n) ≠ none ↔ ReceivesAt entry.act c n) ∧
    (entry.pre.storage.provable (ackKey c n) = none ∧
      entry.post.storage.provable (ackKey c n) ≠ none ↔ ReceivesAt entry.act c n) := by
  have hpaired : entry.pre.storage.provable (receiptKey c n) = none ↔
      entry.pre.storage.provable (ackKey c n) = none := by
    rw [← not_iff_not]
    exact (hinv.receipts c n).trans (hinv.acks c n).symm
  cases hstep with
  | quiet hreceived hcalls hstored =>
      rw [(hstored c n).1, (hstored c n).2]
      simp [not_receivesAt_of_none hreceived]
  | received hreceived hcallbacks hfresh hreceipts hacks =>
      rw [hreceipts, hacks, ← hpaired, receivesAt_of_some hreceived]
      split
      · next hkey =>
          obtain ⟨rfl, rfl⟩ := hkey
          simp [hfresh]
      · next hkey =>
          simp only [hkey, iff_false, not_and, not_not]
          exact ⟨id, hpaired.mp⟩

theorem DestinationStep.kept {before : List (Entry (State X) (Act X))}
    (hinv : DestinationInvariant before entry.pre) (hstep : DestinationStep sha256 entry)
    {key value : Bytes} (hkey : key = receiptKey c n ∨ key = ackKey c n)
    (hpre : entry.pre.storage.provable key = some value) :
    entry.post.storage.provable key = some value := by
  cases hstep with
  | quiet hreceived hcalls hstored =>
      rcases hkey with rfl | rfl
      · rw [(hstored c n).1, hpre]
      · rw [(hstored c n).2, hpre]
  | @received packet hreceived hcallbacks hfresh hreceipts hacks =>
      have hfreshAck : entry.pre.storage.provable
          (ackKey packet.destClient packet.sequence) = none := by
        by_contra hpresent
        exact (hinv.receipts _ _).mpr ((hinv.acks _ _).mp hpresent) hfresh
      rcases hkey with rfl | rfl
      · rw [hreceipts, if_neg, hpre]
        rintro ⟨rfl, rfl⟩
        rw [hfresh] at hpre
        cases hpre
      · rw [hacks, if_neg, hpre]
        rintro ⟨rfl, rfl⟩
        rw [hfreshAck] at hpre
        cases hpre

/-- **The destination side.**  In every run without raw setters. -/
theorem destinationLifecycle_of_guarded (hrun : Run sha256 history state)
    (hguarded : ∀ entry ∈ history, entry.act.Guarded) :
    DestinationLifecycle sha256 history := by
  have hreach := hrun.restrict hguarded
  have hmember : ∀ entry ∈ history, ∃ before, DestinationInvariant before entry.pre ∧
      DestinationStep sha256 entry := by
    intro entry hmem
    obtain ⟨before, after, hsplit⟩ := List.append_of_mem hmem
    exact ⟨before, destinationStep_of_split hreach hsplit⟩
  refine ⟨?_, ?_, ?_, ?_, ?_, ?_⟩
  · rintro before entry after hsplit c n hat later hlater hagain
    obtain ⟨middle, rest, hsplit'⟩ := Reach.split_of_later hsplit hlater
    obtain ⟨hinv, hstep⟩ := destinationStep_of_split hreach hsplit'
    -- the receipt of the first time is still there
    exact (hinv.receipts c n).mpr ⟨entry, by simp, hat⟩ (hstep.fresh hagain)
  · intro c n
    rcases (destinationInvariant_of_guarded hreach).dispatched c n with ⟨-, hempty⟩ | hone
    · exact .inl hempty
    · exact .inr hone
  · intro entry hmem c n
    obtain ⟨before, hinv, hstep⟩ := hmember entry hmem
    exact hstep.together hinv
  · intro entry hmem c n key value hkey hpre
    obtain ⟨before, hinv, hstep⟩ := hmember entry hmem
    exact hstep.kept hinv hkey hpre
  · intro entry hmem packet hreceived
    obtain ⟨before, hinv, hstep⟩ := hmember entry hmem
    cases hstep with
    | quiet hnone hcalls hstored =>
        rw [hnone] at hreceived
        cases hreceived
    | received hsome hcallbacks hfresh hreceipts hacks =>
        obtain rfl := Option.some.inj (hsome.symm.trans hreceived)
        rw [hacks, if_pos ⟨rfl, rfl⟩]
  · intro entry hmem env c n acks value log hact
    obtain ⟨before, after, hsplit⟩ := List.append_of_mem hmem
    obtain ⟨hbefore, hstep⟩ := hreach.split hsplit
    rw [hact] at hstep
    obtain ⟨hreceipt, hack, -⟩ := returns_writeAcknowledgement hstep.1.returned
    exact (integrity_of_guarded hbefore).2 c n hreceipt hack

/-! ### Concrete runs -/

/-- A router with one client and one port receives a packet of `payloads` twice. -/
def receiveTwice (payloads : List Payload) : List (Env Unit × Call) :=
  [(acceptingEnv, .registerClientType (ascii "stellar") zeroAddress),
    (acceptingEnv, .createClient (ascii "stellar") [] [] 1),
    (acceptingEnv, .registerCounterparty (ascii "stellar-0") (ascii "cosmos-7") [ascii "ibc"]),
    (acceptingEnv, .registerPort (ascii "transfer") zeroAddress),
    (acceptingEnv, .recvPacket ⟨1, ascii "cosmos-7", ascii "stellar-0", 100, payloads⟩ [] 5),
    (acceptingEnv, .recvPacket ⟨1, ascii "cosmos-7", ascii "stellar-0", 100, payloads⟩ [] 6)]

def transferPayload : Payload :=
  ⟨ascii "transfer", ascii "transfer", ascii "ics20-1", ascii "application/json",
    ascii "data"⟩

theorem destinationLifecycle_receiveTwice :
    (dispatchedFor (ascii "stellar-0") 1
        (freshState.executeAll Sha256.sha256 [] (receiveTwice [transferPayload])).1).length =
        1 ∧
      DestinationLifecycle Sha256.sha256
        (freshState.executeAll Sha256.sha256 [] (receiveTwice [transferPayload])).1 := by
  refine ⟨by decide, ?_⟩
  apply destinationLifecycle_of_guarded
  · exact Run.executeAll (.start ⟨zeroAddress, rfl⟩) (receiveTwice [transferPayload])
  · exact guarded_executeAll (by simp) (by decide)

/-- Every acknowledgement commitment is to exactly what the apps returned. -/
def CommitsResults (sha256 : Bytes → Hash) (history : List (Entry (State X) (Act X))) : Prop :=
  ∀ entry ∈ history, ∀ packet, entry.act.received = some packet →
    entry.post.storage.provable (ackKey packet.destClient packet.sequence) =
      some (v2AckCommitment sha256 entry.act.results).val

/-- A packet without payloads is received, and acknowledged with an error no app sent. -/
theorem commitsResults_fails_without_payloads :
    (Run Sha256.sha256 (freshState.executeAll Sha256.sha256 [] (receiveTwice [])).1
        (freshState.executeAll Sha256.sha256 [] (receiveTwice [])).2 ∧
      ∀ entry ∈ (freshState.executeAll Sha256.sha256 [] (receiveTwice [])).1,
        entry.act.Guarded) ∧
      ¬ CommitsResults Sha256.sha256
        (freshState.executeAll Sha256.sha256 [] (receiveTwice [])).1 := by
  refine ⟨⟨Run.executeAll (.start ⟨zeroAddress, rfl⟩) (receiveTwice []), ?_⟩, ?_⟩
  · exact guarded_executeAll (by simp) (by decide)
  intro hresults
  have hcheck : ((freshState.executeAll Sha256.sha256 [] (receiveTwice [])).1.all fun entry =>
      entry.act.received.all fun packet =>
        entry.post.storage.provable (ackKey packet.destClient packet.sequence) =
          some (v2AckCommitment Sha256.sha256 entry.act.results).val) = true := by
    rw [List.all_eq_true]
    intro entry hmem
    cases hreceived : entry.act.received with
    | none => rfl
    | some packet => exact decide_eq_true (hresults entry hmem packet hreceived)
  revert hcheck
  rw [Sha256.sha256_eq_eval]
  decide +kernel

end StellarIbc.Router
