import StellarIbc.RouterIntegrity

/-!
# The source side of a packet's life

What every run of the router without raw setters guarantees where packets are sent:
sequences are dense for each client, a commitment stands exactly while its packet is in
flight, and a packet is settled at most once, by an acknowledgement or a timeout.
-/

namespace StellarIbc.Router

open Contract

variable {X : Type} {sha256 : Bytes → Hash}
variable {history : List (Entry (State X) (Act X))} {state : State X}
variable {entry : Entry (State X) (Act X)} {c : HostString} {n : UInt64}

/-! ### Sent and settled packets -/

/-- A successful `send_packet` of `packet`: what it was given, the sequence it returned
and the counterparty registered at that time. -/
def SentPacket (entry : Entry (State X) (Act X)) (packet : Packet) : Prop :=
  (∃ env log, entry.act = .tx ⟨env, .sendPacket packet.sourceClient packet.timeoutTimestamp
    packet.payloads, .returned packet.sequence log⟩) ∧
  ∃ cp, entry.pre.storage.counterparty packet.sourceClient = some cp ∧
    cp.clientId = packet.destClient

/-- The sequence a successful send on `c` returned. -/
def Act.assigned (c : HostString) : Act X → Option UInt64
  | .tx ⟨_, .sendPacket source _ _, .returned n _⟩ => if source = c then some n else none
  | _ => none

/-- The packet that a successful `acknowledge_packet` or `timeout_packet` was for. -/
def Act.settled : Act X → Option Packet
  | .tx ⟨_, .acknowledgePacket packet _ _ _, .returned _ _⟩ => some packet
  | .tx ⟨_, .timeoutPacket packet _ _, .returned _ _⟩ => some packet
  | _ => none

/-- The sequences of the successful sends on `c`, oldest first. -/
def sequencesOn (c : HostString) (history : List (Entry (State X) (Act X))) : List UInt64 :=
  history.filterMap fun entry => entry.act.assigned c

theorem Act.eq_of_settled {act : Act X} {packet : Packet} (h : act.settled = some packet) :
    (∃ env acks proof height log,
      act = .tx ⟨env, .acknowledgePacket packet acks proof height, .returned () log⟩) ∨
    (∃ env proof height log,
      act = .tx ⟨env, .timeoutPacket packet proof height, .returned () log⟩) := by
  unfold Act.settled at h
  split at h
  · obtain rfl := Option.some.inj h
    exact .inl ⟨_, _, _, _, _, rfl⟩
  · obtain rfl := Option.some.inj h
    exact .inr ⟨_, _, _, _, rfl⟩
  · cases h

theorem closedAt_iff :
    ClosedAt entry c n ↔ ∃ packet, entry.act.settled = some packet ∧
      packet.sourceClient = c ∧ packet.sequence = n := by
  constructor
  · rintro ⟨env, packet, log, hsource, hsequence, ⟨acks, proof, height, hact⟩ |
      ⟨proof, height, hact⟩⟩
    · exact ⟨packet, by rw [hact]; rfl, hsource, hsequence⟩
    · exact ⟨packet, by rw [hact]; rfl, hsource, hsequence⟩
  · rintro ⟨packet, hsettled, hsource, hsequence⟩
    rcases Act.eq_of_settled hsettled with ⟨env, acks, proof, height, log, hact⟩ |
      ⟨env, proof, height, log, hact⟩
    · exact ⟨env, packet, log, hsource, hsequence, .inl ⟨acks, proof, height, hact⟩⟩
    · exact ⟨env, packet, log, hsource, hsequence, .inr ⟨proof, height, hact⟩⟩

/-- A send is for one packet. -/
theorem SentPacket.unique {packet packet' : Packet} (h : SentPacket entry packet)
    (h' : SentPacket entry packet') : packet = packet' := by
  obtain ⟨⟨env, log, hact⟩, cp, hcp, hdest⟩ := h
  obtain ⟨⟨env', log', hact'⟩, cp', hcp', hdest'⟩ := h'
  cases packet with
  | mk sequence source dest timeout payloads =>
  cases packet' with
  | mk sequence' source' dest' timeout' payloads' =>
  have hsame := hact.symm.trans hact'
  simp only [Act.tx.injEq, Tx.mk.injEq] at hsame
  obtain ⟨-, hcall, houtcome⟩ := hsame
  cases hcall
  cases houtcome
  obtain rfl := Option.some.inj (hcp.symm.trans hcp')
  obtain rfl : dest = dest' := hdest.symm.trans hdest'
  rfl

theorem SentPacket.assigned {packet : Packet} (h : SentPacket entry packet) (c : HostString) :
    entry.act.assigned c = if packet.sourceClient = c then some packet.sequence else none := by
  obtain ⟨⟨env, log, hact⟩, -⟩ := h
  rw [hact]
  rfl

theorem SentPacket.settled {packet : Packet} (h : SentPacket entry packet) :
    entry.act.settled = none := by
  obtain ⟨⟨env, log, hact⟩, -⟩ := h
  rw [hact]
  rfl

theorem SentPacket.mem_sequencesOn {packet : Packet} (h : SentPacket entry packet)
    (hmem : entry ∈ history) : packet.sequence ∈ sequencesOn packet.sourceClient history := by
  rw [sequencesOn, List.mem_filterMap]
  refine ⟨entry, hmem, ?_⟩
  rw [h.assigned, if_pos rfl]

theorem Act.assigned_of_settled {act : Act X} {packet : Packet}
    (h : act.settled = some packet) (c : HostString) : act.assigned c = none := by
  rcases Act.eq_of_settled h with ⟨env, acks, proof, height, log, rfl⟩ |
    ⟨env, proof, height, log, rfl⟩
  · rfl
  · rfl

/-! ### What a step does on the source side -/

/-- The number of the last packet sent on `c`. -/
def Storage.sendCount (s : Storage) (c : HostString) : Nat :=
  ((s.nextSeqSend c).getD 0).toNat

/-- A step sends a packet under the next sequence, settles one whose commitment is
stored, or leaves counters and commitments alone. -/
inductive SourceStep (sha256 : Bytes → Hash) (entry : Entry (State X) (Act X)) : Prop
  | quiet (hsent : ∀ packet, ¬ SentPacket entry packet)
      (hassigned : ∀ c, entry.act.assigned c = none)
      (hsettled : entry.act.settled = none)
      (hcounters : ∀ c, entry.post.storage.sendCount c = entry.pre.storage.sendCount c)
      (hstored : ∀ c n, entry.post.storage.provable (commitmentKey c n) =
        entry.pre.storage.provable (commitmentKey c n))
  | sent {packet : Packet} (hsent : SentPacket entry packet)
      (hsequence : packet.sequence.toNat =
        entry.pre.storage.sendCount packet.sourceClient + 1)
      (hcounters : ∀ c, entry.post.storage.sendCount c =
        if c = packet.sourceClient then packet.sequence.toNat
        else entry.pre.storage.sendCount c)
      (hstored : ∀ c n, entry.post.storage.provable (commitmentKey c n) =
        if c = packet.sourceClient ∧ n = packet.sequence then
          some (v2PacketCommitment sha256 packet).val
        else entry.pre.storage.provable (commitmentKey c n))
  | settled {packet : Packet} (hsettled : entry.act.settled = some packet)
      (hcommitted : entry.pre.storage.provable
        (commitmentKey packet.sourceClient packet.sequence) =
          some (v2PacketCommitment sha256 packet).val)
      (hcounters : ∀ c, entry.post.storage.sendCount c = entry.pre.storage.sendCount c)
      (hstored : ∀ c n, entry.post.storage.provable (commitmentKey c n) =
        if c = packet.sourceClient ∧ n = packet.sequence then none
        else entry.pre.storage.provable (commitmentKey c n))

/-- An act that sends and settles nothing. -/
theorem SourceStep.of_quiet (hassigned : ∀ c, entry.act.assigned c = none)
    (hsettled : entry.act.settled = none)
    (hcounters : entry.post.storage.nextSeqSend = entry.pre.storage.nextSeqSend)
    (hstored : ∀ c n, entry.post.storage.provable (commitmentKey c n) =
      entry.pre.storage.provable (commitmentKey c n)) : SourceStep sha256 entry := by
  refine .quiet ?_ hassigned hsettled ?_ hstored
  · intro packet hsent
    have hsequence := hsent.assigned packet.sourceClient
    rw [hassigned, if_pos rfl] at hsequence
    cases hsequence
  · intro c
    rw [Storage.sendCount, hcounters, Storage.sendCount]

theorem SourceStep.of_erased {packet : Packet} {cp : Counterparty}
    (hsettled : entry.act.settled = some packet)
    (hcommitted : CommittedSpec sha256 packet cp entry.pre.storage)
    (hstorage : entry.post.storage =
      entry.pre.storage.erase (commitmentKey packet.sourceClient packet.sequence)) :
    SourceStep sha256 entry := by
  refine .settled hsettled hcommitted.stored ?_ ?_
  · intro c
    rw [hstorage]
    rfl
  · intro c n
    rw [hstorage, Storage.erase_provable, update_pathBytes]

theorem GuardedStep.source (hstep : GuardedStep sha256 entry.pre entry.act entry.post) :
    SourceStep sha256 entry := by
  rcases hstep.cases with ⟨hregistry, haborted⟩ | ⟨env, call, value, log, hact, hlifecycle⟩
  · have hreturned : ∀ {env call value log},
        entry.act = .tx ⟨env, call, .returned value log⟩ → call.kind ≠ .lifecycle := by
      intro env call value log hact hkind
      cases haborted _ hact hkind
    refine .of_quiet ?_ ?_ hregistry.nextSeqSend fun c n => by rw [hregistry.provable]
    · intro c
      unfold Act.assigned
      split
      · next hact => exact absurd rfl (hreturned hact)
      · rfl
    · unfold Act.settled
      split
      · next hact => exact absurd rfl (hreturned hact)
      · next hact => exact absurd rfl (hreturned hact)
      · rfl
  cases hlifecycle with
  | @send c timeout payloads n dest hspec =>
      have hstorage : entry.post.storage = _ := hspec.storage
      have hsent : SentPacket entry ⟨n, c, dest, timeout, payloads⟩ :=
        ⟨⟨env, log, hact⟩, hspec.counterparty⟩
      refine .sent hsent hspec.sequence ?_ ?_
      · intro c'
        by_cases hc : c' = c
        · subst hc
          simp [Storage.sendCount, hstorage]
        · simp [Storage.sendCount, hstorage, hc]
      · intro c' n'
        rw [hstorage, Storage.write_provable, update_pathBytes]
        rfl
  | @recv packet proof height cp acks hspec =>
      have hstorage : entry.post.storage = _ := hspec.storage
      refine .of_quiet (fun c => by rw [hact]; rfl) (by rw [hact]; rfl) ?_ ?_
      · rw [hstorage]
        rfl
      · intro c n
        rw [hstorage, Storage.write_provable,
          Function.update_of_ne (commitmentKey_ne_ackKey _ _ _ _), Storage.write_provable,
          Function.update_of_ne (commitmentKey_ne_receiptKey _ _ _ _)]
  | @ack packet acks proof height cp hspec =>
      exact .of_erased (by rw [hact]; rfl) hspec.committed hspec.storage
  | @timeout packet proof height cp hspec =>
      exact .of_erased (by rw [hact]; rfl) hspec.committed hspec.storage
  | writeAck hreceipt hack hstorage =>
      refine .of_quiet (fun c => by rw [hact]; rfl) (by rw [hact]; rfl) ?_ ?_
      · rw [hstorage]
        rfl
      · intro c n
        rw [hstorage, Storage.write_provable,
          Function.update_of_ne (commitmentKey_ne_ackKey _ _ _ _)]

/-! ### The source side of a run -/

/-- `packet` was sent in `history` and neither acknowledged nor timed out. -/
def InFlight (history : List (Entry (State X) (Act X))) (packet : Packet) : Prop :=
  (∃ entry ∈ history, SentPacket entry packet) ∧
    ∀ entry ∈ history, ¬ ClosedAt entry packet.sourceClient packet.sequence

structure SourceLifecycle (sha256 : Bytes → Hash)
    (history : List (Entry (State X) (Act X))) (state : State X) : Prop where
  /-- The sends on a client are numbered 1, 2, 3, ... -/
  sequences : ∀ c, (sequencesOn c history).map UInt64.toNat =
    List.range' 1 (sequencesOn c history).length
  /-- A commitment is that of the packet in flight under its number. -/
  commitments : ∀ c n value, state.storage.provable (commitmentKey c n) = some value ↔
    ∃ packet, InFlight history packet ∧ packet.sourceClient = c ∧ packet.sequence = n ∧
      value = (v2PacketCommitment sha256 packet).val
  settledOnce : ∀ before entry after, history = before ++ entry :: after → ∀ c n,
    ClosedAt entry c n → ∀ later ∈ after, ¬ ClosedAt later c n
  settledSent : ∀ before entry after, history = before ++ entry :: after → ∀ packet,
    entry.act.settled = some packet → ∃ sent ∈ before, ∃ original, SentPacket sent original ∧
      original.sourceClient = packet.sourceClient ∧ original.sequence = packet.sequence ∧
      v2PacketCommitment sha256 packet = v2PacketCommitment sha256 original

/-- What holds after every step; the rest of `SourceLifecycle` follows from it. -/
structure SourceInvariant (sha256 : Bytes → Hash)
    (history : List (Entry (State X) (Act X))) (state : State X) : Prop where
  counters : ∀ c, state.storage.sendCount c = (sequencesOn c history).length
  sequences : ∀ c, (sequencesOn c history).map UInt64.toNat =
    List.range' 1 (sequencesOn c history).length
  commitments : ∀ c n value, state.storage.provable (commitmentKey c n) = some value ↔
    ∃ packet, InFlight history packet ∧ packet.sourceClient = c ∧ packet.sequence = n ∧
      value = (v2PacketCommitment sha256 packet).val
  settled : ∀ entry ∈ history, ∀ c n, ClosedAt entry c n →
    n.toNat ≤ (sequencesOn c history).length

theorem SourceInvariant.initial (hinit : Init state) : SourceInvariant sha256 [] state := by
  obtain ⟨admin, hstorage⟩ := hinit
  refine ⟨?_, ?_, ?_, by simp⟩
  · intro c
    rw [hstorage]
    rfl
  · intro c
    rfl
  · intro c n value
    rw [hstorage]
    simp [Storage.initial, InFlight]

theorem sequencesOn_append (c : HostString) (entry : Entry (State X) (Act X)) :
    sequencesOn c (history ++ [entry]) =
      sequencesOn c history ++ (entry.act.assigned c).toList := by
  cases hassigned : entry.act.assigned c <;> simp [sequencesOn, hassigned]

/-- A number that was sent is at most the count of the sends. -/
theorem SourceInvariant.sequence_le (hinv : SourceInvariant sha256 history state)
    {packet : Packet} (hmem : entry ∈ history) (hsent : SentPacket entry packet) :
    packet.sequence.toNat ≤ (sequencesOn packet.sourceClient history).length := by
  have hnumber := List.mem_map_of_mem (f := UInt64.toNat) (hsent.mem_sequencesOn hmem)
  rw [hinv.sequences, List.mem_range'_1] at hnumber
  omega

theorem inFlight_append {packet : Packet} :
    InFlight (history ++ [entry]) packet ↔
      ((∃ earlier ∈ history, SentPacket earlier packet) ∨ SentPacket entry packet) ∧
        (∀ earlier ∈ history, ¬ ClosedAt earlier packet.sourceClient packet.sequence) ∧
        ¬ ClosedAt entry packet.sourceClient packet.sequence := by
  simp only [InFlight, List.mem_append, List.mem_singleton, or_and_right, exists_or,
    exists_eq_left, or_imp, forall_and, forall_eq]

theorem not_closedAt_of_none (h : entry.act.settled = none) : ¬ ClosedAt entry c n := by
  rw [closedAt_iff, h]
  simp

theorem closedAt_of_some {packet : Packet} (h : entry.act.settled = some packet) :
    ClosedAt entry c n ↔ packet.sourceClient = c ∧ packet.sequence = n := by
  rw [closedAt_iff, h]
  simp

theorem SourceInvariant.quiet (hinv : SourceInvariant sha256 history entry.pre)
    (hsent : ∀ packet, ¬ SentPacket entry packet)
    (hassigned : ∀ c, entry.act.assigned c = none) (hsettled : entry.act.settled = none)
    (hcounters : ∀ c, entry.post.storage.sendCount c = entry.pre.storage.sendCount c)
    (hstored : ∀ c n, entry.post.storage.provable (commitmentKey c n) =
      entry.pre.storage.provable (commitmentKey c n)) :
    SourceInvariant sha256 (history ++ [entry]) entry.post := by
  have hsame : ∀ c, sequencesOn c (history ++ [entry]) = sequencesOn c history := by
    intro c
    rw [sequencesOn_append, hassigned, Option.toList_none, List.append_nil]
  refine ⟨?_, ?_, ?_, ?_⟩
  · intro c
    rw [hcounters, hsame, hinv.counters]
  · intro c
    rw [hsame, hinv.sequences]
  · intro c n value
    rw [hstored, hinv.commitments]
    simp only [inFlight_append, hsent, or_false, not_closedAt_of_none hsettled,
      not_false_eq_true, and_true]
    rfl
  · intro earlier hmem c n hclosed
    rw [hsame]
    rcases List.mem_append.mp hmem with hold | hnew
    · exact hinv.settled earlier hold c n hclosed
    · rw [List.mem_singleton.mp hnew] at hclosed
      exact absurd hclosed (not_closedAt_of_none hsettled)

/-- After a send the new packet is in flight with those that were. -/
theorem SourceInvariant.inFlight_sent (hinv : SourceInvariant sha256 history entry.pre)
    {packet other : Packet} (hsent : SentPacket entry packet)
    (hfresh : (sequencesOn packet.sourceClient history).length < packet.sequence.toNat) :
    InFlight (history ++ [entry]) other ↔ InFlight history other ∨ other = packet := by
  rw [inFlight_append]
  constructor
  · rintro ⟨hsource | hother, hopen, -⟩
    · exact .inl ⟨hsource, hopen⟩
    · exact .inr (hother.unique hsent)
  · rintro (⟨hsource, hopen⟩ | rfl)
    · exact ⟨.inl hsource, hopen, not_closedAt_of_none hsent.settled⟩
    · refine ⟨.inr hsent, ?_, not_closedAt_of_none hsent.settled⟩
      -- the new number is above every number settled before
      intro earlier hmem hclosed
      have hle := hinv.settled earlier hmem _ _ hclosed
      omega

theorem SourceInvariant.sent (hinv : SourceInvariant sha256 history entry.pre)
    {packet : Packet} (hsent : SentPacket entry packet)
    (hsequence : packet.sequence.toNat =
      entry.pre.storage.sendCount packet.sourceClient + 1)
    (hcounters : ∀ c, entry.post.storage.sendCount c =
      if c = packet.sourceClient then packet.sequence.toNat
      else entry.pre.storage.sendCount c)
    (hstored : ∀ c n, entry.post.storage.provable (commitmentKey c n) =
      if c = packet.sourceClient ∧ n = packet.sequence then
        some (v2PacketCommitment sha256 packet).val
      else entry.pre.storage.provable (commitmentKey c n)) :
    SourceInvariant sha256 (history ++ [entry]) entry.post := by
  rw [hinv.counters] at hsequence
  have hself : sequencesOn packet.sourceClient (history ++ [entry]) =
      sequencesOn packet.sourceClient history ++ [packet.sequence] := by
    rw [sequencesOn_append, hsent.assigned, if_pos rfl, Option.toList_some]
  have hother : ∀ c, c ≠ packet.sourceClient →
      sequencesOn c (history ++ [entry]) = sequencesOn c history := by
    intro c hc
    rw [sequencesOn_append, hsent.assigned, if_neg hc.symm, Option.toList_none,
      List.append_nil]
  have hflights : ∀ other,
      InFlight (history ++ [entry]) other ↔ InFlight history other ∨ other = packet :=
    fun _ => hinv.inFlight_sent hsent (by omega)
  refine ⟨?_, ?_, ?_, ?_⟩
  · intro c
    by_cases hc : c = packet.sourceClient
    · rw [hcounters, if_pos hc, hc, hself, hsequence, List.length_append,
        List.length_singleton]
    · rw [hcounters, if_neg hc, hother c hc, hinv.counters]
  · intro c
    by_cases hc : c = packet.sourceClient
    · rw [hc, hself, List.map_append, hinv.sequences, List.length_append,
        List.length_singleton, List.map_singleton, hsequence, List.range'_concat, Nat.one_mul,
        Nat.add_comm 1]
    · rw [hother c hc, hinv.sequences]
  · intro c n value
    rw [hstored]
    by_cases hkey : c = packet.sourceClient ∧ n = packet.sequence
    · rw [if_pos hkey, Option.some.injEq]
      obtain ⟨rfl, rfl⟩ := hkey
      constructor
      · rintro rfl
        exact ⟨packet, (hflights packet).mpr (.inr rfl), rfl, rfl, rfl⟩
      · rintro ⟨other, hflight, hclient, hnumber, rfl⟩
        rcases (hflights other).mp hflight with ⟨⟨earlier, hmem, hother⟩, -⟩ | rfl
        · have hle := hinv.sequence_le hmem hother
          rw [hclient, hnumber] at hle
          omega
        · rfl
    · rw [if_neg hkey, hinv.commitments]
      constructor
      · rintro ⟨other, hflight, hstoredAt⟩
        exact ⟨other, (hflights other).mpr (.inl hflight), hstoredAt⟩
      · rintro ⟨other, hflight, hclient, hnumber, hvalue⟩
        rcases (hflights other).mp hflight with hold | rfl
        · exact ⟨other, hold, hclient, hnumber, hvalue⟩
        · exact absurd ⟨hclient.symm, hnumber.symm⟩ hkey
  · intro earlier hmem c n hclosed
    rcases List.mem_append.mp hmem with hold | hlast
    · have hle := hinv.settled earlier hold c n hclosed
      rw [sequencesOn_append, List.length_append]
      omega
    · rw [List.mem_singleton.mp hlast] at hclosed
      exact absurd hclosed (not_closedAt_of_none hsent.settled)

theorem SourceInvariant.settle (hinv : SourceInvariant sha256 history entry.pre)
    {packet : Packet} (hsettled : entry.act.settled = some packet)
    (hcommitted : entry.pre.storage.provable
      (commitmentKey packet.sourceClient packet.sequence) =
        some (v2PacketCommitment sha256 packet).val)
    (hcounters : ∀ c, entry.post.storage.sendCount c = entry.pre.storage.sendCount c)
    (hstored : ∀ c n, entry.post.storage.provable (commitmentKey c n) =
      if c = packet.sourceClient ∧ n = packet.sequence then none
      else entry.pre.storage.provable (commitmentKey c n)) :
    SourceInvariant sha256 (history ++ [entry]) entry.post := by
  have hsame : ∀ c, sequencesOn c (history ++ [entry]) = sequencesOn c history := by
    intro c
    rw [sequencesOn_append, Act.assigned_of_settled hsettled, Option.toList_none,
      List.append_nil]
  have hnotSent : ∀ other, ¬ SentPacket entry other := by
    intro other hsent
    rw [hsent.settled] at hsettled
    cases hsettled
  refine ⟨?_, ?_, ?_, ?_⟩
  · intro c
    rw [hcounters, hsame, hinv.counters]
  · intro c
    rw [hsame, hinv.sequences]
  · intro c n value
    rw [hstored]
    by_cases hkey : c = packet.sourceClient ∧ n = packet.sequence
    · obtain ⟨rfl, rfl⟩ := hkey
      simp only [and_self, if_true, reduceCtorEq, false_iff]
      rintro ⟨other, hflight, hclient, hnumber, -⟩
      obtain ⟨-, -, hopen⟩ := inFlight_append.mp hflight
      exact hopen ((closedAt_of_some hsettled).mpr ⟨hclient.symm, hnumber.symm⟩)
    · rw [if_neg hkey, hinv.commitments]
      constructor
      · rintro ⟨other, ⟨hsource, hopen⟩, rfl, rfl, hvalue⟩
        refine ⟨other, inFlight_append.mpr ⟨.inl hsource, hopen, ?_⟩, rfl, rfl, hvalue⟩
        rw [closedAt_of_some hsettled]
        rintro ⟨hclient, hnumber⟩
        exact hkey ⟨hclient.symm, hnumber.symm⟩
      · rintro ⟨other, hflight, hclient, hnumber, hvalue⟩
        obtain ⟨hsource, hopen, -⟩ := inFlight_append.mp hflight
        exact ⟨other, ⟨hsource.resolve_right (hnotSent other), hopen⟩, hclient, hnumber,
          hvalue⟩
  · intro earlier hmem c n hclosed
    rw [hsame]
    rcases List.mem_append.mp hmem with hold | hlast
    · exact hinv.settled earlier hold c n hclosed
    · -- the packet it settles was in flight, so its number was sent
      rw [List.mem_singleton.mp hlast, closedAt_of_some hsettled] at hclosed
      obtain ⟨rfl, rfl⟩ := hclosed
      obtain ⟨other, ⟨⟨sent, hmem, hsent⟩, -⟩, hclient, hnumber, -⟩ :=
        (hinv.commitments _ _ _).mp hcommitted
      rw [← hclient, ← hnumber]
      exact hinv.sequence_le hmem hsent

theorem sourceInvariant_of_guarded (hreach : Reach Init (GuardedStep sha256) history state) :
    SourceInvariant sha256 history state := by
  apply hreach.invariant (SourceInvariant sha256)
  · intro state hinit
    exact .initial hinit
  · intro history entry _ hinv hstep
    cases hstep.source with
    | quiet hsent hassigned hsettled hcounters hstored =>
        exact hinv.quiet hsent hassigned hsettled hcounters hstored
    | sent hsent hsequence hcounters hstored =>
        exact hinv.sent hsent hsequence hcounters hstored
    | settled hsettled hcommitted hcounters hstored =>
        exact hinv.settle hsettled hcommitted hcounters hstored

/-- A packet is settled only while its commitment is stored. -/
theorem GuardedStep.committed (hstep : GuardedStep sha256 entry.pre entry.act entry.post)
    {packet : Packet} (hsettled : entry.act.settled = some packet) :
    entry.pre.storage.provable (commitmentKey packet.sourceClient packet.sequence) =
      some (v2PacketCommitment sha256 packet).val := by
  cases hstep.source with
  | quiet hsent hassigned hnone hcounters hstored =>
      rw [hsettled] at hnone
      cases hnone
  | sent hsent hsequence hcounters hstored =>
      rw [hsent.settled] at hsettled
      cases hsettled
  | settled hother hcommitted hcounters hstored =>
      obtain rfl := Option.some.inj (hother.symm.trans hsettled)
      exact hcommitted

/-- **The source side.**  In every run without raw setters. -/
theorem sourceLifecycle_of_guarded (hrun : Run sha256 history state)
    (hguarded : ∀ entry ∈ history, entry.act.Guarded) :
    SourceLifecycle sha256 history state := by
  have hreach := hrun.restrict hguarded
  have hinv := sourceInvariant_of_guarded hreach
  refine ⟨hinv.sequences, hinv.commitments, ?_, ?_⟩
  · rintro before entry after hsplit c n hclosed later hlater hagain
    obtain ⟨middle, rest, hsplit'⟩ := Reach.split_of_later hsplit hlater
    obtain ⟨hbefore, hstep⟩ := hreach.split hsplit'
    obtain ⟨packet, hsettled, rfl, rfl⟩ := closedAt_iff.mp hagain
    -- the second time the commitment would still be stored, so nothing had settled it
    obtain ⟨other, ⟨-, hopen⟩, hclient, hnumber, -⟩ :=
      ((sourceInvariant_of_guarded hbefore).commitments _ _ _).mp (GuardedStep.committed hstep hsettled)
    rw [hclient, hnumber] at hopen
    exact hopen entry (by simp) hclosed
  · intro before entry after hsplit packet hsettled
    obtain ⟨hbefore, hstep⟩ := hreach.split hsplit
    obtain ⟨original, ⟨⟨sent, hmem, hsent⟩, -⟩, hclient, hnumber, hvalue⟩ :=
      ((sourceInvariant_of_guarded hbefore).commitments _ _ _).mp (GuardedStep.committed hstep hsettled)
    exact ⟨sent, hmem, original, hsent, hclient, hnumber, Subtype.ext hvalue⟩

/-- The run that sends one packet and times it out. -/
def sendThenTimeout : List (Env Unit × Call) :=
  firstSend ++
    [({ acceptingEnv with invoke := fun _ call _ =>
        match call with
        | .getTimestampAtHeight _ _ => some (101, ())
        | call => some (call.accept, ()) },
      .timeoutPacket ⟨1, ascii "stellar-0", ascii "cosmos-7", 100,
        [⟨ascii "transfer", ascii "transfer", ascii "ics20-1", ascii "application/json",
          ascii "data"⟩]⟩ [] 5)]

theorem sourceLifecycle_sendThenTimeout :
    (sequencesOn (ascii "stellar-0")
        (freshState.executeAll Sha256.sha256 [] sendThenTimeout).1 = [1] ∧
      ((freshState.executeAll Sha256.sha256 [] sendThenTimeout).1.filterMap
        (·.act.settled)).length = 1 ∧
      (freshState.executeAll Sha256.sha256 [] sendThenTimeout).2.storage.provable
        (commitmentKey (ascii "stellar-0") 1) = none) ∧
      SourceLifecycle Sha256.sha256 (freshState.executeAll Sha256.sha256 [] sendThenTimeout).1
        (freshState.executeAll Sha256.sha256 [] sendThenTimeout).2 := by
  constructor
  · rw [Sha256.sha256_eq_eval]
    decide +kernel
  apply sourceLifecycle_of_guarded
  · exact Run.executeAll (.start ⟨zeroAddress, rfl⟩) sendThenTimeout
  · exact guarded_executeAll (by simp) (by decide)

end StellarIbc.Router
