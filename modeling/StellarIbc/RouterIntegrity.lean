import StellarIbc.Router
import StellarIbc.Sha256

/-!
# Integrity of the provable store

`ProvableStoreIntegrity` says where the entries of the provable store come from: a
commitment from an authorised send that nothing has closed since, a receipt or an
acknowledgement from a receive whose proof the light client accepted, and no other
call changes an entry.  It holds of every run in which nobody calls one of the four
raw setters of `ibc_store.rs`, and the raw setters, which ask for no authorisation,
break it.
-/

namespace StellarIbc.Router

open Contract

variable {X : Type} {sha256 : Bytes → Hash}

/-! ### Lawful changes -/

/-- A successful `send_packet` for client `c` that was assigned `n`, authorised by the
app registered for the source port of every payload. -/
def SentAt (entry : Entry (State X) (Act X)) (c : HostString) (n : UInt64) : Prop :=
  ∃ env timeout payloads log,
    entry.act = .tx ⟨env, .sendPacket c timeout payloads, .returned n log⟩ ∧
    ∀ payload ∈ payloads, ∃ app, entry.pre.storage.port payload.sourcePort = some app ∧
      env.authorized app = true

/-- A successful `recv_packet` at `(c, n)` whose membership proof the light client of
`c` accepted for the packet's commitment. -/
def ReceivedAt (sha256 : Bytes → Hash) (entry : Entry (State X) (Act X)) (c : HostString)
    (n : UInt64) : Prop :=
  ∃ env packet proof height log,
    entry.act = .tx ⟨env, .recvPacket packet proof height, .returned () log⟩ ∧
    packet.destClient = c ∧ packet.sequence = n ∧
    ∃ cp lcAddr ext, entry.pre.storage.counterparty c = some cp ∧
      entry.pre.storage.clientLcAddr c = some lcAddr ∧
      env.invoke lcAddr (.verifyMembership c height proof
        (prefixedPath cp.commitmentPrefix (commitmentKey packet.sourceClient n))
        (v2PacketCommitment sha256 packet).val) entry.pre.ext = some (true, ext)

/-- A successful `acknowledge_packet` or `timeout_packet` for `(c, n)`. -/
def ClosedAt (entry : Entry (State X) (Act X)) (c : HostString) (n : UInt64) : Prop :=
  ∃ env packet log, packet.sourceClient = c ∧ packet.sequence = n ∧
    ((∃ acks proof height,
      entry.act = .tx ⟨env, .acknowledgePacket packet acks proof height, .returned () log⟩) ∨
    (∃ proof height,
      entry.act = .tx ⟨env, .timeoutPacket packet proof height, .returned () log⟩))

structure ProvableStoreIntegrity (sha256 : Bytes → Hash)
    (history : List (Entry (State X) (Act X))) (state : State X) : Prop where
  commitment : ∀ c n, state.storage.provable (commitmentKey c n) ≠ none →
    ∃ before entry after, history = before ++ entry :: after ∧ SentAt entry c n ∧
      ∀ later ∈ after, ¬ ClosedAt later c n
  receipt : ∀ c n, state.storage.provable (receiptKey c n) ≠ none →
    ∃ entry ∈ history, ReceivedAt sha256 entry c n
  ack : ∀ c n, state.storage.provable (ackKey c n) ≠ none →
    ∃ entry ∈ history, ReceivedAt sha256 entry c n
  frame : ∀ entry ∈ history, ∀ key,
    entry.post.storage.provable key ≠ entry.pre.storage.provable key →
    (∃ c n, key = commitmentKey c n ∧ (SentAt entry c n ∨ ClosedAt entry c n)) ∨
    (∃ c n, (key = receiptKey c n ∨ key = ackKey c n) ∧ ReceivedAt sha256 entry c n)

/-! ### One step -/

/-- The act is not a call of a raw setter. -/
def Act.Guarded : Act X → Prop
  | .tx transaction => transaction.call.kind ≠ .rawSetter
  | .elsewhere => True

/-- A step that calls no raw setter. -/
abbrev GuardedStep (sha256 : Bytes → Hash) (pre : State X) (act : Act X)
    (post : State X) : Prop :=
  Step sha256 pre act post ∧ act.Guarded

/-- Receipts and acknowledgement commitments come in pairs, since `recv_packet` writes
both: `write_acknowledgement` never finds one without the other. -/
def ReceiptsAcknowledged (s : Storage) : Prop :=
  ∀ c n, s.provable (receiptKey c n) ≠ none → s.provable (ackKey c n) ≠ none

/-- A guarded step changes the registry at most, or it is a successful call of the
packet lifecycle with its specification. -/
theorem GuardedStep.cases {pre post : State X} {act : Act X}
    (h : GuardedStep sha256 pre act post) :
    RegistryStep pre.storage post.storage ∧
        (∀ tx, act = .tx tx → tx.call.kind = .lifecycle → tx.outcome = .aborted) ∨
      ∃ env call value log, act = .tx ⟨env, call, .returned value log⟩ ∧
        Lifecycle sha256 env pre log post call value := by
  obtain ⟨hstep, hguarded⟩ := h
  cases act with
  | elsewhere =>
      have hsame : post.storage = pre.storage := hstep
      rw [hsame]
      exact .inl ⟨.refl _, by simp⟩
  | tx tx =>
      obtain ⟨env, call, outcome⟩ := tx
      cases outcome with
      | aborted =>
          obtain ⟨-, rfl⟩ := hstep
          refine .inl ⟨.refl _, ?_⟩
          rintro _ ⟨⟩ -
          rfl
      | returned value log =>
          have hreturned := hstep.returned
          cases hkind : call.kind with
          | rawSetter => exact absurd hkind hguarded
          | lifecycle => exact .inr ⟨env, call, value, log, rfl, hreturned.lifecycle hkind⟩
          | registry =>
              refine .inl ⟨hreturned.registry hkind, ?_⟩
              rintro _ ⟨⟩ hlifecycle
              rw [hkind] at hlifecycle
              cases hlifecycle

variable {entry : Entry (State X) (Act X)} {c : HostString} {n : UInt64}

/-- What closes `(c, n)` erases its commitment. -/
theorem ClosedAt.erased (hclosed : ClosedAt entry c n)
    (hstep : GuardedStep sha256 entry.pre entry.act entry.post) :
    entry.post.storage.provable (commitmentKey c n) = none := by
  obtain ⟨env, packet, log, rfl, rfl, ⟨acks, proof, height, hact⟩ | ⟨proof, height, hact⟩⟩ :=
    hclosed
  · rw [hact] at hstep
    cases hstep.1.returned.lifecycle rfl with
    | ack hspec =>
        have hstorage : entry.post.storage = _ := hspec.storage
        rw [hstorage]
        simp
  · rw [hact] at hstep
    cases hstep.1.returned.lifecycle rfl with
    | timeout hspec =>
        have hstorage : entry.post.storage = _ := hspec.storage
        rw [hstorage]
        simp

/-- Every change of an entry is lawful. -/
theorem GuardedStep.lawful (hstep : GuardedStep sha256 entry.pre entry.act entry.post)
    (hpaired : ReceiptsAcknowledged entry.pre.storage) {key : Bytes}
    (hchanged : entry.post.storage.provable key ≠ entry.pre.storage.provable key) :
    (∃ c n, key = commitmentKey c n ∧ (SentAt entry c n ∨ ClosedAt entry c n)) ∨
    (∃ c n, (key = receiptKey c n ∨ key = ackKey c n) ∧ ReceivedAt sha256 entry c n) := by
  rcases hstep.cases with ⟨hregistry, -⟩ | ⟨env, call, value, log, hact, hlifecycle⟩
  · exact absurd (congrFun hregistry.provable key) hchanged
  cases hlifecycle with
  | @send c timeout payloads n dest hspec =>
      have hstorage : entry.post.storage = _ := hspec.storage
      refine .inl ⟨c, n, ?_, .inl ⟨env, timeout, payloads, log, hact, hspec.authorised⟩⟩
      by_contra hkey
      exact hchanged (by rw [hstorage]; simp [Function.update_of_ne hkey])
  | @recv packet proof height cp acks hspec =>
      have hstorage : entry.post.storage = _ := hspec.storage
      refine .inr ⟨packet.destClient, packet.sequence, ?_, env, packet, proof, height, log,
        hact, rfl, rfl, ?_⟩
      · by_contra hkey
        obtain ⟨hreceipt, hack⟩ := not_or.mp hkey
        exact hchanged (by
          rw [hstorage]
          simp [Function.update_of_ne hreceipt, Function.update_of_ne hack])
      · obtain ⟨lcAddr, ext, hlc, hinvoke⟩ := hspec.proved
        exact ⟨cp, lcAddr, ext, hspec.counterparty, hlc, hinvoke⟩
  | @ack packet acks proof height cp hspec =>
      have hstorage : entry.post.storage = _ := hspec.storage
      refine .inl ⟨packet.sourceClient, packet.sequence, ?_,
        .inr ⟨env, packet, log, rfl, rfl, .inl ⟨acks, proof, height, hact⟩⟩⟩
      by_contra hkey
      exact hchanged (by rw [hstorage]; simp [Function.update_of_ne hkey])
  | @timeout packet proof height cp hspec =>
      have hstorage : entry.post.storage = _ := hspec.storage
      refine .inl ⟨packet.sourceClient, packet.sequence, ?_,
        .inr ⟨env, packet, log, rfl, rfl, .inr ⟨proof, height, hact⟩⟩⟩
      by_contra hkey
      exact hchanged (by rw [hstorage]; simp [Function.update_of_ne hkey])
  | writeAck hreceipt hack hstorage => exact absurd hack (hpaired _ _ hreceipt)

/-- Distinct families of paths do not overlap. -/
theorem commitmentKey_ne_receiptKey (c c' : HostString) (n n' : UInt64) :
    commitmentKey c n ≠ receiptKey c' n' := by
  intro h
  have hdisc := (pathBytes_injective h).2.1
  revert hdisc
  decide

theorem commitmentKey_ne_ackKey (c c' : HostString) (n n' : UInt64) :
    commitmentKey c n ≠ ackKey c' n' := by
  intro h
  have hdisc := (pathBytes_injective h).2.1
  revert hdisc
  decide

theorem receiptKey_ne_ackKey (c c' : HostString) (n n' : UInt64) :
    receiptKey c n ≠ ackKey c' n' := by
  intro h
  have hdisc := (pathBytes_injective h).2.1
  revert hdisc
  decide

/-- Writing one entry of a family leaves the others alone. -/
theorem update_pathBytes {store : Bytes → Option Bytes} {c c' : HostString} {d : UInt8}
    {n n' : UInt64} {value : Option Bytes} :
    Function.update store (pathBytes c' d n') value (pathBytes c d n) =
      if c = c' ∧ n = n' then value else store (pathBytes c d n) := by
  rw [Function.update_apply]
  congr 1
  rw [eq_iff_iff, pathBytes_eq_iff]
  simp

theorem ReceiptsAcknowledged.step {pre post : State X} {act : Act X}
    (hpaired : ReceiptsAcknowledged pre.storage) (hstep : GuardedStep sha256 pre act post) :
    ReceiptsAcknowledged post.storage := by
  intro c n hreceipt
  rcases hstep.cases with ⟨hregistry, -⟩ | ⟨env, call, value, log, hact, hlifecycle⟩
  · rw [hregistry.provable] at hreceipt ⊢
    exact hpaired c n hreceipt
  cases hlifecycle with
  | send hspec =>
      have hstorage : post.storage = _ := hspec.storage
      rw [hstorage] at hreceipt ⊢
      simp only [Storage.write_provable,
        Function.update_of_ne (commitmentKey_ne_receiptKey _ _ _ _).symm,
        Function.update_of_ne (commitmentKey_ne_ackKey _ _ _ _).symm] at hreceipt ⊢
      exact hpaired c n hreceipt
  | @recv packet proof height cp acks hspec =>
      have hstorage : post.storage = _ := hspec.storage
      rw [hstorage] at hreceipt ⊢
      by_cases hkey : ackKey c n = ackKey packet.destClient packet.sequence
      · simp [hkey]
      · -- the receipt is not the new one either, as the two keys share client and sequence
        have hkey' : receiptKey c n ≠ receiptKey packet.destClient packet.sequence := by
          rw [pathBytes_eq_iff] at hkey
          intro hsame
          obtain ⟨hclient, -, hsequence⟩ := pathBytes_injective hsame
          exact hkey ⟨hclient, rfl, hsequence⟩
        simp only [Storage.write_provable, Function.update_of_ne hkey,
          Function.update_of_ne hkey', Function.update_of_ne (receiptKey_ne_ackKey _ _ _ _),
          Function.update_of_ne (receiptKey_ne_ackKey _ _ _ _).symm] at hreceipt ⊢
        exact hpaired c n hreceipt
  | ack hspec =>
      have hstorage : post.storage = _ := hspec.storage
      rw [hstorage] at hreceipt ⊢
      simp only [Storage.erase_provable,
        Function.update_of_ne (commitmentKey_ne_receiptKey _ _ _ _).symm,
        Function.update_of_ne (commitmentKey_ne_ackKey _ _ _ _).symm] at hreceipt ⊢
      exact hpaired c n hreceipt
  | timeout hspec =>
      have hstorage : post.storage = _ := hspec.storage
      rw [hstorage] at hreceipt ⊢
      simp only [Storage.erase_provable,
        Function.update_of_ne (commitmentKey_ne_receiptKey _ _ _ _).symm,
        Function.update_of_ne (commitmentKey_ne_ackKey _ _ _ _).symm] at hreceipt ⊢
      exact hpaired c n hreceipt
  | writeAck hpresent hack hstorage => exact absurd hack (hpaired _ _ hpresent)

/-! ### Every run -/

theorem ProvableStoreIntegrity.initial {state : State X} (hinit : Init state) :
    ProvableStoreIntegrity sha256 [] state := by
  obtain ⟨admin, hstorage⟩ := hinit
  have hempty : ∀ key, state.storage.provable key = none := by
    intro key
    rw [hstorage]
    rfl
  refine ⟨?_, ?_, ?_, by simp⟩
  all_goals
    intro c n hpresent
    exact absurd (hempty _) hpresent

/-- An entry that is new after a step was written lawfully by that step; any other
entry was there before. -/
theorem ProvableStoreIntegrity.step {history : List (Entry (State X) (Act X))}
    (hinv : ProvableStoreIntegrity sha256 history entry.pre)
    (hpaired : ReceiptsAcknowledged entry.pre.storage)
    (hstep : GuardedStep sha256 entry.pre entry.act entry.post) :
    ProvableStoreIntegrity sha256 (history ++ [entry]) entry.post := by
  have hreceived : ∀ key c n, key = receiptKey c n ∨ key = ackKey c n →
      entry.post.storage.provable key ≠ entry.pre.storage.provable key →
      ReceivedAt sha256 entry c n := by
    intro key c n hkey hchanged
    rcases hstep.lawful hpaired hchanged with ⟨c', n', hkey', -⟩ | ⟨c', n', hkey', hrecv⟩
    · rcases hkey with hkey | hkey
      · exact absurd (hkey'.symm.trans hkey) (commitmentKey_ne_receiptKey _ _ _ _)
      · exact absurd (hkey'.symm.trans hkey) (commitmentKey_ne_ackKey _ _ _ _)
    · have hsame : c' = c ∧ n' = n := by
        rcases hkey with rfl | rfl
        · rcases hkey' with hkey' | hkey'
          · exact ⟨(pathBytes_injective hkey').1.symm, (pathBytes_injective hkey').2.2.symm⟩
          · exact absurd hkey' (receiptKey_ne_ackKey _ _ _ _)
        · rcases hkey' with hkey' | hkey'
          · exact absurd hkey'.symm (receiptKey_ne_ackKey _ _ _ _)
          · exact ⟨(pathBytes_injective hkey').1.symm, (pathBytes_injective hkey').2.2.symm⟩
      rw [hsame.1, hsame.2] at hrecv
      exact hrecv
  refine ⟨?_, ?_, ?_, ?_⟩
  · intro c n hpresent
    -- nothing that closes `(c, n)` leaves its commitment behind
    have hopen : ¬ ClosedAt entry c n := fun hclosed => hpresent (hclosed.erased hstep)
    by_cases hchanged : entry.post.storage.provable (commitmentKey c n) =
        entry.pre.storage.provable (commitmentKey c n)
    · rw [hchanged] at hpresent
      obtain ⟨before, sent, after, rfl, hsent, hafter⟩ := hinv.commitment c n hpresent
      refine ⟨before, sent, after ++ [entry], by simp, hsent, ?_⟩
      intro later hlater
      rcases List.mem_append.mp hlater with hold | hnew
      · exact hafter later hold
      · rw [List.mem_singleton.mp hnew]
        exact hopen
    · rcases hstep.lawful hpaired hchanged with ⟨c', n', hkey, hlawful⟩ | ⟨c', n', hkey, -⟩
      · obtain ⟨rfl, -, rfl⟩ := pathBytes_injective hkey
        have hsent : SentAt entry c n := hlawful.resolve_right hopen
        exact ⟨history, entry, [], rfl, hsent, by simp⟩
      · rcases hkey with hkey | hkey
        · exact absurd hkey (commitmentKey_ne_receiptKey _ _ _ _)
        · exact absurd hkey (commitmentKey_ne_ackKey _ _ _ _)
  · intro c n hpresent
    by_cases hchanged : entry.post.storage.provable (receiptKey c n) =
        entry.pre.storage.provable (receiptKey c n)
    · rw [hchanged] at hpresent
      obtain ⟨earlier, hmem, hrecv⟩ := hinv.receipt c n hpresent
      exact ⟨earlier, List.mem_append_left _ hmem, hrecv⟩
    · exact ⟨entry, by simp, hreceived _ c n (.inl rfl) hchanged⟩
  · intro c n hpresent
    by_cases hchanged : entry.post.storage.provable (ackKey c n) =
        entry.pre.storage.provable (ackKey c n)
    · rw [hchanged] at hpresent
      obtain ⟨earlier, hmem, hrecv⟩ := hinv.ack c n hpresent
      exact ⟨earlier, List.mem_append_left _ hmem, hrecv⟩
    · exact ⟨entry, by simp, hreceived _ c n (.inr rfl) hchanged⟩
  · intro earlier hmem key hchanged
    rcases List.mem_append.mp hmem with hold | hnew
    · exact hinv.frame earlier hold key hchanged
    · obtain rfl := List.mem_singleton.mp hnew
      exact hstep.lawful hpaired hchanged

theorem integrity_of_guarded {history : List (Entry (State X) (Act X))} {state : State X}
    (hreach : Reach Init (GuardedStep sha256) history state) :
    ProvableStoreIntegrity sha256 history state ∧ ReceiptsAcknowledged state.storage := by
  refine hreach.invariant (fun history state =>
    ProvableStoreIntegrity sha256 history state ∧ ReceiptsAcknowledged state.storage) ?_ ?_
  · intro state hinit
    obtain ⟨admin, hstorage⟩ := hinit
    refine ⟨.initial ⟨admin, hstorage⟩, ?_⟩
    intro c n hpresent
    rw [hstorage] at hpresent
    exact absurd rfl hpresent
  · rintro history entry - ⟨hinv, hpaired⟩ hstep
    exact ⟨hinv.step hpaired hstep, hpaired.step hstep⟩

/-- **Provable-store integrity.**  In every run in which nobody calls a raw setter, the
provable store holds only what the packet lifecycle put there. -/
theorem provableStoreIntegrity_of_no_rawSetter
    {history : List (Entry (State X) (Act X))} {state : State X}
    (hrun : Run sha256 history state)
    (hguarded : ∀ entry ∈ history, entry.act.Guarded) :
    ProvableStoreIntegrity sha256 history state :=
  (integrity_of_guarded (hrun.restrict hguarded)).1

/-! ### Concrete runs -/

theorem guarded_executeAll {history : List (Entry (State X) (Act X))} {state : State X}
    {calls : List (Env X × Call)} (hhistory : ∀ entry ∈ history, entry.act.Guarded)
    (hcalls : ∀ item ∈ calls, item.2.kind ≠ .rawSetter) :
    ∀ entry ∈ (state.executeAll sha256 history calls).1, entry.act.Guarded := by
  apply forall_mem_feed hhistory
  intro item hitem state
  unfold State.execute
  split <;> exact hcalls item hitem

/-- A host at time 10 where everyone signed and every callee accepts. -/
def acceptingEnv : Env Unit where
  timestamp := 10
  authorized _ := true
  invoke _ call _ := some (call.accept, ())

def zeroAddress : Address := .contract (.fill 32 0)

def freshState : State Unit := ⟨.initial zeroAddress, ()⟩

/-- Set up a client and a port, then send one packet on it. -/
def firstSend : List (Env Unit × Call) :=
  [(acceptingEnv, .registerClientType (ascii "stellar") zeroAddress),
    (acceptingEnv, .createClient (ascii "stellar") [] [] 1),
    (acceptingEnv, .registerCounterparty (ascii "stellar-0") (ascii "cosmos-7") [ascii "ibc"]),
    (acceptingEnv, .registerPort (ascii "transfer") zeroAddress),
    (acceptingEnv, .sendPacket (ascii "stellar-0") 100
      [⟨ascii "transfer", ascii "transfer", ascii "ics20-1", ascii "application/json",
        ascii "data"⟩])]

theorem provableStoreIntegrity_firstSend :
    ((freshState.executeAll Sha256.sha256 [] firstSend).2.storage.provable
        (commitmentKey (ascii "stellar-0") 1)).isSome = true ∧
      ProvableStoreIntegrity Sha256.sha256
        (freshState.executeAll Sha256.sha256 [] firstSend).1
        (freshState.executeAll Sha256.sha256 [] firstSend).2 := by
  refine ⟨by decide, ?_⟩
  apply provableStoreIntegrity_of_no_rawSetter
  · exact Run.executeAll (.start ⟨zeroAddress, rfl⟩) firstSend
  · exact guarded_executeAll (by simp) (by decide)

/-- Anyone can put a commitment for a packet nobody sent into a fresh router. -/
def forgedCommitment : List (Env Unit × Call) :=
  [(⟨10, fun _ => false, fun _ _ _ => none⟩,
    .setPacketCommitment (ascii "stellar-0") 1 (Sha256.sha256 (ascii "forged")))]

theorem provableStoreIntegrity_fails_on_rawSetter :
    Run Sha256.sha256 (freshState.executeAll Sha256.sha256 [] forgedCommitment).1
        (freshState.executeAll Sha256.sha256 [] forgedCommitment).2 ∧
      ¬ ProvableStoreIntegrity Sha256.sha256
        (freshState.executeAll Sha256.sha256 [] forgedCommitment).1
        (freshState.executeAll Sha256.sha256 [] forgedCommitment).2 := by
  refine ⟨Run.executeAll (.start ⟨zeroAddress, rfl⟩) forgedCommitment, ?_⟩
  intro hintegrity
  have hpresent : (freshState.executeAll Sha256.sha256 [] forgedCommitment).2.storage.provable
      (commitmentKey (ascii "stellar-0") 1) ≠ none := by
    rw [← Option.isSome_iff_ne_none]
    decide
  obtain ⟨before, entry, after, hhistory, ⟨env, timeout, payloads, log, hact, -⟩, -⟩ :=
    hintegrity.commitment _ _ hpresent
  -- the one entry of the run is the setter, not a send
  have hmem : entry ∈ (freshState.executeAll Sha256.sha256 [] forgedCommitment).1 := by
    rw [hhistory]
    simp
  obtain rfl := List.mem_singleton.mp hmem
  cases hact

end StellarIbc.Router
