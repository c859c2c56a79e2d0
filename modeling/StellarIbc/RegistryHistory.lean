import StellarIbc.RouterClients
import StellarIbc.RouterFrames
import StellarIbc.RouterIntegrity

/-!
# The registry over runs

The type and the light client of a client, its counterparty and the app of a port are
written once.  `create_client` writes without looking, but the id it mints was never
minted before; the other two look first.  The admin may point a client type to another
light client at any time, which touches only clients created later: a client keeps the
light client that served its type when it was created, and that one is asked about every
proof.
-/

namespace StellarIbc.Router

open Contract

variable {X : Type} {sha256 : Bytes → Hash} {env : Env X}

/-! ### What a step keeps -/

/-- What `before` has is the same in `after`. -/
def Extends {α β : Type} (before after : α → Option β) : Prop :=
  ∀ a b, before a = some b → after a = some b

theorem Extends.refl {α β : Type} (f : α → Option β) : Extends f f := fun _ _ h => h

theorem Extends.trans {α β : Type} {f g h : α → Option β} (hfg : Extends f g)
    (hgh : Extends g h) : Extends f h :=
  fun a b hab => hgh a b (hfg a b hab)

/-- The entries of the registry that are there stay as they are. -/
structure RegistryKept (s s' : Storage) : Prop where
  clientType : Extends s.clientType s'.clientType
  clientLcAddr : Extends s.clientLcAddr s'.clientLcAddr
  counterparty : Extends s.counterparty s'.counterparty
  port : Extends s.port s'.port

theorem RegistryKept.refl (s : Storage) : RegistryKept s s :=
  ⟨.refl _, .refl _, .refl _, .refl _⟩

theorem RegistryKept.trans {s s' s'' : Storage} (h : RegistryKept s s')
    (h' : RegistryKept s' s'') : RegistryKept s s'' :=
  ⟨h.clientType.trans h'.clientType, h.clientLcAddr.trans h'.clientLcAddr,
    h.counterparty.trans h'.counterparty, h.port.trans h'.port⟩

variable {tables tables' : ClientTables}

/-- A client has a type exactly where it has a light client. -/
def ClientTables.Paired (tables : ClientTables) : Prop :=
  ∀ c, tables.clientType c = none ↔ tables.clientLcAddr c = none

theorem ClientTables.Paired.step (hpaired : tables.Paired) (hstep : TablesStep tables tables') :
    tables'.Paired := by
  cases hstep with
  | same => exact hpaired
  | froze => exact hpaired
  | @created clientType clientId n lcAddr hn hfits hnew =>
      intro c
      by_cases hc : c = clientId
      · simp [hc]
      · simpa only [Function.update_of_ne hc] using hpaired c

theorem TablesStep.clientType_stays (hstep : TablesStep tables tables')
    (hminted : tables.Minted) (hpaired : tables.Paired) :
    Extends tables.clientType tables'.clientType := by
  intro c clientType hc
  cases hstep with
  | same => exact hc
  | froze => exact hc
  | @created clientType' clientId n lcAddr hn hfits hnew =>
      have hne : c ≠ clientId := by
        rintro rfl
        rw [hn] at hnew
        rw [(hpaired c).mpr (hminted.fresh hnew)] at hc
        cases hc
      simpa only [Function.update_of_ne hne] using hc

variable {pre post : State X} {log : List Effect}

/-- Counterparties and ports are written once. -/
theorem Returned.counterparty_port_kept {call : Call} {value : call.Result}
    (h : Returned sha256 env call pre value log post) :
    Extends pre.storage.counterparty post.storage.counterparty ∧
      Extends pre.storage.port post.storage.port := by
  cases hkind : call.kind with
  | registry =>
      have hstep := h.registry hkind
      exact ⟨hstep.counterparty, hstep.port⟩
  | lifecycle =>
      have hlifecycle := h.lifecycle hkind
      rw [hlifecycle.counterparty_eq, hlifecycle.port_eq]
      exact ⟨.refl _, .refl _⟩
  | rawSetter =>
      have hkept : ∀ {update : Storage}, post.finish log = { pre.start with storage := update } →
          update.counterparty = pre.storage.counterparty → update.port = pre.storage.port →
          Extends pre.storage.counterparty post.storage.counterparty ∧
            Extends pre.storage.port post.storage.port := by
        intro update hpost hcounterparty hport
        have hstorage : post.storage = update := congrArg Ctx.storage hpost
        rw [hstorage, hcounterparty, hport]
        exact ⟨.refl _, .refl _⟩
      cases call with
      | setPacketCommitment c n commitment =>
          exact hkept (returns_setPacketCommitment h) rfl rfl
      | deletePacketCommitment c n => exact hkept (returns_deletePacketCommitment h) rfl rfl
      | setPacketReceipt c n => exact hkept (returns_setPacketReceipt h) rfl rfl
      | setAckCommitment c n hash => exact hkept (returns_setAckCommitment h) rfl rfl
      | _ => cases hkind

variable {act : Act X}

theorem Step.registryKept (hstep : Step sha256 pre act post)
    (hminted : pre.storage.clients.Minted) (hpaired : pre.storage.clients.Paired) :
    RegistryKept pre.storage post.storage := by
  have htables := hstep.tablesStep
  have hothers : Extends pre.storage.counterparty post.storage.counterparty ∧
      Extends pre.storage.port post.storage.port := by
    cases act with
    | elsewhere =>
        have hsame : post.storage = pre.storage := hstep
        rw [hsame]
        exact ⟨.refl _, .refl _⟩
    | tx tx =>
        obtain ⟨env, call, outcome⟩ := tx
        cases outcome with
        | aborted =>
            have hsame : post = pre := hstep.2
            rw [hsame]
            exact ⟨.refl _, .refl _⟩
        | returned value log => exact hstep.returned.counterparty_port_kept
  exact ⟨htables.clientType_stays hminted hpaired,
    fun c lcAddr hlc => htables.clientLcAddr_stays hminted hlc, hothers.1, hothers.2⟩

/-! ### Where a client's light client comes from -/

/-- The step is a `create_client` that returned `clientId`, while `lcAddr` was registered
for the type. -/
def CreatesClient (entry : Entry (State X) (Act X)) (clientType clientId : HostString)
    (lcAddr : Address) : Prop :=
  (∃ env clientState consensusState height log, entry.act =
      .tx ⟨env, .createClient clientType clientState consensusState height,
        .returned clientId log⟩) ∧
    entry.pre.storage.clientTypeAddr clientType = some lcAddr ∧
    entry.post.storage.clientTypeAddr clientType = some lcAddr

/-- No call but `create_client` points a client to a light client. -/
theorem Returned.clientLcAddr_eq {call : Call} {value : call.Result}
    (h : Returned sha256 env call pre value log post)
    (hcreate : ∀ clientType clientState consensusState height,
      call ≠ .createClient clientType clientState consensusState height) :
    post.storage.clientLcAddr = pre.storage.clientLcAddr := by
  by_cases hupdate : ∃ c message, call = .updateClient c message
  · obtain ⟨c, message, rfl⟩ := hupdate
    obtain ⟨-, hfroze | hsame⟩ := returns_updateClient_tables h
    · exact congrArg ClientTables.clientLcAddr hfroze
    · exact congrArg ClientTables.clientLcAddr hsame
  · have hsame := h.clients_eq hcreate fun c message hcall => hupdate ⟨c, message, hcall⟩
    exact congrArg ClientTables.clientLcAddr hsame

variable {history : List (Entry (State X) (Act X))} {state : State X}
variable {entry : Entry (State X) (Act X)}

theorem returned_createClient (hstep : Step sha256 entry.pre entry.act entry.post)
    {clientType clientId : HostString} {clientState consensusState : Bytes} {height : UInt64}
    (hact : entry.act = .tx ⟨env, .createClient clientType clientState consensusState height,
      .returned clientId log⟩) :
    ∃ lcAddr, CreatesClient entry clientType clientId lcAddr ∧
      entry.post.storage.clientType =
        Function.update entry.pre.storage.clientType clientId (some clientType) ∧
      entry.post.storage.clientLcAddr =
        Function.update entry.pre.storage.clientLcAddr clientId (some lcAddr) := by
  have hstep' := hstep
  rw [hact] at hstep'
  obtain ⟨n, lcAddr, hlc, -, -, -, htypes, htables⟩ :=
    returns_createClient_tables hstep'.returned
  have htypeAddr : entry.post.storage.clientTypeAddr clientType = some lcAddr :=
    (congrFun htypes clientType).trans hlc
  exact ⟨lcAddr, ⟨⟨_, _, _, _, _, hact⟩, hlc, htypeAddr⟩,
    congrArg ClientTables.clientType htables, congrArg ClientTables.clientLcAddr htables⟩

/-- A light client that is new for a client was set by the step that created it. -/
theorem Step.clientLcAddr_cases (hstep : Step sha256 entry.pre entry.act entry.post)
    {c : HostString} {lcAddr : Address}
    (hlc : entry.post.storage.clientLcAddr c = some lcAddr) :
    entry.pre.storage.clientLcAddr c = some lcAddr ∨
      ∃ clientType, CreatesClient entry clientType c lcAddr ∧
        entry.post.storage.clientType c = some clientType := by
  cases hact : entry.act with
  | elsewhere =>
      rw [hact] at hstep
      have hsame : entry.post.storage = entry.pre.storage := hstep
      rw [hsame] at hlc
      exact .inl hlc
  | tx tx =>
      obtain ⟨env, call, outcome⟩ := tx
      cases outcome with
      | aborted =>
          rw [hact] at hstep
          have hsame : entry.post = entry.pre := hstep.2
          rw [hsame] at hlc
          exact .inl hlc
      | returned value log =>
          by_cases hcreate : ∃ clientType clientState consensusState height,
              call = .createClient clientType clientState consensusState height
          · obtain ⟨clientType, clientState, consensusState, height, rfl⟩ := hcreate
            obtain ⟨lcAddr', hcreates, htype, hpost⟩ := returned_createClient hstep hact
            rw [hpost] at hlc
            by_cases hc : c = value
            · subst hc
              rw [Function.update_self, Option.some.injEq] at hlc
              subst hlc
              exact .inr ⟨clientType, hcreates, by rw [htype, Function.update_self]⟩
            · rw [Function.update_of_ne hc] at hlc
              exact .inl hlc
          · rw [hact] at hstep
            rw [hstep.returned.clientLcAddr_eq fun _ _ _ _ hcall =>
              hcreate ⟨_, _, _, _, hcall⟩] at hlc
            exact .inl hlc

/-! ### Which light client is asked -/

/-- The proofs asked about so far. -/
def Ctx.proofs (ctx : Ctx X) : List (Address × HostString) := proofCalls ctx.log

instance : SeesCalls (Ctx.proofs (X := X)) where
  storage _ _ := rfl
  hashed ctx data := by simp [Ctx.proofs, proofCalls]
  published ctx event := by simp [Ctx.proofs, proofCalls]

theorem keepsKind_proofs {kind : InvocationKind} (hkind : kind ≠ .proof) :
    KeepsKind Ctx.proofs env kind where
  keeps callee call hcall := by
    refine ⟨fun h => ?_⟩
    obtain ⟨ext, -, rfl⟩ := returns_invokeContract.mp h
    cases call with
    | verifyMembership | verifyNonMembership => exact absurd hcall.symm hkind
    | _ => simp [Ctx.proofs, proofCalls]

instance : KeepsKind Ctx.proofs env .receive := keepsKind_proofs (by decide)

instance : KeepsKind Ctx.proofs env .settle := keepsKind_proofs (by decide)

/-- The client whose light client has to check the proof of the call. -/
def Call.proofClient : Call → Option HostString
  | .recvPacket packet _ _ => some packet.destClient
  | .acknowledgePacket packet _ _ _ | .timeoutPacket packet _ _ => some packet.sourceClient
  | _ => none

/-- A call with a proof has it checked by the light client of the client, and asks about no
other proof. -/
theorem Returned.proofCalls_of_proofClient {call : Call} {value : call.Result}
    (h : Returned sha256 env call pre value log post) {c : HostString}
    (hclient : call.proofClient = some c) :
    ∃ lcAddr, pre.storage.clientLcAddr c = some lcAddr ∧ proofCalls log = [(lcAddr, c)] := by
  -- after its checks a packet call asks about no proof
  cases call with
  | recvPacket packet proof height =>
      obtain rfl := Option.some.inj hclient
      have hreturns : Returns (recvPacket sha256 env packet proof height) pre.start value
        (post.finish log) := h
      rw [recvPacket_eq] at hreturns
      obtain ⟨_, checked, hchecks, hrest⟩ := returns_bind.mp hreturns
      obtain ⟨cp, lcAddr, ext, -, -, -, -, hlc, -, -, -, hproofs, -⟩ :=
        returns_recvChecks hchecks
      have hkept : Ctx.proofs (post.finish log) = Ctx.proofs checked := Keeps.keeps hrest
      exact ⟨lcAddr, hlc, hkept.trans hproofs⟩
  | acknowledgePacket packet acks proof height =>
      obtain rfl := Option.some.inj hclient
      have hreturns : Returns (acknowledgePacket sha256 env packet acks proof height)
        pre.start value (post.finish log) := h
      rw [acknowledgePacket_eq] at hreturns
      obtain ⟨_, checked, hchecks, hrest⟩ := returns_bind.mp hreturns
      obtain ⟨cp, lcAddr, ext, -, hlc, -, -, -, hproofs, -⟩ := returns_ackChecks hchecks
      have hkept : Ctx.proofs (post.finish log) = Ctx.proofs checked := Keeps.keeps hrest
      exact ⟨lcAddr, hlc, hkept.trans hproofs⟩
  | timeoutPacket packet proof height =>
      obtain rfl := Option.some.inj hclient
      have hreturns : Returns (timeoutPacket sha256 env packet proof height) pre.start value
        (post.finish log) := h
      rw [timeoutPacket_eq] at hreturns
      obtain ⟨_, checked, hchecks, hrest⟩ := returns_bind.mp hreturns
      obtain ⟨cp, lcAddr, proofTs, middle, ext, -, hlc, -, -, -, -, -, hproofs, -⟩ :=
        returns_timeoutChecks hchecks
      have hkept : Ctx.proofs (post.finish log) = Ctx.proofs checked := Keeps.keeps hrest
      exact ⟨lcAddr, hlc, hkept.trans hproofs⟩
  | _ => cases hclient

/-- A call without a proof asks no light client about one. -/
theorem Returned.proofCalls_of_none {call : Call} {value : call.Result}
    (h : Returned sha256 env call pre value log post) (hclient : call.proofClient = none) :
    proofCalls log = [] := by
  have hkeeps : Keeps Ctx.proofs (call.exec sha256 env) := by
    apply keeps_exec
    intro kind hkind
    apply keepsKind_proofs
    rintro rfl
    cases call with
    | recvPacket | acknowledgePacket | timeoutPacket => cases hclient
    | _ => simp [Call.invokes] at hkind
  exact hkeeps.keeps h

theorem Step.proofCalls_asked (hstep : Step sha256 pre act post) {c : HostString}
    {lcAddr : Address} (hasked : (lcAddr, c) ∈ proofCalls act.log) :
    pre.storage.clientLcAddr c = some lcAddr := by
  rcases hstep.log_cases with hlog | ⟨env, call, value, log, rfl, hreturned⟩
  · rw [hlog] at hasked
    cases hasked
  · have hlog : (lcAddr, c) ∈ proofCalls log := hasked
    cases hclient : call.proofClient with
    | none =>
        rw [hreturned.proofCalls_of_none hclient] at hlog
        cases hlog
    | some c' =>
        obtain ⟨lcAddr', hlc, hone⟩ := hreturned.proofCalls_of_proofClient hclient
        rw [hone, List.mem_singleton, Prod.mk.injEq] at hlog
        obtain ⟨rfl, rfl⟩ := hlog
        exact hlc

/-! ### Every run -/

theorem paired_of_run (hrun : Run sha256 history state) : state.storage.clients.Paired := by
  apply hrun.invariant fun _ state => state.storage.clients.Paired
  · rintro state ⟨admin, hstorage⟩ c
    rw [hstorage]
    exact ⟨fun _ => rfl, fun _ => rfl⟩
  · intro history entry _ hpaired hstep
    exact hpaired.step hstep.tablesStep

/-- Every client was created by a step of the run, with the type and light client it has. -/
def Sourced (history : List (Entry (State X) (Act X))) (state : State X) : Prop :=
  ∀ c lcAddr, state.storage.clientLcAddr c = some lcAddr → ∃ entry ∈ history, ∃ clientType,
    CreatesClient entry clientType c lcAddr ∧ state.storage.clientType c = some clientType

theorem sourced_of_run (hrun : Run sha256 history state) : Sourced history state := by
  apply hrun.invariant Sourced
  · rintro state ⟨admin, hstorage⟩ c lcAddr hlc
    rw [hstorage] at hlc
    cases hlc
  · intro history last hprev ih hstep c lcAddr hlc
    rcases hstep.clientLcAddr_cases hlc with hold | ⟨clientType, hcreates, htype⟩
    · obtain ⟨entry, hmem, clientType, hcreates, htype⟩ := ih c lcAddr hold
      have hkept := hstep.registryKept (minted_of_run hprev) (paired_of_run hprev)
      exact ⟨entry, List.mem_append_left _ hmem, clientType, hcreates,
        hkept.clientType c clientType htype⟩
    · exact ⟨last, by simp, clientType, hcreates, htype⟩

/-- The registry of a run. -/
structure WriteOnce (history : List (Entry (State X) (Act X))) (state : State X) : Prop where
  kept : ∀ entry ∈ history, RegistryKept entry.pre.storage state.storage ∧
    RegistryKept entry.post.storage state.storage
  created : ∀ entry ∈ history, ∀ env clientType clientState consensusState height clientId log,
    entry.act = .tx ⟨env, .createClient clientType clientState consensusState height,
      .returned clientId log⟩ →
    ∃ lcAddr, CreatesClient entry clientType clientId lcAddr ∧
      state.storage.clientType clientId = some clientType ∧
      state.storage.clientLcAddr clientId = some lcAddr
  sourced : Sourced history state
  asked : ∀ before entry after, history = before ++ entry :: after → ∀ lcAddr c,
    (lcAddr, c) ∈ proofCalls entry.act.log →
    ∃ creation ∈ before, ∃ clientType, CreatesClient creation clientType c lcAddr
  /-- A packet was received, acknowledged or timed out only after one proof call, to the light
  client its client was created with. -/
  checked : ∀ before entry after, history = before ++ entry :: after →
    ∀ env (call : Call) (value : call.Result) log c,
    entry.act = .tx ⟨env, call, .returned value log⟩ → call.proofClient = some c →
    ∃ lcAddr, proofCalls log = [(lcAddr, c)] ∧
      ∃ creation ∈ before, ∃ clientType, CreatesClient creation clientType c lcAddr

theorem kept_of_run (hrun : Run sha256 history state) (hmem : entry ∈ history) :
    RegistryKept entry.post.storage state.storage := by
  obtain ⟨before, after, hsplit⟩ := List.append_of_mem hmem
  obtain ⟨hbefore, hfirst⟩ := hrun.split hsplit
  have hstays : (state.storage.clients.Minted ∧ state.storage.clients.Paired) ∧
      RegistryKept entry.post.storage state.storage := by
    refine hrun.since (fun state : State X => (state.storage.clients.Minted ∧
      state.storage.clients.Paired) ∧ RegistryKept entry.post.storage state.storage) ?_ hmem ?_
    · rintro step hstep ⟨⟨hminted, hpaired⟩, hkept⟩
      exact ⟨⟨hminted.step hstep.tablesStep, hpaired.step hstep.tablesStep⟩,
        hkept.trans (hstep.registryKept hminted hpaired)⟩
    · exact ⟨⟨(minted_of_run hbefore).step hfirst.tablesStep,
        (paired_of_run hbefore).step hfirst.tablesStep⟩, .refl _⟩
  exact hstays.2

/-- **Registry entries are write-once**, in every run of the router's calls by anyone. -/
theorem registry_writeOnce (hrun : Run sha256 history state) : WriteOnce history state := by
  refine ⟨?_, ?_, sourced_of_run hrun, ?_, ?_⟩
  · intro entry hmem
    obtain ⟨before, after, hsplit⟩ := List.append_of_mem hmem
    obtain ⟨hbefore, hstep⟩ := hrun.split hsplit
    have hkept := kept_of_run hrun hmem
    exact ⟨(hstep.registryKept (minted_of_run hbefore) (paired_of_run hbefore)).trans hkept,
      hkept⟩
  · intro entry hmem env clientType clientState consensusState height clientId log hact
    obtain ⟨lcAddr, hcreates, htype, hlc⟩ :=
      returned_createClient (hrun.step_of_mem hmem) hact
    have hkept := kept_of_run hrun hmem
    refine ⟨lcAddr, hcreates, hkept.clientType _ _ ?_, hkept.clientLcAddr _ _ ?_⟩
    · rw [htype, Function.update_self]
    · rw [hlc, Function.update_self]
  · intro before entry after hsplit lcAddr c hasked
    obtain ⟨hbefore, hstep⟩ := hrun.split hsplit
    obtain ⟨creation, hcreation, clientType, hcreates, -⟩ :=
      sourced_of_run hbefore c lcAddr (hstep.proofCalls_asked hasked)
    exact ⟨creation, hcreation, clientType, hcreates⟩
  · intro before entry after hsplit env call value log c hact hclient
    obtain ⟨hbefore, hstep⟩ := hrun.split hsplit
    rw [hact] at hstep
    obtain ⟨lcAddr, hlc, hproof⟩ := hstep.returned.proofCalls_of_proofClient hclient
    obtain ⟨creation, hcreation, clientType, hcreates, -⟩ := sourced_of_run hbefore c lcAddr hlc
    exact ⟨lcAddr, hproof, creation, hcreation, clientType, hcreates⟩

def otherAddress : Address := .contract (.fill 32 5)

/-- After a client was created its type is pointed to another light client, and then the
counterparty's packet is received on the client. -/
def repointed : List (Env Unit × Call) :=
  [(acceptingEnv, .registerClientType (ascii "stellar") zeroAddress),
    (acceptingEnv, .createClient (ascii "stellar") [] [] 1),
    (acceptingEnv, .registerCounterparty (ascii "stellar-0") (ascii "cosmos-7") [ascii "ibc"]),
    (acceptingEnv, .registerPort (ascii "transfer") zeroAddress),
    (acceptingEnv, .registerClientType (ascii "stellar") otherAddress),
    (acceptingEnv, .recvPacket ⟨1, ascii "cosmos-7", ascii "stellar-0", 100,
      [⟨ascii "transfer", ascii "transfer", ascii "ics20-1", ascii "application/json",
        ascii "data"⟩]⟩ [] 1)]

theorem registry_writeOnce_repointed :
    ((freshState.executeAll Sha256.sha256 [] repointed).2.storage.clientTypeAddr
        (ascii "stellar") = some otherAddress ∧
      ((freshState.executeAll Sha256.sha256 [] repointed).1.flatMap fun entry =>
        proofCalls entry.act.log) = [(zeroAddress, ascii "stellar-0")]) ∧
      WriteOnce (freshState.executeAll Sha256.sha256 [] repointed).1
        (freshState.executeAll Sha256.sha256 [] repointed).2 := by
  refine ⟨⟨by decide, by decide⟩, ?_⟩
  exact registry_writeOnce (Run.executeAll (.start ⟨zeroAddress, rfl⟩) repointed)

end StellarIbc.Router
