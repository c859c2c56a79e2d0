import StellarIbc.ClientKinds
import StellarIbc.RouterClients
import StellarIbc.RouterFrames

/-!
# Light clients that only the router calls

`update_client` asks a light client for misbehaviour and then either freezes the client in
both contracts or updates it.  As long as nobody else calls the light client, what it knows
follows what the router knows: it has entries for the router's clients of its address and
for no others, the frozen flags are the same, and no step changes a consensus state that is
stored or lowers a latest height.
-/

namespace StellarIbc.Mediated

open Contract Router SorobanClient

/-! ### Runs in which only the router calls the light client -/

variable {X ε κ τ : Type}

/-- A light client among the contracts the router can call: its address and its storage. -/
structure Deployed (X ε κ τ : Type) where
  kind : Kind ε κ τ
  address : Address
  view : X → Store κ τ

/-- What a call returns and leaves; none when it aborts. -/
def outcome {α : Type} (program : Contract ε (Store κ τ) α) (s : Store κ τ) :
    Option (α × Store κ τ) :=
  (program.run s).toOption

/-- What the contract answers the router; it has no entrypoint for the callbacks of apps. -/
def reply (machine : Machine ε κ τ) : (call : Invocation) → Store κ τ →
    Option (call.Result × Store κ τ)
  | .initialise c clientState consensusState height =>
      outcome (machine (.initialise c clientState consensusState height))
  | .checkForMisbehaviour c message => outcome (machine (.checkForMisbehaviour c message))
  | .updateStateOnMisbehaviour c message =>
      outcome (machine (.updateStateOnMisbehaviour c message))
  | .updateState c message => outcome (machine (.updateState c message))
  | .verifyMembership c height proof path value =>
      outcome (machine (.verifyMembership c height proof path value))
  | .verifyNonMembership c height proof path =>
      outcome (machine (.verifyNonMembership c height proof path))
  | .getTimestampAtHeight c height => outcome (machine (.getTimestampAtHeight c height))
  | .onRecvPacket _ | .onAcknowledgementPacket _ | .onTimeoutPacket _ => fun _ => none

namespace Deployed

/-- A call to the address is a call of the contract, and no other contract changes its
storage. -/
structure Mediates (lc : Deployed X ε κ τ) (env : Env X) : Prop where
  answered : ∀ call x value x', env.invoke lc.address call x = some (value, x') →
    reply lc.kind.machine call (lc.view x) = some (value, lc.view x')
  untouched : ∀ callee call x value x', callee ≠ lc.address →
    env.invoke callee call x = some (value, x') → lc.view x' = lc.view x

/-- Only the router calls the light client in this step, and it creates clients as they are
meant to be created. -/
def MediatedStep (lc : Deployed X ε κ τ) (pre : State X) (act : Act X) (post : State X) :
    Prop :=
  match act with
  | .tx tx => lc.Mediates tx.env ∧
      ∀ clientType clientState consensusState height,
        tx.call = .createClient clientType clientState consensusState height →
        pre.storage.clientTypeAddr clientType = some lc.address →
        lc.kind.Admits clientState height
  | .elsewhere => lc.view post.ext = lc.view pre.ext

/-- The runs of the router over the light client, which starts empty. -/
abbrev Run (lc : Deployed X ε κ τ) (sha256 : Bytes → Hash) :
    List (Entry (State X) (Act X)) → State X → Prop :=
  Reach (fun state => Init state ∧ lc.view state.ext = .empty)
    (fun pre act post => Router.Step sha256 pre act post ∧ lc.MediatedStep pre act post)

end Deployed

theorem returns_of_outcome {α : Type} {program : Contract ε (Store κ τ) α}
    {s s' : Store κ τ} {value : α} (h : outcome program s = some (value, s')) :
    Returns program s value s' :=
  returns_of_toOption h

/-! ### What the router's calls do to the light client -/

section

variable {lc : Deployed X ε κ τ} {sha256 : Bytes → Hash} {env : Env X}

instance : SeesCalls (fun ctx : Ctx X => lc.view ctx.ext) where
  storage _ _ := rfl
  hashed _ _ := rfl
  published _ _ := rfl

/-- A question of the router leaves the light client as it was. -/
theorem Deployed.Mediates.view_eq (hlawful : lc.kind.Lawful) (hmediates : lc.Mediates env)
    {callee : Address} {call : Invocation} {x x' : X} {value : call.Result}
    (hkind : call.kind ≠ .client) (h : env.invoke callee call x = some (value, x')) :
    lc.view x' = lc.view x := by
  by_cases hcallee : callee = lc.address
  · subst hcallee
    have hreply := hmediates.answered call x value x' h
    cases call with
    | initialise | checkForMisbehaviour | updateStateOnMisbehaviour | updateState =>
        exact absurd rfl hkind
    | verifyMembership c height proof path stored =>
        have hreads : Reads (.verifyMembership c height proof path stored) := trivial
        exact hlawful.reads hreads (returns_of_outcome hreply)
    | verifyNonMembership c height proof path =>
        have hreads : Reads (.verifyNonMembership c height proof path) := trivial
        exact hlawful.reads hreads (returns_of_outcome hreply)
    | getTimestampAtHeight c height =>
        have hreads : Reads (.getTimestampAtHeight c height) := trivial
        exact hlawful.reads hreads (returns_of_outcome hreply)
    | onRecvPacket | onAcknowledgementPacket | onTimeoutPacket => cases hreply
  · exact hmediates.untouched callee call x value x' hcallee h

theorem Deployed.Mediates.keepsKind (hlawful : lc.kind.Lawful) (hmediates : lc.Mediates env)
    {kind : InvocationKind} (hkind : kind ≠ .client) :
    KeepsKind (fun ctx : Ctx X => lc.view ctx.ext) env kind where
  keeps callee call hcall := {
    keeps := by
      rintro pre value post h
      obtain ⟨ext, hinvoke, rfl⟩ := returns_invokeContract.mp h
      exact hmediates.view_eq hlawful (hcall ▸ hkind) hinvoke }

variable {pre post : State X} {log : List Router.Effect}

/-- Calls other than `create_client` and `update_client` only ask the light client. -/
theorem view_eq_of_returned (hlawful : lc.kind.Lawful) (hmediates : lc.Mediates env)
    {call : Router.Call} {value : call.Result}
    (hcreate : ∀ clientType clientState consensusState height,
      call ≠ .createClient clientType clientState consensusState height)
    (hupdate : ∀ c message, call ≠ .updateClient c message)
    (h : Returned sha256 env call pre value log post) :
    lc.view post.ext = lc.view pre.ext := by
  have hkinds : ∀ kind ∈ call.invokes, kind ≠ .client := by
    cases call with
    | createClient => exact absurd rfl (hcreate _ _ _ _)
    | updateClient => exact absurd rfl (hupdate _ _)
    | _ => simp [Call.invokes]
  have hkeeps : Keeps (fun ctx : Ctx X => lc.view ctx.ext) (call.exec sha256 env) :=
    keeps_exec fun kind hkind => hmediates.keepsKind hlawful (hkinds kind hkind)
  exact hkeeps.keeps h

/-- `update_client` on a client of the light client. -/
theorem returns_updateClient_mediated (hlawful : lc.kind.Lawful) (hmediates : lc.Mediates env)
    {first last : Ctx X} {c : HostString} {message : Bytes} {result : UInt64}
    (h : Returns (updateClient env c message) first result last)
    (hlc : first.storage.clientLcAddr c = some lc.address) :
    (Returns (lc.kind.machine (.checkForMisbehaviour c message)) (lc.view first.ext) false
          (lc.view first.ext) ∧
        Returns (lc.kind.machine (.updateState c message)) (lc.view first.ext) result
          (lc.view last.ext) ∧
        last.storage = first.storage) ∨
      (result = 0 ∧
        Returns (lc.kind.machine (.updateStateOnMisbehaviour c message)) (lc.view first.ext) ()
          (lc.view last.ext) ∧
        last.storage = { first.storage with
          frozen := Function.update first.storage.frozen c (some true) }) := by
  obtain ⟨-, lcAddr, ext, hlc', hbranch⟩ := returns_updateClient_calls h
  obtain rfl := Option.some.inj (hlc'.symm.trans hlc)
  -- the check is a read, so the second call starts where the first did
  have hcheck : ∀ {found : Bool},
      env.invoke lc.address (.checkForMisbehaviour c message) first.ext = some (found, ext) →
      Returns (lc.kind.machine (.checkForMisbehaviour c message)) (lc.view first.ext) found
          (lc.view first.ext) ∧
        lc.view ext = lc.view first.ext := by
    intro found hasked
    have hreturns := returns_of_outcome (hmediates.answered _ _ _ _ hasked)
    have hreads : Reads (.checkForMisbehaviour c message) := trivial
    have hsame := hlawful.reads hreads hreturns
    rw [hsame] at hreturns
    exact ⟨hreturns, hsame⟩
  rcases hbranch with ⟨hasked, hfroze, hzero, hstorage⟩ | ⟨hasked, hupdated, hstorage⟩
  · have hreturns := returns_of_outcome (hmediates.answered _ _ _ _ hfroze)
    rw [(hcheck hasked).2] at hreturns
    exact .inr ⟨hzero, hreturns, hstorage⟩
  · have hreturns := returns_of_outcome (hmediates.answered _ _ _ _ hupdated)
    rw [(hcheck hasked).2] at hreturns
    exact .inl ⟨(hcheck hasked).1, hreturns, hstorage⟩

/-- `update_client` on a client of another light client. -/
theorem returns_updateClient_elsewhere (hmediates : lc.Mediates env) {first last : Ctx X}
    {c : HostString} {message : Bytes} {result : UInt64}
    (h : Returns (updateClient env c message) first result last)
    (hlc : first.storage.clientLcAddr c ≠ some lc.address) :
    lc.view last.ext = lc.view first.ext := by
  obtain ⟨-, lcAddr, ext, hlc', hbranch⟩ := returns_updateClient_calls h
  have hne : lcAddr ≠ lc.address := by
    rintro rfl
    exact hlc hlc'
  rcases hbranch with ⟨hasked, hfroze, -⟩ | ⟨hasked, hupdated, -⟩
  · exact (hmediates.untouched _ _ _ _ _ hne hfroze).trans
      (hmediates.untouched _ _ _ _ _ hne hasked)
  · exact (hmediates.untouched _ _ _ _ _ hne hupdated).trans
      (hmediates.untouched _ _ _ _ _ hne hasked)

/-- What a mediated step does to the client tables and to the light client. -/
inductive Change (lc : Deployed X ε κ τ) (pre post : State X) : Prop
  | untouched (htables : post.storage.clients = pre.storage.clients)
      (hview : lc.view post.ext = lc.view pre.ext)
  | created {clientType clientId : HostString} {n : UInt32} {lcAddr : Address}
      (hn : n = (pre.storage.nextClientId clientType).getD 0)
      (hminted : MintedId clientType n clientId)
      (htables : post.storage.clients =
        ⟨Function.update pre.storage.nextClientId clientType (some (n + 1)),
          Function.update pre.storage.clientType clientId (some clientType),
          Function.update pre.storage.clientLcAddr clientId (some lcAddr), pre.storage.frozen⟩)
      (hview : (lcAddr ≠ lc.address ∧ lc.view post.ext = lc.view pre.ext) ∨
        (lcAddr = lc.address ∧ ∃ record height consensus,
          lc.view post.ext =
            ((lc.view pre.ext).setClient clientId record).setConsensus clientId height
              consensus ∧
          lc.kind.Ordered record (Function.update (fun _ => none) height (some consensus))))
  | updated {c : HostString} {message : Bytes} {height : UInt64}
      (hcheck : Returns (lc.kind.machine (.checkForMisbehaviour c message)) (lc.view pre.ext)
        false (lc.view pre.ext))
      (hupdate : Returns (lc.kind.machine (.updateState c message)) (lc.view pre.ext) height
        (lc.view post.ext))
      (htables : post.storage.clients = pre.storage.clients)
  | froze {c : HostString} {lcAddr : Address}
      (hlc : pre.storage.clientLcAddr c = some lcAddr)
      (htables : post.storage.clients =
        ⟨pre.storage.nextClientId, pre.storage.clientType, pre.storage.clientLcAddr,
          Function.update pre.storage.frozen c (some true)⟩)
      (hview : (lcAddr ≠ lc.address ∧ lc.view post.ext = lc.view pre.ext) ∨
        (lcAddr = lc.address ∧ ∃ message,
          Returns (lc.kind.machine (.updateStateOnMisbehaviour c message)) (lc.view pre.ext) ()
            (lc.view post.ext)))

theorem Change.of_createClient (hlawful : lc.kind.Lawful) (hmediates : lc.Mediates env)
    {clientType clientId : HostString} {clientState consensusState : Bytes} {height : UInt64}
    (hadmits : pre.storage.clientTypeAddr clientType = some lc.address →
      lc.kind.Admits clientState height)
    (h : Returned sha256 env (.createClient clientType clientState consensusState height) pre
      clientId log post) : Change lc pre post := by
  obtain ⟨n, lcAddr, htype, hn, -, hminted, -, htables⟩ := returns_createClient_tables h
  obtain ⟨lcAddr', htype', hinvoke⟩ := returns_createClient_calls h
  obtain rfl := Option.some.inj (htype.symm.trans htype')
  refine .created hn hminted htables ?_
  by_cases hlc : lcAddr = lc.address
  · subst hlc
    have hreply := returns_of_outcome (hmediates.answered _ _ _ _ hinvoke)
    obtain ⟨record, consensus, hpost, hordered⟩ := hlawful.initialise hreply
    exact .inr ⟨rfl, record, height, consensus, hpost, hordered (hadmits htype)⟩
  · exact .inl ⟨hlc, hmediates.untouched _ _ _ _ _ hlc hinvoke⟩

theorem Change.of_updateClient (hlawful : lc.kind.Lawful) (hmediates : lc.Mediates env)
    {c : HostString} {message : Bytes} {height : UInt64}
    (h : Returned sha256 env (.updateClient c message) pre height log post) :
    Change lc pre post := by
  by_cases hlc : pre.storage.clientLcAddr c = some lc.address
  · rcases returns_updateClient_mediated hlawful hmediates h hlc with
      ⟨hcheck, hupdate, hstorage⟩ | ⟨-, hfreeze, hstorage⟩
    · exact .updated hcheck hupdate (congrArg Storage.clients hstorage)
    · exact .froze hlc (congrArg Storage.clients hstorage) (.inr ⟨rfl, message, hfreeze⟩)
  · have hview := returns_updateClient_elsewhere hmediates h hlc
    obtain ⟨-, lcAddr, ext, hlc', ⟨-, -, -, hstorage⟩ | ⟨-, -, hstorage⟩⟩ :=
      returns_updateClient_calls h
    · have hne : lcAddr ≠ lc.address := by
        rintro rfl
        exact hlc hlc'
      exact .froze hlc' (congrArg Storage.clients hstorage) (.inl ⟨hne, hview⟩)
    · exact .untouched (congrArg Storage.clients hstorage) hview

theorem Change.of_step (hlawful : lc.kind.Lawful) {act : Act X}
    (hstep : Router.Step sha256 pre act post) (hmediated : lc.MediatedStep pre act post) :
    Change lc pre post := by
  cases act with
  | elsewhere =>
      have hstorage : post.storage = pre.storage := hstep
      exact .untouched (congrArg Storage.clients hstorage) hmediated
  | tx tx =>
      obtain ⟨env, call, outcome⟩ := tx
      obtain ⟨hmediates, hadmits⟩ := hmediated
      cases outcome with
      | aborted =>
          have hsame : post = pre := hstep.2
          rw [hsame]
          exact .untouched rfl rfl
      | returned value log =>
          have hreturned := hstep.returned
          by_cases hcreate : ∃ clientType clientState consensusState height,
              call = .createClient clientType clientState consensusState height
          · obtain ⟨clientType, clientState, consensusState, height, rfl⟩ := hcreate
            exact .of_createClient hlawful hmediates (hadmits _ _ _ _ rfl) hreturned
          by_cases hupdate : ∃ c message, call = .updateClient c message
          · obtain ⟨c, message, rfl⟩ := hupdate
            exact .of_updateClient hlawful hmediates hreturned
          · push Not at hcreate hupdate
            exact .untouched (hreturned.clients_eq hcreate hupdate)
              (view_eq_of_returned hlawful hmediates hcreate hupdate hreturned)

end

/-! ### What holds between the router and the light client -/

/-- The light client has no entry for `c`. -/
structure Unknown (s : Store κ τ) (c : HostString) : Prop where
  client : s.client c = none
  consensus : s.consensus c = fun _ => none
  frozen : s.frozen c = none

/-- Every record says of its consensus states what its kind promises. -/
def AllOrdered (kind : Kind ε κ τ) (s : Store κ τ) : Prop :=
  ∀ c record, s.client c = some record → kind.Ordered record (s.consensus c)

/-- The light client knows the router's clients of its address and no others, and both have
the same frozen flags. -/
structure Inv (lc : Deployed X ε κ τ) (state : State X) : Prop where
  minted : state.storage.clients.Minted
  unknown : ∀ c, state.storage.clientLcAddr c ≠ some lc.address → Unknown (lc.view state.ext) c
  unfrozen : ∀ c, state.storage.clientLcAddr c = none → state.storage.frozen c = none
  frozen : ∀ c, state.storage.clientLcAddr c = some lc.address →
    (lc.view state.ext).frozen c = state.storage.frozen c
  ordered : AllOrdered lc.kind (lc.view state.ext)

/-- Consensus states are kept and latest heights do not decrease. -/
structure HistoryKept (kind : Kind ε κ τ) (s s' : Store κ τ) : Prop where
  consensus : ∀ c height stored, s.consensus c height = some stored →
    s'.consensus c height = some stored
  latest : ∀ c record, s.client c = some record →
    ∃ record', s'.client c = some record' ∧ kind.latest record ≤ kind.latest record'

theorem HistoryKept.refl (kind : Kind ε κ τ) (s : Store κ τ) : HistoryKept kind s s :=
  ⟨fun _ _ _ h => h, fun _ record h => ⟨record, h, UInt64.le_refl _⟩⟩

theorem HistoryKept.trans {kind : Kind ε κ τ} {s s' s'' : Store κ τ}
    (h : HistoryKept kind s s') (h' : HistoryKept kind s' s'') : HistoryKept kind s s'' := by
  refine ⟨fun c height stored hstored => h'.consensus _ _ _ (h.consensus _ _ _ hstored), ?_⟩
  intro c record hrecord
  obtain ⟨middle, hmiddle, hle⟩ := h.latest c record hrecord
  obtain ⟨last, hlast, hle'⟩ := h'.latest c middle hmiddle
  exact ⟨last, hlast, UInt64.le_trans hle hle'⟩

/-! ### The writes of a light client -/

section

variable {kind : Kind ε κ τ} {s : Store κ τ} {c : HostString} {record record' : κ}
variable {height : UInt64} {consensus : τ}

theorem HistoryKept.initialise (hunknown : Unknown s c) :
    HistoryKept kind s ((s.setClient c record).setConsensus c height consensus) := by
  constructor
  · intro other h stored hstored
    have hne : other ≠ c := by
      rintro rfl
      rw [hunknown.consensus] at hstored
      cases hstored
    simpa [Function.update_of_ne hne] using hstored
  · intro other old hold
    have hne : other ≠ c := by
      rintro rfl
      rw [hunknown.client] at hold
      cases hold
    exact ⟨old, by simpa [Function.update_of_ne hne] using hold, UInt64.le_refl _⟩

/-- The height may be taken, by the same consensus state. -/
theorem HistoryKept.update (hrecord : s.client c = some record)
    (hle : kind.latest record ≤ kind.latest record')
    (hsame : ∀ old, s.consensus c height = some old → old = consensus) :
    HistoryKept kind s ((s.setConsensus c height consensus).setClient c record') := by
  constructor
  · intro other h stored hstored
    by_cases hother : other = c
    · subst hother
      by_cases hheight : h = height
      · subst hheight
        simpa using (hsame stored hstored).symm
      · simpa [Function.update_of_ne hheight] using hstored
    · simpa [Function.update_of_ne hother] using hstored
  · intro other old hold
    by_cases hother : other = c
    · subst hother
      obtain rfl := Option.some.inj (hold.symm.trans hrecord)
      exact ⟨record', by simp, hle⟩
    · exact ⟨old, by simpa [Function.update_of_ne hother] using hold, UInt64.le_refl _⟩

theorem HistoryKept.freeze (hrecord : s.client c = some record)
    (hlatest : kind.latest record' = kind.latest record) :
    HistoryKept kind s ((s.setClient c record').setFrozen c) := by
  constructor
  · intro other h stored hstored
    exact hstored
  · intro other old hold
    by_cases hother : other = c
    · subst hother
      obtain rfl := Option.some.inj (hold.symm.trans hrecord)
      exact ⟨record', by simp, by rw [hlatest]; exact UInt64.le_refl _⟩
    · exact ⟨old, by simpa [Function.update_of_ne hother] using hold, UInt64.le_refl _⟩

theorem ordered_initialise (h : AllOrdered kind s) (hunknown : Unknown s c)
    (hnew : kind.Ordered record (Function.update (fun _ => none) height (some consensus))) :
    AllOrdered kind ((s.setClient c record).setConsensus c height consensus) := by
  intro other old hold
  by_cases hother : other = c
  · subst hother
    obtain rfl : record = old := by simpa using hold
    have hnone : (s.setClient other record).consensus other = fun _ => none :=
      hunknown.consensus
    rw [Store.setConsensus_self, hnone]
    exact hnew
  · have hbefore : s.client other = some old := by
      simpa [Function.update_of_ne hother] using hold
    rw [Store.setConsensus_of_ne _ hother]
    exact h other old hbefore

theorem ordered_update (h : AllOrdered kind s)
    (hnew : kind.Ordered record'
      (Function.update (s.consensus c) height (some consensus))) :
    AllOrdered kind ((s.setConsensus c height consensus).setClient c record') := by
  intro other old hold
  by_cases hother : other = c
  · subst hother
    obtain rfl : record' = old := by simpa using hold
    have hconsensus := Store.setConsensus_self s other height consensus
    exact hconsensus ▸ hnew
  · have hbefore : s.client other = some old := by
      simpa [Function.update_of_ne hother] using hold
    have hconsensus := Store.setConsensus_of_ne s hother height consensus
    exact hconsensus ▸ h other old hbefore

theorem ordered_freeze (h : AllOrdered kind s)
    (hnew : kind.Ordered record' (s.consensus c)) :
    AllOrdered kind ((s.setClient c record').setFrozen c) := by
  intro other old hold
  by_cases hother : other = c
  · subst hother
    obtain rfl : record' = old := by simpa using hold
    exact hnew
  · have hbefore : s.client other = some old := by
      simpa [Function.update_of_ne hother] using hold
    exact h other old hbefore

/-- Writing the entries of one client leaves the others unknown. -/
theorem Unknown.setClient {other : HostString} (hne : other ≠ c) (h : Unknown s other) :
    Unknown (s.setClient c record) other :=
  ⟨by simpa [Function.update_of_ne hne] using h.client, h.consensus, h.frozen⟩

theorem Unknown.setConsensus {other : HostString} (hne : other ≠ c) (h : Unknown s other) :
    Unknown (s.setConsensus c height consensus) other :=
  ⟨h.client, (s.setConsensus_of_ne hne height consensus).trans h.consensus, h.frozen⟩

theorem Unknown.setFrozen {other : HostString} (hne : other ≠ c) (h : Unknown s other) :
    Unknown (s.setFrozen c) other :=
  ⟨h.client, h.consensus, by simpa [Function.update_of_ne hne] using h.frozen⟩

end

/-! ### Steps keep the invariant -/

section

variable {lc : Deployed X ε κ τ} {sha256 : Bytes → Hash} {pre post state : State X}

theorem inv_of_init (hinit : Init state) (hempty : lc.view state.ext = .empty) :
    Inv lc state := by
  obtain ⟨admin, hstorage⟩ := hinit
  refine ⟨?_, ?_, ?_, ?_, ?_⟩
  · intro c hpresent
    rw [hstorage] at hpresent
    exact absurd rfl hpresent
  · intro c _
    rw [hempty]
    exact ⟨rfl, rfl, rfl⟩
  · intro c _
    rw [hstorage]
    rfl
  · intro c _
    rw [hempty, hstorage]
    rfl
  · intro c record hrecord
    rw [hempty] at hrecord
    cases hrecord

/-- Only clients of the light client's address have records in it. -/
theorem Inv.served (hinv : Inv lc state) {c : HostString}
    (hrecord : (lc.view state.ext).client c ≠ none) :
    state.storage.clientLcAddr c = some lc.address := by
  by_contra hlc
  exact hrecord (hinv.unknown c hlc).client

theorem tables_eq {s s' : Storage} (h : s'.clients = s.clients) :
    s'.clientLcAddr = s.clientLcAddr ∧ s'.frozen = s.frozen :=
  ⟨congrArg ClientTables.clientLcAddr h, congrArg ClientTables.frozen h⟩

/-- Neither contract knows the id that is minted next. -/
theorem Inv.fresh (hinv : Inv lc pre) {clientType clientId : HostString} {n : UInt32}
    (hn : n = (pre.storage.nextClientId clientType).getD 0)
    (hminted : MintedId clientType n clientId) :
    pre.storage.clientLcAddr clientId = none ∧ pre.storage.frozen clientId = none ∧
      Unknown (lc.view pre.ext) clientId := by
  rw [hn] at hminted
  have hlc : pre.storage.clientLcAddr clientId = none := hinv.minted.fresh hminted
  exact ⟨hlc, hinv.unfrozen _ hlc, hinv.unknown _ (by simp [hlc])⟩

/-- A mediated update, by what the light client promises. -/
theorem Inv.updated (hlawful : lc.kind.Lawful) (hinv : Inv lc pre) {c : HostString}
    {message : Bytes} {height : UInt64} {s' : Store κ τ}
    (hcheck : Returns (lc.kind.machine (.checkForMisbehaviour c message)) (lc.view pre.ext)
      false (lc.view pre.ext))
    (hupdate : Returns (lc.kind.machine (.updateState c message)) (lc.view pre.ext) height s') :
    ∃ record record' consensus, (lc.view pre.ext).client c = some record ∧
      lc.kind.message message = some (height, consensus) ∧
      s' = ((lc.view pre.ext).setConsensus c height consensus).setClient c record' ∧
      lc.kind.latest record ≤ lc.kind.latest record' ∧
      (∀ old, (lc.view pre.ext).consensus c height = some old → old = consensus) ∧
      lc.kind.Ordered record'
        (Function.update ((lc.view pre.ext).consensus c) height (some consensus)) := by
  obtain ⟨record, hrecord⟩ := Option.ne_none_iff_exists'.mp (hlawful.updateRecorded hupdate)
  obtain ⟨record', consensus, hrest⟩ :=
    hlawful.update hcheck hupdate hrecord (hinv.ordered c record hrecord)
  exact ⟨record, record', consensus, hrecord, hrest⟩

theorem Inv.historyKept (hlawful : lc.kind.Lawful) (hinv : Inv lc pre)
    (hchange : Change lc pre post) :
    HistoryKept lc.kind (lc.view pre.ext) (lc.view post.ext) := by
  cases hchange with
  | untouched htables hview =>
      rw [hview]
      exact .refl _ _
  | @created clientType clientId n lcAddr hn hminted htables hview =>
      obtain ⟨-, -, hunknown⟩ := hinv.fresh hn hminted
      rcases hview with ⟨-, hview⟩ | ⟨-, record, height, consensus, hview, -⟩
      · rw [hview]
        exact .refl _ _
      · rw [hview]
        exact .initialise hunknown
  | @updated c message height hcheck hupdate htables =>
      obtain ⟨record, record', consensus, hrecord, -, hview, hle, hsame, -⟩ :=
        hinv.updated hlawful hcheck hupdate
      rw [hview]
      exact .update hrecord hle hsame
  | @froze c lcAddr hlc htables hview =>
      rcases hview with ⟨-, hview⟩ | ⟨-, message, hfreeze⟩
      · rw [hview]
        exact .refl _ _
      · obtain ⟨record, record', hrecord, hview, hlatest, -⟩ := hlawful.freeze hfreeze
        rw [hview]
        exact .freeze hrecord hlatest

theorem Inv.step_created (hinv : Inv lc pre) {clientType clientId : HostString} {n : UInt32}
    {lcAddr : Address} (hminted' : post.storage.clients.Minted)
    (hn : n = (pre.storage.nextClientId clientType).getD 0)
    (hminted : MintedId clientType n clientId)
    (hlc : post.storage.clientLcAddr =
      Function.update pre.storage.clientLcAddr clientId (some lcAddr))
    (hfrozen : post.storage.frozen = pre.storage.frozen)
    (hview : (lcAddr ≠ lc.address ∧ lc.view post.ext = lc.view pre.ext) ∨
      (lcAddr = lc.address ∧ ∃ record height consensus,
        lc.view post.ext =
          ((lc.view pre.ext).setClient clientId record).setConsensus clientId height
            consensus ∧
        lc.kind.Ordered record (Function.update (fun _ => none) height (some consensus)))) :
    Inv lc post := by
  obtain ⟨-, hthawed, hunknown⟩ := hinv.fresh hn hminted
  refine ⟨hminted', ?_, ?_, ?_, ?_⟩
  · intro c hc
    rw [hlc] at hc
    by_cases hid : c = clientId
    · subst hid
      rw [Function.update_self] at hc
      rcases hview with ⟨-, hview⟩ | ⟨rfl, -⟩
      · rwa [hview]
      · exact absurd rfl hc
    · rw [Function.update_of_ne hid] at hc
      have hold := hinv.unknown c hc
      rcases hview with ⟨-, hview⟩ | ⟨-, record, height, consensus, hview, -⟩
      · rwa [hview]
      · rw [hview]
        exact (hold.setClient hid).setConsensus hid
  · intro c hc
    rw [hlc] at hc
    have hid : c ≠ clientId := by
      rintro rfl
      simp at hc
    rw [Function.update_of_ne hid] at hc
    rw [hfrozen]
    exact hinv.unfrozen c hc
  · intro c hc
    have hsame : (lc.view post.ext).frozen = (lc.view pre.ext).frozen := by
      rcases hview with ⟨-, hview⟩ | ⟨-, record, height, consensus, hview, -⟩
      · rw [hview]
      · rw [hview]
        rfl
    rw [hlc] at hc
    rw [hsame, hfrozen]
    by_cases hid : c = clientId
    · rw [hid, hunknown.frozen, hthawed]
    · rw [Function.update_of_ne hid] at hc
      exact hinv.frozen c hc
  · rcases hview with ⟨-, hview⟩ | ⟨-, record, height, consensus, hview, hordered⟩
    · rw [hview]
      exact hinv.ordered
    · rw [hview]
      exact ordered_initialise hinv.ordered hunknown hordered

theorem Inv.step_updated (hlawful : lc.kind.Lawful) (hinv : Inv lc pre) {c : HostString}
    {message : Bytes} {height : UInt64} (hminted' : post.storage.clients.Minted)
    (hcheck : Returns (lc.kind.machine (.checkForMisbehaviour c message)) (lc.view pre.ext)
      false (lc.view pre.ext))
    (hupdate : Returns (lc.kind.machine (.updateState c message)) (lc.view pre.ext) height
      (lc.view post.ext))
    (hlc : post.storage.clientLcAddr = pre.storage.clientLcAddr)
    (hfrozen : post.storage.frozen = pre.storage.frozen) : Inv lc post := by
  obtain ⟨record, record', consensus, hrecord, -, hview, -, -, hordered⟩ :=
    hinv.updated hlawful hcheck hupdate
  have hserved := hinv.served (by rw [hrecord]; simp : (lc.view pre.ext).client c ≠ none)
  refine ⟨hminted', ?_, ?_, ?_, ?_⟩
  · intro c' hc'
    rw [hlc] at hc'
    have hne : c' ≠ c := by
      rintro rfl
      exact hc' hserved
    rw [hview]
    exact ((hinv.unknown c' hc').setConsensus hne).setClient hne
  · rw [hlc, hfrozen]
    exact hinv.unfrozen
  · rw [hlc, hfrozen, hview]
    exact hinv.frozen
  · rw [hview]
    exact ordered_update hinv.ordered hordered

theorem Inv.step_froze (hlawful : lc.kind.Lawful) (hinv : Inv lc pre) {c : HostString}
    {lcAddr : Address} (hminted' : post.storage.clients.Minted)
    (hserved : pre.storage.clientLcAddr c = some lcAddr)
    (hlc : post.storage.clientLcAddr = pre.storage.clientLcAddr)
    (hfrozen : post.storage.frozen = Function.update pre.storage.frozen c (some true))
    (hview : (lcAddr ≠ lc.address ∧ lc.view post.ext = lc.view pre.ext) ∨
      (lcAddr = lc.address ∧ ∃ message,
        Returns (lc.kind.machine (.updateStateOnMisbehaviour c message)) (lc.view pre.ext) ()
          (lc.view post.ext))) : Inv lc post := by
  have hunfrozen : ∀ c', post.storage.clientLcAddr c' = none →
      post.storage.frozen c' = none := by
    intro c' hc'
    rw [hlc] at hc'
    have hne : c' ≠ c := by
      rintro rfl
      rw [hserved] at hc'
      cases hc'
    rw [hfrozen, Function.update_of_ne hne]
    exact hinv.unfrozen c' hc'
  rcases hview with ⟨hother, hview⟩ | ⟨rfl, message, hfreeze⟩
  · refine ⟨hminted', ?_, hunfrozen, ?_, ?_⟩
    · rw [hlc, hview]
      exact hinv.unknown
    · intro c' hc'
      rw [hlc] at hc'
      have hne : c' ≠ c := by
        rintro rfl
        exact hother (Option.some.inj (hserved.symm.trans hc'))
      rw [hview, hfrozen, Function.update_of_ne hne]
      exact hinv.frozen c' hc'
    · rw [hview]
      exact hinv.ordered
  · obtain ⟨record, record', hrecord, hview, -, hordered⟩ := hlawful.freeze hfreeze
    refine ⟨hminted', ?_, hunfrozen, ?_, ?_⟩
    · intro c' hc'
      rw [hlc] at hc'
      have hne : c' ≠ c := by
        rintro rfl
        exact hc' hserved
      rw [hview]
      exact ((hinv.unknown c' hc').setClient hne).setFrozen hne
    · intro c' hc'
      rw [hlc] at hc'
      rw [hview, hfrozen]
      by_cases hid : c' = c
      · simp [hid]
      · simpa [Function.update_of_ne hid] using hinv.frozen c' hc'
    · rw [hview]
      exact ordered_freeze hinv.ordered (hordered _ (hinv.ordered c record hrecord))

theorem Inv.step (hlawful : lc.kind.Lawful) (hinv : Inv lc pre) {act : Act X}
    (hstep : Router.Step sha256 pre act post) (hmediated : lc.MediatedStep pre act post) :
    Inv lc post := by
  have hminted' := hinv.minted.step hstep.tablesStep
  cases Change.of_step hlawful hstep hmediated with
  | untouched htables hview =>
      obtain ⟨hlc, hfrozen⟩ := tables_eq htables
      refine ⟨hminted', ?_, ?_, ?_, ?_⟩
      · rw [hlc, hview]
        exact hinv.unknown
      · rw [hlc, hfrozen]
        exact hinv.unfrozen
      · rw [hlc, hfrozen, hview]
        exact hinv.frozen
      · rw [hview]
        exact hinv.ordered
  | created hn hminted htables hview =>
      exact hinv.step_created hminted' hn hminted
        (congrArg ClientTables.clientLcAddr htables) (congrArg ClientTables.frozen htables)
        hview
  | updated hcheck hupdate htables =>
      obtain ⟨hlc, hfrozen⟩ := tables_eq htables
      exact hinv.step_updated hlawful hminted' hcheck hupdate hlc hfrozen
  | froze hlc htables hview =>
      exact hinv.step_froze hlawful hminted' hlc (congrArg ClientTables.clientLcAddr htables)
        (congrArg ClientTables.frozen htables) hview

theorem inv_of_run (hlawful : lc.kind.Lawful) {history : List (Entry (State X) (Act X))}
    (hrun : lc.Run sha256 history state) : Inv lc state := by
  apply hrun.invariant fun _ state => Inv lc state
  · rintro state ⟨hinit, hempty⟩
    exact inv_of_init hinit hempty
  · rintro history entry - hinv ⟨hstep, hmediated⟩
    exact hinv.step hlawful hstep hmediated

end

end StellarIbc.Mediated
