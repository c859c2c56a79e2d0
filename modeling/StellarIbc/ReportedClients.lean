import StellarIbc.ClientConsistency
import StellarIbc.RegistryHistory
import StellarIbc.TendermintHeaders

/-!
# What the light client holds of the gateway's clients

The gateway creates a client from a state of `ibc-rs` and updates it with headers.  Over
every run in which only the router calls the tendermint light client, the light client holds
the created state at the greatest height that was accepted, frozen exactly when the router
froze it, and at every accepted height what the header said.
-/

namespace StellarIbc.Mediated

open Contract Router SorobanClient
open StellarIbc.Core (TmClientState TmConsensusState AnyClientState AnyConsensusState IbcRs Fits
  HeaderMessages TmInnerHeader tendermintHeaderToSorobanXdr timestampSecs)
open Tendermint (TendermintClientState TendermintConsensusState TendermintHeader)

variable {X S : Type}

/-! ### The light client on the ledger -/

/-- The tendermint light client with the id `lcId`. -/
abbrev tendermintOf (host : Tendermint.Host) (lcId : Hash) (view : X → Tendermint.Storage) :
    Deployed X Tendermint.Error TendermintClientState TendermintConsensusState :=
  ⟨tendermint host, .contract lcId, view⟩

/-- The host reads the XDR of the structs. -/
structure ReadsXdr (host : Tendermint.Host) : Prop where
  clientState : ∀ cs : TendermintClientState, Fits cs.toScVal →
    host.clientState cs.toScVal.toXdr = .decoded cs
  consensusState : ∀ cons : TendermintConsensusState, Fits cons.toScVal →
    host.consensusState cons.toScVal.toXdr = .decoded cons
  header : ∀ header : TendermintHeader, Fits header.toScVal →
    host.header header.toScVal.toXdr = .decoded header

/-- The client state and the height of a `create_client` are what the gateway makes of
`cs`. -/
structure BuiltFrom (ibc : IbcRs S) (clientState : Bytes) (height : UInt64)
    (cs : TmClientState S) : Prop where
  valid : ibc.clientValid cs
  encodable : cs.Encodable ibc
  active : cs.frozenHeight = none
  clientState : (AnyClientState.tendermint cs).toSorobanXdr = .ok clientState
  height : height = cs.latestHeight.revisionHeight

/-- Clients of the light client are created through the gateway. -/
def Built (ibc : IbcRs S) (lcId : Hash) (entry : Entry (State X) (Act X)) : Prop :=
  ∀ env clientType clientState consensusState height outcome,
    entry.act = .tx ⟨env, .createClient clientType clientState consensusState height, outcome⟩ →
    entry.pre.storage.clientTypeAddr clientType = some (.contract lcId) →
    ∃ cs, BuiltFrom ibc clientState height cs

/-- The client was created from `cs`. -/
def CreatedFrom (ibc : IbcRs S) (history : List (Entry (State X) (Act X))) (c : HostString)
    (cs : TmClientState S) : Prop :=
  ∃ entry ∈ history, ∃ env clientType clientState consensusState height log,
    entry.act = .tx ⟨env, .createClient clientType clientState consensusState height,
      .returned c log⟩ ∧
    BuiltFrom ibc clientState height cs

/-- The height with which a call created or updated the client; 0 if it froze it. -/
def returnedHeight (c : HostString) : Act X → Option UInt64
  | .tx ⟨_, .createClient _ _ _ height, .returned clientId _⟩ =>
      if clientId = c then some height else none
  | .tx ⟨_, .updateClient clientId _, .returned height _⟩ =>
      if clientId = c then some height else none
  | _ => none

def heights (c : HostString) (history : List (Entry (State X) (Act X))) : List UInt64 :=
  history.filterMap fun entry => returnedHeight c entry.act

def greatest (heights : List UInt64) : UInt64 := heights.foldl max 0

/-- `cs` is `created` as it stands now: at the greatest height, frozen exactly when the router
froze the client. -/
structure Current (created : TmClientState S) (heights : List UInt64) (frozen : Bool)
    (cs : TmClientState S) : Prop where
  kept : cs = { created with latestHeight := cs.latestHeight, frozenHeight := cs.frozenHeight }
  latest : cs.latestHeight.revisionHeight = greatest heights
  frozen : cs.frozenHeight.isSome = frozen

/-- `cs` is the state of the client as it stands: what it was created from, as it is now and
as the light client holds it. -/
def Stands (ibc : IbcRs S) (history : List (Entry (State X) (Act X))) (s : Router.Storage)
    (store : Tendermint.Storage) (c : HostString) (cs : TmClientState S) : Prop :=
  ∃ created, CreatedFrom ibc history c created ∧
    Current created (heights c history) ((s.frozen c).getD false) cs ∧
    store.client c = some cs.record

/-- The light client holds the state of a client as it stands, and consensus states at
exactly the heights that were accepted. -/
def Holds (ibc : IbcRs S) (history : List (Entry (State X) (Act X))) (s : Router.Storage)
    (store : Tendermint.Storage) (c : HostString) : Prop :=
  (∃ cs, Stands ibc history s store c cs) ∧
  ∀ height, store.consensus c height ≠ none ↔ height ∈ heights c history ∧ height ≠ 0

/-! ### What a step does to a client -/

section

variable {ibc : IbcRs S} {history : List (Entry (State X) (Act X))}
variable {entry : Entry (State X) (Act X)} {s s' : Router.Storage}
variable {store store' : Tendermint.Storage} {c : HostString} {height : UInt64}

theorem heights_of_none (h : returnedHeight c entry.act = none) :
    heights c (history ++ [entry]) = heights c history := by
  simp [heights, h]

theorem heights_of_some (h : returnedHeight c entry.act = some height) :
    heights c (history ++ [entry]) = heights c history ++ [height] := by
  simp [heights, h]

theorem greatest_append (heights : List UInt64) (height : UInt64) :
    greatest (heights ++ [height]) = max (greatest heights) height := by
  simp [greatest]

theorem CreatedFrom.append {cs : TmClientState S} (h : CreatedFrom ibc history c cs) :
    CreatedFrom ibc (history ++ [entry]) c cs := by
  obtain ⟨earlier, hmem, hcreated⟩ := h
  exact ⟨earlier, List.mem_append_left _ hmem, hcreated⟩

theorem Current.encodable {created cs : TmClientState S} {heights : List UInt64} {frozen : Bool}
    (h : Current created heights frozen cs) (hcreated : CreatedFrom ibc history c created) :
    cs.Encodable ibc := by
  obtain ⟨entry, -, env, clientType, clientState, consensusState, height, log, -, hbuilt⟩ :=
    hcreated
  rw [h.kept]
  exact { hbuilt.encodable with }

theorem max_of_lt {a b : UInt64} (h : a < b) : max a b = b := by
  show (if a ≤ b then b else a) = b
  exact if_pos (UInt64.le_of_lt h)

theorem max_zero (a : UInt64) : max a 0 = a := by
  show (if a ≤ 0 then 0 else a) = a
  split
  · next hle => exact (UInt64.le_antisymm hle (UInt64.zero_le)).symm
  · rfl

theorem Holds.keep (h : Holds ibc history s store c) (hheight : returnedHeight c entry.act = none)
    (hclient : store'.client c = store.client c)
    (hconsensus : store'.consensus c = store.consensus c) (hfrozen : s'.frozen c = s.frozen c) :
    Holds ibc (history ++ [entry]) s' store' c := by
  obtain ⟨⟨cs, created, hcreated, hcurrent, hrecord⟩, hstored⟩ := h
  rw [Holds, heights_of_none hheight, hconsensus]
  refine ⟨⟨cs, created, hcreated.append, ?_, hclient.trans hrecord⟩, hstored⟩
  rw [heights_of_none hheight, hfrozen]
  exact hcurrent

theorem Holds.create {created : TmClientState S} {clientState : Bytes}
    {consensus : TendermintConsensusState}
    (hcreated : CreatedFrom ibc (history ++ [entry]) c created)
    (hbuilt : BuiltFrom ibc clientState height created)
    (hheight : returnedHeight c entry.act = some height) (hsilent : heights c history = [])
    (hunknown : Unknown store c) (hfrozen : s'.frozen c = none)
    (hstore : store' = (store.setClient c created.record).setConsensus c height consensus) :
    Holds ibc (history ++ [entry]) s' store' c := by
  subst hstore
  have hheights : heights c (history ++ [entry]) = [height] := by
    rw [heights_of_some hheight, hsilent, List.nil_append]
  have hne : height ≠ 0 := by
    rw [hbuilt.height]
    exact created.latestHeight.nonzero
  rw [Holds, hheights]
  refine ⟨⟨created, created, hcreated, ⟨rfl, ?_, ?_⟩, ?_⟩, ?_⟩
  · rw [hheights]
    have hgreatest : greatest [height] = max 0 height := rfl
    rw [hgreatest, max_of_lt (UInt64.pos_iff_ne_zero.mpr hne), hbuilt.height]
  · rw [hbuilt.active, hfrozen]
    rfl
  · simp
  · intro other
    rw [Store.setConsensus_self]
    have hnone : (store.setClient c created.record).consensus c = fun _ => none :=
      hunknown.consensus
    rw [hnone, List.mem_singleton]
    by_cases hother : other = height
    · subst hother
      simp [hne]
    · simp [hother]

theorem Holds.update (h : Holds ibc history s store c) {record : TendermintClientState}
    {target : Tendermint.Height} {consensus : TendermintConsensusState}
    (hrecord : store.client c = some record)
    (hgreater : record.latestHeight.revisionHeight < target.revisionHeight)
    (hheight : returnedHeight c entry.act = some target.revisionHeight)
    (hfrozen : s'.frozen c = s.frozen c)
    (hstore : store' = (store.setConsensus c target.revisionHeight consensus).setClient c
      { record with latestHeight := target }) :
    Holds ibc (history ++ [entry]) s' store' c := by
  subst hstore
  obtain ⟨⟨cs, created, hcreated, hcurrent, hclient⟩, hstored⟩ := h
  obtain rfl : cs.record = record := Option.some.inj (hclient.symm.trans hrecord)
  have hne : target.revisionHeight ≠ 0 := by
    intro hzero
    rw [hzero] at hgreater
    exact UInt64.not_lt_zero hgreater
  rw [Holds, heights_of_some hheight]
  let latest : Core.IbcHeight := ⟨target.revisionNumber, target.revisionHeight, hne⟩
  refine ⟨⟨{ cs with latestHeight := latest }, created, hcreated.append, ⟨?_, ?_, ?_⟩, ?_⟩, ?_⟩
  · exact congrArg (fun cs : TmClientState S => { cs with latestHeight := latest }) hcurrent.kept
  · have hlatest : greatest (heights c history) < target.revisionHeight := by
      rw [← hcurrent.latest]
      exact hgreater
    rw [heights_of_some hheight, greatest_append, max_of_lt hlatest]
  · rw [hfrozen]
    exact hcurrent.frozen
  · rw [Store.setClient_client, Function.update_self]
    rfl
  · intro other
    rw [Store.setClient_consensus, Store.setConsensus_self, List.mem_append,
      List.mem_singleton]
    by_cases hother : other = target.revisionHeight
    · subst hother
      simp [hne]
    · rw [Function.update_of_ne hother, hstored]
      simp [hother]

theorem Holds.freeze (h : Holds ibc history s store c) {record : TendermintClientState}
    (hrecord : store.client c = some record) (hheight : returnedHeight c entry.act = some 0)
    (hfrozen : s'.frozen c = some true)
    (hstore : store' = (store.setClient c
      { record with isFrozen := true, frozenHeight := record.latestHeight }).setFrozen c) :
    Holds ibc (history ++ [entry]) s' store' c := by
  subst hstore
  obtain ⟨⟨cs, created, hcreated, hcurrent, hclient⟩, hstored⟩ := h
  obtain rfl : cs.record = record := Option.some.inj (hclient.symm.trans hrecord)
  rw [Holds, heights_of_some hheight]
  refine ⟨⟨{ cs with frozenHeight := some cs.latestHeight }, created, hcreated.append,
    ⟨?_, ?_, ?_⟩, ?_⟩, ?_⟩
  · exact congrArg (fun cs : TmClientState S => { cs with frozenHeight := some cs.latestHeight })
      hcurrent.kept
  · rw [heights_of_some hheight, greatest_append, max_zero]
    exact hcurrent.latest
  · rw [hfrozen]
    rfl
  · simp [TmClientState.record]
  · intro other
    have hsame : ((store.setClient c { cs.record with
        isFrozen := true, frozenHeight := cs.record.latestHeight }).setFrozen c).consensus c =
        store.consensus c := rfl
    rw [hsame, hstored, List.mem_append, List.mem_singleton]
    constructor
    · rintro ⟨hmem, hne⟩
      exact ⟨.inl hmem, hne⟩
    · rintro ⟨hmem | hzero, hne⟩
      · exact ⟨hmem, hne⟩
      · exact absurd hzero hne

end

/-! ### Every run -/

/-- What holds in every state of a run: a client that is not there was given no height, and
the light client holds each of its clients. -/
structure ReportInv (ibc : IbcRs S) (host : Tendermint.Host) (lcId : Hash)
    (view : X → Tendermint.Storage) (history : List (Entry (State X) (Act X)))
    (state : State X) : Prop where
  inv : Inv (tendermintOf host lcId view) state
  silent : ∀ c, state.storage.clientLcAddr c = none → heights c history = []
  holds : ∀ c, state.storage.clientLcAddr c = some (.contract lcId) →
    Holds ibc history state.storage (view state.ext) c

section

variable {ibc : IbcRs S} {host : Tendermint.Host} {lcId : Hash} {view : X → Tendermint.Storage}
variable {sha256 : Bytes → Hash} {history : List (Entry (State X) (Act X))}
variable {pre post : State X} {act : Act X}

/-- A step that gives no height and touches neither the tables nor the light client. -/
theorem ReportInv.quiet (h : ReportInv ibc host lcId view history pre)
    (hinv : Inv (tendermintOf host lcId view) post) (hheight : ∀ c, returnedHeight c act = none)
    (htables : post.storage.clients = pre.storage.clients)
    (hview : view post.ext = view pre.ext) :
    ReportInv ibc host lcId view (history ++ [⟨pre, act, post⟩]) post := by
  obtain ⟨hlc, hfrozen⟩ := tables_eq htables
  refine ⟨hinv, ?_, ?_⟩
  · intro c hnone
    rw [hlc] at hnone
    rw [heights_of_none (hheight c)]
    exact h.silent c hnone
  · intro c hserved
    rw [hlc] at hserved
    rw [hview]
    exact (h.holds c hserved).keep (hheight c) rfl rfl (congrFun hfrozen c)

theorem ReportInv.create (hreads : ReadsXdr host) (hibc : ibc.Lawful)
    (h : ReportInv ibc host lcId view history pre)
    (hinv : Inv (tendermintOf host lcId view) post) {env : Env X}
    {clientType clientId : HostString} {clientState consensusState : Bytes} {height : UInt64}
    {log : List Router.Effect}
    (hact : act = .tx ⟨env, .createClient clientType clientState consensusState height,
      .returned clientId log⟩)
    (hmediates : (tendermintOf host lcId view).Mediates env)
    (hbuilt : pre.storage.clientTypeAddr clientType = some (.contract lcId) →
      ∃ cs, BuiltFrom ibc clientState height cs)
    (hreturned : Returned sha256 env
      (.createClient clientType clientState consensusState height) pre clientId log post) :
    ReportInv ibc host lcId view (history ++ [⟨pre, act, post⟩]) post := by
  obtain ⟨n, lcAddr, htype, hn, -, hminted, -, htables⟩ := returns_createClient_tables hreturned
  obtain ⟨lcAddr', htype', hinvoke⟩ := returns_createClient_calls hreturned
  obtain rfl := Option.some.inj (htype.symm.trans htype')
  obtain ⟨hfresh, hthawed, hunknown⟩ := h.inv.fresh hn hminted
  have hlc : post.storage.clientLcAddr =
      Function.update pre.storage.clientLcAddr clientId (some lcAddr) :=
    congrArg ClientTables.clientLcAddr htables
  have hfrozen : post.storage.frozen = pre.storage.frozen := congrArg ClientTables.frozen htables
  have hother : ∀ {c}, c ≠ clientId → returnedHeight c act = none := by
    intro c hne
    rw [hact]
    exact if_neg fun heq => hne heq.symm
  have hself : returnedHeight clientId act = some height := by
    rw [hact]
    exact if_pos rfl
  have hothers : ∀ {c}, c ≠ clientId → (view post.ext).client c = (view pre.ext).client c ∧
      (view post.ext).consensus c = (view pre.ext).consensus c := by
    intro c hne
    by_cases haddress : lcAddr = .contract lcId
    · subst haddress
      have hreply := returns_of_outcome (hmediates.answered _ _ _ _ hinvoke)
      obtain ⟨record, consensus, -, hpost⟩ := Tendermint.returns_initialise hreply
      have hpost' : view post.ext = _ := hpost
      rw [hpost']
      exact ⟨Function.update_of_ne hne .., Store.setConsensus_of_ne _ hne ..⟩
    · have hview : view post.ext = view pre.ext :=
        hmediates.untouched _ _ _ _ _ haddress hinvoke
      rw [hview]
      exact ⟨rfl, rfl⟩
  refine ⟨hinv, ?_, ?_⟩
  · intro c hnone
    rw [hlc] at hnone
    have hne : c ≠ clientId := by
      rintro rfl
      simp at hnone
    rw [Function.update_of_ne hne] at hnone
    rw [heights_of_none (hother hne)]
    exact h.silent c hnone
  · intro c hserved
    rw [hlc] at hserved
    by_cases hself' : c = clientId
    · subst hself'
      rw [Function.update_self, Option.some.injEq] at hserved
      subst hserved
      obtain ⟨cs, hfrom⟩ := hbuilt htype
      obtain ⟨hplain, hlength⟩ := hibc.chainId cs hfrom.valid
      have hstate : cs.record.toScVal.toXdr = clientState :=
        Except.ok.inj ((Core.toSorobanXdr_client hlength).symm.trans hfrom.clientState)
      have hreply := returns_of_outcome (hmediates.answered _ _ _ _ hinvoke)
      obtain ⟨record, consensus, hdecoded, hpost⟩ := Tendermint.returns_initialise hreply
      rw [← hstate, hreads.clientState cs.record
        (Core.fits_client ⟨hlength, Nat.two_pow_pos 32⟩)] at hdecoded
      obtain rfl := Decoded.decoded.inj hdecoded
      have hcreated : CreatedFrom ibc (history ++ [⟨pre, act, post⟩]) c cs :=
        ⟨_, List.mem_append_right _ (List.mem_singleton_self _), env, clientType, clientState,
          consensusState, height, log, hact, hfrom⟩
      have hnone : post.storage.frozen c = none := by
        rw [hfrozen, hthawed]
      exact .create hcreated hfrom hself (h.silent c hfresh) hunknown hnone hpost
    · rw [Function.update_of_ne hself'] at hserved
      obtain ⟨hclient, hconsensus⟩ := hothers hself'
      exact (h.holds c hserved).keep (hother hself') hclient hconsensus (congrFun hfrozen c)

theorem ReportInv.update (h : ReportInv ibc host lcId view history pre)
    (hinv : Inv (tendermintOf host lcId view) post) {env : Env X} {clientId : HostString}
    {message : Bytes} {height : UInt64} {log : List Router.Effect}
    (hact : act = .tx ⟨env, .updateClient clientId message, .returned height log⟩)
    (hmediates : (tendermintOf host lcId view).Mediates env)
    (hreturned : Returned sha256 env (.updateClient clientId message) pre height log post) :
    ReportInv ibc host lcId view (history ++ [⟨pre, act, post⟩]) post := by
  have hother : ∀ {c}, c ≠ clientId → returnedHeight c act = none := by
    intro c hne
    rw [hact]
    exact if_neg fun heq => hne heq.symm
  have hself : returnedHeight clientId act = some height := by
    rw [hact]
    exact if_pos rfl
  obtain ⟨-, lcAddr, -, hknown, -⟩ := returns_updateClient_calls hreturned
  have hsilent : ∀ {s : Router.Storage}, s.clientLcAddr = pre.storage.clientLcAddr →
      ∀ c, s.clientLcAddr c = none → heights c (history ++ [⟨pre, act, post⟩]) = [] := by
    intro s hlc c hnone
    rw [hlc] at hnone
    have hne : c ≠ clientId := by
      rintro rfl
      rw [hknown] at hnone
      cases hnone
    rw [heights_of_none (hother hne)]
    exact h.silent c hnone
  by_cases hserved : pre.storage.clientLcAddr clientId = some (.contract lcId)
  · rcases returns_updateClient_mediated (tendermint_lawful host) hmediates hreturned hserved
      with ⟨-, hupdate, hstorage⟩ | ⟨hzero, hfreeze, hstorage⟩
    · obtain ⟨record, header, hrecord, -, -, hgreater, rfl, hview⟩ :=
        Tendermint.returns_updateState hupdate
      have hview' : view post.ext = _ := hview
      have hstorage' : post.storage = pre.storage := hstorage
      refine ⟨hinv, hsilent (congrArg Storage.clientLcAddr hstorage'), ?_⟩
      intro c hc
      rw [hstorage'] at hc ⊢
      by_cases hid : c = clientId
      · subst hid
        exact (h.holds c hc).update hrecord hgreater hself rfl hview'
      · refine (h.holds c hc).keep (hother hid) ?_ ?_ rfl
        · rw [hview']
          exact Function.update_of_ne hid ..
        · rw [hview']
          exact Store.setConsensus_of_ne _ hid ..
    · obtain ⟨record, hrecord, hview⟩ :=
        @Tendermint.returns_updateStateOnMisbehaviour _ _ _ message _ hfreeze
      have hview' : view post.ext = _ := hview
      have hstorage' : post.storage = _ := hstorage
      have hlc : post.storage.clientLcAddr = pre.storage.clientLcAddr := by rw [hstorage']
      rw [hzero] at hself
      refine ⟨hinv, hsilent hlc, ?_⟩
      intro c hc
      rw [hstorage'] at hc ⊢
      by_cases hid : c = clientId
      · subst hid
        exact (h.holds c hc).freeze hrecord hself (Function.update_self ..) hview'
      · refine (h.holds c hc).keep (hother hid) ?_ ?_ (Function.update_of_ne hid ..)
        · rw [hview']
          exact Function.update_of_ne hid ..
        · rw [hview']
          rfl
  · have hview : view post.ext = view pre.ext :=
      returns_updateClient_elsewhere hmediates hreturned hserved
    obtain ⟨hlc, hfrozen⟩ : post.storage.clientLcAddr = pre.storage.clientLcAddr ∧
        ∀ c, c ≠ clientId → post.storage.frozen c = pre.storage.frozen c := by
      obtain ⟨-, -, -, -, ⟨-, -, -, hstorage⟩ | ⟨-, -, hstorage⟩⟩ :=
        returns_updateClient_calls hreturned
      · have hstorage' : post.storage = _ := hstorage
        rw [hstorage']
        exact ⟨rfl, fun c hne => Function.update_of_ne hne ..⟩
      · have hstorage' : post.storage = _ := hstorage
        rw [hstorage']
        exact ⟨rfl, fun c _ => rfl⟩
    refine ⟨hinv, hsilent hlc, ?_⟩
    intro c hc
    rw [hlc] at hc
    have hid : c ≠ clientId := by
      rintro rfl
      exact hserved hc
    rw [hview]
    exact (h.holds c hc).keep (hother hid) rfl rfl (hfrozen c hid)

theorem ReportInv.step (hreads : ReadsXdr host) (hibc : ibc.Lawful)
    (h : ReportInv ibc host lcId view history pre) (hstep : Router.Step sha256 pre act post)
    (hmediated : (tendermintOf host lcId view).MediatedStep pre act post)
    (hbuilt : Built ibc lcId ⟨pre, act, post⟩) :
    ReportInv ibc host lcId view (history ++ [⟨pre, act, post⟩]) post := by
  have hlawful := tendermint_lawful host
  have hinv := h.inv.step hlawful hstep hmediated
  cases act with
  | elsewhere =>
      have hstorage : post.storage = pre.storage := hstep
      exact h.quiet hinv (fun _ => rfl) (congrArg Storage.clients hstorage) hmediated
  | tx tx =>
      obtain ⟨env, call, outcome⟩ := tx
      obtain ⟨hmediates, -⟩ := hmediated
      cases outcome with
      | aborted =>
          have hsame : post = pre := hstep.2
          have hheight : ∀ c, returnedHeight c (.tx ⟨env, call, .aborted⟩ : Act X) = none := by
            intro c
            cases call <;> rfl
          exact h.quiet hinv hheight (by rw [hsame]) (by rw [hsame])
      | returned value log =>
          have hreturned := hstep.returned
          by_cases hcreate : ∃ clientType clientState consensusState height,
              call = .createClient clientType clientState consensusState height
          · obtain ⟨clientType, clientState, consensusState, height, rfl⟩ := hcreate
            exact h.create hreads hibc hinv rfl hmediates (hbuilt _ _ _ _ _ _ rfl) hreturned
          by_cases hupdate : ∃ c message, call = .updateClient c message
          · obtain ⟨c, message, rfl⟩ := hupdate
            exact h.update hinv rfl hmediates hreturned
          · push Not at hcreate hupdate
            have hheight : ∀ c, returnedHeight c (.tx ⟨env, call, .returned value log⟩ : Act X) =
                none := by
              intro c
              cases call with
              | createClient => exact absurd rfl (hcreate _ _ _ _)
              | updateClient => exact absurd rfl (hupdate _ _)
              | _ => rfl
            exact h.quiet hinv hheight (hreturned.clients_eq hcreate hupdate)
              (view_eq_of_returned hlawful hmediates hcreate hupdate hreturned)

theorem reportInv_of_run (hreads : ReadsXdr host) (hibc : ibc.Lawful) {state : State X}
    (hrun : (tendermintOf host lcId view).Run sha256 history state)
    (hbuilt : ∀ entry ∈ history, Built ibc lcId entry) :
    ReportInv ibc host lcId view history state := by
  refine (hrun.restrictEntries hbuilt).invariant (ReportInv ibc host lcId view) ?_ ?_
  · rintro state ⟨hinit, hempty⟩
    have hinv := inv_of_init hinit hempty
    refine ⟨hinv, fun _ _ => rfl, ?_⟩
    intro c hserved
    obtain ⟨admin, hstorage⟩ := hinit
    rw [hstorage] at hserved
    cases hserved
  · rintro history entry - h ⟨⟨hstep, hmediated⟩, hbuilt⟩
    exact h.step hreads hibc hstep hmediated hbuilt

end

/-! ### The consensus states -/

/-- The message is a header with this inner header. -/
def Decodes {H V : Type} (headers : HeaderMessages H V) (bytes : Bytes) (inner : TmInnerHeader) :
    Prop :=
  ∃ raw signed, headers.decode bytes = .ok raw ∧ raw.signedHeader = some signed ∧
    headers.header signed = some inner

/-- The consensus state that a header stands for, its time in whole seconds. -/
structure ConsensusOf (inner : TmInnerHeader) (cons : TmConsensusState) : Prop where
  timestamp : cons.timestamp = ⟨(timestampSecs inner.time).toInt64, 0⟩
  root : cons.root = inner.appHash
  nextValidatorsHash : cons.nextValidatorsHash.asBytes = inner.nextValidatorsHash

/-- `cons` was accepted for a client at a height: the client was created with it, or updated
with a header of that height that the gateway translated. -/
inductive Accepts {H V : Type} (headers : HeaderMessages H V) (c : HostString) (height : UInt64)
    (cons : TmConsensusState) : Act X → Prop
  | created {env : Env X} {clientType : HostString} {clientState consensusState : Bytes}
      {log : List Router.Effect} (hencodable : cons.Encodable)
      (hstate : (AnyConsensusState.tendermint cons).toSorobanXdr = .ok consensusState) :
      Accepts headers c height cons
        (.tx ⟨env, .createClient clientType clientState consensusState height,
          .returned c log⟩)
  | updated {env : Env X} {headerBytes message : Bytes} {inner : TmInnerHeader}
      {returned : UInt64} {log : List Router.Effect} (hheader : Decodes headers headerBytes inner)
      (hheight : (height.toNat : ℤ) = inner.height.toInt) (hcons : ConsensusOf inner cons)
      (hmessage : tendermintHeaderToSorobanXdr headers headerBytes = .ok message)
      (haccepted : returned ≠ 0) :
      Accepts headers c height cons (.tx ⟨env, .updateClient c message, .returned returned log⟩)

theorem Decodes.eq {H V : Type} {headers : HeaderMessages H V} {bytes : Bytes}
    {inner inner' : TmInnerHeader} (h : Decodes headers bytes inner)
    (h' : Decodes headers bytes inner') : inner' = inner := by
  obtain ⟨raw, signed, hraw, hsigned, hinner⟩ := h
  obtain ⟨raw', signed', hraw', hsigned', hinner'⟩ := h'
  obtain rfl := Except.ok.inj (hraw.symm.trans hraw')
  obtain rfl := Option.some.inj (hsigned.symm.trans hsigned')
  exact Option.some.inj (hinner'.symm.trans hinner)

/-- The record says what `cons` says. -/
structure StandsFor (record : TendermintConsensusState) (cons : TmConsensusState) : Prop where
  timestamp : cons.timestamp = ⟨record.timestampSecs.toInt64, 0⟩
  root : cons.root = record.root.val
  nextValidatorsHash : cons.nextValidatorsHash.asBytes = record.nextValidatorsHash.val

section

variable {ibc : IbcRs S} {host : Tendermint.Host} {lcId : Hash} {view : X → Tendermint.Storage}
variable {sha256 : Bytes → Hash} {history : List (Entry (State X) (Act X))}
variable {state : State X} {entry : Entry (State X) (Act X)} {c : HostString} {height : UInt64}
variable {cons : TmConsensusState} {H V : Type} {headers : HeaderMessages H V}

theorem StandsFor.represents {record : TendermintConsensusState} (h : StandsFor record cons) :
    Core.RawTmConsensusState.Represents
      { timestamp := some ⟨record.timestampSecs.toInt64, 0⟩
        root := some record.root.val
        nextValidatorsHash := record.nextValidatorsHash.val } cons where
  timestamp := by
    rw [h.timestamp]
    exact ⟨_, rfl, rfl, rfl⟩
  root := congrArg some h.root.symm
  nextValidatorsHash := h.nextValidatorsHash.symm

/-- What `to_soroban_xdr` writes of a consensus state. -/
theorem written_consensus {bytes : Bytes} (hencodable : cons.Encodable)
    (h : (AnyConsensusState.tendermint cons).toSorobanXdr = .ok bytes) :
    ∃ record : TendermintConsensusState, StandsFor record cons ∧ bytes = record.toScVal.toXdr := by
  let record : TendermintConsensusState := ⟨cons.timestamp.unixTimestamp.toUInt64,
    ⟨_, hencodable.nextValidatorsHash⟩, ⟨_, hencodable.root⟩⟩
  have htimestamp : cons.timestamp = ⟨record.timestampSecs.toInt64, 0⟩ := by
    have hseconds : record.timestampSecs.toInt64 = cons.timestamp.unixTimestamp :=
      Int64.toInt64_toUInt64 _
    rw [hseconds, ← hencodable.nanos]
  refine ⟨record, ⟨htimestamp, rfl, rfl⟩, ?_⟩
  have hbytes : ∀ {b : Bytes}, b.length = 32 → Core.scvalBytes b = .ok (.bytes b) := by
    intro b hlength
    apply Core.scvalBytes_of_lt
    rw [hlength]
    decide
  have hstruct := Core.toSorobanXdr_consensus record
  unfold AnyConsensusState.toSorobanXdr at h
  simp only [Core.max_zero_of_nonneg hencodable.seconds, hbytes hencodable.nextValidatorsHash,
    hbytes hencodable.root, bind, Except.bind] at h
  rw [hstruct] at h
  exact (Except.ok.inj h).symm

theorem initialise_stores {clientState consensusState : Bytes} {result : Unit}
    {pre post : Tendermint.Storage} {record : TendermintConsensusState}
    (h : Returns (Tendermint.initialise host c clientState consensusState height) pre result post)
    (hdecoded : host.consensusState consensusState = .decoded record) :
    post.consensus c height = some record := by
  simp only [Tendermint.initialise, returns_bind, returns_decodeOr, returns_modify] at h
  obtain ⟨cs, _, ⟨-, rfl⟩, found, _, ⟨hfound, rfl⟩, _, _, rfl, rfl⟩ := h
  obtain rfl := Decoded.decoded.inj (hdecoded.symm.trans hfound)
  simp

/-- What was accepted is in the store. -/
theorem stored_of_accepts (hreads : ReadsXdr host)
    (hrun : (tendermintOf host lcId view).Run sha256 history state) (hmem : entry ∈ history)
    (haccepts : Accepts headers c height cons entry.act)
    (hlc : state.storage.clientLcAddr c = some (.contract lcId)) :
    ∃ record, StandsFor record cons ∧ (view state.ext).consensus c height = some record := by
  have hlawful := tendermint_lawful host
  obtain ⟨before, after, hsplit⟩ := List.append_of_mem hmem
  have hkept := historyKept_since hlawful hrun hmem
  have hregistry := Router.kept_of_run hrun.router hmem
  obtain ⟨-, hstep, hmediated⟩ := hrun.at_entry hlawful hmem
  obtain ⟨pre, act, post⟩ := entry
  cases haccepts with
  | @created env clientType clientState consensusState log hencodable hstate =>
      obtain ⟨hmediates, -⟩ := hmediated
      have hreturned := hstep.returned
      obtain ⟨record, hrecord, rfl⟩ := written_consensus hencodable hstate
      obtain ⟨lcAddr, ⟨-, htype, -⟩, -, hlcs⟩ := returned_createClient hstep rfl
      have hserved : post.storage.clientLcAddr c = some lcAddr := by
        rw [hlcs, Function.update_self]
      obtain rfl := Option.some.inj ((hregistry.clientLcAddr c lcAddr hserved).symm.trans hlc)
      obtain ⟨lcAddr', htype', hinvoke⟩ := returns_createClient_calls hreturned
      obtain rfl := Option.some.inj (htype'.symm.trans htype)
      have hreply := returns_of_outcome (hmediates.answered _ _ _ _ hinvoke)
      have hstored := initialise_stores hreply
        (hreads.consensusState record (Core.fits_consensus record))
      exact ⟨record, hrecord, hkept.consensus c height record hstored⟩
  | @updated env headerBytes message inner returned log hheader hheight hcons hmessage haccepted =>
      have hreturned := hstep.returned
      obtain ⟨-, lcAddr, -, hserved, -⟩ := returns_updateClient_calls hreturned
      have hother : ∀ other, pre.storage.clientLcAddr c = some other →
          other = .contract lcId := by
        intro other hother
        have hpost : post.storage.clientLcAddr c = some other := by
          rw [hreturned.clientLcAddr_eq fun _ _ _ _ => Call.noConfusion]
          exact hother
        exact Option.some.inj ((hregistry.clientLcAddr c other hpost).symm.trans hlc)
      rcases updateEnds_of_run hlawful hrun hsplit rfl hother with
        ⟨consensus, hsays, hstored⟩ | ⟨hzero, -⟩
      · obtain ⟨raw, signed, inner', trusted, record, hraw, hsigned, hinner, -, hrelays, hbounded,
          rfl⟩ := Core.relays_of_tendermintHeader hmessage
        obtain rfl : inner' = inner := hheader.eq ⟨raw, signed, hraw, hsigned, hinner⟩
        have hmessage' : (tendermint host).message record.toScVal.toXdr =
            some (record.targetHeight.revisionHeight,
              ⟨record.timestampSecs, record.nextValidatorsHash, record.appHash⟩) := by
          simp only [tendermint, hreads.header record (Core.fits_header hbounded)]
        obtain ⟨hreturnedHeight, hconsensus⟩ :=
          Prod.mk.inj (Option.some.inj (hmessage'.symm.trans hsays))
        have hheight' : returned = height := by
          apply UInt64.toNat_inj.mp
          have hrelayed := hrelays.revisionHeight
          rw [hreturnedHeight, ← hheight] at hrelayed
          exact_mod_cast hrelayed
        rw [hheight', ← hconsensus] at hstored
        refine ⟨_, ⟨?_, ?_, ?_⟩, hkept.consensus c height _ hstored⟩
        · rw [hcons.timestamp, hrelays.timestampSecs]
        · rw [hcons.root, hrelays.appHash]
        · rw [hcons.nextValidatorsHash, hrelays.nextValidatorsHash]
      · exact absurd hzero haccepted

end

end StellarIbc.Mediated
