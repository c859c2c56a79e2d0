import StellarIbc.CoreState
import StellarIbc.Sha256
import StellarIbc.Trace

/-!
# Roots and proofs of the tracker over runs

A run is any sequence of `root_at` and `proof_for_path` calls on one tracker over fixed
ledgers; any call may fail because the API does not answer.  The tracker has one tree, so
a proof always folds to the root of the tree as it is now, while a root that was answered
before stays as it was then: the two agree as long as nothing was replayed in between.
The first call starts the tree at its own ledger and a call for an older ledger reads the
tree as it is, so a root is that of the entries as of its ledger only where neither loses
or adds an entry.
-/

namespace StellarIbc.Core

open Fallible

/-! ### What a proof folds to -/

/-- The fold of the proof's siblings from the leaf of `key`, or from the empty leaf. -/
def Served.foldsTo (sha256 : Bytes → Hash) (key : Bytes) : Served → Hash
  | .found proof =>
      foldSiblings sha256 (keyIndex sha256 key)
        (leafHash sha256 (sha256 key) proof.valueHash) proof.siblings
  | .absent proof => foldSiblings sha256 (keyIndex sha256 key) EMPTY proof.siblings

theorem Smt.foldsTo_of_serve {sha256 : Bytes → Hash} {smt : Smt} {key : Bytes}
    {served : Served} (h : smt.serve sha256 key = some served) :
    served.foldsTo sha256 key = smt.root sha256 := by
  have hfold : foldSiblings sha256 (keyIndex sha256 key)
      (smt.leafAt sha256 (keyIndex sha256 key).toNat)
      (smt.siblingsFor sha256 (keyIndex sha256 key)) = smt.root sha256 :=
    smt.foldSiblings_siblingsFor _
  cases hleaf : smt.leaves[keyIndex sha256 key]? with
  | none =>
      have hmember : smt.generateMembershipProof sha256 key = none := by
        unfold keyIndex at hleaf
        simp [Smt.generateMembershipProof, hleaf]
      rw [Smt.serve, hmember, Smt.generateNonMembershipProof_of_none hleaf] at h
      obtain rfl := Option.some.inj h
      rw [Smt.leafAt_of_none hleaf] at hfold
      exact hfold
  | some leaf =>
      obtain ⟨keyHash, valueHash⟩ := leaf
      by_cases hkey : keyHash = sha256 key
      · subst hkey
        rw [Smt.serve, Smt.generateMembershipProof_of_some hleaf] at h
        obtain rfl := Option.some.inj h
        rw [Smt.leafAt_of_some hleaf] at hfold
        exact hfold
      · -- the index is taken by another key: neither proof is available
        unfold keyIndex at hleaf
        simp [Smt.serve, Smt.generateMembershipProof, Smt.generateNonMembershipProof, hleaf,
          hkey] at h

namespace Tracker

/-! ### Runs -/

/-- A call and its reply; the reply of `proof_for_path` is recorded as the proof whose
bytes it holds (`Served.lookup`). -/
inductive Act where
  | rootAt (available : UInt32 → Bool) (seq : UInt32) (reply : Except StateError Hash)
  | proofForPath (available : UInt32 → Bool) (seq : UInt32) (key : Bytes)
      (reply : Except StateError Served)

def Act.seq : Act → UInt32
  | .rootAt _ seq _ => seq
  | .proofForPath _ seq _ _ => seq

variable (sha256 : Bytes → Hash) (ledgers : Ledgers)

def Step (pre : State) (act : Act) (post : State) : Prop :=
  match act with
  | .rootAt available seq reply => Ends (rootAt sha256 ledgers available seq) pre reply post
  | .proofForPath available seq key reply =>
      Ends (servePath sha256 ledgers available seq key) pre reply post

/-- Every run of a tracker of the router `ibcContractId`. -/
abbrev Run (ibcContractId : Option Hash) : List (Entry State Act) → State → Prop :=
  Reach (fun st => st = .new ibcContractId) (Step sha256 ledgers)

variable {sha256 ledgers} {ibcContractId : Option Hash}
variable {history : List (Entry State Act)} {entry : Entry State Act} {st : State}

/-! ### One call -/

theorem Step.rootStep (hstep : Step sha256 ledgers entry.pre entry.act entry.post) :
    ∃ outcome, RootStep sha256 ledgers entry.act.seq entry.pre outcome entry.post := by
  cases hact : entry.act with
  | rootAt available seq reply =>
      rw [hact] at hstep
      exact ⟨reply, ends_rootAt hstep⟩
  | proofForPath available seq key reply =>
      rw [hact] at hstep
      obtain ⟨root, hroot, -⟩ := ends_servePath hstep
      exact ⟨root, hroot⟩

theorem roots_recordRoot {pre : State} {s seq : UInt32} {root : Hash}
    (hroot : (pre.recordRoot sha256 seq).roots s = some root) :
    pre.roots s = some root ∨ (s = seq ∧ root = pre.smt.root sha256) := by
  by_cases hs : s = seq
  · rw [hs, State.recordRoot_self, Option.some.injEq] at hroot
    exact .inr ⟨hs, hroot.symm⟩
  · rw [State.recordRoot_of_ne _ hs] at hroot
    exact .inl hroot

/-- A root that is new was recorded for the tree as the call left it. -/
theorem roots_of_rootStep {seq : UInt32} {pre post : State} {outcome : Except StateError Hash}
    (h : RootStep sha256 ledgers seq pre outcome post) {s : UInt32} {root : Hash}
    (hroot : post.roots s = some root) :
    pre.roots s = some root ∨ (s = seq ∧ root = post.smt.root sha256) := by
  cases h with
  | cached hroots => exact .inl hroot
  | failed hroots hstart hdone => exact .inl hroot
  | current hroots hstart => exact roots_recordRoot hroot
  | replayed hroots hstart hmiddle =>
      subst hmiddle
      exact roots_recordRoot hroot

/-- A recorded root stays. -/
theorem roots_stay {seq : UInt32} {pre post : State} {outcome : Except StateError Hash}
    (h : RootStep sha256 ledgers seq pre outcome post) {s : UInt32} {root : Hash}
    (hroot : pre.roots s = some root) : post.roots s = some root := by
  have hne : pre.roots seq = none → s ≠ seq := by
    rintro hnone rfl
    rw [hnone] at hroot
    cases hroot
  cases h with
  | cached hroots => exact hroot
  | failed hroots hstart hdone => exact hroot
  | current hroots hstart =>
      rw [State.recordRoot_of_ne _ (hne hroots)]
      exact hroot
  | replayed hroots hstart hmiddle =>
      subst hmiddle
      rw [State.recordRoot_of_ne _ (hne hroots)]
      exact hroot

theorem roots_of_ok {seq : UInt32} {pre post : State} {root : Hash}
    (h : RootStep sha256 ledgers seq pre (.ok root) post) : post.roots seq = some root := by
  cases h with
  | cached hroots => exact hroots
  | current hroots hstart => exact State.recordRoot_self ..
  | replayed hroots hstart hmiddle => exact State.recordRoot_self ..

theorem Step.roots_stay (hstep : Step sha256 ledgers entry.pre entry.act entry.post)
    {s : UInt32} {root : Hash} (hroot : entry.pre.roots s = some root) :
    entry.post.roots s = some root := by
  obtain ⟨outcome, hrootStep⟩ := hstep.rootStep
  exact Tracker.roots_stay hrootStep hroot

/-! ### Roots and proofs agree while nothing is replayed -/

/-- Every root returned for a height is what every proof returned for it folds to. -/
def ProofsMatchRoots (sha256 : Bytes → Hash) (history : List (Entry State Act)) : Prop :=
  ∀ asked ∈ history, ∀ proved ∈ history, ∀ seq root key served,
    (∃ available, asked.act = .rootAt available seq (.ok root)) →
    (∃ available, proved.act = .proofForPath available seq key (.ok served)) →
    served.foldsTo sha256 key = root

/-- The call replays no ledger that changes a provable entry. -/
def Quiet (ledgers : Ledgers) (entry : Entry State Act) : Prop :=
  ∀ start, entry.pre.roots entry.act.seq = none →
    entry.pre.replayStart entry.act.seq = some start →
    ∀ n ∈ ledgerRange start entry.act.seq, ledgers.ops entry.pre.ibcContractId n = []

/-- No call between one that got the root of a height and a later `proof_for_path` for
that height replays a ledger that changes a provable entry. -/
def ProofsSettled (ledgers : Ledgers) (history : List (Entry State Act)) : Prop :=
  ∀ before asked middle proved after,
    history = before ++ asked :: (middle ++ proved :: after) →
    asked.post.roots asked.act.seq ≠ none →
    (∃ available key reply, proved.act = .proofForPath available asked.act.seq key reply) →
    ∀ entry ∈ middle, Quiet ledgers entry

/-- A call is quiet where no ledger past the last replayed one changes an entry. -/
theorem quiet_of_past {last : UInt32} (hlast : entry.pre.lastProcessed = some last)
    (hlater : ∀ n, last < n → ledgers.ops entry.pre.ibcContractId n = []) :
    Quiet ledgers entry := by
  intro start _ hstart n hn
  rcases State.replayStart_eq_some hstart with ⟨hnone, -⟩ | ⟨last', hlast', hlt, rfl⟩
  · rw [hlast] at hnone
    cases hnone
  · obtain rfl := Option.some.inj (hlast.symm.trans hlast')
    have hle := UInt32.le_iff_toNat_le.mp (mem_ledgerRange.mp hn).1
    rw [toNat_succ_of_lt hlt] at hle
    exact hlater n (UInt32.lt_iff_toNat_lt.mpr hle)

theorem Quiet.smt_eq (hquiet : Quiet ledgers entry)
    (hstep : Step sha256 ledgers entry.pre entry.act entry.post) :
    entry.post.smt = entry.pre.smt := by
  obtain ⟨outcome, hrootStep⟩ := hstep.rootStep
  have hreplay : ∀ {start : UInt32} {done : List UInt32},
      entry.pre.roots entry.act.seq = none → entry.pre.replayStart entry.act.seq = some start →
      done <+: ledgerRange start entry.act.seq →
      (entry.pre.replayed sha256 ledgers done).smt = entry.pre.smt :=
    fun hroots hstart hdone =>
      Ledgers.replay_of_quiet fun n hn => hquiet _ hroots hstart n (hdone.subset hn)
  generalize hpost : entry.post = post at hrootStep
  cases hrootStep with
  | cached hroots => rfl
  | current hroots hstart => rfl
  | replayed hroots hstart hmiddle =>
      rw [State.recordRoot, hmiddle]
      exact hreplay hroots hstart (List.prefix_refl _)
  | failed hroots hstart hdone => exact hreplay hroots hstart hdone

/-- A recorded root is that of the tree some call for its height left, and of the tree as
it is now if every call since then was quiet. -/
def Anchored (sha256 : Bytes → Hash) (ledgers : Ledgers) (history : List (Entry State Act))
    (st : State) : Prop :=
  ∀ seq root, st.roots seq = some root → ∃ before asked middle,
    history = before ++ asked :: middle ∧ asked.act.seq = seq ∧
    asked.post.roots seq = some root ∧
    ((∀ entry ∈ middle, Quiet ledgers entry) → st.smt.root sha256 = root)

theorem anchored (hrun : Run sha256 ledgers ibcContractId history st) :
    Anchored sha256 ledgers history st := by
  apply hrun.invariant (Anchored sha256 ledgers)
  · rintro st rfl seq root hroot
    cases hroot
  · intro history last hprev ih hstep seq root hroot
    obtain ⟨outcome, hrootStep⟩ := hstep.rootStep
    rcases roots_of_rootStep hrootStep hroot with hold | ⟨hseq, hnew⟩
    · obtain ⟨before, asked, middle, rfl, hasked, hrecorded, hsame⟩ := ih seq root hold
      refine ⟨before, asked, middle ++ [last], by simp, hasked, hrecorded, ?_⟩
      intro hquiet
      rw [List.forall_mem_append, List.forall_mem_singleton] at hquiet
      rw [hquiet.2.smt_eq hstep]
      exact hsame hquiet.1
    · exact ⟨history, last, [], rfl, hseq.symm, hroot, fun _ => hnew.symm⟩

/-- A proof folds to the root recorded for its height, unless a replay came in between. -/
theorem foldsTo_recorded (hrun : Run sha256 ledgers ibcContractId history st)
    (hsettled : ProofsSettled ledgers history) (hmem : entry ∈ history)
    {available : UInt32 → Bool} {seq : UInt32} {key : Bytes} {served : Served}
    (hact : entry.act = .proofForPath available seq key (.ok served)) :
    entry.post.roots seq = some (served.foldsTo sha256 key) := by
  obtain ⟨before, after, hsplit⟩ := List.append_of_mem hmem
  obtain ⟨hbefore, hstep⟩ := hrun.split hsplit
  rw [hact] at hstep
  obtain ⟨outcome, hrootStep, hserved⟩ := ends_servePath hstep
  obtain ⟨⟨value, rfl⟩, hserve⟩ := hserved served rfl
  rw [Smt.foldsTo_of_serve hserve]
  have hrecorded := roots_of_ok hrootStep
  generalize hpost : entry.post = post at hrootStep hrecorded
  cases hrootStep with
  | current hroots hstart => exact hrecorded
  | replayed hroots hstart hmiddle => exact hrecorded
  | cached hroots =>
      obtain ⟨first, asked, middle, rfl, hasked, hstored, hsame⟩ :=
        anchored hbefore seq value hroots
      -- every call since the root was recorded was quiet
      have hquiet : ∀ entry ∈ middle, Quiet ledgers entry := by
        refine hsettled first asked middle entry after (by rw [hsplit]; simp) ?_ ?_
        · rw [hasked, hstored]
          simp
        · rw [hasked]
          exact ⟨available, key, _, hact⟩
      rw [hsame hquiet]
      exact hroots

/-- **Root and proof agree at a height**, in every run in which no proof is asked after a
replay that came later than the root. -/
theorem proofs_match_roots_of_settled (hrun : Run sha256 ledgers ibcContractId history st)
    (hsettled : ProofsSettled ledgers history) : ProofsMatchRoots sha256 history := by
  rintro asked hasked proved hproved seq root key served ⟨available, hroot⟩ ⟨available', hproof⟩
  have hkept : ∀ {entry : Entry State Act} {value : Hash}, entry ∈ history →
      entry.post.roots seq = some value → st.roots seq = some value :=
    fun hmem hpost => hrun.since (fun st => st.roots seq = some _)
      (fun _ hstep h => hstep.roots_stay h) hmem hpost
  have hstep := hrun.step_of_mem hasked
  rw [hroot] at hstep
  have hfirst := hkept hasked (roots_of_ok (ends_rootAt hstep))
  have hsecond := hkept hproved (foldsTo_recorded hrun hsettled hproved hproof)
  exact Option.some.inj (hsecond.symm.trans hfirst)

/-! ### The root as of a ledger -/

/-- The router's provable entries as of ledger `seq`. -/
def entriesAsOf (ledgers : Ledgers) (ibcContractId : Option Hash) (seq : UInt32) :
    Bytes → Option Bytes :=
  currentValue ((ledgerRange 0 seq).flatMap (ledgers.ops ibcContractId))

/-- The tree with every change up to ledger `seq`. -/
def treeAsOf (sha256 : Bytes → Hash) (ledgers : Ledgers) (ibcContractId : Option Hash)
    (seq : UInt32) : Smt :=
  ledgers.replay sha256 ibcContractId .new (ledgerRange 0 seq)

def rootAsOf (sha256 : Bytes → Hash) (ledgers : Ledgers) (ibcContractId : Option Hash)
    (seq : UInt32) : Hash :=
  (treeAsOf sha256 ledgers ibcContractId seq).root sha256

/-- That tree holds exactly the entries as of the ledger, over keys whose indices differ. -/
theorem treeAsOf_holds {keys : Set Bytes} (hindex : Set.InjOn (keyIndex sha256) keys)
    {seq : UInt32} (hkeys : ∀ n ≤ seq, ∀ op ∈ ledgers.ops ibcContractId n, op.key ∈ keys) :
    (treeAsOf sha256 ledgers ibcContractId seq).Holds sha256 keys
      (entriesAsOf ledgers ibcContractId seq) := by
  apply Smt.holds_ofOps hindex
  intro op hop
  obtain ⟨n, hn, hop⟩ := List.mem_flatMap.mp hop
  exact hkeys n (mem_ledgerRange.mp hn).2 op hop

/-- Ledgers after `seq` that change nothing leave the tree as of `seq`. -/
theorem treeAsOf_of_quiet {seq last : UInt32} (hle : seq ≤ last)
    (hquiet : ∀ n, seq < n → n ≤ last → ledgers.ops ibcContractId n = []) :
    treeAsOf sha256 ledgers ibcContractId last = treeAsOf sha256 ledgers ibcContractId seq := by
  by_cases hsame : seq = last
  · rw [hsame]
  · have hlt : seq < last := UInt32.lt_of_le_of_ne hle hsame
    unfold treeAsOf
    rw [← ledgerRange_append (UInt32.zero_le) hlt, Ledgers.replay_append]
    apply Ledgers.replay_of_quiet
    intro n hn
    obtain ⟨hfirst, hlast⟩ := mem_ledgerRange.mp hn
    rw [UInt32.le_iff_toNat_le, toNat_succ_of_lt hlt] at hfirst
    exact hquiet n (UInt32.lt_iff_toNat_lt.mpr hfirst) hlast

/-- Where no ledger before `seq` changes anything, the tree may start at `seq`. -/
theorem treeAsOf_of_quiet_before {seq : UInt32}
    (hquiet : ∀ n < seq, ledgers.ops ibcContractId n = []) :
    treeAsOf sha256 ledgers ibcContractId seq =
      ledgers.replay sha256 ibcContractId .new (ledgerRange seq seq) := by
  by_cases hzero : seq = 0
  · rw [treeAsOf, hzero]
  · have hone : 1 ≤ seq := by
      rw [UInt32.le_iff_toNat_le]
      have hne : seq.toNat ≠ 0 := fun h => hzero (UInt32.toNat_inj.mp h)
      exact Nat.one_le_iff_ne_zero.mpr hne
    have hlt : seq - 1 < seq := by
      rw [UInt32.lt_iff_toNat_lt, UInt32.toNat_sub_of_le _ _ hone]
      have hpos := UInt32.le_iff_toNat_le.mp hone
      exact Nat.sub_lt hpos Nat.one_pos
    have hrange : ledgerRange 0 seq = ledgerRange 0 (seq - 1) ++ ledgerRange seq seq := by
      rw [← ledgerRange_append UInt32.zero_le hlt, UInt32.sub_add_cancel]
    have hskip : ledgers.replay sha256 ibcContractId .new (ledgerRange 0 (seq - 1)) = .new := by
      apply Ledgers.replay_of_quiet
      intro n hn
      exact hquiet n (UInt32.lt_of_le_of_lt (mem_ledgerRange.mp hn).2 hlt)
    rw [treeAsOf, hrange, Ledgers.replay_append, hskip]

/-- The call for height `seq` loses and adds no entry: a first call finds no change before
its ledger, and a call for a ledger before the last replayed one finds none after it. -/
structure Timely (ledgers : Ledgers) (st : State) (seq : UInt32) : Prop where
  first : st.roots seq = none → st.lastProcessed = none →
    ∀ n < seq, ledgers.ops st.ibcContractId n = []
  older : st.roots seq = none → ∀ last, st.lastProcessed = some last →
    ∀ n, seq < n → n ≤ last → ledgers.ops st.ibcContractId n = []

theorem Timely.of_fresh {seq : UInt32} (hlast : st.lastProcessed = none)
    (hquiet : ∀ n < seq, ledgers.ops st.ibcContractId n = []) : Timely ledgers st seq := by
  refine ⟨fun _ _ => hquiet, ?_⟩
  intro _ last hsome
  rw [hlast] at hsome
  cases hsome

theorem Timely.of_newer {seq last : UInt32} (hlast : st.lastProcessed = some last)
    (hle : last ≤ seq) : Timely ledgers st seq := by
  refine ⟨?_, ?_⟩
  · intro _ hnone
    rw [hlast] at hnone
    cases hnone
  · intro _ last' hlast' n hseq hn
    obtain rfl := Option.some.inj (hlast.symm.trans hlast')
    exact absurd (UInt32.lt_of_lt_of_le hseq hn) (UInt32.not_lt.mpr hle)

/-- The tree and the roots are those of the ledgers. -/
structure Exact (sha256 : Bytes → Hash) (ledgers : Ledgers) (ibcContractId : Option Hash)
    (st : State) : Prop where
  contract : st.ibcContractId = ibcContractId
  fresh : st.lastProcessed = none → st.smt = .new
  tree : ∀ last, st.lastProcessed = some last →
    st.smt = treeAsOf sha256 ledgers ibcContractId last
  roots : ∀ seq root, st.roots seq = some root →
    root = rootAsOf sha256 ledgers ibcContractId seq

theorem Exact.recordRoot (hexact : Exact sha256 ledgers ibcContractId st) {seq : UInt32}
    (hroot : st.smt.root sha256 = rootAsOf sha256 ledgers ibcContractId seq) :
    Exact sha256 ledgers ibcContractId (st.recordRoot sha256 seq) := by
  refine ⟨hexact.contract, hexact.fresh, hexact.tree, ?_⟩
  intro s root hs
  rcases roots_recordRoot hs with hold | ⟨rfl, rfl⟩
  · exact hexact.roots s root hold
  · exact hroot

theorem Exact.rootStep {pre post : State} {seq : UInt32} {root : Hash}
    (hexact : Exact sha256 ledgers ibcContractId pre) (htimely : Timely ledgers pre seq)
    (h : RootStep sha256 ledgers seq pre (.ok root) post) :
    Exact sha256 ledgers ibcContractId post := by
  obtain ⟨hfirst, holder⟩ := htimely
  rw [hexact.contract] at hfirst holder
  cases h with
  | cached hroots => exact hexact
  | current hroots hstart =>
      obtain ⟨last, hlast, hle⟩ := State.replayStart_eq_none hstart
      apply hexact.recordRoot
      rw [hexact.tree last hlast, treeAsOf_of_quiet hle (holder hroots last hlast)]
      rfl
  | @replayed start middle hroots hstart hmiddle =>
      -- the replay continues the tree up to `seq`
      have htree : middle.smt = treeAsOf sha256 ledgers ibcContractId seq := by
        rw [hmiddle, State.replayed, hexact.contract]
        rcases State.replayStart_eq_some hstart with ⟨hnone, rfl⟩ | ⟨last, hlast, hlt, rfl⟩
        · rw [hexact.fresh hnone, treeAsOf_of_quiet_before (hfirst hroots hnone)]
        · rw [hexact.tree last hlast, treeAsOf, ← Ledgers.replay_append,
            ledgerRange_append UInt32.zero_le hlt, treeAsOf]
      have hmoved : Exact sha256 ledgers ibcContractId
          { middle with lastProcessed := some seq } := by
        subst hmiddle
        refine ⟨hexact.contract, ?_, ?_, hexact.roots⟩
        · rintro ⟨⟩
        · rintro last hlast
          obtain rfl := Option.some.inj hlast
          exact htree
      apply hmoved.recordRoot
      show middle.smt.root sha256 = _
      rw [htree]
      rfl

def Act.Succeeds : Act → Prop
  | .rootAt _ _ reply => ∃ root, reply = .ok root
  | .proofForPath _ _ _ reply => ∃ served, reply = .ok served

theorem Step.rootStep_ok (hstep : Step sha256 ledgers entry.pre entry.act entry.post)
    (hsucceeds : entry.act.Succeeds) :
    ∃ root, RootStep sha256 ledgers entry.act.seq entry.pre (.ok root) entry.post := by
  cases hact : entry.act with
  | rootAt available seq reply =>
      rw [hact] at hstep hsucceeds
      obtain ⟨root, rfl⟩ := hsucceeds
      exact ⟨root, ends_rootAt hstep⟩
  | proofForPath available seq key reply =>
      rw [hact] at hstep hsucceeds
      obtain ⟨served, rfl⟩ := hsucceeds
      obtain ⟨outcome, hroot, hserved⟩ := ends_servePath hstep
      obtain ⟨⟨root, rfl⟩, -⟩ := hserved served rfl
      exact ⟨root, hroot⟩

/-- A run of calls that all succeeded. -/
def Successful (history : List (Entry State Act)) : Prop :=
  ∀ entry ∈ history, entry.act.Succeeds

theorem exact_of_timely (hrun : Run sha256 ledgers ibcContractId history st)
    (hsucceeds : Successful history)
    (htimely : ∀ entry ∈ history, Timely ledgers entry.pre entry.act.seq) :
    Exact sha256 ledgers ibcContractId st := by
  revert hsucceeds htimely
  apply hrun.invariant (fun history st => Successful history →
    (∀ entry ∈ history, Timely ledgers entry.pre entry.act.seq) →
    Exact sha256 ledgers ibcContractId st)
  · rintro st rfl - -
    refine ⟨rfl, fun _ => rfl, ?_, ?_⟩
    · rintro last ⟨⟩
    · rintro seq root ⟨⟩
  · intro history last hprev ih hstep hsucceeds htimely
    unfold Successful at hsucceeds
    rw [List.forall_mem_append, List.forall_mem_singleton] at hsucceeds htimely
    obtain ⟨root, hroot⟩ := hstep.rootStep_ok hsucceeds.2
    exact (ih hsucceeds.1 htimely.1).rootStep htimely.2 hroot

/-- After two histories, a successful `root_at` returns the same root, that of the
entries as of its ledger. -/
def RootDetermined (sha256 : Bytes → Hash) (ledgers : Ledgers) (ibcContractId : Option Hash)
    (first second : State) (seq : UInt32) : Prop :=
  ∀ available available' root root' post post',
    Ends (Core.rootAt sha256 ledgers available seq) first (.ok root) post →
    Ends (Core.rootAt sha256 ledgers available' seq) second (.ok root') post' →
    root = root' ∧ root = rootAsOf sha256 ledgers ibcContractId seq

/-- **The state root is a function of the height**, after every two runs of successful
calls that lose and add no entry: the root of the tree that holds exactly the router's
provable entries as of the ledger. -/
theorem root_determined_of_timely {first second : List (Entry State Act)} {st st' : State}
    {seq : UInt32} (hrun : Run sha256 ledgers ibcContractId first st)
    (hrun' : Run sha256 ledgers ibcContractId second st')
    (hsucceeds : Successful first) (hsucceeds' : Successful second)
    (htimely : ∀ entry ∈ first, Timely ledgers entry.pre entry.act.seq)
    (htimely' : ∀ entry ∈ second, Timely ledgers entry.pre entry.act.seq)
    (hlast : Timely ledgers st seq) (hlast' : Timely ledgers st' seq) :
    RootDetermined sha256 ledgers ibcContractId st st' seq ∧
      ∀ keys : Set Bytes, Set.InjOn (keyIndex sha256) keys →
        (∀ n ≤ seq, ∀ op ∈ ledgers.ops ibcContractId n, op.key ∈ keys) →
        (treeAsOf sha256 ledgers ibcContractId seq).Holds sha256 keys
          (entriesAsOf ledgers ibcContractId seq) := by
  refine ⟨?_, fun keys hindex hkeys => treeAsOf_holds hindex hkeys⟩
  intro available available' root root' post post' hroot hroot'
  have hexact : ∀ {history : List (Entry State Act)} {st post : State} {root : Hash}
      {available : UInt32 → Bool}, Run sha256 ledgers ibcContractId history st →
      Successful history → (∀ entry ∈ history, Timely ledgers entry.pre entry.act.seq) →
      Timely ledgers st seq →
      Ends (Core.rootAt sha256 ledgers available seq) st (.ok root) post →
      root = rootAsOf sha256 ledgers ibcContractId seq := by
    intro history st post root available hrun hsucceeds htimely hlast hroot
    have hstep := ends_rootAt hroot
    have hpost := (exact_of_timely hrun hsucceeds htimely).rootStep hlast hstep
    exact hpost.roots seq root (roots_of_ok hstep)
  have hfirst := hexact hrun hsucceeds htimely hlast hroot
  have hsecond := hexact hrun' hsucceeds' htimely' hlast' hroot'
  exact ⟨hfirst.trans hsecond.symm, hfirst⟩

/-! ### Executing a run -/

/-- A call before it is made. -/
inductive Request where
  | rootAt (available : UInt32 → Bool) (seq : UInt32)
  | proofForPath (available : UInt32 → Bool) (seq : UInt32) (key : Bytes)

def execute (sha256 : Bytes → Hash) (ledgers : Ledgers) (st : State) :
    Request → Entry State Act
  | .rootAt available seq =>
      let ended := Fallible.execute (Core.rootAt sha256 ledgers available seq) st
      ⟨st, .rootAt available seq ended.1, ended.2⟩
  | .proofForPath available seq key =>
      let ended := Fallible.execute (servePath sha256 ledgers available seq key) st
      ⟨st, .proofForPath available seq key ended.1, ended.2⟩

/-- Make the calls one after the other on a new tracker. -/
def executeAll (sha256 : Bytes → Hash) (ledgers : Ledgers) (ibcContractId : Option Hash)
    (requests : List Request) : List (Entry State Act) × State :=
  feed (execute sha256 ledgers) [] (.new ibcContractId) requests

theorem execute_step (sha256 : Bytes → Hash) (ledgers : Ledgers) (st : State)
    (request : Request) :
    (execute sha256 ledgers st request).pre = st ∧
      Step sha256 ledgers st (execute sha256 ledgers st request).act
        (execute sha256 ledgers st request).post := by
  cases request with
  | rootAt available seq => exact ⟨rfl, ends_execute _ st⟩
  | proofForPath available seq key => exact ⟨rfl, ends_execute _ st⟩

theorem run_executeAll (sha256 : Bytes → Hash) (ledgers : Ledgers)
    (ibcContractId : Option Hash) (requests : List Request) :
    Run sha256 ledgers ibcContractId
      (executeAll sha256 ledgers ibcContractId requests).1
      (executeAll sha256 ledgers ibcContractId requests).2 := by
  have hstart : Run sha256 ledgers ibcContractId [] (.new ibcContractId) := .start rfl
  exact hstart.feed_of_step (execute_step sha256 ledgers) requests

/-! ### A chain with one commitment -/

def sampleRouter : Hash := .fill 32 9

def samplePath : Bytes := ascii "stellar-0" ++ 0x01 :: be64 1

def sampleValue : Bytes := List.replicate 32 7

/-- Ledger 2 writes one commitment of the router, the others write nothing. -/
def sampleLedgers : Ledgers := fun seq =>
  if seq = 2 then
    .decoded (.v1 [.v3 [] [[.created (.contractData
      ⟨.contract sampleRouter, .bytes samplePath, .bytes sampleValue⟩)]] []])
  else
    .missing

/-- The ledgers before and after the commitment change nothing. -/
theorem sampleLedgers_ops_of_ne {n : UInt32} (hn : n ≠ 2) :
    Ledgers.ops sampleLedgers (some sampleRouter) n = [] := by
  simp [Ledgers.ops, sampleLedgers, hn]

/-- The tree with that commitment. -/
def sampleTree : Smt := Smt.new.insert Sha256.sha256 samplePath sampleValue

def online : UInt32 → Bool := fun _ => true

/-- The proof of that commitment. -/
def sampleProof : Served :=
  .found ⟨Sha256.sha256 samplePath, Sha256.sha256 sampleValue,
    sampleTree.siblingsFor Sha256.sha256 (keyIndex Sha256.sha256 samplePath)⟩

theorem sampleTree_serve :
    sampleTree.serve Sha256.sha256 samplePath = some sampleProof := by
  have hleaf : sampleTree.leaves[keyIndex Sha256.sha256 samplePath]? =
      some (Sha256.sha256 samplePath, Sha256.sha256 sampleValue) := by
    have happly : sampleTree.leaves[keyIndex Sha256.sha256 samplePath]? =
        if keyIndex Sha256.sha256 samplePath = keyIndex Sha256.sha256 samplePath then
          some (Sha256.sha256 samplePath, Sha256.sha256 sampleValue)
        else Smt.new.leaves[keyIndex Sha256.sha256 samplePath]? :=
      Smt.leaves_apply Smt.new (.insert samplePath sampleValue) _
    rw [happly, if_pos rfl]
  rw [Smt.serve, Smt.generateMembershipProof_of_some hleaf]
  rfl

theorem sampleTree_root_ne : sampleTree.root Sha256.sha256 ≠ EMPTY := by
  unfold sampleTree
  rw [Sha256.sha256_eq_eval]
  decide +kernel

/-- A proof for a height whose root is recorded comes from the tree as it is. -/
theorem execute_servePath {available : UInt32 → Bool} {seq : UInt32} {key : Bytes}
    {root : Hash} {served : Served} (hroots : st.roots seq = some root)
    (hserve : st.smt.serve sha256 key = some served) :
    Fallible.execute (servePath sha256 ledgers available seq key) st = (.ok served, st) := by
  have hends : Ends (servePath sha256 ledgers available seq key) st (.ok served) st := by
    unfold servePath
    rw [ends_bind]
    refine .inl ⟨root, st, ?_, ?_⟩
    · unfold Core.rootAt
      simp [hroots]
    · simp [hserve]
  exact hends

/-- The tracker asked for the root before the commitment and for the root after it. -/
def afterCommitment : List (Entry State Act) × State :=
  executeAll Sha256.sha256 sampleLedgers (some sampleRouter)
    [.rootAt online 1, .rootAt online 2]

/-- Then it is asked for a proof at the height before. -/
def staleProof : Entry State Act :=
  execute Sha256.sha256 sampleLedgers afterCommitment.2 (.proofForPath online 1 samplePath)

set_option maxRecDepth 4000 in
theorem proofsMatchRoots_fails_on_older_height :
    Run Sha256.sha256 sampleLedgers (some sampleRouter) (afterCommitment.1 ++ [staleProof])
        staleProof.post ∧
      ¬ ProofsMatchRoots Sha256.sha256 (afterCommitment.1 ++ [staleProof]) := by
  have hbefore : Run Sha256.sha256 sampleLedgers (some sampleRouter) afterCommitment.1
      afterCommitment.2 := run_executeAll _ _ _ _
  obtain ⟨hpre, hstep⟩ := execute_step Sha256.sha256 sampleLedgers afterCommitment.2
    (.proofForPath online 1 samplePath)
  refine ⟨hbefore.extend hpre hstep, ?_⟩
  intro hmatch
  have htree : afterCommitment.2.smt = sampleTree := rfl
  have hasked : (execute Sha256.sha256 sampleLedgers (.new (some sampleRouter))
      (.rootAt online 1)).act = .rootAt online 1 (.ok EMPTY) := rfl
  have hserve : afterCommitment.2.smt.serve Sha256.sha256 samplePath = some sampleProof := by
    rw [htree]
    exact sampleTree_serve
  have hroots : afterCommitment.2.roots 1 = some EMPTY := rfl
  have hended : Fallible.execute (servePath Sha256.sha256 sampleLedgers online 1 samplePath)
      afterCommitment.2 = (.ok sampleProof, afterCommitment.2) :=
    execute_servePath hroots hserve
  have hproved : staleProof.act = .proofForPath online 1 samplePath (.ok sampleProof) :=
    congrArg (fun ended => Act.proofForPath online 1 samplePath (Prod.fst ended)) hended
  have hfirst : execute Sha256.sha256 sampleLedgers (.new (some sampleRouter))
      (.rootAt online 1) ∈ afterCommitment.1 := List.mem_cons_self ..
  have hfold := hmatch _ (List.mem_append_left _ hfirst) staleProof (by simp) 1 EMPTY
    samplePath sampleProof ⟨online, hasked⟩ ⟨online, hproved⟩
  rw [Smt.foldsTo_of_serve hserve, htree] at hfold
  exact sampleTree_root_ne hfold

/-- In a run of one call and quiet ones after it, every proof is settled. -/
theorem proofsSettled_of_quiet {first : Entry State Act} {rest : List (Entry State Act)}
    (hquiet : ∀ entry ∈ rest, Quiet ledgers entry) :
    ProofsSettled ledgers (first :: rest) := by
  intro before asked middle proved after hsplit _ _ entry hentry
  apply hquiet
  cases before with
  | nil =>
      obtain ⟨-, rfl⟩ := List.cons.inj hsplit
      exact List.mem_append_left _ hentry
  | cons head before =>
      obtain ⟨-, rfl⟩ := List.cons.inj hsplit
      simp [hentry]

/-- The root with the commitment, the root one ledger later, and a proof for the first. -/
def settledRequests : List Request :=
  [.rootAt online 2, .rootAt online 3, .proofForPath online 2 samplePath]

set_option maxRecDepth 4000 in
theorem proofs_match_roots_sample :
    (executeAll Sha256.sha256 sampleLedgers (some sampleRouter) settledRequests).2.smt =
        sampleTree ∧
      ProofsMatchRoots Sha256.sha256
        (executeAll Sha256.sha256 sampleLedgers (some sampleRouter) settledRequests).1 := by
  refine ⟨rfl, proofs_match_roots_of_settled (run_executeAll _ _ _ _) ?_⟩
  have hlater : ∀ n, 2 < n → Ledgers.ops sampleLedgers (some sampleRouter) n = [] :=
    fun n hn => sampleLedgers_ops_of_ne (UInt32.ne_of_lt hn).symm
  apply proofsSettled_of_quiet
  intro entry hentry
  rcases List.mem_cons.mp hentry with rfl | hentry
  · exact quiet_of_past rfl hlater
  · obtain rfl := List.mem_singleton.mp hentry
    have hlast : ∀ n, 3 < n → Ledgers.ops sampleLedgers (some sampleRouter) n = [] :=
      fun n hn => hlater n (UInt32.lt_trans (by decide) hn)
    exact quiet_of_past rfl hlast

/-- A tracker asked for the roots of the ledgers `seqs`. -/
def followed (seqs : List UInt32) : List (Entry State Act) × State :=
  executeAll Sha256.sha256 sampleLedgers (some sampleRouter) (seqs.map (.rootAt online))

set_option maxRecDepth 4000 in
theorem rootDetermined_fails_after_restart :
    (∀ seqs, Run Sha256.sha256 sampleLedgers (some sampleRouter) (followed seqs).1
        (followed seqs).2) ∧
      Successful (followed [2]).1 ∧
      ¬ RootDetermined Sha256.sha256 sampleLedgers (some sampleRouter) (followed []).2
        (followed [2]).2 3 := by
  refine ⟨fun seqs => run_executeAll _ _ _ _, ?_, ?_⟩
  · intro entry hentry
    obtain rfl := List.mem_singleton.mp hentry
    exact ⟨_, rfl⟩
  · intro hdetermined
    have hfresh : Ends (Core.rootAt Sha256.sha256 sampleLedgers online 3) (followed []).2
        (.ok EMPTY) _ := ends_execute _ _
    have hfollowed : Ends (Core.rootAt Sha256.sha256 sampleLedgers online 3)
        (followed [2]).2 (.ok (sampleTree.root Sha256.sha256)) _ := ends_execute _ _
    have hsame := (hdetermined online online _ _ _ _ hfresh hfollowed).1
    exact sampleTree_root_ne hsame.symm

set_option maxRecDepth 4000 in
theorem root_determined_sample :
    (followed [1, 2]).2.smt = sampleTree ∧
      RootDetermined Sha256.sha256 sampleLedgers (some sampleRouter) (followed [2]).2
        (followed [1, 2]).2 3 := by
  have hquiet : ∀ seq ≤ 2, ∀ n < seq, Ledgers.ops sampleLedgers (some sampleRouter) n = [] :=
    fun seq hseq n hn =>
      sampleLedgers_ops_of_ne (UInt32.ne_of_lt (UInt32.lt_of_lt_of_le hn hseq))
  refine ⟨rfl, (root_determined_of_timely (run_executeAll _ _ _ _) (run_executeAll _ _ _ _)
    ?_ ?_ ?_ ?_ (.of_newer rfl (by decide)) (.of_newer rfl (by decide))).1⟩
  · exact List.forall_mem_singleton.mpr ⟨_, rfl⟩
  · exact List.forall_mem_cons.mpr ⟨⟨_, rfl⟩, List.forall_mem_singleton.mpr ⟨_, rfl⟩⟩
  · exact List.forall_mem_singleton.mpr (.of_fresh rfl (hquiet 2 (by decide)))
  · refine List.forall_mem_cons.mpr ⟨.of_fresh rfl (hquiet 1 (by decide)), ?_⟩
    exact List.forall_mem_singleton.mpr (.of_newer rfl (by decide))

end Tracker

end StellarIbc.Core
