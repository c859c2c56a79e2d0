import StellarIbc.StateRoots

/-!
# Replay after failures

A call that fails while it replays a range leaves the ledgers before the failure in the
tree and the mark of the last replayed ledger where it was, so the next call replays them
again, over a tree that may already hold later ones.  What the tree holds there does not
matter: every operation sets its leaf whatever was in it, so once the whole range has been
replayed only the leaves the range never writes still come from before, and those no
failure changed.  While the heights asked for do not decrease, a root is therefore that of
each ledger replayed once.
-/

namespace StellarIbc.Core

open Fallible

/-! ### Trees that agree where nothing is written -/

section

variable {sha256 : Bytes → Hash} {left right : Smt} {op : Op} {ops : List Op}

/-- The trees have the same leaves, except perhaps where `ops` write. -/
def Smt.AgreesOff (sha256 : Bytes → Hash) (ops : List Op) (left right : Smt) : Prop :=
  ∀ i, (∀ op ∈ ops, keyIndex sha256 op.key ≠ i) → left.leaves[i]? = right.leaves[i]?

theorem Smt.AgreesOff.refl (smt : Smt) : smt.AgreesOff sha256 ops smt :=
  fun _ _ => rfl

theorem Smt.AgreesOff.mono {more : List Op} (hmore : ops ⊆ more)
    (h : left.AgreesOff sha256 ops right) : left.AgreesOff sha256 more right :=
  fun i hi => h i fun op hop => hi op (hmore hop)

theorem Smt.AgreesOff.root_eq (h : left.AgreesOff sha256 [] right) :
    left.root sha256 = right.root sha256 := by
  have hleaves : left.leafAt sha256 = right.leafAt sha256 := by
    funext i
    simp only [Smt.leafAt, h (UInt64.ofNat i) (by simp)]
  rw [Smt.root_eq, Smt.root_eq, Smt.node, Smt.node, hleaves]

/-- An operation sets its leaf, whatever was there before. -/
theorem Smt.AgreesOff.apply (h : left.AgreesOff sha256 (op :: ops) right) :
    (left.apply sha256 op).AgreesOff sha256 ops (right.apply sha256 op) := by
  intro i hi
  rw [Smt.leaves_apply, Smt.leaves_apply]
  by_cases hindex : keyIndex sha256 op.key = i
  · rw [if_pos hindex, if_pos hindex]
  · rw [if_neg hindex, if_neg hindex]
    exact h i (List.forall_mem_cons.mpr ⟨hindex, hi⟩)

theorem Smt.AgreesOff.foldl (h : left.AgreesOff sha256 ops right) :
    (ops.foldl (Smt.apply sha256) left).AgreesOff sha256 []
      (ops.foldl (Smt.apply sha256) right) := by
  induction ops generalizing left right with
  | nil => exact h
  | cons op ops ih => exact ih h.apply

/-- Operations among `ops` change nothing where `ops` write nothing. -/
theorem Smt.AgreesOff.written {done : List Op} (hdone : done ⊆ ops)
    (h : left.AgreesOff sha256 ops right) :
    (done.foldl (Smt.apply sha256) left).AgreesOff sha256 ops right := by
  induction done generalizing left with
  | nil => exact h
  | cons op done ih =>
      obtain ⟨hop, hrest⟩ := List.cons_subset.mp hdone
      apply ih hrest
      intro i hi
      rw [Smt.leaves_apply, if_neg (hi op hop)]
      exact h i hi

end

section

variable {sha256 : Bytes → Hash} {ledgers : Ledgers} {ibcContractId : Option Hash}
variable {available : UInt32 → Bool}

theorem ledgerRange_self (seq : UInt32) : ledgerRange seq seq = [seq] := by
  simp [ledgerRange]

theorem Ledgers.replay_agrees {left right : Smt} {seqs : List UInt32}
    (h : left.AgreesOff sha256 (seqs.flatMap (ledgers.ops ibcContractId)) right) :
    (ledgers.replay sha256 ibcContractId left seqs).AgreesOff sha256 []
      (ledgers.replay sha256 ibcContractId right seqs) :=
  h.foldl

theorem flatMap_ops_subset {done seqs : List UInt32} (hdone : done ⊆ seqs) :
    done.flatMap (ledgers.ops ibcContractId) ⊆ seqs.flatMap (ledgers.ops ibcContractId) := by
  intro op hop
  obtain ⟨n, hn, hmem⟩ := List.mem_flatMap.mp hop
  exact List.mem_flatMap.mpr ⟨n, hdone hn, hmem⟩

/-! ### Which calls replayed -/

theorem applyLedger_error {seq : UInt32} {pre post : State} {error : StateError}
    (h : Ends (applyLedger sha256 ledgers available seq) pre (.error error) post) :
    error ≠ .proofUnavailable := by
  unfold applyLedger at h
  cases havailable : available seq with
  | false =>
      simp only [havailable, Bool.false_eq_true, if_false, ends_none_bind, Except.error.injEq]
        at h
      rw [h.1]
      simp
  | true =>
      simp only [havailable, if_true, ends_some_bind] at h
      cases hledger : ledgers seq with
      | missing => simp [hledger] at h
      | undecodable =>
          simp only [hledger, ends_throw, Except.error.injEq] at h
          rw [h.1]
          simp
      | decoded closeMeta => simp [hledger] at h

theorem applyLedgers_error {seqs : List UInt32} {pre post : State} {error : StateError}
    (h : Ends (seqs.forM (applyLedger sha256 ledgers available)) pre (.error error) post) :
    error ≠ .proofUnavailable := by
  induction seqs generalizing pre with
  | nil => simp [List.forM_eq_forM] at h
  | cons seq seqs ih =>
      simp only [List.forM_eq_forM, List.forM_cons] at h
      rcases ends_bind.mp h with ⟨_, middle, -, hrest⟩ | ⟨error', hfirst, herror⟩
      · exact ih hrest
      · obtain rfl := Except.error.inj herror
        exact applyLedger_error hfirst

/-- `root_at` only fails inside the loop over the ledgers. -/
theorem rootAt_failed {seq : UInt32} {pre post : State} {error : StateError}
    (h : Ends (rootAt sha256 ledgers available seq) pre (.error error) post) :
    ∃ start, pre.replayStart seq = some start ∧
      Ends ((ledgerRange start seq).forM (applyLedger sha256 ledgers available)) pre
        (.error error) post := by
  unfold rootAt at h
  rw [ends_get_bind] at h
  cases hroots : pre.roots seq with
  | some root => simp [hroots] at h
  | none =>
      simp only [hroots, processThrough, ends_get_bind] at h
      cases hstart : pre.replayStart seq with
      | none =>
          simp only [hstart, ends_modify_bind, ends_get_bind, ends_pure, reduceCtorEq,
            false_and] at h
      | some start =>
          simp only [hstart] at h
          refine ⟨start, rfl, ?_⟩
          rcases ends_bind.mp h with ⟨_, middle, -, hrest⟩ | ⟨error', hloop, herror⟩
          · simp only [ends_modify_bind, ends_get_bind, ends_pure, reduceCtorEq,
              false_and] at hrest
          · obtain rfl := Except.error.inj herror
            exact hloop

theorem rootAt_error {seq : UInt32} {pre post : State} {error : StateError}
    (h : Ends (rootAt sha256 ledgers available seq) pre (.error error) post) :
    error ≠ .proofUnavailable := by
  obtain ⟨start, -, hloop⟩ := rootAt_failed h
  exact applyLedgers_error hloop

/-- On a new tracker the range is one ledger, so a call that fails replays nothing. -/
theorem rootAt_failed_fresh {seq : UInt32} {pre post : State} {error : StateError}
    (hlast : pre.lastProcessed = none)
    (h : Ends (rootAt sha256 ledgers available seq) pre (.error error) post) :
    post = pre := by
  obtain ⟨start, hstart, hloop⟩ := rootAt_failed h
  have hself : pre.replayStart seq = some seq := by
    simp [State.replayStart, hlast]
  obtain rfl := Option.some.inj (hself.symm.trans hstart)
  simp only [ledgerRange_self, List.forM_eq_forM, List.forM_cons, List.forM_nil] at hloop
  rcases ends_bind.mp hloop with ⟨_, middle, -, hrest⟩ | ⟨error', hledger, -⟩
  · simp at hrest
  · rcases ends_applyLedger hledger with ⟨hok, -⟩ | ⟨-, hsame⟩
    · cases hok
    · exact hsame

end

namespace Tracker

/-- The call's replay succeeded, also where no proof was available after it. -/
def Act.replays : Act → Bool
  | .rootAt _ _ (.ok _) => true
  | .proofForPath _ _ _ (.ok _) => true
  | .proofForPath _ _ _ (.error .proofUnavailable) => true
  | _ => false

/-- The height of the first call whose replay succeeded. -/
def firstReplayed (history : List (Entry State Act)) : Option UInt32 :=
  (history.find? fun entry => entry.act.replays).map fun entry => entry.act.seq

variable {sha256 : Bytes → Hash} {ledgers : Ledgers} {ibcContractId : Option Hash}
variable {history : List (Entry State Act)} {entry : Entry State Act} {st : State}

theorem firstReplayed_append (history : List (Entry State Act)) (entry : Entry State Act) :
    firstReplayed (history ++ [entry]) =
      (firstReplayed history).or (if entry.act.replays then some entry.act.seq else none) := by
  unfold firstReplayed
  rw [List.find?_append, Option.map_or, List.find?_singleton]
  cases entry.act.replays with
  | false => rfl
  | true => rfl

/-- Every call is a call of `root_at` first, and it replayed if that one did. -/
theorem Step.rootAt (hstep : Step sha256 ledgers entry.pre entry.act entry.post) :
    ∃ available outcome,
      Ends (Core.rootAt sha256 ledgers available entry.act.seq) entry.pre outcome entry.post ∧
        (entry.act.replays = true ↔ ∃ root, outcome = .ok root) := by
  cases hact : entry.act with
  | rootAt available seq reply =>
      rw [hact] at hstep
      refine ⟨available, reply, hstep, ?_⟩
      cases reply with
      | ok root => simp [Act.replays]
      | error error => simp [Act.replays]
  | proofForPath available seq key reply =>
      rw [hact] at hstep
      have hserve : Ends (servePath sha256 ledgers available seq key) entry.pre reply
        entry.post := hstep
      unfold servePath at hserve
      rcases ends_bind.mp hserve with ⟨root, middle, hroot, hrest⟩ | ⟨error, hroot, rfl⟩
      · rw [ends_get_bind, ends_orThrow] at hrest
        obtain ⟨rfl, rfl⟩ := hrest
        refine ⟨available, _, hroot, ?_⟩
        cases entry.post.smt.serve sha256 key with
        | none => simp [Act.replays]
        | some served => simp [Act.replays]
      · refine ⟨available, _, hroot, ?_⟩
        have hne := rootAt_error hroot
        cases error with
        | proofUnavailable => exact absurd rfl hne
        | getLedger seq => simp [Act.replays]
        | metaDecode => simp [Act.replays]

/-! ### The tree between successful replays -/

/-- The tree of the ledgers from `first` to `seq`, each replayed once. -/
def treeFrom (sha256 : Bytes → Hash) (ledgers : Ledgers) (ibcContractId : Option Hash)
    (first seq : UInt32) : Smt :=
  ledgers.replay sha256 ibcContractId .new (ledgerRange first seq)

/-- Before the first successful replay the tracker is as new. -/
structure Untouched (ibcContractId : Option Hash) (st : State) : Prop where
  contract : st.ibcContractId = ibcContractId
  processed : st.lastProcessed = none
  tree : st.smt = .new
  roots : ∀ seq, st.roots seq = none

/-- After it, the tree is that of the last replayed ledger, except perhaps where the
ledgers up to `top` write, which calls that failed may have replayed. -/
structure Advanced (sha256 : Bytes → Hash) (ledgers : Ledgers) (ibcContractId : Option Hash)
    (first last top : UInt32) (st : State) : Prop where
  contract : st.ibcContractId = ibcContractId
  processed : st.lastProcessed = some last
  ordered : first ≤ last ∧ last ≤ top
  recorded : st.roots last ≠ none
  tree : st.smt.AgreesOff sha256
    ((ledgerRange (last + 1) top).flatMap (ledgers.ops ibcContractId))
    (treeFrom sha256 ledgers ibcContractId first last)
  roots : ∀ seq root, st.roots seq = some root →
    root = (treeFrom sha256 ledgers ibcContractId first seq).root sha256

theorem Advanced.of_replay {st : State} {first seq : UInt32}
    (hcontract : st.ibcContractId = ibcContractId) (hle : first ≤ seq)
    (htree : st.smt.AgreesOff sha256 [] (treeFrom sha256 ledgers ibcContractId first seq))
    (hroots : ∀ seq root, st.roots seq = some root →
      root = (treeFrom sha256 ledgers ibcContractId first seq).root sha256) :
    Advanced sha256 ledgers ibcContractId first seq seq
      ({ st with lastProcessed := some seq }.recordRoot sha256 seq) := by
  refine ⟨hcontract, rfl, ⟨hle, UInt32.le_refl _⟩, ?_, ?_, ?_⟩
  · rw [State.recordRoot_self]
    simp
  · exact htree.mono (List.nil_subset _)
  · intro s root hroot
    rcases roots_recordRoot hroot with hold | ⟨rfl, rfl⟩
    · exact hroots s root hold
    · exact htree.root_eq

theorem Untouched.replayed {pre post : State} {seq : UInt32} {root : Hash}
    (huntouched : Untouched ibcContractId pre)
    (h : RootStep sha256 ledgers seq pre (.ok root) post) :
    Advanced sha256 ledgers ibcContractId seq seq seq post := by
  cases h with
  | cached hroots =>
      rw [huntouched.roots seq] at hroots
      cases hroots
  | current hroots hstart =>
      obtain ⟨last, hlast, -⟩ := State.replayStart_eq_none hstart
      rw [huntouched.processed] at hlast
      cases hlast
  | @replayed start middle hroots hstart hmiddle =>
      rcases State.replayStart_eq_some hstart with ⟨-, rfl⟩ | ⟨last, hlast, -⟩
      · subst hmiddle
        refine .of_replay huntouched.contract (UInt32.le_refl _) ?_ ?_
        · rw [State.replayed, huntouched.contract, huntouched.tree]
          exact .refl _
        · intro s root hroot
          have hnone := huntouched.roots s
          rw [State.replayed] at hroot
          rw [hnone] at hroot
          cases hroot
      · rw [huntouched.processed] at hlast
        cases hlast

theorem Advanced.widen {first last top seq : UInt32} (hle : top ≤ seq)
    (h : Advanced sha256 ledgers ibcContractId first last top st) :
    Advanced sha256 ledgers ibcContractId first last seq st := by
  refine ⟨h.contract, h.processed, ⟨h.ordered.1, UInt32.le_trans h.ordered.2 hle⟩, h.recorded,
    h.tree.mono ?_, h.roots⟩
  apply flatMap_ops_subset
  intro n hn
  obtain ⟨hfirst, htop⟩ := mem_ledgerRange.mp hn
  exact mem_ledgerRange.mpr ⟨hfirst, UInt32.le_trans htop hle⟩

/-- A call for the largest height so far keeps the tree, whether it fails or not. -/
theorem Advanced.rootStep {pre post : State} {first last seq : UInt32}
    {outcome : Except StateError Hash}
    (hadvanced : Advanced sha256 ledgers ibcContractId first last seq pre)
    (h : RootStep sha256 ledgers seq pre outcome post) :
    ∃ last', Advanced sha256 ledgers ibcContractId first last' seq post := by
  cases h with
  | cached hroots => exact ⟨last, hadvanced⟩
  | current hroots hstart =>
      -- the tree is at `seq` already, so its root is recorded
      obtain ⟨last', hlast, hle⟩ := State.replayStart_eq_none hstart
      obtain rfl := Option.some.inj (hadvanced.processed.symm.trans hlast)
      obtain rfl := UInt32.le_antisymm hle hadvanced.ordered.2
      exact absurd hroots hadvanced.recorded
  | @replayed start middle hroots hstart hmiddle =>
      rcases State.replayStart_eq_some hstart with ⟨hnone, -⟩ | ⟨last', hlast, hlt, rfl⟩
      · rw [hadvanced.processed] at hnone
        cases hnone
      · obtain rfl := Option.some.inj (hadvanced.processed.symm.trans hlast)
        subst hmiddle
        refine ⟨seq, .of_replay hadvanced.contract
          (UInt32.le_trans hadvanced.ordered.1 hadvanced.ordered.2) ?_ hadvanced.roots⟩
        have hagree := Ledgers.replay_agrees hadvanced.tree
        rw [treeFrom, ← Ledgers.replay_append,
          ledgerRange_append hadvanced.ordered.1 hlt] at hagree
        rw [State.replayed, hadvanced.contract]
        exact hagree
  | @failed start done error hroots hstart hdone =>
      rcases State.replayStart_eq_some hstart with ⟨hnone, -⟩ | ⟨last', hlast, -, rfl⟩
      · rw [hadvanced.processed] at hnone
        cases hnone
      · obtain rfl := Option.some.inj (hadvanced.processed.symm.trans hlast)
        refine ⟨last, hadvanced.contract, hadvanced.processed, hadvanced.ordered,
          hadvanced.recorded, ?_, hadvanced.roots⟩
        rw [State.replayed, hadvanced.contract]
        exact hadvanced.tree.written (flatMap_ops_subset hdone.subset)

/-! ### Runs -/

/-- The calls ask for heights that do not decrease. -/
def Ascending (history : List (Entry State Act)) : Prop :=
  history.Pairwise fun earlier later => earlier.act.seq ≤ later.act.seq

/-- What the tracker is after `history`. -/
structure Resumes (sha256 : Bytes → Hash) (ledgers : Ledgers) (ibcContractId : Option Hash)
    (history : List (Entry State Act)) (st : State) : Prop where
  before : firstReplayed history = none → Untouched ibcContractId st
  after : ∀ first, firstReplayed history = some first →
    ∃ last, ∃ called ∈ history,
      Advanced sha256 ledgers ibcContractId first last called.act.seq st

theorem Resumes.step (hascending : Ascending (history ++ [entry]))
    (hresumes : Resumes sha256 ledgers ibcContractId history entry.pre)
    (hstep : Step sha256 ledgers entry.pre entry.act entry.post) :
    Resumes sha256 ledgers ibcContractId (history ++ [entry]) entry.post := by
  obtain ⟨available, outcome, hends, hreplays⟩ := hstep.rootAt
  have hroot := ends_rootAt hends
  have hlater : ∀ earlier ∈ history, earlier.act.seq ≤ entry.act.seq := by
    intro earlier hearlier
    exact (List.pairwise_append.mp hascending).2.2 earlier hearlier entry (by simp)
  cases hfirst : firstReplayed history with
  | none =>
      have huntouched := hresumes.before hfirst
      cases houtcome : outcome with
      | ok root =>
          rw [houtcome] at hroot
          have hyes : entry.act.replays = true := hreplays.mpr ⟨root, houtcome⟩
          constructor
          · intro hnone
            simp [firstReplayed_append, hfirst, hyes] at hnone
          · intro first hsome
            simp only [firstReplayed_append, hfirst, hyes, if_true, Option.none_or,
              Option.some.injEq] at hsome
            subst hsome
            exact ⟨entry.act.seq, entry, by simp, huntouched.replayed hroot⟩
      | error error =>
          rw [houtcome] at hends
          have hno : entry.act.replays = false := by
            rw [← Bool.not_eq_true, hreplays, houtcome]
            simp
          have hsame := rootAt_failed_fresh huntouched.processed hends
          constructor
          · intro _
            rw [hsame]
            exact huntouched
          · intro first hsome
            simp [firstReplayed_append, hfirst, hno] at hsome
  | some first =>
      obtain ⟨last, called, hcalled, hadvanced⟩ := hresumes.after first hfirst
      obtain ⟨last', hpost⟩ := (hadvanced.widen (hlater called hcalled)).rootStep hroot
      have hsame : firstReplayed (history ++ [entry]) = some first := by
        simp [firstReplayed_append, hfirst]
      constructor
      · intro hnone
        rw [hsame] at hnone
        cases hnone
      · intro first' hsome
        obtain rfl := Option.some.inj (hsame.symm.trans hsome)
        exact ⟨last', entry, by simp, hpost⟩

theorem resumes_of_run (hrun : Run sha256 ledgers ibcContractId history st)
    (hascending : Ascending history) : Resumes sha256 ledgers ibcContractId history st := by
  revert hascending
  apply hrun.invariant (fun history st => Ascending history →
    Resumes sha256 ledgers ibcContractId history st)
  · rintro st rfl -
    refine ⟨fun _ => ⟨rfl, rfl, rfl, fun _ => rfl⟩, ?_⟩
    rintro first ⟨⟩
  · intro history last hprev ih hstep hascending
    exact (ih (List.pairwise_append.mp hascending).1).step hascending hstep

theorem firstReplayed_of_mem_append {first : UInt32} {after : List (Entry State Act)}
    (h : firstReplayed history = some first) :
    firstReplayed (history ++ after) = some first := by
  unfold firstReplayed at h ⊢
  rw [List.find?_append, Option.map_or, h, Option.some_or]

/-- **Replay survives failures.**  Every root answered for `seq` is that of the ledgers
from the first successful replay to `seq`, replayed once each in order into the empty tree,
although calls may have failed at any ledger in between. -/
theorem root_survives_failures (hrun : Run sha256 ledgers ibcContractId history st)
    (hascending : Ascending history) (hmem : entry ∈ history)
    {available : UInt32 → Bool} {seq : UInt32} {root : Hash}
    (hact : entry.act = .rootAt available seq (.ok root)) :
    ∃ first, firstReplayed history = some first ∧
      root = (ledgers.replay sha256 ibcContractId .new (ledgerRange first seq)).root sha256 := by
  obtain ⟨before, after, rfl⟩ := List.append_of_mem hmem
  obtain ⟨hbefore, hstep⟩ := hrun.split rfl
  rw [List.append_cons] at hascending
  have hprefix := (List.pairwise_append.mp hascending).1
  have hpost := (resumes_of_run hbefore (List.pairwise_append.mp hprefix).1).step hprefix hstep
  rw [hact] at hstep
  have hrecorded := roots_of_ok (ends_rootAt hstep)
  cases hfirst : firstReplayed (before ++ [entry]) with
  | none =>
      rw [(hpost.before hfirst).roots seq] at hrecorded
      cases hrecorded
  | some first =>
      obtain ⟨last, called, -, hadvanced⟩ := hpost.after first hfirst
      refine ⟨first, ?_, hadvanced.roots seq root hrecorded⟩
      rw [List.append_cons]
      exact firstReplayed_of_mem_append hfirst

/-- The API answers for every ledger but the third. -/
def thirdMissing : UInt32 → Bool := fun n => n != 3

/-- A call that fails at ledger 3 after it has replayed the commitment of ledger 2. -/
def interrupted : List (Entry State Act) × State :=
  executeAll Sha256.sha256 sampleLedgers (some sampleRouter)
    [.rootAt online 1, .rootAt thirdMissing 4]

/-- The same call once the API answers. -/
def resumed : Entry State Act :=
  execute Sha256.sha256 sampleLedgers interrupted.2 (.rootAt online 4)

set_option maxRecDepth 4000 in
theorem root_survives_failures_interrupted :
    (interrupted.1.map fun entry => entry.act.replays) = [true, false] ∧
      ∃ root, resumed.act = .rootAt online 4 (.ok root) ∧
      ∃ first, firstReplayed (interrupted.1 ++ [resumed]) = some first ∧
        root = (Ledgers.replay Sha256.sha256 sampleLedgers (some sampleRouter) .new
          (ledgerRange first 4)).root Sha256.sha256 := by
  have hrun : Run Sha256.sha256 sampleLedgers (some sampleRouter) interrupted.1
      interrupted.2 := run_executeAll _ _ _ _
  obtain ⟨hpre, hstep⟩ := execute_step Sha256.sha256 sampleLedgers interrupted.2
    (.rootAt online 4)
  have hascending : Ascending (interrupted.1 ++ [resumed]) := by
    have hheights : (interrupted.1 ++ [resumed]).map (fun entry => entry.act.seq) =
        [1, 4, 4] := rfl
    rw [Ascending, ← List.pairwise_map (R := (· ≤ ·)), hheights]
    decide
  refine ⟨rfl, _, rfl, root_survives_failures (hrun.extend hpre hstep) hascending
    (List.mem_append_right _ (List.mem_singleton_self _)) rfl⟩

end Tracker

end StellarIbc.Core
