import StellarIbc.CoreProof
import StellarIbc.Fallible
import StellarIbc.ScVal

/-!
# The gateway's state tracker

`crates/core/src/ibc/state.rs` with the conversions it uses: the tracker replays the
changes that ledgers made to the router's entries into one tree, remembers the root it
answered for each height and serves proofs from the tree.  A call that fails while it
replays leaves the ledgers before the failure in the tree.  What the ledger API answers
is a parameter, with the XDR of the metadata decoded.
-/

namespace StellarIbc.Core

open Fallible

/-! ### Ledger metadata -/

/-- `ScAddress`; addresses other than those of contracts are not told apart. -/
inductive ScAddress where
  | contract (hash : Hash)
  | other

structure ContractDataEntry where
  contract : ScAddress
  key : ScVal
  val : ScVal

inductive LedgerEntryData where
  | contractData (entry : ContractDataEntry)
  | other

structure LedgerKeyContractData where
  contract : ScAddress
  key : ScVal

inductive LedgerKey where
  | contractData (key : LedgerKeyContractData)
  | other

inductive LedgerEntryChange where
  | created (data : LedgerEntryData)
  | updated (data : LedgerEntryData)
  | removed (key : LedgerKey)
  | state (data : LedgerEntryData)
  | restored (data : LedgerEntryData)

/-- An operation's metadata is the list of its changes. -/
abbrev OperationMeta := List LedgerEntryChange

inductive TransactionMeta where
  | v0 (operations : List OperationMeta)
  | v1 (txChanges : List LedgerEntryChange) (operations : List OperationMeta)
  | v2 (txChangesBefore : List LedgerEntryChange) (operations : List OperationMeta)
      (txChangesAfter : List LedgerEntryChange)
  | v3 (txChangesBefore : List LedgerEntryChange) (operations : List OperationMeta)
      (txChangesAfter : List LedgerEntryChange)
  | v4 (txChangesBefore : List LedgerEntryChange) (operations : List OperationMeta)
      (txChangesAfter : List LedgerEntryChange)

inductive LedgerCloseMeta where
  | v0 (txProcessing : List TransactionMeta)
  | v1 (txProcessing : List TransactionMeta)
  | v2 (txProcessing : List TransactionMeta)

/-- The metadata `get_ledger` answers with, after `LedgerCloseMeta::from_xdr`. -/
inductive LedgerMetadata where
  | missing
  | undecodable
  | decoded (closeMeta : LedgerCloseMeta)

def collectTxChanges : TransactionMeta → List LedgerEntryChange
  | .v0 operations => operations.flatten
  | .v1 txChanges operations => txChanges ++ operations.flatten
  | .v2 before operations after => before ++ operations.flatten ++ after
  | .v3 before operations after => before ++ operations.flatten ++ after
  | .v4 before operations after => before ++ operations.flatten ++ after

def ledgerChanges : LedgerCloseMeta → List LedgerEntryChange
  | .v0 txProcessing => txProcessing.flatMap collectTxChanges
  | .v1 txProcessing => txProcessing.flatMap collectTxChanges
  | .v2 txProcessing => txProcessing.flatMap collectTxChanges

/-! ### Provable entries of a ledger -/

def scvalAsBytes : ScVal → Option Bytes
  | .bytes value => some value
  | _ => none

def isV2ProvablePath (key : Bytes) : Bool :=
  if key.length < 10 then false
  else
    let discriminator := key.getD (key.length - 9) 0
    0x01 ≤ discriminator && discriminator ≤ 0x03

def scvalToV2Path (key : ScVal) : Option Bytes :=
  (scvalAsBytes key).filter isV2ProvablePath

/-- `State`; the API client is a parameter of its methods. -/
structure State where
  roots : UInt32 → Option Hash
  ibcContractId : Option Hash
  smt : Smt
  lastProcessed : Option UInt32

namespace State

def new (ibcContractId : Option Hash) : State where
  roots _ := none
  ibcContractId := ibcContractId
  smt := .new
  lastProcessed := none

/-- `matches` of the source. -/
def matchesContract (ibcContractId : Option Hash) (addr : ScAddress) : Bool :=
  match addr with
  | .contract hash =>
      match ibcContractId with
      | none => true
      | some id => decide (hash = id)
  | .other => false

variable (sha256 : Bytes → Hash)

def applyContractDataWrite (st : State) (data : LedgerEntryData) (isUpdate : Bool) : State :=
  match data with
  | .contractData d =>
      if matchesContract st.ibcContractId d.contract = false then st
      else
        match scvalToV2Path d.key, scvalAsBytes d.val with
        | some path, some value =>
            if isUpdate then { st with smt := st.smt.update sha256 path value }
            else { st with smt := st.smt.insert sha256 path value }
        | _, _ => st
  | .other => st

/-- `apply`; whether a change was applied is only logged. -/
def apply (st : State) : LedgerEntryChange → State
  | .created data => st.applyContractDataWrite sha256 data false
  | .updated data => st.applyContractDataWrite sha256 data true
  | .removed (.contractData key) =>
      if matchesContract st.ibcContractId key.contract = false then st
      else
        match scvalToV2Path key.key with
        | some path => { st with smt := st.smt.remove sha256 path }
        | none => st
  | _ => st

end State

/-! ### The methods -/

inductive StateError where
  | getLedger (seq : UInt32)
  | metaDecode
  | proofUnavailable
deriving DecidableEq, Repr

abbrev TrackerM := Fallible StateError State

/-- The metadata of every ledger of the chain. -/
abbrev Ledgers := UInt32 → LedgerMetadata

/-- The proof that `proof_for_path` generates and then serialises. -/
inductive Served where
  | found (proof : MembershipProof)
  | absent (proof : NonMembershipProof)

def Smt.serve (sha256 : Bytes → Hash) (smt : Smt) (key : Bytes) : Option Served :=
  match smt.generateMembershipProof sha256 key with
  | some proof => some (.found proof)
  | none => (smt.generateNonMembershipProof sha256 key).map .absent

def Served.lookup (sha256 : Bytes → Hash) (key : Bytes) : Served → PathLookup
  | .found proof =>
      .found proof.valueHash (serializeMembershipProofWithIndex proof key proof.valueHash.val
        (keyIndex sha256 key))
  | .absent proof =>
      .absent (serializeNonMembershipProofWithIndex proof key (keyIndex sha256 key))

/-- Where the replay up to `seq` starts; none when the tree is at `seq` or past it. -/
def State.replayStart (st : State) (seq : UInt32) : Option UInt32 :=
  match st.lastProcessed with
  | some last => if seq ≤ last then none else some (last + 1)
  | none => some seq

theorem State.replayStart_eq_some {st : State} {seq start : UInt32}
    (h : st.replayStart seq = some start) :
    (st.lastProcessed = none ∧ start = seq) ∨
      ∃ last, st.lastProcessed = some last ∧ last < seq ∧ start = last + 1 := by
  unfold State.replayStart at h
  cases hlast : st.lastProcessed with
  | none =>
      rw [hlast] at h
      exact .inl ⟨rfl, (Option.some.inj h).symm⟩
  | some last =>
      simp only [hlast, Option.ite_none_left_eq_some, Option.some.injEq] at h
      exact .inr ⟨last, rfl, UInt32.not_le.mp h.1, h.2.symm⟩

theorem State.replayStart_eq_none {st : State} {seq : UInt32}
    (h : st.replayStart seq = none) : ∃ last, st.lastProcessed = some last ∧ seq ≤ last := by
  unfold State.replayStart at h
  cases hlast : st.lastProcessed with
  | none =>
      rw [hlast] at h
      cases h
  | some last =>
      simp only [hlast, ite_eq_left_iff, reduceCtorEq, imp_false, not_not] at h
      exact ⟨last, rfl, h⟩

/-- `start..=seq`. -/
def ledgerRange (start seq : UInt32) : List UInt32 :=
  (List.range' start.toNat (seq.toNat + 1 - start.toNat)).map UInt32.ofNat

theorem mem_ledgerRange {start seq n : UInt32} :
    n ∈ ledgerRange start seq ↔ start ≤ n ∧ n ≤ seq := by
  simp only [ledgerRange, List.mem_map, List.mem_range'_1, UInt32.le_iff_toNat_le]
  constructor
  · rintro ⟨i, ⟨hstart, hseq⟩, rfl⟩
    have hlt := seq.toNat_lt
    rw [UInt32.toNat_ofNat_of_lt' (by omega : i < 2 ^ 32)]
    omega
  · rintro ⟨hstart, hseq⟩
    exact ⟨n.toNat, ⟨hstart, by omega⟩, UInt32.ofNat_toNat⟩

theorem toNat_succ_of_lt {last seq : UInt32} (h : last < seq) :
    (last + 1).toNat = last.toNat + 1 := by
  have hlt := seq.toNat_lt
  rw [UInt32.lt_iff_toNat_lt] at h
  rw [UInt32.toNat_add]
  exact Nat.mod_eq_of_lt (by simp only [UInt32.toNat_one]; omega)

/-- A range continues where a shorter one ends. -/
theorem ledgerRange_append {start last seq : UInt32} (hstart : start ≤ last)
    (hlast : last < seq) :
    ledgerRange start last ++ ledgerRange (last + 1) seq = ledgerRange start seq := by
  have hnext := toNat_succ_of_lt hlast
  rw [UInt32.le_iff_toNat_le] at hstart
  rw [UInt32.lt_iff_toNat_lt] at hlast
  have hle : start.toNat ≤ last.toNat + 1 := by omega
  obtain ⟨first, hfirst⟩ := Nat.exists_eq_add_of_le hle
  obtain ⟨second, hsecond⟩ := Nat.exists_eq_add_of_lt hlast
  have hseq : seq.toNat + 1 = start.toNat + (first + (second + 1)) := by omega
  unfold ledgerRange
  rw [← List.map_append, hnext, hseq, hfirst, Nat.add_sub_cancel_left, Nat.add_sub_cancel_left,
    ← Nat.add_assoc, Nat.add_sub_cancel_left, List.range'_append_1]

section

variable (sha256 : Bytes → Hash) (ledgers : Ledgers)

/-- `self.roots.insert(seq, self.smt.root())`. -/
def State.recordRoot (st : State) (seq : UInt32) : State :=
  { st with roots := Function.update st.roots seq (some (st.smt.root sha256)) }

/-- `available` says which requests for a ledger the API answers in this call. -/
def applyLedger (available : UInt32 → Bool) (seq : UInt32) : TrackerM Unit := do
  let metadata ← orThrow (.getLedger seq) (if available seq then some (ledgers seq) else none)
  match metadata with
  | .decoded closeMeta =>
      modify fun st => (ledgerChanges closeMeta).foldl (State.apply sha256) st
  | .undecodable => throw .metaDecode
  | .missing => pure ()

def processThrough (available : UInt32 → Bool) (seq : UInt32) : TrackerM Hash := do
  match (← get).replayStart seq with
  | none =>
      modify fun st => st.recordRoot sha256 seq
      return (← get).smt.root sha256
  | some start =>
      (ledgerRange start seq).forM (applyLedger sha256 ledgers available)
      modify fun st => { st with lastProcessed := some seq }
      modify fun st => st.recordRoot sha256 seq
      return (← get).smt.root sha256

def rootAt (available : UInt32 → Bool) (seq : UInt32) : TrackerM Hash := do
  match (← get).roots seq with
  | some root => return root
  | none => processThrough sha256 ledgers available seq

/-- `proof_for_path` up to the serialisation of the proof. -/
def servePath (available : UInt32 → Bool) (seq : UInt32) (key : Bytes) : TrackerM Served := do
  let _ ← rootAt sha256 ledgers available seq
  orThrow .proofUnavailable ((← get).smt.serve sha256 key)

def proofForPath (available : UInt32 → Bool) (seq : UInt32) (key : Bytes) :
    TrackerM PathLookup := do
  let served ← servePath sha256 ledgers available seq key
  return served.lookup sha256 key

end

/-! ### Replayed ledgers -/

/-- What a change does to the tree. -/
def changeOp (ibcContractId : Option Hash) : LedgerEntryChange → Option Op
  | .created (.contractData d) =>
      if State.matchesContract ibcContractId d.contract then do
        return .insert (← scvalToV2Path d.key) (← scvalAsBytes d.val)
      else none
  | .updated (.contractData d) =>
      if State.matchesContract ibcContractId d.contract then do
        return .update (← scvalToV2Path d.key) (← scvalAsBytes d.val)
      else none
  | .removed (.contractData key) =>
      if State.matchesContract ibcContractId key.contract then
        (scvalToV2Path key.key).map .remove
      else none
  | _ => none

/-- The changes of a ledger to the router's provable entries, in order. -/
def Ledgers.ops (ledgers : Ledgers) (ibcContractId : Option Hash) (seq : UInt32) : List Op :=
  match ledgers seq with
  | .decoded closeMeta => (ledgerChanges closeMeta).filterMap (changeOp ibcContractId)
  | _ => []

/-- The tree after the ledgers `seqs`. -/
def Ledgers.replay (sha256 : Bytes → Hash) (ledgers : Ledgers) (ibcContractId : Option Hash)
    (smt : Smt) (seqs : List UInt32) : Smt :=
  (seqs.flatMap (ledgers.ops ibcContractId)).foldl (Smt.apply sha256) smt

section

variable {sha256 : Bytes → Hash} {ledgers : Ledgers} {ibcContractId : Option Hash}
variable {available : UInt32 → Bool}

theorem State.apply_eq (st : State) (change : LedgerEntryChange) :
    st.apply sha256 change =
      { st with
        smt := (changeOp st.ibcContractId change).elim st.smt (st.smt.apply sha256) } := by
  cases change with
  | created data | updated data =>
      cases data with
      | other => rfl
      | contractData d =>
          simp only [State.apply, State.applyContractDataWrite, changeOp]
          cases hmatch : State.matchesContract st.ibcContractId d.contract with
          | false => rfl
          | true =>
              cases scvalToV2Path d.key with
              | none => rfl
              | some path => cases scvalAsBytes d.val <;> rfl
  | removed key =>
      cases key with
      | other => rfl
      | contractData key =>
          simp only [State.apply, changeOp]
          cases hmatch : State.matchesContract st.ibcContractId key.contract with
          | false => rfl
          | true => cases scvalToV2Path key.key <;> rfl
  | state data => rfl
  | restored data => rfl

theorem State.foldl_apply (changes : List LedgerEntryChange) (st : State) :
    changes.foldl (State.apply sha256) st =
      { st with
        smt := (changes.filterMap (changeOp st.ibcContractId)).foldl (Smt.apply sha256)
          st.smt } := by
  induction changes generalizing st with
  | nil => rfl
  | cons change changes ih =>
      rw [List.foldl_cons, ih, State.apply_eq]
      cases hop : changeOp st.ibcContractId change with
      | none => simp [hop]
      | some op => simp [hop]

/-- The tracker after the ledgers `seqs` were replayed into its tree. -/
def State.replayed (sha256 : Bytes → Hash) (ledgers : Ledgers) (st : State)
    (seqs : List UInt32) : State :=
  { st with smt := ledgers.replay sha256 st.ibcContractId st.smt seqs }

theorem Ledgers.replay_append (smt : Smt) (first second : List UInt32) :
    ledgers.replay sha256 ibcContractId smt (first ++ second) =
      ledgers.replay sha256 ibcContractId (ledgers.replay sha256 ibcContractId smt first)
        second := by
  simp only [Ledgers.replay, List.flatMap_append, List.foldl_append]

theorem State.replayed_append (st : State) (first second : List UInt32) :
    st.replayed sha256 ledgers (first ++ second) =
      (st.replayed sha256 ledgers first).replayed sha256 ledgers second := by
  simp only [State.replayed, Ledgers.replay_append]

@[simp] theorem State.recordRoot_self (st : State) (seq : UInt32) :
    (st.recordRoot sha256 seq).roots seq = some (st.smt.root sha256) :=
  Function.update_self ..

theorem State.recordRoot_of_ne (st : State) {s seq : UInt32} (h : s ≠ seq) :
    (st.recordRoot sha256 seq).roots s = st.roots s :=
  Function.update_of_ne h ..

/-- Ledgers that change no provable entry leave the tree as it was. -/
theorem Ledgers.replay_of_quiet {smt : Smt} {seqs : List UInt32}
    (hquiet : ∀ n ∈ seqs, ledgers.ops ibcContractId n = []) :
    ledgers.replay sha256 ibcContractId smt seqs = smt := by
  have hops : seqs.flatMap (ledgers.ops ibcContractId) = [] := by
    rw [List.flatMap_eq_nil_iff]
    exact hquiet
  rw [Ledgers.replay, hops, List.foldl_nil]

/-! ### How the methods end -/

/-- A ledger is replayed as a whole or not at all. -/
theorem ends_applyLedger {seq : UInt32} {pre post : State} {outcome : Except StateError Unit}
    (h : Ends (applyLedger sha256 ledgers available seq) pre outcome post) :
    (outcome = .ok () ∧ post = pre.replayed sha256 ledgers [seq]) ∨
    (∃ error, outcome = .error error) ∧ post = pre := by
  unfold applyLedger at h
  cases havailable : available seq with
  | false =>
      simp only [havailable, Bool.false_eq_true, if_false, ends_none_bind] at h
      exact .inr ⟨⟨_, h.1⟩, h.2⟩
  | true =>
      simp only [havailable, if_true, ends_some_bind] at h
      cases hledger : ledgers seq with
      | missing =>
          simp only [hledger, ends_pure] at h
          refine .inl ⟨h.1, h.2.trans ?_⟩
          simp [State.replayed, Ledgers.replay, Ledgers.ops, hledger]
      | undecodable =>
          simp only [hledger, ends_throw] at h
          exact .inr ⟨⟨_, h.1⟩, h.2⟩
      | decoded closeMeta =>
          simp only [hledger, ends_modify, State.foldl_apply] at h
          refine .inl ⟨h.1, h.2.trans ?_⟩
          simp [State.replayed, Ledgers.replay, Ledgers.ops, hledger]

/-- The loop replays all ledgers, or those before the one it fails at. -/
theorem ends_applyLedgers {seqs : List UInt32} {pre post : State}
    {outcome : Except StateError PUnit}
    (h : Ends (seqs.forM (applyLedger sha256 ledgers available)) pre outcome post) :
    (outcome = .ok ⟨⟩ ∧ post = pre.replayed sha256 ledgers seqs) ∨
    (∃ error, outcome = .error error) ∧
      ∃ done, done <+: seqs ∧ post = pre.replayed sha256 ledgers done := by
  induction seqs generalizing pre with
  | nil =>
      simp only [List.forM_eq_forM, List.forM_nil, ends_pure] at h
      exact .inl h
  | cons seq seqs ih =>
      simp only [List.forM_eq_forM, List.forM_cons] at h
      rcases ends_bind.mp h with ⟨_, middle, hfirst, hrest⟩ | ⟨error, hfirst, houtcome⟩
      · rcases ends_applyLedger hfirst with ⟨-, hmiddle⟩ | ⟨⟨error, herror⟩, -⟩
        · subst hmiddle
          rcases ih hrest with ⟨hok, hpost⟩ | ⟨herror, done, hdone, hpost⟩
          · refine .inl ⟨hok, ?_⟩
            rw [hpost, ← State.replayed_append, List.singleton_append]
          · refine .inr ⟨herror, seq :: done, List.cons_prefix_cons.mpr ⟨rfl, hdone⟩, ?_⟩
            rw [hpost, ← State.replayed_append, List.singleton_append]
        · cases herror
      · rcases ends_applyLedger hfirst with ⟨hok, -⟩ | ⟨-, hsame⟩
        · cases hok
        · exact .inr ⟨⟨error, houtcome⟩, [], List.nil_prefix, hsame⟩

/-- A ledger that is answered and decodes is replayed. -/
theorem applyLedger_ok {seq : UInt32} (havailable : available seq = true)
    (hdecodes : ledgers seq ≠ .undecodable) (pre : State) :
    Ends (applyLedger sha256 ledgers available seq) pre (.ok ())
      (pre.replayed sha256 ledgers [seq]) := by
  unfold applyLedger
  simp only [havailable, if_true, ends_some_bind]
  cases hledger : ledgers seq with
  | missing =>
      rw [ends_pure]
      exact ⟨rfl, by simp [State.replayed, Ledgers.replay, Ledgers.ops, hledger]⟩
  | undecodable => exact absurd hledger hdecodes
  | decoded closeMeta =>
      rw [ends_modify, State.foldl_apply]
      exact ⟨rfl, by simp [State.replayed, Ledgers.replay, Ledgers.ops, hledger]⟩

theorem applyLedgers_ok {seqs : List UInt32} (havailable : ∀ seq ∈ seqs, available seq = true)
    (hdecodes : ∀ seq ∈ seqs, ledgers seq ≠ .undecodable) (pre : State) :
    Ends (seqs.forM (applyLedger sha256 ledgers available)) pre (.ok ⟨⟩)
      (pre.replayed sha256 ledgers seqs) := by
  induction seqs generalizing pre with
  | nil =>
      rw [List.forM_eq_forM, List.forM_nil, ends_pure]
      exact ⟨rfl, rfl⟩
  | cons seq seqs ih =>
      obtain ⟨hfirst, hrest⟩ := List.forall_mem_cons.mp havailable
      obtain ⟨hfirstDecodes, hrestDecodes⟩ := List.forall_mem_cons.mp hdecodes
      simp only [List.forM_eq_forM, List.forM_cons]
      refine ends_bind.mpr (.inl ⟨(), _, applyLedger_ok hfirst hfirstDecodes pre, ?_⟩)
      have hloop := ih hrest hrestDecodes (pre.replayed sha256 ledgers [seq])
      rwa [← State.replayed_append] at hloop

/-- Everything a call of `root_at` can do. -/
inductive RootStep (sha256 : Bytes → Hash) (ledgers : Ledgers) (seq : UInt32) (pre : State) :
    Except StateError Hash → State → Prop
  | cached {root : Hash} (hroots : pre.roots seq = some root) :
      RootStep sha256 ledgers seq pre (.ok root) pre
  | current (hroots : pre.roots seq = none) (hstart : pre.replayStart seq = none) :
      RootStep sha256 ledgers seq pre (.ok (pre.smt.root sha256)) (pre.recordRoot sha256 seq)
  | replayed {start : UInt32} {middle : State} (hroots : pre.roots seq = none)
      (hstart : pre.replayStart seq = some start)
      (hmiddle : middle = pre.replayed sha256 ledgers (ledgerRange start seq)) :
      RootStep sha256 ledgers seq pre (.ok (middle.smt.root sha256))
        ({ middle with lastProcessed := some seq }.recordRoot sha256 seq)
  | failed {start : UInt32} {done : List UInt32} {error : StateError}
      (hroots : pre.roots seq = none) (hstart : pre.replayStart seq = some start)
      (hdone : done <+: ledgerRange start seq) :
      RootStep sha256 ledgers seq pre (.error error) (pre.replayed sha256 ledgers done)

theorem ends_processThrough {seq : UInt32} {pre post : State}
    {outcome : Except StateError Hash} (hroots : pre.roots seq = none)
    (h : Ends (processThrough sha256 ledgers available seq) pre outcome post) :
    RootStep sha256 ledgers seq pre outcome post := by
  unfold processThrough at h
  rw [ends_get_bind] at h
  cases hstart : pre.replayStart seq with
  | none =>
      simp only [hstart, ends_modify_bind, ends_get_bind, ends_pure] at h
      obtain ⟨rfl, rfl⟩ := h
      exact .current hroots hstart
  | some start =>
      simp only [hstart] at h
      rcases ends_bind.mp h with ⟨_, middle, hloop, hrest⟩ | ⟨error, hloop, houtcome⟩
      · rcases ends_applyLedgers hloop with ⟨-, hmiddle⟩ | ⟨⟨error, herror⟩, -⟩
        · simp only [ends_modify_bind, ends_get_bind, ends_pure] at hrest
          obtain ⟨rfl, rfl⟩ := hrest
          exact .replayed hroots hstart hmiddle
        · cases herror
      · rcases ends_applyLedgers hloop with ⟨hok, -⟩ | ⟨-, done, hdone, rfl⟩
        · cases hok
        · rw [houtcome]
          exact .failed hroots hstart hdone

theorem ends_rootAt {seq : UInt32} {pre post : State} {outcome : Except StateError Hash}
    (h : Ends (rootAt sha256 ledgers available seq) pre outcome post) :
    RootStep sha256 ledgers seq pre outcome post := by
  unfold rootAt at h
  rw [ends_get_bind] at h
  cases hroots : pre.roots seq with
  | some root =>
      simp only [hroots, ends_pure] at h
      obtain ⟨rfl, rfl⟩ := h
      exact .cached hroots
  | none =>
      simp only [hroots] at h
      exact ends_processThrough hroots h

/-- A path is served from the tree that `root_at` left. -/
theorem ends_servePath {seq : UInt32} {key : Bytes} {pre post : State}
    {outcome : Except StateError Served}
    (h : Ends (servePath sha256 ledgers available seq key) pre outcome post) :
    ∃ root, RootStep sha256 ledgers seq pre root post ∧
      ∀ served, outcome = .ok served → (∃ value, root = .ok value) ∧
        post.smt.serve sha256 key = some served := by
  unfold servePath at h
  rcases ends_bind.mp h with ⟨root, middle, hroot, hserve⟩ | ⟨error, hroot, rfl⟩
  · rw [ends_get_bind, ends_orThrow] at hserve
    obtain ⟨rfl, rfl⟩ := hserve
    refine ⟨_, ends_rootAt hroot, ?_⟩
    intro served hserved
    refine ⟨⟨root, rfl⟩, ?_⟩
    cases hfound : post.smt.serve sha256 key with
    | none => simp [hfound] at hserved
    | some found => simpa [hfound] using hserved
  · refine ⟨_, ends_rootAt hroot, ?_⟩
    rintro served ⟨⟩

end

end StellarIbc.Core
