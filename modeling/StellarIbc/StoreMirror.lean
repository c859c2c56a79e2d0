import StellarIbc.CoreCommitment
import StellarIbc.LedgerLayout
import StellarIbc.Trace

/-!
# The tree mirrors the router's provable store

The router writes provable entries under byte string keys, everything else under
`DataKey`s, and the ledger reports each write as an entry change somewhere in the metadata
of a transaction.  The gateway sees only the changes: it keeps those of the router whose key
has the shape of a v2 path and replays them into its tree.  Over any run of the router's
writes the tree then holds exactly the provable entries, and the paths that the core crate
builds find the entries that the router filed under the paths it built itself.
-/

namespace StellarIbc.Mirror

open Contract Fallible StellarIbc.Core
open Router (Storage RouterM commitmentKey receiptKey ackKey pathBytes)

/-! ### What the router writes -/

/-- `DataKey` of the router. -/
inductive DataKey where
  | admin
  | nextClientId (clientType : HostString)
  | clientTypeAddr (clientType : HostString)
  | clientType (clientId : HostString)
  | clientLcAddr (clientId : HostString)
  | counterparty (clientId : HostString)
  | frozen (clientId : HostString)
  | port (portId : HostString)
  | nextSeqSend (clientId : HostString)

/-- The key of the ledger entry that holds the value. -/
def DataKey.ledgerKey : DataKey → ScVal
  -- the admin is in the contract's instance entry, `SCV_LEDGER_KEY_CONTRACT_INSTANCE`
  | .admin => .other 20 []
  | .nextClientId id => .vec [.symbol (ascii "NextClientId"), .string id]
  | .clientTypeAddr id => .vec [.symbol (ascii "ClientTypeAddr"), .string id]
  | .clientType id => .vec [.symbol (ascii "ClientType"), .string id]
  | .clientLcAddr id => .vec [.symbol (ascii "ClientLcAddr"), .string id]
  | .counterparty id => .vec [.symbol (ascii "Counterparty"), .string id]
  | .frozen id => .vec [.symbol (ascii "Frozen"), .string id]
  | .port id => .vec [.symbol (ascii "Port"), .string id]
  | .nextSeqSend id => .vec [.symbol (ascii "NextSeqSend"), .string id]

/-- The writes of `ibc_store.rs`. -/
inductive ProvableWrite where
  | packetCommitment (sourceClientId : HostString) (sequence : UInt64) (commitment : Hash)
  | packetReceipt (destClientId : HostString) (sequence : UInt64)
  | ackCommitment (destClientId : HostString) (sequence : UInt64) (ackHash : Hash)

namespace ProvableWrite

def clientId : ProvableWrite → HostString
  | .packetCommitment clientId _ _ | .packetReceipt clientId _ | .ackCommitment clientId _ _ =>
      clientId

def exec : ProvableWrite → RouterM Unit Unit
  | .packetCommitment clientId sequence commitment =>
      Router.setPacketCommitment clientId sequence commitment
  | .packetReceipt clientId sequence => Router.setPacketReceipt clientId sequence
  | .ackCommitment clientId sequence ackHash =>
      Router.setAckCommitment clientId sequence ackHash

/-- The path builder that the write calls for its key. -/
def path : ProvableWrite → RouterM Unit Bytes
  | .packetCommitment clientId sequence _ => Router.packetCommitmentPath clientId sequence
  | .packetReceipt clientId sequence => Router.packetReceiptPath clientId sequence
  | .ackCommitment clientId sequence _ => Router.ackCommitmentPath clientId sequence

def value : ProvableWrite → Bytes
  | .packetCommitment _ _ commitment => commitment.val
  | .packetReceipt _ _ => [Router.RECEIPT_SENTINEL]
  | .ackCommitment _ _ ackHash => ackHash.val

end ProvableWrite

/-! ### What the ledger reports -/

/-- The data of an entry of the router. -/
def routerEntry (routerId : Hash) (key val : ScVal) : LedgerEntryData :=
  .contractData ⟨.contract routerId, key, val⟩

/-- The ledger reports the write of `data`. -/
def Written (change : LedgerEntryChange) (data : LedgerEntryData) : Prop :=
  change = .created data ∨ change = .updated data

/-- A change of another contract or of another entry type.  `State` and `Restored` report no
write. -/
def Foreign (routerId : Hash) : LedgerEntryChange → Prop
  | .created (.contractData d) | .updated (.contractData d) => d.contract ≠ .contract routerId
  | .removed (.contractData key) => key.contract ≠ .contract routerId
  | _ => True

/-- A change of the entry of a `DataKey`. -/
def OfDataKey (routerId : Hash) (change : LedgerEntryChange) : Prop :=
  ∃ key : DataKey,
    (∃ val, Written change (routerEntry routerId key.ledgerKey val)) ∨
      change = .removed (.contractData ⟨.contract routerId, key.ledgerKey⟩)

/-- A step: the provable path it wrote, if any, and the changes the ledger reports. -/
structure Act where
  written : Option Bytes
  changes : List LedgerEntryChange

/-- A call that starts with `storage` and has recorded nothing. -/
def start (storage : Storage) : Router.Ctx Unit := ⟨storage, (), []⟩

def ValidId (clientId : HostString) : Prop := 1 ≤ clientId.length ∧ clientId.length ≤ 119

inductive Step (routerId : Hash) (pre : Storage) : Act → Storage → Prop
  | write {write : ProvableWrite} {path : Bytes} {change : LedgerEntryChange} {post : Storage}
      (hid : ValidId write.clientId)
      (hpath : Returns write.path (start pre) path (start pre))
      (hexec : Returns write.exec (start pre) () (start post))
      (hchange : Written change (routerEntry routerId (.bytes path) (.bytes write.value))) :
      Step routerId pre ⟨some path, [change]⟩ post
  | delete {c : HostString} {n : UInt64} {path : Bytes} {post : Storage} (hid : ValidId c)
      (hpath : Returns (Router.packetCommitmentPath c n) (start pre) path (start pre))
      (hpresent : pre.provable path ≠ none)
      (hexec : Returns (Router.deletePacketCommitment c n) (start pre) () (start post)) :
      Step routerId pre
        ⟨none, [.removed (.contractData ⟨.contract routerId, .bytes path⟩)]⟩ post
  /-- The ledger has nothing to report when there was no entry. -/
  | deleteAbsent {c : HostString} {n : UInt64} {path : Bytes} {post : Storage}
      (hid : ValidId c)
      (hpath : Returns (Router.packetCommitmentPath c n) (start pre) path (start pre))
      (habsent : pre.provable path = none)
      (hexec : Returns (Router.deletePacketCommitment c n) (start pre) () (start post)) :
      Step routerId pre ⟨none, []⟩ post
  | dataKey {change : LedgerEntryChange} {post : Storage} (hchange : OfDataKey routerId change)
      (hprovable : post.provable = pre.provable) :
      Step routerId pre ⟨none, [change]⟩ post
  | elsewhere {change : LedgerEntryChange} (hforeign : Foreign routerId change) :
      Step routerId pre ⟨none, [change]⟩ pre

def Init (storage : Storage) : Prop := storage.provable = fun _ => none

abbrev Run (routerId : Hash) : List (Entry Storage Act) → Storage → Prop :=
  Reach Init (Step routerId)

/-- The provable paths that a run wrote. -/
def writtenPaths (history : List (Entry Storage Act)) : Set Bytes :=
  { path | ∃ entry ∈ history, entry.act.written = some path }

def reportedChanges (history : List (Entry Storage Act)) : List LedgerEntryChange :=
  history.flatMap (·.act.changes)

/-! ### What one step does -/

namespace ProvableWrite

/-- The key of the write in closed form. -/
def key : ProvableWrite → Bytes
  | .packetCommitment clientId sequence _ => commitmentKey clientId sequence
  | .packetReceipt clientId sequence => receiptKey clientId sequence
  | .ackCommitment clientId sequence _ => ackKey clientId sequence

variable {write : ProvableWrite} {pre post : Router.Ctx Unit}

theorem eq_key_of_returns {path : Bytes} (h : Returns write.path pre path post) :
    path = write.key := by
  cases write with
  | packetCommitment clientId sequence commitment => exact (Router.returns_v2PathKey.mp h).2.1
  | packetReceipt clientId sequence => exact (Router.returns_v2PathKey.mp h).2.1
  | ackCommitment clientId sequence ackHash => exact (Router.returns_v2PathKey.mp h).2.1

theorem storage_of_returns (h : Returns write.exec pre () post) :
    post.storage = pre.storage.write write.key write.value := by
  cases write with
  | packetCommitment clientId sequence commitment =>
      rw [Router.returns_setPacketCommitment h]
      rfl
  | packetReceipt clientId sequence =>
      rw [Router.returns_setPacketReceipt h]
      rfl
  | ackCommitment clientId sequence ackHash =>
      rw [Router.returns_setAckCommitment h]
      rfl

theorem length_key (write : ProvableWrite) : write.key.length = write.clientId.length + 9 := by
  cases write with
  | packetCommitment id sequence commitment => simp [key, clientId, commitmentKey, pathBytes]
  | packetReceipt id sequence => simp [key, clientId, receiptKey, pathBytes]
  | ackCommitment id sequence ackHash => simp [key, clientId, ackKey, pathBytes]

theorem value_ne_nil (write : ProvableWrite) : write.value ≠ [] := by
  have hhash : ∀ hash : Hash, hash.val ≠ [] := by
    intro hash hnil
    have hlength := hash.property
    rw [hnil] at hlength
    cases hlength
  cases write with
  | packetCommitment clientId sequence commitment => exact hhash commitment
  | packetReceipt clientId sequence => exact List.cons_ne_nil _ _
  | ackCommitment clientId sequence ackHash => exact hhash ackHash

end ProvableWrite

/-- The shape filter accepts what the path builders make of a client id that is not empty. -/
theorem isV2ProvablePath_pathBytes {c : HostString} {d : UInt8} {n : UInt64}
    (hc : 1 ≤ c.length) (hd : 1 ≤ d ∧ d ≤ 3) :
    isV2ProvablePath (pathBytes c d n) = true := by
  have hlength : (pathBytes c d n).length = c.length + 9 := by simp [pathBytes]
  have hdisc : (pathBytes c d n).getD (c.length + 9 - 9) 0 = d := by simp [pathBytes]
  have hlong : ¬ c.length + 9 < 10 := by omega
  simp only [isV2ProvablePath, hlength, hdisc, if_neg hlong]
  simpa using hd

theorem scvalToV2Path_pathBytes {c : HostString} {d : UInt8} {n : UInt64} (hc : ValidId c)
    (hd : 1 ≤ d ∧ d ≤ 3) :
    scvalToV2Path (.bytes (pathBytes c d n)) = some (pathBytes c d n) := by
  simp [scvalToV2Path, scvalAsBytes, isV2ProvablePath_pathBytes hc.1 hd]

theorem scvalToV2Path_key {write : ProvableWrite} (hid : ValidId write.clientId) :
    scvalToV2Path (.bytes write.key) = some write.key := by
  cases write with
  | packetCommitment clientId sequence commitment =>
      exact scvalToV2Path_pathBytes hid (by decide)
  | packetReceipt clientId sequence => exact scvalToV2Path_pathBytes hid (by decide)
  | ackCommitment clientId sequence ackHash => exact scvalToV2Path_pathBytes hid (by decide)

section

variable {routerId : Hash} {change : LedgerEntryChange}

theorem changeOp_written {write : ProvableWrite} (hid : ValidId write.clientId)
    (h : Written change (routerEntry routerId (.bytes write.key) (.bytes write.value))) :
    ∃ op, changeOp (some routerId) change = some op ∧ op.key = write.key ∧
      op.value = some write.value := by
  have hmatches : State.matchesContract (some routerId) (.contract routerId) = true := by
    simp [State.matchesContract]
  rcases h with rfl | rfl
  · refine ⟨.insert write.key write.value, ?_, rfl, if_neg write.value_ne_nil⟩
    simp [changeOp, routerEntry, hmatches, scvalToV2Path_key hid, scvalAsBytes]
  · refine ⟨.update write.key write.value, ?_, rfl, if_neg write.value_ne_nil⟩
    simp [changeOp, routerEntry, hmatches, scvalToV2Path_key hid, scvalAsBytes]

theorem changeOp_removed {c : HostString} {n : UInt64} (hid : ValidId c) :
    changeOp (some routerId)
      (.removed (.contractData ⟨.contract routerId, .bytes (commitmentKey c n)⟩)) =
        some (.remove (commitmentKey c n)) := by
  have hpath : scvalToV2Path (.bytes (commitmentKey c n)) = some (commitmentKey c n) :=
    scvalToV2Path_pathBytes hid (by decide)
  simp [changeOp, State.matchesContract, hpath]

theorem scvalToV2Path_ledgerKey (key : DataKey) : scvalToV2Path key.ledgerKey = none := by
  cases key <;> rfl

theorem changeOp_ofDataKey (h : OfDataKey routerId change) :
    changeOp (some routerId) change = none := by
  obtain ⟨key, ⟨val, rfl | rfl⟩ | rfl⟩ := h
  · simp [changeOp, routerEntry, scvalToV2Path_ledgerKey]
  · simp [changeOp, routerEntry, scvalToV2Path_ledgerKey]
  · simp [changeOp, scvalToV2Path_ledgerKey]

theorem matchesContract_of_ne {address : ScAddress} (h : address ≠ .contract routerId) :
    State.matchesContract (some routerId) address = false := by
  cases address with
  | other => rfl
  | contract hash =>
      have hne : hash ≠ routerId := by
        rintro rfl
        exact h rfl
      simp [State.matchesContract, hne]

theorem changeOp_foreign (h : Foreign routerId change) :
    changeOp (some routerId) change = none := by
  cases change with
  | created data | updated data =>
      cases data with
      | other => rfl
      | contractData d => simp [changeOp, matchesContract_of_ne h]
  | removed key =>
      cases key with
      | other => rfl
      | contractData key => simp [changeOp, matchesContract_of_ne h]
  | state data => rfl
  | restored data => rfl

end

/-! ### What a run leaves -/

section

variable {sha256 : Bytes → Hash} {routerId : Hash}
variable {pre post storage : Storage} {act : Act} {history : List (Entry Storage Act)}

/-- The operations on the tree that the gateway reads out of `changes`. -/
def opsOf (routerId : Hash) (changes : List LedgerEntryChange) : List Op :=
  changes.filterMap (changeOp (some routerId))

/-- What a step does to the provable entries, beside what the gateway reads of it. -/
inductive Effect (routerId : Hash) (pre : Storage) (act : Act) (post : Storage) : Prop
  | wrote {write : ProvableWrite} {op : Op} (hwritten : act.written = some write.key)
      (hops : opsOf routerId act.changes = [op]) (hkey : op.key = write.key)
      (hvalue : op.value = some write.value)
      (hpost : post.provable = Function.update pre.provable write.key (some write.value))
  | removed {path : Bytes} (hpresent : pre.provable path ≠ none)
      (hops : opsOf routerId act.changes = [.remove path])
      (hpost : post.provable = Function.update pre.provable path none)
  | untouched (hops : opsOf routerId act.changes = []) (hpost : post.provable = pre.provable)

theorem Step.effect (hstep : Step routerId pre act post) : Effect routerId pre act post := by
  cases hstep with
  | @write write path change post hid hpath hexec hchange =>
      obtain rfl := ProvableWrite.eq_key_of_returns hpath
      obtain ⟨op, hop, hkey, hvalue⟩ := changeOp_written hid hchange
      have hpost : post = pre.write write.key write.value :=
        ProvableWrite.storage_of_returns hexec
      exact .wrote rfl (by simp [opsOf, hop]) hkey hvalue (congrArg Storage.provable hpost)
  | @delete c n path post hid hpath hpresent hexec =>
      obtain rfl := (Router.returns_v2PathKey.mp hpath).2.1
      have hpost : post = pre.erase (commitmentKey c n) :=
        congrArg Router.Ctx.storage (Router.returns_deletePacketCommitment hexec)
      exact .removed hpresent (by simp [opsOf, changeOp_removed hid])
        (congrArg Storage.provable hpost)
  | @deleteAbsent c n path post hid hpath habsent hexec =>
      obtain rfl := (Router.returns_v2PathKey.mp hpath).2.1
      have hpost : post = pre.erase (commitmentKey c n) :=
        congrArg Router.Ctx.storage (Router.returns_deletePacketCommitment hexec)
      refine .untouched rfl ((congrArg Storage.provable hpost).trans ?_)
      funext path
      rw [Router.Storage.erase_provable, ← habsent, Function.update_eq_self]
  | dataKey hchange hprovable =>
      exact .untouched (by simp [opsOf, changeOp_ofDataKey hchange]) hprovable
  | elsewhere hforeign =>
      exact .untouched (by simp [opsOf, changeOp_foreign hforeign]) rfl

/-- What the gateway reads of a run adds up to the provable entries. -/
structure Tracked (routerId : Hash) (history : List (Entry Storage Act)) (storage : Storage) :
    Prop where
  current : currentValue (opsOf routerId (reportedChanges history)) = storage.provable
  written : ∀ op ∈ opsOf routerId (reportedChanges history), op.key ∈ writtenPaths history
  origin : ∀ path value, storage.provable path = some value →
    ∃ write : ProvableWrite, path = write.key ∧ value = write.value

theorem opsOf_append (history : List (Entry Storage Act)) (entry : Entry Storage Act) :
    opsOf routerId (reportedChanges (history ++ [entry])) =
      opsOf routerId (reportedChanges history) ++ opsOf routerId entry.act.changes := by
  simp [opsOf, reportedChanges]

theorem currentValue_append (ops : List Op) (op : Op) :
    currentValue (ops ++ [op]) = Function.update (currentValue ops) op.key op.value := by
  rw [currentValue, List.foldl_append]
  rfl

/-- Every provable entry was written in the run. -/
theorem Tracked.mem_written (h : Tracked routerId history storage) {path : Bytes}
    (hpresent : storage.provable path ≠ none) : path ∈ writtenPaths history := by
  obtain ⟨value, hvalue⟩ := Option.ne_none_iff_exists'.mp hpresent
  rw [← h.current] at hvalue
  obtain ⟨-, op, hop, rfl, -⟩ := currentValue_cases hvalue
  exact h.written op hop

theorem Tracked.step {entry : Entry Storage Act} (h : Tracked routerId history entry.pre)
    (hstep : Step routerId entry.pre entry.act entry.post) :
    Tracked routerId (history ++ [entry]) entry.post := by
  have hold : ∀ path ∈ writtenPaths history, path ∈ writtenPaths (history ++ [entry]) := by
    rintro path ⟨earlier, hmem, hwritten⟩
    exact ⟨earlier, List.mem_append_left _ hmem, hwritten⟩
  have hearlier : ∀ op ∈ opsOf routerId (reportedChanges history),
      op.key ∈ writtenPaths (history ++ [entry]) := fun op hop => hold _ (h.written op hop)
  cases hstep.effect with
  | @wrote write op hwritten hops hkey hvalue hpost =>
      refine ⟨?_, ?_, ?_⟩
      · rw [opsOf_append, hops, currentValue_append, h.current, hkey, hvalue, hpost]
      · rw [opsOf_append, hops, List.forall_mem_append, List.forall_mem_singleton, hkey]
        exact ⟨hearlier, entry, by simp, hwritten⟩
      · intro path value hstored
        rw [hpost] at hstored
        by_cases hpath : path = write.key
        · rw [hpath, Function.update_self] at hstored
          exact ⟨write, hpath, (Option.some.inj hstored).symm⟩
        · rw [Function.update_of_ne hpath] at hstored
          exact h.origin path value hstored
  | @removed path hpresent hops hpost =>
      refine ⟨?_, ?_, ?_⟩
      · rw [opsOf_append, hops, currentValue_append, h.current, hpost]
        rfl
      · rw [opsOf_append, hops, List.forall_mem_append, List.forall_mem_singleton]
        exact ⟨hearlier, hold _ (h.mem_written hpresent)⟩
      · intro other value hstored
        rw [hpost] at hstored
        by_cases hpath : other = path
        · rw [hpath, Function.update_self] at hstored
          cases hstored
        · rw [Function.update_of_ne hpath] at hstored
          exact h.origin other value hstored
  | untouched hops hpost =>
      refine ⟨?_, ?_, ?_⟩
      · rw [opsOf_append, hops, List.append_nil, h.current, hpost]
      · rw [opsOf_append, hops, List.append_nil]
        exact hearlier
      · rw [hpost]
        exact h.origin

theorem tracked_of_run (hrun : Run routerId history storage) :
    Tracked routerId history storage := by
  refine hrun.invariant (Tracked routerId) ?_ ?_
  · intro storage hinit
    refine ⟨hinit.symm, by simp [opsOf, reportedChanges], ?_⟩
    intro path value hstored
    rw [hinit] at hstored
    cases hstored
  · intro history entry _ hprev hstep
    exact hprev.step hstep

/-- The paths that are written fit the router's buffer. -/
theorem length_of_written (hrun : Run routerId history storage) {path : Bytes}
    (hpath : path ∈ writtenPaths history) : path.length ≤ 128 := by
  obtain ⟨entry, hmem, hwritten⟩ := hpath
  obtain ⟨before, after, hsplit⟩ := List.append_of_mem hmem
  obtain ⟨-, hstep⟩ := hrun.split hsplit
  obtain ⟨pre, act, post⟩ := entry
  change Step routerId pre act post at hstep
  cases hstep with
  | @write write path' change post hid hkey hexec hchange =>
      obtain rfl : path' = path := Option.some.inj hwritten
      rw [ProvableWrite.eq_key_of_returns hkey, ProvableWrite.length_key]
      exact Nat.add_le_add_right hid.2 9
  | delete | deleteAbsent | dataKey | elsewhere => cases hwritten

end

/-! ### The tree -/

section

variable {sha256 : Bytes → Hash} {routerId : Hash}
variable {storage : Storage} {history : List (Entry Storage Act)}

/-- A leaf stands at the index of a key that some operation was about. -/
theorem exists_op_of_leaf {ops : List Op} {i : UInt64} {leaf : Hash × Hash}
    (h : (Smt.ofOps sha256 ops).leaves[i]? = some leaf) :
    ∃ op ∈ ops, keyIndex sha256 op.key = i := by
  induction ops using List.reverseRecOn with
  | nil => simp [Smt.ofOps, Smt.new] at h
  | append_singleton ops op ih =>
      rw [Smt.ofOps, List.foldl_append, List.foldl_cons, List.foldl_nil,
        Smt.leaves_apply] at h
      by_cases hindex : keyIndex sha256 op.key = i
      · exact ⟨op, by simp, hindex⟩
      · rw [if_neg hindex] at h
        obtain ⟨earlier, hmem, hearlier⟩ := ih h
        exact ⟨earlier, by simp [hmem], hearlier⟩

/-- Looking `path` up in the tree finds `stored`, unless nobody wrote `path` and its hash is
the hash of a path that was written. -/
def Finds (sha256 : Bytes → Hash) (written : Set Bytes) (smt : Smt) (path : Bytes)
    (stored : Option Bytes) : Prop :=
  (smt.generateMembershipProof sha256 path).map (·.valueHash) = stored.map sha256 ∨
    path ∉ written ∧ ∃ other ∈ written, other ≠ path ∧ sha256 other = sha256 path

/-- The tree holds exactly the router's provable entries, and the paths of the core crate
find what the router's own readers read. -/
structure Mirrors (sha256 : Bytes → Hash) (written : Set Bytes) (smt : Smt)
    (storage : Storage) : Prop where
  leaves : ∀ i keyHash valueHash, smt.leaves[i]? = some (keyHash, valueHash) ↔
    ∃ path value, storage.provable path = some value ∧ i = keyIndex sha256 path ∧
      keyHash = sha256 path ∧ valueHash = sha256 value
  packetCommitment : ∀ c n, ValidId c → ∃ stored : Option Hash,
    Returns (Router.packetCommitment c n) (start storage) stored (start storage) ∧
      Finds sha256 written smt (Core.packetCommitmentPath c n) (stored.map Subtype.val)
  packetReceipt : ∀ c n, ValidId c → ∃ present : Bool,
    Returns (Router.hasPacketReceipt c n) (start storage) present (start storage) ∧
      Finds sha256 written smt (Core.packetReceiptPath c n)
        (if present then some [Router.RECEIPT_SENTINEL] else none)
  acknowledgement : ∀ c n, ValidId c → ∃ stored : Option Hash,
    Returns (Router.acknowledgement c n) (start storage) stored (start storage) ∧
      Finds sha256 written smt (Core.ackCommitmentPath c n) (stored.map Subtype.val)

section

variable (htracked : Tracked routerId history storage)
variable (hindex : Set.InjOn (keyIndex sha256) (writtenPaths history))

include htracked hindex

theorem Tracked.holds :
    (Smt.ofOps sha256 (opsOf routerId (reportedChanges history))).Holds sha256
      (writtenPaths history) storage.provable := by
  have hholds := Smt.holds_ofOps hindex htracked.written
  rwa [htracked.current] at hholds

theorem Tracked.leaves (i : UInt64) (keyHash valueHash : Hash) :
    (Smt.ofOps sha256 (opsOf routerId (reportedChanges history))).leaves[i]? =
        some (keyHash, valueHash) ↔
      ∃ path value, storage.provable path = some value ∧ i = keyIndex sha256 path ∧
        keyHash = sha256 path ∧ valueHash = sha256 value := by
  constructor
  · intro hleaf
    obtain ⟨op, hop, rfl⟩ := exists_op_of_leaf hleaf
    rw [htracked.holds hindex op.key (htracked.written op hop)] at hleaf
    obtain ⟨value, hvalue, hpair⟩ := Option.map_eq_some_iff.mp hleaf
    simp only [Prod.mk.injEq] at hpair
    exact ⟨op.key, value, hvalue, rfl, hpair.1.symm, hpair.2.symm⟩
  · rintro ⟨path, value, hvalue, rfl, rfl, rfl⟩
    have hwritten : path ∈ writtenPaths history := htracked.mem_written (by simp [hvalue])
    rw [htracked.holds hindex path hwritten, hvalue]
    rfl

theorem Tracked.finds (path : Bytes) :
    Finds sha256 (writtenPaths history)
      (Smt.ofOps sha256 (opsOf routerId (reportedChanges history))) path
      (storage.provable path) := by
  set smt := Smt.ofOps sha256 (opsOf routerId (reportedChanges history)) with hsmt
  by_cases hwritten : path ∈ writtenPaths history
  · have hleaf := htracked.holds hindex path hwritten
    rw [← hsmt, keyIndex] at hleaf
    refine .inl ?_
    cases hstored : storage.provable path with
    | none => simp [Smt.generateMembershipProof, hleaf, hstored]
    | some value => simp [Smt.generateMembershipProof, hleaf, hstored]
  · have hstored : storage.provable path = none := by
      by_contra hpresent
      exact hwritten (htracked.mem_written hpresent)
    cases hleaf : smt.leaves[keyIndex sha256 path]? with
    | none =>
        rw [keyIndex] at hleaf
        exact .inl (by simp [Smt.generateMembershipProof, hleaf, hstored])
    | some leaf =>
        obtain ⟨other, value, hother, -, hkey, -⟩ :=
          (htracked.leaves hindex _ leaf.1 leaf.2).mp hleaf
        have hmem : other ∈ writtenPaths history := htracked.mem_written (by simp [hother])
        by_cases hcollision : sha256 other = sha256 path
        · refine .inr ⟨hwritten, other, hmem, ?_, hcollision⟩
          rintro rfl
          exact hwritten hmem
        · rw [← hkey] at hcollision
          rw [keyIndex] at hleaf
          exact .inl (by simp [Smt.generateMembershipProof, hleaf, hstored, hcollision])

end

end

/-! ### The router's readers -/

section

variable {sha256 : Bytes → Hash} {routerId : Hash}
variable {storage : Storage} {history : List (Entry Storage Act)}
variable {c : HostString} {d : UInt8} {n : UInt64}

/-- Commitments and acknowledgements have the width their readers expect. -/
theorem Tracked.hash_at (h : Tracked routerId history storage)
    (hd : d ≠ Router.PACKET_RECEIPT_DISCRIMINATOR) :
    ∃ stored : Option Hash, storage.provable (pathBytes c d n) = stored.map Subtype.val := by
  cases hstored : storage.provable (pathBytes c d n) with
  | none => exact ⟨none, rfl⟩
  | some value =>
      obtain ⟨write, hkey, rfl⟩ := h.origin _ _ hstored
      cases write with
      | packetCommitment clientId sequence commitment => exact ⟨some commitment, rfl⟩
      | packetReceipt clientId sequence =>
          exact absurd (Router.pathBytes_injective hkey).2.1 hd
      | ackCommitment clientId sequence ackHash => exact ⟨some ackHash, rfl⟩

theorem Tracked.receipt_at (h : Tracked routerId history storage) :
    storage.provable (receiptKey c n) =
      if (storage.provable (receiptKey c n)).isSome then some [Router.RECEIPT_SENTINEL]
      else none := by
  cases hstored : storage.provable (receiptKey c n) with
  | none => rfl
  | some value =>
      obtain ⟨write, hkey, rfl⟩ := h.origin _ _ hstored
      cases write with
      | packetCommitment clientId sequence commitment =>
          exact absurd (Router.pathBytes_injective hkey).2.1 (by decide)
      | packetReceipt clientId sequence => rfl
      | ackCommitment clientId sequence ackHash =>
          exact absurd (Router.pathBytes_injective hkey).2.1 (by decide)

theorem ValidId.fits (h : ValidId c) : c.length + 9 ≤ 128 := by
  have hle := h.2
  omega

/-- Commitments and acknowledgements are read alike. -/
theorem Tracked.reads_hash (h : Tracked routerId history storage)
    (hindex : Set.InjOn (keyIndex sha256) (writtenPaths history)) (hid : ValidId c)
    (hd : d ≠ Router.PACKET_RECEIPT_DISCRIMINATOR) :
    ∃ stored : Option Hash,
      Returns (Router.v2PathKey c d n >>= Router.getHash) (start storage) stored
          (start storage) ∧
        Finds sha256 (writtenPaths history)
          (Smt.ofOps sha256 (opsOf routerId (reportedChanges history))) (Core.v2Path c d n)
          (stored.map Subtype.val) := by
  obtain ⟨stored, hstored⟩ := h.hash_at (c := c) (n := n) hd
  refine ⟨stored, ?_, ?_⟩
  · rw [returns_bind]
    exact ⟨_, _, Router.returns_v2PathKey.mpr ⟨hid.fits, rfl, rfl⟩,
      Router.returns_getHash.mpr ⟨hstored, rfl⟩⟩
  · rw [Core.v2Path_eq, ← hstored]
    exact h.finds hindex (pathBytes c d n)

theorem Tracked.mirrors (h : Tracked routerId history storage)
    (hindex : Set.InjOn (keyIndex sha256) (writtenPaths history)) :
    Mirrors sha256 (writtenPaths history)
      (Smt.ofOps sha256 (opsOf routerId (reportedChanges history))) storage where
  leaves := h.leaves hindex
  packetCommitment c n hid := h.reads_hash hindex hid (by decide)
  acknowledgement c n hid := h.reads_hash hindex hid (by decide)
  packetReceipt c n hid := by
    have hpath : Core.packetReceiptPath c n = receiptKey c n := Core.v2Path_eq ..
    have hfinds := h.finds hindex (receiptKey c n)
    rw [h.receipt_at] at hfinds
    refine ⟨(storage.provable (receiptKey c n)).isSome, ?_, by rwa [hpath]⟩
    simp only [Router.hasPacketReceipt, Router.packetReceiptPath, returns_bind,
      Router.returns_v2PathKey, Router.returns_storage, returns_pure]
    exact ⟨_, _, ⟨hid.fits, rfl, rfl⟩, _, _, ⟨rfl, rfl⟩, rfl, rfl⟩

/-! ### Delivery -/

theorem opsOf_collected (ledgers : Ledgers) (seqs : List UInt32) :
    opsOf routerId (seqs.flatMap ledgers.collected) =
      seqs.flatMap (ledgers.ops (some routerId)) := by
  induction seqs with
  | nil => rfl
  | cons seq seqs ih =>
      have hfirst : opsOf routerId (ledgers.collected seq) =
          ledgers.ops (some routerId) seq := by
        unfold Ledgers.collected Ledgers.ops
        cases ledgers seq <;> rfl
      rw [List.flatMap_cons, List.flatMap_cons, ← ih, ← hfirst]
      exact List.filterMap_append

/-- Ledgers that have a run's changes in order give the gateway the run's operations. -/
theorem ops_of_listing {ledgers : Ledgers} {seqs : List UInt32}
    {changes : List LedgerEntryChange} (h : Listing (ledgers.changeAt seqs) changes) :
    seqs.flatMap (ledgers.ops (some routerId)) = opsOf routerId changes := by
  rw [← opsOf_collected, (ledgers.listing_collected seqs).unique h]

/-- **The tree mirrors the router's provable store.**  However the metadata of the ledgers
has a run's changes, in order but in whatever transactions, versions and places, replaying the
ledgers succeeds and leaves the tree of the router's current entries. -/
theorem replay_mirrors_store (hrun : Run routerId history storage) {ledgers : Ledgers}
    {seqs : List UInt32} {available : UInt32 → Bool}
    (hdelivered : Listing (ledgers.changeAt seqs) (reportedChanges history))
    (havailable : ∀ seq ∈ seqs, available seq = true)
    (hdecodes : ∀ seq ∈ seqs, ledgers seq ≠ .undecodable)
    (hindex : Set.InjOn (keyIndex sha256) (writtenPaths history)) :
    ∃ st, Ends (seqs.forM (applyLedger sha256 ledgers available)) (.new (some routerId))
        (.ok ⟨⟩) st ∧
      Mirrors sha256 (writtenPaths history) st.smt storage := by
  refine ⟨_, applyLedgers_ok havailable hdecodes _, ?_⟩
  have htree : ((State.new (some routerId)).replayed sha256 ledgers seqs).smt =
      Smt.ofOps sha256 (opsOf routerId (reportedChanges history)) := by
    rw [← ops_of_listing hdelivered]
    rfl
  rw [htree]
  exact (tracked_of_run hrun).mirrors hindex

end

def sampleId : Hash := .fill 32 7

def sampleClient : HostString := ascii "stellar-0"

/-- The router commits to a packet, receives another one and settles the first. -/
def deployed : Storage := .initial (.contract sampleId)

def committed : Storage := deployed.write (commitmentKey sampleClient 1) sampleId.val

def received : Storage :=
  committed.write (receiptKey sampleClient 4) [Router.RECEIPT_SENTINEL]

def settled : Storage := received.erase (commitmentKey sampleClient 1)

def sampleCommitted : LedgerEntryChange :=
  .created (routerEntry sampleId (.bytes (commitmentKey sampleClient 1)) (.bytes sampleId.val))

def sampleReceived : LedgerEntryChange :=
  .created (routerEntry sampleId (.bytes (receiptKey sampleClient 4))
    (.bytes [Router.RECEIPT_SENTINEL]))

def sampleSettled : LedgerEntryChange :=
  .removed (.contractData ⟨.contract sampleId, .bytes (commitmentKey sampleClient 1)⟩)

/-- Another contract has an entry under the same key. -/
def sampleForeign : LedgerEntryChange :=
  .updated (routerEntry Core.EMPTY (.bytes (commitmentKey sampleClient 1)) (.bytes [1]))

def sampleCounter : LedgerEntryChange :=
  .updated (routerEntry sampleId (DataKey.nextSeqSend sampleClient).ledgerKey (.u64 2))

def sampleHistory : List (Entry Storage Act) :=
  [⟨deployed, ⟨some (commitmentKey sampleClient 1), [sampleCommitted]⟩, committed⟩,
    ⟨committed, ⟨none, [sampleForeign]⟩, committed⟩,
    ⟨committed, ⟨none, [sampleCounter]⟩, committed⟩,
    ⟨committed, ⟨some (receiptKey sampleClient 4), [sampleReceived]⟩, received⟩,
    ⟨received, ⟨none, [sampleSettled]⟩, settled⟩]

def sampleLedgers : Ledgers
  | 1 => .decoded (.v1 [.v4 [] [[sampleCommitted]] [], .v1 [sampleForeign] [[]],
      .v2 [] [[], []] [sampleCounter]])
  | 2 => .missing
  | 3 => .decoded (.v0 [.v0 [[sampleReceived]], .v3 [] [[], [sampleSettled]] []])
  | _ => .undecodable

theorem run_sampleHistory : Run sampleId sampleHistory settled := by
  have hid : ValidId sampleClient := ⟨by decide, by decide⟩
  have hinit : Run sampleId [] deployed := .start rfl
  have hcommitted : Step sampleId deployed
      ⟨some (commitmentKey sampleClient 1), [sampleCommitted]⟩ committed :=
    @Step.write _ _ (.packetCommitment sampleClient 1 sampleId) _ _ _ hid
      (Router.returns_v2PathKey.mpr ⟨hid.fits, rfl, rfl⟩) rfl (.inl rfl)
  have hforeign : Step sampleId committed ⟨none, [sampleForeign]⟩ committed := by
    refine .elsewhere fun hsame => ?_
    have hid : Core.EMPTY = sampleId := ScAddress.contract.inj hsame
    revert hid
    decide
  have hcounter : Step sampleId committed ⟨none, [sampleCounter]⟩ committed :=
    .dataKey ⟨.nextSeqSend sampleClient, .inl ⟨.u64 2, .inr rfl⟩⟩ rfl
  have hreceived : Step sampleId committed
      ⟨some (receiptKey sampleClient 4), [sampleReceived]⟩ received :=
    @Step.write _ _ (.packetReceipt sampleClient 4) _ _ _ hid
      (Router.returns_v2PathKey.mpr ⟨hid.fits, rfl, rfl⟩) rfl (.inl rfl)
  have hsettled : Step sampleId received ⟨none, [sampleSettled]⟩ settled :=
    .delete hid (Router.returns_v2PathKey.mpr ⟨hid.fits, rfl, rfl⟩) (by decide) rfl
  exact ((((hinit.next hcommitted).next hforeign).next hcounter).next hreceived).next hsettled

theorem replay_mirrors_store_settled :
    (settled.provable (commitmentKey sampleClient 1) = none ∧
      settled.provable (receiptKey sampleClient 4) = some [Router.RECEIPT_SENTINEL]) ∧
    ∃ st, Ends ([1, 2, 3].forM (applyLedger Sha256.sha256 sampleLedgers fun _ => true))
        (.new (some sampleId)) (.ok ⟨⟩) st ∧
      Mirrors Sha256.sha256 (writtenPaths sampleHistory) st.smt settled := by
  refine ⟨by decide, ?_⟩
  apply replay_mirrors_store run_sampleHistory
  · exact sampleLedgers.listing_collected [1, 2, 3]
  · intro seq _
    rfl
  · simp [sampleLedgers]
  · have hdistinct : keyIndex Sha256.sha256 (commitmentKey sampleClient 1) ≠
        keyIndex Sha256.sha256 (receiptKey sampleClient 4) := by
      decide +kernel
    have hcases : ∀ path ∈ writtenPaths sampleHistory,
        path = commitmentKey sampleClient 1 ∨ path = receiptKey sampleClient 4 := by
      simp [writtenPaths, sampleHistory, eq_comm]
    intro path hpath other hother hequal
    rcases hcases path hpath with rfl | rfl <;> rcases hcases other hother with rfl | rfl
    · rfl
    · exact absurd hequal hdistinct
    · exact absurd hequal.symm hdistinct
    · rfl

end StellarIbc.Mirror
