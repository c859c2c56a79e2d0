import StellarIbc.CoreCommitment
import StellarIbc.StateReplay
import StellarIbc.ProtobufWire

/-!
# The gateway's queries

The handlers of the gateway's `query.rs` that read the tree: the three packet queries and
the header query.  A packet query refuses a height that is no `u32`; the header query takes
its low 32 bits.  All four share one tracker behind a lock, so a run of the gateway is a
sequence of requests, each of which makes at most one call of the tracker.  While the
ledgers asked for do not decrease, every answer comes from the tree of the ledger it is
for, although requests may have failed at any ledger before.
-/

namespace StellarIbc.Core.Tracker

open Fallible

variable {sha256 : Bytes → Hash} {ledgers : Ledgers} {ibcContractId : Option Hash}
variable {history : List (Entry State Act)} {entry : Entry State Act} {st : State}

/-! ### The tree behind an answer -/

/-- No root is recorded for a ledger that was not replayed. -/
def RecordedBelow (st : State) : Prop :=
  ∀ seq, st.roots seq ≠ none → ∃ last, st.lastProcessed = some last ∧ seq ≤ last

theorem RecordedBelow.rootStep {pre post : State} {seq : UInt32}
    {outcome : Except StateError Hash} (hpre : RecordedBelow pre)
    (h : RootStep sha256 ledgers seq pre outcome post) : RecordedBelow post := by
  have hroots : ∀ s, post.roots s ≠ none → pre.roots s ≠ none ∨
      s = seq ∧ post.roots seq ≠ none := by
    intro s hs
    obtain ⟨root, hroot⟩ := Option.ne_none_iff_exists'.mp hs
    rcases roots_of_rootStep h hroot with hold | ⟨rfl, -⟩
    · exact .inl (by simp [hold])
    · exact .inr ⟨rfl, hs⟩
  intro s hs
  cases h with
  | cached hcached => exact hpre s hs
  | failed hnone hstart hdone => exact hpre s hs
  | current hnone hstart =>
      rcases hroots s hs with hold | ⟨rfl, -⟩
      · exact hpre s hold
      · exact State.replayStart_eq_none hstart
  | @replayed start middle hnone hstart hmiddle =>
      subst hmiddle
      refine ⟨seq, rfl, ?_⟩
      rcases hroots s hs with hold | ⟨rfl, -⟩
      · obtain ⟨last, hlast, hle⟩ := hpre s hold
        rcases State.replayStart_eq_some hstart with ⟨hfresh, -⟩ | ⟨last', hlast', hlt, -⟩
        · rw [hfresh] at hlast
          cases hlast
        · obtain rfl := Option.some.inj (hlast.symm.trans hlast')
          exact UInt32.le_trans hle (UInt32.le_of_lt hlt)
      · exact UInt32.le_refl _

theorem recordedBelow_of_run (hrun : Run sha256 ledgers ibcContractId history st) :
    RecordedBelow st := by
  apply hrun.invariant fun _ st => RecordedBelow st
  · rintro st rfl seq hseq
    exact absurd rfl hseq
  · intro history entry hprev hbelow hstep
    obtain ⟨outcome, hroot⟩ := hstep.rootStep
    exact hbelow.rootStep hroot

/-- The tree of `st` is that of the ledgers from `first` to `seq`, and its root is recorded
for `seq`. -/
structure At (sha256 : Bytes → Hash) (ledgers : Ledgers) (ibcContractId : Option Hash)
    (first seq : UInt32) (st : State) : Prop where
  tree : st.smt.AgreesOff sha256 [] (treeFrom sha256 ledgers ibcContractId first seq)
  root : st.roots seq = some ((treeFrom sha256 ledgers ibcContractId first seq).root sha256)

theorem ledgerRange_succ_self {seq : UInt32} (hroom : seq.toNat + 1 < 2 ^ 32) :
    ledgerRange (seq + 1) seq = [] := by
  have hnext : (seq + 1).toNat = seq.toNat + 1 := by
    rw [UInt32.toNat_add]
    exact Nat.mod_eq_of_lt hroom
  rw [ledgerRange, hnext, Nat.sub_self]
  rfl

/-- A call that replayed `seq`, the greatest ledger so far, leaves the tracker at it. -/
theorem at_of_replays (hrun : Run sha256 ledgers ibcContractId history st)
    (hascending : Ascending (history ++ [entry])) (hpre : entry.pre = st)
    (hstep : Step sha256 ledgers entry.pre entry.act entry.post)
    (hreplays : entry.act.replays = true) (hroom : entry.act.seq.toNat + 1 < 2 ^ 32) :
    ∃ first, firstReplayed (history ++ [entry]) = some first ∧
      At sha256 ledgers ibcContractId first entry.act.seq entry.post := by
  subst hpre
  have hprefix := (List.pairwise_append.mp hascending).1
  have hresumes := (resumes_of_run hrun hprefix).step hascending hstep
  obtain ⟨available, outcome, hends, hok⟩ := hstep.rootAt
  obtain ⟨root, rfl⟩ := hok.mp hreplays
  have hrecorded := roots_of_ok (ends_rootAt hends)
  have hbelow := (recordedBelow_of_run hrun).rootStep (ends_rootAt hends)
  cases hfirst : firstReplayed (history ++ [entry]) with
  | none =>
      rw [(hresumes.before hfirst).roots] at hrecorded
      cases hrecorded
  | some first =>
      obtain ⟨last, called, hcalled, hadvanced⟩ := hresumes.after first hfirst
      -- the last ledger replayed is at least the one recorded, and at most the one called
      obtain ⟨last', hlast', hle⟩ := hbelow entry.act.seq (by simp [hrecorded])
      obtain rfl := Option.some.inj (hadvanced.processed.symm.trans hlast')
      have hcalledLe : called.act.seq ≤ entry.act.seq := by
        rcases List.mem_append.mp hcalled with hold | hnew
        · exact (List.pairwise_append.mp hascending).2.2 called hold entry (by simp)
        · rw [List.mem_singleton.mp hnew]
          exact UInt32.le_refl _
      have hlast : last = entry.act.seq :=
        UInt32.le_antisymm (UInt32.le_trans hadvanced.ordered.2 hcalledLe) hle
      have htop : called.act.seq = entry.act.seq :=
        UInt32.le_antisymm hcalledLe (UInt32.le_trans hle hadvanced.ordered.2)
      have htree := hadvanced.tree
      rw [hlast, htop, ledgerRange_succ_self hroom] at htree
      refine ⟨first, rfl, htree, ?_⟩
      rw [hrecorded, ← hadvanced.roots entry.act.seq root hrecorded]

end StellarIbc.Core.Tracker

namespace StellarIbc.Gateway

open StellarIbc.Core Fallible Protobuf

/-! ### Statuses -/

inductive Code where
  | invalidArgument
  | internal
deriving DecidableEq, Repr

/-- `tonic::Status`: what its message says before the error that it passes on. -/
structure Status where
  code : Code
  message : String
  cause : Option StateError
deriving DecidableEq, Repr

abbrev GatewayM := Fallible Status State

/-- An error of the tracker becomes an internal status. -/
def orInternal {α : Type} (message : String) (program : TrackerM α) : GatewayM α :=
  mapError (fun error => ⟨.internal, message, some error⟩) program

/-! ### Headers -/

inductive StellarValueExt where
  | basic
  | signed (nodeId : Hash) (signature : Bytes)
deriving DecidableEq, Repr

/-- What the handler reads of the XDR of a ledger header. -/
structure StellarValue where
  txSetHash : Hash
  closeTime : UInt64
  ext : StellarValueExt
deriving DecidableEq, Repr

/-- The header message of the gateway's own proto file. -/
structure StellarHeader where
  ledgerSeq : UInt32
  ledgerHeaderXdr : Bytes
  ibcStateRoot : Bytes
  scpNodeId : Bytes
  scpSignature : Bytes
  signedValueXdr : Bytes
deriving DecidableEq, Inhabited, Repr

def StellarHeader.records (header : StellarHeader) : List Record :=
  uint64Record 1 header.ledgerSeq.toUInt64 ++ (bytesRecord 2 header.ledgerHeaderXdr ++
    (bytesRecord 3 header.ibcStateRoot ++ (bytesRecord 4 header.scpNodeId ++
      (bytesRecord 5 header.scpSignature ++ bytesRecord 6 header.signedValueXdr))))

def StellarHeader.encode (header : StellarHeader) : Bytes := encodeRecords header.records

def StellarHeader.merge : Merge StellarHeader := fun _ header record =>
  match record.tag with
  | 1 => do return { header with ledgerSeq := ← record.value.uint32 }
  | 2 => do return { header with ledgerHeaderXdr := ← record.value.bytes }
  | 3 => do return { header with ibcStateRoot := ← record.value.bytes }
  | 4 => do return { header with scpNodeId := ← record.value.bytes }
  | 5 => do return { header with scpSignature := ← record.value.bytes }
  | 6 => do return { header with signedValueXdr := ← record.value.bytes }
  | _ => some header

theorem StellarHeader.plain_records (header : StellarHeader) :
    ∀ record ∈ header.records, record.Plain := by
  intro record hrecord
  simp only [StellarHeader.records, List.mem_append] at hrecord
  rcases hrecord with hrecord | hrecord | hrecord | hrecord | hrecord | hrecord
  · exact plain_uint64Record (by norm_num) _ record hrecord
  · exact plain_bytesRecord (by norm_num) _ record hrecord
  · exact plain_bytesRecord (by norm_num) _ record hrecord
  · exact plain_bytesRecord (by norm_num) _ record hrecord
  · exact plain_bytesRecord (by norm_num) _ record hrecord
  · exact plain_bytesRecord (by norm_num) _ record hrecord

theorem StellarHeader.foldlM_records (header : StellarHeader) (depth : Nat) :
    header.records.foldlM (StellarHeader.merge depth) default = some header := by
  obtain ⟨ledgerSeq, ledgerHeaderXdr, ibcStateRoot, scpNodeId, scpSignature, signedValueXdr⟩ :=
    header
  have hseq : (uint64Record 1 ledgerSeq.toUInt64).foldlM (StellarHeader.merge depth) default =
      some ⟨ledgerSeq, [], [], [], [], []⟩ :=
    foldlM_uint64Record (fun n => ⟨n.toUInt32, [], [], [], [], []⟩) (fun _ => rfl) rfl (by simp)
  unfold StellarHeader.records
  refine foldlM_append_of_eq hseq ?_
  refine foldlM_append_of_eq
    (foldlM_bytesRecord (fun b => ⟨ledgerSeq, b, [], [], [], []⟩) (fun _ => rfl) rfl rfl) ?_
  refine foldlM_append_of_eq
    (foldlM_bytesRecord (fun b => ⟨ledgerSeq, ledgerHeaderXdr, b, [], [], []⟩) (fun _ => rfl)
      rfl rfl) ?_
  refine foldlM_append_of_eq
    (foldlM_bytesRecord (fun b => ⟨ledgerSeq, ledgerHeaderXdr, ibcStateRoot, b, [], []⟩)
      (fun _ => rfl) rfl rfl) ?_
  refine foldlM_append_of_eq
    (foldlM_bytesRecord (fun b => ⟨ledgerSeq, ledgerHeaderXdr, ibcStateRoot, scpNodeId, b, []⟩)
      (fun _ => rfl) rfl rfl) ?_
  exact foldlM_bytesRecord
    (fun b => ⟨ledgerSeq, ledgerHeaderXdr, ibcStateRoot, scpNodeId, scpSignature, b⟩)
    (fun _ => rfl) rfl rfl

/-- A relayer reads the header back. -/
theorem StellarHeader.decode_encode {header : StellarHeader}
    (hsize : header.encode.length < 2 ^ 64) :
    decode StellarHeader.merge header.encode = some header := by
  rw [decode, StellarHeader.encode, mergeInto_encodeRecords header.plain_records hsize]
  exact header.foldlM_records _

/-- The signer and the signature; a value without them has neither. -/
def StellarValueExt.scp : StellarValueExt → Bytes × Bytes
  | .signed nodeId signature => (nodeId.val, signature)
  | .basic => ([], [])

/-- The header of `seq` that the handler builds around a state root. -/
def stellarHeader (seq : UInt32) (headerXdr : Bytes) (value : StellarValue) (root : Hash) :
    StellarHeader where
  ledgerSeq := seq
  ledgerHeaderXdr := headerXdr
  ibcStateRoot := root.val
  scpNodeId := value.ext.scp.1
  scpSignature := value.ext.scp.2
  signedValueXdr := value.txSetHash.val ++ be64 value.closeTime

/-! ### Handlers -/

structure PathRequest where
  clientId : HostString
  sequence : UInt64
  height : UInt64

structure PathResponse (α : Type) where
  answer : α
  proof : Bytes
  proofHeight : UInt64
deriving DecidableEq

/-- What the API has of every ledger: the XDR of its header and its metadata. -/
structure Archive where
  headers : UInt32 → Bytes
  metadata : Ledgers

/-- Which of a request's calls the API answers: the one for the header, and those of the
replay. -/
structure Host where
  header : Bool
  available : UInt32 → Bool

section

variable (sha256 : Bytes → Hash) (decodeHeader : Bytes → Option StellarValue)
variable (archive : Archive) (host : Host)

/-- `u32::try_from(height)`. -/
def tryU32 (height : UInt64) : Option UInt32 :=
  if height.toNat < 2 ^ 32 then some height.toUInt32 else none

def heightStatus (height : UInt64) : Status :=
  ⟨.invalidArgument, "height " ++ toString height ++ " does not fit in u32", none⟩

/-- What the packet queries share: `read` is what is answered for the hash of the stored
value, or for none. -/
def queryPath {α : Type} (path : Bytes) (read : Option Hash → α) (height : UInt64) :
    GatewayM (PathResponse α) := do
  let seq ← orThrow (heightStatus height) (tryU32 height)
  let lookup ← orInternal "proof_for_path failed: "
    (proofForPath sha256 archive.metadata host.available seq path)
  match lookup with
  | .found valueHash proof => return ⟨read (some valueHash), proof, height⟩
  | .absent proof => return ⟨read none, proof, height⟩

/-- The hash, or nothing. -/
def hashBytes (hash : Option Hash) : Bytes := (hash.map Subtype.val).getD []

def queryPacketCommitment (req : PathRequest) : GatewayM (PathResponse Bytes) :=
  queryPath sha256 archive host (packetCommitmentPath req.clientId req.sequence) hashBytes
    req.height

def queryPacketReceipt (req : PathRequest) : GatewayM (PathResponse Bool) :=
  queryPath sha256 archive host (packetReceiptPath req.clientId req.sequence) Option.isSome
    req.height

def queryAcknowledgement (req : PathRequest) : GatewayM (PathResponse Bytes) :=
  queryPath sha256 archive host (ackCommitmentPath req.clientId req.sequence) hashBytes
    req.height

def queryIbcHeader (height : UInt64) : GatewayM Bytes := do
  let seq := height.toUInt32
  let headerXdr ← orThrow ⟨.internal, "getLedger failed: ", some (.getLedger seq)⟩
    (if host.header then some (archive.headers seq) else none)
  let value ← orThrow ⟨.internal, "LedgerHeader XDR decode: ", none⟩ (decodeHeader headerXdr)
  let root ← orInternal "state root computation failed: "
    (rootAt sha256 archive.metadata host.available seq)
  return (stellarHeader seq headerXdr value root).encode

/-! ### Requests -/

inductive Request where
  | packetCommitment (req : PathRequest)
  | packetReceipt (req : PathRequest)
  | acknowledgement (req : PathRequest)
  | ibcHeader (height : UInt64)

abbrev Request.Response : Request → Type
  | .packetCommitment _ | .acknowledgement _ => PathResponse Bytes
  | .packetReceipt _ => PathResponse Bool
  | .ibcHeader _ => Bytes

def Request.handle : (request : Request) → GatewayM request.Response
  | .packetCommitment req => queryPacketCommitment sha256 archive host req
  | .packetReceipt req => queryPacketReceipt sha256 archive host req
  | .acknowledgement req => queryAcknowledgement sha256 archive host req
  | .ibcHeader height => queryIbcHeader sha256 decodeHeader archive host height

/-- The ledger a request asks the tracker for, if it comes to that. -/
def Request.asked : Request → Option UInt32
  | .packetCommitment req | .packetReceipt req | .acknowledgement req => tryU32 req.height
  | .ibcHeader height =>
      if host.header = true ∧ (decodeHeader (archive.headers height.toUInt32)).isSome then
        some height.toUInt32
      else
        none

end

/-- A request, what the API answered during it, and the reply. -/
structure Act where
  host : Host
  request : Request
  reply : Except Status request.Response

/-- The request replayed its ledger, also where no proof was available after it. -/
def Act.replays (act : Act) : Bool :=
  match act.reply with
  | .ok _ => true
  | .error status => status.cause = some .proofUnavailable

section

variable (sha256 : Bytes → Hash) (decodeHeader : Bytes → Option StellarValue)
variable (archive : Archive)

def Step (pre : State) (act : Act) (post : State) : Prop :=
  Ends (act.request.handle sha256 decodeHeader archive act.host) pre act.reply post

/-- Every run of a gateway of the router `ibcContractId`. -/
abbrev Run (ibcContractId : Option Hash) : List (Entry State Act) → State → Prop :=
  Reach (fun st => st = .new ibcContractId) (Step sha256 decodeHeader archive)

def Act.asked (act : Act) : Option UInt32 := act.request.asked decodeHeader archive act.host

/-- The ledgers asked for do not decrease. -/
def Ascending (history : List (Entry State Act)) : Prop :=
  (history.filterMap fun entry => entry.act.asked decodeHeader archive).Pairwise (· ≤ ·)

/-- The ledger at which the gateway began to follow the chain. -/
def started (history : List (Entry State Act)) : Option UInt32 :=
  history.findSome? fun entry =>
    if entry.act.replays then entry.act.asked decodeHeader archive else none

end

variable {sha256 : Bytes → Hash} {decodeHeader : Bytes → Option StellarValue}
variable {archive : Archive} {host : Host} {ibcContractId : Option Hash}
variable {history before after : List (Entry State Act)} {entry : Entry State Act}
variable {st pre post : State}

/-! ### What a request does to the tracker -/

/-- A packet query that is not refused makes one call of the tracker. -/
theorem ends_queryPath {α : Type} {path : Bytes} {read : Option Hash → α} {height : UInt64}
    {reply : Except Status (PathResponse α)}
    (h : Ends (queryPath sha256 archive host path read height) pre reply post) :
    (tryU32 height = none ∧ reply = .error (heightStatus height) ∧ post = pre) ∨
      ∃ seq served, tryU32 height = some seq ∧
        Ends (servePath sha256 archive.metadata host.available seq path) pre served post ∧
        ((∃ error, served = .error error ∧ reply = .error
            ⟨.internal, "proof_for_path failed: ", some error⟩) ∨
          (∃ proof, served = .ok (.found proof) ∧ reply = .ok
            ⟨read (some proof.valueHash), serializeMembershipProofWithIndex proof path
              proof.valueHash.val (keyIndex sha256 path), height⟩) ∨
          ∃ proof, served = .ok (.absent proof) ∧ reply = .ok ⟨read none,
            serializeNonMembershipProofWithIndex proof path (keyIndex sha256 path), height⟩) := by
  unfold queryPath at h
  cases hseq : tryU32 height with
  | none =>
      rw [hseq, ends_none_bind] at h
      exact .inl ⟨rfl, h.1, h.2⟩
  | some seq =>
      rw [hseq, ends_some_bind] at h
      unfold orInternal proofForPath at h
      refine .inr ⟨seq, ?_⟩
      rcases ends_bind.mp h with ⟨lookup, middle, hlookup, hreply⟩ | ⟨status, hlookup, rfl⟩
      · obtain ⟨result, hresult, hok⟩ := ends_mapError.mp hlookup
        cases result with
        | error error => cases hok
        | ok found =>
            obtain rfl : lookup = found := Except.ok.inj hok
            rcases ends_bind.mp hresult with ⟨served, middle', hserved, hpure⟩ | ⟨_, _, herror⟩
            · obtain ⟨hsame, rfl⟩ := ends_pure.mp hpure
              obtain rfl : lookup = served.lookup sha256 path := Except.ok.inj hsame
              cases served with
              | found proof =>
                  obtain ⟨rfl, rfl⟩ := ends_pure.mp hreply
                  exact ⟨_, rfl, hserved, .inr (.inl ⟨proof, rfl, rfl⟩)⟩
              | absent proof =>
                  obtain ⟨rfl, rfl⟩ := ends_pure.mp hreply
                  exact ⟨_, rfl, hserved, .inr (.inr ⟨proof, rfl, rfl⟩)⟩
            · cases herror
      · obtain ⟨result, hresult, herror⟩ := ends_mapError.mp hlookup
        cases result with
        | ok found => cases herror
        | error error =>
            obtain rfl : status = ⟨.internal, "proof_for_path failed: ", some error⟩ :=
              Except.error.inj herror
            rcases ends_bind.mp hresult with ⟨served, middle, hserved, hpure⟩ |
              ⟨error', hserved, hsame⟩
            · cases (ends_pure.mp hpure).1
            · obtain rfl : error = error' := Except.error.inj hsame
              exact ⟨_, rfl, hserved, .inl ⟨error, rfl, rfl⟩⟩

/-- The header query asks the tracker for the root once it has the header. -/
theorem ends_queryIbcHeader {height : UInt64} {reply : Except Status Bytes}
    (h : Ends (queryIbcHeader sha256 decodeHeader archive host height) pre reply post) :
    ((Request.ibcHeader height).asked decodeHeader archive host = none ∧ post = pre ∧
      ∃ status, reply = .error status ∧ status.cause ≠ some .proofUnavailable) ∨
    ∃ value root, (Request.ibcHeader height).asked decodeHeader archive host =
        some height.toUInt32 ∧
      decodeHeader (archive.headers height.toUInt32) = some value ∧
      Ends (rootAt sha256 archive.metadata host.available height.toUInt32) pre root post ∧
      ((∃ error, root = .error error ∧ reply = .error
          ⟨.internal, "state root computation failed: ", some error⟩) ∨
        ∃ hash, root = .ok hash ∧ reply = .ok (stellarHeader height.toUInt32
          (archive.headers height.toUInt32) value hash).encode) := by
  unfold queryIbcHeader at h
  simp only [Request.asked]
  cases hheader : host.header with
  | false =>
      simp only [hheader, Bool.false_eq_true, if_false, ends_none_bind] at h
      exact .inl ⟨by simp, h.2, _, h.1, by simp⟩
  | true =>
      simp only [hheader, if_true, ends_some_bind] at h
      cases hvalue : decodeHeader (archive.headers height.toUInt32) with
      | none =>
          rw [hvalue, ends_none_bind] at h
          exact .inl ⟨by simp, h.2, _, h.1, by simp⟩
      | some value =>
          rw [hvalue, ends_some_bind] at h
          unfold orInternal at h
          refine .inr ⟨value, ?_⟩
          rcases ends_bind.mp h with ⟨hash, middle, hroot, hpure⟩ | ⟨status, hroot, rfl⟩
          · obtain ⟨rfl, rfl⟩ := ends_pure.mp hpure
            obtain ⟨result, hresult, hok⟩ := ends_mapError.mp hroot
            cases result with
            | error error => cases hok
            | ok root =>
                obtain rfl : hash = root := Except.ok.inj hok
                exact ⟨_, by simp, rfl, hresult, .inr ⟨hash, rfl, rfl⟩⟩
          · obtain ⟨result, hresult, herror⟩ := ends_mapError.mp hroot
            cases result with
            | ok root => cases herror
            | error error =>
                obtain rfl : status =
                    ⟨.internal, "state root computation failed: ", some error⟩ :=
                  Except.error.inj herror
                exact ⟨_, by simp, rfl, hresult, .inl ⟨error, rfl, rfl⟩⟩

/-! ### The run of the tracker -/

/-- The call a packet query makes replays exactly where the query says so. -/
theorem queryPath_tracker {α : Type} {path : Bytes} {read : Option Hash → α}
    {height : UInt64} {reply : Except Status (PathResponse α)}
    (h : Ends (queryPath sha256 archive host path read height) pre reply post) :
    (tryU32 height = none ∧ post = pre ∧
      ∃ status, reply = .error status ∧ status.cause ≠ some .proofUnavailable) ∨
    ∃ call : Tracker.Act, tryU32 height = some call.seq ∧
      Tracker.Step sha256 archive.metadata pre call post ∧
      (call.replays = true ↔ (∃ response, reply = .ok response) ∨
        ∃ status, reply = .error status ∧ status.cause = some .proofUnavailable) := by
  rcases ends_queryPath h with ⟨hnone, hreply, hpost⟩ | ⟨seq, served, hseq, hserved, hreply⟩
  · exact .inl ⟨hnone, hpost, _, hreply, by simp [heightStatus]⟩
  · refine .inr ⟨.proofForPath host.available seq path served, hseq, hserved, ?_⟩
    rcases hreply with ⟨error, rfl, rfl⟩ | ⟨proof, rfl, rfl⟩ | ⟨proof, rfl, rfl⟩
    · cases error with
      | proofUnavailable => simp [Tracker.Act.replays]
      | getLedger seq => simp [Tracker.Act.replays]
      | metaDecode => simp [Tracker.Act.replays]
    · simp [Tracker.Act.replays]
    · simp [Tracker.Act.replays]

theorem Act.replays_iff (act : Act) :
    act.replays = true ↔ (∃ response, act.reply = .ok response) ∨
      ∃ status, act.reply = .error status ∧ status.cause = some .proofUnavailable := by
  unfold Act.replays
  cases act.reply with
  | ok response => simp
  | error status => simp

/-- A request makes one call of the tracker, for the ledger it asks for, or none. -/
theorem Step.tracker {act : Act} (hstep : Step sha256 decodeHeader archive pre act post) :
    (act.asked decodeHeader archive = none ∧ act.replays = false ∧ post = pre) ∨
      ∃ call : Tracker.Act, act.asked decodeHeader archive = some call.seq ∧
        call.replays = act.replays ∧ Tracker.Step sha256 archive.metadata pre call post := by
  have hquiet : (∃ status, act.reply = .error status ∧
      status.cause ≠ some .proofUnavailable) → act.replays = false := by
    rintro ⟨status, hreply, hcause⟩
    simp [Act.replays, hreply, hcause]
  have hpath : ∀ {α : Type} {path : Bytes} {read : Option Hash → α} {height : UInt64}
      {reply : Except Status (PathResponse α)},
      Ends (queryPath sha256 archive act.host path read height) pre reply post →
      act.asked decodeHeader archive = tryU32 height →
      ((∃ status, reply = .error status ∧ status.cause ≠ some .proofUnavailable) →
        ∃ status, act.reply = .error status ∧ status.cause ≠ some .proofUnavailable) →
      ((∃ response, reply = .ok response) ∨
          (∃ status, reply = .error status ∧ status.cause = some .proofUnavailable) ↔
        act.replays = true) →
      (act.asked decodeHeader archive = none ∧ act.replays = false ∧ post = pre) ∨
        ∃ call : Tracker.Act, act.asked decodeHeader archive = some call.seq ∧
          call.replays = act.replays ∧ Tracker.Step sha256 archive.metadata pre call post := by
    intro α path read height reply hends hasked hrefused hreplays
    rcases queryPath_tracker hends with ⟨hnone, hpost, hreply⟩ | ⟨call, hseq, hcall, hiff⟩
    · exact .inl ⟨hasked.trans hnone, hquiet (hrefused hreply), hpost⟩
    · exact .inr ⟨call, hasked.trans hseq, Bool.eq_iff_iff.mpr (hiff.trans hreplays), hcall⟩
  obtain ⟨host, request, reply⟩ := act
  cases request with
  | packetCommitment req =>
      exact hpath hstep rfl id (Act.replays_iff ⟨host, .packetCommitment req, reply⟩).symm
  | packetReceipt req =>
      exact hpath hstep rfl id (Act.replays_iff ⟨host, .packetReceipt req, reply⟩).symm
  | acknowledgement req =>
      exact hpath hstep rfl id (Act.replays_iff ⟨host, .acknowledgement req, reply⟩).symm
  | ibcHeader height =>
      rcases ends_queryIbcHeader hstep with ⟨hnone, hpost, hreply⟩ |
        ⟨value, root, hasked, -, hroot, hreply⟩
      · exact .inl ⟨hnone, hquiet hreply, hpost⟩
      · refine .inr ⟨.rootAt host.available height.toUInt32 root, hasked, ?_, hroot⟩
        rcases hreply with ⟨error, rfl, rfl⟩ | ⟨hash, rfl, rfl⟩
        · have hne := rootAt_error hroot
          simpa [Tracker.Act.replays, Act.replays] using hne
        · simp [Tracker.Act.replays, Act.replays]

/-- **The gateway runs its tracker.**  The calls that the requests make form a run of the
tracker, for the ledgers they ask for and from the ledger they began at. -/
theorem exists_trackerRun (hrun : Run sha256 decodeHeader archive ibcContractId history st) :
    ∃ calls, Tracker.Run sha256 archive.metadata ibcContractId calls st ∧
      (calls.map fun call => call.act.seq) =
        (history.filterMap fun entry => entry.act.asked decodeHeader archive) ∧
      Tracker.firstReplayed calls = started decodeHeader archive history := by
  apply hrun.invariant fun history st => ∃ calls,
    Tracker.Run sha256 archive.metadata ibcContractId calls st ∧
      (calls.map fun call => call.act.seq) =
        (history.filterMap fun entry => entry.act.asked decodeHeader archive) ∧
      Tracker.firstReplayed calls = started decodeHeader archive history
  · rintro st rfl
    exact ⟨[], .start rfl, rfl, rfl⟩
  · rintro history entry - ⟨calls, hcalls, hasked, hstarted⟩ hstep
    rcases Step.tracker hstep with ⟨hnone, hquiet, hpost⟩ | ⟨call, hsome, hreplays, hcall⟩
    · refine ⟨calls, hpost ▸ hcalls, ?_, ?_⟩
      · simpa [hnone] using hasked
      · rw [hstarted, started, started, List.findSome?_append]
        simp [hquiet]
    · refine ⟨calls ++ [⟨entry.pre, call, entry.post⟩], hcalls.next hcall, ?_, ?_⟩
      · simp [hasked, hsome]
      · rw [Tracker.firstReplayed_append, hstarted, started, started, List.findSome?_append]
        simp [hreplays, hsome]

/-! ### The tree behind an answer -/

theorem started_append_left {first : UInt32} {more : List (Entry State Act)}
    (h : started decodeHeader archive history = some first) :
    started decodeHeader archive (history ++ more) = some first := by
  rw [started, List.findSome?_append]
  rw [started] at h
  rw [h, Option.some_or]

/-- **Answers come from their ledger.**  While the ledgers asked for do not decrease, a
request that replayed its ledger leaves the tree of the ledgers from the one the gateway
began at to the one asked for, with its root recorded. -/
theorem at_of_request (hrun : Run sha256 decodeHeader archive ibcContractId history st)
    (hascending : Ascending decodeHeader archive history)
    (hsplit : history = before ++ entry :: after) (hreplays : entry.act.replays = true)
    {seq : UInt32} (hasked : entry.act.asked decodeHeader archive = some seq)
    (hroom : seq.toNat + 1 < 2 ^ 32) :
    ∃ first, started decodeHeader archive history = some first ∧
      Tracker.At sha256 archive.metadata ibcContractId first seq entry.post := by
  obtain ⟨hbefore, hstep⟩ := hrun.split hsplit
  obtain ⟨calls, hcalls, hcallsAsked, hcallsStarted⟩ := exists_trackerRun hbefore
  rcases Step.tracker hstep with ⟨hnone, -⟩ | ⟨call, hsome, hcallReplays, hcall⟩
  · rw [hasked] at hnone
    cases hnone
  · obtain rfl : seq = call.seq := Option.some.inj (hasked.symm.trans hsome)
    have hcallsAscending : Tracker.Ascending (calls ++ [⟨entry.pre, call, entry.post⟩]) := by
      have hseqs : List.map (fun called : Entry State Tracker.Act => called.act.seq)
          (calls ++ [⟨entry.pre, call, entry.post⟩]) =
            (before ++ [entry]).filterMap fun entry => entry.act.asked decodeHeader archive := by
        simp [hcallsAsked, hsome]
      rw [Tracker.Ascending, ← List.pairwise_map, hseqs]
      unfold Ascending at hascending
      rw [hsplit, List.append_cons, List.filterMap_append] at hascending
      exact (List.pairwise_append.mp hascending).1
    obtain ⟨first, hfirst, hat⟩ := Tracker.at_of_replays hcalls hcallsAscending rfl hcall
      (hcallReplays.trans hreplays) hroom
    refine ⟨first, ?_, hat⟩
    rw [hsplit, List.append_cons]
    apply started_append_left
    rw [← hfirst, Tracker.firstReplayed_append, hcallsStarted, started, started,
      List.findSome?_append]
    simp [hcallReplays, hsome]

end StellarIbc.Gateway
