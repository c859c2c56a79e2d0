import StellarIbc.GatewayQueries
import StellarIbc.StoreMirror

/-!
# The gateway answers for the router

A router whose changes the ledgers report, and a gateway that answers queries from those
ledgers.  What the gateway answers for a ledger is what the router stored in it: a packet
query finds what the router's own reader reads, and a header has the root of the tree of the
router's entries.
-/

namespace StellarIbc.Gateway

open StellarIbc.Core Fallible Contract

variable {sha256 : Bytes → Hash} {decodeHeader : Bytes → Option StellarValue}
variable {archive : Archive} {host : Host} {routerId : Hash}
variable {history before after : List (Entry State Act)} {entry : Entry State Act}
variable {st pre post : State} {first seq : UInt32}
variable {writes : List (Entry Router.Storage Mirror.Act)} {storage : Router.Storage}

/-! ### The tree of the router's entries -/

/-- The metadata of the ledgers from `first` to `seq` has the changes of the router's writes,
from its deployment to `storage`, in order. -/
structure Reports (archive : Archive) (routerId : Hash) (first seq : UInt32)
    (writes : List (Entry Router.Storage Mirror.Act)) (storage : Router.Storage) : Prop where
  run : Mirror.Run routerId writes storage
  delivered : Listing (archive.metadata.changeAt (ledgerRange first seq))
    (Mirror.reportedChanges writes)

/-- The tree of what the router wrote. -/
def routerTree (sha256 : Bytes → Hash) (routerId : Hash)
    (writes : List (Entry Router.Storage Mirror.Act)) : Smt :=
  Smt.ofOps sha256 (Mirror.opsOf routerId (Mirror.reportedChanges writes))

theorem Reports.tree (h : Reports archive routerId first seq writes storage) :
    Tracker.treeFrom sha256 archive.metadata (some routerId) first seq =
      routerTree sha256 routerId writes := by
  rw [routerTree, ← Mirror.ops_of_listing h.delivered]
  rfl

/-- The tracker has the router's tree, and its root recorded for `seq`. -/
structure UpToDate (sha256 : Bytes → Hash) (routerId : Hash) (seq : UInt32)
    (writes : List (Entry Router.Storage Mirror.Act)) (st : State) : Prop where
  tree : st.smt.AgreesOff sha256 [] (routerTree sha256 routerId writes)
  root : st.roots seq = some ((routerTree sha256 routerId writes).root sha256)

/-- A request that replayed its ledger leaves the router's tree of that ledger. -/
theorem served_of_request
    (hrun : Run sha256 decodeHeader archive (some routerId) history st)
    (hascending : Ascending decodeHeader archive history)
    (hstarted : started decodeHeader archive history = some first)
    (hmem : entry ∈ history) (hreplays : entry.act.replays = true)
    (hasked : entry.act.asked decodeHeader archive = some seq)
    (hroom : seq.toNat + 1 < 2 ^ 32)
    (hreports : Reports archive routerId first seq writes storage) :
    UpToDate sha256 routerId seq writes entry.post := by
  obtain ⟨before, after, hsplit⟩ := List.append_of_mem hmem
  obtain ⟨first', hfirst, hat⟩ := at_of_request hrun hascending hsplit hreplays hasked hroom
  obtain rfl := Option.some.inj (hstarted.symm.trans hfirst)
  obtain ⟨htree, hroot⟩ := hat
  rw [hreports.tree] at htree hroot
  exact ⟨htree, hroot⟩

/-- Trees with the same leaves find the same hashes. -/
theorem valueHash_of_agrees {left right : Smt} (h : left.AgreesOff sha256 [] right)
    (path : Bytes) :
    (left.generateMembershipProof sha256 path).map (·.valueHash) =
      (right.generateMembershipProof sha256 path).map (·.valueHash) := by
  have hleaf := h (keyIndexFromHash (sha256 path)) (by simp)
  simp only [Smt.generateMembershipProof, hleaf]
  cases right.leaves[keyIndexFromHash (sha256 path)]? with
  | none => rfl
  | some leaf => by_cases hkey : leaf.1 = sha256 path <;> simp [hkey]

/-! ### Answers -/

/-- `found` is the hash of `stored`, unless nobody wrote `path` and its hash is that of a
path that was written. -/
def Reads (sha256 : Bytes → Hash) (written : Set Bytes) (path : Bytes) (stored : Option Bytes)
    (found : Option Hash) : Prop :=
  found = stored.map sha256 ∨
    path ∉ written ∧ ∃ other ∈ written, other ≠ path ∧ sha256 other = sha256 path

theorem reads_of_finds {written : Set Bytes} {smt found : Smt} {path : Bytes}
    {stored : Option Bytes} (hagrees : found.AgreesOff sha256 [] smt)
    (hfinds : Mirror.Finds sha256 written smt path stored) :
    Reads sha256 written path stored
      ((found.generateMembershipProof sha256 path).map (·.valueHash)) := by
  unfold Reads
  rw [valueHash_of_agrees hagrees]
  exact hfinds

/-- The replies are about `storage`: a packet query answers with the hash of what the
router's reader reads, and a header has the root of the tree of the router's entries. -/
structure Faithful (sha256 : Bytes → Hash) (decodeHeader : Bytes → Option StellarValue)
    (archive : Archive) (written : Set Bytes) (storage : Router.Storage) (act : Act) :
    Prop where
  packetCommitment : ∀ host req response, act = ⟨host, .packetCommitment req, .ok response⟩ →
    Mirror.ValidId req.clientId → ∃ (stored : Option Hash) (found : Option Hash),
      Returns (Router.packetCommitment req.clientId req.sequence) (Mirror.start storage) stored
          (Mirror.start storage) ∧
        Reads sha256 written (packetCommitmentPath req.clientId req.sequence)
          (stored.map Subtype.val) found ∧
        response.answer = hashBytes found
  packetReceipt : ∀ host req response, act = ⟨host, .packetReceipt req, .ok response⟩ →
    Mirror.ValidId req.clientId → ∃ (present : Bool) (found : Option Hash),
      Returns (Router.hasPacketReceipt req.clientId req.sequence) (Mirror.start storage) present
          (Mirror.start storage) ∧
        Reads sha256 written (packetReceiptPath req.clientId req.sequence)
          (if present then some [Router.RECEIPT_SENTINEL] else none) found ∧
        response.answer = found.isSome
  acknowledgement : ∀ host req response, act = ⟨host, .acknowledgement req, .ok response⟩ →
    Mirror.ValidId req.clientId → ∃ (stored : Option Hash) (found : Option Hash),
      Returns (Router.acknowledgement req.clientId req.sequence) (Mirror.start storage) stored
          (Mirror.start storage) ∧
        Reads sha256 written (ackCommitmentPath req.clientId req.sequence)
          (stored.map Subtype.val) found ∧
        response.answer = hashBytes found
  ibcHeader : ∀ host height response, act = ⟨host, .ibcHeader height, .ok response⟩ →
    ∃ value smt, decodeHeader (archive.headers height.toUInt32) = some value ∧
      Mirror.Mirrors sha256 written smt storage ∧
      response = (stellarHeader height.toUInt32 (archive.headers height.toUInt32) value
        (smt.root sha256)).encode

/-- An answered packet query found what the tree it leaves has. -/
theorem response_of_queryPath {α : Type} {path : Bytes} {read : Option Hash → α}
    {height : UInt64} {response : PathResponse α}
    (h : Ends (queryPath sha256 archive host path read height) pre (.ok response) post) :
    (∃ found, post.smt.generateMembershipProof sha256 path = some found ∧
        response = ⟨read (some found.valueHash), serializeMembershipProofWithIndex found path
          found.valueHash.val (keyIndex sha256 path), height⟩) ∨
      post.smt.generateMembershipProof sha256 path = none ∧ response.answer = read none := by
  rcases ends_queryPath h with ⟨-, herror, -⟩ | ⟨seq, served, hseq, hserved, hreply⟩
  · cases herror
  obtain ⟨root, hroot, hserve⟩ := ends_servePath hserved
  rcases hreply with ⟨error, -, herror⟩ | ⟨proof, rfl, hok⟩ | ⟨proof, rfl, hok⟩
  · cases herror
  · obtain ⟨-, hfound⟩ := hserve _ rfl
    obtain rfl := Except.ok.inj hok
    unfold Smt.serve at hfound
    cases hmember : post.smt.generateMembershipProof sha256 path with
    | none =>
        rw [hmember] at hfound
        obtain ⟨_, -, hcases⟩ := Option.map_eq_some_iff.mp hfound
        cases hcases
    | some found =>
        rw [hmember] at hfound
        obtain rfl := Served.found.inj (Option.some.inj hfound)
        exact .inl ⟨_, rfl, rfl⟩
  · obtain ⟨-, habsent⟩ := hserve _ rfl
    obtain rfl := Except.ok.inj hok
    unfold Smt.serve at habsent
    cases hmember : post.smt.generateMembershipProof sha256 path with
    | none => exact .inr ⟨rfl, rfl⟩
    | some found =>
        rw [hmember] at habsent
        cases Option.some.inj habsent

/-- What a packet query answers about a path, beside what the router's reader reads there. -/
theorem answer_of_finds {α β : Type} {path : Bytes} {read : Option Hash → α} {height : UInt64}
    {response : PathResponse α} {reader : Router.RouterM Unit β} {entryOf : β → Option Bytes}
    {written : Set Bytes} {smt : Smt} (hagrees : post.smt.AgreesOff sha256 [] smt)
    (hfinds : ∃ stored, Returns reader (Mirror.start storage) stored (Mirror.start storage) ∧
      Mirror.Finds sha256 written smt path (entryOf stored))
    (h : Ends (queryPath sha256 archive host path read height) pre (.ok response) post) :
    ∃ stored found,
      Returns reader (Mirror.start storage) stored (Mirror.start storage) ∧
        Reads sha256 written path (entryOf stored) found ∧ response.answer = read found := by
  obtain ⟨stored, hreturns, hfinds⟩ := hfinds
  have hreads := reads_of_finds hagrees hfinds
  rcases response_of_queryPath h with ⟨found, hfound, rfl⟩ | ⟨hnone, hanswer⟩
  · rw [hfound] at hreads
    exact ⟨stored, _, hreturns, hreads, rfl⟩
  · rw [hnone] at hreads
    exact ⟨stored, _, hreturns, hreads, hanswer⟩

/-- An answered header query found a root. -/
theorem header_of_reply {height : UInt64} {response : Bytes}
    (h : Ends (queryIbcHeader sha256 decodeHeader archive host height) pre (.ok response) post) :
    ∃ value root, (Request.ibcHeader height).asked decodeHeader archive host =
        some height.toUInt32 ∧
      decodeHeader (archive.headers height.toUInt32) = some value ∧
      RootStep sha256 archive.metadata height.toUInt32 pre (.ok root) post ∧
      response = (stellarHeader height.toUInt32 (archive.headers height.toUInt32) value
        root).encode := by
  rcases ends_queryIbcHeader h with ⟨-, -, status, herror, -⟩ |
    ⟨value, outcome, hasked, hvalue, hroot, ⟨_, -, herror⟩ | ⟨root, rfl, hok⟩⟩
  · cases herror
  · cases herror
  · exact ⟨value, root, hasked, hvalue, ends_rootAt hroot, Except.ok.inj hok⟩

/-- **The gateway answers for the router.**  In every run of the gateway in which the
ledgers asked for do not decrease, every reply for a ledger is about what the router stored
after that ledger, although requests may have failed at any ledger before. -/
theorem replies_faithful
    (hrun : Run sha256 decodeHeader archive (some routerId) history st)
    (hascending : Ascending decodeHeader archive history)
    (hstarted : started decodeHeader archive history = some first)
    (hmem : entry ∈ history) (hasked : entry.act.asked decodeHeader archive = some seq)
    (hroom : seq.toNat + 1 < 2 ^ 32)
    (hreports : Reports archive routerId first seq writes storage)
    (hindex : Set.InjOn (keyIndex sha256) (Mirror.writtenPaths writes)) :
    Faithful sha256 decodeHeader archive (Mirror.writtenPaths writes) storage entry.act := by
  obtain ⟨before, after, hsplit⟩ := List.append_of_mem hmem
  obtain ⟨-, hstep⟩ := hrun.split hsplit
  have hmirrors := (Mirror.tracked_of_run hreports.run).mirrors hindex
  have hat : entry.act.replays = true →
      UpToDate sha256 routerId seq writes entry.post := fun hreplays =>
    served_of_request hrun hascending hstarted hmem hreplays hasked hroom hreports
  constructor
  · intro host req response hact hid
    have htree := (hat (by rw [hact]; rfl)).tree
    rw [hact] at hstep
    exact answer_of_finds htree (hmirrors.packetCommitment _ req.sequence hid) hstep
  · intro host req response hact hid
    have htree := (hat (by rw [hact]; rfl)).tree
    rw [hact] at hstep
    exact answer_of_finds htree (hmirrors.packetReceipt _ req.sequence hid) hstep
  · intro host req response hact hid
    have htree := (hat (by rw [hact]; rfl)).tree
    rw [hact] at hstep
    exact answer_of_finds htree (hmirrors.acknowledgement _ req.sequence hid) hstep
  · intro host height response hact
    have hrecorded := (hat (by rw [hact]; rfl)).root
    rw [hact] at hstep hasked
    obtain ⟨value, root, hsome, hvalue, hroot, rfl⟩ := header_of_reply hstep
    obtain rfl : height.toUInt32 = seq := Option.some.inj (hsome.symm.trans hasked)
    obtain rfl := Option.some.inj ((Tracker.roots_of_ok hroot).symm.trans hrecorded)
    exact ⟨value, _, hvalue, hmirrors, rfl⟩

/-! ### Executing requests -/

section
variable (sha256 : Bytes → Hash) (decodeHeader : Bytes → Option StellarValue)
variable (archive : Archive)

def execute (st : State) (input : Host × Request) : Entry State Act :=
  let ended := Fallible.execute (input.2.handle sha256 decodeHeader archive input.1) st
  ⟨st, ⟨input.1, input.2, ended.1⟩, ended.2⟩

/-- Answer the requests one after the other on a new tracker. -/
def executeAll (ibcContractId : Option Hash) (inputs : List (Host × Request)) :
    List (Entry State Act) × State :=
  feed (execute sha256 decodeHeader archive) [] (.new ibcContractId) inputs

theorem run_executeAll (ibcContractId : Option Hash) (inputs : List (Host × Request)) :
    Run sha256 decodeHeader archive ibcContractId
      (executeAll sha256 decodeHeader archive ibcContractId inputs).1
      (executeAll sha256 decodeHeader archive ibcContractId inputs).2 := by
  have hstart : Run sha256 decodeHeader archive ibcContractId [] (.new ibcContractId) :=
    .start rfl
  refine hstart.feed_of_step ?_ inputs
  intro st input
  exact ⟨rfl, ends_execute _ st⟩

end

/-! ### A chain with one packet -/

/-- A ledger header with a signed value. -/
def sampleHeaderXdr : Bytes :=
  beBytes 4 22 ++ List.replicate 32 1 ++ List.replicate 32 2 ++ be64 1700000000 ++ beBytes 4 0 ++
    (beBytes 4 1 ++ beBytes 4 0 ++ List.replicate 32 3 ++ beBytes 4 64 ++ List.replicate 64 4) ++
    List.replicate 32 5 ++ List.replicate 32 6 ++ beBytes 4 9 ++ be64 1000 ++ be64 10 ++ beBytes 4 0 ++
    be64 7 ++ beBytes 4 100 ++ beBytes 4 5000000 ++ beBytes 4 100 ++ List.replicate 128 0 ++ beBytes 4 0

def sampleStellarValue : StellarValue :=
  ⟨.fill 32 2, 1700000000, .signed (.fill 32 3) (List.replicate 64 4)⟩

def sampleDecode (bytes : Bytes) : Option StellarValue :=
  if bytes = sampleHeaderXdr then some sampleStellarValue else none

/-- Ledger 9 reports the commitment to a packet. -/
def sampleArchive : Archive where
  headers _ := sampleHeaderXdr
  metadata seq :=
    if seq = 9 then .decoded (.v1 [.v4 [] [[Mirror.sampleCommitted]] []]) else .missing

def sampleWrites : List (Entry Router.Storage Mirror.Act) :=
  [⟨Mirror.deployed, ⟨some (Router.commitmentKey Mirror.sampleClient 1),
    [Mirror.sampleCommitted]⟩, Mirror.committed⟩]

def sampleHost : Host := ⟨true, fun _ => true⟩

/-- The header is asked for while the API is away, then again, then the packet. -/
def sampleRequests : List (Host × Request) :=
  [(⟨true, fun _ => false⟩, .ibcHeader 9), (sampleHost, .ibcHeader 9),
    (sampleHost, .packetCommitment ⟨Mirror.sampleClient, 1, 9⟩)]

def sampleRoot : Hash :=
  ⟨[175, 188, 75, 15, 141, 247, 132, 74, 204, 114, 2, 192, 238, 118, 53, 100, 236, 27, 35, 8,
    107, 35, 22, 96, 175, 128, 123, 106, 127, 101, 133, 215], rfl⟩

def sampleReply : Bytes :=
  (stellarHeader 9 sampleHeaderXdr sampleStellarValue sampleRoot).encode

def sampleRun : List (Entry State Act) × State :=
  executeAll Sha256.sha256 sampleDecode sampleArchive (some Mirror.sampleId) sampleRequests

theorem run_sampleWrites : Mirror.Run Mirror.sampleId sampleWrites Mirror.committed := by
  have hid : Mirror.ValidId Mirror.sampleClient := ⟨by decide, by decide⟩
  have hinit : Mirror.Run Mirror.sampleId [] Mirror.deployed := .start rfl
  have hcommitted : Mirror.Step Mirror.sampleId Mirror.deployed
      ⟨some (Router.commitmentKey Mirror.sampleClient 1), [Mirror.sampleCommitted]⟩
      Mirror.committed :=
    @Mirror.Step.write _ _ (.packetCommitment Mirror.sampleClient 1 Mirror.sampleId) _ _ _ hid
      (Router.returns_v2PathKey.mpr ⟨hid.fits, rfl, rfl⟩) rfl (.inl rfl)
  exact hinit.next hcommitted

theorem reports_sampleArchive :
    Reports sampleArchive Mirror.sampleId 9 9 sampleWrites Mirror.committed :=
  ⟨run_sampleWrites, sampleArchive.metadata.listing_collected (ledgerRange 9 9)⟩

theorem sampleWrites_index :
    Set.InjOn (keyIndex Sha256.sha256) (Mirror.writtenPaths sampleWrites) := by
  have hpath : ∀ path ∈ Mirror.writtenPaths sampleWrites,
      path = Router.commitmentKey Mirror.sampleClient 1 := by
    simp [Mirror.writtenPaths, sampleWrites, eq_comm]
  intro path hmem other hother _
  rw [hpath path hmem, hpath other hother]

theorem routerTree_sampleRoot :
    (routerTree Sha256.sha256 Mirror.sampleId sampleWrites).root Sha256.sha256 = sampleRoot := by
  unfold routerTree
  rw [Sha256.sha256_eq_eval]
  exact Subtype.ext (by decide +kernel)

theorem routerTree_leaf :
    (routerTree Sha256.sha256 Mirror.sampleId sampleWrites).leaves[
        keyIndex Sha256.sha256 (Router.commitmentKey Mirror.sampleClient 1)]? =
      some (Sha256.sha256 (Router.commitmentKey Mirror.sampleClient 1),
        Sha256.sha256 Mirror.sampleId.val) :=
  (Mirror.tracked_of_run run_sampleWrites).holds sampleWrites_index _
    ⟨_, List.mem_singleton_self _, rfl⟩

/-- A packet query at a ledger whose root is recorded answers from the tree as it is. -/
theorem ends_queryPath_found {α : Type} {path : Bytes} {read : Option Hash → α}
    {height : UInt64} {proof : MembershipProof} {root : Hash} (hseq : tryU32 height = some seq)
    (hroots : st.roots seq = some root)
    (hproof : st.smt.generateMembershipProof sha256 path = some proof) :
    Ends (queryPath sha256 archive host path read height) st
      (.ok ⟨read (some proof.valueHash), serializeMembershipProofWithIndex proof path
        proof.valueHash.val (keyIndex sha256 path), height⟩) st := by
  have hserve : st.smt.serve sha256 path = some (.found proof) := by
    rw [Smt.serve, hproof]
  have hserved : Ends (servePath sha256 archive.metadata host.available seq path) st
      (.ok (.found proof)) st := Tracker.execute_servePath hroots hserve
  unfold queryPath orInternal proofForPath
  rw [hseq, ends_some_bind, ends_bind]
  refine .inl ⟨_, st, ends_mapError.mpr ⟨_, ends_bind.mpr (.inl ⟨_, st, hserved, rfl⟩), rfl⟩, rfl⟩

set_option maxRecDepth 8000 in
theorem started_sampleRun : started sampleDecode sampleArchive sampleRun.1 = some 9 := rfl

set_option maxRecDepth 8000 in
theorem ascending_sampleRun : Ascending sampleDecode sampleArchive sampleRun.1 := by
  have hasked : (sampleRun.1.filterMap fun entry => entry.act.asked sampleDecode sampleArchive) =
      [9, 9, 9] := rfl
  rw [Ascending, hasked]
  decide

/-- The header query that was answered. -/
def sampleHeaderEntry : Entry State Act :=
  execute Sha256.sha256 sampleDecode sampleArchive (.new (some Mirror.sampleId))
    (sampleHost, .ibcHeader 9)

/-- The packet query after it. -/
def samplePacketEntry : Entry State Act :=
  execute Sha256.sha256 sampleDecode sampleArchive sampleHeaderEntry.post
    (sampleHost, .packetCommitment ⟨Mirror.sampleClient, 1, 9⟩)

set_option maxRecDepth 8000 in
theorem sampleRun_eq : ∃ refused, sampleRun.1 = [refused, sampleHeaderEntry, samplePacketEntry] :=
  ⟨_, rfl⟩

set_option maxRecDepth 8000 in
theorem sampleHeaderEntry_act :
    sampleHeaderEntry.act = ⟨sampleHost, .ibcHeader 9, .ok sampleReply⟩ := by
  rw [sampleReply, ← routerTree_sampleRoot]
  rfl

/-- The proof of the commitment. -/
def samplePacketProof : Bytes :=
  serializeMembershipProofWithIndex
    ⟨Sha256.sha256 (Router.commitmentKey Mirror.sampleClient 1), Sha256.sha256 Mirror.sampleId.val,
      (routerTree Sha256.sha256 Mirror.sampleId sampleWrites).siblingsFor Sha256.sha256
        (keyIndex Sha256.sha256 (Router.commitmentKey Mirror.sampleClient 1))⟩
    (packetCommitmentPath Mirror.sampleClient 1) (Sha256.sha256 Mirror.sampleId.val).val
    (keyIndex Sha256.sha256 (packetCommitmentPath Mirror.sampleClient 1))

set_option maxRecDepth 8000 in
theorem samplePacketEntry_act :
    samplePacketEntry.act = ⟨sampleHost, .packetCommitment ⟨Mirror.sampleClient, 1, 9⟩,
      .ok ⟨(Sha256.sha256 Mirror.sampleId.val).val, samplePacketProof, 9⟩⟩ := by
  have htree : sampleHeaderEntry.post.smt =
      routerTree Sha256.sha256 Mirror.sampleId sampleWrites := rfl
  have hroots : sampleHeaderEntry.post.roots 9 =
      some ((routerTree Sha256.sha256 Mirror.sampleId sampleWrites).root Sha256.sha256) := rfl
  have hpath : packetCommitmentPath Mirror.sampleClient 1 =
      Router.commitmentKey Mirror.sampleClient 1 := Core.v2Path_eq ..
  have hproof := Smt.generateMembershipProof_of_some routerTree_leaf
  rw [← htree, ← hpath] at hproof
  have hends : Ends (queryPacketCommitment Sha256.sha256 sampleArchive sampleHost
      ⟨Mirror.sampleClient, 1, 9⟩) sampleHeaderEntry.post (.ok _) sampleHeaderEntry.post :=
    ends_queryPath_found rfl hroots hproof
  have hreply := congrArg Prod.fst hends
  exact congrArg (Act.mk sampleHost (.packetCommitment ⟨Mirror.sampleClient, 1, 9⟩)) hreply

theorem mem_sampleHeaderEntry : sampleHeaderEntry ∈ sampleRun.1 := by
  obtain ⟨refused, hrun⟩ := sampleRun_eq
  simp [hrun]

theorem mem_samplePacketEntry : samplePacketEntry ∈ sampleRun.1 := by
  obtain ⟨refused, hrun⟩ := sampleRun_eq
  simp [hrun]

set_option maxRecDepth 8000 in
theorem replies_faithful_sample :
    (∃ response, samplePacketEntry.act.reply = .ok response) ∧
      Faithful Sha256.sha256 sampleDecode sampleArchive (Mirror.writtenPaths sampleWrites)
        Mirror.committed samplePacketEntry.act := by
  refine ⟨?_, ?_⟩
  · rw [samplePacketEntry_act]
    exact ⟨_, rfl⟩
  · exact replies_faithful (run_executeAll _ _ _ _ sampleRequests) ascending_sampleRun
      started_sampleRun mem_samplePacketEntry rfl (by decide) reports_sampleArchive
      sampleWrites_index

end StellarIbc.Gateway
