import StellarIbc.LightClient
import StellarIbc.Sha256

/-!
# What the signatures of a header bind

The light client checks signatures over the envelopes of a header and stores four other
fields of it.  Nothing connects the two: protobuf lets a later record of a scalar field
replace an earlier one, so the bytes of an accepted message can be extended to carry any
advancing height, any time, any hash and any root with the envelopes they had.
-/

namespace StellarIbc.LightClient

open Protobuf

/-! ### Signature checks -/

/-- A trusted envelope with a valid signature over its preimage or the hash of it. -/
def ScpEnvelope.Signed (api : Api) (cs : ClientState) (env : ScpEnvelope) : Prop :=
  env.trusted cs ∧ env.statementXdr ≠ [] ∧
    (api.verifies (env.preimage cs) env = true ∨
      api.verifies (api.sha256 (env.preimage cs)).val env = true)

theorem scanEnvelopes_eq_ok {api : Api} {cs : ClientState} {scan : QuorumScan}
    {envelopes : List ScpEnvelope} :
    scanEnvelopes api cs scan envelopes = .ok () ↔ ∃ env ∈ envelopes, env.Signed api cs := by
  induction envelopes generalizing scan with
  | nil => simp [scanEnvelopes]
  | cons env envelopes ih =>
      rw [scanEnvelopes]
      simp only [List.mem_cons, exists_eq_or_imp]
      by_cases htrusted : env.trusted cs
      · by_cases hempty : env.statementXdr = []
        · simp [htrusted, hempty, ih, ScpEnvelope.Signed]
        · by_cases hraw : api.verifies (env.preimage cs) env = true
          · simp [htrusted, hempty, hraw, ScpEnvelope.Signed]
          · by_cases hhash : api.verifies (api.sha256 (env.preimage cs)).val env = true
            · simp [htrusted, hempty, hraw, hhash, ScpEnvelope.Signed]
            · simp [htrusted, hempty, hraw, hhash, ih, ScpEnvelope.Signed]
      · simp [htrusted, ih, ScpEnvelope.Signed]

theorem verifyScpQuorum_eq_ok {api : Api} {cs : ClientState} {envelopes : List ScpEnvelope} :
    verifyScpQuorum api cs envelopes = .ok () ↔
      cs.networkId.length = 32 ∧ ∃ env ∈ envelopes, env.Signed api cs := by
  unfold verifyScpQuorum
  rw [← scanEnvelopes_eq_ok]
  by_cases hempty : cs.networkId = []
  · simp [hempty]
  · by_cases hwidth : cs.networkId.length = 32
    · simp only [hempty, hwidth, if_false, ne_eq, not_true, true_and]
      cases scanEnvelopes api cs default envelopes with
      | ok _ => simp
      | error scan => simp
    · simp [hempty, hwidth]

theorem verifyClientMessage_eq_ok {deps : Deps} {clientMessage : Bytes}
    {header : StellarHeader} :
    verifyClientMessage deps clientMessage = .ok header ↔
      ∃ cs trusted, deps.storage.clientState = some cs ∧ cs.frozenHeight = none ∧
        decode StellarHeader.merge clientMessage = some header ∧
        header.trustedHeight = some trusted ∧ trusted.revisionHeight < header.ledgerSeq ∧
        (deps.storage.consensusState trusted.revisionHeight).isSome ∧
        verifyScpQuorum deps.api cs header.scpEnvelopes = .ok () := by
  unfold verifyClientMessage decodeHeader requireClientState requireConsensusState
  simp only [bind_ok_iff, orError_eq_ok]
  constructor
  · rintro ⟨cs, hcs, _, hfrozen, decoded, hdecode, trusted, htrusted, h⟩
    by_cases hle : decoded.ledgerSeq ≤ trusted.revisionHeight
    · simp [hle, throw, throwThe, MonadExceptOf.throw] at h
    · simp only [hle, if_false, bind_ok_iff, orError_eq_ok] at h
      obtain ⟨consensus, hconsensus, _, hquorum, hheader⟩ := h
      obtain rfl : decoded = header := by simpa [pure, Except.pure] using hheader
      exact ⟨cs, trusted, hcs, requireNotFrozen_eq_ok.mp hfrozen, hdecode, htrusted,
        UInt64.not_le.mp hle, by simp [hconsensus], hquorum⟩
  · rintro ⟨cs, trusted, hcs, hfrozen, hdecode, htrusted, hlt, hconsensus, hquorum⟩
    obtain ⟨consensus, hconsensus⟩ := Option.isSome_iff_exists.mp hconsensus
    refine ⟨cs, hcs, (), requireNotFrozen_eq_ok.mpr hfrozen, header, hdecode, trusted, htrusted, ?_⟩
    rw [if_neg (UInt64.not_le.mpr hlt)]
    simp only [bind_ok_iff, orError_eq_ok]
    exact ⟨consensus, hconsensus, (), hquorum, rfl⟩

/-! ### Extending an accepted message -/

/-- The four stored fields, written explicitly. -/
def storedFields (ledgerSeq timestamp : UInt64) (ledgerHash root : Bytes) : List Record :=
  [⟨1, .varint ledgerSeq.toNat⟩, ⟨3, .lengthDelimited root⟩, ⟨6, .varint timestamp.toNat⟩,
    ⟨7, .lengthDelimited ledgerHash⟩]

theorem plain_storedFields (ledgerSeq timestamp : UInt64) (ledgerHash root : Bytes) :
    ∀ record ∈ storedFields ledgerSeq timestamp ledgerHash root, record.Plain := by
  intro record hrecord
  simp only [storedFields, List.mem_cons, List.not_mem_nil, or_false] at hrecord
  rcases hrecord with rfl | rfl | rfl | rfl
  · exact ⟨by norm_num, by norm_num, ledgerSeq.toNat_lt⟩
  · exact ⟨by norm_num, by norm_num, trivial⟩
  · exact ⟨by norm_num, by norm_num, timestamp.toNat_lt⟩
  · exact ⟨by norm_num, by norm_num, trivial⟩

/-- Records appended to a header replace what it says of the stored fields. -/
theorem decode_storedFields {clientMessage ledgerHash root : Bytes} {header : StellarHeader}
    {ledgerSeq timestamp : UInt64}
    (h : decode StellarHeader.merge clientMessage = some header)
    (hsize : (encodeRecords (storedFields ledgerSeq timestamp ledgerHash root)).length < 2 ^ 64) :
    decode StellarHeader.merge
      (clientMessage ++ encodeRecords (storedFields ledgerSeq timestamp ledgerHash root)) =
      some { header with ledgerSeq, timestamp, ledgerHash, ibcStateRoot := root } := by
  unfold decode mergeInto at h
  obtain ⟨values, hvalues, hfold⟩ := Option.bind_eq_some_iff.mp h
  rw [decode, mergeInto_append hvalues, hfold, Option.bind_some,
    mergeInto_encodeRecords (plain_storedFields _ _ _ _) hsize]
  simp [storedFields, StellarHeader.merge, Value.uint64, Value.bytes]

/-- **A relayer chooses what is stored.**  From an accepted message one with the same
envelopes is made that stores any root, hash and time at any height above the trusted
one. -/
theorem verifyClientMessage_storedFields {deps : Deps} {clientMessage ledgerHash root : Bytes}
    {header : StellarHeader} {trusted : Height} {ledgerSeq timestamp : UInt64}
    (h : verifyClientMessage deps clientMessage = .ok header)
    (htrusted : header.trustedHeight = some trusted)
    (hadvance : trusted.revisionHeight < ledgerSeq)
    (hsize : (encodeRecords (storedFields ledgerSeq timestamp ledgerHash root)).length < 2 ^ 64) :
    verifyClientMessage deps
      (clientMessage ++ encodeRecords (storedFields ledgerSeq timestamp ledgerHash root)) =
      .ok { header with ledgerSeq, timestamp, ledgerHash, ibcStateRoot := root } := by
  obtain ⟨cs, trusted', hcs, hfrozen, hdecode, htrusted', -, hconsensus, hquorum⟩ :=
    verifyClientMessage_eq_ok.mp h
  obtain rfl : trusted' = trusted := Option.some.inj (htrusted'.symm.trans htrusted)
  exact verifyClientMessage_eq_ok.mpr ⟨cs, trusted', hcs, hfrozen,
    decode_storedFields hdecode hsize, htrusted, hadvance, hconsensus, hquorum⟩

/-! ### The law and where it holds -/

/-- Equal envelopes, equal stored fields. -/
def HeaderAuthentic (deps : Deps) : Prop :=
  ∀ (message message' : Bytes) (header header' : StellarHeader),
    verifyClientMessage deps message = .ok header →
    verifyClientMessage deps message' = .ok header' →
    header.scpEnvelopes = header'.scpEnvelopes →
    header.ledgerSeq = header'.ledgerSeq ∧ header.timestamp = header'.timestamp ∧
      header.ledgerHash = header'.ledgerHash ∧ header.ibcStateRoot = header'.ibcStateRoot

theorem not_headerAuthentic_of_accepted {deps : Deps} {clientMessage : Bytes}
    {header : StellarHeader} (h : verifyClientMessage deps clientMessage = .ok header) :
    ¬ HeaderAuthentic deps := by
  intro hlaw
  obtain ⟨cs, trusted, -, -, -, htrusted, hadvance, -⟩ := verifyClientMessage_eq_ok.mp h
  have hsize : (encodeRecords (storedFields header.ledgerSeq (header.timestamp + 1) []
      [])).length < 2 ^ 64 :=
    Nat.lt_of_le_of_lt (length_encodeRecords_le _) (show 80 < 2 ^ 64 by norm_num)
  have hforged := verifyClientMessage_storedFields h htrusted hadvance hsize
  obtain ⟨-, htime, -⟩ := hlaw _ _ _ _ h hforged rfl
  simp at htime

/-- There is something to accept: the client is set up and not frozen, a consensus state
is stored at a height with one above it, and some encodable envelope passes the signature
check. -/
def HasSignedEnvelope (deps : Deps) : Prop :=
  ∃ cs height next wire envelope,
    deps.storage.clientState = some cs ∧ cs.frozenHeight = none ∧
      (deps.storage.consensusState height).isSome ∧ height < next ∧ wire.length < 2 ^ 64 ∧
      (Value.lengthDelimited wire).message ScpEnvelope.merge RECURSION_LIMIT default =
        some envelope ∧
      verifyScpQuorum deps.api cs [envelope] = .ok ()

/-- A record adds an envelope or leaves the envelopes as they are. -/
theorem scpEnvelopes_merge {depth : Nat} {header header' : StellarHeader} {record : Record}
    (h : StellarHeader.merge depth header record = some header') :
    header'.scpEnvelopes = header.scpEnvelopes ∨
      ∃ wire envelope, record.value = .lengthDelimited wire ∧
        (Value.lengthDelimited wire).message ScpEnvelope.merge depth default = some envelope ∧
        header'.scpEnvelopes = header.scpEnvelopes ++ [envelope] := by
  unfold StellarHeader.merge at h
  split at h
  case h_4 =>
    obtain ⟨envelope, henvelope, hheader⟩ := Option.bind_eq_some_iff.mp h
    cases hheader
    cases hvalue : record.value with
    | lengthDelimited wire =>
        rw [hvalue] at henvelope
        exact .inr ⟨wire, envelope, rfl, henvelope, rfl⟩
    | varint n => rw [hvalue] at henvelope; cases henvelope
    | sixtyFourBit bytes => rw [hvalue] at henvelope; cases henvelope
    | group => rw [hvalue] at henvelope; cases henvelope
    | thirtyTwoBit bytes => rw [hvalue] at henvelope; cases henvelope
  case h_9 =>
    cases h
    exact .inl rfl
  all_goals
    obtain ⟨value, -, hheader⟩ := Option.bind_eq_some_iff.mp h
    cases hheader
    exact .inl rfl

theorem scpEnvelopes_foldlM {depth : Nat} {values : List Record} {header header' : StellarHeader}
    (h : values.foldlM (StellarHeader.merge depth) header = some header') :
    ∀ envelope ∈ header'.scpEnvelopes, envelope ∈ header.scpEnvelopes ∨
      ∃ value ∈ values, ∃ wire, value.value = .lengthDelimited wire ∧
        (Value.lengthDelimited wire).message ScpEnvelope.merge depth default = some envelope := by
  induction values generalizing header with
  | nil =>
      cases h
      exact fun _ hmem => .inl hmem
  | cons value values ih =>
      rw [List.foldlM_cons] at h
      obtain ⟨middle, hmerge, hrest⟩ := Option.bind_eq_some_iff.mp h
      intro envelope hmem
      rcases ih hrest envelope hmem with hmiddle | ⟨value', hvalue', hwire⟩
      · rcases scpEnvelopes_merge hmerge with hsame | ⟨wire, read, hvalue, hread, hadded⟩
        · exact .inl (hsame ▸ hmiddle)
        · rw [hadded, List.mem_append, List.mem_singleton] at hmiddle
          rcases hmiddle with hold | rfl
          · exact .inl hold
          · exact .inr ⟨value, List.mem_cons_self, wire, hvalue, hread⟩
      · exact .inr ⟨value', List.mem_cons_of_mem _ hvalue', hwire⟩

/-- The envelopes of a decoded header are read from its records. -/
theorem mem_scpEnvelopes {clientMessage : Bytes} {header : StellarHeader}
    (h : decode StellarHeader.merge clientMessage = some header) {envelope : ScpEnvelope}
    (hmem : envelope ∈ header.scpEnvelopes) :
    ∃ wire, wire.length < 2 ^ 64 ∧
      (Value.lengthDelimited wire).message ScpEnvelope.merge RECURSION_LIMIT default =
        some envelope := by
  unfold decode mergeInto at h
  obtain ⟨values, hvalues, hfold⟩ := Option.bind_eq_some_iff.mp h
  have hshort : ∀ value ∈ values, ∀ content, value.value = .lengthDelimited content →
      content.length < 2 ^ 64 :=
    ByteParser.forall_mem_of_all (fun _ _ _ hparses _ hcontent =>
      payload_lt_of_record hparses hcontent) hvalues
  rcases scpEnvelopes_foldlM hfold envelope hmem with hnone | ⟨value, hvalue, wire, hwire, hread⟩
  · cases hnone
  · exact ⟨wire, hshort value hvalue wire hwire, hread⟩

/-- A message that advances from `height` to `next` with one envelope. -/
def advanceRecords (height next : UInt64) (wire : Bytes) : List Record :=
  [⟨1, .varint next.toNat⟩, ⟨4, .lengthDelimited wire⟩,
    messageRecord 5 (Height.mk 0 height).records]

theorem exists_accepted {deps : Deps} (h : HasSignedEnvelope deps) :
    ∃ message header, verifyClientMessage deps message = .ok header := by
  obtain ⟨cs, height, next, wire, envelope, hcs, hfrozen, hconsensus, hnext, hwire, hdecode,
    hquorum⟩ := h
  have hplain : ∀ record ∈ advanceRecords height next wire, record.Plain := by
    intro record hrecord
    simp only [advanceRecords, List.mem_cons, List.not_mem_nil, or_false] at hrecord
    rcases hrecord with rfl | rfl | rfl
    · exact ⟨by norm_num, by norm_num, next.toNat_lt⟩
    · exact ⟨by norm_num, by norm_num, trivial⟩
    · exact plain_messageRecord (by norm_num) _
  have hpayload : ∀ record ∈ advanceRecords height next wire, record.value.payload < 2 ^ 64 := by
    intro record hrecord
    simp only [advanceRecords, List.mem_cons, List.not_mem_nil, or_false] at hrecord
    rcases hrecord with rfl | rfl | rfl
    · exact Nat.two_pow_pos 64
    · exact hwire
    · exact Height.length_encodeRecords_lt _
  have htrusted := mergeHeight_messageRecord (Height.mk 0 height) 99 5
  have hheader : decode StellarHeader.merge (encodeRecords (advanceRecords height next wire)) =
      some { (default : StellarHeader) with
        ledgerSeq := next
        scpEnvelopes := [envelope]
        trustedHeight := some ⟨0, height⟩ } := by
    rw [decode, mergeInto, records_encodeRecords hplain hpayload]
    simp only [RECURSION_LIMIT] at hdecode
    have htag : (default : StellarHeader).trustedHeight = none := rfl
    simp [advanceRecords, StellarHeader.merge, RECURSION_LIMIT, Value.uint64, hdecode,
      messageRecord_tag, htag, htrusted]
    rfl
  exact ⟨_, _, verifyClientMessage_eq_ok.mpr ⟨cs, ⟨0, height⟩, hcs, hfrozen, hheader, rfl, hnext,
    hconsensus, hquorum⟩⟩

theorem hasSignedEnvelope_of_accepted {deps : Deps} {message : Bytes} {header : StellarHeader}
    (h : verifyClientMessage deps message = .ok header) : HasSignedEnvelope deps := by
  obtain ⟨cs, trusted, hcs, hfrozen, hdecode, -, hadvance, hconsensus, hquorum⟩ :=
    verifyClientMessage_eq_ok.mp h
  obtain ⟨hwidth, envelope, hmem, hsigned⟩ := verifyScpQuorum_eq_ok.mp hquorum
  obtain ⟨wire, hwire, hread⟩ := mem_scpEnvelopes hdecode hmem
  exact ⟨cs, trusted.revisionHeight, header.ledgerSeq, wire, envelope, hcs, hfrozen, hconsensus,
    hadvance, hwire, hread,
    verifyScpQuorum_eq_ok.mpr ⟨hwidth, envelope, List.mem_singleton.mpr rfl, hsigned⟩⟩

/-- A statement that the validator of the sample client has signed, and a signature scheme
in which that is the only signature there is. -/
def signedEnvelope : ScpEnvelope :=
  { nodeId := List.replicate 32 1, statementXdr := [5], signature := List.replicate 64 9 }

def signedDeps : Deps :=
  { storage := sampleStorage EMPTY
    api :=
      { ed25519Verify := fun message signature key =>
          some (decide (message = signedEnvelope.preimage sampleClientState ∧
            signature = signedEnvelope.signature ∧ key = signedEnvelope.nodeId))
        sha256 := Sha256.sha256 } }

def replayMessage (ledgerSeq timestamp : UInt64) (ledgerHash root : Bytes) : Bytes :=
  encodeRecords (messageRecord 4 (bytesRecord 1 signedEnvelope.nodeId ++
      (bytesRecord 2 signedEnvelope.statementXdr ++ bytesRecord 3 signedEnvelope.signature)) ::
    messageRecord 5 (Height.mk 0 7).records ::
    storedFields ledgerSeq timestamp ledgerHash root)

def replayHeader (ledgerSeq timestamp : UInt64) (ledgerHash root : Bytes) : StellarHeader :=
  { ledgerSeq, timestamp, ledgerHash
    ibcStateRoot := root
    ledgerHeaderXdr := []
    scpEnvelopes := [signedEnvelope]
    trustedHeight := some ⟨0, 7⟩
    previousLedgerHash := [] }

/-- One envelope, two headers. -/
theorem headerAuthentic_fails_on_replay :
    verifyClientMessage signedDeps
        (replayMessage 8 1700000005 (List.replicate 32 4) (List.replicate 32 6)) =
      .ok (replayHeader 8 1700000005 (List.replicate 32 4) (List.replicate 32 6)) ∧
    verifyClientMessage signedDeps (replayMessage 1000 9 [] (List.replicate 32 255)) =
      .ok (replayHeader 1000 9 [] (List.replicate 32 255)) ∧
    ¬ HeaderAuthentic signedDeps := by
  have haccepted : verifyClientMessage signedDeps
        (replayMessage 8 1700000005 (List.replicate 32 4) (List.replicate 32 6)) =
      .ok (replayHeader 8 1700000005 (List.replicate 32 4) (List.replicate 32 6)) := by
    decide +kernel
  have hreplayed : verifyClientMessage signedDeps
        (replayMessage 1000 9 [] (List.replicate 32 255)) =
      .ok (replayHeader 1000 9 [] (List.replicate 32 255)) := by
    decide +kernel
  refine ⟨haccepted, hreplayed, ?_⟩
  intro hlaw
  have hfields := hlaw _ _ _ _ haccepted hreplayed rfl
  exact absurd hfields.1 (by decide)

/-- **The signatures bind no stored field.**  The law holds exactly where no message can
be accepted: as soon as one signed envelope exists for an unfrozen client with room to
advance, two accepted messages with equal envelopes differ in what they store. -/
theorem headerAuthentic_iff (deps : Deps) : HeaderAuthentic deps ↔ ¬ HasSignedEnvelope deps := by
  constructor
  · intro hlaw hsigned
    obtain ⟨message, header, haccepted⟩ := exists_accepted hsigned
    exact not_headerAuthentic_of_accepted haccepted hlaw
  · intro hnone message message' header header' haccepted
    exact absurd (hasSignedEnvelope_of_accepted haccepted) hnone

end StellarIbc.LightClient
