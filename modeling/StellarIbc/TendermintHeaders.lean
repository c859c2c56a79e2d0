import StellarIbc.TendermintCodec

/-!
# Tendermint headers on their way to the light client

`tendermint_header_to_soroban_xdr` of `crates/core/src/ibc/soroban.rs`: the gateway takes
the few fields that the light client keeps out of a protobuf header and passes the signed
header and the validator set on as bytes.  The revision is the one of the trusted height.
Messages are decoded and encoded outside the repository.
-/

namespace StellarIbc.Core

open Tendermint (TendermintHeader)

/-- `tendermint.types.Header`, the fields that are read. -/
structure TmInnerHeader where
  height : Int64
  time : Option RawSeconds
  nextValidatorsHash : Bytes
  appHash : Bytes

/-- `Header` of the tendermint light client, with signed headers in `H` and validator sets
in `V`. -/
structure RawTmHeader (H V : Type) where
  signedHeader : Option H
  validatorSet : Option V
  trustedHeight : Option RawHeight

/-- What is used of the protobuf messages. -/
structure HeaderMessages (H V : Type) where
  decode : Bytes → Except Bytes (RawTmHeader H V)
  header : H → Option TmInnerHeader
  encodeSignedHeader : H → Bytes
  encodeValidatorSet : V → Bytes

/-- `u64::try_from`. -/
def tryU64 (n : Int64) : Option UInt64 := if 0 ≤ n then some n.toUInt64 else none

/-- The seconds of a time, 0 for a missing or a negative one. -/
def timestampSecs (time : Option RawSeconds) : UInt64 :=
  (time.map fun t => (max t.seconds 0).toUInt64).getD 0

section

variable {H V : Type} (messages : HeaderMessages H V)

def tendermintHeaderToSorobanXdr (headerBytes : Bytes) : Anyhow Bytes := do
  let header ← withText (ascii "decode tendermint header: ") (messages.decode headerBytes)
  let signedHeader ← okOrElse (ascii "tendermint header missing signed_header")
    header.signedHeader
  let inner ← okOrElse (ascii "signed_header missing inner header") (messages.header signedHeader)
  let trustedHeight ← okOrElse (ascii "tendermint header missing trusted_height")
    header.trustedHeight
  let targetRevisionHeight ← okOrElse (ascii "negative target height") (tryU64 inner.height)
  if inner.nextValidatorsHash.length ≠ 32 then
    throw (ascii "next_validators_hash is " ++ decimal inner.nextValidatorsHash.length ++
      ascii " bytes, expected 32")
  else if inner.appHash.length ≠ 32 then
    throw (ascii "app_hash is " ++ decimal inner.appHash.length ++ ascii " bytes, expected 32")
  else
    let validatorSetBytes := (header.validatorSet.map messages.encodeValidatorSet).getD []
    let signedHeaderBytes := messages.encodeSignedHeader signedHeader
    let trusted ← scvalHeight trustedHeight.revisionNumber trustedHeight.revisionHeight
    let target ← scvalHeight trustedHeight.revisionNumber targetRevisionHeight
    let nextValidatorsHash ← scvalBytes inner.nextValidatorsHash
    let appHash ← scvalBytes inner.appHash
    let signed ← scvalBytes signedHeaderBytes
    let validators ← scvalBytes validatorSetBytes
    let state ← scvalStruct [(ascii "trusted_height", trusted),
      (ascii "target_height", target),
      (ascii "timestamp_secs", .u64 (timestampSecs inner.time)),
      (ascii "next_validators_hash", nextValidatorsHash),
      (ascii "app_hash", appHash),
      (ascii "signed_header_bytes", signed),
      (ascii "validator_set_bytes", validators)]
    return state.toXdr

end

/-! ### What the light client is told -/

/-- `record` says what `inner` says, at the revision of the trusted height. -/
structure Relays (inner : TmInnerHeader) (trusted : RawHeight) (record : TendermintHeader) :
    Prop where
  trustedHeight : record.trustedHeight = ⟨trusted.revisionNumber, trusted.revisionHeight⟩
  revisionNumber : record.targetHeight.revisionNumber = trusted.revisionNumber
  revisionHeight : (record.targetHeight.revisionHeight.toNat : ℤ) = inner.height.toInt
  timestampSecs : record.timestampSecs = Core.timestampSecs inner.time
  nextValidatorsHash : record.nextValidatorsHash.val = inner.nextValidatorsHash
  appHash : record.appHash.val = inner.appHash

theorem names_header_written : FieldNames [ascii "trusted_height", ascii "target_height",
    ascii "timestamp_secs", ascii "next_validators_hash", ascii "app_hash",
    ascii "signed_header_bytes", ascii "validator_set_bytes"] := by
  decide

theorem names_header : FieldNames [ascii "app_hash", ascii "next_validators_hash",
    ascii "signed_header_bytes", ascii "target_height", ascii "timestamp_secs",
    ascii "trusted_height", ascii "validator_set_bytes"] := by
  decide

/-- The fields in the order in which they are written. -/
theorem scvalStruct_header (record : TendermintHeader) :
    scvalStruct [(ascii "trusted_height", record.trustedHeight.toScVal),
        (ascii "target_height", record.targetHeight.toScVal),
        (ascii "timestamp_secs", .u64 record.timestampSecs),
        (ascii "next_validators_hash", .bytes record.nextValidatorsHash.val),
        (ascii "app_hash", .bytes record.appHash.val),
        (ascii "signed_header_bytes", .bytes record.signedHeaderBytes),
        (ascii "validator_set_bytes", .bytes record.validatorSetBytes)] =
      .ok record.toScVal := by
  rw [scvalStruct_of_fieldNames]
  · rfl
  · exact names_header_written

/-- The two byte strings have lengths of 32 bits. -/
structure HeaderBounded (record : TendermintHeader) : Prop where
  signedHeaderBytes : record.signedHeaderBytes.length < 2 ^ 32
  validatorSetBytes : record.validatorSetBytes.length < 2 ^ 32

theorem fits_header {record : TendermintHeader} (h : HeaderBounded record) :
    Fits record.toScVal := by
  have hhash : ∀ hash : BytesN 32, hash.val.length < 2 ^ 32 := by
    intro hash
    rw [hash.property]
    decide
  refine fits_struct names_header ?_
  simp only [List.forall_mem_cons, List.not_mem_nil, false_imp_iff, implies_true, and_true]
  exact ⟨.bytes (hhash _), .bytes (hhash _), .bytes h.signedHeaderBytes, fits_height _, .u64 _,
    fits_height _, .bytes h.validatorSetBytes⟩

theorem tryU64_eq_some {n : Int64} {height : UInt64} (h : tryU64 n = some height) :
    (height.toNat : ℤ) = n.toInt := by
  unfold tryU64 at h
  split at h
  · next hnonneg =>
      obtain rfl := Option.some.inj h
      have hle : 0 ≤ n.toInt := Int64.le_iff_toInt_le.mp hnonneg
      have hbits : n.toUInt64.toNat = n.toBitVec.toNat := rfl
      have hint : n.toInt = n.toBitVec.toInt := rfl
      have hsize := n.toBitVec.isLt
      rw [hint, BitVec.toInt_eq_toNat_cond] at hle ⊢
      rw [hbits]
      split at hle <;> omega
  · cases h

theorem scvalBytes_eq_ok {bytes : Bytes} {val : ScVal} (h : scvalBytes bytes = .ok val) :
    bytes.length < 2 ^ 32 ∧ val = .bytes bytes := by
  unfold scvalBytes at h
  split at h
  · next hlength => exact ⟨hlength, (Except.ok.inj h).symm⟩
  · cases h

theorem anyhow_bind_eq_ok {α β : Type} {first : Anyhow α} {next : α → Anyhow β} {result : β} :
    first >>= next = .ok result ↔ ∃ value, first = .ok value ∧ next value = .ok result := by
  cases first with
  | error e => simp [bind, Except.bind]
  | ok value => simp [bind, Except.bind]

theorem withText_eq_ok {α : Type} {text : Bytes} {result : Except Bytes α} {value : α} :
    withText text result = .ok value ↔ result = .ok value := by
  cases result with
  | error e => simp [withText]
  | ok found => simp [withText]

theorem okOrElse_eq_ok {α : Type} {text : Bytes} {found : Option α} {value : α} :
    okOrElse text found = .ok value ↔ found = some value := by
  cases found with
  | none => simp [okOrElse]
  | some found => simp [okOrElse]

theorem anyhow_ite_throw_eq_ok {α : Type} {condition : Prop} [Decidable condition]
    {error : Bytes} {program : Anyhow α} {result : α} :
    (if condition then throw error else program) = .ok result ↔
      ¬ condition ∧ program = .ok result := by
  by_cases h : condition
  · simp [h, throw, throwThe, MonadExceptOf.throw]
  · simp [h]

variable {H V : Type} {messages : HeaderMessages H V}

/-- What comes out is the XDR of a header that says what the message says. -/
theorem relays_of_tendermintHeader {headerBytes out : Bytes}
    (h : tendermintHeaderToSorobanXdr messages headerBytes = .ok out) :
    ∃ raw signed inner trusted record, messages.decode headerBytes = .ok raw ∧
      raw.signedHeader = some signed ∧ messages.header signed = some inner ∧
      raw.trustedHeight = some trusted ∧ Relays inner trusted record ∧ HeaderBounded record ∧
      out = record.toScVal.toXdr := by
  simp only [tendermintHeaderToSorobanXdr, anyhow_bind_eq_ok, withText_eq_ok, okOrElse_eq_ok,
    anyhow_ite_throw_eq_ok, scvalHeight_eq, Except.ok.injEq, exists_eq_left', not_not] at h
  obtain ⟨raw, hraw, signed, hsigned, inner, hinner, trusted, htrusted, target, htarget,
    hvalidators, happ, nextVal, hnext, appVal, happVal, signedVal, hsignedVal, validatorsVal,
    hvalidatorsVal, state, hstate, hout⟩ := h
  obtain ⟨-, rfl⟩ := scvalBytes_eq_ok hnext
  obtain ⟨-, rfl⟩ := scvalBytes_eq_ok happVal
  obtain ⟨hsignedLength, rfl⟩ := scvalBytes_eq_ok hsignedVal
  obtain ⟨hvalidatorsLength, rfl⟩ := scvalBytes_eq_ok hvalidatorsVal
  let record : TendermintHeader :=
    ⟨⟨trusted.revisionNumber, trusted.revisionHeight⟩, ⟨trusted.revisionNumber, target⟩,
      timestampSecs inner.time, ⟨inner.nextValidatorsHash, hvalidators⟩, ⟨inner.appHash, happ⟩,
      messages.encodeSignedHeader signed,
      (raw.validatorSet.map messages.encodeValidatorSet).getD []⟩
  have hrecord := (scvalStruct_header record).symm.trans hstate
  refine ⟨raw, signed, inner, trusted, record, hraw, hsigned, hinner, htrusted,
    ⟨rfl, rfl, tryU64_eq_some htarget, rfl, rfl, rfl⟩, ⟨hsignedLength, hvalidatorsLength⟩, ?_⟩
  rw [Except.ok.inj hrecord]
  exact (Except.ok.inj hout).symm

end StellarIbc.Core
