import StellarIbc.ByteParser
import StellarIbc.Utf8

/-!
# Protobuf wire format

The byte level of protobuf messages as `prost` reads and writes it: varints of at most
ten bytes, keys, length-delimited values, and groups, which are only ever skipped.  A
message is a list of records, and a message type says how a record is merged into a
value.  The two facts used elsewhere are that records read back as they were written,
and that a concatenation of two messages reads as the records of both.
-/

namespace StellarIbc.Protobuf

open ByteParser

/-! ### Varints -/

/-- The groups of seven bits of a varint, least significant first, at most `fuel`. -/
def varintBytes : Nat → Nat → Bytes
  | 0, _ => []
  | fuel + 1, n =>
      if n < 128 then [UInt8.ofNat n]
      else UInt8.ofNat (n % 128 + 128) :: varintBytes fuel (n / 128)

/-- `encode_varint` of a `u64`. -/
def encodeVarint (n : Nat) : Bytes := varintBytes 10 n

/-- Read a varint of at most `fuel` bytes, the last of them of at most one bit. -/
def varintValue : Nat → ByteParser Nat
  | 0 => fail
  | fuel + 1 => do
      let first ← byte
      if first.toNat < 128 then
        if fuel = 0 ∧ 2 ≤ first.toNat then fail else pure first.toNat
      else
        let high ← varintValue fuel
        return first.toNat - 128 + 128 * high

/-- `decode_varint`. -/
def decodeVarint : ByteParser Nat := varintValue 10

theorem varintBytes_parses (fuel n : Nat) (hn : n < 2 * 128 ^ fuel) (more : Bytes) :
    Parses (varintValue (fuel + 1)) (varintBytes (fuel + 1) n ++ more) n more := by
  induction fuel generalizing n with
  | zero =>
      have hsmall : n < 2 := by simpa using hn
      have hbyte : (UInt8.ofNat n).toNat = n := by
        rw [UInt8.toNat_ofNat']
        omega
      have hlast : ¬ (0 = 0 ∧ 2 ≤ n) := by omega
      rw [varintBytes, if_pos (by omega), varintValue]
      refine parses_bind.mpr ⟨UInt8.ofNat n, more, parses_byte.mpr rfl, ?_⟩
      rw [hbyte, if_pos (by omega), if_neg hlast]
      exact parses_pure.mpr ⟨rfl, rfl⟩
  | succ fuel ih =>
      unfold varintBytes
      by_cases hlast : n < 128
      · have hbyte : (UInt8.ofNat n).toNat = n := by
          rw [UInt8.toNat_ofNat']
          omega
        simp [varintValue, hbyte, hlast]
      · have hbyte : (UInt8.ofNat (n % 128 + 128)).toNat = n % 128 + 128 := by
          rw [UInt8.toNat_ofNat']
          omega
        have hrest : n / 128 < 2 * 128 ^ fuel := by
          rw [pow_succ] at hn
          omega
        rw [if_neg hlast, List.cons_append, varintValue]
        simp only [parses_bind, parses_byte, parses_ite, parses_pure]
        refine ⟨_, _, rfl, .inr ⟨by omega, n / 128, more, ih _ hrest, ?_, rfl⟩⟩
        omega

theorem varintValue_lt (fuel : Nat) {bytes rest : Bytes} {n : Nat}
    (h : Parses (varintValue (fuel + 1)) bytes n rest) : n < 2 * 128 ^ fuel := by
  induction fuel generalizing bytes rest n with
  | zero =>
      rw [varintValue] at h
      simp only [parses_bind, parses_byte, parses_ite, parses_pure, parses_fail, and_false,
        false_or, true_and, not_le] at h
      obtain ⟨first, middle, -, ⟨-, hsmall, rfl, -⟩ | ⟨-, high, _, hhigh, -⟩⟩ := h
      · simpa using hsmall
      · exact absurd hhigh parses_fail
  | succ fuel ih =>
      rw [varintValue] at h
      simp only [parses_bind, parses_byte, parses_ite, parses_pure, parses_fail, and_false,
        false_or] at h
      obtain ⟨first, middle, -, ⟨hsmall, -, rfl, -⟩ | ⟨-, high, rest', hhigh, rfl, -⟩⟩ := h
      · have hpos : 0 < 128 ^ fuel := by positivity
        rw [pow_succ]
        omega
      · have hbound := ih hhigh
        have hfirst := first.toNat_lt
        rw [pow_succ]
        omega

theorem decodeVarint_lt {bytes rest : Bytes} {n : Nat} (h : Parses decodeVarint bytes n rest) :
    n < 2 ^ 64 := by
  have hbound := varintValue_lt 9 h
  norm_num at hbound
  omega

theorem encodeVarint_parses {n : Nat} (hn : n < 2 ^ 64) (more : Bytes) :
    Parses decodeVarint (encodeVarint n ++ more) n more :=
  varintBytes_parses 9 n (by norm_num; omega) more

theorem varintValue_stable (fuel : Nat) : Stable (varintValue fuel) := by
  induction fuel with
  | zero => exact .fail
  | succ fuel ih =>
      refine Stable.byte.bind fun first => .ite (.ite .fail (.pure _)) ?_
      exact ih.bind fun high => .pure _

theorem varintValue_bounded (fuel : Nat) : Bounded (varintValue fuel) := by
  induction fuel with
  | zero => exact .fail
  | succ fuel ih =>
      refine Bounded.byte.bind fun first => .ite (.ite .fail (.pure _)) ?_
      exact ih.bind fun high => .pure _

theorem decodeVarint_stable : Stable decodeVarint := varintValue_stable 10

theorem decodeVarint_consumes : Consumes decodeVarint := by
  refine Consumes.of_byte fun first => .ite (.ite .fail (.pure _)) ?_
  exact (varintValue_bounded 9).bind fun high => .pure _

/-! ### Keys -/

inductive WireType where
  | varint
  | sixtyFourBit
  | lengthDelimited
  | startGroup
  | endGroup
  | thirtyTwoBit
deriving DecidableEq, Repr

def WireType.ofCode : Nat → Option WireType
  | 0 => some .varint
  | 1 => some .sixtyFourBit
  | 2 => some .lengthDelimited
  | 3 => some .startGroup
  | 4 => some .endGroup
  | 5 => some .thirtyTwoBit
  | _ => none

def WireType.code : WireType → Nat
  | .varint => 0
  | .sixtyFourBit => 1
  | .lengthDelimited => 2
  | .startGroup => 3
  | .endGroup => 4
  | .thirtyTwoBit => 5

/-- `encode_key`. -/
def encodeKey (tag : Nat) (wireType : WireType) : Bytes :=
  encodeVarint (tag * 8 + wireType.code)

/-- A key is a `u32`, its wire type is known and its tag is not 0. -/
def splitKey (key : Nat) : Option (Nat × WireType) :=
  if key < 2 ^ 32 ∧ 8 ≤ key then (WireType.ofCode (key % 8)).map (key / 8, ·) else none

/-- `decode_key`. -/
def decodeKey : ByteParser (Nat × WireType) := do
  let key ← decodeVarint
  ofOption (splitKey key)

theorem splitKey_key {tag : Nat} (htag : 0 < tag) (hbound : tag < 2 ^ 29)
    (wireType : WireType) : splitKey (tag * 8 + wireType.code) = some (tag, wireType) := by
  have hcode : wireType.code < 8 := by cases wireType <;> decide
  have hofCode : WireType.ofCode wireType.code = some wireType := by cases wireType <;> rfl
  have hmod : (tag * 8 + wireType.code) % 8 = wireType.code := by omega
  have hdiv : (tag * 8 + wireType.code) / 8 = tag := by omega
  rw [splitKey, if_pos (by omega), hmod, hofCode, hdiv]
  rfl

theorem encodeKey_parses {tag : Nat} (htag : 0 < tag) (hbound : tag < 2 ^ 29)
    (wireType : WireType) (more : Bytes) :
    Parses decodeKey (encodeKey tag wireType ++ more) (tag, wireType) more := by
  have hcode : wireType.code < 8 := by cases wireType <;> decide
  simp only [decodeKey, encodeKey, parses_bind, parses_ofOption]
  exact ⟨_, more, encodeVarint_parses (by omega) more, splitKey_key htag hbound wireType, rfl⟩

theorem decodeKey_stable : Stable decodeKey :=
  decodeVarint_stable.bind fun _ => .ofOption _

theorem decodeKey_consumes : Consumes decodeKey :=
  decodeVarint_consumes.bind fun _ => .ofOption _

/-! ### Records -/

inductive Value where
  | varint (n : Nat)
  | sixtyFourBit (bytes : Bytes)
  | lengthDelimited (bytes : Bytes)
  | group
  | thirtyTwoBit (bytes : Bytes)
deriving DecidableEq, Repr

structure Record where
  tag : Nat
  value : Value
deriving DecidableEq, Repr

/-- A value that is no group. -/
def scalar : WireType → ByteParser Value
  | .varint => do return .varint (← decodeVarint)
  | .sixtyFourBit => do return .sixtyFourBit (← take 8)
  | .lengthDelimited => do
      let length ← decodeVarint
      return .lengthDelimited (← take length)
  | .thirtyTwoBit => do return .thirtyTwoBit (← take 4)
  | .startGroup | .endGroup => fail

/-- Skip to the end of the group `tag`.  `depth` is how many groups may still be nested;
every step reads at least one byte, so the length of the input is enough `fuel`. -/
def skipGroup : Nat → Nat → Nat → ByteParser Unit
  | 0, _, _ => fail
  | fuel + 1, depth, tag => do
      let (inner, wireType) ← decodeKey
      if wireType = .endGroup then
        if inner = tag then pure () else fail
      else if depth = 0 then
        fail
      else if wireType = .startGroup then
        skipGroup fuel (depth - 1) inner
        skipGroup fuel depth tag
      else
        let _ ← scalar wireType
        skipGroup fuel depth tag

/-- `skip_field` on a group at recursion budget `depth`. -/
def group (depth tag : Nat) : ByteParser Unit := fun bytes =>
  (skipGroup bytes.length (depth - 1) tag).run bytes

/-- One record of a message at recursion budget `depth`. -/
def record (depth : Nat) : ByteParser Record := do
  let (tag, wireType) ← decodeKey
  if wireType = .startGroup then
    group depth tag
    return ⟨tag, .group⟩
  else
    return ⟨tag, ← scalar wireType⟩

/-- The records of a message. -/
def records (depth : Nat) (bytes : Bytes) : Option (List Record) := (record depth).all bytes

theorem scalar_stable (wireType : WireType) : Stable (scalar wireType) := by
  cases wireType with
  | varint => exact decodeVarint_stable.bind fun _ => .pure _
  | sixtyFourBit => exact (Stable.take 8).bind fun _ => .pure _
  | lengthDelimited =>
      exact decodeVarint_stable.bind fun length => (Stable.take length).bind fun _ => .pure _
  | thirtyTwoBit => exact (Stable.take 4).bind fun _ => .pure _
  | startGroup => exact .fail
  | endGroup => exact .fail

theorem scalar_bounded (wireType : WireType) : Bounded (scalar wireType) := by
  have hvarint := decodeVarint_consumes.bounded
  cases wireType with
  | varint => exact hvarint.bind fun _ => .pure _
  | sixtyFourBit => exact (Bounded.take 8).bind fun _ => .pure _
  | lengthDelimited =>
      exact hvarint.bind fun length => (Bounded.take length).bind fun _ => .pure _
  | thirtyTwoBit => exact (Bounded.take 4).bind fun _ => .pure _
  | startGroup => exact .fail
  | endGroup => exact .fail

theorem skipGroup_stable (fuel depth tag : Nat) : Stable (skipGroup fuel depth tag) := by
  induction fuel generalizing depth tag with
  | zero => exact .fail
  | succ fuel ih =>
      refine decodeKey_stable.bind fun key => .ite (.ite (.pure _) .fail) (.ite .fail ?_)
      refine .ite ?_ ?_
      · exact (ih _ _).bind fun _ => ih _ _
      · exact (scalar_stable _).bind fun _ => ih _ _

theorem skipGroup_bounded (fuel depth tag : Nat) : Bounded (skipGroup fuel depth tag) := by
  induction fuel generalizing depth tag with
  | zero => exact .fail
  | succ fuel ih =>
      refine decodeKey_consumes.bounded.bind fun key =>
        .ite (.ite (.pure _) .fail) (.ite .fail ?_)
      refine .ite ?_ ?_
      · exact (ih _ _).bind fun _ => ih _ _
      · exact (scalar_bounded _).bind fun _ => ih _ _

theorem skipGroup_mono {fuel fuel' depth tag : Nat} {bytes rest : Bytes}
    (h : Parses (skipGroup fuel depth tag) bytes () rest) (hle : fuel ≤ fuel') :
    Parses (skipGroup fuel' depth tag) bytes () rest := by
  induction fuel generalizing fuel' depth tag bytes rest with
  | zero => exact absurd h parses_fail
  | succ fuel ih =>
      obtain ⟨fuel', rfl⟩ : ∃ n, fuel' = n + 1 := ⟨fuel' - 1, by omega⟩
      unfold skipGroup at h ⊢
      simp only [parses_bind, parses_ite, parses_pure, parses_fail, and_false, or_false,
        false_or] at h ⊢
      obtain ⟨key, middle, hkey, hcases⟩ := h
      refine ⟨key, middle, hkey, ?_⟩
      rcases hcases with hend | ⟨hend, hdepth, ⟨hstart, u, m, hinner, hrest⟩ |
        ⟨hstart, v, m, hscalar, hrest⟩⟩
      · exact .inl hend
      · exact .inr ⟨hend, hdepth, .inl ⟨hstart, u, m, ih hinner (by omega),
          ih hrest (by omega)⟩⟩
      · exact .inr ⟨hend, hdepth, .inr ⟨hstart, v, m, hscalar, ih hrest (by omega)⟩⟩

theorem group_stable (depth tag : Nat) : Stable (group depth tag) := by
  intro bytes value rest h more
  have hmore := skipGroup_stable _ _ _ _ _ _ h more
  exact skipGroup_mono hmore (by simp)

theorem group_bounded (depth tag : Nat) : Bounded (group depth tag) :=
  fun _ _ _ h => skipGroup_bounded _ _ _ _ _ _ h

theorem record_stable (depth : Nat) : Stable (record depth) := by
  refine decodeKey_stable.bind fun key => .ite ?_ ?_
  · exact (group_stable _ _).bind fun _ => .pure _
  · exact (scalar_stable _).bind fun _ => .pure _

theorem record_consumes (depth : Nat) : Consumes (record depth) := by
  refine decodeKey_consumes.bind fun key => .ite ?_ ?_
  · exact (group_bounded _ _).bind fun _ => .pure _
  · exact (scalar_bounded _).bind fun _ => .pure _

theorem payload_lt_of_scalar {wireType : WireType} {bytes rest content : Bytes}
    (h : Parses (scalar wireType) bytes (.lengthDelimited content) rest) :
    content.length < 2 ^ 64 := by
  cases wireType with
  | lengthDelimited =>
      simp only [scalar, parses_bind, parses_pure, parses_take] at h
      obtain ⟨length, _, hlength, taken, _, ⟨rfl, -⟩, hcontent, -⟩ := h
      cases hcontent
      exact decodeVarint_lt hlength
  | varint => simp only [scalar, parses_bind, parses_pure, reduceCtorEq, false_and, and_false,
      exists_false] at h
  | sixtyFourBit => simp only [scalar, parses_bind, parses_pure, reduceCtorEq, false_and,
      and_false, exists_false] at h
  | thirtyTwoBit => simp only [scalar, parses_bind, parses_pure, reduceCtorEq, false_and,
      and_false, exists_false] at h
  | startGroup => exact absurd h parses_fail
  | endGroup => exact absurd h parses_fail

/-- A byte string in a message is no longer than a length can say. -/
theorem payload_lt_of_record {depth : Nat} {bytes rest content : Bytes} {value : Record}
    (h : Parses (record depth) bytes value rest) (hvalue : value.value = .lengthDelimited content) :
    content.length < 2 ^ 64 := by
  simp only [record, parses_bind, parses_ite, parses_pure] at h
  obtain ⟨key, middle, -, ⟨-, _, _, -, rfl, -⟩ | ⟨-, read, _, hscalar, rfl, -⟩⟩ := h
  · cases hvalue
  · obtain rfl : read = .lengthDelimited content := hvalue
    exact payload_lt_of_scalar hscalar

/-- A concatenation of messages has the records of both. -/
theorem records_append {depth : Nat} {bytes more : Bytes} {values : List Record}
    (h : records depth bytes = some values) :
    records depth (bytes ++ more) = (records depth more).map (values ++ ·) :=
  all_append (record_stable depth) (record_consumes depth) h

/-! ### Writing records -/

def encodeRecord (record : Record) : Bytes :=
  match record.value with
  | .varint n => encodeKey record.tag .varint ++ encodeVarint n
  | .sixtyFourBit bytes => encodeKey record.tag .sixtyFourBit ++ bytes
  | .lengthDelimited bytes =>
      encodeKey record.tag .lengthDelimited ++ (encodeVarint bytes.length ++ bytes)
  | .group => encodeKey record.tag .startGroup ++ encodeKey record.tag .endGroup
  | .thirtyTwoBit bytes => encodeKey record.tag .thirtyTwoBit ++ bytes

def encodeRecords (values : List Record) : Bytes := values.flatMap encodeRecord

/-- The records an encoder emits: a tag in range, and an integer or a byte string. -/
def Record.Plain (record : Record) : Prop :=
  0 < record.tag ∧ record.tag < 2 ^ 29 ∧
    match record.value with
    | .varint n => n < 2 ^ 64
    | .lengthDelimited _ => True
    | _ => False

/-- The bytes of a value beyond its key and its length. -/
def Value.payload : Value → Nat
  | .varint _ | .group => 0
  | .sixtyFourBit bytes | .lengthDelimited bytes | .thirtyTwoBit bytes => bytes.length

theorem scalar_varint_parses {n : Nat} (hn : n < 2 ^ 64) (more : Bytes) :
    Parses (scalar .varint) (encodeVarint n ++ more) (.varint n) more := by
  simp only [scalar, parses_bind, parses_pure]
  exact ⟨n, more, encodeVarint_parses hn more, rfl, rfl⟩

theorem scalar_lengthDelimited_parses {bytes : Bytes} (hlength : bytes.length < 2 ^ 64)
    (more : Bytes) :
    Parses (scalar .lengthDelimited) (encodeVarint bytes.length ++ (bytes ++ more))
      (.lengthDelimited bytes) more := by
  simp only [scalar, parses_bind, parses_pure, parses_take]
  exact ⟨bytes.length, bytes ++ more, encodeVarint_parses hlength _, bytes, more,
    ⟨rfl, rfl⟩, rfl, rfl⟩

/-- A key and a value that is no group make a record. -/
theorem record_parses {depth tag : Nat} {wireType : WireType} {content : Value}
    {bytes middle rest : Bytes} (hkey : Parses decodeKey bytes (tag, wireType) middle)
    (hgroup : wireType ≠ .startGroup)
    (hscalar : Parses (scalar wireType) middle content rest) :
    Parses (record depth) bytes ⟨tag, content⟩ rest := by
  simp only [record, parses_bind, parses_ite, parses_pure]
  exact ⟨_, _, hkey, .inr ⟨hgroup, content, rest, hscalar, rfl, rfl⟩⟩

theorem encodeRecord_parses (depth : Nat) {value : Record} (hplain : value.Plain)
    (hsize : value.value.payload < 2 ^ 64) (more : Bytes) :
    Parses (record depth) (encodeRecord value ++ more) value more := by
  obtain ⟨tag, content⟩ := value
  obtain ⟨hpos, hbound, hcontent⟩ := hplain
  cases content with
  | varint n =>
      have hkey := encodeKey_parses hpos hbound .varint (encodeVarint n ++ more)
      rw [← List.append_assoc] at hkey
      exact record_parses hkey (by decide) (scalar_varint_parses hcontent more)
  | lengthDelimited bytes =>
      have hkey := encodeKey_parses hpos hbound .lengthDelimited
        (encodeVarint bytes.length ++ (bytes ++ more))
      simp only [encodeRecord, List.append_assoc]
      exact record_parses hkey (by decide) (scalar_lengthDelimited_parses hsize more)
  | sixtyFourBit bytes => exact hcontent.elim
  | group => exact hcontent.elim
  | thirtyTwoBit bytes => exact hcontent.elim

/-- Records read back as they were written. -/
theorem records_encodeRecords {depth : Nat} {values : List Record}
    (hplain : ∀ value ∈ values, value.Plain)
    (hsize : ∀ value ∈ values, value.value.payload < 2 ^ 64) :
    records depth (encodeRecords values) = some values := by
  induction values with
  | nil => rfl
  | cons value values ih =>
      obtain ⟨hvalue, hvalues⟩ := List.forall_mem_cons.mp hplain
      obtain ⟨hfirst, hlater⟩ := List.forall_mem_cons.mp hsize
      have hcons : encodeRecords (value :: values) =
          encodeRecord value ++ encodeRecords values := List.flatMap_cons
      have hparses := encodeRecord_parses depth hvalue hfirst (encodeRecords values)
      have hrest := ih hvalues hlater
      unfold records at hrest ⊢
      rw [hcons, all_of_parses (record_consumes depth) hparses, hrest]
      rfl

/-! ### Messages

A message type is given by how it merges a record, at a recursion budget that embedded
messages use up.  Decoding starts from the default value; a later record of a field
replaces a scalar, extends a repeated field and is merged into a message. -/

variable {M : Type}

/-- How a message type merges one record, given the recursion budget. -/
abbrev Merge (M : Type) := Nat → M → Record → Option M

/-- `M::merge`: merge the records of `bytes` into `initial`. -/
def mergeInto (merge : Merge M) (depth : Nat) (initial : M) (bytes : Bytes) : Option M := do
  let values ← records depth bytes
  values.foldlM (merge depth) initial

/-- The recursion budget of a top-level message. -/
def RECURSION_LIMIT : Nat := 100

/-- `M::decode`. -/
def decode [Inhabited M] (merge : Merge M) (bytes : Bytes) : Option M :=
  mergeInto merge RECURSION_LIMIT default bytes

/-- A `String`: bytes that are valid UTF-8. -/
abbrev Text := { bytes : Bytes // Utf8.valid bytes = true }

instance : Inhabited Text := ⟨[], rfl⟩

def Value.uint64 : Value → Option UInt64
  | .varint n => some (UInt64.ofNat n)
  | _ => none

/-- The low 32 bits of the varint. -/
def Value.uint32 : Value → Option UInt32
  | .varint n => some (UInt64.ofNat n).toUInt32
  | _ => none

def Value.int32 : Value → Option Int32
  | .varint n => some (Int32.ofNat n)
  | _ => none

def Value.bytes : Value → Option Bytes
  | .lengthDelimited bytes => some bytes
  | _ => none

def Value.string : Value → Option Text
  | .lengthDelimited bytes =>
      if h : Utf8.valid bytes = true then some ⟨bytes, h⟩ else none
  | _ => none

/-- An embedded message, merged into what the field holds. -/
def Value.message (merge : Merge M) (depth : Nat) (initial : M) : Value → Option M
  | .lengthDelimited bytes =>
      if depth = 0 then none else mergeInto merge (depth - 1) initial bytes
  | _ => none

/-- A scalar at its default is not written. -/
def uint64Record (tag : Nat) (value : UInt64) : List Record :=
  if value = 0 then [] else [⟨tag, .varint value.toNat⟩]

/-- `int32` is written as the 64-bit two's complement. -/
def int32Record (tag : Nat) (value : Int32) : List Record :=
  if value = 0 then [] else [⟨tag, .varint (value.toInt % 2 ^ 64).toNat⟩]

def bytesRecord (tag : Nat) (value : Bytes) : List Record :=
  if value = [] then [] else [⟨tag, .lengthDelimited value⟩]

def repeatedBytesRecords (tag : Nat) (values : List Bytes) : List Record :=
  values.map fun value => ⟨tag, .lengthDelimited value⟩

/-- An element of a repeated field, or a message that is present, is always written. -/
def messageRecord (tag : Nat) (values : List Record) : Record :=
  ⟨tag, .lengthDelimited (encodeRecords values)⟩

theorem messageRecord_tag (tag : Nat) (values : List Record) :
    (messageRecord tag values).tag = tag := rfl

def optionalRecord (tag : Nat) (values : Option (List Record)) : List Record :=
  (values.map (messageRecord tag)).toList

theorem payload_le_length {values : List Record} {value : Record} (h : value ∈ values) :
    value.value.payload ≤ (encodeRecords values).length := by
  have hsome : value.value.payload ≤ (encodeRecord value).length := by
    unfold encodeRecord Value.payload
    cases value.value with
    | varint n => exact Nat.zero_le _
    | group => exact Nat.zero_le _
    | sixtyFourBit bytes => simp
    | lengthDelimited bytes => simp; omega
    | thirtyTwoBit bytes => simp
  exact Nat.le_trans hsome (List.Sublist.length_le (List.sublist_flatten_of_mem
    (List.mem_map_of_mem h)))

/-- A byte string is no longer than a message that has it. -/
theorem length_le_of_bytesRecord {tag : Nat} {value : Bytes} {values : List Record}
    (h : bytesRecord tag value ⊆ values) : value.length ≤ (encodeRecords values).length := by
  by_cases hempty : value = []
  · simp [hempty]
  · rw [bytesRecord, if_neg hempty] at h
    exact payload_le_length (h (List.mem_singleton.mpr rfl))

theorem mergeInto_append {merge : Merge M} {depth : Nat} {initial : M}
    {bytes more : Bytes} {values : List Record} (h : records depth bytes = some values) :
    mergeInto merge depth initial (bytes ++ more) =
      (values.foldlM (merge depth) initial).bind fun middle =>
        mergeInto merge depth middle more := by
  unfold mergeInto
  rw [records_append h]
  cases records depth more with
  | none => cases values.foldlM (merge depth) initial <;> rfl
  | some values' => simp [List.foldlM_append]

theorem mergeInto_encodeRecords {merge : Merge M} {depth : Nat} {initial : M}
    {values : List Record} (hplain : ∀ value ∈ values, value.Plain)
    (hsize : (encodeRecords values).length < 2 ^ 64) :
    mergeInto merge depth initial (encodeRecords values) =
      values.foldlM (merge depth) initial := by
  have hpayload : ∀ value ∈ values, value.value.payload < 2 ^ 64 := fun value hvalue =>
    Nat.lt_of_le_of_lt (payload_le_length hvalue) hsize
  rw [mergeInto, records_encodeRecords hplain hpayload]
  rfl

/-- An embedded message reads as its records. -/
theorem message_messageRecord {merge : Merge M} {depth tag : Nat} {initial : M}
    {values : List Record} (hplain : ∀ value ∈ values, value.Plain)
    (hsize : (encodeRecords values).length < 2 ^ 64) :
    (messageRecord tag values).value.message merge (depth + 1) initial =
      values.foldlM (merge depth) initial := by
  rw [messageRecord, Value.message, if_neg (Nat.succ_ne_zero depth)]
  exact mergeInto_encodeRecords hplain hsize

/-! ### Reading a field back

In each rule `f` writes the field that the record is for. -/

theorem foldlM_append_of_eq {merge : M → Record → Option M} {m m' : M} {result : Option M}
    {values more : List Record} (h : values.foldlM merge m = some m')
    (hmore : more.foldlM merge m' = result) : (values ++ more).foldlM merge m = result := by
  rw [List.foldlM_append, h, ← hmore]
  rfl

/-- A record that no message takes makes the whole unreadable. -/
theorem foldlM_eq_none_of_mem {merge : M → Record → Option M} {m : M} {values : List Record}
    {value : Record} (hmem : value ∈ values) (hmerge : ∀ m, merge m value = none) :
    values.foldlM merge m = none := by
  obtain ⟨before, after, rfl⟩ := List.append_of_mem hmem
  rw [List.foldlM_append]
  cases before.foldlM merge m with
  | none => rfl
  | some middle => exact congrArg (· >>= fun m => after.foldlM merge m) (hmerge middle)

theorem foldlM_uint64Record {merge : M → Record → Option M} {m m' : M} {tag : Nat}
    {value : UInt64} (f : UInt64 → M)
    (hmerge : ∀ n : Nat, merge m ⟨tag, .varint n⟩ = some (f (UInt64.ofNat n)))
    (hdefault : f 0 = m) (hresult : f value = m') :
    (uint64Record tag value).foldlM merge m = some m' := by
  rw [← hresult, uint64Record]
  by_cases hzero : value = 0
  · rw [if_pos hzero, hzero, hdefault]
    rfl
  · rw [if_neg hzero, List.foldlM_cons, hmerge, UInt64.ofNat_toNat]
    rfl

theorem ofNat_emod_toNat (value : Int32) :
    Int32.ofNat (value.toInt % 2 ^ 64).toNat = value := by
  have hofNat : Int32.ofNat (value.toInt % 2 ^ 64).toNat =
      Int32.ofInt ((value.toInt % 2 ^ 64).toNat : Int) := rfl
  have hsize : Int32.size = 2 ^ 32 := rfl
  have hlow := value.le_toInt
  have hhigh := value.toInt_lt
  rw [hofNat, Int.toNat_of_nonneg (Int.emod_nonneg _ (by norm_num)), ← Int32.toInt_inj,
    Int32.toInt_ofInt, Int.bmod_def, hsize]
  push_cast
  split <;> omega

theorem foldlM_int32Record {merge : M → Record → Option M} {m m' : M} {tag : Nat}
    {value : Int32} (f : Int32 → M)
    (hmerge : ∀ n : Nat, merge m ⟨tag, .varint n⟩ = some (f (Int32.ofNat n)))
    (hdefault : f 0 = m) (hresult : f value = m') :
    (int32Record tag value).foldlM merge m = some m' := by
  rw [← hresult, int32Record]
  by_cases hzero : value = 0
  · rw [if_pos hzero, hzero, hdefault]
    rfl
  · rw [if_neg hzero, List.foldlM_cons, hmerge, ofNat_emod_toNat]
    rfl

theorem foldlM_bytesRecord {merge : M → Record → Option M} {m m' : M} {tag : Nat}
    {value : Bytes} (f : Bytes → M)
    (hmerge : ∀ bytes, merge m ⟨tag, .lengthDelimited bytes⟩ = some (f bytes))
    (hdefault : f [] = m) (hresult : f value = m') :
    (bytesRecord tag value).foldlM merge m = some m' := by
  rw [← hresult, bytesRecord]
  by_cases hempty : value = []
  · rw [if_pos hempty, hempty, hdefault]
    rfl
  · rw [if_neg hempty, List.foldlM_cons, hmerge]
    rfl

@[simp] theorem string_val (text : Text) :
    (Value.lengthDelimited text.val).string = some text := by
  simp [Value.string, text.property]

theorem foldlM_textRecord {merge : M → Record → Option M} {m m' : M} {tag : Nat}
    {value : Text} (f : Text → M)
    (hmerge : ∀ text : Text, merge m ⟨tag, .lengthDelimited text.val⟩ = some (f text))
    (hdefault : f default = m) (hresult : f value = m') :
    (bytesRecord tag value.val).foldlM merge m = some m' := by
  rw [← hresult, bytesRecord]
  by_cases hempty : value.val = []
  · have hvalue : value = default := Subtype.ext hempty
    rw [if_pos hempty, hvalue, hdefault]
    rfl
  · rw [if_neg hempty, List.foldlM_cons, hmerge]
    rfl

theorem foldlM_repeatedBytesRecords {merge : M → Record → Option M} {m m' : M} {tag : Nat}
    {values : List Bytes} (f : List Bytes → M)
    (hmerge : ∀ earlier bytes, merge (f earlier) ⟨tag, .lengthDelimited bytes⟩ =
      some (f (earlier ++ [bytes])))
    (hdefault : f [] = m) (hresult : f values = m') :
    (repeatedBytesRecords tag values).foldlM merge m = some m' := by
  have hfrom : ∀ earlier, (repeatedBytesRecords tag values).foldlM merge (f earlier) =
      some (f (earlier ++ values)) := by
    clear hresult
    induction values with
    | nil =>
        intro earlier
        simp [repeatedBytesRecords]
    | cons value values ih =>
        intro earlier
        have hcons : repeatedBytesRecords tag (value :: values) =
            ⟨tag, .lengthDelimited value⟩ :: repeatedBytesRecords tag values := rfl
        have hrest := ih (earlier ++ [value])
        rw [List.append_assoc] at hrest
        rw [hcons, List.foldlM_cons, hmerge]
        exact hrest
  rw [← hdefault, ← hresult]
  exact hfrom []

theorem foldlM_optionalRecord {N : Type} {merge : M → Record → Option M} {m m' : M} {tag : Nat}
    {write : N → List Record} {value : Option N} (f : Option N → M)
    (hmerge : ∀ n, value = some n → merge m (messageRecord tag (write n)) = some (f (some n)))
    (hdefault : f none = m) (hresult : f value = m') :
    (optionalRecord tag (value.map write)).foldlM merge m = some m' := by
  rw [← hresult]
  cases value with
  | none => simp [optionalRecord, hdefault]
  | some n =>
      have hn := hmerge n rfl
      simp [optionalRecord, hn]

theorem foldlM_repeatedRecords {N P : Type} {merge : M → Record → Option M} {m m' : M}
    {tag : Nat} {write : N → List Record} {values : List N} (f : List P → M) (read : N → P)
    (hmerge : ∀ earlier, ∀ n ∈ values, merge (f earlier) (messageRecord tag (write n)) =
      some (f (earlier ++ [read n])))
    (hdefault : f [] = m) (hresult : f (values.map read) = m') :
    (values.map fun n => messageRecord tag (write n)).foldlM merge m = some m' := by
  have hfrom : ∀ earlier, (values.map fun n => messageRecord tag (write n)).foldlM merge
      (f earlier) = some (f (earlier ++ values.map read)) := by
    clear hresult
    induction values with
    | nil =>
        intro earlier
        simp
    | cons value values ih =>
        intro earlier
        have hrest := ih (fun earlier n hn => hmerge earlier n (List.mem_cons_of_mem _ hn))
          (earlier ++ [read value])
        rw [List.append_assoc] at hrest
        rw [List.map_cons, List.foldlM_cons, hmerge _ _ List.mem_cons_self]
        exact hrest
  rw [← hdefault, ← hresult]
  exact hfrom []

/-! ### What is written is plain -/

theorem plain_uint64Record {tag : Nat} (htag : 0 < tag ∧ tag < 2 ^ 29) (value : UInt64) :
    ∀ record ∈ uint64Record tag value, record.Plain := by
  intro record hrecord
  unfold uint64Record at hrecord
  split at hrecord
  · cases hrecord
  · obtain rfl := List.mem_singleton.mp hrecord
    exact ⟨htag.1, htag.2, value.toNat_lt⟩

theorem plain_int32Record {tag : Nat} (htag : 0 < tag ∧ tag < 2 ^ 29) (value : Int32) :
    ∀ record ∈ int32Record tag value, record.Plain := by
  intro record hrecord
  unfold int32Record at hrecord
  split at hrecord
  · cases hrecord
  · obtain rfl := List.mem_singleton.mp hrecord
    refine ⟨htag.1, htag.2, ?_⟩
    show (value.toInt % 2 ^ 64).toNat < 2 ^ 64
    omega

theorem plain_bytesRecord {tag : Nat} (htag : 0 < tag ∧ tag < 2 ^ 29) (value : Bytes) :
    ∀ record ∈ bytesRecord tag value, record.Plain := by
  intro record hrecord
  unfold bytesRecord at hrecord
  split at hrecord
  · cases hrecord
  · obtain rfl := List.mem_singleton.mp hrecord
    exact ⟨htag.1, htag.2, trivial⟩

theorem plain_repeatedBytesRecords {tag : Nat} (htag : 0 < tag ∧ tag < 2 ^ 29)
    (values : List Bytes) : ∀ record ∈ repeatedBytesRecords tag values, record.Plain := by
  intro record hrecord
  obtain ⟨value, -, rfl⟩ := List.mem_map.mp hrecord
  exact ⟨htag.1, htag.2, trivial⟩

theorem plain_messageRecord {tag : Nat} (htag : 0 < tag ∧ tag < 2 ^ 29)
    (values : List Record) : (messageRecord tag values).Plain :=
  ⟨htag.1, htag.2, trivial⟩

theorem plain_optionalRecord {tag : Nat} (htag : 0 < tag ∧ tag < 2 ^ 29)
    (values : Option (List Record)) : ∀ record ∈ optionalRecord tag values, record.Plain := by
  intro record hrecord
  cases values with
  | none => cases hrecord
  | some values =>
      obtain rfl := List.mem_singleton.mp hrecord
      exact plain_messageRecord htag values

/-! ### Sizes -/

theorem length_varintBytes_le (fuel n : Nat) : (varintBytes fuel n).length ≤ fuel := by
  induction fuel generalizing n with
  | zero => rfl
  | succ fuel ih =>
      unfold varintBytes
      split
      · simp
      · simpa using ih (n / 128)

theorem length_encodeRecord_le (record : Record) :
    (encodeRecord record).length ≤ 20 + record.value.payload := by
  have hvarint : ∀ n, (encodeVarint n).length ≤ 10 := fun n => length_varintBytes_le 10 n
  have hkey : ∀ wireType, (encodeKey record.tag wireType).length ≤ 10 := fun _ => hvarint _
  unfold encodeRecord Value.payload
  cases record.value with
  | varint n => have := hkey .varint; have := hvarint n; simp; omega
  | sixtyFourBit bytes => have := hkey .sixtyFourBit; simp; omega
  | lengthDelimited bytes =>
      have := hkey .lengthDelimited; have := hvarint bytes.length; simp; omega
  | group => have := hkey .startGroup; have := hkey .endGroup; simp; omega
  | thirtyTwoBit bytes => have := hkey .thirtyTwoBit; simp; omega

/-- A bound on the length of a message: twenty bytes for each record and its payload. -/
def cost (values : List Record) : Nat := (values.map fun record => 20 + record.value.payload).sum

@[simp] theorem cost_append (values more : List Record) :
    cost (values ++ more) = cost values + cost more := by
  simp [cost]

theorem length_encodeRecords_le (values : List Record) :
    (encodeRecords values).length ≤ cost values := by
  induction values with
  | nil => rfl
  | cons value values ih =>
      have hfirst := length_encodeRecord_le value
      have hcons : encodeRecords (value :: values) =
          encodeRecord value ++ encodeRecords values := List.flatMap_cons
      have hcost : cost (value :: values) = 20 + value.value.payload + cost values := rfl
      rw [hcons, List.length_append, hcost]
      omega

theorem cost_uint64Record_le (tag : Nat) (value : UInt64) : cost (uint64Record tag value) ≤ 20 := by
  unfold uint64Record
  split <;> simp [cost, Value.payload]

theorem cost_int32Record_le (tag : Nat) (value : Int32) : cost (int32Record tag value) ≤ 20 := by
  unfold int32Record
  split <;> simp [cost, Value.payload]

theorem cost_bytesRecord_le (tag : Nat) (value : Bytes) :
    cost (bytesRecord tag value) ≤ 20 + value.length := by
  unfold bytesRecord
  split <;> simp [cost, Value.payload]

theorem cost_messageRecord_le (tag : Nat) (values : List Record) :
    cost [messageRecord tag values] ≤ 20 + cost values := by
  have hlength := length_encodeRecords_le values
  have hcost : cost [messageRecord tag values] = 20 + (encodeRecords values).length + 0 := rfl
  omega

theorem cost_repeatedRecords_le {N : Type} {tag bound : Nat} {write : N → List Record}
    {values : List N} (h : ∀ n ∈ values, cost (write n) ≤ bound) :
    cost (values.map fun n => messageRecord tag (write n)) ≤ values.length * (20 + bound) := by
  induction values with
  | nil => simp [cost]
  | cons value values ih =>
      obtain ⟨hvalue, hvalues⟩ := List.forall_mem_cons.mp h
      have hrest := ih hvalues
      have hfirst := cost_messageRecord_le tag (write value)
      have hcons : cost (messageRecord tag (write value) ::
          values.map fun n => messageRecord tag (write n)) =
          cost [messageRecord tag (write value)] +
            cost (values.map fun n => messageRecord tag (write n)) := cost_append [_] _
      rw [List.map_cons, hcons, List.length_cons, Nat.succ_mul]
      omega

/-! ### Sizes of what is read -/

theorem payload_of_scalar {wireType : WireType} {bytes rest : Bytes} {value : Value}
    (h : Parses (scalar wireType) bytes value rest) :
    value.payload + rest.length ≤ bytes.length := by
  have hvarint := decodeVarint_consumes
  cases wireType with
  | varint =>
      simp only [scalar, parses_bind, parses_pure] at h
      obtain ⟨n, _, hread, rfl, rfl⟩ := h
      have hless := hvarint _ _ _ hread
      simp only [Value.payload]
      omega
  | sixtyFourBit =>
      simp only [scalar, parses_bind, parses_pure, parses_take] at h
      obtain ⟨taken, _, ⟨-, rfl⟩, rfl, rfl⟩ := h
      simp [Value.payload]
  | lengthDelimited =>
      simp only [scalar, parses_bind, parses_pure, parses_take] at h
      obtain ⟨length, _, hread, taken, _, ⟨-, rfl⟩, rfl, rfl⟩ := h
      have hless := hvarint _ _ _ hread
      rw [List.length_append] at hless
      simp only [Value.payload]
      omega
  | thirtyTwoBit =>
      simp only [scalar, parses_bind, parses_pure, parses_take] at h
      obtain ⟨taken, _, ⟨-, rfl⟩, rfl, rfl⟩ := h
      simp [Value.payload]
  | startGroup => exact absurd h parses_fail
  | endGroup => exact absurd h parses_fail

/-- A record takes its payload and at least one byte more. -/
theorem payload_of_record {depth : Nat} {bytes rest : Bytes} {value : Record}
    (h : Parses (record depth) bytes value rest) :
    value.value.payload + 1 + rest.length ≤ bytes.length := by
  simp only [record, parses_bind, parses_ite, parses_pure] at h
  obtain ⟨key, middle, hkey, ⟨-, _, _, hgroup, rfl, rfl⟩ | ⟨-, read, _, hscalar, rfl, rfl⟩⟩ := h
  · have hless := decodeKey_consumes _ _ _ hkey
    have hle := group_bounded _ _ _ _ _ hgroup
    simp only [Value.payload]
    omega
  · have hless := decodeKey_consumes _ _ _ hkey
    have hle := payload_of_scalar hscalar
    dsimp only
    omega

theorem cost_le_of_records {depth : Nat} {bytes : Bytes} {values : List Record}
    (h : records depth bytes = some values) : cost values ≤ 20 * bytes.length := by
  have hsum : (values.map fun record => record.value.payload + 1).sum ≤ bytes.length :=
    sum_le_of_all (fun _ _ _ hparses => payload_of_record hparses) h
  have hcost : cost values ≤ 20 * (values.map fun record => record.value.payload + 1).sum := by
    clear hsum h
    induction values with
    | nil => rfl
    | cons value values ih =>
        have hcons : cost (value :: values) = 20 + value.value.payload + cost values := rfl
        rw [hcons, List.map_cons, List.sum_cons]
        omega
  omega

/-- A size that every record raises by at most its own is bounded by the input. -/
theorem size_le_of_decode [Inhabited M] {merge : Merge M} {size : M → Nat}
    (hmerge : ∀ {depth : Nat} {m m' : M} {record : Record}, merge depth m record = some m' →
      size m' ≤ size m + (20 + record.value.payload))
    {bytes : Bytes} {m : M} (h : decode merge bytes = some m) :
    size m ≤ size (default : M) + 20 * bytes.length := by
  have hfold : ∀ {depth : Nat} {values : List Record} {m m' : M},
      values.foldlM (merge depth) m = some m' → size m' ≤ size m + cost values := by
    intro depth values
    induction values with
    | nil =>
        intro m m' h
        cases h
        exact Nat.le_refl _
    | cons value values ih =>
        intro m m' h
        rw [List.foldlM_cons] at h
        obtain ⟨middle, hfirst, hrest⟩ := Option.bind_eq_some_iff.mp h
        have hstep := hmerge hfirst
        have hlater := ih hrest
        have hcons : cost (value :: values) = 20 + value.value.payload + cost values := rfl
        omega
  unfold decode mergeInto at h
  obtain ⟨values, hvalues, hresult⟩ := Option.bind_eq_some_iff.mp h
  exact Nat.le_trans (hfold hresult) (Nat.add_le_add_left (cost_le_of_records hvalues) _)

theorem length_of_bytes {value : Value} {bytes : Bytes} (h : value.bytes = some bytes) :
    bytes.length = value.payload := by
  cases value with
  | lengthDelimited content =>
      obtain rfl := Option.some.inj h
      rfl
  | varint n => cases h
  | sixtyFourBit content => cases h
  | group => cases h
  | thirtyTwoBit content => cases h

theorem length_of_string {value : Value} {text : Text} (h : value.string = some text) :
    text.val.length = value.payload := by
  cases value with
  | lengthDelimited content =>
      simp only [Value.string] at h
      split at h
      · obtain rfl := Option.some.inj h
        rfl
      · cases h
  | varint n => cases h
  | sixtyFourBit content => cases h
  | group => cases h
  | thirtyTwoBit content => cases h

theorem cost_repeatedBytesRecords (tag : Nat) (values : List Bytes) :
    cost (repeatedBytesRecords tag values) = (values.map fun value => 20 + value.length).sum := by
  unfold cost repeatedBytesRecords
  rw [List.map_map]
  rfl

theorem cost_optionalRecord_le (tag : Nat) {bound : Nat} {values : Option (List Record)}
    (h : ∀ records, values = some records → cost records ≤ bound) :
    cost (optionalRecord tag values) ≤ 20 + bound := by
  cases values with
  | none => exact Nat.zero_le _
  | some records =>
      have hrecords := h records rfl
      exact Nat.le_trans (cost_messageRecord_le tag records) (by omega)

end StellarIbc.Protobuf
