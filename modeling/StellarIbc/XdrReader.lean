import StellarIbc.ByteParser
import StellarIbc.CoreConversion

/-!
# Reading XDR

What is assumed of the XDR crate can be met: here is a reader of the values that the writer
writes, and a way to display strings with everything escaped that is not printable.  No two
values within the limits have the same XDR, whatever follows it.
-/

namespace StellarIbc.Core

open ByteParser

/-! ### The reader -/

def readUint32 : ByteParser Nat := do
  let bytes ← take 4
  return ofBeBytes bytes

/-- A counted byte string; its padding is zero. -/
def readCounted : ByteParser Bytes := do
  let count ← readUint32
  let bytes ← take count
  let padding ← take ((4 - count % 4) % 4)
  if padding = List.replicate ((4 - count % 4) % 4) 0 then return bytes else fail

def readI128 (bits : Nat) : Option I128 :=
  I128.ofInt (if bits < 2 ^ 127 then bits else bits - 2 ^ 128)

/-- Read `count` values one after the other. -/
def readMany {α : Type} (p : ByteParser α) : Nat → ByteParser (List α)
  | 0 => return []
  | count + 1 => do
      let value ← p
      let values ← readMany p count
      return value :: values

/-- A list that is there and its count. -/
def readList {α : Type} (p : ByteParser α) : ByteParser (List α) := do
  let present ← readUint32
  let count ← readUint32
  if present = 1 then readMany p count else fail

/-- Values nested at most `depth` deep. -/
def readScVal : (depth : Nat) → ByteParser ScVal
  | 0 => fail
  | depth + 1 => do
      let discriminant ← readUint32
      match discriminant with
      | 0 => do
          let value ← readUint32
          ofOption (if value = 0 then some (.bool false)
            else if value = 1 then some (.bool true) else none)
      | 3 => do
          let value ← readUint32
          return .u32 (UInt32.ofNat value)
      | 5 => do
          let bytes ← take 8
          return .u64 (UInt64.ofNat (ofBeBytes bytes))
      | 10 => do
          let bytes ← take 16
          let value ← ofOption (readI128 (ofBeBytes bytes))
          return .i128 value
      | 13 => do
          let bytes ← readCounted
          return .bytes bytes
      | 14 => do
          let bytes ← readCounted
          return .string bytes
      | 15 => do
          let bytes ← readCounted
          return .symbol bytes
      | 16 => do
          let items ← readList (readScVal depth)
          return .vec items
      | 17 => do
          let entries ← readList (do
            let key ← readScVal depth
            let value ← readScVal depth
            return (key, value))
          return .map entries
      | _ => fail

/-! ### It reads what is written -/

theorem parses_readUint32 {n : Nat} (hn : n < 2 ^ 32) (more : Bytes) :
    Parses readUint32 (ScVal.uint32 n ++ more) n more := by
  have hread : ofBeBytes (beBytes 4 n) = n := by
    rw [ofBeBytes_beBytes]
    exact Nat.mod_eq_of_lt (by omega)
  refine parses_bind.mpr ⟨beBytes 4 n, more, parses_take.mpr ⟨length_beBytes 4 n, rfl⟩, ?_⟩
  exact parses_pure.mpr ⟨hread.symm, rfl⟩

theorem parses_readCounted {bytes : Bytes} (hlength : bytes.length < 2 ^ 32) (more : Bytes) :
    Parses readCounted (ScVal.counted bytes ++ more) bytes more := by
  unfold readCounted ScVal.counted
  rw [List.append_assoc, List.append_assoc]
  refine parses_bind.mpr ⟨_, _, parses_readUint32 hlength _, ?_⟩
  refine parses_bind.mpr ⟨bytes, _, parses_take.mpr ⟨rfl, rfl⟩, ?_⟩
  refine parses_bind.mpr ⟨_, more, parses_take.mpr ⟨List.length_replicate, rfl⟩, ?_⟩
  rw [if_pos rfl]
  exact parses_pure.mpr ⟨rfl, rfl⟩

theorem readI128_mod (value : I128) : readI128 (value.val % 2 ^ 128).toNat = some value := by
  have hbounds := value.property
  rw [readI128, I128.ofInt_eq_some_iff]
  by_cases hnonneg : 0 ≤ value.val
  · rw [Int.emod_eq_of_lt hnonneg (by omega), if_pos (by omega)]
    omega
  · have hmod : value.val % 2 ^ 128 = value.val + 2 ^ 128 := by
      rw [← Int.add_emod_right, Int.emod_eq_of_lt (by omega) (by omega)]
    rw [hmod, if_neg (by omega)]
    omega

/-- Bytes written for each of the values, read back one after the other. -/
theorem parses_readMany {α : Type} {p : ByteParser α} {write : α → Bytes} {values : List α}
    (h : ∀ value ∈ values, ∀ more, Parses p (write value ++ more) value more) (more : Bytes) :
    Parses (readMany p values.length) (values.flatMap write ++ more) values more := by
  induction values with
  | nil => exact parses_pure.mpr ⟨rfl, rfl⟩
  | cons value values ih =>
      rw [List.forall_mem_cons] at h
      rw [List.flatMap_cons, List.append_assoc, List.length_cons, readMany]
      refine parses_bind.mpr ⟨value, _, h.1 _, ?_⟩
      refine parses_bind.mpr ⟨values, more, ih h.2, ?_⟩
      exact parses_pure.mpr ⟨rfl, rfl⟩

theorem parses_readList {α : Type} {p : ByteParser α} {write : α → Bytes} {values : List α}
    (hlength : values.length < 2 ^ 32)
    (h : ∀ value ∈ values, ∀ more, Parses p (write value ++ more) value more) (more : Bytes) :
    Parses (readList p) (ScVal.uint32 1 ++ (ScVal.uint32 values.length ++
      (values.flatMap write ++ more))) values more := by
  refine parses_bind.mpr ⟨1, _, parses_readUint32 (by decide) _, ?_⟩
  refine parses_bind.mpr ⟨values.length, _, parses_readUint32 hlength _, ?_⟩
  rw [if_pos rfl]
  exact parses_readMany h more

theorem itemsToXdr_eq (items : List ScVal) : ScVal.itemsToXdr items = items.flatMap ScVal.toXdr := by
  induction items with
  | nil => rfl
  | cons item items ih => rw [ScVal.itemsToXdr, ih, List.flatMap_cons]

theorem entriesToXdr_eq (entries : ScMap) :
    ScVal.entriesToXdr entries = entries.flatMap fun entry => entry.1.toXdr ++ entry.2.toXdr := by
  induction entries with
  | nil => rfl
  | cons entry entries ih => rw [ScVal.entriesToXdr, ih, List.flatMap_cons]

theorem length_le_flatMap {α : Type} {write : α → Bytes} {value : α} {values : List α}
    (hmem : value ∈ values) : (write value).length ≤ (values.flatMap write).length := by
  obtain ⟨before, after, rfl⟩ := List.append_of_mem hmem
  rw [List.flatMap_append, List.flatMap_cons, List.length_append, List.length_append]
  omega

theorem length_toXdr {val : ScVal} {discriminant : Nat} {body : Bytes}
    (h : val.toXdr = ScVal.uint32 discriminant ++ body) :
    val.toXdr.length = body.length + 4 := by
  rw [h, List.length_append, ScVal.uint32, length_beBytes, Nat.add_comm]

theorem exists_depth {val : ScVal} {discriminant : Nat} {body : Bytes} {depth : Nat}
    (h : val.toXdr = ScVal.uint32 discriminant ++ body) (hdepth : val.toXdr.length ≤ depth) :
    ∃ rest, depth = rest + 1 := by
  apply Nat.exists_eq_add_one.mpr
  rw [length_toXdr h] at hdepth
  omega

/-- Values nest no deeper than they are long. -/
theorem parses_readScVal {val : ScVal} (hfits : Fits val) {depth : Nat}
    (hdepth : val.toXdr.length ≤ depth) (more : Bytes) :
    Parses (readScVal depth) (val.toXdr ++ more) val more := by
  induction hfits generalizing depth more with
  | bool value =>
      obtain ⟨depth, rfl⟩ := exists_depth (by rw [ScVal.toXdr]) hdepth
      rw [ScVal.toXdr, List.append_assoc, readScVal]
      refine parses_bind.mpr ⟨0, _, parses_readUint32 (by decide) _, ?_⟩
      cases value with
      | false => exact parses_bind.mpr ⟨0, _, parses_readUint32 (by decide) _, by simp⟩
      | true => exact parses_bind.mpr ⟨1, _, parses_readUint32 (by decide) _, by simp⟩
  | u32 value =>
      obtain ⟨depth, rfl⟩ := exists_depth (by rw [ScVal.toXdr]) hdepth
      rw [ScVal.toXdr, List.append_assoc, readScVal]
      refine parses_bind.mpr ⟨3, _, parses_readUint32 (by decide) _, ?_⟩
      exact parses_bind.mpr ⟨_, _, parses_readUint32 value.toNat_lt _, by simp⟩
  | u64 value =>
      obtain ⟨depth, rfl⟩ := exists_depth (by rw [ScVal.toXdr]) hdepth
      have hread : UInt64.ofNat (ofBeBytes (be64 value)) = value := by
        rw [be64, ofBeBytes_beBytes]
        apply UInt64.toNat_inj.mp
        have hlt := value.toNat_lt
        rw [Nat.mod_eq_of_lt (by omega), toNat_ofNat hlt]
      rw [ScVal.toXdr, List.append_assoc, readScVal]
      refine parses_bind.mpr ⟨5, _, parses_readUint32 (by decide) _, ?_⟩
      refine parses_bind.mpr ⟨be64 value, more, parses_take.mpr ⟨length_be64 value, rfl⟩, ?_⟩
      exact parses_pure.mpr ⟨by rw [hread], rfl⟩
  | i128 value =>
      obtain ⟨depth, rfl⟩ := exists_depth (by rw [ScVal.toXdr]) hdepth
      have hread : ofBeBytes (beBytes 16 (value.val % 2 ^ 128).toNat) =
          (value.val % 2 ^ 128).toNat := by
        rw [ofBeBytes_beBytes]
        exact Nat.mod_eq_of_lt (by omega)
      rw [ScVal.toXdr, List.append_assoc, readScVal]
      refine parses_bind.mpr ⟨10, _, parses_readUint32 (by decide) _, ?_⟩
      refine parses_bind.mpr ⟨_, more, parses_take.mpr ⟨length_beBytes _ _, rfl⟩, ?_⟩
      refine parses_bind.mpr ⟨value, more, parses_ofOption.mpr ⟨?_, rfl⟩, ?_⟩
      · rw [hread, readI128_mod]
      · exact parses_pure.mpr ⟨rfl, rfl⟩
  | @bytes value hcount =>
      obtain ⟨depth, rfl⟩ := exists_depth (by rw [ScVal.toXdr]) hdepth
      rw [ScVal.toXdr, List.append_assoc, readScVal]
      refine parses_bind.mpr ⟨13, _, parses_readUint32 (by decide) _, ?_⟩
      exact parses_bind.mpr ⟨value, more, parses_readCounted hcount more, by simp⟩
  | @string text hcount =>
      obtain ⟨depth, rfl⟩ := exists_depth (by rw [ScVal.toXdr]) hdepth
      rw [ScVal.toXdr, List.append_assoc, readScVal]
      refine parses_bind.mpr ⟨14, _, parses_readUint32 (by decide) _, ?_⟩
      exact parses_bind.mpr ⟨text, more, parses_readCounted hcount more, by simp⟩
  | @symbol name hshort =>
      obtain ⟨depth, rfl⟩ := exists_depth (by rw [ScVal.toXdr]) hdepth
      rw [ScVal.toXdr, List.append_assoc, readScVal]
      refine parses_bind.mpr ⟨15, _, parses_readUint32 (by decide) _, ?_⟩
      exact parses_bind.mpr ⟨name, more, parses_readCounted (by omega) more, by simp⟩
  | @vec items hcount hitems ih =>
      have hxdr : (ScVal.vec items).toXdr = ScVal.uint32 16 ++ (ScVal.uint32 1 ++
          (ScVal.uint32 items.length ++ items.flatMap ScVal.toXdr)) := by
        rw [ScVal.toXdr, itemsToXdr_eq, List.append_assoc, List.append_assoc]
      have hlength := length_toXdr hxdr
      obtain ⟨depth, rfl⟩ := exists_depth hxdr hdepth
      have hitem : ∀ item ∈ items, ∀ more,
          Parses (readScVal depth) (item.toXdr ++ more) item more := by
        intro item hmem more
        have hle := @length_le_flatMap _ ScVal.toXdr _ _ hmem
        simp only [List.length_append] at hlength
        exact ih item hmem (by omega) more
      rw [hxdr, List.append_assoc, List.append_assoc, List.append_assoc, readScVal]
      refine parses_bind.mpr ⟨16, _, parses_readUint32 (by decide) _, ?_⟩
      exact parses_bind.mpr ⟨items, more, parses_readList hcount hitem more, by simp⟩
  | @map entries hcount hkeys hvalues ihkeys ihvalues =>
      have hxdr : (ScVal.map entries).toXdr = ScVal.uint32 17 ++ (ScVal.uint32 1 ++
          (ScVal.uint32 entries.length ++
            entries.flatMap fun entry => entry.1.toXdr ++ entry.2.toXdr)) := by
        rw [ScVal.toXdr, entriesToXdr_eq, List.append_assoc, List.append_assoc]
      have hlength := length_toXdr hxdr
      obtain ⟨depth, rfl⟩ := exists_depth hxdr hdepth
      have hentry : ∀ entry ∈ entries, ∀ more,
          Parses (do
            let key ← readScVal depth
            let value ← readScVal depth
            return (key, value)) (entry.1.toXdr ++ entry.2.toXdr ++ more) entry more := by
        intro entry hmem more
        have hle := @length_le_flatMap _
          (fun entry : ScVal × ScVal => entry.1.toXdr ++ entry.2.toXdr) _ _ hmem
        simp only [List.length_append] at hlength hle
        rw [List.append_assoc]
        refine parses_bind.mpr ⟨entry.1, _, ihkeys entry hmem (by omega) _, ?_⟩
        refine parses_bind.mpr ⟨entry.2, more, ihvalues entry hmem (by omega) more, ?_⟩
        exact parses_pure.mpr ⟨rfl, rfl⟩
      rw [hxdr, List.append_assoc, List.append_assoc, List.append_assoc, readScVal]
      refine parses_bind.mpr ⟨17, _, parses_readUint32 (by decide) _, ?_⟩
      exact parses_bind.mpr ⟨entries, more, parses_readList hcount hentry more, by simp⟩

/-- The XDR of a value shows where it ends. -/
theorem toXdr_append_injective {val val' : ScVal} (hfits : Fits val) (hfits' : Fits val')
    {more more' : Bytes} (h : val.toXdr ++ more = val'.toXdr ++ more') :
    val = val' ∧ more = more' := by
  have hleft := parses_readScVal hfits
    (Nat.le_max_left val.toXdr.length val'.toXdr.length) more
  have hright := parses_readScVal hfits'
    (Nat.le_max_right val.toXdr.length val'.toXdr.length) more'
  rw [h] at hleft
  exact hleft.deterministic hright

/-! ### Ledger entries -/

/-- The entry of a contract's data: its type, an empty extension, the address of the
contract, the key, the durability and the value. -/
def readContractData (depth : Nat) : ByteParser LedgerEntryData := do
  let entryType ← readUint32
  let ext ← readUint32
  let addressType ← readUint32
  let id ← take 32
  let contract ← ofOption (if h : id.length = 32 then some (⟨id, h⟩ : Hash) else none)
  let key ← readScVal depth
  let _ ← readUint32
  let val ← readScVal depth
  if entryType = 6 ∧ ext = 0 ∧ addressType = 1 then
    return .contractData ⟨.contract contract, key, val⟩
  else fail

/-- The persistent entry of a contract, as the ledger API answers with it. -/
def contractDataXdr (contract : Hash) (key val : ScVal) : Bytes :=
  ScVal.uint32 6 ++ (ScVal.uint32 0 ++ (ScVal.uint32 1 ++ (contract.val ++
    (key.toXdr ++ (ScVal.uint32 1 ++ val.toXdr)))))

theorem parses_readContractData {contract : Hash} {key val : ScVal} (hkey : Fits key)
    (hval : Fits val) {depth : Nat} (hdepth : (contractDataXdr contract key val).length ≤ depth) :
    Parses (readContractData depth) (contractDataXdr contract key val)
      (.contractData ⟨.contract contract, key, val⟩) [] := by
  have hlength := hdepth
  simp only [contractDataXdr, List.length_append] at hlength
  have hend : Parses (readScVal depth) val.toXdr val [] := by
    have hparses := parses_readScVal hval (by omega : val.toXdr.length ≤ depth) []
    rwa [List.append_nil] at hparses
  unfold readContractData contractDataXdr
  refine parses_bind.mpr ⟨6, _, parses_readUint32 (by decide) _, ?_⟩
  refine parses_bind.mpr ⟨0, _, parses_readUint32 (by decide) _, ?_⟩
  refine parses_bind.mpr ⟨1, _, parses_readUint32 (by decide) _, ?_⟩
  refine parses_bind.mpr ⟨contract.val, _, parses_take.mpr ⟨contract.property, rfl⟩, ?_⟩
  refine parses_bind.mpr ⟨contract, _, parses_ofOption.mpr ⟨dif_pos contract.property, rfl⟩, ?_⟩
  refine parses_bind.mpr ⟨key, _, parses_readScVal hkey (by omega) _, ?_⟩
  refine parses_bind.mpr ⟨1, _, parses_readUint32 (by decide) _, ?_⟩
  refine parses_bind.mpr ⟨val, [], hend, ?_⟩
  rw [if_pos ⟨rfl, rfl, rfl⟩]
  exact parses_pure.mpr ⟨rfl, rfl⟩

/-! ### Displaying strings -/

def hexDigit (nibble : UInt8) : UInt8 := if nibble < 10 then 0x30 + nibble else 0x57 + nibble

/-- A byte as it is, or `\xNN`. -/
def escapeByte (byte : UInt8) : Bytes :=
  if Printable byte ∧ byte ≠ 0x5c then [byte]
  else [0x5c, 0x78, hexDigit (byte >>> 4), hexDigit (byte &&& 0x0f)]

def escape (text : Bytes) : Bytes := text.flatMap escapeByte

/-- The two digits of a byte determine it. -/
theorem hexDigit_injective {left right : UInt8}
    (hhigh : hexDigit (left >>> 4) = hexDigit (right >>> 4))
    (hlow : hexDigit (left &&& 0x0f) = hexDigit (right &&& 0x0f)) : left = right := by
  let nibble : UInt8 → UInt8 := fun digit => if digit < 0x3a then digit - 0x30 else digit - 0x57
  have hread : ∀ byte : UInt8, nibble (hexDigit (byte >>> 4)) <<< 4 |||
      nibble (hexDigit (byte &&& 0x0f)) = byte :=
    forall_byte (by decide +kernel)
  rw [← hread left, ← hread right, hhigh, hlow]

theorem printable_hexDigit : ∀ byte : UInt8,
    Printable (hexDigit (byte >>> 4)) ∧ Printable (hexDigit (byte &&& 0x0f)) :=
  forall_byte (by decide +kernel)

theorem escapeByte_append_injective {left right : UInt8} {more more' : Bytes}
    (h : escapeByte left ++ more = escapeByte right ++ more') : left = right ∧ more = more' := by
  unfold escapeByte at h
  by_cases hleft : Printable left ∧ left ≠ 0x5c
  · rw [if_pos hleft] at h
    by_cases hright : Printable right ∧ right ≠ 0x5c
    · rw [if_pos hright] at h
      exact List.cons_eq_cons.mp h
    · rw [if_neg hright] at h
      exact absurd (List.cons_eq_cons.mp h).1 hleft.2
  · rw [if_neg hleft] at h
    by_cases hright : Printable right ∧ right ≠ 0x5c
    · rw [if_pos hright] at h
      exact absurd (List.cons_eq_cons.mp h).1.symm hright.2
    · rw [if_neg hright] at h
      simp only [List.cons_append, List.nil_append, List.cons.injEq, true_and] at h
      exact ⟨hexDigit_injective h.1 h.2.1, h.2.2⟩

theorem escape_injective : Function.Injective escape := by
  have hne : ∀ byte : UInt8, ∀ more, [] ≠ escapeByte byte ++ more := by
    intro byte more
    unfold escapeByte
    split <;> simp
  intro left
  induction left with
  | nil =>
      intro right h
      cases right with
      | nil => rfl
      | cons byte right => exact absurd h (hne byte _)
  | cons byte left ih =>
      intro right h
      cases right with
      | nil => exact absurd h.symm (hne byte _)
      | cons byte' right =>
          rcases escapeByte_append_injective h with ⟨rfl, hrest⟩
          rw [ih hrest]

theorem escape_plain {text : Bytes} (h : Plain text) : escape text = text := by
  induction text with
  | nil => rfl
  | cons byte text ih =>
      have hall : ∀ byte' ∈ byte :: text, Printable byte' ∧ byte' ≠ 0x5c := h
      rw [List.forall_mem_cons] at hall
      have htext : text.flatMap escapeByte = text := ih hall.2
      rw [escape, List.flatMap_cons, htext, escapeByte, if_pos hall.1]
      rfl

theorem printable_escape {text : Bytes} {byte : UInt8} (h : byte ∈ escape text) :
    Printable byte := by
  obtain ⟨source, -, hbyte⟩ := List.mem_flatMap.mp h
  unfold escapeByte at hbyte
  split at hbyte
  · next hplain =>
      rw [List.mem_singleton.mp hbyte]
      exact hplain.1
  · simp only [List.mem_cons, List.not_mem_nil, or_false] at hbyte
    rcases hbyte with rfl | rfl | rfl | rfl
    · decide
    · decide
    · exact (printable_hexDigit source).1
    · exact (printable_hexDigit source).2

/-! ### An implementation -/

def Xdr.reader : Xdr where
  fromXdr bytes :=
    match (readScVal bytes.length).run bytes with
    | some (val, []) => .ok val
    | _ => .error (ascii "xdr value invalid")
  ledgerEntryDataFromXdr bytes := ((readContractData bytes.length).run bytes).map Prod.fst
  display := escape

theorem Xdr.reader_lawful : Xdr.reader.Lawful where
  roundTrip val hfits := by
    have hparses := parses_readScVal hfits (Nat.le_refl _) []
    rw [List.append_nil] at hparses
    unfold Parses at hparses
    simp only [Xdr.reader, hparses]
  display_plain _ h := escape_plain h
  display_injective := escape_injective
  display_printable _ _ h := printable_escape h

theorem Xdr.reader_ledgerEntry {contract : Hash} {key val : ScVal} (hkey : Fits key)
    (hval : Fits val) :
    Xdr.reader.ledgerEntryDataFromXdr (contractDataXdr contract key val) =
      some (.contractData ⟨.contract contract, key, val⟩) := by
  have hparses := @parses_readContractData contract key val hkey hval _ (Nat.le_refl _)
  unfold Parses at hparses
  simp only [Xdr.reader, hparses, Option.map_some]

end StellarIbc.Core
