import Mathlib.Data.List.Sort
import StellarIbc.CoreState

/-!
# Conversions to and from contract values

`crates/core/src/conversion.rs`: building, writing and reading the values that the
gateway and the API exchange with the contracts.  A struct is a map sorted by its
symbols, so where a field ends up depends on all the names; what is read back does not.

The XDR crate writes values as the host does.  Its reading half, and the text it displays
a string as, are parameters.
-/

namespace StellarIbc.Core

/-- `anyhow::Result`, an error being its text. -/
abbrev Anyhow (α : Type) := Except Bytes α

/-- `ok_or_else(|| anyhow!(..))`. -/
def okOrElse {α : Type} (error : Bytes) : Option α → Anyhow α
  | some value => .ok value
  | none => .error error

@[simp] theorem okOrElse_some {α : Type} (error : Bytes) (value : α) :
    okOrElse error (some value) = .ok value := rfl

theorem okOrElse_bind_eq_ok {α β : Type} {error : Bytes} {value : Option α}
    {next : α → Anyhow β} {result : β} :
    okOrElse error value >>= next = .ok result ↔
      ∃ found, value = some found ∧ next found = .ok result := by
  cases value with
  | none =>
      constructor
      · intro h
        cases h
      · rintro ⟨found, hfound, -⟩
        cases hfound
  | some found =>
      constructor
      · intro h
        exact ⟨found, rfl, h⟩
      · rintro ⟨found', hfound, h⟩
        cases hfound
        exact h

/-- `map_err(|e| anyhow!("{text}{e}"))`. -/
def withText {α : Type} (text : Bytes) : Except Bytes α → Anyhow α
  | .ok value => .ok value
  | .error e => .error (text ++ e)

@[simp] theorem withText_ok {α : Type} (text : Bytes) (value : α) :
    withText text (.ok value) = .ok value := rfl

/-- What is used of `soroban_client::xdr` to read: `from_xdr` without limits, failing with a
text, and the text of a `StringM` as `to_string` gives it. -/
structure Xdr where
  fromXdr : Bytes → Except Bytes ScVal
  ledgerEntryDataFromXdr : Bytes → Option LedgerEntryData
  display : Bytes → Bytes

/-! ### Building values -/

def scvalString (s : Bytes) : Anyhow ScVal :=
  if s.length < 2 ^ 32 then .ok (.string s)
  else .error (ascii "invalid string for ScVal: " ++ s)

def scvalSymbol (s : Bytes) : Anyhow ScVal :=
  if s.length ≤ 32 then .ok (.symbol s)
  else .error (ascii "invalid symbol for ScVal: " ++ s)

def scvalBytes (b : Bytes) : Anyhow ScVal :=
  if b.length < 2 ^ 32 then .ok (.bytes b) else .error (ascii "invalid bytes for ScVal")

def scvalVec (items : List ScVal) : Anyhow ScVal :=
  if items.length < 2 ^ 32 then .ok (.vec items) else .error (ascii "ScVal vec too large")

/-- Symbols are ordered as their names. -/
def sortFields (fields : List (Bytes × ScVal)) : List (Bytes × ScVal) :=
  fields.insertionSort fun left right => left.1 ≤ right.1

/-- Keys are checked in the order of the fields, and then the entries are sorted. -/
def scvalStruct (fields : List (Bytes × ScVal)) : Anyhow ScVal := do
  let entries ← fields.mapM fun field => do
    let _ ← scvalSymbol field.1
    return field
  if entries.length < 2 ^ 32 then return .struct (sortFields entries)
  else throw (ascii "struct map too large")

def scvalHeight (revisionNumber revisionHeight : UInt64) : Anyhow ScVal :=
  scvalStruct [(ascii "revision_number", .u64 revisionNumber),
    (ascii "revision_height", .u64 revisionHeight)]

/-- The XDR of the `LedgerKey::ContractData` of a contract's persistent entry. -/
def persistentContractDataKey (contract : Hash) (keyVal : ScVal) : Bytes :=
  ScVal.uint32 6 ++ (ScVal.uint32 1 ++ contract.val) ++ keyVal.toXdr ++ ScVal.uint32 1

/-! ### Reading values -/

/-- `ScMap`. -/
abbrev ScMap := List (ScVal × ScVal)

def scvalAsMap : ScVal → Option ScMap
  | .map entries => some entries
  | _ => none

def scvalAsU64 : ScVal → Option UInt64
  | .u64 value => some value
  | _ => none

def scvalAsU32 : ScVal → Option UInt32
  | .u32 value => some value
  | _ => none

section

variable (xdr : Xdr)

def scvalFromXdr (bytes : Bytes) : Anyhow ScVal :=
  withText (ascii "ScVal from_xdr: ") (xdr.fromXdr bytes)

def ledgerEntryContractVal (entryXdr : Bytes) : Option ScVal :=
  match xdr.ledgerEntryDataFromXdr entryXdr with
  | some (.contractData entry) => some entry.val
  | _ => none

def scvalAsString : ScVal → Option Bytes
  | .string text => some (xdr.display text)
  | _ => none

def scvalAsSymbol : ScVal → Option Bytes
  | .symbol name => some (xdr.display name)
  | _ => none

/-- The first entry whose key displays as `name`. -/
def scvalField (map : ScMap) (name : Bytes) : Option ScVal :=
  (map.find? fun entry => match entry.1 with
    | .symbol s => decide (xdr.display s = name)
    | _ => false).map Prod.snd

def scvalMapField (map : ScMap) (name : Bytes) : Anyhow ScVal :=
  okOrElse (ascii "missing field: " ++ name) (scvalField xdr map name)

/-- `scval_map_as_map`, `scval_map_u64` and their like: the field, read as `as` reads it. -/
def scvalMapAs {α : Type} (as : ScVal → Option α) (kind : Bytes) (map : ScMap) (name : Bytes) :
    Anyhow α := do
  let field ← scvalMapField xdr map name
  okOrElse (ascii "field " ++ name ++ ascii " is not " ++ kind) (as field)

def scvalMapAsMap : ScMap → Bytes → Anyhow ScMap := scvalMapAs xdr scvalAsMap (ascii "a map")

def scvalMapU64 : ScMap → Bytes → Anyhow UInt64 := scvalMapAs xdr scvalAsU64 (ascii "u64")

def scvalMapU32 : ScMap → Bytes → Anyhow UInt32 := scvalMapAs xdr scvalAsU32 (ascii "u32")

def scvalMapString : ScMap → Bytes → Anyhow Bytes :=
  scvalMapAs xdr (scvalAsString xdr) (ascii "a string")

def scvalMapBytes : ScMap → Bytes → Anyhow Bytes :=
  scvalMapAs xdr scvalAsBytes (ascii "bytes")

end

/-! ### What the code relies on -/

/-- Values within the limits of XDR: counted parts below `2 ^ 32`, symbols of at most 32
bytes, and of the kinds that are told apart. -/
inductive Fits : ScVal → Prop
  | bool (value : Bool) : Fits (.bool value)
  | u32 (value : UInt32) : Fits (.u32 value)
  | u64 (value : UInt64) : Fits (.u64 value)
  | i128 (value : I128) : Fits (.i128 value)
  | bytes {value : Bytes} (hlength : value.length < 2 ^ 32) : Fits (.bytes value)
  | string {text : Bytes} (hlength : text.length < 2 ^ 32) : Fits (.string text)
  | symbol {name : Bytes} (hlength : name.length ≤ 32) : Fits (.symbol name)
  | vec {items : List ScVal} (hlength : items.length < 2 ^ 32)
      (hitems : ∀ item ∈ items, Fits item) : Fits (.vec items)
  | map {entries : ScMap} (hlength : entries.length < 2 ^ 32)
      (hkeys : ∀ entry ∈ entries, Fits entry.1) (hvalues : ∀ entry ∈ entries, Fits entry.2) :
      Fits (.map entries)

/-- A printable character of ASCII. -/
def Printable (byte : UInt8) : Prop := 0x20 ≤ byte ∧ byte ≤ 0x7e

instance (byte : UInt8) : Decidable (Printable byte) :=
  inferInstanceAs (Decidable (0x20 ≤ byte ∧ byte ≤ 0x7e))

/-- A text that is displayed as it is: printable, and without the escape character. -/
def Plain (text : Bytes) : Prop := ∀ byte ∈ text, Printable byte ∧ byte ≠ 0x5c

instance (text : Bytes) : Decidable (Plain text) :=
  List.decidableBAll (fun byte => Printable byte ∧ byte ≠ 0x5c) text

/-- XDR that was written is read back, and strings are displayed with everything escaped
that is not printable. -/
structure Xdr.Lawful (xdr : Xdr) : Prop where
  roundTrip : ∀ val, Fits val → xdr.fromXdr val.toXdr = .ok val
  display_plain : ∀ text, Plain text → xdr.display text = text
  display_injective : Function.Injective xdr.display
  display_printable : ∀ text, ∀ byte ∈ xdr.display text, Printable byte

/-! ### Structs -/

/-- The map of a struct, under the symbols of its fields. -/
def structMap (fields : List (Bytes × ScVal)) : ScMap :=
  fields.map fun field => (.symbol field.1, field.2)

@[simp] theorem scvalAsMap_struct (fields : List (Bytes × ScVal)) :
    scvalAsMap (.struct fields) = some (structMap fields) := rfl

variable {xdr : Xdr}

theorem scvalFromXdr_toXdr (hxdr : xdr.Lawful) {val : ScVal} (hfits : Fits val) :
    scvalFromXdr xdr val.toXdr = .ok val := by
  rw [scvalFromXdr, hxdr.roundTrip val hfits, withText_ok]

theorem scvalString_of_lt {s : Bytes} (h : s.length < 2 ^ 32) : scvalString s = .ok (.string s) :=
  if_pos h

theorem scvalBytes_of_lt {b : Bytes} (h : b.length < 2 ^ 32) : scvalBytes b = .ok (.bytes b) :=
  if_pos h

theorem scvalVec_of_lt {items : List ScVal} (h : items.length < 2 ^ 32) :
    scvalVec items = .ok (.vec items) :=
  if_pos h

/-- Names that a struct of the contracts can have: short symbols, all distinct. -/
structure FieldNames (names : List Bytes) : Prop where
  short : ∀ name ∈ names, name.length ≤ 32
  plain : ∀ name ∈ names, Plain name
  distinct : names.Nodup
  count : names.length < 2 ^ 32

instance (names : List Bytes) : Decidable (FieldNames names) :=
  decidable_of_iff ((∀ name ∈ names, name.length ≤ 32) ∧ (∀ name ∈ names, Plain name) ∧
      names.Nodup ∧ names.length < 2 ^ 32)
    ⟨fun ⟨short, plain, distinct, count⟩ => ⟨short, plain, distinct, count⟩,
      fun h => ⟨h.short, h.plain, h.distinct, h.count⟩⟩

/-- The order of the names does not matter. -/
theorem FieldNames.of_perm {names names' : List Bytes} (h : FieldNames names)
    (hperm : names'.Perm names) : FieldNames names' := by
  refine ⟨?_, ?_, ?_, ?_⟩
  · intro name hname
    exact h.short name (hperm.mem_iff.mp hname)
  · intro name hname
    exact h.plain name (hperm.mem_iff.mp hname)
  · exact hperm.nodup_iff.mpr h.distinct
  · rw [hperm.length_eq]
    exact h.count

theorem scvalStruct_of_fieldNames {fields : List (Bytes × ScVal)}
    (h : FieldNames (fields.map Prod.fst)) :
    scvalStruct fields = .ok (.struct (sortFields fields)) := by
  have hkeys : ∀ fields : List (Bytes × ScVal), (∀ field ∈ fields, field.1.length ≤ 32) →
      (fields.mapM fun field => (do
        let _ ← scvalSymbol field.1
        return field : Anyhow (Bytes × ScVal))) = .ok fields := by
    intro fields hshort
    induction fields with
    | nil => rfl
    | cons field fields ih =>
        rw [List.forall_mem_cons] at hshort
        have hsymbol : scvalSymbol field.1 = .ok (.symbol field.1) := if_pos hshort.1
        rw [List.mapM_cons, ih hshort.2, hsymbol]
        rfl
  have hcount : fields.length < 2 ^ 32 := by
    have hcount := h.count
    rwa [List.length_map] at hcount
  have hshort : ∀ field ∈ fields, field.1.length ≤ 32 :=
    fun field hmem => h.short _ (List.mem_map_of_mem hmem)
  rw [scvalStruct, hkeys fields hshort]
  exact if_pos hcount

/-- A field is found under its name, wherever it stands. -/
theorem scvalField_struct (hxdr : xdr.Lawful) {fields : List (Bytes × ScVal)}
    (h : FieldNames (fields.map Prod.fst)) {name : Bytes} {val : ScVal}
    (hmem : (name, val) ∈ fields) :
    scvalField xdr (structMap fields) name = some val := by
  have hplain : ∀ field ∈ fields, xdr.display field.1 = field.1 :=
    fun field hfield => hxdr.display_plain _ (h.plain _ (List.mem_map_of_mem hfield))
  have hdistinct := h.distinct
  clear h
  unfold scvalField
  induction fields with
  | nil => cases hmem
  | cons field fields ih =>
      rw [List.forall_mem_cons] at hplain
      rw [List.map_cons, List.nodup_cons] at hdistinct
      rw [structMap, List.map_cons]
      rcases List.mem_cons.mp hmem with rfl | hrest
      · rw [List.find?_cons_of_pos (by simpa using hplain.1)]
        rfl
      · have hnames : name ∈ fields.map Prod.fst := List.mem_map.mpr ⟨_, hrest, rfl⟩
        have hne : field.1 ≠ name := by
          intro heq
          rw [heq] at hdistinct
          exact hdistinct.1 hnames
        rw [List.find?_cons_of_neg (by simpa [hplain.1] using hne)]
        exact ih hrest hplain.2 hdistinct.2

theorem scvalMapAs_struct {α : Type} (hxdr : xdr.Lawful) {fields : List (Bytes × ScVal)}
    (h : FieldNames (fields.map Prod.fst)) {as : ScVal → Option α} {kind name : Bytes}
    {val : ScVal} {value : α} (hmem : (name, val) ∈ fields) (has : as val = some value) :
    scvalMapAs xdr as kind (structMap fields) name =
      .ok value := by
  have hread : ∀ error, okOrElse error (as val) = .ok value := by
    intro error
    rw [has, okOrElse_some]
  rw [scvalMapAs, scvalMapField, scvalField_struct hxdr h hmem]
  exact hread _

/-- A name that no field has is not found. -/
theorem scvalField_struct_none (hxdr : xdr.Lawful) {fields : List (Bytes × ScVal)}
    (h : FieldNames (fields.map Prod.fst)) {name : Bytes} (hname : name ∉ fields.map Prod.fst) :
    scvalField xdr (structMap fields) name = none := by
  unfold scvalField
  rw [Option.map_eq_none_iff, List.find?_eq_none]
  intro entry hentry
  obtain ⟨field, hfield, rfl⟩ := List.mem_map.mp hentry
  have hmem : field.1 ∈ fields.map Prod.fst := List.mem_map_of_mem hfield
  have hne : field.1 ≠ name := by
    rintro rfl
    exact hname hmem
  simpa [hxdr.display_plain _ (h.plain _ hmem)] using hne

theorem fits_struct {fields : List (Bytes × ScVal)} (h : FieldNames (fields.map Prod.fst))
    (hvalues : ∀ field ∈ fields, Fits field.2) : Fits (.struct fields) := by
  refine .map ?_ ?_ ?_
  · have hcount := h.count
    rw [List.length_map] at hcount ⊢
    exact hcount
  · intro entry hentry
    obtain ⟨field, hfield, rfl⟩ := List.mem_map.mp hentry
    exact .symbol (h.short _ (List.mem_map_of_mem hfield))
  · intro entry hentry
    obtain ⟨field, hfield, rfl⟩ := List.mem_map.mp hentry
    exact hvalues field hfield

end StellarIbc.Core
