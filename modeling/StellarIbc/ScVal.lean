import StellarIbc.Bytes

/-!
# XDR of contract values

The host serialises a contract value as an `ScVal`: a four-byte discriminant and then
the value, with strings counted and padded to four bytes.  A contract struct is a map
from the symbols of its fields, in alphabetical order, to their values.
-/

namespace StellarIbc

/-- `i128`. -/
abbrev I128 := { n : Int // -(2 ^ 127) ≤ n ∧ n < 2 ^ 127 }

namespace I128

def ofInt (n : Int) : Option I128 :=
  if h : -(2 ^ 127) ≤ n ∧ n < 2 ^ 127 then some ⟨n, h⟩ else none

def zero : I128 := ⟨0, by decide⟩

theorem ofUInt32_bounds (n : UInt32) : -(2 ^ 127) ≤ (n.toNat : Int) ∧ (n.toNat : Int) < 2 ^ 127 := by
  have hsize := n.toNat_lt
  omega

/-- `n as i128`. -/
def ofUInt32 (n : UInt32) : I128 := ⟨n.toNat, ofUInt32_bounds n⟩

/-- `left + right`, which traps on overflow. -/
def checkedAdd (left right : I128) : Option I128 := ofInt (left.val + right.val)

/-- `left - right`, which traps on overflow. -/
def checkedSub (left right : I128) : Option I128 := ofInt (left.val - right.val)

theorem ofInt_eq_some_iff {n : Int} {result : I128} :
    ofInt n = some result ↔ result.val = n := by
  unfold ofInt
  constructor
  · intro h
    split at h
    · cases h
      rfl
    · cases h
  · rintro rfl
    rw [dif_pos result.property]

theorem checkedAdd_eq_some_iff {left right result : I128} :
    left.checkedAdd right = some result ↔ result.val = left.val + right.val :=
  ofInt_eq_some_iff

theorem checkedSub_eq_some_iff {left right result : I128} :
    left.checkedSub right = some result ↔ result.val = left.val - right.val :=
  ofInt_eq_some_iff

end I128

/-- The values the structs of the contracts are made of; every other kind is given by its
discriminant and the XDR behind it. -/
inductive ScVal where
  | bool (value : Bool)
  | u32 (value : UInt32)
  | u64 (value : UInt64)
  | i128 (value : I128)
  | bytes (value : Bytes)
  | string (text : Bytes)
  | symbol (name : Bytes)
  | vec (items : List ScVal)
  | map (entries : List (ScVal × ScVal))
  | other (discriminant : UInt32) (body : Bytes)

namespace ScVal

def uint32 (n : Nat) : Bytes := beBytes 4 n

/-- A counted byte string, padded with zeros to a multiple of four. -/
def counted (bytes : Bytes) : Bytes :=
  uint32 bytes.length ++ bytes ++ List.replicate ((4 - bytes.length % 4) % 4) 0

mutual

/-- `to_xdr`. -/
def toXdr : ScVal → Bytes
  | .bool value => uint32 0 ++ uint32 value.toNat
  | .u32 value => uint32 3 ++ uint32 value.toNat
  | .u64 value => uint32 5 ++ be64 value
  | .i128 value => uint32 10 ++ beBytes 16 (value.val % 2 ^ 128).toNat
  | .bytes value => uint32 13 ++ counted value
  | .string text => uint32 14 ++ counted text
  | .symbol name => uint32 15 ++ counted name
  | .vec items => uint32 16 ++ uint32 1 ++ uint32 items.length ++ itemsToXdr items
  | .map entries => uint32 17 ++ uint32 1 ++ uint32 entries.length ++ entriesToXdr entries
  | .other discriminant body => uint32 discriminant.toNat ++ body

def itemsToXdr : List ScVal → Bytes
  | [] => []
  | item :: items => toXdr item ++ itemsToXdr items

def entriesToXdr : List (ScVal × ScVal) → Bytes
  | [] => []
  | (key, value) :: entries => toXdr key ++ toXdr value ++ entriesToXdr entries

end

/-- A contract struct, its fields in alphabetical order. -/
def struct (fields : List (Bytes × ScVal)) : ScVal :=
  .map (fields.map fun field => (.symbol field.1, field.2))

theorem toXdr_struct_head (fields : List (Bytes × ScVal)) :
    (struct fields).toXdr.head? = some 0 := by
  rw [struct, toXdr]
  rfl

end ScVal

end StellarIbc
