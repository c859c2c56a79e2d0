import Mathlib.Data.Set.Function
import Mathlib.Data.List.Induction
import Mathlib.Tactic.NormNum
import Mathlib.Tactic.Ring

/-!
# Byte strings, big-endian integers and hash collisions

The wire formats of the bridge are concatenations of byte strings, fixed-width
arrays and big-endian integers, hashed by one hash function.  This module holds
the facts about them that every later module shares: big-endian encoding is
invertible below its width, a concatenation of fixed-width chunks determines the
chunks, and equal hashes either come from equal strings or exhibit a collision
inside a named set of strings.
-/

namespace StellarIbc

abbrev Bytes := List UInt8

/-- The fixed-width arrays `[u8; n]` and `BytesN<n>`. -/
abbrev BytesN (n : Nat) := { bytes : Bytes // bytes.length = n }

abbrev Hash := BytesN 32

/-- `[byte; n]`. -/
def BytesN.fill (n : Nat) (byte : UInt8) : BytesN n :=
  ⟨List.replicate n byte, List.length_replicate⟩

/-- An ASCII literal such as `b"transfer"`. -/
def ascii (text : String) : Bytes := text.toList.map fun c => UInt8.ofNat c.toNat

theorem BytesN.ext {n : Nat} {left right : BytesN n} (h : left.val = right.val) :
    left = right :=
  Subtype.ext h

theorem forall_byte {P : UInt8 → Prop} (h : ∀ n < 256, P (UInt8.ofNat n)) (byte : UInt8) :
    P byte := by
  have hbyte := h byte.toNat byte.toNat_lt
  rwa [UInt8.ofNat_toNat] at hbyte

/-! ### Big-endian integers -/

/-- `value.to_be_bytes()` for an integer of `width` bytes. -/
def beBytes : Nat → Nat → Bytes
  | 0, _ => []
  | width + 1, value => beBytes width (value / 256) ++ [UInt8.ofNat value]

/-- `from_be_bytes`. -/
def ofBeBytes (bytes : Bytes) : Nat :=
  bytes.foldl (fun acc byte => acc * 256 + byte.toNat) 0

@[simp] theorem length_beBytes (width value : Nat) :
    (beBytes width value).length = width := by
  induction width generalizing value with
  | zero => rfl
  | succ width ih => simp [beBytes, ih]

theorem ofBeBytes_append_singleton (bytes : Bytes) (byte : UInt8) :
    ofBeBytes (bytes ++ [byte]) = ofBeBytes bytes * 256 + byte.toNat := by
  simp [ofBeBytes]

theorem ofBeBytes_beBytes (width value : Nat) :
    ofBeBytes (beBytes width value) = value % 256 ^ width := by
  induction width generalizing value with
  | zero => simp [beBytes, ofBeBytes, Nat.mod_one]
  | succ width ih =>
      have hbyte : (UInt8.ofNat value).toNat = value % 256 := by simp
      rw [beBytes, ofBeBytes_append_singleton, ih, hbyte, pow_succ',
        Nat.mod_mul]
      ring

theorem beBytes_injective {width left right : Nat} (hleft : left < 256 ^ width)
    (hright : right < 256 ^ width) (h : beBytes width left = beBytes width right) :
    left = right := by
  have hvalue := congrArg ofBeBytes h
  rwa [ofBeBytes_beBytes, ofBeBytes_beBytes, Nat.mod_eq_of_lt hleft,
    Nat.mod_eq_of_lt hright] at hvalue

/-- `u64::to_be_bytes`. -/
def be64 (value : UInt64) : Bytes := beBytes 8 value.toNat

@[simp] theorem length_be64 (value : UInt64) : (be64 value).length = 8 :=
  length_beBytes 8 value.toNat

theorem be64_injective {left right : UInt64} (h : be64 left = be64 right) :
    left = right := by
  have hpow : (256 : Nat) ^ 8 = 2 ^ 64 := by norm_num
  have hleft : left.toNat < 256 ^ 8 := by rw [hpow]; exact left.toNat_lt
  have hright : right.toNat < 256 ^ 8 := by rw [hpow]; exact right.toNat_lt
  exact UInt64.toNat_inj.mp (beBytes_injective hleft hright h)

/-! ### Bits of a 64-bit index -/

theorem toNat_ofNat {n : Nat} (h : n < 2 ^ 64) : (UInt64.ofNat n).toNat = n :=
  UInt64.toNat_ofNat_of_lt' h

theorem and_one_eq_zero_iff (i : UInt64) : i &&& 1 = 0 ↔ i.toNat % 2 = 0 := by
  rw [← UInt64.toNat_inj, UInt64.toNat_and]
  have hone : (1 : UInt64).toNat = 1 := rfl
  rw [hone, Nat.and_one_is_mod]
  rfl

theorem toNat_shiftRight_one (i : UInt64) : (i >>> 1).toNat = i.toNat / 2 := by
  rw [UInt64.toNat_shiftRight]
  have hone : (1 : UInt64).toNat % 64 = 1 := rfl
  rw [hone, Nat.shiftRight_eq_div_pow, pow_one]

/-! ### Decimals -/

/-- Lists with equal images are equal where the map is injective between them. -/
theorem eq_of_map_eq_map {α β : Type} {f : α → β} {left right : List α}
    (hinj : ∀ a ∈ left, ∀ b ∈ right, f a = f b → a = b)
    (h : left.map f = right.map f) : left = right := by
  induction left generalizing right with
  | nil => simpa [eq_comm] using h
  | cons a left ih =>
      cases right with
      | nil => simp at h
      | cons b right =>
          simp only [List.map_cons, List.cons.injEq] at h
          obtain rfl := hinj a (by simp) b (by simp) h.1
          rw [ih (fun a ha b hb => hinj a (by simp [ha]) b (by simp [hb])) h.2]

/-- The decimal digits of `n`, most significant first. -/
def decimal (n : Nat) : Bytes := (Nat.toDigits 10 n).map fun c => UInt8.ofNat c.toNat

theorem decimal_injective : Function.Injective decimal := by
  intro left right h
  have hdigit : ∀ n, ∀ c ∈ Nat.toDigits 10 n, c.toNat < 256 := by
    intro n c hc
    have hc' := Nat.isDigit_of_mem_toDigits (by norm_num) (Nat.le_refl 10) hc
    simp only [Char.isDigit, Bool.and_eq_true, decide_eq_true_eq] at hc'
    have hle : c.toNat ≤ 57 := hc'.2
    omega
  have hdigits : Nat.toDigits 10 left = Nat.toDigits 10 right := by
    refine eq_of_map_eq_map ?_ h
    intro c hc d hd hcd
    have hvalue := congrArg UInt8.toNat hcd
    rw [UInt8.toNat_ofNat', UInt8.toNat_ofNat', Nat.mod_eq_of_lt (hdigit left c hc),
      Nat.mod_eq_of_lt (hdigit right d hd)] at hvalue
    exact Char.toNat_inj.mp hvalue
  have hvalue := congrArg (fun digits => Nat.ofDigitChars 10 digits 0) hdigits
  simpa only [Nat.ofDigitChars_toDigits (by norm_num : 1 < 10) (Nat.le_refl 10)] using hvalue

theorem ofNat_digitChar {d : Nat} (h : d < 10) :
    UInt8.ofNat (Nat.digitChar d).toNat = 0x30 + UInt8.ofNat d := by
  revert d
  decide

theorem decimal_of_lt {n : Nat} (h : n < 10) : decimal n = [0x30 + UInt8.ofNat n] := by
  rw [decimal, Nat.toDigits_of_lt_base h, List.map_singleton, ofNat_digitChar h]

theorem decimal_of_le {n : Nat} (h : 10 ≤ n) :
    decimal n = decimal (n / 10) ++ [0x30 + UInt8.ofNat (n % 10)] := by
  rw [decimal, Nat.toDigits_of_base_le (by norm_num) h, List.map_append, List.map_singleton,
    ofNat_digitChar (Nat.mod_lt n (by norm_num)), decimal]

theorem mem_decimal {n : Nat} {byte : UInt8} (h : byte ∈ decimal n) :
    ∃ d < 10, byte = 0x30 + UInt8.ofNat d := by
  induction n using Nat.strong_induction_on with
  | _ n ih =>
      by_cases hn : n < 10
      · rw [decimal_of_lt hn, List.mem_singleton] at h
        exact ⟨n, hn, h⟩
      · rw [decimal_of_le (Nat.le_of_not_lt hn), List.mem_append, List.mem_singleton] at h
        rcases h with h | h
        · exact ih (n / 10) (by omega) h
        · exact ⟨n % 10, Nat.mod_lt n (by norm_num), h⟩

/-! ### Concatenations of fixed-width chunks -/

/-- Chunks of one positive width can be read back from their concatenation,
their number included. -/
theorem flatten_injective_of_width {n : Nat} (hn : 0 < n) :
    ∀ {left right : List (BytesN n)},
      (left.map Subtype.val).flatten = (right.map Subtype.val).flatten →
      left = right := by
  intro left
  induction left with
  | nil =>
      intro right h
      cases right with
      | nil => rfl
      | cons chunk rest =>
          have hlen := congrArg List.length h
          simp [chunk.property] at hlen
          omega
  | cons chunk rest ih =>
      intro right h
      cases right with
      | nil =>
          have hlen := congrArg List.length h
          simp [chunk.property] at hlen
          omega
      | cons other tail =>
          simp only [List.map_cons, List.flatten_cons] at h
          have hwidth : chunk.val.length = other.val.length := by
            rw [chunk.property, other.property]
          obtain ⟨hchunk, hrest⟩ := List.append_inj h hwidth
          rw [BytesN.ext hchunk, ih hrest]

/-! ### Collisions -/

/-- Two distinct strings of `strings` that `hash` maps to one value. -/
def Collision {α : Type} (hash : Bytes → α) (strings : Set Bytes) : Prop :=
  ∃ left ∈ strings, ∃ right ∈ strings, left ≠ right ∧ hash left = hash right

variable {α : Type} {hash : Bytes → α}

theorem not_collision_iff_injOn {strings : Set Bytes} :
    ¬ Collision hash strings ↔ Set.InjOn hash strings := by
  constructor
  · intro hfree left hleft right hright hequal
    by_contra hne
    exact hfree ⟨left, hleft, right, hright, hne, hequal⟩
  · rintro hinj ⟨left, hleft, right, hright, hne, hequal⟩
    exact hne (hinj hleft hright hequal)

theorem Collision.mono {small large : Set Bytes} (hsubset : small ⊆ large)
    (h : Collision hash small) : Collision hash large := by
  obtain ⟨left, hleft, right, hright, hne, hequal⟩ := h
  exact ⟨left, hsubset hleft, right, hsubset hright, hne, hequal⟩

end StellarIbc
