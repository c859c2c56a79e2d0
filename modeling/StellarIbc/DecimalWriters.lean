import Mathlib.Data.Nat.Digits.Lemmas
import StellarIbc.Decimal
import StellarIbc.IdentifierBuffers
import StellarIbc.TransferPacket

/-!
# The two decimal writers

`write_u32` of the router collects the digits from the last to the first in a scratch array
and copies them in reverse order; `append_decimal` of the transfer app fills a buffer from
its end.  Both write the canonical decimal and stay in their buffers.  `writeU32` gives the
digits only; here are the loops with their indices, which compute the same.
-/

namespace StellarIbc.Router

/-! ### The loops of `write_u32` -/

/-- `while n > 0`: the digits go into `tmp` from index `i` on, of which `slots` are left. -/
def fillTmp : (slots n : Nat) → (tmp : Bytes) → (i : Nat) → Option (Nat × Bytes)
  | _, 0, tmp, i => some (i, tmp)
  | 0, _ + 1, _, _ => none
  | slots + 1, n + 1, tmp, i =>
      fillTmp slots ((n + 1) / 10) (tmp.set i (48 + UInt8.ofNat ((n + 1) % 10))) (i + 1)

/-- `for j in 0..i`: `count` steps are left, and an index outside either array panics. -/
def copyReversed (tmp : Bytes) (i : Nat) : (count j : Nat) → (buf : Bytes) → Option Bytes
  | 0, _, buf => some buf
  | count + 1, j, buf => do
      let byte ← tmp[i - 1 - j]?
      if j < buf.length then copyReversed tmp i count (j + 1) (buf.set j byte) else none

/-- `write_u32(buf, n)`: the number of bytes written and the buffer. -/
def writeU32Into (buf : Bytes) (n : UInt32) : Option (Nat × Bytes) :=
  if n = 0 then
    if 0 < buf.length then some (1, buf.set 0 48) else none
  else do
    let (i, tmp) ← fillTmp 10 n.toNat (List.replicate 10 0) 0
    return (i, ← copyReversed tmp i i 0 buf)

@[simp] theorem fillTmp_zero (slots : Nat) (tmp : Bytes) (i : Nat) :
    fillTmp slots 0 tmp i = some (i, tmp) := by
  cases slots <;> rfl

/-- The scratch array gets the digits of `tmpDigits` behind those it has. -/
theorem fillTmp_eq {slots n i : Nat} {tmp : Bytes} (hlength : tmp.length = i + slots) :
    fillTmp slots n tmp i = (tmpDigits slots n).map fun digits =>
      (i + digits.length, tmp.take i ++ digits ++ tmp.drop (i + digits.length)) := by
  induction slots generalizing n tmp i with
  | zero =>
      cases n with
      | zero => simp [tmpDigits]
      | succ n => rfl
  | succ slots ih =>
      cases n with
      | zero => simp [tmpDigits]
      | succ n =>
          have hbyte : (48 : UInt8) + UInt8.ofNat ((n + 1) % 10) =
              UInt8.ofNat (48 + (n + 1) % 10) := (UInt8.ofNat_add 48 _).symm
          rw [fillTmp, hbyte, tmpDigits]
          generalize UInt8.ofNat (48 + (n + 1) % 10) = byte
          have hnext : (tmp.set i byte).length = i + 1 + slots := by
            rw [List.length_set]
            omega
          have htake : (tmp.set i byte).take (i + 1) = tmp.take i ++ [byte] := by
            rw [List.take_add_one, List.take_set_of_le (Nat.le_refl i),
              List.getElem?_set_self (by omega)]
            rfl
          have hdrop : ∀ k, (tmp.set i byte).drop (i + 1 + k) = tmp.drop (i + 1 + k) :=
            fun k => List.drop_set_of_lt (by omega)
          rw [ih hnext]
          cases tmpDigits slots ((n + 1) / 10) with
          | none => rfl
          | some rest =>
              have hcount : i + (rest.length + 1) = i + 1 + rest.length := by omega
              simp [htake, hdrop, hcount]

/-- A buffer with room for all the digits gets them in reverse order. -/
theorem copyReversed_of_room {digits rest buf : Bytes} {count j : Nat}
    (hj : j + count = digits.length) (hroom : digits.length ≤ buf.length) :
    copyReversed (digits ++ rest) digits.length count j buf =
      some (buf.take j ++ digits.reverse.drop j ++ buf.drop digits.length) := by
  induction count generalizing j buf with
  | zero =>
      obtain rfl : j = digits.length := by omega
      rw [copyReversed, List.drop_of_length_le (by rw [List.length_reverse]), List.append_nil,
        List.take_append_drop]
  | succ count ih =>
      have hindex : digits.length - 1 - j < digits.length := by omega
      have hbyte : (digits ++ rest)[digits.length - 1 - j]? = digits.reverse[j]? := by
        rw [List.getElem?_append_left hindex, List.getElem?_reverse (by omega)]
      have hj' : j < digits.reverse.length := by
        rw [List.length_reverse]
        omega
      have hset : (buf.set j digits.reverse[j]).length = buf.length := List.length_set
      have htake : (buf.set j digits.reverse[j]).take (j + 1) =
          buf.take j ++ [digits.reverse[j]] := by
        rw [List.take_add_one, List.take_set_of_le (Nat.le_refl j),
          List.getElem?_set_self (by omega)]
        rfl
      have hdrop : (buf.set j digits.reverse[j]).drop digits.length =
          buf.drop digits.length := List.drop_set_of_lt (by omega)
      rw [copyReversed, hbyte, List.getElem?_eq_getElem hj', Option.bind_eq_bind,
        Option.bind_some, if_pos (by omega), ih (by omega) (by omega), htake, hdrop,
        List.drop_eq_getElem_cons hj']
      simp

/-- A buffer without the room is left. -/
theorem copyReversed_of_short {tmp buf : Bytes} {i count j : Nat} (hj : j + count = i)
    (hin : j ≤ buf.length) (hshort : buf.length < i) :
    copyReversed tmp i count j buf = none := by
  induction count generalizing j buf with
  | zero => omega
  | succ count ih =>
      rw [copyReversed, Option.bind_eq_bind, Option.bind_eq_none_iff]
      intro byte _
      by_cases hroom : j < buf.length
      · rw [if_pos hroom]
        exact ih (by omega) (by rw [List.length_set]; omega) (by rw [List.length_set]; omega)
      · rw [if_neg hroom]

/-- The loops write what `writeU32` says into the front of the buffer. -/
theorem writeU32Into_eq (buf : Bytes) (n : UInt32) :
    writeU32Into buf n = (writeU32 buf.length n).map fun digits =>
      (digits.length, digits ++ buf.drop digits.length) := by
  unfold writeU32Into writeU32
  by_cases hzero : n = 0
  · rw [if_pos hzero, if_pos hzero]
    cases buf with
    | nil => rfl
    | cons byte buf => simp
  · rw [if_neg hzero, if_neg hzero, fillTmp_eq (by simp)]
    cases htmp : tmpDigits 10 n.toNat with
    | none => rfl
    | some digits =>
        simp only [Option.map_some, Option.bind_eq_bind, Option.bind_some, Nat.zero_add,
          List.take_zero, List.nil_append]
        by_cases hroom : digits.length ≤ buf.length
        · rw [copyReversed_of_room (by omega) hroom, if_pos hroom]
          simp
        · rw [copyReversed_of_short (by omega) (by omega) (by omega), if_neg hroom]
          rfl

/-! ### The digits are the decimal -/

theorem reverse_tmpDigits {slots n : Nat} {digits : Bytes} (hn : n ≠ 0)
    (h : tmpDigits slots n = some digits) : digits.reverse = decimal n := by
  induction slots generalizing n digits with
  | zero =>
      cases n with
      | zero => exact absurd rfl hn
      | succ n => cases h
  | succ slots ih =>
      cases n with
      | zero => exact absurd rfl hn
      | succ n =>
          rw [tmpDigits, Option.bind_eq_bind, Option.bind_eq_some_iff] at h
          obtain ⟨rest, hrest, hdigits⟩ := h
          obtain rfl := Option.some.inj hdigits
          rw [List.reverse_cons, UInt8.ofNat_add 48]
          by_cases hsmall : n + 1 < 10
          · rw [Nat.div_eq_of_lt hsmall] at hrest
            have hnone : tmpDigits slots 0 = some [] := by
              cases slots <;> rfl
            obtain rfl := Option.some.inj (hnone.symm.trans hrest)
            rw [decimal_of_lt hsmall, Nat.mod_eq_of_lt hsmall]
            rfl
          · rw [decimal_of_le (Nat.le_of_not_lt hsmall), ih (by omega) hrest]
            rfl

theorem writeU32_eq_decimal {room : Nat} {n : UInt32} {digits : Bytes}
    (h : writeU32 room n = some digits) : digits = decimal n.toNat := by
  unfold writeU32 at h
  by_cases hzero : n = 0
  · rw [if_pos hzero] at h
    split at h
    · obtain rfl := Option.some.inj h
      rw [hzero]
      rfl
    · cases h
  · rw [if_neg hzero, Option.bind_eq_bind, Option.bind_eq_some_iff] at h
    obtain ⟨tmp, htmp, hwrite⟩ := h
    have hpos : n.toNat ≠ 0 := fun heq => hzero (UInt32.toNat_inj.mp heq)
    split at hwrite
    · obtain rfl := Option.some.inj hwrite
      exact reverse_tmpDigits hpos htmp
    · cases hwrite

theorem decimalLength_le (n : UInt32) : decimalLength n ≤ 10 := by
  have hlt : n.toNat < 10 ^ 10 := by
    have hsize := n.toNat_lt
    omega
  have hdigits : (Nat.digits 10 n.toNat).length ≤ 10 :=
    (Nat.digits_length_le_iff (by decide) _).mpr hlt
  exact Nat.max_le.mpr ⟨by decide, hdigits⟩

theorem writeU32Into_of_room {buf : Bytes} (hroom : 10 ≤ buf.length) (n : UInt32) :
    writeU32Into buf n = some ((decimal n.toNat).length,
      decimal n.toNat ++ buf.drop (decimal n.toNat).length) := by
  obtain ⟨digits, hdigits⟩ := writeU32_of_room (Nat.le_trans (decimalLength_le n) hroom)
  rw [writeU32Into_eq, hdigits, ← writeU32_eq_decimal hdigits]
  rfl

/-! ### Both writers -/

/-- **The decimal writers are exact.**  Of a positive amount `append_decimal` appends the
canonical decimal; into ten bytes or more `write_u32` writes that of any number, counts its
digits and leaves the rest of the buffer.  So what is written determines the number. -/
theorem decimal_writers_exact :
    (∀ (n : I128) (buf : Bytes), 0 < n.val → ∃ digits,
      Transfer.appendDecimal buf n = some (buf ++ digits) ∧
        CanonicalDecimal digits n.val.toNat) ∧
    (∀ (n : UInt32) (buf : Bytes), 10 ≤ buf.length → ∃ digits,
      writeU32Into buf n = some (digits.length, digits ++ buf.drop digits.length) ∧
        CanonicalDecimal digits n.toNat) ∧
    (∀ (n m : I128) (buf : Bytes), 0 < n.val → 0 < m.val →
      Transfer.appendDecimal buf n = Transfer.appendDecimal buf m → n = m) ∧
    ∀ (n m : UInt32) (buf buf' out out' : Bytes) (count count' : Nat),
      10 ≤ buf.length → 10 ≤ buf'.length → writeU32Into buf n = some (count, out) →
      writeU32Into buf' m = some (count', out') → out.take count = out'.take count' → n = m := by
  refine ⟨?_, ?_, ?_, ?_⟩
  · intro n buf hn
    exact ⟨_, Transfer.appendDecimal_of_pos buf hn, canonical_decimal _⟩
  · intro n buf hroom
    exact ⟨_, writeU32Into_of_room hroom n, canonical_decimal _⟩
  · intro n m buf hn hm h
    rw [Transfer.appendDecimal_of_pos buf hn, Transfer.appendDecimal_of_pos buf hm,
      Option.some.injEq] at h
    have hvalue := decimal_injective (List.append_cancel_left h)
    exact Subtype.ext (by omega)
  · intro n m buf buf' out out' count count' hroom hroom' hn hm htaken
    rw [writeU32Into_of_room hroom, Option.some.injEq, Prod.mk.injEq] at hn
    rw [writeU32Into_of_room hroom', Option.some.injEq, Prod.mk.injEq] at hm
    obtain ⟨rfl, rfl⟩ := hn
    obtain ⟨rfl, rfl⟩ := hm
    rw [List.take_left, List.take_left] at htaken
    exact UInt32.toNat_inj.mp (decimal_injective htaken)

/-- The greatest amount and the greatest counter. -/
theorem decimal_writers_exact_max :
    Transfer.appendDecimal [] ⟨2 ^ 127 - 1, by decide⟩ =
      some (ascii "170141183460469231731687303715884105727") ∧
    writeU32Into (List.replicate 10 7) 4294967295 = some (10, ascii "4294967295") ∧
    (∃ digits, Transfer.appendDecimal [] ⟨2 ^ 127 - 1, by decide⟩ = some digits ∧
      CanonicalDecimal digits (2 ^ 127 - 1)) ∧
    ∃ digits, writeU32Into (List.replicate 10 7) 4294967295 = some (digits.length,
      digits ++ (List.replicate 10 7).drop digits.length) ∧
      CanonicalDecimal digits 4294967295 := by
  refine ⟨by decide, by decide, ?_, ?_⟩
  · exact decimal_writers_exact.1 ⟨2 ^ 127 - 1, by decide⟩ [] (by decide)
  · exact decimal_writers_exact.2.1 4294967295 (List.replicate 10 7) (by decide)

end StellarIbc.Router
