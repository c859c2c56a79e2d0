import StellarIbc.Bytes

/-!
# Canonical decimals

The decimal text of a number: digits only, at least one, no leading zero, and the number
is read back from it.
-/

namespace StellarIbc

/-- The number that decimal digits stand for. -/
def readDecimal (digits : Bytes) : Nat :=
  digits.foldl (fun n digit => 10 * n + (digit.toNat - 48)) 0

structure CanonicalDecimal (digits : Bytes) (n : Nat) : Prop where
  digit : ∀ byte ∈ digits, 48 ≤ byte.toNat ∧ byte.toNat ≤ 57
  nonempty : digits ≠ []
  noLeadingZero : digits.head? = some 48 → digits = [48]
  value : readDecimal digits = n

theorem readDecimal_append_singleton (digits : Bytes) (digit : UInt8) :
    readDecimal (digits ++ [digit]) = 10 * readDecimal digits + (digit.toNat - 48) := by
  simp [readDecimal]

theorem toNat_decimalDigit {d : Nat} (hd : d < 10) : (0x30 + UInt8.ofNat d).toNat = 48 + d := by
  revert d
  decide

theorem canonical_decimal (n : Nat) : CanonicalDecimal (decimal n) n := by
  have hdigit : ∀ byte ∈ decimal n, 48 ≤ byte.toNat ∧ byte.toNat ≤ 57 := by
    intro byte hmem
    obtain ⟨d, hd, rfl⟩ := mem_decimal hmem
    rw [toNat_decimalDigit hd]
    omega
  induction n using Nat.strong_induction_on with
  | _ n ih =>
      by_cases hsmall : n < 10
      · have hvalue : readDecimal (decimal n) = n := by
          rw [decimal_of_lt hsmall, ← List.nil_append [_], readDecimal_append_singleton,
            toNat_decimalDigit hsmall, Nat.add_sub_cancel_left]
          exact Nat.zero_add n
        refine ⟨hdigit, ?_, ?_, hvalue⟩
        · rw [decimal_of_lt hsmall]
          simp
        · rw [decimal_of_lt hsmall]
          intro hzero
          rw [List.head?_cons, Option.some.injEq] at hzero
          rw [hzero]
      · have hlarge : 10 ≤ n := Nat.le_of_not_lt hsmall
        have hlast : n % 10 < 10 := Nat.mod_lt n (by decide)
        have hsplit := decimal_of_le hlarge
        have hrest : CanonicalDecimal (decimal (n / 10)) (n / 10) := by
          apply ih (n / 10) (by omega)
          intro byte hmem
          exact hdigit byte (hsplit ▸ List.mem_append_left _ hmem)
        refine ⟨hdigit, ?_, ?_, ?_⟩
        · rw [hsplit]
          simp
        · intro hzero
          -- a leading zero would be one of the front, which stands for at least one
          obtain ⟨first, hfirst⟩ := Option.isSome_iff_exists.mp
            (List.isSome_head?.mpr hrest.nonempty)
          rw [hsplit, List.head?_append, hfirst, Option.some_or, ← hfirst] at hzero
          have hfront := hrest.value
          rw [hrest.noLeadingZero hzero] at hfront
          have hread : readDecimal [48] = 0 := rfl
          omega
        · rw [hsplit, readDecimal_append_singleton, hrest.value, toNat_decimalDigit hlast]
          omega

end StellarIbc
