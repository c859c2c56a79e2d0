import StellarIbc.Bytes

/-!
# UTF-8 validity

The UTF-8 syntax of RFC 3629 as an automaton that reads one byte at a time, which is
what `String::from_utf8` accepts.  Validity of a text that ends at an ASCII byte splits
at that byte, since no multi-byte character contains one.
-/

namespace StellarIbc.Utf8

/-- Between characters, or inside one: how many continuation bytes are owed, with the
states after `E0`, `ED`, `F0` and `F4` narrowing the next one. -/
inductive State where
  | boundary
  | owes1
  | owes2
  | owes3
  | leadE0
  | leadED
  | leadF0
  | leadF4
deriving DecidableEq, Repr

def between (low high byte : UInt8) (next : State) : Option State :=
  if low ≤ byte ∧ byte ≤ high then some next else none

def lead (byte : UInt8) : Option State :=
  if byte < 0x80 then some .boundary
  else if 0xC2 ≤ byte ∧ byte ≤ 0xDF then some .owes1
  else if byte = 0xE0 then some .leadE0
  else if byte = 0xED then some .leadED
  else if 0xE1 ≤ byte ∧ byte ≤ 0xEF then some .owes2
  else if byte = 0xF0 then some .leadF0
  else if byte = 0xF4 then some .leadF4
  else if 0xF1 ≤ byte ∧ byte ≤ 0xF3 then some .owes3
  else none

def step : State → UInt8 → Option State
  | .boundary, byte => lead byte
  | .owes1, byte => between 0x80 0xBF byte .boundary
  | .owes2, byte => between 0x80 0xBF byte .owes1
  | .owes3, byte => between 0x80 0xBF byte .owes2
  | .leadE0, byte => between 0xA0 0xBF byte .owes1
  | .leadED, byte => between 0x80 0x9F byte .owes1
  | .leadF0, byte => between 0x90 0xBF byte .owes2
  | .leadF4, byte => between 0x80 0x8F byte .owes2

def run (state : State) : Bytes → Option State
  | [] => some state
  | byte :: bytes => (step state byte).bind fun next => run next bytes

/-- `core::str::from_utf8(bytes).is_ok()`. -/
def valid (bytes : Bytes) : Bool := run .boundary bytes = some .boundary

theorem run_append (state : State) (bytes more : Bytes) :
    run state (bytes ++ more) = (run state bytes).bind fun next => run next more := by
  induction bytes generalizing state with
  | nil => rfl
  | cons byte bytes ih =>
      rw [List.cons_append, run, run]
      cases step state byte with
      | none => rfl
      | some next => exact ih next

/-- An ASCII byte is only read between characters. -/
theorem step_ascii {state next : State} {byte : UInt8} (hbyte : byte < 0x80)
    (h : step state byte = some next) : state = .boundary ∧ next = .boundary := by
  have hlow : ∀ {low high : UInt8} {after : State}, 0x80 ≤ low →
      between low high byte after ≠ some next := by
    intro low high after hle
    unfold between
    rw [if_neg]
    · simp
    · rintro ⟨hge, -⟩
      exact absurd (UInt8.lt_of_lt_of_le hbyte (UInt8.le_trans hle hge)) (UInt8.lt_irrefl _)
  cases state with
  | boundary =>
      simp only [step, lead, hbyte, if_true, Option.some.injEq] at h
      exact ⟨rfl, h.symm⟩
  | owes1 => exact absurd h (hlow (by decide))
  | owes2 => exact absurd h (hlow (by decide))
  | owes3 => exact absurd h (hlow (by decide))
  | leadE0 => exact absurd h (hlow (by decide))
  | leadED => exact absurd h (hlow (by decide))
  | leadF0 => exact absurd h (hlow (by decide))
  | leadF4 => exact absurd h (hlow (by decide))

/-- A text is valid exactly when the parts before and after an ASCII byte are. -/
theorem valid_append_ascii (before after : Bytes) {byte : UInt8} (hbyte : byte < 0x80) :
    valid (before ++ byte :: after) = (valid before && valid after) := by
  have hboundary : step .boundary byte = some .boundary := by simp [step, lead, hbyte]
  have hother : ∀ state, state ≠ .boundary → step state byte = none := by
    intro state hne
    cases hstep : step state byte with
    | none => rfl
    | some next => exact absurd (step_ascii hbyte hstep).1 hne
  unfold valid
  rw [run_append]
  cases hbefore : run .boundary before with
  | none => simp
  | some state =>
      rw [Option.bind_some, run]
      by_cases hstate : state = .boundary
      · subst hstate
        simp [hboundary]
      · rw [hother state hstate]
        simp [hstate]

theorem valid_cons_ascii (after : Bytes) {byte : UInt8} (hbyte : byte < 0x80) :
    valid (byte :: after) = valid after := by
  have hsplit := valid_append_ascii [] after hbyte
  rw [List.nil_append] at hsplit
  rw [hsplit, show valid [] = true from by decide, Bool.true_and]

theorem valid_of_ascii {bytes : Bytes} (h : ∀ byte ∈ bytes, byte < 0x80) :
    valid bytes = true := by
  induction bytes with
  | nil => decide
  | cons byte bytes ih =>
      obtain ⟨hbyte, hbytes⟩ := List.forall_mem_cons.mp h
      rw [valid_cons_ascii bytes hbyte, ih hbytes]

end StellarIbc.Utf8
