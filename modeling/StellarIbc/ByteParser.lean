import StellarIbc.Bytes

/-!
# Parsers over byte strings

A parser reads from the front of a byte string or fails.  `Parses` is its relational
reading, with one lemma for each way of building a parser.  The rules cover the two
facts that hold of every parser built from these pieces: what it read does not depend
on the bytes that follow (`Stable`), and it never gives bytes back (`Bounded`).
-/

namespace StellarIbc

abbrev ByteParser (α : Type) := StateT Bytes Option α

namespace ByteParser

variable {α β : Type}

/-- `p` reads `value` off `bytes` and leaves `rest`. -/
def Parses (p : ByteParser α) (bytes : Bytes) (value : α) (rest : Bytes) : Prop :=
  p.run bytes = some (value, rest)

/-- Read one byte. -/
def byte : ByteParser UInt8 := fun bytes =>
  match bytes with
  | [] => none
  | first :: rest => some (first, rest)

/-- Read exactly `n` bytes. -/
def take (n : Nat) : ByteParser Bytes := fun bytes =>
  if n ≤ bytes.length then some (bytes.take n, bytes.drop n) else none

def fail : ByteParser α := fun _ => none

/-- A value that may be missing, without reading anything. -/
def ofOption (value : Option α) : ByteParser α :=
  match value with
  | some value => pure value
  | none => fail

@[simp] theorem parses_pure {value result : α} {bytes rest : Bytes} :
    Parses (pure value) bytes result rest ↔ result = value ∧ rest = bytes := by
  simp [Parses, eq_comm]

@[simp] theorem parses_bind {p : ByteParser α} {q : α → ByteParser β} {bytes rest : Bytes}
    {result : β} :
    Parses (p >>= q) bytes result rest ↔
      ∃ value middle, Parses p bytes value middle ∧ Parses (q value) middle result rest := by
  unfold Parses
  rw [StateT.run_bind]
  cases p.run bytes with
  | none => simp
  | some outcome =>
      obtain ⟨value, middle⟩ := outcome
      simp

@[simp] theorem parses_ite {condition : Prop} [Decidable condition] {p q : ByteParser α}
    {bytes rest : Bytes} {result : α} :
    Parses (if condition then p else q) bytes result rest ↔
      (condition ∧ Parses p bytes result rest) ∨
        (¬ condition ∧ Parses q bytes result rest) := by
  by_cases h : condition <;> simp [h]

@[simp] theorem parses_fail {bytes rest : Bytes} {result : α} :
    ¬ Parses fail bytes result rest := by
  simp [Parses, fail, StateT.run]

@[simp] theorem parses_ofOption {value : Option α} {bytes rest : Bytes} {result : α} :
    Parses (ofOption value) bytes result rest ↔ value = some result ∧ rest = bytes := by
  cases value with
  | none => simp [ofOption]
  | some value => simp [ofOption, eq_comm]

@[simp] theorem parses_byte {bytes rest : Bytes} {first : UInt8} :
    Parses byte bytes first rest ↔ bytes = first :: rest := by
  cases bytes <;> simp [Parses, byte, StateT.run]

@[simp] theorem parses_take {n : Nat} {bytes taken rest : Bytes} :
    Parses (take n) bytes taken rest ↔ taken.length = n ∧ bytes = taken ++ rest := by
  have hrun : (take n).run bytes =
      if n ≤ bytes.length then some (bytes.take n, bytes.drop n) else none := rfl
  unfold Parses
  rw [hrun]
  constructor
  · intro h
    split at h
    · cases h
      exact ⟨by simp_all, (List.take_append_drop n bytes).symm⟩
    · cases h
  · rintro ⟨rfl, rfl⟩
    simp

theorem Parses.deterministic {p : ByteParser α} {bytes rest rest' : Bytes} {value value' : α}
    (h : Parses p bytes value rest) (h' : Parses p bytes value' rest') :
    value = value' ∧ rest = rest' := by
  have heq := h.symm.trans h'
  simpa only [Option.some.injEq, Prod.mk.injEq] using heq

/-! ### Stability and boundedness -/

/-- The bytes after what `p` reads do not matter. -/
def Stable (p : ByteParser α) : Prop :=
  ∀ bytes value rest, Parses p bytes value rest →
    ∀ more, Parses p (bytes ++ more) value (rest ++ more)

/-- `p` leaves at most what it was given. -/
def Bounded (p : ByteParser α) : Prop :=
  ∀ bytes value rest, Parses p bytes value rest → rest.length ≤ bytes.length

theorem Stable.pure (value : α) : Stable (Pure.pure value : ByteParser α) := by
  intro bytes result rest h more
  simp only [parses_pure] at h ⊢
  obtain ⟨rfl, rfl⟩ := h
  exact ⟨rfl, rfl⟩

theorem Stable.fail : Stable (ByteParser.fail : ByteParser α) := by
  intro bytes result rest h
  exact absurd h parses_fail

theorem Stable.ofOption (value : Option α) : Stable (ofOption value) := by
  cases value with
  | none => exact .fail
  | some value => exact .pure value

theorem Stable.byte : Stable byte := by
  intro bytes first rest h more
  simp only [parses_byte] at h ⊢
  rw [h, List.cons_append]

theorem Stable.take (n : Nat) : Stable (take n) := by
  intro bytes taken rest h more
  simp only [parses_take] at h ⊢
  rw [h.2, List.append_assoc]
  exact ⟨h.1, rfl⟩

theorem Stable.bind {p : ByteParser α} {q : α → ByteParser β} (hp : Stable p)
    (hq : ∀ value, Stable (q value)) : Stable (p >>= q) := by
  intro bytes result rest h more
  simp only [parses_bind] at h ⊢
  obtain ⟨value, middle, hfirst, hrest⟩ := h
  exact ⟨value, middle ++ more, hp _ _ _ hfirst more, hq value _ _ _ hrest more⟩

theorem Stable.ite {condition : Prop} [Decidable condition] {p q : ByteParser α}
    (hp : Stable p) (hq : Stable q) : Stable (if condition then p else q) := by
  split
  · exact hp
  · exact hq

theorem Bounded.pure (value : α) : Bounded (Pure.pure value : ByteParser α) := by
  intro bytes result rest h
  simp only [parses_pure] at h
  rw [h.2]

theorem Bounded.fail : Bounded (ByteParser.fail : ByteParser α) := by
  intro bytes result rest h
  exact absurd h parses_fail

theorem Bounded.ofOption (value : Option α) : Bounded (ofOption value) := by
  cases value with
  | none => exact .fail
  | some value => exact .pure value

theorem Bounded.byte : Bounded byte := by
  intro bytes first rest h
  rw [parses_byte] at h
  rw [h]
  exact Nat.le_succ _

theorem Bounded.take (n : Nat) : Bounded (take n) := by
  intro bytes taken rest h
  rw [parses_take] at h
  rw [h.2, List.length_append]
  exact Nat.le_add_left _ _

theorem Bounded.bind {p : ByteParser α} {q : α → ByteParser β} (hp : Bounded p)
    (hq : ∀ value, Bounded (q value)) : Bounded (p >>= q) := by
  intro bytes result rest h
  simp only [parses_bind] at h
  obtain ⟨value, middle, hfirst, hrest⟩ := h
  exact Nat.le_trans (hq value _ _ _ hrest) (hp _ _ _ hfirst)

theorem Bounded.ite {condition : Prop} [Decidable condition] {p q : ByteParser α}
    (hp : Bounded p) (hq : Bounded q) : Bounded (if condition then p else q) := by
  split
  · exact hp
  · exact hq

/-! ### Reading to the end -/

/-- Read values with `p` until no byte is left; `fuel` bounds their number. -/
def allFuel (p : ByteParser α) : Nat → Bytes → Option (List α)
  | _, [] => some []
  | 0, _ :: _ => none
  | fuel + 1, first :: bytes =>
      match p.run (first :: bytes) with
      | none => none
      | some (value, rest) => (allFuel p fuel rest).map (value :: ·)

/-- Read values with `p` until no byte is left. -/
def all (p : ByteParser α) (bytes : Bytes) : Option (List α) := allFuel p bytes.length bytes

/-- `p` reads at least one byte. -/
def Consumes (p : ByteParser α) : Prop :=
  ∀ bytes value rest, Parses p bytes value rest → rest.length < bytes.length

theorem Consumes.of_byte {q : UInt8 → ByteParser α} (hq : ∀ first, Bounded (q first)) :
    Consumes (byte >>= q) := by
  intro bytes value rest h
  simp only [parses_bind, parses_byte] at h
  obtain ⟨first, middle, rfl, hrest⟩ := h
  exact Nat.lt_succ_of_le (hq first _ _ _ hrest)

theorem Consumes.bind {p : ByteParser α} {q : α → ByteParser β} (hp : Consumes p)
    (hq : ∀ value, Bounded (q value)) : Consumes (p >>= q) := by
  intro bytes result rest h
  simp only [parses_bind] at h
  obtain ⟨value, middle, hfirst, hrest⟩ := h
  exact Nat.lt_of_le_of_lt (hq value _ _ _ hrest) (hp _ _ _ hfirst)

theorem Consumes.bounded {p : ByteParser α} (hp : Consumes p) : Bounded p := by
  intro bytes value rest h
  exact Nat.le_of_lt (hp _ _ _ h)

/-- Enough fuel is enough. -/
theorem allFuel_mono {p : ByteParser α} (hp : Consumes p) {fuel fuel' : Nat} {bytes : Bytes}
    (hfuel : bytes.length ≤ fuel) (hfuel' : bytes.length ≤ fuel') :
    allFuel p fuel bytes = allFuel p fuel' bytes := by
  induction fuel generalizing fuel' bytes with
  | zero =>
      obtain rfl := List.length_eq_zero_iff.mp (Nat.le_zero.mp hfuel)
      cases fuel' <;> rfl
  | succ fuel ih =>
      cases bytes with
      | nil => cases fuel' <;> rfl
      | cons first rest =>
          cases fuel' with
          | zero => simp at hfuel'
          | succ fuel' =>
              unfold allFuel
              cases hrun : p.run (first :: rest) with
              | none => rfl
              | some outcome =>
                  obtain ⟨value, left⟩ := outcome
                  have hless : left.length < rest.length + 1 := hp _ _ _ hrun
                  have hsame : allFuel p fuel left = allFuel p fuel' left := by
                    simp only [List.length_cons] at hfuel hfuel'
                    exact ih (by omega) (by omega)
                  dsimp only
                  rw [hsame]

theorem all_nil (p : ByteParser α) : all p [] = some [] := rfl

theorem all_of_parses {p : ByteParser α} (hp : Consumes p) {bytes rest : Bytes} {value : α}
    (h : Parses p bytes value rest) : all p bytes = (all p rest).map (value :: ·) := by
  have hless := hp _ _ _ h
  unfold all
  cases bytes with
  | nil => simp at hless
  | cons first bytes =>
      have hrun : p.run (first :: bytes) = some (value, rest) := h
      rw [List.length_cons, allFuel, hrun]
      dsimp only
      rw [allFuel_mono hp (Nat.le_of_lt_succ hless) (Nat.le_refl _)]

/-- What holds of every value that `p` reads holds of all of them. -/
theorem forall_mem_of_all {p : ByteParser α} {P : α → Prop}
    (h : ∀ bytes value rest, Parses p bytes value rest → P value) {bytes : Bytes}
    {values : List α} (hall : all p bytes = some values) : ∀ value ∈ values, P value := by
  have hfuel : ∀ fuel bytes values, allFuel p fuel bytes = some values →
      ∀ value ∈ values, P value := by
    intro fuel
    induction fuel with
    | zero =>
        intro bytes values hall
        cases bytes with
        | nil =>
            cases hall
            simp
        | cons first bytes => cases hall
    | succ fuel ih =>
        intro bytes values hall
        cases bytes with
        | nil =>
            cases hall
            simp
        | cons first bytes =>
            rw [allFuel] at hall
            cases hrun : p.run (first :: bytes) with
            | none =>
                rw [hrun] at hall
                cases hall
            | some outcome =>
                obtain ⟨value, rest⟩ := outcome
                rw [hrun] at hall
                obtain ⟨tail, htail, rfl⟩ := Option.map_eq_some_iff.mp hall
                exact List.forall_mem_cons.mpr ⟨h _ _ _ hrun, ih rest tail htail⟩
  exact hfuel bytes.length bytes values hall

/-- Where every value weighs at most the bytes it was read from, all of them together weigh
at most the whole input. -/
theorem sum_le_of_all {p : ByteParser α} {weight : α → Nat}
    (h : ∀ bytes value rest, Parses p bytes value rest →
      weight value + rest.length ≤ bytes.length) {bytes : Bytes} {values : List α}
    (hall : all p bytes = some values) : (values.map weight).sum ≤ bytes.length := by
  have hfuel : ∀ fuel bytes values, allFuel p fuel bytes = some values →
      (values.map weight).sum ≤ bytes.length := by
    intro fuel
    induction fuel with
    | zero =>
        intro bytes values hall
        cases bytes with
        | nil =>
            cases hall
            simp
        | cons first bytes => cases hall
    | succ fuel ih =>
        intro bytes values hall
        cases bytes with
        | nil =>
            cases hall
            simp
        | cons first bytes =>
            rw [allFuel] at hall
            cases hrun : p.run (first :: bytes) with
            | none =>
                rw [hrun] at hall
                cases hall
            | some outcome =>
                obtain ⟨value, rest⟩ := outcome
                rw [hrun] at hall
                obtain ⟨tail, htail, rfl⟩ := Option.map_eq_some_iff.mp hall
                have hfirst := h _ _ _ hrun
                have hrest := ih rest tail htail
                rw [List.map_cons, List.sum_cons]
                omega
  exact hfuel bytes.length bytes values hall

/-- A concatenation reads as the values of both parts. -/
theorem all_append {p : ByteParser α} (hstable : Stable p) (hp : Consumes p)
    {bytes more : Bytes} {values : List α} (h : all p bytes = some values) :
    all p (bytes ++ more) = (all p more).map (values ++ ·) := by
  induction hlength : bytes.length using Nat.strong_induction_on generalizing bytes values with
  | _ length ih =>
      cases bytes with
      | nil =>
          rw [all_nil] at h
          cases h
          simp
      | cons first bytes =>
          have hall := h
          unfold all at hall
          rw [List.length_cons, allFuel] at hall
          cases hrun : p.run (first :: bytes) with
          | none =>
              rw [hrun] at hall
              cases hall
          | some outcome =>
              obtain ⟨value, rest⟩ := outcome
              have hless := hp _ _ _ hrun
              rw [all_of_parses hp hrun] at h
              obtain ⟨tail, htail, rfl⟩ := Option.map_eq_some_iff.mp h
              rw [all_of_parses hp (hstable _ _ _ hrun more),
                ih rest.length (by omega) htail rfl]
              cases all p more <;> simp

end ByteParser

end StellarIbc
