import Mathlib.Tactic.Common

/-!
# Calls that keep their writes when they fail

A method of a mutable object can fail halfway and leave what it wrote so far.  `Fallible`
is that shape, and `Ends` its big-step reading: the outcome of a call and the state it
left, whether it failed or not.  Every primitive has one lemma that says how it ends.
-/

namespace StellarIbc

abbrev Fallible (ε σ α : Type) := ExceptT ε (StateM σ) α

namespace Fallible

variable {ε σ α β : Type}

/-- The outcome of `program` and the state it leaves. -/
def execute (program : Fallible ε σ α) (pre : σ) : Except ε α × σ :=
  Id.run (program.run.run pre)

/-- `program`, started in `pre`, ends with `outcome` and leaves `post`. -/
def Ends (program : Fallible ε σ α) (pre : σ) (outcome : Except ε α) (post : σ) : Prop :=
  execute program pre = (outcome, post)

theorem ends_execute (program : Fallible ε σ α) (pre : σ) :
    Ends program pre (execute program pre).1 (execute program pre).2 := rfl

theorem Ends.deterministic {program : Fallible ε σ α} {pre post post' : σ}
    {outcome outcome' : Except ε α} (h : Ends program pre outcome post)
    (h' : Ends program pre outcome' post') : outcome = outcome' ∧ post = post' := by
  have heq := h.symm.trans h'
  simpa only [Prod.mk.injEq] using heq

/-- `value.ok_or_else(|| error)?`. -/
def orThrow (error : ε) (value : Option α) : Fallible ε σ α :=
  match value with
  | some value => pure value
  | none => throw error

@[simp] theorem ends_pure {value : α} {outcome : Except ε α} {pre post : σ} :
    Ends (pure value : Fallible ε σ α) pre outcome post ↔
      outcome = .ok value ∧ post = pre := by
  constructor
  · intro h
    have heq : (Except.ok value, pre) = (outcome, post) := h
    simp only [Prod.mk.injEq] at heq
    exact ⟨heq.1.symm, heq.2.symm⟩
  · rintro ⟨rfl, rfl⟩
    rfl

@[simp] theorem ends_throw {error : ε} {outcome : Except ε α} {pre post : σ} :
    Ends (throw error : Fallible ε σ α) pre outcome post ↔
      outcome = .error error ∧ post = pre := by
  constructor
  · intro h
    have heq : (Except.error error, pre) = (outcome, post) := h
    simp only [Prod.mk.injEq] at heq
    exact ⟨heq.1.symm, heq.2.symm⟩
  · rintro ⟨rfl, rfl⟩
    rfl

@[simp] theorem ends_get {outcome : Except ε σ} {pre post : σ} :
    Ends (get : Fallible ε σ σ) pre outcome post ↔ outcome = .ok pre ∧ post = pre := by
  constructor
  · intro h
    have heq : (Except.ok pre, pre) = (outcome, post) := h
    simp only [Prod.mk.injEq] at heq
    exact ⟨heq.1.symm, heq.2.symm⟩
  · rintro ⟨rfl, rfl⟩
    rfl

@[simp] theorem ends_modify {f : σ → σ} {outcome : Except ε PUnit} {pre post : σ} :
    Ends (modify f : Fallible ε σ PUnit) pre outcome post ↔
      outcome = .ok ⟨⟩ ∧ post = f pre := by
  constructor
  · intro h
    have heq : (Except.ok PUnit.unit, f pre) = (outcome, post) := h
    simp only [Prod.mk.injEq] at heq
    exact ⟨heq.1.symm, heq.2.symm⟩
  · rintro ⟨rfl, rfl⟩
    rfl

@[simp] theorem ends_orThrow {error : ε} {value : Option α} {outcome : Except ε α}
    {pre post : σ} :
    Ends (orThrow error value : Fallible ε σ α) pre outcome post ↔
      outcome = value.elim (.error error) .ok ∧ post = pre := by
  cases value with
  | none => exact ends_throw
  | some value => exact ends_pure

/-- `program.map_err(f)`. -/
def mapError {ε' : Type} (f : ε → ε') (program : Fallible ε σ α) : Fallible ε' σ α :=
  ExceptT.mk (Except.mapError f <$> program.run)

theorem ends_mapError {ε' : Type} {f : ε → ε'} {program : Fallible ε σ α} {pre post : σ}
    {outcome : Except ε' α} :
    Ends (mapError f program) pre outcome post ↔
      ∃ result, Ends program pre result post ∧ outcome = result.mapError f := by
  have hexecute : execute (mapError f program) pre =
      ((execute program pre).1.mapError f, (execute program pre).2) := rfl
  unfold Ends
  rw [hexecute]
  cases hprogram : execute program pre with
  | mk result middle =>
      simp only [Prod.mk.injEq]
      constructor
      · rintro ⟨rfl, rfl⟩
        exact ⟨result, ⟨rfl, rfl⟩, rfl⟩
      · rintro ⟨_, ⟨rfl, rfl⟩, rfl⟩
        exact ⟨rfl, rfl⟩

theorem execute_bind (first : Fallible ε σ α) (next : α → Fallible ε σ β) (pre : σ) :
    execute (first >>= next) pre =
      match execute first pre with
      | (.ok value, middle) => execute (next value) middle
      | (.error error, middle) => (.error error, middle) := by
  have hcont : execute (first >>= next) pre =
      Id.run (ExceptT.bindCont next (execute first pre).1 (execute first pre).2) := rfl
  rw [hcont]
  cases execute first pre with
  | mk result middle =>
      cases result with
      | ok value => rfl
      | error error => rfl

/-- A sequence ends where its first part fails, or where its second part ends. -/
theorem ends_bind {first : Fallible ε σ α} {next : α → Fallible ε σ β} {pre post : σ}
    {outcome : Except ε β} :
    Ends (first >>= next) pre outcome post ↔
      (∃ value middle, Ends first pre (.ok value) middle ∧
        Ends (next value) middle outcome post) ∨
      (∃ error, Ends first pre (.error error) post ∧ outcome = .error error) := by
  unfold Ends
  rw [execute_bind]
  cases hfirst : execute first pre with
  | mk result middle =>
      cases result with
      | ok value => simp
      | error error =>
          simp only [Prod.mk.injEq, reduceCtorEq, false_and, exists_false, false_or,
            Except.error.injEq]
          constructor
          · rintro ⟨rfl, rfl⟩
            exact ⟨error, ⟨rfl, rfl⟩, rfl⟩
          · rintro ⟨error', ⟨rfl, rfl⟩, rfl⟩
            exact ⟨rfl, rfl⟩

/-! ### Sequences that start with a primitive -/

@[simp] theorem ends_get_bind {next : σ → Fallible ε σ β} {pre post : σ}
    {outcome : Except ε β} :
    Ends (get >>= next) pre outcome post ↔ Ends (next pre) pre outcome post := by
  rw [ends_bind]
  simp

@[simp] theorem ends_modify_bind {f : σ → σ} {next : PUnit → Fallible ε σ β} {pre post : σ}
    {outcome : Except ε β} :
    Ends (modify f >>= next) pre outcome post ↔ Ends (next ⟨⟩) (f pre) outcome post := by
  rw [ends_bind]
  simp only [ends_modify, reduceCtorEq, false_and, exists_false, or_false]
  constructor
  · rintro ⟨_, _, ⟨-, rfl⟩, hnext⟩
    exact hnext
  · intro hnext
    exact ⟨⟨⟩, _, ⟨trivial, rfl⟩, hnext⟩

@[simp] theorem ends_some_bind {error : ε} {value : α} {next : α → Fallible ε σ β}
    {pre post : σ} {outcome : Except ε β} :
    Ends (orThrow error (some value) >>= next) pre outcome post ↔
      Ends (next value) pre outcome post := by
  rw [ends_bind]
  simp

@[simp] theorem ends_none_bind {error : ε} {next : α → Fallible ε σ β} {pre post : σ}
    {outcome : Except ε β} :
    Ends (orThrow error none >>= next) pre outcome post ↔
      outcome = .error error ∧ post = pre := by
  rw [ends_bind]
  simp [and_comm]

end Fallible

end StellarIbc
