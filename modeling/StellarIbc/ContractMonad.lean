import Mathlib.Tactic.Common

/-!
# Atomic contract calls

A contract entrypoint is a state transformer that either returns or aborts, and
an aborted call leaves no trace: the host rolls its writes back.  `Contract` is
that shape, and `Returns` is its big-step reading.  Every primitive has one lemma
that says when it returns, tagged for `simp`, so that a call that returned can be
taken apart with `obtain` and no definition of the monad is ever unfolded.
-/

namespace StellarIbc

/-- How a call aborts: with an error code of its own, or by a trap of the host
(an overflow, an access out of bounds, a failed conversion or a failed callee). -/
inductive Panic (ε : Type) where
  | error (code : ε)
  | trap
deriving DecidableEq, Repr

abbrev Contract (ε σ α : Type) := StateT σ (Except (Panic ε)) α

namespace Contract

variable {ε σ α β : Type}

/-- `program`, started in `pre`, returns `value` and leaves `post`. -/
def Returns (program : Contract ε σ α) (pre : σ) (value : α) (post : σ) : Prop :=
  program.run pre = .ok (value, post)

/-- `program`, started in `pre`, aborts. -/
def Aborts (program : Contract ε σ α) (pre : σ) : Prop :=
  ∃ panic, program.run pre = .error panic

theorem Returns.deterministic {program : Contract ε σ α} {pre post post' : σ}
    {value value' : α} (h : Returns program pre value post)
    (h' : Returns program pre value' post') : value = value' ∧ post = post' := by
  have heq := h.symm.trans h'
  simpa only [Except.ok.injEq, Prod.mk.injEq] using heq

theorem aborts_iff {program : Contract ε σ α} {pre : σ} :
    Aborts program pre ↔ ∀ value post, ¬ Returns program pre value post := by
  unfold Aborts Returns
  cases program.run pre with
  | error panic => simp
  | ok result =>
      obtain ⟨value, post⟩ := result
      simp

theorem returns_of_toOption {program : Contract ε σ α} {pre post : σ} {value : α}
    (h : (program.run pre).toOption = some (value, post)) : Returns program pre value post := by
  cases hrun : program.run pre with
  | error panic =>
      rw [hrun] at h
      cases h
  | ok result =>
      rw [hrun] at h
      obtain rfl := Option.some.inj h
      exact hrun

/-- Execute `program` and test what it returned and left. -/
def passes (program : Contract ε σ α) (pre : σ) (check : α → σ → Bool) : Bool :=
  match program.run pre with
  | .ok (value, post) => check value post
  | .error _ => false

theorem exists_returns_of_passes {program : Contract ε σ α} {pre : σ} {check : α → σ → Bool}
    (h : passes program pre check = true) :
    ∃ value post, Returns program pre value post ∧ check value post = true := by
  unfold passes at h
  cases hrun : program.run pre with
  | error panic =>
      rw [hrun] at h
      cases h
  | ok result =>
      rw [hrun] at h
      exact ⟨result.1, result.2, hrun, h⟩

/-! ### Primitives -/

/-- `panic_with_error!(env, code)` under a condition. -/
def panicIf (condition : Prop) [Decidable condition] (code : ε) : Contract ε σ Unit :=
  if condition then throw (.error code) else pure ()

/-- `value.unwrap_or_else(|| panic_with_error!(env, code))`. -/
def unwrapOr (value : Option α) (code : ε) : Contract ε σ α :=
  match value with
  | some value => pure value
  | none => throw (.error code)

/-- A host check whose failure is a trap: a slice bound, an arithmetic overflow. -/
def trapUnless (condition : Prop) [Decidable condition] : Contract ε σ Unit :=
  if condition then pure () else throw .trap

/-- A result of the host that is missing when the host trapped. -/
def orTrap (value : Option α) : Contract ε σ α :=
  match value with
  | some value => pure value
  | none => throw .trap

@[simp] theorem returns_pure {value result : α} {pre post : σ} :
    Returns (pure value : Contract ε σ α) pre result post ↔
      result = value ∧ post = pre := by
  have hrun : (pure value : Contract ε σ α).run pre = .ok (value, pre) := rfl
  unfold Returns
  rw [hrun, Except.ok.injEq, Prod.mk.injEq, eq_comm, eq_comm (a := pre)]

@[simp] theorem returns_bind {first : Contract ε σ α} {next : α → Contract ε σ β}
    {pre post : σ} {result : β} :
    Returns (first >>= next) pre result post ↔
      ∃ value middle, Returns first pre value middle ∧
        Returns (next value) middle result post := by
  unfold Returns
  rw [StateT.run_bind]
  cases first.run pre with
  | error panic => simp [bind, Except.bind]
  | ok outcome =>
      obtain ⟨value, middle⟩ := outcome
      simp [bind, Except.bind]

@[simp] theorem returns_map {program : Contract ε σ α} {f : α → β} {pre post : σ}
    {result : β} :
    Returns (f <$> program) pre result post ↔
      ∃ value, Returns program pre value post ∧ result = f value := by
  rw [map_eq_pure_bind]
  simp only [returns_bind, returns_pure]
  constructor
  · rintro ⟨value, middle, hrun, hresult, rfl⟩
    exact ⟨value, hrun, hresult⟩
  · rintro ⟨value, hrun, hresult⟩
    exact ⟨value, post, hrun, hresult, rfl⟩

@[simp] theorem returns_get {pre post result : σ} :
    Returns (get : Contract ε σ σ) pre result post ↔ result = pre ∧ post = pre := by
  simp [Returns, pure, Except.pure, eq_comm]

@[simp] theorem returns_modify {f : σ → σ} {pre post : σ} {result : PUnit} :
    Returns (modify f : Contract ε σ PUnit) pre result post ↔ post = f pre := by
  simp [Returns, modify, modifyGet, MonadStateOf.modifyGet, StateT.modifyGet,
    StateT.run, pure, Except.pure, eq_comm]

@[simp] theorem returns_throw {panic : Panic ε} {pre post : σ} {result : α} :
    ¬ Returns (throw panic : Contract ε σ α) pre result post := by
  simp [Returns, throw, throwThe, MonadExceptOf.throw, StateT.run, StateT.lift,
    bind, Except.bind]

@[simp] theorem returns_ite {condition : Prop} [Decidable condition]
    {yes no : Contract ε σ α} {pre post : σ} {result : α} :
    Returns (if condition then yes else no) pre result post ↔
      (condition ∧ Returns yes pre result post) ∨
        (¬ condition ∧ Returns no pre result post) := by
  by_cases h : condition <;> simp [h]

@[simp] theorem returns_panicIf {condition : Prop} [Decidable condition] {code : ε}
    {pre post : σ} {result : Unit} :
    Returns (panicIf condition code : Contract ε σ Unit) pre result post ↔
      ¬ condition ∧ post = pre := by
  simp [panicIf]

@[simp] theorem returns_trapUnless {condition : Prop} [Decidable condition]
    {pre post : σ} {result : Unit} :
    Returns (trapUnless condition : Contract ε σ Unit) pre result post ↔
      condition ∧ post = pre := by
  simp [trapUnless]

@[simp] theorem returns_unwrapOr {value : Option α} {code : ε} {pre post : σ}
    {result : α} :
    Returns (unwrapOr value code : Contract ε σ α) pre result post ↔
      value = some result ∧ post = pre := by
  cases value with
  | none => simp [unwrapOr]
  | some value => simp [unwrapOr, eq_comm]

@[simp] theorem returns_orTrap {value : Option α} {pre post : σ} {result : α} :
    Returns (orTrap value : Contract ε σ α) pre result post ↔
      value = some result ∧ post = pre := by
  cases value with
  | none => simp [orTrap]
  | some value => simp [orTrap, eq_comm]

/-! ### Calls that return

`Returns` says what a call did if it returned.  `Yields` says that it does, from every state
with a given view. -/

section

variable {τ : Type} {view : σ → τ} {s s' s'' : τ}

/-- From every state that `view` takes to `s`, `program` returns `value`, and `view` takes
the state it leaves to `s'`. -/
def Yields (view : σ → τ) (program : Contract ε σ α) (s : τ) (value : α) (s' : τ) : Prop :=
  ∀ pre, view pre = s → ∃ post, Returns program pre value post ∧ view post = s'

theorem Yields.pure (value : α) : Yields view (pure value : Contract ε σ α) s value s :=
  fun pre hpre => ⟨pre, returns_pure.mpr ⟨rfl, rfl⟩, hpre⟩

theorem Yields.bind {first : Contract ε σ α} {next : α → Contract ε σ β} {value : α}
    {result : β} (hfirst : Yields view first s value s')
    (hnext : Yields view (next value) s' result s'') :
    Yields view (first >>= next) s result s'' := by
  intro pre hpre
  obtain ⟨middle, hmiddle, hview⟩ := hfirst pre hpre
  obtain ⟨post, hpost, hlast⟩ := hnext middle hview
  exact ⟨post, returns_bind.mpr ⟨value, middle, hmiddle, hpost⟩, hlast⟩

theorem Yields.panicIf {condition : Prop} [Decidable condition] {code : ε}
    (h : ¬ condition) :
    Yields view (panicIf condition code : Contract ε σ Unit) s () s :=
  fun pre hpre => ⟨pre, returns_panicIf.mpr ⟨h, rfl⟩, hpre⟩

theorem Yields.trapUnless {condition : Prop} [Decidable condition] (h : condition) :
    Yields view (trapUnless condition : Contract ε σ Unit) s () s :=
  fun pre hpre => ⟨pre, returns_trapUnless.mpr ⟨h, rfl⟩, hpre⟩

theorem Yields.unwrapOr {found : Option α} {code : ε} {value : α} (h : found = some value) :
    Yields view (unwrapOr found code : Contract ε σ α) s value s :=
  fun pre hpre => ⟨pre, returns_unwrapOr.mpr ⟨h, rfl⟩, hpre⟩

theorem Yields.forM {program : α → Contract ε σ PUnit} {items : List α}
    (h : ∀ item ∈ items, Yields view (program item) s ⟨⟩ s) :
    Yields view (items.forM program) s ⟨⟩ s := by
  induction items with
  | nil => exact .pure _
  | cons item items ih =>
      rw [List.forall_mem_cons] at h
      exact h.1.bind (ih h.2)

theorem Yields.mapM {program : α → Contract ε σ β} {items : List α} {f : α → β}
    (h : ∀ item ∈ items, Yields view (program item) s (f item) s) :
    Yields view (items.mapM program) s (items.map f) s := by
  induction items with
  | nil => exact .pure _
  | cons item items ih =>
      rw [List.forall_mem_cons] at h
      rw [List.mapM_cons]
      exact h.1.bind ((ih h.2).bind (.pure _))

/-- As `Yields`, where the value and what `view` takes the last state to are only known to
satisfy `Q`. -/
def Attains (view : σ → τ) (program : Contract ε σ α) (s : τ) (Q : α → τ → Prop) : Prop :=
  ∀ pre, view pre = s → ∃ value post, Returns program pre value post ∧ Q value (view post)

theorem Yields.attains {program : Contract ε σ α} {value : α} {Q : α → τ → Prop}
    (h : Yields view program s value s') (hQ : Q value s') : Attains view program s Q := by
  intro pre hpre
  obtain ⟨post, hpost, rfl⟩ := h pre hpre
  exact ⟨value, post, hpost, hQ⟩

theorem Attains.yields {program : Contract ε σ Unit}
    (h : Attains view program s fun _ last => last = s') : Yields view program s () s' := by
  intro pre hpre
  obtain ⟨_, post, hpost, hlast⟩ := h pre hpre
  exact ⟨post, hpost, hlast⟩

theorem Attains.bind {first : Contract ε σ α} {next : α → Contract ε σ β}
    {P : α → τ → Prop} {Q : β → τ → Prop} (hfirst : Attains view first s P)
    (hnext : ∀ value middle, P value middle → Attains view (next value) middle Q) :
    Attains view (first >>= next) s Q := by
  intro pre hpre
  obtain ⟨value, middle, hmiddle, hvalue⟩ := hfirst pre hpre
  obtain ⟨result, post, hpost, hlast⟩ := hnext value _ hvalue middle rfl
  exact ⟨result, post, returns_bind.mpr ⟨value, middle, hmiddle, hpost⟩, hlast⟩

theorem Yields.andThen {first : Contract ε σ α} {next : α → Contract ε σ β} {value : α}
    {Q : β → τ → Prop} (hfirst : Yields view first s value s')
    (hnext : Attains view (next value) s' Q) : Attains view (first >>= next) s Q := by
  intro pre hpre
  obtain ⟨middle, hmiddle, hview⟩ := hfirst pre hpre
  obtain ⟨result, post, hpost, hlast⟩ := hnext middle hview
  exact ⟨result, post, returns_bind.mpr ⟨value, middle, hmiddle, hpost⟩, hlast⟩

theorem Attains.mapM {program : α → Contract ε σ β} {items : List α}
    (h : ∀ item ∈ items, Attains view (program item) s fun _ last => last = s) :
    Attains view (items.mapM program) s fun _ last => last = s := by
  induction items with
  | nil => exact (Yields.pure _).attains rfl
  | cons item items ih =>
      rw [List.forall_mem_cons] at h
      rw [List.mapM_cons]
      refine h.1.bind ?_
      rintro value _ rfl
      refine (ih h.2).bind ?_
      rintro values _ rfl
      exact (Yields.pure _).attains rfl

end

/-! ### Frames

`Keeps view program` says that `program` does not change `view` of the state.  It is a
class, so that the frame of an entrypoint is found from the frames of its parts. -/

/-- Whenever `program` returns, `view` of the state is what it was. -/
class Keeps {τ : Type} (view : σ → τ) (program : Contract ε σ α) : Prop where
  keeps : ∀ {pre value post}, Returns program pre value post → view post = view pre

section

variable {τ : Type} {view : σ → τ}

/-- A program that keeps the whole state only reads. -/
theorem Returns.post_eq {program : Contract ε σ α} [hkeeps : Keeps (id : σ → σ) program]
    {pre post : σ} {value : α} (h : Returns program pre value post) : post = pre :=
  hkeeps.keeps h

instance Keeps.pure (value : α) : Keeps view (pure value : Contract ε σ α) where
  keeps h := by rw [(returns_pure.mp h).2]

instance Keeps.throw (panic : Panic ε) : Keeps view (throw panic : Contract ε σ α) where
  keeps h := absurd h returns_throw

instance Keeps.get : Keeps view (get : Contract ε σ σ) where
  keeps h := by rw [(returns_get.mp h).2]

theorem Keeps.modify {f : σ → σ} (hf : ∀ state, view (f state) = view state) :
    Keeps view (modify f : Contract ε σ PUnit) where
  keeps h := by rw [returns_modify.mp h, hf]

instance Keeps.bind {first : Contract ε σ α} {next : α → Contract ε σ β}
    [Keeps view first] [∀ value, Keeps view (next value)] : Keeps view (first >>= next) where
  keeps h := by
    obtain ⟨value, middle, hfirst, hnext⟩ := returns_bind.mp h
    exact (Keeps.keeps hnext).trans (Keeps.keeps hfirst)

instance Keeps.ite {condition : Prop} {_ : Decidable condition} {yes no : Contract ε σ α}
    [Keeps view yes] [Keeps view no] : Keeps view (if condition then yes else no) where
  keeps h := by
    rcases returns_ite.mp h with ⟨-, hyes⟩ | ⟨-, hno⟩
    · exact Keeps.keeps hyes
    · exact Keeps.keeps hno

instance Keeps.panicIf {condition : Prop} {_ : Decidable condition} {code : ε} :
    Keeps view (panicIf condition code : Contract ε σ Unit) where
  keeps h := by rw [(returns_panicIf.mp h).2]

instance Keeps.trapUnless {condition : Prop} {_ : Decidable condition} :
    Keeps view (trapUnless condition : Contract ε σ Unit) where
  keeps h := by rw [(returns_trapUnless.mp h).2]

instance Keeps.unwrapOr {value : Option α} {code : ε} :
    Keeps view (unwrapOr value code : Contract ε σ α) where
  keeps h := by rw [(returns_unwrapOr.mp h).2]

instance Keeps.orTrap {value : Option α} : Keeps view (orTrap value : Contract ε σ α) where
  keeps h := by rw [(returns_orTrap.mp h).2]

instance Keeps.forM {program : α → Contract ε σ PUnit} {items : List α}
    [∀ item, Keeps view (program item)] : Keeps view (items.forM program) := by
  induction items with
  | nil => exact .pure _
  | cons item items ih => exact .bind

instance Keeps.mapM {program : α → Contract ε σ β} {items : List α}
    [∀ item, Keeps view (program item)] : Keeps view (items.mapM program) := by
  induction items with
  | nil => exact .pure _
  | cons item items ih =>
      rw [List.mapM_cons]
      infer_instance

end

end Contract

end StellarIbc
