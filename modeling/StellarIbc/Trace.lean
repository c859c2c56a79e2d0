import Mathlib.Data.List.Basic

/-!
# Runs with a recorded history

A run of a transition system is recorded as the list of the steps it took, each
with the state before and the state after it.  Claims about what happened
earlier are claims about entries of that list.  The rules here are the ones the
rest of the development reasons with: induction over a run, the run that led up
to a recorded entry, properties that stay true once established, and the
projection of a run onto a component.
-/

namespace StellarIbc

/-- One recorded step. -/
structure Entry (σ α : Type) where
  pre : σ
  act : α
  post : σ

variable {σ α τ β : Type}

/-- `Reach init step history state`: some run from an initial state took exactly
the steps of `history`, oldest first, and ended in `state`. -/
inductive Reach (init : σ → Prop) (step : σ → α → σ → Prop) :
    List (Entry σ α) → σ → Prop
  | start {state : σ} (hinit : init state) : Reach init step [] state
  | next {history : List (Entry σ α)} {state : σ} {act : α} {state' : σ}
      (hreach : Reach init step history state) (hstep : step state act state') :
      Reach init step (history ++ [⟨state, act, state'⟩]) state'

namespace Reach

variable {init : σ → Prop} {step : σ → α → σ → Prop}
variable {history before after : List (Entry σ α)} {state : σ} {entry : Entry σ α}

/-- An entry of a history is a step of the system, taken from a state that the
entries before it lead to. -/
theorem split (hreach : Reach init step history state)
    (hsplit : history = before ++ entry :: after) :
    Reach init step before entry.pre ∧ step entry.pre entry.act entry.post := by
  induction hreach generalizing before after with
  | start hinit => simp at hsplit
  | @next history state act state' hreach hstep ih =>
      rcases List.eq_nil_or_concat after with rfl | ⟨init', last, rfl⟩
      · obtain ⟨rfl, hentry⟩ := List.append_inj' hsplit rfl
        obtain rfl := List.singleton_inj.mp hentry
        exact ⟨hreach, hstep⟩
      · rw [List.concat_eq_append, ← List.cons_append, ← List.append_assoc] at hsplit
        exact ih (List.append_inj' hsplit rfl).1

/-- A history cut at an entry can be cut at every later one. -/
theorem split_of_later (hsplit : history = before ++ entry :: after) {later : Entry σ α}
    (hlater : later ∈ after) :
    ∃ middle rest, history = (before ++ entry :: middle) ++ later :: rest := by
  obtain ⟨middle, rest, rfl⟩ := List.append_of_mem hlater
  refine ⟨middle, rest, ?_⟩
  rw [hsplit, List.append_assoc, List.cons_append]

theorem mem_of_later (hsplit : history = before ++ entry :: after) {later : Entry σ α}
    (hlater : later ∈ after) : later ∈ history := by
  rw [hsplit]
  exact List.mem_append_right _ (List.mem_cons_of_mem _ hlater)

theorem step_of_mem (hreach : Reach init step history state) (hmem : entry ∈ history) :
    step entry.pre entry.act entry.post := by
  obtain ⟨before, after, hsplit⟩ := List.append_of_mem hmem
  exact (hreach.split hsplit).2

/-- **The invariant rule.**  What holds initially and is kept by every step that
starts in a reached state holds of every reached state. -/
theorem invariant (Inv : List (Entry σ α) → σ → Prop)
    (hinit : ∀ state, init state → Inv [] state)
    (hstep : ∀ history (entry : Entry σ α), Reach init step history entry.pre →
      Inv history entry.pre → step entry.pre entry.act entry.post →
      Inv (history ++ [entry]) entry.post)
    (hreach : Reach init step history state) : Inv history state := by
  induction hreach with
  | start h => exact hinit _ h
  | @next history state act state' hprev h ih =>
      exact hstep history ⟨state, act, state'⟩ hprev ih h

/-- A step recorded from the state that was reached extends the run. -/
theorem extend (hreach : Reach init step history state) (hpre : entry.pre = state)
    (hstep : step state entry.act entry.post) :
    Reach init step (history ++ [entry]) entry.post := by
  subst hpre
  exact hreach.next hstep

/-- A run of a system is a run of every system that allows more. -/
theorem mono {init' : σ → Prop} {step' : σ → α → σ → Prop}
    (hinit : ∀ state, init state → init' state)
    (hstep : ∀ state act state', step state act state' → step' state act state')
    (hreach : Reach init step history state) : Reach init' step' history state := by
  induction hreach with
  | start h => exact .start (hinit _ h)
  | next hprev h ih => exact ih.next (hstep _ _ _ h)

/-- A run all of whose entries meet a condition is a run of the restricted system. -/
theorem restrictEntries {Allowed : Entry σ α → Prop} (hreach : Reach init step history state)
    (hallowed : ∀ entry ∈ history, Allowed entry) :
    Reach init (fun pre act post => step pre act post ∧ Allowed ⟨pre, act, post⟩) history
      state := by
  induction hreach with
  | start hinit => exact .start hinit
  | next hprev hstep ih =>
      rw [List.forall_mem_append] at hallowed
      exact .next (ih hallowed.1) ⟨hstep, hallowed.2 _ (List.mem_singleton_self _)⟩

theorem restrict {Allowed : α → Prop} (hreach : Reach init step history state)
    (hallowed : ∀ entry ∈ history, Allowed entry.act) :
    Reach init (fun pre act post => step pre act post ∧ Allowed act) history state :=
  hreach.restrictEntries hallowed

/-- A property established by some entry and kept by every step holds at the end. -/
theorem since (hreach : Reach init step history state) (P : σ → Prop)
    (hstable : ∀ entry : Entry σ α, step entry.pre entry.act entry.post →
      P entry.pre → P entry.post)
    (hmem : entry ∈ history) (hpost : P entry.post) : P state := by
  induction hreach with
  | start hinit => simp at hmem
  | @next history state act state' hprev hstep ih =>
      rcases List.mem_append.mp hmem with hold | hnew
      · exact hstable ⟨state, act, state'⟩ hstep (ih hold)
      · obtain rfl := List.mem_singleton.mp hnew
        exact hpost

/-- A property established by an entry and kept by every step holds whenever a later step
is taken. -/
theorem before_later (hreach : Reach init step history state) (P : σ → Prop)
    (hstable : ∀ entry : Entry σ α, step entry.pre entry.act entry.post →
      P entry.pre → P entry.post)
    (hsplit : history = before ++ entry :: after) (hpost : P entry.post)
    {later : Entry σ α} (hlater : later ∈ after) : P later.pre := by
  obtain ⟨middle, rest, hsplit'⟩ := split_of_later hsplit hlater
  exact (hreach.split hsplit').1.since P hstable (by simp) hpost

/-- **Projection.**  Where every step either maps to a step of a component or
leaves the component alone, the steps that map form a run of the component. -/
theorem project {init' : τ → Prop} {step' : τ → β → τ → Prop}
    (view : σ → τ) (act' : α → Option β)
    (hinit : ∀ state, init state → init' (view state))
    (hsome : ∀ state act state' b, step state act state' → act' act = some b →
      step' (view state) b (view state'))
    (hnone : ∀ state act state', step state act state' → act' act = none →
      view state' = view state)
    (hreach : Reach init step history state) :
    Reach init' step'
      (history.filterMap fun entry =>
        (act' entry.act).map fun b => ⟨view entry.pre, b, view entry.post⟩)
      (view state) := by
  induction hreach with
  | start h => exact .start (hinit _ h)
  | @next history state act state' hprev hstep ih =>
      rw [List.filterMap_append]
      cases hact : act' act with
      | none =>
          have hsame := hnone _ _ _ hstep hact
          simpa [hact, hsame] using ih
      | some b =>
          have hnext := Reach.next ih (hsome _ _ _ _ hstep hact)
          simpa [hact] using hnext

end Reach

/-! ### Executing inputs -/

section

variable {ι : Type} {execute : σ → ι → Entry σ α}

/-- Execute inputs one after the other from `state`, which `history` led to. -/
def feed (execute : σ → ι → Entry σ α) (history : List (Entry σ α)) (state : σ) :
    List ι → List (Entry σ α) × σ
  | [] => (history, state)
  | input :: inputs =>
      let entry := execute state input
      feed execute (history ++ [entry]) entry.post inputs

theorem feed_append (history : List (Entry σ α)) (state : σ) (inputs more : List ι) :
    feed execute history state (inputs ++ more) =
      feed execute (feed execute history state inputs).1
        (feed execute history state inputs).2 more := by
  induction inputs generalizing history state with
  | nil => rfl
  | cons input inputs ih => exact ih _ _

/-- Where executing an allowed input extends a run, executing a list of them does. -/
theorem Reach.feed {init : σ → Prop} {step : σ → α → σ → Prop} {Allowed : ι → Prop}
    (hexecute : ∀ {history state input}, Allowed input → Reach init step history state →
      Reach init step (history ++ [execute state input]) (execute state input).post)
    {history : List (Entry σ α)} {state : σ} (hreach : Reach init step history state)
    {inputs : List ι} (hallowed : ∀ input ∈ inputs, Allowed input) :
    Reach init step (StellarIbc.feed execute history state inputs).1
      (StellarIbc.feed execute history state inputs).2 := by
  induction inputs generalizing history state with
  | nil => exact hreach
  | cons input inputs ih =>
      obtain ⟨hfirst, hrest⟩ := List.forall_mem_cons.mp hallowed
      exact ih (hexecute hfirst hreach) hrest

/-- Where executing an input records a step from the current state, executing a list of them
extends a run. -/
theorem Reach.feed_of_step {init : σ → Prop} {step : σ → α → σ → Prop}
    (hexecute : ∀ state input, (execute state input).pre = state ∧
      step state (execute state input).act (execute state input).post)
    {history : List (Entry σ α)} {state : σ} (hreach : Reach init step history state)
    (inputs : List ι) :
    Reach init step (StellarIbc.feed execute history state inputs).1
      (StellarIbc.feed execute history state inputs).2 := by
  have hextends : ∀ {history state input}, True → Reach init step history state →
      Reach init step (history ++ [execute state input]) (execute state input).post :=
    fun _ hreach => hreach.extend (hexecute _ _).1 (hexecute _ _).2
  exact hreach.feed hextends fun _ _ => trivial

theorem forall_mem_feed {P : Entry σ α → Prop} {history : List (Entry σ α)} {state : σ}
    {inputs : List ι} (hhistory : ∀ entry ∈ history, P entry)
    (hexecute : ∀ input ∈ inputs, ∀ state, P (execute state input)) :
    ∀ entry ∈ (feed execute history state inputs).1, P entry := by
  induction inputs generalizing history state with
  | nil => exact hhistory
  | cons input inputs ih =>
      obtain ⟨hfirst, hrest⟩ := List.forall_mem_cons.mp hexecute
      refine ih (List.forall_mem_append.mpr ⟨hhistory, ?_⟩) hrest
      rw [List.forall_mem_singleton]
      exact hfirst state

end

end StellarIbc
