import Mathlib.Data.List.Sort
import Mathlib.Data.Prod.Lex

/-!
# Items in the order of their places

A layout is a partial map from ordered places to items.  A listing has the item of every
place that is taken, once and in the order of the places, so a layout has one listing at
most.  The listing of a layout that is put together from others is put together from theirs.
-/

namespace StellarIbc

variable {ι κ α β : Type}

/-- `items` are the items of the layout, one place after the other. -/
def Listing [LT ι] (held : ι → Option α) (items : List α) : Prop :=
  ∃ places : List ι, places.Pairwise (· < ·) ∧ (∀ place, place ∈ places ↔ held place ≠ none) ∧
    places.map held = items.map some

namespace Listing

theorem unique [Preorder ι] {held : ι → Option α} {items items' : List α}
    (h : Listing held items) (h' : Listing held items') : items = items' := by
  obtain ⟨places, hsorted, htaken, hitems⟩ := h
  obtain ⟨places', hsorted', htaken', hitems'⟩ := h'
  have hperm : places.Perm places' := by
    refine (List.perm_ext_iff_of_nodup ?_ ?_).mpr fun place => ?_
    · exact hsorted.imp fun hlt => ne_of_lt hlt
    · exact hsorted'.imp fun hlt => ne_of_lt hlt
    · rw [htaken, htaken']
  have hplaces : places = places' := by
    refine hperm.eq_of_pairwise ?_ hsorted hsorted'
    intro left right _ _ hlt hgt
    exact absurd hgt (lt_asymm hlt)
  rw [hplaces] at hitems
  exact List.map_injective_iff.mpr (Option.some_injective α) (hitems.symm.trans hitems')

/-- A list is the listing of its positions. -/
theorem getElem? (items : List α) : Listing (fun i : ℕ => items[i]?) items := by
  refine ⟨List.range items.length, List.pairwise_lt_range, ?_, ?_⟩
  · intro i
    simp
  · apply List.ext_getElem
    · simp
    · intro i hleft hright
      simp

theorem nil [LT ι] : Listing (fun _ : ι => (none : Option α)) [] :=
  ⟨[], .nil, by simp, rfl⟩

/-- A layout in a part of the places, in their order. -/
theorem image [LT ι] [LT κ] {held : κ → Option α} {held' : ι → Option α} {items : List α}
    (place : κ → ι) (hmono : ∀ {p q}, p < q → place p < place q)
    (hin : ∀ p, held' (place p) = held p) (hout : ∀ q, held' q ≠ none → ∃ p, place p = q)
    (h : Listing held items) : Listing held' items := by
  obtain ⟨places, hsorted, htaken, hitems⟩ := h
  refine ⟨places.map place, ?_, ?_, ?_⟩
  · exact List.pairwise_map.mpr (hsorted.imp hmono)
  · intro q
    rw [List.mem_map]
    constructor
    · rintro ⟨p, hp, rfl⟩
      rw [hin]
      exact (htaken p).mp hp
    · intro hq
      obtain ⟨p, rfl⟩ := hout q hq
      rw [hin] at hq
      exact ⟨p, (htaken p).mpr hq, rfl⟩
  · rw [List.map_map, ← hitems]
    exact List.map_congr_left fun p _ => hin p

/-- One layout behind the other. -/
theorem append [LT ι] {held first second : ι → Option α} {items items' : List α}
    (h : Listing first items) (h' : Listing second items')
    (hbefore : ∀ p q, first p ≠ none → second q ≠ none → p < q)
    (hapart : ∀ p, first p = none ∨ second p = none)
    (hheld : ∀ p, held p = (first p).or (second p)) : Listing held (items ++ items') := by
  obtain ⟨places, hsorted, htaken, hitems⟩ := h
  obtain ⟨places', hsorted', htaken', hitems'⟩ := h'
  refine ⟨places ++ places', ?_, ?_, ?_⟩
  · refine List.pairwise_append.mpr ⟨hsorted, hsorted', ?_⟩
    intro p hp q hq
    exact hbefore p q ((htaken p).mp hp) ((htaken' q).mp hq)
  · intro p
    rw [List.mem_append, htaken, htaken', hheld, ← not_and_or, not_iff_not, Option.or_eq_none_iff]
  · rw [List.map_append, List.map_append, ← hitems, ← hitems']
    congr 1
    · refine List.map_congr_left fun p hp => ?_
      rcases hapart p with hnone | hnone
      · exact absurd hnone ((htaken p).mp hp)
      · rw [hheld, hnone, Option.or_none]
    · refine List.map_congr_left fun p hp => ?_
      rcases hapart p with hnone | hnone
      · rw [hheld, hnone, Option.none_or]
      · exact absurd hnone ((htaken' p).mp hp)

/-- One layout for each item of a list. -/
theorem flatMap [LT ι] {held : β → ι → Option α} {items : β → List α} {parts : List β}
    (h : ∀ part ∈ parts, Listing (held part) (items part)) :
    Listing (fun place : ℕ ×ₗ ι => parts[(ofLex place).1]?.bind fun part =>
      held part (ofLex place).2) (parts.flatMap items) := by
  induction parts with
  | nil => exact nil
  | cons part parts ih =>
      rw [List.forall_mem_cons] at h
      rw [List.flatMap_cons]
      -- the first layout is at the places with 0, the others move up by one
      have hfirst : Listing (fun place : ℕ ×ₗ ι => if (ofLex place).1 = 0 then
          held part (ofLex place).2 else none) (items part) := by
        refine h.1.image (fun p => toLex (0, p)) ?_ ?_ ?_
        · intro p q hlt
          exact Prod.Lex.toLex_lt_toLex.mpr (.inr ⟨rfl, hlt⟩)
        · intro p
          exact if_pos rfl
        · intro place htaken
          by_cases hzero : (ofLex place).1 = 0
          · exact ⟨(ofLex place).2, congrArg toLex (Prod.ext hzero.symm rfl)⟩
          · rw [if_neg hzero] at htaken
            exact absurd rfl htaken
      have hothers : Listing (fun place : ℕ ×ₗ ι => if (ofLex place).1 = 0 then none else
          parts[(ofLex place).1 - 1]?.bind fun part => held part (ofLex place).2)
          (parts.flatMap items) := by
        refine (ih h.2).image (fun p => toLex ((ofLex p).1 + 1, (ofLex p).2)) ?_ ?_ ?_
        · intro p q hlt
          rcases Prod.Lex.lt_iff.mp hlt with hlt | ⟨heq, hlt⟩
          · exact Prod.Lex.toLex_lt_toLex.mpr (.inl (Nat.succ_lt_succ hlt))
          · exact Prod.Lex.toLex_lt_toLex.mpr (.inr ⟨congrArg (· + 1) heq, hlt⟩)
        · intro p
          exact if_neg (Nat.succ_ne_zero _)
        · intro place htaken
          by_cases hzero : (ofLex place).1 = 0
          · rw [if_pos hzero] at htaken
            exact absurd rfl htaken
          · refine ⟨toLex ((ofLex place).1 - 1, (ofLex place).2), ?_⟩
            exact congrArg toLex (Prod.ext (Nat.succ_pred hzero) rfl)
      refine hfirst.append hothers ?_ ?_ ?_
      · intro p q hp hq
        by_cases hzero : (ofLex p).1 = 0
        · by_cases hzero' : (ofLex q).1 = 0
          · rw [if_pos hzero'] at hq
            exact absurd rfl hq
          · refine Prod.Lex.lt_iff.mpr (.inl ?_)
            omega
        · rw [if_neg hzero] at hp
          exact absurd rfl hp
      · intro p
        by_cases hzero : (ofLex p).1 = 0
        · exact .inr (if_pos hzero)
        · exact .inl (if_neg hzero)
      · intro p
        by_cases hzero : (ofLex p).1 = 0
        · rw [if_pos hzero, if_pos hzero, Option.or_none, hzero]
          rfl
        · obtain ⟨n, hn⟩ := Nat.exists_eq_succ_of_ne_zero hzero
          rw [if_neg hzero, if_neg hzero, Option.none_or, hn, List.getElem?_cons_succ]
          rfl

end Listing

end StellarIbc
