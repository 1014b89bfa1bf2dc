import Mathlib.Data.List.Basic

/-!
# Splitting a list at some of its elements

The pieces a list falls into and the elements it is split at, together and apart.
-/

namespace AsrServe.Reasoning

variable {α : Type*} {p q : α → Bool}

/-- Pieces and separators together are the list. -/
theorem eq_iff_splitOnP_filter (p : α → Bool) {l l' : List α} :
    l = l' ↔ l.splitOnP p = l'.splitOnP p ∧ l.filter p = l'.filter p := by
  constructor
  · rintro rfl
    exact ⟨rfl, rfl⟩
  · rintro ⟨hpieces, hseparators⟩
    rw [← List.splitOnP_spec (p := p) l, hpieces, hseparators, List.splitOnP_spec]

-- Leaving out elements none of which is a separator leaves them out of the pieces.
theorem splitOnP_filter (h : ∀ x, p x = true → q x = true) (l : List α) :
    (l.filter q).splitOnP p = (l.splitOnP p).map (List.filter q) := by
  induction l with
  | nil => rfl
  | cons x l ih =>
    rw [List.splitOnP_cons_eq_if_modifyHead]
    by_cases hp : p x = true
    · rw [if_pos hp, List.filter_cons_of_pos (h x hp), List.splitOnP_cons_eq_if_modifyHead,
        if_pos hp, ih, List.map_cons, List.filter_nil]
    · rw [if_neg hp]
      obtain ⟨piece, pieces, hl⟩ := List.exists_cons_of_ne_nil (List.splitOnP_ne_nil p l)
      rw [hl, List.modifyHead_cons, List.map_cons]
      rw [hl, List.map_cons] at ih
      by_cases hq : q x = true
      · rw [List.filter_cons_of_pos hq, List.filter_cons_of_pos hq,
          List.splitOnP_cons_eq_if_modifyHead, if_neg hp, ih, List.modifyHead_cons]
      · rw [List.filter_cons_of_neg hq, List.filter_cons_of_neg hq, ih]

theorem flatten_splitOnP (p : α → Bool) (l : List α) :
    (l.splitOnP p).flatten = l.filter fun x ↦ !p x := by
  induction l with
  | nil => rfl
  | cons x l ih =>
    rw [List.splitOnP_cons_eq_if_modifyHead]
    cases hp : p x with
    | true =>
      rw [if_pos rfl, List.filter_cons_of_neg (by rw [hp]; exact Bool.false_ne_true),
        List.flatten_cons, List.nil_append, ih]
    | false =>
      obtain ⟨piece, pieces, hl⟩ := List.exists_cons_of_ne_nil (List.splitOnP_ne_nil p l)
      rw [if_neg Bool.false_ne_true, List.filter_cons_of_pos (by rw [hp]; rfl), ← ih, hl,
        List.modifyHead_cons, List.flatten_cons, List.flatten_cons, List.cons_append]

end AsrServe.Reasoning
