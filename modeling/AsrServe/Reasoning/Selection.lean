import Mathlib.Data.List.MinMax
import Mathlib.Data.List.Sort

/-!
# Picking a minimal element

A program that takes the first element of a stably sorted list and one that scans for a minimum
both pick `List.argmin`: a minimal element, the earliest one of several.
-/

namespace AsrServe.Reasoning

variable {α β γ : Type*} [LinearOrder β]

/-- Sorting by a key puts the key's minimum first. -/
theorem head?_insertionSort (key : α → β) (l : List α) :
    (l.insertionSort fun a b ↦ key a ≤ key b).head? = l.argmin key := by
  induction l with
  | nil => rfl
  | cons a l ih =>
    rw [List.insertionSort_cons, List.argmin_cons, ← ih]
    cases l.insertionSort fun a b ↦ key a ≤ key b with
    | nil => rfl
    | cons b rest =>
      simp only [List.orderedInsert_cons, List.head?_cons]
      by_cases h : key a ≤ key b
      · rw [if_pos h, if_neg (not_lt.mpr h), List.head?_cons]
      · rw [if_neg h, if_pos (not_le.mp h), List.head?_cons]

theorem argmin_map (key : γ → β) (g : α → γ) (l : List α) :
    (l.map g).argmin key = (l.argmin (key ∘ g)).map g := by
  induction l with
  | nil => rfl
  | cons a l ih =>
    rw [List.map_cons, List.argmin_cons, List.argmin_cons, ih]
    cases l.argmin (key ∘ g) with
    | none => rfl
    | some c =>
      simp only [Option.map_some, Function.comp_apply]
      split <;> rfl

/-- In a list that stands in the order of `R`, the pick comes before every other minimal element. -/
theorem argmin_first {R : α → α → Prop} {key : α → β} {l : List α} (hl : l.Pairwise R) {m a : α}
    (hm : l.argmin key = some m) (ha : a ∈ l) (hle : key a ≤ key m) : a = m ∨ R m a := by
  induction l generalizing m with
  | nil => cases ha
  | cons b l ih =>
    rw [List.pairwise_cons] at hl
    rw [List.argmin_cons] at hm
    -- when the head is picked, it comes first
    have hhead (hb : b = m) : a = m ∨ R m a := by
      rcases List.mem_cons.mp ha with rfl | ha
      · exact .inl hb
      · exact .inr (hb ▸ hl.1 a ha)
    cases hc : l.argmin key with
    | none =>
      rw [hc] at hm
      exact hhead (Option.some.inj hm)
    | some c =>
      rw [hc] at hm
      dsimp only at hm
      split at hm
      · rename_i hlt
        rw [Option.some.injEq] at hm
        rcases List.mem_cons.mp ha with rfl | ha
        · exact absurd (hm ▸ hlt) (not_lt.mpr hle)
        · exact ih hl.2 (hm ▸ hc) ha hle
      · exact hhead (Option.some.inj hm)

end AsrServe.Reasoning
