import Mathlib.Data.List.Basic
import Mathlib.Data.List.Induction

/-!
# What a log says of the present

A list of events read from its end: the value reported last, and since when a fact about the log
has held.
-/

namespace AsrServe.Reasoning

/-! ## The value reported last -/

section Latest

variable {ε α : Type*}

/-- The value the last event that reports one reports, or else `d`. -/
def latest (report : ε → Option α) (log : List ε) (d : α) : α := (log.filterMap report).getLastD d

variable {report : ε → Option α}

@[simp] theorem latest_nil (d : α) : latest report [] d = d := rfl

theorem latest_concat (log : List ε) (e : ε) (d : α) :
    latest report (log ++ [e]) d = (report e).getD (latest report log d) := by
  rw [latest, List.filterMap_append]
  cases he : report e with
  | none => rw [List.filterMap_cons_none he, List.filterMap_nil, List.append_nil]; rfl
  | some v =>
    rw [List.filterMap_cons_some he, List.filterMap_nil, List.getLastD_concat]
    rfl

end Latest

/-! ## What has held since -/

section Since

variable {ε : Type*}

/-- `P` does not hold after the first `n` events of the log but after every longer part of it. -/
structure Since (P : List ε → Prop) (log : List ε) (n : Nat) : Prop where
  lt_length : n < log.length
  not_before : ¬ P (log.take n)
  from_then : ∀ m, n < m → m ≤ log.length → P (log.take m)

variable {P : List ε → Prop} {log : List ε} {n : Nat}

theorem Since.holds (h : Since P log n) : P log := by
  have hall := h.from_then log.length h.lt_length (Nat.le_refl _)
  rwa [List.take_length] at hall

theorem Since.unique {m : Nat} (hm : Since P log m) (hn : Since P log n) : m = n := by
  rcases Nat.lt_trichotomy m n with hlt | heq | hgt
  · exact absurd (hm.from_then n hlt (Nat.le_of_lt hn.lt_length)) hn.not_before
  · exact heq
  · exact absurd (hn.from_then m hgt (Nat.le_of_lt hm.lt_length)) hm.not_before

theorem since_concat {e : ε} :
    Since P (log ++ [e]) n ↔
      P (log ++ [e]) ∧ (Since P log n ∨ ¬ P log ∧ n = log.length) := by
  have hlen : (log ++ [e]).length = log.length + 1 := List.length_append
  constructor
  · intro h
    refine ⟨h.holds, ?_⟩
    have hlt := h.lt_length
    by_cases hn : n = log.length
    · have hnot := h.not_before
      rw [hn, List.take_left] at hnot
      exact .inr ⟨hnot, hn⟩
    · have hn' : n < log.length := by omega
      refine .inl ⟨hn', ?_, fun m hnm hm ↦ ?_⟩
      · have hnot := h.not_before
        rwa [List.take_append_of_le_length (Nat.le_of_lt hn')] at hnot
      · have hholds := h.from_then m hnm (by omega)
        rwa [List.take_append_of_le_length hm] at hholds
  · rintro ⟨hall, h | ⟨hnot, rfl⟩⟩
    · have hlt := h.lt_length
      refine ⟨by omega, ?_, fun m hnm hm ↦ ?_⟩
      · rw [List.take_append_of_le_length (Nat.le_of_lt hlt)]
        exact h.not_before
      · by_cases heq : m = log.length + 1
        · rwa [heq, ← hlen, List.take_length]
        · rw [List.take_append_of_le_length (by omega)]
          exact h.from_then m hnm (by omega)
    · refine ⟨by omega, ?_, fun m hnm hm ↦ ?_⟩
      · rwa [List.take_left]
      · rwa [show m = (log ++ [e]).length by omega, List.take_length]

-- The same moments, when the events are read in another way.
theorem since_map {η : Type*} {f : η → ε} {log : List η} :
    Since P (log.map f) n ↔ Since (fun l ↦ P (l.map f)) log n := by
  constructor
  · rintro ⟨hlt, hnot, hthen⟩
    rw [← List.map_take] at hnot
    rw [List.length_map] at hlt hthen
    exact ⟨hlt, hnot, fun m hnm hm ↦ List.map_take ▸ hthen m hnm hm⟩
  · rintro ⟨hlt, hnot, hthen⟩
    rw [← List.length_map (f := f)] at hlt hthen
    exact ⟨hlt, List.map_take ▸ hnot, fun m hnm hm ↦ List.map_take ▸ hthen m hnm hm⟩

/-- What does not hold of the empty log has held since some event if it holds at all. -/
theorem exists_since (h0 : ¬ P []) (h : P log) : ∃ n, Since P log n := by
  induction log using List.reverseRecOn with
  | nil => exact absurd h h0
  | append_singleton log e ih =>
    by_cases hbefore : P log
    · obtain ⟨n, hn⟩ := ih hbefore
      exact ⟨n, since_concat.mpr ⟨h, .inl hn⟩⟩
    · exact ⟨log.length, since_concat.mpr ⟨h, .inr ⟨hbefore, rfl⟩⟩⟩

end Since

end AsrServe.Reasoning
