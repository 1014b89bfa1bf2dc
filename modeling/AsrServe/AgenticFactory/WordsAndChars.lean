import AsrServe.AgenticFactory.ErrorRates
import AsrServe.Reasoning.Splitting

/-!
# Word errors and character errors

`_wer_components` splits at whitespace of any kind, `_cer_components` takes out U+0020 alone: the
other whitespace of a text is counted among its characters.
-/

open AsrServe.Reasoning

namespace AsrServe.AgenticFactory

def isMark (c : Char) : Bool := !isSpace c

/-- The whitespace other than U+0020 in front of each character that is no whitespace, and at the
end. -/
def otherSpaces (text : String) : List (List Char) :=
  (text.toList.splitOnP isMark).map (List.filter fun c ↦ c ≠ ' ')

-- The words of a text are its characters but for the whitespace.
theorem flatten_split (text : String) : (split text).flatten = text.toList.filter isMark := by
  rw [split, List.flatten_filter_ne_nil, flatten_splitOnP]
  rfl

/-- Texts of the same words have the same characters just when the rest of their whitespace stands
in the same places. -/
theorem filter_ne_space_eq_iff {text text' : String} (h : split text = split text') :
    (text.toList.filter fun c ↦ c ≠ ' ') = (text'.toList.filter fun c ↦ c ≠ ' ') ↔
      otherSpaces text = otherSpaces text' := by
  have hkeep : ∀ c : Char, isMark c = true → decide (c ≠ ' ') = true := by
    intro c hc
    apply decide_eq_true
    rintro rfl
    exact absurd hc (by decide)
  have hmarks (t : String) :
      (t.toList.filter fun c ↦ c ≠ ' ').filter isMark = (split t).flatten := by
    rw [flatten_split, List.filter_filter]
    apply List.filter_congr
    intro c _
    cases hc : isMark c with
    | false => rfl
    | true => exact hkeep c hc
  rw [eq_iff_splitOnP_filter isMark, splitOnP_filter hkeep, splitOnP_filter hkeep, hmarks, hmarks,
    h]
  exact and_iff_left rfl

theorem components_zero_iff {β : Type} [DecidableEq β] {units : String → List β}
    {ref hyp : String} :
    (∃ n, components units ref hyp = some (0, n)) ↔ units ref = units hyp := by
  rw [components_eq]
  constructor
  · rintro ⟨n, h⟩
    rw [Option.some.injEq, Prod.mk.injEq] at h
    exact distance_eq_zero_iff.mp h.1
  · intro h
    exact ⟨_, congrArg (fun errors ↦ some (errors, _)) (distance_eq_zero_iff.mpr h)⟩

/-- No word errors mean no character errors just when the lower-cased texts differ in their words,
or have the same whitespace other than U+0020 in the same places. -/
theorem word_perfect_char_perfect_iff (casing : CaseMapping) (ref hyp : String) :
    ((∃ n, casing.werComponents ref hyp = some (0, n)) →
        ∃ n, casing.cerComponents ref hyp = some (0, n)) ↔
      split (casing.lower ref) ≠ split (casing.lower hyp) ∨
        otherSpaces (casing.lower ref) = otherSpaces (casing.lower hyp) := by
  rw [CaseMapping.werComponents, CaseMapping.cerComponents, components_zero_iff,
    components_zero_iff, CaseMapping.words, CaseMapping.words, CaseMapping.chars,
    CaseMapping.chars]
  by_cases hwords : split (casing.lower ref) = split (casing.lower hyp)
  · rw [filter_ne_space_eq_iff hwords]
    simp [hwords]
  · simp [hwords]

/-- A tab where the reference has a space: no word error, one character error. -/
theorem tab_is_char_error :
    CaseMapping.lowerCase.werComponents "a\tb" "a b" = some (0, 2) ∧
      CaseMapping.lowerCase.cerComponents "a\tb" "a b" = some (1, 3) ∧
      ¬ ((∃ n, CaseMapping.lowerCase.werComponents "a\tb" "a b" = some (0, n)) →
        ∃ n, CaseMapping.lowerCase.cerComponents "a\tb" "a b" = some (0, n)) := by
  have hwer : CaseMapping.lowerCase.werComponents "a\tb" "a b" = some (0, 2) := by decide +kernel
  have hcer : CaseMapping.lowerCase.cerComponents "a\tb" "a b" = some (1, 3) := by decide +kernel
  refine ⟨hwer, hcer, fun h ↦ ?_⟩
  obtain ⟨n, hn⟩ := h ⟨2, hwer⟩
  rw [hcer] at hn
  cases hn

end AsrServe.AgenticFactory
