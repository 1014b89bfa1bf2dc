import AsrServe.AgenticFactory.EditDistance
import AsrServe.AgenticFactory.Evaluator
import Mathlib.Algebra.Order.BigOperators.Group.List
import Mathlib.Tactic.Ring

/-!
# Error rates (`agentic-factory/src/evaluator.py`)

`evaluate_model` over any transcripts and latencies.  The rates are exact fractions.
-/

open AsrServe.Reasoning

namespace AsrServe.AgenticFactory

/-- `str.lower`: any mapping of texts that maps the empty text to itself. -/
structure CaseMapping where
  lower : String → String
  lower_empty : lower "" = ""

-- `str.isspace` of one character.
def isSpace (c : Char) : Bool :=
  let n := c.toNat
  (9 ≤ n && n ≤ 13) || (28 ≤ n && n ≤ 32) || n = 0x85 || n = 0xA0 || n = 0x1680 ||
    (0x2000 ≤ n && n ≤ 0x200A) || n = 0x2028 || n = 0x2029 || n = 0x202F || n = 0x205F ||
    n = 0x3000

-- `str.split()`.
def split (text : String) : List (List Char) :=
  (text.toList.splitOnP isSpace).filter fun word ↦ word ≠ []

/-- The edit distance of a reference and a transcript in some unit, and the number of units of the
reference, at least one. -/
def components {β : Type} [DecidableEq β] (units : String → List β) (ref hyp : String) :
    Option (Nat × Nat) := do
  let errors ← editDistance (units ref) (units hyp)
  return (errors, max (units ref).length 1)

namespace CaseMapping

variable (casing : CaseMapping)

-- `ref.lower().split()`.
def words (text : String) : List (List Char) := split (casing.lower text)

-- `list(ref.lower().replace(" ", ""))`.
def chars (text : String) : List Char := (casing.lower text).toList.filter fun c ↦ c ≠ ' '

def werComponents (ref hyp : String) : Option (Nat × Nat) := components casing.words ref hyp

def cerComponents (ref hyp : String) : Option (Nat × Nat) := components casing.chars ref hyp

end CaseMapping

/-- A sample with what `transcribe` made of it. -/
structure Heard where
  sample : EvalSample
  transcript : String
  latencyMs : ℚ

structure Totals where
  werErrors : Nat := 0
  words : Nat := 0
  cerErrors : Nat := 0
  chars : Nat := 0
  rtf : ℚ := 0
  ttftMs : ℚ := 0

-- One turn of the loop over the samples.
def Totals.add (casing : CaseMapping) (totals : Totals) (heard : Heard) : Option Totals := do
  let (werErrors, words) ← casing.werComponents heard.sample.referenceText heard.transcript
  let (cerErrors, chars) ← casing.cerComponents heard.sample.referenceText heard.transcript
  return {
    werErrors := totals.werErrors + werErrors
    words := totals.words + words
    cerErrors := totals.cerErrors + cerErrors
    chars := totals.chars + chars
    rtf := totals.rtf + heard.latencyMs / 1000 / max heard.sample.durationS (1 / 1000000)
    ttftMs := totals.ttftMs + heard.latencyMs }

-- The metrics made of the totals over `n` samples.
def Totals.metrics (totals : Totals) (candidate : ASRModelCandidate) (n : Nat) : ModelMetrics where
  modelId := candidate.modelId
  wer := totals.werErrors / max totals.words 1
  cer := totals.cerErrors / max totals.chars 1
  rtf := totals.rtf / n
  ttftMs := totals.ttftMs / n
  nSamples := n

def evaluateModel (casing : CaseMapping) (candidate : ASRModelCandidate) (samples : List Heard) :
    Option ModelMetrics :=
  if samples.isEmpty then
    some { modelId := candidate.modelId }
  else do
    let totals ← samples.foldlM (Totals.add casing) {}
    return totals.metrics candidate samples.length

/-! ## Totals -/

section Units

variable {β : Type} [DecidableEq β] (units : String → List β)

/-- The errors of all samples, in some unit. -/
def totalErrors (samples : List Heard) : Nat :=
  (samples.map fun h ↦ distance (units h.sample.referenceText) (units h.transcript)).sum

-- The length of all references.
def totalLength (samples : List Heard) : Nat :=
  (samples.map fun h ↦ (units h.sample.referenceText).length).sum

-- What the loop sums up instead: at least one unit for each sample.
def countedLength (samples : List Heard) : Nat :=
  (samples.map fun h ↦ max (units h.sample.referenceText).length 1).sum

theorem components_eq (ref hyp : String) :
    components units ref hyp =
      some (distance (units ref) (units hyp), max (units ref).length 1) := by
  rw [components, editDistance_eq]
  rfl

variable {units}

theorem totalErrors_eq_zero_iff {samples : List Heard} :
    totalErrors units samples = 0 ↔
      ∀ h ∈ samples, units h.sample.referenceText = units h.transcript := by
  rw [totalErrors, List.sum_eq_zero_iff, List.forall_mem_map]
  simp only [distance_eq_zero_iff]

omit [DecidableEq β] in
theorem totalLength_eq_zero_iff {samples : List Heard} :
    totalLength units samples = 0 ↔ ∀ h ∈ samples, units h.sample.referenceText = [] := by
  rw [totalLength, List.sum_eq_zero_iff, List.forall_mem_map]
  simp only [List.length_eq_zero_iff]

omit [DecidableEq β] in
theorem countedLength_pos {samples : List Heard} (h : samples ≠ []) :
    0 < countedLength units samples := by
  cases samples with
  | nil => exact absurd rfl h
  | cons first rest =>
    rw [countedLength, List.map_cons, List.sum_cons]
    omega

omit [DecidableEq β] in
theorem totalLength_le_countedLength (samples : List Heard) :
    totalLength units samples ≤ countedLength units samples :=
  List.sum_le_sum fun _ _ ↦ Nat.le_max_left _ 1

omit [DecidableEq β] in
-- Each empty reference is counted as one unit.
theorem countedLength_eq_iff {samples : List Heard} :
    countedLength units samples = totalLength units samples ↔
      ∀ h ∈ samples, units h.sample.referenceText ≠ [] := by
  induction samples with
  | nil => simp [countedLength, totalLength]
  | cons first rest ih =>
    have hle : totalLength units rest ≤ countedLength units rest :=
      totalLength_le_countedLength rest
    rw [List.forall_mem_cons, ← ih, ← List.length_pos_iff]
    simp only [countedLength, totalLength, List.map_cons, List.sum_cons] at hle ⊢
    omega

-- The same errors over two lengths.
theorem ratio_eq_iff {errors n m : Nat} (hn : 0 < n) (hm : 0 < m) :
    (errors : ℚ) / n = errors / m ↔ errors = 0 ∨ n = m := by
  have hn' : (n : ℚ) ≠ 0 := by exact_mod_cast hn.ne'
  have hm' : (m : ℚ) ≠ 0 := by exact_mod_cast hm.ne'
  rw [div_eq_div_iff hn' hm', mul_eq_mul_left_iff, Nat.cast_eq_zero, Nat.cast_inj, or_comm,
    @eq_comm _ m n]

/-- The rate `evaluate_model` reports for a unit. -/
def reportedRate (units : String → List β) (samples : List Heard) : ℚ :=
  totalErrors units samples / countedLength units samples

/-- Total errors over total reference length, whatever blank samples are added. -/
def CorpusRate (units : String → List β) (samples : List Heard) (rate rate' : ℚ) : Prop :=
  (∃ h ∈ samples, units h.sample.referenceText ≠ []) →
    rate = totalErrors units samples / totalLength units samples ∧ rate' = rate

/-- No reference has a unit, or no transcript has an error, or every reference has a unit and none
is blank. -/
def RateKept (units : String → List β) (samples blanks : List Heard) : Prop :=
  (∀ h ∈ samples, units h.sample.referenceText = []) ∨
    (∀ h ∈ samples, units h.sample.referenceText = units h.transcript) ∨
    ((∀ h ∈ samples, units h.sample.referenceText ≠ []) ∧ blanks = [])

theorem corpusRate_iff {samples blanks samples' : List Heard} (hne : samples ≠ [])
    (herrors : totalErrors units samples' = totalErrors units samples)
    (hcounted : countedLength units samples' = countedLength units samples + blanks.length) :
    CorpusRate units samples (reportedRate units samples) (reportedRate units samples') ↔
      RateKept units samples blanks := by
  have hpos : 0 < countedLength units samples := countedLength_pos hne
  have hblanks : countedLength units samples + blanks.length = countedLength units samples ↔
      blanks = [] := by
    rw [← List.length_eq_zero_iff]
    omega
  rw [RateKept, ← totalErrors_eq_zero_iff, ← countedLength_eq_iff, ← totalLength_eq_zero_iff,
    ← hblanks, CorpusRate]
  have hpremise : (∃ h ∈ samples, units h.sample.referenceText ≠ []) ↔
      totalLength units samples ≠ 0 := by
    rw [Ne, totalLength_eq_zero_iff]
    simp
  rw [hpremise]
  by_cases hlength : totalLength units samples = 0
  · exact iff_of_true (fun h ↦ absurd hlength h) (.inl hlength)
  · rw [reportedRate, reportedRate, herrors, hcounted, ratio_eq_iff hpos (by omega),
      ratio_eq_iff (by omega) hpos]
    tauto

end Units

/-! ## Evaluations -/

theorem totals_foldlM (casing : CaseMapping) (samples : List Heard) (start : Totals) :
    ∃ totals, samples.foldlM (Totals.add casing) start = some totals ∧
      totals.werErrors = start.werErrors + totalErrors casing.words samples ∧
      totals.words = start.words + countedLength casing.words samples ∧
      totals.cerErrors = start.cerErrors + totalErrors casing.chars samples ∧
      totals.chars = start.chars + countedLength casing.chars samples := by
  induction samples generalizing start with
  | nil => exact ⟨start, rfl, rfl, rfl, rfl, rfl⟩
  | cons heard samples ih =>
    obtain ⟨totals, hrun, hwer, hwords, hcer, hchars⟩ := ih {
      werErrors := start.werErrors +
        distance (casing.words heard.sample.referenceText) (casing.words heard.transcript)
      words := start.words + max (casing.words heard.sample.referenceText).length 1
      cerErrors := start.cerErrors +
        distance (casing.chars heard.sample.referenceText) (casing.chars heard.transcript)
      chars := start.chars + max (casing.chars heard.sample.referenceText).length 1
      rtf := start.rtf + heard.latencyMs / 1000 / max heard.sample.durationS (1 / 1000000)
      ttftMs := start.ttftMs + heard.latencyMs }
    refine ⟨totals, ?_, ?_, ?_, ?_, ?_⟩
    · rw [List.foldlM_cons, Totals.add, CaseMapping.werComponents, CaseMapping.cerComponents,
        components_eq, components_eq]
      exact hrun
    · rw [hwer, totalErrors, totalErrors, List.map_cons, List.sum_cons, Nat.add_assoc]
    · rw [hwords, countedLength, countedLength, List.map_cons, List.sum_cons, Nat.add_assoc]
    · rw [hcer, totalErrors, totalErrors, List.map_cons, List.sum_cons, Nat.add_assoc]
    · rw [hchars, countedLength, countedLength, List.map_cons, List.sum_cons, Nat.add_assoc]

theorem evaluateModel_eq (casing : CaseMapping) (candidate : ASRModelCandidate)
    {samples : List Heard} (h : samples ≠ []) :
    ∃ metrics, evaluateModel casing candidate samples = some metrics ∧
      metrics.wer = reportedRate casing.words samples ∧
      metrics.cer = reportedRate casing.chars samples := by
  obtain ⟨totals, hrun, hwer, hwords, hcer, hchars⟩ := totals_foldlM casing samples {}
  rw [Nat.zero_add] at hwer hwords hcer hchars
  have hguard {β : Type} (units : String → List β) :
      max (countedLength units samples) 1 = countedLength units samples :=
    Nat.max_eq_left (countedLength_pos h)
  refine ⟨totals.metrics candidate samples.length, ?_, ?_, ?_⟩
  · rw [evaluateModel, if_neg (by rwa [List.isEmpty_iff]), hrun]
    rfl
  · rw [Totals.metrics, hwer, hwords, hguard, reportedRate]
  · rw [Totals.metrics, hcer, hchars, hguard, reportedRate]

-- A sample whose reference and transcript are both empty.
def Heard.Blank (heard : Heard) : Prop :=
  heard.sample.referenceText = "" ∧ heard.transcript = ""

/-- Blank samples bring no errors and are counted as one unit each. -/
theorem totals_blanks {β : Type} [DecidableEq β] {units : String → List β} (hempty : units "" = [])
    {samples blanks samples' : List Heard} (hblank : ∀ h ∈ blanks, h.Blank)
    (hperm : samples'.Perm (samples ++ blanks)) :
    totalErrors units samples' = totalErrors units samples ∧
      countedLength units samples' = countedLength units samples + blanks.length := by
  have herrors : totalErrors units blanks = 0 := by
    rw [totalErrors_eq_zero_iff]
    intro h hmem
    rw [(hblank h hmem).1, (hblank h hmem).2]
  have hcounted : countedLength units blanks = blanks.length := by
    have hone : blanks.map (fun h ↦ max (units h.sample.referenceText).length 1) =
        blanks.map fun _ ↦ 1 := by
      apply List.map_congr_left
      intro h hmem
      rw [(hblank h hmem).1, hempty]
      rfl
    rw [countedLength, hone]
    simp
  constructor
  · rw [totalErrors, (hperm.map _).sum_eq, List.map_append, List.sum_append]
    exact congrArg _ herrors
  · rw [countedLength, (hperm.map _).sum_eq, List.map_append, List.sum_append]
    exact congrArg _ hcounted

theorem CaseMapping.words_empty (casing : CaseMapping) : casing.words "" = [] := by
  rw [words, casing.lower_empty]
  decide

theorem CaseMapping.chars_empty (casing : CaseMapping) : casing.chars "" = [] := by
  rw [chars, casing.lower_empty]
  rfl

/-- The rates are total errors over total reference length, and indifferent to blank samples, just
when the samples keep both. -/
theorem error_rates_iff (casing : CaseMapping) (candidate : ASRModelCandidate)
    {samples blanks samples' : List Heard} (hne : samples ≠ []) (hblank : ∀ h ∈ blanks, h.Blank)
    (hperm : samples'.Perm (samples ++ blanks)) :
    ∃ metrics metrics', evaluateModel casing candidate samples = some metrics ∧
      evaluateModel casing candidate samples' = some metrics' ∧
      (CorpusRate casing.words samples metrics.wer metrics'.wer ∧
          CorpusRate casing.chars samples metrics.cer metrics'.cer ↔
        RateKept casing.words samples blanks ∧ RateKept casing.chars samples blanks) := by
  have hne' : samples' ≠ [] := by
    intro h
    rw [h] at hperm
    exact hne (List.append_eq_nil_iff.mp hperm.nil_eq.symm).1
  obtain ⟨metrics, hrun, hwer, hcer⟩ := evaluateModel_eq casing candidate hne
  obtain ⟨metrics', hrun', hwer', hcer'⟩ := evaluateModel_eq casing candidate hne'
  have hwords := totals_blanks casing.words_empty hblank hperm
  have hchars := totals_blanks casing.chars_empty hblank hperm
  refine ⟨metrics, metrics', hrun, hrun', ?_⟩
  rw [hwer, hwer', hcer, hcer', corpusRate_iff hne hwords.1 hwords.2,
    corpusRate_iff hne hchars.1 hchars.2]

/-! ## One sample and a blank one -/

-- `lower` on a text that is lower case already.
def CaseMapping.lowerCase : CaseMapping := ⟨fun text ↦ text, rfl⟩

def heardAs (ref hyp : String) : Heard where
  sample := { sampleId := "sample-0", audioBytes := [0], referenceText := ref, durationS := 1 }
  transcript := hyp
  latencyMs := 5

-- A correct transcript leaves the rates alone when a blank sample is added.
theorem error_rates_correct :
    ∃ metrics metrics',
      evaluateModel .lowerCase ⟨"canary-1b", false⟩ [heardAs "hello" "hello"] = some metrics ∧
      evaluateModel .lowerCase ⟨"canary-1b", false⟩
        [heardAs "hello" "hello", heardAs "" ""] = some metrics' ∧
      (CorpusRate CaseMapping.lowerCase.words [heardAs "hello" "hello"] metrics.wer metrics'.wer ∧
          CorpusRate CaseMapping.lowerCase.chars [heardAs "hello" "hello"] metrics.cer
            metrics'.cer ↔
        RateKept CaseMapping.lowerCase.words [heardAs "hello" "hello"] [heardAs "" ""] ∧
          RateKept CaseMapping.lowerCase.chars [heardAs "hello" "hello"] [heardAs "" ""]) :=
  error_rates_iff .lowerCase ⟨"canary-1b", false⟩ (List.cons_ne_nil _ _)
    (List.forall_mem_singleton.mpr ⟨rfl, rfl⟩) (List.Perm.refl _)

-- One wrong word of two, and a blank sample.
def wrongAndBlank : List Heard := [heardAs "hello world" "hello word", heardAs "" ""]

/-- The word error rate is a third, not a half. -/
theorem empty_reference_counted :
    ∃ metrics, evaluateModel .lowerCase ⟨"canary-1b", false⟩ wrongAndBlank = some metrics ∧
      metrics.wer = 1 / 3 ∧
      ¬ CorpusRate CaseMapping.lowerCase.words wrongAndBlank metrics.wer metrics.wer := by
  have hne : wrongAndBlank ≠ [] := List.cons_ne_nil _ _
  obtain ⟨metrics, hrun, hwer, -⟩ := evaluateModel_eq .lowerCase ⟨"canary-1b", false⟩ hne
  have hcode : (evaluateModel .lowerCase ⟨"canary-1b", false⟩ wrongAndBlank).map (·.wer) =
      some (1 / 3) := by decide +kernel
  rw [hrun, Option.map_some, Option.some.injEq] at hcode
  refine ⟨metrics, hrun, hcode, ?_⟩
  have hiff : CorpusRate CaseMapping.lowerCase.words wrongAndBlank
      (reportedRate CaseMapping.lowerCase.words wrongAndBlank)
      (reportedRate CaseMapping.lowerCase.words wrongAndBlank) ↔
        RateKept CaseMapping.lowerCase.words wrongAndBlank [] := corpusRate_iff hne rfl rfl
  rw [hwer, hiff]
  rintro (h | h | ⟨h, -⟩)
  · exact absurd (h _ List.mem_cons_self) (by decide)
  · exact absurd (h _ List.mem_cons_self) (by decide)
  · exact h (heardAs "" "") (List.mem_cons_of_mem _ List.mem_cons_self)
      CaseMapping.lowerCase.words_empty

end AsrServe.AgenticFactory
