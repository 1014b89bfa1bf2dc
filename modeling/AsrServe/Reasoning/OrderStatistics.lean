import Mathlib.Data.List.Sort

/-!
# Order statistics

Which entry stands at a given place of a sorted list, told by counting the entries of the unsorted
one.
-/

namespace AsrServe.Reasoning

variable {α : Type*} [LinearOrder α]

/-- In a sorted list what passes downwards holds of a front part, as long as its count. -/
theorem holds_getElem_iff {l : List α} (hl : l.Pairwise (· ≤ ·)) {p : α → Bool}
    (hp : ∀ a b, a ≤ b → p b = true → p a = true) (i : Nat) (hi : i < l.length) :
    p l[i] = true ↔ i < l.countP p := by
  induction l generalizing i with
  | nil => cases hi
  | cons a l ih =>
    obtain ⟨hfirst, hl⟩ := List.pairwise_cons.mp hl
    by_cases ha : p a = true
    · rw [List.countP_cons_of_pos ha]
      cases i with
      | zero => exact iff_of_true ha (Nat.zero_lt_succ _)
      | succ i => rw [List.getElem_cons_succ, ih hl, Nat.succ_lt_succ_iff]
    · have hnone : l.countP p = 0 := by
        rw [List.countP_eq_zero]
        exact fun b hb hpb ↦ ha (hp a b (hfirst b hb) hpb)
      rw [List.countP_cons_of_neg ha, hnone]
      refine iff_of_false (fun h ↦ ?_) (Nat.not_lt_zero i)
      cases i with
      | zero => exact ha h
      | succ i => exact ha (hp a _ (hfirst _ (List.getElem_mem _)) h)

theorem getElem_le_iff {l : List α} (hl : l.Pairwise (· ≤ ·)) (v : α) (i : Nat)
    (hi : i < l.length) : l[i] ≤ v ↔ i < l.countP (· ≤ v) := by
  rw [← holds_getElem_iff hl (fun a b hab hb ↦ ?_) i hi, decide_eq_true_iff]
  exact decide_eq_true (hab.trans (of_decide_eq_true hb))

theorem getElem_lt_iff {l : List α} (hl : l.Pairwise (· ≤ ·)) (v : α) (i : Nat)
    (hi : i < l.length) : l[i] < v ↔ i < l.countP (· < v) := by
  rw [← holds_getElem_iff hl (fun a b hab hb ↦ ?_) i hi, decide_eq_true_iff]
  exact decide_eq_true (hab.trans_lt (of_decide_eq_true hb))

/-- The `m`-th smallest value and the next one are the same: fewer than `m` entries are below it
and more than `m` at most it. -/
def Tied (values : List α) (m : Nat) : Prop :=
  ∃ v ∈ values, values.countP (· < v) < m ∧ m < values.countP (· ≤ v)

instance (values : List α) (m : Nat) : Decidable (Tied values m) :=
  inferInstanceAs (Decidable (∃ v ∈ values, _ ∧ _))

/-- The neighbours in the sorted list are then equal, and only then. -/
theorem tied_iff {values sorted : List α} (hperm : sorted.Perm values)
    (hsorted : sorted.Pairwise (· ≤ ·)) {m : Nat} (hm : m + 1 < sorted.length) :
    Tied values (m + 1) ↔ sorted[m + 1] ≤ sorted[m] := by
  have hspread (v : α) : values.countP (· < v) < m + 1 ∧ m + 1 < values.countP (· ≤ v) ↔
      v ≤ sorted[m] ∧ sorted[m + 1] ≤ v := by
    rw [← not_lt, getElem_lt_iff hsorted, getElem_le_iff hsorted, hperm.countP_eq,
      hperm.countP_eq, not_lt, Nat.lt_succ_iff]
  constructor
  · rintro ⟨v, -, hcounts⟩
    obtain ⟨hle, hge⟩ := (hspread v).mp hcounts
    exact hge.trans hle
  · intro hle
    refine ⟨sorted[m], hperm.mem_iff.mp (List.getElem_mem _), (hspread _).mpr ⟨le_rfl, hle⟩⟩

end AsrServe.Reasoning
