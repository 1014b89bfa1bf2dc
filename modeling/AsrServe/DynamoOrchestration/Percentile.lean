import AsrServe.DynamoOrchestration.Router
import AsrServe.Reasoning.OrderStatistics
import Mathlib.Data.Rat.Floor

/-!
# The 99th percentile of the router's latencies

`_p99` and how many of the latencies it is an upper bound of.
-/

open AsrServe.Reasoning

namespace AsrServe.DynamoOrchestration.Router

-- `max(0, int(n * 0.99) - 1)`, the product read as a rational.
def p99Index (n : Nat) : Int := max 0 (((99 * n / 100 : Nat) : Int) - 1)

/-- The entry of the sorted list `_p99` returns; `none` is an index out of range. -/
def p99 (values : List ℚ) : Option ℚ :=
  if values = [] then some 0 else (values.insertionSort (· ≤ ·))[(p99Index values.length).toNat]?

def RouterStats.p99PrefillMs (stats : RouterStats) : Option ℚ := p99 stats.prefillLatenciesMs

def RouterStats.p99DecodeMs (stats : RouterStats) : Option ℚ := p99 stats.decodeLatenciesMs

/-- `r` is a 99th percentile: one of the values, and at least 99 in 100 of them are at most `r`. -/
structure IsP99 (values : List ℚ) (r : ℚ) : Prop where
  mem : r ∈ values
  le_countP : ⌈(99 * values.length / 100 : ℚ)⌉₊ ≤ values.countP (· ≤ r)

theorem p99Index_toNat (n : Nat) : (p99Index n).toNat = 99 * n / 100 - 1 := by
  rw [p99Index]
  omega

-- The index is that of an entry.
theorem p99Index_lt {n : Nat} (hn : 0 < n) : (p99Index n).toNat < n := by
  rw [p99Index_toNat]
  omega

theorem isP99_iff {values : List ℚ} {r : ℚ} (hmem : r ∈ values) :
    IsP99 values r ↔ 99 * values.length ≤ 100 * values.countP (· ≤ r) := by
  have hceil (c : Nat) :
      ⌈(99 * values.length / 100 : ℚ)⌉₊ ≤ c ↔ 99 * values.length ≤ 100 * c := by
    rw [Nat.ceil_le, div_le_iff₀ (by norm_num), mul_comm (c : ℚ)]
    exact_mod_cast Iff.rfl
  rw [← hceil]
  exact ⟨IsP99.le_countP, IsP99.mk hmem⟩

theorem p99_eq {values : List ℚ} (h : values ≠ []) :
    p99 values = (values.insertionSort (· ≤ ·))[(p99Index values.length).toNat]? :=
  if_neg h

-- How far the bound reaches beyond the place of the returned entry.
theorem lt_countP_iff {values : List ℚ} {i k : Nat}
    (hi : i < (values.insertionSort (· ≤ ·)).length)
    (hk : k < (values.insertionSort (· ≤ ·)).length) :
    i < values.countP (· ≤ (values.insertionSort (· ≤ ·))[k]) ↔
      (values.insertionSort (· ≤ ·))[i] ≤ (values.insertionSort (· ≤ ·))[k] := by
  rw [getElem_le_iff (List.pairwise_insertionSort (· ≤ ·) values),
    (List.perm_insertionSort (· ≤ ·) values).countP_eq]

/-- `_p99` always returns an entry of a list that is not empty, but it is a 99th percentile only
when the list has one entry or a multiple of a hundred, or when the entry that ends the first
99 % rounded down ties with the next one. -/
theorem p99_isP99_iff (values : List ℚ) (h : values ≠ []) :
    (p99Index values.length).toNat < values.length ∧
      ∃ r ∈ values, p99 values = some r ∧
        (IsP99 values r ↔
          values.length = 1 ∨ 100 ∣ values.length ∨ Tied values (99 * values.length / 100)) := by
  have hpos : 0 < values.length := List.length_pos_of_ne_nil h
  have hindex := p99Index_lt hpos
  have hperm := List.perm_insertionSort (· ≤ ·) values
  have hlen : (values.insertionSort (· ≤ ·)).length = values.length := hperm.length_eq
  have hk := hindex.trans_eq hlen.symm
  have hmem := hperm.mem_iff.mp (List.getElem_mem hk)
  refine ⟨hindex, _, hmem, ?_, ?_⟩
  · rw [p99_eq h]
    exact List.getElem?_eq_getElem hk
  · have hown := (lt_countP_iff hk hk).mpr le_rfl
    have hrank := p99Index_toNat values.length
    generalize (p99Index values.length).toNat = k at hk hown hrank hmem ⊢
    rw [isP99_iff hmem]
    by_cases hexact : values.length = 1 ∨ 100 ∣ values.length
    · -- the entries up to the returned one are enough
      apply iff_of_true _ (or_assoc.mp (.inl hexact))
      omega
    · -- one more entry is needed, and it is the next one
      have hnext : k + 1 < (values.insertionSort (· ≤ ·)).length := by omega
      have hrank' : 99 * values.length / 100 = k + 1 := by omega
      rw [← or_assoc, or_iff_right hexact, hrank', tied_iff hperm
        (List.pairwise_insertionSort (· ≤ ·) values) hnext, ← lt_countP_iff hnext hk]
      omega

-- Of two equal latencies either is one.
theorem p99_pair : ∃ r, p99 [7, 7] = some r ∧ IsP99 [7, 7] r := by
  obtain ⟨-, r, -, hr, hiff⟩ := p99_isP99_iff [7, 7] (List.cons_ne_nil _ _)
  exact ⟨r, hr, hiff.mpr (.inr (.inr (by decide +kernel)))⟩

/-- Of two different latencies it returns the smaller one, which only half of them are at most. -/
theorem p99_not_isP99 : ∃ r, p99 [1, 2] = some r ∧ ¬ IsP99 [1, 2] r := by
  refine ⟨1, by decide +kernel, fun h ↦ ?_⟩
  have hcount := (isP99_iff h.mem).mp h
  exact absurd hcount (by decide +kernel)

end AsrServe.DynamoOrchestration.Router
