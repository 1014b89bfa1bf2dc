import AsrServe.Reasoning.EditScript
import AsrServe.Reasoning.Runs

/-!
# The edit distance (`agentic-factory/src/evaluator.py`)

`_edit_distance` keeps one row of the table and a copy of the row before it.
-/

open AsrServe.Reasoning

namespace AsrServe.AgenticFactory

variable {α : Type*} [DecidableEq α]

-- `dp[j] = v`; here and below, `none` is an `IndexError`.
def setItem (dp : List Nat) (j v : Nat) : Option (List Nat) :=
  if j < dp.length then some (dp.set j v) else none

/-- The body of the inner loop. -/
def updateCell (a b : List α) (i : Nat) (prev dp : List Nat) (j : Nat) : Option (List Nat) :=
  match a[i - 1]?, b[j - 1]? with
  | some x, some y =>
    if x = y then do
      let diagonal ← prev[j - 1]?
      setItem dp j diagonal
    else do
      let up ← prev[j]?
      let left ← dp[j - 1]?
      let diagonal ← prev[j - 1]?
      setItem dp j (1 + min (min up left) diagonal)
  | _, _ => none

-- The body of the outer loop.
def updateRow (a b : List α) (dp : List Nat) (i : Nat) : Option (List Nat) := do
  let prev := dp
  let dp ← setItem dp 0 i
  (List.range' 1 b.length).foldlM (updateCell a b i prev) dp

def editDistance (a b : List α) : Option Nat := do
  let dp := List.range (b.length + 1)
  let dp ← (List.range' 1 a.length).foldlM (updateRow a b) dp
  dp[b.length]?

/-! ## The full table -/

/-- The table entry for the first `i` elements of one sequence and the first `k` of the other. -/
def tableEntry (a b : List α) (i k : Nat) : Nat :=
  distance (a.take i).reverse (b.take k).reverse

theorem tableEntry_zero_left (a : List α) {b : List α} {k : Nat} (hk : k ≤ b.length) :
    tableEntry a b 0 k = k := by
  rw [tableEntry, List.take_zero, List.reverse_nil, distance_nil_left, List.length_reverse,
    List.length_take, Nat.min_eq_left hk]

theorem tableEntry_zero_right {a : List α} (b : List α) {i : Nat} (hi : i ≤ a.length) :
    tableEntry a b i 0 = i := by
  rw [tableEntry, List.take_zero, List.reverse_nil, distance_nil_right, List.length_reverse,
    List.length_take, Nat.min_eq_left hi]

omit [DecidableEq α] in
theorem reverse_take_succ {l : List α} {i : Nat} {x : α} (h : l[i]? = some x) :
    (l.take (i + 1)).reverse = x :: (l.take i).reverse := by
  rw [List.take_add_one, h, Option.toList_some, List.reverse_append, List.reverse_singleton,
    List.singleton_append]

/-- The recurrence of the full table. -/
theorem tableEntry_succ {a b : List α} {i j : Nat} {x y : α} (hx : a[i]? = some x)
    (hy : b[j]? = some y) :
    tableEntry a b (i + 1) (j + 1) =
      if x = y then tableEntry a b i j
      else 1 + min (min (tableEntry a b i (j + 1)) (tableEntry a b (i + 1) j))
        (tableEntry a b i j) := by
  rw [tableEntry, reverse_take_succ hx, reverse_take_succ hy, distance_cons_cons,
    ← reverse_take_succ hx, ← reverse_take_succ hy]
  rfl

/-! ## The rolling row -/

/-- The row with entry `f k` at index `k`, up to and including `n`. -/
def row (n : Nat) (f : Nat → Nat) : List Nat := (List.range (n + 1)).map f

theorem row_getElem? {n k : Nat} (f : Nat → Nat) (hk : k ≤ n) : (row n f)[k]? = some (f k) := by
  rw [row, List.getElem?_map, List.getElem?_range (by omega), Option.map_some]

theorem row_congr {n : Nat} {f g : Nat → Nat} (h : ∀ k ≤ n, f k = g k) : row n f = row n g := by
  rw [row, row, List.map_inj_left]
  intro k hk
  exact h k (Nat.lt_succ_iff.mp (List.mem_range.mp hk))

theorem setItem_row {n j : Nat} (f : Nat → Nat) (v : Nat) (hj : j ≤ n) :
    setItem (row n f) j v = some (row n (Function.update f j v)) := by
  have hlength : j < (row n f).length := by
    rw [row, List.length_map, List.length_range]
    omega
  rw [setItem, if_pos hlength]
  congr 1
  apply List.ext_getElem?
  intro k
  rw [List.getElem?_set]
  by_cases hjk : j = k
  · subst hjk
    rw [if_pos rfl, if_pos hlength, row_getElem? _ hj, Function.update_self]
  · rw [if_neg hjk, row, row, List.getElem?_map, List.getElem?_map]
    by_cases hk : k < n + 1
    · rw [List.getElem?_range hk, Option.map_some, Option.map_some,
        Function.update_of_ne (Ne.symm hjk)]
    · rw [List.getElem?_eq_none (by rw [List.length_range]; omega)]
      rfl

-- Row `i + 1` once its cells up to `j` are computed, over a copy of row `i`.
def partialRow (a b : List α) (i j : Nat) : List Nat :=
  row b.length fun k ↦ if k ≤ j then tableEntry a b (i + 1) k else tableEntry a b i k

theorem partialRow_zero {a : List α} (b : List α) {i : Nat} (hi : i < a.length) :
    partialRow a b i 0 = row b.length (Function.update (tableEntry a b i) 0 (i + 1)) := by
  apply row_congr
  intro k _
  by_cases hk : k = 0
  · subst hk
    rw [if_pos le_rfl, Function.update_self, tableEntry_zero_right b hi]
  · rw [if_neg (by omega), Function.update_of_ne hk]

theorem partialRow_length (a b : List α) (i : Nat) :
    partialRow a b i b.length = row b.length (tableEntry a b (i + 1)) := by
  apply row_congr
  intro k hk
  rw [if_pos hk]

-- Overwriting the next cell with its value extends the computed part.
theorem setItem_partialRow {a b : List α} {i j : Nat} (hj : j < b.length) :
    setItem (partialRow a b i j) (j + 1) (tableEntry a b (i + 1) (j + 1)) =
      some (partialRow a b i (j + 1)) := by
  rw [partialRow, setItem_row _ _ hj]
  congr 1
  apply row_congr
  intro k _
  by_cases hk : k = j + 1
  · rw [hk, Function.update_self, if_pos le_rfl]
  · rw [Function.update_of_ne hk]
    by_cases hle : k ≤ j
    · rw [if_pos hle, if_pos (by omega)]
    · rw [if_neg hle, if_neg (by omega)]

theorem updateCell_partialRow {a b : List α} {i j : Nat} (hi : i < a.length) (hj : j < b.length) :
    updateCell a b (i + 1) (row b.length (tableEntry a b i)) (partialRow a b i j) (j + 1) =
      some (partialRow a b i (j + 1)) := by
  have hx : a[i + 1 - 1]? = some a[i] := List.getElem?_eq_getElem hi
  have hy : b[j + 1 - 1]? = some b[j] := List.getElem?_eq_getElem hj
  have hup := row_getElem? (tableEntry a b i) (Nat.succ_le_of_lt hj)
  have hdiagonal := row_getElem? (tableEntry a b i) hj.le
  have hleft : (partialRow a b i j)[j]? = some (tableEntry a b (i + 1) j) := by
    rw [partialRow, row_getElem? _ hj.le, if_pos le_rfl]
  have hentry := tableEntry_succ hx hy
  rw [Nat.add_sub_cancel, Nat.add_sub_cancel] at hentry
  rw [updateCell, hx, hy]
  by_cases heq : a[i] = b[j]
  · rw [if_pos heq] at hentry
    simp only [if_pos heq, Nat.add_sub_cancel, hdiagonal, Option.bind_eq_bind, Option.bind_some]
    rw [← hentry, setItem_partialRow hj]
  · rw [if_neg heq] at hentry
    simp only [if_neg heq, Nat.add_sub_cancel, hup, hleft, hdiagonal, Option.bind_eq_bind,
      Option.bind_some]
    rw [← hentry, setItem_partialRow hj]

theorem updateRow_row {a b : List α} {i : Nat} (hi : i < a.length) :
    updateRow a b (row b.length (tableEntry a b i)) (i + 1) =
      some (row b.length (tableEntry a b (i + 1))) := by
  have hloop := foldlM_range'_invariant (I := fun j dp ↦ dp = partialRow a b i j)
    (f := updateCell a b (i + 1) (row b.length (tableEntry a b i))) (n := b.length) rfl
    (fun j hj dp hdp ↦ ⟨_, hdp ▸ updateCell_partialRow hi hj, rfl⟩)
  obtain ⟨dp, hrun, hdp⟩ := hloop
  simp only [updateRow, setItem_row _ _ (Nat.zero_le _), ← partialRow_zero b hi,
    Option.bind_eq_bind, Option.bind_some]
  rw [hrun, hdp, partialRow_length]

/-- No index is out of range, and the result is the last entry of the full table. -/
theorem editDistance_eq (a b : List α) : editDistance a b = some (distance a b) := by
  have hstart : List.range (b.length + 1) = row b.length (tableEntry a b 0) := by
    rw [row_congr (fun k hk ↦ tableEntry_zero_left a hk), row, List.map_id'']
    exact fun _ ↦ rfl
  have hloop := foldlM_range'_invariant (I := fun i dp ↦ dp = row b.length (tableEntry a b i))
    (f := updateRow a b) (n := a.length) hstart
    (fun i hi dp hdp ↦ ⟨_, hdp ▸ updateRow_row hi, rfl⟩)
  obtain ⟨dp, hrun, hdp⟩ := hloop
  simp only [editDistance, hrun, Option.bind_eq_bind, Option.bind_some]
  rw [hdp, row_getElem? _ le_rfl, tableEntry, List.take_length, List.take_length, distance_reverse]

/-- `_edit_distance` is the length of a shortest sequence of insertions, deletions and
substitutions. -/
theorem edit_distance_least (a b : List α) :
    ∃ d, editDistance a b = some d ∧ IsLeast {n | EditScript n a b} d :=
  ⟨_, editDistance_eq a b, isLeast_distance a b⟩

end AsrServe.AgenticFactory
