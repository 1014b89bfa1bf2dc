import Mathlib.Data.List.DropRight

/-!
# Bounded logs

A value in force together with the log of the values it has replaced.  The log holds a fixed number
of entries: one more entry, and the oldest is dropped.
-/

namespace AsrServe.Reasoning

/-- The value in force and the last values it replaced, oldest first. -/
structure BoundedLog (α : Type*) (cap : Nat) where
  active : α
  past : List α
  length_le : past.length ≤ cap

variable {α : Type*} {cap : Nat}

/-- Drops the oldest entry of a log that has outgrown its capacity. -/
def trim (cap : Nat) (log : List α) : List α := if log.length > cap then log.tail else log

theorem map_trim {β : Type*} (f : α → β) (cap : Nat) (log : List α) :
    (trim cap log).map f = trim cap (log.map f) := by
  rw [trim, trim, List.length_map]
  split
  · exact List.map_tail ..
  · rfl

theorem length_trim_concat_le {log : List α} (h : log.length ≤ cap) (x : α) :
    (trim cap (log ++ [x])).length ≤ cap := by
  rw [trim]
  split
  · rw [List.length_tail, List.length_append, List.length_singleton]
    omega
  · omega

theorem rtake_eq_self {log : List α} (h : log.length ≤ cap) : log.rtake cap = log := by
  rw [List.rtake, Nat.sub_eq_zero_of_le h, List.drop_zero]

-- Of the last `m` entries the last `n`.
theorem rtake_rtake (log : List α) (m n : Nat) : (log.rtake m).rtake n = log.rtake (min n m) := by
  rw [List.rtake, List.rtake, List.rtake, List.drop_drop, List.length_drop]
  congr 1
  omega

theorem rtake_min_length (log : List α) (n : Nat) : log.rtake (min n log.length) = log.rtake n := by
  rw [List.rtake, List.rtake]
  congr 1
  omega

-- The window slides: trimming after an append keeps the last entries of the whole log.
theorem trim_rtake_concat (cap : Nat) (log : List α) (x : α) :
    trim cap (log.rtake cap ++ [x]) = (log ++ [x]).rtake cap := by
  by_cases h : log.length < cap
  · have hshort : (log ++ [x]).length ≤ cap := by
      rw [List.length_append, List.length_singleton]
      omega
    rw [rtake_eq_self h.le, rtake_eq_self hshort, trim, if_neg (by omega)]
  · have hfull : (log.rtake cap).length = cap := by
      rw [List.rtake, List.length_drop]
      omega
    have hlong : (log.rtake cap ++ [x]).length > cap := by
      rw [List.length_append, List.length_singleton, hfull]
      omega
    rw [trim, if_pos hlong, List.rtake, List.rtake, ← List.drop_one,
      ← List.drop_append_of_le_length (by omega), List.drop_drop, List.length_append,
      List.length_singleton]
    congr 1
    omega

namespace BoundedLog

def start (cap : Nat) (x : α) : BoundedLog α cap := ⟨x, [], Nat.zero_le _⟩

/-- Puts a value in force and logs the one it replaces. -/
def write (log : BoundedLog α cap) (x : α) : BoundedLog α cap :=
  ⟨x, trim cap (log.past ++ [log.active]), length_trim_concat_le log.length_le _⟩

@[simp] theorem write_past (log : BoundedLog α cap) (x : α) :
    (log.write x).past = trim cap (log.past ++ [log.active]) := rfl

/-- After any sequence of writes the last value is in force and the log is the end of the sequence
of all the values that were in force before it. -/
theorem foldl_write (x : α) (xs : List α) :
    (xs.foldl write (start cap x)).active = xs.getLastD x ∧
      (xs.foldl write (start cap x)).past = (x :: xs).dropLast.rtake cap := by
  induction xs using List.reverseRecOn with
  | nil => exact ⟨rfl, (List.rtake_nil cap).symm⟩
  | append_singleton xs y ih =>
    obtain ⟨hactive, hpast⟩ := ih
    have hall : (x :: xs).dropLast ++ [xs.getLastD x] = x :: xs := by
      rw [← List.getLast_eq_getLastD (List.cons_ne_nil x xs), List.dropLast_concat_getLast]
    rw [List.foldl_concat, List.getLastD_concat, ← List.cons_append, List.dropLast_concat]
    refine ⟨rfl, ?_⟩
    rw [write_past, hactive, hpast, trim_rtake_concat, hall]

end BoundedLog

end AsrServe.Reasoning
