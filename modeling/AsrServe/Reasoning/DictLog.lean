import AsrServe.Reasoning.Dict
import AsrServe.Reasoning.History

/-!
# Dictionaries as logs of writes

A dictionary that starts empty and is only written to is known by its log: what a key holds is the
last value put there with the changes made to it since, and the keys stand in the order in which
they came to stay.
-/

namespace AsrServe.Reasoning

/-! ## Writes -/

inductive Write (κ α : Type*) where
  | put (k : κ) (v : α)
  | drop (k : κ)
  -- Does nothing to a key that is not there.
  | change (k : κ) (f : α → α)

variable {κ α : Type*} [DecidableEq κ]

namespace Dict

def change (d : Dict κ α) (k : κ) (f : α → α) : Dict κ α :=
  match d.get? k with
  | none => d
  | some v => d.set k (f v)

def write (d : Dict κ α) : Write κ α → Dict κ α
  | .put k v => d.set k v
  | .drop k => d.erase k
  | .change k f => d.change k f

theorem get?_change (d : Dict κ α) (k j : κ) (f : α → α) :
    (d.change k f).get? j = if j = k then (d.get? k).map f else d.get? j := by
  rw [change]
  cases hk : d.get? k with
  | none =>
    show d.get? j = if j = k then none else d.get? j
    split
    · rename_i h
      rw [h, hk]
    · rfl
  | some v => exact get?_set d k j (f v)

end Dict

/-- The dictionary a log leaves. -/
def replay (log : List (Write κ α)) : Dict κ α := log.foldl Dict.write Dict.empty

theorem replay_concat (log : List (Write κ α)) (w : Write κ α) :
    replay (log ++ [w]) = (replay log).write w := List.foldl_concat ..

/-! ## What a key holds -/

namespace Write

/-- `w` puts something else under `k`, or nothing. -/
def Resets (k : κ) : Write κ α → Prop
  | .put j _ => j = k
  | .drop j => j = k
  | .change _ _ => False

-- What becomes of the value under `k`, as long as it stays.
def changes (k : κ) (v : α) : Write κ α → α
  | .change j f => if j = k then f v else v
  | _ => v

end Write

/-- What stands under a key after one write was put there by it, or stood there before. -/
theorem Dict.get?_write {d : Dict κ α} {w : Write κ α} {k : κ} {v : α} :
    (d.write w).get? k = some v ↔
      w = .put k v ∨ ¬ w.Resets k ∧ ∃ u, d.get? k = some u ∧ v = w.changes k u := by
  cases w with
  | put j u =>
    rw [write, get?_set]
    by_cases hj : k = j
    · subst hj
      simp [Write.Resets]
    · simp [Write.Resets, Write.changes, hj, Ne.symm hj]
  | drop j =>
    rw [write, get?_erase]
    by_cases hj : k = j
    · subst hj
      simp [Write.Resets]
    · simp [Write.Resets, Write.changes, hj, Ne.symm hj]
  | change j f =>
    rw [write, get?_change]
    by_cases hj : k = j
    · subst hj
      simp [Write.Resets, Write.changes, @eq_comm α v]
    · simp [Write.Resets, Write.changes, hj, Ne.symm hj]

/-- The last thing put under `k`, still there, with what was written after it. -/
structure Stands (log : List (Write κ α)) (k : κ) (v : α) (after : List (Write κ α)) : Prop where
  put : ∃ before, log = before ++ .put k v :: after
  stays : ∀ w ∈ after, ¬ w.Resets k

/-- `v` after the changes made to it under `k`. -/
def changed (k : κ) (v : α) (after : List (Write κ α)) : α := after.foldl (Write.changes k) v

variable {log : List (Write κ α)} {k : κ}

omit [DecidableEq κ] in
theorem not_stands_nil {v : α} {after : List (Write κ α)} : ¬ Stands [] k v after := by
  rintro ⟨⟨before, h⟩, -⟩
  exact absurd h.symm (List.append_ne_nil_of_right_ne_nil before (List.cons_ne_nil _ _))

omit [DecidableEq κ] in
theorem stands_concat {w : Write κ α} {v : α} {after : List (Write κ α)} :
    Stands (log ++ [w]) k v after ↔
      (w = .put k v ∧ after = []) ∨
        (¬ w.Resets k ∧ ∃ past, Stands log k v past ∧ after = past ++ [w]) := by
  constructor
  · rintro ⟨⟨before, hput⟩, hstays⟩
    rcases List.eq_nil_or_concat' after with rfl | ⟨past, last, rfl⟩
    · rw [← List.concat_eq_append, ← List.concat_eq_append, List.concat_inj] at hput
      exact .inl ⟨hput.2, rfl⟩
    · rw [← List.cons_append, ← List.append_assoc] at hput
      obtain ⟨hlog, hw⟩ := List.append_inj' hput rfl
      obtain rfl := List.singleton_inj.mp hw
      refine .inr ⟨hstays w (by simp), past, ⟨⟨before, hlog⟩, fun x hx ↦ ?_⟩, rfl⟩
      exact hstays x (List.mem_append_left _ hx)
  · rintro (⟨rfl, rfl⟩ | ⟨hw, past, ⟨⟨before, rfl⟩, hstays⟩, rfl⟩)
    · exact ⟨⟨log, rfl⟩, fun _ h ↦ absurd h List.not_mem_nil⟩
    · refine ⟨⟨before, by simp⟩, fun x hx ↦ ?_⟩
      rcases List.mem_append.mp hx with hold | hnew
      · exact hstays x hold
      · rwa [List.mem_singleton.mp hnew]

theorem changed_concat (v : α) (after : List (Write κ α)) (w : Write κ α) :
    changed k v (after ++ [w]) = w.changes k (changed k v after) := List.foldl_concat ..

/-- A key holds the last value put there and not dropped, with the changes made since. -/
theorem get?_replay {v : α} :
    (replay log).get? k = some v ↔ ∃ v₀ after, Stands log k v₀ after ∧ v = changed k v₀ after := by
  induction log using List.reverseRecOn generalizing v with
  | nil =>
    constructor
    · intro h
      cases h
    · rintro ⟨v₀, after, h, -⟩
      exact absurd h not_stands_nil
  | append_singleton log w ih =>
    rw [replay_concat, Dict.get?_write]
    constructor
    · rintro (rfl | ⟨hw, u, hu, rfl⟩)
      · exact ⟨v, [], stands_concat.mpr (.inl ⟨rfl, rfl⟩), rfl⟩
      · obtain ⟨v₀, after, hstands, rfl⟩ := ih.mp hu
        refine ⟨v₀, after ++ [w], stands_concat.mpr (.inr ⟨hw, after, hstands, rfl⟩), ?_⟩
        rw [changed_concat]
    · rintro ⟨v₀, after, hstands, rfl⟩
      rcases stands_concat.mp hstands with ⟨rfl, rfl⟩ | ⟨hw, past, hpast, rfl⟩
      · exact .inl rfl
      · exact .inr ⟨hw, _, ih.mpr ⟨v₀, past, hpast, rfl⟩, changed_concat ..⟩

/-! ## The order of the keys -/

/-- Something put under `k` is still there. -/
def Present (k : κ) (log : List (Write κ α)) : Prop := ∃ v after, Stands log k v after

omit [DecidableEq κ] in
theorem not_present_nil : ¬ Present k ([] : List (Write κ α)) :=
  fun ⟨_, _, h⟩ ↦ not_stands_nil h

theorem mem_replay : k ∈ replay log ↔ Present k log := by
  rw [Dict.mem_iff_exists]
  constructor
  · rintro ⟨v, hv⟩
    obtain ⟨v₀, after, hstands, -⟩ := get?_replay.mp hv
    exact ⟨v₀, after, hstands⟩
  · rintro ⟨v₀, after, hstands⟩
    exact ⟨_, get?_replay.mpr ⟨v₀, after, hstands, rfl⟩⟩

/-- `j` has been there longer than `k`. -/
def Older (log : List (Write κ α)) (j k : κ) : Prop :=
  ∀ m n, Since (Present j) log m → Since (Present k) log n → m < n

-- One more write does not change since when a key that was there has been there.
omit [DecidableEq κ] in
theorem since_of_concat {w : Write κ α} {n : Nat} (hpresent : Present k log)
    (h : Since (Present k) (log ++ [w]) n) : Since (Present k) log n := by
  rcases (since_concat.mp h).2 with hsince | ⟨hnot, -⟩
  · exact hsince
  · exact absurd hpresent hnot

theorem older_concat {w : Write κ α}
    (ih : (replay log).keys.Pairwise (Older log)) :
    (replay log).keys.Pairwise (Older (log ++ [w])) := by
  refine ih.imp_of_mem fun hj hk h m n hm hn ↦ ?_
  exact h m n (since_of_concat (mem_replay.mp hj) hm) (since_of_concat (mem_replay.mp hk) hn)

/-- The keys stand in the order in which they came to stay. -/
theorem pairwise_keys_replay : (replay log).keys.Pairwise (Older log) := by
  induction log using List.reverseRecOn with
  | nil => exact List.Pairwise.nil
  | append_singleton log w ih =>
    rw [replay_concat]
    have hold := older_concat (w := w) ih
    -- writing under a key that may be new
    have hset (k : κ) (v : α) :
        ((replay log).set k v).keys.Pairwise (Older (log ++ [w])) := by
      rw [Dict.keys_set]
      split
      · exact hold
      · rename_i hnew
        rw [List.pairwise_append]
        refine ⟨hold, List.pairwise_singleton .., fun j hj i hi m n hm hn ↦ ?_⟩
        obtain rfl := List.mem_singleton.mp hi
        have hjold := since_of_concat (mem_replay.mp hj) hm
        rcases (since_concat.mp hn).2 with hsince | ⟨-, rfl⟩
        · exact absurd (mem_replay.mpr hsince.holds) hnew
        · exact hjold.lt_length
    cases w with
    | put k v => exact hset k v
    | drop k => exact hold.sublist (Dict.keys_erase_sublist ..)
    | change k f =>
      rw [Dict.write, Dict.change]
      split
      · exact hold
      · exact hset ..

end AsrServe.Reasoning
