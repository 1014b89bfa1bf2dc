import AsrServe.AgenticFactory.HintLog

/-!
# Reading the hint history back (`agentic-factory/src/agent_hints.py`)

`recent_history` against the profiles that were in force before the last update.
-/

open AsrServe.Reasoning

namespace AsrServe.AgenticFactory

-- `items[start:]`; a negative `start` counts from the end.
def sliceFrom {α : Type*} (items : List α) (start : Int) : List α :=
  if start < 0 then items.drop (items.length + start).toNat else items.drop start.toNat

def AgentHintsManager.recentHistory (hints : AgentHintsManager) (n : Int := 10) :
    List HintProfile :=
  sliceFrom hints.history (-n)

-- A new manager after the profiles of a list.
def AgentHintsManager.updated (defaultModelId : String) (us : List HintProfile) :
    AgentHintsManager :=
  us.foldl setProfile { active := { modelId := defaultModelId } }

/-- The profiles that were in force before the last of the updates, oldest first. -/
def superseded (defaultModelId : String) (us : List HintProfile) : List HintProfile :=
  ({ modelId := defaultModelId } :: us).dropLast

theorem length_superseded (defaultModelId : String) (us : List HintProfile) :
    (superseded defaultModelId us).length = us.length := by
  rw [superseded, List.length_dropLast, List.length_cons, Nat.add_sub_cancel]

/-- The history is a bounded log of the superseded profiles. -/
theorem AgentHintsManager.history_updated (defaultModelId : String) (us : List HintProfile) :
    (updated defaultModelId us).history = (superseded defaultModelId us).rtake 100 := by
  have hlogs : (updated defaultModelId us).Logs
      (us.foldl BoundedLog.write (BoundedLog.start 100 { modelId := defaultModelId })) :=
    List.foldl_rel ⟨rfl, rfl⟩ fun profile _ _ _ h ↦ h.setProfile profile
  rw [hlogs.2]
  exact (BoundedLog.foldl_write _ us).2

theorem sliceFrom_neg {α : Type*} (items : List α) {n : Nat} (hn : n ≠ 0) :
    sliceFrom items (-n) = items.rtake n := by
  rw [sliceFrom, if_pos (by omega), List.rtake]
  congr 1
  omega

/-- After any updates `recent_history(n)` returns the last `n` superseded profiles, as far as the
history reaches back, unless `n` is 0 and there is a history: then it returns all of it. -/
theorem recent_history_iff (defaultModelId : String) (us : List HintProfile) (n : Nat) :
    (AgentHintsManager.updated defaultModelId us).recentHistory n =
        (superseded defaultModelId us).rtake (min n (min 100 us.length)) ↔
      n ≠ 0 ∨ us = [] := by
  have hsuffix : (superseded defaultModelId us).rtake (min n (min 100 us.length)) =
      ((superseded defaultModelId us).rtake 100).rtake n := by
    rw [rtake_rtake, ← length_superseded defaultModelId us, ← Nat.min_assoc, rtake_min_length]
  rw [hsuffix, AgentHintsManager.recentHistory, AgentHintsManager.history_updated]
  by_cases hn : n = 0
  · -- `-0` does not count from the end
    subst hn
    rw [or_iff_right (not_not.mpr rfl)]
    show (superseded defaultModelId us).rtake 100 = _ ↔ _
    rw [List.rtake_zero, ← List.length_eq_zero_iff, ← List.length_eq_zero_iff (l := us),
      List.rtake, List.length_drop, length_superseded]
    omega
  · exact iff_of_true (sliceFrom_neg _ hn) (.inl hn)

/-- None of the superseded profiles is asked for, and all of them are returned. -/
theorem recent_history_zero :
    (AgentHintsManager.updated "whisper-large-v3" [{ modelId := "canary-1b" }]).recentHistory 0 =
        [{ modelId := "whisper-large-v3" }] ∧
      (AgentHintsManager.updated "whisper-large-v3" [{ modelId := "canary-1b" }]).recentHistory 0 ≠
        (superseded "whisper-large-v3" [{ modelId := "canary-1b" }]).rtake 0 := by
  decide

end AsrServe.AgenticFactory
