import AsrServe.AgenticFactory.AgentHints
import AsrServe.AgenticFactory.HintsStore
import AsrServe.Reasoning.BoundedLog

/-!
# The two hint stores as one log

The manager of the evaluation loop and the store of the control plane both keep the profile in
force and the last hundred profiles before it.
-/

open AsrServe.Reasoning

namespace AsrServe.AgenticFactory

/-- The profile without its timestamp, its numbers read as integers. -/
def ControlPlane.HintProfile.view (p : ControlPlane.HintProfile) : AgenticFactory.HintProfile where
  modelId := p.modelId
  priority := p.priority.toInt
  kvTtlMs := p.kvTtlMs.toInt
  debug := p.debug

-- What `Update` stores at time `now`.
def ControlPlane.HintProfile.stamped (p : ControlPlane.HintProfile) (now : Int64) :
    ControlPlane.HintProfile :=
  { p with updatedAt := now }

/-- The profiles of a manager are those of the log. -/
def AgentHintsManager.Logs (hints : AgentHintsManager) (log : BoundedLog HintProfile 100) : Prop :=
  hints.active = log.active ∧ hints.history = log.past

def ControlPlane.HintsStore.Logs (store : ControlPlane.HintsStore)
    (log : BoundedLog ControlPlane.HintProfile 100) : Prop :=
  store.active = log.active ∧ store.history = log.past

/-! ## One write -/

theorem AgentHintsManager.Logs.setProfile {hints : AgentHintsManager}
    {log : BoundedLog HintProfile 100} (h : hints.Logs log) (profile : HintProfile) :
    (hints.setProfile profile).Logs (log.write profile) := by
  obtain ⟨hactive, hpast⟩ := h
  refine ⟨rfl, ?_⟩
  rw [BoundedLog.write_past, ← hactive, ← hpast]
  rfl

theorem ControlPlane.HintsStore.Logs.update {store : ControlPlane.HintsStore}
    {log : BoundedLog ControlPlane.HintProfile 100} (h : store.Logs log)
    (p : ControlPlane.HintProfile) (now : Int64) :
    (store.update p now).Logs (log.write (p.stamped now)) := by
  obtain ⟨hactive, hpast⟩ := h
  refine ⟨rfl, ?_⟩
  rw [BoundedLog.write_past, ← hactive, ← hpast]
  rfl

/-! ## Whole runs -/

-- The stores after the profiles of a list, from the default store of each language.
def AgentHintsManager.written (us : List HintProfile) : AgentHintsManager :=
  us.foldl setProfile {}

def ControlPlane.HintsStore.written (vs : List (ControlPlane.HintProfile × Int64)) :
    ControlPlane.HintsStore :=
  vs.foldl (fun store v ↦ store.update v.1 v.2) newHintsStore

theorem AgentHintsManager.logs_written (us : List HintProfile) :
    (AgentHintsManager.written us).Logs
      (us.foldl BoundedLog.write (BoundedLog.start 100 { modelId := "whisper-large-v3" })) :=
  List.foldl_rel ⟨rfl, rfl⟩ fun profile _ _ _ h ↦ h.setProfile profile

theorem ControlPlane.HintsStore.logs_written (vs : List (ControlPlane.HintProfile × Int64)) :
    (ControlPlane.HintsStore.written vs).Logs
      ((vs.map fun v ↦ v.1.stamped v.2).foldl BoundedLog.write
        (BoundedLog.start 100 newHintsStore.active)) := by
  rw [List.foldl_map]
  exact List.foldl_rel ⟨rfl, rfl⟩ fun v _ _ _ h ↦ h.update v.1 v.2

theorem AgentHintsManager.written_eq (us : List HintProfile) :
    (AgentHintsManager.written us).active = us.getLastD { modelId := "whisper-large-v3" } ∧
      (AgentHintsManager.written us).history =
        ({ modelId := "whisper-large-v3" } :: us).dropLast.rtake 100 := by
  obtain ⟨hactive, hhistory⟩ := AgentHintsManager.logs_written us
  rw [hactive, hhistory]
  exact BoundedLog.foldl_write _ us

theorem ControlPlane.HintsStore.written_eq (vs : List (ControlPlane.HintProfile × Int64)) :
    (ControlPlane.HintsStore.written vs).active =
        (vs.map fun v ↦ v.1.stamped v.2).getLastD newHintsStore.active ∧
      (ControlPlane.HintsStore.written vs).history =
        (newHintsStore.active :: vs.map fun v ↦ v.1.stamped v.2).dropLast.rtake 100 := by
  obtain ⟨hactive, hhistory⟩ := ControlPlane.HintsStore.logs_written vs
  rw [hactive, hhistory]
  exact BoundedLog.foldl_write _ _

/-- What both stores can hold they hold alike, up to timestamps. -/
theorem written_view (vs : List (ControlPlane.HintProfile × Int64)) :
    (AgentHintsManager.written (vs.map fun v ↦ v.1.view)).active =
        (ControlPlane.HintsStore.written vs).active.view ∧
      (AgentHintsManager.written (vs.map fun v ↦ v.1.view)).history =
        (ControlPlane.HintsStore.written vs).history.map ControlPlane.HintProfile.view := by
  have hviews : (vs.map fun v ↦ v.1.view) =
      (vs.map fun v ↦ v.1.stamped v.2).map ControlPlane.HintProfile.view := by
    rw [List.map_map]
    rfl
  have hdefault : ControlPlane.newHintsStore.active.view = { modelId := "whisper-large-v3" } := by
    decide
  obtain ⟨hactive, hhistory⟩ := AgentHintsManager.written_eq (vs.map fun v ↦ v.1.view)
  obtain ⟨hactive', hhistory'⟩ := ControlPlane.HintsStore.written_eq vs
  constructor
  · rw [hactive, hactive', hviews, ← hdefault, List.getLastD_map]
  · rw [hhistory, hhistory', hviews, ← hdefault, ← List.map_cons, ← List.map_dropLast, List.rtake,
      List.rtake, List.length_map, List.map_drop]

-- The last `min k 100` of the `k` profiles that were in force before the last write.
theorem rtake_dropLast {α : Type*} (x : α) (xs : List α) :
    (x :: xs).dropLast.rtake (min xs.length 100) = (x :: xs).dropLast.rtake 100 := by
  have hlength : (x :: xs).dropLast.length = xs.length := by
    rw [List.length_dropLast, List.length_cons, Nat.add_sub_cancel]
  rw [List.rtake, List.rtake, hlength]
  congr 1
  omega

/-- After any writes each store holds the last profile written and, in order, the last hundred that
were in force before it; so the two agree, up to timestamps, on what both can hold. -/
theorem hint_stores_same_log (us : List HintProfile)
    (vs : List (ControlPlane.HintProfile × Int64)) :
    ((AgentHintsManager.written us).active = us.getLastD { modelId := "whisper-large-v3" } ∧
        (AgentHintsManager.written us).history =
          ({ modelId := "whisper-large-v3" } :: us).dropLast.rtake (min us.length 100)) ∧
      ((ControlPlane.HintsStore.written vs).active =
          (vs.map fun v ↦ v.1.stamped v.2).getLastD ControlPlane.newHintsStore.active ∧
        (ControlPlane.HintsStore.written vs).history =
          (ControlPlane.newHintsStore.active :: vs.map fun v ↦ v.1.stamped v.2).dropLast.rtake
            (min vs.length 100)) ∧
      (AgentHintsManager.written (vs.map fun v ↦ v.1.view)).active =
        (ControlPlane.HintsStore.written vs).active.view ∧
      (AgentHintsManager.written (vs.map fun v ↦ v.1.view)).history =
        (ControlPlane.HintsStore.written vs).history.map ControlPlane.HintProfile.view := by
  have hstamped : vs.length = (vs.map fun v ↦ v.1.stamped v.2).length := by
    rw [List.length_map]
  rw [hstamped, rtake_dropLast, rtake_dropLast]
  exact ⟨AgentHintsManager.written_eq us, ControlPlane.HintsStore.written_eq vs, written_view vs⟩

end AsrServe.AgenticFactory
