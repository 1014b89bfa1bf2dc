import AsrServe.AgenticFactory.AgentHints
import AsrServe.AgenticFactory.HintsStore
import AsrServe.Reasoning.Runs

/-!
# Bounds on the hints in force

The bounds of the hint schema and of `configs/factory.yaml`, over whatever is written to the two
stores.
-/

open AsrServe.Reasoning

namespace AsrServe.AgenticFactory

-- `min_kv_ttl_ms` and `max_kv_ttl_ms`.
def minKvTtlMs : Int := 100
def maxKvTtlMs : Int := 2000

def PriorityInBounds (priority : Int) : Prop := 0 ≤ priority ∧ priority ≤ 9

def KvTtlInBounds (kvTtlMs : Int) : Prop := minKvTtlMs ≤ kvTtlMs ∧ kvTtlMs ≤ maxKvTtlMs

instance (n : Int) : Decidable (PriorityInBounds n) := inferInstanceAs (Decidable (_ ∧ _))

instance (n : Int) : Decidable (KvTtlInBounds n) := inferInstanceAs (Decidable (_ ∧ _))

def HintProfile.InBounds (p : HintProfile) : Prop :=
  PriorityInBounds p.priority ∧ KvTtlInBounds p.kvTtlMs

def ControlPlane.HintProfile.InBounds (p : ControlPlane.HintProfile) : Prop :=
  PriorityInBounds p.priority.toInt ∧ KvTtlInBounds p.kvTtlMs.toInt

instance (p : HintProfile) : Decidable p.InBounds := inferInstanceAs (Decidable (_ ∧ _))

instance (p : ControlPlane.HintProfile) : Decidable p.InBounds :=
  inferInstanceAs (Decidable (_ ∧ _))

/-- What the write puts into the profile is in bounds; a value that `int()` rejects puts nothing
there. -/
def HintWrite.InBounds : HintWrite → Prop
  | .setProfile profile => profile.InBounds
  | .setHint key value =>
    (key = "priority" → ∀ n, value.toInt? = some n → PriorityInBounds n) ∧
      (key = "kv_ttl_ms" → ∀ n, value.toInt? = some n → KvTtlInBounds n)

-- The profile a store event writes, if any.
def ControlPlane.StoreEvent.written : ControlPlane.StoreEvent → Option ControlPlane.HintProfile
  | .update p _ => some p
  | .request .put body _ => body.bind decode
  | .request _ _ _ => none

/-! ## One write -/

theorem write_setHint_inBounds_iff {hints : AgentHintsManager} (h : hints.active.InBounds)
    (key : String) (value : HintValue) :
    (hints.write (.setHint key value)).active.InBounds ↔
      (HintWrite.setHint key value).InBounds := by
  obtain ⟨hpriority, hkvTtl⟩ := h
  rw [AgentHintsManager.write, AgentHintsManager.setHint]
  by_cases hp : key = "priority"
  · subst hp
    cases hn : value.toInt? with
    | none => simp [HintWrite.InBounds, HintProfile.InBounds, hn, hpriority, hkvTtl]
    | some n =>
      simp [HintWrite.InBounds, HintProfile.InBounds, AgentHintsManager.setProfile, hn, hkvTtl]
  · by_cases hk : key = "kv_ttl_ms"
    · subst hk
      cases hn : value.toInt? with
      | none => simp [HintWrite.InBounds, HintProfile.InBounds, hn, hpriority, hkvTtl]
      | some n =>
        simp [HintWrite.InBounds, HintProfile.InBounds, AgentHintsManager.setProfile, hn, hpriority]
    · -- any other key leaves both numbers as they are
      apply iff_of_true _ ⟨fun he ↦ absurd he hp, fun he ↦ absurd he hk⟩
      simp only [hp, hk, if_false]
      by_cases hd : key = "debug"
      · cases hb : value.toBool? <;>
          simp [HintProfile.InBounds, AgentHintsManager.setProfile, hd, hpriority, hkvTtl]
      · simp [HintProfile.InBounds, AgentHintsManager.setProfile, hd, hpriority, hkvTtl]

theorem write_inBounds_iff {hints : AgentHintsManager} (h : hints.active.InBounds)
    (write : HintWrite) : (hints.write write).active.InBounds ↔ write.InBounds := by
  cases write with
  | setProfile profile => exact Iff.rfl
  | setHint key value => exact write_setHint_inBounds_iff h key value

theorem ControlPlane.step_inBounds_iff {store : ControlPlane.HintsStore}
    (h : store.active.InBounds) (event : ControlPlane.StoreEvent) :
    (store.step event).active.InBounds ↔ ∀ p, event.written = some p → p.InBounds := by
  cases event with
  | update p now => simp [StoreEvent.written]; rfl
  | request method body now =>
    cases method with
    | put =>
      rw [HintsStore.step, HintsStore.hints, StoreEvent.written]
      cases hdecode : body.bind decode with
      | none => simpa using h
      | some p => simp; rfl
    | get => exact iff_of_true h (fun p hp ↦ by cases hp)
    | other name => exact iff_of_true h (fun p hp ↦ by cases hp)

/-! ## Whole runs -/

-- A fresh manager; any id may be the default model's.
def AgentHintsManager.fresh (defaultModelId : String) : AgentHintsManager where
  active := { modelId := defaultModelId }

/-- In each store the active profile stays in bounds just when everything written to it is. -/
theorem hint_bounds_iff (defaultModelId : String) (writes : List HintWrite)
    (events : List ControlPlane.StoreEvent) :
    (Along (fun hints write ↦ some (hints.write write)) (fun _ _ hints' ↦ hints'.active.InBounds)
        (AgentHintsManager.fresh defaultModelId) writes ↔ ∀ write ∈ writes, write.InBounds) ∧
      (Along (fun store event ↦ some (ControlPlane.HintsStore.step store event))
          (fun _ _ store' ↦ store'.active.InBounds) ControlPlane.newHintsStore events ↔
        ∀ event ∈ events, ∀ p, event.written = some p → p.InBounds) := by
  constructor
  · have htotal (hints : AgentHintsManager) (write : HintWrite) :
        ∃ hints', some (hints.write write) = some hints' := ⟨_, rfl⟩
    refine Iff.trans ?_ (along_event_iff htotal (s := .fresh defaultModelId))
    apply along_congr (I := fun hints ↦ hints.active.InBounds)
    · rintro hints write hints' h ⟨⟩
      exact write_inBounds_iff h write
    · exact fun hints write hints' _ _ h ↦ h
    · show PriorityInBounds 5 ∧ KvTtlInBounds 500
      decide
  · have htotal (store : ControlPlane.HintsStore) (event : ControlPlane.StoreEvent) :
        ∃ store', some (store.step event) = some store' := ⟨_, rfl⟩
    refine Iff.trans ?_ (along_event_iff htotal (s := ControlPlane.newHintsStore))
    apply along_congr (I := fun store ↦ store.active.InBounds)
    · rintro store event store' h ⟨⟩
      exact ControlPlane.step_inBounds_iff h event
    · exact fun store event store' _ _ h ↦ h
    · decide

/-- `set_hint("priority", 42)` is taken as it is, and so is a body without any member, whose TTL is
the zero value. -/
theorem hints_out_of_bounds :
    ¬ Along (fun hints write ↦ some (AgentHintsManager.write hints write))
        (fun _ _ hints' ↦ hints'.active.InBounds) (.fresh "whisper-large-v3")
        [.setHint "priority" { toInt? := some 42, toBool? := some true, modelId := "42" }] ∧
      ¬ Along (fun store event ↦ some (ControlPlane.HintsStore.step store event))
        (fun _ _ store' ↦ store'.active.InBounds) ControlPlane.newHintsStore
        [.request .put (some (.object [])) 0] := by
  constructor
  · intro h
    exact absurd (h _ rfl).1 (by decide)
  · intro h
    exact absurd (h _ rfl).1 (by decide)

end AsrServe.AgenticFactory
