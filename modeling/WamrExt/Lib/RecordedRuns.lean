import WamrExt.Lib.Transition

/-!
# Runs with a record

What has happened in a run can be kept in a record beside the state. The record is written at each
step from the state before it and the action, and no step depends on it. So every run can be
recorded, and a recorded run is a run (`run_iff_recorded`): what is proved about the state and the
record of all recorded runs is proved about all runs.
-/

set_option autoImplicit false

namespace Transition

universe u v w

variable {σ : Type u} {α : Type v} {ρ : Type w}

/-- The step of a system that keeps a record. -/
def recorded (step : Step σ α) (note : σ → α → ρ → ρ) : Step (σ × ρ) α := fun s a =>
  (step s.1 a).map fun next => (next, note s.1 a s.2)

variable {step : Step σ α} {note : σ → α → ρ → ρ}

theorem recorded_eq_some {s s' : σ} {record record' : ρ} {a : α} :
    recorded step note (s, record) a = some (s', record') ↔
      step s a = some s' ∧ note s a record = record' := by
  rw [recorded, Option.map_eq_some_iff]
  constructor
  · rintro ⟨next, taken, ⟨⟩⟩
    exact ⟨taken, rfl⟩
  · rintro ⟨taken, rfl⟩
    exact ⟨s', taken, rfl⟩

/-- **Every run can be recorded, and a recorded run is a run.** -/
theorem run_iff_recorded {s s' : σ} (record : ρ) {as : List α} :
    run step s as = some s' ↔
      ∃ record', run (recorded step note) (s, record) as = some (s', record') := by
  induction as generalizing s record with
  | nil =>
      constructor
      · rintro ⟨⟩
        exact ⟨record, rfl⟩
      · rintro ⟨_, ⟨⟩⟩
        rfl
  | cons a rest ih =>
      constructor
      · intro reached
        obtain ⟨next, taken, later⟩ := run_cons_eq_some.mp reached
        obtain ⟨record', after⟩ := (ih (note s a record)).mp later
        exact ⟨record', run_cons_eq_some.mpr
          ⟨(next, note s a record), recorded_eq_some.mpr ⟨taken, rfl⟩, after⟩⟩
      · rintro ⟨record', reached⟩
        obtain ⟨⟨next, noted⟩, taken, later⟩ := run_cons_eq_some.mp reached
        obtain ⟨moved, rfl⟩ := recorded_eq_some.mp taken
        exact run_cons_eq_some.mpr ⟨next, moved, (ih _).mpr ⟨record', later⟩⟩

/-- **The run rule with a record.** What every step keeps of the state and the record holds at the
end of every run, of the state and what the run has recorded. -/
theorem recorded_invariant {inv : σ → ρ → Prop}
    (keeps : ∀ {s a s' record}, inv s record → step s a = some s' → inv s' (note s a record))
    {s s' : σ} {record : ρ} {as : List α} (start : inv s record)
    (reached : run step s as = some s') :
    ∃ record', run (recorded step note) (s, record) as = some (s', record') ∧ inv s' record' := by
  obtain ⟨record', after⟩ := (run_iff_recorded record).mp reached
  have step_keeps : ∀ {s : σ × ρ} {a : α} {s' : σ × ρ}, inv s.1 s.2 →
      recorded step note s a = some s' → inv s'.1 s'.2 := by
    rintro ⟨s, record⟩ a ⟨s', record'⟩ holds taken
    obtain ⟨moved, rfl⟩ := recorded_eq_some.mp taken
    exact keeps holds moved
  exact ⟨record', after, run_invariant_always step_keeps start after⟩

end Transition
