import Mathlib.Logic.Basic
import Mathlib.Data.Option.Basic

/-!
# Guarded steps and their runs

A transition system is given by a guarded step: a function from a state and an action to
the next state, with no value when the action is not enabled. A run takes a list of
actions one after another (`run`). A run is inside a condition when every action is taken
in a state that meets it (`Meets`).

Three rules carry facts from one step to whole runs. A predicate that every step inside
the condition preserves holds at the end of every run inside the condition
(`run_invariant`). Where a step outside the condition does damage that lasts, the end of a
run is safe exactly when the run is inside the condition (`run_safe_iff`). Where a step
outside the condition leads to a bad state that may be left again, every state of the run is
good exactly when the run is inside the condition (`throughout_iff`).

Every initial part of a run is a run, so a statement about the end of every run is a
statement about every state that is reached.
-/

set_option autoImplicit false

namespace Transition

universe u v

/-- A guarded step: `none` when the action is not enabled in the state. -/
abbrev Step (σ : Type u) (α : Type v) := σ → α → Option σ

variable {σ : Type u} {α : Type v}

/-- The state after a list of actions, if each of them is enabled when it is taken. -/
def run (step : Step σ α) : σ → List α → Option σ
  | s, [] => some s
  | s, a :: rest => (step s a).bind fun next => run step next rest

/-- Every action of the list is taken in a state that meets the condition. -/
def Meets (step : Step σ α) (ok : σ → α → Prop) : σ → List α → Prop
  | _, [] => True
  | s, a :: rest => ok s a ∧ ∀ next, step s a = some next → Meets step ok next rest

/-- A step under a guard is taken when the guard holds. -/
theorem guarded_eq_some {guard : Prop} [Decidable guard] {next s : σ} :
    (if guard then some next else none) = some s ↔ guard ∧ next = s := by
  rw [Option.ite_none_right_eq_some, Option.some.injEq]

variable {step : Step σ α} {ok : σ → α → Prop}

/-- Whether a run is inside a condition can be computed along the run. -/
instance decidableMeets [∀ s a, Decidable (ok s a)] :
    (s : σ) → (as : List α) → Decidable (Meets step ok s as)
  | _, [] => isTrue trivial
  | s, a :: rest =>
      match taken : step s a with
      | none => decidable_of_iff (ok s a) (by simp [Meets, taken])
      | some next =>
          have := decidableMeets next rest
          decidable_of_iff (ok s a ∧ Meets step ok next rest) (by simp [Meets, taken])

theorem run_cons (s : σ) (a : α) (rest : List α) :
    run step s (a :: rest) = (step s a).bind fun next => run step next rest := rfl

/-- A run that starts with an action passes through the state after it. -/
theorem run_cons_eq_some {s s' : σ} {a : α} {rest : List α} :
    run step s (a :: rest) = some s' ↔
      ∃ next, step s a = some next ∧ run step next rest = some s' := by
  rw [run_cons, Option.bind_eq_some_iff]

/-- A run inside a condition that keeps a state good is inside every condition that follows
from it in good states. -/
theorem Meets.strengthen {follows : σ → α → Prop} {inv : σ → Prop}
    (sub : ∀ {s a}, inv s → ok s a → follows s a)
    (keeps : ∀ {s a s'}, inv s → ok s a → step s a = some s' → inv s')
    {s : σ} {as : List α} (start : inv s) (meets : Meets step ok s as) :
    Meets step follows s as := by
  induction as generalizing s with
  | nil => trivial
  | cons a rest ih =>
      refine ⟨sub start meets.1, fun next taken => ?_⟩
      exact ih (keeps start meets.1 taken) (meets.2 next taken)

/-- Two conditions that agree on good states admit the same runs from a good state, when
the second keeps a state good. -/
theorem meets_congr {first second : σ → α → Prop} {inv : σ → Prop}
    (agree : ∀ {s a}, inv s → (first s a ↔ second s a))
    (keeps : ∀ {s a s'}, inv s → second s a → step s a = some s' → inv s')
    {s : σ} {as : List α} (start : inv s) :
    Meets step first s as ↔ Meets step second s as := by
  constructor
  · exact Meets.strengthen (fun good => (agree good).mp)
      (fun good met => keeps good ((agree good).mp met)) start
  · exact Meets.strengthen (fun good => (agree good).mpr) keeps start

/-- **The run rule.** What every step inside the condition preserves holds at the end of
every run inside the condition. -/
theorem run_invariant {inv : σ → Prop}
    (keeps : ∀ {s a s'}, inv s → ok s a → step s a = some s' → inv s')
    {s s' : σ} {as : List α} (start : inv s) (meets : Meets step ok s as)
    (reached : run step s as = some s') : inv s' := by
  induction as generalizing s with
  | nil =>
      cases reached
      exact start
  | cons a rest ih =>
      obtain ⟨next, taken, later⟩ := run_cons_eq_some.mp reached
      exact ih (keeps start meets.1 taken) (meets.2 next taken) later

/-- The run rule without a condition. -/
theorem run_invariant_always {inv : σ → Prop}
    (keeps : ∀ {s a s'}, inv s → step s a = some s' → inv s')
    {s s' : σ} {as : List α} (start : inv s) (reached : run step s as = some s') : inv s' := by
  induction as generalizing s with
  | nil =>
      cases reached
      exact start
  | cons a rest ih =>
      obtain ⟨next, taken, later⟩ := run_cons_eq_some.mp reached
      exact ih (keeps start taken) later

/-- **The exact run rule.** Let steps inside the condition keep an invariant that makes a
state safe, let a step outside it do damage, and let damage last. Then a run ends in a
safe state exactly when it is inside the condition. -/
theorem run_safe_iff {inv safe damaged : σ → Prop}
    (keeps : ∀ {s a s'}, inv s → ok s a → step s a = some s' → inv s')
    (breaks : ∀ {s a s'}, inv s → ¬ ok s a → step s a = some s' → damaged s')
    (lasts : ∀ {s a s'}, damaged s → step s a = some s' → damaged s')
    (safe_of_inv : ∀ {s}, inv s → safe s) (not_safe : ∀ {s}, damaged s → ¬ safe s)
    {s s' : σ} {as : List α} (start : inv s) (reached : run step s as = some s') :
    safe s' ↔ Meets step ok s as := by
  induction as generalizing s with
  | nil =>
      cases reached
      exact ⟨fun _ => trivial, fun _ => safe_of_inv start⟩
  | cons a rest ih =>
      obtain ⟨next, taken, later⟩ := run_cons_eq_some.mp reached
      by_cases met : ok s a
      · rw [ih (keeps start met taken) later]
        exact ⟨fun meets => ⟨met, fun other same => by
          rw [taken] at same
          cases same
          exact meets⟩, fun meets => meets.2 next taken⟩
      · have bad : ¬ safe s' :=
          not_safe (run_invariant_always lasts (breaks start met taken) later)
        exact ⟨fun good => absurd good bad, fun meets => absurd meets.1 met⟩

/-- A run inside a condition, one action after another. -/
theorem Meets.cons {s next : σ} {a : α} {rest : List α} (met : ok s a)
    (taken : step s a = some next) (later : Meets step ok next rest) :
    Meets step ok s (a :: rest) := by
  refine ⟨met, fun other same => ?_⟩
  rw [taken] at same
  cases same
  exact later

/-- A run of actions that meet a condition in any state. -/
theorem Meets.of_forall {as : List α} (met : ∀ a ∈ as, ∀ s, ok s a) (s : σ) :
    Meets step ok s as := by
  induction as generalizing s with
  | nil => trivial
  | cons a rest ih =>
      obtain ⟨first, later⟩ := List.forall_mem_cons.mp met
      exact ⟨first s, fun next _ => ih later next⟩

/-- In a run inside a condition, each action is taken in a state that meets it. -/
theorem Meets.action {s s' : σ} {a : α} {first second : List α}
    (meets : Meets step ok s (first ++ a :: second)) (reached : run step s first = some s') :
    ok s' a := by
  induction first generalizing s with
  | nil =>
      cases reached
      exact meets.1
  | cons b rest ih =>
      obtain ⟨next, taken, later⟩ := run_cons_eq_some.mp reached
      exact ih (meets.2 next taken) later

/-- A predicate holds in every state that a run passes through. -/
def Throughout (step : Step σ α) (good : σ → Prop) : σ → List α → Prop
  | s, [] => good s
  | s, a :: rest => good s ∧ ∀ next, step s a = some next → Throughout step good next rest

/-- A run of two parts goes on where its first part ends. -/
theorem run_append (s : σ) (first second : List α) :
    run step s (first ++ second) = (run step s first).bind fun next => run step next second := by
  induction first generalizing s with
  | nil => rfl
  | cons a rest ih =>
      rw [List.cons_append, run_cons, run_cons, Option.bind_assoc]
      exact Option.bind_congr fun next _ => ih next

theorem Throughout.head {good : σ → Prop} {s : σ} {as : List α}
    (always : Throughout step good s as) : good s := by
  cases as with
  | nil => exact always
  | cons a rest => exact always.1

/-- What holds throughout a run holds in the state after each initial part of it. -/
theorem Throughout.after {good : σ → Prop} {s s' : σ} {first second : List α}
    (always : Throughout step good s (first ++ second))
    (reached : run step s first = some s') : good s' := by
  induction first generalizing s with
  | nil =>
      cases reached
      exact always.head
  | cons a rest ih =>
      obtain ⟨next, taken, later⟩ := run_cons_eq_some.mp reached
      exact ih (always.2 next taken) later

/-- What holds throughout both parts of a run holds throughout it. -/
theorem Throughout.append {good : σ → Prop} {s : σ} {first second : List α}
    (before : Throughout step good s first)
    (after : ∀ s', run step s first = some s' → Throughout step good s' second) :
    Throughout step good s (first ++ second) := by
  induction first generalizing s with
  | nil => exact after s rfl
  | cons a rest ih =>
      refine ⟨before.1, fun next taken => ih (before.2 next taken) fun s' later => ?_⟩
      exact after s' (run_cons_eq_some.mpr ⟨next, taken, later⟩)

/-- The run rule for every state that a run passes through. -/
theorem Meets.throughout {inv good : σ → Prop}
    (keeps : ∀ {s a s'}, inv s → ok s a → step s a = some s' → inv s')
    (good_of_inv : ∀ {s}, inv s → good s) {s : σ} {as : List α} (start : inv s)
    (meets : Meets step ok s as) : Throughout step good s as := by
  induction as generalizing s with
  | nil => exact good_of_inv start
  | cons a rest ih =>
      refine ⟨good_of_inv start, fun next taken => ?_⟩
      exact ih (keeps start meets.1 taken) (meets.2 next taken)

/-- The run rule for every state, without a condition. -/
theorem throughout_always {inv good : σ → Prop}
    (keeps : ∀ {s a s'}, inv s → step s a = some s' → inv s')
    (good_of_inv : ∀ {s}, inv s → good s) {s : σ} {as : List α} (start : inv s) :
    Throughout step good s as := by
  induction as generalizing s with
  | nil => exact good_of_inv start
  | cons a rest ih => exact ⟨good_of_inv start, fun next taken => ih (keeps start taken)⟩

/-- **The exact rule for every state of a run.** Let the condition say exactly that the next
state is good, in states that keep an invariant. Then a run from such a state is good
throughout exactly when it is inside the condition. -/
theorem throughout_iff {inv good : σ → Prop}
    (agree : ∀ {s a}, inv s → (ok s a ↔ ∀ next, step s a = some next → good next))
    (keeps : ∀ {s a s'}, inv s → ok s a → step s a = some s' → inv s')
    (good_of_inv : ∀ {s}, inv s → good s) {s : σ} {as : List α} (start : inv s) :
    Throughout step good s as ↔ Meets step ok s as := by
  refine ⟨fun always => ?_, Meets.throughout keeps good_of_inv start⟩
  induction as generalizing s with
  | nil => trivial
  | cons a rest ih =>
      have met : ok s a := (agree start).mpr fun next taken => (always.2 next taken).head
      exact ⟨met, fun next taken => ih (keeps start met taken) (always.2 next taken)⟩

/-- **The view rule.** Let the steps of one system, seen through a map, be steps of another that
are granted, in states that meet a condition. Then a run inside the condition is a run of the
other system when all its steps are granted, and comes to an end when one is not. -/
theorem run_map {τ : Type u} {β : Type v} {view : σ → τ} {act : α → β} {step' : Step τ β}
    {granted : α → Bool}
    (follows : ∀ {s a}, ok s a →
      step' (view s) (act a) = if granted a then (step s a).map view else none) {s : σ}
    {as : List α} (meets : Meets step ok s as) :
    run step' (view s) (as.map act) =
      if as.all granted then (run step s as).map view else none := by
  induction as generalizing s with
  | nil => rfl
  | cons a rest ih =>
      rw [List.map_cons, run_cons, run_cons, follows meets.1, List.all_cons]
      cases granted a with
      | false => rfl
      | true =>
          have later : ∀ next, step s a = some next → run step' (view next) (rest.map act) =
              if rest.all granted then (run step next rest).map view else none :=
            fun next taken => ih (meets.2 next taken)
          rw [Bool.true_and, if_pos rfl, Option.bind_map, Option.map_bind]
          cases taken : step s a with
          | none => simp
          | some next => exact later next taken

end Transition
