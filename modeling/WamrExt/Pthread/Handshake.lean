import Mathlib.Data.Finset.Card
import WamrExt.Lib.Transition

/-!
# The exit and join handshake

A thread info carries a lock, a condition variable and one counter, `waitCount`. An app
thread passes its exit section before it ends. Joiners count themselves in, wait, and count
themselves out, and the last one out joins the host thread while it holds the lock. The
wait has no predicate, so a joiner may wake up before it is notified.

The state is that of one app thread and its joiners, each section under the lock being one
step. The section of a joiner that calls `join` lasts until the thread has ended, and the
lock is held that long.

**Result.** A run is safe exactly when it is orderly (`handshake_safe_iff`): no joiner that
is alone wakes up before it is notified, and no joiner comes between the exit section and
the end of the join. Orderly runs pass through four stages, which are the abstract protocol
(`Stage`).
-/

set_option autoImplicit false

namespace WamrExt
namespace Pthread

open Transition

/-- Where an app thread is: before its exit section, between the section and its end, and
after its end. -/
inductive ThreadPhase where
  | running
  | exited
  | terminated
  deriving DecidableEq, Repr

/-- `exitCtrl` of a thread info, with its thread and its joiners. The lock is held across
steps by a joiner inside `join` only. The last four fields count what has happened, and no
step reads them: calls of `join` and `detach`, calls of `join` before the exit section, and
waits that began after it. -/
structure ExitCtrl (ι : Type*) where
  phase : ThreadPhase := .running
  waitCount : ℤ := 0
  waiting : Finset ι := ∅
  notified : Finset ι := ∅
  joining : Option ι := none
  joinCalls : ℕ := 0
  detachCalls : ℕ := 0
  earlyJoins : ℕ := 0
  lateWaits : ℕ := 0
  deriving DecidableEq

/-- The sections of the handshake. -/
inductive ExitStep (ι : Type*) where
  /-- `DoHostThreadJoin` up to its wait, or to its end if the thread is gone. -/
  | enter (joiner : ι)
  /-- A joiner wakes up, notified or not, and goes on up to its call of `join`. -/
  | wake (joiner : ι)
  /-- `join` returns, and the section of the joiner ends. -/
  | joinReturn
  /-- The exit section of the thread. -/
  | exitSection
  /-- The thread ends. -/
  | threadEnd
  deriving DecidableEq

variable {ι : Type*} [DecidableEq ι]

namespace ExitCtrl

/-- The joiner is inside its call. -/
def Inside (s : ExitCtrl ι) (joiner : ι) : Prop :=
  joiner ∈ s.waiting ∨ joiner ∈ s.notified ∨ s.joining = some joiner

instance (s : ExitCtrl ι) (joiner : ι) : Decidable (s.Inside joiner) :=
  inferInstanceAs (Decidable (_ ∨ _))

/-- A joiner takes the lock. It finds the thread gone, or it counts itself in and waits. -/
def enter (s : ExitCtrl ι) (joiner : ι) : ExitCtrl ι :=
  if s.waitCount < 0 then s
  else
    { s with
      waitCount := s.waitCount + 1
      waiting := insert joiner s.waiting
      lateWaits := s.lateWaits + if s.phase = .running then 0 else 1 }

/-- A joiner has the lock back. It counts itself out, and the last one calls `join`. -/
def wake (s : ExitCtrl ι) (joiner : ι) : ExitCtrl ι :=
  let out := { s with
    waitCount := s.waitCount - 1
    waiting := s.waiting.erase joiner
    notified := s.notified.erase joiner }
  if out.waitCount = 0 then
    { out with
      joining := some joiner
      joinCalls := s.joinCalls + 1
      earlyJoins := s.earlyJoins + if s.phase = .running then 1 else 0 }
  else out

/-- The exit section: detach if nobody waits, else notify all. -/
def exitSection (s : ExitCtrl ι) : ExitCtrl ι :=
  if s.waitCount = 0 then
    { s with phase := .exited, detachCalls := s.detachCalls + 1, waitCount := -1 }
  else
    { s with phase := .exited, waiting := ∅, notified := s.notified ∪ s.waiting }

end ExitCtrl

/-- One section of the handshake, when it can run. -/
def exitStep : Step (ExitCtrl ι) (ExitStep ι)
  | s, .enter joiner =>
      if s.joining = none ∧ ¬ s.Inside joiner then some (s.enter joiner) else none
  | s, .wake joiner =>
      if s.joining = none ∧ (joiner ∈ s.waiting ∨ joiner ∈ s.notified) then
        some (s.wake joiner)
      else none
  | s, .joinReturn =>
      if s.joining.isSome ∧ s.phase = .terminated then
        some { s with joining := none, waitCount := -1 }
      else none
  | s, .exitSection =>
      if s.joining = none ∧ s.phase = .running then some s.exitSection else none
  | s, .threadEnd =>
      if s.phase = .exited then some { s with phase := .terminated } else none

/-- Nobody is inside the handshake any more. -/
def ExitCtrl.Settled (s : ExitCtrl ι) : Prop :=
  s.phase = .terminated ∧ s.waiting = ∅ ∧ s.notified = ∅ ∧ s.joining = none

instance (s : ExitCtrl ι) : Decidable s.Settled :=
  inferInstanceAs (Decidable (_ ∧ _))

/-- The safety of the handshake: no call of `join` before the exit section, no wait begun
after it, and the thread joined or detached once at most, and once when all is settled. -/
def ExitCtrl.Safe (s : ExitCtrl ι) : Prop :=
  s.earlyJoins = 0 ∧ s.lateWaits = 0 ∧ s.joinCalls + s.detachCalls ≤ 1 ∧
    (s.Settled → s.joinCalls + s.detachCalls = 1)

instance (s : ExitCtrl ι) : Decidable s.Safe :=
  inferInstanceAs (Decidable (_ ∧ _))

/-- An orderly step. The only counted joiner does not wake up by itself before the exit
section, and no joiner comes after the section while `waitCount` does not say so. -/
def Orderly (s : ExitCtrl ι) : ExitStep ι → Prop
  | .wake _ => s.phase = .running → s.waitCount ≠ 1
  | .enter _ => s.phase ≠ .running → s.waitCount < 0
  | _ => True

/-! ## The stages of an orderly run -/

section Stages

omit [DecidableEq ι]

/-- The abstract protocol. While the thread runs, joiners come and wait. After the exit
section the notified joiners drain. The last one joins. Then the host thread is released. -/
inductive Stage (s : ExitCtrl ι) : Prop where
  | counting (running : s.phase = .running) (free : s.joining = none)
      (notified : s.notified = ∅) (counted : s.waitCount = s.waiting.card)
      (uses : s.joinCalls + s.detachCalls = 0)
  | draining (gone : s.phase ≠ .running) (free : s.joining = none)
      (waiting : s.waiting = ∅) (left : s.notified.Nonempty)
      (counted : s.waitCount = s.notified.card) (uses : s.joinCalls + s.detachCalls = 0)
  | joining (gone : s.phase ≠ .running) (held : s.joining.isSome)
      (waiting : s.waiting = ∅) (notified : s.notified = ∅)
      (uses : s.joinCalls + s.detachCalls = 1)
  | released (gone : s.phase ≠ .running) (free : s.joining = none)
      (waiting : s.waiting = ∅) (notified : s.notified = ∅) (counted : s.waitCount = -1)
      (uses : s.joinCalls + s.detachCalls = 1)

/-- The invariant of orderly runs. -/
structure InStage (s : ExitCtrl ι) : Prop where
  stage : Stage s
  early : s.earlyJoins = 0
  late : s.lateWaits = 0

/-- Something has gone wrong. -/
def Damaged (s : ExitCtrl ι) : Prop := s.earlyJoins ≠ 0 ∨ s.lateWaits ≠ 0

theorem inStage_initial : InStage ({} : ExitCtrl ι) :=
  ⟨.counting rfl rfl rfl rfl rfl, rfl, rfl⟩

/-- In every stage the handshake is safe. -/
theorem InStage.safe {s : ExitCtrl ι} (inv : InStage s) : s.Safe := by
  refine ⟨inv.early, inv.late, ?_, ?_⟩
  · cases inv.stage <;> omega
  · rintro ⟨ended, _, none_notified, free⟩
    cases inv.stage with
    | counting running =>
        rw [ended] at running
        cases running
    | draining _ _ _ left =>
        rw [none_notified] at left
        exact absurd left Finset.not_nonempty_empty
    | joining _ held =>
        rw [free] at held
        cases held
    | released _ _ _ _ _ uses => exact uses

theorem Damaged.not_safe {s : ExitCtrl ι} (damaged : Damaged s) : ¬ s.Safe := by
  rintro ⟨early, late, _⟩
  exact damaged.elim (fun bad => bad early) (fun bad => bad late)

end Stages

/-! ## What each section does to the stage -/

section Sections

variable {s : ExitCtrl ι}

/-- A joiner that comes while the thread runs waits, and one that comes after the release
finds the thread gone. -/
theorem InStage.enter (inv : InStage s) {joiner : ι} (outside : ¬ s.Inside joiner)
    (orderly : Orderly s (.enter joiner)) : InStage (s.enter joiner) := by
  have fresh : joiner ∉ s.waiting := fun waits => outside (Or.inl waits)
  by_cases gone : s.waitCount < 0
  · rw [ExitCtrl.enter, if_pos gone]
    exact inv
  · have running : s.phase = .running := by
      by_contra notRunning
      exact gone (orderly notRunning)
    rw [ExitCtrl.enter, if_neg gone]
    cases inv.stage with
    | counting _ free notified counted uses =>
        refine ⟨.counting running free notified ?_ uses, inv.early, ?_⟩
        · simp only [Finset.card_insert_of_notMem fresh, counted]
          push_cast
          rfl
        · simp [running, inv.late]
    | draining notRunning => exact absurd running notRunning
    | joining notRunning => exact absurd running notRunning
    | released notRunning => exact absurd running notRunning

/-- A joiner that wakes up leaves while others are counted, and joins if it is the last of
the notified ones. -/
theorem InStage.wake (inv : InStage s) {joiner : ι} (free : s.joining = none)
    (sleeps : joiner ∈ s.waiting ∨ joiner ∈ s.notified)
    (orderly : Orderly s (.wake joiner)) : InStage (s.wake joiner) := by
  cases inv.stage with
  | counting running _ notified counted uses =>
      have waits : joiner ∈ s.waiting := by
        simpa [notified] using sleeps
      have positive := Finset.card_pos.mpr ⟨joiner, waits⟩
      have others : s.waitCount - 1 ≠ 0 := fun last => orderly running (by omega)
      have card := Finset.card_erase_of_mem waits
      simp only [ExitCtrl.wake, others, if_false]
      refine ⟨.counting running free ?_ ?_ uses, inv.early, inv.late⟩
      · simp [notified]
      · simp only [card, counted]
        omega
  | draining gone _ waiting _ counted uses =>
      have told : joiner ∈ s.notified := by
        simpa [waiting] using sleeps
      have card := Finset.card_erase_of_mem told
      have positive := Finset.card_pos.mpr ⟨joiner, told⟩
      by_cases last : s.waitCount - 1 = 0
      · have nobody : s.notified.erase joiner = ∅ := by
          rw [← Finset.card_eq_zero]
          omega
        simp only [ExitCtrl.wake, last, if_true, nobody]
        refine ⟨.joining gone rfl ?_ rfl ?_, ?_, inv.late⟩
        · simp [waiting]
        · simp only
          omega
        · simp [gone, inv.early]
      · simp only [ExitCtrl.wake, last, if_false]
        refine ⟨.draining gone free ?_ ?_ ?_ uses, inv.early, inv.late⟩
        · simp [waiting]
        · rw [← Finset.card_pos]
          simp only [card]
          omega
        · simp only [card, counted]
          omega
  | joining _ held =>
      rw [free] at held
      cases held
  | released _ _ waiting notified =>
      rw [waiting, notified] at sleeps
      simp at sleeps

omit [DecidableEq ι] in
/-- The end of the join releases the thread. -/
theorem InStage.joinReturn (inv : InStage s) (held : s.joining.isSome) :
    InStage { s with joining := none, waitCount := -1 } := by
  cases inv.stage with
  | joining gone _ waiting notified uses =>
      exact ⟨.released gone rfl waiting notified rfl uses, inv.early, inv.late⟩
  | counting _ free =>
      rw [free] at held
      cases held
  | draining _ free =>
      rw [free] at held
      cases held
  | released _ free =>
      rw [free] at held
      cases held

/-- The exit section releases the thread if nobody is counted, and starts the drain if
somebody is. -/
theorem InStage.exitSection (inv : InStage s) (running : s.phase = .running) :
    InStage s.exitSection := by
  cases inv.stage with
  | counting _ free notified counted uses =>
      by_cases nobody : s.waitCount = 0
      · have empty : s.waiting = ∅ := by
          rw [← Finset.card_eq_zero]
          omega
        simp only [ExitCtrl.exitSection, nobody, if_true]
        exact ⟨.released (by simp) free empty notified rfl (by simp only; omega), inv.early,
          inv.late⟩
      · have some : s.waiting.Nonempty := by
          rw [← Finset.card_pos]
          omega
        simp only [ExitCtrl.exitSection, nobody, if_false]
        refine ⟨.draining (by simp) free rfl ?_ ?_ uses, inv.early, inv.late⟩
        · simpa [notified] using some
        · simp [notified, counted]
  | draining gone => exact absurd running gone
  | joining gone => exact absurd running gone
  | released gone => exact absurd running gone

omit [DecidableEq ι] in
theorem InStage.threadEnd (inv : InStage s) (gone : s.phase = .exited) :
    InStage { s with phase := .terminated } := by
  have stage := inv.stage
  refine ⟨?_, inv.early, inv.late⟩
  cases stage with
  | counting running =>
      rw [gone] at running
      cases running
  | draining _ free waiting left counted uses =>
      exact .draining (by simp) free waiting left counted uses
  | joining _ held waiting notified uses =>
      exact .joining (by simp) held waiting notified uses
  | released _ free waiting notified counted uses =>
      exact .released (by simp) free waiting notified counted uses

/-- An orderly section takes a stage to a stage. -/
theorem InStage.step {s' : ExitCtrl ι} {a : ExitStep ι} (inv : InStage s)
    (orderly : Orderly s a) (taken : exitStep s a = some s') : InStage s' := by
  cases a with
  | enter joiner =>
      obtain ⟨⟨_, outside⟩, rfl⟩ := guarded_eq_some.mp taken
      exact inv.enter outside orderly
  | wake joiner =>
      obtain ⟨⟨free, sleeps⟩, rfl⟩ := guarded_eq_some.mp taken
      exact inv.wake free sleeps orderly
  | joinReturn =>
      obtain ⟨⟨held, _⟩, rfl⟩ := guarded_eq_some.mp taken
      exact inv.joinReturn held
  | exitSection =>
      obtain ⟨⟨_, running⟩, rfl⟩ := guarded_eq_some.mp taken
      exact inv.exitSection running
  | threadEnd =>
      obtain ⟨gone, rfl⟩ := guarded_eq_some.mp taken
      exact inv.threadEnd gone

/-- A section that is not orderly does damage. -/
theorem damaged_of_not_orderly {s' : ExitCtrl ι} {a : ExitStep ι} (not : ¬ Orderly s a)
    (taken : exitStep s a = some s') : Damaged s' := by
  cases a with
  | enter joiner =>
      obtain ⟨_, rfl⟩ := guarded_eq_some.mp taken
      simp only [Orderly, Classical.not_imp, not_lt] at not
      obtain ⟨gone, counted⟩ := not
      right
      simp [ExitCtrl.enter, Int.not_lt.mpr counted, gone]
  | wake joiner =>
      obtain ⟨_, rfl⟩ := guarded_eq_some.mp taken
      simp only [Orderly, Classical.not_imp, not_not] at not
      obtain ⟨running, alone⟩ := not
      left
      simp [ExitCtrl.wake, alone, running]
  | joinReturn => exact absurd trivial not
  | exitSection => exact absurd trivial not
  | threadEnd => exact absurd trivial not

/-- No section takes the damage back. -/
theorem Damaged.lasts {s' : ExitCtrl ι} {a : ExitStep ι} (damaged : Damaged s)
    (taken : exitStep s a = some s') : Damaged s' := by
  have grows : s.earlyJoins ≤ s'.earlyJoins ∧ s.lateWaits ≤ s'.lateWaits := by
    cases a with
    | enter joiner =>
        obtain ⟨_, rfl⟩ := guarded_eq_some.mp taken
        rw [ExitCtrl.enter]
        split
        · exact ⟨le_rfl, le_rfl⟩
        · exact ⟨le_rfl, Nat.le_add_right _ _⟩
    | wake joiner =>
        obtain ⟨_, rfl⟩ := guarded_eq_some.mp taken
        rw [ExitCtrl.wake]
        split
        · exact ⟨Nat.le_add_right _ _, le_rfl⟩
        · exact ⟨le_rfl, le_rfl⟩
    | joinReturn =>
        obtain ⟨_, rfl⟩ := guarded_eq_some.mp taken
        exact ⟨le_rfl, le_rfl⟩
    | exitSection =>
        obtain ⟨_, rfl⟩ := guarded_eq_some.mp taken
        rw [ExitCtrl.exitSection]
        split <;> exact ⟨le_rfl, le_rfl⟩
    | threadEnd =>
        obtain ⟨_, rfl⟩ := guarded_eq_some.mp taken
        exact ⟨le_rfl, le_rfl⟩
  unfold Damaged at damaged ⊢
  omega

end Sections

/-- **When the handshake is safe.** A run of the thread and its joiners is safe exactly when
it is orderly. -/
theorem handshake_safe_iff {s : ExitCtrl ι} {steps : List (ExitStep ι)}
    (reached : run exitStep {} steps = some s) :
    s.Safe ↔ Meets exitStep Orderly {} steps :=
  run_safe_iff InStage.step (fun _ => damaged_of_not_orderly) Damaged.lasts InStage.safe
    Damaged.not_safe inStage_initial reached

/-- Two joiners wait, the thread exits, and the second of them joins it. -/
theorem two_joiners_safe :
    ({ phase := .terminated, waitCount := -1, joinCalls := 1 } : ExitCtrl ℕ).Safe ↔
      Meets exitStep Orderly ({} : ExitCtrl ℕ)
        [.enter 0, .enter 1, .exitSection, .wake 0, .wake 1, .threadEnd, .joinReturn] :=
  handshake_safe_iff (by decide)

/-- A joiner wakes up by itself, and calls `join` while the thread still needs the lock. -/
theorem spurious_wake_unsafe :
    ∃ s, run exitStep ({} : ExitCtrl ℕ) [.enter 0, .wake 0] = some s ∧ ¬ s.Safe ∧
      exitStep s .exitSection = none ∧ exitStep s .joinReturn = none := by
  refine ⟨_, rfl, ?_, ?_, ?_⟩ <;> decide

end Pthread
end WamrExt
