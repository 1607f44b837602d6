import WamrExt.Pthread.ManagerRuns

/-!
# Threads that have finished

An app thread that nobody joins detaches itself in its exit section. Its thread info stays in
the thread map, and with it the sub-instance and the exec env, which the deleter in the thread
info would destroy. Only the end of a join takes an entry out of the map, and the cleanup loop
is the only one that joins.

So until the instance is destroyed the thread map has one entry for each thread that was ever
started (`EntriesStay`), and it is free of finished threads exactly when no thread has finished
(`finished_threads_reclaimed_iff`).
-/

set_option autoImplicit false

namespace WamrExt
namespace Pthread

open Transition

namespace System

/-- The instance is started, and nobody destroys it yet. -/
def Started (s : System) : Prop := s.main = .host ∨ s.main = .guest

/-- An app thread has ended. -/
def Finished (s : System) (n : ℕ) : Prop :=
  (s.threads n).map ExitCtrl.phase = some .terminated

/-- No app thread is between its exit section and its end. -/
def Quiet (s : System) : Prop :=
  ∀ n, (s.threads n).map ExitCtrl.phase ≠ some .exited

/-- The app threads that are still running. -/
def runningThreads (s : System) : Finset ℕ :=
  (Finset.range s.manager.unusedEnv).filter fun n =>
    (s.threads n).map ExitCtrl.phase = some .running

/-- The app threads that were ever started. -/
def startedSoFar (s : System) : Finset ℕ :=
  (Finset.range s.manager.unusedEnv).filter fun n => (s.threads n).isSome

instance (s : System) (n : ℕ) : Decidable (s.Finished n) :=
  inferInstanceAs (Decidable (_ = _))

instance (s : System) : Decidable s.Started :=
  inferInstanceAs (Decidable (_ ∨ _))

end System

/-- The threads that have finished are reclaimed: the thread map has no entry for any of them,
so it has no more entries than there are running threads and the main thread, and nothing keeps
the sub-instance and the exec env of such a thread. -/
structure Reclaimed (s : System) : Prop where
  entries : ∀ handleID threadInfo, s.manager.getThreadInfo handleID = some threadInfo →
    ¬ s.Finished threadInfo.pExecEnv
  size : s.manager.threadMap.entries.length ≤ 1 + s.runningThreads.card
  released : ∀ n, s.Finished n → s.manager.holds n = false

/-- A spawn does not fail after it has made its thread info. -/
def NoLateSpawn (_ : System) : SystemStep → Prop
  | .spawn _ answers _ => ¬ answers.FailsLate
  | _ => True

instance (s : System) : ∀ a, Decidable (NoLateSpawn s a)
  | .spawn .. => inferInstanceAs (Decidable (¬ _))
  | .guestEnter | .guestReturn | .exitSection _ | .threadEnd _ | .destroyBegin _ | .snapshot
  | .joinEnter | .joinWake | .joinReturn | .eraseEntry | .joinsDone | .dtorsReturn
  | .closed => isTrue trivial

/-! ## Entries stay -/

/-- Every thread that was ever started has its entry, and there are no others but that of the
main thread. -/
structure EntriesStay (pMainExecEnv : ℕ) (s : System) : Prop where
  kept : Kept pMainExecEnv s
  main : HasMain pMainExecEnv s.manager
  held : ∀ n, (s.threads n).isSome → ∃ handleID threadInfo,
    s.manager.getThreadInfo handleID = some threadInfo ∧ threadInfo.pExecEnv = n
  size : s.manager.threadMap.entries.length = 1 + s.startedSoFar.card

section Steps

variable {pMainExecEnv : ℕ} {s s' : System} {a : SystemStep}

/-- An instance that is started has been started before. -/
theorem started_of_step (taken : systemStep s a = some s') (started : s'.Started) :
    s.Started := by
  cases systemStep_cases taken with
  | guestEnter point | destroyBegin point => exact .inl point
  | guestReturn point => exact .inr point
  | spawn _ spawned =>
      obtain ⟨outcome, _, rfl⟩ := Option.map_eq_some_iff.mp spawned
      exact started
  | exitSection _ _ | threadEnd _ _ => exact started
  | snapshot _ =>
      simp only [System.Started] at started
      split at started
      · split at started <;> simp at started
      · simp at started
  | joinEnter _ _ _ | joinWake _ _ _ =>
      simp only [System.Started, System.afterSection] at started
      split at started <;> simp at started
  | joinReturn _ _ _ | eraseEntry _ | joinsDone _ | dtorsReturn _ | closed _ =>
      simp [System.Started, System.afterSection] at started

/-- Before the instance is destroyed, no destructor spawns a thread. -/
theorem NoLateSpawn.plain (noLate : NoLateSpawn s a) (started : s.Started) :
    PlainSpawns s a := by
  cases a with
  | spawn thread answers appArg =>
      refine ⟨noLate, fun _ => ?_⟩
      rintro ⟨_, dtors⟩
      rw [System.Started, dtors] at started
      simp at started
  | _ => trivial

/-- The steps that start nothing and take nothing out of the map. -/
theorem EntriesStay.same (stay : EntriesStay pMainExecEnv s) (kept : Kept pMainExecEnv s')
    (map : s'.manager.threadMap = s.manager.threadMap)
    (threads : ∀ n, (s'.threads n).isSome ↔ (s.threads n).isSome)
    (unused : s.manager.unusedEnv ≤ s'.manager.unusedEnv) :
    EntriesStay pMainExecEnv s' := by
  have lookup : ∀ handleID, s'.manager.getThreadInfo handleID =
      s.manager.getThreadInfo handleID := fun handleID => by
    rw [InstancePthreadManager.getThreadInfo, map, InstancePthreadManager.getThreadInfo]
  have sameStarted : s'.startedSoFar = s.startedSoFar := by
    ext n
    simp only [System.startedSoFar, Finset.mem_filter, Finset.mem_range, threads]
    apply and_congr_left
    intro some
    have below := stay.kept.registered.named n some
    omega
  refine ⟨kept, ?_, fun n thread => ?_, ?_⟩
  · exact (lookup mainThreadId).trans stay.main
  · obtain ⟨handleID, threadInfo, stored, own⟩ := stay.held n ((threads n).mp thread)
    exact ⟨handleID, threadInfo, (lookup handleID).trans stored, own⟩
  · rw [map, sameStarted]
    exact stay.size

/-- A new thread gets a new entry. -/
theorem EntriesStay.started (stay : EntriesStay pMainExecEnv s) {answers : ThreadSpawnAnswers}
    {appArg : UInt32} {given : UInt32 × UInt32}
    (found : HandleTable.allot (· + 1) s.manager.threadMap s.manager.curHandleId = some given)
    (kept : Kept pMainExecEnv (s.started answers appArg given))
    (main : HasMain pMainExecEnv (s.started answers appArg given).manager) :
    EntriesStay pMainExecEnv (s.started answers appArg given) := by
  have new : s.manager.unusedEnv ∉ s.startedSoFar := by
    simp [System.startedSoFar]
  have oneMore : (s.started answers appArg given).startedSoFar =
      insert s.manager.unusedEnv s.startedSoFar := by
    ext n
    by_cases own : n = s.manager.unusedEnv
    · subst own
      simp only [System.startedSoFar, Finset.mem_filter, Finset.mem_range,
        System.started_threads_self, Option.isSome_some, and_true, Finset.mem_insert, true_or,
        iff_true]
      exact Nat.lt_succ_self _
    · simp only [System.startedSoFar, Finset.mem_filter, Finset.mem_range, Finset.mem_insert,
        System.started_threads_ne own, own, false_or]
      apply and_congr_left
      intro some
      have below := stay.kept.registered.named n some
      exact ⟨fun _ => below, Nat.lt_succ_of_lt⟩
  refine ⟨kept, main, fun n thread => ?_, ?_⟩
  · by_cases own : n = s.manager.unusedEnv
    · exact ⟨given.1, _, System.started_getThreadInfo.mpr (.inl ⟨rfl, rfl⟩), own.symm⟩
    · rw [System.started_threads_ne own] at thread
      obtain ⟨handleID, threadInfo, stored, its⟩ := stay.held n thread
      exact ⟨handleID, threadInfo, System.started_keeps found stored, its⟩
  · rw [oneMore, Finset.card_insert_of_notMem new]
    change (s.manager.threadMap.insert given.1 _).entries.length = _
    rw [AList.entries_insert_of_notMem (HandleTable.allot_free found), List.length_cons,
      stay.size, Nat.add_assoc]

/-- **Entries stay** over every step before the instance is destroyed, when no spawn fails
late. -/
theorem EntriesStay.step (stay : EntriesStay pMainExecEnv s) (noLate : NoLateSpawn s a)
    (started : s.Started) (taken : systemStep s a = some s') (still : s'.Started) :
    EntriesStay pMainExecEnv s' := by
  have plain := noLate.plain started
  have kept := stay.kept.step (plain.inTime stay.main) taken
  have main := stay.kept.hasMain_step stay.main plain taken
  cases systemStep_cases taken with
  | guestEnter _ | guestReturn _ => exact stay.same kept rfl (fun _ => Iff.rfl) le_rfl
  | spawn _ spawned =>
      obtain rfl | rfl | ⟨_, given, found, rfl⟩ := spawn_cases spawned
      · exact stay.same kept rfl (fun _ => Iff.rfl) (Nat.le_succ _)
      · -- a late failure, which would have taken the main thread out of the map
        rw [HasMain, InstancePthreadManager.getThreadInfo_erase_self] at main
        cases main
      · exact stay.started found kept main
  | exitSection found _ | threadEnd found _ =>
      exact stay.same kept rfl (System.afterSection_isSome found) le_rfl
  | destroyBegin _ => simp [System.Started] at still
  | snapshot point | joinEnter point _ _ | joinWake point _ _ | joinReturn point _ _
  | eraseEntry point | joinsDone point | dtorsReturn point | closed point =>
      -- the main thread is outside of the cleanup
      simp [System.Started, point] at started

/-- Which threads have finished after a step. -/
theorem finished_step (stay : EntriesStay pMainExecEnv s) (started : s.Started)
    (taken : systemStep s a = some s') (n : ℕ) :
    s'.Finished n ↔ s.Finished n ∨ a = .threadEnd n := by
  cases systemStep_cases taken with
  | guestEnter _ | guestReturn _ | destroyBegin _ => simp [System.Finished]
  | spawn _ spawned =>
      obtain rfl | rfl | ⟨_, given, found, rfl⟩ := spawn_cases spawned
      · simp [System.Finished]
      · simp [System.Finished]
      · by_cases own : n = s.manager.unusedEnv
        · subst own
          have unused : s.threads s.manager.unusedEnv = none := by
            by_contra used
            have below := stay.kept.registered.named _ (Option.ne_none_iff_isSome.mp used)
            exact absurd below (lt_irrefl _)
          simp [System.Finished, System.started_threads_self, unused]
        · simp [System.Finished, System.started_threads_ne own]
  | @exitSection thread exitCtrl next found passed =>
      obtain ⟨⟨_, running⟩, rfl⟩ := guarded_eq_some.mp passed
      have phase : exitCtrl.exitSection.phase = .exited := by
        rw [ExitCtrl.exitSection]
        split <;> rfl
      by_cases own : n = thread
      · subst own
        simp [System.Finished, System.afterSection, found, running, phase]
      · simp [System.Finished, System.afterSection, own]
  | @threadEnd thread exitCtrl next found passed =>
      obtain ⟨_, rfl⟩ := guarded_eq_some.mp passed
      by_cases own : n = thread
      · subst own
        simp [System.Finished, System.afterSection]
      · simp [System.Finished, System.afterSection, own, Ne.symm own]
  | snapshot point | joinEnter point _ _ | joinWake point _ _ | joinReturn point _ _
  | eraseEntry point | joinsDone point | dtorsReturn point | closed point =>
      simp [System.Started, point] at started

/-- An instance that is started at the end of a run was started all along. -/
theorem started_of_run {steps : List SystemStep} (reached : run systemStep s steps = some s')
    (started : s'.Started) : s.Started := by
  induction steps generalizing s with
  | nil =>
      cases reached
      exact started
  | cons a rest ih =>
      obtain ⟨next, taken, later⟩ := run_cons_eq_some.mp reached
      exact started_of_step taken (ih later)

/-- Over a run before the instance is destroyed, entries stay, and the threads that have
finished are those that came to their end. -/
theorem EntriesStay.run (stay : EntriesStay pMainExecEnv s) {steps : List SystemStep}
    (noLate : Meets systemStep NoLateSpawn s steps) (reached : run systemStep s steps = some s')
    (started : s'.Started) :
    EntriesStay pMainExecEnv s' ∧
      ∀ n, s'.Finished n ↔ s.Finished n ∨ SystemStep.threadEnd n ∈ steps := by
  induction steps generalizing s with
  | nil =>
      cases reached
      exact ⟨stay, by simp⟩
  | cons a rest ih =>
      have before := started_of_run reached started
      obtain ⟨next, taken, later⟩ := run_cons_eq_some.mp reached
      have between := started_of_run later started
      obtain ⟨stays, finished⟩ :=
        ih (stay.step noLate.1 before taken between) (noLate.2 next taken) later
      refine ⟨stays, fun n => ?_⟩
      rw [finished, finished_step stay before taken, List.mem_cons, or_assoc,
        @eq_comm _ a]

end Steps

section Runs

variable {pMainExecEnv : ℕ} {s : System}

theorem entriesStay_start (pMainExecEnv : ℕ) :
    EntriesStay pMainExecEnv (systemStart pMainExecEnv) where
  kept := kept_start pMainExecEnv
  main := hasMain_init pMainExecEnv
  held := nofun
  size := by
    have none : (systemStart pMainExecEnv).startedSoFar = ∅ := by
      simp [System.startedSoFar, systemStart]
    rw [none]
    rfl

/-- The instance is started, and no thread with a name in use is between its exit section and
its end. -/
def QuietBelow (s : System) : Prop :=
  s.Started ∧ ∀ n < s.manager.unusedEnv, (s.threads n).map ExitCtrl.phase ≠ some .exited

instance (s : System) : Decidable (QuietBelow s) := inferInstanceAs (Decidable (_ ∧ _))

/-- Threads have names below the first one that is unused. -/
theorem EntriesStay.quiet (stay : EntriesStay pMainExecEnv s)
    (below : QuietBelow s) : s.Quiet := by
  intro n exited
  obtain ⟨exitCtrl, found, _⟩ := Option.map_eq_some_iff.mp exited
  exact below.2 n (stay.kept.registered.named n (Option.isSome_of_eq_some found)) exited

/-- A thread that has finished is not reclaimed. -/
theorem EntriesStay.not_reclaimed (stay : EntriesStay pMainExecEnv s) {n : ℕ}
    (finished : s.Finished n) : ¬ Reclaimed s := by
  intro reclaimed
  have thread : (s.threads n).isSome := by
    obtain ⟨_, found, _⟩ := Option.map_eq_some_iff.mp finished
    exact Option.isSome_of_eq_some found
  obtain ⟨handleID, threadInfo, stored, rfl⟩ := stay.held n thread
  exact reclaimed.entries handleID threadInfo stored finished

/-- As long as no thread has finished, nothing is to be reclaimed. -/
theorem EntriesStay.reclaimed (stay : EntriesStay pMainExecEnv s) (quiet : s.Quiet)
    (none_finished : ∀ n, ¬ s.Finished n) : Reclaimed s where
  entries _ threadInfo _ := none_finished threadInfo.pExecEnv
  size := by
    rw [stay.size]
    refine Nat.add_le_add_left (Finset.card_le_card fun n started => ?_) 1
    obtain ⟨below, thread⟩ := Finset.mem_filter.mp started
    obtain ⟨exitCtrl, found⟩ := Option.isSome_iff_exists.mp thread
    have notExited := quiet n
    have notFinished := none_finished n
    rw [System.Finished] at notFinished
    simp only [found, Option.map_some, ne_eq, Option.some.injEq] at notExited notFinished
    refine Finset.mem_filter.mpr ⟨below, ?_⟩
    rw [found, Option.map_some, Option.some.injEq]
    cases phase : exitCtrl.phase with
    | running => rfl
    | exited => exact absurd phase notExited
    | terminated => exact absurd phase notFinished
  released n finished := absurd finished (none_finished n)

/-- **When finished threads are reclaimed.** In every run whose spawns do not fail late, as long
as nobody destroys the instance, and with no app thread between its exit section and its end,
the threads that have finished are reclaimed exactly when no thread has come to its end. -/
theorem finished_threads_reclaimed_iff {steps : List SystemStep}
    (noLate : Meets systemStep NoLateSpawn (systemStart pMainExecEnv) steps)
    (reached : run systemStep (systemStart pMainExecEnv) steps = some s)
    (started : s.Started) (quiet : s.Quiet) :
    Reclaimed s ↔ ∀ n, SystemStep.threadEnd n ∉ steps := by
  obtain ⟨stay, finished⟩ := (entriesStay_start pMainExecEnv).run noLate reached started
  have ended : ∀ n, s.Finished n ↔ SystemStep.threadEnd n ∈ steps := fun n => by
    rw [finished n, or_iff_right]
    simp [System.Finished, systemStart]
  constructor
  · intro reclaimed n ends
    exact stay.not_reclaimed ((ended n).mpr ends) reclaimed
  · intro no_end
    exact stay.reclaimed quiet fun n finished => no_end n ((ended n).mp finished)

end Runs

/-- Two threads run, and none has ended. -/
theorem running_threads_reclaimed :
    ∃ s, run systemStep (systemStart 0)
        [.guestEnter, .spawn none guestHeapRoom 7, .spawn (some 1) guestHeapRoom 8] = some s ∧
      (Reclaimed s ↔ ∀ n, SystemStep.threadEnd n ∉
        [.guestEnter, .spawn none guestHeapRoom 7, .spawn (some 1) guestHeapRoom 8]) := by
  have below : (run systemStep (systemStart 0)
      [.guestEnter, .spawn none guestHeapRoom 7, .spawn (some 1) guestHeapRoom 8]).map
        (fun s => decide (QuietBelow s)) = some true := by decide
  obtain ⟨s, reached, quiet⟩ := Option.map_eq_some_iff.mp below
  have quiet := of_decide_eq_true quiet
  obtain ⟨stay, _⟩ := (entriesStay_start 0).run (by decide) reached quiet.1
  exact ⟨s, reached,
    finished_threads_reclaimed_iff (by decide) reached quiet.1 (stay.quiet quiet)⟩

/-- The main thread spawns a thread, which exits and ends. It is not reclaimed. -/
theorem finished_thread_kept :
    ∃ s, run systemStep (systemStart 0)
        [.guestEnter, .spawn none guestHeapRoom 7, .exitSection 1, .threadEnd 1] = some s ∧
      s.Started ∧ s.Quiet ∧ s.Finished 1 ∧ s.manager.holds 1 = true ∧ ¬ Reclaimed s := by
  have below : (run systemStep (systemStart 0)
      [.guestEnter, .spawn none guestHeapRoom 7, .exitSection 1, .threadEnd 1]).map
        (fun s => decide (QuietBelow s ∧ s.Finished 1 ∧ s.manager.holds 1 = true)) =
          some true := by decide
  obtain ⟨s, reached, facts⟩ := Option.map_eq_some_iff.mp below
  obtain ⟨quiet, finished, held⟩ := of_decide_eq_true facts
  obtain ⟨stay, _⟩ := (entriesStay_start 0).run (by decide) reached quiet.1
  exact ⟨s, reached, quiet.1, stay.quiet quiet, finished, held, stay.not_reclaimed finished⟩

end Pthread
end WamrExt
