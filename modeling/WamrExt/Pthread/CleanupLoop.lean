import WamrExt.Pthread.ManagerRuns
import WamrExt.Pthread.ThreadIds

/-!
# When the cleanup loop ends

The cleanup loop ends at the first snapshot without app threads. It is complete when the
thread map then has no entry but that of the main thread, no app thread is in guest code,
and none can be until the main thread spawns one.

A snapshot passes over the handle of the main thread. So an app thread that was given this
handle, after a failed spawn has erased the entry of the main thread and the counter of the
handles has come round, is never joined. When every spawn before the end of the loop passes
the main handle, the loop is complete (`cleanup_loop_complete`). Spawns that do not fail late
do so (`passesMain_of_notLate`).
-/

set_option autoImplicit false

namespace WamrExt
namespace Pthread

open Transition

/-- The main thread is past the cleanup loop. -/
def PastLoop (s : System) : Prop :=
  s.main = .dtors ∨ s.main = .closing ∨ s.main = .teardown

instance (s : System) : Decidable (PastLoop s) :=
  inferInstanceAs (Decidable (_ ∨ _))

/-- The main thread spawns a thread. -/
def SystemStep.SpawnsFromMain : SystemStep → Prop
  | .spawn none _ _ => True
  | _ => False

/-- No app thread is in guest code. -/
def NoneRunning (s : System) : Prop :=
  ∀ n exitCtrl, s.threads n = some exitCtrl → exitCtrl.phase ≠ .running

/-- Nothing is left of the app threads: no entry in the thread map, and no thread that is in
guest code or comes there in whatever the threads do from here on, without the main thread
spawning one. -/
structure NothingLeft (pMainExecEnv : ℕ) (s : System) : Prop where
  entries : ∀ handleID threadInfo, s.manager.getThreadInfo handleID = some threadInfo →
    handleID = mainThreadId ∧ threadInfo = mainThreadInfo pMainExecEnv
  gone : ∀ steps s', (∀ a ∈ steps, ¬ a.SpawnsFromMain) →
    run systemStep s steps = some s' → NoneRunning s'

/-- If the cleanup loop ends with this step, nothing is left. -/
def EndsComplete (pMainExecEnv : ℕ) (s : System) (a : SystemStep) : Prop :=
  a = .snapshot → ∀ s', systemStep s a = some s' → PastLoop s' → NothingLeft pMainExecEnv s'

/-- A spawn before the end of the cleanup loop that starts a thread passes the handle of the
main thread. -/
def PassesMain (s : System) : SystemStep → Prop
  | .spawn _ answers _ =>
      answers.MakesThreadInfo ∧ answers.SetsUpStack → ¬ PastLoop s →
        PassesMainHandle s.manager
  | _ => True

section Steps

variable {pMainExecEnv : ℕ} {s s' : System} {a : SystemStep}

/-- **The steps past the loop**: a spawn from guest code, a section of an app thread, or a
step of the main thread towards the tear-down. -/
theorem past_cases (past : PastLoop s) (taken : systemStep s a = some s') :
    (∃ thread answers appArg, a = .spawn thread answers appArg ∧ s.InGuest thread ∧
        s.spawn answers appArg = some s') ∨
      (∃ thread part exitCtrl next, s.threads thread = some exitCtrl ∧
        exitStep exitCtrl part = some next ∧ s' = s.afterSection thread next s.main) ∨
      (PastLoop s' ∧ s'.threads = s.threads) := by
  have elsewhere : ∀ {main : MainPoint}, s.main = main →
      main = .dtors ∨ main = .closing ∨ main = .teardown := fun point => point ▸ past
  cases systemStep_cases taken with
  | @spawn thread answers appArg _ inGuest spawned =>
      exact Or.inl ⟨thread, answers, appArg, rfl, inGuest, spawned⟩
  | @exitSection thread exitCtrl next found passed =>
      exact Or.inr (Or.inl ⟨thread, .exitSection, exitCtrl, next, found, passed, rfl⟩)
  | @threadEnd thread exitCtrl next found passed =>
      exact Or.inr (Or.inl ⟨thread, .threadEnd, exitCtrl, next, found, passed, rfl⟩)
  | dtorsReturn _ => exact Or.inr (Or.inr ⟨Or.inr (Or.inl rfl), rfl⟩)
  | closed _ => exact Or.inr (Or.inr ⟨Or.inr (Or.inr rfl), rfl⟩)
  | guestEnter point | guestReturn point | destroyBegin point | snapshot point | joinsDone point
  | joinEnter point _ _ | joinWake point _ _ | joinReturn point _ _ | eraseEntry point =>
      exact absurd (elsewhere point) (by simp)

/-- The end of the loop is not undone. -/
theorem pastLoop_step (past : PastLoop s) (taken : systemStep s a = some s') : PastLoop s' := by
  obtain ⟨thread, answers, appArg, rfl, _, spawned⟩ | ⟨_, _, _, _, _, _, rfl⟩ | ⟨later, _⟩ :=
    past_cases past taken
  · obtain ⟨outcome, _, rfl⟩ := Option.map_eq_some_iff.mp spawned
    exact past
  · exact past
  · exact later

/-- Past the loop, app threads stay out of guest code while the main thread spawns none. -/
theorem noneRunning_step (past : PastLoop s) (none : NoneRunning s)
    (quiet : ¬ a.SpawnsFromMain) (taken : systemStep s a = some s') : NoneRunning s' := by
  obtain ⟨thread, answers, appArg, rfl, inGuest, _⟩ |
      ⟨thread, part, exitCtrl, next, found, moved, rfl⟩ | ⟨_, same⟩ := past_cases past taken
  · cases thread with
    | none => exact absurd trivial quiet
    | some n =>
        -- an app thread spawns from guest code, and none is there
        obtain ⟨exitCtrl, own, running⟩ := Option.map_eq_some_iff.mp inGuest
        exact absurd running (none n exitCtrl own)
  · intro n other updated
    obtain ⟨rfl, rfl⟩ | ⟨_, kept⟩ := System.afterSection_threads.mp updated
    · exact fun running => none _ exitCtrl found (exitStep_phase moved running)
    · exact none n other kept
  · rw [NoneRunning, same]
    exact none

/-- Past the loop with everything kept, nothing is left. -/
theorem Kept.nothingLeft (kept : Kept pMainExecEnv s) (past : PastLoop s) :
    NothingLeft pMainExecEnv s where
  entries handleID threadInfo stored := by
    have main := kept.cleaned past handleID (Option.isSome_of_eq_some stored)
    exact ⟨main, kept.registered.main threadInfo (main ▸ stored)⟩
  gone steps s' quiet reached := by
    have none := kept.none_running past
    clear kept
    induction steps generalizing s with
    | nil =>
        cases reached
        exact none
    | cons a rest ih =>
        obtain ⟨next, taken, later⟩ := run_cons_eq_some.mp reached
        exact ih (pastLoop_step past taken) (fun b mem => quiet b (List.mem_cons_of_mem a mem))
          later (noneRunning_step past none (quiet a List.mem_cons_self) taken)

/-- Before the end of the loop, a spawn that passes the main handle is in time. -/
theorem PassesMain.inTime (passes : PassesMain s a) (before : ¬ PastLoop s) :
    SpawnsInTime s a := by
  cases a with
  | spawn thread answers appArg =>
      intro starts
      refine ⟨fun late => before (Or.inl late.2), fun same => ?_⟩
      obtain ⟨given, found, isMain⟩ := Option.map_eq_some_iff.mp same
      have next := isNextHandle_of_allot found
      exact (passesMainHandle_iff next).mp (passes starts before) isMain
  | _ => trivial

end Steps

section Runs

variable {pMainExecEnv : ℕ} {s s' : System} {a : SystemStep}

/-- What runs keep: everything up to the end of the loop. -/
def KeptBefore (pMainExecEnv : ℕ) (s : System) : Prop :=
  ¬ PastLoop s → Kept pMainExecEnv s

theorem KeptBefore.step (kept : KeptBefore pMainExecEnv s) (passes : PassesMain s a)
    (taken : systemStep s a = some s') : KeptBefore pMainExecEnv s' := by
  intro before
  have earlier : ¬ PastLoop s := fun past => before (pastLoop_step past taken)
  exact (kept earlier).step (passes.inTime earlier) taken

/-- A snapshot that ends the loop finds nothing left. -/
theorem KeptBefore.endsComplete (kept : KeptBefore pMainExecEnv s) (passes : PassesMain s a) :
    EndsComplete pMainExecEnv s a := by
  rintro rfl s' taken past
  obtain ⟨point, _⟩ := guarded_eq_some.mp taken
  have before : ¬ PastLoop s := by simp [PastLoop, point]
  exact ((kept before).step (passes.inTime before) taken).nothingLeft past

/-- A spawn does not fail late. -/
def NotLate (_ : System) : SystemStep → Prop
  | .spawn _ answers _ => ¬ answers.FailsLate
  | _ => True

instance (s : System) : ∀ a, Decidable (NotLate s a)
  | .spawn .. => inferInstanceAs (Decidable (¬ _))
  | .guestEnter | .guestReturn | .exitSection _ | .threadEnd _ | .destroyBegin _ | .snapshot
  | .joinEnter | .joinWake | .joinReturn | .eraseEntry | .joinsDone | .dtorsReturn
  | .closed => isTrue trivial

/-- Up to the end of the loop, everything is kept and the main thread has its entry. -/
def MainBefore (pMainExecEnv : ℕ) (s : System) : Prop :=
  ¬ PastLoop s → Kept pMainExecEnv s ∧ HasMain pMainExecEnv s.manager

/-- While the main thread has its entry, every spawn passes its handle. -/
theorem MainBefore.passes (kept : MainBefore pMainExecEnv s) (_ : NotLate s a) :
    PassesMain s a := by
  cases a with
  | spawn thread answers appArg =>
      intro _ before
      exact Or.inl (AList.lookup_isSome.mp (Option.isSome_of_eq_some (kept before).2))
  | _ => trivial

theorem MainBefore.step (kept : MainBefore pMainExecEnv s) (notLate : NotLate s a)
    (taken : systemStep s a = some s') : MainBefore pMainExecEnv s' := by
  intro before
  have earlier : ¬ PastLoop s := fun past => before (pastLoop_step past taken)
  obtain ⟨everything, main⟩ := kept earlier
  have plain : PlainSpawns s a := by
    cases a with
    | spawn thread answers appArg => exact ⟨notLate, fun _ late => earlier (Or.inl late.2)⟩
    | _ => trivial
  exact ⟨everything.step ((kept.passes notLate).inTime earlier) taken,
    everything.hasMain_step main plain taken⟩

end Runs

/-- **Spawns that do not fail late pass the main handle.** -/
theorem passesMain_of_notLate {pMainExecEnv : ℕ} {steps : List SystemStep}
    (notLate : Meets systemStep NotLate (systemStart pMainExecEnv) steps) :
    Meets systemStep PassesMain (systemStart pMainExecEnv) steps :=
  notLate.strengthen MainBefore.passes MainBefore.step fun _ =>
    ⟨kept_start pMainExecEnv, hasMain_init pMainExecEnv⟩

/-- **The cleanup loop is complete** in every run in which each spawn before its end that
starts a thread passes the handle of the main thread. -/
theorem cleanup_loop_complete {pMainExecEnv : ℕ} {steps : List SystemStep}
    (passes : Meets systemStep PassesMain (systemStart pMainExecEnv) steps) :
    Meets systemStep (EndsComplete pMainExecEnv) (systemStart pMainExecEnv) steps :=
  passes.strengthen KeptBefore.endsComplete KeptBefore.step fun _ => kept_start pMainExecEnv

/-- An app thread spawns another while it is joined, and the loop joins both. -/
theorem nested_threads_cleaned :
    Meets systemStep (EndsComplete 0) (systemStart 0)
      [.guestEnter, .spawn none guestHeapRoom 7, .guestReturn, .destroyBegin true, .snapshot,
        .spawn (some 1) guestHeapRoom 7, .joinEnter, .exitSection 1, .joinWake, .threadEnd 1,
        .joinReturn, .eraseEntry, .joinsDone, .snapshot, .exitSection 2, .joinEnter,
        .eraseEntry, .joinsDone, .snapshot, .dtorsReturn, .closed] :=
  cleanup_loop_complete (passesMain_of_notLate (by decide))

/-! ## A thread with the handle of the main thread -/

/-- A spawn that sets up its stack starts a thread at the handle it is given. -/
theorem spawn_started {s : System} {answers : ThreadSpawnAnswers} {appArg : UInt32}
    {given : UInt32 × UInt32} (starts : answers.MakesThreadInfo ∧ answers.SetsUpStack)
    (found : HandleTable.allot (· + 1) s.manager.threadMap s.manager.curHandleId = some given) :
    s.spawn answers appArg = some (s.started answers appArg given) := by
  rw [System.spawn, wasiThreadSpawn_started s.manager answers appArg starts.1 starts.2, found,
    Option.map_some, Option.map_some, System.started]
  congr 2
  funext n
  simp [startedThreads, Function.update_apply]

theorem handshake_eq {s : System} {thread : ℕ} {exitCtrl next : ExitCtrl Unit}
    {part : ExitStep Unit} (found : s.threads thread = some exitCtrl)
    (passed : exitStep exitCtrl part = some next) (main : ExitCtrl Unit → MainPoint) :
    s.handshake thread part main = some (s.afterSection thread next (main next)) := by
  rw [System.handshake, found, Option.bind_some, passed]
  rfl

/-- After a number of threads, the last one has the only entry, and the main thread is about
to take a snapshot. -/
structure Relay (count : ℕ) (s : System) : Prop where
  main : s.main = .cleanup
  counter : s.manager.curHandleId = UInt32.ofNat (count + 1)
  unused : s.manager.unusedEnv = count + 2
  running : s.threads (count + 1) = some {}
  entry : ∃ threadInfo, s.manager.threadMap.entries = [⟨UInt32.ofNat count, threadInfo⟩] ∧
    threadInfo.handleID = UInt32.ofNat count ∧ threadInfo.pExecEnv = count + 1

/-- The last thread spawns another and exits, and the main thread joins it. -/
def relayTurn (count : ℕ) : List SystemStep :=
  [.snapshot, .spawn (some (count + 1)) guestHeapRoom 7, .exitSection (count + 1), .joinEnter,
    .eraseEntry, .joinsDone]

/-- The thread after its exit section: nobody waited, so it has detached itself. -/
def detached : ExitCtrl Unit := { phase := .exited, waitCount := -1, detachCalls := 1 }

/-- The state after a thread was joined that had detached itself. -/
def System.reaped (s : System) (threadInfo : ExecEnvThreadInfo) : System :=
  { s with
    manager := s.manager.erase threadInfo.handleID
    threads := Function.update s.threads threadInfo.pExecEnv (some detached)
    main := .cleanup }

/-- The only thread to join exits first, so the main thread does not wait for it. -/
theorem run_join {s : System} {threadInfo : ExecEnvThreadInfo}
    (point : s.main = .joining [threadInfo]) (running : s.threads threadInfo.pExecEnv = some {}) :
    run systemStep s
        [.exitSection threadInfo.pExecEnv, .joinEnter, .eraseEntry, .joinsDone] =
      some (s.reaped threadInfo) := by
  have exited : systemStep s (.exitSection threadInfo.pExecEnv) =
      some (s.afterSection threadInfo.pExecEnv detached (.joining [threadInfo])) := by
    rw [← point]
    exact handshake_eq running rfl _
  have found : (s.afterSection threadInfo.pExecEnv detached (.joining [threadInfo])).threads
      threadInfo.pExecEnv = some detached := Function.update_self _ _ _
  have entered : systemStep
      (s.afterSection threadInfo.pExecEnv detached (.joining [threadInfo])) .joinEnter =
        some (s.afterSection threadInfo.pExecEnv detached (.erasing threadInfo [])) := by
    apply (handshake_eq found rfl _).trans
    simp [System.afterSection, detached, ExitCtrl.enter]
  refine run_cons_eq_some.mpr ⟨_, exited, run_cons_eq_some.mpr ⟨_, entered, ?_⟩⟩
  simp [run, systemStep, System.afterSection, System.reaped]

/-- One more thread has come, and the one before it is gone. -/
theorem Relay.turn {count : ℕ} {s : System} (relay : Relay count s)
    (app : UInt32.ofNat count ≠ mainThreadId) :
    ∃ s', run systemStep s (relayTurn count) = some s' ∧ Relay (count + 1) s' := by
  obtain ⟨threadInfo, entries, own, env⟩ := relay.entry
  have next : UInt32.ofNat count ≠ UInt32.ofNat (count + 1) := by
    rw [UInt32.ofNat_add]
    simp
  have free : UInt32.ofNat (count + 1) ∉ s.manager.threadMap := by
    intro member
    rw [AList.mem_keys, AList.keys, entries] at member
    exact next.symm (List.mem_singleton.mp member)
  have found : HandleTable.allot (· + 1) s.manager.threadMap s.manager.curHandleId =
      some (UInt32.ofNat (count + 1), UInt32.ofNat (count + 1) + 1) := by
    rw [relay.counter]
    exact HandleTable.allot_of_free free
  have pending : s.allThreadInfo = [threadInfo] := by
    simp [System.allThreadInfo, entries, own, app]
  have snapshot : systemStep s .snapshot = some { s with main := .joining [threadInfo] } := by
    simp [systemStep, relay.main, pending]
  obtain ⟨spawned, is_spawned⟩ : ∃ spawned, spawned =
      ({ s with main := .joining [threadInfo] } : System).started guestHeapRoom 7
        (UInt32.ofNat (count + 1), UInt32.ofNat (count + 1) + 1) := ⟨_, rfl⟩
  have spawn : systemStep { s with main := .joining [threadInfo] }
      (.spawn (some (count + 1)) guestHeapRoom 7) = some spawned := by
    have inGuest : ({ s with main := .joining [threadInfo] } : System).InGuest
        (some (count + 1)) := by
      simp [System.InGuest, relay.running]
    rw [systemStep, if_pos inGuest, is_spawned]
    exact spawn_started (by decide) found
  have still : spawned.threads threadInfo.pExecEnv = some {} := by
    rw [env, is_spawned, System.started_threads_ne (by rw [relay.unused]; omega)]
    exact relay.running
  have joined := run_join (is_spawned ▸ rfl) still
  rw [env] at joined
  refine ⟨_, run_cons_eq_some.mpr ⟨_, snapshot, run_cons_eq_some.mpr ⟨_, spawn, joined⟩⟩,
    rfl, ?_, ?_, ?_, ?_⟩
  · rw [System.reaped, is_spawned]
    exact (UInt32.ofNat_add (count + 1) 1).symm
  · rw [System.reaped, is_spawned]
    exact congrArg (· + 1) relay.unused
  · have new : spawned.threads (count + 1 + 1) = some {} := by
      rw [is_spawned, show count + 1 + 1 = s.manager.unusedEnv from relay.unused.symm]
      exact System.started_threads_self
    exact (Function.update_of_ne (by omega) _ _).trans new
  · refine ⟨startedThreadInfo s.manager guestHeapRoom 7 (UInt32.ofNat (count + 1)), ?_, rfl,
      relay.unused⟩
    rw [System.reaped, is_spawned, own]
    show List.kerase _ (List.kinsert _ _ s.manager.threadMap.entries) = _
    rw [entries]
    simp [List.kinsert, List.kerase]

/-- A spawn fails late and erases the entry of the main thread. The next one starts a thread,
and the main thread destroys the instance, with a number of turns in the cleanup loop. Nothing
should evaluate it: the run below takes 2^32 - 1 turns. -/
@[irreducible]
def relayRun (turns : ℕ) : List SystemStep :=
  [.guestEnter, .spawn none guestHeapFull 7, .spawn none guestHeapRoom 7, .guestReturn,
    .destroyBegin true] ++ (List.range turns).flatMap fun i => relayTurn (i + 1)

theorem relayRun_relay (turns : ℕ) (below : turns < 2 ^ 32) :
    ∃ s, run systemStep (systemStart 0) (relayRun turns) = some s ∧ Relay (turns + 1) s := by
  induction turns with
  | zero =>
      rw [relayRun]
      exact ⟨_, rfl, rfl, rfl, rfl, rfl, _, rfl, rfl, rfl⟩
  | succ turns ih =>
      obtain ⟨s, reached, relay⟩ := ih (by omega)
      obtain ⟨s', turn, relay'⟩ := relay.turn (ofNat_succ_ne_main below)
      refine ⟨s', ?_, relay'⟩
      rw [relayRun] at reached ⊢
      rw [List.range_succ, List.flatMap_append, ← List.append_assoc, run_append, reached]
      simpa using turn

/-- After 2^32 - 1 turns the last thread has the handle of the main thread. The snapshot does
not have it, and the loop ends while the thread runs. -/
theorem main_handle_thread_left :
    ¬ Meets systemStep (EndsComplete 0) (systemStart 0) (relayRun (2 ^ 32 - 1) ++ [.snapshot]) := by
  intro complete
  obtain ⟨s, reached, relay⟩ := relayRun_relay (2 ^ 32 - 1) (by decide)
  obtain ⟨threadInfo, entries, own, _⟩ := relay.entry
  have empty : s.allThreadInfo = [] := by
    rw [System.allThreadInfo, entries]
    apply List.filter_eq_nil_iff.mpr
    intro other mem
    rw [List.mem_singleton.mp mem, own]
    decide
  have ended : systemStep s .snapshot =
      some { s with main := if s.bRunDtor then .dtors else .closing } := by
    rw [systemStep, if_pos relay.main, if_pos empty]
  have past : PastLoop { s with main := if s.bRunDtor then .dtors else .closing } := by
    cases s.bRunDtor <;> simp [PastLoop]
  have left := complete.action reached rfl _ ended past
  exact left.gone [] _ (fun _ mem => absurd mem List.not_mem_nil) rfl _ {} relay.running rfl

end Pthread
end WamrExt
