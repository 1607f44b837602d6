import WamrExt.Pthread.FinishedThreads

/-!
# The spread of exceptions

A trap leaves a text in the module instance of its thread. When an app thread exits with such a
text, `DoAppThreadExit` sets it in the instances of all other threads in the thread map, the
main instance among them. The text that is there has a prefix, which setting it adds again, so
it is cut off before.

The exception is looked for before the lock of the thread map is taken, and its text is read
under the lock, where another thread may have replaced it in between. A thread that traps in
turn spreads what it then has. Over all of this a text stays one that a trap was given, with the
prefix once (`OriginalTexts`).

Whether it is the main thread that exits is seen from the handle in the thread info of the exec
env, which the constructor of the thread info registers there (`userData`). The main instance is
reached when the main thread has its entry in the thread map, and no app thread its handle. A
spawn that fails late takes the entry out, and the handle can then be given again. In runs
without such a spawn every exception that is spread reaches the main instance
(`traps_reach_main`).
-/

set_option autoImplicit false

namespace WamrExt
namespace Pthread

open Transition

/-- The text of an exception. -/
abbrev ExceptionText := List Char

/-- What `wasm_runtime_set_exception` puts before a text. -/
def exceptionPrefix : ExceptionText :=
  ['E', 'x', 'c', 'e', 'p', 't', 'i', 'o', 'n', ':', ' ']

/-- `wasm_runtime_set_exception`: the text that is stored for a text given. -/
def storedException (text : ExceptionText) : ExceptionText := exceptionPrefix ++ text

/-- `exception += 11` -/
def skipExceptionPrefix (text : ExceptionText) : ExceptionText := text.drop 11

@[simp]
theorem skip_stored (text : ExceptionText) : skipExceptionPrefix (storedException text) = text :=
  rfl

/-- How far an app thread is in `DoAppThreadExit`: not there yet, past `get_exception`, which
may have found an exception, and past the spread. -/
inductive ExitPoint where
  | inGuest
  | looked (found : Bool)
  | passed
  deriving DecidableEq

/-- The thread info that a spawn makes, with the handle it is given in the end. -/
def madeThreadInfo (manager : InstancePthreadManager) (answers : ThreadSpawnAnswers)
    (appArg : UInt32) : Option ExecEnvThreadInfo :=
  (spawnBody manager answers appArg).bind fun body => body.locals.pThreadInfo

/-- The threads of an instance with the thread info that each exec env has as its user data, and
with the exception of each module instance, which has the name of its exec env. No step reads
the last field, the texts that traps were given. -/
structure TrapSystem extends System where
  pMainExecEnv : ℕ
  userData : ℕ → Option ExecEnvThreadInfo
  exception : ℕ → Option ExceptionText := fun _ => none
  exits : ℕ → ExitPoint := fun _ => .inGuest
  trapTexts : List ExceptionText := []

/-- The steps: those of the threads, a trap of an app thread or of the main thread, and the two
parts of `DoAppThreadExit` of an app thread. -/
inductive TrapStep where
  | system (a : SystemStep)
  | trap (thread : Option ℕ) (text : ExceptionText)
  | getException (thread : ℕ)
  | spread (thread : ℕ)

namespace TrapSystem

variable (s : TrapSystem)

/-- An app thread spawns before it leaves guest code, and passes its exit section after
`DoAppThreadExit`. -/
def Allows : SystemStep → Prop
  | .spawn (some n) _ _ => s.exits n = .inGuest
  | .exitSection n => s.exits n = .passed
  | _ => True

instance : ∀ a, Decidable (s.Allows a)
  | .spawn (some _) _ _ | .exitSection _ => inferInstanceAs (Decidable (_ = _))
  | .spawn none _ _ | .guestEnter | .guestReturn | .threadEnd _ | .destroyBegin _ | .snapshot
  | .joinEnter | .joinWake | .joinReturn | .eraseEntry | .joinsDone | .dtorsReturn
  | .closed => isTrue trivial

/-- A thread is in guest code and may trap. -/
def CanTrap (thread : Option ℕ) : Prop :=
  s.InGuest thread ∧ ∀ n, thread = some n → s.exits n = .inGuest

instance : ∀ thread, Decidable (s.CanTrap thread)
  | none => decidable_of_iff (s.InGuest none) (by simp [CanTrap])
  | some n => decidable_of_iff (s.InGuest (some n) ∧ s.exits n = .inGuest) (by simp [CanTrap])

/-- `wasm_runtime_set_exception` on one instance. -/
def setException (inst : ℕ) (text : ExceptionText) : TrapSystem :=
  { s with exception := Function.update s.exception inst (some (storedException text)) }

/-- The user data after a step of the threads. The constructor of a thread info registers it. -/
def registered : SystemStep → ℕ → Option ExecEnvThreadInfo
  | .spawn _ answers appArg =>
      match madeThreadInfo s.manager answers appArg with
      | some threadInfo => Function.update s.userData threadInfo.pExecEnv (some threadInfo)
      | none => s.userData
  | _ => s.userData

/-- `GetExecEnvThreadInfo` gives a thread info with the handle of the main thread. -/
def HasMainHandle (n : ℕ) : Prop :=
  (s.userData n).map ExecEnvThreadInfo.handleID = some mainThreadId

instance (n : ℕ) : Decidable (s.HasMainHandle n) := inferInstanceAs (Decidable (_ = _))

/-- The exceptions after an app thread has spread its own. -/
def spreadFrom (n : ℕ) : ℕ → Option ExceptionText := fun inst =>
  if s.manager.holds inst = true ∧ inst ≠ n then
    (s.exception n).map fun text => storedException (skipExceptionPrefix text)
  else s.exception inst

/-- An app thread goes on in `DoAppThreadExit`. -/
def goesOn (n : ℕ) (point : ExitPoint) (exception : ℕ → Option ExceptionText) : TrapSystem :=
  { s with exits := Function.update s.exits n point, exception := exception }

end TrapSystem

/-- One step. -/
def trapStep : Step TrapSystem TrapStep
  | s, .system a =>
      if s.Allows a then
        (systemStep s.toSystem a).map fun next =>
          { s with toSystem := next, userData := s.registered a }
      else none
  | s, .trap thread text =>
      if s.CanTrap thread then
        some { s.setException (thread.getD s.pMainExecEnv) text with
          trapTexts := text :: s.trapTexts }
      else none
  | s, .getException n =>
      if s.InGuest (some n) ∧ s.exits n = .inGuest then
        some (s.goesOn n (.looked (s.exception n).isSome) s.exception)
      else none
  | s, .spread n =>
      if s.InGuest (some n) then
        match s.exits n with
        | .looked found =>
            some (s.goesOn n .passed
              (if found = true ∧ ¬ s.HasMainHandle n then s.spreadFrom n else s.exception))
        | _ => none
      else none

/-- A started instance without exceptions. -/
def trapStart (pMainExecEnv : ℕ) : TrapSystem :=
  { systemStart pMainExecEnv with
    pMainExecEnv := pMainExecEnv
    userData := Function.update (fun _ => none) pMainExecEnv
      (some (mainThreadInfo pMainExecEnv)) }

/-- An app thread that goes through `DoAppThreadExit` with an exception leaves one in the main
instance. -/
def ReachesMain (s : TrapSystem) : TrapStep → Prop
  | .spread n => s.exits n = .looked true →
      ∀ next, trapStep s (.spread n) = some next → (next.exception s.pMainExecEnv).isSome
  | _ => True

/-- Every exception is a text that a trap was given, with the prefix once. -/
def OriginalTexts (s : TrapSystem) : Prop :=
  ∀ inst text, s.exception inst = some text → ∃ given ∈ s.trapTexts, text = storedException given

/-- A spawn does not fail after it has made its thread info. -/
def NoLateFailure (s : TrapSystem) : TrapStep → Prop
  | .system a => NoLateSpawn s.toSystem a
  | _ => True

instance (s : TrapSystem) : ∀ a, Decidable (NoLateFailure s a)
  | .system a => inferInstanceAs (Decidable (NoLateSpawn s.toSystem a))
  | .trap _ _ | .getException _ | .spread _ => isTrue trivial

/-! ## The texts -/

section Texts

variable {s s' : TrapSystem} {a : TrapStep}

/-- Whatever the threads do, no text is made up and no prefix is doubled. -/
theorem OriginalTexts.step (original : OriginalTexts s) (taken : trapStep s a = some s') :
    OriginalTexts s' := by
  cases a with
  | system a =>
      obtain ⟨_, moved⟩ := Option.ite_none_right_eq_some.mp taken
      obtain ⟨_, _, rfl⟩ := Option.map_eq_some_iff.mp moved
      exact original
  | trap thread text =>
      obtain ⟨_, rfl⟩ := guarded_eq_some.mp taken
      intro inst stored here
      simp only [TrapSystem.setException, Function.update_apply] at here
      split at here
      · exact ⟨text, List.mem_cons_self, (Option.some.inj here).symm⟩
      · obtain ⟨given, trapped, same⟩ := original inst stored here
        exact ⟨given, List.mem_cons_of_mem text trapped, same⟩
  | getException n =>
      obtain ⟨_, rfl⟩ := guarded_eq_some.mp taken
      exact original
  | spread n =>
      obtain ⟨_, passed⟩ := Option.ite_none_right_eq_some.mp taken
      split at passed
      next found _ =>
        cases passed
        intro inst stored here
        simp only [TrapSystem.goesOn] at here
        split at here
        · simp only [TrapSystem.spreadFrom] at here
          split at here
          · obtain ⟨own, held, rfl⟩ := Option.map_eq_some_iff.mp here
            obtain ⟨given, trapped, rfl⟩ := original n own held
            exact ⟨given, trapped, congrArg storedException (skip_stored given)⟩
          · exact original inst stored here
        · exact original inst stored here
      next => cases passed

end Texts

/-! ## The entry of the main thread -/

/-- The main thread keeps its entry: the map has it, no join is about it, and its exec env is
not that of an app thread. The exec env made next is not either. -/
structure MainStays (pMainExecEnv : ℕ) (s : System) : Prop where
  main : HasMain pMainExecEnv s.manager
  pending : ∀ threadInfo ∈ s.main.pending, threadInfo.handleID ≠ mainThreadId
  app : s.threads pMainExecEnv = none
  used : pMainExecEnv < s.manager.unusedEnv
  named : ∀ n, (s.threads n).isSome → n < s.manager.unusedEnv

section System

variable {pMainExecEnv : ℕ} {s s' : System} {a : SystemStep}

/-- A section of the handshake of an app thread. -/
theorem MainStays.handshake (stays : MainStays pMainExecEnv s) {thread : ℕ}
    {exitCtrl next : ExitCtrl Unit} {main : MainPoint} (found : s.threads thread = some exitCtrl)
    (pending : ∀ threadInfo ∈ main.pending, threadInfo ∈ s.main.pending) :
    MainStays pMainExecEnv (s.afterSection thread next main) := by
  refine ⟨stays.main, fun threadInfo member => ?_, ?_, stays.used, fun n there => ?_⟩
  · exact stays.pending threadInfo (pending threadInfo member)
  · have other : pMainExecEnv ≠ thread := by
      rintro rfl
      rw [stays.app] at found
      cases found
    exact (Function.update_of_ne other _ _).trans stays.app
  · exact stays.named n ((s.afterSection_isSome found n).mp there)

/-- The main thread goes to a point with nothing new to join. -/
theorem MainStays.moves (stays : MainStays pMainExecEnv s) {main : MainPoint}
    {bRunDtor : Bool} (pending : ∀ threadInfo ∈ main.pending, threadInfo ∈ s.main.pending) :
    MainStays pMainExecEnv { s with main := main, bRunDtor := bRunDtor } :=
  ⟨stays.main, fun threadInfo member => stays.pending threadInfo (pending threadInfo member),
    stays.app, stays.used, stays.named⟩

theorem MainStays.spawn (stays : MainStays pMainExecEnv s) {answers : ThreadSpawnAnswers}
    {appArg : UInt32} (notLate : ¬ answers.FailsLate)
    (spawned : s.spawn answers appArg = some s') : MainStays pMainExecEnv s' := by
  have main : HasMain pMainExecEnv s'.manager := by
    have notFailing : NotFailingLate s.manager (.spawn answers appArg) := notLate
    obtain ⟨outcome, returned, rfl⟩ := Option.map_eq_some_iff.mp spawned
    exact hasMain_step stays.main notFailing
      (Option.map_eq_some_iff.mpr ⟨outcome, returned, rfl⟩)
  have used : pMainExecEnv < s.manager.unusedEnv + 1 := Nat.lt_succ_of_lt stays.used
  have named (n : ℕ) (there : (s.threads n).isSome) : n < s.manager.unusedEnv + 1 :=
    Nat.lt_succ_of_lt (stays.named n there)
  obtain rfl | rfl | ⟨_, given, _, rfl⟩ := spawn_cases spawned
  · exact ⟨main, stays.pending, stays.app, used, named⟩
  · exact ⟨main, stays.pending, stays.app, used, named⟩
  · refine ⟨main, stays.pending, ?_, used, fun n there => ?_⟩
    · rw [System.started_threads_ne stays.used.ne]
      exact stays.app
    · by_cases own : n = s.manager.unusedEnv
      · exact own ▸ Nat.lt_succ_self _
      · rw [System.started_threads_ne own] at there
        exact named n there

/-- **The main thread keeps its entry** over every step but a spawn that fails late. -/
theorem MainStays.step (stays : MainStays pMainExecEnv s) (noLate : NoLateSpawn s a)
    (taken : systemStep s a = some s') : MainStays pMainExecEnv s' := by
  cases systemStep_cases taken with
  | guestEnter _ | guestReturn _ | destroyBegin _ | joinsDone _ | dtorsReturn _ | closed _ =>
      exact stays.moves fun _ member => absurd member List.not_mem_nil
  | spawn _ spawned => exact stays.spawn noLate spawned
  | exitSection found _ | threadEnd found _ =>
      exact stays.handshake found fun _ member => member
  | snapshot _ =>
      refine ⟨stays.main, fun threadInfo member => ?_, stays.app, stays.used, stays.named⟩
      dsimp only at member
      split at member
      · split at member <;> cases member
      · exact of_decide_eq_true (List.mem_filter.mp member).2
  | joinEnter point found _ =>
      apply stays.handshake found
      intro info member
      rw [point]
      split at member <;> exact member
  | @joinWake threadInfo _ _ _ point found _ =>
      apply stays.handshake found
      intro info member
      rw [point]
      split at member
      · exact member
      · exact List.mem_cons_of_mem threadInfo member
  | joinReturn point found _ =>
      apply stays.handshake found
      intro info member
      rw [point]
      exact member
  | @eraseEntry threadInfo todo point =>
      have pending := stays.pending
      rw [point] at pending
      have other : threadInfo.handleID ≠ mainThreadId := pending threadInfo List.mem_cons_self
      refine ⟨?_, fun info member => pending info (List.mem_cons_of_mem _ member),
        stays.app, stays.used, stays.named⟩
      exact (s.manager.getThreadInfo_erase_ne (Ne.symm other)).trans stays.main

/-- A step starts no thread, or it is a spawn. -/
theorem threads_isSome_step (taken : systemStep s a = some s') {n : ℕ}
    (there : (s'.threads n).isSome) :
    (s.threads n).isSome ∨ ∃ thread answers appArg, a = .spawn thread answers appArg := by
  cases systemStep_cases taken with
  | guestEnter _ | guestReturn _ | destroyBegin _ | snapshot _ | joinsDone _ | dtorsReturn _
  | closed _ | eraseEntry _ => exact .inl there
  | spawn _ _ => exact .inr ⟨_, _, _, rfl⟩
  | exitSection found _ | threadEnd found _ | joinEnter _ found _ | joinWake _ found _
  | joinReturn _ found _ => exact .inl ((System.afterSection_isSome found n).mp there)

end System

/-! ## The thread infos of the exec envs -/

section UserData

variable {s : TrapSystem} {answers : ThreadSpawnAnswers} {appArg : UInt32}

/-- A spawn makes the thread info of its new exec env. -/
theorem pExecEnv_of_made {manager : InstancePthreadManager} {threadInfo : ExecEnvThreadInfo}
    (made : madeThreadInfo manager answers appArg = some threadInfo) :
    threadInfo.pExecEnv = manager.unusedEnv := by
  obtain ⟨body, returned, made⟩ := Option.bind_eq_some_iff.mp made
  simp only [spawnBody] at returned
  -- the first three ends have made no thread info
  split at returned
  · cases returned; cases made
  split at returned
  · cases returned; cases made
  split at returned
  · cases returned; cases made
  split at returned
  · cases returned; cases made; rfl
  split at returned
  · cases returned; cases made; rfl
  · obtain ⟨given, _, rfl⟩ := Option.map_eq_some_iff.mp returned
    cases made; rfl

/-- A spawn that starts a thread has made its thread info with the handle it is given. -/
theorem madeThreadInfo_started {manager : InstancePthreadManager} {given : UInt32 × UInt32}
    (starts : answers.MakesThreadInfo ∧ answers.SetsUpStack)
    (found : HandleTable.allot (· + 1) manager.threadMap manager.curHandleId = some given) :
    madeThreadInfo manager answers appArg =
      some (startedThreadInfo manager answers appArg given.1) := by
  obtain ⟨⟨instantiated, entryFound, execEnvCreated⟩, room, set⟩ := starts
  simp [madeThreadInfo, spawnBody, instantiated, entryFound, execEnvCreated, room, set, found,
    startedThreadInfo]

/-- The exec envs there are keep their thread infos. -/
theorem registered_ne {n : ℕ} (old : n ≠ s.manager.unusedEnv) (a : SystemStep) :
    s.registered a n = s.userData n := by
  cases a with
  | spawn thread answers appArg =>
      simp only [TrapSystem.registered]
      cases made : madeThreadInfo s.manager answers appArg with
      | none => rfl
      | some threadInfo =>
          dsimp only
          rw [pExecEnv_of_made made]
          exact Function.update_of_ne old _ _
  | _ => rfl

/-- The exec env of a thread that is started gets the thread info with its handle. -/
theorem registered_started {thread : Option ℕ} {given : UInt32 × UInt32}
    (starts : answers.MakesThreadInfo ∧ answers.SetsUpStack)
    (found : HandleTable.allot (· + 1) s.manager.threadMap s.manager.curHandleId = some given) :
    s.registered (.spawn thread answers appArg) s.manager.unusedEnv =
      some (startedThreadInfo s.manager answers appArg given.1) := by
  simp only [TrapSystem.registered, madeThreadInfo_started starts found]
  exact Function.update_self _ _ _

end UserData

/-! ## Runs -/

/-- The main thread keeps its entry, no app thread has its handle, and an exception that was
found is still there. -/
structure SpreadReady (s : TrapSystem) : Prop where
  stays : MainStays s.pMainExecEnv s.toSystem
  own : ∀ n, (s.threads n).isSome → ¬ s.HasMainHandle n
  found : ∀ n, s.exits n = .looked true → (s.exception n).isSome

section Runs

variable {s s' : TrapSystem} {a : TrapStep}

/-- An app thread goes on, and no exception goes away. -/
theorem SpreadReady.goesOn (ready : SpreadReady s) {n : ℕ} {point : ExitPoint}
    {exception : ℕ → Option ExceptionText}
    (more : ∀ inst, (s.exception inst).isSome → (exception inst).isSome)
    (own : point = .looked true → (exception n).isSome) :
    SpreadReady (s.goesOn n point exception) := by
  refine ⟨ready.stays, ready.own, fun m looked => ?_⟩
  simp only [TrapSystem.goesOn, Function.update_apply] at looked
  split at looked
  next same =>
    subst same
    exact own looked
  next => exact more m (ready.found m looked)

/-- A spread takes no exception away. -/
theorem spreadFrom_isSome {n : ℕ} (found : (s.exception n).isSome) (inst : ℕ)
    (has : (s.exception inst).isSome) : (s.spreadFrom n inst).isSome := by
  rw [TrapSystem.spreadFrom]
  split
  · rwa [Option.isSome_map]
  · exact has

/-- The thread that a spawn starts is not given the handle of the main thread. -/
theorem SpreadReady.own_step (ready : SpreadReady s) {a : SystemStep} {next : System}
    (taken : systemStep s.toSystem a = some next) {n : ℕ} (there : (next.threads n).isSome) :
    (s.registered a n).map ExecEnvThreadInfo.handleID ≠ some mainThreadId := by
  have old (before : (s.threads n).isSome) :
      (s.registered a n).map ExecEnvThreadInfo.handleID ≠ some mainThreadId := by
    rw [registered_ne (ready.stays.named n before).ne]
    exact ready.own n before
  obtain before | ⟨thread, answers, appArg, rfl⟩ := threads_isSome_step taken there
  · exact old before
  · obtain ⟨_, spawned⟩ := Option.ite_none_right_eq_some.mp taken
    obtain rfl | rfl | ⟨starts, given, found, rfl⟩ := spawn_cases spawned
    · exact old there
    · exact old there
    · by_cases new : n = s.manager.unusedEnv
      · rw [new, registered_started starts found]
        exact fun same => given_ne_main ready.stays.main found (Option.some.inj same)
      · rw [System.started_threads_ne new] at there
        exact old there

theorem SpreadReady.step (ready : SpreadReady s) (noLate : NoLateFailure s a)
    (taken : trapStep s a = some s') : SpreadReady s' := by
  cases a with
  | system a =>
      obtain ⟨_, moved⟩ := Option.ite_none_right_eq_some.mp taken
      obtain ⟨next, stepped, rfl⟩ := Option.map_eq_some_iff.mp moved
      exact ⟨ready.stays.step noLate stepped, fun _ there => ready.own_step stepped there,
        ready.found⟩
  | trap thread text =>
      obtain ⟨_, rfl⟩ := guarded_eq_some.mp taken
      refine ⟨ready.stays, ready.own, fun n looked => ?_⟩
      simp only [TrapSystem.setException, Function.update_apply]
      split
      · rfl
      · exact ready.found n looked
  | getException n =>
      obtain ⟨_, rfl⟩ := guarded_eq_some.mp taken
      exact ready.goesOn (fun _ has => has) fun looked => ExitPoint.looked.inj looked
  | spread n =>
      obtain ⟨_, passed⟩ := Option.ite_none_right_eq_some.mp taken
      split at passed
      next found looked =>
        cases passed
        refine ready.goesOn (fun inst has => ?_) nofun
        split
        next spreads =>
          exact spreadFrom_isSome (ready.found n (spreads.1 ▸ looked)) inst has
        next => exact has
      next => cases passed

/-- The main instance gets what an app thread spreads. -/
theorem SpreadReady.reachesMain (ready : SpreadReady s) (a : TrapStep) : ReachesMain s a := by
  cases a with
  | spread n =>
      intro looked next taken
      obtain ⟨inGuest, passed⟩ := Option.ite_none_right_eq_some.mp taken
      obtain ⟨_, thread, _⟩ := Option.map_eq_some_iff.mp inGuest
      have app : n ≠ s.pMainExecEnv := by
        rintro rfl
        rw [ready.stays.app] at thread
        cases thread
      have noMainHandle : ¬ s.HasMainHandle n := ready.own n (Option.isSome_of_eq_some thread)
      have held : s.manager.holds s.pMainExecEnv = true := by
        rw [InstancePthreadManager.holds, List.any_eq_true]
        exact ⟨⟨mainThreadId, mainThreadInfo s.pMainExecEnv⟩,
          AList.mem_lookup_iff.mp ready.stays.main, beq_self_eq_true s.pMainExecEnv⟩
      rw [looked] at passed
      cases passed
      simp only [TrapSystem.goesOn]
      rw [if_pos ⟨trivial, noMainHandle⟩, TrapSystem.spreadFrom, if_pos ⟨held, app.symm⟩,
        Option.isSome_map]
      exact ready.found n looked
  | _ => trivial

theorem spreadReady_start (pMainExecEnv : ℕ) : SpreadReady (trapStart pMainExecEnv) where
  stays := ⟨hasMain_init pMainExecEnv, nofun, rfl, Nat.lt_succ_self _, nofun⟩
  own := nofun
  found := nofun

/-- **Traps reach the main instance.** In every run whose spawns do not fail late, whenever an
app thread goes through `DoAppThreadExit` with an exception the main instance has one
afterwards, and every exception there ever is, is a text that a trap was given, with the prefix
once. -/
theorem traps_reach_main {pMainExecEnv : ℕ} {steps : List TrapStep}
    (noLate : Meets trapStep NoLateFailure (trapStart pMainExecEnv) steps) :
    Meets trapStep ReachesMain (trapStart pMainExecEnv) steps ∧
      Throughout trapStep OriginalTexts (trapStart pMainExecEnv) steps := by
  constructor
  · exact noLate.strengthen (fun {_ a} ready _ => SpreadReady.reachesMain ready a)
      (fun ready met taken => ready.step met taken) (spreadReady_start pMainExecEnv)
  · exact noLate.throughout
      (fun (original : OriginalTexts _) _ taken => OriginalTexts.step original taken) id nofun

/-- Two threads trap. The second exits after it has the text of the first, replaces it by its
own, and spreads that. -/
def twoTraps : List TrapStep :=
  [.system .guestEnter, .system (.spawn none guestHeapRoom 7),
    .system (.spawn none guestHeapRoom 8), .trap (some 1) ['a'], .getException 1, .spread 1,
    .trap (some 2) ['b'], .getException 2, .spread 2]

theorem two_traps_reach_main :
    Meets trapStep ReachesMain (trapStart 0) twoTraps ∧
      Throughout trapStep OriginalTexts (trapStart 0) twoTraps :=
  traps_reach_main (by decide)

/-- A spawn fails late while an app thread runs. Then this thread traps. -/
def lateFailureThenTrap : List TrapStep :=
  [.system .guestEnter, .system (.spawn none guestHeapRoom 7),
    .system (.spawn none guestHeapFull 8), .trap (some 1) ['a'], .getException 1]

/-- The main instance does not get the exception. -/
theorem late_failure_hides_trap :
    ¬ Meets trapStep ReachesMain (trapStart 0) (lateFailureThenTrap ++ [.spread 1]) := by
  have lost : (run trapStep (trapStart 0) lateFailureThenTrap).map (fun s =>
      (s.exits 1, (trapStep s (.spread 1)).map fun next => next.exception s.pMainExecEnv)) =
        some (.looked true, some none) := by decide
  obtain ⟨s, reached, facts⟩ := Option.map_eq_some_iff.mp lost
  obtain ⟨looked, after⟩ := Prod.mk.inj facts
  obtain ⟨next, taken, missing⟩ := Option.map_eq_some_iff.mp after
  intro reaches
  have has := reaches.action reached looked next taken
  rw [missing] at has
  cases has

end Runs

end Pthread
end WamrExt
