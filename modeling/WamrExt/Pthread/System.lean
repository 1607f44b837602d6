import Mathlib.Logic.Function.Basic
import WamrExt.Pthread.Handshake
import WamrExt.Pthread.SpawnFailure

/-!
# The threads of an instance

All threads of a started instance together: the main thread, which goes in and out of guest
code and at last destroys the instance, and the app threads, each with the exit section of
its own thread info. Any thread in guest code can spawn app threads, through the thread
manager that they share.

Destroying goes through the cleanup loop of `CleanupAppThreadInfo`, which takes a snapshot
of the thread map and joins what is in it until a snapshot is empty. Then it runs the
destructors of the guest, if the instance was started, and closes its descriptors. Then it
tears the instance down.

Guest code is any sequence of spawns, and it may stop at any time. So cancelling a thread
changes nothing here. A spawn inserts the new thread and starts it in one step, since a
thread that is not started yet is one that has not taken a step yet.

What a step does is said once, in `systemStep_cases`.
-/

set_option autoImplicit false

namespace WamrExt
namespace Pthread

open Transition

/-- Where the main thread is: outside of any call, in guest code, before a snapshot, with
thread infos to join, waiting for one, inside `join` for one, before it erases one, in the
destructors, closing descriptors, and at the tear-down. -/
inductive MainPoint where
  | host
  | guest
  | cleanup
  | joining (todo : List ExecEnvThreadInfo)
  | waiting (threadInfo : ExecEnvThreadInfo) (todo : List ExecEnvThreadInfo)
  | inJoin (threadInfo : ExecEnvThreadInfo) (todo : List ExecEnvThreadInfo)
  | erasing (threadInfo : ExecEnvThreadInfo) (todo : List ExecEnvThreadInfo)
  | dtors
  | closing
  | teardown
  deriving DecidableEq

/-- The thread infos that the main thread has yet to be done with. -/
def MainPoint.pending : MainPoint → List ExecEnvThreadInfo
  | .joining todo => todo
  | .waiting threadInfo todo | .inJoin threadInfo todo | .erasing threadInfo todo =>
      threadInfo :: todo
  | .host | .guest | .cleanup | .dtors | .closing | .teardown => []

/-- The threads of an instance. An app thread has the name of its exec env, and its only
joiner is the main thread. -/
structure System where
  manager : InstancePthreadManager
  threads : ℕ → Option (ExitCtrl Unit)
  main : MainPoint
  bRunDtor : Bool

/-- The steps of the threads. -/
inductive SystemStep where
  | guestEnter
  | guestReturn
  /-- An app thread, or the main thread if none is given, calls `WasiThreadSpawn`. -/
  | spawn (thread : Option ℕ) (answers : ThreadSpawnAnswers) (appArg : UInt32)
  /-- An app thread passes its exit section. -/
  | exitSection (thread : ℕ)
  | threadEnd (thread : ℕ)
  /-- The main thread starts to destroy the instance. -/
  | destroyBegin (bRunDtor : Bool)
  | snapshot
  | joinEnter
  | joinWake
  | joinReturn
  | eraseEntry
  | joinsDone
  | dtorsReturn
  | closed

/-- The app threads that a call has started. -/
def startedThreads (calls : List RuntimeCall) : List ℕ :=
  calls.filterMap fun call =>
    match call with
    | .startHostThread env _ _ => some env
    | _ => none

namespace System

/-- A thread is in guest code. -/
def InGuest (s : System) : Option ℕ → Prop
  | none => s.main = .guest ∨ s.main = .dtors
  | some thread => (s.threads thread).map ExitCtrl.phase = some .running

instance (s : System) : ∀ thread, Decidable (s.InGuest thread)
  | none => inferInstanceAs (Decidable (_ ∨ _))
  | some _ => inferInstanceAs (Decidable (_ = _))

/-- A spawn, with the thread it starts. -/
def spawn (s : System) (answers : ThreadSpawnAnswers) (appArg : UInt32) : Option System :=
  (wasiThreadSpawn s.manager answers appArg).map fun outcome =>
    { s with
      manager := outcome.manager
      threads := fun n =>
        if n ∈ startedThreads outcome.calls then some {} else s.threads n }

/-- The snapshot of the cleanup loop. -/
def allThreadInfo (s : System) : List ExecEnvThreadInfo :=
  (s.manager.threadMap.entries.map Sigma.snd).filter fun threadInfo =>
    threadInfo.handleID ≠ mainThreadId

/-- A section of the handshake of an app thread, with the point the main thread is at
afterwards. -/
def handshake (s : System) (thread : ℕ) (a : ExitStep Unit)
    (main : ExitCtrl Unit → MainPoint) : Option System :=
  (s.threads thread).bind fun exitCtrl =>
    (exitStep exitCtrl a).map fun next =>
      { s with threads := Function.update s.threads thread (some next), main := main next }

end System

/-- One step of one of the threads, when it can be taken. -/
def systemStep : Step System SystemStep
  | s, .guestEnter => if s.main = .host then some { s with main := .guest } else none
  | s, .guestReturn => if s.main = .guest then some { s with main := .host } else none
  | s, .spawn thread answers appArg =>
      if s.InGuest thread then s.spawn answers appArg else none
  | s, .exitSection thread => s.handshake thread .exitSection fun _ => s.main
  | s, .threadEnd thread => s.handshake thread .threadEnd fun _ => s.main
  | s, .destroyBegin bRunDtor =>
      if s.main = .host then some { s with main := .cleanup, bRunDtor := bRunDtor } else none
  | s, .snapshot =>
      if s.main = .cleanup then
        some { s with
          main :=
            if s.allThreadInfo = [] then (if s.bRunDtor then .dtors else .closing)
            else .joining s.allThreadInfo }
      else none
  | s, .joinEnter =>
      match s.main with
      | .joining (threadInfo :: todo) =>
          s.handshake threadInfo.pExecEnv (.enter ()) fun next =>
            if next.waitCount < 0 then .erasing threadInfo todo else .waiting threadInfo todo
      | _ => none
  | s, .joinWake =>
      match s.main with
      | .waiting threadInfo todo =>
          s.handshake threadInfo.pExecEnv (.wake ()) fun next =>
            if next.joining.isSome then .inJoin threadInfo todo else .joining todo
      | _ => none
  | s, .joinReturn =>
      match s.main with
      | .inJoin threadInfo todo =>
          s.handshake threadInfo.pExecEnv .joinReturn fun _ => .erasing threadInfo todo
      | _ => none
  | s, .eraseEntry =>
      match s.main with
      | .erasing threadInfo todo =>
          some { s with
            manager := s.manager.erase threadInfo.handleID
            main := .joining todo }
      | _ => none
  | s, .joinsDone => if s.main = .joining [] then some { s with main := .cleanup } else none
  | s, .dtorsReturn => if s.main = .dtors then some { s with main := .closing } else none
  | s, .closed => if s.main = .closing then some { s with main := .teardown } else none

/-- A started instance, with its main thread only. -/
def systemStart (pMainExecEnv : ℕ) : System where
  manager := initAppMainThreadInfo pMainExecEnv
  threads := fun _ => none
  main := .host
  bRunDtor := false

/-! ## What a step does -/

/-- The threads after a section of one of them, and the point the main thread is at. -/
def System.afterSection (s : System) (thread : ℕ) (next : ExitCtrl Unit) (main : MainPoint) :
    System :=
  { s with threads := Function.update s.threads thread (some next), main := main }

/-- What a step does, with what it needs. -/
inductive SystemStepped (s : System) : SystemStep → System → Prop
  | guestEnter (point : s.main = .host) : SystemStepped s .guestEnter { s with main := .guest }
  | guestReturn (point : s.main = .guest) : SystemStepped s .guestReturn { s with main := .host }
  | spawn {thread : Option ℕ} {answers : ThreadSpawnAnswers} {appArg : UInt32} {s' : System}
      (inGuest : s.InGuest thread) (spawned : s.spawn answers appArg = some s') :
      SystemStepped s (.spawn thread answers appArg) s'
  | exitSection {thread : ℕ} {exitCtrl next : ExitCtrl Unit}
      (found : s.threads thread = some exitCtrl)
      (passed : exitStep exitCtrl .exitSection = some next) :
      SystemStepped s (.exitSection thread) (s.afterSection thread next s.main)
  | threadEnd {thread : ℕ} {exitCtrl next : ExitCtrl Unit}
      (found : s.threads thread = some exitCtrl)
      (passed : exitStep exitCtrl .threadEnd = some next) :
      SystemStepped s (.threadEnd thread) (s.afterSection thread next s.main)
  | destroyBegin {bRunDtor : Bool} (point : s.main = .host) :
      SystemStepped s (.destroyBegin bRunDtor) { s with main := .cleanup, bRunDtor := bRunDtor }
  | snapshot (point : s.main = .cleanup) :
      SystemStepped s .snapshot
        { s with
          main :=
            if s.allThreadInfo = [] then (if s.bRunDtor then .dtors else .closing)
            else .joining s.allThreadInfo }
  | joinEnter {threadInfo : ExecEnvThreadInfo} {todo : List ExecEnvThreadInfo}
      {exitCtrl next : ExitCtrl Unit} (point : s.main = .joining (threadInfo :: todo))
      (found : s.threads threadInfo.pExecEnv = some exitCtrl)
      (passed : exitStep exitCtrl (.enter ()) = some next) :
      SystemStepped s .joinEnter (s.afterSection threadInfo.pExecEnv next
        (if next.waitCount < 0 then .erasing threadInfo todo else .waiting threadInfo todo))
  | joinWake {threadInfo : ExecEnvThreadInfo} {todo : List ExecEnvThreadInfo}
      {exitCtrl next : ExitCtrl Unit} (point : s.main = .waiting threadInfo todo)
      (found : s.threads threadInfo.pExecEnv = some exitCtrl)
      (passed : exitStep exitCtrl (.wake ()) = some next) :
      SystemStepped s .joinWake (s.afterSection threadInfo.pExecEnv next
        (if next.joining.isSome then .inJoin threadInfo todo else .joining todo))
  | joinReturn {threadInfo : ExecEnvThreadInfo} {todo : List ExecEnvThreadInfo}
      {exitCtrl next : ExitCtrl Unit} (point : s.main = .inJoin threadInfo todo)
      (found : s.threads threadInfo.pExecEnv = some exitCtrl)
      (passed : exitStep exitCtrl .joinReturn = some next) :
      SystemStepped s .joinReturn
        (s.afterSection threadInfo.pExecEnv next (.erasing threadInfo todo))
  | eraseEntry {threadInfo : ExecEnvThreadInfo} {todo : List ExecEnvThreadInfo}
      (point : s.main = .erasing threadInfo todo) :
      SystemStepped s .eraseEntry
        { s with manager := s.manager.erase threadInfo.handleID, main := .joining todo }
  | joinsDone (point : s.main = .joining []) :
      SystemStepped s .joinsDone { s with main := .cleanup }
  | dtorsReturn (point : s.main = .dtors) : SystemStepped s .dtorsReturn { s with main := .closing }
  | closed (point : s.main = .closing) : SystemStepped s .closed { s with main := .teardown }

section Cases

variable {s s' : System}

theorem handshake_cases {thread : ℕ} {a : ExitStep Unit} {main : ExitCtrl Unit → MainPoint}
    (taken : s.handshake thread a main = some s') :
    ∃ exitCtrl next, s.threads thread = some exitCtrl ∧ exitStep exitCtrl a = some next ∧
      s' = s.afterSection thread next (main next) := by
  obtain ⟨exitCtrl, found, later⟩ := Option.bind_eq_some_iff.mp taken
  obtain ⟨next, passed, rfl⟩ := Option.map_eq_some_iff.mp later
  exact ⟨exitCtrl, next, found, passed, rfl⟩

/-- **The cases of a step.** -/
theorem systemStep_cases {a : SystemStep} (taken : systemStep s a = some s') :
    SystemStepped s a s' := by
  cases a with
  | guestEnter =>
      obtain ⟨point, rfl⟩ := guarded_eq_some.mp taken
      exact .guestEnter point
  | guestReturn =>
      obtain ⟨point, rfl⟩ := guarded_eq_some.mp taken
      exact .guestReturn point
  | spawn thread answers appArg =>
      obtain ⟨inGuest, spawned⟩ := Option.ite_none_right_eq_some.mp taken
      exact .spawn inGuest spawned
  | exitSection thread =>
      obtain ⟨exitCtrl, next, found, passed, rfl⟩ := handshake_cases taken
      exact .exitSection found passed
  | threadEnd thread =>
      obtain ⟨exitCtrl, next, found, passed, rfl⟩ := handshake_cases taken
      exact .threadEnd found passed
  | destroyBegin bRunDtor =>
      obtain ⟨point, rfl⟩ := guarded_eq_some.mp taken
      exact .destroyBegin point
  | snapshot =>
      obtain ⟨point, rfl⟩ := guarded_eq_some.mp taken
      exact .snapshot point
  | joinEnter =>
      simp only [systemStep] at taken
      split at taken
      next threadInfo todo point =>
        obtain ⟨exitCtrl, next, found, passed, rfl⟩ := handshake_cases taken
        exact .joinEnter point found passed
      next => cases taken
  | joinWake =>
      simp only [systemStep] at taken
      split at taken
      next threadInfo todo point =>
        obtain ⟨exitCtrl, next, found, passed, rfl⟩ := handshake_cases taken
        exact .joinWake point found passed
      next => cases taken
  | joinReturn =>
      simp only [systemStep] at taken
      split at taken
      next threadInfo todo point =>
        obtain ⟨exitCtrl, next, found, passed, rfl⟩ := handshake_cases taken
        exact .joinReturn point found passed
      next => cases taken
  | eraseEntry =>
      simp only [systemStep] at taken
      split at taken
      next threadInfo todo point =>
        cases taken
        exact .eraseEntry point
      next => cases taken
  | joinsDone =>
      obtain ⟨point, rfl⟩ := guarded_eq_some.mp taken
      exact .joinsDone point
  | dtorsReturn =>
      obtain ⟨point, rfl⟩ := guarded_eq_some.mp taken
      exact .dtorsReturn point
  | closed =>
      obtain ⟨point, rfl⟩ := guarded_eq_some.mp taken
      exact .closed point

end Cases

end Pthread
end WamrExt
