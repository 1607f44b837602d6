import Mathlib.Data.List.AList
import Mathlib.Logic.Function.Basic
import WamrExt.Base.Errno
import WamrExt.Lib.Transition

/-!
# Child processes

Threads of an instance start processes and wait for them, each at any time. A child is known to
the instance by two maps: from its pid to the read end of a pipe that hangs up when the child
ends, and from this descriptor back to the child.

`ProcessWaitPID` copies descriptors out of the first map under the lock of the manager, and then
uses them without it: it polls them, reads from those that are ready, and looks each of them up in
the second map, under the lock again. What lies between is open to everybody else: other threads
wait for the same child, start new ones, and open and close descriptors of their own. The host
gives out the number of a closed descriptor again.

A section under a lock is one step, except that the end of a reap is cut in two, since the
descriptor is closed before the maps are changed. The two results of a wait are kept with the
call: they are words in guest memory that only this call writes here.
-/

set_option autoImplicit false

namespace WamrExt
namespace Process

open Transition Base

/-- `ProcManager` without its lock: the poll pipe of each child, and the child of each poll pipe,
which is an iterator into the first map. -/
structure ProcManager where
  childProcMap : AList (fun _ : ℕ => ℕ) := ∅
  pollFDToProcMap : AList (fun _ : ℕ => ℕ) := ∅

/-- What a descriptor of the host refers to: an end of a poll pipe, each with the number of its
pipe, or something else. -/
inductive HostFile where
  | pollPipe (pipe : ℕ)
  | pipeWrite (pipe : ℕ)
  | other
  deriving DecidableEq, Repr

/-- A child that has not been reaped: the number of its pipe, and its wait status once it has
ended. -/
structure ChildProc where
  pipe : ℕ
  status : Option ℕ := none
  deriving DecidableEq, Repr

/-- The arguments of `ProcessWaitPID`. -/
structure WaitCall where
  pid : ℤ
  opt : UInt32
  deriving DecidableEq, Repr

/-- What a wait has stored through `exitStatus` and `retPID`, if it has stored something. -/
structure WaitOuts where
  exitStatus : Option ℕ := none
  retPID : Option ℕ := none
  deriving DecidableEq, Repr

/-- A descriptor that a wait has copied out. No step reads the last two fields: the child it was
copied for, and what it referred to then. -/
structure Copied where
  fd : ℕ
  pid : ℕ
  file : Option HostFile
  deriving DecidableEq, Repr

/-- Where a thread is. In a wait: before it copies the descriptors, before `poll`, before `read`,
before it looks a descriptor up, before it changes the maps, and at the return. In a spawn:
between `pipe` and `posix_spawn`, before it inserts the child, and at the return. -/
inductive ProcPoint where
  | idle
  | collect (call : WaitCall)
  | poll (call : WaitCall) (fds : List Copied)
  | read (call : WaitCall) (outs : WaitOuts) (fd : Copied) (rest : List (Copied × Bool))
  | look (call : WaitCall) (outs : WaitOuts) (fd : Copied) (rest : List (Copied × Bool))
  | erase (call : WaitCall) (outs : WaitOuts) (rest : List (Copied × Bool))
  | waited (call : WaitCall) (err : ℕ) (outs : WaitOuts)
  | piped (readEnd writeEnd pipe : ℕ)
  | spawned (pid readEnd : ℕ)
  | spawnReturned (pid : Option ℕ)
  deriving DecidableEq, Repr

/-- Outside of any call. -/
def ProcPoint.AtRest : ProcPoint → Prop
  | .idle | .waited _ _ _ | .spawnReturned _ => True
  | _ => False

instance : ∀ p : ProcPoint, Decidable p.AtRest
  | .idle | .waited _ _ _ | .spawnReturned _ => isTrue trivial
  | .collect _ | .poll _ _ | .read _ _ _ _ | .look _ _ _ _ | .erase _ _ _ | .piped _ _ _
  | .spawned _ _ => isFalse id

/-- A reap that holds the lock of the manager: the thread, the child, and its descriptor. -/
structure Reap where
  thread : ℕ
  pid : ℕ
  fd : ℕ
  deriving DecidableEq, Repr

/-- What the threads share: the manager with its lock, which a reap holds over two steps, the
lock `m_gProcessSpawnLock`, and the descriptors and children of the host process. -/
structure ProcShared where
  manager : ProcManager := {}
  procLock : Option Reap := none
  spawnLock : Option ℕ := none
  fds : ℕ → Option HostFile := fun _ => none
  children : ℕ → Option ChildProc := fun _ => none
  nextPipe : ℕ := 0

/-- The threads of an instance with what they share. -/
structure ProcSystem extends ProcShared where
  points : ℕ → ProcPoint := fun _ => .idle

/-- What `poll` answers: an error, that the time is over, or for each entry whether it is
readable or hung up. -/
inductive PollAnswer where
  | failed (errno : ℕ)
  | timeout
  | ready (revents : List Bool)

/-- The steps of the threads, of the children, and of everybody else in the host process. -/
inductive ProcAction where
  | wait (thread : ℕ) (call : WaitCall)
  /-- The lock section at the start of a turn. The children of a wait for any child come in the
  order of the map, which is any order. -/
  | copy (thread : ℕ) (order : List ℕ)
  | poll (thread : ℕ) (answer : PollAnswer)
  | read (thread : ℕ)
  | look (thread : ℕ)
  | erase (thread : ℕ)
  /-- A spawn creates its pipe, if the host has two descriptors for it. -/
  | pipe (thread : ℕ) (ends : Option (ℕ × ℕ))
  /-- `posix_spawn` gives a pid, or fails. -/
  | posixSpawn (thread : ℕ) (pid : Option ℕ)
  | insert (thread : ℕ)
  | childExit (pid status : ℕ)
  | openOther (fd : ℕ)
  | closeOther (fd : ℕ)

/-- `UVWASI_ECHILD` -/
def uvwasiECHILD : ℕ := 12

/-- `__WASI_WNOHANG` -/
def wasiWNOHANG : UInt32 := 1

namespace ProcShared

variable (s : ProcShared)

/-- A descriptor refers to something else, or to nothing. -/
def setFD (fd : ℕ) (file : Option HostFile) : ProcShared :=
  { s with fds := Function.update s.fds fd file }

/-- A child changes, or is gone. -/
def setChild (pid : ℕ) (child : Option ChildProc) : ProcShared :=
  { s with children := Function.update s.children pid child }

/-! ## Waits -/

/-- The descriptor of a child, copied out. -/
def copied (pid : ℕ) : Option Copied :=
  (s.manager.childProcMap.lookup pid).map fun fd => ⟨fd, pid, s.fds fd⟩

/-- `waitpid` with `WNOHANG`: the child is running, is reaped with a status, or is none of this
process. -/
inductive WaitAnswer where
  | running
  | reaped (status : ℕ)
  | noChild

def waitpid (pid : ℕ) : WaitAnswer :=
  match s.children pid with
  | none => .noChild
  | some child =>
      match child.status with
      | none => .running
      | some status => .reaped status

/-- The descriptor of a child that is over is closed under the lock. The maps come next. -/
def closeChild (reap : Reap) : ProcShared :=
  { s.setFD reap.fd none with procLock := some reap }

/-- The maps forget a child, and the lock is released. -/
def eraseChild (reap : Reap) : ProcShared :=
  { s with
    manager :=
      { childProcMap := s.manager.childProcMap.erase reap.pid
        pollFDToProcMap := s.manager.pollFDToProcMap.erase reap.fd }
    procLock := none }

/-! ## Spawns -/

/-- `pipe`, with the spawn lock taken. -/
def makePipe (thread readEnd writeEnd : ℕ) : ProcShared :=
  { (s.setFD readEnd (some (.pollPipe s.nextPipe))).setFD writeEnd
      (some (.pipeWrite s.nextPipe)) with
    spawnLock := some thread
    nextPipe := s.nextPipe + 1 }

/-- `posix_spawn` started a child: the write end is closed, and the spawn lock released. -/
def spawnChild (writeEnd pipe pid : ℕ) : ProcShared :=
  { (s.setChild pid (some { pipe := pipe })).setFD writeEnd none with spawnLock := none }

/-- `posix_spawn` failed: both ends are closed, and the spawn lock released. -/
def spawnFailed (readEnd writeEnd : ℕ) : ProcShared :=
  { (s.setFD writeEnd none).setFD readEnd none with spawnLock := none }

/-- The maps learn of a child. -/
def insertChild (pid readEnd : ℕ) : ProcShared :=
  { s with
    manager :=
      { childProcMap := s.manager.childProcMap.insert pid readEnd
        pollFDToProcMap := s.manager.pollFDToProcMap.insert readEnd pid } }

end ProcShared

/-- The point after an entry of the array has been handled: the return once a child has been
found, the next entry that is ready, and at the end of the array the return of a wait that does
not hang, or the next turn. -/
def advance (call : WaitCall) (outs : WaitOuts) : List (Copied × Bool) → ProcPoint
  | [] =>
      if outs.retPID ≠ some 0 ∨ call.opt &&& wasiWNOHANG ≠ 0 then .waited call 0 outs
      else .collect call
  | (fd, ready) :: rest =>
      if outs.retPID ≠ some 0 then .waited call 0 outs
      else if ready then .read call outs fd rest
      else advance call outs rest

/-- After `poll`. Nothing is stored when it fails, and 0 in `retPID` otherwise. -/
def polled (call : WaitCall) (fds : List Copied) : PollAnswer → ProcPoint
  | .failed errno => .waited call (convertErrnoToWasiErrno errno) {}
  | .timeout => .waited call 0 { retPID := some 0 }
  | .ready revents => advance call { retPID := some 0 } (fds.zip revents)

/-- `WEXITSTATUS` -/
def wexitstatus (status : ℕ) : ℕ := status / 256 % 256

namespace ProcSystem

variable (s : ProcSystem)

/-- A thread comes to a point, and leaves what is shared as given. -/
def goesTo (thread : ℕ) (p : ProcPoint) (shared : ProcShared) : ProcSystem :=
  { shared with points := Function.update s.points thread p }

/-- A thread comes to a point, and changes nothing that is shared. -/
def moves (thread : ℕ) (p : ProcPoint) : ProcSystem := s.goesTo thread p s.toProcShared

/-- The lock section at the start of a turn of a wait. -/
def copyFDs (thread : ℕ) (call : WaitCall) (order : List ℕ) : Option ProcSystem :=
  if 0 < call.pid then
    match s.copied call.pid.toNat with
    | none => some (s.moves thread (.waited call uvwasiECHILD {}))
    | some fd => some (s.moves thread (.poll call [fd]))
  else if s.manager.childProcMap.keys = [] then
    some (s.moves thread (.waited call uvwasiECHILD {}))
  else if order.Perm s.manager.childProcMap.keys then
    some (s.moves thread (.poll call (order.filterMap s.copied)))
  else none

/-- The lock section for a descriptor that is ready. -/
def lookFD (thread : ℕ) (call : WaitCall) (outs : WaitOuts) (fd : Copied)
    (rest : List (Copied × Bool)) : ProcSystem :=
  match s.manager.pollFDToProcMap.lookup fd.fd with
  | none => s.moves thread (advance call outs rest)
  | some pid =>
      match s.waitpid pid with
      | .running => s.moves thread (advance call outs rest)
      | .reaped status =>
          s.goesTo thread (.erase call ⟨some (wexitstatus status), some pid⟩ rest)
            ((s.setChild pid none).closeChild ⟨thread, pid, fd.fd⟩)
      | .noChild =>
          s.goesTo thread (.erase call ⟨some 0, some pid⟩ rest)
            (s.closeChild ⟨thread, pid, fd.fd⟩)

end ProcSystem

/-! ## Steps -/

/-- One step. A thread that needs a lock that is held is not enabled. The host gives out free
descriptors, and pids that no child has. -/
def procStep : Step ProcSystem ProcAction := fun s a =>
  match a with
  | .wait t call => if (s.points t).AtRest then some (s.moves t (.collect call)) else none
  | .copy t order =>
      match s.points t with
      | .collect call => if s.procLock = none then s.copyFDs t call order else none
      | _ => none
  | .poll t answer =>
      match s.points t with
      | .poll call fds => some (s.moves t (polled call fds answer))
      | _ => none
  | .read t =>
      match s.points t with
      | .read call outs fd rest => some (s.moves t (.look call outs fd rest))
      | _ => none
  | .look t =>
      match s.points t with
      | .look call outs fd rest =>
          if s.procLock = none then some (s.lookFD t call outs fd rest) else none
      | _ => none
  | .erase t =>
      match s.points t, s.procLock with
      | .erase call outs rest, some reap =>
          if reap.thread = t then
            some (s.goesTo t (advance call outs rest) (s.eraseChild reap))
          else none
      | _, _ => none
  | .pipe t ends =>
      if (s.points t).AtRest ∧ s.spawnLock = none then
        match ends with
        | none => some (s.moves t (.spawnReturned none))
        | some (r, w) =>
            if s.fds r = none ∧ s.fds w = none ∧ r ≠ w then
              some (s.goesTo t (.piped r w s.nextPipe) (s.makePipe t r w))
            else none
      else none
  | .posixSpawn t pid =>
      match s.points t, pid with
      | .piped r w pipe, some pid =>
          if pid ≠ 0 ∧ s.children pid = none then
            some (s.goesTo t (.spawned pid r) (s.spawnChild w pipe pid))
          else none
      | .piped r w _, none => some (s.goesTo t (.spawnReturned none) (s.spawnFailed r w))
      | _, _ => none
  | .insert t =>
      match s.points t with
      | .spawned pid r =>
          if s.procLock = none then
            some (s.goesTo t (.spawnReturned (some pid)) (s.insertChild pid r))
          else none
      | _ => none
  | .childExit pid status =>
      (s.children pid).bind fun child =>
        if child.status = none then
          some { s with
            toProcShared := s.setChild pid (some { child with status := some status }) }
        else none
  | .openOther fd =>
      if s.fds fd = none then some { s with toProcShared := s.setFD fd (some .other) } else none
  | .closeOther fd =>
      if s.fds fd = some .other then some { s with toProcShared := s.setFD fd none } else none

/-- What a step does, with what it needs: one case for each way through a section of the code. -/
inductive Stepped (s : ProcSystem) : ProcAction → ProcSystem → Prop
  | wait {t : ℕ} {call : WaitCall} (rest : (s.points t).AtRest) :
      Stepped s (.wait t call) (s.moves t (.collect call))
  | noChild {t : ℕ} {order : List ℕ} {call : WaitCall} (here : s.points t = .collect call)
      (free : s.procLock = none) (empty : ¬ 0 < call.pid → s.manager.childProcMap.keys = []) :
      Stepped s (.copy t order) (s.moves t (.waited call uvwasiECHILD {}))
  | copyOne {t : ℕ} {order : List ℕ} {call : WaitCall} {c : Copied}
      (here : s.points t = .collect call) (free : s.procLock = none) (positive : 0 < call.pid)
      (copied : s.copied call.pid.toNat = some c) :
      Stepped s (.copy t order) (s.moves t (.poll call [c]))
  | copyAll {t : ℕ} {order : List ℕ} {call : WaitCall} (here : s.points t = .collect call)
      (free : s.procLock = none) (any : ¬ 0 < call.pid) :
      Stepped s (.copy t order) (s.moves t (.poll call (order.filterMap s.copied)))
  | poll {t : ℕ} {answer : PollAnswer} {call : WaitCall} {fds : List Copied}
      (here : s.points t = .poll call fds) :
      Stepped s (.poll t answer) (s.moves t (polled call fds answer))
  | read {t : ℕ} {call : WaitCall} {outs : WaitOuts} {c : Copied} {rest : List (Copied × Bool)}
      (here : s.points t = .read call outs c rest) :
      Stepped s (.read t) (s.moves t (.look call outs c rest))
  | goesOn {t : ℕ} {call : WaitCall} {outs : WaitOuts} {c : Copied} {rest : List (Copied × Bool)}
      (here : s.points t = .look call outs c rest) (free : s.procLock = none)
      (running : ∀ pid, s.manager.pollFDToProcMap.lookup c.fd = some pid →
        s.waitpid pid = .running) :
      Stepped s (.look t) (s.moves t (advance call outs rest))
  | reaped {t : ℕ} {call : WaitCall} {outs : WaitOuts} {c : Copied} {rest : List (Copied × Bool)}
      {pid status : ℕ} (here : s.points t = .look call outs c rest) (free : s.procLock = none)
      (found : s.manager.pollFDToProcMap.lookup c.fd = some pid)
      (ended : s.waitpid pid = .reaped status) :
      Stepped s (.look t) (s.goesTo t (.erase call ⟨some (wexitstatus status), some pid⟩ rest)
        ((s.setChild pid none).closeChild ⟨t, pid, c.fd⟩))
  | gone {t : ℕ} {call : WaitCall} {outs : WaitOuts} {c : Copied} {rest : List (Copied × Bool)}
      {pid : ℕ} (here : s.points t = .look call outs c rest) (free : s.procLock = none)
      (found : s.manager.pollFDToProcMap.lookup c.fd = some pid)
      (unknown : s.waitpid pid = .noChild) :
      Stepped s (.look t) (s.goesTo t (.erase call ⟨some 0, some pid⟩ rest)
        (s.closeChild ⟨t, pid, c.fd⟩))
  | erase {t : ℕ} {call : WaitCall} {outs : WaitOuts} {rest : List (Copied × Bool)} {reap : Reap}
      (here : s.points t = .erase call outs rest) (lock : s.procLock = some reap)
      (own : reap.thread = t) :
      Stepped s (.erase t) (s.goesTo t (advance call outs rest) (s.eraseChild reap))
  | pipeFailed {t : ℕ} (rest : (s.points t).AtRest) (free : s.spawnLock = none) :
      Stepped s (.pipe t none) (s.moves t (.spawnReturned none))
  | pipe {t r w : ℕ} (rest : (s.points t).AtRest) (free : s.spawnLock = none)
      (unusedR : s.fds r = none) (unusedW : s.fds w = none) (apart : r ≠ w) :
      Stepped s (.pipe t (some (r, w))) (s.goesTo t (.piped r w s.nextPipe) (s.makePipe t r w))
  | spawn {t r w pipe pid : ℕ} (here : s.points t = .piped r w pipe) (positive : pid ≠ 0)
      (fresh : s.children pid = none) :
      Stepped s (.posixSpawn t (some pid))
        (s.goesTo t (.spawned pid r) (s.spawnChild w pipe pid))
  | spawnFailed {t r w pipe : ℕ} (here : s.points t = .piped r w pipe) :
      Stepped s (.posixSpawn t none) (s.goesTo t (.spawnReturned none) (s.spawnFailed r w))
  | insert {t pid r : ℕ} (here : s.points t = .spawned pid r) (free : s.procLock = none) :
      Stepped s (.insert t) (s.goesTo t (.spawnReturned (some pid)) (s.insertChild pid r))
  | childExit {pid status : ℕ} {child : ChildProc} (found : s.children pid = some child)
      (running : child.status = none) :
      Stepped s (.childExit pid status)
        { s with toProcShared := s.setChild pid (some { child with status := some status }) }
  | openOther {fd : ℕ} (unused : s.fds fd = none) :
      Stepped s (.openOther fd) { s with toProcShared := s.setFD fd (some .other) }
  | closeOther {fd : ℕ} (other : s.fds fd = some .other) :
      Stepped s (.closeOther fd) { s with toProcShared := s.setFD fd none }

section Cases

variable {s s' : ProcSystem} {t : ℕ} {call : WaitCall}

theorem stepped_copy {order : List ℕ} (here : s.points t = .collect call)
    (free : s.procLock = none) (taken : s.copyFDs t call order = some s') :
    Stepped s (.copy t order) s' := by
  rw [ProcSystem.copyFDs] at taken
  split at taken
  next positive =>
    split at taken
    next =>
      cases taken
      exact .noChild here free fun any => absurd positive any
    next c copied =>
      cases taken
      exact .copyOne here free positive copied
  next any =>
    split at taken
    next empty =>
      cases taken
      exact .noChild here free fun _ => empty
    next =>
      obtain ⟨_, rfl⟩ := guarded_eq_some.mp taken
      exact .copyAll here free any

theorem stepped_look {outs : WaitOuts} {c : Copied} {rest : List (Copied × Bool)}
    (here : s.points t = .look call outs c rest) (free : s.procLock = none) :
    Stepped s (.look t) (s.lookFD t call outs c rest) := by
  rw [ProcSystem.lookFD]
  split
  next unknown => exact .goesOn here free fun pid found => by cases unknown.symm.trans found
  next pid found =>
    split
    next running =>
      refine .goesOn here free fun pid' found' => ?_
      cases found.symm.trans found'
      exact running
    next status ended => exact .reaped here free found ended
    next unknown => exact .gone here free found unknown

/-- **The cases of a step.** -/
theorem procStep_cases {a : ProcAction} (taken : procStep s a = some s') : Stepped s a s' := by
  cases a with
  | wait t call =>
      obtain ⟨rest, rfl⟩ := guarded_eq_some.mp taken
      exact .wait rest
  | copy t order =>
      simp only [procStep] at taken
      split at taken
      next call here =>
        obtain ⟨free, taken⟩ := Option.ite_none_right_eq_some.mp taken
        exact stepped_copy here free taken
      next => cases taken
  | poll t answer =>
      simp only [procStep] at taken
      split at taken
      next call fds here =>
        cases taken
        exact .poll here
      next => cases taken
  | read t =>
      simp only [procStep] at taken
      split at taken
      next call outs c rest here =>
        cases taken
        exact .read here
      next => cases taken
  | look t =>
      simp only [procStep] at taken
      split at taken
      next call outs c rest here =>
        obtain ⟨free, rfl⟩ := guarded_eq_some.mp taken
        exact stepped_look here free
      next => cases taken
  | erase t =>
      simp only [procStep] at taken
      split at taken
      next call outs rest reap here lock =>
        obtain ⟨own, rfl⟩ := guarded_eq_some.mp taken
        exact .erase here lock own
      next => cases taken
  | pipe t ends =>
      simp only [procStep] at taken
      split at taken
      next enabled =>
        split at taken
        next =>
          cases taken
          exact .pipeFailed enabled.1 enabled.2
        next r w =>
          obtain ⟨⟨unusedR, unusedW, apart⟩, rfl⟩ := guarded_eq_some.mp taken
          exact .pipe enabled.1 enabled.2 unusedR unusedW apart
      next => cases taken
  | posixSpawn t pid =>
      simp only [procStep] at taken
      split at taken
      next r w pipe pid here =>
        obtain ⟨⟨positive, fresh⟩, rfl⟩ := guarded_eq_some.mp taken
        exact .spawn here positive fresh
      next r w pipe here =>
        cases taken
        exact .spawnFailed here
      next => cases taken
  | insert t =>
      simp only [procStep] at taken
      split at taken
      next pid r here =>
        obtain ⟨free, rfl⟩ := guarded_eq_some.mp taken
        exact .insert here free
      next => cases taken
  | childExit pid status =>
      obtain ⟨child, found, taken⟩ := Option.bind_eq_some_iff.mp taken
      obtain ⟨running, rfl⟩ := guarded_eq_some.mp taken
      exact .childExit found running
  | openOther fd =>
      obtain ⟨unused, rfl⟩ := guarded_eq_some.mp taken
      exact .openOther unused
  | closeOther fd =>
      obtain ⟨other, rfl⟩ := guarded_eq_some.mp taken
      exact .closeOther other

end Cases

end Process
end WamrExt
