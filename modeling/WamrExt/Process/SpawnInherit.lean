import WamrExt.Lib.FileActions
import WamrExt.Lib.Transition
import WamrExt.Socket.SockOpen

/-!
# What a spawned process inherits

The instances of a host process share its descriptors. Threads of any of them open sockets,
duplicate the standard streams, and start processes. `ProcessSpawn` looks up the descriptors for
the standard streams of the new process some time before it starts it, so that a number it has
found may be something else by then. From `pipe` to the close of the write end it holds the lock
of the process, `m_gProcessSpawnLock`. No other code of the library takes this lock.

The processes that have been started are followed too: they close, duplicate and open descriptors,
fork, and end. A process that comes from a child belongs to the pipe of this child.
-/

set_option autoImplicit false

namespace WamrExt
namespace Process

open Transition FileActions Socket

/-- What a descriptor refers to: a socket, a duplicate of a standard stream of the host, an end of
the pipe of a child, or something that is not of this library. -/
inductive FileKind where
  | socket
  | stdioCopy
  | pollPipe (pipe : ℕ)
  | pipeWrite (pipe : ℕ)
  | foreign
  deriving DecidableEq, Repr

/-- An open file with its status flag. -/
structure OpenFile where
  kind : FileKind
  nonblock : Bool := false
  deriving DecidableEq, Repr

/-- A new descriptor. `socket`, `accept`, `pipe` and `dup` do not mark it. -/
def newDescriptor (kind : FileKind) : Descriptor OpenFile := { file := { kind := kind } }

/-- `fcntl` with `F_SETFL` adds to the status flags of the file. `O_CLOEXEC` is none of these: it
is ignored. -/
def setFL (d : Descriptor OpenFile) (nonblock _cloexec : Bool) : Descriptor OpenFile :=
  { d with file := { d.file with nonblock := d.file.nonblock || nonblock } }

/-- The descriptor that `SockOpen` makes for a request. -/
def socketDescriptor (request : SocketRequest) : Descriptor OpenFile :=
  setFL (newDescriptor .socket) request.nonblock request.cloexec

/-- `dup` of a standard stream. Whoever held the stream before does not matter, unless it is the
write end of a pipe. -/
def FileKind.dup : FileKind → FileKind
  | .pipeWrite pipe => .pipeWrite pipe
  | _ => .stdioCopy

/-- `dup2FDArr`: the descriptors for the standard streams of the new process. -/
abbrev Dup2FDArr := Fin 3 → Option ℕ

/-- The loop over the actions of the guest, each with its `dest_fd` and what was found for its
`src_fd`. Only standard streams can be redirected. -/
def dup2FDArr (arr : Dup2FDArr) : List (ℤ × Except UInt16 ℕ) → Except UInt16 Dup2FDArr
  | [] => .ok arr
  | (destFD, found) :: rest =>
      if destFD < 0 ∨ 3 ≤ destFD then dup2FDArr arr rest
      else
        match found with
        | .error err => .error err
        | .ok hostFD => dup2FDArr (Function.update arr (Fin.ofNat 3 destFD.toNat) (some hostFD)) rest

/-- `hostFA`. The close of the read end comes last, if there is room for it. -/
def hostFA (arr : Dup2FDArr) (readEnd : ℕ) (addclose : Bool) : List FileAction :=
  ((List.finRange 3).filterMap fun fd => (arr fd).map fun src => .dup2 src fd) ++
    if addclose then [.close readEnd] else []

/-- Where a spawn is that holds the lock: before `posix_spawn`, before the close of the write end,
and before the lock is released. -/
inductive SpawnStage where
  | piped (arr : Dup2FDArr)
  | spawned (failed : Bool)
  | closed (failed : Bool)

/-- The write end is open. -/
def SpawnStage.Writing : SpawnStage → Prop
  | .piped _ | .spawned _ => True
  | .closed _ => False

/-- The spawn that holds the lock, with its pipe. -/
structure Spawning where
  thread : ℕ
  readEnd : ℕ
  writeEnd : ℕ
  pipe : ℕ
  stage : SpawnStage

/-- A process that was started by a spawn, or comes from such a process: the pipe of the child it
comes from, and its descriptors. -/
structure ChildProcess where
  root : ℕ
  fds : Table OpenFile

/-- A child as it was started. -/
structure StartedChild where
  pipe : ℕ
  actions : List FileAction
  fds : NewTable OpenFile

/-- The host process: its descriptors, the spawns that have found theirs, the lock, the processes
that have been started, and the record of their starts. -/
structure HostProcess where
  fds : Table OpenFile := fun _ => none
  prepared : ℕ → Option Dup2FDArr := fun _ => none
  spawnLock : Option Spawning := none
  nextPipe : ℕ := 0
  procs : ℕ → Option ChildProcess := fun _ => none
  started : List StartedChild := []

/-- The steps of the threads, of everybody else in the host process, and of the processes that
have been started. -/
inductive InheritAction where
  | sockOpen (request : SocketRequest) (n : ℕ)
  | sockAccept (n : ℕ)
  /-- `wamr_ext_instance_start` duplicates the descriptor of a standard stream. -/
  | dupStdio (src n : ℕ)
  | openForeign (n : ℕ) (cloexec : Bool)
  | close (n : ℕ)
  /-- A spawn looks up the descriptors for the standard streams. -/
  | prepare (thread : ℕ) (found : Dup2FDArr) (actions : List (ℤ × Except UInt16 ℕ))
  /-- It takes the lock and makes its pipe, if the host has two descriptors for it. -/
  | pipe (thread : ℕ) (ends : Option (ℕ × ℕ))
  | posixSpawn (thread : ℕ) (addclose : Bool) (pid : Option ℕ)
  | closeWrite (thread : ℕ)
  /-- It closes the read end if no process was started, and releases the lock. -/
  | unlock (thread : ℕ)
  | childFork (pid new : ℕ) (kept : ℕ → Bool)
  | childDup (pid n m : ℕ)
  | childOpen (pid n : ℕ)
  | childClose (pid n : ℕ)
  | childExit (pid : ℕ)

namespace HostProcess

variable (s : HostProcess)

def setFD (n : ℕ) (d : Option (Descriptor OpenFile)) : HostProcess :=
  { s with fds := Function.update s.fds n d }

def setProc (pid : ℕ) (proc : Option ChildProcess) : HostProcess :=
  { s with procs := Function.update s.procs pid proc }

/-- A process changes one of its descriptors. -/
def setChildFD (pid n : ℕ) (proc : ChildProcess) (d : Option (Descriptor OpenFile)) :
    HostProcess :=
  s.setProc pid (some { proc with fds := Function.update proc.fds n d })

/-- A descriptor is in the hands of the spawn that holds the lock. -/
def HeldBySpawn (n : ℕ) : Prop := ∃ sp ∈ s.spawnLock, n = sp.readEnd ∨ n = sp.writeEnd

instance (n : ℕ) : Decidable (s.HeldBySpawn n) :=
  inferInstanceAs (Decidable (∃ sp ∈ s.spawnLock, n = sp.readEnd ∨ n = sp.writeEnd))

/-- The host gives out a free number. -/
def opens (n : ℕ) (d : Descriptor OpenFile) : Option HostProcess :=
  if s.fds n = none then some (s.setFD n (some d)) else none

/-- `pipe`, with the lock taken. -/
def makePipe (thread : ℕ) (arr : Dup2FDArr) (r w : ℕ) : HostProcess :=
  { (s.setFD r (some (newDescriptor (.pollPipe s.nextPipe)))).setFD w
      (some (newDescriptor (.pipeWrite s.nextPipe))) with
    prepared := Function.update s.prepared thread none
    spawnLock := some ⟨thread, r, w, s.nextPipe, .piped arr⟩
    nextPipe := s.nextPipe + 1 }

/-- A process has been started. -/
def startChild (sp : Spawning) (actions : List FileAction) (pid : ℕ) (t : NewTable OpenFile) :
    HostProcess :=
  { s.setProc pid (some ⟨sp.pipe, fun n => (t n).map Inherited.descriptor⟩) with
    spawnLock := some { sp with stage := .spawned false }
    started := ⟨sp.pipe, actions, t⟩ :: s.started }

end HostProcess

/-- The lock section of a spawn. -/
def lockStep (s : HostProcess) (sp : Spawning) : InheritAction → Option HostProcess
  | .posixSpawn _ addclose pid =>
      match sp.stage, pid with
      | .piped _, none => some { s with spawnLock := some { sp with stage := .spawned true } }
      | .piped arr, some pid =>
          if (s.procs pid).isNone then
            (posixSpawn s.fds (hostFA arr sp.readEnd addclose)).map
              (s.startChild sp (hostFA arr sp.readEnd addclose) pid)
          else none
      | _, _ => none
  | .closeWrite _ =>
      match sp.stage with
      | .spawned failed =>
          some { s.setFD sp.writeEnd none with
            spawnLock := some { sp with stage := .closed failed } }
      | _ => none
  | .unlock _ =>
      match sp.stage with
      | .closed failed =>
          some { s.setFD sp.readEnd
              (if failed then none else (s.fds sp.readEnd).map fun d => setFL d true false) with
            spawnLock := none }
      | _ => none
  | _ => none

/-- One step. The descriptors of a pipe are none of the standard streams. -/
def inheritStep : Step HostProcess InheritAction := fun s a =>
  match a with
  | .sockOpen request n => s.opens n (socketDescriptor request)
  | .sockAccept n => s.opens n (newDescriptor .socket)
  | .dupStdio src n =>
      if src < 3 then
        (s.fds src).bind fun d => s.opens n (newDescriptor d.file.kind.dup)
      else none
  | .openForeign n cloexec => s.opens n { newDescriptor .foreign with cloexec := cloexec }
  | .close n => if s.HeldBySpawn n then none else some (s.setFD n none)
  | .prepare t found actions =>
      match dup2FDArr found actions with
      | .error _ => some s
      | .ok arr =>
          if ∃ sp ∈ s.spawnLock, sp.thread = t then none
          else some { s with prepared := Function.update s.prepared t (some arr) }
  | .pipe t ends =>
      (s.prepared t).bind fun arr =>
        if s.spawnLock.isNone then
          match ends with
          | none => some { s with prepared := Function.update s.prepared t none }
          | some (r, w) =>
              if s.fds r = none ∧ s.fds w = none ∧ r ≠ w ∧ 3 ≤ r ∧ 3 ≤ w then
                some (s.makePipe t arr r w)
              else none
        else none
  | .posixSpawn t _ _ | .closeWrite t | .unlock t =>
      s.spawnLock.bind fun sp => if sp.thread = t then lockStep s sp a else none
  | .childFork pid new kept =>
      (s.procs pid).bind fun proc =>
        if (s.procs new).isNone then
          some (s.setProc new
            (some { proc with fds := fun n => if kept n then proc.fds n else none }))
        else none
  | .childDup pid n m =>
      (s.procs pid).map fun proc => s.setChildFD pid m proc ((proc.fds n).map Descriptor.dup)
  | .childOpen pid n =>
      (s.procs pid).map fun proc => s.setChildFD pid n proc (some (newDescriptor .foreign))
  | .childClose pid n => (s.procs pid).map fun proc => s.setChildFD pid n proc none
  | .childExit pid => some (s.setProc pid none)

/-! ## The invariant -/

/-- The write end of a pipe is with the spawn that holds the lock, and with processes that come
from the child that was started with it. -/
structure Sealed (s : HostProcess) : Prop where
  writes : ∀ n d k, s.fds n = some d → d.file.kind = .pipeWrite k →
    ∃ sp, s.spawnLock = some sp ∧ sp.stage.Writing ∧ sp.writeEnd = n ∧ sp.pipe = k
  own : ∀ sp, s.spawnLock = some sp → sp.stage.Writing →
    ∃ d, s.fds sp.writeEnd = some d ∧ d.file.kind = .pipeWrite sp.pipe
  high : ∀ sp, s.spawnLock = some sp → 3 ≤ sp.writeEnd
  children : ∀ pid proc n d k, s.procs pid = some proc → proc.fds n = some d →
    d.file.kind = .pipeWrite k → k = proc.root

section Steps

variable {s s' : HostProcess} {n pid : ℕ} {d : Descriptor OpenFile}

/-- A write end is open, so its number is not given out. -/
theorem Sealed.unused_ne (ok : Sealed s) (unused : s.fds n = none) {sp : Spawning}
    (lock : s.spawnLock = some sp) (writing : sp.stage.Writing) : n ≠ sp.writeEnd := by
  rintro rfl
  obtain ⟨d, known, _⟩ := ok.own sp lock writing
  rw [unused] at known
  cases known

/-- A descriptor that is no write end changes to one that is none. -/
theorem Sealed.setFD (ok : Sealed s) {d : Option (Descriptor OpenFile)}
    (other : ∀ sp, s.spawnLock = some sp → sp.stage.Writing → n ≠ sp.writeEnd)
    (noWrite : ∀ e k, d = some e → e.file.kind ≠ .pipeWrite k) : Sealed (s.setFD n d) := by
  refine ⟨?_, ?_, ok.high, ok.children⟩
  · intro m e k known kind
    change Function.update s.fds n d m = some e at known
    rw [Function.update_apply] at known
    split at known
    · exact absurd kind (noWrite e k known)
    · exact ok.writes m e k known kind
  · intro sp lock writing
    obtain ⟨e, known, kind⟩ := ok.own sp lock writing
    exact ⟨e, (Function.update_of_ne (other sp lock writing).symm _ _).trans known, kind⟩

theorem Sealed.opens (ok : Sealed s) (noWrite : ∀ k, d.file.kind ≠ .pipeWrite k)
    (taken : s.opens n d = some s') : Sealed s' := by
  obtain ⟨unused, rfl⟩ := guarded_eq_some.mp taken
  apply ok.setFD (fun sp lock writing => ok.unused_ne unused lock writing)
  rintro _ k ⟨⟩
  exact noWrite k

/-- A standard stream is not the write end of a pipe. -/
theorem Sealed.stdio (ok : Sealed s) (low : n < 3) (known : s.fds n = some d) (k : ℕ) :
    d.file.kind ≠ .pipeWrite k := by
  intro kind
  obtain ⟨sp, lock, _, same, _⟩ := ok.writes n d k known kind
  have high := ok.high sp lock
  omega

theorem FileKind.dup_ne {kind : FileKind} {k : ℕ} (other : kind ≠ .pipeWrite k) :
    kind.dup ≠ .pipeWrite k := by
  intro same
  cases kind with
  | pipeWrite pipe => exact other same
  | _ => cases same

/-- A process gets other descriptors, none of which is a write end of another child. -/
theorem Sealed.setProc (ok : Sealed s) {proc : Option ChildProcess}
    (own : ∀ p, proc = some p → ∀ n d k, p.fds n = some d → d.file.kind = .pipeWrite k →
      k = p.root) : Sealed (s.setProc pid proc) := by
  refine ⟨ok.writes, ok.own, ok.high, ?_⟩
  intro pid' p n d k known
  change Function.update s.procs pid proc pid' = some p at known
  rw [Function.update_apply] at known
  split at known
  · exact own p known n d k
  · exact ok.children pid' p n d k known

theorem Sealed.setChildFD (ok : Sealed s) {proc : ChildProcess} (here : s.procs pid = some proc)
    {d : Option (Descriptor OpenFile)}
    (own : ∀ e k, d = some e → e.file.kind = .pipeWrite k → k = proc.root) :
    Sealed (s.setChildFD pid n proc d) := by
  apply ok.setProc
  rintro _ ⟨⟩ m e k known kind
  change Function.update proc.fds n d m = some e at known
  rw [Function.update_apply] at known
  split at known
  · exact own e k known kind
  · exact ok.children pid proc m e k here known kind

/-- While the lock is free, there is no write end in the host process. -/
theorem Sealed.unlocked (ok : Sealed s) (free : s.spawnLock = none) (k : ℕ)
    (known : s.fds n = some d) : d.file.kind ≠ .pipeWrite k := by
  intro kind
  obtain ⟨sp, lock, _⟩ := ok.writes n d k known kind
  rw [free] at lock
  cases lock

theorem Sealed.makePipe (ok : Sealed s) (free : s.spawnLock = none) {r w : ℕ} (t : ℕ)
    (arr : Dup2FDArr) (high : 3 ≤ w) : Sealed (s.makePipe t arr r w) := by
  refine ⟨?_, ?_, ?_, ok.children⟩
  · intro m e k known kind
    change Function.update (Function.update s.fds r _) w _ m = some e at known
    simp only [Function.update_apply] at known
    split at known
    next same =>
      cases known
      cases kind
      exact ⟨_, rfl, trivial, same.symm, rfl⟩
    next =>
      split at known
      · cases known
        cases kind
      · exact absurd kind (ok.unlocked free k known)
  · rintro _ ⟨⟩ _
    exact ⟨_, Function.update_self _ _ _, rfl⟩
  · rintro _ ⟨⟩
    exact high

section Locked

variable {sp : Spawning} (lock : s.spawnLock = some sp)

include lock

/-- A write end in the host process is that of the spawn that holds the lock. -/
theorem Sealed.writer (ok : Sealed s) {k : ℕ} (known : s.fds n = some d)
    (kind : d.file.kind = .pipeWrite k) :
    sp.stage.Writing ∧ sp.writeEnd = n ∧ sp.pipe = k := by
  obtain ⟨sp', lock', held⟩ := ok.writes n d k known kind
  cases lock.symm.trans lock'
  exact held

/-- The spawn comes to a stage in which it still has its write end. -/
theorem Sealed.restage (ok : Sealed s) (writing : sp.stage.Writing) {stage : SpawnStage}
    (later : stage.Writing) : Sealed { s with spawnLock := some { sp with stage := stage } } := by
  refine ⟨?_, ?_, ?_, ok.children⟩
  · intro m e k known kind
    obtain ⟨_, end_, pipe⟩ := ok.writer lock known kind
    exact ⟨_, rfl, later, end_, pipe⟩
  · rintro _ ⟨⟩ _
    exact ok.own sp lock writing
  · rintro _ ⟨⟩
    exact ok.high sp lock

/-- A new process has the write end of its own pipe only. -/
theorem Sealed.startChild (ok : Sealed s) {arr : Dup2FDArr} (stage : sp.stage = .piped arr)
    {actions : List FileAction} {t : NewTable OpenFile}
    (started : posixSpawn s.fds actions = some t) :
    Sealed (s.startChild sp actions pid t) := by
  have writing : sp.stage.Writing := by
    rw [stage]
    trivial
  have staged : Sealed { s with spawnLock := some { sp with stage := .spawned false } } :=
    ok.restage lock writing trivial
  refine ⟨staged.writes, staged.own, staged.high, (ok.setProc ?_).children⟩
  rintro _ ⟨⟩ m e k known kind
  obtain ⟨inherited, there, rfl⟩ := Option.map_eq_some_iff.mp known
  obtain ⟨d, _, source, kept⟩ := (posixSpawn_eq_some started m inherited).mp there
  have same : inherited.descriptor.file = d.file := by
    rcases kept with ⟨_, copied⟩ | ⟨_, _, copied⟩
    · rw [copied]
      rfl
    · rw [copied]
  rw [same] at kind
  exact (ok.writer lock source kind).2.2.symm

/-- The write end is closed. -/
theorem Sealed.closeWrite (ok : Sealed s) (failed : Bool) :
    Sealed { s.setFD sp.writeEnd none with
      spawnLock := some { sp with stage := .closed failed } } := by
  refine ⟨?_, ?_, ?_, ok.children⟩
  · intro m e k known kind
    change Function.update s.fds sp.writeEnd none m = some e at known
    rw [Function.update_apply] at known
    split at known
    · cases known
    next other =>
      exact absurd (ok.writer lock known kind).2.1.symm other
  · rintro _ ⟨⟩ writing
    exact absurd writing id
  · rintro _ ⟨⟩
    exact ok.high sp lock

/-- The lock is released. -/
theorem Sealed.unlock (ok : Sealed s) {failed : Bool} (stage : sp.stage = .closed failed) :
    Sealed { s.setFD sp.readEnd
        (if failed then none else (s.fds sp.readEnd).map fun d => setFL d true false) with
      spawnLock := none } := by
  have closed : ∀ m e k, s.fds m = some e → e.file.kind ≠ .pipeWrite k := by
    intro m e k known kind
    have writing := (ok.writer lock known kind).1
    rw [stage] at writing
    exact writing
  refine ⟨?_, nofun, nofun, ok.children⟩
  intro m e k known kind
  change Function.update s.fds sp.readEnd _ m = some e at known
  rw [Function.update_apply] at known
  split at known
  · split at known
    · cases known
    · obtain ⟨d, source, rfl⟩ := Option.map_eq_some_iff.mp known
      exact absurd kind (closed _ d k source)
  · exact absurd kind (closed m e k known)

theorem Sealed.lockStep (ok : Sealed s) {a : InheritAction} (taken : lockStep s sp a = some s') :
    Sealed s' := by
  cases a with
  | posixSpawn t addclose pid =>
      simp only [Process.lockStep] at taken
      split at taken
      next arr stage =>
        cases taken
        have writing : sp.stage.Writing := by
          rw [stage]
          trivial
        exact ok.restage lock writing trivial
      next arr pid stage =>
        obtain ⟨_, taken⟩ := Option.ite_none_right_eq_some.mp taken
        obtain ⟨t, started, rfl⟩ := Option.map_eq_some_iff.mp taken
        exact ok.startChild lock stage started
      next => cases taken
  | closeWrite t =>
      simp only [Process.lockStep] at taken
      split at taken
      next failed stage =>
        cases taken
        exact ok.closeWrite lock failed
      next => cases taken
  | unlock t =>
      simp only [Process.lockStep] at taken
      split at taken
      next failed stage =>
        cases taken
        exact ok.unlock lock stage
      next => cases taken
  | _ => cases taken

end Locked

/-- **Every step keeps the write ends sealed.** -/
theorem Sealed.step (ok : Sealed s) {a : InheritAction} (taken : inheritStep s a = some s') :
    Sealed s' := by
  cases a with
  | sockOpen request n | sockAccept n =>
      exact ok.opens (fun k (same : FileKind.socket = .pipeWrite k) => by cases same) taken
  | openForeign n cloexec =>
      exact ok.opens (fun k (same : FileKind.foreign = .pipeWrite k) => by cases same) taken
  | dupStdio src n =>
      obtain ⟨low, taken⟩ := Option.ite_none_right_eq_some.mp taken
      obtain ⟨d, known, taken⟩ := Option.bind_eq_some_iff.mp taken
      exact ok.opens (fun k => FileKind.dup_ne (ok.stdio low known k)) taken
  | close n =>
      obtain ⟨apart, same⟩ := Option.ite_none_left_eq_some.mp taken
      cases same
      refine ok.setFD (fun sp lock _ same => ?_) nofun
      exact apart ⟨sp, lock, .inr same⟩
  | prepare t found actions =>
      simp only [inheritStep] at taken
      split at taken
      · cases taken
        exact ok
      · obtain ⟨_, same⟩ := Option.ite_none_left_eq_some.mp taken
        cases same
        exact ⟨ok.writes, ok.own, ok.high, ok.children⟩
  | pipe t ends =>
      obtain ⟨arr, _, taken⟩ := Option.bind_eq_some_iff.mp taken
      obtain ⟨free, taken⟩ := Option.ite_none_right_eq_some.mp taken
      cases ends with
      | none =>
          cases taken
          exact ⟨ok.writes, ok.own, ok.high, ok.children⟩
      | some ends =>
          obtain ⟨⟨_, _, _, _, high⟩, rfl⟩ := guarded_eq_some.mp taken
          exact ok.makePipe (Option.isNone_iff_eq_none.mp free) t arr high
  | posixSpawn t _ _ | closeWrite t | unlock t =>
      obtain ⟨sp, lock, taken⟩ := Option.bind_eq_some_iff.mp taken
      obtain ⟨_, taken⟩ := Option.ite_none_right_eq_some.mp taken
      exact ok.lockStep lock taken
  | childFork pid new kept =>
      obtain ⟨proc, here, taken⟩ := Option.bind_eq_some_iff.mp taken
      obtain ⟨_, rfl⟩ := guarded_eq_some.mp taken
      apply ok.setProc
      rintro _ ⟨⟩ m e k known kind
      refine ok.children pid proc m e k here ?_ kind
      simp only at known
      split at known
      · exact known
      · cases known
  | childDup pid n m =>
      obtain ⟨proc, here, rfl⟩ := Option.map_eq_some_iff.mp taken
      apply ok.setChildFD here
      intro e k copied kind
      obtain ⟨d, source, rfl⟩ := Option.map_eq_some_iff.mp copied
      exact ok.children pid proc n d k here source kind
  | childOpen pid n =>
      obtain ⟨proc, here, rfl⟩ := Option.map_eq_some_iff.mp taken
      apply ok.setChildFD here
      rintro _ k ⟨⟩ kind
      cases kind
  | childClose pid n =>
      obtain ⟨proc, here, rfl⟩ := Option.map_eq_some_iff.mp taken
      exact ok.setChildFD here nofun
  | childExit pid =>
      cases taken
      exact ok.setProc nofun

theorem sealed_start : Sealed {} where
  writes := nofun
  own := nofun
  high := nofun
  children := nofun

end Steps

end Process
end WamrExt
