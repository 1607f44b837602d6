import WamrExt.Process.SpawnInherit

/-!
# The descriptors of a new process

The write end of the pipe of a child has to be inherited by this child and by nobody else, so that
the read end hangs up when the child and what comes from it are gone. It is: a write end is open
in the host process under the lock of the spawns only (`children_hold_own_pipe`).

The other descriptors should not be inherited, except as the standard streams of the new process.
But no place that opens one marks it, not even `SockOpen` when the guest asks for it, since
`F_SETFL` cannot. So a child holds what it should exactly when nothing else of this library is open
as it starts (`children_inherit_only_iff`).
-/

set_option autoImplicit false

namespace WamrExt
namespace Process

open Transition FileActions Socket

variable {s s' : HostProcess}

/-! ## The pipe of a child -/

/-- The write end of a pipe is among the descriptors of a process. -/
def Writes (fds : Table OpenFile) (k : ℕ) : Prop :=
  ∃ n d, fds n = some d ∧ d.file.kind = .pipeWrite k

/-- The read end of a pipe is at its end: nobody has the write end. -/
def HungUp (s : HostProcess) (k : ℕ) : Prop :=
  ¬ Writes s.fds k ∧ ∀ pid proc, s.procs pid = some proc → ¬ Writes proc.fds k

/-- A process has the write end of the child it comes from, if it has one. The host process has
none while the lock is free. The pipe of a child whose spawn is over hangs up when no process that
comes from this child has the write end. -/
structure OwnPipes (s : HostProcess) : Prop where
  held : ∀ pid proc k, s.procs pid = some proc → Writes proc.fds k → k = proc.root
  released : s.spawnLock = none → ∀ k, ¬ Writes s.fds k
  hangsUp : ∀ k, (∀ sp, s.spawnLock = some sp → sp.pipe ≠ k) →
    (∀ pid proc, s.procs pid = some proc → proc.root = k → ¬ Writes proc.fds k) → HungUp s k

theorem Sealed.ownPipes (ok : Sealed s) : OwnPipes s := by
  have held : ∀ pid proc k, s.procs pid = some proc → Writes proc.fds k → k = proc.root := by
    rintro pid proc k here ⟨n, d, known, kind⟩
    exact ok.children pid proc n d k here known kind
  refine ⟨held, ?_, ?_⟩
  · rintro free k ⟨n, d, known, kind⟩
    exact ok.unlocked free k known kind
  · intro k finished gone
    constructor
    · rintro ⟨n, d, known, kind⟩
      obtain ⟨sp, lock, _, _, pipe⟩ := ok.writes n d k known kind
      exact finished sp lock pipe
    · intro pid proc here writes
      exact gone pid proc here (held pid proc k here writes).symm writes

/-- **The pipes of the children.** In every state of every run, only a child and what comes from it
have the write end of its pipe, besides the spawn that holds the lock. -/
theorem children_hold_own_pipe (actions : List InheritAction) :
    Throughout inheritStep OwnPipes {} actions :=
  throughout_always (fun ok taken => ok.step taken) Sealed.ownPipes sealed_start

/-! ## Everything else -/

/-- A file that this library has opened. -/
def FileKind.OfLibrary : FileKind → Prop
  | .foreign => False
  | _ => True

/-- A number of the parent is redirected to a standard stream of the new process. -/
def Redirected (tr : Trace) (n : ℕ) : Prop :=
  ∃ m < 3, tr.redirected m = true ∧ tr.origin m = some n

/-- A child has been started with no descriptors of this library but the redirected ones and the
write end of its pipe. -/
def InheritsOnly (c : StartedChild) : Prop :=
  ∀ n e, c.fds n = some e → e.descriptor.file.kind.OfLibrary →
    e.descriptor.file.kind = .pipeWrite c.pipe ∨
      ∃ m < 3, (trace c.actions).redirected m = true ∧
        ∃ stream, c.fds m = some stream ∧ stream.copyOf = e.copyOf

def ChildrenInheritOnly (s : HostProcess) : Prop := ∀ c ∈ s.started, InheritsOnly c

/-- What is open and would stay in its place in the new process: a descriptor of this library that
is not marked, and not the write end. Each of them is redirected. -/
def NothingElseOpen (s : HostProcess) (sp : Spawning) (actions : List FileAction) : Prop :=
  ∀ n d, s.fds n = some d → d.file.kind.OfLibrary → d.cloexec = false → n ≠ sp.writeEnd →
    (trace actions).origin n = some n → (trace actions).redirected n = false →
      Redirected (trace actions) n

/-- A process that is started finds nothing else open. -/
def StartsClean (s : HostProcess) : InheritAction → Prop
  | .posixSpawn t addclose (some pid) =>
      (inheritStep s (.posixSpawn t addclose (some pid))).isSome →
        ∀ sp arr, s.spawnLock = some sp → sp.stage = .piped arr →
          NothingElseOpen s sp (hostFA arr sp.readEnd addclose)
  | _ => True

section Starts

variable {sp : Spawning} {arr : Dup2FDArr} {addclose : Bool} {t : NewTable OpenFile}

/-- The descriptors of the guest go to the standard streams only. -/
theorem redirected_lt {m : ℕ}
    (redirected : (trace (hostFA arr sp.readEnd addclose)).redirected m = true) : m < 3 := by
  obtain ⟨src, member⟩ := dup2_of_redirected redirected
  rcases List.mem_append.mp member with dup | close
  · obtain ⟨fd, _, made⟩ := List.mem_filterMap.mp dup
    obtain ⟨_, _, same⟩ := Option.map_eq_some_iff.mp made
    cases same
    exact fd.isLt
  · split at close
    · cases List.mem_singleton.mp close
    · cases close

/-- **What a child gets.** It has no more than it should exactly when nothing else is open. -/
theorem inheritsOnly_iff (ok : Sealed s) (lock : s.spawnLock = some sp)
    (stage : sp.stage = .piped arr)
    (started : posixSpawn s.fds (hostFA arr sp.readEnd addclose) = some t) :
    InheritsOnly ⟨sp.pipe, hostFA arr sp.readEnd addclose, t⟩ ↔
      NothingElseOpen s sp (hostFA arr sp.readEnd addclose) := by
  have table := posixSpawn_eq_some started
  constructor
  · intro only n d known library unmarked other origin stays
    have there : t n = some ⟨n, d⟩ :=
      (table n ⟨n, d⟩).mpr ⟨d, origin, known, .inr ⟨stays, unmarked, rfl⟩⟩
    rcases only n ⟨n, d⟩ there library with own | ⟨m, low, redirected, stream, here, copy⟩
    · obtain ⟨sp', lock', _, end_, _⟩ := ok.writes n d _ known own
      cases lock.symm.trans lock'
      exact absurd end_.symm other
    · obtain ⟨_, source, _⟩ := (table m stream).mp here
      exact ⟨m, low, redirected, source.trans (congrArg some copy)⟩
  · intro clean n e there library
    obtain ⟨d, origin, known, ⟨redirected, same⟩ | ⟨stays, unmarked, same⟩⟩ :=
      (table n e).mp there
    · exact .inr ⟨n, redirected_lt redirected, redirected, e, there, rfl⟩
    · obtain ⟨copyOf, descriptor⟩ := e
      have place : n = copyOf := (placed_trace _ n copyOf stays origin).symm
      subst place
      cases same
      by_cases own : n = sp.writeEnd
      · obtain ⟨d', known', kind⟩ := ok.own sp lock (by rw [stage]; trivial)
        cases known.symm.trans ((congrArg s.fds own).trans known')
        exact .inl kind
      · obtain ⟨m, low, redirected, source⟩ :=
          clean n descriptor known library unmarked own origin stays
        exact .inr ⟨m, low, redirected, ⟨n, descriptor.dup⟩,
          (table m _).mpr ⟨descriptor, source, known, .inl ⟨redirected, rfl⟩⟩, rfl⟩

end Starts

/-- In the lock section a process is started with its descriptors, or none is started. -/
theorem started_lockStep {sp : Spawning} {a : InheritAction}
    (taken : lockStep s sp a = some s') :
    s'.started = s.started ∨ ∃ thread addclose pid arr t,
      a = .posixSpawn thread addclose (some pid) ∧ sp.stage = .piped arr ∧
        posixSpawn s.fds (hostFA arr sp.readEnd addclose) = some t ∧
          s'.started = ⟨sp.pipe, hostFA arr sp.readEnd addclose, t⟩ :: s.started := by
  cases a with
  | posixSpawn t addclose pid =>
      simp only [lockStep] at taken
      split at taken
      next =>
        cases taken
        exact .inl rfl
      next arr pid stage =>
        obtain ⟨_, taken⟩ := Option.ite_none_right_eq_some.mp taken
        obtain ⟨table, started, rfl⟩ := Option.map_eq_some_iff.mp taken
        exact .inr ⟨t, addclose, pid, arr, table, rfl, stage, started, rfl⟩
      next => cases taken
  | closeWrite t | unlock t =>
      simp only [lockStep] at taken
      split at taken
      next =>
        cases taken
        exact .inl rfl
      next => cases taken
  | _ => cases taken

/-- A step starts no process, or it starts one with its descriptors. -/
theorem started_step {a : InheritAction} (taken : inheritStep s a = some s') :
    s'.started = s.started ∨ ∃ thread addclose pid sp arr t,
      a = .posixSpawn thread addclose (some pid) ∧ s.spawnLock = some sp ∧ sp.stage = .piped arr ∧
        posixSpawn s.fds (hostFA arr sp.readEnd addclose) = some t ∧
          s'.started = ⟨sp.pipe, hostFA arr sp.readEnd addclose, t⟩ :: s.started := by
  have opened : ∀ {n d}, s.opens n d = some s' → s'.started = s.started := by
    intro n d opens
    obtain ⟨_, rfl⟩ := guarded_eq_some.mp opens
    rfl
  cases a with
  | sockOpen request n | sockAccept n | openForeign n cloexec => exact .inl (opened taken)
  | dupStdio src n =>
      obtain ⟨_, taken⟩ := Option.ite_none_right_eq_some.mp taken
      obtain ⟨d, _, taken⟩ := Option.bind_eq_some_iff.mp taken
      exact .inl (opened taken)
  | close n =>
      obtain ⟨_, same⟩ := Option.ite_none_left_eq_some.mp taken
      cases same
      exact .inl rfl
  | prepare t found actions =>
      simp only [inheritStep] at taken
      split at taken
      · cases taken
        exact .inl rfl
      · obtain ⟨_, same⟩ := Option.ite_none_left_eq_some.mp taken
        cases same
        exact .inl rfl
  | pipe t ends =>
      obtain ⟨arr, _, taken⟩ := Option.bind_eq_some_iff.mp taken
      obtain ⟨_, taken⟩ := Option.ite_none_right_eq_some.mp taken
      cases ends with
      | none =>
          cases taken
          exact .inl rfl
      | some ends =>
          obtain ⟨_, rfl⟩ := guarded_eq_some.mp taken
          exact .inl rfl
  | posixSpawn t _ _ | closeWrite t | unlock t =>
      obtain ⟨sp, lock, taken⟩ := Option.bind_eq_some_iff.mp taken
      obtain ⟨_, taken⟩ := Option.ite_none_right_eq_some.mp taken
      rcases started_lockStep taken with same | ⟨thread, addclose, pid, arr, t, rest⟩
      · exact .inl same
      · exact .inr ⟨thread, addclose, pid, sp, arr, t, rest.1, lock, rest.2⟩
  | childFork pid new kept =>
      obtain ⟨proc, _, taken⟩ := Option.bind_eq_some_iff.mp taken
      obtain ⟨_, rfl⟩ := guarded_eq_some.mp taken
      exact .inl rfl
  | childDup pid n m | childOpen pid n | childClose pid n =>
      obtain ⟨proc, _, rfl⟩ := Option.map_eq_some_iff.mp taken
      exact .inl rfl
  | childExit pid =>
      cases taken
      exact .inl rfl

/-- A spawn that starts a process before the write end is closed. -/
theorem posixSpawn_taken {thread pid : ℕ} {addclose : Bool} {sp : Spawning} {arr : Dup2FDArr}
    (taken : inheritStep s (.posixSpawn thread addclose (some pid)) = some s')
    (lock : s.spawnLock = some sp) (stage : sp.stage = .piped arr) :
    ∃ t, posixSpawn s.fds (hostFA arr sp.readEnd addclose) = some t ∧
      s'.started = ⟨sp.pipe, hostFA arr sp.readEnd addclose, t⟩ :: s.started := by
  obtain ⟨sp', lock', taken⟩ := Option.bind_eq_some_iff.mp taken
  cases lock.symm.trans lock'
  obtain ⟨_, taken⟩ := Option.ite_none_right_eq_some.mp taken
  simp only [lockStep, stage] at taken
  obtain ⟨_, taken⟩ := Option.ite_none_right_eq_some.mp taken
  obtain ⟨t, started, rfl⟩ := Option.map_eq_some_iff.mp taken
  exact ⟨t, started, rfl⟩

/-- A step leaves every child with what it should have exactly when it starts a clean one, if it
starts one. -/
theorem startsClean_iff (ok : Sealed s) (only : ChildrenInheritOnly s) {a : InheritAction} :
    StartsClean s a ↔ ∀ next, inheritStep s a = some next → ChildrenInheritOnly next := by
  constructor
  · intro clean next taken
    rcases started_step taken with same | ⟨_, _, _, sp, arr, t, rfl, lock, stage, started, more⟩
    · rw [ChildrenInheritOnly, same]
      exact only
    · have new := clean (Option.isSome_of_eq_some taken) sp arr lock stage
      rw [ChildrenInheritOnly, more]
      exact List.forall_mem_cons.mpr ⟨(inheritsOnly_iff ok lock stage started).mpr new, only⟩
  · intro after
    cases a with
    | posixSpawn t addclose pid =>
        cases pid with
        | none => trivial
        | some pid =>
            intro enabled sp arr lock stage
            obtain ⟨next, taken⟩ := Option.isSome_iff_exists.mp enabled
            obtain ⟨table, started, more⟩ := posixSpawn_taken taken lock stage
            refine (inheritsOnly_iff ok lock stage started).mp (after next taken _ ?_)
            rw [more]
            exact List.mem_cons_self
    | _ => trivial

/-- **Inheritance.** In every run, every child is started with no descriptors of this library but
the redirected ones and the write end of its own pipe exactly when each of them finds nothing else
open. -/
theorem children_inherit_only_iff (actions : List InheritAction) :
    Throughout inheritStep ChildrenInheritOnly {} actions ↔
      Meets inheritStep StartsClean {} actions := by
  have agree : ∀ {s : HostProcess} {a : InheritAction}, Sealed s ∧ ChildrenInheritOnly s →
      (StartsClean s a ↔ ∀ next, inheritStep s a = some next → ChildrenInheritOnly next) :=
    fun good => startsClean_iff good.1 good.2
  exact throughout_iff agree
    (fun good clean taken => ⟨good.1.step taken, (agree good).mp clean _ taken⟩)
    And.right ⟨sealed_start, nofun⟩

/-- A guest opens a socket with its close-on-exec flag, and starts a process. -/
def cloexecSocket : List InheritAction :=
  [.sockOpen ⟨.inet, .stream, false, true⟩ 4, .prepare 0 (fun _ => none) [], .pipe 0 (some (5, 6)),
    .posixSpawn 0 true (some 100)]

/-- The process has the socket. -/
theorem cloexec_socket_inherited :
    ¬ Throughout inheritStep ChildrenInheritOnly {} cloexecSocket := by
  intro always
  have inherits : (run inheritStep {} cloexecSocket).map (fun s => s.started.map fun c =>
      (c.pipe, c.actions, (c.fds 4).map fun e => e.descriptor.file.kind)) =
        some [(0, [.close 5], some .socket)] := by decide
  obtain ⟨s, reached, same⟩ := Option.map_eq_some_iff.mp inherits
  obtain ⟨c, started, child⟩ := List.map_eq_singleton_iff.mp same
  obtain ⟨pipe, actions, socket⟩ := by simpa only [Prod.mk.injEq] using child
  obtain ⟨e, there, kind⟩ := Option.map_eq_some_iff.mp socket
  rw [← List.append_nil cloexecSocket] at always
  have only := always.after reached c (by rw [started]; exact List.mem_cons_self)
  rcases only 4 e there (by rw [kind]; trivial) with own | ⟨m, _, redirected, _⟩
  · rw [kind] at own
    cases own
  · obtain ⟨src, member⟩ := dup2_of_redirected redirected
    rw [actions] at member
    cases List.mem_singleton.mp member

end Process
end WamrExt
