import WamrExt.Process.WaitPid

/-!
# Each child is reported once

A child is known by the number of its pipe, since pids and descriptors are given out again. It is
reported by the wait that reaps it, when this wait returns 0 with its pid. The history of a run
keeps which children have been spawned, and which have been reported (`historyStep`).

Whatever the threads do, no child is reported twice, a child whose spawn has returned is in the
maps until it is reported and in neither of them afterwards, and a wait for any child finds none
only when all of them have been reported (`children_reported_once`).

The reap of a child lasts over two steps, with the lock of the manager held. After the second one
the wait that does it has nothing left to do but return.
-/

set_option autoImplicit false

namespace WamrExt
namespace Process

open Transition Base

/-- The threads of an instance with the history of its children: the pid that each child was given,
the children whose `ProcessSpawn` has returned, the child that is just being reaped, and the
reports, each with the child it is about. No step reads the history. -/
structure ProcHistory extends ProcSystem where
  pidOf : ℕ → Option ℕ := fun _ => none
  returned : List ℕ := []
  reaping : Option ℕ := none
  reports : List ℕ := []

/-- The child that a look reaps, if it reaps one. -/
def ProcSystem.reapedChild (s : ProcSystem) (t : ℕ) : Option ℕ :=
  (s.points t).toLook.bind fun c =>
    (s.manager.pollFDToProcMap.lookup c.fd).bind fun pid =>
      if (s.children pid).bind ChildProc.status = none then none else s.pipeOf pid

namespace ProcHistory

/-- What a step adds to the history. -/
def record (s : ProcHistory) (next : ProcSystem) : ProcAction → ProcHistory
  | .posixSpawn t (some pid) =>
      match s.points t with
      | .piped _ _ pipe =>
          { s with toProcSystem := next, pidOf := Function.update s.pidOf pipe (some pid) }
      | _ => { s with toProcSystem := next }
  | .insert t =>
      match s.points t with
      | .spawned pid _ =>
          { s with toProcSystem := next, returned := (s.pipeOf pid).toList ++ s.returned }
      | _ => { s with toProcSystem := next }
  | .look t => { s with toProcSystem := next, reaping := s.reapedChild t }
  | .erase _ =>
      { s with toProcSystem := next, reaping := none, reports := s.reaping.toList ++ s.reports }
  | _ => { s with toProcSystem := next }

end ProcHistory

/-- A step, with the history it makes. -/
def historyStep : Step ProcHistory ProcAction := fun s a =>
  (procStep s.toProcSystem a).map fun next => s.record next a

section Statement

variable (s : ProcHistory)

/-- An entry of the maps belongs to a child: its descriptor is the pipe of the child, or the child
is just being reaped through it. -/
def EntryOf (k pid fd : ℕ) : Prop :=
  (¬ s.Reaping fd ∧ s.fds fd = some (.pollPipe k)) ∨
    (s.Reaping fd ∧ s.reaping = some k ∧ s.pidOf k = some pid)

/-- A child is in `childProcMap`, and in the other map as well. -/
def InMaps (k : ℕ) : Prop :=
  ∃ pid fd, s.pidOf k = some pid ∧ s.manager.childProcMap.lookup pid = some fd ∧
    s.manager.pollFDToProcMap.lookup fd = some pid ∧ EntryOf s k pid fd

/-- A child is in neither map. -/
def InNeitherMap (k : ℕ) : Prop :=
  ∀ pid fd, s.manager.childProcMap.lookup pid = some fd ∨
    s.manager.pollFDToProcMap.lookup fd = some pid → ¬ EntryOf s k pid fd

/-- No child has been reported twice, and the maps have the children that are still to be
reported. -/
structure ReportedOnce : Prop where
  once : s.reports.Nodup
  waiting : ∀ k ∈ s.returned, k ∉ s.reports → InMaps s k
  gone : ∀ k ∈ s.reports, InNeitherMap s k

/-- A call of `ProcessWaitPID` returns with this step. -/
def Returns (next : ProcHistory) (t : ℕ) (call : WaitCall) (err : ℕ) (outs : WaitOuts) : Prop :=
  ¬ (s.points t).AtRest ∧ next.points t = .waited call err outs

/-- The reports of the history are the returns of 0 with a pid: each such return reports one child
more, which has this pid, and no child is reported otherwise. -/
structure ReportsReturns (a : ProcAction) : Prop where
  returned : ∀ next, historyStep s a = some next → ∀ t call outs pid,
    Returns s next t call 0 outs → outs.retPID = some pid → pid ≠ 0 →
      ∃ k, next.reports = k :: s.reports ∧ s.pidOf k = some pid
  reported : ∀ next, historyStep s a = some next → next.reports ≠ s.reports →
    ∃ t call outs k pid, next.reports = k :: s.reports ∧ s.pidOf k = some pid ∧
      Returns s next t call 0 outs ∧ outs.retPID = some pid

/-- A wait for any child that returns `UVWASI_ECHILD` finds every child reported whose spawn has
returned. -/
def NoneLeft (a : ProcAction) : Prop :=
  ∀ next, historyStep s a = some next → ∀ t call outs, Returns s next t call uvwasiECHILD outs →
    call.pid ≤ 0 → ∀ k ∈ s.returned, k ∈ s.reports

/-- `poll` does not fail with an error that becomes `UVWASI_ECHILD`: its errors are `EFAULT`,
`EINTR`, `EINVAL` and `ENOMEM`. -/
def PollErrors (_ : ProcHistory) : ProcAction → Prop
  | .poll _ (.failed errno) => convertErrnoToWasiErrno errno ≠ uvwasiECHILD
  | _ => True

instance : ∀ a : ProcAction, Decidable (PollErrors s a)
  | .poll _ (.failed errno) =>
      inferInstanceAs (Decidable (convertErrnoToWasiErrno errno ≠ uvwasiECHILD))
  | .poll _ .timeout | .poll _ (.ready _) | .wait _ _ | .copy _ _ | .read _ | .look _ | .erase _
  | .pipe _ _ | .posixSpawn _ _ | .insert _ | .childExit _ _ | .openOther _ | .closeOther _ =>
      isTrue trivial

end Statement

/-! ## The invariant -/

/-- The points of a thread: a wait that is still looking has found nothing, a wait that erases a
child is the one that reaps it, and a spawn on its way has no child yet. -/
structure PointOk (s : ProcHistory) (t : ℕ) (p : ProcPoint) : Prop where
  zero : ∀ call outs c rest, p = .read call outs c rest ∨ p = .look call outs c rest →
    outs.retPID = some 0
  erasing : ∀ call outs rest, p = .erase call outs rest → ∃ reap k, s.procLock = some reap ∧
    reap.thread = t ∧ s.reaping = some k ∧ s.pidOf k = some reap.pid ∧
      outs.retPID = some reap.pid
  unborn : ∀ r w k, p = .piped r w k → s.pidOf k = none

/-- Every child is accounted for: it is alive, just being reaped, or reported, and one of these
only. A child whose spawn has returned and that is alive has its entry. -/
structure Accounted (s : ProcHistory) : Prop where
  tied : Tied s.toProcSystem
  points : ∀ t, PointOk s t (s.points t)
  alive : ∀ pid k, s.pipeOf pid = some k → s.pidOf k = some pid
  positive : ∀ k pid, s.pidOf k = some pid → pid ≠ 0
  named : ∀ k pid, s.pidOf k = some pid → k < s.nextPipe
  reaping : ∀ k, s.reaping = some k →
    ∃ reap, s.procLock = some reap ∧ s.pidOf k = some reap.pid
  dead : ∀ k, k ∈ s.reports ∨ s.reaping = some k →
    (s.pidOf k).isSome ∧ ∀ pid, s.pipeOf pid ≠ some k
  once : s.reports.Nodup
  notYet : ∀ k, s.reaping = some k → k ∉ s.reports
  waiting : ∀ k ∈ s.returned, k ∈ s.reports ∨ s.reaping = some k ∨
    ∃ pid fd, s.pipeOf pid = some k ∧ s.manager.childProcMap.lookup pid = some fd ∧
      ¬ s.Reaping fd

section Points

variable {s : ProcHistory} {t : ℕ} {p : ProcPoint}

/-- A point without anything to show. -/
def ProcPoint.Plain : ProcPoint → Prop
  | .read _ _ _ _ | .look _ _ _ _ | .erase _ _ _ | .piped _ _ _ => False
  | _ => True

theorem PointOk.ofPlain (plain : p.Plain) : PointOk s t p := by
  refine ⟨?_, ?_, ?_⟩
  · rintro call outs c rest (rfl | rfl)
    · exact absurd plain id
    · exact absurd plain id
  · rintro call outs rest rfl
    exact absurd plain id
  · rintro r w k rfl
    exact absurd plain id

/-- A wait that has found nothing goes on looking, returns, or takes another turn. -/
theorem PointOk.ofAdvance {call : WaitCall} {outs : WaitOuts} (zero : outs.retPID = some 0)
    (rest : List (Copied × Bool)) : PointOk s t (advance call outs rest) := by
  rcases advance_cases call outs rest with waited | collect | ⟨c, later, read, _⟩
  · rw [waited]
    exact .ofPlain trivial
  · rw [collect]
    exact .ofPlain trivial
  · rw [read]
    refine ⟨?_, nofun, nofun⟩
    intro _ _ _ _ here
    rcases here with same | same
    · cases same
      exact zero
    · cases same

theorem PointOk.ofPolled {call : WaitCall} {fds : List Copied} (answer : PollAnswer) :
    PointOk s t (polled call fds answer) := by
  cases answer with
  | failed errno => exact .ofPlain trivial
  | timeout => exact .ofPlain trivial
  | ready revents => exact .ofAdvance rfl _

/-- A wait that has found a child returns. -/
theorem advance_found {call : WaitCall} {outs : WaitOuts} (found : outs.retPID ≠ some 0)
    (rest : List (Copied × Bool)) : advance call outs rest = .waited call 0 outs := by
  cases rest with
  | nil => rw [advance, if_pos (.inl found)]
  | cons entry rest => rw [advance, if_pos found]

/-- The points of the threads, when one of them comes to a point that is good. -/
theorem PointOk.update {next : ProcHistory} (own : PointOk next t p)
    (others : ∀ t' ≠ t, PointOk next t' (s.points t')) (t' : ℕ) :
    PointOk next t' (Function.update s.points t p t') := by
  by_cases same : t' = t
  · rw [same, Function.update_self]
    exact own
  · rw [Function.update_of_ne same]
    exact others t' same

end Points

section Steps

variable {s : ProcHistory} {t : ℕ} {p : ProcPoint}

/-- A step that neither reaps nor starts a child, and leaves the maps and the history alone. -/
theorem Accounted.same (ok : Accounted s) {next : ProcSystem} (tied : Tied next)
    (points : ∀ t, PointOk { s with toProcSystem := next } t (next.points t))
    (lock : next.procLock = s.procLock) (manager : next.manager = s.manager)
    (pipes : ∀ pid, next.pipeOf pid = s.pipeOf pid) (le : s.nextPipe ≤ next.nextPipe) :
    Accounted { s with toProcSystem := next } := by
  refine ⟨tied, points, ?_, ok.positive, ?_, ?_, ?_, ok.once, ok.notYet, ?_⟩
  · intro pid k child
    exact ok.alive pid k ((pipes pid).symm.trans child)
  · intro k pid named
    exact Nat.lt_of_lt_of_le (ok.named k pid named) le
  · intro k reaping
    obtain ⟨reap, held, own⟩ := ok.reaping k reaping
    exact ⟨reap, lock.trans held, own⟩
  · intro k gone
    obtain ⟨named, dead⟩ := ok.dead k gone
    exact ⟨named, fun pid child => dead pid ((pipes pid).symm.trans child)⟩
  · intro k returned
    rcases ok.waiting k returned with reported | reaping | ⟨pid, fd, child, known, notReaping⟩
    · exact .inl reported
    · exact .inr (.inl reaping)
    · refine .inr (.inr ⟨pid, fd, (pipes pid).trans child, ?_, ?_⟩)
      · rw [manager]
        exact known
      · rintro ⟨reap, held, own⟩
        exact notReaping ⟨reap, lock.symm.trans held, own⟩

/-- Points depend on the lock and the history only. -/
theorem PointOk.congr (ok : PointOk s t p) {next : ProcSystem}
    (lock : next.procLock = s.procLock) : PointOk { s with toProcSystem := next } t p := by
  refine ⟨ok.zero, fun call outs rest here => ?_, ok.unborn⟩
  obtain ⟨reap, k, held, rest⟩ := ok.erasing call outs rest here
  exact ⟨reap, k, lock.trans held, rest⟩

/-- A thread that changes nothing that is shared. -/
theorem Accounted.moves (ok : Accounted s) (waits : ¬ p.Spawns)
    (own : PointOk s t p) : Accounted { s with toProcSystem := s.moves t p } :=
  ok.same (ok.tied.moves waits)
    (PointOk.update (own.congr rfl) fun t' _ => (ok.points t').congr rfl) rfl rfl (fun _ => rfl)
    le_rfl

/-- A thread comes to a point, and descriptors or the lock of the spawns change. -/
theorem Accounted.goesTo (ok : Accounted s) {w : ProcShared} (tied : Tied (s.goesTo t p w))
    (own : PointOk s t p) (lock : w.procLock = s.procLock) (manager : w.manager = s.manager)
    (pipes : ∀ pid, w.pipeOf pid = s.pipeOf pid) (le : s.nextPipe ≤ w.nextPipe) :
    Accounted { s with toProcSystem := s.goesTo t p w } :=
  ok.same tied (PointOk.update (own.congr lock) fun t' _ => (ok.points t').congr lock) lock manager
    pipes le

/-- While nobody holds the lock, no child is being reaped. -/
theorem Accounted.not_reaping (ok : Accounted s) (free : s.procLock = none) :
    s.reaping = none := by
  cases reaping : s.reaping with
  | none => rfl
  | some k =>
      obtain ⟨reap, held, _⟩ := ok.reaping k reaping
      rw [free] at held
      cases held

/-- A look that finds a child that has ended reaps it. -/
theorem Accounted.reaped (ok : Accounted s) (free : s.procLock = none) {call : WaitCall}
    {outs : WaitOuts} {rest : List (Copied × Bool)} {pid fd k : ℕ}
    (found : s.manager.pollFDToProcMap.lookup fd = some pid) (child : s.pipeOf pid = some k)
    (retPID : outs.retPID = some pid)
    (tied : Tied (s.goesTo t (.erase call outs rest)
      ((s.setChild pid none).closeChild ⟨t, pid, fd⟩))) :
    Accounted { s with
      toProcSystem := s.goesTo t (.erase call outs rest)
        ((s.setChild pid none).closeChild ⟨t, pid, fd⟩)
      reaping := some k } := by
  have known := (ok.tied.shared.inverse pid fd).mpr found
  have pipes : ∀ pid', ((s.setChild pid none).closeChild ⟨t, pid, fd⟩).pipeOf pid' =
      if pid' = pid then none else s.pipeOf pid' := pipeOf_setChild pid none
  have others : ∀ {pid' k'}, (if pid' = pid then none else s.pipeOf pid') = some k' →
      pid' ≠ pid ∧ s.pipeOf pid' = some k' := by
    intro pid' k' here
    split at here
    · cases here
    next other => exact ⟨other, here⟩
  refine ⟨tied, PointOk.update ?_ ?_, ?_, ok.positive, ok.named, ?_, ?_, ok.once, ?_, ?_⟩
  · refine ⟨?_, ?_, nofun⟩
    · rintro _ _ _ _ (same | same)
      · cases same
      · cases same
    · rintro _ _ _ ⟨⟩
      exact ⟨⟨t, pid, fd⟩, k, rfl, rfl, rfl, ok.alive pid k child, retPID⟩
  · intro t' _
    refine ⟨(ok.points t').zero, ?_, (ok.points t').unborn⟩
    intro call' outs' rest' here
    obtain ⟨_, _, held, _⟩ := (ok.points t').erasing call' outs' rest' here
    rw [free] at held
    cases held
  · intro pid' k' here
    exact ok.alive pid' k' (others ((pipes pid').symm.trans here)).2
  · rintro _ ⟨⟩
    exact ⟨⟨t, pid, fd⟩, rfl, ok.alive pid k child⟩
  · rintro k' (reported | same)
    · obtain ⟨named, dead⟩ := ok.dead k' (.inl reported)
      exact ⟨named, fun pid' here => dead pid' (others ((pipes pid').symm.trans here)).2⟩
    · cases same
      refine ⟨Option.isSome_of_eq_some (ok.alive pid k child), fun pid' here => ?_⟩
      obtain ⟨other, here⟩ := others ((pipes pid').symm.trans here)
      exact other (ok.tied.shared.pipes pid' pid k here child)
  · rintro _ ⟨⟩ reported
    exact (ok.dead k (.inl reported)).2 pid child
  · intro k' returned
    rcases ok.waiting k' returned with reported | reaping | ⟨pid', fd', child', known', _⟩
    · exact .inl reported
    · rw [ok.not_reaping free] at reaping
      cases reaping
    · by_cases same : pid' = pid
      · subst same
        rw [child] at child'
        exact .inr (.inl child')
      · refine .inr (.inr ⟨pid', fd', (pipes pid').trans ((if_neg same).trans child'), known', ?_⟩)
        rintro ⟨_, ⟨⟩, own⟩
        refine same (ok.tied.shared.pid_eq known' ?_)
        rw [← own]
        exact known

/-- The wait that has reaped a child forgets it and returns. -/
theorem Accounted.erased (ok : Accounted s) {call : WaitCall} {outs : WaitOuts}
    {rest : List (Copied × Bool)} {reap : Reap} (here : s.points t = .erase call outs rest)
    (lock : s.procLock = some reap) (own : reap.thread = t)
    (tied : Tied (s.goesTo t (advance call outs rest) (s.eraseChild reap))) :
    Accounted { s with
      toProcSystem := s.goesTo t (advance call outs rest) (s.eraseChild reap)
      reaping := none
      reports := s.reaping.toList ++ s.reports } := by
  have thread := ok.points t
  rw [here] at thread
  obtain ⟨reap', k, lock', _, reaping, named, retPID⟩ := thread.erasing call outs rest rfl
  cases lock.symm.trans lock'
  have returns : advance call outs rest = .waited call 0 outs := by
    apply advance_found
    rw [retPID]
    intro zero
    exact ok.positive k reap.pid named (Option.some.inj zero)
  have reports : s.reaping.toList ++ s.reports = k :: s.reports := by
    rw [reaping]
    rfl
  have known := ok.tied.shared.reap reap lock
  rw [reports]
  refine ⟨tied, PointOk.update ?_ ?_, ok.alive, ok.positive, ok.named, nofun, ?_, ?_, nofun, ?_⟩
  · rw [returns]
    exact .ofPlain trivial
  · intro t' other
    refine ⟨(ok.points t').zero, ?_, (ok.points t').unborn⟩
    intro call' outs' rest' there
    obtain ⟨_, _, lock', its, _⟩ := (ok.points t').erasing call' outs' rest' there
    cases lock.symm.trans lock'
    exact absurd (its.symm.trans own) other
  · rintro k' (reported | none_reaped)
    · rcases List.mem_cons.mp reported with rfl | reported
      · exact ok.dead k' (.inr reaping)
      · exact ok.dead k' (.inl reported)
    · cases none_reaped
  · exact List.nodup_cons.mpr ⟨ok.notYet k reaping, ok.once⟩
  · intro k' returned
    rcases ok.waiting k' returned with reported | reaping' | ⟨pid, fd, child, known', notReaping⟩
    · exact .inl (List.mem_cons_of_mem k reported)
    · rw [reaping] at reaping'
      cases reaping'
      exact .inl List.mem_cons_self
    · refine .inr (.inr ⟨pid, fd, child, (lookup_eraseChild pid fd).mpr ⟨?_, known'⟩, ?_⟩)
      · rintro rfl
        exact notReaping ⟨reap, lock, Option.some.inj (known.symm.trans known')⟩
      · exact Process.not_reaping rfl fd

/-- A thread starts a child. Its pipe is that of no child so far. -/
theorem Accounted.spawnChild (ok : Accounted s) {r w k pid : ℕ}
    (here : s.points t = .piped r w k) (positive : pid ≠ 0) (fresh : s.children pid = none)
    (tied : Tied (s.goesTo t (.spawned pid r) (s.spawnChild w k pid))) :
    Accounted { s with
      toProcSystem := s.goesTo t (.spawned pid r) (s.spawnChild w k pid)
      pidOf := Function.update s.pidOf k (some pid) } := by
  have piped := ok.tied.piped t r w k here
  have unborn : s.pidOf k = none := by
    have thread := ok.points t
    rw [here] at thread
    exact thread.unborn r w k rfl
  have older : ∀ {k' pid'}, s.pidOf k' = some pid' → k' ≠ k := by
    rintro k' pid' named rfl
    rw [unborn] at named
    cases named
  have keeps : ∀ {k' pid'}, s.pidOf k' = some pid' →
      Function.update s.pidOf k (some pid) k' = some pid' := fun named =>
    (Function.update_of_ne (older named) _ _).trans named
  have pidOf : ∀ {k' pid'}, Function.update s.pidOf k (some pid) k' = some pid' →
      (k' = k ∧ pid' = pid) ∨ s.pidOf k' = some pid' := by
    intro k' pid' named
    rw [Function.update_apply] at named
    split at named
    next same => exact .inl ⟨same, (Option.some.inj named).symm⟩
    next => exact .inr named
  have pipes : ∀ pid', (s.spawnChild w k pid).pipeOf pid' =
      if pid' = pid then some k else s.pipeOf pid' := pipeOf_setChild pid (some { pipe := k })
  have childOf : ∀ {pid' k'}, (s.spawnChild w k pid).pipeOf pid' = some k' →
      (pid' = pid ∧ k' = k) ∨ s.pipeOf pid' = some k' := by
    intro pid' k' child
    rw [pipes] at child
    split at child
    next same => exact .inl ⟨same, (Option.some.inj child).symm⟩
    next => exact .inr child
  have unknown : s.pipeOf pid = none := by
    rw [ProcShared.pipeOf, fresh]
    rfl
  refine ⟨tied, PointOk.update (.ofPlain trivial) ?_, ?_, ?_, ?_, ?_, ?_, ok.once, ok.notYet, ?_⟩
  · intro t' other
    refine ⟨(ok.points t').zero, ?_, ?_⟩
    · intro call outs rest there
      obtain ⟨reap, k', held, its, reaping, named, retPID⟩ :=
        (ok.points t').erasing call outs rest there
      exact ⟨reap, k', held, its, reaping, keeps named, retPID⟩
    · intro r' w' k' there
      exact absurd ((ok.tied.piped t' r' w' k' there).thread_eq piped) other
  · intro pid' k' child
    rcases childOf child with ⟨rfl, rfl⟩ | child
    · exact Function.update_self _ _ _
    · exact keeps (ok.alive pid' k' child)
  · intro k' pid' named
    rcases pidOf named with ⟨_, rfl⟩ | named
    · exact positive
    · exact ok.positive k' pid' named
  · intro k' pid' named
    rcases pidOf named with ⟨rfl, _⟩ | named
    · exact piped.below
    · exact ok.named k' pid' named
  · intro k' reaping
    obtain ⟨reap, held, named⟩ := ok.reaping k' reaping
    exact ⟨reap, held, keeps named⟩
  · intro k' gone
    obtain ⟨named, dead⟩ := ok.dead k' gone
    obtain ⟨pid', named⟩ := Option.isSome_iff_exists.mp named
    refine ⟨Option.isSome_of_eq_some (keeps named), fun pid'' child => ?_⟩
    rcases childOf child with ⟨_, same⟩ | child
    · exact older named same
    · exact dead pid'' child
  · intro k' returned
    rcases ok.waiting k' returned with reported | reaping | ⟨pid', fd, child, known, notReaping⟩
    · exact .inl reported
    · exact .inr (.inl reaping)
    · refine .inr (.inr ⟨pid', fd, (pipes pid').trans ((if_neg ?_).trans child), known,
        notReaping⟩)
      rintro rfl
      rw [unknown] at child
      cases child

/-- The maps learn of a child, and its spawn returns. -/
theorem Accounted.inserted (ok : Accounted s) (free : s.procLock = none) {pid r : ℕ}
    (here : s.points t = .spawned pid r)
    (tied : Tied (s.goesTo t (.spawnReturned (some pid)) (s.insertChild pid r))) :
    Accounted { s with
      toProcSystem := s.goesTo t (.spawnReturned (some pid)) (s.insertChild pid r)
      returned := (s.pipeOf pid).toList ++ s.returned } := by
  have own := ok.tied.spawned t pid r here
  obtain ⟨newPid, _⟩ := ok.tied.shared.spawned_new free own
  have still : ∀ fd, ¬ (s.insertChild pid r).Reaping fd := Process.not_reaping free
  refine ⟨tied, PointOk.update (.ofPlain trivial) ?_, ok.alive, ok.positive, ok.named, ok.reaping,
    ok.dead, ok.once, ok.notYet, ?_⟩
  · intro t' _
    exact ⟨(ok.points t').zero, (ok.points t').erasing, (ok.points t').unborn⟩
  · intro k returned
    rcases List.mem_append.mp returned with new | old
    · have child := Option.mem_toList.mp new
      exact .inr (.inr ⟨pid, r, child, (lookup_insertChild pid r).mpr (by simp), still r⟩)
    · rcases ok.waiting k old with reported | reaping | ⟨pid', fd, child, known, _⟩
      · exact .inl reported
      · exact .inr (.inl reaping)
      · refine .inr (.inr ⟨pid', fd, child, (lookup_insertChild pid' fd).mpr ?_, still fd⟩)
        rw [if_neg, known]
        rintro rfl
        exact newPid fd known

/-- While no child is being reaped, a history without one is the history as it is. -/
theorem Accounted.ofNotReaping (ok : Accounted s) (free : s.procLock = none) {next : ProcSystem}
    (after : Accounted { s with toProcSystem := next }) :
    Accounted { s with toProcSystem := next, reaping := none } := by
  have same := congrArg (fun k => ({ s with toProcSystem := next, reaping := k } : ProcHistory))
    (ok.not_reaping free)
  exact same ▸ after

/-- A look that finds nothing, or a child that is still running, reaps none. -/
theorem reapedChild_running {call : WaitCall} {outs : WaitOuts} {c : Copied}
    {rest : List (Copied × Bool)} (here : s.points t = .look call outs c rest)
    (running : ∀ pid, s.manager.pollFDToProcMap.lookup c.fd = some pid →
      s.waitpid pid = .running) : s.reapedChild t = none := by
  rw [ProcSystem.reapedChild, here]
  simp only [ProcPoint.toLook, Option.bind_some]
  cases found : s.manager.pollFDToProcMap.lookup c.fd with
  | none => rfl
  | some pid =>
      have answer := running pid found
      rw [ProcShared.waitpid] at answer
      split at answer
      next => cases answer
      next child known =>
        split at answer
        next none_yet => simp [known, none_yet]
        next => cases answer

/-- A look that finds a child that has ended reaps this child. -/
theorem reapedChild_reaped {call : WaitCall} {outs : WaitOuts} {c : Copied}
    {rest : List (Copied × Bool)} {pid status : ℕ} (here : s.points t = .look call outs c rest)
    (found : s.manager.pollFDToProcMap.lookup c.fd = some pid)
    (ended : s.waitpid pid = .reaped status) : s.reapedChild t = s.pipeOf pid := by
  rw [ProcSystem.reapedChild, here]
  simp only [ProcPoint.toLook, Option.bind_some, found]
  rw [ProcShared.waitpid] at ended
  split at ended
  next => cases ended
  next child known =>
    split at ended
    next => cases ended
    next code done => simp [known, done]

/-- A child ends. -/
theorem Accounted.childExit (ok : Accounted s) {pid : ℕ} {child ended : ChildProc}
    (found : s.children pid = some child) (same : ended.pipe = child.pipe) :
    Accounted { s with
      toProcSystem := { s with toProcShared := s.setChild pid (some ended) } } := by
  refine ok.same (ok.tied.childExit found same) (fun t => (ok.points t).congr rfl) rfl rfl ?_ le_rfl
  intro other
  apply (pipeOf_setChild pid _ other).trans
  split
  next own =>
    rw [own, ProcShared.pipeOf, found]
    exact congrArg some same
  next => rfl

/-- **Every step keeps the children accounted for.** -/
theorem Accounted.step (ok : Accounted s) {s' : ProcHistory} {a : ProcAction}
    (taken : historyStep s a = some s') : Accounted s' := by
  obtain ⟨next, step, rfl⟩ := Option.map_eq_some_iff.mp taken
  have tied := ok.tied.step step
  cases procStep_cases step with
  | wait _ | noChild _ _ _ | copyOne _ _ _ _ | copyAll _ _ _ | pipeFailed _ _ =>
      exact ok.moves id (.ofPlain trivial)
  | poll _ => exact ok.moves (polled_waits _ _ _) (.ofPolled _)
  | @read t call outs c rest here =>
      refine ok.moves id ⟨?_, nofun, nofun⟩
      rintro _ _ _ _ (same | same)
      · cases same
      · cases same
        exact (ok.points t).zero call outs c rest (.inl here)
  | @goesOn t call outs c rest here free running =>
      have zero := (ok.points t).zero call outs c rest (.inr here)
      rw [ProcHistory.record, reapedChild_running here running]
      exact ok.ofNotReaping free (ok.moves (advance_waits _ _ _) (.ofAdvance zero rest))
  | reaped here free found ended =>
      obtain ⟨k, child, _⟩ := ok.tied.found free found
      rw [ProcHistory.record, reapedChild_reaped here found ended, child]
      exact ok.reaped free found child rfl tied
  | gone _ free found unknown => exact absurd unknown (ok.tied.waitpid_known free found)
  | erase here lock own => exact ok.erased here lock own tied
  | pipe _ _ _ _ _ =>
      refine ok.goesTo tied ⟨nofun, nofun, ?_⟩ rfl rfl (fun _ => rfl) (Nat.le_succ _)
      rintro _ _ _ ⟨⟩
      cases named : s.pidOf s.nextPipe with
      | none => rfl
      | some pid => exact absurd (ok.named _ pid named) (Nat.lt_irrefl _)
  | spawn here positive fresh =>
      rw [ProcHistory.record, here]
      exact ok.spawnChild here positive fresh tied
  | spawnFailed here =>
      exact ok.goesTo tied (.ofPlain trivial) rfl rfl (fun _ => rfl) le_rfl
  | insert here free =>
      rw [ProcHistory.record, here]
      exact ok.inserted free here tied
  | childExit found _ => exact ok.childExit found rfl
  | openOther _ | closeOther _ =>
      exact ok.same tied (fun t => (ok.points t).congr rfl) rfl rfl (fun _ => rfl) le_rfl

end Steps

/-- Nothing has been started, and nothing reported. -/
theorem accounted_start : Accounted {} where
  tied := tied_start
  points _ := .ofPlain trivial
  alive := fun _ _ child => by cases child
  positive := nofun
  named := nofun
  reaping := nofun
  dead := by
    rintro k (reported | reaping)
    · cases reported
    · cases reaping
  once := .nil
  notYet := nofun
  waiting := nofun

/-! ## What an account says -/

section Readings

variable {s : ProcHistory} {t : ℕ}

/-- A child that has been spawned and not been reported is in the maps. -/
theorem Accounted.inMaps (ok : Accounted s) {k : ℕ} (returned : k ∈ s.returned)
    (unreported : k ∉ s.reports) : InMaps s k := by
  rcases ok.waiting k returned with reported | reaping | ⟨pid, fd, child, known, notReaping⟩
  · exact absurd reported unreported
  · obtain ⟨reap, held, named⟩ := ok.reaping k reaping
    have known := ok.tied.shared.reap reap held
    exact ⟨reap.pid, reap.fd, named, known, (ok.tied.shared.inverse _ _).mp known,
      .inr ⟨⟨reap, held, rfl⟩, reaping, named⟩⟩
  · obtain ⟨pipe, own, polls⟩ := ok.tied.shared.entry pid fd known notReaping
    cases child.symm.trans own
    exact ⟨pid, fd, ok.alive pid k child, known, (ok.tied.shared.inverse _ _).mp known,
      .inl ⟨notReaping, polls⟩⟩

/-- A child that has been reported is in neither map. -/
theorem Accounted.inNeitherMap (ok : Accounted s) {k : ℕ} (reported : k ∈ s.reports) :
    InNeitherMap s k := by
  intro pid fd entry
  have known : s.manager.childProcMap.lookup pid = some fd :=
    entry.elim id (ok.tied.shared.inverse pid fd).mpr
  rintro (⟨notReaping, polls⟩ | ⟨_, reaping, _⟩)
  · obtain ⟨pipe, child, own⟩ := ok.tied.shared.entry pid fd known notReaping
    cases polls.symm.trans own
    exact (ok.dead k (.inl reported)).2 pid child
  · exact ok.notYet k reaping reported

theorem Accounted.reportedOnce (ok : Accounted s) : ReportedOnce s where
  once := ok.once
  waiting _ := ok.inMaps
  gone _ := ok.inNeitherMap

/-- The return of a wait that goes on is a return of 0 with the results so far. -/
theorem advance_waited {call call' : WaitCall} {outs outs' : WaitOuts} {err : ℕ}
    {rest : List (Copied × Bool)}
    (returns : advance call outs rest = .waited call' err outs') :
    call' = call ∧ err = 0 ∧ outs' = outs := by
  rcases advance_cases call outs rest with waited | collect | ⟨c, later, read, _⟩
  · rw [waited] at returns
    cases returns
    exact ⟨rfl, rfl, rfl⟩
  · rw [collect] at returns
    cases returns
  · rw [read] at returns
    cases returns

/-- The ways in which a wait returns: it finds the map empty or without its child, `poll` fails or
times out, it finds nothing, or it reports the child that it has reaped. -/
inductive WaitReturns (s : ProcHistory) (t : ℕ) (call : WaitCall) :
    ProcAction → ℕ → WaitOuts → Prop
  | noChild (order : List ℕ) (free : s.procLock = none)
      (empty : call.pid ≤ 0 → s.manager.childProcMap.keys = []) :
      WaitReturns s t call (.copy t order) uvwasiECHILD {}
  | pollFailed (errno : ℕ) :
      WaitReturns s t call (.poll t (.failed errno)) (convertErrnoToWasiErrno errno) {}
  | nothing (a : ProcAction) {outs : WaitOuts} (zero : outs.retPID = some 0) :
      WaitReturns s t call a 0 outs
  | found {outs : WaitOuts} {rest : List (Copied × Bool)}
      (here : s.points t = .erase call outs rest) : WaitReturns s t call (.erase t) 0 outs

/-- A thread that is not the one whose point changes does not return. -/
theorem update_waited {points : ℕ → ProcPoint} {t' : ℕ} {p : ProcPoint} {call : WaitCall}
    {err : ℕ} {outs : WaitOuts} (going : ¬ (points t).AtRest)
    (returns : Function.update points t' p t = .waited call err outs) :
    t' = t ∧ p = .waited call err outs := by
  rw [Function.update_apply] at returns
  split at returns
  next same => exact ⟨same.symm, returns⟩
  next =>
    rw [returns] at going
    exact absurd trivial going

theorem Accounted.waitReturns (ok : Accounted s) {a : ProcAction} {next : ProcSystem}
    (step : procStep s.toProcSystem a = some next) {call : WaitCall} {err : ℕ} {outs : WaitOuts}
    (going : ¬ (s.points t).AtRest) (returns : next.points t = .waited call err outs) :
    WaitReturns s t call a err outs := by
  have still : s.points t ≠ .waited call err outs := by
    intro same
    rw [same] at going
    exact going trivial
  cases procStep_cases step with
  | wait _ | copyOne _ _ _ _ | copyAll _ _ _ | read _ | reaped _ _ _ _ | gone _ _ _ _
  | pipeFailed _ _ | pipe _ _ _ _ _ | spawn _ _ _ | spawnFailed _ | insert _ _ =>
      cases (update_waited going returns).2
  | childExit _ _ | openOther _ | closeOther _ => exact absurd returns still
  | @noChild _ order _ _ free empty =>
      obtain ⟨rfl, same⟩ := update_waited going returns
      cases same
      exact .noChild order free fun any => empty (Int.not_lt.mpr any)
  | @poll _ answer _ fds _ =>
      obtain ⟨rfl, same⟩ := update_waited going returns
      cases answer with
      | failed errno =>
          cases same
          exact .pollFailed errno
      | timeout =>
          cases same
          exact .nothing _ rfl
      | ready revents =>
          obtain ⟨_, rfl, rfl⟩ := advance_waited same
          exact .nothing _ rfl
  | @goesOn t' _ outs' c rest here _ _ =>
      obtain ⟨_, rfl, rfl⟩ := advance_waited (update_waited going returns).2
      exact .nothing _ ((ok.points t').zero _ outs c rest (.inr here))
  | erase here _ _ =>
      obtain ⟨rfl, same⟩ := update_waited going returns
      obtain ⟨rfl, rfl, rfl⟩ := advance_waited same
      exact .found here

/-- The wait that erases a child reports it. -/
theorem Accounted.reports_erase (ok : Accounted s) {call : WaitCall} {outs : WaitOuts}
    {rest : List (Copied × Bool)} (here : s.points t = .erase call outs rest)
    (next : ProcSystem) : ∃ k pid, (s.record next (.erase t)).reports = k :: s.reports ∧
      s.pidOf k = some pid ∧ outs.retPID = some pid := by
  obtain ⟨reap, k, _, _, reaping, named, retPID⟩ := (ok.points t).erasing call outs rest here
  refine ⟨k, reap.pid, ?_, named, retPID⟩
  change s.reaping.toList ++ s.reports = _
  rw [reaping]
  rfl

/-- No other step reports a child. -/
theorem reports_record {a : ProcAction} (next : ProcSystem) (other : ∀ t, a ≠ .erase t) :
    (s.record next a).reports = s.reports := by
  cases a with
  | erase t => exact absurd rfl (other t)
  | posixSpawn t pid =>
      cases pid with
      | none => rfl
      | some pid =>
          rw [ProcHistory.record]
          split <;> rfl
  | insert t =>
      rw [ProcHistory.record]
      split <;> rfl
  | _ => rfl

/-- The history follows the system. -/
theorem record_toProcSystem (next : ProcSystem) (a : ProcAction) :
    (s.record next a).toProcSystem = next := by
  cases a with
  | posixSpawn t pid =>
      cases pid with
      | none => rfl
      | some pid =>
          rw [ProcHistory.record]
          split <;> rfl
  | insert t =>
      rw [ProcHistory.record]
      split <;> rfl
  | _ => rfl

/-- A wait that returns a pid has reaped a child. -/
theorem WaitReturns.reaps {a : ProcAction} {call : WaitCall} {err : ℕ} {outs : WaitOuts} {pid : ℕ}
    (returns : WaitReturns s t call a err outs) (retPID : outs.retPID = some pid)
    (positive : pid ≠ 0) : a = .erase t ∧ ∃ rest, s.points t = .erase call outs rest := by
  cases returns with
  | noChild order _ _ => cases retPID
  | pollFailed errno => cases retPID
  | nothing _ zero =>
      rw [retPID] at zero
      exact absurd (Option.some.inj zero) positive
  | found here => exact ⟨rfl, _, here⟩

theorem Accounted.reportsReturns (ok : Accounted s) (a : ProcAction) : ReportsReturns s a := by
  constructor
  · rintro next taken t call outs pid ⟨going, point⟩ retPID positive
    obtain ⟨next, step, rfl⟩ := Option.map_eq_some_iff.mp taken
    rw [record_toProcSystem] at point
    obtain ⟨rfl, rest, here⟩ := (ok.waitReturns step going point).reaps retPID positive
    obtain ⟨k, pid', reports, named, stored⟩ := ok.reports_erase here next
    cases stored.symm.trans retPID
    exact ⟨k, reports, named⟩
  · intro next taken changed
    obtain ⟨next, step, rfl⟩ := Option.map_eq_some_iff.mp taken
    have erases : ∃ t, a = .erase t := by
      by_contra other
      exact changed (reports_record next fun t same => other ⟨t, same⟩)
    obtain ⟨t, rfl⟩ := erases
    cases procStep_cases step with
    | @erase _ call outs rest reap here _ _ =>
        obtain ⟨k, pid, reports, named, retPID⟩ := ok.reports_erase here _
        refine ⟨t, call, outs, k, pid, reports, named, ⟨?_, ?_⟩, retPID⟩
        · rw [here]
          exact id
        · refine (Function.update_self t _ s.points).trans (advance_found ?_ rest)
          rw [retPID]
          intro zero
          exact ok.positive k pid named (Option.some.inj zero)

/-- While no child is being reaped, a manager without children has none left to report. -/
theorem Accounted.all_reported (ok : Accounted s) (free : s.procLock = none)
    (empty : s.manager.childProcMap.keys = []) {k : ℕ} (returned : k ∈ s.returned) :
    k ∈ s.reports := by
  rcases ok.waiting k returned with reported | reaping | ⟨pid, fd, _, known, _⟩
  · exact reported
  · rw [ok.not_reaping free] at reaping
    cases reaping
  · have key : pid ∈ s.manager.childProcMap.keys :=
      AList.lookup_isSome.mp (Option.isSome_of_eq_some known)
    rw [empty] at key
    cases key

theorem Accounted.noneLeft (ok : Accounted s) {a : ProcAction} (errors : PollErrors s a) :
    NoneLeft s a := by
  rintro next taken t call outs ⟨going, point⟩ any k returned
  obtain ⟨next, step, rfl⟩ := Option.map_eq_some_iff.mp taken
  rw [record_toProcSystem] at point
  generalize err : uvwasiECHILD = code at point
  cases ok.waitReturns step going point with
  | noChild order free empty => exact ok.all_reported free (empty any) returned
  | pollFailed errno => exact absurd err.symm errors
  | nothing _ _ => cases err
  | found here => cases err

/-- **Reports.** Let `poll` fail with its own errors only. In every run no child is reported twice,
and each child is in the maps from the return of its spawn until it is reported and in neither map
afterwards. The reports are the waits that return 0 with the pid of the child. A wait for any child
that finds none does so after all of them have been reported. -/
theorem children_reported_once {actions : List ProcAction}
    (errors : Meets historyStep PollErrors {} actions) :
    Throughout historyStep ReportedOnce {} actions ∧
      Meets historyStep ReportsReturns {} actions ∧ Meets historyStep NoneLeft {} actions := by
  refine ⟨?_, ?_, ?_⟩
  · exact errors.throughout (fun ok _ taken => ok.step taken) Accounted.reportedOnce
      accounted_start
  · exact errors.strengthen (fun ok _ => ok.reportsReturns _) (fun ok _ taken => ok.step taken)
      accounted_start
  · exact errors.strengthen (fun ok met => ok.noneLeft met) (fun ok _ taken => ok.step taken)
      accounted_start

/-- Two threads wait for one child. The first of them to look reaps it, `poll` fails for the other
one, and when that asks again there is none left. The pid and the descriptors then go to the next
child. -/
def waitedForTwice : List ProcAction :=
  shortChild 0 100 5 6 ++ waitToRead 1 100 ++ [.wait 2 ⟨0, 0⟩, .copy 2 [100]] ++ readAndReap 1 ++
    [.poll 2 (.failed 4), .wait 2 ⟨0, 0⟩, .copy 2 []] ++
    (shortChild 0 100 5 6 ++ waitToRead 1 100 ++ readAndReap 1)

theorem children_reported_reused :
    Throughout historyStep ReportedOnce {} waitedForTwice ∧
      Meets historyStep ReportsReturns {} waitedForTwice ∧
      Meets historyStep NoneLeft {} waitedForTwice :=
  children_reported_once (by decide)

end Readings

end Process
end WamrExt
