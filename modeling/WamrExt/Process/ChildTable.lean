import WamrExt.Process.ChildPipes

/-!
# The children over whole runs

What holds of the maps, of the children and of the spawns on their way holds in every run,
whatever the waits find and the host gives out again (`Tied.step`). The waits themselves matter
in one place only: the child whose descriptor a wait looks up is reaped if it has ended, and this
is a child in the map.
-/

set_option autoImplicit false

namespace WamrExt
namespace Process

open Transition

/-- Between `pipe` and the insertion of the child. -/
def ProcPoint.Spawns : ProcPoint → Prop
  | .piped _ _ _ | .spawned _ _ => True
  | _ => False

/-- What is shared, and what each spawn holds. No two spawns have a child of one pid. -/
structure Tied (s : ProcSystem) : Prop where
  shared : SharedOk s.toProcShared
  piped : ∀ t r w pipe, s.points t = .piped r w pipe → PipedOk s.toProcShared t r w pipe
  spawned : ∀ t pid r, s.points t = .spawned pid r → SpawnedOk s.toProcShared pid r
  apart : ∀ t t' pid r r', s.points t = .spawned pid r → s.points t' = .spawned pid r' → t = t'

/-- **The ways to go on after an entry**: the wait returns, takes another turn, or comes to a later
entry that is ready. -/
theorem advance_cases (call : WaitCall) (outs : WaitOuts) (rest : List (Copied × Bool)) :
    advance call outs rest = .waited call 0 outs ∨ advance call outs rest = .collect call ∨
      ∃ c later, advance call outs rest = .read call outs c later ∧ (c, true) :: later <:+ rest := by
  induction rest with
  | nil =>
      rw [advance]
      split
      · exact .inl rfl
      · exact .inr (.inl rfl)
  | cons entry rest ih =>
      obtain ⟨c, ready⟩ := entry
      rw [advance]
      split
      · exact .inl rfl
      · split
        next isReady => exact .inr (.inr ⟨c, rest, rfl, isReady ▸ List.suffix_rfl⟩)
        next =>
          rcases ih with waited | collect | ⟨c', later, read, suffix⟩
          · exact .inl waited
          · exact .inr (.inl collect)
          · exact .inr (.inr ⟨c', later, read, suffix.trans (List.suffix_cons _ _)⟩)

theorem advance_waits (call : WaitCall) (outs : WaitOuts) (rest : List (Copied × Bool)) :
    ¬ (advance call outs rest).Spawns := by
  rcases advance_cases call outs rest with waited | collect | ⟨c, later, read, _⟩
  · rw [waited]
    exact id
  · rw [collect]
    exact id
  · rw [read]
    exact id

theorem polled_waits (call : WaitCall) (fds : List Copied) (answer : PollAnswer) :
    ¬ (polled call fds answer).Spawns := by
  cases answer with
  | failed errno => exact id
  | timeout => exact id
  | ready revents => exact advance_waits call _ _

section Steps

variable {s s' : ProcSystem} {t : ℕ} {p : ProcPoint}

/-- A thread comes to a point of a wait or of the end of a call, and the spawns of the others
keep what they hold. -/
theorem Tied.goesTo (tied : Tied s) {w : ProcShared} (shared : SharedOk w) (waits : ¬ p.Spawns)
    (piped : ∀ t' ≠ t, ∀ r w' pipe, s.points t' = .piped r w' pipe →
      PipedOk s.toProcShared t' r w' pipe → PipedOk w t' r w' pipe)
    (spawned : ∀ t' ≠ t, ∀ pid r, s.points t' = .spawned pid r →
      SpawnedOk s.toProcShared pid r → SpawnedOk w pid r) : Tied (s.goesTo t p w) := by
  have elsewhere : ∀ {t' q}, Function.update s.points t p t' = q → q.Spawns →
      t' ≠ t ∧ s.points t' = q := by
    intro t' q here spawns
    by_cases own : t' = t
    · rw [own, Function.update_self] at here
      exact absurd (here ▸ spawns) waits
    · rw [Function.update_of_ne own] at here
      exact ⟨own, here⟩
  refine ⟨shared, fun t' r w' pipe here => ?_, fun t' pid r here => ?_, ?_⟩
  · obtain ⟨other, there⟩ := elsewhere here trivial
    exact piped t' other r w' pipe there (tied.piped t' r w' pipe there)
  · obtain ⟨other, there⟩ := elsewhere here trivial
    exact spawned t' other pid r there (tied.spawned t' pid r there)
  · intro a b pid r r' first second
    obtain ⟨_, first⟩ := elsewhere first trivial
    obtain ⟨_, second⟩ := elsewhere second trivial
    exact tied.apart a b pid r r' first second

/-- A thread that changes nothing that is shared. -/
theorem Tied.moves (tied : Tied s) (waits : ¬ p.Spawns) : Tied (s.moves t p) :=
  tied.goesTo tied.shared waits (fun _ _ _ _ _ _ ok => ok) fun _ _ _ _ _ ok => ok

/-- A descriptor that is found is that of a child that has not been reaped. -/
theorem Tied.found (tied : Tied s) (free : s.procLock = none) {pid fd : ℕ}
    (found : s.manager.pollFDToProcMap.lookup fd = some pid) :
    ∃ pipe, s.pipeOf pid = some pipe ∧ s.fds fd = some (.pollPipe pipe) :=
  tied.shared.child free ((tied.shared.inverse pid fd).mpr found)

/-- So `waitpid` always knows the child. -/
theorem Tied.waitpid_known (tied : Tied s) (free : s.procLock = none) {pid fd : ℕ}
    (found : s.manager.pollFDToProcMap.lookup fd = some pid) :
    s.waitpid pid ≠ .noChild := by
  obtain ⟨pipe, child, _⟩ := tied.found free found
  obtain ⟨proc, known, _⟩ := Option.map_eq_some_iff.mp child
  rw [ProcShared.waitpid, known]
  dsimp only
  split <;> simp

/-- The wait that finds a child that has ended reaps it. -/
theorem Tied.reaped (tied : Tied s) (free : s.procLock = none) {pid fd : ℕ}
    (found : s.manager.pollFDToProcMap.lookup fd = some pid) (call : WaitCall) (outs : WaitOuts)
    (rest : List (Copied × Bool)) :
    Tied (s.goesTo t (.erase call outs rest) ((s.setChild pid none).closeChild ⟨t, pid, fd⟩)) := by
  have known := (tied.shared.inverse pid fd).mpr found
  exact tied.goesTo (tied.shared.reaped free known) id
    (fun _ _ _ _ _ _ ok => ok.reaped tied.shared free known)
    fun _ _ _ _ _ ok => ok.reaped tied.shared free known

theorem Tied.erase (tied : Tied s) (call : WaitCall) (outs : WaitOuts)
    (rest : List (Copied × Bool)) {reap : Reap} (lock : s.procLock = some reap) :
    Tied (s.goesTo t (advance call outs rest) (s.eraseChild reap)) :=
  tied.goesTo (tied.shared.erased lock) (advance_waits call outs rest)
    (fun _ _ _ _ _ _ ok => ⟨ok.lock, ok.readEnd, ok.writeEnd, ok.below, ok.unused⟩)
    fun _ _ _ _ _ ok => ok.erased tied.shared lock

/-- A spawn makes its pipe. Nobody else is between `pipe` and `posix_spawn`. -/
theorem Tied.makePipe (tied : Tied s) (free : s.spawnLock = none) {r w : ℕ}
    (unusedR : s.fds r = none) (unusedW : s.fds w = none) (apart : r ≠ w) :
    Tied (s.goesTo t (.piped r w s.nextPipe) (s.makePipe t r w)) := by
  have notPolledR : NotPolled s.toProcShared r := fun _ _ _ polls => by
    rw [unusedR] at polls
    cases polls
  have notPolledW : NotPolled (s.setFD r (some (.pollPipe s.nextPipe))) w := fun _ _ _ polls => by
    rw [fds_setFD, if_neg apart.symm, unusedW] at polls
    cases polls
  have shared : SharedOk ((s.setFD r (some (.pollPipe s.nextPipe))).setFD w
      (some (.pipeWrite s.nextPipe))) :=
    (tied.shared.setFD notPolledR).setFD notPolledW
  refine ⟨shared.withSpawnLock (some t) (Nat.le_succ _), fun t' r' w' pipe here => ?_,
    fun t' pid r' here => ?_, fun a b pid r₁ r₂ first second => ?_⟩
  · simp only [ProcSystem.goesTo, Function.update_apply] at here
    split at here
    next own =>
      subst own
      cases here
      refine ⟨rfl, ?_, ?_, Nat.lt_succ_self _, fun pid child => ?_⟩
      · exact (fds_setFD w _ r).trans
          ((if_neg apart).trans ((fds_setFD r _ r).trans (if_pos rfl)))
      · exact (fds_setFD w _ w).trans (if_pos rfl)
      · exact absurd (tied.shared.below pid _ child) (Nat.lt_irrefl _)
    next => exact absurd (free.symm.trans (tied.piped t' r' w' pipe here).lock) (by simp)
  · simp only [ProcSystem.goesTo, Function.update_apply] at here
    split at here
    next => cases here
    next =>
      exact (((tied.spawned t' pid r' here).setFD notPolledR).setFD notPolledW).withSpawnLock _ _
  · simp only [ProcSystem.goesTo, Function.update_apply] at first second
    split at first
    next => cases first
    next =>
      split at second
      next => cases second
      next => exact tied.apart a b pid r₁ r₂ first second

/-- No other spawn has a child of a pid that the host gives out. -/
theorem Tied.pid_fresh (tied : Tied s) {pid : ℕ} (fresh : s.children pid = none) {t' pid' r' : ℕ}
    (there : s.points t' = .spawned pid' r') : pid' ≠ pid := by
  rintro rfl
  obtain ⟨pipe', child, _⟩ := (tied.spawned t' pid' r' there).readEnd
  rw [ProcShared.pipeOf, fresh] at child
  cases child

/-- A thread starts a child. -/
theorem Tied.spawnChild (tied : Tied s) {r w pipe pid : ℕ}
    (here : s.points t = .piped r w pipe) (fresh : s.children pid = none) :
    Tied (s.goesTo t (.spawned pid r) (s.spawnChild w pipe pid)) := by
  have piped := tied.piped t r w pipe here
  have unknown : s.pipeOf pid = none := by rw [ProcShared.pipeOf, fresh]; rfl
  have notPolled : NotPolled (s.setChild pid (some { pipe := pipe })) w := fun _ _ _ polls => by
    cases piped.writeEnd.symm.trans polls
  have apart : r ≠ w := by
    rintro rfl
    cases piped.readEnd.symm.trans piped.writeEnd
  have own : SpawnedOk (s.spawnChild w pipe pid) pid r := by
    refine ⟨⟨pipe, (pipeOf_setChild pid _ pid).trans (if_pos rfl), ?_⟩, fun fd known => ?_⟩
    · exact (fds_setFD w none r).trans ((if_neg apart).trans piped.readEnd)
    · by_contra notReaping
      obtain ⟨pipe', child, _⟩ := tied.shared.entry pid fd known notReaping
      cases unknown.symm.trans child
  refine ⟨((tied.shared.newChild piped fresh).setFD notPolled).withSpawnLock none (le_refl _),
    fun t' r' w' pipe' there => ?_, fun t' pid' r' there => ?_,
    fun a b pid' r₁ r₂ first second => ?_⟩
  · simp only [ProcSystem.goesTo, Function.update_apply] at there
    split at there
    next => cases there
    next other => exact absurd ((tied.piped t' r' w' pipe' there).thread_eq piped) other
  · simp only [ProcSystem.goesTo, Function.update_apply] at there
    split at there
    next =>
      cases there
      exact own
    next =>
      have ok := tied.spawned t' pid' r' there
      obtain ⟨pipe', child, polls⟩ := ok.readEnd
      have kept : SpawnedOk (s.setChild pid (some { pipe := pipe })) pid' r' :=
        ⟨⟨pipe', (pipeOf_setChild pid _ pid').trans
          ((if_neg (tied.pid_fresh fresh there)).trans child), polls⟩, ok.unknown⟩
      exact (kept.setFD notPolled).withSpawnLock none _
  · simp only [ProcSystem.goesTo, Function.update_apply] at first second
    split at first
    next atA =>
      split at second
      next atB => rw [atA, atB]
      next =>
        cases first
        exact absurd rfl (tied.pid_fresh fresh second)
    next =>
      split at second
      next =>
        cases second
        exact absurd rfl (tied.pid_fresh fresh first)
      next => exact tied.apart a b pid' r₁ r₂ first second

theorem Tied.spawnFailed (tied : Tied s) {r w pipe : ℕ} (here : s.points t = .piped r w pipe) :
    Tied (s.goesTo t (.spawnReturned none) (s.spawnFailed r w)) := by
  have piped := tied.piped t r w pipe here
  have notPolledW := piped.writeEnd_notPolled
  have notPolledR : NotPolled (s.setFD w none) r := by
    intro pid pipe' child polls
    rw [fds_setFD] at polls
    split at polls
    · cases polls
    · exact piped.readEnd_notPolled pid pipe' child polls
  refine tied.goesTo
    (((tied.shared.setFD notPolledW).setFD notPolledR).withSpawnLock none (le_refl _)) id ?_ ?_
  · intro t' other r' w' pipe' _ ok
    exact absurd (ok.thread_eq piped) other
  · intro t' _ pid' r' _ ok
    exact ((ok.setFD notPolledW).setFD notPolledR).withSpawnLock none _

theorem Tied.insert (tied : Tied s) (free : s.procLock = none) {pid r : ℕ}
    (here : s.points t = .spawned pid r) :
    Tied (s.goesTo t (.spawnReturned (some pid)) (s.insertChild pid r)) := by
  have own := tied.spawned t pid r here
  refine tied.goesTo (tied.shared.inserted free own) id ?_ ?_
  · intro t' _ r' w' pipe' _ ok
    exact ⟨ok.lock, ok.readEnd, ok.writeEnd, ok.below, ok.unused⟩
  · intro t' other pid' r' there ok
    apply ok.inserted
    rintro rfl
    exact other (tied.apart t' t pid' r' r there here)

/-- A step that is none of a thread. -/
theorem Tied.withShared (tied : Tied s) {w : ProcShared} (shared : SharedOk w)
    (piped : ∀ t r w' pipe, PipedOk s.toProcShared t r w' pipe → PipedOk w t r w' pipe)
    (spawned : ∀ pid r, SpawnedOk s.toProcShared pid r → SpawnedOk w pid r) :
    Tied { s with toProcShared := w } :=
  ⟨shared, fun t r w' pipe here => piped t r w' pipe (tied.piped t r w' pipe here),
    fun t pid r here => spawned pid r (tied.spawned t pid r here), tied.apart⟩

/-- A child ends. Its pipe stays the same. -/
theorem Tied.childExit (tied : Tied s) {pid : ℕ} {child ended : ChildProc}
    (found : s.children pid = some child) (same : ended.pipe = child.pipe) :
    Tied { s with toProcShared := s.setChild pid (some ended) } := by
  have pipes : ∀ other, (s.setChild pid (some ended)).pipeOf other = s.pipeOf other := by
    intro other
    rw [pipeOf_setChild]
    split
    next own =>
      rw [own, ProcShared.pipeOf, found]
      exact congrArg some same
    next => rfl
  refine tied.withShared ⟨tied.shared.inverse, ?_, tied.shared.reap, ?_, ?_⟩ ?_ ?_
  · simp only [pipes]
    exact tied.shared.entry
  · simp only [pipes]
    exact tied.shared.pipes
  · simp only [pipes]
    exact tied.shared.below
  · intro t r w' pipe ok
    refine ⟨ok.lock, ok.readEnd, ok.writeEnd, ok.below, ?_⟩
    simp only [pipes]
    exact ok.unused
  · intro pid' r ok
    refine ⟨?_, ok.unknown⟩
    simp only [pipes]
    exact ok.readEnd

/-- A descriptor that is no end of a poll pipe changes. -/
theorem Tied.setOther (tied : Tied s) {fd : ℕ} {file : Option HostFile}
    (notRead : ∀ pipe, s.fds fd ≠ some (.pollPipe pipe))
    (notWrite : ∀ pipe, s.fds fd ≠ some (.pipeWrite pipe)) :
    Tied { s with toProcShared := s.setFD fd file } := by
  have notPolled : NotPolled s.toProcShared fd := fun _ pipe _ => notRead pipe
  refine tied.withShared (tied.shared.setFD notPolled) ?_ fun _ _ ok => ok.setFD notPolled
  intro t r w' pipe ok
  apply ok.setFD
  · rintro rfl
    exact notRead pipe ok.readEnd
  · rintro rfl
    exact notWrite pipe ok.writeEnd

/-- **Every step keeps the children tied** to the maps and to the host. -/
theorem Tied.step (tied : Tied s) {a : ProcAction} (next : procStep s a = some s') : Tied s' := by
  cases procStep_cases next with
  | wait _ | noChild _ _ _ | copyOne _ _ _ _ | copyAll _ _ _ | read _ | pipeFailed _ _ =>
      exact tied.moves id
  | poll _ => exact tied.moves (polled_waits _ _ _)
  | goesOn _ _ _ => exact tied.moves (advance_waits _ _ _)
  | reaped _ free found _ => exact tied.reaped free found _ _ _
  | gone _ free found unknown => exact absurd unknown (tied.waitpid_known free found)
  | erase _ lock _ => exact tied.erase _ _ _ lock
  | pipe _ free unusedR unusedW apart => exact tied.makePipe free unusedR unusedW apart
  | spawn here _ fresh => exact tied.spawnChild here fresh
  | spawnFailed here => exact tied.spawnFailed here
  | insert here free => exact tied.insert free here
  | childExit found _ => exact tied.childExit found rfl
  | openOther unused => exact tied.setOther (by simp [unused]) (by simp [unused])
  | closeOther other => exact tied.setOther (by simp [other]) (by simp [other])

end Steps

/-- Nothing has been started. -/
theorem tied_start : Tied {} where
  shared :=
    { inverse := by simp
      entry := by simp
      reap := by simp
      pipes := fun _ _ _ child => by cases child
      below := fun _ _ child => by cases child }
  piped := nofun
  spawned := nofun
  apart := nofun

end Process
end WamrExt
