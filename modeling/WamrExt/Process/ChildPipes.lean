import WamrExt.Lib.InverseMaps
import WamrExt.Process.ProcManager

/-!
# The pipes of the children

The two maps of the manager against the host: each child in the maps has the pipe that its
descriptor refers to, except for a child that is just being reaped (`SharedOk`). A copied
descriptor that still refers to its pipe is still that of its child, since the pipe is closed
before the maps change (`CopiedOk`). A spawn has a pipe that no child has, and then a child that
the maps do not know (`PipedOk`, `SpawnedOk`).

For each change of what is shared, this is what the change keeps.
-/

set_option autoImplicit false

namespace WamrExt
namespace Process

open InverseMaps

/-- The pipe of a child. -/
def ProcShared.pipeOf (s : ProcShared) (pid : ℕ) : Option ℕ :=
  (s.children pid).map ChildProc.pipe

/-- A descriptor is just being reaped. -/
def ProcShared.Reaping (s : ProcShared) (fd : ℕ) : Prop :=
  ∃ reap, s.procLock = some reap ∧ reap.fd = fd

/-- A copied descriptor is that of its child as long as it refers to its pipe. -/
structure CopiedOk (s : ProcShared) (call : WaitCall) (c : Copied) : Prop where
  own : 0 < call.pid → (c.pid : ℤ) = call.pid
  file : ∃ pipe < s.nextPipe, c.file = some (.pollPipe pipe)
  kept : s.fds c.fd = c.file →
    s.manager.childProcMap.lookup c.pid = some c.fd ∧ ¬ s.Reaping c.fd

/-- A spawn holds both ends of a pipe that no child has. -/
structure PipedOk (s : ProcShared) (t r w pipe : ℕ) : Prop where
  lock : s.spawnLock = some t
  readEnd : s.fds r = some (.pollPipe pipe)
  writeEnd : s.fds w = some (.pipeWrite pipe)
  below : pipe < s.nextPipe
  unused : ∀ pid, s.pipeOf pid ≠ some pipe

/-- A spawn has a child that is not in the map, unless an earlier child of its pid is just being
reaped. -/
structure SpawnedOk (s : ProcShared) (pid r : ℕ) : Prop where
  readEnd : ∃ pipe, s.pipeOf pid = some pipe ∧ s.fds r = some (.pollPipe pipe)
  unknown : ∀ fd, s.manager.childProcMap.lookup pid = some fd → s.Reaping fd

/-- What holds of the maps and the host. -/
structure SharedOk (s : ProcShared) : Prop where
  inverse : ∀ pid fd, s.manager.childProcMap.lookup pid = some fd ↔
    s.manager.pollFDToProcMap.lookup fd = some pid
  entry : ∀ pid fd, s.manager.childProcMap.lookup pid = some fd → ¬ s.Reaping fd →
    ∃ pipe, s.pipeOf pid = some pipe ∧ s.fds fd = some (.pollPipe pipe)
  reap : ∀ reap, s.procLock = some reap →
    s.manager.childProcMap.lookup reap.pid = some reap.fd
  pipes : ∀ pid pid' pipe, s.pipeOf pid = some pipe → s.pipeOf pid' = some pipe → pid = pid'
  below : ∀ pid pipe, s.pipeOf pid = some pipe → pipe < s.nextPipe

/-! ## Changes of what is shared -/

section Changes

variable {s : ProcShared} {t : ℕ}

theorem not_reaping (free : s.procLock = none) (fd : ℕ) : ¬ s.Reaping fd := by
  rintro ⟨reap, lock, _⟩
  rw [free] at lock
  cases lock

/-- No two children have one descriptor. -/
theorem SharedOk.pid_eq (ok : SharedOk s) {pid pid' fd : ℕ}
    (known : s.manager.childProcMap.lookup pid = some fd)
    (known' : s.manager.childProcMap.lookup pid' = some fd) : pid = pid' :=
  Inverse.key_eq ok.inverse known known'

/-- A child in the map with the descriptor of it, when no child is being reaped. -/
theorem SharedOk.child (ok : SharedOk s) (free : s.procLock = none) {pid fd : ℕ}
    (known : s.manager.childProcMap.lookup pid = some fd) :
    ∃ pipe, s.pipeOf pid = some pipe ∧ s.fds fd = some (.pollPipe pipe) :=
  ok.entry pid fd known (not_reaping free fd)

/-- What a wait copies while no child is being reaped is that of its child. -/
theorem SharedOk.copied (ok : SharedOk s) (free : s.procLock = none) {call : WaitCall} {pid : ℕ}
    {c : Copied} (own : 0 < call.pid → (pid : ℤ) = call.pid) (copied : s.copied pid = some c) :
    CopiedOk s call c := by
  obtain ⟨fd, known, rfl⟩ := Option.map_eq_some_iff.mp copied
  obtain ⟨pipe, child, file⟩ := ok.child free known
  exact ⟨own, ⟨pipe, ok.below pid pipe child, file⟩, fun _ => ⟨known, not_reaping free fd⟩⟩

theorem pipeOf_setChild (pid : ℕ) (child : Option ChildProc) (other : ℕ) :
    (s.setChild pid child).pipeOf other =
      if other = pid then child.map ChildProc.pipe else s.pipeOf other := by
  change (Function.update s.children pid child other).map ChildProc.pipe = _
  rw [Function.update_apply]
  split <;> rfl

theorem fds_setFD (fd : ℕ) (file : Option HostFile) (other : ℕ) :
    (s.setFD fd file).fds other = if other = fd then file else s.fds other :=
  Function.update_apply _ _ _ _

/-- A descriptor is not the poll pipe of a child that has not been reaped. -/
def NotPolled (s : ProcShared) (fd : ℕ) : Prop :=
  ∀ pid pipe, s.pipeOf pid = some pipe → s.fds fd ≠ some (.pollPipe pipe)

section SetFD

variable {fd : ℕ} {file : Option HostFile}

/-- A descriptor that is no poll pipe changes. -/
theorem SharedOk.setFD (ok : SharedOk s) (notPolled : NotPolled s fd) :
    SharedOk (s.setFD fd file) := by
  refine ⟨ok.inverse, fun pid other known notReaping => ?_, ok.reap, ok.pipes, ok.below⟩
  obtain ⟨pipe, child, polls⟩ := ok.entry pid other known notReaping
  refine ⟨pipe, child, ?_⟩
  rw [fds_setFD, if_neg, polls]
  rintro rfl
  exact notPolled pid pipe child polls

/-- A descriptor changes to something that is no old poll pipe. -/
theorem CopiedOk.setFD {call : WaitCall} {c : Copied} (ok : CopiedOk s call c)
    (new : ∀ pipe < s.nextPipe, file ≠ some (.pollPipe pipe)) :
    CopiedOk (s.setFD fd file) call c := by
  refine ⟨ok.own, ok.file, fun same => ok.kept ?_⟩
  obtain ⟨pipe, below, copied⟩ := ok.file
  rw [fds_setFD] at same
  split at same
  · exact absurd (same.trans copied) (new pipe below)
  · exact same

theorem SpawnedOk.setFD {pid r : ℕ} (ok : SpawnedOk s pid r) (notPolled : NotPolled s fd) :
    SpawnedOk (s.setFD fd file) pid r := by
  obtain ⟨pipe, child, polls⟩ := ok.readEnd
  refine ⟨⟨pipe, child, ?_⟩, ok.unknown⟩
  rw [fds_setFD, if_neg, polls]
  rintro rfl
  exact notPolled pid pipe child polls

theorem PipedOk.setFD {r w pipe : ℕ} (ok : PipedOk s t r w pipe) (read : fd ≠ r) (write : fd ≠ w) :
    PipedOk (s.setFD fd file) t r w pipe := by
  refine ⟨ok.lock, ?_, ?_, ok.below, ok.unused⟩
  · rw [fds_setFD, if_neg read.symm, ok.readEnd]
  · rw [fds_setFD, if_neg write.symm, ok.writeEnd]

end SetFD

/-- The locks of spawns and the counter of pipes matter to spawns only. -/
theorem SharedOk.withSpawnLock (ok : SharedOk s) (lock : Option ℕ) {next : ℕ}
    (le : s.nextPipe ≤ next) : SharedOk { s with spawnLock := lock, nextPipe := next } :=
  ⟨ok.inverse, ok.entry, ok.reap, ok.pipes, fun pid pipe child =>
    Nat.lt_of_lt_of_le (ok.below pid pipe child) le⟩

theorem CopiedOk.withSpawnLock {call : WaitCall} {c : Copied} (ok : CopiedOk s call c)
    (lock : Option ℕ) {next : ℕ} (le : s.nextPipe ≤ next) :
    CopiedOk { s with spawnLock := lock, nextPipe := next } call c := by
  obtain ⟨pipe, below, copied⟩ := ok.file
  exact ⟨ok.own, ⟨pipe, Nat.lt_of_lt_of_le below le, copied⟩, ok.kept⟩

theorem SpawnedOk.withSpawnLock {pid r : ℕ} (ok : SpawnedOk s pid r) (lock : Option ℕ)
    (next : ℕ) : SpawnedOk { s with spawnLock := lock, nextPipe := next } pid r :=
  ⟨ok.readEnd, ok.unknown⟩

section Reaps

variable {pid fd : ℕ}

/-- A child that is in the map is reaped, and its descriptor closed. -/
theorem SharedOk.reaped (ok : SharedOk s) (free : s.procLock = none)
    (known : s.manager.childProcMap.lookup pid = some fd) :
    SharedOk ((s.setChild pid none).closeChild ⟨t, pid, fd⟩) := by
  have others : ∀ pid' pipe, (s.setChild pid none).pipeOf pid' = some pipe →
      s.pipeOf pid' = some pipe := by
    intro pid' pipe child
    rw [pipeOf_setChild] at child
    split at child
    · cases child
    · exact child
  refine ⟨ok.inverse, fun pid' fd' known' notReaping => ?_, ?_, ?_, ?_⟩
  · have otherFD : fd' ≠ fd := fun same => notReaping ⟨_, rfl, same.symm⟩
    have otherPid : pid' ≠ pid := by
      rintro rfl
      exact otherFD (Option.some.inj (known'.symm.trans known))
    obtain ⟨pipe, child, polls⟩ := ok.child free known'
    refine ⟨pipe, ?_, ?_⟩
    · exact (pipeOf_setChild pid none pid').trans ((if_neg otherPid).trans child)
    · exact (fds_setFD fd none fd').trans ((if_neg otherFD).trans polls)
  · rintro _ ⟨⟩
    exact known
  · exact fun a b pipe first second => ok.pipes a b pipe (others a pipe first) (others b pipe second)
  · exact fun a pipe child => ok.below a pipe (others a pipe child)

theorem CopiedOk.reaped {call : WaitCall} {c : Copied} (ok : CopiedOk s call c) :
    CopiedOk ((s.setChild pid none).closeChild ⟨t, pid, fd⟩) call c := by
  refine ⟨ok.own, ok.file, fun same => ?_⟩
  obtain ⟨pipe, below, copied⟩ := ok.file
  have open_ := (fds_setFD (s := s) fd none c.fd).symm.trans same
  split at open_
  · rw [copied] at open_
    cases open_
  next other =>
    refine ⟨(ok.kept open_).1, ?_⟩
    rintro ⟨_, ⟨⟩, own⟩
    exact other own.symm

/-- A spawn is not at the descriptor of a child in the map. -/
theorem SpawnedOk.reaped {pid' r : ℕ} (ok : SpawnedOk s pid' r) (shared : SharedOk s)
    (free : s.procLock = none) (known : s.manager.childProcMap.lookup pid = some fd) :
    SpawnedOk ((s.setChild pid none).closeChild ⟨t, pid, fd⟩) pid' r := by
  obtain ⟨pipe, child, polls⟩ := ok.readEnd
  have unknown : ∀ fd', s.manager.childProcMap.lookup pid' ≠ some fd' := fun fd' known' =>
    not_reaping free fd' (ok.unknown fd' known')
  have otherPid : pid' ≠ pid := by
    rintro rfl
    exact unknown fd known
  have otherFD : r ≠ fd := by
    rintro rfl
    obtain ⟨pipe', child', polls'⟩ := shared.child free known
    rw [polls] at polls'
    cases polls'
    exact otherPid (shared.pipes pid' pid pipe child child')
  refine ⟨⟨pipe, ?_, ?_⟩, fun fd' known' => absurd known' (unknown fd')⟩
  · exact (pipeOf_setChild pid none pid').trans ((if_neg otherPid).trans child)
  · exact (fds_setFD fd none r).trans ((if_neg otherFD).trans polls)

theorem PipedOk.reaped {t' r w pipe : ℕ} (ok : PipedOk s t' r w pipe) (shared : SharedOk s)
    (free : s.procLock = none) (known : s.manager.childProcMap.lookup pid = some fd) :
    PipedOk ((s.setChild pid none).closeChild ⟨t, pid, fd⟩) t' r w pipe := by
  obtain ⟨pipe', child', polls'⟩ := shared.child free known
  have read : r ≠ fd := by
    rintro rfl
    rw [ok.readEnd] at polls'
    cases polls'
    exact ok.unused pid child'
  have write : w ≠ fd := by
    rintro rfl
    rw [ok.writeEnd] at polls'
    cases polls'
  refine ⟨ok.lock, ?_, ?_, ok.below, fun other child => ?_⟩
  · exact (fds_setFD fd none r).trans ((if_neg read).trans ok.readEnd)
  · exact (fds_setFD fd none w).trans ((if_neg write).trans ok.writeEnd)
  · have child := (pipeOf_setChild pid none other).symm.trans child
    split at child
    · cases child
    · exact ok.unused other child

end Reaps

section Erases

variable {reap : Reap}

/-- What the map knows after a child has been forgotten. -/
theorem lookup_eraseChild (pid fd : ℕ) :
    (s.eraseChild reap).manager.childProcMap.lookup pid = some fd ↔
      pid ≠ reap.pid ∧ s.manager.childProcMap.lookup pid = some fd := by
  change (s.manager.childProcMap.erase reap.pid).lookup pid = some fd ↔ _
  by_cases own : pid = reap.pid
  · subst own
    simp
  · rw [AList.lookup_erase_ne own]
    simp [own]

/-- The child that is being reaped is forgotten. -/
theorem SharedOk.erased (ok : SharedOk s) (lock : s.procLock = some reap) :
    SharedOk (s.eraseChild reap) := by
  have known := ok.reap reap lock
  refine ⟨Inverse.erase ok.inverse known, fun pid fd known' _ => ?_,
    fun _ other => (by cases other), ok.pipes, ok.below⟩
  · obtain ⟨otherPid, found⟩ := (lookup_eraseChild pid fd).mp known'
    apply ok.entry pid fd found
    rintro ⟨other, lock', rfl⟩
    cases lock.symm.trans lock'
    exact otherPid (ok.pid_eq found known)

theorem CopiedOk.erased {call : WaitCall} {c : Copied} (ok : CopiedOk s call c)
    (shared : SharedOk s) (lock : s.procLock = some reap) :
    CopiedOk (s.eraseChild reap) call c := by
  refine ⟨ok.own, ok.file, fun same => ?_⟩
  obtain ⟨known, notReaping⟩ := ok.kept same
  refine ⟨(lookup_eraseChild c.pid c.fd).mpr ⟨?_, known⟩, not_reaping rfl c.fd⟩
  intro own
  rw [own, shared.reap reap lock] at known
  exact notReaping ⟨reap, lock, Option.some.inj known⟩

theorem SpawnedOk.erased {pid r : ℕ} (ok : SpawnedOk s pid r) (shared : SharedOk s)
    (lock : s.procLock = some reap) : SpawnedOk (s.eraseChild reap) pid r := by
  refine ⟨ok.readEnd, fun fd known => ?_⟩
  obtain ⟨otherPid, found⟩ := (lookup_eraseChild pid fd).mp known
  obtain ⟨other, lock', rfl⟩ := ok.unknown fd found
  cases lock.symm.trans lock'
  exact absurd (shared.pid_eq found (shared.reap reap lock)) otherPid

end Erases

section Inserts

variable {pid r : ℕ}

/-- A spawn finds neither its pid nor its descriptor in the maps. -/
theorem SharedOk.spawned_new (ok : SharedOk s) (free : s.procLock = none)
    (own : SpawnedOk s pid r) :
    (∀ fd, s.manager.childProcMap.lookup pid ≠ some fd) ∧
      ∀ pid', s.manager.childProcMap.lookup pid' ≠ some r := by
  have unknown : ∀ fd, s.manager.childProcMap.lookup pid ≠ some fd := fun fd known =>
    not_reaping free fd (own.unknown fd known)
  refine ⟨unknown, fun pid' known => ?_⟩
  obtain ⟨pipe, child, polls⟩ := own.readEnd
  obtain ⟨pipe', child', polls'⟩ := ok.child free known
  cases polls.symm.trans polls'
  cases ok.pipes pid pid' pipe child child'
  exact unknown r known

/-- What the map knows after it has learned of a child. -/
theorem lookup_insertChild (pid' fd : ℕ) :
    (s.insertChild pid r).manager.childProcMap.lookup pid' = some fd ↔
      if pid' = pid then fd = r else s.manager.childProcMap.lookup pid' = some fd := by
  change (s.manager.childProcMap.insert pid r).lookup pid' = some fd ↔ _
  by_cases own : pid' = pid
  · subst own
    simp [eq_comm]
  · rw [AList.lookup_insert_ne own, if_neg own]

theorem SharedOk.inserted (ok : SharedOk s) (free : s.procLock = none)
    (own : SpawnedOk s pid r) : SharedOk (s.insertChild pid r) := by
  obtain ⟨newPid, newFD⟩ := ok.spawned_new free own
  have newKey : s.manager.childProcMap.lookup pid = none :=
    Option.eq_none_iff_forall_ne_some.mpr newPid
  have newValue : s.manager.pollFDToProcMap.lookup r = none :=
    Option.eq_none_iff_forall_ne_some.mpr fun pid' back => newFD pid' ((ok.inverse pid' r).mpr back)
  refine ⟨Inverse.insert ok.inverse newKey newValue, fun pid' fd known _ => ?_,
    fun _ lock => ?_, ok.pipes, ok.below⟩
  · rw [lookup_insertChild] at known
    split at known
    next same =>
      subst same known
      exact own.readEnd
    next => exact ok.child free known
  · exact absurd (free.symm.trans lock) (by simp)

theorem CopiedOk.inserted {call : WaitCall} {c : Copied} (ok : CopiedOk s call c)
    (shared : SharedOk s) (free : s.procLock = none) (own : SpawnedOk s pid r) :
    CopiedOk (s.insertChild pid r) call c := by
  refine ⟨ok.own, ok.file, fun same => ?_⟩
  obtain ⟨known, notReaping⟩ := ok.kept same
  refine ⟨(lookup_insertChild c.pid c.fd).mpr ?_, notReaping⟩
  rw [if_neg, known]
  intro here
  rw [here] at known
  exact (shared.spawned_new free own).1 c.fd known

theorem SpawnedOk.inserted {pid' r' : ℕ} (ok : SpawnedOk s pid' r') (other : pid' ≠ pid) :
    SpawnedOk (s.insertChild pid r) pid' r' := by
  refine ⟨ok.readEnd, fun fd known => ?_⟩
  rw [lookup_insertChild, if_neg other] at known
  exact ok.unknown fd known

end Inserts

section SpawnChild

variable {r w pipe pid : ℕ}

/-- One thread at a time is between `pipe` and `posix_spawn`. -/
theorem PipedOk.thread_eq {t' r' w' pipe' : ℕ} (piped : PipedOk s t r w pipe)
    (piped' : PipedOk s t' r' w' pipe') : t = t' :=
  Option.some.inj (piped.lock.symm.trans piped'.lock)

/-- The write end of a pipe is no poll pipe. -/
theorem PipedOk.writeEnd_notPolled (piped : PipedOk s t r w pipe) : NotPolled s w := by
  intro pid pipe' _ polls
  rw [piped.writeEnd] at polls
  cases polls

theorem PipedOk.readEnd_notPolled (piped : PipedOk s t r w pipe) : NotPolled s r := by
  intro pid pipe' child polls
  rw [piped.readEnd] at polls
  cases polls
  exact piped.unused pid child

/-- A new child has the pipe of its spawn. -/
theorem SharedOk.newChild (ok : SharedOk s) (piped : PipedOk s t r w pipe)
    (fresh : s.children pid = none) :
    SharedOk (s.setChild pid (some { pipe := pipe })) := by
  have unknown : s.pipeOf pid = none := by rw [ProcShared.pipeOf, fresh]; rfl
  have cases_ : ∀ pid' pipe', (s.setChild pid (some { pipe := pipe })).pipeOf pid' = some pipe' →
      (pid' = pid ∧ pipe' = pipe) ∨ s.pipeOf pid' = some pipe' := by
    intro pid' pipe' child
    rw [pipeOf_setChild] at child
    split at child
    next own => exact .inl ⟨own, (Option.some.inj child).symm⟩
    next => exact .inr child
  refine ⟨ok.inverse, fun pid' fd known notReaping => ?_, ok.reap, ?_, ?_⟩
  · obtain ⟨pipe', child, polls⟩ := ok.entry pid' fd known notReaping
    refine ⟨pipe', ?_, polls⟩
    rw [pipeOf_setChild, if_neg, child]
    rintro rfl
    rw [unknown] at child
    cases child
  · intro a b pipe' first second
    obtain ⟨ownA, samePipe⟩ | oldA := cases_ a pipe' first
    · obtain ⟨ownB, _⟩ | oldB := cases_ b pipe' second
      · rw [ownA, ownB]
      · exact absurd (samePipe ▸ oldB) (piped.unused b)
    · obtain ⟨_, samePipe⟩ | oldB := cases_ b pipe' second
      · exact absurd (samePipe ▸ oldA) (piped.unused a)
      · exact ok.pipes a b pipe' oldA oldB
  · intro a pipe' child
    obtain ⟨_, rfl⟩ | child := cases_ a pipe' child
    · exact piped.below
    · exact ok.below a pipe' child

end SpawnChild

end Changes

end Process
end WamrExt
