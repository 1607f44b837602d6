import WamrExt.Process.WaitPid

/-!
# The two maps of the manager

Each of the two maps should say what the other one says. Somebody else in the host process may
reap a child before the instance waits for it, and then the host may give its pid to a later
child. `ProcessSpawn` then finds the pid in `childProcMap`: the entry stays, with the new
descriptor in it, and in `pollFDToProcMap` both descriptors lead to it.

A run has inverse maps, whenever the lock of the manager is free, exactly when each insertion finds
its pid new to `childProcMap` (`maps_inverse_iff`). Nothing else can go wrong: a new descriptor is
never in `pollFDToProcMap`, because the descriptors there are open, except for the one of a child
that is just being reaped.
-/

set_option autoImplicit false

namespace WamrExt
namespace Process

open Transition InverseMaps

/-- A step of the instance or of the host, or a wait elsewhere in the host process. -/
inductive HostAction where
  | own (a : ProcAction)
  | reapElsewhere (pid : ℕ)

/-- One step. A wait elsewhere reaps a child that has ended. -/
def hostStep : Step ProcSystem HostAction := fun s a =>
  match a with
  | .own a => procStep s a
  | .reapElsewhere pid =>
      (s.children pid).bind fun child =>
        if child.status.isSome then some { s with toProcShared := s.setChild pid none } else none

/-- While the lock of the manager is free, its maps have one size, and each is the inverse of the
other. -/
def MapsInverse (s : ProcSystem) : Prop :=
  s.procLock = none →
    s.manager.childProcMap.keys.length = s.manager.pollFDToProcMap.keys.length ∧
      Inverse s.manager.childProcMap s.manager.pollFDToProcMap

/-- The child that a thread is about to insert. -/
def ProcPoint.newChild : ProcPoint → Option ℕ
  | .spawned pid _ => some pid
  | _ => none

/-- A child that is inserted is new to `childProcMap`. -/
def InsertsNew (s : ProcSystem) : HostAction → Prop
  | .own (.insert t) => s.procLock = none → ∀ pid ∈ (s.points t).newChild,
      s.manager.childProcMap.lookup pid = none
  | _ => True

/-! ## The invariant -/

/-- The maps are inverse, and what they know is open, but for the child that is just being
reaped. -/
structure MapsOk (s : ProcShared) : Prop where
  inverse : Inverse s.manager.childProcMap s.manager.pollFDToProcMap
  entry : ∀ pid fd, s.manager.pollFDToProcMap.lookup fd = some pid → ¬ s.Reaping fd →
    ∃ pipe, s.fds fd = some (.pollPipe pipe)
  reap : ∀ reap, s.procLock = some reap →
    s.manager.childProcMap.lookup reap.pid = some reap.fd

/-- A descriptor is not in the map, unless it is just being reaped. -/
def Unknown (s : ProcShared) (fd : ℕ) : Prop :=
  ∀ pid, s.manager.pollFDToProcMap.lookup fd = some pid → s.Reaping fd

/-- The read end of a spawn that is on its way. -/
structure ReadEnd (s : ProcShared) (r : ℕ) : Prop where
  polls : ∃ pipe, s.fds r = some (.pollPipe pipe)
  unknown : Unknown s r

/-- The write end of a spawn that is on its way, under the lock of the spawns. -/
structure WriteEnd (s : ProcShared) (t w : ℕ) : Prop where
  lock : s.spawnLock = some t
  writes : ∃ pipe, s.fds w = some (.pipeWrite pipe)

def ProcPoint.readEnd : ProcPoint → Option ℕ
  | .piped r _ _ | .spawned _ r => some r
  | _ => none

def ProcPoint.writeEnd : ProcPoint → Option ℕ
  | .piped _ w _ => some w
  | _ => none

/-- What holds in every run in which each insertion is new: of the maps, and of the ends of pipes
that spawns on their way hold. -/
structure Ends (s : ProcSystem) : Prop where
  maps : MapsOk s.toProcShared
  reads : ∀ t, ∀ r ∈ (s.points t).readEnd, ReadEnd s.toProcShared r
  writes : ∀ t, ∀ w ∈ (s.points t).writeEnd, WriteEnd s.toProcShared t w
  apart : ∀ t t' r, r ∈ (s.points t).readEnd → r ∈ (s.points t').readEnd → t = t'

section Shared

variable {s : ProcShared} {t fd : ℕ} {file : Option HostFile}

/-- A descriptor that polls no child is not in the map. -/
theorem MapsOk.unknown (ok : MapsOk s) (other : ∀ pipe, s.fds fd ≠ some (.pollPipe pipe)) :
    Unknown s fd := by
  intro pid known
  by_contra notReaping
  obtain ⟨pipe, polls⟩ := ok.entry pid fd known notReaping
  exact other pipe polls

theorem Unknown.lookup_none (unknown : Unknown s fd) (free : s.procLock = none) :
    s.manager.pollFDToProcMap.lookup fd = none := by
  apply Option.eq_none_iff_forall_ne_some.mpr
  intro pid known
  exact not_reaping free fd (unknown pid known)

/-- Children matter to neither. -/
theorem MapsOk.setChild (ok : MapsOk s) (pid : ℕ) (child : Option ChildProc) :
    MapsOk (s.setChild pid child) :=
  ⟨ok.inverse, ok.entry, ok.reap⟩

theorem MapsOk.withSpawnLock (ok : MapsOk s) (lock : Option ℕ) (next : ℕ) :
    MapsOk { s with spawnLock := lock, nextPipe := next } :=
  ⟨ok.inverse, ok.entry, ok.reap⟩

theorem ReadEnd.setChild {r : ℕ} (ok : ReadEnd s r) (pid : ℕ) (child : Option ChildProc) :
    ReadEnd (s.setChild pid child) r :=
  ⟨ok.polls, ok.unknown⟩

theorem ReadEnd.withSpawnLock {r : ℕ} (ok : ReadEnd s r) (lock : Option ℕ) (next : ℕ) :
    ReadEnd { s with spawnLock := lock, nextPipe := next } r :=
  ⟨ok.polls, ok.unknown⟩

theorem MapsOk.setFD (ok : MapsOk s) (unknown : Unknown s fd) : MapsOk (s.setFD fd file) := by
  refine ⟨ok.inverse, fun pid other known notReaping => ?_, ok.reap⟩
  obtain ⟨pipe, polls⟩ := ok.entry pid other known notReaping
  refine ⟨pipe, (fds_setFD fd file other).trans ?_⟩
  rw [if_neg, polls]
  rintro rfl
  exact notReaping (unknown pid known)

theorem ReadEnd.setFD {r : ℕ} (ok : ReadEnd s r) (other : r ≠ fd) :
    ReadEnd (s.setFD fd file) r := by
  obtain ⟨pipe, polls⟩ := ok.polls
  exact ⟨⟨pipe, (fds_setFD fd file r).trans ((if_neg other).trans polls)⟩, ok.unknown⟩

theorem WriteEnd.setFD {w : ℕ} (ok : WriteEnd s t w) (other : w ≠ fd) :
    WriteEnd (s.setFD fd file) t w := by
  obtain ⟨pipe, writes⟩ := ok.writes
  exact ⟨ok.lock, pipe, (fds_setFD fd file w).trans ((if_neg other).trans writes)⟩

/-- What is open for one thing is not open for another. -/
theorem ReadEnd.ne {r : ℕ} (ok : ReadEnd s r) (other : ∀ pipe, s.fds fd ≠ some (.pollPipe pipe)) :
    r ≠ fd := by
  rintro rfl
  obtain ⟨pipe, polls⟩ := ok.polls
  exact other pipe polls

theorem WriteEnd.ne {w : ℕ} (ok : WriteEnd s t w)
    (other : ∀ pipe, s.fds fd ≠ some (.pipeWrite pipe)) : w ≠ fd := by
  rintro rfl
  obtain ⟨pipe, writes⟩ := ok.writes
  exact other pipe writes

section Reaps

variable {pid : ℕ}

/-- A child in the map is reaped. Its descriptor is closed before the maps change. -/
theorem MapsOk.closeChild (ok : MapsOk s) (free : s.procLock = none)
    (found : s.manager.pollFDToProcMap.lookup fd = some pid) :
    MapsOk (s.closeChild ⟨t, pid, fd⟩) := by
  refine ⟨ok.inverse, fun pid' other known notReaping => ?_, ?_⟩
  · obtain ⟨pipe, polls⟩ := ok.entry pid' other known (not_reaping free other)
    refine ⟨pipe, (fds_setFD fd none other).trans ?_⟩
    rw [if_neg, polls]
    rintro rfl
    exact notReaping ⟨_, rfl, rfl⟩
  · rintro _ ⟨⟩
    exact (ok.inverse pid fd).mpr found

theorem ReadEnd.closeChild {r : ℕ} (ok : ReadEnd s r) (free : s.procLock = none)
    (found : s.manager.pollFDToProcMap.lookup fd = some pid) :
    ReadEnd (s.closeChild ⟨t, pid, fd⟩) r := by
  have new := ok.unknown.lookup_none free
  have other : r ≠ fd := by
    rintro rfl
    rw [new] at found
    cases found
  refine ⟨(ok.setFD other).polls, fun pid' known => ?_⟩
  cases new.symm.trans known

end Reaps

/-- The child that is being reaped is forgotten. -/
theorem MapsOk.eraseChild (ok : MapsOk s) {reap : Reap} (lock : s.procLock = some reap) :
    MapsOk (s.eraseChild reap) := by
  refine ⟨ok.inverse.erase (ok.reap reap lock), fun pid other known _ => ?_, ?_⟩
  · have still : other ≠ reap.fd := by
      rintro rfl
      cases (AList.lookup_erase _ _).symm.trans known
    apply ok.entry pid other ((AList.lookup_erase_ne still).symm.trans known)
    rintro ⟨reap', lock', rfl⟩
    cases lock.symm.trans lock'
    exact still rfl
  · rintro _ ⟨⟩

theorem ReadEnd.eraseChild {r : ℕ} (ok : ReadEnd s r) {reap : Reap}
    (lock : s.procLock = some reap) : ReadEnd (s.eraseChild reap) r := by
  refine ⟨ok.polls, fun pid known => ?_⟩
  have still : r ≠ reap.fd := by
    rintro rfl
    cases (AList.lookup_erase _ _).symm.trans known
  obtain ⟨reap', lock', rfl⟩ := ok.unknown pid ((AList.lookup_erase_ne still).symm.trans known)
  cases lock.symm.trans lock'
  exact absurd rfl still

/-- The maps learn of a child that is new to them. -/
theorem MapsOk.insertChild (ok : MapsOk s) (free : s.procLock = none) {pid r : ℕ}
    (own : ReadEnd s r) (new : s.manager.childProcMap.lookup pid = none) :
    MapsOk (s.insertChild pid r) := by
  refine ⟨ok.inverse.insert new (own.unknown.lookup_none free), fun pid' fd known _ => ?_, ?_⟩
  · by_cases same : fd = r
    · rw [same]
      exact own.polls
    · exact ok.entry pid' fd ((AList.lookup_insert_ne same).symm.trans known) (not_reaping free fd)
  · intro reap lock
    cases free.symm.trans lock

theorem ReadEnd.insertChild {r r' pid : ℕ} (ok : ReadEnd s r') (other : r' ≠ r) :
    ReadEnd (s.insertChild pid r) r' :=
  ⟨ok.polls, fun pid' known => ok.unknown pid' ((AList.lookup_insert_ne other).symm.trans known)⟩

end Shared

/-! ## Steps -/

section Steps

variable {s s' : ProcSystem} {t : ℕ} {p : ProcPoint}

theorem readEnd_none (waits : ¬ p.Spawns) : p.readEnd = none := by
  cases p with
  | piped r w pipe => exact absurd trivial waits
  | spawned pid r => exact absurd trivial waits
  | _ => rfl

theorem writeEnd_none (waits : ¬ p.Spawns) : p.writeEnd = none := by
  cases p with
  | piped r w pipe => exact absurd trivial waits
  | _ => rfl

/-- A thread comes to a point with no write end. It may have kept its read end. -/
theorem Ends.goesTo (ends : Ends s) {w : ProcShared} (maps : MapsOk w)
    (own : ∀ r ∈ p.readEnd, r ∈ (s.points t).readEnd ∧ ReadEnd w r) (closed : p.writeEnd = none)
    (reads : ∀ t' ≠ t, ∀ r ∈ (s.points t').readEnd, ReadEnd w r)
    (writes : ∀ t' ≠ t, ∀ w' ∈ (s.points t').writeEnd, WriteEnd w t' w') :
    Ends (s.goesTo t p w) := by
  have kept : ∀ t' r, r ∈ (Function.update s.points t p t').readEnd → r ∈ (s.points t').readEnd := by
    intro t' r member
    by_cases same : t' = t
    · subst same
      rw [Function.update_self] at member
      exact (own r member).1
    · rwa [Function.update_of_ne same] at member
  refine ⟨maps, ?_, ?_, ?_⟩
  · exact (Function.forall_update_iff s.points fun _ p => ∀ r ∈ p.readEnd, ReadEnd w r).mpr
      ⟨fun r member => (own r member).2, reads⟩
  · refine (Function.forall_update_iff s.points
      fun t' p => ∀ w' ∈ p.writeEnd, WriteEnd w t' w').mpr ⟨fun w' member => ?_, writes⟩
    rw [closed] at member
    cases member
  · intro a b r first second
    exact ends.apart a b r (kept a r first) (kept b r second)

/-- A thread comes to a point of a wait, or to the end of a call. -/
theorem Ends.waits (ends : Ends s) (waits : ¬ p.Spawns) {w : ProcShared} (maps : MapsOk w)
    (reads : ∀ t' ≠ t, ∀ r ∈ (s.points t').readEnd, ReadEnd w r)
    (writes : ∀ t' ≠ t, ∀ w' ∈ (s.points t').writeEnd, WriteEnd w t' w') :
    Ends (s.goesTo t p w) := by
  refine ends.goesTo maps (fun r member => ?_) (writeEnd_none waits) reads writes
  rw [readEnd_none waits] at member
  cases member

/-- A thread that changes nothing that is shared. -/
theorem Ends.moves (ends : Ends s) (waits : ¬ p.Spawns) : Ends (s.moves t p) :=
  ends.waits waits ends.maps (fun t' _ => ends.reads t') fun t' _ => ends.writes t'

/-- A step that is none of a thread. -/
theorem Ends.withShared (ends : Ends s) {w : ProcShared} (maps : MapsOk w)
    (reads : ∀ r, ReadEnd s.toProcShared r → ReadEnd w r)
    (writes : ∀ t w', WriteEnd s.toProcShared t w' → WriteEnd w t w') :
    Ends { s with toProcShared := w } :=
  ⟨maps, fun t r member => reads r (ends.reads t r member),
    fun t w' member => writes t w' (ends.writes t w' member), ends.apart⟩

theorem Ends.setOther (ends : Ends s) {fd : ℕ} {file : Option HostFile}
    (notRead : ∀ pipe, s.fds fd ≠ some (.pollPipe pipe))
    (notWrite : ∀ pipe, s.fds fd ≠ some (.pipeWrite pipe)) :
    Ends { s with toProcShared := s.setFD fd file } :=
  ends.withShared (ends.maps.setFD (ends.maps.unknown notRead))
    (fun _ ok => ok.setFD (ok.ne notRead)) fun _ _ ok => ok.setFD (ok.ne notWrite)

theorem Ends.setChild (ends : Ends s) (pid : ℕ) (child : Option ChildProc) :
    Ends { s with toProcShared := s.setChild pid child } :=
  ends.withShared (ends.maps.setChild pid child) (fun _ ok => ok.setChild pid child)
    fun _ _ ok => ⟨ok.lock, ok.writes⟩

/-- A wait closes the descriptor of a child that it has found. -/
theorem Ends.closeChild (ends : Ends s) (free : s.procLock = none) {pid fd : ℕ}
    (found : s.manager.pollFDToProcMap.lookup fd = some pid) (call : WaitCall) (outs : WaitOuts)
    (rest : List (Copied × Bool)) :
    Ends (s.goesTo t (.erase call outs rest) (s.closeChild ⟨t, pid, fd⟩)) := by
  refine ends.waits id (ends.maps.closeChild free found) ?_ ?_
  · intro t' _ r member
    exact (ends.reads t' r member).closeChild free found
  · intro t' _ w' member
    have own := ends.writes t' w' member
    have other : w' ≠ fd := by
      apply own.ne
      intro pipe writes
      obtain ⟨pipe', polls⟩ := ends.maps.entry pid fd found (not_reaping free fd)
      cases polls.symm.trans writes
    have still : WriteEnd (s.setFD fd none) t' w' := own.setFD other
    exact ⟨still.lock, still.writes⟩

/-- A spawn makes its pipe. Nobody else has a write end then. -/
theorem Ends.makePipe (ends : Ends s) (free : s.spawnLock = none) {r w : ℕ}
    (unusedR : s.fds r = none) (unusedW : s.fds w = none) (apart : r ≠ w) :
    Ends (s.goesTo t (.piped r w s.nextPipe) (s.makePipe t r w)) := by
  have closedR : ∀ pipe, s.fds r ≠ some (.pollPipe pipe) := by simp [unusedR]
  have closedW : ∀ pipe, s.fds w ≠ some (.pollPipe pipe) := by simp [unusedW]
  have unknownR := ends.maps.unknown closedR
  have unknownW := ends.maps.unknown closedW
  have others : ∀ {r'}, ReadEnd s.toProcShared r' → ReadEnd (s.makePipe t r w) r' := fun ok =>
    ((ok.setFD (ok.ne closedR)).setFD (ok.ne closedW)).withSpawnLock _ _
  have own : ReadEnd (s.makePipe t r w) r := by
    refine ⟨⟨s.nextPipe, ?_⟩, unknownR⟩
    refine (fds_setFD w _ r).trans ((if_neg apart).trans ?_)
    exact (fds_setFD r _ r).trans (if_pos rfl)
  refine ⟨((ends.maps.setFD unknownR).setFD unknownW).withSpawnLock _ _, ?_, ?_, ?_⟩
  · refine (Function.forall_update_iff s.points fun _ p => ∀ r' ∈ p.readEnd, ReadEnd _ r').mpr
      ⟨?_, fun t' _ r' member => others (ends.reads t' r' member)⟩
    rintro _ ⟨⟩
    exact own
  · refine (Function.forall_update_iff s.points
      fun t' p => ∀ w' ∈ p.writeEnd, WriteEnd _ t' w').mpr ⟨?_, fun t' _ w' member => ?_⟩
    · rintro _ ⟨⟩
      exact ⟨rfl, s.nextPipe, (fds_setFD w _ w).trans (if_pos rfl)⟩
    · cases free.symm.trans (ends.writes t' w' member).lock
  · have new : ∀ t', r ∉ (s.points t').readEnd := by
      intro t' member
      exact (ends.reads t' r member).ne closedR rfl
    intro a b r' first second
    simp only [ProcSystem.goesTo, Function.update_apply] at first second
    split at first
    next atA =>
      cases first
      split at second
      next atB => rw [atA, atB]
      next => exact absurd second (new b)
    next =>
      split at second
      next =>
        cases second
        exact absurd first (new a)
      next => exact ends.apart a b r' first second

/-- Nobody but the thread with the lock has a write end. -/
theorem Ends.writer (ends : Ends s) {w w' t' : ℕ} (mine : w ∈ (s.points t).writeEnd)
    (other : t' ≠ t) : w' ∉ (s.points t').writeEnd := by
  intro member
  have lock := (ends.writes t' w' member).lock
  rw [(ends.writes t w mine).lock] at lock
  exact other (Option.some.inj lock).symm

/-- A thread starts a child, and closes the write end. -/
theorem Ends.spawnChild (ends : Ends s) {r w pipe pid : ℕ} (here : s.points t = .piped r w pipe) :
    Ends (s.goesTo t (.spawned pid r) (s.spawnChild w pipe pid)) := by
  have mine : w ∈ (s.points t).writeEnd := by rw [here]; rfl
  obtain ⟨_, written, writes⟩ := ends.writes t w mine
  have notPolled : ∀ pipe, s.fds w ≠ some (.pollPipe pipe) := by simp [writes]
  have reads : ∀ t', ∀ r' ∈ (s.points t').readEnd, ReadEnd (s.spawnChild w pipe pid) r' := by
    intro t' r' member
    have ok := ends.reads t' r' member
    exact ((ok.setChild pid _).setFD (ok.ne notPolled)).withSpawnLock none s.nextPipe
  refine ends.goesTo (((ends.maps.setChild pid _).setFD
    (ends.maps.unknown notPolled)).withSpawnLock none s.nextPipe) ?_ rfl (fun t' _ => reads t') ?_
  · rintro _ ⟨⟩
    have member : r ∈ (s.points t).readEnd := by rw [here]; rfl
    exact ⟨member, reads t r member⟩
  · intro t' other w' member
    exact absurd member (ends.writer mine other)

/-- No child is started, and both ends are closed. -/
theorem Ends.spawnFailed (ends : Ends s) {r w pipe : ℕ} (here : s.points t = .piped r w pipe) :
    Ends (s.goesTo t (.spawnReturned none) (s.spawnFailed r w)) := by
  have mine : w ∈ (s.points t).writeEnd := by rw [here]; rfl
  have read : r ∈ (s.points t).readEnd := by rw [here]; rfl
  obtain ⟨_, written, writes⟩ := ends.writes t w mine
  have notPolled : ∀ pipe, s.fds w ≠ some (.pollPipe pipe) := by simp [writes]
  refine ends.waits id (((ends.maps.setFD (ends.maps.unknown notPolled)).setFD
    (ends.reads t r read).unknown).withSpawnLock none s.nextPipe) ?_ ?_
  · intro t' other r' member
    have ok := ends.reads t' r' member
    have apart : r' ≠ r := by
      rintro rfl
      exact other (ends.apart t' t r' member read)
    exact ((ok.setFD (ok.ne notPolled)).setFD apart).withSpawnLock none s.nextPipe
  · intro t' other w' member
    exact absurd member (ends.writer mine other)

theorem Ends.insert (ends : Ends s) (free : s.procLock = none) {pid r : ℕ}
    (here : s.points t = .spawned pid r) (new : s.manager.childProcMap.lookup pid = none) :
    Ends (s.goesTo t (.spawnReturned (some pid)) (s.insertChild pid r)) := by
  have read : r ∈ (s.points t).readEnd := by rw [here]; rfl
  refine ends.waits id (ends.maps.insertChild free (ends.reads t r read) new) ?_ ?_
  · intro t' other r' member
    apply (ends.reads t' r' member).insertChild
    rintro rfl
    exact other (ends.apart t' t r' member read)
  · intro t' _ w' member
    obtain ⟨lock, writes⟩ := ends.writes t' w' member
    exact ⟨lock, writes⟩

/-- **Every step of the instance keeps the ends**, if what it inserts is new. -/
theorem Ends.procStep (ends : Ends s) {a : ProcAction} (new : InsertsNew s (.own a))
    (taken : procStep s a = some s') : Ends s' := by
  cases procStep_cases taken with
  | wait _ | noChild _ _ _ | copyOne _ _ _ _ | copyAll _ _ _ | read _ | pipeFailed _ _ =>
      exact ends.moves id
  | poll _ => exact ends.moves (polled_waits _ _ _)
  | goesOn _ _ _ => exact ends.moves (advance_waits _ _ _)
  | reaped _ free found _ => exact (ends.setChild _ none).closeChild free found _ _ _
  | gone _ free found _ => exact ends.closeChild free found _ _ _
  | @erase t call outs rest reap _ lock _ =>
      refine ends.waits (advance_waits call outs rest) (ends.maps.eraseChild lock) ?_ ?_
      · intro t' _ r member
        exact (ends.reads t' r member).eraseChild lock
      · intro t' _ w' member
        obtain ⟨held, writes⟩ := ends.writes t' w' member
        exact ⟨held, writes⟩
  | pipe _ free unusedR unusedW apart => exact ends.makePipe free unusedR unusedW apart
  | spawn here _ _ => exact ends.spawnChild here
  | spawnFailed here => exact ends.spawnFailed here
  | @insert t pid r here free => exact ends.insert free here (new free pid (by rw [here]; rfl))
  | childExit _ _ => exact ends.setChild _ _
  | openOther unused => exact ends.setOther (by simp [unused]) (by simp [unused])
  | closeOther other => exact ends.setOther (by simp [other]) (by simp [other])

/-- Every step keeps the ends, if what it inserts is new. -/
theorem Ends.step (ends : Ends s) {a : HostAction} (new : InsertsNew s a)
    (taken : hostStep s a = some s') : Ends s' := by
  cases a with
  | own a => exact ends.procStep new taken
  | reapElsewhere pid =>
      obtain ⟨child, _, taken⟩ := Option.bind_eq_some_iff.mp taken
      obtain ⟨_, rfl⟩ := guarded_eq_some.mp taken
      exact ends.setChild pid none

theorem ends_start : Ends {} where
  maps := ⟨inverse_empty, fun _ _ known => by simp at known, nofun⟩
  reads := nofun
  writes := nofun
  apart := nofun

theorem Ends.mapsInverse (ends : Ends s) : MapsInverse s := fun _ =>
  ⟨ends.maps.inverse.size_eq, ends.maps.inverse⟩

/-- An insertion leaves inverse maps exactly when its child is new to them. -/
theorem Ends.insert_iff (ends : Ends s) :
    InsertsNew s (.own (.insert t)) ↔
      ∀ next, hostStep s (.own (.insert t)) = some next → MapsInverse next := by
  constructor
  · intro new next taken
    exact (ends.step new taken).mapsInverse
  · intro after free pid member
    cases here : s.points t with
    | spawned child r =>
        rw [here] at member
        cases member
        have read : r ∈ (s.points t).readEnd := by rw [here]; rfl
        have taken : hostStep s (.own (.insert t)) =
            some (s.goesTo t (.spawnReturned (some pid)) (s.insertChild pid r)) := by
          simp only [hostStep, Process.procStep, here, if_pos free]
        apply (ends.maps.inverse.insert_iff ((ends.reads t r read).unknown.lookup_none free)).mp
        exact (after _ taken free).2
    | _ =>
        rw [here] at member
        cases member

/-- **The condition is exact**: a step leaves inverse maps exactly when what it inserts is new. -/
theorem Ends.new_iff (ends : Ends s) {a : HostAction} :
    InsertsNew s a ↔ ∀ next, hostStep s a = some next → MapsInverse next := by
  have always (new : InsertsNew s a) : InsertsNew s a ↔
      ∀ next, hostStep s a = some next → MapsInverse next :=
    iff_of_true new fun next taken => (ends.step new taken).mapsInverse
  cases a with
  | reapElsewhere pid => exact always trivial
  | own a =>
      cases a with
      | insert t => exact ends.insert_iff
      | _ => exact always trivial

/-- **The maps.** In every run the two maps are inverse to each other, and of one size, whenever
the lock of the manager is free, exactly when each child that is inserted is new to
`childProcMap`. -/
theorem maps_inverse_iff (actions : List HostAction) :
    Throughout hostStep MapsInverse {} actions ↔ Meets hostStep InsertsNew {} actions :=
  throughout_iff (fun ends => ends.new_iff) (fun ends new taken => ends.step new taken)
    Ends.mapsInverse ends_start

/-- A child is reaped elsewhere, and its pid is given to the next child of the instance, with
another pipe. -/
def pidReused : List HostAction :=
  (shortChild 0 100 5 6).map .own ++ [.reapElsewhere 100] ++
    [.own (.pipe 0 (some (7, 8))), .own (.posixSpawn 0 (some 100)), .own (.insert 0)]

/-- Then both descriptors lead to the pid in one map, and the other map has the second only. -/
theorem pid_reuse_breaks_maps : ¬ Throughout hostStep MapsInverse {} pidReused := by
  intro always
  have sizes : (run hostStep {} pidReused).map (fun s => (s.procLock,
      s.manager.childProcMap.keys, s.manager.pollFDToProcMap.keys)) =
        some (none, [100], [7, 5]) := by decide
  obtain ⟨s, reached, same⟩ := Option.map_eq_some_iff.mp sizes
  rw [← List.append_nil pidReused] at always
  simp only [Prod.mk.injEq] at same
  obtain ⟨size, _⟩ := always.after reached same.1
  rw [same.2.1, same.2.2] at size
  exact absurd size (by decide)

end Steps

end Process
end WamrExt
