import WamrExt.Process.ChildTable

/-!
# What a wait reports and reads

A wait for one child should report that child, and read from poll pipes only. Both hold in every
run in which each descriptor that a wait reads, or looks up with success, still refers to what it
referred to when the wait copied it (`waits_right`). A descriptor that another wait has closed in
between may be anything: the pipe of another child, whose pid is then reported, or a descriptor
that has nothing to do with child processes (`reused_descriptor_misleads`).
-/

set_option autoImplicit false

namespace WamrExt
namespace Process

open Transition

/-- A descriptor is the poll pipe of a child in the map. -/
def IsPollPipe (s : ProcShared) (fd : ℕ) : Prop :=
  ∃ pid pipe, s.manager.childProcMap.lookup pid = some fd ∧ s.pipeOf pid = some pipe ∧
    s.fds fd = some (.pollPipe pipe)

/-- The descriptor that a wait is about to read from. -/
def ProcPoint.toRead : ProcPoint → Option Copied
  | .read _ _ c _ => some c
  | _ => none

/-- The descriptor that a wait is about to look up. -/
def ProcPoint.toLook : ProcPoint → Option Copied
  | .look _ _ c _ => some c
  | _ => none

/-- A wait reads from poll pipes of children. -/
def ReadsPollPipes (s : ProcSystem) : ProcAction → Prop
  | .read t => ∀ c ∈ (s.points t).toRead, IsPollPipe s.toProcShared c.fd
  | _ => True

/-- A wait for one child has stored the pid of that child, if it has stored one. -/
def ResultOk (call : WaitCall) (outs : WaitOuts) : Prop :=
  0 < call.pid → ∀ pid, outs.retPID = some pid → pid ≠ 0 → (pid : ℤ) = call.pid

/-- Every wait that has returned 0 reports what it was asked for. -/
def ReportsRight (s : ProcSystem) : Prop :=
  ∀ t call outs, s.points t = .waited call 0 outs → ResultOk call outs

/-- A descriptor that is read, or is found in the map, refers to what it referred to when it was
copied. -/
def StillCopied (s : ProcSystem) : ProcAction → Prop
  | .read t => ∀ c ∈ (s.points t).toRead, s.fds c.fd = c.file
  | .look t => ∀ c ∈ (s.points t).toLook,
      s.manager.pollFDToProcMap.lookup c.fd ≠ none → s.fds c.fd = c.file
  | _ => True

instance (s : ProcSystem) : ∀ a : ProcAction, Decidable (StillCopied s a)
  | .read t => inferInstanceAs (Decidable (∀ c ∈ (s.points t).toRead, s.fds c.fd = c.file))
  | .look t => inferInstanceAs (Decidable (∀ c ∈ (s.points t).toLook,
      s.manager.pollFDToProcMap.lookup c.fd ≠ none → s.fds c.fd = c.file))
  | .wait _ _ | .copy _ _ | .poll _ _ | .erase _ | .pipe _ _ | .posixSpawn _ _ | .insert _
  | .childExit _ _ | .openOther _ | .closeOther _ => isTrue trivial

/-! ## The invariant -/

/-- The descriptors that a thread has copied, with the wait they were copied for. -/
def ProcPoint.copies : ProcPoint → List (WaitCall × Copied)
  | .poll call fds => fds.map (Prod.mk call)
  | .read call _ c rest | .look call _ c rest =>
      (call, c) :: rest.map fun entry => (call, entry.1)
  | .erase call _ rest => rest.map fun entry => (call, entry.1)
  | _ => []

/-- The results of a wait. -/
def ProcPoint.outs : ProcPoint → Option (WaitCall × WaitOuts)
  | .read call outs _ _ | .look call outs _ _ | .erase call outs _ | .waited call _ outs =>
      some (call, outs)
  | _ => none

/-- What holds of the point of a thread. -/
structure ThreadOk (s : ProcShared) (t : ℕ) (p : ProcPoint) : Prop where
  copied : ∀ x ∈ p.copies, CopiedOk s x.1 x.2
  result : ∀ x ∈ p.outs, ResultOk x.1 x.2
  piped : ∀ r w pipe, p = .piped r w pipe → PipedOk s t r w pipe
  spawned : ∀ pid r, p = .spawned pid r → SpawnedOk s pid r

/-- The invariant: of what is shared, of the point of each thread, and that no two spawns have a
child of one pid. -/
structure Sound (s : ProcSystem) : Prop where
  shared : SharedOk s.toProcShared
  threads : ∀ t, ThreadOk s.toProcShared t (s.points t)
  apart : ∀ t t' pid r r', s.points t = .spawned pid r → s.points t' = .spawned pid r' → t = t'

section Points

variable {s s' : ProcShared} {t : ℕ} {p : ProcPoint}

/-- What a wait holds at a point: what it has copied, and its results. -/
structure WaitOk (s : ProcShared) (p : ProcPoint) : Prop where
  copied : ∀ x ∈ p.copies, CopiedOk s x.1 x.2
  result : ∀ x ∈ p.outs, ResultOk x.1 x.2

/-- A point before anything has been copied, or outside of a wait. -/
theorem WaitOk.ofEmpty (copies : p.copies = []) (outs : p.outs = none) : WaitOk s p := by
  constructor
  · intro x member
    rw [copies] at member
    cases member
  · intro x member
    rw [outs] at member
    cases member

/-- What has been copied stays good. -/
theorem WaitOk.mono (ok : WaitOk s p)
    (copied : ∀ call c, CopiedOk s call c → CopiedOk s' call c) : WaitOk s' p :=
  ⟨fun x member => copied x.1 x.2 (ok.copied x member), ok.result⟩

/-- The return of a wait. -/
theorem WaitOk.ofReturn {call : WaitCall} {err : ℕ} {outs : WaitOuts}
    (result : ResultOk call outs) : WaitOk s (.waited call err outs) :=
  ⟨fun _ member => absurd member List.not_mem_nil, fun _ member => Option.some.inj member ▸ result⟩

/-- The point after an entry is that of a wait with the rest of the entries. -/
theorem advance_ok {call : WaitCall} {outs : WaitOuts} {rest : List (Copied × Bool)}
    (copied : ∀ x ∈ rest, CopiedOk s call x.1) (result : ResultOk call outs) :
    WaitOk s (advance call outs rest) := by
  rcases advance_cases call outs rest with waited | collect | ⟨c, later, read, suffix⟩
  · rw [waited]
    exact .ofReturn result
  · rw [collect]
    exact .ofEmpty rfl rfl
  · have entries : ∀ x ∈ (c, true) :: later, CopiedOk s call x.1 := fun x member =>
      copied x (suffix.subset member)
    rw [read]
    refine ⟨?_, fun _ member => Option.some.inj member ▸ result⟩
    simp only [ProcPoint.copies, List.forall_mem_cons, List.forall_mem_map]
    exact List.forall_mem_cons.mp entries

end Points

/-! ## Steps -/

section Steps

variable {s s' : ProcSystem} {t : ℕ} {p : ProcPoint}

/-- What holds of the point of a thread. -/
theorem Sound.at (sound : Sound s) (here : s.points t = p) : ThreadOk s.toProcShared t p :=
  here ▸ sound.threads t

theorem Sound.wait (sound : Sound s) (t : ℕ) : WaitOk s.toProcShared (s.points t) :=
  ⟨(sound.threads t).copied, (sound.threads t).result⟩

theorem Sound.tied (sound : Sound s) : Tied s where
  shared := sound.shared
  piped _ r w pipe here := (sound.at here).piped r w pipe rfl
  spawned _ pid r here := (sound.at here).spawned pid r rfl
  apart := sound.apart

/-- The children are tied in any case. The waits are what there is to show. -/
theorem Tied.sound (tied : Tied s) (waits : ∀ t, WaitOk s.toProcShared (s.points t)) : Sound s where
  shared := tied.shared
  threads t := ⟨(waits t).copied, (waits t).result, tied.piped t, tied.spawned t⟩
  apart := tied.apart

/-- A thread comes to a point, and what the others have copied stays good. -/
theorem Sound.goesTo (sound : Sound s) {w : ProcShared} (tied : Tied (s.goesTo t p w))
    (own : WaitOk w p) (copied : ∀ call c, CopiedOk s.toProcShared call c → CopiedOk w call c) :
    Sound (s.goesTo t p w) :=
  tied.sound ((Function.forall_update_iff s.points fun _ p => WaitOk w p).mpr
    ⟨own, fun t' _ => (sound.wait t').mono copied⟩)

/-- A thread that changes nothing that is shared. -/
theorem Sound.moves (sound : Sound s) (waits : ¬ p.Spawns) (own : WaitOk s.toProcShared p) :
    Sound (s.moves t p) :=
  sound.goesTo (sound.tied.moves waits) own fun _ _ ok => ok

/-- A wait goes on after an entry. -/
theorem Sound.advances (sound : Sound s) {call : WaitCall} {outs : WaitOuts}
    {rest : List (Copied × Bool)} (copied : ∀ x ∈ rest, CopiedOk s.toProcShared call x.1)
    (result : ResultOk call outs) : Sound (s.moves t (advance call outs rest)) :=
  sound.moves (advance_waits call outs rest) (advance_ok copied result)

theorem resultOk_none (call : WaitCall) : ResultOk call {} := fun _ _ stored => by cases stored

theorem resultOk_zero (call : WaitCall) : ResultOk call { retPID := some 0 } := by
  rintro _ _ ⟨⟩ positive
  exact absurd rfl positive

/-- A wait for one child has copied the descriptor of that child. -/
theorem Sound.copyOne (sound : Sound s) (free : s.procLock = none) {call : WaitCall} {c : Copied}
    (positive : 0 < call.pid) (copied : s.copied call.pid.toNat = some c) :
    Sound (s.moves t (.poll call [c])) := by
  refine sound.moves id ⟨?_, nofun⟩
  simp only [ProcPoint.copies, List.map_cons, List.map_nil, List.forall_mem_singleton]
  exact sound.shared.copied free (fun _ => Int.toNat_of_nonneg (Int.le_of_lt positive)) copied

theorem Sound.copyAll (sound : Sound s) (free : s.procLock = none) {call : WaitCall}
    (any : ¬ 0 < call.pid) (order : List ℕ) :
    Sound (s.moves t (.poll call (order.filterMap s.copied))) := by
  refine sound.moves id ⟨?_, nofun⟩
  simp only [ProcPoint.copies, List.forall_mem_map, List.mem_filterMap]
  rintro c ⟨pid, _, copied⟩
  exact sound.shared.copied free (fun positive => absurd positive any) copied

/-- Each entry that `poll` is asked about has been copied. -/
theorem Sound.polled (sound : Sound s) {call : WaitCall} {fds : List Copied}
    (here : s.points t = .poll call fds) (answer : PollAnswer) :
    Sound (s.moves t (polled call fds answer)) := by
  cases answer with
  | failed errno => exact sound.moves id (.ofReturn (resultOk_none call))
  | timeout => exact sound.moves id (.ofReturn (resultOk_zero call))
  | ready revents =>
      refine sound.advances (fun x member => ?_) (resultOk_zero call)
      have copied := (sound.at here).copied
      simp only [ProcPoint.copies, List.forall_mem_map] at copied
      exact copied x.1 (List.of_mem_zip member).1

/-- The lock section for a descriptor that is ready finds nothing to reap. -/
theorem Sound.goesOn (sound : Sound s) {call : WaitCall} {outs : WaitOuts} {c : Copied}
    {rest : List (Copied × Bool)} (here : s.points t = .look call outs c rest) :
    Sound (s.moves t (advance call outs rest)) := by
  have thread := sound.at here
  refine sound.advances (fun x member => ?_) (thread.result _ rfl)
  exact (List.forall_mem_cons.mp thread.copied).2 (call, x.1) (List.mem_map_of_mem member)

/-- It finds a child. Then that is the child that the descriptor was copied for. -/
theorem Sound.reaped (sound : Sound s) (free : s.procLock = none) {call : WaitCall}
    {outs : WaitOuts} {c : Copied} {rest : List (Copied × Bool)} {pid : ℕ} (status : ℕ)
    (here : s.points t = .look call outs c rest)
    (found : s.manager.pollFDToProcMap.lookup c.fd = some pid) (still : s.fds c.fd = c.file) :
    Sound (s.goesTo t (.erase call ⟨some (wexitstatus status), some pid⟩ rest)
      ((s.setChild pid none).closeChild ⟨t, pid, c.fd⟩)) := by
  have copied := List.forall_mem_cons.mp (sound.at here).copied
  have own : CopiedOk s.toProcShared call c := copied.1
  have right : ResultOk call ⟨some (wexitstatus status), some pid⟩ := by
    rintro positive _ ⟨⟩ _
    have kept := (own.kept still).1
    rw [sound.shared.inverse, found] at kept
    rw [Option.some.inj kept]
    exact own.own positive
  refine sound.goesTo (sound.tied.reaped free found _ _ _)
    ⟨?_, fun _ member => Option.some.inj member ▸ right⟩ fun _ _ ok => ok.reaped
  exact List.forall_mem_map.mpr fun x member =>
    (copied.2 (call, x.1) (List.mem_map_of_mem member)).reaped

theorem Sound.erase (sound : Sound s) {call : WaitCall} {outs : WaitOuts}
    {rest : List (Copied × Bool)} {reap : Reap} (here : s.points t = .erase call outs rest)
    (lock : s.procLock = some reap) :
    Sound (s.goesTo t (advance call outs rest) (s.eraseChild reap)) := by
  have thread := sound.at here
  refine sound.goesTo (sound.tied.erase call outs rest lock)
    (advance_ok (fun x member => ?_) (thread.result _ rfl))
    fun _ _ ok => ok.erased sound.shared lock
  exact (thread.copied (call, x.1) (List.mem_map_of_mem member)).erased sound.shared lock

/-- What has been copied is not about a pipe that is just made. -/
theorem Sound.makePipe (sound : Sound s) (free : s.spawnLock = none) {r w : ℕ}
    (unusedR : s.fds r = none) (unusedW : s.fds w = none) (apart : r ≠ w) :
    Sound (s.goesTo t (.piped r w s.nextPipe) (s.makePipe t r w)) := by
  refine sound.goesTo (sound.tied.makePipe free unusedR unusedW apart) (.ofEmpty rfl rfl)
    fun call c ok => ?_
  refine CopiedOk.withSpawnLock ?_ _ (Nat.le_succ _)
  refine (ok.setFD fun pipe below same => ?_).setFD fun pipe _ same => by cases same
  cases same
  exact Nat.lt_irrefl _ below

theorem Sound.spawnChild (sound : Sound s) {r w pipe pid : ℕ}
    (here : s.points t = .piped r w pipe) (fresh : s.children pid = none) :
    Sound (s.goesTo t (.spawned pid r) (s.spawnChild w pipe pid)) := by
  apply sound.goesTo (sound.tied.spawnChild here fresh) (.ofEmpty rfl rfl)
  intro call c ok
  have kept : CopiedOk (s.setChild pid (some { pipe := pipe })) call c := ⟨ok.own, ok.file, ok.kept⟩
  refine CopiedOk.withSpawnLock (kept.setFD fun pipe _ same => ?_) none (le_refl _)
  cases same

theorem Sound.spawnFailed (sound : Sound s) {r w pipe : ℕ}
    (here : s.points t = .piped r w pipe) :
    Sound (s.goesTo t (.spawnReturned none) (s.spawnFailed r w)) := by
  apply sound.goesTo (sound.tied.spawnFailed here) (.ofEmpty rfl rfl)
  intro call c ok
  refine CopiedOk.withSpawnLock ((ok.setFD fun pipe _ same => ?_).setFD fun pipe _ same => ?_)
    none (le_refl _)
  · cases same
  · cases same

theorem Sound.insert (sound : Sound s) (free : s.procLock = none) {pid r : ℕ}
    (here : s.points t = .spawned pid r) :
    Sound (s.goesTo t (.spawnReturned (some pid)) (s.insertChild pid r)) :=
  sound.goesTo (sound.tied.insert free here) (.ofEmpty rfl rfl) fun _ _ ok =>
    ok.inserted sound.shared free (sound.tied.spawned t pid r here)

/-- A step that is none of a thread. -/
theorem Sound.withShared (sound : Sound s) {w : ProcShared}
    (tied : Tied { s with toProcShared := w })
    (copied : ∀ call c, CopiedOk s.toProcShared call c → CopiedOk w call c) :
    Sound { s with toProcShared := w } :=
  tied.sound fun t => (sound.wait t).mono copied

end Steps

/-! ## Runs -/

section Runs

variable {s s' : ProcSystem}

/-- Every step keeps the invariant, if what it reads or finds still is what was copied. -/
theorem Sound.step (sound : Sound s) {a : ProcAction} (still : StillCopied s a)
    (next : procStep s a = some s') : Sound s' := by
  have tied := sound.tied.step next
  cases procStep_cases next with
  | wait _ | pipeFailed _ _ => exact sound.moves id (.ofEmpty rfl rfl)
  | noChild _ _ _ => exact sound.moves id (.ofReturn (resultOk_none _))
  | copyOne _ free positive copied => exact sound.copyOne free positive copied
  | copyAll _ free any => exact sound.copyAll free any _
  | poll here => exact sound.polled here _
  | read here => exact sound.moves id ⟨(sound.at here).copied, (sound.at here).result⟩
  | goesOn here _ _ => exact sound.goesOn here
  | @reaped _ _ _ c _ _ _ here free found _ =>
      exact sound.reaped free _ here found (still c (by rw [here]; rfl) (by rw [found]; simp))
  | gone _ free found unknown => exact absurd unknown (sound.tied.waitpid_known free found)
  | erase here lock _ => exact sound.erase here lock
  | pipe _ free unusedR unusedW apart => exact sound.makePipe free unusedR unusedW apart
  | spawn here _ fresh => exact sound.spawnChild here fresh
  | spawnFailed here => exact sound.spawnFailed here
  | insert here free => exact sound.insert free here
  | childExit _ _ => exact sound.withShared tied fun _ _ ok => ⟨ok.own, ok.file, ok.kept⟩
  | openOther _ | closeOther _ => exact sound.withShared tied fun _ _ ok => ok.setFD fun _ _ => nofun

/-- Nothing has been started. -/
theorem sound_start : Sound {} := tied_start.sound fun _ => .ofEmpty rfl rfl

/-- A descriptor that still refers to what it was copied for is the poll pipe of a child. -/
theorem Sound.reads (sound : Sound s) {a : ProcAction} (still : StillCopied s a) :
    ReadsPollPipes s a := by
  cases a with
  | read t =>
      intro c member
      cases here : s.points t with
      | read call outs copied rest =>
          rw [here] at member
          cases member
          have own : CopiedOk s.toProcShared call c :=
            (sound.at here).copied (call, c) List.mem_cons_self
          obtain ⟨known, notReaping⟩ := own.kept (still c (by rw [here]; rfl))
          obtain ⟨pipe, child, polls⟩ := sound.shared.entry c.pid c.fd known notReaping
          exact ⟨c.pid, pipe, known, child, polls⟩
      | _ =>
          rw [here] at member
          cases member
  | _ => trivial

theorem Sound.reportsRight (sound : Sound s) : ReportsRight s := fun _ call outs here =>
  (sound.at here).result (call, outs) rfl

/-- **Waits.** In every run in which each descriptor that a wait reads, or finds in the map, still
refers to what it referred to when the wait copied it, a wait for one child reports no other
child, and waits read from the poll pipes of children only. -/
theorem waits_right {actions : List ProcAction} (still : Meets procStep StillCopied {} actions) :
    Throughout procStep ReportsRight {} actions ∧ Meets procStep ReadsPollPipes {} actions :=
  ⟨still.throughout (fun sound met next => sound.step met next) Sound.reportsRight sound_start,
    still.strengthen (fun sound met => sound.reads met) (fun sound met next => sound.step met next)
      sound_start⟩

/-- A thread starts a child with a pipe on two descriptors, and the child ends. -/
def shortChild (thread pid readEnd writeEnd : ℕ) : List ProcAction :=
  [.pipe thread (some (readEnd, writeEnd)), .posixSpawn thread (some pid), .insert thread,
    .childExit pid 0]

/-- A wait up to the point where it reads from the first descriptor that it has copied. -/
def waitToRead (thread : ℕ) (pid : ℤ) : List ProcAction :=
  [.wait thread ⟨pid, 0⟩, .copy thread [], .poll thread (.ready [true])]

/-- The rest of a wait that reaps a child. -/
def readAndReap (thread : ℕ) : List ProcAction := [.read thread, .look thread, .erase thread]

/-- Two children one after another, with the same descriptors. -/
theorem waits_right_reused :
    Throughout procStep ReportsRight {}
        (shortChild 0 100 5 6 ++ waitToRead 1 100 ++ readAndReap 1 ++
          (shortChild 0 200 5 6 ++ waitToRead 1 200 ++ readAndReap 1)) ∧
      Meets procStep ReadsPollPipes {}
        (shortChild 0 100 5 6 ++ waitToRead 1 100 ++ readAndReap 1 ++
          (shortChild 0 200 5 6 ++ waitToRead 1 200 ++ readAndReap 1)) :=
  waits_right (by decide)

/-- Two threads wait for one child and come to the read. The second reaps the child and closes its
descriptor. -/
def reapedByOther : List ProcAction :=
  shortChild 0 100 5 6 ++ waitToRead 1 100 ++ waitToRead 2 100 ++ readAndReap 2

/-- If the descriptor then becomes that of the next child, then the first thread returns 0 with
the pid of this child. If it becomes something else, then the first thread reads from that. -/
theorem reused_descriptor_misleads :
    ¬ Throughout procStep ReportsRight {}
        (reapedByOther ++ shortChild 0 200 5 6 ++ readAndReap 1) ∧
      ¬ Meets procStep ReadsPollPipes {} (reapedByOther ++ [.openOther 5] ++ [.read 1]) := by
  constructor
  · intro always
    have returned : (run procStep {} (reapedByOther ++ shortChild 0 200 5 6 ++ readAndReap 1)).map
        (fun s => s.points 1) = some (.waited ⟨100, 0⟩ 0 ⟨some 0, some 200⟩) := by decide
    obtain ⟨s, reached, point⟩ := Option.map_eq_some_iff.mp returned
    rw [← List.append_nil (reapedByOther ++ shortChild 0 200 5 6 ++ readAndReap 1)] at always
    have wrong := always.after reached 1 _ _ point (by decide) 200 rfl (by decide)
    exact absurd wrong (by decide)
  · intro reads
    have foreign : (run procStep {} (reapedByOther ++ [.openOther 5])).map
        (fun s => ((s.points 1).toRead, s.fds 5)) =
          some (some ⟨5, 100, some (.pollPipe 0)⟩, some .other) := by decide
    obtain ⟨s, reached, same⟩ := Option.map_eq_some_iff.mp foreign
    obtain ⟨toRead, other⟩ := Prod.mk.inj same
    obtain ⟨pid, pipe, _, _, polls⟩ := reads.action reached _ toRead
    cases other.symm.trans polls

end Runs

end Process
end WamrExt
