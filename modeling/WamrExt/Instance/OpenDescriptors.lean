import WamrExt.Lib.Descriptors
import WamrExt.Process.ProcManager
import WamrExt.Socket.SockOpen

/-!
# The descriptors of an instance

An instance opens descriptors of the host: a socket for `SockOpen` and `SockAccept`, and the two
ends of a pipe for `ProcessSpawn`. It keeps a socket in its descriptor table and the read end of a
pipe in the manager of its processes. When the instance is destroyed, each entry of the table is
closed. The manager goes away with the instance, when the loop removes it, and closes nothing.

So every descriptor has been closed exactly once in the end exactly when no read end was left in
the manager, that is, when every child had been waited for (`descriptors_closed_iff`).

The calls are seen here by their descriptors only. What they check of their arguments, and what
they store for the guest, is in the modules on these calls.
-/

set_option autoImplicit false

namespace WamrExt
namespace Instance

open Descriptors Process Socket Transition

/-- The descriptors of the host process, those of the instance in its table, and its processes. -/
structure InstanceFiles where
  files : Files := {}
  fds : AList (fun _ : ℕ => ℕ) := ∅
  manager : ProcManager := {}

/-- What the host answers to a spawn that comes to the end of its arguments. -/
structure HostSpawnAnswers where
  fileActions : Bool
  pipe : Option (ℕ × ℕ)
  posixSpawn : Option ℕ

/-- What the host answers in one turn of a wait: the children come in the order of the map, `poll`
fails, times out or tells which descriptors are ready, and `waitpid` answers for a pid. -/
structure TurnAnswers where
  order : List ℕ
  poll : PollAnswer
  waitpid : ℕ → ProcShared.WaitAnswer

namespace InstanceFiles

variable (s : InstanceFiles)

/-! ## The descriptor table -/

/-- `uvwasi_fd_close` -/
def uvwasiFdClose (id : ℕ) : InstanceFiles :=
  match s.fds.lookup id with
  | none => s
  | some hostFD => { s with files := s.files.close hostFD, fds := s.fds.erase id }

/-- `InsertNewHostSocketFDToTable`. The table gives the socket a free number, or the socket is
closed. -/
def insertNewHostSocketFDToTable (hostSockFD : ℕ) : Option ℕ → Option InstanceFiles
  | none => some { s with files := s.files.close hostSockFD }
  | some id =>
      if s.fds.lookup id = none then some { s with fds := s.fds.insert id hostSockFD } else none

/-- A new socket of the host, if there is one, goes into the table. -/
def newSocket (hostSockFD : Option ℕ) (id : Option ℕ) : Option InstanceFiles :=
  match hostSockFD with
  | none => some s
  | some hostSockFD =>
      if s.files.table hostSockFD = none then
        { s with files := s.files.create hostSockFD }.insertNewHostSocketFDToTable hostSockFD id
      else none

/-- `SockOpen` -/
def sockOpen (outAppSockFD : ℕ) (domain : ℤ) (type : UInt32) (protocol : ℤ)
    (socket id : Option ℕ) : Option InstanceFiles :=
  if outAppSockFD = 0 then some s
  else
    match socketRequest domain type protocol with
    | .error _ => some s
    | .ok _ => s.newSocket socket id

/-- `SockAccept`, with what has been found for its arguments. -/
def sockAccept (found : Except UInt16 ℕ) (accept id : Option ℕ) : Option InstanceFiles :=
  match found with
  | .error _ => some s
  | .ok _ => s.newSocket accept id

/-! ## Processes -/

/-- `ProcessSpawn`, with what has been found for its arguments. The write end is closed in any case,
and the read end when no child was started. -/
def processSpawn (found : Except UInt16 Unit) (answers : HostSpawnAnswers) : Option InstanceFiles :=
  match found with
  | .error _ => some s
  | .ok _ =>
      if answers.fileActions then
        match answers.pipe with
        | none => some s
        | some (r, w) =>
            if s.files.table r = none ∧ s.files.table w = none ∧ r ≠ w then
              let files := ((s.files.create r).create w).close w
              match answers.posixSpawn with
              | none => some { s with files := files.close r }
              | some pid =>
                  some { s with
                    files := files
                    manager :=
                      { childProcMap := s.manager.childProcMap.insert pid r
                        pollFDToProcMap := s.manager.pollFDToProcMap.insert r pid } }
            else none
      else some s

/-- The descriptors that a turn of a wait polls, if there is a child to wait for. -/
def procPollFDs (pid : ℤ) (order : List ℕ) : Option (List ℕ) :=
  if 0 < pid then (s.manager.childProcMap.lookup pid.toNat).map fun fd => [fd]
  else if s.manager.childProcMap.keys = [] then none
  else some (order.filterMap s.manager.childProcMap.lookup)

/-- The lock section for a descriptor that is ready, with the pid it stores. A child that is over is
forgotten, and its descriptor closed. -/
def lookFD (waitpid : ℕ → ProcShared.WaitAnswer) (fd : ℕ) : InstanceFiles × ℕ :=
  match s.manager.pollFDToProcMap.lookup fd with
  | none => (s, 0)
  | some pid =>
      match waitpid pid with
      | .running => (s, 0)
      | .reaped _ | .noChild =>
          ({ s with
              files := s.files.close fd
              manager :=
                { childProcMap := s.manager.childProcMap.erase pid
                  pollFDToProcMap := s.manager.pollFDToProcMap.erase fd } }, pid)

/-- The loop over the descriptors of a turn. It ends at the first child that is over. -/
def lookFDs (s : InstanceFiles) (waitpid : ℕ → ProcShared.WaitAnswer) :
    List (ℕ × Bool) → InstanceFiles × ℕ
  | [] => (s, 0)
  | (fd, ready) :: rest =>
      if ready then
        if (s.lookFD waitpid fd).2 ≠ 0 then s.lookFD waitpid fd
        else (s.lookFD waitpid fd).1.lookFDs waitpid rest
      else s.lookFDs waitpid rest

/-- `ProcessWaitPID`, with the answers of its turns. It has not returned when they are used up. -/
def processWaitPID (s : InstanceFiles) (call : WaitCall) : List TurnAnswers → Option InstanceFiles
  | [] => none
  | answers :: turns =>
      if 0 < call.pid ∨ answers.order.Perm s.manager.childProcMap.keys then
        match s.procPollFDs call.pid answers.order with
        | none => some s
        | some fds =>
            match answers.poll with
            | .failed _ | .timeout => some s
            | .ready revents =>
                let looked := s.lookFDs answers.waitpid (fds.zip revents)
                if looked.2 ≠ 0 ∨ call.opt &&& wasiWNOHANG ≠ 0 then some looked.1
                else looked.1.processWaitPID call turns
      else none

/-! ## The end of the instance -/

/-- `wamr_ext_instance_destroy` closes all descriptors in the table. -/
def wamrExtInstanceDestroy : InstanceFiles := s.fds.keys.foldl uvwasiFdClose s

/-- The loop deletes the instance, and the manager with it. -/
def deleted : InstanceFiles := { s with manager := {} }

end InstanceFiles

/-- The calls of a guest, with what the host answers. The last two are calls of WASI itself, which
keeps files in the same table. -/
inductive FileCall where
  | sockOpen (outAppSockFD : ℕ) (domain : ℤ) (type : UInt32) (protocol : ℤ)
      (socket id : Option ℕ)
  | sockAccept (found : Except UInt16 ℕ) (accept id : Option ℕ)
  | processSpawn (found : Except UInt16 Unit) (answers : HostSpawnAnswers)
  | processWaitPID (call : WaitCall) (turns : List TurnAnswers)
  | pathOpen (hostFD id : ℕ)
  | fdClose (id : ℕ)

/-- A call. -/
def fileStep : Step InstanceFiles FileCall := fun s a =>
  match a with
  | .sockOpen outAppSockFD domain type protocol socket id =>
      s.sockOpen outAppSockFD domain type protocol socket id
  | .sockAccept found accept id => s.sockAccept found accept id
  | .processSpawn found answers => s.processSpawn found answers
  | .processWaitPID call turns => s.processWaitPID call turns
  | .pathOpen hostFD id => s.newSocket (some hostFD) (some id)
  | .fdClose id => some (s.uvwasiFdClose id)

/-! ## What an instance holds -/

section Held

variable {s s' : InstanceFiles} {n id : ℕ}

/-- The numbers that an instance holds: the read ends in the manager, and the entries of the
table. -/
def InstanceFiles.held (s : InstanceFiles) : List ℕ :=
  s.manager.pollFDToProcMap.keys ++ s.fds.entries.map Sigma.snd

/-- The instance holds what is open. -/
def Balanced (s : InstanceFiles) : Prop := Holds s.files s.held

theorem held_insertFD (free : s.fds.lookup id = none) :
    ({ s with fds := s.fds.insert id n } : InstanceFiles).held.Perm (n :: s.held) := by
  have entries : (s.fds.insert id n).entries = ⟨id, n⟩ :: s.fds.entries :=
    AList.entries_insert_of_notMem (AList.lookup_eq_none.mp free)
  simp only [InstanceFiles.held, entries, List.map_cons]
  exact List.perm_middle

theorem held_eraseFD (known : s.fds.lookup id = some n) :
    s.held.Perm (n :: ({ s with fds := s.fds.erase id } : InstanceFiles).held) := by
  have key : id ∈ s.fds.keys :=
    AList.mem_keys.mp (AList.lookup_isSome.mp (Option.isSome_of_eq_some known))
  obtain ⟨m, before, after, _, entries, erased⟩ := List.exists_of_kerase key
  have same : m = n := by
    have member : (⟨id, m⟩ : Sigma fun _ : ℕ => ℕ) ∈ s.fds.entries := by
      rw [entries]
      simp
    exact (Option.some.inj (known.symm.trans (AList.mem_lookup_iff.mpr member))).symm
  change (s.manager.pollFDToProcMap.keys ++ s.fds.entries.map Sigma.snd).Perm
    (n :: (s.manager.pollFDToProcMap.keys ++ (s.fds.entries.kerase id).map Sigma.snd))
  rw [erased, entries, ← same]
  simp only [List.map_append, List.map_cons, ← List.append_assoc]
  exact List.perm_middle

theorem held_insertChild (manager : ProcManager) (new : n ∉ s.held)
    (after : manager.pollFDToProcMap = s.manager.pollFDToProcMap.insert n id) :
    ({ s with manager := manager } : InstanceFiles).held = n :: s.held := by
  have unknown : n ∉ s.manager.pollFDToProcMap.keys := fun key =>
    new (List.mem_append_left _ key)
  simp only [InstanceFiles.held, after, AList.keys_insert, List.erase_of_not_mem unknown,
    List.cons_append]

theorem held_eraseChild (manager : ProcManager) {pid : ℕ}
    (known : s.manager.pollFDToProcMap.lookup n = some pid)
    (after : manager.pollFDToProcMap = s.manager.pollFDToProcMap.erase n) :
    s.held.Perm (n :: ({ s with manager := manager } : InstanceFiles).held) := by
  have key : n ∈ s.manager.pollFDToProcMap.keys :=
    AList.mem_keys.mp (AList.lookup_isSome.mp (Option.isSome_of_eq_some known))
  simp only [InstanceFiles.held, after, AList.keys_erase]
  exact (List.perm_cons_erase key).append_right _

/-! ## Calls -/

theorem Balanced.uvwasiFdClose (ok : Balanced s) (id : ℕ) : Balanced (s.uvwasiFdClose id) := by
  rw [InstanceFiles.uvwasiFdClose]
  split
  next => exact ok
  next hostFD known => exact (Holds.perm ok (held_eraseFD known)).close

/-- A new socket is in the table, or it has been closed again. -/
theorem Balanced.newSocket (ok : Balanced s) {hostSockFD id : Option ℕ}
    (taken : s.newSocket hostSockFD id = some s') : Balanced s' := by
  cases hostSockFD with
  | none =>
      cases taken
      exact ok
  | some hostSockFD =>
      obtain ⟨free, taken⟩ := Option.ite_none_right_eq_some.mp taken
      have opened := Holds.create ok free
      cases id with
      | none =>
          cases taken
          exact opened.close
      | some id =>
          obtain ⟨unused, rfl⟩ := guarded_eq_some.mp taken
          exact opened.perm (held_insertFD unused).symm

/-- A spawn leaves the read end with the manager, or has closed both. -/
theorem Balanced.processSpawn (ok : Balanced s) {found : Except UInt16 Unit}
    {answers : HostSpawnAnswers} (taken : s.processSpawn found answers = some s') :
    Balanced s' := by
  cases found with
  | error err =>
      cases taken
      exact ok
  | ok _ =>
      simp only [InstanceFiles.processSpawn] at taken
      split at taken
      next =>
        split at taken
        next =>
          cases taken
          exact ok
        next r w _ =>
          obtain ⟨⟨unusedR, unusedW, apart⟩, taken⟩ := Option.ite_none_right_eq_some.mp taken
          have opened := Holds.create ok unusedR
          have unused : (s.files.create r).table w = none :=
            (Function.update_of_ne apart.symm _ _).trans unusedW
          have written := (opened.create unused).close
          split at taken
          next =>
            cases taken
            exact written.close
          next pid _ =>
            cases taken
            have new : r ∉ s.held := Holds.new ok unusedR
            have same := held_insertChild (s := s)
              { childProcMap := s.manager.childProcMap.insert pid r
                pollFDToProcMap := s.manager.pollFDToProcMap.insert r pid } new rfl
            exact written.perm (List.Perm.of_eq same.symm)
      next =>
        cases taken
        exact ok

/-- A look gives up the read end of a child that is over, and closes it. -/
theorem Balanced.lookFD (ok : Balanced s) (waitpid : ℕ → ProcShared.WaitAnswer) (fd : ℕ) :
    Balanced (s.lookFD waitpid fd).1 := by
  rw [InstanceFiles.lookFD]
  split
  next => exact ok
  next pid known =>
    have given := Holds.perm ok (held_eraseChild
      { childProcMap := s.manager.childProcMap.erase pid
        pollFDToProcMap := s.manager.pollFDToProcMap.erase fd } known rfl)
    split
    next => exact ok
    next => exact given.close
    next => exact given.close

theorem Balanced.lookFDs (ok : Balanced s) (waitpid : ℕ → ProcShared.WaitAnswer)
    (fds : List (ℕ × Bool)) : Balanced (s.lookFDs waitpid fds).1 := by
  induction fds generalizing s with
  | nil => exact ok
  | cons entry rest ih =>
      obtain ⟨fd, ready⟩ := entry
      rw [InstanceFiles.lookFDs]
      split
      next =>
        split
        next => exact ok.lookFD waitpid fd
        next => exact ih (ok.lookFD waitpid fd)
      next => exact ih ok

theorem Balanced.processWaitPID (ok : Balanced s) {call : WaitCall} {turns : List TurnAnswers}
    (taken : s.processWaitPID call turns = some s') : Balanced s' := by
  induction turns generalizing s with
  | nil => cases taken
  | cons answers turns ih =>
      rw [InstanceFiles.processWaitPID] at taken
      obtain ⟨_, taken⟩ := Option.ite_none_right_eq_some.mp taken
      split at taken
      next =>
        cases taken
        exact ok
      next fds _ =>
        split at taken
        next =>
          cases taken
          exact ok
        next =>
          cases taken
          exact ok
        next revents _ =>
          have looked := ok.lookFDs answers.waitpid (fds.zip revents)
          simp only at taken
          split at taken
          next =>
            cases taken
            exact looked
          next => exact ih looked taken

/-- **Every call keeps the account.** -/
theorem Balanced.step (ok : Balanced s) {a : FileCall} (taken : fileStep s a = some s') :
    Balanced s' := by
  cases a with
  | sockOpen outAppSockFD domain type protocol socket id =>
      simp only [fileStep, InstanceFiles.sockOpen] at taken
      split at taken
      next =>
        cases taken
        exact ok
      next =>
        split at taken
        next =>
          cases taken
          exact ok
        next => exact ok.newSocket taken
  | sockAccept found accept id =>
      simp only [fileStep, InstanceFiles.sockAccept] at taken
      split at taken
      next =>
        cases taken
        exact ok
      next => exact ok.newSocket taken
  | processSpawn found answers => exact ok.processSpawn taken
  | processWaitPID call turns => exact ok.processWaitPID taken
  | pathOpen hostFD id =>
      have taken : s.newSocket (some hostFD) (some id) = some s' := taken
      exact ok.newSocket taken
  | fdClose id =>
      cases taken
      exact ok.uvwasiFdClose id

theorem balanced_start : Balanced {} := holds_start

/-! ## The end -/

theorem Balanced.closeAll (ok : Balanced s) (ids : List ℕ) :
    Balanced (ids.foldl InstanceFiles.uvwasiFdClose s) := by
  induction ids generalizing s with
  | nil => exact ok
  | cons id ids ih => exact ih (ok.uvwasiFdClose id)

theorem manager_uvwasiFdClose (id : ℕ) : (s.uvwasiFdClose id).manager = s.manager := by
  rw [InstanceFiles.uvwasiFdClose]
  split <;> rfl

theorem mem_keys_uvwasiFdClose (id other : ℕ) :
    other ∈ (s.uvwasiFdClose id).fds.keys ↔ other ≠ id ∧ other ∈ s.fds.keys := by
  rw [InstanceFiles.uvwasiFdClose]
  split
  next unknown =>
    refine (and_iff_right_of_imp ?_).symm
    rintro key rfl
    exact AList.lookup_eq_none.mp unknown (AList.mem_keys.mpr key)
  next =>
    change other ∈ (s.fds.erase id).keys ↔ _
    rw [AList.keys_erase, s.fds.keys_nodup.mem_erase_iff]

/-- Closing leaves the entries that are not closed, and the processes. -/
theorem closeAll_rest (ids : List ℕ) :
    (ids.foldl InstanceFiles.uvwasiFdClose s).manager = s.manager ∧
      ∀ id, id ∈ (ids.foldl InstanceFiles.uvwasiFdClose s).fds.keys ↔
        id ∉ ids ∧ id ∈ s.fds.keys := by
  induction ids generalizing s with
  | nil => simp
  | cons first ids ih =>
      obtain ⟨manager, keys⟩ := ih (s := s.uvwasiFdClose first)
      refine ⟨manager.trans (manager_uvwasiFdClose first), fun id => ?_⟩
      rw [List.foldl_cons, keys, mem_keys_uvwasiFdClose, List.mem_cons, not_or]
      tauto

/-- A destroyed instance holds the read ends that the manager has. -/
theorem held_destroy : s.wamrExtInstanceDestroy.held = s.manager.pollFDToProcMap.keys := by
  obtain ⟨manager, keys⟩ := closeAll_rest (s := s) s.fds.keys
  have closed : s.wamrExtInstanceDestroy.fds.keys = [] := by
    apply List.eq_nil_iff_forall_not_mem.mpr
    intro id key
    exact absurd ((keys id).mp key).2 ((keys id).mp key).1
  have entries : s.wamrExtInstanceDestroy.fds.entries = [] := List.map_eq_nil_iff.mp closed
  change s.wamrExtInstanceDestroy.manager.pollFDToProcMap.keys ++ _ = _
  rw [entries, List.map_nil, List.append_nil]
  exact congrArg (fun m => m.pollFDToProcMap.keys) manager

/-- **Descriptors.** After any sequence of calls, the end of the instance leaves every descriptor
closed exactly once exactly when no read end is left in the manager before it. -/
theorem descriptors_closed_iff {calls : List FileCall}
    (reached : run fileStep {} calls = some s) :
    s.wamrExtInstanceDestroy.deleted.files.ClosedOnce ↔ s.manager.pollFDToProcMap.keys = [] := by
  have ok : Balanced s :=
    run_invariant_always (fun ok taken => ok.step taken) balanced_start reached
  rw [← held_destroy]
  exact Holds.closedOnce_iff (ok.closeAll s.fds.keys)

/-- A socket, and a child with its pipe on the descriptors 5 and 6. -/
def socketAndChild : List FileCall :=
  [.sockOpen 0x1000 1 uvwasiFiletypeSocketStream 0 (some 4) (some 3),
    .processSpawn (.ok ()) ⟨true, some (5, 6), some 100⟩]

/-- A wait that reports the child. -/
def waitForChild : FileCall :=
  .processWaitPID ⟨100, 0⟩ [⟨[], .ready [true], fun _ => .reaped 0⟩]

theorem descriptors_closed_waited :
    ∃ s, run fileStep {} (socketAndChild ++ [waitForChild]) = some s ∧
      s.wamrExtInstanceDestroy.deleted.files.ClosedOnce := by
  have reached : run fileStep {} (socketAndChild ++ [waitForChild]) = some _ := rfl
  exact ⟨_, reached, (descriptors_closed_iff reached).mpr rfl⟩

/-- The read end of a child that nobody has waited for is never closed. -/
theorem forgotten_child_stays_open : ∃ s, run fileStep {} socketAndChild = some s ∧
    ¬ s.wamrExtInstanceDestroy.deleted.files.ClosedOnce :=
  ⟨_, rfl, by decide⟩

end Held

end Instance
end WamrExt
