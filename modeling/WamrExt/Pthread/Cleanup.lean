import WamrExt.Pthread.System

/-!
# The cleanup loop and the tear-down

Every app thread that has not passed its exit section has an entry in the thread map
(`Registered`). The cleanup loop erases an entry only when its thread is gone (`Joins`). So
when a snapshot is empty no app thread is left, and none can be spawned by another app
thread any more (`Cleaned`).

This lasts until the tear-down unless the destructors, which run after the loop, spawn a
thread. The thread map also has to keep its handles apart: an app thread that is given the
handle of the main thread is not in any snapshot, and the thread manager can give it when
the entry of the main thread has been lost. In every other run no app thread survives
(`no_thread_survives`).
-/

set_option autoImplicit false

namespace WamrExt
namespace Pthread

open Transition

/-! ## Invariants -/

/-- The app thread that the main thread waits for. -/
def MainPoint.awaits : MainPoint → Option ℕ
  | .waiting threadInfo _ => some threadInfo.pExecEnv
  | _ => none

/-- The thread that is awaited belongs to a pending thread info. -/
theorem MainPoint.awaits_pending {point : MainPoint} {n : ℕ} (waits : point.awaits = some n) :
    ∃ threadInfo ∈ point.pending, threadInfo.pExecEnv = n := by
  cases point with
  | waiting threadInfo todo =>
      cases waits
      exact ⟨threadInfo, List.mem_cons_self, rfl⟩
  | _ => cases waits

/-- The thread map and the app threads. Every entry knows its handle, every entry but that
of the main thread is about an app thread, and every app thread that has not passed its exit
section has an entry. -/
structure Registered (pMainExecEnv : ℕ) (s : System) : Prop where
  handle : ∀ handleID threadInfo, s.manager.getThreadInfo handleID = some threadInfo →
    threadInfo.handleID = handleID
  main : ∀ threadInfo, s.manager.getThreadInfo mainThreadId = some threadInfo →
    threadInfo = mainThreadInfo pMainExecEnv
  app : ∀ handleID threadInfo, s.manager.getThreadInfo handleID = some threadInfo →
    handleID ≠ mainThreadId → (s.threads threadInfo.pExecEnv).isSome
  running : ∀ n exitCtrl, s.threads n = some exitCtrl → exitCtrl.phase = .running →
    ∃ handleID threadInfo, s.manager.getThreadInfo handleID = some threadInfo ∧
      threadInfo.pExecEnv = n ∧ handleID ≠ mainThreadId
  named : ∀ n, (s.threads n).isSome → n < s.manager.unusedEnv

/-- Nobody waits for the thread, or it is gone. -/
def Unawaited (exitCtrl : ExitCtrl Unit) : Prop :=
  exitCtrl.waitCount = 0 ∨ (exitCtrl.waitCount < 0 ∧ exitCtrl.phase ≠ .running)

/-- The main thread and what it joins. The infos it has to do with are in the map, it is
counted where it waits and nowhere else, and it erases an entry only when the thread is
gone. -/
structure Joins (s : System) : Prop where
  stored : ∀ threadInfo ∈ s.main.pending,
    s.manager.getThreadInfo threadInfo.handleID = some threadInfo ∧
      threadInfo.handleID ≠ mainThreadId
  distinct : (s.main.pending.map ExecEnvThreadInfo.handleID).Nodup
  awaited : ∀ n exitCtrl, s.threads n = some exitCtrl → s.main.awaits = some n →
    exitCtrl.waitCount = 1
  unawaited : ∀ n exitCtrl, s.threads n = some exitCtrl → s.main.awaits ≠ some n →
    Unawaited exitCtrl
  gone : ∀ threadInfo todo, s.main = .erasing threadInfo todo →
    ∀ exitCtrl, s.threads threadInfo.pExecEnv = some exitCtrl → exitCtrl.phase ≠ .running

/-- After the cleanup loop only the main thread has an entry. -/
def Cleaned (s : System) : Prop :=
  s.main = .dtors ∨ s.main = .closing ∨ s.main = .teardown →
    ∀ handleID, (s.manager.getThreadInfo handleID).isSome → handleID = mainThreadId

/-- What the runs keep that are followed here. -/
structure Kept (pMainExecEnv : ℕ) (s : System) : Prop where
  registered : Registered pMainExecEnv s
  joins : Joins s
  cleaned : Cleaned s

/-! ## Spawns -/

section Spawn

variable {pMainExecEnv : ℕ} {s s' : System} {answers : ThreadSpawnAnswers} {appArg : UInt32}

theorem startedThreads_lateCalls (manager : InstancePthreadManager) (answers : ThreadSpawnAnswers) :
    startedThreads (lateCalls manager answers) = [] := by
  apply List.filterMap_eq_nil_iff.mpr
  intro call member
  split
  next env retTid appArg => exact absurd rfl (mem_lateCalls_ne member env retTid appArg)
  next => rfl

/-- The threads after a spawn that was given a handle. -/
def System.started (s : System) (answers : ThreadSpawnAnswers) (appArg : UInt32)
    (given : UInt32 × UInt32) : System :=
  { s with
    manager := s.manager.insert given.1 given.2
      (startedThreadInfo s.manager answers appArg given.1) rfl
    threads := Function.update s.threads s.manager.unusedEnv (some {}) }

/-- The three ways a spawn ends, for the threads of the instance. -/
theorem spawn_cases (spawned : s.spawn answers appArg = some s') :
    s' = { s with manager := s.manager.useEnv } ∨
      s' = { s with manager := s.manager.useEnv.erase mainThreadId } ∨
      ((answers.MakesThreadInfo ∧ answers.SetsUpStack) ∧
        ∃ given, HandleTable.allot (· + 1) s.manager.threadMap s.manager.curHandleId =
            some given ∧ s' = s.started answers appArg given) := by
  obtain ⟨outcome, returned, rfl⟩ := Option.map_eq_some_iff.mp spawned
  cases wasiThreadSpawn_cases returned with
  | early _ =>
      left
      split <;> simp [startedThreads]
  | late _ =>
      right; left
      simp [startedThreads_lateCalls]
  | @started given starts found =>
      right; right
      refine ⟨starts, given, found, ?_⟩
      congr 1
      funext n
      simp [startedThreads, Function.update_apply]

/-- A manager that has the same entries, or the same but that of the main thread. -/
structure SameApps (manager manager' : InstancePthreadManager) : Prop where
  apps : ∀ handleID, handleID ≠ mainThreadId →
    manager'.getThreadInfo handleID = manager.getThreadInfo handleID
  main : ∀ threadInfo, manager'.getThreadInfo mainThreadId = some threadInfo →
    manager.getThreadInfo mainThreadId = some threadInfo
  unused : manager.unusedEnv ≤ manager'.unusedEnv

theorem sameApps_useEnv (manager : InstancePthreadManager) :
    SameApps manager manager.useEnv :=
  ⟨fun _ _ => rfl, fun _ stored => stored, Nat.le_succ _⟩

theorem sameApps_erase (manager : InstancePthreadManager) :
    SameApps manager (manager.useEnv.erase mainThreadId) where
  apps _ different := manager.useEnv.getThreadInfo_erase_ne different
  main threadInfo stored := by
    rw [InstancePthreadManager.getThreadInfo_erase_self] at stored
    cases stored
  unused := Nat.le_succ _

theorem SameApps.getThreadInfo {manager manager' : InstancePthreadManager}
    (same : SameApps manager manager') {handleID : UInt32} {threadInfo : ExecEnvThreadInfo}
    (stored : manager'.getThreadInfo handleID = some threadInfo) :
    manager.getThreadInfo handleID = some threadInfo := by
  by_cases main : handleID = mainThreadId
  · rw [main] at stored ⊢
    exact same.main threadInfo stored
  · rw [← same.apps handleID main]
    exact stored

/-- A spawn that starts no thread keeps everything. -/
theorem Kept.sameApps (kept : Kept pMainExecEnv s) {manager' : InstancePthreadManager}
    (same : SameApps s.manager manager') :
    Kept pMainExecEnv { s with manager := manager' } where
  registered := {
    handle := fun _ _ stored => kept.registered.handle _ _ (same.getThreadInfo stored)
    main := fun _ stored => kept.registered.main _ (same.main _ stored)
    app := fun _ _ stored => kept.registered.app _ _ (same.getThreadInfo stored)
    running := fun n exitCtrl thread phase => by
      obtain ⟨handleID, threadInfo, stored, own, app⟩ :=
        kept.registered.running n exitCtrl thread phase
      exact ⟨handleID, threadInfo, (same.apps _ app).trans stored, own, app⟩
    named := fun n thread => lt_of_lt_of_le (kept.registered.named n thread) same.unused }
  joins := {
    stored := fun threadInfo pending => by
      obtain ⟨stored, app⟩ := kept.joins.stored threadInfo pending
      exact ⟨(same.apps _ app).trans stored, app⟩
    distinct := kept.joins.distinct
    awaited := kept.joins.awaited
    unawaited := kept.joins.unawaited
    gone := kept.joins.gone }
  cleaned := fun after handleID stored => by
    obtain ⟨threadInfo, found⟩ := Option.isSome_iff_exists.mp stored
    apply kept.cleaned after handleID
    rw [same.getThreadInfo found]
    rfl

variable {given : UInt32 × UInt32}

theorem System.started_getThreadInfo {handleID : UInt32} {threadInfo : ExecEnvThreadInfo} :
    (s.started answers appArg given).manager.getThreadInfo handleID = some threadInfo ↔
      (handleID = given.1 ∧
          threadInfo = startedThreadInfo s.manager answers appArg given.1) ∨
        (handleID ≠ given.1 ∧ s.manager.getThreadInfo handleID = some threadInfo) :=
  s.manager.getThreadInfo_insert_eq_some rfl

theorem System.started_threads_self :
    (s.started answers appArg given).threads s.manager.unusedEnv = some {} :=
  Function.update_self _ _ _

theorem System.started_threads_ne {n : ℕ} (old : n ≠ s.manager.unusedEnv) :
    (s.started answers appArg given).threads n = s.threads n :=
  Function.update_of_ne old _ _

/-- No entry is about the exec env of the new thread. -/
theorem System.stored_is_old {handleID : UInt32} {threadInfo : ExecEnvThreadInfo}
    (stored : s.manager.getThreadInfo handleID = some threadInfo) :
    threadInfo.pExecEnv ≠ s.manager.unusedEnv :=
  (s.manager.created _ _ stored).ne

/-- An entry stays where it is, since the handle given was free. -/
theorem System.started_keeps
    (found : HandleTable.allot (· + 1) s.manager.threadMap s.manager.curHandleId = some given)
    {handleID : UInt32} {threadInfo : ExecEnvThreadInfo}
    (stored : s.manager.getThreadInfo handleID = some threadInfo) :
    (s.started answers appArg given).manager.getThreadInfo handleID = some threadInfo := by
  refine System.started_getThreadInfo.mpr (Or.inr ⟨?_, stored⟩)
  rintro rfl
  have free : s.manager.getThreadInfo given.1 = none :=
    AList.lookup_eq_none.mpr (HandleTable.allot_free found)
  rw [free] at stored
  cases stored

/-- The new thread is registered, when it is not given the handle of the main thread. -/
theorem Registered.started (registered : Registered pMainExecEnv s)
    (found : HandleTable.allot (· + 1) s.manager.threadMap s.manager.curHandleId = some given)
    (app : given.1 ≠ mainThreadId) :
    Registered pMainExecEnv (s.started answers appArg given) where
  handle handleID threadInfo stored := by
    obtain ⟨rfl, rfl⟩ | ⟨_, old⟩ := System.started_getThreadInfo.mp stored
    · rfl
    · exact registered.handle handleID threadInfo old
  main threadInfo stored := by
    obtain ⟨same, _⟩ | ⟨_, old⟩ := System.started_getThreadInfo.mp stored
    · exact absurd same.symm app
    · exact registered.main threadInfo old
  app handleID threadInfo stored notMain := by
    obtain ⟨_, rfl⟩ | ⟨_, old⟩ := System.started_getThreadInfo.mp stored
    · exact Option.isSome_of_eq_some System.started_threads_self
    · rw [System.started_threads_ne (System.stored_is_old old)]
      exact registered.app handleID threadInfo old notMain
  running n exitCtrl thread phase := by
    by_cases new : n = s.manager.unusedEnv
    · refine ⟨given.1, _, System.started_getThreadInfo.mpr (Or.inl ⟨rfl, rfl⟩), ?_, app⟩
      exact new.symm
    · rw [System.started_threads_ne new] at thread
      obtain ⟨handleID, threadInfo, old, own, notMain⟩ :=
        registered.running n exitCtrl thread phase
      exact ⟨handleID, threadInfo, System.started_keeps found old, own, notMain⟩
  named n thread := by
    by_cases new : n = s.manager.unusedEnv
    · exact new ▸ Nat.lt_succ_self _
    · rw [System.started_threads_ne new] at thread
      exact Nat.lt_succ_of_lt (registered.named n thread)

/-- The joins of the main thread are not about the new thread. -/
theorem Joins.started (joins : Joins s)
    (found : HandleTable.allot (· + 1) s.manager.threadMap s.manager.curHandleId = some given) :
    Joins (s.started answers appArg given) where
  stored threadInfo pending := by
    obtain ⟨old, notMain⟩ := joins.stored threadInfo pending
    exact ⟨System.started_keeps found old, notMain⟩
  distinct := joins.distinct
  awaited n exitCtrl thread waits := by
    obtain ⟨threadInfo, pending, rfl⟩ := MainPoint.awaits_pending waits
    have old := System.stored_is_old (joins.stored threadInfo pending).1
    rw [System.started_threads_ne old] at thread
    exact joins.awaited _ exitCtrl thread waits
  unawaited n exitCtrl thread waits := by
    by_cases new : n = s.manager.unusedEnv
    · rw [new, System.started_threads_self] at thread
      cases thread
      exact Or.inl rfl
    · rw [System.started_threads_ne new] at thread
      exact joins.unawaited n exitCtrl thread waits
  gone threadInfo todo at_erase exitCtrl thread := by
    have pending : threadInfo ∈ s.main.pending := by
      rw [show s.main = .erasing threadInfo todo from at_erase]
      exact List.mem_cons_self
    have old := System.stored_is_old (joins.stored threadInfo pending).1
    rw [System.started_threads_ne old] at thread
    exact joins.gone threadInfo todo at_erase exitCtrl thread

end Spawn

/-! ## The handshake -/

section Handshake

variable {pMainExecEnv : ℕ} {s : System} {thread : ℕ} {exitCtrl next : ExitCtrl Unit}

/-- No section takes a thread back into guest code. -/
theorem exitStep_phase {a : ExitStep Unit} (taken : exitStep exitCtrl a = some next)
    (running : next.phase = .running) : exitCtrl.phase = .running := by
  cases a with
  | enter joiner =>
      obtain ⟨_, rfl⟩ := guarded_eq_some.mp taken
      rw [ExitCtrl.enter] at running
      split at running <;> exact running
  | wake joiner =>
      obtain ⟨_, rfl⟩ := guarded_eq_some.mp taken
      rw [ExitCtrl.wake] at running
      split at running <;> exact running
  | joinReturn =>
      obtain ⟨_, rfl⟩ := guarded_eq_some.mp taken
      exact running
  | exitSection =>
      obtain ⟨⟨_, before⟩, _⟩ := guarded_eq_some.mp taken
      exact before
  | threadEnd =>
      obtain ⟨_, rfl⟩ := guarded_eq_some.mp taken
      cases running

variable {main : MainPoint}

theorem System.afterSection_threads {n : ℕ} {other : ExitCtrl Unit} :
    (s.afterSection thread next main).threads n = some other ↔
      (n = thread ∧ other = next) ∨ (n ≠ thread ∧ s.threads n = some other) := by
  by_cases own : n = thread
  · simp [own, System.afterSection, eq_comm]
  · simp [own, System.afterSection]

/-- The same app threads exist after a section. -/
theorem System.afterSection_isSome (found : s.threads thread = some exitCtrl) (n : ℕ) :
    ((s.afterSection thread next main).threads n).isSome ↔ (s.threads n).isSome := by
  by_cases own : n = thread
  · simp [own, found, System.afterSection]
  · simp [own, System.afterSection]

/-- The threads stay registered over a section, wherever the main thread goes. -/
theorem Registered.handshake (registered : Registered pMainExecEnv s)
    (found : s.threads thread = some exitCtrl)
    (later : next.phase = .running → exitCtrl.phase = .running) :
    Registered pMainExecEnv (s.afterSection thread next main) where
  handle := registered.handle
  main := registered.main
  app handleID threadInfo stored app :=
    (System.afterSection_isSome found _).mpr (registered.app handleID threadInfo stored app)
  running n other updated phase := by
    obtain ⟨rfl, rfl⟩ | ⟨_, same⟩ := System.afterSection_threads.mp updated
    · exact registered.running n exitCtrl found (later phase)
    · exact registered.running n other same phase
  named n updated := registered.named n ((System.afterSection_isSome found n).mp updated)

/-- The joins are kept over a section, when the main thread has the same thread infos to do
with afterwards, is counted where it waits, and erases only what is gone. -/
theorem Joins.handshake (joins : Joins s) (found : s.threads thread = some exitCtrl)
    (later : next.phase = .running → exitCtrl.phase = .running)
    (pending : main.pending = s.main.pending)
    (elsewhere : ∀ n, n ≠ thread → (main.awaits = some n ↔ s.main.awaits = some n))
    (awaited : main.awaits = some thread → next.waitCount = 1)
    (unawaited : main.awaits ≠ some thread → Unawaited next)
    (gone : ∀ threadInfo todo, main = .erasing threadInfo todo →
      s.main = .erasing threadInfo todo ∨
        (threadInfo.pExecEnv = thread ∧ next.phase ≠ .running)) :
    Joins (s.afterSection thread next main) where
  stored threadInfo mem := joins.stored threadInfo (pending ▸ mem)
  distinct := by
    show (main.pending.map ExecEnvThreadInfo.handleID).Nodup
    rw [pending]
    exact joins.distinct
  awaited n other updated waits := by
    obtain ⟨rfl, rfl⟩ | ⟨notOwn, same⟩ := System.afterSection_threads.mp updated
    · exact awaited waits
    · exact joins.awaited n other same ((elsewhere n notOwn).mp waits)
  unawaited n other updated waits := by
    obtain ⟨rfl, rfl⟩ | ⟨notOwn, same⟩ := System.afterSection_threads.mp updated
    · exact unawaited waits
    · exact joins.unawaited n other same fun still => waits ((elsewhere n notOwn).mpr still)
  gone threadInfo todo at_erase other updated := by
    obtain ⟨own, rfl⟩ | ⟨notOwn, same⟩ := System.afterSection_threads.mp updated
    · obtain already | ⟨_, notRunning⟩ := gone threadInfo todo at_erase
      · intro phase
        exact joins.gone threadInfo todo already exitCtrl (own ▸ found) (later phase)
      · exact notRunning
    · obtain already | ⟨own, _⟩ := gone threadInfo todo at_erase
      · exact joins.gone threadInfo todo already other same
      · exact absurd own notOwn

/-- Nothing is said of the entries before the cleanup is over. -/
theorem cleaned_of_before
    (before : ¬ (s.main = .dtors ∨ s.main = .closing ∨ s.main = .teardown)) : Cleaned s :=
  fun after => absurd after before

/-- An app thread passes its exit section: it detaches itself if the main thread does not
wait for it. -/
theorem Kept.exitSection (kept : Kept pMainExecEnv s)
    (found : s.threads thread = some exitCtrl)
    (passed : exitStep exitCtrl .exitSection = some next) :
    Kept pMainExecEnv (s.afterSection thread next s.main) := by
  have later := exitStep_phase passed
  obtain ⟨⟨_, running⟩, rfl⟩ := guarded_eq_some.mp passed
  refine ⟨kept.registered.handshake found later,
    kept.joins.handshake found later rfl (fun _ _ => Iff.rfl) ?_ ?_
      (fun _ _ at_erase => Or.inl at_erase), kept.cleaned⟩
  · intro waits
    have one := kept.joins.awaited thread exitCtrl found waits
    simp [ExitCtrl.exitSection, one]
  · intro waits
    obtain zero | ⟨_, notRunning⟩ := kept.joins.unawaited thread exitCtrl found waits
    · right
      simp [ExitCtrl.exitSection, zero]
    · exact absurd running notRunning

theorem Kept.threadEnd (kept : Kept pMainExecEnv s)
    (found : s.threads thread = some exitCtrl)
    (passed : exitStep exitCtrl .threadEnd = some next) :
    Kept pMainExecEnv (s.afterSection thread next s.main) := by
  have later := exitStep_phase passed
  obtain ⟨_, rfl⟩ := guarded_eq_some.mp passed
  refine ⟨kept.registered.handshake found later,
    kept.joins.handshake found later rfl (fun _ _ => Iff.rfl) ?_ ?_
      (fun _ _ at_erase => Or.inl at_erase), kept.cleaned⟩
  · intro waits
    exact kept.joins.awaited thread exitCtrl found waits
  · intro waits
    obtain zero | ⟨negative, _⟩ := kept.joins.unawaited thread exitCtrl found waits
    · exact Or.inl zero
    · right
      simp [negative]

variable {threadInfo : ExecEnvThreadInfo} {todo : List ExecEnvThreadInfo}

/-- The main thread finds the thread gone, or it counts itself in and waits. -/
theorem Kept.joinEnter (kept : Kept pMainExecEnv s)
    (point : s.main = .joining (threadInfo :: todo))
    (found : s.threads threadInfo.pExecEnv = some exitCtrl)
    (passed : exitStep exitCtrl (.enter ()) = some next) :
    Kept pMainExecEnv (s.afterSection threadInfo.pExecEnv next
      (if next.waitCount < 0 then .erasing threadInfo todo else .waiting threadInfo todo)) := by
  have later := exitStep_phase passed
  obtain ⟨_, rfl⟩ := guarded_eq_some.mp passed
  have idle : s.main.awaits = none := by
    rw [point]
    rfl
  have unawaited := kept.joins.unawaited _ exitCtrl found
  rw [idle] at unawaited
  obtain zero | ⟨negative, notRunning⟩ := unawaited (Option.some_ne_none _).symm
  · have one : (exitCtrl.enter ()).waitCount = 1 := by
      simp [ExitCtrl.enter, zero]
    rw [one, if_neg (by decide)]
    refine ⟨kept.registered.handshake found later,
      kept.joins.handshake found later ?_ ?_ ?_ ?_ ?_,
      cleaned_of_before (by simp [System.afterSection])⟩
    · rw [point]
      rfl
    · intro n notOwn
      rw [idle]
      simp [MainPoint.awaits, notOwn.symm]
    · exact fun _ => one
    · exact fun waits => absurd rfl waits
    · intro _ _ at_erase
      cases at_erase
  · have same : exitCtrl.enter () = exitCtrl := if_pos negative
    rw [same, if_pos negative]
    refine ⟨kept.registered.handshake found id,
      kept.joins.handshake found id ?_ ?_ ?_ ?_ ?_,
      cleaned_of_before (by simp [System.afterSection])⟩
    · rw [point]
      rfl
    · intro n _
      rw [idle]
      simp [MainPoint.awaits]
    · intro waits
      cases waits
    · exact fun _ => Or.inr ⟨negative, notRunning⟩
    · intro _ _ at_erase
      cases at_erase
      exact Or.inr ⟨rfl, notRunning⟩

/-- The main thread wakes up. It is the only joiner, so it goes on to `join`. -/
theorem Kept.joinWake (kept : Kept pMainExecEnv s) (point : s.main = .waiting threadInfo todo)
    (found : s.threads threadInfo.pExecEnv = some exitCtrl)
    (passed : exitStep exitCtrl (.wake ()) = some next) :
    Kept pMainExecEnv (s.afterSection threadInfo.pExecEnv next
      (if next.joining.isSome then .inJoin threadInfo todo else .joining todo)) := by
  have later := exitStep_phase passed
  obtain ⟨_, rfl⟩ := guarded_eq_some.mp passed
  have waits : s.main.awaits = some threadInfo.pExecEnv := by
    rw [point]
    rfl
  have one := kept.joins.awaited _ exitCtrl found waits
  have last : (exitCtrl.wake ()).joining = some () ∧ (exitCtrl.wake ()).waitCount = 0 := by
    simp [ExitCtrl.wake, one]
  rw [last.1, if_pos Option.isSome_some]
  refine ⟨kept.registered.handshake found later,
    kept.joins.handshake found later ?_ ?_ ?_ ?_ ?_,
    cleaned_of_before (by simp [System.afterSection])⟩
  · rw [point]
    rfl
  · intro n notOwn
    rw [waits]
    simp [MainPoint.awaits, notOwn.symm]
  · intro still
    cases still
  · exact fun _ => Or.inl last.2
  · intro _ _ at_erase
    cases at_erase

/-- `join` returns to the main thread once the thread has ended. -/
theorem Kept.joinReturn (kept : Kept pMainExecEnv s) (point : s.main = .inJoin threadInfo todo)
    (found : s.threads threadInfo.pExecEnv = some exitCtrl)
    (passed : exitStep exitCtrl .joinReturn = some next) :
    Kept pMainExecEnv
      (s.afterSection threadInfo.pExecEnv next (.erasing threadInfo todo)) := by
  have later := exitStep_phase passed
  obtain ⟨⟨_, ended⟩, rfl⟩ := guarded_eq_some.mp passed
  have notRunning : exitCtrl.phase ≠ .running := by
    rw [ended]
    nofun
  refine ⟨kept.registered.handshake found later,
    kept.joins.handshake found later ?_ ?_ ?_ ?_ ?_,
    cleaned_of_before (by simp [System.afterSection])⟩
  · rw [point]
    rfl
  · intro n _
    rw [point]
    exact Iff.rfl
  · intro waits
    cases waits
  · exact fun _ => Or.inr ⟨Int.negSucc_lt_zero 0, notRunning⟩
  · intro _ _ at_erase
    cases at_erase
    exact Or.inr ⟨rfl, notRunning⟩

end Handshake

/-! ## The main thread -/

section Main

variable {pMainExecEnv : ℕ} {s : System} {threadInfo : ExecEnvThreadInfo}
  {todo : List ExecEnvThreadInfo}

/-- The point the main thread is at does not matter for the registered threads. -/
theorem Registered.move (registered : Registered pMainExecEnv s) (main : MainPoint)
    (bRunDtor : Bool) : Registered pMainExecEnv { s with main := main, bRunDtor := bRunDtor } :=
  ⟨registered.handle, registered.main, registered.app, registered.running, registered.named⟩

/-- The main thread goes from one point with nothing to join to another. -/
theorem Joins.move (joins : Joins s) (idle : s.main.pending = []) {main : MainPoint}
    (bRunDtor : Bool) (still : main.pending = []) :
    Joins { s with main := main, bRunDtor := bRunDtor } where
  stored threadInfo mem := by
    rw [show main.pending = [] from still] at mem
    cases mem
  distinct := by
    show (main.pending.map ExecEnvThreadInfo.handleID).Nodup
    rw [still]
    exact List.nodup_nil
  awaited n exitCtrl _ waits := by
    obtain ⟨_, mem, _⟩ := MainPoint.awaits_pending waits
    rw [still] at mem
    cases mem
  unawaited n exitCtrl thread _ := by
    apply joins.unawaited n exitCtrl thread
    intro waits
    obtain ⟨_, mem, _⟩ := MainPoint.awaits_pending waits
    rw [idle] at mem
    cases mem
  gone threadInfo todo at_erase := by
    replace at_erase : main = .erasing threadInfo todo := at_erase
    rw [at_erase] at still
    cases still

/-- The snapshot has every entry but that of the main thread. -/
theorem Registered.mem_allThreadInfo (registered : Registered pMainExecEnv s) :
    threadInfo ∈ s.allThreadInfo ↔
      s.manager.getThreadInfo threadInfo.handleID = some threadInfo ∧
        threadInfo.handleID ≠ mainThreadId := by
  have entry : ∀ e : Sigma fun _ : UInt32 => ExecEnvThreadInfo,
      e ∈ s.manager.threadMap.entries ↔ s.manager.getThreadInfo e.1 = some e.2 :=
    fun _ => AList.mem_lookup_iff.symm
  rw [System.allThreadInfo, List.mem_filter, List.mem_map, decide_eq_true_iff]
  refine and_congr_left fun _ => ⟨?_, ?_⟩
  · rintro ⟨e, mem, rfl⟩
    have stored := (entry e).mp mem
    rw [registered.handle e.1 e.2 stored]
    exact stored
  · intro stored
    exact ⟨⟨threadInfo.handleID, threadInfo⟩, (entry _).mpr stored, rfl⟩

/-- The snapshot has no handle twice. -/
theorem Registered.allThreadInfo_nodup (registered : Registered pMainExecEnv s) :
    (s.allThreadInfo.map ExecEnvThreadInfo.handleID).Nodup := by
  have keys : (s.manager.threadMap.entries.map Sigma.snd).map ExecEnvThreadInfo.handleID =
      s.manager.threadMap.keys := by
    rw [List.map_map]
    apply List.map_congr_left
    intro e mem
    exact registered.handle e.1 e.2 (AList.mem_lookup_iff.mpr mem)
  apply List.Nodup.sublist (List.Sublist.map _ List.filter_sublist)
  rw [keys]
  exact s.manager.threadMap.keys_nodup

/-- A snapshot of app threads is to be joined, and an empty one ends the cleanup. -/
theorem Kept.snapshot (kept : Kept pMainExecEnv s) (point : s.main = .cleanup) :
    Kept pMainExecEnv { s with
      main :=
        if s.allThreadInfo = [] then (if s.bRunDtor then .dtors else .closing)
        else .joining s.allThreadInfo } := by
  have idle : s.main.pending = [] := by
    rw [point]
    rfl
  have registered := fun main => kept.registered.move main s.bRunDtor
  by_cases empty : s.allThreadInfo = []
  · rw [if_pos empty]
    refine ⟨registered _, kept.joins.move idle s.bRunDtor (by split <;> rfl), ?_⟩
    intro _ handleID stored
    obtain ⟨threadInfo, found⟩ := Option.isSome_iff_exists.mp stored
    have own := kept.registered.handle handleID threadInfo found
    by_contra app
    have mem : threadInfo ∈ s.allThreadInfo :=
      kept.registered.mem_allThreadInfo.mpr ⟨own ▸ found, own ▸ app⟩
    rw [empty] at mem
    cases mem
  · rw [if_neg empty]
    refine ⟨registered _, ⟨?_, kept.registered.allThreadInfo_nodup, nofun, ?_, nofun⟩,
      cleaned_of_before (by simp)⟩
    · exact fun _ mem => kept.registered.mem_allThreadInfo.mp mem
    · intro n exitCtrl thread _
      exact kept.joins.unawaited n exitCtrl thread (by rw [point]; nofun)

/-- The main thread erases the entry of a thread that is gone. -/
theorem Kept.eraseEntry (kept : Kept pMainExecEnv s)
    (point : s.main = .erasing threadInfo todo) :
    Kept pMainExecEnv { s with
      manager := s.manager.erase threadInfo.handleID
      main := .joining todo } := by
  have pending : s.main.pending = threadInfo :: todo := by
    rw [point]
    rfl
  obtain ⟨own, _⟩ := kept.joins.stored threadInfo (pending ▸ List.mem_cons_self)
  have distinct := kept.joins.distinct
  rw [pending, List.map_cons, List.nodup_cons] at distinct
  obtain ⟨other, distinct⟩ := distinct
  have erased : ∀ {handleID stored},
      (s.manager.erase threadInfo.handleID).getThreadInfo handleID = some stored ↔
        handleID ≠ threadInfo.handleID ∧ s.manager.getThreadInfo handleID = some stored :=
    s.manager.getThreadInfo_erase_eq_some
  refine ⟨⟨?_, ?_, ?_, ?_, kept.registered.named⟩, ⟨?_, distinct, nofun, ?_, nofun⟩,
    cleaned_of_before (by simp)⟩
  · intro handleID stored found
    exact kept.registered.handle handleID stored (erased.mp found).2
  · intro stored found
    exact kept.registered.main stored (erased.mp found).2
  · intro handleID stored found
    exact kept.registered.app handleID stored (erased.mp found).2
  · intro n exitCtrl thread running
    obtain ⟨handleID, stored, found, its, app⟩ :=
      kept.registered.running n exitCtrl thread running
    refine ⟨handleID, stored, erased.mpr ⟨?_, found⟩, its, app⟩
    rintro rfl
    rw [own] at found
    cases found
    exact kept.joins.gone threadInfo todo point exitCtrl (its ▸ thread) running
  · intro stored mem
    obtain ⟨found, app⟩ :=
      kept.joins.stored stored (pending ▸ List.mem_cons_of_mem threadInfo mem)
    refine ⟨erased.mpr ⟨fun same => other ?_, found⟩, app⟩
    exact same ▸ List.mem_map_of_mem mem
  · intro n exitCtrl thread _
    exact kept.joins.unawaited n exitCtrl thread (by rw [point]; nofun)

/-- The main thread goes on outside of the joins, where the entries do not matter or have
been cleaned up. -/
theorem Kept.move (kept : Kept pMainExecEnv s) (idle : s.main.pending = [])
    {main : MainPoint} (bRunDtor : Bool) (still : main.pending = [])
    (cleaned : main = .dtors ∨ main = .closing ∨ main = .teardown →
      s.main = .dtors ∨ s.main = .closing ∨ s.main = .teardown) :
    Kept pMainExecEnv { s with main := main, bRunDtor := bRunDtor } where
  registered := kept.registered.move main bRunDtor
  joins := kept.joins.move idle bRunDtor still
  cleaned after := kept.cleaned (cleaned after)

end Main

/-! ## Runs -/

/-- A spawn that starts a thread is not made by the destructors, and the handle it is given
is not that of the main thread. -/
def SpawnsInTime (s : System) : SystemStep → Prop
  | .spawn thread answers _ =>
      answers.MakesThreadInfo ∧ answers.SetsUpStack →
        ¬ (thread = none ∧ s.main = .dtors) ∧
          (HandleTable.allot (· + 1) s.manager.threadMap s.manager.curHandleId).map Prod.fst ≠
            some mainThreadId
  | _ => True

instance (s : System) : ∀ a, Decidable (SpawnsInTime s a)
  | .spawn .. => inferInstanceAs (Decidable (_ → _))
  | .guestEnter | .guestReturn | .exitSection _ | .threadEnd _ | .destroyBegin _ | .snapshot
  | .joinEnter | .joinWake | .joinReturn | .eraseEntry | .joinsDone | .dtorsReturn
  | .closed => isTrue trivial

/-- At the tear-down no app thread is in guest code, and the thread map has no entry but that
of the main thread. -/
def NoSurvivors (pMainExecEnv : ℕ) (s : System) : Prop :=
  s.main = .teardown →
    (∀ n exitCtrl, s.threads n = some exitCtrl → exitCtrl.phase ≠ .running) ∧
      ∀ handleID threadInfo, s.manager.getThreadInfo handleID = some threadInfo →
        handleID = mainThreadId ∧ threadInfo = mainThreadInfo pMainExecEnv

section Runs

variable {pMainExecEnv : ℕ} {s s' : System}

/-- No app thread is in guest code once the cleanup is over. -/
theorem Kept.none_running (kept : Kept pMainExecEnv s)
    (after : s.main = .dtors ∨ s.main = .closing ∨ s.main = .teardown) (n : ℕ)
    (exitCtrl : ExitCtrl Unit) (thread : s.threads n = some exitCtrl) :
    exitCtrl.phase ≠ .running := by
  intro running
  obtain ⟨handleID, threadInfo, stored, _, app⟩ :=
    kept.registered.running n exitCtrl thread running
  exact app (kept.cleaned after handleID (Option.isSome_of_eq_some stored))

theorem Kept.noSurvivors (kept : Kept pMainExecEnv s) : NoSurvivors pMainExecEnv s := by
  intro point
  have after : s.main = .dtors ∨ s.main = .closing ∨ s.main = .teardown := by
    rw [point]
    simp
  refine ⟨kept.none_running after, fun handleID threadInfo stored => ?_⟩
  have main := kept.cleaned after handleID (Option.isSome_of_eq_some stored)
  exact ⟨main, kept.registered.main threadInfo (main ▸ stored)⟩

/-- A spawn in time keeps everything. -/
theorem Kept.spawn (kept : Kept pMainExecEnv s) {thread : Option ℕ} {answers : ThreadSpawnAnswers}
    {appArg : UInt32} (inGuest : s.InGuest thread)
    (inTime : SpawnsInTime s (.spawn thread answers appArg))
    (spawned : s.spawn answers appArg = some s') : Kept pMainExecEnv s' := by
  obtain rfl | rfl | ⟨starts, given, found, rfl⟩ := spawn_cases spawned
  · exact kept.sameApps (sameApps_useEnv s.manager)
  · exact kept.sameApps (sameApps_erase s.manager)
  obtain ⟨notLate, notMain⟩ := inTime starts
  rw [found] at notMain
  have before : ¬ (s.main = .dtors ∨ s.main = .closing ∨ s.main = .teardown) := by
    intro after
    cases thread with
    | none =>
        obtain guest | dtors := inGuest
        · simp [guest] at after
        · exact notLate ⟨rfl, dtors⟩
    | some n =>
        -- only a thread that is still registered could spawn, and the map has been emptied
        obtain ⟨exitCtrl, own, running⟩ := Option.map_eq_some_iff.mp inGuest
        exact kept.none_running after n exitCtrl own running
  have app : given.1 ≠ mainThreadId := fun same => notMain (congrArg some same)
  exact ⟨kept.registered.started found app, kept.joins.started found,
    cleaned_of_before before⟩

/-- Every step keeps the invariants, when spawns come in time. -/
theorem Kept.step {a : SystemStep} (kept : Kept pMainExecEnv s) (inTime : SpawnsInTime s a)
    (taken : systemStep s a = some s') : Kept pMainExecEnv s' := by
  cases systemStep_cases taken with
  | guestEnter point | guestReturn point | joinsDone point =>
      exact kept.move (by rw [point]; rfl) s.bRunDtor rfl nofun
  | spawn inGuest spawned => exact kept.spawn inGuest inTime spawned
  | exitSection found passed => exact kept.exitSection found passed
  | threadEnd found passed => exact kept.threadEnd found passed
  | destroyBegin point => exact kept.move (by rw [point]; rfl) _ rfl nofun
  | snapshot point => exact kept.snapshot point
  | joinEnter point found passed => exact kept.joinEnter point found passed
  | joinWake point found passed => exact kept.joinWake point found passed
  | joinReturn point found passed => exact kept.joinReturn point found passed
  | eraseEntry point => exact kept.eraseEntry point
  | dtorsReturn point => exact kept.move (by rw [point]; rfl) s.bRunDtor rfl fun _ => Or.inl point
  | closed point =>
      exact kept.move (by rw [point]; rfl) s.bRunDtor rfl fun _ => Or.inr (Or.inl point)

end Runs

/-- A started instance has the main thread only. -/
theorem kept_start (pMainExecEnv : ℕ) : Kept pMainExecEnv (systemStart pMainExecEnv) := by
  have only : ∀ {handleID threadInfo},
      (systemStart pMainExecEnv).manager.getThreadInfo handleID = some threadInfo →
        handleID = mainThreadId ∧ threadInfo = mainThreadInfo pMainExecEnv :=
    getThreadInfo_initAppMainThreadInfo.mp
  refine ⟨⟨?_, ?_, ?_, nofun, nofun⟩, ⟨nofun, List.nodup_nil, nofun, nofun, nofun⟩,
    cleaned_of_before (by simp [systemStart])⟩
  · intro handleID threadInfo stored
    obtain ⟨rfl, rfl⟩ := only stored
    rfl
  · exact fun threadInfo stored => (only stored).2
  · exact fun handleID threadInfo stored app => absurd (only stored).1 app

/-- **No thread survives.** When every spawn of a run that starts a thread comes before the
destructors and leaves the handle of the main thread alone, the tear-down finds no app
thread in guest code and no entry of one. -/
theorem no_thread_survives {pMainExecEnv : ℕ} {steps : List SystemStep} {s : System}
    (inTime : Meets systemStep SpawnsInTime (systemStart pMainExecEnv) steps)
    (reached : run systemStep (systemStart pMainExecEnv) steps = some s) :
    NoSurvivors pMainExecEnv s :=
  (run_invariant Kept.step (kept_start pMainExecEnv) inTime reached).noSurvivors

/-- The runtime makes everything, and the guest heap has room for the aux stack. -/
def guestHeapRoom : ThreadSpawnAnswers where
  instantiated := true
  entryFound := true
  execEnvCreated := true
  auxStackSize := some 65536
  moduleMalloc := fun _ => 4096
  setAuxStack := fun _ _ => true

/-- The main thread spawns a thread, and joins it when it destroys the instance. -/
theorem joined_thread_ends :
    ∃ s, run systemStep (systemStart 0)
        [.guestEnter, .spawn none guestHeapRoom 7, .guestReturn, .destroyBegin true, .snapshot,
          .joinEnter, .exitSection 1, .joinWake, .threadEnd 1, .joinReturn, .eraseEntry,
          .joinsDone, .snapshot, .dtorsReturn, .closed] = some s ∧
      s.main = .teardown ∧ NoSurvivors 0 s := by
  have point : (run systemStep (systemStart 0)
      [.guestEnter, .spawn none guestHeapRoom 7, .guestReturn, .destroyBegin true, .snapshot,
        .joinEnter, .exitSection 1, .joinWake, .threadEnd 1, .joinReturn, .eraseEntry,
        .joinsDone, .snapshot, .dtorsReturn, .closed]).map System.main = some .teardown := by
    decide
  obtain ⟨s, reached, at_teardown⟩ := Option.map_eq_some_iff.mp point
  exact ⟨s, reached, at_teardown, no_thread_survives (by decide) reached⟩

/-- A destructor spawns a thread, and nobody joins it. -/
theorem dtors_thread_survives :
    ∃ s, run systemStep (systemStart 0)
        [.destroyBegin true, .snapshot, .spawn none guestHeapRoom 7, .dtorsReturn, .closed] =
          some s ∧
      ¬ NoSurvivors 0 s := by
  have survives : (run systemStep (systemStart 0)
      [.destroyBegin true, .snapshot, .spawn none guestHeapRoom 7, .dtorsReturn,
        .closed]).map (fun s => (s.main, (s.threads 1).map ExitCtrl.phase)) =
          some (.teardown, some .running) := by
    decide
  obtain ⟨s, reached, same⟩ := Option.map_eq_some_iff.mp survives
  obtain ⟨at_teardown, thread⟩ := Prod.mk.inj same
  obtain ⟨exitCtrl, found, running⟩ := Option.map_eq_some_iff.mp thread
  exact ⟨s, reached, fun none => (none at_teardown).1 1 exitCtrl found running⟩

end Pthread
end WamrExt
