import WamrExt.Lib.Transition
import WamrExt.Pthread.ThreadSpawn

/-!
# When a spawn fails

A spawn fails early, before its thread info is made, or late, when the aux stack of the
new thread cannot be allocated or set. The cleanup after a failure is the same for both,
and it is right for an early failure only.

**The thread map.** The handle in the thread info of a late failure is still 0, so the
cleanup erases the entry of the main thread (`failed_spawn_atomic_iff`).

**The sub-instance and the exec env.** After a late failure the raw handles and the
deleter in the thread info both destroy them (`spawn_destroys_once_iff`).

There is one lemma for each way a call ends: `wasiThreadSpawn_early`,
`wasiThreadSpawn_late` and `wasiThreadSpawn_started`. A call that returns has ended in one
of them (`wasiThreadSpawn_cases`), and it returns unless every handle is in use
(`wasiThreadSpawn_isSome`).
-/

set_option autoImplicit false

namespace WamrExt
namespace Pthread

open Transition

/-! ## The three ways a call ends -/

namespace ThreadSpawnAnswers

/-- The call comes to the point where it makes its thread info. -/
def MakesThreadInfo (answers : ThreadSpawnAnswers) : Prop :=
  answers.instantiated = true ∧ answers.entryFound = true ∧ answers.execEnvCreated = true

/-- The aux stack of the new thread is allocated and set. -/
def SetsUpStack (answers : ThreadSpawnAnswers) : Prop :=
  answers.appStackAddr ≠ 0 ∧ answers.auxStackSet = true

/-- The call fails after it has made its thread info. -/
def FailsLate (answers : ThreadSpawnAnswers) : Prop :=
  answers.MakesThreadInfo ∧ ¬ answers.SetsUpStack

instance (answers : ThreadSpawnAnswers) : Decidable answers.MakesThreadInfo :=
  inferInstanceAs (Decidable (_ ∧ _))

instance (answers : ThreadSpawnAnswers) : Decidable answers.SetsUpStack :=
  inferInstanceAs (Decidable (_ ∧ _))

instance (answers : ThreadSpawnAnswers) : Decidable answers.FailsLate :=
  inferInstanceAs (Decidable (_ ∧ _))

end ThreadSpawnAnswers

section Calls

variable (manager : InstancePthreadManager) (answers : ThreadSpawnAnswers) (appArg : UInt32)

/-- No entry is about the exec env that the next call creates. -/
theorem unused_not_held {map : InstancePthreadManager}
    (older : ∀ handleID threadInfo, map.threadMap.lookup handleID = some threadInfo →
      threadInfo.pExecEnv < manager.unusedEnv) : map.holds manager.unusedEnv = false := by
  rw [InstancePthreadManager.holds, List.any_eq_false]
  intro entry member
  have stored := older entry.1 entry.2 (AList.mem_lookup_iff.mpr member)
  simp only [beq_iff_eq]
  omega

/-- **An early failure** leaves the map, and destroys the sub-instance if it was made. -/
theorem wasiThreadSpawn_early (early : ¬ answers.MakesThreadInfo) :
    wasiThreadSpawn manager answers appArg =
      some ⟨-65535, manager.useEnv,
        if answers.instantiated then
          [.instantiate manager.unusedEnv, .deinstantiate manager.unusedEnv] else []⟩ := by
  by_cases instantiated : answers.instantiated = true
  · by_cases entryFound : answers.entryFound = true
    · have noEnv : answers.execEnvCreated = false := by
        simpa [ThreadSpawnAnswers.MakesThreadInfo, instantiated, entryFound] using early
      simp [wasiThreadSpawn, spawnBody, spawnCleanup, dropThreadInfo, instantiated,
        entryFound, noEnv, errMinusOne]
    · simp [wasiThreadSpawn, spawnBody, spawnCleanup, dropThreadInfo, instantiated,
        entryFound, errMinusOne]
  · simp [wasiThreadSpawn, spawnBody, spawnCleanup, dropThreadInfo, instantiated,
      errMinusOne]

/-- The calls of a late failure, with the cleanup through the raw handles and the deleter
of the thread info one after the other. -/
def lateCalls (manager : InstancePthreadManager) (answers : ThreadSpawnAnswers) :
    List RuntimeCall :=
  [.instantiate manager.unusedEnv, .createExecEnv manager.unusedEnv] ++
    (if answers.appStackAddr ≠ 0 then [RuntimeCall.moduleFree answers.appStackAddr] else []) ++
    manager.eraseReleases mainThreadId ++
    [.deinstantiate manager.unusedEnv, .destroyExecEnv manager.unusedEnv] ++
    [.deinstantiate manager.unusedEnv, .destroyExecEnv manager.unusedEnv]

/-- **A late failure** erases the entry of the main thread. -/
theorem wasiThreadSpawn_late (late : answers.FailsLate) :
    wasiThreadSpawn manager answers appArg =
      some ⟨if answers.appStackAddr = 0 then -48 else -65535,
        manager.useEnv.erase mainThreadId, lateCalls manager answers⟩ := by
  obtain ⟨⟨instantiated, entryFound, execEnvCreated⟩, noStack⟩ := late
  have unheld : (manager.useEnv.erase 0).holds manager.unusedEnv = false :=
    unused_not_held manager fun handleID threadInfo stored =>
      manager.created handleID threadInfo
        (manager.useEnv.getThreadInfo_erase_eq_some.mp stored).2
  have releases : manager.useEnv.eraseReleases 0 = manager.eraseReleases 0 := rfl
  by_cases noRoom : answers.appStackAddr = 0
  · simp [wasiThreadSpawn, spawnBody, spawnCleanup, dropThreadInfo, lateCalls, newThreadInfo,
      ExecEnvThreadInfo.release, instantiated, entryFound, execEnvCreated, noRoom, unheld,
      releases, mainThreadId, uvwasiENOMEM]
  · have unset : answers.auxStackSet = false := by
      simpa [ThreadSpawnAnswers.SetsUpStack, noRoom] using noStack
    simp [wasiThreadSpawn, spawnBody, spawnCleanup, dropThreadInfo, lateCalls, newThreadInfo,
      ExecEnvThreadInfo.release, instantiated, entryFound, execEnvCreated, noRoom, unset,
      unheld, releases, mainThreadId, errMinusOne]

/-- The thread info of a spawn that succeeds, at the handle it is given. -/
def startedThreadInfo (manager : InstancePthreadManager) (answers : ThreadSpawnAnswers)
    (appArg handleID : UInt32) : ExecEnvThreadInfo :=
  newThreadInfo answers appArg handleID answers.alignedSize manager.unusedEnv

/-- **A success** stores the thread info at a handle that was free. -/
theorem wasiThreadSpawn_started (made : answers.MakesThreadInfo)
    (stack : answers.SetsUpStack) :
    wasiThreadSpawn manager answers appArg =
      (HandleTable.allot (· + 1) manager.threadMap manager.curHandleId).map fun given =>
        ⟨(min 0x7fffffff given.1 : UInt32).toNat,
          manager.insert given.1 given.2 (startedThreadInfo manager answers appArg given.1) rfl,
          [.instantiate manager.unusedEnv, .createExecEnv manager.unusedEnv,
            .startHostThread manager.unusedEnv (min 0x7fffffff given.1) appArg]⟩ := by
  obtain ⟨instantiated, entryFound, execEnvCreated⟩ := made
  obtain ⟨room, set⟩ := stack
  have held : ∀ given : UInt32 × UInt32,
      (manager.insert given.1 given.2
        (startedThreadInfo manager answers appArg given.1) rfl).holds manager.unusedEnv =
          true := by
    intro given
    rw [InstancePthreadManager.holds, List.any_eq_true]
    refine ⟨⟨given.1, startedThreadInfo manager answers appArg given.1⟩, ?_, ?_⟩
    · exact AList.mem_lookup_iff.mp (AList.lookup_insert _)
    · exact beq_self_eq_true manager.unusedEnv
  simp only [startedThreadInfo] at held
  have env : ∀ handleID, (newThreadInfo answers appArg handleID answers.alignedSize
      manager.unusedEnv).pExecEnv = manager.unusedEnv := fun _ => rfl
  simp [wasiThreadSpawn, spawnBody, dropThreadInfo, instantiated, entryFound, execEnvCreated,
    room, set, held, env, startedThreadInfo, Function.comp_def]

/-- The counter of the handles after some steps. -/
theorem counter_iterate (i : ℕ) (counter : UInt32) :
    (· + 1)^[i] counter = counter + UInt32.ofNat i := by
  induction i with
  | zero => simp
  | succ i ih =>
      rw [Function.iterate_succ_apply', ih, UInt32.ofNat_add, UInt32.add_assoc]
      rfl

/-- The search for a handle ends unless every handle is in use. -/
theorem allot_of_room (room : manager.threadMap.entries.length < 2 ^ 32) :
    (HandleTable.allot (· + 1) manager.threadMap manager.curHandleId).isSome := by
  have distinct : Set.InjOn (fun i => (· + 1)^[i] manager.curHandleId) (Set.Iio (2 ^ 32)) := by
    intro i lt j lt' same
    simp only [counter_iterate, UInt32.add_right_inj] at same
    have values := congrArg UInt32.toNat same
    rwa [UInt32.toNat_ofNat_of_lt' lt, UInt32.toNat_ofNat_of_lt' lt'] at values
  exact HandleTable.allot_isSome distinct room

/-- **The call returns** unless every handle is in use. -/
theorem wasiThreadSpawn_isSome (room : manager.threadMap.entries.length < 2 ^ 32) :
    (wasiThreadSpawn manager answers appArg).isSome := by
  by_cases made : answers.MakesThreadInfo
  · by_cases stack : answers.SetsUpStack
    · rw [wasiThreadSpawn_started manager answers appArg made stack, Option.isSome_map]
      exact allot_of_room manager room
    · rw [wasiThreadSpawn_late manager answers appArg ⟨made, stack⟩]
      rfl
  · rw [wasiThreadSpawn_early manager answers appArg made]
    rfl

/-- What a call gives that returns: it fails early or late, or starts a thread. -/
inductive SpawnReturns (manager : InstancePthreadManager) (answers : ThreadSpawnAnswers)
    (appArg : UInt32) : SpawnOutcome → Prop
  | early (notMade : ¬ answers.MakesThreadInfo) :
      SpawnReturns manager answers appArg ⟨-65535, manager.useEnv,
        if answers.instantiated then
          [.instantiate manager.unusedEnv, .deinstantiate manager.unusedEnv] else []⟩
  | late (failsLate : answers.FailsLate) :
      SpawnReturns manager answers appArg ⟨if answers.appStackAddr = 0 then -48 else -65535,
        manager.useEnv.erase mainThreadId, lateCalls manager answers⟩
  | started {given : UInt32 × UInt32} (starts : answers.MakesThreadInfo ∧ answers.SetsUpStack)
      (found : HandleTable.allot (· + 1) manager.threadMap manager.curHandleId = some given) :
      SpawnReturns manager answers appArg ⟨(min 0x7fffffff given.1 : UInt32).toNat,
        manager.insert given.1 given.2 (startedThreadInfo manager answers appArg given.1) rfl,
        [.instantiate manager.unusedEnv, .createExecEnv manager.unusedEnv,
          .startHostThread manager.unusedEnv (min 0x7fffffff given.1) appArg]⟩

variable {manager answers appArg} {outcome : SpawnOutcome}

/-- **The cases of a call that returns.** -/
theorem wasiThreadSpawn_cases (returned : wasiThreadSpawn manager answers appArg = some outcome) :
    SpawnReturns manager answers appArg outcome := by
  by_cases made : answers.MakesThreadInfo
  · by_cases stack : answers.SetsUpStack
    · rw [wasiThreadSpawn_started manager answers appArg made stack] at returned
      obtain ⟨given, found, rfl⟩ := Option.map_eq_some_iff.mp returned
      exact .started ⟨made, stack⟩ found
    · rw [wasiThreadSpawn_late manager answers appArg ⟨made, stack⟩] at returned
      cases returned
      exact .late ⟨made, stack⟩
  · rw [wasiThreadSpawn_early manager answers appArg made] at returned
    cases returned
    exact .early made

/-- A late failure starts no thread. -/
theorem mem_lateCalls_ne {call : RuntimeCall} (member : call ∈ lateCalls manager answers)
    (env : ℕ) (retTid appArg : UInt32) : call ≠ .startHostThread env retTid appArg := by
  rintro rfl
  simp only [lateCalls, InstancePthreadManager.eraseReleases, List.mem_append, or_assoc] at member
  obtain other | stack | released | other | other := member
  · simp at other
  · split at stack <;> simp at stack
  · cases stored : manager.getThreadInfo mainThreadId with
    | none =>
        rw [stored] at released
        cases released
    | some threadInfo =>
        simp only [stored, Option.map_some, Option.getD_some, ExecEnvThreadInfo.release] at released
        split at released <;> simp at released
  · simp at other
  · simp at other

end Calls

/-! ## The thread map over whole runs -/

/-- What changes the thread map of a started instance: the spawns of its threads, and the
end of a join by `CleanupAppThreadInfo`, which passes the main thread over. -/
inductive ManagerOp where
  | spawn (answers : ThreadSpawnAnswers) (appArg : UInt32)
  | reap (handleID : UInt32)

/-- One change of the thread map. A spawn takes the lock of the map once at most, so it is
one step. -/
def managerStep : Step InstancePthreadManager ManagerOp
  | manager, .spawn answers appArg =>
      (wasiThreadSpawn manager answers appArg).map SpawnOutcome.manager
  | manager, .reap handleID =>
      if handleID ≠ mainThreadId ∧ (manager.getThreadInfo handleID).isSome then
        some (manager.erase handleID)
      else none

/-- The entry of the main thread is in the map. -/
def HasMain (pMainExecEnv : ℕ) (manager : InstancePthreadManager) : Prop :=
  manager.getThreadInfo mainThreadId = some (mainThreadInfo pMainExecEnv)

/-- A spawn that fails leaves the entries of the map as they were, with the entry of the
main thread among them. -/
def FailedSpawnAtomic (pMainExecEnv : ℕ) (manager : InstancePthreadManager) :
    ManagerOp → Prop
  | .spawn answers appArg =>
      ∀ outcome ∈ wasiThreadSpawn manager answers appArg, outcome.result < 0 →
        (∀ handleID, outcome.manager.getThreadInfo handleID = manager.getThreadInfo handleID) ∧
          HasMain pMainExecEnv outcome.manager
  | .reap _ => True

/-- A spawn does not fail late. -/
def NotFailingLate (_ : InstancePthreadManager) : ManagerOp → Prop
  | .spawn answers _ => ¬ answers.FailsLate
  | .reap _ => True

theorem hasMain_init (pMainExecEnv : ℕ) :
    HasMain pMainExecEnv (initAppMainThreadInfo pMainExecEnv) :=
  getThreadInfo_initAppMainThreadInfo.mpr ⟨rfl, rfl⟩

section Step

variable {pMainExecEnv : ℕ} {manager : InstancePthreadManager}

/-- A late failure takes the entry of the main thread out of the map. -/
theorem late_not_atomic {answers : ThreadSpawnAnswers} (late : answers.FailsLate)
    (appArg : UInt32) :
    ¬ FailedSpawnAtomic pMainExecEnv manager (.spawn answers appArg) := by
  intro atomic
  have outcome := wasiThreadSpawn_late manager answers appArg late
  have negative : (if answers.appStackAddr = 0 then -48 else -65535 : ℤ) < 0 := by
    split <;> decide
  have main := (atomic _ outcome negative).2
  rw [HasMain, InstancePthreadManager.getThreadInfo_erase_self] at main
  cases main

/-- A spawn is atomic on a map with the main thread exactly when it does not fail late. -/
theorem failedSpawnAtomic_iff (main : HasMain pMainExecEnv manager) (op : ManagerOp) :
    FailedSpawnAtomic pMainExecEnv manager op ↔ NotFailingLate manager op := by
  cases op with
  | reap handleID => exact Iff.rfl
  | spawn answers appArg =>
      constructor
      · intro atomic late
        exact late_not_atomic late appArg atomic
      · intro notLate outcome returned negative
        cases wasiThreadSpawn_cases returned with
        | early _ => exact ⟨fun _ => rfl, main⟩
        | late failsLate => exact absurd failsLate notLate
        | started _ _ => exact absurd negative (Int.not_lt.mpr (Int.natCast_nonneg _))

/-- A spawn is given a free handle, which is not that of the main thread while that has its
entry. -/
theorem given_ne_main (main : HasMain pMainExecEnv manager) {given : UInt32 × UInt32}
    (found : HandleTable.allot (· + 1) manager.threadMap manager.curHandleId = some given) :
    given.1 ≠ mainThreadId := by
  intro same
  have free := HandleTable.allot_free found
  rw [same, ← AList.lookup_eq_none] at free
  rw [HasMain, InstancePthreadManager.getThreadInfo, free] at main
  cases main

/-- The entry of the main thread stays while no spawn fails late. -/
theorem hasMain_step {op : ManagerOp} {after : InstancePthreadManager}
    (main : HasMain pMainExecEnv manager) (notLate : NotFailingLate manager op)
    (taken : managerStep manager op = some after) : HasMain pMainExecEnv after := by
  cases op with
  | reap handleID =>
      rw [managerStep] at taken
      split at taken
      · next other =>
        cases taken
        exact (manager.getThreadInfo_erase_ne (Ne.symm other.1)).trans main
      · cases taken
  | spawn answers appArg =>
      obtain ⟨outcome, returned, rfl⟩ := Option.map_eq_some_iff.mp taken
      cases wasiThreadSpawn_cases returned with
      | early _ => exact main
      | late failsLate => exact absurd failsLate notLate
      | @started given _ found =>
          have other : mainThreadId ≠ given.1 := (given_ne_main main found).symm
          exact (manager.getThreadInfo_insert_ne other _ _ rfl).trans main

end Step

/-- **When failed spawns are atomic.** In a run of an instance, every spawn that fails
leaves the thread map as it was, with the main thread in it, exactly when no spawn of the
run fails after it has made its thread info. -/
theorem failed_spawn_atomic_iff (pMainExecEnv : ℕ) (ops : List ManagerOp) :
    Meets managerStep (FailedSpawnAtomic pMainExecEnv) (initAppMainThreadInfo pMainExecEnv)
        ops ↔
      Meets managerStep NotFailingLate (initAppMainThreadInfo pMainExecEnv) ops :=
  meets_congr (fun main => failedSpawnAtomic_iff main _) hasMain_step
    (hasMain_init pMainExecEnv)

/-- The runtime makes everything, but the guest heap has no room for the aux stack. -/
def guestHeapFull : ThreadSpawnAnswers where
  instantiated := true
  entryFound := true
  execEnvCreated := true
  auxStackSize := some 65536
  moduleMalloc := fun _ => 0
  setAuxStack := fun _ _ => true

/-- The first spawn of an instance, with the guest heap full, is not atomic. -/
theorem full_heap_spawn_erases_main :
    ¬ FailedSpawnAtomic 0 (initAppMainThreadInfo 0) (.spawn guestHeapFull 7) :=
  late_not_atomic ⟨⟨rfl, rfl, rfl⟩, fun stack => stack.1 rfl⟩ 7
/-! ## Who destroys the sub-instance and the exec env -/

/-- Each sub-instance and each exec env that a call makes is destroyed once if the call
fails, and not at all if it succeeds. -/
def DestroysOnce (outcome : SpawnOutcome) : Prop :=
  ∀ n : ℕ,
    (.instantiate n ∈ outcome.calls →
      outcome.calls.count (.deinstantiate n) = if outcome.result < 0 then 1 else 0) ∧
    (.createExecEnv n ∈ outcome.calls →
      outcome.calls.count (.destroyExecEnv n) = if outcome.result < 0 then 1 else 0)

/-- A late failure destroys the sub-instance at least twice. -/
theorem lateCalls_twice (manager : InstancePthreadManager) (answers : ThreadSpawnAnswers) :
    2 ≤ (lateCalls manager answers).count (.deinstantiate manager.unusedEnv) := by
  simp only [lateCalls, List.count_append]
  simp

/-- **When a spawn destroys what it made once.** A call destroys the sub-instance and the
exec env it made once if it fails and leaves them if it succeeds, exactly when it does not
fail after it has made its thread info. -/
theorem spawn_destroys_once_iff (manager : InstancePthreadManager) (answers : ThreadSpawnAnswers)
    (appArg : UInt32) :
    (∀ outcome ∈ wasiThreadSpawn manager answers appArg, DestroysOnce outcome) ↔
      ¬ answers.FailsLate := by
  constructor
  · intro once late
    have outcome := wasiThreadSpawn_late manager answers appArg late
    have made : RuntimeCall.instantiate manager.unusedEnv ∈ lateCalls manager answers := by
      simp [lateCalls]
    have count := (once _ outcome manager.unusedEnv).1 made
    have twice := lateCalls_twice manager answers
    have most : ∀ p : Prop, [Decidable p] → (if p then 1 else 0) ≤ 1 := by
      intro p _
      split <;> decide
    have := most ((if answers.appStackAddr = 0 then -48 else -65535 : ℤ) < 0)
    simp only at count
    omega
  · intro notLate outcome returned n
    cases wasiThreadSpawn_cases returned with
    | early _ =>
        by_cases instantiated : answers.instantiated = true
        · simp only [instantiated, if_true]
          refine ⟨?_, fun created => absurd created (by simp)⟩
          intro created
          obtain rfl : n = manager.unusedEnv := by simpa using created
          simp
        · simp [instantiated]
    | late failsLate => exact absurd failsLate notLate
    | @started given _ _ =>
        have nonneg : ¬ ((min 0x7fffffff given.1 : UInt32).toNat : ℤ) < 0 :=
          Int.not_lt.mpr (Int.natCast_nonneg _)
        simp only [nonneg, if_false]
        exact ⟨fun _ => by simp, fun _ => by simp⟩

/-- With the guest heap full, the sub-instance and the exec env are destroyed twice. -/
theorem full_heap_spawn_destroys_twice :
    ¬ ∀ outcome ∈ wasiThreadSpawn (initAppMainThreadInfo 0) guestHeapFull 7,
      DestroysOnce outcome := by
  intro once
  have outcome := wasiThreadSpawn_late (initAppMainThreadInfo 0) guestHeapFull 7
    ⟨⟨rfl, rfl, rfl⟩, fun stack => stack.1 rfl⟩
  have count := (once _ outcome 1).1 (by decide)
  exact absurd count (by decide)

end Pthread
end WamrExt
