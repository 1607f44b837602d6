import Mathlib.Data.UInt
import WamrExt.Pthread.SpawnFailure

/-!
# Thread ids

A spawn takes the next free handle for the new thread, from a 32-bit counter that wraps. The
id that it returns and passes to `wasi_thread_start` is the handle cut at `INT32_MAX`, so
that it is positive.

The map keeps the handles of its entries apart. The ids are apart exactly as long as at most
one entry has a handle from `INT32_MAX` on, and an app thread has the handle of the main
thread when that has lost its entry and the counter comes round to it. So every state of a
run has unique ids exactly when each spawn of the run passes the main handle, and finds no
thread with a large handle when its own will be large (`thread_ids_unique_iff`).
-/

set_option autoImplicit false

namespace WamrExt
namespace Pthread

open Transition

/-- `INT32_MAX`, where a thread id stops following the handle. -/
def maxTid : UInt32 := 0x7fffffff

/-- The ids of a thread: what the spawn returned, and what `wasi_thread_start` was passed. -/
structure ThreadId where
  returned : ℤ
  passed : UInt32
  deriving DecidableEq

/-- The thread manager, with the ids that the guest knows the thread of each exec env by. -/
structure ThreadIds where
  manager : InstancePthreadManager
  tids : ℕ → Option ThreadId

/-- The id passed to the thread that a call starts for an exec env. -/
def passedTid (calls : List RuntimeCall) (env : ℕ) : Option UInt32 :=
  calls.findSome? fun call =>
    match call with
    | .startHostThread started retTid _ => if started = env then some retTid else none
    | _ => none

/-- The ids after a spawn. -/
def ThreadIds.afterSpawn (s : ThreadIds) (outcome : SpawnOutcome) : ThreadIds where
  manager := outcome.manager
  tids env :=
    match passedTid outcome.calls env with
    | some retTid => some ⟨outcome.result, retTid⟩
    | none => s.tids env

/-- One change of the thread map, with the ids it gives out. -/
def idsStep : Step ThreadIds ManagerOp
  | s, .spawn answers appArg => (wasiThreadSpawn s.manager answers appArg).map s.afterSpawn
  | s, .reap handleID =>
      (managerStep s.manager (.reap handleID)).map fun manager => { s with manager := manager }

/-- A started instance. -/
def idsStart (pMainExecEnv : ℕ) : ThreadIds where
  manager := initAppMainThreadInfo pMainExecEnv
  tids := fun _ => none

/-- The thread map changes as in the runs of the thread manager. -/
theorem idsStep_manager (s : ThreadIds) (op : ManagerOp) :
    (idsStep s op).map ThreadIds.manager = managerStep s.manager op := by
  cases op with
  | spawn answers appArg => simp [idsStep, managerStep, ThreadIds.afterSpawn, Function.comp_def]
  | reap handleID => simp [idsStep, Function.comp_def]

/-- An app thread has an entry with this thread info at this handle. -/
def AppEntry (pMainExecEnv : ℕ) (s : ThreadIds) (handleID : UInt32)
    (threadInfo : ExecEnvThreadInfo) : Prop :=
  s.manager.getThreadInfo handleID = some threadInfo ∧ threadInfo.pExecEnv ≠ pMainExecEnv

/-- The handles and the ids of the app threads with entries in the map. -/
structure UniqueIds (pMainExecEnv : ℕ) (s : ThreadIds) : Prop where
  notMain : ∀ handleID threadInfo, AppEntry pMainExecEnv s handleID threadInfo →
    threadInfo.handleID ≠ mainThreadId
  positive : ∀ handleID threadInfo, AppEntry pMainExecEnv s handleID threadInfo →
    ∃ tid, s.tids threadInfo.pExecEnv = some tid ∧ 0 < tid.returned ∧ 0 < tid.passed
  distinct : ∀ handleID threadInfo handleID' threadInfo',
    AppEntry pMainExecEnv s handleID threadInfo →
    AppEntry pMainExecEnv s handleID' threadInfo' → handleID ≠ handleID' →
    threadInfo.handleID ≠ threadInfo'.handleID ∧
      ∀ tid tid', s.tids threadInfo.pExecEnv = some tid →
        s.tids threadInfo'.pExecEnv = some tid' →
          tid.returned ≠ tid'.returned ∧ tid.passed ≠ tid'.passed

/-! ## The next handle -/

section NextHandle

variable (manager : InstancePthreadManager)

/-- The free handle that the counter comes to first. -/
def IsNextHandle (handleID : UInt32) : Prop :=
  handleID ∉ manager.threadMap ∧
    ∀ other, other ∉ manager.threadMap →
      (handleID - manager.curHandleId).toNat ≤ (other - manager.curHandleId).toNat

/-- The counter does not come to the handle of the main thread: that names an entry, or there
is a free handle from the counter up to the last handle. -/
def PassesMainHandle : Prop :=
  mainThreadId ∈ manager.threadMap ∨
    (manager.curHandleId ≠ mainThreadId ∧
      ∃ other, manager.curHandleId ≤ other ∧ other ∉ manager.threadMap)

variable {manager}

/-- The counter comes to a handle after as many steps as they are apart. -/
theorem counter_reaches (other : UInt32) :
    (· + 1)^[(other - manager.curHandleId).toNat] manager.curHandleId = other := by
  rw [counter_iterate, UInt32.ofNat_toNat, UInt32.add_comm, UInt32.sub_add_cancel]

/-- What a spawn is given is the next handle. -/
theorem isNextHandle_of_allot {given : UInt32 × UInt32}
    (found : HandleTable.allot (· + 1) manager.threadMap manager.curHandleId = some given) :
    IsNextHandle manager given.1 := by
  obtain ⟨i, _, value, before⟩ := HandleTable.allot_first found
  have first : ∀ other, other ∉ manager.threadMap →
      i ≤ (other - manager.curHandleId).toNat := by
    intro other free
    by_contra early
    have taken := before _ (not_le.mp early)
    rw [counter_reaches] at taken
    exact free taken
  have free := HandleTable.allot_free found
  have distance : (given.1 - manager.curHandleId).toNat = i := by
    have bound := first given.1 free
    have small := (given.1 - manager.curHandleId).toNat_lt
    rw [value, counter_iterate, UInt32.add_comm, UInt32.add_sub_cancel]
    exact UInt32.toNat_ofNat_of_lt' (lt_of_le_of_lt bound small)
  exact ⟨free, fun other unused => distance ▸ first other unused⟩

theorem IsNextHandle.unique {handleID handleID' : UInt32} (next : IsNextHandle manager handleID)
    (next' : IsNextHandle manager handleID') : handleID = handleID' := by
  have same := Nat.le_antisymm (next.2 handleID' next'.1) (next'.2 handleID next.1)
  exact (UInt32.sub_left_inj _).mp (UInt32.toNat_inj.mp same)

/-- When a spawn is given no handle, every handle is in use. -/
theorem all_used_of_no_allot
    (full : HandleTable.allot (· + 1) manager.threadMap manager.curHandleId = none)
    (handleID : UInt32) : handleID ∈ manager.threadMap := by
  have many : 2 ^ 32 ≤ manager.threadMap.entries.length := by
    by_contra few
    have given := allot_of_room manager (not_le.mp few)
    rw [full] at given
    cases given
  have used := HandleTable.allotFrom_eq_none.mp full
  have near := (handleID - manager.curHandleId).toNat_lt
  have taken := used (handleID - manager.curHandleId).toNat (by omega)
  rwa [counter_reaches] at taken

/-- **When the next handle is not that of the main thread.** -/
theorem passesMainHandle_iff {handleID : UInt32} (next : IsNextHandle manager handleID) :
    PassesMainHandle manager ↔ handleID ≠ mainThreadId := by
  have main : mainThreadId.toNat = 0 := rfl
  constructor
  · rintro (stored | ⟨away, other, above, unused⟩) rfl
    · exact next.1 stored
    · have nearer := next.2 other unused
      have positive : manager.curHandleId.toNat ≠ 0 := fun zero => away (UInt32.toNat_inj.mp zero)
      have order := UInt32.le_iff_toNat_le.mp above
      have bound := other.toNat_lt
      rw [UInt32.toNat_sub, UInt32.toNat_sub, main] at nearer
      omega
  · intro app
    by_contra comes
    obtain ⟨unused, noneAbove⟩ := not_or.mp comes
    have nearer := next.2 mainThreadId unused
    have positive : handleID.toNat ≠ 0 := fun zero => app (UInt32.toNat_inj.mp zero)
    have bound := handleID.toNat_lt
    rw [UInt32.toNat_sub, UInt32.toNat_sub, main] at nearer
    by_cases atMain : manager.curHandleId = mainThreadId
    · rw [atMain, main] at nearer
      omega
    · have below : handleID.toNat < manager.curHandleId.toNat := by
        by_contra above
        exact noneAbove ⟨atMain, handleID, UInt32.le_iff_toNat_le.mpr (not_lt.mp above), next.1⟩
      have counter := manager.curHandleId.toNat_lt
      omega

end NextHandle

/-! ## Runs -/

/-- A spawn that starts a thread passes the main handle, and it starts no second thread with
a large handle. -/
def SpawnsApart (s : ThreadIds) : ManagerOp → Prop
  | .spawn answers _ =>
      answers.MakesThreadInfo ∧ answers.SetsUpStack →
        PassesMainHandle s.manager ∧
          ∀ handleID, IsNextHandle s.manager handleID → maxTid ≤ handleID →
            ∀ other, maxTid ≤ other → other ∉ s.manager.threadMap
  | .reap _ => True

/-- What runs keep. Entries know their handles, only the main thread has the main handle, an
app thread has the ids of its handle, and there is one large handle at most. -/
structure Apart (pMainExecEnv : ℕ) (s : ThreadIds) : Prop where
  handle : ∀ handleID threadInfo, s.manager.getThreadInfo handleID = some threadInfo →
    threadInfo.handleID = handleID
  main : ∀ handleID threadInfo, s.manager.getThreadInfo handleID = some threadInfo →
    (handleID = mainThreadId ↔ threadInfo.pExecEnv = pMainExecEnv)
  tid : ∀ handleID threadInfo, s.manager.getThreadInfo handleID = some threadInfo →
    handleID ≠ mainThreadId →
      s.tids threadInfo.pExecEnv = some ⟨(min maxTid handleID).toNat, min maxTid handleID⟩
  large : ∀ handleID handleID', handleID ∈ s.manager.threadMap →
    handleID' ∈ s.manager.threadMap → maxTid ≤ handleID → maxTid ≤ handleID' →
      handleID = handleID'
  older : pMainExecEnv < s.manager.unusedEnv

section Steps

variable {pMainExecEnv : ℕ} {s s' : ThreadIds} {op : ManagerOp}

theorem apart_start (pMainExecEnv : ℕ) : Apart pMainExecEnv (idsStart pMainExecEnv) := by
  have only : ∀ {handleID threadInfo},
      (idsStart pMainExecEnv).manager.getThreadInfo handleID = some threadInfo →
        handleID = mainThreadId ∧ threadInfo = mainThreadInfo pMainExecEnv :=
    getThreadInfo_initAppMainThreadInfo.mp
  refine ⟨?_, ?_, ?_, ?_, Nat.lt_succ_self _⟩
  · intro handleID threadInfo stored
    obtain ⟨rfl, rfl⟩ := only stored
    rfl
  · intro handleID threadInfo stored
    obtain ⟨rfl, rfl⟩ := only stored
    exact ⟨fun _ => rfl, fun _ => rfl⟩
  · exact fun handleID threadInfo stored app => absurd (only stored).1 app
  · intro handleID handleID' stored stored' _ _
    obtain ⟨threadInfo, found⟩ := Option.isSome_iff_exists.mp (AList.lookup_isSome.mpr stored)
    obtain ⟨threadInfo', found'⟩ := Option.isSome_iff_exists.mp (AList.lookup_isSome.mpr stored')
    rw [(only found).1, (only found').1]

theorem toNat_min (a b : UInt32) : (min a b).toNat = min a.toNat b.toNat := by
  rw [show min a b = if a ≤ b then a else b from rfl]
  split
  · next low => exact (min_eq_left (UInt32.le_iff_toNat_le.mp low)).symm
  · next high =>
    rw [UInt32.le_iff_toNat_le] at high
    exact (min_eq_right (not_le.mp high).le).symm

/-- Different handles have different ids, but for two large ones. -/
theorem tid_ne {handleID handleID' : UInt32} (different : handleID ≠ handleID')
    (small : ¬ (maxTid ≤ handleID ∧ maxTid ≤ handleID')) :
    (min maxTid handleID).toNat ≠ (min maxTid handleID').toNat := by
  intro same
  have apart : handleID.toNat ≠ handleID'.toNat := fun equal =>
    different (UInt32.toNat_inj.mp equal)
  rw [toNat_min, toNat_min] at same
  rw [UInt32.le_iff_toNat_le, UInt32.le_iff_toNat_le] at small
  omega

/-- Ids that are kept apart are unique. -/
theorem Apart.uniqueIds (apart : Apart pMainExecEnv s) : UniqueIds pMainExecEnv s := by
  have app : ∀ {handleID threadInfo}, AppEntry pMainExecEnv s handleID threadInfo →
      handleID ≠ mainThreadId := fun entry main =>
    entry.2 ((apart.main _ _ entry.1).mp main)
  have tid : ∀ {handleID threadInfo}, AppEntry pMainExecEnv s handleID threadInfo →
      s.tids threadInfo.pExecEnv =
        some ⟨(min maxTid handleID).toNat, min maxTid handleID⟩ := fun entry =>
    apart.tid _ _ entry.1 (app entry)
  have member : ∀ {handleID threadInfo}, AppEntry pMainExecEnv s handleID threadInfo →
      handleID ∈ s.manager.threadMap := fun entry =>
    AList.lookup_isSome.mp (Option.isSome_of_eq_some entry.1)
  refine ⟨?_, ?_, ?_⟩
  · intro handleID threadInfo entry
    rw [apart.handle _ _ entry.1]
    exact app entry
  · intro handleID threadInfo entry
    have nonzero : handleID.toNat ≠ 0 := fun zero => app entry (UInt32.toNat_inj.mp zero)
    have positive : 0 < (min maxTid handleID).toNat := by
      rw [toNat_min, show maxTid.toNat = 2147483647 from rfl]
      omega
    exact ⟨_, tid entry, Int.natCast_pos.mpr positive, UInt32.lt_iff_toNat_lt.mpr positive⟩
  · intro handleID threadInfo handleID' threadInfo' entry entry' different
    rw [apart.handle _ _ entry.1, apart.handle _ _ entry'.1, tid entry, tid entry']
    refine ⟨different, ?_⟩
    rintro _ _ ⟨⟩ ⟨⟩
    have apartIds := tid_ne different fun large =>
      different (apart.large _ _ (member entry) (member entry') large.1 large.2)
    exact ⟨fun same => apartIds (Int.ofNat_inj.mp same),
      fun same => apartIds (congrArg UInt32.toNat same)⟩

/-- A late failure starts no thread. -/
theorem passedTid_lateCalls (manager : InstancePthreadManager) (answers : ThreadSpawnAnswers)
    (env : ℕ) : passedTid (lateCalls manager answers) env = none := by
  apply List.findSome?_eq_none_iff.mpr
  intro call member
  split
  next started retTid appArg => exact absurd rfl (mem_lateCalls_ne member started retTid appArg)
  next => rfl

/-- The ids after a spawn that was given a handle. -/
def ThreadIds.started (s : ThreadIds) (answers : ThreadSpawnAnswers) (appArg : UInt32)
    (given : UInt32 × UInt32) : ThreadIds where
  manager := s.manager.insert given.1 given.2
    (startedThreadInfo s.manager answers appArg given.1) rfl
  tids := Function.update s.tids s.manager.unusedEnv
    (some ⟨(min maxTid given.1).toNat, min maxTid given.1⟩)

/-- A spawn that sets up its stack starts a thread at the handle it is given. -/
theorem idsStep_started {answers : ThreadSpawnAnswers} {appArg : UInt32} {given : UInt32 × UInt32}
    (starts : answers.MakesThreadInfo ∧ answers.SetsUpStack)
    (found : HandleTable.allot (· + 1) s.manager.threadMap s.manager.curHandleId = some given) :
    idsStep s (.spawn answers appArg) = some (s.started answers appArg given) := by
  rw [idsStep, wasiThreadSpawn_started s.manager answers appArg starts.1 starts.2, found,
    Option.map_some, Option.map_some, ThreadIds.afterSpawn, ThreadIds.started]
  congr 2
  funext env
  by_cases own : s.manager.unusedEnv = env
  · simp [passedTid, own, maxTid]
  · simp [passedTid, own, Function.update_of_ne (Ne.symm own)]

/-- The entries and the ids after a spawn that starts no thread, or a reap: there may be
fewer entries. -/
structure Fewer (s s' : ThreadIds) : Prop where
  entries : ∀ handleID threadInfo, s'.manager.getThreadInfo handleID = some threadInfo →
    s.manager.getThreadInfo handleID = some threadInfo
  tids : s'.tids = s.tids
  unused : s.manager.unusedEnv ≤ s'.manager.unusedEnv

/-- **The ways a step ends**, for the ids. -/
theorem idsStep_cases (taken : idsStep s op = some s') :
    Fewer s s' ∨ ∃ answers appArg given, op = .spawn answers appArg ∧
      (answers.MakesThreadInfo ∧ answers.SetsUpStack) ∧
      HandleTable.allot (· + 1) s.manager.threadMap s.manager.curHandleId = some given ∧
      s' = s.started answers appArg given := by
  cases op with
  | reap handleID =>
      obtain ⟨manager, reaped, rfl⟩ := Option.map_eq_some_iff.mp taken
      obtain ⟨_, rfl⟩ := guarded_eq_some.mp reaped
      exact Or.inl ⟨fun _ _ stored => (s.manager.getThreadInfo_erase_eq_some.mp stored).2, rfl,
        le_rfl⟩
  | spawn answers appArg =>
      obtain ⟨outcome, returned, rfl⟩ := Option.map_eq_some_iff.mp taken
      cases wasiThreadSpawn_cases returned with
      | early _ =>
          refine Or.inl ⟨fun _ _ stored => stored, ?_, Nat.le_succ _⟩
          funext env
          cases answers.instantiated <;> simp [ThreadIds.afterSpawn, passedTid]
      | late _ =>
          refine Or.inl ⟨fun _ _ stored => ?_, ?_, Nat.le_succ _⟩
          · exact (s.manager.useEnv.getThreadInfo_erase_eq_some.mp stored).2
          · funext env
            simp [ThreadIds.afterSpawn, passedTid_lateCalls]
      | @started given starts found =>
          refine Or.inr ⟨answers, appArg, given, rfl, starts, found, ?_⟩
          rw [idsStep_started starts found] at taken
          exact (Option.some.inj taken).symm

/-- With fewer entries the ids are still apart. -/
theorem Apart.fewer (apart : Apart pMainExecEnv s) (fewer : Fewer s s') :
    Apart pMainExecEnv s' where
  handle _ _ stored := apart.handle _ _ (fewer.entries _ _ stored)
  main _ _ stored := apart.main _ _ (fewer.entries _ _ stored)
  tid _ _ stored app := by
    rw [fewer.tids]
    exact apart.tid _ _ (fewer.entries _ _ stored) app
  large handleID handleID' stored stored' := by
    obtain ⟨threadInfo, found⟩ := Option.isSome_iff_exists.mp (AList.lookup_isSome.mpr stored)
    obtain ⟨threadInfo', found'⟩ := Option.isSome_iff_exists.mp (AList.lookup_isSome.mpr stored')
    have member := AList.lookup_isSome.mp (Option.isSome_of_eq_some (fewer.entries _ _ found))
    have member' := AList.lookup_isSome.mp (Option.isSome_of_eq_some (fewer.entries _ _ found'))
    exact apart.large handleID handleID' member member'
  older := lt_of_lt_of_le apart.older fewer.unused

section Started

variable {answers : ThreadSpawnAnswers} {appArg : UInt32} {given : UInt32 × UInt32}

/-- An entry after a spawn is the new one, or an old one with the ids it had. -/
theorem started_entry {handleID : UInt32} {threadInfo : ExecEnvThreadInfo}
    (stored : (s.started answers appArg given).manager.getThreadInfo handleID =
      some threadInfo) :
    (handleID = given.1 ∧
        threadInfo = startedThreadInfo s.manager answers appArg given.1) ∨
      (handleID ≠ given.1 ∧ s.manager.getThreadInfo handleID = some threadInfo ∧
        (s.started answers appArg given).tids threadInfo.pExecEnv =
          s.tids threadInfo.pExecEnv) := by
  obtain new | ⟨different, old⟩ :=
    (s.manager.getThreadInfo_insert_eq_some rfl).mp stored
  · exact Or.inl new
  · refine Or.inr ⟨different, old, ?_⟩
    have older := s.manager.created _ _ old
    exact Function.update_of_ne (by omega) _ _

theorem mem_started {handleID : UInt32} :
    handleID ∈ (s.started answers appArg given).manager.threadMap ↔
      handleID = given.1 ∨ handleID ∈ s.manager.threadMap :=
  AList.mem_insert _

/-- A spawn in the condition keeps the ids apart. -/
theorem Apart.started (apart : Apart pMainExecEnv s)
    (found : HandleTable.allot (· + 1) s.manager.threadMap s.manager.curHandleId = some given)
    (passes : PassesMainHandle s.manager)
    (alone : maxTid ≤ given.1 → ∀ other, maxTid ≤ other → other ∉ s.manager.threadMap) :
    Apart pMainExecEnv (s.started answers appArg given) where
  handle handleID threadInfo stored := by
    obtain ⟨rfl, rfl⟩ | ⟨_, old, _⟩ := started_entry stored
    · rfl
    · exact apart.handle _ _ old
  main handleID threadInfo stored := by
    obtain ⟨rfl, rfl⟩ | ⟨_, old, _⟩ := started_entry stored
    · have app := (passesMainHandle_iff (isNextHandle_of_allot found)).mp passes
      have newer : s.manager.unusedEnv ≠ pMainExecEnv := apart.older.ne'
      exact ⟨fun main => absurd main app, fun main => absurd main newer⟩
    · exact apart.main _ _ old
  tid handleID threadInfo stored app := by
    obtain ⟨rfl, rfl⟩ | ⟨_, old, same⟩ := started_entry stored
    · exact Function.update_self _ _ _
    · rw [same]
      exact apart.tid _ _ old app
  large handleID handleID' stored stored' large large' := by
    obtain rfl | old := mem_started.mp stored
    · obtain rfl | old' := mem_started.mp stored'
      · rfl
      · exact absurd old' (alone large _ large')
    · obtain rfl | old' := mem_started.mp stored'
      · exact absurd old (alone large' _ large)
      · exact apart.large _ _ old old' large large'
  older := Nat.lt_succ_of_lt apart.older

/-- After a spawn with unique ids, the handle given is not the main one. -/
theorem app_of_unique (apart : Apart pMainExecEnv s)
    (unique : UniqueIds pMainExecEnv (s.started answers appArg given)) :
    given.1 ≠ mainThreadId :=
  unique.notMain given.1 (startedThreadInfo s.manager answers appArg given.1)
    ⟨s.manager.getThreadInfo_insert_self _ _ _ rfl, apart.older.ne'⟩

/-- After a spawn with unique ids, no other handle is large if the one given is. -/
theorem alone_of_unique (apart : Apart pMainExecEnv s)
    (found : HandleTable.allot (· + 1) s.manager.threadMap s.manager.curHandleId = some given)
    (unique : UniqueIds pMainExecEnv (s.started answers appArg given))
    (large : maxTid ≤ given.1) (other : UInt32) (large' : maxTid ≤ other) :
    other ∉ s.manager.threadMap := by
  intro member
  obtain ⟨threadInfo, old⟩ := Option.isSome_iff_exists.mp (AList.lookup_isSome.mpr member)
  have different : other ≠ given.1 := fun same => HandleTable.allot_free found (same ▸ member)
  have app : other ≠ mainThreadId := by
    rintro rfl
    exact absurd large' (by decide)
  have kept : (s.started answers appArg given).manager.getThreadInfo other = some threadInfo :=
    (s.manager.getThreadInfo_insert_ne different _ _ rfl).trans old
  have new : (s.started answers appArg given).manager.getThreadInfo given.1 =
      some (startedThreadInfo s.manager answers appArg given.1) :=
    s.manager.getThreadInfo_insert_self _ _ _ rfl
  have notMain : threadInfo.pExecEnv ≠ pMainExecEnv := fun main =>
    app ((apart.main _ _ old).mpr main)
  obtain ⟨_, ids⟩ := unique.distinct other threadInfo given.1 _ ⟨kept, notMain⟩
    ⟨new, apart.older.ne'⟩ different
  have oldTid : (s.started answers appArg given).tids threadInfo.pExecEnv =
      some ⟨(min maxTid other).toNat, min maxTid other⟩ := by
    obtain ⟨same, _⟩ | ⟨_, _, same⟩ := started_entry kept
    · exact absurd same different
    · rw [same]
      exact apart.tid _ _ old app
  refine (ids _ _ oldTid (Function.update_self _ _ _)).2 (UInt32.toNat_inj.mp ?_)
  rw [toNat_min, toNat_min]
  rw [UInt32.le_iff_toNat_le] at large large'
  omega

end Started

/-- A step in the condition keeps the ids apart. -/
theorem Apart.step (apart : Apart pMainExecEnv s) (inCondition : SpawnsApart s op)
    (taken : idsStep s op = some s') : Apart pMainExecEnv s' := by
  obtain fewer | ⟨answers, appArg, given, rfl, starts, found, rfl⟩ := idsStep_cases taken
  · exact apart.fewer fewer
  · obtain ⟨passes, alone⟩ := inCondition starts
    exact apart.started found passes (alone given.1 (isNextHandle_of_allot found))

/-- **The condition is exact for one step.** -/
theorem spawnsApart_iff (apart : Apart pMainExecEnv s) :
    SpawnsApart s op ↔ ∀ next, idsStep s op = some next → UniqueIds pMainExecEnv next := by
  constructor
  · exact fun met next taken => (apart.step met taken).uniqueIds
  · intro unique
    cases op with
    | reap handleID => trivial
    | spawn answers appArg =>
        intro starts
        cases found : HandleTable.allot (· + 1) s.manager.threadMap s.manager.curHandleId with
        | none =>
            have full := all_used_of_no_allot found
            exact ⟨Or.inl (full mainThreadId), fun handleID next =>
              absurd (full handleID) next.1⟩
        | some given =>
            have after := unique _ (idsStep_started starts found)
            have next := isNextHandle_of_allot found
            refine ⟨(passesMainHandle_iff next).mpr (app_of_unique apart after), ?_⟩
            intro handleID other
            rw [other.unique next]
            exact alone_of_unique apart found after

end Steps

/-- **When thread ids are unique.** In every state that a run of an instance passes through,
app threads with entries in the map have different handles, none of them that of the main
thread, and different positive ids, exactly when each spawn of the run that starts a thread
passes the main handle, and finds no large handle in use when it comes to one. -/
theorem thread_ids_unique_iff (pMainExecEnv : ℕ) (ops : List ManagerOp) :
    Throughout idsStep (UniqueIds pMainExecEnv) (idsStart pMainExecEnv) ops ↔
      Meets idsStep SpawnsApart (idsStart pMainExecEnv) ops :=
  throughout_iff spawnsApart_iff Apart.step Apart.uniqueIds (apart_start pMainExecEnv)

/-! ## Two threads with one id -/

/-- The runtime makes everything, and the guest heap has room for the aux stack. -/
def heapWithRoom : ThreadSpawnAnswers := { guestHeapFull with moduleMalloc := fun _ => 4096 }

/-- A thread is spawned and reaped, a number of times. Nothing should evaluate it: the run
below takes 2^31 - 2 turns. -/
@[irreducible]
def turnover (times : ℕ) : List ManagerOp :=
  (List.range times).flatMap fun i =>
    [.spawn heapWithRoom 7, .reap (UInt32.ofNat (i + 1))]

/-- Only the main thread has an entry, and the counter has given out so many handles. -/
structure Turned (times : ℕ) (s : ThreadIds) : Prop where
  only : ∀ handleID, handleID ∈ s.manager.threadMap → handleID = mainThreadId
  counter : s.manager.curHandleId = UInt32.ofNat (times + 1)
  unused : 0 < s.manager.unusedEnv

/-- The handles after a turn are not that of the main thread until the counter wraps. -/
theorem ofNat_succ_ne_main {times : ℕ} (below : times + 1 < 2 ^ 32) :
    UInt32.ofNat (times + 1) ≠ mainThreadId := by
  intro main
  have zero := congrArg UInt32.toNat main
  rw [UInt32.toNat_ofNat_of_lt' below] at zero
  exact Nat.succ_ne_zero _ zero

/-- A handle of the counter that is not the main one is free. -/
theorem Turned.allot {times : ℕ} {s : ThreadIds} (turned : Turned times s)
    (below : times + 1 < 2 ^ 32) :
    HandleTable.allot (· + 1) s.manager.threadMap s.manager.curHandleId =
      some (UInt32.ofNat (times + 1), UInt32.ofNat (times + 1) + 1) := by
  rw [turned.counter]
  apply HandleTable.allot_of_free
  exact fun member => ofNat_succ_ne_main below (turned.only _ member)

/-- One more turn. -/
theorem Turned.turn {times : ℕ} {s : ThreadIds} (turned : Turned times s)
    (below : times + 1 < 2 ^ 32) :
    ∃ s', run idsStep s [.spawn heapWithRoom 7, .reap (UInt32.ofNat (times + 1))] = some s' ∧
      Turned (times + 1) s' := by
  have app := ofNat_succ_ne_main below
  obtain ⟨next, spawned⟩ : ∃ next, next = s.started heapWithRoom 7
      (UInt32.ofNat (times + 1), UInt32.ofNat (times + 1) + 1) := ⟨_, rfl⟩
  have taken : idsStep s (.spawn heapWithRoom 7) = some next := by
    rw [spawned]
    exact idsStep_started (by decide) (turned.allot below)
  have stored : (next.manager.getThreadInfo (UInt32.ofNat (times + 1))).isSome := by
    rw [spawned]
    exact Option.isSome_of_eq_some (s.manager.getThreadInfo_insert_self _ _ _ rfl)
  have reaped : idsStep next (.reap (UInt32.ofNat (times + 1))) =
      some { next with manager := next.manager.erase (UInt32.ofNat (times + 1)) } := by
    rw [idsStep, managerStep, if_pos ⟨app, stored⟩]
    rfl
  refine ⟨_, run_cons_eq_some.mpr ⟨_, taken, run_cons_eq_some.mpr ⟨_, reaped, rfl⟩⟩, ?_, ?_, ?_⟩
  · intro handleID member
    obtain ⟨different, kept⟩ := AList.mem_erase.mp member
    rw [spawned] at kept
    exact (mem_started.mp kept).elim (fun same => absurd same different) (turned.only _)
  · rw [spawned]
    exact (UInt32.ofNat_add (times + 1) 1).symm
  · rw [spawned]
    exact Nat.succ_pos _

/-- As many turns as there are handles below the top. -/
theorem turnover_turned (times : ℕ) (below : times < 2 ^ 32) :
    ∃ s, run idsStep (idsStart 0) (turnover times) = some s ∧ Turned times s := by
  induction times with
  | zero =>
      refine ⟨idsStart 0, by rw [turnover]; rfl, ?_, rfl, Nat.one_pos⟩
      intro handleID member
      obtain ⟨threadInfo, found⟩ := Option.isSome_iff_exists.mp (AList.lookup_isSome.mpr member)
      exact (getThreadInfo_initAppMainThreadInfo.mp found).1
  | succ times ih =>
      obtain ⟨s, reached, turned⟩ := ih (by omega)
      obtain ⟨s', turn, turned'⟩ := turned.turn below
      refine ⟨s', ?_, turned'⟩
      rw [turnover, List.range_succ, List.flatMap_append, run_append, ← turnover, reached]
      exact turn

/-- After 2^31 - 2 threads that came and went, two threads live at the same time have the
handles 0x7fffffff and 0x80000000, and both have the id 0x7fffffff. -/
theorem thread_ids_collide :
    ¬ Throughout idsStep (UniqueIds 0) (idsStart 0)
      (turnover (2 ^ 31 - 2) ++ [.spawn heapWithRoom 7, .spawn heapWithRoom 7]) := by
  intro always
  obtain ⟨s, reached, turned⟩ := turnover_turned (2 ^ 31 - 2) (by decide)
  have first : HandleTable.allot (· + 1) s.manager.threadMap s.manager.curHandleId =
      some (0x7fffffff, 0x80000000) := turned.allot (by decide)
  have second : HandleTable.allot (· + 1)
      (s.started heapWithRoom 7 (0x7fffffff, 0x80000000)).manager.threadMap 0x80000000 =
        some (0x80000000, 0x80000001) := by
    apply HandleTable.allot_of_free
    intro member
    obtain same | old := mem_started.mp member
    · exact absurd same (by decide)
    · exact absurd (turned.only _ old) (by decide)
  have ended : run idsStep (idsStart 0)
      (turnover (2 ^ 31 - 2) ++ [.spawn heapWithRoom 7, .spawn heapWithRoom 7]) =
        some ((s.started heapWithRoom 7 (0x7fffffff, 0x80000000)).started heapWithRoom 7
          (0x80000000, 0x80000001)) := by
    rw [run_append, reached]
    exact run_cons_eq_some.mpr ⟨_, idsStep_started (by decide) first,
      run_cons_eq_some.mpr ⟨_, idsStep_started (by decide) second, rfl⟩⟩
  rw [← List.append_nil (turnover _ ++ _)] at always
  have unique := always.after ended
  have old : AppEntry 0 ((s.started heapWithRoom 7 (0x7fffffff, 0x80000000)).started
      heapWithRoom 7 (0x80000000, 0x80000001)) 0x7fffffff
      (startedThreadInfo s.manager heapWithRoom 7 0x7fffffff) := by
    refine ⟨?_, turned.unused.ne'⟩
    apply ((InstancePthreadManager.getThreadInfo_insert_ne _ (by decide) _ _ rfl)).trans
    exact s.manager.getThreadInfo_insert_self _ _ _ rfl
  have new : AppEntry 0 ((s.started heapWithRoom 7 (0x7fffffff, 0x80000000)).started
      heapWithRoom 7 (0x80000000, 0x80000001)) 0x80000000
      (startedThreadInfo (s.started heapWithRoom 7 (0x7fffffff, 0x80000000)).manager
        heapWithRoom 7 0x80000000) :=
    ⟨InstancePthreadManager.getThreadInfo_insert_self _ _ _ _ rfl, Nat.succ_ne_zero _⟩
  obtain ⟨_, ids⟩ := unique.distinct _ _ _ _ old new (by decide)
  refine (ids ⟨_, 0x7fffffff⟩ ⟨_, 0x7fffffff⟩ ?_ (Function.update_self _ _ _)).2 rfl
  exact (Function.update_of_ne (Nat.lt_succ_self _).ne _ _).trans (Function.update_self _ _ _)

end Pthread
end WamrExt
