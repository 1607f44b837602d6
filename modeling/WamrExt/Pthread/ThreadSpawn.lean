import Mathlib.Data.List.AList
import Mathlib.Data.UInt
import WamrExt.Lib.HandleTable

/-!
# Spawning an app thread

The thread manager of an instance maps handles to thread infos. `wasiThreadSpawn` is
`WasiThreadSpawn` as one call: the body up to its first `break` (`spawnBody`), the cleanup
after it (`spawnCleanup`), and the end of the last local reference to the thread info.

What the runtime answers during the call is a `ThreadSpawnAnswers`, so each step can fail by
itself. The calls that create and destroy a sub-instance or an exec env are recorded in
order. A sub-instance and the exec env made for it have one name, and
`get_module_inst` takes one to the other.

Assertions are compiled out. The body of the host thread is modelled with the exit and
join handshake.
-/

set_option autoImplicit false

namespace WamrExt
namespace Pthread

/-- `PTHREAD_EXT_MAIN_THREAD_ID` -/
def mainThreadId : UInt32 := 0

/-- `APP_THREAD_DEFAULT_STACK_SIZE` -/
def appThreadDefaultStackSize : UInt32 := 128 * 1024

/-- What a call asks of the runtime and of the host. -/
inductive RuntimeCall where
  | instantiate (inst : ℕ)
  | createExecEnv (env : ℕ)
  | startHostThread (env : ℕ) (retTid funcArg : UInt32)
  | moduleFree (appStackAddr : UInt32)
  | deinstantiate (inst : ℕ)
  | destroyExecEnv (env : ℕ)
  deriving DecidableEq, Repr

/-- `ExecEnvThreadInfo`. The deleter of `pExecEnv` destroys the exec env and its
sub-instance for an app thread, and does nothing for the main thread. -/
structure ExecEnvThreadInfo where
  handleID : UInt32 := 0
  pExecEnv : ℕ
  deleterDestroys : Bool
  funcArg : UInt32 := 0
  appStackAddr : UInt32 := 0
  stackSize : UInt32 := 0
  bStackFromApp : Bool := false
  waitCount : ℤ := 0
  deriving DecidableEq, Repr

/-- What the deleter of `pExecEnv` asks of the runtime when the thread info goes. -/
def ExecEnvThreadInfo.release (threadInfo : ExecEnvThreadInfo) : List RuntimeCall :=
  if threadInfo.deleterDestroys then
    [.deinstantiate threadInfo.pExecEnv, .destroyExecEnv threadInfo.pExecEnv]
  else []

/-- `m_threadMap` -/
abbrev ThreadMap := AList fun _ : UInt32 => ExecEnvThreadInfo

/-- `InstancePthreadManager`, with the first name that no exec env has had. Every thread
info in the map is about an exec env that has been created. -/
structure InstancePthreadManager where
  threadMap : ThreadMap
  curHandleId : UInt32
  unusedEnv : ℕ
  created : ∀ handleID threadInfo,
    threadMap.lookup handleID = some threadInfo → threadInfo.pExecEnv < unusedEnv

namespace InstancePthreadManager

/-- `GetThreadInfo` -/
def getThreadInfo (manager : InstancePthreadManager) (handleID : UInt32) :
    Option ExecEnvThreadInfo :=
  manager.threadMap.lookup handleID

/-- `m_threadMap.erase`. -/
def erase (manager : InstancePthreadManager) (handleID : UInt32) :
    InstancePthreadManager where
  threadMap := manager.threadMap.erase handleID
  curHandleId := manager.curHandleId
  unusedEnv := manager.unusedEnv
  created := fun other threadInfo stored => by
    by_cases same : other = handleID
    · rw [same, AList.lookup_erase] at stored
      cases stored
    · rw [AList.lookup_erase_ne same] at stored
      exact manager.created other threadInfo stored

/-- The deleters that run when an entry leaves the map, the map holding the last reference
to it. -/
def eraseReleases (manager : InstancePthreadManager) (handleID : UInt32) :
    List RuntimeCall :=
  ((manager.getThreadInfo handleID).map ExecEnvThreadInfo.release).getD []

/-- Stores the thread info of the exec env created last at a handle that is given. -/
def insert (manager : InstancePthreadManager) (handleID curHandleId : UInt32)
    (threadInfo : ExecEnvThreadInfo) (own : threadInfo.pExecEnv = manager.unusedEnv) :
    InstancePthreadManager where
  threadMap := manager.threadMap.insert handleID threadInfo
  curHandleId := curHandleId
  unusedEnv := manager.unusedEnv + 1
  created := fun other stored found => by
    by_cases same : other = handleID
    · rw [same, AList.lookup_insert] at found
      cases found
      omega
    · rw [AList.lookup_insert_ne same] at found
      have := manager.created other stored found
      omega

/-- The name of the exec env created by a call is used up. -/
def useEnv (manager : InstancePthreadManager) : InstancePthreadManager where
  threadMap := manager.threadMap
  curHandleId := manager.curHandleId
  unusedEnv := manager.unusedEnv + 1
  created := fun handleID threadInfo stored =>
    Nat.lt_succ_of_lt (manager.created handleID threadInfo stored)

/-- Some entry of the map refers to the thread info of this exec env. -/
def holds (manager : InstancePthreadManager) (env : ℕ) : Bool :=
  manager.threadMap.entries.any fun entry => entry.2.pExecEnv == env

section Lookup

variable (manager : InstancePthreadManager)

@[simp]
theorem getThreadInfo_erase_self (handleID : UInt32) :
    (manager.erase handleID).getThreadInfo handleID = none :=
  AList.lookup_erase _ _

theorem getThreadInfo_erase_ne {handleID other : UInt32} (different : other ≠ handleID) :
    (manager.erase handleID).getThreadInfo other = manager.getThreadInfo other :=
  AList.lookup_erase_ne different

@[simp]
theorem getThreadInfo_insert_self (handleID curHandleId : UInt32)
    (threadInfo : ExecEnvThreadInfo) (own : threadInfo.pExecEnv = manager.unusedEnv) :
    (manager.insert handleID curHandleId threadInfo own).getThreadInfo handleID =
      some threadInfo :=
  AList.lookup_insert _

theorem getThreadInfo_insert_ne {handleID other : UInt32} (different : other ≠ handleID)
    (curHandleId : UInt32) (threadInfo : ExecEnvThreadInfo)
    (own : threadInfo.pExecEnv = manager.unusedEnv) :
    (manager.insert handleID curHandleId threadInfo own).getThreadInfo other =
      manager.getThreadInfo other :=
  AList.lookup_insert_ne different

/-- What is in the map after an entry was erased was in the map before. -/
theorem getThreadInfo_erase_eq_some {handleID other : UInt32}
    {threadInfo : ExecEnvThreadInfo} :
    (manager.erase handleID).getThreadInfo other = some threadInfo ↔
      other ≠ handleID ∧ manager.getThreadInfo other = some threadInfo := by
  by_cases same : other = handleID
  · simp [same]
  · simp [same, manager.getThreadInfo_erase_ne same]

/-- What is in the map after an insertion is the new entry, or was in the map before. -/
theorem getThreadInfo_insert_eq_some {handleID curHandleId other : UInt32}
    {new threadInfo : ExecEnvThreadInfo} (own : new.pExecEnv = manager.unusedEnv) :
    (manager.insert handleID curHandleId new own).getThreadInfo other = some threadInfo ↔
      (other = handleID ∧ threadInfo = new) ∨
        (other ≠ handleID ∧ manager.getThreadInfo other = some threadInfo) := by
  by_cases same : other = handleID
  · subst same
    simp [eq_comm]
  · simp [same, manager.getThreadInfo_insert_ne same]

end Lookup

end InstancePthreadManager

/-- The thread info `InitAppMainThreadInfo` makes for the main exec env. -/
def mainThreadInfo (pMainExecEnv : ℕ) : ExecEnvThreadInfo where
  handleID := mainThreadId
  pExecEnv := pMainExecEnv
  deleterDestroys := false
  waitCount := -1

/-- The thread manager of an instance after `InitAppMainThreadInfo`. -/
def initAppMainThreadInfo (pMainExecEnv : ℕ) : InstancePthreadManager where
  threadMap := AList.singleton mainThreadId (mainThreadInfo pMainExecEnv)
  curHandleId := 1
  unusedEnv := pMainExecEnv + 1
  created := fun handleID threadInfo stored => by
    by_cases main : handleID = mainThreadId
    · subst main
      cases (AList.lookup_insert (∅ : ThreadMap)).symm.trans stored
      exact Nat.lt_succ_self _
    · rw [show AList.singleton mainThreadId (mainThreadInfo pMainExecEnv) =
        AList.insert mainThreadId (mainThreadInfo pMainExecEnv) (∅ : ThreadMap) from rfl,
        AList.lookup_insert_ne main] at stored
      cases stored

theorem getThreadInfo_initAppMainThreadInfo {pMainExecEnv : ℕ} {handleID : UInt32}
    {threadInfo : ExecEnvThreadInfo} :
    (initAppMainThreadInfo pMainExecEnv).getThreadInfo handleID = some threadInfo ↔
      handleID = mainThreadId ∧ threadInfo = mainThreadInfo pMainExecEnv := by
  by_cases main : handleID = mainThreadId
  · have own : (initAppMainThreadInfo pMainExecEnv).getThreadInfo mainThreadId =
        some (mainThreadInfo pMainExecEnv) := AList.lookup_insert (∅ : ThreadMap)
    rw [main, own]
    simp [eq_comm]
  · have other : (initAppMainThreadInfo pMainExecEnv).getThreadInfo handleID = none :=
      AList.lookup_insert_ne (s := (∅ : ThreadMap)) main
    rw [other]
    simp [main]

/-! ## The call -/

/-- What the runtime answers to the steps of a spawn: whether the sub-instance was made,
whether it exports `wasi_thread_start`, whether an exec env was made for it, the size of
the aux stack of the caller if it has one, the guest heap's answer to a request (0 if it
has no room) and whether the aux stack was set, given its bottom and its size. -/
structure ThreadSpawnAnswers where
  instantiated : Bool
  entryFound : Bool
  execEnvCreated : Bool
  auxStackSize : Option UInt32
  moduleMalloc : UInt32 → UInt32
  setAuxStack : UInt32 → UInt32 → Bool

/-- `uvwasi_errno_t` has 16 bits, so this is what `err = -1` stores. -/
def errMinusOne : UInt16 := 65535

/-- `UVWASI_ENOMEM` -/
def uvwasiENOMEM : UInt16 := 48

/-- The locals of the call when its `do … while (false)` is left. -/
structure SpawnLocals where
  err : UInt16 := 0
  retTid : UInt32 := 0
  pNewWasmInst : Option ℕ := none
  pNewWasmExecEnv : Option ℕ := none
  pThreadInfo : Option ExecEnvThreadInfo := none

namespace ThreadSpawnAnswers

/-- The size asked of the guest heap: 16 bytes more than the stack, for its alignment. -/
def requestedSize (answers : ThreadSpawnAnswers) : UInt32 :=
  answers.auxStackSize.getD appThreadDefaultStackSize + 16

/-- The address of the aux stack, 0 if the guest heap had no room for it. -/
def appStackAddr (answers : ThreadSpawnAnswers) : UInt32 :=
  answers.moduleMalloc answers.requestedSize

/-- The bottom of the aux stack, aligned at 16 bytes. -/
def appStackBottom (answers : ThreadSpawnAnswers) : UInt32 :=
  (answers.appStackAddr + answers.requestedSize) / 16 * 16

/-- The size of the aux stack up to its aligned bottom. -/
def alignedSize (answers : ThreadSpawnAnswers) : UInt32 :=
  answers.appStackBottom - answers.appStackAddr

/-- Whether the aux stack of the new exec env was set. -/
def auxStackSet (answers : ThreadSpawnAnswers) : Bool :=
  answers.setAuxStack answers.appStackBottom answers.alignedSize

end ThreadSpawnAnswers

/-- The thread info of the new exec env, with the handle and the stack size it has so far.
It is born with handle 0. No stack comes from the app, since `appStackAddr` is 0 when
`bStackFromApp` is set from it. -/
def newThreadInfo (answers : ThreadSpawnAnswers) (appArg handleID stackSize : UInt32) (env : ℕ) :
    ExecEnvThreadInfo where
  handleID := handleID
  pExecEnv := env
  deleterDestroys := true
  funcArg := appArg
  appStackAddr := answers.appStackAddr
  stackSize := stackSize
  bStackFromApp := false

/-- What the body of the call leaves: its locals, the thread manager, and the calls made. -/
structure SpawnBody where
  locals : SpawnLocals
  manager : InstancePthreadManager
  calls : List RuntimeCall

/-- The body of the call. It has no value when the search for a handle never ends. -/
def spawnBody (manager : InstancePthreadManager) (answers : ThreadSpawnAnswers) (appArg : UInt32) :
    Option SpawnBody :=
  let env := manager.unusedEnv
  if answers.instantiated = false then
    some ⟨{ err := errMinusOne }, manager.useEnv, []⟩
  else if answers.entryFound = false then
    some ⟨{ err := errMinusOne, pNewWasmInst := some env }, manager.useEnv, [.instantiate env]⟩
  else if answers.execEnvCreated = false then
    some ⟨{ err := errMinusOne, pNewWasmInst := some env }, manager.useEnv, [.instantiate env]⟩
  else
    let made := [RuntimeCall.instantiate env, .createExecEnv env]
    if answers.appStackAddr = 0 then
      some ⟨⟨uvwasiENOMEM, 0, some env, some env,
        some (newThreadInfo answers appArg 0 answers.requestedSize env)⟩, manager.useEnv, made⟩
    else
      if answers.auxStackSet = false then
        some ⟨⟨errMinusOne, 0, some env, some env,
          some (newThreadInfo answers appArg 0 answers.alignedSize env)⟩, manager.useEnv, made⟩
      else
        (HandleTable.allot (· + 1) manager.threadMap manager.curHandleId).map fun given =>
          let stored := newThreadInfo answers appArg given.1 answers.alignedSize env
          let retTid := min 0x7fffffff given.1
          ⟨⟨0, retTid, some env, some env, some stored⟩,
            manager.insert given.1 given.2 stored rfl,
            made ++ [.startHostThread env retTid appArg]⟩

/-- The cleanup of a call that failed. It erases the map entry at the handle in the thread
info, then destroys what the raw handles still name. -/
def spawnCleanup (body : SpawnBody) : SpawnBody :=
  let threadPart : InstancePthreadManager × List RuntimeCall :=
    match body.locals.pThreadInfo with
    | none => (body.manager, [])
    | some threadInfo =>
        (body.manager.erase threadInfo.handleID,
          (if threadInfo.bStackFromApp = false ∧ threadInfo.appStackAddr ≠ 0 then
              [RuntimeCall.moduleFree threadInfo.appStackAddr] else []) ++
            body.manager.eraseReleases threadInfo.handleID)
  { body with
    manager := threadPart.1
    calls := body.calls ++ threadPart.2 ++
      (body.locals.pNewWasmInst.map RuntimeCall.deinstantiate).toList ++
      (body.locals.pNewWasmExecEnv.map RuntimeCall.destroyExecEnv).toList }

/-- What a call leaves: its result, the thread manager, and the calls made. -/
structure SpawnOutcome where
  result : ℤ
  manager : InstancePthreadManager
  calls : List RuntimeCall

/-- The end of the local reference to the thread info. The deleter runs unless the map
refers to it too. -/
def dropThreadInfo (manager : InstancePthreadManager) :
    Option ExecEnvThreadInfo → List RuntimeCall
  | none => []
  | some threadInfo =>
      if manager.holds threadInfo.pExecEnv then [] else threadInfo.release

/-- `WasiThreadSpawn` -/
def wasiThreadSpawn (manager : InstancePthreadManager) (answers : ThreadSpawnAnswers)
    (appArg : UInt32) : Option SpawnOutcome :=
  (spawnBody manager answers appArg).map fun body =>
    let after := if body.locals.err ≠ 0 then spawnCleanup body else body
    let tempErr : ℤ := body.locals.err.toNat
    let result := if body.locals.err ≠ 0 then (if tempErr > 0 then -tempErr else tempErr)
      else (body.locals.retTid.toNat : ℤ)
    ⟨result, after.manager,
      after.calls ++ dropThreadInfo after.manager body.locals.pThreadInfo⟩

end Pthread
end WamrExt
