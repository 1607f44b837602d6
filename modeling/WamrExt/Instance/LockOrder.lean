import WamrExt.Lib.LockProgram
import WamrExt.Syscall.Dispatch

/-!
# The order of the locks

The library has a lock of its own for each thing that threads share: the modules and the list of
instances, the calls on an instance, its state, its thread map, the exit of a thread, the children,
the spawning of processes, and the loop. Here each function is the program of the scopes in which
it locks them. What a function does apart from that is left out, so that every branch is free, and
so is every guest.

`execFuncLock`, `gWasmLock` and the lock of a table of descriptors are the only locks that are held
while others are taken, and they come in this order (`Mutex.rank`). Every function locks in the
order, whatever is locked by its caller that may be (`HostThread.program_ordered`). So threads
never wait for each other's locks in a circle, whichever calls run on whichever instances, and
every thread that is kept back by a lock is behind one that is not (`some_thread_goes_on`).

That one may have to wait for something else than a lock: for a condition variable, for the end of
a thread that it joins, for a descriptor or a timeout, or in guest code. Nothing is said here of
when such a wait ends. Only `execFuncLock`, `gWasmLock` and `exitLock` are ever held during one. Host
calls that do not wait for any of these, such as that of `posix_spawn`, are left out.

The locks of a table and of its entries are here too, since functions of the library lock the one
and unlock both (`uvwasi_fd_table_get` and `uvwasi_fd_table_insert` return with the entry locked).
What the runtime and the table lock inside their own functions is left out. The loop is stopped
only when the process ends, which is left out as well.
-/

set_option autoImplicit false

namespace WamrExt
namespace Instance
namespace LockOrder

open LockProgram LockProgram.LockProg Syscall Transition

/-- The locks, each with what it belongs to. -/
inductive Mutex where
  | gWasmLock
  | execFuncLock (inst : ℕ)
  | instanceLock (inst : ℕ)
  | threadMapLock (inst : ℕ)
  | exitLock (inst thread : ℕ)
  | procManagerLock (inst : ℕ)
  | gProcessSpawnLock
  | loopThreadLock
  | fdTable (inst : ℕ)
  | fdEntry (inst appFD : ℕ)
  deriving DecidableEq, Repr

/-- `execFuncLock` before `gWasmLock`, both before the others, and the entries of a table last. -/
def Mutex.rank : Mutex → ℕ
  | .execFuncLock _ => 0
  | .gWasmLock => 1
  | .exitLock _ _ => 2
  | .fdEntry _ _ => 4
  | _ => 3

theorem Mutex.rank_lt (l : Mutex) : l.rank < 5 := by
  cases l <;> simp [rank]

/-- The rank up to which locks are held during a wait. -/
def waitLimit : ℕ := 3

@[simp]
theorem le_waitLimit {n : ℕ} : n ≤ waitLimit ↔ n ≤ 3 := Iff.rfl

theorem Mutex.rank_lt_waitLimit {l : Mutex} : l.rank < waitLimit ↔
    (∃ inst, l = .execFuncLock inst) ∨ l = .gWasmLock ∨
      ∃ inst thread, l = .exitLock inst thread := by
  cases l <;> simp [rank, waitLimit]

/-- A scope that locks and calls nothing that does. -/
abbrev guarded (l : Mutex) : LockProg Mutex := locked l skip

/-! ## The syscalls of an instance -/

section Guest

variable (inst : ℕ)

/-- `GetHostFDByAppFD`: the entry of the descriptor is locked while it is read. -/
def getHostFDByAppFD : LockProg Mutex := opt (any fun appFD => guarded (.fdEntry inst appFD))

/-- `InsertNewHostSocketFDToTable` -/
def insertNewHostSocketFDToTable : LockProg Mutex :=
  opt (any fun appFD => guarded (.fdEntry inst appFD))

/-- A host call on a descriptor that may take its time. -/
def slowHostCall : LockProg Mutex := steps [getHostFDByAppFD inst, opt await]

/-- `SockAccept` -/
def sockAccept : LockProg Mutex :=
  steps [slowHostCall inst, opt (insertNewHostSocketFDToTable inst)]

/-- `ProcessSpawn`: the whitelist, the three standard descriptors, the actions, the pipe with the
spawn, and the new child. -/
def processSpawn : LockProg Mutex :=
  opt (steps [guarded (.instanceLock inst), loop (getHostFDByAppFD inst),
    opt (steps [guarded .gProcessSpawnLock, opt (guarded (.procManagerLock inst))])])

/-- `ProcessWaitPID`: each round looks the pipes up, polls them, and then goes over those that are
ready. -/
def processWaitPID : LockProg Mutex :=
  loop (steps [guarded (.procManagerLock inst),
    opt (steps [await, loop (guarded (.procManagerLock inst))])])

/-- `WasiThreadSpawn`: the thread info goes into the map, or what was made is taken back. -/
def wasiThreadSpawn : LockProg Mutex := opt (guarded (.threadMapLock inst))

/-- `WasiPollOneOff` has the table while it looks a descriptor up for each subscription. Then it
sleeps or polls. -/
def wasiPollOneOff : LockProg Mutex :=
  opt (steps [locked (.fdTable inst) (loop (opt (any fun appFD => guarded (.fdEntry inst appFD)))),
    opt await])

/-- The handlers of the ext syscalls. `SockGetIfAddrs` holds nothing while it calls the guest. -/
def handlers : List (UInt32 × LockProg Mutex) :=
  [(1, skip), -- WamrExtSysctl
   (130, skip), -- PthreadSetName
   (200, getHostFDByAppFD inst), -- FDStatVFS
   (201, slowHostCall inst), -- FDFcntl
   (300, insertNewHostSocketFDToTable inst), -- SockOpen
   (301, getHostFDByAppFD inst), -- SockBind
   (302, slowHostCall inst), -- SockConnect
   (303, getHostFDByAppFD inst), -- SockListen
   (304, sockAccept inst), -- SockAccept
   (305, getHostFDByAppFD inst), -- SockGetSockName
   (306, getHostFDByAppFD inst), -- SockGetPeerName
   (307, getHostFDByAppFD inst), -- SockShutdown
   (308, getHostFDByAppFD inst), -- SockGetOpt
   (309, getHostFDByAppFD inst), -- SockSetOpt
   (310, slowHostCall inst), -- SockRecvMsg
   (311, slowHostCall inst), -- SockSendMsg
   (312, skip), -- SockGetIfAddrs
   (400, processSpawn inst), -- ProcessSpawn
   (401, processWaitPID inst)] -- ProcessWaitPID

example : (handlers 0).map Prod.fst = extSyscallTable.map Prod.fst := by decide

/-- A guest: any calls in any order, and waits of its own. -/
def guest : LockProg Mutex :=
  loop (oneOf (await :: wasiThreadSpawn inst :: wasiPollOneOff inst ::
    (handlers inst).map Prod.snd))

/-! ## Threads of an instance -/

/-- `DoAppThreadExit` locks the map if there is an exception to spread. -/
def doAppThreadExit : LockProg Mutex := opt (guarded (.threadMapLock inst))

/-- The host thread of an app thread, with its exit section at the end. -/
def appThread (thread : ℕ) : LockProg Mutex :=
  steps [guest inst, doAppThreadExit inst, guarded (.exitLock inst thread)]

/-- `DoHostThreadJoin`: the wait on `exitCV` gives the lock up, and `join` does not. -/
def doHostThreadJoin (thread : ℕ) : LockProg Mutex :=
  steps [
    locked (.exitLock inst thread)
      (opt (steps [unlocked (.exitLock inst thread) await, opt await])),
    opt (guarded (.threadMapLock inst))]

/-- `InitAppMainThreadInfo` -/
def initAppMainThreadInfo : LockProg Mutex := guarded (.threadMapLock inst)

/-- `CleanupAppThreadInfo`: rounds of a snapshot and joins, up to an empty snapshot. -/
def cleanupAppThreadInfo : LockProg Mutex :=
  steps [loop (steps [guarded (.threadMapLock inst), loop (any (doHostThreadJoin inst))]),
    guarded (.threadMapLock inst), doAppThreadExit inst]

/-! ## The API -/

/-- `wamr_ext_instance_set_opt` -/
def wamrExtInstanceSetOpt : LockProg Mutex := guarded (.instanceLock inst)

/-- The part of `wamr_ext_instance_start` under `gWasmLock`. Instantiation may run the start
function of the module, and the state is set if there is no memory. -/
def instantiateMain : LockProg Mutex :=
  locked .gWasmLock (steps [guest inst,
    oneOf [guarded (.instanceLock inst), initAppMainThreadInfo inst]])

/-- `wamr_ext_instance_start`: the check of the state, the instantiation, and `_initialize`. -/
def wamrExtInstanceStart : LockProg Mutex :=
  locked (.execFuncLock inst) (steps [guarded (.instanceLock inst),
    opt (steps [instantiateMain inst,
      opt (steps [guest inst, guarded (.instanceLock inst)])])])

/-- `wamr_ext_instance_exec_main_func` -/
def wamrExtInstanceExecMainFunc : LockProg Mutex :=
  locked (.execFuncLock inst) (steps [guarded (.instanceLock inst), opt (guest inst)])

/-- `wamr_ext_instance_destroy`: the check of the state, the app threads, the destructors, the
descriptors, and the state. -/
def wamrExtInstanceDestroy : LockProg Mutex :=
  locked (.execFuncLock inst) (steps [guarded (.instanceLock inst),
    opt (steps [opt (cleanupAppThreadInfo inst), opt (guest inst),
      opt (guarded (.fdTable inst)), guarded (.instanceLock inst)])])

end Guest

/-- `wamr_ext_init`: `LoopThread::Start` and `LoopThread::PostTimerTask`. -/
def wamrExtInit : LockProg Mutex :=
  opt (steps [guarded .loopThreadLock, guarded .loopThreadLock])

/-- `WamrExtModuleLoad` -/
def wamrExtModuleLoad : LockProg Mutex := guarded .gWasmLock

/-- `wamr_ext_instance_create` -/
def wamrExtInstanceCreate : LockProg Mutex := guarded .gWasmLock

/-- A program of the host that uses the library: any calls on any instances. -/
def caller : LockProg Mutex :=
  loop (any fun inst => oneOf [await, wamrExtInit, wamrExtModuleLoad, wamrExtInstanceCreate,
    wamrExtInstanceSetOpt inst, wamrExtInstanceStart inst, wamrExtInstanceExecMainFunc inst,
    wamrExtInstanceDestroy inst])

/-- `LoopCheckInstanceRoutine`: the start of the list, and for each instance its state and the
move of the iterator. The exception callback, which may call the API, runs with the lock of the
instance given up. -/
def loopCheckInstanceRoutine : LockProg Mutex :=
  steps [guarded .gWasmLock,
    loop (any fun inst => steps [
      locked (.instanceLock inst) (opt (steps [unlocked (.instanceLock inst) caller])),
      guarded .gWasmLock])]

/-! ## The order -/

section Order

/-- A scope in which nothing else is locked. -/
@[simp]
theorem guarded_above {l : Mutex} {bound : ℕ} (high : ¬ l.rank < bound) :
    (guarded l).Above Mutex.rank waitLimit bound :=
  above_locked (Nat.le_of_not_lt high) above_skip

variable (inst : ℕ)

/-- The entries are locked after the table. -/
@[simp]
theorem wasiPollOneOff_above : (wasiPollOneOff inst).Above Mutex.rank waitLimit 2 := by
  have table : (locked (.fdTable inst) (loop (opt (any fun appFD =>
      guarded (.fdEntry inst appFD))))).Above Mutex.rank waitLimit 2 :=
    above_locked (by simp [Mutex.rank]) (by simp [Mutex.rank])
  simp [wasiPollOneOff, table]

/-- Whatever a guest does, it locks nothing that comes before the tables. -/
@[simp]
theorem guest_above : (guest inst).Above Mutex.rank waitLimit 2 := by
  simp [guest, handlers, wasiThreadSpawn, getHostFDByAppFD, insertNewHostSocketFDToTable,
    slowHostCall, sockAccept, processSpawn, processWaitPID, Mutex.rank]

theorem appThread_above (thread : ℕ) : (appThread inst thread).Above Mutex.rank waitLimit 2 := by
  simp [appThread, doAppThreadExit, Mutex.rank]

/-- While a thread is joined, nothing is held that comes after its `exitLock`. -/
@[simp]
theorem doHostThreadJoin_above (thread : ℕ) :
    (doHostThreadJoin inst thread).Above Mutex.rank waitLimit 2 := by
  have join : (locked (.exitLock inst thread) (opt (steps
      [unlocked (.exitLock inst thread) await, opt await]))).Above Mutex.rank waitLimit 2 :=
    above_yielding (Nat.le_refl 2) (above_await (by decide)) (by simp [Mutex.rank])
  simp [doHostThreadJoin, join, Mutex.rank]

@[simp]
theorem cleanupAppThreadInfo_above : (cleanupAppThreadInfo inst).Above Mutex.rank waitLimit 2 := by
  simp [cleanupAppThreadInfo, doAppThreadExit, Mutex.rank]

/-- Under `gWasmLock` come the others, but not `execFuncLock`. -/
theorem instantiateMain_above : (instantiateMain inst).Above Mutex.rank waitLimit 1 :=
  above_locked (Nat.le_refl 1) (by simp [initAppMainThreadInfo, Mutex.rank])

/-- Under `execFuncLock` come all others. -/
theorem wamrExtInstanceStart_above : (wamrExtInstanceStart inst).Above Mutex.rank waitLimit 0 := by
  have body : (guest inst).Above Mutex.rank waitLimit 1 := (guest_above inst).mono (by decide)
  exact above_locked (Nat.le_refl 0) (by simp [instantiateMain_above, body, Mutex.rank])

theorem wamrExtInstanceExecMainFunc_above :
    (wamrExtInstanceExecMainFunc inst).Above Mutex.rank waitLimit 0 := by
  have body : (guest inst).Above Mutex.rank waitLimit 1 := (guest_above inst).mono (by decide)
  exact above_locked (Nat.le_refl 0) (by simp [body, Mutex.rank])

theorem wamrExtInstanceDestroy_above :
    (wamrExtInstanceDestroy inst).Above Mutex.rank waitLimit 0 := by
  have body : (guest inst).Above Mutex.rank waitLimit 1 := (guest_above inst).mono (by decide)
  have cleanup : (cleanupAppThreadInfo inst).Above Mutex.rank waitLimit 1 :=
    (cleanupAppThreadInfo_above inst).mono (by decide)
  exact above_locked (Nat.le_refl 0) (by simp [cleanup, body, Mutex.rank])

theorem caller_above : caller.Above Mutex.rank waitLimit 0 := by
  simp [caller, wamrExtInit, wamrExtModuleLoad, wamrExtInstanceCreate, wamrExtInstanceSetOpt,
    wamrExtInstanceStart_above, wamrExtInstanceExecMainFunc_above, wamrExtInstanceDestroy_above]

/-- A tick holds nothing while the callback calls the API. -/
theorem loopCheckInstanceRoutine_above : loopCheckInstanceRoutine.Above Mutex.rank waitLimit 0 := by
  have examined (inst : ℕ) : (locked (.instanceLock inst)
      (opt (steps [unlocked (.instanceLock inst) caller]))).Above Mutex.rank waitLimit 0 :=
    above_yielding (Nat.zero_le _) caller_above (by simp)
  simp [loopCheckInstanceRoutine, examined]

end Order

/-! ## All threads -/

/-- The threads of the process: those of the host program, the loop thread, and the host threads of
the app threads of all instances. A thread that has not started is one that has taken no step. -/
inductive HostThread where
  | caller (name : ℕ)
  | loop
  | app (inst thread : ℕ)
  deriving DecidableEq, Repr

def HostThread.program : HostThread → LockProg Mutex
  | .caller _ => LockOrder.caller
  | .loop => LockProg.loop loopCheckInstanceRoutine
  | .app inst thread => appThread inst thread

/-- Every thread keeps the order. -/
theorem HostThread.program_ordered (t : HostThread) :
    t.program.Ordered Mutex.rank waitLimit [] := by
  have start : ∀ {bound : ℕ}, ∀ k ∈ ([] : List Mutex), k.rank < bound :=
    fun _ member => absurd member List.not_mem_nil
  cases t with
  | caller name => exact caller_above [] start
  | loop => exact above_loop.mpr loopCheckInstanceRoutine_above [] start
  | app inst thread => exact appThread_above inst thread [] start

end LockOrder
end Instance
end WamrExt
