import WamrExt.Instance.Config
import WamrExt.Instance.Memory
import WamrExt.Lib.Transition
import WamrExt.Pthread.ThreadSpawn

/-!
# The life of an instance

An instance is created, takes options, is started, runs its main function, and is
destroyed. The calls on one instance come one after another here.

A start can fail at each of its steps, with what the host and the runtime answer in a
`StartAnswers`. It makes the main module instance, then the main exec env, enlarges the
memory, and only then links the two to the instance: the custom data of the module instance
is the instance, and the user data of the exec env is the thread info of the main thread.
What guest code does during `_initialize` and the main function is not followed.

Destroying looks both links up when there is a main exec env. They are there exactly when
no start of the run found the host without room for the enlarged memory
(`destroy_safe_iff`).
-/

set_option autoImplicit false

namespace WamrExt
namespace Instance

open Transition Pthread

/-- The states of an instance, in their order. -/
inductive InstanceState where
  | new
  | started
  | ended
  | destroying
  | destroyed
  deriving DecidableEq, Repr

/-- A module instance: its default memory, and its custom data. -/
structure ModuleInst where
  memory : WASMMemoryInstance
  customData : Option ℕ := none
  deriving DecidableEq

/-- An exec env: its module instance, and its user data. -/
structure ExecEnv where
  moduleInst : ℕ
  userData : Option ExecEnvThreadInfo := none
  deriving DecidableEq

/-- `WamrExtInstance` at its address, with the live module instances and exec envs that were
made for it and the first name none of them has had. -/
structure WamrExtInstance where
  address : ℕ
  config : WamrExtInstanceConfig
  state : InstanceState := .new
  wasmMainInstance : Option ℕ := none
  pMainExecEnv : Option ℕ := none
  moduleInsts : AList (fun _ : ℕ => ModuleInst) := ∅
  execEnvs : AList (fun _ : ℕ => ExecEnv) := ∅
  unused : ℕ := 0

/-- `wamr_ext_instance_create`: the instance copies the default configuration. -/
def wamrExtInstanceCreate (address : ℕ) (instDefaultConf : WamrExtInstanceConfig) :
    WamrExtInstance where
  address := address
  config := instDefaultConf

/-- `wamr_ext_instance_set_opt` -/
def wamrExtInstanceSetOpt (inst : WamrExtInstance) (opt : WamrExtInstanceOpt) :
    ℤ × WamrExtInstance :=
  let answer := wamrExtSetInstanceOpt inst.config opt
  (answer.1, { inst with config := answer.2 })

/-! ## Lookups -/

/-- `get_module_inst` -/
def WamrExtInstance.getModuleInst (inst : WamrExtInstance) (env : ℕ) : Option ModuleInst :=
  (inst.execEnvs.lookup env).bind fun e => inst.moduleInsts.lookup e.moduleInst

/-- `GetInstPthreadManager`: the instance whose thread manager it gives. -/
def WamrExtInstance.getInstPthreadManager (inst : WamrExtInstance) (env : ℕ) : Option ℕ :=
  (inst.getModuleInst env).bind ModuleInst.customData

/-- `GetExecEnvThreadInfo` -/
def WamrExtInstance.getExecEnvThreadInfo (inst : WamrExtInstance) (env : ℕ) :
    Option ExecEnvThreadInfo :=
  (inst.execEnvs.lookup env).bind ExecEnv.userData

/-! ## Start -/

/-- What a start is answered: the memory of the module instance if one is made, whether an
exec env is made, the answer of the host to a request for memory, whether the module exports
`_initialize`, and whether that returns without a trap. -/
structure StartAnswers where
  instantiated : Option WASMMemoryInstance
  execEnvCreated : Bool
  realloc : UInt32 → Option ℕ
  initializeFound : Bool
  initializeReturns : Bool

/-- `wasm_runtime_instantiate` and `wasm_runtime_create_exec_env`, with their results stored
in the instance. The new module instance and exec env have one name. -/
def instantiateMain (inst : WamrExtInstance) (answers : StartAnswers) : WamrExtInstance :=
  match answers.instantiated with
  | none => { inst with wasmMainInstance := none }
  | some memory =>
      let made := { inst with
        wasmMainInstance := some inst.unused
        moduleInsts := inst.moduleInsts.insert inst.unused { memory := memory }
        pMainExecEnv := none
        unused := inst.unused + 1 }
      if answers.execEnvCreated then
        { made with
          pMainExecEnv := some inst.unused
          execEnvs := inst.execEnvs.insert inst.unused { moduleInst := inst.unused } }
      else made

/-- The main module instance and exec env once they are linked to the instance: its custom
data is set, and `InitAppMainThreadInfo` registers the main thread info. -/
def linkMain (inst : WamrExtInstance) (name : ℕ) (memory : WASMMemoryInstance) :
    WamrExtInstance :=
  { inst with
    moduleInsts := inst.moduleInsts.insert name ⟨memory, some inst.address⟩
    execEnvs := inst.execEnvs.insert name ⟨name, some (mainThreadInfo name)⟩ }

/-- The end of a start: `_initialize` is looked up and called. -/
def initializeMain (inst : WamrExtInstance) (answers : StartAnswers) : ℤ × WamrExtInstance :=
  if answers.initializeFound && answers.initializeReturns then
    (0, { inst with state := .started })
  else (-1, { inst with state := .ended })

/-- `wamr_ext_instance_start` -/
def wamrExtInstanceStart (inst : WamrExtInstance) (answers : StartAnswers) :
    ℤ × WamrExtInstance :=
  if inst.state ≠ .new then (-1, inst)
  else
    let made := instantiateMain inst answers
    match answers.instantiated with
    | none => (-1, made)
    | some memory =>
        if answers.execEnvCreated = false then (-1, made)
        else
          match enlargeMemory inst.config.maxMemory answers.realloc memory with
          | .outOfMemory abandoned =>
              (-1, { made with
                state := .ended
                moduleInsts := made.moduleInsts.insert inst.unused { memory := abandoned } })
          | .untouched => initializeMain (linkMain made inst.unused memory) answers
          | .enlarged larger => initializeMain (linkMain made inst.unused larger) answers

/-- The host has no room for the enlarged memory of this start. -/
def OutOfMemoryStart (inst : WamrExtInstance) (answers : StartAnswers) : Prop :=
  inst.state = .new ∧ answers.execEnvCreated = true ∧
    ∃ memory, answers.instantiated = some memory ∧
      CannotEnlarge inst.config.maxMemory answers.realloc memory

/-! ## Main function and destruction -/

/-- What an execution of the main function is answered: whether the module exports
`__main_void`, and what that returns unless it traps. -/
structure ExecAnswers where
  mainFound : Bool
  mainReturns : Option ℤ

/-- What executing the main function gives: its result, the value stored in `ret_value`,
and the instance afterwards. -/
structure Executed where
  result : ℤ
  retValue : Option ℤ
  inst : WamrExtInstance

/-- `wamr_ext_instance_exec_main_func` -/
def wamrExtInstanceExecMainFunc (inst : WamrExtInstance) (answers : ExecAnswers) : Executed :=
  if inst.state ≠ .started ∨ answers.mainFound = false then ⟨-1, none, inst⟩
  else
    match answers.mainReturns with
    | none => ⟨-1, none, inst⟩
    | some value => ⟨0, some value, inst⟩

/-- The main function is executed on the instance as it is. -/
theorem wamrExtInstanceExecMainFunc_inst (inst : WamrExtInstance) (answers : ExecAnswers) :
    (wamrExtInstanceExecMainFunc inst answers).inst = inst := by
  rw [wamrExtInstanceExecMainFunc]
  split
  · rfl
  · split <;> rfl

/-- What destroying an instance gives: whether it had to be done, the results of the lookups
of `CleanupAppThreadInfo` if that was called, and the instance afterwards. -/
structure Destroyed where
  lookups : Option (Option ℕ × Option ExecEnvThreadInfo)
  inst : WamrExtInstance

/-- `wamr_ext_instance_destroy`. `CleanupAppThreadInfo` and `DoAppThreadExit` look up the
thread manager and the thread info of the main exec env. -/
def wamrExtInstanceDestroy (inst : WamrExtInstance) : Destroyed :=
  match inst.state with
  | .destroying | .destroyed => ⟨none, inst⟩
  | .new | .started | .ended =>
      ⟨inst.pMainExecEnv.map fun env =>
          (inst.getInstPthreadManager env, inst.getExecEnvThreadInfo env),
        { inst with
          state := .destroyed
          execEnvs := (inst.pMainExecEnv.map inst.execEnvs.erase).getD inst.execEnvs
          moduleInsts := (inst.wasmMainInstance.map inst.moduleInsts.erase).getD inst.moduleInsts
          pMainExecEnv := none
          wasmMainInstance := none }⟩

/-- Destroying the instance now finds the links it looks up: the thread manager is that of
the instance, and the thread info is that of the main thread. -/
def DestroySafe (inst : WamrExtInstance) : Prop :=
  ∀ lookups ∈ (wamrExtInstanceDestroy inst).lookups,
    lookups.1 = some inst.address ∧
      ∃ env, inst.pMainExecEnv = some env ∧ lookups.2 = some (mainThreadInfo env)

/-! ## What a start leaves -/

section Start

variable (inst : WamrExtInstance) (answers : StartAnswers)

/-- The links of an exec env to the instance. -/
def Links (inst : WamrExtInstance) (env : ℕ) : Prop :=
  inst.getInstPthreadManager env = some inst.address ∧
    inst.getExecEnvThreadInfo env = some (mainThreadInfo env)

/-- Linking the main exec env gives it its links, whatever the state set after it. -/
theorem linkMain_links (name : ℕ) (memory : WASMMemoryInstance) (state : InstanceState) :
    Links { linkMain inst name memory with state := state } name := by
  simp [Links, linkMain, WamrExtInstance.getInstPthreadManager, WamrExtInstance.getModuleInst,
    WamrExtInstance.getExecEnvThreadInfo]

/-- The end of a start goes well, or ends the instance. -/
theorem initializeMain_cases :
    initializeMain inst answers = (0, { inst with state := .started }) ∨
      initializeMain inst answers = (-1, { inst with state := .ended }) :=
  ite_eq_or_eq _ _ _

theorem initializeMain_eq :
    ∃ state, (initializeMain inst answers).2 = { inst with state := state } ∧
      state ≠ .new := by
  obtain well | ended := initializeMain_cases inst answers
  · rw [well]
    exact ⟨.started, rfl, by decide⟩
  · rw [ended]
    exact ⟨.ended, rfl, by decide⟩

/-- A start comes to nothing: there was nothing to start, or no exec env was made. -/
structure NothingStarted (after : WamrExtInstance) : Prop where
  state : after.state = .new
  env : after.pMainExecEnv = inst.pMainExecEnv ∨ after.pMainExecEnv = none

/-- A start leaves its main exec env without links. -/
structure LeftUnlinked (after : WamrExtInstance) : Prop where
  state : after.state = .ended
  env : ∃ env, after.pMainExecEnv = some env ∧ after.getInstPthreadManager env = none

/-- A start comes to the end of its set-up. -/
structure SetUp (after : WamrExtInstance) : Prop where
  state : after.state ≠ .new
  env : ∃ env, after.pMainExecEnv = some env ∧ Links after env

variable {inst answers}

/-- The main exec env that is made has the name that was free. -/
theorem instantiateMain_env {memory : WASMMemoryInstance}
    (instantiated : answers.instantiated = some memory)
    (execEnvCreated : answers.execEnvCreated = true) :
    (instantiateMain inst answers).pMainExecEnv = some inst.unused ∧
      (instantiateMain inst answers).execEnvs.lookup inst.unused =
        some { moduleInst := inst.unused } := by
  simp [instantiateMain, instantiated, execEnvCreated]

/-- A start that is not answered with an exec env stops there. -/
theorem wamrExtInstanceStart_noEnv (fresh : inst.state = .new)
    (noEnv : answers.instantiated = none ∨ answers.execEnvCreated = false) :
    wamrExtInstanceStart inst answers = (-1, instantiateMain inst answers) := by
  cases instantiated : answers.instantiated with
  | none => simp [wamrExtInstanceStart, fresh, instantiated]
  | some memory =>
      have failed : answers.execEnvCreated = false :=
        noEnv.resolve_left (by simp [instantiated])
      simp [wamrExtInstanceStart, fresh, instantiated, failed]

/-- It comes to nothing. -/
theorem start_noEnv (fresh : inst.state = .new)
    (noEnv : answers.instantiated = none ∨ answers.execEnvCreated = false) :
    NothingStarted inst (wamrExtInstanceStart inst answers).2 := by
  rw [wamrExtInstanceStart_noEnv fresh noEnv]
  cases instantiated : answers.instantiated with
  | none =>
      simp only [instantiateMain, instantiated]
      exact ⟨fresh, Or.inl rfl⟩
  | some memory =>
      have failed : answers.execEnvCreated = false :=
        noEnv.resolve_left (by simp [instantiated])
      refine ⟨?_, Or.inr ?_⟩ <;> simp [instantiateMain, instantiated, failed, fresh]

/-- The memory that a start links: that of the module, or the enlarged one. -/
def LinkedMemory (inst : WamrExtInstance) (answers : StartAnswers)
    (memory linked : WASMMemoryInstance) : Prop :=
  (inst.config.maxMemory ≤ memory.pagesSize ∧ linked = memory) ∨
    (inst.config.maxMemory > memory.pagesSize ∧ ∃ newMem,
      answers.realloc inst.config.maxMemory = some newMem ∧
        linked = enlargedMemory memory inst.config.maxMemory newMem)

/-- **A start with an exec env** finds no room and ends the instance, or links a memory and goes
on to its end. -/
theorem wamrExtInstanceStart_env {memory : WASMMemoryInstance} (fresh : inst.state = .new)
    (instantiated : answers.instantiated = some memory)
    (execEnvCreated : answers.execEnvCreated = true) :
    (CannotEnlarge inst.config.maxMemory answers.realloc memory ∧
        wamrExtInstanceStart inst answers =
          (-1, { instantiateMain inst answers with
            state := .ended
            moduleInsts := (instantiateMain inst answers).moduleInsts.insert inst.unused
              { memory := abandonedMemory memory inst.config.maxMemory } })) ∨
      ∃ linked, LinkedMemory inst answers memory linked ∧
        wamrExtInstanceStart inst answers =
          initializeMain (linkMain (instantiateMain inst answers) inst.unused linked) answers := by
  obtain ⟨left, fits⟩ | ⟨left, noRoom⟩ | ⟨newMem, room, larger, left⟩ :=
    enlargeMemory_cases inst.config.maxMemory answers.realloc memory
  · refine Or.inr ⟨memory, Or.inl ⟨fits, rfl⟩, ?_⟩
    simp [wamrExtInstanceStart, fresh, instantiated, execEnvCreated, left]
  · refine Or.inl ⟨noRoom, ?_⟩
    simp [wamrExtInstanceStart, fresh, instantiated, execEnvCreated, left]
  · refine Or.inr ⟨_, Or.inr ⟨larger, newMem, room, rfl⟩, ?_⟩
    simp [wamrExtInstanceStart, fresh, instantiated, execEnvCreated, left]

/-- A start that links a memory has found room. -/
theorem LinkedMemory.room {memory linked : WASMMemoryInstance}
    (found : LinkedMemory inst answers memory linked) :
    ¬ CannotEnlarge inst.config.maxMemory answers.realloc memory := by
  rintro ⟨larger, noRoom⟩
  obtain ⟨fits, _⟩ | ⟨_, newMem, room, _⟩ := found
  · exact absurd larger (UInt32.not_lt.mpr fits)
  · rw [noRoom] at room
    cases room

/-- The end of a start, with whatever memory the enlarging leaves. -/
theorem setUp_initializeMain {memory : WASMMemoryInstance}
    (instantiated : answers.instantiated = some memory)
    (execEnvCreated : answers.execEnvCreated = true) (larger : WASMMemoryInstance) :
    SetUp (initializeMain (linkMain (instantiateMain inst answers) inst.unused larger)
      answers).2 := by
  obtain ⟨state, after, old⟩ :=
    initializeMain_eq (linkMain (instantiateMain inst answers) inst.unused larger) answers
  rw [after]
  exact ⟨old, inst.unused, (instantiateMain_env instantiated execEnvCreated).1,
    linkMain_links _ _ _ _⟩

variable (inst answers)

/-- **What a start of a new instance leaves**, whatever it is answered. -/
theorem wamrExtInstanceStart_new (fresh : inst.state = .new) :
    (¬ OutOfMemoryStart inst answers ∧
        NothingStarted inst (wamrExtInstanceStart inst answers).2) ∨
      (OutOfMemoryStart inst answers ∧ LeftUnlinked (wamrExtInstanceStart inst answers).2) ∨
      (¬ OutOfMemoryStart inst answers ∧ SetUp (wamrExtInstanceStart inst answers).2) := by
  by_cases noEnv : answers.instantiated = none ∨ answers.execEnvCreated = false
  · left
    refine ⟨?_, start_noEnv fresh noEnv⟩
    rintro ⟨_, execEnvCreated, memory, instantiated, _⟩
    simp [execEnvCreated, instantiated] at noEnv
  · obtain ⟨made, created⟩ := not_or.mp noEnv
    obtain ⟨memory, instantiated⟩ := Option.ne_none_iff_exists'.mp made
    have execEnvCreated : answers.execEnvCreated = true := Bool.not_eq_false _ |>.mp created
    have entered : OutOfMemoryStart inst answers ↔
        CannotEnlarge inst.config.maxMemory answers.realloc memory := by
      simp [OutOfMemoryStart, fresh, execEnvCreated, instantiated]
    rw [entered]
    obtain ⟨noRoom, after⟩ | ⟨linked, found, after⟩ :=
      wamrExtInstanceStart_env fresh instantiated execEnvCreated
    · obtain ⟨env, named⟩ : (instantiateMain inst answers).pMainExecEnv = some inst.unused ∧ _ :=
        instantiateMain_env instantiated execEnvCreated
      rw [after]
      refine Or.inr (Or.inl ⟨noRoom, rfl, inst.unused, env, ?_⟩)
      simp [WamrExtInstance.getInstPthreadManager, WamrExtInstance.getModuleInst, named]
    · rw [after]
      exact Or.inr (Or.inr ⟨found.room, setUp_initializeMain instantiated execEnvCreated linked⟩)

/-- A start of an instance that is not new changes nothing. -/
theorem wamrExtInstanceStart_not_new (old : inst.state ≠ .new) :
    wamrExtInstanceStart inst answers = (-1, inst) := by
  rw [wamrExtInstanceStart, if_pos old]

end Start

/-! ## Runs of calls -/

/-- The calls on an instance before it is destroyed, and the ticks of the loop that find
an exception or none. -/
inductive ApiCall where
  | setOpt (opt : WamrExtInstanceOpt)
  | start (answers : StartAnswers)
  | execMainFunc (answers : ExecAnswers)
  | loopTick (exception : Bool)

/-- One call. -/
def apiStep : Step WamrExtInstance ApiCall
  | inst, .setOpt opt => some (wamrExtInstanceSetOpt inst opt).2
  | inst, .start answers => some (wamrExtInstanceStart inst answers).2
  | inst, .execMainFunc answers => some (wamrExtInstanceExecMainFunc inst answers).inst
  | inst, .loopTick exception =>
      some (if inst.state = .started ∧ exception then { inst with state := .ended } else inst)

/-- A start does not find the host without room. -/
def RoomToEnlarge (inst : WamrExtInstance) : ApiCall → Prop
  | .start answers => ¬ OutOfMemoryStart inst answers
  | _ => True

/-- What all but one start keep: an instance that is new has no main exec env, and a main
exec env has its links. -/
structure Linked (inst : WamrExtInstance) : Prop where
  fresh : inst.state = .new → inst.pMainExecEnv = none
  links : ∀ env, inst.pMainExecEnv = some env → Links inst env

theorem linked_create (address : ℕ) (instDefaultConf : WamrExtInstanceConfig) :
    Linked (wamrExtInstanceCreate address instDefaultConf) :=
  ⟨fun _ => rfl, fun _ made => by cases made⟩

section Steps

variable {inst after : WamrExtInstance} {call : ApiCall}

theorem Linked.step (linked : Linked inst) (room : RoomToEnlarge inst call)
    (taken : apiStep inst call = some after) : Linked after := by
  cases call with
  | setOpt opt =>
      cases taken
      exact ⟨linked.fresh, linked.links⟩
  | start answers =>
      cases taken
      by_cases fresh : inst.state = .new
      · obtain ⟨_, nothing⟩ | ⟨stuck, _⟩ | ⟨_, done⟩ :=
          wamrExtInstanceStart_new inst answers fresh
        · have noEnv : (wamrExtInstanceStart inst answers).2.pMainExecEnv = none :=
            nothing.env.elim (fun same => same.trans (linked.fresh fresh)) id
          refine ⟨fun _ => noEnv, fun env made => ?_⟩
          rw [noEnv] at made
          cases made
        · exact absurd stuck room
        · obtain ⟨env, main, links⟩ := done.env
          refine ⟨fun new => absurd new done.state, fun other made => ?_⟩
          rw [main] at made
          cases made
          exact links
      · rw [wamrExtInstanceStart_not_new inst answers fresh]
        exact linked
  | execMainFunc answers =>
      cases taken
      rw [wamrExtInstanceExecMainFunc_inst]
      exact linked
  | loopTick exception =>
      cases taken
      split
      · refine ⟨fun new => ?_, linked.links⟩
        cases new
      · exact linked

/-- A start that finds no room leaves an exec env without links. -/
theorem leftUnlinked_of_no_room (stuck : ¬ RoomToEnlarge inst call)
    (taken : apiStep inst call = some after) : LeftUnlinked after := by
  cases call with
  | start answers =>
      cases taken
      have outOfMemory : OutOfMemoryStart inst answers := not_not.mp stuck
      obtain ⟨room, _⟩ | ⟨_, unlinked⟩ | ⟨room, _⟩ :=
        wamrExtInstanceStart_new inst answers outOfMemory.1
      · exact absurd outOfMemory room
      · exact unlinked
      · exact absurd outOfMemory room
  | setOpt opt => exact absurd trivial stuck
  | execMainFunc answers => exact absurd trivial stuck
  | loopTick exception => exact absurd trivial stuck

/-- No later call makes the links. -/
theorem LeftUnlinked.lasts (unlinked : LeftUnlinked inst)
    (taken : apiStep inst call = some after) : LeftUnlinked after := by
  have ended := unlinked.state
  cases call with
  | setOpt opt =>
      cases taken
      exact ⟨unlinked.state, unlinked.env⟩
  | start answers =>
      cases taken
      rw [wamrExtInstanceStart_not_new inst answers (by rw [ended]; decide)]
      exact unlinked
  | execMainFunc answers =>
      cases taken
      rw [wamrExtInstanceExecMainFunc_inst]
      exact unlinked
  | loopTick exception =>
      cases taken
      rw [if_neg (by rw [ended]; simp)]
      exact unlinked

/-- What destroying looks up, when there is something to destroy. -/
theorem lookups_eq_some {lookups : Option ℕ × Option ExecEnvThreadInfo}
    (found : lookups ∈ (wamrExtInstanceDestroy inst).lookups) :
    ∃ env, inst.pMainExecEnv = some env ∧
      lookups = (inst.getInstPthreadManager env, inst.getExecEnvThreadInfo env) := by
  rw [wamrExtInstanceDestroy] at found
  cases state : inst.state with
  | new | started | ended =>
      simp only [state] at found
      obtain ⟨env, main, rfl⟩ := Option.map_eq_some_iff.mp found
      exact ⟨env, main, rfl⟩
  | destroying | destroyed =>
      simp only [state] at found
      cases found

theorem Linked.destroySafe (linked : Linked inst) : DestroySafe inst := by
  intro lookups found
  obtain ⟨env, main, rfl⟩ := lookups_eq_some found
  obtain ⟨manager, threadInfo⟩ := linked.links env main
  exact ⟨manager, env, main, threadInfo⟩

theorem LeftUnlinked.not_destroySafe (unlinked : LeftUnlinked inst) : ¬ DestroySafe inst := by
  intro safe
  obtain ⟨env, main, noManager⟩ := unlinked.env
  have found : (inst.getInstPthreadManager env, inst.getExecEnvThreadInfo env) ∈
      (wamrExtInstanceDestroy inst).lookups := by
    simp only [wamrExtInstanceDestroy, unlinked.state, main]
    rfl
  have manager := (safe _ found).1
  rw [noManager] at manager
  cases manager

end Steps

/-- **When destroying is safe.** After any calls on an instance, destroying it finds the
links of the main exec env exactly when no start found the host without room for the
enlarged memory. -/
theorem destroy_safe_iff (address : ℕ) (instDefaultConf : WamrExtInstanceConfig)
    {calls : List ApiCall} {inst : WamrExtInstance}
    (reached : run apiStep (wamrExtInstanceCreate address instDefaultConf) calls = some inst) :
    DestroySafe inst ↔
      Meets apiStep RoomToEnlarge (wamrExtInstanceCreate address instDefaultConf) calls :=
  run_safe_iff Linked.step (fun _ => leftUnlinked_of_no_room) LeftUnlinked.lasts
    Linked.destroySafe LeftUnlinked.not_destroySafe (linked_create address instDefaultConf)
    reached

/-- The memory of a module with one page, its heap in the upper half. -/
def onePageMemory : WASMMemoryInstance where
  numBytesPerPage := 65536
  curPageCount := 1
  maxPageCount := 1
  memoryDataSize := 65536
  memoryData := 0x10000
  memoryDataEnd := 0x20000
  heapData := 0x18000
  heapDataEnd := 0x20000
  heapHandle := some ⟨0x18000, 32768⟩
  memBoundCheck1Byte := 65535
  memBoundCheck2Bytes := 65534
  memBoundCheck4Bytes := 65532
  memBoundCheck8Bytes := 65528
  memBoundCheck16Bytes := 65520

/-- A start that goes well but for the host's answer to the request for memory. -/
def startWith (realloc : UInt32 → Option ℕ) : StartAnswers where
  instantiated := some onePageMemory
  execEnvCreated := true
  realloc := realloc
  initializeFound := true
  initializeReturns := true

/-- A new instance with the built-in defaults. -/
def newInstance : WamrExtInstance := wamrExtInstanceCreate 0x5000 (.new "/tmp")

/-- A start that finds room can be undone. -/
theorem started_destroySafe :
    DestroySafe (wamrExtInstanceStart newInstance (startWith fun _ => some 0x100000)).2 ↔
      Meets apiStep RoomToEnlarge newInstance [.start (startWith fun _ => some 0x100000)] :=
  destroy_safe_iff 0x5000 (.new "/tmp") rfl

/-- After a start that found no room for the default limit of 4 MiB, destroying looks up a
null thread manager. -/
theorem no_room_destroy_unsafe :
    ¬ DestroySafe (wamrExtInstanceStart newInstance (startWith fun _ => none)).2 := by
  intro safe
  have found : (none, none) ∈ (wamrExtInstanceDestroy
      (wamrExtInstanceStart newInstance (startWith fun _ => none)).2).lookups := by
    decide
  have manager := (safe _ found).1
  cases manager

end Instance
end WamrExt
