import WamrExt.Instance.Lifecycle
import WamrExt.Instance.LoopTick
import WamrExt.Instance.Reclaim

/-!
# Concurrent calls on an instance

Any number of callers start, execute, set options of and destroy one instance, while the
loop thread examines it. A call is cut into steps where others can come in between: each
section under `instanceLock` is one step, and so is each use of the runtime between two
sections. `execFuncLock` is held from its step to the return of the call.

The loop thread holds `instanceLock` over two steps, the read of the state and the rest of
the examination, since calls that do not need the lock go on meanwhile. It does not hold it
during the exception callback, which may make calls itself, as one of the callers.

What the runtime and the host answer comes with each step. The record of the instance itself
outlives its calls here. When its last reference goes is the subject of the drop of an
instance.
-/

set_option autoImplicit false

namespace WamrExt
namespace Instance

open Transition Pthread

/-- The calls. -/
inductive ApiOp where
  | start
  | execMainFunc
  | destroy
  | setOpt (opt : WamrExtInstanceOpt)
  deriving DecidableEq

/-- Where a caller is: outside of any call, before the locks of a call, before its first
section, between the steps of a start, of an execution of the main function, and of a
destroy. -/
inductive CallPoint where
  | idle
  | waiting (op : ApiOp)
  | checking (op : ApiOp)
  | instantiating
  | creating
  | enlarging
  | linking
  | initializing
  | settling (started : Bool)
  | lookingUp
  | inMain
  | cleaning (bRunDtor : Bool)
  | dtors
  | closing
  | destroyingEnv
  | destroyingInst
  | marking
  deriving DecidableEq

/-- The points of a call that holds `execFuncLock`. -/
def CallPoint.Locked : CallPoint → Prop
  | .idle | .waiting _ => False
  | _ => True

/-- The instance with its callers and the loop thread. `handle` says whether the handle of
the embedder is still set. `seen` is the state that the loop thread has read while it holds
`instanceLock`. No step reads the last field, the states in which an exception was reported
through the callback. -/
structure Callers where
  target : ℕ
  inst : WamrExtInstance
  handle : Bool := true
  execFuncLock : Option ℕ := none
  points : ℕ → CallPoint := fun _ => .idle
  loop : LoopTick
  seen : Option InstanceState := none
  callbackStates : List InstanceState := []

/-- What a step of a call can be answered. -/
structure CallAnswers where
  start : StartAnswers
  exec : ExecAnswers

/-- The steps: a caller passes the null check of a call, a caller goes on, the loop thread
takes `instanceLock` to examine the instance, and the sections of the loop thread. -/
inductive CallersStep where
  | call (caller : ℕ) (op : ApiOp)
  | go (caller : ℕ) (answers : CallAnswers)
  | loopEnter
  | loop (a : TickStep)

/-! ## The parts of a start and a destroy -/

namespace WamrExtInstance

/-- `wasm_runtime_instantiate`, with the result stored in the instance. -/
def instantiate (inst : WamrExtInstance) (instantiated : Option WASMMemoryInstance) :
    WamrExtInstance :=
  match instantiated with
  | none => { inst with wasmMainInstance := none }
  | some memory =>
      { inst with
        wasmMainInstance := some inst.unused
        moduleInsts := inst.moduleInsts.insert inst.unused { memory := memory }
        unused := inst.unused + 1 }

/-- `wasm_runtime_create_exec_env`, with the result stored in the instance. The exec env has
the name of the module instance. -/
def createExecEnv (inst : WamrExtInstance) (name : ℕ) (execEnvCreated : Bool) :
    WamrExtInstance :=
  if execEnvCreated then
    { inst with
      pMainExecEnv := some name
      execEnvs := inst.execEnvs.insert name { moduleInst := name } }
  else { inst with pMainExecEnv := none }

/-- The memory of the main module instance changes. -/
def setMemory (inst : WamrExtInstance) (name : ℕ) (memory : WASMMemoryInstance) :
    WamrExtInstance :=
  { inst with moduleInsts := inst.moduleInsts.insert name { memory := memory } }

/-- `wasm_exec_env_destroy` on the main exec env, if there is one. -/
def destroyExecEnv (inst : WamrExtInstance) : WamrExtInstance :=
  { inst with
    execEnvs := (inst.pMainExecEnv.map inst.execEnvs.erase).getD inst.execEnvs
    pMainExecEnv := none }

/-- `wasm_runtime_deinstantiate` on the main module instance, if there is one. -/
def deinstantiate (inst : WamrExtInstance) : WamrExtInstance :=
  { inst with
    moduleInsts := (inst.wasmMainInstance.map inst.moduleInsts.erase).getD inst.moduleInsts
    wasmMainInstance := none }

end WamrExtInstance

/-! ## Steps -/

namespace Callers

/-- A caller comes to a point of its call, and leaves the instance as given. -/
def goesTo (s : Callers) (caller : ℕ) (point : CallPoint) (inst : WamrExtInstance) : Callers :=
  { s with inst := inst, points := Function.update s.points caller point }

/-- A call that holds `execFuncLock` returns, and leaves the instance as given. -/
def returns (s : Callers) (caller : ℕ) (inst : WamrExtInstance) : Callers :=
  { s.goesTo caller .idle inst with execFuncLock := none }

@[simp]
theorem goesTo_points_self (s : Callers) (caller : ℕ) (point : CallPoint)
    (inst : WamrExtInstance) : (s.goesTo caller point inst).points caller = point :=
  Function.update_self _ _ _

@[simp]
theorem returns_points_self (s : Callers) (caller : ℕ) (inst : WamrExtInstance) :
    (s.returns caller inst).points caller = .idle :=
  Function.update_self _ _ _

/-- The first section of a call: its check of the state. -/
def check (s : Callers) (caller : ℕ) : ApiOp → Callers
  | .start =>
      if s.inst.state = .new then s.goesTo caller .instantiating s.inst
      else s.returns caller s.inst
  | .execMainFunc =>
      if s.inst.state = .started then s.goesTo caller .lookingUp s.inst
      else s.returns caller s.inst
  | .destroy =>
      match s.inst.state with
      | .destroying | .destroyed => { s.returns caller s.inst with handle := false }
      | .new | .started | .ended =>
          s.goesTo caller (.cleaning (s.inst.state = .started))
            { s.inst with state := .destroying }
  | .setOpt _ => s.returns caller s.inst

/-- The enlarging block, on the default memory of the main module instance. -/
def enlarge (s : Callers) (caller name : ℕ) (memory : WASMMemoryInstance)
    (realloc : UInt32 → Option ℕ) : Callers :=
  match enlargeMemory s.inst.config.maxMemory realloc memory with
  | .outOfMemory abandoned =>
      s.goesTo caller (.settling false) (s.inst.setMemory name abandoned)
  | .untouched => s.goesTo caller .linking s.inst
  | .enlarged larger => s.goesTo caller .linking (s.inst.setMemory name larger)

/-- A step of a caller. A section under `instanceLock` waits until the loop thread does not
hold it. -/
def go (s : Callers) (caller : ℕ) (answers : CallAnswers) : Option Callers :=
  match s.points caller with
  | .idle => none
  | .waiting (.setOpt opt) =>
      if s.seen = none then
        some (s.goesTo caller .idle (wamrExtInstanceSetOpt s.inst opt).2)
      else none
  | .waiting op =>
      if s.execFuncLock = none then
        some { s.goesTo caller (.checking op) s.inst with execFuncLock := some caller }
      else none
  | .checking op => if s.seen = none then some (s.check caller op) else none
  | .instantiating =>
      some (match answers.start.instantiated with
        | none => s.returns caller (s.inst.instantiate none)
        | some memory => s.goesTo caller .creating (s.inst.instantiate (some memory)))
  | .creating =>
      s.inst.wasmMainInstance.map fun name =>
        if answers.start.execEnvCreated then
          s.goesTo caller .enlarging (s.inst.createExecEnv name true)
        else s.returns caller (s.inst.createExecEnv name false)
  | .enlarging =>
      s.inst.wasmMainInstance.bind fun name =>
        (s.inst.moduleInsts.lookup name).map fun moduleInst =>
          s.enlarge caller name moduleInst.memory answers.start.realloc
  | .linking =>
      s.inst.wasmMainInstance.bind fun name =>
        (s.inst.moduleInsts.lookup name).map fun moduleInst =>
          s.goesTo caller .initializing (linkMain s.inst name moduleInst.memory)
  | .initializing =>
      some (s.goesTo caller
        (.settling (answers.start.initializeFound && answers.start.initializeReturns)) s.inst)
  | .settling started =>
      if s.seen = none then
        some (s.returns caller { s.inst with state := if started then .started else .ended })
      else none
  | .lookingUp =>
      some (if answers.exec.mainFound then s.goesTo caller .inMain s.inst
        else s.returns caller s.inst)
  | .inMain => some (s.returns caller s.inst)
  | .cleaning bRunDtor =>
      some (s.goesTo caller (if bRunDtor then .dtors else .closing) s.inst)
  | .dtors => some (s.goesTo caller .closing s.inst)
  | .closing => some (s.goesTo caller .destroyingEnv s.inst)
  | .destroyingEnv => some (s.goesTo caller .destroyingInst s.inst.destroyExecEnv)
  | .destroyingInst => some (s.goesTo caller .marking s.inst.deinstantiate)
  | .marking =>
      if s.seen = none then
        some { s.returns caller { s.inst with state := .destroyed } with handle := false }
      else none

/-- The examination of the instance goes on under `instanceLock` and ends: it finds what the
state that was read allows, and reports an exception if a callback is set. -/
def examine (s : Callers) (finding : Finding) : Option Callers :=
  s.seen.bind fun state =>
    if finding = .exception (!s.inst.config.exceptionCB.func.isSome) then none
    else
      (finding.inState state).bind fun left =>
        (tickStep s.loop (.examine finding)).map fun loop =>
          { s with
            inst := { s.inst with state := left }
            loop := loop
            seen := none
            callbackStates := s.callbackStates ++
              if finding = .exception true then [state] else [] }

/-- A section of the loop thread. The end of the callback takes `instanceLock` again. Names
of instances are not used again. -/
def tick (s : Callers) : TickStep → Option Callers
  | .examine finding =>
      if s.loop.pInst = some s.target then s.examine finding
      else (tickStep s.loop (.examine finding)).map fun loop => { s with loop := loop }
  | .callbackReturn =>
      if s.seen = none then
        (tickStep s.loop .callbackReturn).map fun loop => { s with loop := loop }
      else none
  | .create inst =>
      if inst = s.target then none
      else (tickStep s.loop (.create inst)).map fun loop => { s with loop := loop }
  | a => (tickStep s.loop a).map fun loop => { s with loop := loop }

end Callers

/-- One step, when it can be taken. -/
def callersStep : Step Callers CallersStep
  | s, .call caller op =>
      if s.points caller = .idle ∧ s.handle = true then
        some (s.goesTo caller (.waiting op) s.inst)
      else none
  | s, .go caller answers => s.go caller answers
  | s, .loopEnter =>
      if s.loop.point = .holding ∧ s.loop.pInst = some s.target ∧ s.seen = none then
        some { s with seen := some s.inst.state }
      else none
  | s, .loop a => s.tick a

/-- An instance that was just created and appended to the list of all instances. -/
def callersStart (target address : ℕ) (instDefaultConf : WamrExtInstanceConfig)
    (others : List ℕ) : Callers where
  target := target
  inst := wamrExtInstanceCreate address instDefaultConf
  loop := { gAllInstanceList := others ++ [target] }

end Instance
end WamrExt
