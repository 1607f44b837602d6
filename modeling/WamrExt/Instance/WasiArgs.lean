import Mathlib.Data.List.Sort
import WamrExt.Instance.Lifecycle
import WamrExt.Lib.LatestValue

/-!
# The WASI arguments of an instance

All instances of a module are made from one module record of the runtime, and what an instance is
given goes through it: a start stores its arguments in the record, and instantiating reads them
there. The starts of many instances can run at the same time. Each of them first builds arrays of
its own from the configuration of its instance, and duplicates the standard streams of the host.
The store and the instantiation are then done under one lock, `gWasmLock`.

So an instance is made with what its own start has built (`instances_keep_own_args`).

A start reads the configuration without the lock under which options are set. Options are set
between the starts of an instance here.
-/

set_option autoImplicit false

namespace WamrExt
namespace Instance

open Transition LatestValue

/-! ## Arrays -/

/-- The entries of a map. -/
def pairs (m : StringMap) : List (String × String) := m.entries.map fun e => (e.1, e.2)

/-- The entries of a map in the order of their keys, in which a loop goes through them. -/
def inOrder (m : StringMap) : List (String × String) :=
  (pairs m).insertionSort fun a b => a.1 ≤ b.1

/-- The arrays that a start builds. -/
structure StartArrays where
  preOpenHostDirs : List String := []
  preOpenMapDirs : List String := []
  envVars : List String := []
  argv : List String := []
  deriving DecidableEq, Repr

/-- The arguments that are stored in the module record. The streams are standard input, standard
output and standard error. -/
structure WasiArgs where
  arrays : StartArrays := {}
  stdio : Fin 3 → ℤ := fun _ => -1

/-- An environment variable as it is passed on. -/
def envVarString (p : String × String) : String := p.1 ++ "=" ++ p.2

/-! ## Starts -/

/-- Where a start is: before each lock, at an entry of each of the four loops, at a stream, and at
each statement under `gWasmLock`. -/
inductive StartPoint where
  | waiting
  | checking
  | dirs (n : ℕ)
  /-- The host directory of the entry is pushed. -/
  | mapDir (n : ℕ)
  | envVars (n : ℕ)
  | args (n : ℕ)
  | dup (k : Fin 3)
  | openOsfhandle (k : Fin 3)
  | lockingWasm
  | setting
  | instantiating
  | linking
  | initializing
  | settling (started : Bool)
  | returned
  deriving DecidableEq, Repr

/-- The start holds `execFuncLock` of its instance. -/
def StartPoint.ExecLocked : StartPoint → Prop
  | .waiting | .returned => False
  | _ => True

/-- The start holds `gWasmLock`. -/
def StartPoint.WasmLocked : StartPoint → Prop
  | .setting | .instantiating | .linking => True
  | _ => False

/-- A call of `wamr_ext_instance_start`, with its instance and its local variables. -/
structure StartCall where
  inst : ℕ
  point : StartPoint := .waiting
  temp : WasiArgs := {}

/-- A module with its instances. No step reads the last field, the descriptors that the calls have
stored in their local variables for the streams. -/
structure Starts where
  configs : ℕ → WamrExtInstanceConfig
  states : ℕ → InstanceState := fun _ => .new
  execFuncLock : ℕ → Option ℕ := fun _ => none
  gWasmLock : Option ℕ := none
  moduleArgs : WasiArgs := {}
  calls : ℕ → Option StartCall := fun _ => none
  stored : List ((ℕ × Fin 3) × ℤ) := []

/-- How a statement ends that can fail. -/
inductive StartAnswer where
  | done
  | failed
  | outOfMemory
  deriving DecidableEq, Repr

/-- The steps: a call passes the null check, a call goes on, and it duplicates and opens a stream.
In between options are set. -/
inductive StartAction where
  | enter (c i : ℕ)
  | go (c : ℕ) (answer : StartAnswer)
  | dup (c : ℕ) (newFD : ℤ)
  | openOsfhandle (c : ℕ) (handle : ℤ)
  | setOpt (i : ℕ) (opt : WamrExtInstanceOpt)

namespace StartCall

variable (call : StartCall)

def goesTo (point : StartPoint) : StartCall := { call with point := point }

/-- The arrays become longer. -/
def pushes (point : StartPoint) (arrays : StartArrays) : StartCall :=
  { call with point := point, temp := { call.temp with arrays := arrays } }

/-- A descriptor is stored for a stream. -/
def stores (point : StartPoint) (k : Fin 3) (fd : ℤ) : StartCall :=
  { call with
    point := point
    temp := { call.temp with stdio := Function.update call.temp.stdio k fd } }

end StartCall

namespace Starts

variable (s : Starts)

/-- A module whose instances have just been created. -/
def created (configs : ℕ → WamrExtInstanceConfig) : Starts where
  configs := configs

def setCall (c : ℕ) (call : StartCall) : Starts :=
  { s with calls := Function.update s.calls c (some call) }

def setExecFuncLock (i : ℕ) (holder : Option ℕ) : Starts :=
  { s with execFuncLock := Function.update s.execFuncLock i holder }

def setState (i : ℕ) (state : InstanceState) : Starts :=
  { s with states := Function.update s.states i state }

/-- A call returns and releases the lock of its instance. -/
def returns (c : ℕ) (call : StartCall) : Starts :=
  (s.setCall c (call.goesTo .returned)).setExecFuncLock call.inst none

/-- `gWasmLock` is released. -/
def unlockWasm : Starts := { s with gWasmLock := none }

end Starts

/-- The stream after the given one. -/
def nextStream (k : Fin 3) : StartPoint :=
  if next : k.val + 1 < 3 then .dup ⟨k.val + 1, next⟩ else .lockingWasm

/-- The next statement of a call. A loop that has no entry left goes on to what comes after it. -/
def Starts.go (s : Starts) (c : ℕ) (call : StartCall) (answer : StartAnswer) : Option Starts :=
  let config := s.configs call.inst
  let arrays := call.temp.arrays
  match call.point with
  | .waiting =>
      if s.execFuncLock call.inst = none then
        some ((s.setCall c (call.goesTo .checking)).setExecFuncLock call.inst (some c))
      else none
  | .checking =>
      some (if s.states call.inst = .new then s.setCall c (call.goesTo (.dirs 0))
        else s.returns c call)
  | .dirs n =>
      some (s.setCall c (match (inOrder config.preOpenDirs)[n]? with
        | some p => call.pushes (.mapDir n)
            { arrays with preOpenHostDirs := arrays.preOpenHostDirs ++ [p.2] }
        | none => call.goesTo (.envVars 0)))
  | .mapDir n =>
      (inOrder config.preOpenDirs)[n]?.map fun p =>
        s.setCall c (call.pushes (.dirs (n + 1))
          { arrays with preOpenMapDirs := arrays.preOpenMapDirs ++ [p.1] })
  | .envVars n =>
      some (s.setCall c (match (inOrder config.envVars)[n]? with
        | some p => call.pushes (.envVars (n + 1))
            { arrays with envVars := arrays.envVars ++ [envVarString p] }
        | none => call.goesTo (.args 0)))
  | .args n =>
      some (s.setCall c (match config.args[n]? with
        | some arg => call.pushes (.args (n + 1)) { arrays with argv := arrays.argv ++ [arg] }
        | none => call.goesTo (.dup 0)))
  | .dup _ | .openOsfhandle _ | .returned => none
  | .lockingWasm =>
      if s.gWasmLock = none then
        some { s.setCall c (call.goesTo .setting) with gWasmLock := some c }
      else none
  | .setting =>
      some { s.setCall c (call.goesTo .instantiating) with moduleArgs := call.temp }
  | .instantiating =>
      some (match answer with
        | .done => s.setCall c (call.goesTo .linking)
        | .failed | .outOfMemory => (s.returns c call).unlockWasm)
  | .linking =>
      -- the exec env, the enlarged memory, and the links to the instance
      some (match answer with
        | .done => (s.setCall c (call.goesTo .initializing)).unlockWasm
        | .failed => (s.returns c call).unlockWasm
        | .outOfMemory => ((s.returns c call).setState call.inst .ended).unlockWasm)
  | .initializing => some (s.setCall c (call.goesTo (.settling (answer = .done))))
  | .settling started =>
      some ((s.returns c call).setState call.inst (if started then .started else .ended))

/-- One step. A descriptor is -1 when the stream has none, or cannot be duplicated. -/
def startStep : Step Starts StartAction := fun s a =>
  match a with
  | .enter c i => if (s.calls c).isNone then some (s.setCall c { inst := i }) else none
  | .go c answer => (s.calls c).bind fun call => s.go c call answer
  | .dup c newFD =>
      (s.calls c).bind fun call =>
        match call.point with
        | .dup k =>
            some { s.setCall c
                (call.stores (if newFD = -1 then nextStream k else .openOsfhandle k) k newFD) with
              stored := s.stored ++ [((c, k), newFD)] }
        | _ => none
  | .openOsfhandle c handle =>
      (s.calls c).bind fun call =>
        match call.point with
        | .openOsfhandle k =>
            some { s.setCall c (call.stores (nextStream k) k handle) with
              stored := s.stored ++ [((c, k), handle)] }
        | _ => none
  | .setOpt i opt =>
      if s.execFuncLock i = none then
        some { s with
          configs := Function.update s.configs i (wamrExtSetInstanceOpt (s.configs i) opt).2 }
      else none

/-! ## What a start has built -/

/-- The arrays hold what the configuration says: a host and a mapped directory at each position
for each preopened directory, a string for each environment variable, and the arguments. -/
structure BuiltFrom (config : WamrExtInstanceConfig) (arrays : StartArrays) : Prop where
  positions : arrays.preOpenHostDirs.length = arrays.preOpenMapDirs.length
  dirs : (arrays.preOpenMapDirs.zip arrays.preOpenHostDirs).Perm (pairs config.preOpenDirs)
  envVars : arrays.envVars.Perm ((pairs config.envVars).map envVarString)
  argv : arrays.argv = config.args

/-- The arrays after the loops. -/
def builtArrays (config : WamrExtInstanceConfig) : StartArrays where
  preOpenHostDirs := (inOrder config.preOpenDirs).map Prod.snd
  preOpenMapDirs := (inOrder config.preOpenDirs).map Prod.fst
  envVars := (inOrder config.envVars).map envVarString
  argv := config.args

theorem inOrder_perm (m : StringMap) : (inOrder m).Perm (pairs m) :=
  List.perm_insertionSort _ _

theorem builtFrom_builtArrays (config : WamrExtInstanceConfig) :
    BuiltFrom config (builtArrays config) where
  positions := by simp [builtArrays]
  dirs := by
    have zip : (builtArrays config).preOpenMapDirs.zip (builtArrays config).preOpenHostDirs =
        inOrder config.preOpenDirs := by
      rw [builtArrays, List.zip_map']
      exact List.map_id _
    rw [zip]
    exact inOrder_perm config.preOpenDirs
  envVars := (inOrder_perm config.envVars).map envVarString
  argv := rfl

/-- The arrays as far as the loops have come. They are not looked at after the instantiation. -/
def StartPoint.Built (config : WamrExtInstanceConfig) (arrays : StartArrays) : StartPoint → Prop
  | .waiting | .checking => arrays = {}
  | .dirs n =>
      arrays = {
        preOpenHostDirs := (builtArrays config).preOpenHostDirs.take n
        preOpenMapDirs := (builtArrays config).preOpenMapDirs.take n }
  | .mapDir n =>
      arrays = {
        preOpenHostDirs := (builtArrays config).preOpenHostDirs.take (n + 1)
        preOpenMapDirs := (builtArrays config).preOpenMapDirs.take n }
  | .envVars n =>
      arrays = { builtArrays config with
        envVars := (builtArrays config).envVars.take n
        argv := [] }
  | .args n => arrays = { builtArrays config with argv := config.args.take n }
  | .dup _ | .openOsfhandle _ | .lockingWasm | .setting | .instantiating =>
      arrays = builtArrays config
  | .linking | .initializing | .settling _ | .returned => True

/-- Without the lock nothing has been built. -/
theorem StartPoint.Built.unlocked {config other : WamrExtInstanceConfig} {arrays : StartArrays}
    {point : StartPoint} (free : ¬ point.ExecLocked) (built : point.Built config arrays) :
    point.Built other arrays := by
  cases point with
  | waiting => exact built
  | returned => trivial
  | _ => exact absurd trivial free

/-- The stream has been gone through. -/
def StartPoint.Stored (k : Fin 3) : StartPoint → Prop
  | .dup j | .openOsfhandle j => k < j
  | .lockingWasm | .setting | .instantiating => True
  | _ => False

/-! ## The invariant -/

/-- A call holds the locks of its point, its local variables are as far as its point says, and its
arguments are in the module record when it instantiates. -/
structure CallOk (s : Starts) (c : ℕ) (call : StartCall) : Prop where
  exec : call.point.ExecLocked → s.execFuncLock call.inst = some c
  wasm : call.point.WasmLocked → s.gWasmLock = some c
  built : call.point.Built (s.configs call.inst) call.temp.arrays
  stdio : ∀ k, call.point.Stored k → Latest s.stored (c, k) (call.temp.stdio k)
  slot : call.point = .instantiating → s.moduleArgs = call.temp

/-- All calls are so. -/
def StartsOk (s : Starts) : Prop := ∀ c call, s.calls c = some call → CallOk s c call

section Keeps

variable {s s' : Starts} {c : ℕ} {call : StartCall}

theorem startsOk_created (configs : ℕ → WamrExtInstanceConfig) :
    StartsOk (.created configs) := by
  intro c call known
  cases known

/-- A step of one call keeps the invariant when it does for this call, and the other calls do not
see it. -/
theorem StartsOk.change {next : StartCall} (ok : StartsOk s)
    (calls : s'.calls = Function.update s.calls c (some next)) (own : CallOk s' c next)
    (others : ∀ c' other, c' ≠ c → CallOk s c' other → CallOk s' c' other) : StartsOk s' := by
  rw [StartsOk, calls]
  refine (Function.forall_update_iff s.calls fun c' found =>
    ∀ other, found = some other → CallOk s' c' other).mpr ⟨?_, ?_⟩
  · rintro other ⟨⟩
    exact own
  · intro c' ne other known
    exact others c' other ne (ok c' other known)

/-- A step that changes its call only. -/
theorem StartsOk.setCall {next : StartCall} (ok : StartsOk s) (own : CallOk s c next) :
    StartsOk (s.setCall c next) :=
  ok.change rfl ⟨own.exec, own.wasm, own.built, own.stdio, own.slot⟩
    fun _ _ _ before => ⟨before.exec, before.wasm, before.built, before.stdio, before.slot⟩

/-- Nobody else holds `gWasmLock` beside a call that holds it. -/
theorem StartsOk.alone {next : StartCall} (ok : StartsOk s) (known : s.calls c = some call)
    (locked : call.point.WasmLocked) (leaves : ¬ next.point.WasmLocked) :
    ∀ c' other, Function.update s.calls c (some next) c' = some other →
      ¬ other.point.WasmLocked := by
  refine (Function.forall_update_iff s.calls fun _ found =>
    ∀ other, found = some other → ¬ other.point.WasmLocked).mpr ⟨?_, ?_⟩
  · rintro other ⟨⟩
    exact leaves
  · intro c' ne other here also
    have holder := ((ok c call known).wasm locked).symm.trans ((ok c' other here).wasm also)
    exact ne (Option.some.inj holder).symm

theorem StartsOk.unlockWasm (ok : StartsOk s)
    (free : ∀ c call, s.calls c = some call → ¬ call.point.WasmLocked) :
    StartsOk s.unlockWasm := by
  intro c call known
  have before := ok c call known
  exact ⟨before.exec, fun locked => absurd locked (free c call known), before.built,
    before.stdio, before.slot⟩

theorem StartsOk.setState (ok : StartsOk s) (i : ℕ) (state : InstanceState) :
    StartsOk (s.setState i state) := by
  intro c call known
  have before := ok c call known
  exact ⟨before.exec, before.wasm, before.built, before.stdio, before.slot⟩

/-- A call that returns releases the lock of its instance, which is its own. -/
theorem StartsOk.returns (ok : StartsOk s) (known : s.calls c = some call)
    (locked : call.point.ExecLocked) : StartsOk (s.returns c call) := by
  refine ok.change rfl ⟨nofun, nofun, trivial, nofun, nofun⟩ fun c' other ne before => ?_
  refine ⟨fun also => ?_, before.wasm, before.built, before.stdio, before.slot⟩
  have holds := before.exec also
  by_cases same : other.inst = call.inst
  · rw [same, (ok c call known).exec locked] at holds
    exact absurd (Option.some.inj holds).symm ne
  · exact (Function.update_of_ne same ..).trans holds

/-- A call goes on under the locks it has. -/
theorem CallOk.moves {next : StartCall} (ok : CallOk s c call) (inst : next.inst = call.inst)
    (exec : call.point.ExecLocked) (wasm : next.point.WasmLocked → call.point.WasmLocked)
    (built : next.point.Built (s.configs call.inst) next.temp.arrays)
    (stdio : ∀ k, next.point.Stored k →
      call.point.Stored k ∧ next.temp.stdio k = call.temp.stdio k)
    (before : next.point ≠ .instantiating) : CallOk s c next := by
  refine ⟨fun _ => ?_, fun locked => ok.wasm (wasm locked), ?_, fun k stored => ?_,
    fun here => absurd here before⟩
  · rw [inst]
    exact ok.exec exec
  · rw [inst]
    exact built
  · rw [(stdio k stored).2]
    exact ok.stdio k (stdio k stored).1

/-- A call takes the free lock of its instance. -/
theorem StartsOk.lockExec (ok : StartsOk s) (known : s.calls c = some call)
    (point : call.point = .waiting) (free : s.execFuncLock call.inst = none) :
    StartsOk ((s.setCall c (call.goesTo .checking)).setExecFuncLock call.inst (some c)) := by
  have built := (ok c call known).built
  rw [point] at built
  refine ok.change rfl ⟨fun _ => Function.update_self .., nofun, built, nofun, nofun⟩
    fun c' other _ before => ⟨fun also => ?_, before.wasm, before.built, before.stdio,
      before.slot⟩
  have holds := before.exec also
  refine (Function.update_of_ne (fun same => ?_) ..).trans holds
  rw [same, free] at holds
  cases holds

/-- A call takes the free `gWasmLock`. -/
theorem StartsOk.lockWasm (ok : StartsOk s) (known : s.calls c = some call)
    (point : call.point = .lockingWasm) (free : s.gWasmLock = none) :
    StartsOk { s.setCall c (call.goesTo .setting) with gWasmLock := some c } := by
  have own := ok c call known
  have exec := own.exec (by rw [point]; trivial)
  have built := own.built
  rw [point] at built
  refine ok.change rfl ⟨fun _ => exec, fun _ => rfl, built, fun k _ => ?_, nofun⟩
    fun c' other _ before => ⟨before.exec, fun also => ?_, before.built, before.stdio,
      before.slot⟩
  · exact own.stdio k (by rw [point]; trivial)
  · have holds := before.wasm also
    rw [free] at holds
    cases holds

/-- A call stores its arguments in the module record. Nobody else is about to instantiate, since
the lock is held by this call. -/
theorem StartsOk.setArgs (ok : StartsOk s) (known : s.calls c = some call)
    (point : call.point = .setting) :
    StartsOk { s.setCall c (call.goesTo .instantiating) with moduleArgs := call.temp } := by
  have own := ok c call known
  have exec := own.exec (by rw [point]; trivial)
  have wasm := own.wasm (by rw [point]; trivial)
  have built := own.built
  rw [point] at built
  refine ok.change rfl ⟨fun _ => exec, fun _ => wasm, built, fun k _ => ?_, fun _ => rfl⟩
    fun c' other ne before => ⟨before.exec, before.wasm, before.built, before.stdio,
      fun here => ?_⟩
  · exact own.stdio k (by rw [point]; trivial)
  · have holds := before.wasm (by rw [here]; trivial)
    exact absurd (Option.some.inj (wasm.symm.trans holds)).symm ne

/-! ## The loops -/

/-- An entry is pushed. -/
theorem take_pushed {α β : Type} {l : List α} {n : ℕ} {a : α} (f : α → β) (found : l[n]? = some a) :
    (l.map f).take (n + 1) = (l.map f).take n ++ [f a] := by
  rw [List.take_add_one, List.getElem?_map, found]
  rfl

/-- No entry is left. -/
theorem take_all {α β : Type} {l : List α} {n : ℕ} (f : α → β) (ended : l[n]? = none) :
    (l.map f).take n = l.map f := by
  apply List.take_of_length_le
  rw [List.length_map]
  exact List.getElem?_eq_none_iff.mp ended

/-- A call goes on in its loops, with arrays that are as far as its point says. -/
theorem StartsOk.builds {next : StartCall} (ok : StartsOk s) (known : s.calls c = some call)
    (exec : call.point.ExecLocked) (inst : next.inst = call.inst)
    (built : next.point.Built (s.configs call.inst) next.temp.arrays)
    (earlier : ¬ next.point.WasmLocked ∧ ∀ k, ¬ next.point.Stored k) :
    StartsOk (s.setCall c next) := by
  refine ok.setCall ((ok c call known).moves inst exec (fun locked => absurd locked earlier.1) built
    (fun k stored => absurd stored (earlier.2 k)) fun here => ?_)
  rw [here] at earlier
  exact earlier.1 trivial

/-- The loops keep the arrays as the configuration says. -/
theorem StartsOk.loops {answer : StartAnswer} (ok : StartsOk s) (known : s.calls c = some call)
    (taken : s.go c call answer = some s')
    (loop : ∃ n, call.point = .dirs n ∨ call.point = .mapDir n ∨ call.point = .envVars n ∨
      call.point = .args n) : StartsOk s' := by
  have built := (ok c call known).built
  have exec : call.point.ExecLocked := by
    obtain ⟨n, point | point | point | point⟩ := loop <;> rw [point] <;> trivial
  obtain ⟨n, point | point | point | point⟩ := loop <;>
    simp only [Starts.go, point] at taken <;>
    simp only [point, StartPoint.Built] at built
  · cases taken
    cases found : (inOrder (s.configs call.inst).preOpenDirs)[n]? with
    | some p =>
        refine ok.builds known exec rfl ?_ ⟨id, fun _ => id⟩
        simp only [StartCall.pushes, StartPoint.Built, built, builtArrays, take_pushed _ found]
    | none =>
        refine ok.builds known exec rfl ?_ ⟨id, fun _ => id⟩
        simp only [StartCall.goesTo, StartPoint.Built, built, builtArrays, take_all _ found,
          List.take_zero]
  · obtain ⟨p, found, rfl⟩ := Option.map_eq_some_iff.mp taken
    refine ok.builds known exec rfl ?_ ⟨id, fun _ => id⟩
    simp only [StartCall.pushes, StartPoint.Built, built, builtArrays, take_pushed _ found]
  · cases taken
    cases found : (inOrder (s.configs call.inst).envVars)[n]? with
    | some p =>
        refine ok.builds known exec rfl ?_ ⟨id, fun _ => id⟩
        simp only [StartCall.pushes, StartPoint.Built, built, builtArrays, take_pushed _ found]
    | none =>
        refine ok.builds known exec rfl ?_ ⟨id, fun _ => id⟩
        simp only [StartCall.goesTo, StartPoint.Built, built, builtArrays, take_all _ found,
          List.take_zero]
  · cases taken
    cases found : (s.configs call.inst).args[n]? with
    | some arg =>
        refine ok.builds known exec rfl ?_ ⟨id, fun _ => id⟩
        have pushed := take_pushed id found
        rw [List.map_id, id] at pushed
        simp only [StartCall.pushes, StartPoint.Built, built, pushed]
    | none =>
        refine ok.builds known exec rfl ?_ ⟨id, fun k => Fin.not_lt_zero k⟩
        have all := take_all id found
        rw [List.map_id] at all
        simp only [StartCall.goesTo, StartPoint.Built, built, all]
        rfl

/-! ## The streams -/

theorem nextStream_eq (k : Fin 3) :
    (∃ j, nextStream k = .dup j) ∨ nextStream k = .lockingWasm := by
  rw [nextStream]
  split
  next next => exact .inl ⟨_, rfl⟩
  next => exact .inr rfl

/-- The streams before the next one. -/
theorem nextStream_stored {k j : Fin 3} (stored : (nextStream k).Stored j) : j ≠ k → j < k := by
  intro ne
  rw [nextStream] at stored
  split at stored
  next => exact lt_of_le_of_ne (Nat.lt_succ_iff.mp stored) ne
  next last =>
    have := j.isLt
    have := Fin.val_ne_of_ne ne
    rw [Fin.lt_def]
    omega

/-- A descriptor is stored for a stream. -/
theorem StartsOk.stores {point : StartPoint} {k : Fin 3} (ok : StartsOk s)
    (known : s.calls c = some call) (exec : call.point.ExecLocked)
    (built : call.temp.arrays = builtArrays (s.configs call.inst))
    (before : ∀ j, j < k → call.point.Stored j) (fd : ℤ)
    (next : point = nextStream k ∨ point = .openOsfhandle k) :
    StartsOk { s.setCall c (call.stores point k fd) with
      stored := s.stored ++ [((c, k), fd)] } := by
  have own := ok c call known
  have stage : ¬ point.WasmLocked ∧ (∀ config, point.Built config call.temp.arrays ↔
      call.temp.arrays = builtArrays config) ∧ point ≠ .instantiating := by
    obtain rfl | rfl := next
    · obtain ⟨j, eq⟩ | eq := nextStream_eq k <;> rw [eq] <;>
        exact ⟨id, fun _ => Iff.rfl, nofun⟩
    · exact ⟨id, fun _ => Iff.rfl, nofun⟩
  refine ok.change rfl ⟨fun _ => own.exec exec, fun locked => absurd locked stage.1,
    (stage.2.1 _).mpr built, fun j stored => ?_, fun here => absurd here stage.2.2⟩
    fun c' other ne earlier => ⟨earlier.exec, earlier.wasm, earlier.built, fun j stored =>
      (earlier.stdio j stored).concat_of_ne (by simp [Ne.symm ne]) fd, earlier.slot⟩
  by_cases same : j = k
  · subst same
    have newest : (call.stores point j fd).temp.stdio j = fd := Function.update_self ..
    rw [newest]
    exact latest_concat_self s.stored (c, j) fd
  · have kept : (call.stores point k fd).temp.stdio j = call.temp.stdio j :=
      Function.update_of_ne same ..
    have earlier : j < k := by
      obtain rfl | rfl := next
      · exact nextStream_stored stored same
      · exact stored
    rw [kept]
    exact (own.stdio j (before j earlier)).concat_of_ne (by simp [Ne.symm same]) fd

/-! ## Steps and runs -/

theorem StartsOk.go {answer : StartAnswer} (ok : StartsOk s) (known : s.calls c = some call)
    (taken : s.go c call answer = some s') : StartsOk s' := by
  have own := ok c call known
  cases point : call.point with
  | waiting =>
      simp only [Starts.go, point] at taken
      obtain ⟨free, rfl⟩ := guarded_eq_some.mp taken
      exact ok.lockExec known point free
  | checking =>
      have exec : call.point.ExecLocked := by rw [point]; trivial
      simp only [Starts.go, point] at taken
      cases taken
      split
      · have built := own.built
        rw [point] at built
        refine ok.setCall (own.moves rfl exec nofun ?_ nofun nofun)
        simp only [StartCall.goesTo, StartPoint.Built, List.take_zero]
        exact built
      · exact ok.returns known exec
  | dirs n => exact ok.loops known taken ⟨n, .inl point⟩
  | mapDir n => exact ok.loops known taken ⟨n, .inr (.inl point)⟩
  | envVars n => exact ok.loops known taken ⟨n, .inr (.inr (.inl point))⟩
  | args n => exact ok.loops known taken ⟨n, .inr (.inr (.inr point))⟩
  | dup k | openOsfhandle k | returned =>
      simp only [Starts.go, point] at taken
      cases taken
  | lockingWasm =>
      simp only [Starts.go, point] at taken
      obtain ⟨free, rfl⟩ := guarded_eq_some.mp taken
      exact ok.lockWasm known point free
  | setting =>
      simp only [Starts.go, point] at taken
      cases taken
      exact ok.setArgs known point
  | instantiating =>
      have exec : call.point.ExecLocked := by rw [point]; trivial
      have wasm : call.point.WasmLocked := by rw [point]; trivial
      simp only [Starts.go, point] at taken
      cases taken
      cases answer with
      | done => exact ok.setCall (own.moves rfl exec (fun _ => wasm) trivial nofun nofun)
      | failed | outOfMemory => exact (ok.returns known exec).unlockWasm (ok.alone known wasm id)
  | linking =>
      have exec : call.point.ExecLocked := by rw [point]; trivial
      have wasm : call.point.WasmLocked := by rw [point]; trivial
      simp only [Starts.go, point] at taken
      cases taken
      cases answer with
      | done =>
          have moved : StartsOk (s.setCall c (call.goesTo .initializing)) :=
            ok.setCall (own.moves rfl exec nofun trivial nofun nofun)
          exact moved.unlockWasm (ok.alone known wasm id)
      | failed => exact (ok.returns known exec).unlockWasm (ok.alone known wasm id)
      | outOfMemory =>
          exact ((ok.returns known exec).setState call.inst .ended).unlockWasm
            (ok.alone known wasm id)
  | initializing =>
      have exec : call.point.ExecLocked := by rw [point]; trivial
      simp only [Starts.go, point] at taken
      cases taken
      exact ok.setCall (own.moves rfl exec nofun trivial nofun nofun)
  | settling started =>
      have exec : call.point.ExecLocked := by rw [point]; trivial
      simp only [Starts.go, point] at taken
      cases taken
      exact (ok.returns known exec).setState call.inst _

theorem StartsOk.step {a : StartAction} (ok : StartsOk s) (taken : startStep s a = some s') :
    StartsOk s' := by
  cases a with
  | enter c i =>
      obtain ⟨_, rfl⟩ := guarded_eq_some.mp taken
      exact ok.setCall ⟨nofun, nofun, rfl, nofun, nofun⟩
  | go c answer =>
      obtain ⟨call, known, went⟩ := Option.bind_eq_some_iff.mp taken
      exact ok.go known went
  | dup c newFD =>
      obtain ⟨call, known, went⟩ := Option.bind_eq_some_iff.mp taken
      split at went
      next k point =>
        have built := (ok c call known).built
        rw [point] at built
        cases went
        refine ok.stores known (by rw [point]; trivial) built (fun j lt => ?_) newFD ?_
        · rw [point]
          exact lt
        · split
          · exact .inl rfl
          · exact .inr rfl
      next => cases went
  | openOsfhandle c handle =>
      obtain ⟨call, known, went⟩ := Option.bind_eq_some_iff.mp taken
      split at went
      next k point =>
        have built := (ok c call known).built
        rw [point] at built
        cases went
        refine ok.stores known (by rw [point]; trivial) built (fun j lt => ?_) handle (.inl rfl)
        rw [point]
        exact lt
      next => cases went
  | setOpt i opt =>
      obtain ⟨free, rfl⟩ := guarded_eq_some.mp taken
      intro c call known
      have before := ok c call known
      refine ⟨before.exec, before.wasm, ?_, before.stdio, before.slot⟩
      by_cases same : call.inst = i
      · -- no start of the instance is under way
        refine StartPoint.Built.unlocked (fun locked => ?_) before.built
        have holds := before.exec locked
        rw [same, free] at holds
        cases holds
      · dsimp only
        rw [Function.update_of_ne same]
        exact before.built

end Keeps

/-- Each instance that is being made gets what its own start has built from its own configuration,
with the descriptors that this start has stored last for the streams. -/
def OwnArgs (s : Starts) : Prop :=
  ∀ c call, s.calls c = some call → call.point = .instantiating →
    BuiltFrom (s.configs call.inst) s.moduleArgs.arrays ∧
      ∀ k, Latest s.stored (c, k) (s.moduleArgs.stdio k)

theorem StartsOk.ownArgs {s : Starts} (ok : StartsOk s) : OwnArgs s := by
  intro c call known point
  have own := ok c call known
  have built := own.built
  rw [point] at built
  rw [own.slot point, built]
  exact ⟨builtFrom_builtArrays _, fun k => own.stdio k (by rw [point]; trivial)⟩

/-- **The arguments of an instance are its own**, however many instances are started at the same
time. -/
theorem instances_keep_own_args (configs : ℕ → WamrExtInstanceConfig)
    (actions : List StartAction) : Throughout startStep OwnArgs (.created configs) actions :=
  throughout_always StartsOk.step StartsOk.ownArgs (startsOk_created configs)

/-- A call builds its arrays, with the given number of statements, and opens its streams. -/
def builds (c n : ℕ) : List StartAction :=
  .enter c c :: List.replicate n (.go c .done) ++ [.dup c 10, .openOsfhandle c 10, .dup c (-1),
    .dup c 11, .openOsfhandle c 11]

/-- Two starts have built their arrays, and the second one gets the lock. -/
def secondFirst : List StartAction := builds 0 12 ++ builds 1 9 ++ [.go 1 .done, .go 1 .done]

/-- It instantiates with its own arrays, and the first one waits. -/
example :
    (run startStep (.created fun i => .new (if i = 0 then "/tmp" else "")) secondFirst).map
        (fun s => (s.moduleArgs.arrays, (startStep s (.go 0 .done)).isSome)) =
      some (⟨["/dev", "/etc"], ["/dev", "/etc"], [], []⟩, false) := by
  decide +kernel

end Instance
end WamrExt
