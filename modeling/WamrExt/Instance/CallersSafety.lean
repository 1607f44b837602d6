import WamrExt.Instance.Callers

/-!
# State and runtime objects under concurrent calls

A state only moves forward, although a start checks it and sets it in two sections, and the
loop thread releases the lock around the callback: every call that sets the state holds
`execFuncLock` from its check on, so the loop thread alone can come between, and it changes
started to ended only (`state_moves_forward`).

A started instance has its main module instance and its main exec env, both live, since they
are made before the state is set and destroyed after it has been changed again. The
examination of the loop thread and the execution of the main function find them live until
they are done (`started_objects_live`).

The invariant says of each point of a call that holds `execFuncLock` what state and objects
it relies on (`CallPoint.Relies`).
-/

set_option autoImplicit false

namespace WamrExt
namespace Instance

open Transition Function

/-- The place of a state in their order. -/
def InstanceState.rank : InstanceState → ℕ
  | .new => 0
  | .started => 1
  | .ended => 2
  | .destroying => 3
  | .destroyed => 4

/-- There is a main module instance, and it has not been deinstantiated. -/
def WamrExtInstance.MainLive (inst : WamrExtInstance) : Prop :=
  ∃ name, inst.wasmMainInstance = some name ∧ name ∈ inst.moduleInsts

/-- There is a main exec env, and it has not been destroyed. -/
def WamrExtInstance.EnvLive (inst : WamrExtInstance) : Prop :=
  ∃ name, inst.pMainExecEnv = some name ∧ name ∈ inst.execEnvs

/-- Both runtime objects are live. -/
def WamrExtInstance.Live (inst : WamrExtInstance) : Prop := inst.MainLive ∧ inst.EnvLive

/-- What a call relies on at a point. -/
def CallPoint.Relies (inst : WamrExtInstance) : CallPoint → Prop
  | .idle | .waiting _ | .checking _ => True
  | .instantiating => inst.state = .new
  | .creating => inst.state = .new ∧ inst.MainLive
  | .enlarging | .linking | .initializing | .settling _ => inst.state = .new ∧ inst.Live
  | .lookingUp | .inMain => inst.Live
  | .cleaning _ | .dtors | .closing | .destroyingEnv | .destroyingInst | .marking =>
      inst.state = .destroying

/-- What every run keeps. A call past its locks is the one that holds `execFuncLock`, each
point has what it relies on, the state does not change while the loop thread examines it, a
started instance is live, and the callback was called once at most, out of started. -/
structure Sound (s : Callers) : Prop where
  locked : ∀ caller, (s.points caller).Locked → s.execFuncLock = some caller
  relies : ∀ caller, (s.points caller).Relies s.inst
  seen : ∀ state, s.seen = some state → s.inst.state = state
  live : s.inst.state = .started → s.inst.Live
  reported : s.callbackStates = [] ∨
    (s.callbackStates = [.started] ∧ InstanceState.ended.rank ≤ s.inst.state.rank)

theorem sound_start (target address : ℕ) (instDefaultConf : WamrExtInstanceConfig)
    (others : List ℕ) : Sound (callersStart target address instDefaultConf others) where
  locked := fun _ locked => absurd locked id
  relies := fun _ => trivial
  seen := fun _ seen => by cases seen
  live := fun started => by cases started
  reported := Or.inl rfl

section Parts

variable {inst : WamrExtInstance} {memory : WASMMemoryInstance} {name : ℕ}

theorem mainLive_instantiate : (inst.instantiate (some memory)).MainLive :=
  ⟨inst.unused, rfl, AList.mem_insert _ |>.mpr (Or.inl rfl)⟩

theorem envLive_createExecEnv : (inst.createExecEnv name true).EnvLive :=
  ⟨name, rfl, AList.mem_insert _ |>.mpr (Or.inl rfl)⟩

/-- More module instances keep the main one live. -/
theorem WamrExtInstance.MainLive.setMemory (main : inst.MainLive) :
    (inst.setMemory name memory).MainLive := by
  obtain ⟨own, found, member⟩ := main
  exact ⟨own, found, (AList.mem_insert _).mpr (Or.inr member)⟩

/-- Linking keeps both live. -/
theorem WamrExtInstance.Live.linkMain (live : inst.Live) : (linkMain inst name memory).Live := by
  obtain ⟨⟨own, found, member⟩, env, named, stored⟩ := live
  exact ⟨⟨own, found, (AList.mem_insert _).mpr (Or.inr member)⟩,
    env, named, (AList.mem_insert _).mpr (Or.inr stored)⟩

end Parts

section Steps

variable {s s' : Callers} {caller : ℕ} {point : CallPoint} {inst : WamrExtInstance}

/-- A point without `execFuncLock` relies on nothing. -/
theorem relies_of_unlocked (unlocked : ¬ point.Locked) : point.Relies inst := by
  cases point with
  | idle | waiting op => trivial
  | _ => exact absurd trivial unlocked

/-- What every step shows: the invariant is kept, and the state moves forward. -/
structure Forward (s s' : Callers) : Prop where
  sound : Sound s'
  forward : s.inst.state.rank ≤ s'.inst.state.rank

/-- **A step of the caller that holds `execFuncLock`.** The other callers rely on nothing, so
only its own point counts. -/
theorem Sound.goesTo (sound : Sound s) (holder : s.execFuncLock = some caller)
    (relies : point.Relies inst) (seen : s.seen = none ∨ inst.state = s.inst.state)
    (live : inst.state = .started → inst.Live) (forward : s.inst.state.rank ≤ inst.state.rank) :
    Sound (s.goesTo caller point inst) where
  locked := (forall_update_iff s.points fun other at_point =>
      at_point.Locked → s.execFuncLock = some other).mpr
    ⟨fun _ => holder, fun other _ => sound.locked other⟩
  relies := by
    refine (forall_update_iff s.points fun _ at_point => at_point.Relies inst).mpr
      ⟨relies, fun other different => relies_of_unlocked fun locked => different ?_⟩
    exact Option.some.inj ((sound.locked other locked).symm.trans holder)
  seen state read := by
    obtain free | same := seen
    · exact absurd (free.symm.trans read) (by simp)
    · exact same.trans (sound.seen state read)
  live := live
  reported := sound.reported.imp_right fun ⟨once, ended⟩ => ⟨once, ended.trans forward⟩

/-- A step to a point without `execFuncLock`, which leaves what the other calls rely on. -/
theorem Sound.outside (sound : Sound s) (unlocked : ¬ point.Locked)
    (keeps : ∀ other, (s.points other).Relies inst) (same : inst.state = s.inst.state)
    (live : inst.state = .started → inst.Live) : Forward s (s.goesTo caller point inst) where
  sound :=
    { locked := (forall_update_iff s.points fun other at_point =>
          at_point.Locked → s.execFuncLock = some other).mpr
        ⟨fun locked => absurd locked unlocked, fun other _ => sound.locked other⟩
      relies := (forall_update_iff s.points fun _ at_point => at_point.Relies inst).mpr
        ⟨relies_of_unlocked unlocked, fun other _ => keeps other⟩
      seen := fun state read => same.trans (sound.seen state read)
      live := live
      reported := by
        show _ ∨ _ ∧ InstanceState.ended.rank ≤ inst.state.rank
        rw [same]
        exact sound.reported }
  forward := by
    show s.inst.state.rank ≤ inst.state.rank
    rw [same]

/-- The same with a return, which releases the lock. -/
theorem Sound.returns (sound : Sound s) (holder : s.execFuncLock = some caller)
    (seen : s.seen = none ∨ inst.state = s.inst.state)
    (live : inst.state = .started → inst.Live) (forward : s.inst.state.rank ≤ inst.state.rank) :
    Sound (s.returns caller inst) := by
  have kept : Sound (s.goesTo caller .idle inst) :=
    sound.goesTo holder trivial seen live forward
  refine ⟨?_, kept.relies, kept.seen, kept.live, kept.reported⟩
  refine (forall_update_iff s.points fun other at_point => at_point.Locked → none = some other).mpr
    ⟨fun locked => absurd locked id, fun other different locked => absurd ?_ different⟩
  exact Option.some.inj ((sound.locked other locked).symm.trans holder)

/-- Only the handle of the embedder changes. -/
theorem Sound.setHandle (sound : Sound s) (handle : Bool) :
    Sound { s with handle := handle } :=
  ⟨sound.locked, sound.relies, sound.seen, sound.live, sound.reported⟩

/-- A step of the holder that leaves the state. -/
theorem Sound.stays (sound : Sound s) (holder : s.execFuncLock = some caller)
    (same : inst.state = s.inst.state) (relies : point.Relies inst)
    (live : inst.state = .started → inst.Live) : Forward s (s.goesTo caller point inst) := by
  have forward : s.inst.state.rank ≤ inst.state.rank := by rw [same]
  exact ⟨sound.goesTo holder relies (Or.inr same) live forward, forward⟩

/-- A return of the holder that leaves the state. -/
theorem Sound.gives (sound : Sound s) (holder : s.execFuncLock = some caller)
    (same : inst.state = s.inst.state) (live : inst.state = .started → inst.Live) :
    Forward s (s.returns caller inst) := by
  have forward : s.inst.state.rank ≤ inst.state.rank := by rw [same]
  exact ⟨sound.returns holder (Or.inr same) live forward, forward⟩

/-- An option changes nothing that a call relies on. -/
theorem relies_setOpt (opt : WamrExtInstanceOpt) :
    point.Relies (wamrExtInstanceSetOpt inst opt).2 ↔ point.Relies inst := by
  cases point <;> exact Iff.rfl

/-- A caller takes `instanceLock` for an option, or `execFuncLock` for another call. -/
theorem Sound.waiting (sound : Sound s) {op : ApiOp} (point : s.points caller = .waiting op)
    {answers : CallAnswers} (taken : s.go caller answers = some s') : Forward s s' := by
  cases op with
  | setOpt opt =>
      simp only [Callers.go, point] at taken
      obtain ⟨_, rfl⟩ := guarded_eq_some.mp taken
      exact sound.outside id (fun other => (relies_setOpt opt).mpr (sound.relies other)) rfl
        sound.live
  | start | execMainFunc | destroy =>
      simp only [Callers.go, point] at taken
      obtain ⟨free, rfl⟩ := guarded_eq_some.mp taken
      have noneLocked : ∀ other, ¬ (s.points other).Locked := by
        intro other locked
        have holds := sound.locked other locked
        rw [free] at holds
        cases holds
      refine ⟨⟨?_, ?_, sound.seen, sound.live, sound.reported⟩, le_rfl⟩
      · exact (forall_update_iff s.points fun other at_point =>
            at_point.Locked → some caller = some other).mpr
          ⟨fun _ => rfl, fun other _ locked => absurd locked (noneLocked other)⟩
      · exact (forall_update_iff s.points fun _ at_point => at_point.Relies s.inst).mpr
          ⟨trivial, fun other _ => sound.relies other⟩

/-- The first section of a call. -/
theorem Sound.check (sound : Sound s) (holder : s.execFuncLock = some caller)
    (free : s.seen = none) (op : ApiOp) : Forward s (s.check caller op) := by
  cases op with
  | start =>
      rw [Callers.check]
      split
      · next fresh => exact sound.stays holder rfl fresh sound.live
      · exact sound.gives holder rfl sound.live
  | execMainFunc =>
      rw [Callers.check]
      split
      · next started => exact sound.stays holder rfl (sound.live started) sound.live
      · exact sound.gives holder rfl sound.live
  | setOpt opt => exact sound.gives holder rfl sound.live
  | destroy =>
      have begins : ∀ point : CallPoint, point.Relies { s.inst with state := .destroying } →
          s.inst.state.rank ≤ InstanceState.destroying.rank →
            Forward s (s.goesTo caller point { s.inst with state := .destroying }) :=
        fun point relies forward =>
          ⟨sound.goesTo holder relies (Or.inl free) (fun started => by cases started) forward,
            forward⟩
      cases state : s.inst.state with
      | new | started | ended =>
          simp only [Callers.check, state]
          exact begins _ rfl (by rw [state]; decide)
      | destroying | destroyed =>
          simp only [Callers.check, state]
          have kept := sound.gives holder rfl sound.live
          exact ⟨kept.sound.setHandle false, kept.forward⟩

/-- A section of a start past its check, before the state is set. -/
theorem Sound.starting (sound : Sound s) (holder : s.execFuncLock = some caller)
    (fresh : inst.state = .new) (same : inst.state = s.inst.state) (relies : point.Relies inst) :
    Forward s (s.goesTo caller point inst) :=
  sound.stays holder same relies fun started => by rw [fresh] at started; cases started

/-- A start that comes to nothing. -/
theorem Sound.startReturns (sound : Sound s) (holder : s.execFuncLock = some caller)
    (fresh : inst.state = .new) (same : inst.state = s.inst.state) :
    Forward s (s.returns caller inst) :=
  sound.gives holder same fun started => by rw [fresh] at started; cases started

/-- The enlarging block leaves both objects live. -/
theorem Sound.enlarge (sound : Sound s) (holder : s.execFuncLock = some caller)
    (fresh : s.inst.state = .new) (live : s.inst.Live) (name : ℕ) (memory : WASMMemoryInstance)
    (realloc : UInt32 → Option ℕ) : Forward s (s.enlarge caller name memory realloc) := by
  rw [Callers.enlarge]
  split
  · exact sound.starting holder fresh rfl ⟨fresh, live.1.setMemory, live.2⟩
  · exact sound.starting holder fresh rfl ⟨fresh, live⟩
  · exact sound.starting holder fresh rfl ⟨fresh, live.1.setMemory, live.2⟩

/-- A part of a destroy, which leaves the state at destroying. -/
theorem Sound.destroying (sound : Sound s) (holder : s.execFuncLock = some caller)
    (same : inst.state = s.inst.state) (destroying : inst.state = .destroying)
    (relies : point.Relies inst) : Forward s (s.goesTo caller point inst) :=
  sound.stays holder same relies fun started => by rw [destroying] at started; cases started

/-- **Every step of a caller** keeps the invariant and moves the state forward. -/
theorem Sound.go (sound : Sound s) {answers : CallAnswers}
    (taken : s.go caller answers = some s') : Forward s s' := by
  have holds : (s.points caller).Locked → s.execFuncLock = some caller := sound.locked caller
  have relies := sound.relies caller
  cases point : s.points caller with
  | idle =>
      simp only [Callers.go, point] at taken
      cases taken
  | waiting op => exact sound.waiting point taken
  | checking op =>
      rw [point] at holds
      simp only [Callers.go, point] at taken
      obtain ⟨free, rfl⟩ := guarded_eq_some.mp taken
      exact sound.check (holds trivial) free op
  | instantiating =>
      rw [point] at holds relies
      simp only [Callers.go, point] at taken
      cases taken
      split
      · exact sound.startReturns (holds trivial) relies rfl
      · exact sound.starting (holds trivial) relies rfl ⟨relies, mainLive_instantiate⟩
  | creating =>
      rw [point] at holds relies
      obtain ⟨fresh, main⟩ := relies
      simp only [Callers.go, point] at taken
      obtain ⟨name, _, rfl⟩ := Option.map_eq_some_iff.mp taken
      split
      · exact sound.starting (holds trivial) fresh rfl ⟨fresh, main, envLive_createExecEnv⟩
      · exact sound.startReturns (holds trivial) fresh rfl
  | enlarging =>
      rw [point] at holds relies
      obtain ⟨fresh, live⟩ := relies
      simp only [Callers.go, point] at taken
      obtain ⟨name, _, found⟩ := Option.bind_eq_some_iff.mp taken
      obtain ⟨moduleInst, _, rfl⟩ := Option.map_eq_some_iff.mp found
      exact sound.enlarge (holds trivial) fresh live _ _ _
  | linking =>
      rw [point] at holds relies
      obtain ⟨fresh, live⟩ := relies
      simp only [Callers.go, point] at taken
      obtain ⟨name, _, found⟩ := Option.bind_eq_some_iff.mp taken
      obtain ⟨moduleInst, _, rfl⟩ := Option.map_eq_some_iff.mp found
      exact sound.starting (holds trivial) fresh rfl ⟨fresh, live.linkMain⟩
  | initializing =>
      rw [point] at holds relies
      simp only [Callers.go, point] at taken
      cases taken
      exact sound.starting (holds trivial) relies.1 rfl relies
  | settling started =>
      rw [point] at holds relies
      obtain ⟨fresh, live⟩ := relies
      simp only [Callers.go, point] at taken
      obtain ⟨free, rfl⟩ := guarded_eq_some.mp taken
      have forward : s.inst.state.rank ≤ 0 := by rw [fresh]; rfl
      have later : s.inst.state.rank ≤ (if started then InstanceState.started else .ended).rank :=
        forward.trans (Nat.zero_le _)
      exact ⟨sound.returns (holds trivial) (Or.inl free) (fun _ => live) later, later⟩
  | lookingUp =>
      rw [point] at holds relies
      simp only [Callers.go, point] at taken
      cases taken
      split
      · exact sound.stays (holds trivial) rfl relies sound.live
      · exact sound.gives (holds trivial) rfl sound.live
  | inMain =>
      rw [point] at holds
      simp only [Callers.go, point] at taken
      cases taken
      exact sound.gives (holds trivial) rfl sound.live
  | cleaning bRunDtor =>
      rw [point] at holds relies
      simp only [Callers.go, point] at taken
      cases taken
      exact sound.destroying (holds trivial) rfl relies (by cases bRunDtor <;> exact relies)
  | dtors | closing | destroyingEnv | destroyingInst =>
      rw [point] at holds relies
      simp only [Callers.go, point] at taken
      cases taken
      exact sound.destroying (holds trivial) rfl relies relies
  | marking =>
      rw [point] at holds relies
      simp only [Callers.go, point] at taken
      obtain ⟨free, rfl⟩ := guarded_eq_some.mp taken
      have forward : s.inst.state.rank ≤ InstanceState.destroyed.rank := by
        rw [show s.inst.state = .destroying from relies]
        decide
      have kept : Sound (s.returns caller { s.inst with state := .destroyed }) :=
        sound.returns (holds trivial) (Or.inl free) (fun started => by cases started) forward
      exact ⟨kept.setHandle false, forward⟩

/-- A call that relies on a started instance relies on its objects only. -/
theorem relies_ended (started : inst.state = .started) (relies : point.Relies inst) :
    point.Relies { inst with state := .ended } := by
  have notNew : inst.state ≠ .new := by simp [started]
  have notDestroying : inst.state ≠ .destroying := by simp [started]
  cases point with
  | idle | waiting op | checking op => trivial
  | lookingUp | inMain => exact relies
  | instantiating => exact absurd relies notNew
  | creating | enlarging | linking | initializing | settling _ => exact absurd relies.1 notNew
  | cleaning _ | dtors | closing | destroyingEnv | destroyingInst | marking =>
      exact absurd relies notDestroying

/-- The examination of the instance: an exception ends what was started. -/
theorem Sound.examine (sound : Sound s) {finding : Finding}
    (taken : s.examine finding = some s') : Forward s s' := by
  obtain ⟨state, read, later⟩ := Option.bind_eq_some_iff.mp taken
  obtain ⟨_, later⟩ := Option.ite_none_left_eq_some.mp later
  obtain ⟨left, found, moved⟩ := Option.bind_eq_some_iff.mp later
  obtain ⟨loop, _, rfl⟩ := Option.map_eq_some_iff.mp moved
  obtain rfl := sound.seen state read
  have stays : left = s.inst.state → finding ≠ .exception true →
      Forward s { s with
        inst := { s.inst with state := left }
        loop := loop
        seen := none
        callbackStates := s.callbackStates ++
          if finding = .exception true then [s.inst.state] else [] } := by
    rintro rfl silent
    rw [if_neg silent, List.append_nil]
    exact ⟨⟨sound.locked, sound.relies, fun _ none => (by cases none), sound.live,
      sound.reported⟩, le_rfl⟩
  cases finding with
  | nothing =>
      obtain ⟨_, rfl⟩ := guarded_eq_some.mp found
      exact stays rfl (by simp)
  | destroyed =>
      obtain ⟨_, rfl⟩ := guarded_eq_some.mp found
      exact stays rfl (by simp)
  | exception callback =>
      obtain ⟨started, rfl⟩ := guarded_eq_some.mp found
      have noneReported : s.callbackStates = [] := by
        refine sound.reported.resolve_right fun ⟨_, ended⟩ => ?_
        rw [started] at ended
        exact absurd ended (by decide)
      refine ⟨⟨sound.locked, fun other => relies_ended started (sound.relies other),
        fun _ none => (by cases none), fun again => (by cases again), ?_⟩, ?_⟩
      · rw [noneReported, started]
        cases callback with
        | false => exact Or.inl rfl
        | true => exact Or.inr ⟨rfl, le_rfl⟩
      · rw [started]
        show InstanceState.started.rank ≤ InstanceState.ended.rank
        decide

/-- The loop thread moves elsewhere. -/
theorem Sound.setLoop (sound : Sound s) (loop : LoopTick) : Forward s { s with loop := loop } :=
  ⟨⟨sound.locked, sound.relies, sound.seen, sound.live, sound.reported⟩, le_rfl⟩

theorem Sound.tick (sound : Sound s) {a : TickStep} (taken : s.tick a = some s') :
    Forward s s' := by
  cases a with
  | examine finding =>
      simp only [Callers.tick] at taken
      split at taken
      · exact sound.examine taken
      · obtain ⟨loop, _, rfl⟩ := Option.map_eq_some_iff.mp taken
        exact sound.setLoop loop
  | callbackReturn =>
      obtain ⟨_, moved⟩ := Option.ite_none_right_eq_some.mp taken
      obtain ⟨loop, _, rfl⟩ := Option.map_eq_some_iff.mp moved
      exact sound.setLoop loop
  | create inst =>
      obtain ⟨_, moved⟩ := Option.ite_none_left_eq_some.mp taken
      obtain ⟨loop, _, rfl⟩ := Option.map_eq_some_iff.mp moved
      exact sound.setLoop loop
  | begin | read | advance | finish =>
      obtain ⟨loop, _, rfl⟩ := Option.map_eq_some_iff.mp taken
      exact sound.setLoop loop

/-- **Every step** keeps the invariant and moves the state forward. -/
theorem Sound.step {a : CallersStep} (sound : Sound s) (taken : callersStep s a = some s') :
    Forward s s' := by
  cases a with
  | call caller op =>
      obtain ⟨_, rfl⟩ := guarded_eq_some.mp taken
      exact sound.outside id sound.relies rfl sound.live
  | go caller answers => exact sound.go taken
  | loopEnter =>
      obtain ⟨_, rfl⟩ := guarded_eq_some.mp taken
      exact ⟨⟨sound.locked, sound.relies, fun _ read => Option.some.inj read, sound.live,
        sound.reported⟩, le_rfl⟩
  | loop a => exact sound.tick taken

theorem sound_run {as : List CallersStep} (sound : Sound s)
    (reached : run callersStep s as = some s') : Sound s' :=
  run_invariant_always (fun kept taken => (kept.step taken).sound) sound reached

/-- Over a run the state moves forward. -/
theorem forward_run {as : List CallersStep} (sound : Sound s)
    (reached : run callersStep s as = some s') : s.inst.state.rank ≤ s'.inst.state.rank := by
  induction as generalizing s with
  | nil =>
      cases reached
      exact le_rfl
  | cons a rest ih =>
      obtain ⟨next, taken, later⟩ := run_cons_eq_some.mp reached
      have step := sound.step taken
      exact step.forward.trans (ih step.sound later)

end Steps

/-- **The state moves forward, and an exception is reported once.** Between any two states of
a run the state of the instance does not decrease, and up to each the exception callback was
called at most once, when the state was started. -/
theorem state_moves_forward {target address : ℕ} {instDefaultConf : WamrExtInstanceConfig}
    {others : List ℕ} {first second : List CallersStep} {s s' : Callers}
    (reached : run callersStep (callersStart target address instDefaultConf others) first =
      some s)
    (later : run callersStep s second = some s') :
    s.inst.state.rank ≤ s'.inst.state.rank ∧
      (s'.callbackStates = [] ∨ s'.callbackStates = [.started]) := by
  have sound := sound_run (sound_start target address instDefaultConf others) reached
  exact ⟨forward_run sound later, (sound_run sound later).reported.imp_right And.left⟩

/-- Whatever the runtime is asked, it answers that all is well. -/
def allWell : CallAnswers where
  start := startWith fun _ => some 0x100000
  exec := { mainFound := true, mainReturns := some 0 }

/-- A caller starts the instance. -/
def startRun (caller : ℕ) : List CallersStep :=
  .call caller .start :: List.replicate 8 (.go caller allWell)

/-- One caller starts the instance and another runs the main function, while the loop thread
finds an exception. -/
def exceptionRun : List CallersStep :=
  .call 0 (.setOpt (.exceptionCallback { func := some 0x4000 })) :: .go 0 allWell ::
    startRun 0 ++
    [.call 1 .execMainFunc, .go 1 allWell, .go 1 allWell, .go 1 allWell, .loop .begin,
      .loop .read, .loopEnter, .loop (.examine (.exception true))]

/-- The main function returns, and the instance is destroyed by the callback. -/
def destroyRun : List CallersStep :=
  .go 1 allWell :: .call 2 .destroy :: List.replicate 7 (.go 2 allWell)

/-- The exception is reported once, and the instance comes to its last state. -/
theorem exception_reported_once :
    ∃ s s', run callersStep (callersStart 1 0x5000 (.new "/tmp") []) exceptionRun = some s ∧
      run callersStep s destroyRun = some s' ∧
      s'.inst.state = .destroyed ∧ s.inst.state.rank ≤ s'.inst.state.rank ∧
      (s'.callbackStates = [] ∨ s'.callbackStates = [.started]) := by
  have whole : (run callersStep (callersStart 1 0x5000 (.new "/tmp") [])
      (exceptionRun ++ destroyRun)).map (fun s => s.inst.state) = some .destroyed := by
    decide
  obtain ⟨s', ended, last⟩ := Option.map_eq_some_iff.mp whole
  rw [run_append] at ended
  obtain ⟨s, reached, later⟩ := Option.bind_eq_some_iff.mp ended
  exact ⟨s, s', reached, later, last, state_moves_forward reached later⟩

/-- **A started instance is live.** In every state that is reached, a started instance has
its main module instance and its main exec env, both live. They are live as long as the loop
thread examines an instance that it has seen started, and as long as a caller that has seen
it started looks up or runs the main function. -/
theorem started_objects_live {target address : ℕ} {instDefaultConf : WamrExtInstanceConfig}
    {others : List ℕ} {steps : List CallersStep} {s : Callers}
    (reached : run callersStep (callersStart target address instDefaultConf others) steps =
      some s) :
    (s.inst.state = .started → s.inst.Live) ∧
      (s.seen = some .started → s.inst.Live) ∧
      ∀ caller, s.points caller = .lookingUp ∨ s.points caller = .inMain → s.inst.Live := by
  have sound := sound_run (sound_start target address instDefaultConf others) reached
  refine ⟨sound.live, fun seen => sound.live (sound.seen _ seen), fun caller point => ?_⟩
  have relies := sound.relies caller
  obtain at_lookup | at_call := point
  · rw [at_lookup] at relies
    exact relies
  · rw [at_call] at relies
    exact relies

/-- The main function runs in a started instance, whose objects are live. -/
theorem running_main_live :
    ∃ s, run callersStep (callersStart 1 0x5000 (.new "/tmp") [])
        (startRun 0 ++ [.call 1 .execMainFunc, .go 1 allWell, .go 1 allWell, .go 1 allWell]) =
          some s ∧ s.inst.state = .started ∧ s.points 1 = .inMain ∧ s.inst.Live := by
  have whole : (run callersStep (callersStart 1 0x5000 (.new "/tmp") [])
      (startRun 0 ++ [.call 1 .execMainFunc, .go 1 allWell, .go 1 allWell,
        .go 1 allWell])).map (fun s => (s.inst.state, s.points 1)) =
          some (.started, .inMain) := by
    decide
  obtain ⟨s, reached, same⟩ := Option.map_eq_some_iff.mp whole
  obtain ⟨started, at_call⟩ := Prod.mk.inj same
  exact ⟨s, reached, started, at_call, (started_objects_live reached).1 started⟩

end Instance
end WamrExt
