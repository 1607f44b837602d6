import WamrExt.Instance.Callers

/-!
# Calls alone

A call that nobody interrupts leaves the instance that the call as a whole leaves: the steps of
a caller refine `wamr_ext_instance_start`, `_exec_main_func` and `_destroy`
(`start_alone`, `execMainFunc_alone`, `destroy_alone`). Nobody interrupts it when the loop thread
does not hold `instanceLock` and only the caller takes steps.
-/

set_option autoImplicit false

namespace WamrExt
namespace Instance

open Transition Pthread

/-- Steps of one caller, all of them answered alike, end its call and leave an instance. -/
def Completes (s : Callers) (caller : ℕ) (answers : CallAnswers) (inst : WamrExtInstance) : Prop :=
  ∃ n s', run callersStep s (List.replicate n (.go caller answers)) = some s' ∧
    s'.points caller = .idle ∧ s'.inst = inst

section Alone

variable {s s' : Callers} {caller : ℕ} {answers : CallAnswers} {inst : WamrExtInstance}

theorem Completes.step (next : s.go caller answers = some s')
    (later : Completes s' caller answers inst) : Completes s caller answers inst := by
  obtain ⟨n, last, reached, idle, left⟩ := later
  exact ⟨n + 1, last, run_cons_eq_some.mpr ⟨s', next, reached⟩, idle, left⟩

/-- The last step of a call. -/
theorem Completes.last (next : s.go caller answers = some (s.returns caller inst)) :
    Completes s caller answers inst :=
  .step next ⟨0, _, rfl, s.returns_points_self caller inst, rfl⟩

/-- The last step of a destroy, which takes the handle of the embedder away. -/
theorem Completes.lastOfDestroy
    (next : s.go caller answers = some { s.returns caller inst with handle := false }) :
    Completes s caller answers inst :=
  .step next ⟨0, _, rfl, s.returns_points_self caller inst, rfl⟩

/-- A step to a point of the call. -/
theorem Completes.goesTo {point : CallPoint} {between : WamrExtInstance}
    (next : s.go caller answers = some (s.goesTo caller point between))
    (later : ∀ s' : Callers, s'.points caller = point → s'.seen = s.seen → s'.inst = between →
      Completes s' caller answers inst) : Completes s caller answers inst :=
  .step next (later _ (s.goesTo_points_self caller point between) rfl rfl)

/-! ## Start -/

/-- The end of a start. -/
theorem settling_alone (answers : CallAnswers) {started : Bool}
    (here : s.points caller = .settling started) (free : s.seen = none) :
    Completes s caller answers { s.inst with state := if started then .started else .ended } := by
  refine .last ?_
  rw [Callers.go, here]
  exact if_pos free

theorem initializing_alone (answers : CallAnswers) (here : s.points caller = .initializing)
    (free : s.seen = none) :
    Completes s caller answers (initializeMain s.inst answers.start).2 := by
  refine .goesTo (by rw [Callers.go, here]) fun s' here' free' same => ?_
  have settled := settling_alone answers here' (free'.trans free)
  rw [same] at settled
  rw [initializeMain]
  split
  next returned => simpa [returned] using settled
  next failed => simpa [failed] using settled

theorem linking_alone (answers : CallAnswers) (here : s.points caller = .linking)
    (free : s.seen = none) {name : ℕ} {moduleInst : ModuleInst}
    (main : s.inst.wasmMainInstance = some name)
    (found : s.inst.moduleInsts.lookup name = some moduleInst) :
    Completes s caller answers
      (initializeMain (linkMain s.inst name moduleInst.memory) answers.start).2 := by
  have next : s.go caller answers =
      some (s.goesTo caller .initializing (linkMain s.inst name moduleInst.memory)) := by
    simp only [Callers.go, here, main, found, Option.bind_some, Option.map_some]
  refine .goesTo next fun s' here' free' same => ?_
  have later := initializing_alone answers here' (free'.trans free)
  rw [same] at later
  exact later

/-- What is stored for the memory is stored again with the link. -/
theorem linkMain_setMemory (name : ℕ) (memory stored : WASMMemoryInstance) :
    linkMain (inst.setMemory name stored) name memory = linkMain inst name memory := by
  rw [linkMain, linkMain, WamrExtInstance.setMemory, AList.insert_insert]

/-- The enlarging block and the end of a start, for each way the block is left. -/
theorem enlarging_alone (here : s.points caller = .enlarging) (free : s.seen = none) {name : ℕ}
    {memory : WASMMemoryInstance} (main : s.inst.wasmMainInstance = some name)
    (found : s.inst.moduleInsts.lookup name = some { memory := memory })
    (outOfMemory : ∀ abandoned,
      enlargeMemory s.inst.config.maxMemory answers.start.realloc memory = .outOfMemory abandoned →
        inst = { s.inst.setMemory name abandoned with state := .ended })
    (untouched :
      enlargeMemory s.inst.config.maxMemory answers.start.realloc memory = .untouched →
        inst = (initializeMain (linkMain s.inst name memory) answers.start).2)
    (enlarged : ∀ larger,
      enlargeMemory s.inst.config.maxMemory answers.start.realloc memory = .enlarged larger →
        inst = (initializeMain (linkMain s.inst name larger) answers.start).2) :
    Completes s caller answers inst := by
  have next : s.go caller answers =
      some (s.enlarge caller name memory answers.start.realloc) := by
    simp only [Callers.go, here, main, found, Option.bind_some, Option.map_some]
  rw [Callers.enlarge] at next
  cases outcome : enlargeMemory s.inst.config.maxMemory answers.start.realloc memory with
  | outOfMemory abandoned =>
      rw [outcome] at next
      refine .goesTo next fun s' here' free' same => ?_
      have later := settling_alone answers here' (free'.trans free)
      rw [same] at later
      rw [outOfMemory abandoned outcome]
      exact later
  | untouched =>
      rw [outcome] at next
      refine .goesTo next fun s' here' free' same => ?_
      have later := linking_alone answers here' (free'.trans free)
        (same ▸ main) (same ▸ found)
      rw [same] at later
      rw [untouched outcome]
      exact later
  | enlarged larger =>
      rw [outcome] at next
      refine .goesTo next fun s' here' free' same => ?_
      have stored : s'.inst.moduleInsts.lookup name = some { memory := larger } := by
        rw [same, WamrExtInstance.setMemory, AList.lookup_insert]
      have later := linking_alone answers here' (free'.trans free)
        (same ▸ main) stored
      rw [same, linkMain_setMemory] at later
      rw [enlarged larger outcome]
      exact later

/-- **A start alone** leaves what `wamr_ext_instance_start` leaves. -/
theorem start_alone (here : s.points caller = .checking .start) (free : s.seen = none) :
    Completes s caller answers (wamrExtInstanceStart s.inst answers.start).2 := by
  by_cases fresh : s.inst.state = .new
  · have checked : s.go caller answers = some (s.goesTo caller .instantiating s.inst) := by
      simp [Callers.go, here, free, Callers.check, fresh]
    refine .goesTo checked fun s₁ here₁ free₁ same₁ => ?_
    cases instantiated : answers.start.instantiated with
    | none =>
        refine .last ?_
        simp [Callers.go, here₁, instantiated, same₁, wamrExtInstanceStart, fresh,
          instantiateMain, WamrExtInstance.instantiate]
    | some memory =>
        have made : s₁.go caller answers =
            some (s₁.goesTo caller .creating (s.inst.instantiate (some memory))) := by
          simp [Callers.go, here₁, instantiated, same₁]
        refine .goesTo made fun s₂ here₂ free₂ same₂ => ?_
        cases created : answers.start.execEnvCreated with
        | false =>
            refine .last ?_
            simp [Callers.go, here₂, created, same₂, wamrExtInstanceStart, fresh, instantiated,
              instantiateMain, WamrExtInstance.createExecEnv, WamrExtInstance.instantiate]
        | true =>
            have env : s₂.go caller answers = some (s₂.goesTo caller .enlarging
                (instantiateMain s.inst answers.start)) := by
              simp [Callers.go, here₂, created, same₂, instantiated, instantiateMain,
                WamrExtInstance.createExecEnv, WamrExtInstance.instantiate]
            refine .goesTo env fun s₃ here₃ free₃ same₃ => ?_
            have config : s₃.inst.config = s.inst.config := by
              simp [same₃, instantiateMain, instantiated, created]
            have main₃ : s₃.inst.wasmMainInstance = some s.inst.unused := by
              simp [same₃, instantiateMain, instantiated, created]
            have found₃ : s₃.inst.moduleInsts.lookup s.inst.unused =
                some { memory := memory } := by
              simp [same₃, instantiateMain, instantiated, created]
            refine enlarging_alone here₃ (free₃.trans (free₂.trans (free₁.trans free))) main₃ found₃
              (fun abandoned outcome => ?_) (fun outcome => ?_) fun larger outcome => ?_
            · simp [wamrExtInstanceStart, fresh, instantiated, created, config ▸ outcome, same₃,
                WamrExtInstance.setMemory]
            · simp [wamrExtInstanceStart, fresh, instantiated, created, config ▸ outcome, same₃]
            · simp [wamrExtInstanceStart, fresh, instantiated, created, config ▸ outcome, same₃]
  · refine .last ?_
    simp [Callers.go, here, free, Callers.check, fresh, wamrExtInstanceStart]

/-! ## Main function and destruction -/

/-- **An execution of the main function alone** leaves the instance as it is. -/
theorem execMainFunc_alone (here : s.points caller = .checking .execMainFunc)
    (free : s.seen = none) :
    Completes s caller answers (wamrExtInstanceExecMainFunc s.inst answers.exec).inst := by
  rw [wamrExtInstanceExecMainFunc_inst]
  by_cases started : s.inst.state = .started
  · have checked : s.go caller answers = some (s.goesTo caller .lookingUp s.inst) := by
      simp [Callers.go, here, free, Callers.check, started]
    refine .goesTo checked fun s₁ here₁ _ same₁ => ?_
    cases found : answers.exec.mainFound with
    | false => exact .last (by simp [Callers.go, here₁, found, same₁])
    | true =>
        have entered : s₁.go caller answers = some (s₁.goesTo caller .inMain s.inst) := by
          simp [Callers.go, here₁, found, same₁]
        refine .goesTo entered fun s₂ here₂ _ same₂ => ?_
        exact .last (by simp [Callers.go, here₂, same₂])
  · exact .last (by simp [Callers.go, here, free, Callers.check, started])

/-- A destroy from the point where the descriptors of the guest are closed. -/
theorem closing_alone (answers : CallAnswers) (here : s.points caller = .closing)
    (free : s.seen = none) :
    Completes s caller answers
      { s.inst.destroyExecEnv.deinstantiate with state := .destroyed } := by
  have closed : s.go caller answers = some (s.goesTo caller .destroyingEnv s.inst) := by
    rw [Callers.go, here]
  refine .goesTo closed fun s₁ here₁ free₁ same₁ => ?_
  have noEnv : s₁.go caller answers =
      some (s₁.goesTo caller .destroyingInst s.inst.destroyExecEnv) := by
    rw [Callers.go, here₁, same₁]
  refine .goesTo noEnv fun s₂ here₂ free₂ same₂ => ?_
  have noInst : s₂.go caller answers =
      some (s₂.goesTo caller .marking s.inst.destroyExecEnv.deinstantiate) := by
    rw [Callers.go, here₂, same₂]
  refine .goesTo noInst fun s₃ here₃ free₃ same₃ => .lastOfDestroy ?_
  rw [Callers.go, here₃, same₃]
  exact if_pos (free₃.trans (free₂.trans (free₁.trans free)))

/-- **A destroy alone** leaves what `wamr_ext_instance_destroy` leaves. -/
theorem destroy_alone (here : s.points caller = .checking .destroy) (free : s.seen = none) :
    Completes s caller answers (wamrExtInstanceDestroy s.inst).inst := by
  by_cases finished : s.inst.state = .destroying ∨ s.inst.state = .destroyed
  · refine .lastOfDestroy ?_
    rcases finished with destroying | destroyed
    · simp [Callers.go, here, free, Callers.check, wamrExtInstanceDestroy, destroying]
    · simp [Callers.go, here, free, Callers.check, wamrExtInstanceDestroy, destroyed]
  · have checked : s.go caller answers =
        some (s.goesTo caller (.cleaning (s.inst.state = .started))
          { s.inst with state := .destroying }) := by
      cases state : s.inst.state <;> simp_all [Callers.go, Callers.check]
    have left : (wamrExtInstanceDestroy s.inst).inst =
        { ({ s.inst with state := .destroying } : WamrExtInstance).destroyExecEnv.deinstantiate with
          state := .destroyed } := by
      cases state : s.inst.state <;>
        simp_all [wamrExtInstanceDestroy, WamrExtInstance.destroyExecEnv,
          WamrExtInstance.deinstantiate]
    rw [left]
    refine .goesTo checked fun s₁ here₁ free₁ same₁ => ?_
    -- a started instance runs its destructors before its descriptors are closed
    have rest : ∀ s₂ : Callers, s₂.points caller = .closing → s₂.seen = s₁.seen →
        s₂.inst = { s.inst with state := .destroying } →
          Completes s₂ caller answers
            { ({ s.inst with state := .destroying } :
                WamrExtInstance).destroyExecEnv.deinstantiate with state := .destroyed } := by
      intro s₂ here₂ free₂ same₂
      have later := closing_alone answers here₂ (free₂.trans (free₁.trans free))
      rw [same₂] at later
      exact later
    cases dtor : decide (s.inst.state = .started) with
    | false =>
        refine .goesTo ?_ rest
        rw [Callers.go, here₁, dtor, same₁]
        rfl
    | true =>
        have cleaned : s₁.go caller answers =
            some (s₁.goesTo caller .dtors { s.inst with state := .destroying }) := by
          rw [Callers.go, here₁, dtor, same₁]
          rfl
        refine .goesTo cleaned fun s₂ here₂ free₂ same₂ => ?_
        refine .goesTo (by rw [Callers.go, here₂, same₂]) fun s₃ here₃ free₃ same₃ => ?_
        exact rest s₃ here₃ (free₃.trans free₂) same₃

end Alone

end Instance
end WamrExt
