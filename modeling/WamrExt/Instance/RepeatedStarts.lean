import WamrExt.Instance.Lifecycle

/-!
# Starts that fail

A start stores the main module instance and the main exec env in the instance as it makes them.
When it fails, it should either have ended the instance, or have left it as new as it was, with
neither of the two, since a new instance can be started again.

This is so in every sequence of calls in which no start is answered with a module instance and no
exec env (`starts_sound_iff`). Such a start returns with the instance still new and the module
instance in it, and the next start stores another one over it. From then on nothing refers to the
first, and destroying the instance does not deinstantiate it.
-/

set_option autoImplicit false

namespace WamrExt
namespace Instance

open Transition Pthread

/-- A new instance has neither of the two. -/
def NoMain (inst : WamrExtInstance) : Prop :=
  inst.wasmMainInstance = none ∧ inst.pMainExecEnv = none

/-- A failed start is final, or comes to nothing. -/
def FailedWell (after : WamrExtInstance) : Prop :=
  after.state = .ended ∨ (after.state = .new ∧ NoMain after)

/-- A start of a new instance stores over nothing, and fails well if it fails. -/
def StartSound (inst : WamrExtInstance) : ApiCall → Prop
  | .start answers => inst.state = .new →
      NoMain inst ∧
        ((wamrExtInstanceStart inst answers).1 ≠ 0 →
          FailedWell (wamrExtInstanceStart inst answers).2)
  | .setOpt _ | .execMainFunc _ | .loopTick _ => True

/-- At most one module instance is live. -/
def OneModuleInst (inst : WamrExtInstance) : Prop := inst.moduleInsts.keys.length ≤ 1

/-- A start of a new instance that is answered with a module instance is answered with an exec
env for it. -/
def ExecEnvFollows (inst : WamrExtInstance) : ApiCall → Prop
  | .start answers =>
      inst.state = .new → answers.instantiated ≠ none → answers.execEnvCreated = true
  | .setOpt _ | .execMainFunc _ | .loopTick _ => True

/-- Whatever is live is what a handle names. -/
def LiveOnly {β : Type} (live : AList fun _ : ℕ => β) (handle : Option ℕ) : Prop :=
  ∀ name ∈ live, handle = some name

/-- What such starts keep: whatever is live is in the instance, and a new instance has nothing. -/
structure Owned (inst : WamrExtInstance) : Prop where
  fresh : inst.state = .new → NoMain inst
  moduleInsts : LiveOnly inst.moduleInsts inst.wasmMainInstance
  execEnvs : LiveOnly inst.execEnvs inst.pMainExecEnv

theorem owned_create (address : ℕ) (instDefaultConf : WamrExtInstanceConfig) :
    Owned (wamrExtInstanceCreate address instDefaultConf) :=
  ⟨fun _ => ⟨rfl, rfl⟩, nofun, nofun⟩

section Handles

variable {β : Type} {live : AList fun _ : ℕ => β} {handle : Option ℕ}

theorem LiveOnly.length_le (only : LiveOnly live handle) : live.keys.length ≤ 1 := by
  match keys : live.keys, live.keys_nodup with
  | [], _ | [_], _ => simp
  | name :: other :: rest, distinct =>
      have first : handle = some name := only name (AList.mem_keys.mpr (by simp [keys]))
      have second : handle = some other := only other (AList.mem_keys.mpr (by simp [keys]))
      have same : name = other := Option.some.inj (first.symm.trans second)
      simp [same] at distinct

theorem LiveOnly.nothing (only : LiveOnly live handle) (noHandle : handle = none) (name : ℕ) :
    name ∉ live := by
  intro alive
  have named := only name alive
  rw [noHandle] at named
  cases named

/-- Nothing is live once the one that the handle names is erased. -/
theorem LiveOnly.erased (only : LiveOnly live handle) (name : ℕ) :
    name ∉ (handle.map live.erase).getD live := by
  cases main : handle with
  | none => exact only.nothing main name
  | some own =>
      intro alive
      rw [Option.map_some, Option.getD_some, AList.mem_erase] at alive
      have named := only name alive.2
      rw [main] at named
      exact alive.1 (Option.some.inj named).symm

end Handles

section Steps

variable {inst after : WamrExtInstance} {answers : StartAnswers} {call : ApiCall}

/-- A new instance that owns what is live has nothing live. -/
theorem Owned.nothing_live (owned : Owned inst) (fresh : inst.state = .new) (name : ℕ) :
    name ∉ inst.moduleInsts ∧ name ∉ inst.execEnvs :=
  ⟨owned.moduleInsts.nothing (owned.fresh fresh).1 name,
    owned.execEnvs.nothing (owned.fresh fresh).2 name⟩

/-- A start with an exec env owns the two it has made. -/
theorem Owned.made (owned : Owned inst) {memory : WASMMemoryInstance}
    (fresh : inst.state = .new) (instantiated : answers.instantiated = some memory)
    (execEnvCreated : answers.execEnvCreated = true) :
    Owned (wamrExtInstanceStart inst answers).2 ∧
      ((wamrExtInstanceStart inst answers).1 ≠ 0 →
        (wamrExtInstanceStart inst answers).2.state = .ended) := by
  have nothing := owned.nothing_live fresh
  obtain ⟨_, stuck⟩ | ⟨linked, _, ended⟩ :=
    wamrExtInstanceStart_env fresh instantiated execEnvCreated
  · rw [stuck]
    refine ⟨⟨nofun, ?_, ?_⟩, fun _ => rfl⟩ <;>
    · intro name live
      simpa [instantiateMain, instantiated, execEnvCreated, nothing name, eq_comm] using live
  · have own : ∀ state, state ≠ .new → Owned
        { linkMain (instantiateMain inst answers) inst.unused linked with state := state } := by
      intro state old
      refine ⟨fun new => absurd new old, ?_, ?_⟩ <;>
      · intro name live
        simpa [linkMain, instantiateMain, instantiated, execEnvCreated, nothing name, eq_comm]
          using live
    rw [ended]
    obtain well | failed := initializeMain_cases
      (linkMain (instantiateMain inst answers) inst.unused linked) answers
    · rw [well]
      exact ⟨own _ (by decide), fun bad => absurd rfl bad⟩
    · rw [failed]
      exact ⟨own _ (by decide), fun _ => rfl⟩

/-- A start that is not answered with a module instance leaves all as it was. -/
theorem Owned.start_nothing (owned : Owned inst) (fresh : inst.state = .new)
    (notMade : answers.instantiated = none) : (wamrExtInstanceStart inst answers).2 = inst := by
  rw [wamrExtInstanceStart_noEnv fresh (Or.inl notMade)]
  simp only [instantiateMain, notMade, ← (owned.fresh fresh).1]

/-- **One start.** It owns what is live afterwards, and is sound. -/
theorem Owned.start (owned : Owned inst) (follows : ExecEnvFollows inst (.start answers)) :
    Owned (wamrExtInstanceStart inst answers).2 ∧ StartSound inst (.start answers) := by
  by_cases fresh : inst.state = .new
  · cases instantiated : answers.instantiated with
    | none =>
        have same := owned.start_nothing fresh instantiated
        refine ⟨same.symm ▸ owned, fun _ => ⟨owned.fresh fresh, fun _ => Or.inr ?_⟩⟩
        rw [same]
        exact ⟨fresh, owned.fresh fresh⟩
    | some memory =>
        have execEnvCreated : answers.execEnvCreated = true :=
          follows fresh (by simp [instantiated])
        obtain ⟨made, ended⟩ := owned.made fresh instantiated execEnvCreated
        exact ⟨made, fun _ => ⟨owned.fresh fresh, fun failed => Or.inl (ended failed)⟩⟩
  · rw [wamrExtInstanceStart_not_new inst answers fresh]
    exact ⟨owned, fun new => absurd new fresh⟩

/-- **Every call.** -/
theorem Owned.step (owned : Owned inst) (follows : ExecEnvFollows inst call)
    (taken : apiStep inst call = some after) : Owned after := by
  cases call with
  | setOpt opt =>
      cases taken
      exact ⟨owned.fresh, owned.moduleInsts, owned.execEnvs⟩
  | start answers =>
      cases taken
      exact (owned.start follows).1
  | execMainFunc answers =>
      cases taken
      rw [wamrExtInstanceExecMainFunc_inst]
      exact owned
  | loopTick exception =>
      cases taken
      split
      · exact ⟨nofun, owned.moduleInsts, owned.execEnvs⟩
      · exact owned

theorem Owned.startSound (owned : Owned inst) (follows : ExecEnvFollows inst call) :
    StartSound inst call := by
  cases call with
  | start answers => exact (owned.start follows).2
  | setOpt opt | execMainFunc answers | loopTick exception => trivial

/-- A start without the exec env leaves a new instance with a module instance in it. -/
theorem StartSound.follows (sound : StartSound inst call) : ExecEnvFollows inst call := by
  cases call with
  | start answers =>
      intro fresh made
      by_contra notCreated
      have failed : answers.execEnvCreated = false := Bool.not_eq_true _ |>.mp notCreated
      obtain ⟨memory, instantiated⟩ := Option.ne_none_iff_exists'.mp made
      obtain ⟨_, well⟩ := sound fresh
      rw [wamrExtInstanceStart_noEnv fresh (Or.inr failed)] at well
      obtain ended | ⟨_, noModuleInst, _⟩ := well (Int.negSucc_ne_zero 0)
      · simp [instantiateMain, instantiated, failed, fresh] at ended
      · simp [instantiateMain, instantiated, failed] at noModuleInst
  | setOpt opt | execMainFunc answers | loopTick exception => trivial

/-- What an instance owns is gone once it is destroyed. -/
theorem Owned.destroyed (owned : Owned inst)
    (alive : inst.state = .new ∨ inst.state = .started ∨ inst.state = .ended) (name : ℕ) :
    name ∉ (wamrExtInstanceDestroy inst).inst.moduleInsts ∧
      name ∉ (wamrExtInstanceDestroy inst).inst.execEnvs := by
  have gone : (wamrExtInstanceDestroy inst).inst.moduleInsts =
        (inst.wasmMainInstance.map inst.moduleInsts.erase).getD inst.moduleInsts ∧
      (wamrExtInstanceDestroy inst).inst.execEnvs =
        (inst.pMainExecEnv.map inst.execEnvs.erase).getD inst.execEnvs := by
    rw [wamrExtInstanceDestroy]
    rcases alive with state | state | state <;> simp [state]
  rw [gone.1, gone.2]
  exact ⟨owned.moduleInsts.erased name, owned.execEnvs.erased name⟩

end Steps

/-- **When starts that fail do no harm.** In a sequence of calls on an instance every start
stores over nothing and fails well, with at most one module instance live at any time, exactly
when no start of the new instance is answered with a module instance and no exec env. -/
theorem starts_sound_iff (address : ℕ) (instDefaultConf : WamrExtInstanceConfig)
    (calls : List ApiCall) :
    (Meets apiStep StartSound (wamrExtInstanceCreate address instDefaultConf) calls ∧
        Throughout apiStep OneModuleInst (wamrExtInstanceCreate address instDefaultConf) calls) ↔
      Meets apiStep ExecEnvFollows (wamrExtInstanceCreate address instDefaultConf) calls := by
  have created := owned_create address instDefaultConf
  constructor
  · rintro ⟨sound, _⟩
    have always : ∀ {inst call after}, True → StartSound inst call →
        apiStep inst call = some after → True := fun _ _ _ => trivial
    exact Meets.strengthen (fun _ => StartSound.follows) always trivial sound
  · intro follows
    exact ⟨Meets.strengthen Owned.startSound Owned.step created follows,
      Meets.throughout Owned.step (fun owned => owned.moduleInsts.length_le) created follows⟩

/-- A start that makes a module instance and no exec env, and one that goes well. -/
def startTwice : List ApiCall :=
  [.start { startWith (fun _ => some 0x100000) with execEnvCreated := false },
    .start (startWith fun _ => some 0x100000)]

/-- The first of two starts fails, and the second stores over its module instance. Both are live
then. -/
theorem start_again_leaks :
    ¬ (Meets apiStep StartSound newInstance startTwice ∧
      Throughout apiStep OneModuleInst newInstance startTwice) ∧
      ∃ inst, run apiStep newInstance startTwice = some inst ∧ inst.moduleInsts.keys = [1, 0] := by
  refine ⟨fun ⟨sound, _⟩ => ?_, _, rfl, by decide⟩
  obtain ended | ⟨_, noModuleInst, _⟩ := (sound.1 rfl).2 (by decide)
  · cases ended
  · cases noModuleInst

end Instance
end WamrExt
