import WamrExt.Pthread.Cleanup

/-!
# The thread map of a running instance

The model of a spawn changes the thread map by spawns and by reaps alone (`managerStep`).
The threads of an instance do no more: each of their steps is one of these operations on
the thread map, or it leaves the map as it is (`systemStep_refines`).

So what holds of the thread map over spawns and reaps holds of it in a running instance.
While no spawn fails late, the main thread keeps its entry and no spawn is given its handle.
Then every spawn is in time that is not made by the destructors
(`spawnsInTime_of_plainSpawns`).
-/

set_option autoImplicit false

namespace WamrExt
namespace Pthread

open Transition

/-- What a step does to the thread map, if it does something to it. -/
def System.managerOp (s : System) : SystemStep → Option ManagerOp
  | .spawn _ answers appArg => some (.spawn answers appArg)
  | .eraseEntry =>
      match s.main with
      | .erasing threadInfo _ => some (.reap threadInfo.handleID)
      | _ => none
  | _ => none

section Refinement

variable {pMainExecEnv : ℕ} {s s' : System} {a : SystemStep}

/-- **Every step of the threads is a spawn or a reap on the thread map**, or leaves it as it
is. -/
theorem systemStep_refines (kept : Kept pMainExecEnv s) (taken : systemStep s a = some s') :
    match s.managerOp a with
    | none => s'.manager = s.manager
    | some op => managerStep s.manager op = some s'.manager := by
  cases systemStep_cases taken with
  | spawn _ spawned =>
      obtain ⟨outcome, returned, rfl⟩ := Option.map_eq_some_iff.mp spawned
      exact Option.map_eq_some_iff.mpr ⟨outcome, returned, rfl⟩
  | @eraseEntry threadInfo todo point =>
      have pending : threadInfo ∈ s.main.pending := by
        rw [point]
        exact List.mem_cons_self
      obtain ⟨stored, app⟩ := kept.joins.stored threadInfo pending
      simp only [System.managerOp, point]
      exact if_pos ⟨app, Option.isSome_of_eq_some stored⟩
  | _ => rfl

/-- A spawn that does not fail late, and starts no thread for the destructors. -/
def PlainSpawns (s : System) : SystemStep → Prop
  | .spawn thread answers _ =>
      ¬ answers.FailsLate ∧
        (answers.MakesThreadInfo ∧ answers.SetsUpStack →
          ¬ (thread = none ∧ s.main = .dtors))
  | _ => True

/-- While the main thread has its entry, a plain spawn is in time. -/
theorem PlainSpawns.inTime (main : HasMain pMainExecEnv s.manager) (plain : PlainSpawns s a) :
    SpawnsInTime s a := by
  cases a with
  | spawn thread answers appArg =>
      intro starts
      refine ⟨plain.2 starts, fun same => ?_⟩
      obtain ⟨given, found, isMain⟩ := Option.map_eq_some_iff.mp same
      exact given_ne_main main found isMain
  | _ => trivial

/-- The operation of a plain spawn does not fail late. -/
theorem PlainSpawns.notFailingLate (plain : PlainSpawns s a) {op : ManagerOp}
    (own : s.managerOp a = some op) : NotFailingLate s.manager op := by
  cases a with
  | spawn thread answers appArg =>
      cases own
      exact plain.1
  | eraseEntry =>
      simp only [System.managerOp] at own
      split at own
      · cases own
        trivial
      · cases own
  | _ => cases own

/-- The main thread keeps its entry over a plain step. -/
theorem Kept.hasMain_step (kept : Kept pMainExecEnv s) (main : HasMain pMainExecEnv s.manager)
    (plain : PlainSpawns s a) (taken : systemStep s a = some s') :
    HasMain pMainExecEnv s'.manager := by
  have refines := systemStep_refines kept taken
  cases own : s.managerOp a with
  | none =>
      rw [own] at refines
      exact refines ▸ main
  | some op =>
      rw [own] at refines
      exact Pthread.hasMain_step main (plain.notFailingLate own) refines

end Refinement

/-- **Plain spawns are in time**: when no spawn of a run fails late and the destructors start
no thread, no spawn is given the handle of the main thread. -/
theorem spawnsInTime_of_plainSpawns {pMainExecEnv : ℕ} {steps : List SystemStep}
    (plain : Meets systemStep PlainSpawns (systemStart pMainExecEnv) steps) :
    Meets systemStep SpawnsInTime (systemStart pMainExecEnv) steps := by
  have start : Kept pMainExecEnv (systemStart pMainExecEnv) ∧
      HasMain pMainExecEnv (systemStart pMainExecEnv).manager :=
    ⟨kept_start pMainExecEnv, hasMain_init pMainExecEnv⟩
  have inTime : ∀ {s a}, Kept pMainExecEnv s ∧ HasMain pMainExecEnv s.manager →
      PlainSpawns s a → SpawnsInTime s a :=
    fun good met => met.inTime good.2
  have keeps : ∀ {s a s'}, Kept pMainExecEnv s ∧ HasMain pMainExecEnv s.manager →
      PlainSpawns s a → systemStep s a = some s' →
        Kept pMainExecEnv s' ∧ HasMain pMainExecEnv s'.manager :=
    fun good met taken =>
      ⟨good.1.step (inTime good met) taken, good.1.hasMain_step good.2 met taken⟩
  exact plain.strengthen inTime keeps start

end Pthread
end WamrExt
