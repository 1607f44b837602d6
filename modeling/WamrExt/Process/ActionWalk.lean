import WamrExt.Lib.PartialWalk
import WamrExt.Process.HostProgram
import Mathlib.Data.FinEnum

/-!
# The walk over the file actions

The file actions of a spawn are a list that the guest has laid out in its memory, and each of them
has the offset of the next. `ProcessSpawn` follows these offsets and keeps a pointer for each. It
checks that an action lies inside the linear memory, but not that it is a new one. So the loop
comes to an end exactly when no action of the list leads back to itself (`action_walk_ends_iff`).
-/

set_option autoImplicit false

namespace WamrExt
namespace Process

open ByteMemory PartialWalk Wamr Socket

section Walk

variable (L : LinearMemory) (mem : Memory)

/-- The action after this one. There is none after a null pointer, or after what is refused. -/
def nextAction (appPointer : UInt32) : Option UInt32 :=
  if appPointer ≠ 0 ∧ validAction L mem appPointer = true then
    some (spawnAction mem appPointer .appNextActionPointer)
  else none

/-- The loop stops after some number of steps, at a null pointer or with `UVWASI_EFAULT`. -/
def ActionWalkEnds (appPointer : UInt32) : Prop :=
  ∃ fuel outcome, spawnActions L mem fuel appPointer = some outcome ∧
    ∀ err, outcome = .error err → err = uvwasiEFAULT

variable {L mem} {fuel : ℕ} {appPointer : UInt32}

/-- The loop has no result as long as there is a next action. -/
theorem spawnActions_eq_none :
    spawnActions L mem fuel appPointer = none ↔
      follow (nextAction L mem) fuel appPointer ≠ none := by
  induction fuel generalizing appPointer with
  | zero => simp [spawnActions, follow]
  | succ fuel ih =>
      rw [spawnActions, follow, nextAction]
      by_cases null : appPointer = 0
      · simp [null]
      · by_cases valid : validAction L mem appPointer = true
        · rw [if_neg null, if_pos valid, if_pos ⟨null, valid⟩, Option.bind_some,
            Option.map_eq_none_iff, ih]
        · simp [null, valid]

/-- The loop refuses actions in one way only. -/
theorem spawnActions_error {err : UInt16}
    (refused : spawnActions L mem fuel appPointer = some (.error err)) : err = uvwasiEFAULT := by
  induction fuel generalizing appPointer with
  | zero => cases refused
  | succ fuel ih =>
      rw [spawnActions] at refused
      split at refused
      next => cases refused
      next =>
        split at refused
        next =>
          obtain ⟨rest, result, same⟩ := Option.map_eq_some_iff.mp refused
          cases rest with
          | error err' =>
              cases same
              exact ih result
          | ok actions => cases same
        next =>
          cases refused
          rfl

theorem actionWalkEnds_iff_ends :
    ActionWalkEnds L mem appPointer ↔ PartialWalk.Ends (nextAction L mem) appPointer := by
  constructor
  · rintro ⟨fuel, outcome, done, _⟩
    refine ⟨fuel, ?_⟩
    by_contra goesOn
    rw [spawnActions_eq_none.mpr goesOn] at done
    cases done
  · rintro ⟨fuel, ended⟩
    have done : spawnActions L mem fuel appPointer ≠ none := by
      intro still
      exact spawnActions_eq_none.mp still ended
    obtain ⟨outcome, result⟩ := Option.ne_none_iff_exists'.mp done
    refine ⟨fuel, outcome, result, ?_⟩
    rintro err rfl
    exact spawnActions_error result

end Walk

/-- **The end of the action list.** Whatever the memory of the guest holds, the loop over the
actions of a request stops, at a null pointer or with `UVWASI_EFAULT`, exactly when no action that
the list comes by leads back to itself. -/
theorem action_walk_ends_iff (L : LinearMemory) (mem : Memory) (pReq : ℕ) :
    ActionWalkEnds L mem (spawnReq pReq mem .appFaPointer) ↔
      ∀ action, Visits (nextAction L mem) (spawnReq pReq mem .appFaPointer) action →
        ¬ Circular (nextAction L mem) action := by
  rw [actionWalkEnds_iff_ends, ends_iff]

/-- A request at offset 0 for `ls` without arguments. Its one action, at offset 48, has itself as
the next. -/
def selfFollowing : Memory :=
  store (store (store (store (fun _ => 0) 0 4 0x20) 0x20 2 0x736c) 12 4 0x30) 0x30 4 0x30

/-- The spawn never comes to the end of its actions, however long it goes on. -/
theorem self_following_never_ends :
    ¬ ActionWalkEnds smallMemory selfFollowing (spawnReq 0 selfFollowing .appFaPointer) ∧
      ∀ fuel, processSpawn smallMemory selfFollowing (fun _ => some (cBytes "ls")) grantingHost
        fuel 0 = .stuck := by
  have start : spawnReq 0 selfFollowing .appFaPointer = 0x30 := by decide +kernel
  have circular : Circular (nextAction smallMemory selfFollowing) 0x30 := ⟨0, by decide +kernel⟩
  have endless : ¬ PartialWalk.Ends (nextAction smallMemory selfFollowing) 0x30 := circular.not_ends
  rw [start, actionWalkEnds_iff_ends]
  refine ⟨endless, fun fuel => ?_⟩
  have still : spawnActions smallMemory selfFollowing fuel 0x30 = none :=
    spawnActions_eq_none.mpr fun ended => endless ⟨fuel, ended⟩
  have argv : (spawnArgv smallMemory selfFollowing (fun _ => some (cBytes "ls")) 0).result =
      .ok ⟨cBytes "ls", []⟩ := by
    decide +kernel
  rw [processSpawn, argv, start, still]
  simp

end Process
end WamrExt
