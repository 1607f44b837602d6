import Mathlib.Logic.Function.Basic

/-!
# Things with one owner

Each thing is known to have an owner or none, and each owner is known to have a thing or none. The
two agree (`Matched`): nothing is known to an owner that is not its own, and nothing is forgotten.
To acquire a free thing, to release one and to pass one on keep this, and say what else is needed.
-/

set_option autoImplicit false

namespace Owners

universe u v

variable {N : Type u} {O : Type v}

/-- A thing has an owner exactly when the owner has it. -/
def Matched (owner : N → Option O) (holds : O → Option N) : Prop :=
  ∀ n o, owner n = some o ↔ holds o = some n

theorem matched_none : Matched (fun _ : N => (none : Option O)) fun _ => none :=
  fun _ _ => iff_of_false nofun nofun

variable [DecidableEq N] [DecidableEq O] {owner : N → Option O} {holds : O → Option N} {n : N}
  {o o' : O}

theorem Matched.release (matched : Matched owner holds) (own : holds o = some n) :
    Matched (Function.update owner n none) (Function.update holds o none) := by
  intro n' o₁
  rw [Function.update_apply, Function.update_apply]
  by_cases thing : n' = n
  · rw [if_pos thing]
    refine iff_of_false nofun ?_
    split
    · nofun
    next other =>
      rw [thing, ← matched n o₁, (matched n o).mpr own, Option.some.injEq]
      exact Ne.symm other
  · rw [if_neg thing, matched n' o₁]
    split
    next same =>
      rw [same, own, Option.some.injEq]
      exact iff_of_false (Ne.symm thing) nofun
    next => rfl

theorem Matched.acquire (matched : Matched owner holds) (free : owner n = none)
    (idle : holds o = none) :
    Matched (Function.update owner n (some o)) (Function.update holds o (some n)) := by
  intro n' o₁
  rw [Function.update_apply, Function.update_apply]
  by_cases thing : n' = n
  · rw [if_pos thing, Option.some.injEq]
    by_cases same : o₁ = o
    · rw [if_pos same, thing]
      exact iff_of_true same.symm rfl
    · rw [if_neg same, thing, ← matched n o₁, free]
      exact iff_of_false (Ne.symm same) nofun
  · rw [if_neg thing, matched n' o₁]
    by_cases same : o₁ = o
    · rw [if_pos same, same, idle, Option.some.injEq]
      exact iff_of_false nofun (Ne.symm thing)
    · rw [if_neg same]

/-- An owner passes its thing on. -/
theorem Matched.pass (matched : Matched owner holds) (own : holds o = some n)
    (idle : holds o' = none) :
    Matched (Function.update owner n (some o'))
      (Function.update (Function.update holds o none) o' (some n)) := by
  have other : o' ≠ o := by
    rintro rfl
    rw [idle] at own
    cases own
  have released := matched.release own
  have still : Function.update holds o none o' = none :=
    (Function.update_of_ne other _ _).trans idle
  have acquired := released.acquire (Function.update_self _ _ _) still
  rwa [Function.update_idem] at acquired

end Owners
