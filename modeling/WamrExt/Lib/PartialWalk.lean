import Mathlib.Data.Fintype.Pigeonhole
import Mathlib.Data.Option.Basic

/-!
# Walks along a partial function

A partial function gives each place at most one next place. A walk follows it until there is no
next place. Where the places are finite in number, the only way not to come to an end is to come
back: a walk ends exactly when no place that it visits leads back to itself (`ends_iff`).
-/

set_option autoImplicit false

namespace PartialWalk

universe u

variable {α : Type u}

/-- The place after a number of steps, if the walk goes that far. -/
def follow (next : α → Option α) : ℕ → α → Option α
  | 0, a => some a
  | n + 1, a => (next a).bind (follow next n)

/-- The walk from a place comes to an end. -/
def Ends (next : α → Option α) (a : α) : Prop := ∃ n, follow next n a = none

/-- The walk from a place passes through another one. -/
def Visits (next : α → Option α) (a b : α) : Prop := ∃ n, follow next n a = some b

/-- A place leads back to itself. -/
def Circular (next : α → Option α) (a : α) : Prop := ∃ n, follow next (n + 1) a = some a

variable {next : α → Option α} {a b : α}

theorem follow_add (m n : ℕ) (a : α) :
    follow next (m + n) a = (follow next m a).bind (follow next n) := by
  induction m generalizing a with
  | zero => rw [Nat.zero_add, follow, Option.bind_some]
  | succ m ih =>
      rw [Nat.add_right_comm, follow, follow, Option.bind_assoc]
      exact Option.bind_congr fun b _ => ih b

/-- A walk that has ended stays ended. -/
theorem follow_eq_none_of_le {m n : ℕ} (le : m ≤ n) (ended : follow next m a = none) :
    follow next n a = none := by
  obtain ⟨k, rfl⟩ := Nat.exists_eq_add_of_le le
  rw [follow_add, ended, Option.bind_none]

/-- From a place that leads back to itself, the walk comes by it again and again. -/
theorem follow_mul {n : ℕ} (back : follow next n a = some a) (k : ℕ) :
    follow next (n * k) a = some a := by
  induction k with
  | zero => rfl
  | succ k ih => rw [Nat.mul_succ, follow_add, ih, Option.bind_some, back]

theorem Circular.not_ends (circular : Circular next a) : ¬ Ends next a := by
  rintro ⟨n, ended⟩
  obtain ⟨k, back⟩ := circular
  have still : follow next ((k + 1) * n) a = none :=
    follow_eq_none_of_le (Nat.le_mul_of_pos_left n (Nat.succ_pos k)) ended
  rw [follow_mul back] at still
  cases still

/-- A walk that ends does so from every place it visits. -/
theorem Ends.of_visits (ends : Ends next a) (visits : Visits next a b) : Ends next b := by
  obtain ⟨n, ended⟩ := ends
  obtain ⟨m, reached⟩ := visits
  refine ⟨n, ?_⟩
  have later : follow next (m + n) a = none := follow_eq_none_of_le (Nat.le_add_left n m) ended
  rwa [follow_add, reached, Option.bind_some] at later

/-- **Among finitely many places, a walk ends exactly when it does not come back.** -/
theorem ends_iff [Finite α] : Ends next a ↔ ∀ b, Visits next a b → ¬ Circular next b := by
  constructor
  · intro ends b visits circular
    exact circular.not_ends (ends.of_visits visits)
  · intro noReturn
    by_contra endless
    have goesOn : ∀ n, ∃ b, follow next n a = some b := by
      intro n
      refine Option.ne_none_iff_exists'.mp fun ended => ?_
      exact endless ⟨n, ended⟩
    choose place reached using goesOn
    obtain ⟨i, j, different, same⟩ := Finite.exists_ne_map_eq_of_infinite place
    -- the later of two visits to one place comes from the earlier
    have back : ∀ {i j}, i < j → place i = place j → Circular next (place i) := by
      intro i j lt same
      refine ⟨j - i - 1, ?_⟩
      have steps : j = i + (j - i - 1 + 1) := by omega
      have whole : follow next j a = some (place j) := reached j
      rwa [steps, follow_add, reached i, Option.bind_some, ← steps, ← same] at whole
    rcases Nat.lt_or_gt_of_ne different with lt | lt
    · exact noReturn _ ⟨i, reached i⟩ (back lt same)
    · exact noReturn _ ⟨j, reached j⟩ (back lt same.symm)

end PartialWalk
