import Mathlib.Data.List.AList
import Mathlib.Data.Finset.Card
import Mathlib.Logic.Function.Iterate

/-!
# Handles from a counter

A handle table names its entries by keys taken from a counter. The counter may come back
to a key it has already given, so a new entry takes the first value of the counter that
names no entry (`allot`).

The search ends when the counter still has distinct values enough for the entries there
are (`allot_isSome`), and what it gives names no entry (`allot_free`).
-/

set_option autoImplicit false

namespace HandleTable

universe u v

variable {κ : Type u} {ι : Type v} [DecidableEq κ]

/-- The search for a free handle, through at most `fuel` values of the counter. Gives the
handle and the value of the counter after it. -/
def allotFrom (next : κ → κ) (table : AList fun _ : κ => ι) : ℕ → κ → Option (κ × κ)
  | 0, _ => none
  | fuel + 1, counter =>
      if counter ∈ table then allotFrom next table fuel (next counter)
      else some (counter, next counter)

/-- The first free handle from a counter. One value more than there are entries is looked
at: if they all name entries the counter has come round, and the search never ends. -/
def allot (next : κ → κ) (table : AList fun _ : κ => ι) (counter : κ) : Option (κ × κ) :=
  allotFrom next table (table.entries.length + 1) counter

variable {next : κ → κ} {table : AList fun _ : κ => ι} {counter : κ}

theorem allotFrom_free {fuel : ℕ} {given : κ × κ}
    (found : allotFrom next table fuel counter = some given) : given.1 ∉ table := by
  induction fuel generalizing counter with
  | zero => cases found
  | succ fuel ih =>
      rw [allotFrom] at found
      split at found
      · exact ih found
      · next free =>
        cases found
        exact free

theorem allotFrom_eq_none {fuel : ℕ} :
    allotFrom next table fuel counter = none ↔ ∀ i < fuel, next^[i] counter ∈ table := by
  induction fuel generalizing counter with
  | zero => simp [allotFrom]
  | succ fuel ih =>
      rw [allotFrom]
      split
      · next taken =>
        rw [ih]
        constructor
        · intro later i lt
          cases i with
          | zero => exact taken
          | succ i => exact later i (by omega)
        · intro all i lt
          exact all (i + 1) (by omega)
      · next free =>
        simp only [reduceCtorEq, false_iff]
        intro all
        exact free (all 0 (by omega))

/-- A counter that names no entry is given at once. -/
theorem allot_of_free (free : counter ∉ table) :
    allot next table counter = some (counter, next counter) := by
  rw [allot, allotFrom, if_neg free]

/-- The values of the counter before the handle that is given all name entries. -/
theorem allotFrom_first {fuel : ℕ} {given : κ × κ}
    (found : allotFrom next table fuel counter = some given) :
    ∃ i < fuel, given.1 = next^[i] counter ∧ ∀ j < i, next^[j] counter ∈ table := by
  induction fuel generalizing counter with
  | zero => cases found
  | succ fuel ih =>
      rw [allotFrom] at found
      split at found
      · next taken =>
        obtain ⟨i, bound, value, before⟩ := ih found
        refine ⟨i + 1, by omega, value, fun j lt => ?_⟩
        cases j with
        | zero => exact taken
        | succ j => exact before j (by omega)
      · cases found
        exact ⟨0, by omega, rfl, fun j lt => absurd lt (Nat.not_lt_zero j)⟩

/-- **The handle given is the first that is free.** -/
theorem allot_first {given : κ × κ} (found : allot next table counter = some given) :
    ∃ i < table.entries.length + 1, given.1 = next^[i] counter ∧
      ∀ j < i, next^[j] counter ∈ table :=
  allotFrom_first found

/-- **The handle given is free.** -/
theorem allot_free {given : κ × κ} (found : allot next table counter = some given) :
    given.1 ∉ table :=
  allotFrom_free found

/-- **The search ends while the counter has values left.** Among more distinct values than
there are entries, one names no entry. -/
theorem allot_isSome {values : ℕ}
    (distinct : Set.InjOn (fun i => next^[i] counter) (Set.Iio values))
    (room : table.entries.length < values) : (allot next table counter).isSome := by
  by_contra stuck
  rw [Option.not_isSome_iff_eq_none, allot, allotFrom_eq_none] at stuck
  have inside : Set.MapsTo (fun i => next^[i] counter)
      (Finset.range (table.entries.length + 1)) table.keys.toFinset := by
    intro i lt
    simpa using AList.mem_keys.mp (stuck i (Finset.mem_range.mp lt))
  have apart : Set.InjOn (fun i => next^[i] counter)
      (Finset.range (table.entries.length + 1)) :=
    distinct.mono fun i lt => by
      have := Finset.mem_range.mp lt
      exact Set.mem_Iio.mpr (by omega)
  have few := Finset.card_le_card_of_injOn _ inside apart
  have keys : table.keys.toFinset.card ≤ table.entries.length := by
    have := table.keys.toFinset_card_le
    rwa [AList.keys, List.keys, List.length_map] at this
  rw [Finset.card_range] at few
  omega

end HandleTable
