import Mathlib.Data.List.AList

/-!
# The latest value of a key

A log lists values that keys have been given, one after another. The latest value of a key is
the one of its last entry (`Latest`). A map into which the entries of a log are inserted in their
order knows the latest value of each key, and nothing else (`lookup_insertAll_empty`).

Inserting one log after another is inserting both as one (`insertAll_append`). So a map that is
copied and then goes on has the log of the original up to the copy, and its own from there.
-/

set_option autoImplicit false

namespace LatestValue

universe u v

variable {K : Type u} {V : Type v}

/-- The last entry of the key has the value. -/
def Latest (log : List (K × V)) (k : K) (value : V) : Prop :=
  ∃ before after, log = before ++ (k, value) :: after ∧ ∀ p ∈ after, p.1 ≠ k

variable {log : List (K × V)} {k : K} {value : V}

/-- The latest value comes with an entry of the log. -/
theorem Latest.mem (latest : Latest log k value) : (k, value) ∈ log := by
  obtain ⟨before, after, rfl, _⟩ := latest
  exact List.mem_append_right before List.mem_cons_self

theorem not_latest_nil : ¬ Latest ([] : List (K × V)) k value := by
  intro latest
  cases latest.mem

/-- The first entry gives the latest value if no later one is about its key. -/
theorem latest_cons {p : K × V} :
    Latest (p :: log) k value ↔
      Latest log k value ∨ (p = (k, value) ∧ ∀ q ∈ log, q.1 ≠ k) := by
  constructor
  · rintro ⟨before, after, same, later⟩
    cases before with
    | nil =>
        cases same
        exact .inr ⟨rfl, later⟩
    | cons first before =>
        cases same
        exact .inl ⟨before, after, rfl, later⟩
  · rintro (⟨before, after, rfl, later⟩ | ⟨rfl, later⟩)
    · exact ⟨p :: before, after, rfl, later⟩
    · exact ⟨[], log, rfl, later⟩

/-- What is written last is the latest value. -/
theorem latest_concat_self (log : List (K × V)) (k : K) (value : V) :
    Latest (log ++ [(k, value)]) k value :=
  ⟨log, [], rfl, nofun⟩

/-- A value stays the latest while other keys are written. -/
theorem Latest.concat_of_ne {other : K} (latest : Latest log k value) (ne : other ≠ k)
    (newest : V) : Latest (log ++ [(other, newest)]) k value := by
  obtain ⟨before, after, rfl, later⟩ := latest
  refine ⟨before, after ++ [(other, newest)], by simp, fun p member => ?_⟩
  obtain old | new := List.mem_append.mp member
  · exact later p old
  · rw [List.mem_singleton.mp new]
    exact ne

variable [DecidableEq K] {m : AList fun _ : K => V}

/-- The map after the entries of a log have been inserted. -/
def insertAll (m : AList fun _ : K => V) (log : List (K × V)) : AList fun _ : K => V :=
  log.foldl (fun m p => m.insert p.1 p.2) m

@[simp] theorem insertAll_nil : insertAll m [] = m := rfl

@[simp] theorem insertAll_cons (p : K × V) :
    insertAll m (p :: log) = insertAll (m.insert p.1 p.2) log := rfl

theorem insertAll_append (first second : List (K × V)) :
    insertAll m (first ++ second) = insertAll (insertAll m first) second :=
  List.foldl_append

/-- A map that has been inserted into knows the latest value of each key of the log, and what it
knew before of the other keys. -/
theorem lookup_insertAll :
    (insertAll m log).lookup k = some value ↔
      Latest log k value ∨ (m.lookup k = some value ∧ ∀ p ∈ log, p.1 ≠ k) := by
  induction log generalizing m with
  | nil => simp [not_latest_nil]
  | cons p log ih =>
      obtain ⟨other, newest⟩ := p
      rw [insertAll_cons, ih, latest_cons, or_assoc]
      apply or_congr_right
      by_cases same : other = k
      · subst same
        simp [AList.lookup_insert]
      · simp [AList.lookup_insert_ne (Ne.symm same), same]

/-- **A map knows the latest value of each key.** -/
theorem lookup_insertAll_empty :
    (insertAll (∅ : AList fun _ : K => V) log).lookup k = some value ↔ Latest log k value := by
  rw [lookup_insertAll, AList.lookup_empty, or_iff_left]
  rintro ⟨known, _⟩
  cases known

/-- The keys of a map that has been inserted into. -/
theorem mem_insertAll : k ∈ insertAll m log ↔ k ∈ m ∨ ∃ p ∈ log, p.1 = k := by
  induction log generalizing m with
  | nil => simp
  | cons p log ih =>
      rw [insertAll_cons, ih, AList.mem_insert, List.exists_mem_cons_iff, eq_comm, or_assoc,
        or_left_comm]

/-- A key has no value exactly when no entry is about it. -/
theorem lookup_insertAll_empty_eq_none :
    (insertAll (∅ : AList fun _ : K => V) log).lookup k = none ↔ ∀ p ∈ log, p.1 ≠ k := by
  rw [AList.lookup_eq_none, mem_insertAll, or_iff_right (AList.notMem_empty k)]
  push Not
  rfl

end LatestValue
