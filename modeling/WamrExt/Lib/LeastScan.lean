import Mathlib.Data.List.Induction
import Mathlib.Logic.Basic

/-!
# The first least value of a list

A scan goes over a list and keeps the element with the least value so far. Some elements have no
value, and a value only counts when it is below a bound. Because a later element has to be
strictly less to replace an earlier one, the scan ends with the first of the elements that have the
least value, or with none when no value is below the bound (`scan_cases`). There is only one such
element (`FirstLeast.unique`).
-/

set_option autoImplicit false

namespace LeastScan

open Std

universe u v

variable {ι : Type u} {β : Type v} [LE β] [LT β]

/-- A value replaces the least so far when it is less. -/
def keep [DecidableLT β] (value : ι → Option β) (best : β × Option ι) (a : ι) : β × Option ι :=
  match value a with
  | none => best
  | some b => if b < best.1 then (b, some a) else best

/-- The least value below a bound, with an element that has it. -/
def scan [DecidableLT β] (value : ι → Option β) (bound : β) (l : List ι) : β × Option ι :=
  l.foldl (keep value) (bound, none)

/-- An element has the least value, and is the first that does. -/
structure FirstLeast (value : ι → Option β) (l : List ι) (a : ι) (b : β) : Prop where
  has : value a = some b
  first : ∃ before after, l = before ++ a :: after ∧
    (∀ x ∈ before, ∀ c, value x = some c → b < c) ∧ ∀ x ∈ after, ∀ c, value x = some c → b ≤ c

variable {value : ι → Option β} {bound b c : β} {l : List ι} {a x : ι}

/-- One more element at the end: it is the first of the least if it is less than all others. -/
theorem FirstLeast.concat (least : FirstLeast value l a b)
    (atMost : ∀ c, value x = some c → b ≤ c) : FirstLeast value (l ++ [x]) a b := by
  obtain ⟨before, after, rfl, less, rest⟩ := least.first
  refine ⟨least.has, before, after ++ [x], by simp, less, fun y member c has => ?_⟩
  rcases List.mem_append.mp member with inside | last
  · exact rest y inside c has
  · cases List.mem_singleton.mp last
    exact atMost c has

theorem firstLeast_concat (has : value x = some b)
    (less : ∀ y ∈ l, ∀ c, value y = some c → b < c) : FirstLeast value (l ++ [x]) x b :=
  ⟨has, l, [], rfl, less, nofun⟩

variable [IsLinearOrder β] [LawfulOrderLT β]

/-- No value is less. -/
theorem FirstLeast.le (least : FirstLeast value l a b) (member : x ∈ l)
    (has : value x = some c) : b ≤ c := by
  obtain ⟨before, after, rfl, less, atMost⟩ := least.first
  rcases List.mem_append.mp member with earlier | later
  · exact le_of_lt (less x earlier c has)
  · rcases List.mem_cons.mp later with rfl | later
    · rw [least.has] at has
      cases has
      exact le_refl b
    · exact atMost x later c has

/-- There is one first least element. -/
theorem FirstLeast.unique {a' : ι} {b' : β} (least : FirstLeast value l a b)
    (least' : FirstLeast value l a' b') : a = a' ∧ b = b' := by
  have mem : ∀ {a b}, FirstLeast value l a b → a ∈ l := by
    intro a b least
    obtain ⟨before, after, rfl, _⟩ := least.first
    exact List.mem_append_right _ List.mem_cons_self
  obtain rfl : b = b' :=
    le_antisymm (least.le (mem least') least'.has) (least'.le (mem least) least.has)
  refine ⟨?_, rfl⟩
  obtain ⟨before, after, split, less, _⟩ := least.first
  obtain ⟨before', after', split', less', _⟩ := least'.first
  rw [split, List.append_eq_append_iff] at split'
  rcases split' with ⟨between, earlier, later⟩ | ⟨between, earlier, later⟩
  · cases between with
    | nil =>
        cases later
        rfl
    | cons y rest =>
        cases later
        have member : a ∈ before' := by
          rw [earlier]
          exact List.mem_append_right _ List.mem_cons_self
        exact absurd (less' a member b least.has) lt_irrefl
  · cases between with
    | nil =>
        cases later
        rfl
    | cons y rest =>
        cases later
        have member : a' ∈ before := by
          rw [earlier]
          exact List.mem_append_right _ List.mem_cons_self
        exact absurd (less a' member b least'.has) lt_irrefl

variable [DecidableLT β]

/-- **The scan.** It ends with the first least value, or no value is below the bound. -/
theorem scan_cases (value : ι → Option β) (bound : β) (l : List ι) :
    (scan value bound l = (bound, none) ∧ ∀ x ∈ l, ∀ c, value x = some c → bound ≤ c) ∨
      ∃ a b, scan value bound l = (b, some a) ∧ FirstLeast value l a b ∧ b < bound := by
  induction l using List.reverseRecOn with
  | nil => exact .inl ⟨rfl, nofun⟩
  | append_singleton l x ih =>
      have step : scan value bound (l ++ [x]) = keep value (scan value bound l) x := by
        rw [scan, List.foldl_append]
        rfl
      rw [step, keep]
      rcases ih with ⟨before, high⟩ | ⟨a, b, before, least, low⟩
      · rw [before]
        cases has : value x with
        | none =>
            refine .inl ⟨rfl, fun y member c known => ?_⟩
            rcases List.mem_append.mp member with inside | last
            · exact high y inside c known
            · cases List.mem_singleton.mp last
              rw [has] at known
              cases known
        | some c =>
            dsimp only
            split
            next less =>
              exact .inr ⟨x, c, rfl, firstLeast_concat has fun y member d known =>
                lt_of_lt_of_le less (high y member d known), less⟩
            next notLess =>
              refine .inl ⟨rfl, fun y member d known => ?_⟩
              rcases List.mem_append.mp member with inside | last
              · exact high y inside d known
              · cases List.mem_singleton.mp last
                rw [has] at known
                cases known
                exact not_lt.mp notLess
      · rw [before]
        cases has : value x with
        | none => exact .inr ⟨a, b, rfl, least.concat (by rw [has]; nofun), low⟩
        | some c =>
            dsimp only
            split
            next less =>
              exact .inr ⟨x, c, rfl, firstLeast_concat has fun y member d known =>
                lt_of_lt_of_le less (least.le member known), lt_trans less low⟩
            next notLess =>
              refine .inr ⟨a, b, rfl, least.concat fun d known => ?_, low⟩
              rw [has] at known
              cases known
              exact not_lt.mp notLess

/-- The first least value is what the scan finds, if it is below the bound. -/
theorem scan_eq_iff : scan value bound l = (b, some a) ↔ FirstLeast value l a b ∧ b < bound := by
  rcases scan_cases value bound l with ⟨before, high⟩ | ⟨a', b', found, least, low⟩
  · rw [before]
    refine ⟨nofun, fun ⟨least, low⟩ => ?_⟩
    obtain ⟨first, after, rfl, _⟩ := least.first
    have above := high a (List.mem_append_right _ List.mem_cons_self) b least.has
    exact absurd low (not_lt.mpr above)
  · rw [found]
    constructor
    · intro same
      cases same
      exact ⟨least, low⟩
    · rintro ⟨least', _⟩
      obtain ⟨rfl, rfl⟩ := least.unique least'
      rfl

end LeastScan
