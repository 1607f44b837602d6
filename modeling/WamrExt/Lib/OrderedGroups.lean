import Mathlib.Data.List.Dedup

/-!
# Grouping by an ordered key

A map that is kept as a list in the order of its keys, and a loop that changes the value of the
key of each item, which it makes first if the map has no such key. What comes out is one value for
each key of the items, in increasing order, and the value is that of the same loop over the items
of the key alone, in their order (`collect_eq`).
-/

set_option autoImplicit false

namespace OrderedGroups

universe u v w

variable {K : Type u} {V : Type v} {A : Type w}

/-- The keys increase. -/
def Ordered [LT K] (map : List (K × V)) : Prop := map.Pairwise fun p q => p.1 < q.1

section Change

variable [LT K] [DecidableLT K] [DecidableEq K]

/-- Changes the value of a key, which is `start` first if there is none. -/
def change (start : V) (k : K) (f : V → V) : List (K × V) → List (K × V)
  | [] => [(k, f start)]
  | (other, v) :: rest =>
      if k = other then (other, f v) :: rest
      else if k < other then (k, f start) :: (other, v) :: rest
      else (other, v) :: change start k f rest

/-- The value of a key, or `start`. -/
def valueOf (start : V) (k : K) (map : List (K × V)) : V := (map.lookup k).getD start

variable {start : V} {k other : K} {f : V → V} {map : List (K × V)}

/-- The keys of a map after a change. -/
theorem mem_keys_change :
    other ∈ (change start k f map).map Prod.fst ↔ other = k ∨ other ∈ map.map Prod.fst := by
  induction map with
  | nil => simp [change]
  | cons p rest ih =>
      obtain ⟨first, v⟩ := p
      rw [change]
      split
      next same =>
        subst same
        simp
      next =>
        split
        next => simp
        next =>
          rw [List.map_cons, List.mem_cons, ih, List.map_cons, List.mem_cons]
          exact or_left_comm

theorem lookup_change_of_ne (ne : other ≠ k) :
    (change start k f map).lookup other = map.lookup other := by
  induction map with
  | nil => simp [change, List.lookup_cons, beq_false_of_ne ne]
  | cons p rest ih =>
      obtain ⟨first, v⟩ := p
      rw [change]
      split
      next same =>
        subst same
        simp [List.lookup_cons, beq_false_of_ne ne]
      next =>
        split
        next => simp [List.lookup_cons, beq_false_of_ne ne]
        next => simp only [List.lookup_cons, ih]

end Change

section Distinct

variable [LE K] [DecidableLE K] [DecidableEq K] {keys : List K}

/-- The keys of a list in increasing order, each of them once. -/
def distinct (keys : List K) : List K :=
  keys.dedup.mergeSort fun k other => decide (k ≤ other)

theorem mem_distinct {k : K} : k ∈ distinct keys ↔ k ∈ keys := by
  rw [distinct, List.mem_mergeSort, List.mem_dedup]

end Distinct

section Keys

variable [LT K] [LE K] [Std.IsLinearOrder K] [Std.LawfulOrderLT K]

/-- Increasing lists with the same members are the same. -/
theorem eq_of_increasing {first second : List K} (increasing : first.Pairwise (· < ·))
    (increasing' : second.Pairwise (· < ·)) (same : ∀ k, k ∈ first ↔ k ∈ second) :
    first = second := by
  have nodup : ∀ {l : List K}, l.Pairwise (· < ·) → l.Nodup := fun sorted =>
    sorted.imp Std.ne_of_lt
  apply List.Perm.eq_of_pairwise _ increasing increasing'
    ((List.perm_ext_iff_of_nodup (nodup increasing) (nodup increasing')).mpr same)
  intro a b _ _ lt lt'
  exact absurd (Std.lt_trans lt lt') Std.lt_irrefl

variable [DecidableLE K] [DecidableEq K] {keys : List K}

theorem distinct_increasing : (distinct keys).Pairwise (· < ·) := by
  have sorted : (distinct keys).Pairwise (· ≤ ·) := by
    have ordered : (distinct keys).Pairwise fun k other => decide (k ≤ other) = true := by
      apply List.pairwise_mergeSort
      · intro a b c
        simpa using Std.le_trans
      · intro a b
        simpa using Std.le_total
    exact ordered.imp of_decide_eq_true
  have nodup : (distinct keys).Nodup :=
    (List.mergeSort_perm keys.dedup _).nodup_iff.mpr (List.nodup_dedup keys)
  exact (sorted.and nodup).imp fun pair => Std.lt_of_le_of_ne pair.1 pair.2

end Keys

section Lookup

variable [LT K] [Std.Irrefl fun k other : K => k < other] [DecidableEq K]

variable {k : K} {map : List (K × V)}

/-- A key below all of a map has no value in it. -/
theorem lookup_of_below (below : ∀ p ∈ map, k < p.1) : map.lookup k = none := by
  rw [List.lookup_eq_none_iff]
  intro p member
  exact bne_iff_ne.mpr (Std.ne_of_lt (below p member))

/-- The entries of an ordered map are the values that it has. -/
theorem lookup_of_mem {v : V} (ordered : Ordered map) (member : (k, v) ∈ map) :
    map.lookup k = some v := by
  induction map with
  | nil => cases member
  | cons q rest ih =>
      obtain ⟨first, other⟩ := q
      obtain ⟨above, later⟩ := List.pairwise_cons.mp ordered
      obtain own | member := List.mem_cons.mp member
      · cases own
        exact List.lookup_cons_self
      · have ne : k ≠ first := (Std.ne_of_lt (above _ member)).symm
        rw [List.lookup_cons, beq_false_of_ne ne]
        exact ih later member

end Lookup

section Order

variable [LT K] [LE K] [Std.IsLinearOrder K] [Std.LawfulOrderLT K]

variable {start : V} {k : K} {f : V → V} {map : List (K × V)}

/-- A key below the first of an ordered map is below all. -/
theorem below_of_first {p : K × V} (above : ∀ q ∈ map, p.1 < q.1) (before : k < p.1) :
    ∀ q ∈ p :: map, k < q.1 := by
  intro q member
  obtain rfl | member := List.mem_cons.mp member
  · exact before
  · exact Std.lt_trans before (above q member)

variable [DecidableLT K] [DecidableEq K]

theorem ordered_change (ordered : Ordered map) : Ordered (change start k f map) := by
  induction map with
  | nil => exact List.pairwise_singleton _ _
  | cons p rest ih =>
      obtain ⟨first, v⟩ := p
      obtain ⟨above, later⟩ := List.pairwise_cons.mp ordered
      rw [change]
      split
      next => exact List.pairwise_cons.mpr ⟨above, later⟩
      next ne =>
        split
        next before => exact List.pairwise_cons.mpr ⟨below_of_first above before, ordered⟩
        next after =>
          apply List.pairwise_cons.mpr ⟨?_, ih later⟩
          intro q member
          have key : q.1 ∈ (change start k f rest).map Prod.fst := List.mem_map_of_mem member
          obtain new | old := mem_keys_change.mp key
          · rw [new]
            exact ((Std.lt_trichotomy k first).resolve_left after).resolve_left ne
          · obtain ⟨q', member', same⟩ := List.mem_map.mp old
            rw [← same]
            exact above q' member'

theorem lookup_change_self (ordered : Ordered map) :
    (change start k f map).lookup k = some (f (valueOf start k map)) := by
  induction map with
  | nil => simp [change, valueOf]
  | cons p rest ih =>
      obtain ⟨first, v⟩ := p
      obtain ⟨above, later⟩ := List.pairwise_cons.mp ordered
      rw [change]
      split
      next same =>
        subst same
        simp [valueOf]
      next ne =>
        split
        next before =>
          have absent : List.lookup k ((first, v) :: rest) = none :=
            lookup_of_below (below_of_first above before)
          rw [valueOf, absent]
          simp
        next =>
          have skip : ∀ map : List (K × V), List.lookup k ((first, v) :: map) = map.lookup k :=
            fun map => by rw [List.lookup_cons, beq_false_of_ne ne]
          rw [skip, ih later, valueOf, valueOf, skip]

end Order

/-! ## The loop -/

section Loop

variable [LT K] [DecidableLT K] [DecidableEq K]

variable (start : V) (key : A → K) (add : A → V → V)

/-- The map after the items of a list have changed the values of their keys, from a map on. -/
def collectFrom (map : List (K × V)) (items : List A) : List (K × V) :=
  items.foldl (fun map item => change start (key item) (add item) map) map

/-- The items of a key, in their order. -/
def group (items : List A) (k : K) : List A := items.filter fun item => key item = k

variable {start key add} {map : List (K × V)} {items : List A} {k : K}

theorem mem_keys_collectFrom :
    k ∈ (collectFrom start key add map items).map Prod.fst ↔
      (∃ item ∈ items, key item = k) ∨ k ∈ map.map Prod.fst := by
  induction items generalizing map with
  | nil => simp [collectFrom]
  | cons item rest ih =>
      have step := @ih (change start (key item) (add item) map)
      rw [mem_keys_change] at step
      rw [List.exists_mem_cons_iff, or_assoc, or_left_comm, @eq_comm _ (key item)]
      exact step

end Loop

section Collect

variable [LT K] [LE K] [Std.IsLinearOrder K] [Std.LawfulOrderLT K] [DecidableLT K] [DecidableEq K]

variable {start : V} {key : A → K} {add : A → V → V} {map : List (K × V)} {items : List A} {k : K}

theorem ordered_collectFrom (ordered : Ordered map) :
    Ordered (collectFrom start key add map items) := by
  induction items generalizing map with
  | nil => exact ordered
  | cons item rest ih => exact ih (ordered_change ordered)

/-- The value of a key is changed by the items of the key. -/
theorem valueOf_collectFrom (ordered : Ordered map) :
    valueOf start k (collectFrom start key add map items) =
      (group key items k).foldl (fun v item => add item v) (valueOf start k map) := by
  induction items generalizing map with
  | nil => rfl
  | cons item rest ih =>
      have step := @ih (change start (key item) (add item) map) (ordered_change ordered)
      rw [group, List.filter_cons]
      by_cases own : key item = k
      · subst own
        rw [valueOf, valueOf, lookup_change_self ordered] at step
        simp only [decide_true, if_true, List.foldl_cons]
        exact step
      · rw [valueOf, valueOf, lookup_change_of_ne (Ne.symm own)] at step
        simp only [decide_eq_false own, Bool.false_eq_true, if_false]
        exact step

/-- **What the loop collects.** One entry for each key of the items, in increasing order, with the
value that the items of the key give alone. -/
theorem collect_eq [DecidableLE K] :
    collectFrom start key add [] items =
      (distinct (items.map key)).map fun k =>
        (k, (group key items k).foldl (fun v item => add item v) start) := by
  let map := collectFrom start key add [] items
  have ordered : Ordered map := ordered_collectFrom List.Pairwise.nil
  have own : map.map Prod.fst = distinct (items.map key) := by
    apply eq_of_increasing (List.pairwise_map.mpr ordered) distinct_increasing
    intro k
    rw [mem_distinct, mem_keys_collectFrom, List.mem_map]
    simp
  have value : ∀ p ∈ map,
      (p.1, (group key items p.1).foldl (fun v item => add item v) start) = p := by
    intro p member
    have found : valueOf start p.1 map = p.2 := by
      rw [valueOf, lookup_of_mem ordered member]
      rfl
    rw [valueOf_collectFrom List.Pairwise.nil] at found
    exact Prod.ext rfl found
  rw [← own, List.map_map]
  exact ((List.map_congr_left value).trans (List.map_id' map)).symm

end Collect

end OrderedGroups
