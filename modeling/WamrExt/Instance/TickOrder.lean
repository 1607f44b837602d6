import Mathlib.Data.List.Nodup
import WamrExt.Instance.LoopTick
import WamrExt.Lib.RecordedRuns

/-!
# What a tick of the loop thread visits

A tick goes through the list of all instances without the lock of the list, while other threads
append to it. It examines the instances one after another and erases the nodes of those that it
finds destroyed.

A record keeps what a tick has to do with: the list when it began, what has been appended since,
and what it has examined, with what it has found. In every run, and whatever is found, the
instances that it has examined are the first ones of the list when it began followed by what has
been appended, in this order. The list is always what is left of them, without those that were
found destroyed, followed by those that are still to come. When the tick is over it has been
through the whole list that it began with (`tick_visits_in_order`).
-/

set_option autoImplicit false

namespace WamrExt
namespace Instance

open Transition

/-- The history of the last tick: the list when it began, the instances that were created since
then, and the examinations in order. -/
structure TickRecord where
  listed : List ℕ := []
  created : List ℕ := []
  examined : List (ℕ × Finding) := []
  deriving DecidableEq, Repr

/-- What a step adds to the record. -/
def TickRecord.note (t : LoopTick) (a : TickStep) (r : TickRecord) : TickRecord :=
  match a with
  | .begin => { listed := t.gAllInstanceList }
  | .examine finding =>
      { r with examined := r.examined ++ t.pInst.toList.map fun inst => (inst, finding) }
  | .create inst => { r with created := r.created ++ [inst] }
  | .read | .callbackReturn | .advance | .finish => r

/-- The instances that are not found destroyed. -/
def kept (examined : List (ℕ × Finding)) : List ℕ :=
  (examined.filter fun entry => entry.2 ≠ .destroyed).map Prod.fst

/-- The examinations whose nodes the tick has left. Between an examination and the section after
it the tick is still at the node. -/
def TickRecord.settled (t : LoopTick) (r : TickRecord) : List (ℕ × Finding) :=
  match t.point with
  | .inCallback | .examined _ => r.examined.dropLast
  | .idle | .atNode | .holding | .leaving => r.examined

/-- No tick is under way, or it only has to return. -/
def LoopTick.Over (t : LoopTick) : Prop := t.point = .idle ∨ t.point = .leaving

/-- A tick visits and prunes as it should. -/
structure TickCorrect (t : LoopTick) (r : TickRecord) : Prop where
  /-- The iterator is at a live node whenever it is used. -/
  live : Placed t
  /-- The instances are examined in the order of the list, each node once. -/
  inOrder : r.examined.map Prod.fst <+: r.listed ++ r.created
  /-- Exactly those found destroyed are gone, and the others are in their order. -/
  pruned : ∃ rest, t.gAllInstanceList = kept (r.settled t) ++ rest ∧
    (r.settled t).map Prod.fst ++ rest = r.listed ++ r.created
  /-- A tick that is over has been through the list that it began with. -/
  complete : t.Over → r.listed <+: r.examined.map Prod.fst
  /-- So it has examined each instance of that list once, if no two creates give the same one. -/
  once : t.Over → (r.listed ++ r.created).Nodup → ∀ inst ∈ r.listed,
    (r.examined.map Prod.fst).count inst = 1

/-! ## The invariant -/

/-- The tick is done with some examinations, and its iterator is at the next node. -/
structure AtNext (t : LoopTick) (r : TickRecord) (done : List (ℕ × Finding)) (inst : ℕ)
    (rest : List ℕ) : Prop where
  list : t.gAllInstanceList = kept done ++ inst :: rest
  order : done.map Prod.fst ++ inst :: rest = r.listed ++ r.created
  iterator : t.iterator = (kept done).length

/-- How the list and the record belong together at each point of a tick. -/
def Recorded (t : LoopTick) (r : TickRecord) : Prop :=
  match t.point with
  | .idle | .leaving => r.listed.length ≤ r.examined.length ∧
      ∃ rest, t.gAllInstanceList = kept r.examined ++ rest ∧
        r.examined.map Prod.fst ++ rest = r.listed ++ r.created
  | .atNode => ∃ inst rest, AtNext t r r.examined inst rest
  | .holding => ∃ inst rest, AtNext t r r.examined inst rest ∧ t.pInst = some inst
  | .inCallback => ∃ done inst finding rest, AtNext t r done inst rest ∧
      r.examined = done ++ [(inst, finding)] ∧ finding ≠ .destroyed
  | .examined bInstDestroyed => ∃ done inst finding rest, AtNext t r done inst rest ∧
      r.examined = done ++ [(inst, finding)] ∧ (bInstDestroyed = true ↔ finding = .destroyed)

theorem recorded_start (list : List ℕ) :
    Recorded { gAllInstanceList := list } { created := list } :=
  ⟨Nat.zero_le _, list, rfl, rfl⟩

section Steps

variable {t t' : LoopTick} {r : TickRecord} {done : List (ℕ × Finding)} {inst : ℕ}
  {rest : List ℕ} {finding : Finding}

theorem kept_append_destroyed : kept (done ++ [(inst, .destroyed)]) = kept done := by
  simp [kept]

theorem kept_append (notDestroyed : finding ≠ .destroyed) :
    kept (done ++ [(inst, finding)]) = kept done ++ [inst] := by
  simp [kept, notDestroyed]

/-- An instance that is created comes last. -/
theorem AtNext.create (next : AtNext t r done inst rest) (created : ℕ) (point : TickPoint) :
    AtNext { t with gAllInstanceList := t.gAllInstanceList ++ [created], point := point }
      { r with created := r.created ++ [created] } done inst (rest ++ [created]) where
  list := by
    rw [next.list, List.append_assoc, List.cons_append]
  order := by
    rw [← List.cons_append, ← List.append_assoc, next.order, List.append_assoc]
  iterator := next.iterator

/-- The node of an instance is erased exactly if it was found destroyed, and the iterator is past
all that is kept. -/
theorem AtNext.advance_list (next : AtNext t r done inst rest) {bInstDestroyed : Bool}
    (found : bInstDestroyed = true ↔ finding = .destroyed) :
    (t.advance bInstDestroyed).gAllInstanceList = kept (done ++ [(inst, finding)]) ++ rest ∧
      (t.advance bInstDestroyed).iterator = (kept (done ++ [(inst, finding)])).length := by
  cases bInstDestroyed with
  | true =>
      obtain rfl := found.mp rfl
      rw [kept_append_destroyed]
      refine ⟨?_, next.iterator⟩
      calc
        t.gAllInstanceList.eraseIdx t.iterator
          = (kept done ++ inst :: rest).eraseIdx (kept done).length := by
            rw [next.list, next.iterator]
        _ = kept done ++ rest := by
            rw [List.eraseIdx_append_of_length_le (Nat.le_refl _), Nat.sub_self,
              List.eraseIdx_cons_zero]
  | false =>
      have notDestroyed : finding ≠ .destroyed := fun same => by
        cases found.mpr same
      rw [kept_append notDestroyed, List.append_assoc, List.length_append]
      exact ⟨next.list, congrArg (· + 1) next.iterator⟩

/-- **The section after an examination.** -/
theorem AtNext.advance (next : AtNext t r done inst rest) {bInstDestroyed : Bool}
    (examined : r.examined = done ++ [(inst, finding)])
    (found : bInstDestroyed = true ↔ finding = .destroyed) :
    Recorded (t.advance bInstDestroyed) r := by
  obtain ⟨list, iterator⟩ := next.advance_list found
  rw [← examined] at list iterator
  have order : r.examined.map Prod.fst ++ rest = r.listed ++ r.created := by
    rw [examined, List.map_append, List.append_assoc]
    exact next.order
  have point : (t.advance bInstDestroyed).point =
      if (t.advance bInstDestroyed).iterator = (t.advance bInstDestroyed).gAllInstanceList.length
        then .leaving else .atNode := rfl
  rw [iterator, list, List.length_append] at point
  cases rest with
  | nil =>
      have leaving := point.trans (if_pos rfl)
      have lengths := congrArg List.length order
      simp only [List.append_nil, List.length_map, List.length_append] at lengths
      rw [Recorded, leaving]
      exact ⟨by omega, [], list, order⟩
  | cons first rest =>
      rw [if_neg (by simp)] at point
      rw [Recorded, point]
      exact ⟨first, rest, list, order, iterator⟩

/-- A tick begins at the head of the list, if there is one. -/
theorem recorded_begin (idle : t.point = .idle) : Recorded t.begin (r.note t .begin) := by
  rw [LoopTick.begin, TickRecord.note]
  cases list : t.gAllInstanceList with
  | nil =>
      rw [if_pos rfl, Recorded, idle, list]
      exact ⟨Nat.zero_le _, [], rfl, rfl⟩
  | cons inst rest =>
      rw [if_neg (List.cons_ne_nil _ _)]
      exact ⟨inst, rest, rfl, (List.append_nil _).symm, rfl⟩

/-- An examination is recorded with the instance of the node. -/
theorem AtNext.examine (next : AtNext t r r.examined inst rest) (held : t.pInst = some inst)
    (finding : Finding) :
    Recorded { t with point := finding.next } (r.note t (.examine finding)) := by
  have examined : (r.note t (.examine finding)).examined = r.examined ++ [(inst, finding)] := by
    rw [TickRecord.note, held]
    rfl
  have same : AtNext { t with point := finding.next } (r.note t (.examine finding)) r.examined
      inst rest := ⟨next.list, next.order, next.iterator⟩
  cases finding with
  | nothing | destroyed => exact ⟨_, _, _, _, same, examined, by decide⟩
  | exception callback => cases callback <;> exact ⟨_, _, _, _, same, examined, by decide⟩

/-- A create changes the end of the list only. -/
theorem Recorded.create (holds : Recorded t r) (created : ℕ) :
    Recorded { t with gAllInstanceList := t.gAllInstanceList ++ [created] }
      (r.note t (.create created)) := by
  unfold Recorded at holds ⊢
  cases here : t.point with
  | idle | leaving =>
      simp only [here] at holds ⊢
      obtain ⟨through, rest, list, order⟩ := holds
      refine ⟨through, rest ++ [created], ?_, ?_⟩
      · rw [list, List.append_assoc]
        rfl
      · rw [TickRecord.note, ← List.append_assoc, order, List.append_assoc]
  | atNode =>
      simp only [here] at holds ⊢
      obtain ⟨first, rest, next⟩ := holds
      exact ⟨first, rest ++ [created], next.create created _⟩
  | holding =>
      simp only [here] at holds ⊢
      obtain ⟨first, rest, next, held⟩ := holds
      exact ⟨first, rest ++ [created], next.create created _, held⟩
  | inCallback | examined _ =>
      simp only [here] at holds ⊢
      obtain ⟨done, first, finding, rest, next, found⟩ := holds
      exact ⟨done, first, finding, rest ++ [created], next.create created _, found⟩

/-- **Every step** keeps the list and the record together. -/
theorem Recorded.step {a : TickStep} (holds : Recorded t r) (taken : tickStep t a = some t') :
    Recorded t' (r.note t a) := by
  cases tickStep_cases taken with
  | begin here => exact recorded_begin here
  | read here node =>
      rw [Recorded, here] at holds
      obtain ⟨first, rest, next⟩ := holds
      rw [next.list, next.iterator, List.getElem?_append_right (Nat.le_refl _), Nat.sub_self] at node
      cases node
      exact ⟨_, rest, ⟨next.list, next.order, next.iterator⟩, rfl⟩
  | @examine finding here =>
      rw [Recorded, here] at holds
      obtain ⟨inst, rest, next, held⟩ := holds
      exact next.examine held finding
  | callbackReturn here =>
      rw [Recorded, here] at holds
      obtain ⟨done, inst, finding, rest, next, examined, notDestroyed⟩ := holds
      exact ⟨done, inst, finding, rest, ⟨next.list, next.order, next.iterator⟩, examined,
        fun same => (by cases same), fun same => absurd same notDestroyed⟩
  | advance here =>
      rw [Recorded, here] at holds
      obtain ⟨done, inst, finding, rest, next, examined, found⟩ := holds
      exact next.advance examined found
  | finish here =>
      rw [Recorded, here] at holds
      exact holds
  | create => exact holds.create _

/-- The examinations that are settled, and what is still to come, at each point. -/
theorem Recorded.pruned (holds : Recorded t r) : ∃ rest,
    t.gAllInstanceList = kept (r.settled t) ++ rest ∧
      (r.settled t).map Prod.fst ++ rest = r.listed ++ r.created := by
  rw [Recorded] at holds
  rw [TickRecord.settled]
  cases here : t.point with
  | idle | leaving =>
      simp only [here] at holds ⊢
      exact holds.2
  | atNode =>
      simp only [here] at holds ⊢
      obtain ⟨inst, rest, next⟩ := holds
      exact ⟨inst :: rest, next.list, next.order⟩
  | holding =>
      simp only [here] at holds ⊢
      obtain ⟨inst, rest, next, _⟩ := holds
      exact ⟨inst :: rest, next.list, next.order⟩
  | inCallback | examined _ =>
      simp only [here] at holds ⊢
      obtain ⟨done, inst, finding, rest, next, examined, _⟩ := holds
      rw [examined, List.dropLast_concat]
      exact ⟨inst :: rest, next.list, next.order⟩

theorem Recorded.inOrder (holds : Recorded t r) :
    r.examined.map Prod.fst <+: r.listed ++ r.created := by
  rw [Recorded] at holds
  cases here : t.point with
  | idle | leaving =>
      simp only [here] at holds
      obtain ⟨_, rest, _, order⟩ := holds
      exact ⟨rest, order⟩
  | atNode =>
      simp only [here] at holds
      obtain ⟨inst, rest, next⟩ := holds
      exact ⟨inst :: rest, next.order⟩
  | holding =>
      simp only [here] at holds
      obtain ⟨inst, rest, next, _⟩ := holds
      exact ⟨inst :: rest, next.order⟩
  | inCallback | examined _ =>
      simp only [here] at holds
      obtain ⟨done, inst, finding, rest, next, examined, _⟩ := holds
      refine ⟨rest, ?_⟩
      rw [examined, List.map_append, List.append_assoc]
      exact next.order

/-- A tick that is over has been through its list. -/
theorem Recorded.complete (holds : Recorded t r) (isOver : t.Over) :
    r.listed <+: r.examined.map Prod.fst := by
  have through : r.listed.length ≤ r.examined.length := by
    rw [Recorded] at holds
    rcases isOver with here | here <;>
    · rw [here] at holds
      exact holds.1
  exact List.prefix_of_prefix_length_le (List.prefix_append _ _) holds.inOrder
    (by rwa [List.length_map])

theorem Recorded.correct (placed : Placed t) (holds : Recorded t r) : TickCorrect t r where
  live := placed
  inOrder := holds.inOrder
  pruned := holds.pruned
  complete := holds.complete
  once isOver distinct _ listed :=
    List.count_eq_one_of_mem (distinct.sublist holds.inOrder.sublist)
      ((holds.complete isOver).subset listed)

end Steps

/-- **A tick visits and prunes as it should.** At every point of every run from any list, with
creates at any time and whatever the examinations find, the iterator is at a live node when it is
used, the instances are visited in the order of the list, each node once, those found destroyed
and no others are removed, the rest keep their order, and a tick that is over has visited all of
the list that it began with. -/
theorem tick_visits_in_order (list : List ℕ) {steps : List TickStep} {t : LoopTick}
    (reached : run tickStep { gAllInstanceList := list } steps = some t) :
    ∃ record, run (recorded tickStep fun t a r => r.note t a)
        ({ gAllInstanceList := list }, { created := list }) steps = some (t, record) ∧
      TickCorrect t record := by
  have start : Placed { gAllInstanceList := list } := trivial
  have placed : Placed t := run_invariant_always Placed.step start reached
  obtain ⟨record, recorded, holds⟩ := recorded_invariant Recorded.step (recorded_start list) reached
  exact ⟨record, recorded, holds.correct placed⟩

/-- A tick over two instances, of which the first is destroyed, while a third is created. -/
theorem tick_of_two :
    ∃ record, run (recorded tickStep fun t a r => r.note t a)
        ({ gAllInstanceList := [7, 8] }, { created := [7, 8] })
        [.begin, .read, .examine .destroyed, .create 9, .advance, .read] =
          some (⟨[8, 9], .holding, 0, some 8⟩, record) ∧
      TickCorrect ⟨[8, 9], .holding, 0, some 8⟩ record :=
  tick_visits_in_order [7, 8] (by decide)

end Instance
end WamrExt
