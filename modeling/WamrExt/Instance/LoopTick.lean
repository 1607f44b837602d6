import Mathlib.Data.List.Basic
import WamrExt.Lib.Transition

/-!
# A tick of the loop thread

The loop thread looks through the list of all instances every 100 ms
(`LoopCheckInstanceRoutine`). It takes `gWasmLock` to move its iterator and to erase the
node of an instance that it has found destroyed, and the lock of an instance to examine it.
In between it holds a reference to the instance in `pInst`.

Each of these sections is one step here. What an examination finds is given with the step,
so this module says nothing about the instances. A create of an instance appends it to the
list at any time.

The iterator designates a node whenever the tick uses it, and the instance examined is the
one of that node (`Placed`).
-/

set_option autoImplicit false

namespace WamrExt
namespace Instance

open Transition

/-- Where the loop thread is: between ticks, before the read of a node, before the
examination of `pInst`, inside the exception callback, after the examination, and past the
end of the list. -/
inductive TickPoint where
  | idle
  | atNode
  | holding
  | inCallback
  | examined (bInstDestroyed : Bool)
  | leaving
  deriving DecidableEq, Repr

/-- The list of all instances and the locals of the loop thread. A node of the list and
`pInst` each hold a reference to an instance. -/
structure LoopTick where
  gAllInstanceList : List ℕ
  point : TickPoint := .idle
  iterator : ℕ := 0
  pInst : Option ℕ := none
  deriving DecidableEq, Repr

/-- What the examination of an instance finds: nothing to do, an exception to report
through the callback or with no callback, or that the instance was destroyed. -/
inductive Finding where
  | nothing
  | exception (callback : Bool)
  | destroyed
  deriving DecidableEq, Repr

/-- The sections of a tick, and the creation of an instance. -/
inductive TickStep where
  | begin
  | read
  | examine (finding : Finding)
  | callbackReturn
  | advance
  | finish
  | create (inst : ℕ)
  deriving DecidableEq, Repr

/-- Where an examination goes on. -/
def Finding.next : Finding → TickPoint
  | .nothing | .exception false => .examined false
  | .exception true => .inCallback
  | .destroyed => .examined true

namespace LoopTick

/-- The first section of a tick: there is nothing to do with an empty list. -/
def begin (t : LoopTick) : LoopTick :=
  if t.gAllInstanceList = [] then t else { t with point := .atNode, iterator := 0 }

/-- The section after an examination: the node is erased if its instance was destroyed, and
the iterator moves on. -/
def advance (t : LoopTick) (bInstDestroyed : Bool) : LoopTick :=
  let list := if bInstDestroyed then t.gAllInstanceList.eraseIdx t.iterator
    else t.gAllInstanceList
  let iterator := if bInstDestroyed then t.iterator else t.iterator + 1
  { t with
    gAllInstanceList := list
    iterator := iterator
    point := if iterator = list.length then .leaving else .atNode }

end LoopTick

/-- One section of a tick. A read of the list needs a node at the iterator. -/
def tickStep : Step LoopTick TickStep
  | t, .begin => if t.point = .idle then some t.begin else none
  | t, .read =>
      if t.point = .atNode then
        t.gAllInstanceList[t.iterator]?.map fun inst =>
          { t with point := .holding, pInst := some inst }
      else none
  | t, .examine finding =>
      if t.point = .holding then some { t with point := finding.next } else none
  | t, .callbackReturn =>
      if t.point = .inCallback then some { t with point := .examined false } else none
  | t, .advance =>
      match t.point with
      | .examined bInstDestroyed => some (t.advance bInstDestroyed)
      | _ => none
  | t, .finish =>
      if t.point = .leaving then some { t with point := .idle, pInst := none } else none
  | t, .create inst => some { t with gAllInstanceList := t.gAllInstanceList ++ [inst] }

/-- What a section does, with the point that it needs. -/
inductive Ticked (t : LoopTick) : TickStep → LoopTick → Prop
  | begin (here : t.point = .idle) : Ticked t .begin t.begin
  | read {inst : ℕ} (here : t.point = .atNode)
      (node : t.gAllInstanceList[t.iterator]? = some inst) :
      Ticked t .read { t with point := .holding, pInst := some inst }
  | examine {finding : Finding} (here : t.point = .holding) :
      Ticked t (.examine finding) { t with point := finding.next }
  | callbackReturn (here : t.point = .inCallback) :
      Ticked t .callbackReturn { t with point := .examined false }
  | advance {bInstDestroyed : Bool} (here : t.point = .examined bInstDestroyed) :
      Ticked t .advance (t.advance bInstDestroyed)
  | finish (here : t.point = .leaving) : Ticked t .finish { t with point := .idle, pInst := none }
  | create {inst : ℕ} :
      Ticked t (.create inst) { t with gAllInstanceList := t.gAllInstanceList ++ [inst] }

/-- A section that is taken is one of these. -/
theorem tickStep_cases {t t' : LoopTick} {a : TickStep} (taken : tickStep t a = some t') :
    Ticked t a t' := by
  cases a with
  | begin =>
      obtain ⟨here, rfl⟩ := guarded_eq_some.mp taken
      exact .begin here
  | read =>
      obtain ⟨here, moved⟩ := Option.ite_none_right_eq_some.mp taken
      obtain ⟨inst, node, rfl⟩ := Option.map_eq_some_iff.mp moved
      exact .read here node
  | examine finding =>
      obtain ⟨here, rfl⟩ := guarded_eq_some.mp taken
      exact .examine here
  | callbackReturn =>
      obtain ⟨here, rfl⟩ := guarded_eq_some.mp taken
      exact .callbackReturn here
  | advance =>
      rw [tickStep] at taken
      cases here : t.point with
      | examined bInstDestroyed =>
          simp only [here, Option.some.injEq] at taken
          subst taken
          exact .advance here
      | idle | atNode | holding | inCallback | leaving =>
          simp only [here] at taken
          cases taken
  | finish =>
      obtain ⟨here, rfl⟩ := guarded_eq_some.mp taken
      exact .finish here
  | create inst =>
      cases taken
      exact .create

/-- The instance is in the list, or the loop thread holds it. -/
def LoopTick.Referenced (t : LoopTick) (inst : ℕ) : Prop :=
  inst ∈ t.gAllInstanceList ∨ t.pInst = some inst

instance (t : LoopTick) (inst : ℕ) : Decidable (t.Referenced inst) :=
  inferInstanceAs (Decidable (_ ∨ _))

/-- The iterator designates a node, and from the read to the advance the node of `pInst`. -/
def Placed (t : LoopTick) : Prop :=
  match t.point with
  | .idle | .leaving => True
  | .atNode => t.iterator < t.gAllInstanceList.length
  | .holding | .inCallback | .examined _ =>
      ∃ inst, t.pInst = some inst ∧ t.gAllInstanceList[t.iterator]? = some inst

section Steps

variable {t t' : LoopTick}

/-- An advance leaves the iterator at a node unless the list is at its end. -/
theorem placed_advance {inst : ℕ} (node : t.gAllInstanceList[t.iterator]? = some inst)
    (bInstDestroyed : Bool) : Placed (t.advance bInstDestroyed) := by
  obtain ⟨inside, _⟩ := List.getElem?_eq_some_iff.mp node
  cases bInstDestroyed with
  | false =>
      by_cases last : t.iterator + 1 = t.gAllInstanceList.length
      · simp [Placed, LoopTick.advance, last]
      · simp only [Placed, LoopTick.advance, Bool.false_eq_true, if_false, last]
        omega
  | true =>
      have length := List.length_eraseIdx_of_lt inside
      by_cases last : t.iterator = (t.gAllInstanceList.eraseIdx t.iterator).length
      · simp only [Placed, LoopTick.advance, if_true]
        rw [if_pos last]
        trivial
      · simp only [Placed, LoopTick.advance, if_true, if_neg last]
        omega

/-- After an advance the loop goes on to the next node or ends. -/
theorem advance_point (bInstDestroyed : Bool) :
    (t.advance bInstDestroyed).point = .leaving ∨ (t.advance bInstDestroyed).point = .atNode :=
  ite_eq_or_eq _ _ _

/-- A create leaves the iterator where it is. -/
theorem placed_create (placed : Placed t) (inst : ℕ) :
    Placed { t with gAllInstanceList := t.gAllInstanceList ++ [inst] } := by
  have grown : ∀ {inst' : ℕ}, t.gAllInstanceList[t.iterator]? = some inst' →
      (t.gAllInstanceList ++ [inst])[t.iterator]? = some inst' := fun node => by
    obtain ⟨inside, _⟩ := List.getElem?_eq_some_iff.mp node
    rwa [List.getElem?_append_left inside]
  unfold Placed at placed ⊢
  cases point : t.point with
  | idle | leaving => trivial
  | atNode =>
      simp only [point, List.length_append] at placed ⊢
      omega
  | holding | inCallback | examined _ =>
      simp only [point] at placed ⊢
      obtain ⟨inst', held, node⟩ := placed
      exact ⟨inst', held, grown node⟩

/-- **The iterator stays at a live node.** -/
theorem Placed.step {a : TickStep} (placed : Placed t) (taken : tickStep t a = some t') :
    Placed t' := by
  cases tickStep_cases taken with
  | begin =>
      rw [LoopTick.begin]
      split
      · exact placed
      · next some => exact List.length_pos_iff.mpr some
  | read here node => exact ⟨_, rfl, node⟩
  | @examine finding here =>
      rw [Placed, here] at placed
      cases finding with
      | nothing | destroyed => exact placed
      | exception callback => cases callback <;> exact placed
  | callbackReturn here =>
      rw [Placed, here] at placed
      exact placed
  | advance here =>
      rw [Placed, here] at placed
      obtain ⟨inst, _, node⟩ := placed
      exact placed_advance node _
  | finish => trivial
  | create => exact placed_create placed _

/-- A tick can always go on: no section of it uses the iterator at the end of the list. -/
theorem Placed.goes_on (placed : Placed t) (busy : t.point ≠ .idle) :
    ∃ a next, (∀ inst, a ≠ .create inst) ∧ tickStep t a = some next := by
  rw [Placed] at placed
  cases point : t.point with
  | idle => exact absurd point busy
  | atNode =>
      simp only [point] at placed
      exact ⟨.read, _, fun _ => by simp,
        by rw [tickStep, if_pos point, List.getElem?_eq_getElem placed, Option.map_some]⟩
  | holding => exact ⟨.examine .nothing, _, fun _ => by simp, if_pos point⟩
  | inCallback => exact ⟨.callbackReturn, _, fun _ => by simp, if_pos point⟩
  | examined bInstDestroyed =>
      exact ⟨.advance, t.advance bInstDestroyed, fun _ => by simp, by simp only [tickStep, point]⟩
  | leaving => exact ⟨.finish, _, fun _ => by simp, if_pos point⟩

/-- An instance leaves the list only through the advance after it was found destroyed. -/
theorem mem_list_step {a : TickStep} {inst : ℕ} (placed : Placed t)
    (taken : tickStep t a = some t') (listed : inst ∈ t.gAllInstanceList) :
    inst ∈ t'.gAllInstanceList ∨
      (t.point = .examined true ∧ t.pInst = some inst) := by
  cases tickStep_cases taken with
  | begin =>
      left
      rw [LoopTick.begin]
      split <;> exact listed
  | read | examine | callbackReturn | finish => exact Or.inl listed
  | @advance bInstDestroyed here =>
      cases bInstDestroyed with
      | false => exact Or.inl listed
      | true =>
          rw [Placed, here] at placed
          obtain ⟨other, held, node⟩ := placed
          by_cases same : other = inst
          · exact Or.inr ⟨here, same ▸ held⟩
          · left
            obtain ⟨i, at_i⟩ := List.mem_iff_getElem?.mp listed
            refine List.mem_eraseIdx_iff_getElem?.mpr ⟨i, ?_, at_i⟩
            rintro rfl
            rw [node] at at_i
            exact same (Option.some.inj at_i)
  | create => exact Or.inl (List.mem_append_left _ listed)

end Steps

end Instance
end WamrExt
