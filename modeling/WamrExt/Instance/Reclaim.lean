import WamrExt.Instance.Lifecycle
import WamrExt.Instance.LoopTick

/-!
# Destroying an instance and dropping it

`wamr_ext_instance_destroy` does not free the instance. It marks it destroyed, and the loop
thread drops the last reference to it after an examination has found it so. At its return
the call releases its two locks, `instanceLock` first and `execFuncLock` after it, and both
are part of the instance.

One instance is followed here, with one call that destroys it and the ticks of the loop
thread. The call can be overtaken between its two releases. In every run in which no tick
examines the instance just then, the last reference goes only after the call is over
(`instance_outlives_destroy`).
-/

set_option autoImplicit false

namespace WamrExt
namespace Instance

open Transition

/-- Where the call that destroys the instance is: before its first section, between its
sections with `execFuncLock` held, at its end with both locks held and the instance marked
destroyed, with `instanceLock` released, and returned. -/
inductive DestroyPoint where
  | before
  | cleaning
  | marking
  | unlocking
  | returned
  deriving DecidableEq, Repr

/-- The instance that is destroyed, and the loop thread. The last field counts the times
that the last reference to the instance went before the call was over, and no step reads
it. -/
structure Reclaim where
  target : ℕ
  state : InstanceState
  loop : LoopTick
  destroyer : DestroyPoint := .before
  earlyDrops : ℕ := 0
  deriving DecidableEq

/-- The steps of the call, of the loop thread, and of the calls made before it. -/
inductive ReclaimStep where
  /-- Another call on the instance sets its state. -/
  | setState (started : Bool)
  /-- The call takes its locks and marks the instance as being destroyed. -/
  | destroyBegin
  /-- The call takes `instanceLock` again and marks the instance destroyed. -/
  | destroyMark
  | releaseInstanceLock
  | releaseExecFuncLock
  /-- A section of the loop thread, or a create. -/
  | loop (a : TickStep)
  deriving DecidableEq, Repr

/-- Whether an examination can make this finding in a state, and the state it leaves. -/
def Finding.inState : Finding → InstanceState → Option InstanceState
  | .nothing, state => if state ≠ .destroyed then some state else none
  | .exception _, state => if state = .started then some .ended else none
  | .destroyed, state => if state = .destroyed then some state else none

/-- Whether a section of the loop thread can run and what it makes of the state of the
instance. An examination needs `instanceLock`, and it finds what the state says. Names of
instances are not used again. -/
def Reclaim.observe (s : Reclaim) : TickStep → Option InstanceState
  | .examine finding =>
      if s.loop.pInst ≠ some s.target then some s.state
      else if s.destroyer = .marking then none
      else finding.inState s.state
  | .callbackReturn =>
      if s.loop.pInst = some s.target ∧ s.destroyer = .marking then none else some s.state
  | .create inst => if inst = s.target then none else some s.state
  | .begin | .read | .advance | .finish => some s.state

/-- One step, when it can be taken. -/
def reclaimStep : Step Reclaim ReclaimStep
  | s, .setState started =>
      if s.destroyer = .before then
        some { s with state := if started then .started else .ended }
      else none
  | s, .destroyBegin =>
      if s.destroyer = .before then
        some { s with destroyer := .cleaning, state := .destroying }
      else none
  | s, .destroyMark =>
      if s.destroyer = .cleaning then
        some { s with destroyer := .marking, state := .destroyed }
      else none
  | s, .releaseInstanceLock =>
      if s.destroyer = .marking then some { s with destroyer := .unlocking } else none
  | s, .releaseExecFuncLock =>
      if s.destroyer = .unlocking then some { s with destroyer := .returned } else none
  | s, .loop a =>
      (s.observe a).bind fun state =>
        (tickStep s.loop a).map fun loop =>
          { s with
            state := state
            loop := loop
            earlyDrops := s.earlyDrops +
              if s.loop.Referenced s.target ∧ ¬ loop.Referenced s.target ∧ s.destroyer ≠ .returned
              then 1 else 0 }

/-- The loop thread does not examine the instance between the two releases. -/
def Timely (s : Reclaim) : ReclaimStep → Prop
  | .loop (.examine _) => s.loop.pInst = some s.target → s.destroyer ≠ .unlocking
  | _ => True

instance : ∀ (s : Reclaim) (a : ReclaimStep), Decidable (Timely s a)
  | s, .loop (.examine _) =>
      inferInstanceAs (Decidable (s.loop.pInst = some s.target → s.destroyer ≠ .unlocking))
  | _, .loop .begin | _, .loop .read | _, .loop .callbackReturn | _, .loop .advance
  | _, .loop .finish | _, .loop (.create _) | _, .setState _ | _, .destroyBegin
  | _, .destroyMark | _, .releaseInstanceLock | _, .releaseExecFuncLock => isTrue trivial

/-- An instance that is in the list of all instances before anything is done to it. -/
def reclaimStart (target : ℕ) (others : List ℕ) : Reclaim where
  target := target
  state := .new
  loop := { gAllInstanceList := others ++ [target] }

/-- What timely runs keep. The instance is marked destroyed only from the end of the call
on, and a tick that has found it so, and the end of its place in the list, come after the
call. -/
structure OverFirst (s : Reclaim) : Prop where
  noEarly : s.earlyDrops = 0
  placed : Placed s.loop
  marked : s.state = .destroyed →
    s.destroyer = .marking ∨ s.destroyer = .unlocking ∨ s.destroyer = .returned
  found : s.loop.point = .examined true → s.loop.pInst = some s.target → s.destroyer = .returned
  listed : s.target ∉ s.loop.gAllInstanceList → s.destroyer = .returned

theorem overFirst_start (target : ℕ) (others : List ℕ) :
    OverFirst (reclaimStart target others) where
  noEarly := rfl
  placed := trivial
  marked := fun destroyed => by cases destroyed
  found := fun point => by cases point
  listed := fun out => absurd (List.mem_append_right others (List.mem_singleton_self target)) out

section Steps

variable {s s' : Reclaim}

/-- The point and the instance after a section that leaves the loop thread with a finding
are those of the examination that made it. -/
theorem examined_step {t t' : LoopTick} {a : TickStep} (taken : tickStep t a = some t')
    (point : t'.point = .examined true) :
    (t.point = .examined true ∧ t'.pInst = t.pInst) ∨
      (a = .examine .destroyed ∧ t'.pInst = t.pInst) := by
  cases tickStep_cases taken with
  | begin here =>
      rw [LoopTick.begin] at point
      split at point
      · rw [here] at point
        cases point
      · cases point
  | read | callbackReturn | finish => cases point
  | @examine finding =>
      right
      cases finding with
      | nothing => cases point
      | exception callback => cases callback <;> cases point
      | destroyed => exact ⟨rfl, rfl⟩
  | advance =>
      rcases advance_point (t := t) _ with leaving | atNode
      · rw [leaving] at point
        cases point
      · rw [atNode] at point
        cases point
  | create => exact Or.inl ⟨point, rfl⟩

/-- What a section of the loop thread sees of the instance: its state stays, but for an
exception, and it is found destroyed only when it is marked so and `instanceLock` is free. -/
theorem observe_eq_some {a : TickStep} {state : InstanceState}
    (seen : s.observe a = some state) :
    (state = .destroyed → s.state = .destroyed) ∧
      (a = .examine .destroyed → s.loop.pInst = some s.target →
        s.state = .destroyed ∧ s.destroyer ≠ .marking) := by
  cases a with
  | examine finding =>
      rw [Reclaim.observe] at seen
      split at seen
      · next other =>
        cases seen
        exact ⟨id, fun _ same => absurd same other⟩
      · split at seen
        · cases seen
        · next free =>
          cases finding with
          | nothing =>
              obtain ⟨_, rfl⟩ := guarded_eq_some.mp seen
              exact ⟨id, fun same => by cases same⟩
          | exception callback =>
              obtain ⟨_, rfl⟩ := guarded_eq_some.mp seen
              exact ⟨fun same => (by cases same), fun same => by cases same⟩
          | destroyed =>
              obtain ⟨marked, rfl⟩ := guarded_eq_some.mp seen
              exact ⟨id, fun _ _ => ⟨marked, free⟩⟩
  | callbackReturn =>
      rw [Reclaim.observe] at seen
      split at seen
      · cases seen
      · cases seen
        exact ⟨id, fun same => by cases same⟩
  | create inst =>
      rw [Reclaim.observe] at seen
      split at seen
      · cases seen
      · cases seen
        exact ⟨id, fun same => by cases same⟩
  | begin | read | advance | finish =>
      cases seen
      exact ⟨id, fun same => by cases same⟩

/-- A section of the loop thread. -/
theorem OverFirst.loop_step (inv : OverFirst s) {a : TickStep} (timely : Timely s (.loop a))
    (taken : reclaimStep s (.loop a) = some s') : OverFirst s' := by
  obtain ⟨state, seen, moved⟩ := Option.bind_eq_some_iff.mp taken
  obtain ⟨loop, ticked, rfl⟩ := Option.map_eq_some_iff.mp moved
  obtain ⟨kept, destroyed⟩ := observe_eq_some seen
  -- the node goes only after a finding, and that was made after the call
  have listed : s.target ∉ loop.gAllInstanceList → s.destroyer = .returned := by
    intro out
    by_cases before : s.target ∈ s.loop.gAllInstanceList
    · rcases mem_list_step inv.placed ticked before with still | ⟨point, held⟩
      · exact absurd still out
      · exact inv.found point held
    · exact inv.listed before
  refine ⟨?_, inv.placed.step ticked, fun marked => inv.marked (kept marked), ?_, listed⟩
  · simp only [inv.noEarly, Nat.zero_add]
    rw [if_neg]
    rintro ⟨_, unreferenced, notOver⟩
    exact notOver (listed fun member => unreferenced (Or.inl member))
  · intro point held
    rcases examined_step ticked point with ⟨before, same⟩ | ⟨rfl, same⟩
    · exact inv.found before (same ▸ held)
    · have mine : s.loop.pInst = some s.target := same ▸ held
      obtain ⟨marked, free⟩ := destroyed rfl mine
      rcases inv.marked marked with marking | unlocking | returned
      · exact absurd marking free
      · exact absurd unlocking (timely mine)
      · exact returned

theorem OverFirst.step {a : ReclaimStep} (inv : OverFirst s) (timely : Timely s a)
    (taken : reclaimStep s a = some s') : OverFirst s' := by
  cases a with
  | setState started =>
      obtain ⟨before, rfl⟩ := guarded_eq_some.mp taken
      refine ⟨inv.noEarly, inv.placed, fun marked => ?_, inv.found, inv.listed⟩
      cases started <;> cases marked
  | destroyBegin =>
      obtain ⟨before, rfl⟩ := guarded_eq_some.mp taken
      have never : s.destroyer ≠ .returned := by simp [before]
      refine ⟨inv.noEarly, inv.placed, fun marked => (by cases marked), ?_, ?_⟩
      · exact fun point held => absurd (inv.found point held) never
      · exact fun out => absurd (inv.listed out) never
  | destroyMark =>
      obtain ⟨cleaning, rfl⟩ := guarded_eq_some.mp taken
      have never : s.destroyer ≠ .returned := by simp [cleaning]
      refine ⟨inv.noEarly, inv.placed, fun _ => Or.inl rfl, ?_, ?_⟩
      · exact fun point held => absurd (inv.found point held) never
      · exact fun out => absurd (inv.listed out) never
  | releaseInstanceLock =>
      obtain ⟨marking, rfl⟩ := guarded_eq_some.mp taken
      have never : s.destroyer ≠ .returned := by simp [marking]
      refine ⟨inv.noEarly, inv.placed, fun _ => Or.inr (Or.inl rfl), ?_, ?_⟩
      · exact fun point held => absurd (inv.found point held) never
      · exact fun out => absurd (inv.listed out) never
  | releaseExecFuncLock =>
      obtain ⟨_, rfl⟩ := guarded_eq_some.mp taken
      exact ⟨inv.noEarly, inv.placed, fun _ => Or.inr (Or.inr rfl), fun _ _ => rfl,
        fun _ => rfl⟩
  | loop a => exact inv.loop_step timely taken

end Steps

/-- **The instance outlives the call that destroys it** in every run in which the loop
thread does not examine it between the two releases. -/
theorem instance_outlives_destroy {target : ℕ} {others : List ℕ} {s : Reclaim}
    {steps : List ReclaimStep} (timely : Meets reclaimStep Timely (reclaimStart target others) steps)
    (reached : run reclaimStep (reclaimStart target others) steps = some s) :
    s.earlyDrops = 0 :=
  (run_invariant OverFirst.step (overFirst_start target others) timely reached).noEarly

/-- A tick that begins before the call is over, and drops the instance after it. -/
theorem slow_tick_outlived :
    (Reclaim.mk 1 .destroyed { gAllInstanceList := [0], iterator := 1 } .returned 0).earlyDrops = 0 := by
  have reached : run reclaimStep (reclaimStart 1 [0])
      [.setState true, .destroyBegin, .loop .begin, .loop .read, .loop (.examine .nothing),
        .loop .advance, .loop .read, .destroyMark, .releaseInstanceLock, .releaseExecFuncLock,
        .loop (.examine .destroyed), .loop .advance, .loop .finish] =
      some (.mk 1 .destroyed { gAllInstanceList := [0], iterator := 1 } .returned 0) := by
    decide
  exact instance_outlives_destroy (by decide) reached

/-- The loop thread examines the instance between the two releases, and drops it while the
call still holds `execFuncLock`. -/
theorem quick_tick_drops_early :
    (run reclaimStep (reclaimStart 1 [])
      [.setState true, .destroyBegin, .loop .begin, .loop .read, .destroyMark,
        .releaseInstanceLock, .loop (.examine .destroyed), .loop .advance, .loop .finish]).map
        (fun s => (s.destroyer, s.earlyDrops)) = some (.unlocking, 1) := by
  decide

end Instance
end WamrExt
