import Mathlib.Data.List.Nodup
import Mathlib.Data.List.Range
import WamrExt.Instance.CallersSafety
import WamrExt.Instance.Reclaim

/-!
# All instances over all ticks

`gAllInstanceList` has a reference to every instance from its creation on. Destroying an instance
only marks it. A tick of the loop thread erases the nodes of the instances that it finds marked,
and the last reference to one of them is `pInst`, up to the next read or the end of the tick.

Here are all instances with their states, and any number of ticks. In every run the list has the
instances that were not erased, in the order of their creation. An instance is erased once, never
before it is destroyed, and nothing refers to it or calls it after its last reference is gone. When
a tick is over, no reference is left to an instance that was destroyed when it began. The callback
for exceptions is called once at most for each instance (`all_instances_sound`).

A section of a call or of a tick is one step. What calls do between their sections is in the modules
on one instance.
-/

set_option autoImplicit false

namespace WamrExt
namespace Instance

open Transition

/-- The loop thread, the states of the instances, which are known by how many were created before
them, and how often each was erased and its callback called. -/
structure AllInstances where
  loop : LoopTick := ⟨[], .idle, 0, none⟩
  states : ℕ → InstanceState := fun _ => .new
  created : ℕ := 0
  erased : ℕ → ℕ := fun _ => 0
  callbacks : ℕ → ℕ := fun _ => 0

inductive InstancesAction where
  | create
  /-- `wamr_ext_instance_start` sets the state before it returns. -/
  | startReturns (inst : ℕ) (started : Bool)
  | destroyBegin (inst : ℕ)
  | destroyMark (inst : ℕ)
  /-- A section of a tick. -/
  | tick (a : TickStep)
  deriving DecidableEq, Repr

namespace AllInstances

variable (s : AllInstances)

def setState (inst : ℕ) (state : InstanceState) : AllInstances :=
  { s with states := Function.update s.states inst state }

/-- An examination finds what the state says, and calls the callback for an exception. -/
def examine (inst : ℕ) (finding : Finding) (state : InstanceState) : AllInstances :=
  { s with
    loop := { s.loop with point := finding.next }
    states := Function.update s.states inst state
    callbacks :=
      if finding = .exception true then
        Function.update s.callbacks inst (s.callbacks inst + 1)
      else s.callbacks }

/-- The node of an instance is erased, and the iterator moves on. -/
def erase (inst : ℕ) : AllInstances :=
  { s with
    loop := s.loop.advance true
    erased := Function.update s.erased inst (s.erased inst + 1) }

end AllInstances

/-- One section. A tick examines and erases the instance that it holds. -/
def instancesStep : Step AllInstances InstancesAction := fun s a =>
  match a with
  | .create =>
      (tickStep s.loop (.create s.created)).map fun loop =>
        { s with loop := loop, created := s.created + 1 }
  | .startReturns inst started =>
      if inst < s.created ∧ s.states inst = .new then
        some (s.setState inst (if started then .started else .ended))
      else none
  | .destroyBegin inst =>
      if inst < s.created ∧ (s.states inst).rank < InstanceState.destroying.rank then
        some (s.setState inst .destroying)
      else none
  | .destroyMark inst =>
      if inst < s.created ∧ s.states inst = .destroying then some (s.setState inst .destroyed)
      else none
  | .tick (.examine finding) =>
      (tickStep s.loop (.examine finding)).bind fun _ =>
        s.loop.pInst.bind fun inst =>
          (finding.inState (s.states inst)).map fun state => s.examine inst finding state
  | .tick .advance =>
      match s.loop.point with
      | .examined true => s.loop.pInst.map fun inst => s.erase inst
      | _ => (tickStep s.loop .advance).map fun loop => { s with loop := loop }
  | .tick (.create _) => none
  | .tick a => (tickStep s.loop a).map fun loop => { s with loop := loop }

/-! ## What a step can do -/

inductive InstancesStepped (s : AllInstances) : AllInstances → Prop where
  | create : InstancesStepped s { s with
      loop := { s.loop with gAllInstanceList := s.loop.gAllInstanceList ++ [s.created] }
      created := s.created + 1 }
  | setState (inst : ℕ) (state : InstanceState) (below : inst < s.created)
      (forward : (s.states inst).rank < state.rank) : InstancesStepped s (s.setState inst state)
  | begin (here : s.loop.point = .idle) : InstancesStepped s { s with loop := s.loop.begin }
  | read (inst : ℕ) (here : s.loop.point = .atNode)
      (node : s.loop.gAllInstanceList[s.loop.iterator]? = some inst) :
      InstancesStepped s { s with loop := { s.loop with point := .holding, pInst := some inst } }
  | examine (inst : ℕ) (finding : Finding) (state : InstanceState) (here : s.loop.point = .holding)
      (held : s.loop.pInst = some inst) (found : finding.inState (s.states inst) = some state) :
      InstancesStepped s (s.examine inst finding state)
  | callbackReturn (here : s.loop.point = .inCallback) :
      InstancesStepped s { s with loop := { s.loop with point := .examined false } }
  | keep (here : s.loop.point = .examined false) :
      InstancesStepped s { s with loop := s.loop.advance false }
  | erase (inst : ℕ) (here : s.loop.point = .examined true) (held : s.loop.pInst = some inst) :
      InstancesStepped s (s.erase inst)
  | finish (here : s.loop.point = .leaving) :
      InstancesStepped s { s with loop := { s.loop with point := .idle, pInst := none } }

section Steps

variable {s s' : AllInstances}

theorem instancesStep_cases {a : InstancesAction} (taken : instancesStep s a = some s') :
    InstancesStepped s s' := by
  cases a with
  | create =>
      cases taken
      exact .create
  | startReturns inst started =>
      obtain ⟨⟨below, fresh⟩, rfl⟩ := guarded_eq_some.mp taken
      exact .setState inst _ below (by rw [fresh]; cases started <;> decide)
  | destroyBegin inst =>
      obtain ⟨⟨below, forward⟩, rfl⟩ := guarded_eq_some.mp taken
      exact .setState inst _ below forward
  | destroyMark inst =>
      obtain ⟨⟨below, marked⟩, rfl⟩ := guarded_eq_some.mp taken
      exact .setState inst _ below (by rw [marked]; decide)
  | tick a =>
      cases a with
      | create inst => cases taken
      | examine finding =>
          obtain ⟨loop, moved, rest⟩ := Option.bind_eq_some_iff.mp taken
          obtain ⟨inst, held, rest⟩ := Option.bind_eq_some_iff.mp rest
          obtain ⟨state, found, rfl⟩ := Option.map_eq_some_iff.mp rest
          cases tickStep_cases moved with
          | examine here => exact .examine inst finding state here held found
      | advance =>
          rw [instancesStep] at taken
          split at taken
          next here =>
            obtain ⟨inst, held, rfl⟩ := Option.map_eq_some_iff.mp taken
            exact .erase inst here held
          next notErased =>
            obtain ⟨loop, moved, rfl⟩ := Option.map_eq_some_iff.mp taken
            cases tickStep_cases moved with
            | @advance bInstDestroyed here =>
                cases bInstDestroyed with
                | false => exact .keep here
                | true => exact absurd here notErased
      | begin =>
          obtain ⟨loop, moved, rfl⟩ := Option.map_eq_some_iff.mp taken
          cases tickStep_cases moved with
          | begin here => exact .begin here
      | read =>
          obtain ⟨loop, moved, rfl⟩ := Option.map_eq_some_iff.mp taken
          cases tickStep_cases moved with
          | read here node => exact .read _ here node
      | callbackReturn =>
          obtain ⟨loop, moved, rfl⟩ := Option.map_eq_some_iff.mp taken
          cases tickStep_cases moved with
          | callbackReturn here => exact .callbackReturn here
      | finish =>
          obtain ⟨loop, moved, rfl⟩ := Option.map_eq_some_iff.mp taken
          cases tickStep_cases moved with
          | finish here => exact .finish here

/-! ## The invariant -/

/-- What holds in every run. -/
structure InstancesInv (s : AllInstances) : Prop where
  placed : Placed s.loop
  idle : s.loop.point = .idle → s.loop.pInst = none
  listed : s.loop.gAllInstanceList =
    (List.range s.created).filter fun inst => s.erased inst = 0
  fresh : ∀ inst, s.created ≤ inst → s.erased inst = 0
  erased : ∀ inst, s.erased inst = 0 ∨ s.erased inst = 1 ∧ s.states inst = .destroyed
  found : ∀ inst, s.loop.point = .examined true → s.loop.pInst = some inst →
    s.states inst = .destroyed
  callbacks : ∀ inst, s.callbacks inst = 0 ∨
    s.callbacks inst = 1 ∧ InstanceState.ended.rank ≤ (s.states inst).rank

theorem instancesInv_start : InstancesInv {} where
  placed := trivial
  idle _ := rfl
  listed := rfl
  fresh _ _ := rfl
  erased _ := .inl rfl
  found := nofun
  callbacks _ := .inl rfl

/-- What is in the list. -/
theorem InstancesInv.mem_list (inv : InstancesInv s) {inst : ℕ} :
    inst ∈ s.loop.gAllInstanceList ↔ inst < s.created ∧ s.erased inst = 0 := by
  rw [inv.listed, List.mem_filter, List.mem_range, decide_eq_true_iff]

theorem InstancesInv.nodup (inv : InstancesInv s) : s.loop.gAllInstanceList.Nodup := by
  rw [inv.listed]
  exact List.nodup_range.filter _

/-- An examination leaves the state, or ends an instance that was started. -/
theorem Finding.inState_eq_some {finding : Finding} {state state' : InstanceState}
    (found : finding.inState state = some state') :
    state' = state ∧ (∀ callback, finding ≠ .exception callback) ∧
        (finding = .destroyed ↔ state = .destroyed) ∨
      (∃ callback, finding = .exception callback) ∧ state = .started ∧ state' = .ended := by
  cases finding with
  | nothing =>
      obtain ⟨other, same⟩ := guarded_eq_some.mp found
      exact .inl ⟨same.symm, nofun, iff_of_false nofun other⟩
  | exception callback =>
      obtain ⟨started, ended⟩ := guarded_eq_some.mp found
      exact .inr ⟨⟨callback, rfl⟩, started, ended.symm⟩
  | destroyed =>
      obtain ⟨destroyed, same⟩ := guarded_eq_some.mp found
      exact .inl ⟨same.symm, nofun, iff_of_true rfl destroyed⟩

theorem Finding.forward {finding : Finding} {state state' : InstanceState}
    (found : finding.inState state = some state') : state.rank ≤ state'.rank := by
  rcases Finding.inState_eq_some found with ⟨rfl, _⟩ | ⟨_, rfl, rfl⟩
  · exact le_rfl
  · decide

theorem update_forward {states : ℕ → InstanceState} {inst : ℕ} {state : InstanceState}
    (forward : (states inst).rank ≤ state.rank) (inst' : ℕ) :
    (states inst').rank ≤ (Function.update states inst state inst').rank := by
  rw [Function.update_apply]
  split
  next same =>
    subst same
    exact forward
  · exact le_rfl

/-- States go forward. -/
theorem InstancesStepped.forward (stepped : InstancesStepped s s') (inst : ℕ) :
    (s.states inst).rank ≤ (s'.states inst).rank := by
  cases stepped with
  | setState inst' state below forward => exact update_forward forward.le inst
  | examine inst' finding state here held found => exact update_forward (Finding.forward found) inst
  | _ => exact le_rfl

/-- An instance that is destroyed stays so. -/
theorem InstancesStepped.destroyed (stepped : InstancesStepped s s') {inst : ℕ}
    (destroyed : s.states inst = .destroyed) : s'.states inst = .destroyed := by
  have forward := stepped.forward inst
  rw [destroyed] at forward
  cases known : s'.states inst with
  | destroyed => rfl
  | new | started | ended | destroying =>
      rw [known] at forward
      exact absurd forward (by decide)

/-- The loop thread takes the section of a tick, or none. -/
theorem InstancesStepped.tick (stepped : InstancesStepped s s') :
    s'.loop = s.loop ∨ ∃ a, tickStep s.loop a = some s'.loop := by
  cases stepped with
  | create => exact .inr ⟨.create s.created, rfl⟩
  | setState inst state below forward => exact .inl rfl
  | begin here => exact .inr ⟨.begin, if_pos here⟩
  | read inst here node => exact .inr ⟨.read, by rw [tickStep, if_pos here, node]; rfl⟩
  | examine inst finding state here held found => exact .inr ⟨.examine finding, if_pos here⟩
  | callbackReturn here => exact .inr ⟨.callbackReturn, if_pos here⟩
  | keep here => exact .inr ⟨.advance, by rw [tickStep, here]⟩
  | erase inst here held => exact .inr ⟨.advance, by rw [tickStep, here]; rfl⟩
  | finish here => exact .inr ⟨.finish, if_pos here⟩

theorem InstancesStepped.placed (stepped : InstancesStepped s s') (placed : Placed s.loop) :
    Placed s'.loop := by
  rcases stepped.tick with same | ⟨a, taken⟩
  · rwa [same]
  · exact placed.step taken

/-- The node that the iterator is at goes. -/
theorem erased_node {list : List ℕ} (nodup : list.Nodup) {i inst : ℕ}
    (node : list[i]? = some inst) : list.eraseIdx i = list.filter (· ≠ inst) := by
  obtain ⟨inside, rfl⟩ := List.getElem?_eq_some_iff.mp node
  rw [← nodup.erase_getElem i inside, nodup.erase_eq_filter]
  exact List.filter_congr fun x _ => by rw [Bool.eq_iff_iff, bne_iff_ne, decide_eq_true_iff]

/-- After an advance the tick is at a node or leaves. -/
theorem advance_goes_on (t : LoopTick) (bInstDestroyed : Bool) :
    (t.advance bInstDestroyed).point ≠ .idle ∧
      (t.advance bInstDestroyed).point ≠ .examined true := by
  obtain leaving | atNode := advance_point (t := t) bInstDestroyed
  · rw [leaving]
    exact ⟨nofun, nofun⟩
  · rw [atNode]
    exact ⟨nofun, nofun⟩

/-- The instance at the node is the one that the loop thread holds. -/
theorem InstancesInv.node (inv : InstancesInv s) {inst : ℕ} {bInstDestroyed : Bool}
    (here : s.loop.point = .examined bInstDestroyed) (held : s.loop.pInst = some inst) :
    s.loop.gAllInstanceList[s.loop.iterator]? = some inst := by
  have placed := inv.placed
  rw [Placed, here] at placed
  obtain ⟨inst', own, node⟩ := placed
  rw [held] at own
  rwa [Option.some.inj own]

theorem InstancesInv.listed_create (inv : InstancesInv s) :
    s.loop.gAllInstanceList ++ [s.created] =
      (List.range (s.created + 1)).filter fun inst => s.erased inst = 0 := by
  have unerased : decide (s.erased s.created = 0) = true :=
    decide_eq_true (inv.fresh s.created le_rfl)
  rw [List.range_succ, List.filter_append, List.filter_singleton, unerased, inv.listed]
  rfl

theorem InstancesInv.listed_erase (inv : InstancesInv s) {inst : ℕ}
    (here : s.loop.point = .examined true) (held : s.loop.pInst = some inst) :
    (s.erase inst).loop.gAllInstanceList =
      (List.range s.created).filter fun inst' => (s.erase inst).erased inst' = 0 := by
  have list : (s.erase inst).loop.gAllInstanceList =
      s.loop.gAllInstanceList.eraseIdx s.loop.iterator := rfl
  rw [list, erased_node inv.nodup (inv.node here held), inv.listed, List.filter_filter]
  refine List.filter_congr fun inst' _ => ?_
  change _ = decide (Function.update s.erased inst (s.erased inst + 1) inst' = 0)
  by_cases same : inst' = inst
  · subst same
    simp
  · simp [same]


/-- The states after a step keep what is known of the erased instances. -/
theorem InstancesInv.erased_keep (inv : InstancesInv s) (stepped : InstancesStepped s s')
    (same : s'.erased = s.erased) (inst : ℕ) :
    s'.erased inst = 0 ∨ s'.erased inst = 1 ∧ s'.states inst = .destroyed := by
  rw [same]
  exact (inv.erased inst).imp_right fun both => ⟨both.1, stepped.destroyed both.2⟩

/-- The states after a step keep what is known of the callbacks. -/
theorem InstancesInv.callbacks_keep (inv : InstancesInv s) (stepped : InstancesStepped s s')
    (same : s'.callbacks = s.callbacks) (inst : ℕ) :
    s'.callbacks inst = 0 ∨
      s'.callbacks inst = 1 ∧ InstanceState.ended.rank ≤ (s'.states inst).rank := by
  rw [same]
  exact (inv.callbacks inst).imp_right fun both => ⟨both.1, both.2.trans (stepped.forward inst)⟩

theorem InstancesInv.erase_erased (inv : InstancesInv s) {inst : ℕ}
    (here : s.loop.point = .examined true) (held : s.loop.pInst = some inst) (inst' : ℕ) :
    (s.erase inst).erased inst' = 0 ∨
      (s.erase inst).erased inst' = 1 ∧ s.states inst' = .destroyed := by
  change Function.update s.erased inst (s.erased inst + 1) inst' = 0 ∨
    Function.update s.erased inst (s.erased inst + 1) inst' = 1 ∧ _
  by_cases same : inst' = inst
  · subst same
    have unerased := (inv.mem_list.mp (List.mem_of_getElem? (inv.node here held))).2
    rw [Function.update_self, unerased]
    exact .inr ⟨rfl, inv.found inst' here held⟩
  · rw [Function.update_of_ne same]
    exact inv.erased inst'

/-- The callback is called for an instance that was started, and that is ended now. -/
theorem InstancesInv.examine_callbacks (inv : InstancesInv s) {inst : ℕ} {finding : Finding}
    {state : InstanceState} (here : s.loop.point = .holding) (held : s.loop.pInst = some inst)
    (found : finding.inState (s.states inst) = some state) (inst' : ℕ) :
    (s.examine inst finding state).callbacks inst' = 0 ∨
      (s.examine inst finding state).callbacks inst' = 1 ∧ InstanceState.ended.rank ≤
        ((s.examine inst finding state).states inst').rank := by
  have stepped := InstancesStepped.examine inst finding state here held found
  by_cases calls : finding = .exception true
  · have callbacks : (s.examine inst finding state).callbacks =
        Function.update s.callbacks inst (s.callbacks inst + 1) := if_pos calls
    rw [callbacks]
    by_cases same : inst' = inst
    · subst same
      rcases Finding.inState_eq_some found with ⟨_, none, _⟩ | ⟨_, started, ended⟩
      · exact absurd calls (none true)
      · have uncalled : s.callbacks inst' = 0 := by
          refine (inv.callbacks inst').resolve_right fun both => ?_
          rw [started] at both
          exact absurd both.2 (by decide)
        have now : (s.examine inst' finding state).states inst' = state :=
          Function.update_self _ _ _
        rw [Function.update_self, uncalled, now, ended]
        exact .inr ⟨rfl, le_rfl⟩
    · rw [Function.update_of_ne same]
      exact (inv.callbacks inst').imp_right fun both =>
        ⟨both.1, both.2.trans (stepped.forward inst')⟩
  · exact inv.callbacks_keep stepped (if_neg calls) inst'

theorem InstancesInv.step (inv : InstancesInv s) (stepped : InstancesStepped s s') :
    InstancesInv s' := by
  have placed := stepped.placed inv.placed
  have erased := inv.erased_keep stepped
  have callbacks := inv.callbacks_keep stepped
  cases stepped with
  | create =>
      exact { inv with
        placed := placed
        listed := inv.listed_create
        fresh := fun inst above => inv.fresh inst (Nat.le_of_succ_le above) }
  | setState inst state below forward =>
      exact { inv with
        erased := erased rfl
        found := fun inst' here held =>
          (InstancesStepped.setState inst state below forward).destroyed (inv.found inst' here held)
        callbacks := callbacks rfl }
  | begin here =>
      have none := inv.idle here
      have begun : s.loop.begin = s.loop ∨
          s.loop.begin = { s.loop with point := .atNode, iterator := 0 } := by
        rw [LoopTick.begin]
        split
        · exact .inl rfl
        · exact .inr rfl
      rcases begun with same | same
      · rw [same]
        exact inv
      · rw [same] at placed ⊢
        refine { inv with placed := placed, idle := fun idle => ?_, found := fun _ examined => ?_ }
        · cases idle
        · cases examined
  | read inst here node =>
      refine { inv with placed := placed, idle := fun idle => ?_, found := fun _ examined => ?_ }
      · cases idle
      · cases examined
  | examine inst finding state here held found =>
      refine { inv with
        placed := placed
        idle := fun idle => ?_
        erased := erased rfl
        found := fun inst' examined held' => ?_
        callbacks := inv.examine_callbacks here held found }
      · cases finding with
        | nothing | destroyed => cases idle
        | exception callback => cases callback <;> cases idle
      · have same : inst = inst' := Option.some.inj (held.symm.trans held')
        subst same
        refine (Function.update_self _ _ _).trans ?_
        cases finding with
        | nothing => cases examined
        | exception callback => cases callback <;> cases examined
        | destroyed => exact ((guarded_eq_some.mp found).2.symm.trans (guarded_eq_some.mp found).1)
  | callbackReturn here =>
      refine { inv with placed := placed, idle := fun idle => ?_, found := fun _ examined => ?_ }
      · cases idle
      · cases examined
  | keep here =>
      obtain ⟨notIdle, notExamined⟩ := advance_goes_on s.loop false
      exact { inv with
        placed := placed
        idle := fun idle => absurd idle notIdle
        found := fun _ examined => absurd examined notExamined }
  | erase inst here held =>
      obtain ⟨notIdle, notExamined⟩ := advance_goes_on s.loop true
      have below := (inv.mem_list.mp (List.mem_of_getElem? (inv.node here held))).1
      exact { inv with
        placed := placed
        idle := fun idle => absurd idle notIdle
        listed := inv.listed_erase here held
        fresh := fun inst' above =>
          (Function.update_of_ne (below.trans_le above).ne' _ _).trans (inv.fresh inst' above)
        erased := inv.erase_erased here held
        found := fun _ examined => absurd examined notExamined }
  | finish here =>
      refine { inv with placed := placed, idle := fun _ => rfl, found := fun _ examined => ?_ }
      cases examined

theorem instancesInv_run {s₀ : AllInstances} {as : List InstancesAction} (inv : InstancesInv s₀)
    (reached : run instancesStep s₀ as = some s) : InstancesInv s :=
  run_invariant_always (fun inv taken => inv.step (instancesStep_cases taken)) inv reached

/-! ## What becomes of an instance -/

/-- The last reference to an instance is gone. -/
structure Gone (s : AllInstances) (inst : ℕ) : Prop where
  created : inst < s.created
  unreferenced : ¬ s.loop.Referenced inst

theorem InstancesInv.gone (inv : InstancesInv s) {inst : ℕ} (gone : Gone s inst) :
    s.erased inst = 1 ∧ s.states inst = .destroyed := by
  refine (inv.erased inst).resolve_left fun unerased => gone.unreferenced (.inl ?_)
  exact inv.mem_list.mpr ⟨gone.created, unerased⟩

/-- An instance that is gone stays so, and is not called any more. -/
theorem Gone.step {inst : ℕ} (gone : Gone s inst) (stepped : InstancesStepped s s') :
    Gone s' inst ∧ s'.callbacks inst = s.callbacks inst := by
  obtain ⟨created, unreferenced⟩ := gone
  have notListed : inst ∉ s.loop.gAllInstanceList := fun listed => unreferenced (.inl listed)
  have notHeld : s.loop.pInst ≠ some inst := fun held => unreferenced (.inr held)
  cases stepped with
  | create =>
      refine ⟨⟨Nat.lt_succ_of_lt created, ?_⟩, rfl⟩
      rintro (listed | held)
      · rcases List.mem_append.mp listed with earlier | new
        · exact notListed earlier
        · exact created.ne (List.mem_singleton.mp new)
      · exact notHeld held
  | begin here =>
      refine ⟨⟨created, ?_⟩, rfl⟩
      rw [LoopTick.begin]
      split <;> exact unreferenced
  | read inst' here node =>
      refine ⟨⟨created, ?_⟩, rfl⟩
      rintro (listed | held)
      · exact notListed listed
      · rw [Option.some.inj held] at node
        exact notListed (List.mem_of_getElem? node)
  | examine inst' finding state here held found =>
      have other : inst ≠ inst' := by
        rintro rfl
        exact notHeld held
      refine ⟨⟨created, unreferenced⟩, ?_⟩
      rw [AllInstances.examine]
      dsimp only
      split
      · exact Function.update_of_ne other _ _
      · rfl
  | erase inst' here held =>
      refine ⟨⟨created, ?_⟩, rfl⟩
      rintro (listed | held)
      · exact notListed (List.mem_of_mem_eraseIdx listed)
      · exact notHeld held
  | finish here =>
      refine ⟨⟨created, ?_⟩, rfl⟩
      rintro (listed | held)
      · exact notListed listed
      · cases held
  | setState _ _ _ _ | callbackReturn _ | keep _ => exact ⟨⟨created, unreferenced⟩, rfl⟩

/-- The tick that is under way has not passed the node of an instance, if there is one, and it
erases the node if it is there. -/
def Ahead (t : LoopTick) (inst : ℕ) : Prop :=
  match t.point with
  | .idle => False
  | .atNode | .holding => inst ∉ t.gAllInstanceList.take t.iterator
  | .inCallback => inst ∉ t.gAllInstanceList.take t.iterator ∧ t.pInst ≠ some inst
  | .examined bInstDestroyed => inst ∉ t.gAllInstanceList.take t.iterator ∧
      (t.pInst = some inst → bInstDestroyed = true)
  | .leaving => inst ∉ t.gAllInstanceList

/-- The tick that is under way erases an instance that is destroyed. -/
structure Due (s : AllInstances) (inst : ℕ) : Prop where
  created : inst < s.created
  destroyed : s.states inst = .destroyed
  ahead : Ahead s.loop inst

/-- Where an iterator has moved on past other nodes. -/
theorem ahead_advance {t : LoopTick} {inst : ℕ} {bInstDestroyed : Bool}
    (passed : inst ∉ (t.advance bInstDestroyed).gAllInstanceList.take
      (t.advance bInstDestroyed).iterator) : Ahead (t.advance bInstDestroyed) inst := by
  by_cases atEnd :
      (t.advance bInstDestroyed).iterator = (t.advance bInstDestroyed).gAllInstanceList.length
  · have leaving : (t.advance bInstDestroyed).point = .leaving := if_pos atEnd
    rw [atEnd, List.take_length] at passed
    rwa [Ahead, leaving]
  · have atNode : (t.advance bInstDestroyed).point = .atNode := if_neg atEnd
    rwa [Ahead, atNode]

/-- A create appends another instance behind the iterator. -/
theorem Ahead.create {t : LoopTick} {inst new : ℕ} (ahead : Ahead t inst) (placed : Placed t)
    (other : inst ≠ new) :
    Ahead { t with gAllInstanceList := t.gAllInstanceList ++ [new] } inst := by
  have before : t.iterator ≤ t.gAllInstanceList.length →
      (t.gAllInstanceList ++ [new]).take t.iterator = t.gAllInstanceList.take t.iterator :=
    List.take_append_of_le_length
  rw [Placed] at placed
  rw [Ahead] at ahead ⊢
  cases here : t.point with
  | idle => rwa [here] at ahead
  | leaving =>
      simp only [here] at ahead ⊢
      rw [List.mem_append, List.mem_singleton, not_or]
      exact ⟨ahead, other⟩
  | atNode =>
      simp only [here] at ahead placed ⊢
      rwa [before placed.le]
  | holding | inCallback | examined _ =>
      simp only [here] at ahead placed ⊢
      obtain ⟨inst', held, node⟩ := placed
      rwa [before (List.getElem?_eq_some_iff.mp node).1.le]

/-- A tick that is under way gets on with an instance that is due, and at its end the last reference
is gone. -/
theorem Due.step (inv : InstancesInv s) {inst : ℕ} (due : Due s inst)
    (stepped : InstancesStepped s s') : Due s' inst ∨ Gone s' inst := by
  have destroyed := stepped.destroyed due.destroyed
  have ahead := due.ahead
  cases stepped with
  | create =>
      have later := ahead.create inv.placed due.created.ne
      exact .inl ⟨Nat.lt_succ_of_lt due.created, destroyed, later⟩
  | setState inst' state below forward => exact .inl ⟨due.created, destroyed, ahead⟩
  | begin here =>
      rw [Ahead, here] at ahead
      exact ahead.elim
  | read inst' here node =>
      rw [Ahead, here] at ahead
      exact .inl ⟨due.created, destroyed, ahead⟩
  | examine inst' finding state here held found =>
      rw [Ahead, here] at ahead
      refine .inl ⟨due.created, destroyed, ?_⟩
      have own : inst' = inst → finding = .destroyed := by
        rintro rfl
        rcases Finding.inState_eq_some found with ⟨_, _, same⟩ | ⟨_, started, _⟩
        · exact same.mpr due.destroyed
        · cases due.destroyed.symm.trans started
      have found_of_own : s.loop.pInst = some inst → finding = .destroyed := by
        intro same
        exact own (Option.some.inj (held.symm.trans same))
      cases finding with
      | nothing =>
          refine ⟨ahead, fun same => ?_⟩
          cases found_of_own same
      | destroyed => exact ⟨ahead, fun _ => rfl⟩
      | exception callback =>
          cases callback with
          | false =>
              refine ⟨ahead, fun same => ?_⟩
              cases found_of_own same
          | true =>
              refine ⟨ahead, fun same => ?_⟩
              cases found_of_own same
  | callbackReturn here =>
      rw [Ahead, here] at ahead
      exact .inl ⟨due.created, destroyed, ahead.1, fun same => absurd same ahead.2⟩
  | keep here =>
      rw [Ahead, here] at ahead
      refine .inl ⟨due.created, destroyed, ahead_advance ?_⟩
      have placed := inv.placed
      rw [Placed, here] at placed
      obtain ⟨inst', held, node⟩ := placed
      have other : inst ≠ inst' := by
        rintro rfl
        cases ahead.2 held
      have next : (s.loop.advance false).gAllInstanceList.take (s.loop.advance false).iterator =
          s.loop.gAllInstanceList.take s.loop.iterator ++ [inst'] := by
        show s.loop.gAllInstanceList.take (s.loop.iterator + 1) = _
        rw [List.take_add_one, node]
        rfl
      rw [next, List.mem_append, List.mem_singleton, not_or]
      exact ⟨ahead.1, other⟩
  | erase inst' here held =>
      rw [Ahead, here] at ahead
      refine .inl ⟨due.created, destroyed, ahead_advance ?_⟩
      have next : (s.loop.advance true).gAllInstanceList.take (s.loop.advance true).iterator =
          s.loop.gAllInstanceList.take s.loop.iterator :=
        List.take_eraseIdx_eq_take_of_le _ _ _ le_rfl
      rw [next]
      exact ahead.1
  | finish here =>
      rw [Ahead, here] at ahead
      refine .inr ⟨due.created, ?_⟩
      rintro (listed | held)
      · exact ahead listed
      · cases held

/-- At the start of a tick an instance that is destroyed is due, if it is not gone already. -/
theorem InstancesInv.begin (inv : InstancesInv s) {inst : ℕ} (here : s.loop.point = .idle)
    (created : inst < s.created) (destroyed : s.states inst = .destroyed) :
    Due { s with loop := s.loop.begin } inst ∨ Gone { s with loop := s.loop.begin } inst := by
  by_cases listed : inst ∈ s.loop.gAllInstanceList
  · have begun : s.loop.begin = { s.loop with point := .atNode, iterator := 0 } :=
      if_neg (List.ne_nil_of_mem listed)
    rw [begun]
    exact .inl ⟨created, destroyed, List.not_mem_nil⟩
  · have unreferenced : ¬ s.loop.Referenced inst := by
      rw [LoopTick.Referenced, inv.idle here]
      exact fun referenced => referenced.elim listed nofun
    exact .inr (Gone.step ⟨created, unreferenced⟩ (.begin here)).1

/-- What is due or gone stays so. -/
theorem fate_run {inst : ℕ} {as : List InstancesAction} (inv : InstancesInv s)
    (fate : Due s inst ∨ Gone s inst) (reached : run instancesStep s as = some s') :
    Due s' inst ∨ Gone s' inst := by
  have keeps {s s' : AllInstances} {a : InstancesAction}
      (before : InstancesInv s ∧ (Due s inst ∨ Gone s inst))
      (taken : instancesStep s a = some s') :
      InstancesInv s' ∧ (Due s' inst ∨ Gone s' inst) := by
    have stepped := instancesStep_cases taken
    refine ⟨before.1.step stepped, ?_⟩
    rcases before.2 with due | gone
    · exact due.step before.1 stepped
    · exact .inr (gone.step stepped).1
  exact (run_invariant_always keeps ⟨inv, fate⟩ reached).2

/-- **A whole tick.** The last reference to an instance that was destroyed when a tick began is gone
when it is over. -/
theorem InstancesInv.whole_tick (inv : InstancesInv s) {inst : ℕ} (created : inst < s.created)
    (destroyed : s.states inst = .destroyed) {between : List InstancesAction}
    (reached : run instancesStep s (.tick .begin :: between ++ [.tick .finish]) = some s') :
    Gone s' inst := by
  rw [List.cons_append] at reached
  obtain ⟨begun, taken, rest⟩ := run_cons_eq_some.mp reached
  rw [run_append] at rest
  obtain ⟨last, went, rest⟩ := Option.bind_eq_some_iff.mp rest
  obtain ⟨s₁, finished, ⟨⟩⟩ := run_cons_eq_some.mp rest
  have begunInv := inv.step (instancesStep_cases taken)
  have fate : Due begun inst ∨ Gone begun inst := by
    obtain ⟨loop, moved, rfl⟩ := Option.map_eq_some_iff.mp taken
    cases tickStep_cases moved with
    | begin here => exact inv.begin here created destroyed
  have lastInv := instancesInv_run begunInv went
  have stepped := instancesStep_cases finished
  rcases fate_run begunInv fate went with due | gone
  · refine (due.step lastInv stepped).resolve_left fun still => ?_
    obtain ⟨loop, moved, rfl⟩ := Option.map_eq_some_iff.mp finished
    cases tickStep_cases moved with
    | finish here => exact still.ahead
  · exact (gone.step stepped).1

theorem Gone.later {inst : ℕ} {as : List InstancesAction} (gone : Gone s inst)
    (reached : run instancesStep s as = some s') :
    Gone s' inst ∧ s'.callbacks inst = s.callbacks inst := by
  have keeps {s₁ s₂ : AllInstances} {a : InstancesAction}
      (before : Gone s₁ inst ∧ s₁.callbacks inst = s.callbacks inst)
      (taken : instancesStep s₁ a = some s₂) :
      Gone s₂ inst ∧ s₂.callbacks inst = s.callbacks inst := by
    obtain ⟨gone, same⟩ := before.1.step (instancesStep_cases taken)
    exact ⟨gone, same.trans before.2⟩
  exact run_invariant_always keeps ⟨gone, rfl⟩ reached

/-- The instances at one point of a run. -/
structure InstancesSound (s : AllInstances) : Prop where
  listed : s.loop.gAllInstanceList =
    (List.range s.created).filter fun inst => s.erased inst = 0
  live : Placed s.loop
  /-- No instance is given up before it is destroyed. -/
  gone : ∀ inst, Gone s inst → s.erased inst = 1 ∧ s.states inst = .destroyed
  erased : ∀ inst, s.erased inst ≤ 1
  callbacks : ∀ inst, s.callbacks inst ≤ 1

theorem InstancesInv.sound (inv : InstancesInv s) : InstancesSound s where
  listed := inv.listed
  live := inv.placed
  gone _ gone := inv.gone gone
  erased inst := by
    rcases inv.erased inst with none | ⟨one, _⟩
    · exact none.trans_le (Nat.zero_le 1)
    · exact one.le
  callbacks inst := by
    rcases inv.callbacks inst with none | ⟨one, _⟩
    · exact none.trans_le (Nat.zero_le 1)
    · exact one.le

end Steps

/-- Two instances, of which the second is destroyed. -/
def destroySecond : List InstancesAction :=
  [.create, .create, .startReturns 0 true, .destroyBegin 1, .destroyMark 1]

/-- A tick finds an exception of the first, while a third instance is created. -/
def tickOverTwo : List InstancesAction :=
  [.tick .read, .tick (.examine (.exception true)), .create, .tick .callbackReturn,
    .tick .advance, .tick .read, .tick (.examine .destroyed), .tick .advance, .tick .read,
    .tick (.examine .nothing), .tick .advance]

end Instance
end WamrExt
