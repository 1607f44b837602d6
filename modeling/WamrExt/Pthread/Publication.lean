import WamrExt.Pthread.Handshake

/-!
# Publishing the host thread handle

`WasiThreadSpawn` inserts the thread info in the map, starts the host thread, and stores
the new `std::thread` in `pHostThread`, in this order. From the insertion on a joiner can
find the thread info, and from the start on the new thread runs. The exit section calls
`pHostThread->detach()` and the last joiner calls `pHostThread->join()`.

No lock orders the store before these calls. They come after it in every run where the
scheduler lets the store come first: the new thread comes to its exit section only after
the store, and a joiner that was not notified does not go on before it
(`handle_published_before_use`).
-/

set_option autoImplicit false

namespace WamrExt
namespace Pthread

open Transition

/-- How far the spawning thread is with a new thread. -/
inductive SpawnPoint where
  | preparing
  | inserted
  | started
  | stored
  deriving DecidableEq, Repr

/-- A new thread info between its spawner, its thread and its joiners. The last field
counts the calls of `join` and `detach` made while `pHostThread` was null, and no step
reads it. -/
structure Publication (ι : Type*) where
  point : SpawnPoint := .preparing
  exitCtrl : ExitCtrl ι := {}
  nullUses : ℕ := 0
  deriving DecidableEq

/-- The steps of the three parties. -/
inductive PublicationStep (ι : Type*) where
  /-- The thread info is stored in `m_threadMap`. -/
  | insertThreadInfo
  /-- The host thread is started. -/
  | startHostThread
  /-- The new `std::thread` is stored in `pHostThread`. -/
  | storeHostThread
  /-- The new thread runs guest code. -/
  | guestStep
  /-- A section of the exit and join handshake. -/
  | handshake (a : ExitStep ι)
  deriving DecidableEq

variable {ι : Type*} [DecidableEq ι]

/-- The calls made through `pHostThread` so far. -/
def ExitCtrl.handleCalls (e : ExitCtrl ι) : ℕ := e.joinCalls + e.detachCalls

/-- When a section of the handshake can run: a joiner has found the thread info in the map,
and the thread has been started. -/
def SpawnPoint.allows (point : SpawnPoint) : ExitStep ι → Bool
  | .exitSection | .threadEnd => point = .started || point = .stored
  | .enter _ | .wake _ | .joinReturn => point ≠ .preparing

/-- One step of one of the parties, when it can run. -/
def publicationStep : Step (Publication ι) (PublicationStep ι)
  | s, .insertThreadInfo =>
      if s.point = .preparing then some { s with point := .inserted } else none
  | s, .startHostThread =>
      if s.point = .inserted then some { s with point := .started } else none
  | s, .storeHostThread =>
      if s.point = .started then some { s with point := .stored } else none
  | s, .guestStep =>
      if (s.point = .started ∨ s.point = .stored) ∧ s.exitCtrl.phase = .running then some s
      else none
  | s, .handshake a =>
      if s.point.allows a then
        (exitStep s.exitCtrl a).map fun e =>
          { s with
            exitCtrl := e
            nullUses := s.nullUses +
              if s.point = .stored then 0 else e.handleCalls - s.exitCtrl.handleCalls }
      else none

/-- The schedule lets the store come first. -/
def StoredInTime (s : Publication ι) : PublicationStep ι → Prop
  | .handshake .exitSection => s.point = .stored
  | .handshake (.wake joiner) => joiner ∉ s.exitCtrl.notified → s.point = .stored
  | _ => True

instance : ∀ (s : Publication ι) (a : PublicationStep ι), Decidable (StoredInTime s a)
  | s, .handshake .exitSection => inferInstanceAs (Decidable (s.point = .stored))
  | s, .handshake (.wake joiner) =>
      inferInstanceAs (Decidable (joiner ∉ s.exitCtrl.notified → s.point = .stored))
  | _, .handshake (.enter _) | _, .handshake .joinReturn | _, .handshake .threadEnd
  | _, .insertThreadInfo | _, .startHostThread | _, .storeHostThread | _, .guestStep =>
      isTrue trivial

/-- Before the store the thread has not come to its exit section, so nobody is notified and
nobody joins. -/
structure Unused (s : Publication ι) : Prop where
  noNull : s.nullUses = 0
  notified : s.point ≠ .stored → s.exitCtrl.notified = ∅
  free : s.point ≠ .stored → s.exitCtrl.joining = none

omit [DecidableEq ι] in
theorem unused_initial : Unused ({} : Publication ι) :=
  ⟨rfl, fun _ => rfl, fun _ => rfl⟩

section Steps

variable {s s' : Publication ι}

/-- A joiner that enters uses no handle. -/
theorem handleCalls_enter (e : ExitCtrl ι) (joiner : ι) :
    (e.enter joiner).handleCalls = e.handleCalls ∧
      (e.enter joiner).notified = e.notified ∧ (e.enter joiner).joining = e.joining := by
  rw [ExitCtrl.enter]
  split <;> exact ⟨rfl, rfl, rfl⟩

/-- The handshake before the store: joiners come, and nothing else happens. -/
theorem Unused.handshake_before (inv : Unused s) (early : s.point ≠ .stored)
    {a : ExitStep ι} (inTime : StoredInTime s (.handshake a)) {e : ExitCtrl ι}
    (allowed : s.point.allows a = true) (taken : exitStep s.exitCtrl a = some e) :
    e.handleCalls = s.exitCtrl.handleCalls ∧ e.notified = ∅ ∧ e.joining = none := by
  cases a with
  | enter joiner =>
      obtain ⟨_, rfl⟩ := guarded_eq_some.mp taken
      obtain ⟨calls, notified, joining⟩ := handleCalls_enter s.exitCtrl joiner
      exact ⟨calls, notified.trans (inv.notified early), joining.trans (inv.free early)⟩
  | wake joiner =>
      have told : joiner ∈ s.exitCtrl.notified := by
        by_contra untold
        exact early (inTime untold)
      rw [inv.notified early] at told
      exact absurd told (Finset.notMem_empty joiner)
  | joinReturn =>
      obtain ⟨⟨held, _⟩, _⟩ := guarded_eq_some.mp taken
      rw [inv.free early] at held
      cases held
  | exitSection => exact absurd inTime early
  | threadEnd =>
      obtain ⟨_, rfl⟩ := guarded_eq_some.mp taken
      exact ⟨rfl, inv.notified early, inv.free early⟩

theorem Unused.step {a : PublicationStep ι} (inv : Unused s) (inTime : StoredInTime s a)
    (taken : publicationStep s a = some s') : Unused s' := by
  cases a with
  | insertThreadInfo =>
      obtain ⟨point, rfl⟩ := guarded_eq_some.mp taken
      have early : s.point ≠ .stored := by simp [point]
      exact ⟨inv.noNull, fun _ => inv.notified early, fun _ => inv.free early⟩
  | startHostThread =>
      obtain ⟨point, rfl⟩ := guarded_eq_some.mp taken
      have early : s.point ≠ .stored := by simp [point]
      exact ⟨inv.noNull, fun _ => inv.notified early, fun _ => inv.free early⟩
  | storeHostThread =>
      obtain ⟨_, rfl⟩ := guarded_eq_some.mp taken
      exact ⟨inv.noNull, fun early => absurd rfl early, fun early => absurd rfl early⟩
  | guestStep =>
      obtain ⟨_, rfl⟩ := guarded_eq_some.mp taken
      exact inv
  | handshake a =>
      obtain ⟨allowed, moved⟩ := Option.ite_none_right_eq_some.mp taken
      obtain ⟨e, sectioned, rfl⟩ := Option.map_eq_some_iff.mp moved
      by_cases stored : s.point = .stored
      · refine ⟨?_, fun early => absurd stored early, fun early => absurd stored early⟩
        simp [stored, inv.noNull]
      · obtain ⟨calls, notified, free⟩ :=
          inv.handshake_before stored inTime allowed sectioned
        refine ⟨?_, fun _ => notified, fun _ => free⟩
        simp [stored, calls, inv.noNull]

end Steps

/-- **The handle is published before it is used** in every run where the new thread comes to
its exit section only after the store, and no joiner goes on before the store unless it was
notified. -/
theorem handle_published_before_use {s : Publication ι} {steps : List (PublicationStep ι)}
    (inTime : Meets publicationStep StoredInTime {} steps)
    (reached : run publicationStep {} steps = some s) : s.nullUses = 0 :=
  (run_invariant Unused.step unused_initial inTime reached).noNull

/-- A thread that outlives the store, with one joiner. -/
theorem slow_thread_published :
    ({ point := .stored, exitCtrl := { phase := .terminated, waitCount := -1, joinCalls := 1 } } :
      Publication ℕ).nullUses = 0 := by
  have reached : run publicationStep ({} : Publication ℕ)
      [.insertThreadInfo, .handshake (.enter 0), .startHostThread, .guestStep,
        .storeHostThread, .handshake .exitSection, .handshake (.wake 0), .handshake .threadEnd,
        .handshake .joinReturn] =
      some { point := .stored
             exitCtrl := { phase := .terminated, waitCount := -1, joinCalls := 1 } } := by
    decide
  exact handle_published_before_use (by decide) reached

/-- The guest function returns before the store, and the exit section detaches through the
null handle. -/
theorem fast_thread_detaches_null :
    (run publicationStep ({} : Publication ℕ)
      [.insertThreadInfo, .startHostThread, .guestStep, .handshake .exitSection]).map
        Publication.nullUses = some 1 := by
  decide

end Pthread
end WamrExt
