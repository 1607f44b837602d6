import Mathlib.Logic.Function.Basic
import Mathlib.Logic.Relation
import Mathlib.Data.Nat.Notation
import Mathlib.Data.List.GetD
import WamrExt.Lib.Transition

/-!
# Programs that take locks

A program takes locks in scopes. A scope locks at its start and unlocks at its end (`locked`),
and the innermost scope may give its lock up for a while (`unlocked`). A program may also wait for
something that is not a lock (`await`). All else that it does is left out, and so its choices are
free.

Threads run such programs on shared locks, one step of one thread at a time (`threadStep`). A
thread that is about to lock what another thread holds has no step. When a wait for something else
ends is not said here: it may end at any time, and it may never end.

Let the locks have ranks, and let every program lock in ascending order of rank (`Ordered`). Then
the locks that a thread waits for ascend along every chain of waiting threads, so that no thread
waits for itself through others (`no_circular_wait`). If the ranks are bounded, then every chain
ends: every thread that has not finished is free of locks, or behind one that is
(`free_or_behind`). And during a wait for something else, only locks of low rank are held
(`held_while_awaiting`).
-/

set_option autoImplicit false

namespace LockProgram

universe u v

open Transition

/-! ## Programs -/

/-- A program that takes locks. -/
inductive LockProg (L : Type u) where
  | skip
  | seq (p q : LockProg L)
  | any (p : ℕ → LockProg L)
  | loop (p : LockProg L)
  | locked (l : L) (p : LockProg L)
  | unlocked (l : L) (p : LockProg L)
  | await

namespace LockProg

variable {L : Type u}

/-- One program after another. -/
def steps : List (LockProg L) → LockProg L
  | [] => skip
  | p :: rest => seq p (steps rest)

/-- One of some programs, or nothing. -/
def oneOf (ps : List (LockProg L)) : LockProg L := any fun n => ps.getD n skip

/-- A program that may be left out. -/
def opt (p : LockProg L) : LockProg L := oneOf [p]

/-- The locks are taken in ascending order of rank, after those that are held, and below a limit
are all that are held during a wait. The last lock taken is the first of the list, and it is the one
that a program may give up. -/
def Ordered (rank : L → ℕ) (limit : ℕ) : List L → LockProg L → Prop
  | _, skip => True
  | held, seq p q => p.Ordered rank limit held ∧ q.Ordered rank limit held
  | held, any p => ∀ n, (p n).Ordered rank limit held
  | held, loop p => p.Ordered rank limit held
  | held, locked l p => (∀ k ∈ held, rank k < rank l) ∧ p.Ordered rank limit (l :: held)
  | held, unlocked l p => ∃ below, held = l :: below ∧ p.Ordered rank limit below
  | held, await => ∀ k ∈ held, rank k < limit

variable {rank : L → ℕ} {limit : ℕ} {held : List L}

theorem ordered_steps {ps : List (LockProg L)} :
    (steps ps).Ordered rank limit held ↔ ∀ p ∈ ps, p.Ordered rank limit held := by
  induction ps with
  | nil => exact ⟨fun _ _ member => absurd member List.not_mem_nil, fun _ => trivial⟩
  | cons p rest ih => rw [steps, Ordered, ih, List.forall_mem_cons]

theorem ordered_oneOf {ps : List (LockProg L)} :
    (oneOf ps).Ordered rank limit held ↔ ∀ p ∈ ps, p.Ordered rank limit held := by
  constructor
  · intro all p member
    obtain ⟨n, bound, rfl⟩ := List.mem_iff_getElem.mp member
    have at_n : (ps.getD n skip).Ordered rank limit held := all n
    rwa [List.getD_eq_getElem _ _ bound] at at_n
  · intro all n
    show (ps.getD n skip).Ordered rank limit held
    rcases Nat.lt_or_ge n ps.length with bound | beyond
    · rw [List.getD_eq_getElem _ _ bound]
      exact all _ (List.getElem_mem bound)
    · rw [List.getD_eq_default _ _ beyond]
      trivial

theorem ordered_opt {p : LockProg L} :
    (opt p).Ordered rank limit held ↔ p.Ordered rank limit held := by
  rw [opt, ordered_oneOf, List.forall_mem_singleton]

/-- The program keeps the order after all locks of a rank below a bound. -/
def Above (rank : L → ℕ) (limit bound : ℕ) (p : LockProg L) : Prop :=
  ∀ held : List L, (∀ k ∈ held, rank k < bound) → p.Ordered rank limit held

variable {bound : ℕ}

theorem Above.mono {p : LockProg L} {high : ℕ} (above : p.Above rank limit high)
    (le : bound ≤ high) : p.Above rank limit bound :=
  fun held low => above held fun k member => Nat.lt_of_lt_of_le (low k member) le

@[simp]
theorem above_skip : (skip : LockProg L).Above rank limit bound := fun _ _ => trivial

@[simp]
theorem above_steps {ps : List (LockProg L)} :
    (steps ps).Above rank limit bound ↔ ∀ p ∈ ps, p.Above rank limit bound := by
  simp only [Above, ordered_steps]
  exact ⟨fun all p member held low => all held low p member,
    fun all held low p member => all p member held low⟩

@[simp]
theorem above_oneOf {ps : List (LockProg L)} :
    (oneOf ps).Above rank limit bound ↔ ∀ p ∈ ps, p.Above rank limit bound := by
  simp only [Above, ordered_oneOf]
  exact ⟨fun all p member held low => all held low p member,
    fun all held low p member => all p member held low⟩

@[simp]
theorem above_opt {p : LockProg L} :
    (opt p).Above rank limit bound ↔ p.Above rank limit bound := by
  rw [opt, above_oneOf, List.forall_mem_singleton]

@[simp]
theorem above_any {p : ℕ → LockProg L} :
    (any p).Above rank limit bound ↔ ∀ n, (p n).Above rank limit bound :=
  ⟨fun all n held low => all held low n, fun all held low n => all n held low⟩

@[simp]
theorem above_loop {p : LockProg L} :
    (loop p).Above rank limit bound ↔ p.Above rank limit bound := Iff.rfl

/-- A wait below the limit. -/
@[simp]
theorem above_await (le : bound ≤ limit) : (await : LockProg L).Above rank limit bound :=
  fun _ low k member => Nat.lt_of_lt_of_le (low k member) le

/-- A scope, in which all is above its lock. -/
theorem above_locked {l : L} {p : LockProg L} (le : bound ≤ rank l)
    (inner : p.Above rank limit (rank l + 1)) : (locked l p).Above rank limit bound := by
  intro held low
  have below : ∀ k ∈ held, rank k < rank l := fun k member => Nat.lt_of_lt_of_le (low k member) le
  refine ⟨below, inner _ (List.forall_mem_cons.mpr ⟨Nat.lt_succ_self _, fun k member => ?_⟩)⟩
  exact Nat.lt_succ_of_lt (below k member)

/-- A scope that may give its lock up while something else runs, and goes on with it. -/
theorem above_yielding {l : L} {p : LockProg L} {rest : List (LockProg L)} (le : bound ≤ rank l)
    (inner : p.Above rank limit bound) (later : (steps rest).Above rank limit (rank l + 1)) :
    (locked l (opt (steps (unlocked l p :: rest)))).Above rank limit bound := by
  intro held low
  have below : ∀ k ∈ held, rank k < rank l := fun k member => Nat.lt_of_lt_of_le (low k member) le
  refine ⟨below, ordered_opt.mpr ⟨⟨held, rfl, inner held low⟩, later _ ?_⟩⟩
  exact List.forall_mem_cons.mpr
    ⟨Nat.lt_succ_self _, fun k member => Nat.lt_succ_of_lt (below k member)⟩

end LockProg

/-! ## Threads -/

/-- What a thread has yet to do: a program, one end of a scope, or a wait. -/
inductive Frame (L : Type u) where
  | run (p : LockProg L)
  | lock (l : L)
  | unlock (l : L)
  | await

/-- What a program does next. The choice matters for `any` and `loop` alone. -/
def LockProg.expand {L : Type u} : LockProg L → ℕ → List (Frame L)
  | .skip, _ => []
  | .seq p q, _ => [.run p, .run q]
  | .any p, choice => [.run (p choice)]
  | .loop p, choice => if choice = 0 then [] else [.run p, .run (.loop p)]
  | .locked l p, _ => [.lock l, .run p, .unlock l]
  | .unlocked l p, _ => [.unlock l, .run p, .lock l]
  | .await, _ => [.await]

/-- Threads, with what each has yet to do, and the locks, with the thread that holds each. -/
structure Threads (T : Type v) (L : Type u) where
  code : T → List (Frame L)
  holder : L → Option T

variable {T : Type v} {L : Type u}

/-- Threads before their first step. -/
def Threads.start (programs : T → LockProg L) : Threads T L where
  code t := [.run (programs t)]
  holder _ := none

section Steps

variable [DecidableEq T] [DecidableEq L]

/-- A step of a thread, with its choice. A lock that is held cannot be taken, and only the holder
of a lock can give it back. -/
def threadStep : Step (Threads T L) (T × ℕ)
  | s, (t, choice) =>
      match s.code t with
      | [] => none
      | .run p :: rest =>
          some { s with code := Function.update s.code t (p.expand choice ++ rest) }
      | .lock l :: rest =>
          if s.holder l = none then
            some { code := Function.update s.code t rest
                   holder := Function.update s.holder l (some t) }
          else none
      | .unlock l :: rest =>
          if s.holder l = some t then
            some { code := Function.update s.code t rest
                   holder := Function.update s.holder l none }
          else none
      | .await :: rest => some { s with code := Function.update s.code t rest }

/-- What a step does, with what it needs. -/
inductive Stepped (s : Threads T L) (t : T) : Threads T L → Prop
  | run {p : LockProg L} {rest : List (Frame L)} (choice : ℕ) (here : s.code t = .run p :: rest) :
      Stepped s t { s with code := Function.update s.code t (p.expand choice ++ rest) }
  | lock {l : L} {rest : List (Frame L)} (here : s.code t = .lock l :: rest)
      (free : s.holder l = none) :
      Stepped s t { code := Function.update s.code t rest
                    holder := Function.update s.holder l (some t) }
  | unlock {l : L} {rest : List (Frame L)} (here : s.code t = .unlock l :: rest)
      (own : s.holder l = some t) :
      Stepped s t { code := Function.update s.code t rest
                    holder := Function.update s.holder l none }
  | await {rest : List (Frame L)} (here : s.code t = .await :: rest) :
      Stepped s t { s with code := Function.update s.code t rest }

theorem threadStep_cases {s s' : Threads T L} {t : T} {choice : ℕ}
    (taken : threadStep s (t, choice) = some s') : Stepped s t s' := by
  simp only [threadStep] at taken
  split at taken
  next => cases taken
  next here =>
    cases taken
    exact .run choice here
  next here =>
    obtain ⟨free, rfl⟩ := guarded_eq_some.mp taken
    exact .lock here free
  next here =>
    obtain ⟨own, rfl⟩ := guarded_eq_some.mp taken
    exact .unlock here own
  next here =>
    cases taken
    exact .await here

end Steps

/-- The thread waits for something that is not a lock. -/
def Awaits (s : Threads T L) (t : T) : Prop := ∃ rest, s.code t = .await :: rest

/-- The thread has a step that it has not to wait for. -/
def CanStep [DecidableEq T] [DecidableEq L] (s : Threads T L) (t : T) : Prop :=
  ¬ Awaits s t ∧ ∃ choice s', threadStep s (t, choice) = some s'

/-- The thread is about to lock what another thread, or itself, holds. -/
def Waits (s : Threads T L) (t u : T) : Prop :=
  ∃ l rest, s.code t = .lock l :: rest ∧ s.holder l = some u

/-! ## Threads that lock in order -/

variable (rank : L → ℕ) (limit : ℕ)

/-- What a thread has yet to do takes locks in ascending order, after those that are held, and
gives all of them back. -/
def FramesOrdered : List L → List (Frame L) → Prop
  | held, [] => held = []
  | held, .run p :: rest => p.Ordered rank limit held ∧ FramesOrdered held rest
  | held, .lock l :: rest => (∀ k ∈ held, rank k < rank l) ∧ FramesOrdered (l :: held) rest
  | held, .unlock l :: rest => ∃ below, held = l :: below ∧ FramesOrdered below rest
  | held, .await :: rest => (∀ k ∈ held, rank k < limit) ∧ FramesOrdered held rest

/-- A thread holds some locks, the last taken first, and goes on in order. -/
structure ThreadOrdered (s : Threads T L) (t : T) (held : List L) : Prop where
  holds : ∀ l, s.holder l = some t ↔ l ∈ held
  ranks : held.Pairwise fun later earlier => rank earlier < rank later
  frames : FramesOrdered rank limit held (s.code t)

/-- Every thread goes on in order. -/
def AllOrdered (s : Threads T L) : Prop := ∀ t, ∃ held, ThreadOrdered rank limit s t held

variable {rank limit}

theorem FramesOrdered.expand {p : LockProg L} {held : List L} {rest : List (Frame L)}
    (ranks : held.Pairwise fun later earlier => rank earlier < rank later)
    (ordered : p.Ordered rank limit held) (frames : FramesOrdered rank limit held rest)
    (choice : ℕ) :
    FramesOrdered rank limit held (p.expand choice ++ rest) := by
  cases p with
  | skip => exact frames
  | seq p q => exact ⟨ordered.1, ordered.2, frames⟩
  | any p => exact ⟨ordered choice, frames⟩
  | loop p =>
      rw [LockProg.expand]
      split
      · exact frames
      · exact ⟨ordered, ordered, frames⟩
  | locked l p => exact ⟨ordered.1, ordered.2, held, rfl, frames⟩
  | unlocked l p =>
      obtain ⟨below, rfl, inner⟩ := ordered
      exact ⟨below, rfl, inner, (List.pairwise_cons.mp ranks).1, frames⟩
  | await => exact ⟨ordered, frames⟩

theorem allOrdered_start {programs : T → LockProg L}
    (ordered : ∀ t, (programs t).Ordered rank limit []) :
    AllOrdered rank limit (Threads.start programs) := by
  intro t
  refine ⟨[], ⟨fun l => ⟨fun own => ?_, fun member => ?_⟩, List.Pairwise.nil, ordered t, rfl⟩⟩
  · cases own
  · exact absurd member List.not_mem_nil

/-! ## Waiting -/

section Waiting

variable {s : Threads T L} {t u : T}

/-- A thread that waits is about to take a lock above all that it holds. -/
theorem ThreadOrdered.above {held : List L} (ordered : ThreadOrdered rank limit s t held) {l : L}
    {rest : List (Frame L)} (here : s.code t = .lock l :: rest) {k : L}
    (own : s.holder k = some t) : rank k < rank l := by
  have frames := ordered.frames
  rw [here] at frames
  exact frames.1 k ((ordered.holds k).mp own)

/-- Along a chain of waiting threads the locks that they wait for ascend. -/
theorem rank_lt_of_behind (all : AllOrdered rank limit s) (behind : Relation.TransGen (Waits s) t u)
    {l k : L} {rest rest' : List (Frame L)} (first : s.code t = .lock l :: rest)
    (last : s.code u = .lock k :: rest') : rank l < rank k := by
  induction behind generalizing k rest' with
  | single waits =>
      obtain ⟨l', _, here, own⟩ := waits
      cases first.symm.trans here
      obtain ⟨held, ordered⟩ := all _
      exact ordered.above last own
  | tail _ waits ih =>
      obtain ⟨l', _, here, own⟩ := waits
      obtain ⟨held, ordered⟩ := all _
      exact Nat.lt_trans (ih here) (ordered.above last own)

/-- **No thread waits for itself, be it through other threads.** -/
theorem no_circular_wait (all : AllOrdered rank limit s) (t : T) :
    ¬ Relation.TransGen (Waits s) t t := by
  intro behind
  obtain ⟨u, ⟨l, rest, here, own⟩, _⟩ := Relation.TransGen.head'_iff.mp behind
  exact Nat.lt_irrefl _ (rank_lt_of_behind all behind here here)

/-- A thread that has finished holds no lock. -/
theorem ThreadOrdered.finished {held : List L} (ordered : ThreadOrdered rank limit s t held)
    (done : s.code t = []) (l : L) : s.holder l ≠ some t := by
  have frames := ordered.frames
  rw [done] at frames
  intro own
  have member := (ordered.holds l).mp own
  rw [show held = [] from frames] at member
  exact List.not_mem_nil member

/-- **During a wait for something else, only locks below the limit are held.** -/
theorem held_while_awaiting (all : AllOrdered rank limit s) (awaits : Awaits s t) {l : L}
    (own : s.holder l = some t) : rank l < limit := by
  obtain ⟨held, ordered⟩ := all t
  obtain ⟨rest, here⟩ := awaits
  have frames := ordered.frames
  rw [here] at frames
  exact frames.1 l ((ordered.holds l).mp own)

end Waiting

/-! ## Runs -/

/-- A step of one thread leaves another thread in order, if it changes no lock of that. -/
theorem ThreadOrdered.of_other [DecidableEq T] {s : Threads T L} {t u : T} {held : List L}
    (ordered : ThreadOrdered rank limit s u held) (other : u ≠ t) {code : List (Frame L)}
    {holder : L → Option T} (same : ∀ l, holder l = some u ↔ s.holder l = some u) :
    ThreadOrdered rank limit ⟨Function.update s.code t code, holder⟩ u held := by
  refine ⟨fun l => (same l).trans (ordered.holds l), ordered.ranks, ?_⟩
  show FramesOrdered rank limit held (Function.update s.code t code u)
  rw [Function.update_of_ne other]
  exact ordered.frames

section Steps

variable [DecidableEq T] [DecidableEq L] {s s' : Threads T L} {t u : T}

/-- A step of a thread in order, which locks or unlocks or does neither. -/
theorem ThreadOrdered.step {held : List L} (ordered : ThreadOrdered rank limit s t held)
    (stepped : Stepped s t s') : ∃ held', ThreadOrdered rank limit s' t held' := by
  obtain ⟨holds, ranks, frames⟩ := ordered
  cases stepped with
  | run choice here =>
      rw [here] at frames
      refine ⟨held, holds, ranks, ?_⟩
      dsimp only
      rw [Function.update_self]
      exact FramesOrdered.expand ranks frames.1 frames.2 choice
  | @lock l rest here free =>
      rw [here] at frames
      refine ⟨l :: held, fun k => ?_, List.pairwise_cons.mpr ⟨frames.1, ranks⟩, ?_⟩
      · by_cases same : k = l
        · subst same
          simp
        · dsimp only
          rw [Function.update_of_ne same, holds k, List.mem_cons, or_iff_right same]
      · dsimp only
        rw [Function.update_self]
        exact frames.2
  | @unlock l rest here own =>
      rw [here] at frames
      obtain ⟨below, rfl, later⟩ := frames
      obtain ⟨above, ranks⟩ := List.pairwise_cons.mp ranks
      refine ⟨below, fun k => ?_, ranks, ?_⟩
      · by_cases same : k = l
        · subst same
          have notBelow : k ∉ below := fun member => Nat.lt_irrefl _ (above k member)
          simp [notBelow]
        · dsimp only
          rw [Function.update_of_ne same, holds k, List.mem_cons, or_iff_right same]
      · dsimp only
        rw [Function.update_self]
        exact later
  | await here =>
      rw [here] at frames
      refine ⟨held, holds, ranks, ?_⟩
      dsimp only
      rw [Function.update_self]
      exact frames.2

/-- **A step keeps every thread in order.** -/
theorem AllOrdered.step (all : AllOrdered rank limit s) (stepped : Stepped s t s') :
    AllOrdered rank limit s' := by
  intro u
  by_cases own : u = t
  · subst own
    obtain ⟨held, ordered⟩ := all u
    exact ordered.step stepped
  · obtain ⟨held, ordered⟩ := all u
    refine ⟨held, ?_⟩
    cases stepped with
    | run | await => exact ordered.of_other own fun _ => Iff.rfl
    | @lock l rest here free =>
        refine ordered.of_other own fun k => ?_
        by_cases same : k = l
        · subst same
          simp [free, Ne.symm own]
        · rw [Function.update_of_ne same]
    | @unlock l rest here held =>
        refine ordered.of_other own fun k => ?_
        by_cases same : k = l
        · subst same
          simp [held, Ne.symm own]
        · rw [Function.update_of_ne same]

/-- **Programs in order, run by any threads.** -/
theorem allOrdered_run {programs : T → LockProg L}
    (ordered : ∀ t, (programs t).Ordered rank limit []) {as : List (T × ℕ)}
    (reached : run threadStep (Threads.start programs) as = some s) : AllOrdered rank limit s :=
  run_invariant_always (fun all taken => AllOrdered.step all (threadStep_cases taken))
    (allOrdered_start ordered) reached

/-- A thread in order has a step, waits for something else, has finished, or waits for a lock. -/
theorem ThreadOrdered.cases {held : List L} (ordered : ThreadOrdered rank limit s t held) :
    (CanStep s t ∨ Awaits s t) ∨ s.code t = [] ∨ ∃ u, Waits s t u := by
  have frames := ordered.frames
  -- the first frame says whether it is a wait
  have goes : ∀ {frame : Frame L} {rest : List (Frame L)}, s.code t = frame :: rest →
      frame ≠ .await → (∃ s', threadStep s (t, 0) = some s') → CanStep s t := by
    rintro frame rest here other ⟨s', taken⟩
    refine ⟨?_, 0, s', taken⟩
    rintro ⟨rest', waiting⟩
    cases here.symm.trans waiting
    exact other rfl
  cases here : s.code t with
  | nil => exact .inr (.inl rfl)
  | cons frame rest =>
      rw [here] at frames
      cases frame with
      | run p => exact .inl (.inl (goes here nofun ⟨_, by rw [threadStep, here]⟩))
      | lock l =>
          cases free : s.holder l with
          | none =>
              exact .inl (.inl (goes here nofun
                ⟨_, by simp only [threadStep, here]; exact if_pos free⟩))
          | some u => exact .inr (.inr ⟨u, l, rest, here, free⟩)
      | unlock l =>
          obtain ⟨below, rfl, _⟩ := frames
          have own : s.holder l = some t := (ordered.holds l).mpr List.mem_cons_self
          exact .inl (.inl (goes here nofun
            ⟨_, by simp only [threadStep, here]; exact if_pos own⟩))
      | await => exact .inl (.inr ⟨rest, here⟩)

/-- **Every thread that has not finished is free of locks, or behind one that is**: this one has a
step, or waits for something else. -/
theorem free_or_behind (all : AllOrdered rank limit s) {bound : ℕ} (bounded : ∀ l, rank l < bound)
    (unfinished : s.code t ≠ []) :
    ∃ u, Relation.ReflTransGen (Waits s) t u ∧ (CanStep s u ∨ Awaits s u) := by
  obtain ⟨held, ordered⟩ := all t
  rcases ordered.cases with free | done | ⟨u, l, rest, here, own⟩
  · exact ⟨t, .refl, free⟩
  · exact absurd done unfinished
  clear unfinished ordered
  -- the locks waited for ascend, so their distance from the bound descends
  induction distance : bound - rank l using Nat.strongRecOn generalizing t u l rest with
  | ind n ih =>
      obtain ⟨held, ordered⟩ := all u
      have waits : Waits s t u := ⟨l, rest, here, own⟩
      rcases ordered.cases with free | done | ⟨w, k, rest', next, own'⟩
      · exact ⟨u, .single waits, free⟩
      · exact absurd own (ordered.finished done l)
      · have higher := ordered.above next own
        have top := bounded k
        obtain ⟨v, behind, free⟩ := ih (bound - rank k) (by omega) w k rest' next own' rfl
        exact ⟨v, .head waits behind, free⟩

end Steps

end LockProgram
