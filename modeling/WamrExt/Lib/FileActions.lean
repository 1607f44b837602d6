import Mathlib.Logic.Function.Basic
import Mathlib.Data.Option.Basic
import Mathlib.Data.Nat.Notation

/-!
# Descriptors across `posix_spawn`

A new process starts with a copy of each descriptor of its parent. The file actions of the spawn
then change the copies, one after another, and at `exec` the copies that are marked go away.

For each number of the new process, the actions alone say which number of the parent its descriptor
comes from, if it is not closed, and whether a `dup2` has put it there (`trace`). That is all there
is to know of the new process: a descriptor that a `dup2` has put there is kept in any case, and one
that has stayed in its place is kept when it is not marked (`posixSpawn_eq_some`).

Where actions duplicate onto ascending numbers, a source below its target has already been replaced
when it is used, and no other source has (`origin_dup2_of_ascending`).
-/

set_option autoImplicit false

namespace FileActions

universe u

variable {α : Type u}

/-- A descriptor: what it refers to, and whether it goes away at `exec`. -/
structure Descriptor (α : Type u) where
  file : α
  cloexec : Bool := false

/-- A descriptor of a new process, with the number in the parent of which it is a copy. -/
structure Inherited (α : Type u) where
  copyOf : ℕ
  descriptor : Descriptor α

/-- The descriptors of a process, and those of a new one. -/
abbrev Table (α : Type u) := ℕ → Option (Descriptor α)

abbrev NewTable (α : Type u) := ℕ → Option (Inherited α)

inductive FileAction where
  | dup2 (src dst : ℕ)
  | close (fd : ℕ)
  deriving DecidableEq, Repr

/-- The mark is not copied. -/
def Descriptor.dup (d : Descriptor α) : Descriptor α := { d with cloexec := false }

/-- The new process before the file actions. -/
def fork (fds : Table α) : NewTable α := fun n => (fds n).map fun d => ⟨n, d⟩

/-- An action. It fails when it duplicates what is not open. -/
def perform (t : NewTable α) : FileAction → Option (NewTable α)
  | .dup2 src dst => (t src).map fun e =>
      Function.update t dst (some ⟨e.copyOf, e.descriptor.dup⟩)
  | .close fd => some (Function.update t fd none)

/-- What is left at `exec`. -/
def exec (t : NewTable α) : NewTable α := fun n => (t n).filter fun e => !e.descriptor.cloexec

/-- The descriptors of a process that is started, if all actions succeed. -/
def posixSpawn (fds : Table α) (actions : List FileAction) : Option (NewTable α) :=
  (actions.foldlM perform (fork fds)).map exec

/-! ## Where the descriptors come from -/

/-- For each number of the new process: the number in the parent that its descriptor comes from,
and whether a `dup2` has put it there. -/
structure Trace where
  origin : ℕ → Option ℕ := some
  redirected : ℕ → Bool := fun _ => false

def Trace.perform (tr : Trace) : FileAction → Trace
  | .dup2 src dst =>
      { origin := Function.update tr.origin dst (tr.origin src)
        redirected := Function.update tr.redirected dst true }
  | .close fd =>
      { origin := Function.update tr.origin fd none
        redirected := Function.update tr.redirected fd false }

def trace (actions : List FileAction) : Trace := actions.foldl Trace.perform {}

/-- A trace says what is in a table. -/
def Follows (fds : Table α) (tr : Trace) (t : NewTable α) : Prop :=
  ∀ n e, t n = some e ↔ ∃ d, tr.origin n = some e.copyOf ∧ fds e.copyOf = some d ∧
    e.descriptor = if tr.redirected n then d.dup else d

variable {fds : Table α} {tr : Trace} {t t' : NewTable α}

theorem follows_fork : Follows fds {} (fork fds) := by
  intro n e
  rw [fork, Option.map_eq_some_iff]
  constructor
  · rintro ⟨d, known, rfl⟩
    exact ⟨d, rfl, known, rfl⟩
  · rintro ⟨d, origin, known, same⟩
    cases origin
    exact ⟨d, known, congrArg _ same.symm⟩

theorem Follows.dup2 (follows : Follows fds tr t) {src dst : ℕ} {e : Inherited α}
    (source : t src = some e) :
    Follows fds (tr.perform (.dup2 src dst))
      (Function.update t dst (some ⟨e.copyOf, e.descriptor.dup⟩)) := by
  obtain ⟨d, origin, known, same⟩ := (follows src e).mp source
  have copied : e.descriptor.dup = d.dup := by
    rw [same]
    split <;> rfl
  intro n e'
  simp only [Trace.perform, Function.update_apply]
  by_cases here : n = dst
  · simp only [if_pos here, origin, copied, Option.some.injEq]
    constructor
    · rintro rfl
      exact ⟨d, rfl, known, rfl⟩
    · rintro ⟨d', copyOf, known', same'⟩
      obtain ⟨copyOf', descriptor⟩ := e'
      cases copyOf
      cases known.symm.trans known'
      exact congrArg _ same'.symm
  · simp only [if_neg here]
    exact follows n e'

theorem Follows.close (follows : Follows fds tr t) (fd : ℕ) :
    Follows fds (tr.perform (.close fd)) (Function.update t fd none) := by
  intro n e
  simp only [Trace.perform, Function.update_apply]
  by_cases here : n = fd
  · simp [here]
  · simp only [if_neg here]
    exact follows n e

theorem Follows.perform (follows : Follows fds tr t) {action : FileAction}
    (done : perform t action = some t') : Follows fds (tr.perform action) t' := by
  cases action with
  | dup2 src dst =>
      obtain ⟨e, source, rfl⟩ := Option.map_eq_some_iff.mp done
      exact follows.dup2 source
  | close fd =>
      cases done
      exact follows.close fd

theorem Follows.performAll (follows : Follows fds tr t) {actions : List FileAction}
    (done : actions.foldlM FileActions.perform t = some t') :
    Follows fds (actions.foldl Trace.perform tr) t' := by
  induction actions generalizing tr t with
  | nil =>
      cases done
      exact follows
  | cons action rest ih =>
      obtain ⟨next, first, later⟩ := Option.bind_eq_some_iff.mp done
      exact ih (follows.perform first) later

/-- **The descriptors of a new process.** -/
theorem posixSpawn_eq_some {actions : List FileAction}
    (started : posixSpawn fds actions = some t) (n : ℕ) (e : Inherited α) :
    t n = some e ↔ ∃ d, (trace actions).origin n = some e.copyOf ∧ fds e.copyOf = some d ∧
      (((trace actions).redirected n = true ∧ e.descriptor = d.dup) ∨
        ((trace actions).redirected n = false ∧ d.cloexec = false ∧ e.descriptor = d)) := by
  obtain ⟨before, done, rfl⟩ := Option.map_eq_some_iff.mp started
  have follows : Follows fds (trace actions) before := follows_fork.performAll done
  rw [exec, Option.filter_eq_some_iff, follows n e]
  constructor
  · rintro ⟨⟨d, origin, known, same⟩, kept⟩
    refine ⟨d, origin, known, ?_⟩
    split at same
    next redirected => exact .inl ⟨redirected, same⟩
    next stays =>
      rw [same] at kept
      exact .inr ⟨by simpa using stays, by simpa using kept, same⟩
  · rintro ⟨d, origin, known, ⟨redirected, same⟩ | ⟨stays, unmarked, same⟩⟩
    · refine ⟨⟨d, origin, known, by rw [if_pos redirected, same]⟩, ?_⟩
      rw [same]
      rfl
    · refine ⟨⟨d, origin, known, by rw [if_neg (by simp [stays]), same]⟩, ?_⟩
      rw [same, unmarked]
      rfl

/-- What no `dup2` has put there is in its place, or is closed. -/
def Trace.Placed (tr : Trace) : Prop :=
  ∀ n m, tr.redirected n = false → tr.origin n = some m → m = n

theorem Trace.Placed.perform (placed : tr.Placed) (action : FileAction) :
    (tr.perform action).Placed := by
  intro n m
  cases action with
  | dup2 src dst =>
      simp only [Trace.perform, Function.update_apply]
      split
      · nofun
      · exact placed n m
  | close fd =>
      simp only [Trace.perform, Function.update_apply]
      split
      · nofun
      · exact placed n m

theorem placed_trace (actions : List FileAction) : (trace actions).Placed := by
  have always : ∀ tr : Trace, tr.Placed → (actions.foldl Trace.perform tr).Placed := by
    induction actions with
    | nil => exact fun _ placed => placed
    | cons action rest ih => exact fun tr placed => ih _ (placed.perform action)
  apply always
  intro n m _ same
  exact (Option.some.inj same).symm

theorem redirected_perform {action : FileAction} {n : ℕ}
    (redirected : (tr.perform action).redirected n = true) :
    tr.redirected n = true ∨ ∃ src, action = .dup2 src n := by
  cases action with
  | dup2 src dst =>
      simp only [Trace.perform, Function.update_apply] at redirected
      split at redirected
      next same => exact .inr ⟨src, by rw [same]⟩
      next => exact .inl redirected
  | close fd =>
      simp only [Trace.perform, Function.update_apply] at redirected
      split at redirected
      · cases redirected
      · exact .inl redirected

/-- What is redirected has been put there by a `dup2`. -/
theorem dup2_of_redirected {actions : List FileAction} {n : ℕ}
    (redirected : (trace actions).redirected n = true) : ∃ src, .dup2 src n ∈ actions := by
  have always : ∀ tr : Trace, (actions.foldl Trace.perform tr).redirected n = true →
      tr.redirected n = true ∨ ∃ src, FileAction.dup2 src n ∈ actions := by
    clear redirected
    induction actions with
    | nil => exact fun _ holds => .inl holds
    | cons action rest ih =>
        intro tr holds
        rcases ih (tr.perform action) holds with before | ⟨src, member⟩
        · rcases redirected_perform before with earlier | ⟨src, rfl⟩
          · exact .inl earlier
          · exact .inr ⟨src, List.mem_cons_self⟩
        · exact .inr ⟨src, List.mem_cons_of_mem _ member⟩
  rcases always {} redirected with start | found
  · cases start
  · exact found

/-! ## Ascending targets -/

/-- The number that an action changes. -/
def FileAction.target : FileAction → ℕ
  | .dup2 _ dst => dst
  | .close fd => fd

theorem perform_of_ne {action : FileAction} {n : ℕ} (apart : n ≠ action.target) :
    (tr.perform action).origin n = tr.origin n ∧
      (tr.perform action).redirected n = tr.redirected n := by
  cases action with
  | dup2 src dst => exact ⟨Function.update_of_ne apart _ _, Function.update_of_ne apart _ _⟩
  | close fd => exact ⟨Function.update_of_ne apart _ _, Function.update_of_ne apart _ _⟩

/-- A number that no action changes keeps its origin. -/
theorem foldl_perform_of_ne {actions : List FileAction} {n : ℕ}
    (apart : ∀ action ∈ actions, n ≠ action.target) (tr : Trace) :
    (actions.foldl Trace.perform tr).origin n = tr.origin n ∧
      (actions.foldl Trace.perform tr).redirected n = tr.redirected n := by
  induction actions generalizing tr with
  | nil => exact ⟨rfl, rfl⟩
  | cons action rest ih =>
      obtain ⟨origin, redirected⟩ :=
        ih (fun a member => apart a (List.mem_cons_of_mem _ member)) (tr.perform action)
      obtain ⟨same, same'⟩ :=
        perform_of_ne (apart action List.mem_cons_self)
      exact ⟨origin.trans same, redirected.trans same'⟩

/-- Each action changes a greater number than those before it. -/
def Ascending (actions : List FileAction) : Prop :=
  actions.Pairwise fun a b => a.target < b.target

/-- What an action of an ascending list duplicates: a source below the target is what the list
has made of it, and any other is still in its place. -/
theorem origin_dup2_of_ascending {actions : List FileAction} (ascending : Ascending actions)
    {src dst : ℕ} (member : .dup2 src dst ∈ actions) :
    (trace actions).origin dst =
        (if src < dst then (trace actions).origin src else some src) ∧
      (trace actions).redirected dst = true := by
  obtain ⟨before, after, rfl⟩ := List.append_of_mem member
  obtain ⟨_, later, apart⟩ := List.pairwise_append.mp ascending
  obtain ⟨above, _⟩ := List.pairwise_cons.mp later
  have below : ∀ action ∈ before, action.target < dst := fun action member =>
    apart action member _ List.mem_cons_self
  have split : trace (before ++ .dup2 src dst :: after) =
      after.foldl Trace.perform ((trace before).perform (.dup2 src dst)) := by
    rw [trace, List.foldl_append]
    rfl
  have onward : ∀ n ≤ dst, ∀ tr : Trace, (after.foldl Trace.perform tr).origin n = tr.origin n ∧
      (after.foldl Trace.perform tr).redirected n = tr.redirected n := by
    intro n le tr
    refine foldl_perform_of_ne (fun action member => ?_) tr
    have : dst < action.target := above action member
    omega
  have placed : ((trace before).perform (.dup2 src dst)).origin dst = (trace before).origin src :=
    Function.update_self _ _ _
  have marked : ((trace before).perform (.dup2 src dst)).redirected dst = true :=
    Function.update_self _ _ _
  rw [split, (onward dst (Nat.le_refl dst) _).1, (onward dst (Nat.le_refl dst) _).2, placed, marked]
  refine ⟨?_, rfl⟩
  split
  next lower =>
    have kept : ((trace before).perform (.dup2 src dst)).origin src =
        (trace before).origin src :=
      Function.update_of_ne (Nat.ne_of_lt lower) _ _
    rw [(onward src (Nat.le_of_lt lower) _).1, kept]
  next =>
    refine (foldl_perform_of_ne (fun action member => ?_) {}).1
    have := below action member
    omega

/-! ## The files of the new process -/

/-- The file of a descriptor that a `dup2` has put there. -/
theorem file_of_redirected {actions : List FileAction} (started : posixSpawn fds actions = some t)
    {n : ℕ} (redirected : (trace actions).redirected n = true) :
    (t n).map (fun e => e.descriptor.file) =
      (((trace actions).origin n).bind fds).map Descriptor.file := by
  ext file
  simp only [Option.map_eq_some_iff, Option.bind_eq_some_iff, posixSpawn_eq_some started,
    redirected]
  constructor
  · rintro ⟨e, ⟨d, origin, known, ⟨_, same⟩ | ⟨stays, _⟩⟩, rfl⟩
    · exact ⟨d, ⟨_, origin, known⟩, by rw [same, Descriptor.dup]⟩
    · cases stays
  · rintro ⟨d, ⟨m, origin, known⟩, rfl⟩
    exact ⟨⟨m, d.dup⟩, ⟨d, origin, known, .inl ⟨trivial, rfl⟩⟩, rfl⟩

/-- The file of a descriptor that has stayed in its place, if it is not marked. -/
theorem file_of_placed {actions : List FileAction} (started : posixSpawn fds actions = some t)
    {n : ℕ} (stays : (trace actions).redirected n = false) :
    (t n).map (fun e => e.descriptor.file) =
      ((((trace actions).origin n).bind fds).filter fun d => !d.cloexec).map Descriptor.file := by
  ext file
  simp only [Option.map_eq_some_iff, Option.filter_eq_some_iff, Option.bind_eq_some_iff,
    posixSpawn_eq_some started, stays]
  constructor
  · rintro ⟨e, ⟨d, origin, known, ⟨redirected, _⟩ | ⟨_, unmarked, same⟩⟩, rfl⟩
    · cases redirected
    · exact ⟨d, ⟨⟨_, origin, known⟩, by rw [unmarked]; rfl⟩, by rw [same]⟩
  · rintro ⟨d, ⟨⟨m, origin, known⟩, unmarked⟩, rfl⟩
    exact ⟨⟨m, d⟩, ⟨d, origin, known, .inr ⟨trivial, by simpa using unmarked, rfl⟩⟩, rfl⟩

end FileActions
