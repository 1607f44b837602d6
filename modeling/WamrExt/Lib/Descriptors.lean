import Mathlib.Data.List.Perm.Basic
import Mathlib.Logic.Function.Basic

/-!
# Descriptors and who holds them

A process opens descriptors and closes them, and the number of one that is closed is given out
again. So a descriptor is not its number. Here it is known by how many have been opened before it,
and how often each has been closed is counted, as well as the closes of numbers under which
nothing is open (`Files`).

The parts of a program pass the numbers on to each other. What they hold together is a list of
numbers (`Holds`): to open a descriptor adds one, to close it takes it away, and to pass it on
changes nothing. Then every descriptor has been closed exactly once when nothing is held any more,
and not before (`Holds.closedOnce_iff`).
-/

set_option autoImplicit false

namespace Descriptors

/-- The descriptors of a process: how many have been opened, the one that is open under a number,
how often each has been closed, and how often a number was closed that had none. -/
structure Files where
  opened : ℕ := 0
  table : ℕ → Option ℕ := fun _ => none
  closes : ℕ → ℕ := fun _ => 0
  strays : ℕ := 0

namespace Files

variable (f : Files)

/-- A new descriptor under a number. -/
def create (n : ℕ) : Files :=
  { f with opened := f.opened + 1, table := Function.update f.table n (some f.opened) }

/-- The descriptor under a number is closed. -/
def close (n : ℕ) : Files :=
  match f.table n with
  | none => { f with strays := f.strays + 1 }
  | some d =>
      { f with
        table := Function.update f.table n none
        closes := Function.update f.closes d (f.closes d + 1) }

/-- Every descriptor that was opened has been closed exactly once, and nothing else was closed. -/
def ClosedOnce : Prop := f.strays = 0 ∧ ∀ d < f.opened, f.closes d = 1

instance : Decidable f.ClosedOnce :=
  inferInstanceAs (Decidable (f.strays = 0 ∧ ∀ d < f.opened, f.closes d = 1))

end Files

/-- The numbers that are held are those of the descriptors that are open, each is held once, and
what is not open has been closed once. -/
structure Holds (f : Files) (held : List ℕ) : Prop where
  nodup : held.Nodup
  isOpen : ∀ n, (∃ d, f.table n = some d) ↔ n ∈ held
  below : ∀ n d, f.table n = some d → d < f.opened
  single : ∀ n n' d, f.table n = some d → f.table n' = some d → n = n'
  unclosed : ∀ n d, f.table n = some d → f.closes d = 0
  closed : ∀ d < f.opened, (∀ n, f.table n ≠ some d) → f.closes d = 1
  later : ∀ d, f.opened ≤ d → f.closes d = 0
  noStrays : f.strays = 0

variable {f : Files} {n : ℕ} {held held' : List ℕ}

theorem holds_start : Holds {} [] where
  nodup := .nil
  isOpen := by simp
  below := nofun
  single := nofun
  unclosed := nofun
  closed := fun d below => absurd below (Nat.not_lt_zero d)
  later := fun _ _ => rfl
  noStrays := rfl

/-- The descriptors are passed on. -/
theorem Holds.perm (holds : Holds f held) (same : held.Perm held') : Holds f held' :=
  { holds with
    nodup := same.nodup_iff.mp holds.nodup
    isOpen := fun n => (holds.isOpen n).trans same.mem_iff }

/-- The host gives out free numbers, so a new one is not held yet. -/
theorem Holds.new (holds : Holds f held) (free : f.table n = none) : n ∉ held := by
  intro member
  obtain ⟨d, known⟩ := (holds.isOpen n).mpr member
  rw [free] at known
  cases known

/-- **Opening.** -/
theorem Holds.create (holds : Holds f held) (free : f.table n = none) :
    Holds (f.create n) (n :: held) := by
  have table : ∀ n' d, (f.create n).table n' = some d →
      (n' = n ∧ d = f.opened) ∨ f.table n' = some d := by
    intro n' d known
    change Function.update f.table n (some f.opened) n' = some d at known
    rw [Function.update_apply] at known
    split at known
    next same => exact .inl ⟨same, (Option.some.inj known).symm⟩
    next => exact .inr known
  refine ⟨List.nodup_cons.mpr ⟨holds.new free, holds.nodup⟩, ?_, ?_, ?_, ?_, ?_, ?_,
    holds.noStrays⟩
  · intro n'
    change (∃ d, Function.update f.table n (some f.opened) n' = some d) ↔ _
    rw [List.mem_cons, ← holds.isOpen, Function.update_apply]
    split
    next same => simp [same]
    next other => simp [other]
  · intro n' d known
    rcases table n' d known with ⟨_, rfl⟩ | old
    · exact Nat.lt_succ_self _
    · exact Nat.lt_succ_of_lt (holds.below n' d old)
  · intro a b d first second
    rcases table a d first with ⟨rfl, rfl⟩ | old
    · rcases table b _ second with ⟨rfl, _⟩ | old'
      · rfl
      · exact absurd (holds.below b _ old') (Nat.lt_irrefl _)
    · rcases table b d second with ⟨_, rfl⟩ | old'
      · exact absurd (holds.below a _ old) (Nat.lt_irrefl _)
      · exact holds.single a b d old old'
  · intro n' d known
    rcases table n' d known with ⟨_, rfl⟩ | old
    · exact holds.later _ (Nat.le_refl _)
    · exact holds.unclosed n' d old
  · intro d below gone
    have other : d ≠ f.opened := by
      rintro rfl
      exact gone n (Function.update_self _ _ _)
    apply holds.closed d (Nat.lt_of_le_of_ne (Nat.lt_succ_iff.mp below) other)
    intro n' known
    refine gone n' ((Function.update_of_ne ?_ _ _).trans known)
    rintro rfl
    rw [free] at known
    cases known
  · intro d above
    exact holds.later d (Nat.le_of_succ_le above)

/-- **Closing.** -/
theorem Holds.close (holds : Holds f (n :: held)) : Holds (f.close n) held := by
  obtain ⟨d, known⟩ := (holds.isOpen n).mpr List.mem_cons_self
  obtain ⟨notHeld, nodup⟩ := List.nodup_cons.mp holds.nodup
  have closed : f.close n =
      { f with
        table := Function.update f.table n none
        closes := Function.update f.closes d (f.closes d + 1) } := by
    simp only [Files.close, known]
  have table : ∀ {n' d'}, Function.update f.table n none n' = some d' →
      n' ≠ n ∧ f.table n' = some d' := by
    intro n' d' there
    rw [Function.update_apply] at there
    split at there
    · cases there
    next other => exact ⟨other, there⟩
  have others : ∀ {n' d'}, n' ≠ n → f.table n' = some d' → d' ≠ d := by
    rintro n' d' other there rfl
    exact other (holds.single n' n d' there known)
  rw [closed]
  refine ⟨nodup, ?_, ?_, ?_, ?_, ?_, ?_, holds.noStrays⟩
  · intro n'
    constructor
    · rintro ⟨d', there⟩
      obtain ⟨other, there⟩ := table there
      exact (List.mem_cons.mp ((holds.isOpen n').mp ⟨d', there⟩)).resolve_left other
    · intro member
      obtain ⟨d', there⟩ := (holds.isOpen n').mpr (List.mem_cons_of_mem n member)
      refine ⟨d', (Function.update_of_ne ?_ _ _).trans there⟩
      rintro rfl
      exact notHeld member
  · intro n' d' there
    exact holds.below n' d' (table there).2
  · intro a b d' first second
    exact holds.single a b d' (table first).2 (table second).2
  · intro n' d' there
    obtain ⟨other, there⟩ := table there
    exact (Function.update_of_ne (others other there) _ _).trans (holds.unclosed n' d' there)
  · intro d' below gone
    by_cases same : d' = d
    · subst same
      change Function.update f.closes d' (f.closes d' + 1) d' = 1
      rw [Function.update_self, holds.unclosed n d' known]
    · refine (Function.update_of_ne same _ _).trans (holds.closed d' below fun n' there => ?_)
      by_cases own : n' = n
      · subst own
        exact same (Option.some.inj (there.symm.trans known))
      · exact gone n' ((Function.update_of_ne own _ _).trans there)
  · intro d' above
    refine (Function.update_of_ne ?_ _ _).trans (holds.later d' above)
    rintro rfl
    exact absurd (holds.below n d' known) (Nat.not_lt.mpr above)

/-- **The end of the account.** Every descriptor has been closed exactly once exactly when none is
held. -/
theorem Holds.closedOnce_iff (holds : Holds f held) : f.ClosedOnce ↔ held = [] := by
  constructor
  · rintro ⟨_, once⟩
    apply List.eq_nil_iff_forall_not_mem.mpr
    intro n member
    obtain ⟨d, known⟩ := (holds.isOpen n).mpr member
    have closed := once d (holds.below n d known)
    rw [holds.unclosed n d known] at closed
    cases closed
  · rintro rfl
    refine ⟨holds.noStrays, fun d below => holds.closed d below fun n known => ?_⟩
    exact absurd ((holds.isOpen n).mp ⟨d, known⟩) List.not_mem_nil

end Descriptors
