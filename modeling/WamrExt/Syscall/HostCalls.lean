import Mathlib.Logic.Function.Basic
import Mathlib.Data.Option.Basic
import Mathlib.Data.Nat.Notation
import WamrExt.Lib.Transition

/-!
# Host calls on descriptors of a guest

A handler of an ext syscall gets an app descriptor. `GetHostFDByAppFD` finds its entry in the table
of the instance, under the lock of the entry, and gives the number of the host descriptor. The
entry is unlocked before the handler calls the host with this number.

So the entry may be closed in between, by another thread of the guest, and the number given out
again, to any instance or to anybody else in the host process. In every run in which this does not
happen, each host call acts on the object that its descriptor named, which is an object of its
instance, or fails (`host_calls_act_on_own`). In a run in which it does, some call is left with the
number of a foreign object (`looked_up_own_iff`).
-/

set_option autoImplicit false

namespace WamrExt
namespace Syscall

open Transition

/-- The handlers that look an app descriptor up, and then call the host with what they found. -/
inductive HostCall where
  | sockBind
  | sockConnect
  | sockListen
  | sockAccept
  | sockRecvMsg
  | sockSendMsg
  | sockSetOpt
  | fdFcntl
  deriving DecidableEq, Repr

/-- An object of the host, known by how many have been made before it, with the instance it belongs
to. -/
structure HostObject where
  id : ℕ
  owner : Option ℕ
  deriving DecidableEq, Repr

/-- A call after the look-up, with the number it has found. No step reads the object that the
number named then. -/
structure Looked where
  call : HostCall
  inst : ℕ
  hostFD : ℕ
  object : Option HostObject
  deriving DecidableEq, Repr

/-- Where a thread is: outside of the handlers, between a look-up and the host call, or with a new
descriptor that is not in the table yet. -/
inductive HandlerPoint where
  | idle
  | looked (l : Looked)
  | made (inst hostFD : ℕ)
  deriving DecidableEq, Repr

/-- The descriptors of the host process, the tables of the instances, and the threads. -/
structure HostTables where
  objects : ℕ → Option HostObject := fun _ => none
  opened : ℕ := 0
  fds : ℕ → ℕ → Option ℕ := fun _ _ => none
  points : ℕ → HandlerPoint := fun _ => .idle

/-- The steps of the threads, and of everybody else in the host process. -/
inductive TableAction where
  | lookup (thread : ℕ) (call : HostCall) (inst app : ℕ)
  /-- The host call. It may block before it acts. Only `accept` gives a new descriptor. -/
  | hostCall (thread : ℕ) (accepted : Option ℕ)
  /-- The handler returns without a host call. -/
  | leave (thread : ℕ)
  /-- `SockOpen`, or a function of WASI that opens a file. -/
  | create (thread inst hostFD : ℕ)
  /-- A new descriptor goes into the table, or is closed again. -/
  | insert (thread : ℕ) (app : Option ℕ)
  | close (inst app : ℕ)
  | openOther (hostFD : ℕ)
  | closeOther (hostFD : ℕ)

namespace HostTables

variable (s : HostTables)

def goes (thread : ℕ) (p : HandlerPoint) : HostTables :=
  { s with points := Function.update s.points thread p }

/-- A new object under a number. -/
def opens (hostFD : ℕ) (owner : Option ℕ) : HostTables :=
  { s with
    objects := Function.update s.objects hostFD (some ⟨s.opened, owner⟩)
    opened := s.opened + 1 }

def closes (hostFD : ℕ) : HostTables :=
  { s with objects := Function.update s.objects hostFD none }

def setFD (inst app : ℕ) (hostFD : Option ℕ) : HostTables :=
  { s with fds := Function.update s.fds inst (Function.update (s.fds inst) app hostFD) }

end HostTables

/-- One step. The host gives out free numbers, and so does a table. -/
def hostCallStep : Step HostTables TableAction := fun s a =>
  match a with
  | .lookup t call inst app =>
      if s.points t = .idle then
        match s.fds inst app with
        | none => some s
        | some hostFD => some (s.goes t (.looked ⟨call, inst, hostFD, s.objects hostFD⟩))
      else none
  | .hostCall t accepted =>
      match s.points t, accepted with
      | .looked _, none => some (s.goes t .idle)
      | .looked l, some n =>
          if l.call = .sockAccept ∧ s.objects l.hostFD ≠ none ∧ s.objects n = none then
            some ((s.opens n (some l.inst)).goes t (.made l.inst n))
          else none
      | _, _ => none
  | .leave t =>
      match s.points t with
      | .looked _ => some (s.goes t .idle)
      | _ => none
  | .create t inst n =>
      if s.points t = .idle ∧ s.objects n = none then
        some ((s.opens n (some inst)).goes t (.made inst n))
      else none
  | .insert t app =>
      match s.points t, app with
      | .made _ n, none => some ((s.closes n).goes t .idle)
      | .made inst n, some app =>
          if s.fds inst app = none then some ((s.setFD inst app (some n)).goes t .idle) else none
      | _, _ => none
  | .close inst app =>
      match s.fds inst app with
      | none => some s
      | some n => some ((s.closes n).setFD inst app none)
  | .openOther n => if s.objects n = none then some (s.opens n none) else none
  | .closeOther n =>
      (s.objects n).bind fun o => if o.owner = none then some (s.closes n) else none

section Statement

variable (s : HostTables)

/-- A host call acts on the object that its descriptor named at the look-up, which is one of its
instance, or on nothing. -/
def ActsOnOwn : TableAction → Prop
  | .hostCall t _ => ∀ l, s.points t = .looked l →
      s.objects l.hostFD = none ∨
        ∃ o, s.objects l.hostFD = some o ∧ l.object = some o ∧ o.owner = some l.inst
  | _ => True

/-- Each number that has been looked up names what it named, or nothing. -/
def LookedUpOwn : Prop :=
  ∀ t l, s.points t = .looked l → s.objects l.hostFD = none ∨ s.objects l.hostFD = l.object

/-- The number that a step gives out. -/
def TableAction.creates : TableAction → Option ℕ
  | .hostCall _ accepted => accepted
  | .create _ _ n | .openOther n => some n
  | _ => none

/-- A number that is given out is not one that a call has looked up and not used yet. -/
def NoReuse (a : TableAction) : Prop :=
  (hostCallStep s a).isSome → ∀ n ∈ a.creates, ∀ t l, s.points t = .looked l → l.hostFD ≠ n

end Statement

/-! ## What a step does -/

/-- The cases of a step. -/
inductive TableStep (s : HostTables) : TableAction → HostTables → Prop
  | stays {a : TableAction} (nothing : a.creates = none) : TableStep s a s
  | looksUp {t inst app n : ℕ} (call : HostCall) (known : s.fds inst app = some n) :
      TableStep s (.lookup t call inst app) (s.goes t (.looked ⟨call, inst, n, s.objects n⟩))
  | rests {a : TableAction} (t : ℕ) (nothing : a.creates = none) : TableStep s a (s.goes t .idle)
  | makes {a : TableAction} {t inst n : ℕ} (creates : a.creates = some n)
      (free : s.objects n = none) (unused : ∀ l, s.points t = .looked l → l.hostFD ≠ n) :
      TableStep s a ((s.opens n (some inst)).goes t (.made inst n))
  | drops {t inst n : ℕ} (here : s.points t = .made inst n) :
      TableStep s (.insert t none) ((s.closes n).goes t .idle)
  | inserts {t inst n : ℕ} (app : ℕ) (here : s.points t = .made inst n) :
      TableStep s (.insert t (some app)) ((s.setFD inst app (some n)).goes t .idle)
  | closesFD {inst app n : ℕ} (known : s.fds inst app = some n) :
      TableStep s (.close inst app) ((s.closes n).setFD inst app none)
  | opensOther {n : ℕ} (free : s.objects n = none) :
      TableStep s (.openOther n) (s.opens n none)
  | closesOther {n : ℕ} {o : HostObject} (known : s.objects n = some o) (other : o.owner = none) :
      TableStep s (.closeOther n) (s.closes n)

theorem hostCallStep_cases {s s' : HostTables} {a : TableAction}
    (taken : hostCallStep s a = some s') : TableStep s a s' := by
  cases a with
  | lookup t call inst app =>
      obtain ⟨_, taken⟩ := Option.ite_none_right_eq_some.mp taken
      split at taken
      next =>
        cases taken
        exact .stays rfl
      next hostFD known =>
        cases taken
        exact .looksUp call known
  | hostCall t accepted =>
      simp only [hostCallStep] at taken
      split at taken
      next =>
        cases taken
        exact .rests t rfl
      next l n here =>
        obtain ⟨⟨_, isOpen, free⟩, rfl⟩ := guarded_eq_some.mp taken
        refine .makes rfl free fun l' there own => ?_
        cases here.symm.trans there
        rw [own] at isOpen
        exact isOpen free
      next => cases taken
  | leave t =>
      simp only [hostCallStep] at taken
      split at taken
      next =>
        cases taken
        exact .rests t rfl
      next => cases taken
  | create t inst n =>
      obtain ⟨⟨rest, free⟩, rfl⟩ := guarded_eq_some.mp taken
      refine .makes rfl free fun l there => ?_
      cases rest.symm.trans there
  | insert t app =>
      simp only [hostCallStep] at taken
      split at taken
      next here =>
        cases taken
        exact .drops here
      next app here =>
        obtain ⟨_, rfl⟩ := guarded_eq_some.mp taken
        exact .inserts app here
      next => cases taken
  | close inst app =>
      simp only [hostCallStep] at taken
      split at taken
      next =>
        cases taken
        exact .stays rfl
      next n known =>
        cases taken
        exact .closesFD known
  | openOther n =>
      obtain ⟨free, rfl⟩ := guarded_eq_some.mp taken
      exact .opensOther free
  | closeOther n =>
      obtain ⟨o, known, taken⟩ := Option.bind_eq_some_iff.mp taken
      obtain ⟨other, rfl⟩ := guarded_eq_some.mp taken
      exact .closesOther known other

/-! ## What holds of the tables -/

/-- Who has a number: an entry of a table, or a thread that has just got it. -/
inductive Holder where
  | entry (inst app : ℕ)
  | maker (thread : ℕ)

/-- What a holder has, with the instance it has it for. -/
def HostTables.held (s : HostTables) : Holder → Option (ℕ × ℕ)
  | .entry inst app => (s.fds inst app).map fun n => (inst, n)
  | .maker t =>
      match s.points t with
      | .made inst n => some (inst, n)
      | _ => none

/-- Each number has one holder, and names an object of the instance it is held for. What a call
has looked up was such an object. -/
structure TablesOk (s : HostTables) : Prop where
  born : ∀ n o, s.objects n = some o → o.id < s.opened
  owned : ∀ h inst n, s.held h = some (inst, n) → ∃ o, s.objects n = some o ∧ o.owner = some inst
  apart : ∀ h h' inst inst' n, s.held h = some (inst, n) → s.held h' = some (inst', n) → h = h'
  looked : ∀ t l, s.points t = .looked l →
    ∃ o, l.object = some o ∧ o.owner = some l.inst ∧ o.id < s.opened

section Steps

variable {s s' : HostTables} {t n inst : ℕ} {l : Looked}

/-- A number that is free is held by nobody. -/
theorem TablesOk.free (ok : TablesOk s) (free : s.objects n = none) (h : Holder) (inst : ℕ) :
    s.held h ≠ some (inst, n) := by
  intro held
  obtain ⟨o, known, _⟩ := ok.owned h inst n held
  rw [free] at known
  cases known

theorem held_goes (h : Holder) (p : HandlerPoint) (x : ℕ × ℕ) (held : (s.goes t p).held h = some x) :
    (h = .maker t ∧ p = .made x.1 x.2) ∨ (h ≠ .maker t ∧ s.held h = some x) := by
  cases h with
  | entry i app => exact .inr ⟨nofun, held⟩
  | maker t' =>
      simp only [HostTables.held, HostTables.goes, Function.update_apply] at held
      by_cases same : t' = t
      · rw [if_pos same] at held
        split at held
        next =>
          cases held
          exact .inl ⟨by rw [same], rfl⟩
        next => cases held
      · rw [if_neg same] at held
        exact .inr ⟨fun other => same (Holder.maker.inj other), held⟩

theorem looked_goes {p : HandlerPoint} (looked : (s.goes t p).points n = .looked l) :
    (n = t ∧ p = .looked l) ∨ s.points n = .looked l := by
  simp only [HostTables.goes, Function.update_apply] at looked
  split at looked
  next same => exact .inl ⟨same, looked⟩
  next => exact .inr looked

/-- A thread that comes to another point has looked nothing up. -/
theorem looked_before {p : HandlerPoint} (looked : (s.goes t p).points n = .looked l)
    (other : ∀ l, p ≠ .looked l) : s.points n = .looked l :=
  (looked_goes looked).resolve_left fun own => other l own.2

/-- A step after which nobody has something new. -/
theorem TablesOk.keeps (ok : TablesOk s)
    (held : ∀ h inst n, s'.held h = some (inst, n) →
      s.held h = some (inst, n) ∧ s'.objects n = s.objects n)
    (objects : ∀ n o, s'.objects n = some o → o.id < s'.opened) (le : s.opened ≤ s'.opened)
    (looked : ∀ t l, s'.points t = .looked l → s.points t = .looked l) : TablesOk s' := by
  refine ⟨objects, ?_, ?_, ?_⟩
  · intro h inst n there
    obtain ⟨before, same⟩ := held h inst n there
    rw [same]
    exact ok.owned h inst n before
  · intro h h' inst inst' n first second
    exact ok.apart h h' inst inst' n (held h inst n first).1 (held h' inst' n second).1
  · intro t l there
    obtain ⟨o, object, owner, older⟩ := ok.looked t l (looked t l there)
    exact ⟨o, object, owner, Nat.lt_of_lt_of_le older le⟩

theorem born_opens (ok : TablesOk s) (owner : Option ℕ) (m : ℕ) (o : HostObject)
    (known : (s.opens n owner).objects m = some o) : o.id < (s.opens n owner).opened := by
  simp only [HostTables.opens, Function.update_apply] at known
  split at known
  · cases known
    exact Nat.lt_succ_self _
  · exact Nat.lt_succ_of_lt (ok.born m o known)

theorem born_closes (ok : TablesOk s) (m : ℕ) (o : HostObject)
    (known : (s.closes n).objects m = some o) : o.id < s.opened := by
  simp only [HostTables.closes, Function.update_apply] at known
  split at known
  · cases known
  · exact ok.born m o known

/-- A thread comes to a point where it holds nothing. -/
theorem TablesOk.rests (ok : TablesOk s) : TablesOk (s.goes t .idle) := by
  refine ok.keeps ?_ ok.born (Nat.le_refl _) ?_
  · intro h inst n held
    rcases held_goes h .idle _ held with ⟨_, made⟩ | ⟨_, before⟩
    · cases made
    · exact ⟨before, rfl⟩
  · exact fun t' l there => looked_before there nofun

/-- A thread gets a new descriptor. -/
theorem TablesOk.makes (ok : TablesOk s) (free : s.objects n = none) :
    TablesOk ((s.opens n (some inst)).goes t (.made inst n)) := by
  have new : ((s.opens n (some inst)).goes t (.made inst n)).objects n =
      some ⟨s.opened, some inst⟩ := Function.update_self _ _ _
  refine ⟨born_opens ok (some inst), ?_, ?_, ?_⟩
  · intro h i m held
    rcases held_goes h _ _ held with ⟨_, made⟩ | ⟨_, before⟩
    · cases made
      exact ⟨_, new, rfl⟩
    · obtain ⟨o, known, owner⟩ := ok.owned h i m before
      refine ⟨o, (Function.update_of_ne ?_ _ _).trans known, owner⟩
      rintro rfl
      exact ok.free free h i before
  · intro h h' i i' m first second
    rcases held_goes h _ _ first with ⟨rfl, made⟩ | ⟨_, before⟩
    · cases made
      rcases held_goes h' _ _ second with ⟨rfl, _⟩ | ⟨_, before'⟩
      · rfl
      · exact absurd before' (ok.free free h' i')
    · rcases held_goes h' _ _ second with ⟨_, made⟩ | ⟨_, before'⟩
      · cases made
        exact absurd before (ok.free free h i)
      · exact ok.apart h h' i i' m before before'
  · intro t' l there
    obtain ⟨o, object, owner, older⟩ := ok.looked t' l (looked_before there nofun)
    exact ⟨o, object, owner, Nat.lt_succ_of_lt older⟩

theorem held_setFD {app : ℕ} (h : Holder) (v : Option ℕ) (x : ℕ × ℕ)
    (held : (s.setFD inst app v).held h = some x) :
    (h = .entry inst app ∧ v = some x.2 ∧ inst = x.1) ∨
      (h ≠ .entry inst app ∧ s.held h = some x) := by
  cases h with
  | maker t => exact .inr ⟨nofun, held⟩
  | entry i a =>
      simp only [HostTables.held, HostTables.setFD, Function.update_apply] at held
      by_cases same : i = inst
      · subst same
        rw [if_pos rfl, Function.update_apply] at held
        by_cases own : a = app
        · rw [if_pos own] at held
          obtain ⟨n, value, rfl⟩ := Option.map_eq_some_iff.mp held
          exact .inl ⟨by rw [own], value, rfl⟩
        · rw [if_neg own] at held
          refine .inr ⟨?_, held⟩
          rintro ⟨⟩
          exact own rfl
      · rw [if_neg same] at held
        refine .inr ⟨?_, held⟩
        rintro ⟨⟩
        exact same rfl

/-- What others hold is not what is closed. -/
theorem TablesOk.closes_other (ok : TablesOk s) {h h' : Holder} {inst' m : ℕ}
    (own : s.held h = some (inst, n)) (held : s.held h' = some (inst', m)) (other : h' ≠ h) :
    (s.closes n).objects m = s.objects m := by
  refine Function.update_of_ne ?_ _ _
  rintro rfl
  exact other (ok.apart h' h inst' inst m held own)

/-- A new descriptor goes into the table. -/
theorem TablesOk.inserts (ok : TablesOk s) (here : s.points t = .made inst n) (app : ℕ) :
    TablesOk ((s.setFD inst app (some n)).goes t .idle) := by
  have own : s.held (.maker t) = some (inst, n) := by
    simp only [HostTables.held, here]
  have held : ∀ h x, ((s.setFD inst app (some n)).goes t .idle).held h = some x →
      (h = .entry inst app ∧ x = (inst, n)) ∨ (h ≠ .maker t ∧ s.held h = some x) := by
    intro h x there
    rcases held_goes h _ _ there with ⟨_, made⟩ | ⟨other, before⟩
    · cases made
    · rcases held_setFD h _ _ before with ⟨entry, value, same⟩ | ⟨_, before⟩
      · exact .inl ⟨entry, Prod.ext same.symm (Option.some.inj value).symm⟩
      · exact .inr ⟨other, before⟩
  refine ⟨ok.born, ?_, ?_, ?_⟩
  · intro h i m there
    rcases held h _ there with ⟨_, same⟩ | ⟨_, before⟩
    · cases same
      exact ok.owned _ inst n own
    · exact ok.owned h i m before
  · intro h h' i i' m first second
    rcases held h _ first with ⟨rfl, same⟩ | ⟨other, before⟩
    · cases same
      rcases held h' _ second with ⟨rfl, _⟩ | ⟨other', before'⟩
      · rfl
      · exact absurd (ok.apart h' _ i' inst n before' own) other'
    · rcases held h' _ second with ⟨_, same⟩ | ⟨_, before'⟩
      · cases same
        exact absurd (ok.apart h _ i inst n before own) other
      · exact ok.apart h h' i i' m before before'
  · exact fun t' l there => ok.looked t' l (looked_before there nofun)

/-- A new descriptor that is not inserted is closed again. -/
theorem TablesOk.drops (ok : TablesOk s) (here : s.points t = .made inst n) :
    TablesOk ((s.closes n).goes t .idle) := by
  have own : s.held (.maker t) = some (inst, n) := by
    simp only [HostTables.held, here]
  refine ok.keeps ?_ (born_closes ok) (Nat.le_refl _) ?_
  · intro h i m held
    rcases held_goes h _ _ held with ⟨_, made⟩ | ⟨other, before⟩
    · cases made
    · exact ⟨before, ok.closes_other own before other⟩
  · exact fun t' l there => looked_before there nofun

/-- An entry is closed. -/
theorem TablesOk.closesFD (ok : TablesOk s) {app : ℕ} (known : s.fds inst app = some n) :
    TablesOk ((s.closes n).setFD inst app none) := by
  have own : s.held (.entry inst app) = some (inst, n) := by
    simp only [HostTables.held, known, Option.map_some]
  refine ok.keeps ?_ (born_closes ok) (Nat.le_refl _) fun _ _ looked => looked
  intro h i m held
  rcases held_setFD h _ _ held with ⟨_, value, _⟩ | ⟨other, before⟩
  · cases value
  · exact ⟨before, ok.closes_other own before other⟩

/-- A call looks an object of its instance up. -/
theorem TablesOk.looksUp (ok : TablesOk s) (call : HostCall) {app : ℕ}
    (known : s.fds inst app = some n) :
    TablesOk (s.goes t (.looked ⟨call, inst, n, s.objects n⟩)) := by
  have own : s.held (.entry inst app) = some (inst, n) := by
    simp only [HostTables.held, known, Option.map_some]
  have held : ∀ h x, (s.goes t (.looked ⟨call, inst, n, s.objects n⟩)).held h = some x →
      s.held h = some x := by
    intro h x there
    rcases held_goes h _ _ there with ⟨_, made⟩ | ⟨_, before⟩
    · cases made
    · exact before
  refine ⟨ok.born, fun h i m there => ok.owned h i m (held h _ there),
    fun h h' i i' m first second => ok.apart h h' i i' m (held h _ first) (held h' _ second), ?_⟩
  intro t' l there
  rcases looked_goes there with ⟨_, looked⟩ | before
  · cases looked
    obtain ⟨o, object, owner⟩ := ok.owned _ inst n own
    exact ⟨o, object, owner, ok.born n o object⟩
  · exact ok.looked t' l before

theorem TablesOk.step (ok : TablesOk s) {a : TableAction} (taken : hostCallStep s a = some s') :
    TablesOk s' := by
  cases hostCallStep_cases taken with
  | stays _ => exact ok
  | looksUp call known => exact ok.looksUp call known
  | rests t _ => exact ok.rests
  | makes _ free _ => exact ok.makes free
  | drops here => exact ok.drops here
  | inserts app here => exact ok.inserts here app
  | closesFD known => exact ok.closesFD known
  | opensOther free =>
      refine ok.keeps (fun h i m held => ⟨held, Function.update_of_ne ?_ _ _⟩) (born_opens ok none)
        (Nat.le_succ _) fun _ _ looked => looked
      rintro rfl
      exact ok.free free h i held
  | closesOther known other =>
      refine ok.keeps (fun h i m held => ⟨held, Function.update_of_ne ?_ _ _⟩) (born_closes ok)
        (Nat.le_refl _) fun _ _ looked => looked
      rintro rfl
      obtain ⟨o', known', owner⟩ := ok.owned h i m held
      cases known.symm.trans known'
      rw [other] at owner
      cases owner

theorem tablesOk_start : TablesOk {} where
  born := nofun
  owned := by
    intro h inst n held
    cases h with
    | entry i app => cases held
    | maker t => cases held
  apart := by
    intro h h' inst inst' n held
    cases h with
    | entry i app => cases held
    | maker t => cases held
  looked := nofun

/-! ## What has been looked up -/

/-- A number keeps its object, or loses it, or is given out. -/
theorem objects_step {a : TableAction} (taken : hostCallStep s a = some s') (m : ℕ) :
    s'.objects m = s.objects m ∨ s'.objects m = none ∨ a.creates = some m := by
  have opens : ∀ n owner, (s.opens n owner).objects m = s.objects m ∨ some n = some m := by
    intro n owner
    by_cases same : m = n
    · exact .inr (by rw [same])
    · exact .inl (Function.update_of_ne same _ _)
  have closes : ∀ n, (s.closes n).objects m = s.objects m ∨ (s.closes n).objects m = none := by
    intro n
    by_cases same : m = n
    · rw [same]
      exact .inr (Function.update_self _ _ _)
    · exact .inl (Function.update_of_ne same _ _)
  cases hostCallStep_cases taken with
  | stays _ | looksUp _ _ | rests _ _ | inserts _ _ => exact .inl rfl
  | @makes _ _ inst n creates _ _ =>
      rw [creates]
      exact (opens n (some inst)).imp id .inr
  | @opensOther n _ => exact (opens n none).imp id .inr
  | drops _ | closesFD _ | closesOther _ _ => exact (closes _).imp id .inl

/-- A number that is given out gets a new object, and the calls that have looked it up are still on
their way. -/
theorem creates_step {a : TableAction} (taken : hostCallStep s a = some s')
    (creates : a.creates = some n) :
    (∃ owner, s'.objects n = some ⟨s.opened, owner⟩) ∧
      ∀ t l, s.points t = .looked l → l.hostFD = n → s'.points t = .looked l := by
  cases hostCallStep_cases taken with
  | stays nothing | rests _ nothing => cases nothing.symm.trans creates
  | looksUp _ _ | drops _ | inserts _ _ | closesFD _ | closesOther _ _ => cases creates
  | makes same _ unused =>
      cases same.symm.trans creates
      refine ⟨⟨_, Function.update_self _ _ _⟩, fun t l there own => ?_⟩
      refine (Function.update_of_ne ?_ _ _).trans there
      rintro rfl
      exact unused l there own
  | opensOther _ =>
      cases creates
      exact ⟨⟨_, Function.update_self _ _ _⟩, fun _ _ there _ => there⟩

/-- A call has looked its number up before the step, or with it. -/
theorem looked_step {a : TableAction} (taken : hostCallStep s a = some s')
    (looked : s'.points t = .looked l) :
    s.points t = .looked l ∨ (l.object = s.objects l.hostFD ∧ s'.objects = s.objects) := by
  cases hostCallStep_cases taken with
  | stays _ | closesFD _ | opensOther _ | closesOther _ _ => exact .inl looked
  | looksUp _ _ =>
      rcases looked_goes looked with ⟨_, same⟩ | before
      · cases same
        exact .inr ⟨rfl, rfl⟩
      · exact .inl before
  | rests _ _ | makes _ _ _ | drops _ | inserts _ _ => exact .inl (looked_before looked nofun)

/-- **The condition is exact**: a step leaves each call with its own object, or with none, exactly
when it gives out no number that a call has looked up. -/
theorem TablesOk.noReuse_iff (ok : TablesOk s) (own : LookedUpOwn s) {a : TableAction} :
    NoReuse s a ↔ ∀ next, hostCallStep s a = some next → LookedUpOwn next := by
  constructor
  · intro fresh next taken t l looked
    rcases looked_step taken looked with before | ⟨object, same⟩
    · rcases objects_step taken l.hostFD with kept | closed | created
      · rw [kept]
        exact own t l before
      · exact .inl closed
      · exact absurd rfl (fresh (Option.isSome_of_eq_some taken) _ created t l before)
    · rw [same, object]
      exact .inr rfl
  · intro after enabled n created t l looked same
    obtain ⟨next, taken⟩ := Option.isSome_iff_exists.mp enabled
    obtain ⟨⟨owner, new⟩, pending⟩ := creates_step taken created
    obtain ⟨o, object, _, older⟩ := ok.looked t l looked
    rcases after next taken t l (pending t l looked same) with closed | foreign
    · rw [same, new] at closed
      cases closed
    · rw [same, new, object] at foreign
      cases foreign
      exact absurd older (Nat.lt_irrefl _)

/-- A call that is left with its own object, or with none, acts on its own. -/
theorem TablesOk.actsOnOwn (ok : TablesOk s) (own : LookedUpOwn s) (a : TableAction) :
    ActsOnOwn s a := by
  cases a with
  | hostCall t accepted =>
      intro l looked
      obtain ⟨o, object, owner, _⟩ := ok.looked t l looked
      rcases own t l looked with closed | same
      · exact .inl closed
      · exact .inr ⟨o, same.trans object, object, owner⟩
  | _ => trivial

/-- In every run, each call is left with its own object, or with none, exactly when no number is
given out that a call has looked up and not used yet. -/
theorem looked_up_own_iff (actions : List TableAction) :
    Throughout hostCallStep LookedUpOwn {} actions ↔ Meets hostCallStep NoReuse {} actions := by
  have agree : ∀ {s : HostTables} {a : TableAction}, TablesOk s ∧ LookedUpOwn s →
      (NoReuse s a ↔ ∀ next, hostCallStep s a = some next → LookedUpOwn next) :=
    fun good => good.1.noReuse_iff good.2
  exact throughout_iff agree
    (fun good fresh taken => ⟨good.1.step taken, (agree good).mp fresh _ taken⟩)
    And.right ⟨tablesOk_start, nofun⟩

/-- **Host calls.** In every run in which no number is given out that a call has looked up and not
used yet, each host call acts on the object that its descriptor named, which is an object of its
instance, or on nothing. -/
theorem host_calls_act_on_own {actions : List TableAction}
    (fresh : Meets hostCallStep NoReuse {} actions) :
    Meets hostCallStep ActsOnOwn {} actions := by
  have keeps : ∀ {s : HostTables} {a : TableAction} {s' : HostTables},
      TablesOk s ∧ LookedUpOwn s → NoReuse s a → hostCallStep s a = some s' →
        TablesOk s' ∧ LookedUpOwn s' :=
    fun good fresh taken =>
      ⟨good.1.step taken, (good.1.noReuse_iff good.2).mp fresh _ taken⟩
  exact fresh.strengthen (fun good _ => good.1.actsOnOwn good.2 _) keeps ⟨tablesOk_start, nofun⟩

/-- The guest of instance 0 has a socket, and a call on the way that has looked it up. -/
def callOnTheWay : List TableAction :=
  [.create 0 0 4, .insert 0 (some 3), .lookup 0 .sockSendMsg 0 3]

/-- A step that gives out no number is inside the condition. -/
theorem noReuse_of_creates_none {a : TableAction} (nothing : a.creates = none) : NoReuse s a := by
  intro _ n created
  cases nothing.symm.trans created

theorem host_calls_closed_meanwhile :
    Meets hostCallStep ActsOnOwn {}
      (callOnTheWay ++ [.create 1 1 5, .close 0 3, .hostCall 0 none]) := by
  have first : NoReuse {} (.create 0 0 4) := fun _ _ _ _ _ looked => by cases looked
  refine host_calls_act_on_own (.cons first rfl (.cons (noReuse_of_creates_none rfl) rfl
    (.cons (noReuse_of_creates_none rfl) rfl (.cons ?_ rfl (.cons (noReuse_of_creates_none rfl) rfl
      (.cons (noReuse_of_creates_none rfl) rfl trivial))))))
  rintro _ _ ⟨⟩ t l looked
  rcases looked_goes looked with ⟨_, same⟩ | before
  · cases same
    decide
  · rcases looked_goes before with ⟨_, same⟩ | earlier
    · cases same
    · rcases looked_goes earlier with ⟨_, same⟩ | start
      · cases same
      · cases start

/-- Another thread closes the socket, and its number goes to a socket of instance 1. The call sends
its message there. -/
theorem reused_number_hits_other_instance :
    ¬ Meets hostCallStep ActsOnOwn {}
      (callOnTheWay ++ [.close 0 3, .create 1 1 4] ++ [.hostCall 0 none]) := by
  intro always
  have foreign : (run hostCallStep {} (callOnTheWay ++ [.close 0 3, .create 1 1 4])).map
      (fun s => (s.points 0, s.objects 4)) =
        some (.looked ⟨.sockSendMsg, 0, 4, some ⟨0, some 0⟩⟩, some ⟨1, some 1⟩) := by decide
  obtain ⟨s, reached, same⟩ := Option.map_eq_some_iff.mp foreign
  obtain ⟨looked, object⟩ := Prod.mk.inj same
  rcases always.action reached _ looked with closed | ⟨o, known, own, _⟩
  · cases object.symm.trans closed
  · cases object.symm.trans known
    cases own

end Steps

end Syscall
end WamrExt
