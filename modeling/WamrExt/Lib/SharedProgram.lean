import WamrExt.Lib.ByteMemory
import Mathlib.Data.Set.Piecewise

/-!
# Programs on shared memory

A program reads and writes named fields of a memory, one access at a time (`Prog`). It runs
alone, or interleaved with others: then a window lies before each access, in which the memory
changes in any way.

A program that reads a field twice, and takes both values to be the same, is right when it
runs alone. `Unsplit` is what it needs of the windows: none of them changes a byte that was
accessed before and that the program reads again. An interleaved run that is unsplit is a run
alone on some memory, namely on what each byte held when it was first accessed
(`interleaved_eq_alone`). So what holds of all runs alone holds of it.
-/

set_option autoImplicit false

namespace SharedProgram

open ByteMemory

/-- A program with named accesses and a result. -/
inductive Prog (A α : Type) where
  | done (result : α)
  | read (a : A) (next : ℕ → Prog A α)
  | write (a : A) (v : ℕ) (next : Prog A α)

variable {A α β : Type}

namespace Prog

def bind : Prog A α → (α → Prog A β) → Prog A β
  | done result, f => f result
  | read a next, f => read a fun v => (next v).bind f
  | write a v next, f => write a v (next.bind f)

instance : Monad (Prog A) where
  pure := done
  bind := bind

/-- The program that reads a field. -/
def get (a : A) : Prog A ℕ := read a done

/-- The program that writes a field. -/
def put (a : A) (v : ℕ) : Prog A Unit := write a v (done ())

/-- Every access the program may make is of a kind. -/
def Only (kind : A → Prop) : Prog A α → Prop
  | done _ => True
  | read a next => kind a ∧ ∀ v, (next v).Only kind
  | write a _ next => kind a ∧ next.Only kind

/-- The program writes nothing. -/
def ReadsOnly : Prog A α → Prop
  | done _ => True
  | read _ next => ∀ v, (next v).ReadsOnly
  | write _ _ _ => False

theorem bind_assoc {γ : Type} (p : Prog A α) (f : α → Prog A β) (g : β → Prog A γ) :
    p >>= f >>= g = p >>= fun result => f result >>= g := by
  induction p with
  | done result => rfl
  | read a next ih => exact congrArg (read a) (funext ih)
  | write a v next ih => exact congrArg (write a v) ih

theorem Only.bind {kind : A → Prop} {p : Prog A α} {f : α → Prog A β} (first : p.Only kind)
    (rest : ∀ result, (f result).Only kind) : (p >>= f).Only kind := by
  induction p with
  | done result => exact rest result
  | read a next ih => exact ⟨first.1, fun v => ih v (first.2 v)⟩
  | write a v next ih => exact ⟨first.1, ih first.2⟩

theorem only_get {kind : A → Prop} {a : A} {f : ℕ → Prog A α} :
    (get a >>= f).Only kind ↔ kind a ∧ ∀ v, (f v).Only kind := Iff.rfl

theorem only_put {kind : A → Prop} {a : A} {v : ℕ} {f : Unit → Prog A α} :
    (put a v >>= f).Only kind ↔ kind a ∧ (f ()).Only kind := Iff.rfl

theorem readsOnly_get {a : A} {f : ℕ → Prog A α} :
    (get a >>= f).ReadsOnly ↔ ∀ v, (f v).ReadsOnly := Iff.rfl

end Prog

/-- What a run gives: its result, the memory it leaves and its accesses in order. -/
structure Run (A α : Type) where
  result : α
  mem : Memory
  log : List A

/-- An access comes before a run. -/
def Run.after (a : A) (run : Run A α) : Run A α := { run with log := a :: run.log }

/-- A run comes before a run. -/
def Run.afterAll (log : List A) (run : Run A α) : Run A α := { run with log := log ++ run.log }

@[simp]
theorem Run.after_result (a : A) (run : Run A α) : (run.after a).result = run.result := rfl

@[simp]
theorem Run.after_mem (a : A) (run : Run A α) : (run.after a).mem = run.mem := rfl

@[simp]
theorem Run.afterAll_result (log : List A) (run : Run A α) :
    (run.afterAll log).result = run.result := rfl

@[simp]
theorem Run.afterAll_mem (log : List A) (run : Run A α) : (run.afterAll log).mem = run.mem := rfl

/-- The changes of the memory before each access. -/
abbrev Windows := ℕ → Memory → Memory

/-- The windows after the first. -/
def Windows.next (windows : Windows) : Windows := fun k => windows (k + 1)

/-- Windows in which nothing changes. -/
def Windows.still : Windows := fun _ mem => mem

section Runs

/-! Each access has a place: the offset of its field and the length of it. -/

variable (place : A → ℕ × ℕ)

/-- The bytes of an access. -/
def bytesOf (a : A) : Set ℕ := {x | (place a).1 ≤ x ∧ x < (place a).1 + (place a).2}

/-- The number in the field of an access. -/
def valueAt (mem : Memory) (a : A) : ℕ := load mem (place a).1 (place a).2

/-- The memory after a write. -/
def stored (mem : Memory) (a : A) (v : ℕ) : Memory := store mem (place a).1 (place a).2 v

/-- A run alone. -/
def alone : Prog A α → Memory → Run A α
  | .done result, mem => ⟨result, mem, []⟩
  | .read a next, mem => (alone (next (valueAt place mem a)) mem).after a
  | .write a v next, mem => (alone next (stored place mem a v)).after a

/-- A run with a window before each access. -/
def interleaved : Prog A α → Windows → Memory → Run A α
  | .done result, _, mem => ⟨result, mem, []⟩
  | .read a next, windows, mem =>
      let mem := windows 0 mem
      (interleaved (next (valueAt place mem a)) windows.next mem).after a
  | .write a v next, windows, mem =>
      let mem := windows 0 mem
      (interleaved next windows.next (stored place mem a v)).after a

/-- What a run finds: the fields that it reads, in order, each with the number in it. -/
def found : Prog A α → Windows → Memory → List (A × ℕ)
  | .done _, _, _ => []
  | .read a next, windows, mem =>
      let mem := windows 0 mem
      (a, valueAt place mem a) :: found (next (valueAt place mem a)) windows.next mem
  | .write a v next, windows, mem =>
      let mem := windows 0 mem
      found next windows.next (stored place mem a v)

/-- The bytes whose value an interleaved run depends on: those that it reads before it writes
them. -/
def needs : Prog A α → Windows → Memory → Set ℕ
  | .done _, _, _ => ∅
  | .read a next, windows, mem =>
      let mem := windows 0 mem
      bytesOf place a ∪ needs (next (valueAt place mem a)) windows.next mem
  | .write a v next, windows, mem =>
      let mem := windows 0 mem
      needs next windows.next (stored place mem a v) \ bytesOf place a

/-- The first window leaves the bytes that were accessed and are needed. -/
def Leaves (p : Prog A α) (windows : Windows) (mem : Memory) (accessed : Set ℕ) : Prop :=
  ∀ x ∈ accessed, x ∈ needs place p windows mem → windows 0 mem x = mem x

/-- No window changes a byte that was accessed before it and is needed after it. -/
def UnsplitFrom : Prog A α → Windows → Memory → Set ℕ → Prop
  | .done _, _, _, _ => True
  | .read a next, windows, mem, accessed =>
      Leaves place (.read a next) windows mem accessed ∧
        let mem := windows 0 mem
        UnsplitFrom (next (valueAt place mem a)) windows.next mem (accessed ∪ bytesOf place a)
  | .write a v next, windows, mem, accessed =>
      Leaves place (.write a v next) windows mem accessed ∧
        let mem := windows 0 mem
        UnsplitFrom next windows.next (stored place mem a v) (accessed ∪ bytesOf place a)

/-- No window comes between two accesses of a byte and changes it. -/
def Unsplit (p : Prog A α) (windows : Windows) (mem : Memory) : Prop :=
  UnsplitFrom place p windows mem ∅

variable {place}

theorem valueAt_congr {mem other : Memory} {a : A}
    (agree : ∀ x ∈ bytesOf place a, mem x = other x) :
    valueAt place mem a = valueAt place other a :=
  load_congr fun _ bound => agree _ ⟨Nat.le_add_right _ _, Nat.add_lt_add_left bound _⟩

theorem stored_out {mem : Memory} {a : A} {v x : ℕ} (out : x ∉ bytesOf place a) :
    stored place mem a v x = mem x :=
  store_out (by
    simp only [bytesOf, Set.mem_ofPred_eq] at out
    omega)

/-- What a write stores does not depend on what was there. -/
theorem stored_in {mem other : Memory} {a : A} {v x : ℕ} (own : x ∈ bytesOf place a) :
    stored place mem a v x = stored place other a v x := by
  rw [stored, stored, store_in own.1 own.2, store_in own.1 own.2]

/-! ## Runs alone -/

/-- A run of two programs, one after the other. -/
theorem alone_bind (p : Prog A α) (f : α → Prog A β) (mem : Memory) :
    alone place (p >>= f) mem =
      (alone place (f (alone place p mem).result) (alone place p mem).mem).afterAll
        (alone place p mem).log := by
  induction p generalizing mem with
  | done result => rfl
  | read a next ih => exact congrArg (Run.after a) (ih _ mem)
  | write a v next ih => exact congrArg (Run.after a) (ih (stored place mem a v))

theorem alone_read (a : A) (next : ℕ → Prog A α) (mem : Memory) :
    alone place (.read a next) mem = (alone place (next (valueAt place mem a)) mem).after a := rfl

/-- A program that begins with a read goes on with the value of the field. -/
theorem alone_get (a : A) (next : ℕ → Prog A α) (mem : Memory) :
    alone place (Prog.get a >>= next) mem =
      (alone place (next (valueAt place mem a)) mem).after a := rfl

theorem alone_write (a : A) (v : ℕ) (next : Prog A α) (mem : Memory) :
    alone place (.write a v next) mem = (alone place next (stored place mem a v)).after a := rfl

/-- The accesses of a run alone are of the kind of the program. -/
theorem Prog.Only.log {kind : A → Prop} {p : Prog A α} (all : p.Only kind) (mem : Memory) :
    ∀ a ∈ (alone place p mem).log, kind a := by
  induction p generalizing mem with
  | done result => exact fun a member => absurd member List.not_mem_nil
  | read a next ih => exact List.forall_mem_cons.mpr ⟨all.1, ih _ (all.2 _) mem⟩
  | write a v next ih => exact List.forall_mem_cons.mpr ⟨all.1, ih all.2 _⟩

/-- The accesses of an interleaved run are of the kind of the program, whatever the windows do. -/
theorem Prog.Only.interleaved_log {kind : A → Prop} {p : Prog A α} (all : p.Only kind)
    (windows : Windows) (mem : Memory) : ∀ a ∈ (interleaved place p windows mem).log, kind a := by
  induction p generalizing windows mem with
  | done result => exact fun a member => absurd member List.not_mem_nil
  | read a next ih => exact List.forall_mem_cons.mpr ⟨all.1, ih _ (all.2 _) _ _⟩
  | write a v next ih => exact List.forall_mem_cons.mpr ⟨all.1, ih all.2 _ _⟩

/-- A program that writes nothing leaves the memory as it was. -/
theorem Prog.ReadsOnly.mem_eq {p : Prog A α} (readsOnly : p.ReadsOnly) (mem : Memory) :
    (alone place p mem).mem = mem := by
  induction p with
  | done result => rfl
  | read a next ih => exact ih _ (readsOnly _)
  | write a v next => exact readsOnly.elim

/-! ## Interleaved runs -/

/-- What an unsplit run has read is kept in a memory on which a run alone finds and gives the
same. -/
theorem UnsplitFrom.snapshot {p : Prog A α} {windows : Windows} {mem : Memory}
    {accessed : Set ℕ} (unsplit : UnsplitFrom place p windows mem accessed) :
    ∃ snapshot : Memory,
      (∀ x ∈ accessed, x ∈ needs place p windows mem → snapshot x = mem x) ∧
        ∀ m : Memory, (∀ x ∈ needs place p windows mem, m x = snapshot x) →
          (alone place p m).result = (interleaved place p windows mem).result ∧
            (alone place p m).log = (interleaved place p windows mem).log ∧
              found place p .still m = found place p windows mem := by
  classical
  induction p generalizing windows mem accessed with
  | done result => exact ⟨mem, fun _ _ _ => rfl, fun _ _ => ⟨rfl, rfl, rfl⟩⟩
  | read a next ih =>
      obtain ⟨leaves, rest⟩ := unsplit
      obtain ⟨later, keeps, same⟩ := ih _ rest
      -- what is not needed later holds what it holds at the read
      let still := needs place (next (valueAt place (windows 0 mem) a)) windows.next (windows 0 mem)
      have now : ∀ x ∈ accessed ∪ bytesOf place a,
          still.piecewise later (windows 0 mem) x = windows 0 mem x := by
        intro x before
        by_cases again : x ∈ still
        · rw [Set.piecewise_eq_of_mem _ _ _ again, keeps x before again]
        · exact Set.piecewise_eq_of_notMem _ _ _ again
      refine ⟨still.piecewise later (windows 0 mem), fun x before needed => ?_, fun m agree => ?_⟩
      · rw [now x (.inl before), leaves x before needed]
      · have value : valueAt place m a = valueAt place (windows 0 mem) a :=
          valueAt_congr fun x own => (agree x (.inl own)).trans (now x (.inr own))
        obtain ⟨result, log, finds⟩ := same m fun x needed =>
          (agree x (.inr needed)).trans (Set.piecewise_eq_of_mem _ _ _ needed)
        rw [alone_read, value]
        refine ⟨result, congrArg (List.cons a) log, ?_⟩
        rw [found, found]
        dsimp only [Windows.still]
        rw [value]
        exact congrArg (List.cons _) finds
  | write a v next ih =>
      obtain ⟨leaves, rest⟩ := unsplit
      obtain ⟨later, keeps, same⟩ := ih rest
      let still := needs place (.write a v next) windows mem
      refine ⟨still.piecewise later (windows 0 mem), fun x before needed => ?_, fun m agree => ?_⟩
      · rw [Set.piecewise_eq_of_mem _ _ _ needed, keeps x (.inl before) needed.1,
          stored_out needed.2, leaves x before needed]
      · obtain ⟨result, log, finds⟩ := same (stored place m a v) fun x needed => by
          by_cases own : x ∈ bytesOf place a
          · rw [keeps x (.inr own) needed, stored_in own]
          · rw [stored_out own, agree x ⟨needed, own⟩]
            exact Set.piecewise_eq_of_mem _ _ _ ⟨needed, own⟩
        rw [alone_write]
        exact ⟨result, congrArg (List.cons a) log, finds⟩

/-- **An unsplit run finds and gives what a run alone does on some memory.** -/
theorem interleaved_eq_alone {p : Prog A α} {windows : Windows} {mem : Memory}
    (unsplit : Unsplit place p windows mem) :
    ∃ snapshot : Memory,
      (interleaved place p windows mem).result = (alone place p snapshot).result ∧
        (interleaved place p windows mem).log = (alone place p snapshot).log ∧
          found place p windows mem = found place p .still snapshot := by
  obtain ⟨snapshot, _, same⟩ := unsplit.snapshot
  obtain ⟨result, log, finds⟩ := same snapshot fun _ _ => rfl
  exact ⟨snapshot, result.symm, log.symm, finds.symm⟩

/-- Windows that leave an area do not split a run whose accesses lie in the area. -/
theorem UnsplitFrom.of_apart (area : Set ℕ) (p : Prog A α) {windows : Windows} (mem : Memory)
    {accessed : Set ℕ} (apart : ∀ k mem, ∀ x ∈ area, windows k mem x = mem x)
    (inArea : accessed ⊆ area)
    (fields : ∀ a ∈ (interleaved place p windows mem).log, bytesOf place a ⊆ area) :
    UnsplitFrom place p windows mem accessed := by
  induction p generalizing windows mem accessed with
  | done result => trivial
  | read a next ih =>
      obtain ⟨own, later⟩ := List.forall_mem_cons.mp fields
      exact ⟨fun x before _ => apart 0 mem x (inArea before),
        ih _ _ (fun k => apart (k + 1)) (Set.union_subset inArea own) later⟩
  | write a v next ih =>
      obtain ⟨own, later⟩ := List.forall_mem_cons.mp fields
      exact ⟨fun x before _ => apart 0 mem x (inArea before),
        ih _ (fun k => apart (k + 1)) (Set.union_subset inArea own) later⟩

/-- Windows that leave all bytes below a bound do not split a run that stays below it. -/
theorem Unsplit.of_below {bound : ℕ} (p : Prog A α) {windows : Windows} (mem : Memory)
    (apart : ∀ k mem, ∀ x < bound, windows k mem x = mem x)
    (fields : ∀ a ∈ (interleaved place p windows mem).log, (place a).1 + (place a).2 ≤ bound) :
    Unsplit place p windows mem :=
  UnsplitFrom.of_apart (Set.Iio bound) p mem apart (Set.empty_subset _) fun a member _ own =>
    own.2.trans_le (fields a member)

end Runs

end SharedProgram
