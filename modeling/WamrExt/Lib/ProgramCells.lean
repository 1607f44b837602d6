import WamrExt.Lib.SharedProgram

/-!
# Programs on cells

A program whose fields do not overlap can be thought of as one on cells, one for each field, each
with a number (`onCells`). When it runs alone and writes only numbers that fit their fields, it
has the same result on the bytes, and leaves the same numbers in the fields (`alone_eq_onCells`).

A program that does not read back what it writes depends only on what it finds. So an interleaved
run of it gives what cells give that hold what it finds (`interleaved_eq_onCells`). There are such
cells when the run is unsplit, as it finds the same number in a field whenever it reads it
(`Unsplit.firstFound_of_mem`).
-/

set_option autoImplicit false

namespace SharedProgram

open ByteMemory

variable {A α β : Type}

/-- No two fields overlap. -/
def FieldsApart (place : A → ℕ × ℕ) : Prop :=
  ∀ a b, a ≠ b → (place a).1 + (place a).2 ≤ (place b).1 ∨ (place b).1 + (place b).2 ≤ (place a).1

/-- Every number that the program may write fits its field. -/
def Prog.WritesFit (place : A → ℕ × ℕ) : Prog A α → Prop
  | .done _ => True
  | .read _ next => ∀ v, (next v).WritesFit place
  | .write a v next => v < 256 ^ (place a).2 ∧ next.WritesFit place

theorem Prog.WritesFit.bind {place : A → ℕ × ℕ} {p : Prog A α} {f : α → Prog A β}
    (first : p.WritesFit place) (rest : ∀ result, (f result).WritesFit place) :
    (p >>= f).WritesFit place := by
  induction p with
  | done result => exact rest result
  | read a next ih => exact fun v => ih v (first v)
  | write a v next ih => exact ⟨first.1, ih first.2⟩

theorem Prog.writesFit_get {place : A → ℕ × ℕ} {a : A} {f : ℕ → Prog A α} :
    (Prog.get a >>= f).WritesFit place ↔ ∀ v, (f v).WritesFit place := Iff.rfl

theorem Prog.writesFit_put {place : A → ℕ × ℕ} {a : A} {v : ℕ} {f : Unit → Prog A α} :
    (Prog.put a v >>= f).WritesFit place ↔ v < 256 ^ (place a).2 ∧ (f ()).WritesFit place :=
  Iff.rfl

/-- Every field that the program may read is of a kind. -/
def Prog.Reads (kind : A → Prop) : Prog A α → Prop
  | .done _ => True
  | .read a next => kind a ∧ ∀ v, (next v).Reads kind
  | .write _ _ next => next.Reads kind

/-- The program reads no field that it has written. -/
def Prog.NoReadBack : Prog A α → Prop
  | .done _ => True
  | .read _ next => ∀ v, (next v).NoReadBack
  | .write a _ next => next.Reads (· ≠ a) ∧ next.NoReadBack

theorem Prog.Reads.bind {kind : A → Prop} {p : Prog A α} {f : α → Prog A β} (first : p.Reads kind)
    (rest : ∀ result, (f result).Reads kind) : (p >>= f).Reads kind := by
  induction p with
  | done result => exact rest result
  | read a next ih => exact ⟨first.1, fun v => ih v (first.2 v)⟩
  | write a v next ih => exact ih first

theorem Prog.reads_get {kind : A → Prop} {a : A} {f : ℕ → Prog A α} :
    (Prog.get a >>= f).Reads kind ↔ kind a ∧ ∀ v, (f v).Reads kind := Iff.rfl

theorem Prog.reads_put {kind : A → Prop} {a : A} {v : ℕ} {f : Unit → Prog A α} :
    (Prog.put a v >>= f).Reads kind ↔ (f ()).Reads kind := Iff.rfl

theorem Prog.noReadBack_get {a : A} {f : ℕ → Prog A α} :
    (Prog.get a >>= f).NoReadBack ↔ ∀ v, (f v).NoReadBack := Iff.rfl

theorem Prog.noReadBack_put {a : A} {v : ℕ} {f : Unit → Prog A α} :
    (Prog.put a v >>= f).NoReadBack ↔ (f ()).Reads (· ≠ a) ∧ (f ()).NoReadBack := Iff.rfl

/-- A program that writes nothing can be put before one that does not read back. -/
theorem Prog.ReadsOnly.noReadBack_bind {p : Prog A α} {f : α → Prog A β} (first : p.ReadsOnly)
    (rest : ∀ result, (f result).NoReadBack) : (p >>= f).NoReadBack := by
  induction p with
  | done result => exact rest result
  | read a next ih => exact fun v => ih v (first v)
  | write a v next => exact first.elim

/-- A run finds numbers only in fields that the program may read. -/
theorem Prog.Reads.of_found {place : A → ℕ × ℕ} {kind : A → Prop} {p : Prog A α}
    (all : p.Reads kind) {windows : Windows} {mem : Memory} :
    ∀ r ∈ found place p windows mem, kind r.1 := by
  induction p generalizing windows mem with
  | done result => exact fun r member => absurd member List.not_mem_nil
  | read a next ih => exact List.forall_mem_cons.mpr ⟨all.1, ih _ (all.2 _)⟩
  | write a v next ih => exact ih all

/-- Where nothing else writes, the program finds what was there before it. -/
theorem found_still {place : A → ℕ × ℕ} (apart : FieldsApart place) {p : Prog A α}
    (fresh : p.NoReadBack) (mem : Memory) :
    ∀ r ∈ found place p .still mem, r.2 = valueAt place mem r.1 := by
  induction p generalizing mem with
  | done result => exact fun r member => absurd member List.not_mem_nil
  | read a next ih => exact List.forall_mem_cons.mpr ⟨rfl, ih _ (fresh _) mem⟩
  | write a v next ih =>
      intro r member
      rw [ih fresh.2 _ r member, valueAt, stored, Windows.still,
        load_store_disjoint (apart _ _ (fresh.1.of_found r member)), ← valueAt]

section Cells

variable [DecidableEq A]

/-- A run on cells: its result, and what it leaves in them. -/
def onCells : Prog A α → (A → ℕ) → α × (A → ℕ)
  | .done result, cells => (result, cells)
  | .read a next, cells => onCells (next (cells a)) cells
  | .write a v next, cells => onCells next (Function.update cells a v)

theorem onCells_bind (p : Prog A α) (f : α → Prog A β) (cells : A → ℕ) :
    onCells (p >>= f) cells = onCells (f (onCells p cells).1) (onCells p cells).2 := by
  induction p generalizing cells with
  | done result => rfl
  | read a next ih => exact ih (cells a) cells
  | write a v next ih => exact ih (Function.update cells a v)

theorem onCells_get (a : A) (f : ℕ → Prog A α) (cells : A → ℕ) :
    onCells (Prog.get a >>= f) cells = onCells (f (cells a)) cells := rfl

theorem onCells_put (a : A) (v : ℕ) (f : Unit → Prog A α) (cells : A → ℕ) :
    onCells (Prog.put a v >>= f) cells = onCells (f ()) (Function.update cells a v) := rfl

variable {place : A → ℕ × ℕ}

/-- A write that fits changes one field as it changes one cell. -/
theorem valueAt_stored (apart : FieldsApart place) {mem : Memory} {cells : A → ℕ}
    (agree : ∀ a, valueAt place mem a = cells a) {a : A} {v : ℕ} (fits : v < 256 ^ (place a).2)
    (b : A) : valueAt place (stored place mem a v) b = Function.update cells a v b := by
  by_cases same : b = a
  · subst same
    rw [Function.update_self, valueAt, stored, load_store, Nat.mod_eq_of_lt fits]
  · rw [Function.update_of_ne same, ← agree b, valueAt, stored,
      load_store_disjoint (apart b a same), ← valueAt]

/-- **Bytes and cells.** A program that writes what fits, to fields that do not overlap, gives
alone on the bytes what it gives on the cells. -/
theorem alone_eq_onCells (apart : FieldsApart place) {p : Prog A α} (fits : p.WritesFit place)
    {mem : Memory} {cells : A → ℕ} (agree : ∀ a, valueAt place mem a = cells a) :
    (alone place p mem).result = (onCells p cells).1 ∧
      ∀ a, valueAt place (alone place p mem).mem a = (onCells p cells).2 a := by
  induction p generalizing mem cells with
  | done result => exact ⟨rfl, agree⟩
  | read a next ih =>
      have step := ih (cells a) (fits (cells a)) agree
      rw [alone_read, agree a]
      exact step
  | write a v next ih =>
      have step := ih fits.2 (valueAt_stored apart agree fits.1)
      rw [alone_write]
      exact step

/-! ## What a run finds -/

/-- The number that is found in a field first. -/
def firstFound (finds : List (A × ℕ)) (a : A) : ℕ := (finds.lookup a).getD 0

/-- A cell that is not read does not matter. -/
theorem Prog.Reads.onCells_update {a : A} {p : Prog A α} (others : p.Reads (· ≠ a))
    (cells : A → ℕ) (v : ℕ) : (onCells p (Function.update cells a v)).1 = (onCells p cells).1 := by
  induction p generalizing cells with
  | done result => rfl
  | read b next ih =>
      rw [onCells, onCells, Function.update_of_ne others.1]
      exact ih _ (others.2 _) cells
  | write b w next ih =>
      rw [onCells, onCells]
      by_cases same : b = a
      · subst same
        rw [Function.update_idem]
      · rw [Function.update_comm (Ne.symm same)]
        exact ih others (Function.update cells b w)

/-- **An interleaved run depends only on what it finds.** -/
theorem interleaved_eq_onCells {p : Prog A α} (fresh : p.NoReadBack) {windows : Windows}
    {mem : Memory} {cells : A → ℕ} (finds : ∀ r ∈ found place p windows mem, r.2 = cells r.1) :
    (interleaved place p windows mem).result = (onCells p cells).1 := by
  induction p generalizing windows mem with
  | done result => rfl
  | read a next ih =>
      obtain ⟨here, later⟩ := List.forall_mem_cons.mp finds
      dsimp only at here
      rw [onCells, ← here]
      exact ih _ (fresh _) later
  | write a v next ih =>
      rw [onCells, fresh.1.onCells_update]
      exact ih fresh.2 finds

/-- An unsplit run finds in a field what it has found there first. -/
theorem Unsplit.firstFound_of_mem (apart : FieldsApart place) {p : Prog A α}
    (fresh : p.NoReadBack) {windows : Windows} {mem : Memory}
    (unsplit : Unsplit place p windows mem) :
    ∀ r ∈ found place p windows mem, r.2 = firstFound (found place p windows mem) r.1 := by
  obtain ⟨snapshot, _, _, same⟩ := interleaved_eq_alone unsplit
  rw [same]
  have before := found_still apart fresh snapshot
  rintro ⟨a, v⟩ member
  rw [firstFound]
  cases first : (found place p .still snapshot).lookup a with
  | none =>
      have ne := List.lookup_eq_none_iff.mp first _ member
      simp at ne
  | some w =>
      obtain ⟨_, _, split, _⟩ := List.lookup_eq_some_iff.mp first
      have there : (a, w) ∈ found place p .still snapshot := by simp [split]
      rw [before _ member, Option.getD_some, ← before _ there]

end Cells

end SharedProgram
