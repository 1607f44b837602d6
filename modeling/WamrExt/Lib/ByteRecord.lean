import Mathlib.Data.Vector.Basic
import WamrExt.Lib.ByteMemory

/-!
# Records of bytes and their fields

A record is a vector of bytes, and a field of it a range of them that lies inside (`Field`). What
is set in a field is read back from it (`get_set`), and from no field apart from it
(`get_set_of_apart`). A field of a field is a field (`Field.inner`).

Two layouts of one thing are tied by links, each from a field of the one to a field of the other
(`Link`). Carrying a record over the links fills the fields of the other layout. If these do not
overlap, carrying there and back changes the fields that are linked, to what they were at the
start, and no other byte (`get_carry_back`). A tag that tells which layout is meant is set on each
side, and comes back as well (`get_carry_back_tag`).

A record in memory is shown by the memory at its address (`Shows`).
-/

set_option autoImplicit false

namespace ByteRecord

universe u

variable {β : Type u} {n m : ℕ}

/-- Records with the same bytes are the same. -/
theorem ext_get {r s : Vector β n} (same : ∀ i, r.get i = s.get i) : r = s := by
  apply Vector.ext
  intro i bound
  exact same ⟨i, bound⟩

theorem get_ofFn (f : Fin n → β) (i : Fin n) : (Vector.ofFn f).get i = f i :=
  Vector.getElem_ofFn i.isLt

/-! ## Fields -/

/-- A range of bytes of a record. -/
structure Field (n : ℕ) where
  off : ℕ
  len : ℕ
  fits : off + len ≤ n

namespace Field

variable (f g : Field n)

/-- A byte of the record is in the field. -/
def Covers (i : Fin n) : Prop := f.off ≤ i ∧ i < f.off + f.len

instance (i : Fin n) : Decidable (f.Covers i) := inferInstanceAs (Decidable (_ ∧ _))

/-- Two fields share no byte. -/
def Apart : Prop := f.off + f.len ≤ g.off ∨ g.off + g.len ≤ f.off

instance : Decidable (f.Apart g) := inferInstanceAs (Decidable (_ ∨ _))

/-- The byte of the record that a byte of the field is. -/
def index (i : Fin f.len) : Fin n :=
  ⟨f.off + i, Nat.lt_of_lt_of_le (Nat.add_lt_add_left i.isLt f.off) f.fits⟩

/-- The byte of the field that a covered byte of the record is. -/
def position (i : Fin n) (covered : f.Covers i) : Fin f.len :=
  ⟨i - f.off, Nat.sub_lt_left_of_lt_add covered.1 covered.2⟩

/-- A field of a field. -/
def inner (h : Field f.len) : Field n :=
  ⟨f.off + h.off, h.len, by
    have outside := f.fits
    have inside := h.fits
    omega⟩

/-- The bytes in the field. -/
def get (r : Vector β n) : Vector β f.len := Vector.ofFn fun i => r.get (f.index i)

/-- The record with other bytes in the field. -/
def set (v : Vector β f.len) (r : Vector β n) : Vector β n :=
  Vector.ofFn fun i => if covered : f.Covers i then v.get (f.position i covered) else r.get i

variable {f g} {r : Vector β n} {v : Vector β f.len} {w : Vector β g.len}

theorem covers_index (i : Fin f.len) : f.Covers (f.index i) :=
  ⟨Nat.le_add_right _ _, Nat.add_lt_add_left i.isLt _⟩

theorem position_index (i : Fin f.len) (covered : f.Covers (f.index i)) :
    f.position (f.index i) covered = i :=
  Fin.ext (Nat.add_sub_cancel_left f.off i)

theorem index_position {i : Fin n} (covered : f.Covers i) : f.index (f.position i covered) = i :=
  Fin.ext (Nat.add_sub_of_le covered.1)

theorem Apart.not_covers (apart : f.Apart g) {i : Fin n} (covered : f.Covers i) :
    ¬ g.Covers i := by
  obtain ⟨low, high⟩ := covered
  rintro ⟨low', high'⟩
  obtain before | after := apart <;> omega

theorem get_get (i : Fin f.len) : (f.get r).get i = r.get (f.index i) := get_ofFn _ i

theorem get_set_of_covers {i : Fin n} (covered : f.Covers i) :
    (f.set v r).get i = v.get (f.position i covered) := by
  rw [set, get_ofFn]
  exact dif_pos covered

theorem get_set_of_not_covers {i : Fin n} (out : ¬ f.Covers i) :
    (f.set v r).get i = r.get i := by
  rw [set, get_ofFn]
  exact dif_neg out

/-- What is set in a field is read back. -/
@[simp] theorem get_set : f.get (f.set v r) = v := by
  apply ext_get
  intro i
  rw [get_get, get_set_of_covers (covers_index i), position_index]

/-- Setting a field does not change one that is apart. -/
theorem get_set_of_apart (apart : f.Apart g) : f.get (g.set w r) = f.get r := by
  apply ext_get
  intro i
  rw [get_get, get_get, get_set_of_not_covers (apart.not_covers (covers_index i))]

/-- Fields that are apart are set in any order. -/
theorem set_comm (apart : f.Apart g) : f.set v (g.set w r) = g.set w (f.set v r) := by
  apply ext_get
  intro i
  by_cases covered : f.Covers i
  · have out := apart.not_covers covered
    rw [get_set_of_covers covered, get_set_of_not_covers out, get_set_of_covers covered]
  · rw [get_set_of_not_covers covered]
    by_cases other : g.Covers i
    · rw [get_set_of_covers other, get_set_of_covers other]
    · rw [get_set_of_not_covers other, get_set_of_not_covers other,
        get_set_of_not_covers covered]

end Field

/-! ## Links between layouts -/

/-- A range of bytes of a record of `n` bytes, and one of the same length of a record of `m`
bytes. -/
structure Link (n m : ℕ) where
  len : ℕ
  off : ℕ
  off' : ℕ
  fits : off + len ≤ n
  fits' : off' + len ≤ m

namespace Link

/-- The field on this side. -/
abbrev here (link : Link n m) : Field n := ⟨link.off, link.len, link.fits⟩

/-- The field on the other side. -/
abbrev there (link : Link n m) : Field m := ⟨link.off', link.len, link.fits'⟩

/-- The link the other way. -/
def back (link : Link n m) : Link m n := ⟨link.len, link.off', link.off, link.fits', link.fits⟩

/-- Copies a field to the other side. -/
def copy (link : Link n m) (r : Vector β n) (s : Vector β m) : Vector β m :=
  link.there.set (link.here.get r) s

end Link

/-- Copies the fields of a list of links, in their order. -/
def carry (links : List (Link n m)) (r : Vector β n) (s : Vector β m) : Vector β m :=
  links.foldl (fun s link => link.copy r s) s

/-- The fields on the other side share no byte. -/
def Separate (links : List (Link n m)) : Prop :=
  links.Pairwise fun link other => link.there.Apart other.there

instance (links : List (Link n m)) : Decidable (Separate links) :=
  inferInstanceAs (Decidable (List.Pairwise _ _))

section Carry

variable {links : List (Link n m)} {r : Vector β n} {s : Vector β m}

theorem carry_cons (link : Link n m) :
    carry (link :: links) r s = carry links r (link.copy r s) := rfl

/-- A field apart from all that are filled is not changed. -/
theorem get_carry_of_apart {f : Field m} (apart : ∀ link ∈ links, f.Apart link.there) :
    f.get (carry links r s) = f.get s := by
  induction links generalizing s with
  | nil => rfl
  | cons link rest ih =>
      have first : f.get (link.copy r s) = f.get s :=
        Field.get_set_of_apart (apart link List.mem_cons_self)
      rw [← first]
      exact ih fun other member => apart other (List.mem_cons_of_mem _ member)

/-- Each field on the other side is filled with the one on this side. -/
theorem get_carry (separate : Separate links) :
    ∀ link ∈ links, link.there.get (carry links r s) = link.here.get r := by
  induction links generalizing s with
  | nil => exact fun link member => absurd member List.not_mem_nil
  | cons first rest ih =>
      obtain ⟨apart, later⟩ := List.pairwise_cons.mp separate
      intro link member
      obtain rfl | member := List.mem_cons.mp member
      · have own : link.there.get (link.copy r s) = link.here.get r := Field.get_set
        rw [← own]
        exact get_carry_of_apart apart
      · exact ih later link member

/-- Carrying back a record that holds the linked fields of `r` sets these fields as in `r`, and
no other byte. -/
theorem get_carry_back_of_holds {t : Vector β n}
    (holds : ∀ link ∈ links, link.there.get s = link.here.get r) (i : Fin n) :
    (carry (links.map Link.back) s t).get i =
      if ∃ link ∈ links, link.here.Covers i then r.get i else t.get i := by
  induction links generalizing t with
  | nil => simp [carry]
  | cons link rest ih =>
      have own : (link.back.copy s t).get i =
          if link.here.Covers i then r.get i else t.get i := by
        split
        · next covered =>
          have filled := holds link List.mem_cons_self
          calc (link.back.copy s t).get i
              = (link.there.get s).get (link.here.position i covered) :=
                Field.get_set_of_covers covered
            _ = r.get (link.here.index (link.here.position i covered)) := by
                rw [filled, Field.get_get]
            _ = r.get i := by rw [Field.index_position]
        · next out => exact Field.get_set_of_not_covers out
      have later := @ih (link.back.copy s t) fun other member =>
        holds other (List.mem_cons_of_mem _ member)
      rw [own] at later
      rw [List.map_cons, carry_cons, later]
      simp only [List.exists_mem_cons_iff]
      by_cases again : ∃ other ∈ rest, other.here.Covers i
      · rw [if_pos again, if_pos (Or.inr again)]
      · rw [if_neg again]
        simp only [again, or_false]

/-- **There and back.** The linked fields are as at the start, and every other byte is that of the
record which is carried into. -/
theorem get_carry_back (separate : Separate links) (t : Vector β n) (i : Fin n) :
    (carry (links.map Link.back) (carry links r s) t).get i =
      if ∃ link ∈ links, link.here.Covers i then r.get i else t.get i :=
  get_carry_back_of_holds (get_carry separate) i

/-- There and back with a tag, a field that each side sets to a value of its own: it is as at the
start too, if the tag of this side is what was there. -/
theorem get_carry_back_tag {f : Field n} {tag : Vector β f.len} (separate : Separate links)
    (own : f.get r = tag) (t : Vector β n) (i : Fin n) :
    (carry (links.map Link.back) (carry links r s) (f.set tag t)).get i =
      if f.Covers i ∨ ∃ link ∈ links, link.here.Covers i then r.get i else t.get i := by
  rw [get_carry_back separate]
  by_cases linked : ∃ link ∈ links, link.here.Covers i
  · rw [if_pos linked, if_pos (Or.inr linked)]
  · rw [if_neg linked]
    simp only [linked, or_false]
    by_cases covered : f.Covers i
    · rw [if_pos covered, Field.get_set_of_covers covered, ← own, Field.get_get,
        Field.index_position]
    · rw [if_neg covered, Field.get_set_of_not_covers covered]

end Carry

/-! ## Records in memory -/

section Memory

open ByteMemory

variable {mem other : Memory} {ptr : ℕ} {r : Vector UInt8 n} {f : Field n}

/-- The memory holds the record at an address. -/
def Shows (mem : Memory) (ptr : ℕ) (r : Vector UInt8 n) : Prop :=
  ∀ i : Fin n, mem (ptr + i) = r.get i

theorem Shows.field (shows : Shows mem ptr r) : Shows mem (ptr + f.off) (f.get r) := by
  intro i
  rw [Field.get_get, Nat.add_assoc]
  exact shows (f.index i)

/-- A change of the memory that shows in one field. -/
theorem Shows.set {v : Vector UInt8 f.len} (shows : Shows mem ptr r)
    (inside : Shows other (ptr + f.off) v)
    (outside : ∀ i, ¬ f.Covers i → other (ptr + i) = mem (ptr + i)) :
    Shows other ptr (f.set v r) := by
  intro i
  by_cases covered : f.Covers i
  · rw [Field.get_set_of_covers covered, ← inside, Nat.add_assoc]
    exact congrArg (fun k : Fin n => other (ptr + k)) (Field.index_position covered).symm
  · rw [Field.get_set_of_not_covers covered, outside i covered]
    exact shows i

/-- Storing a number in a field sets its bytes. -/
theorem Shows.store {x : ℕ} {v : Vector UInt8 f.len} (shows : Shows mem ptr r)
    (bytes : ∀ i : Fin f.len, byteAt x i = v.get i) :
    Shows (store mem (ptr + f.off) f.len x) ptr (f.set v r) := by
  apply shows.set
  · intro i
    rw [store_in (Nat.le_add_right _ _) (Nat.add_lt_add_left i.isLt _), Nat.add_sub_cancel_left]
    exact bytes i
  · intro i out
    apply store_out
    rw [Field.Covers] at out
    omega

/-- A memory that agrees on the bytes of a record shows it too. -/
theorem Shows.congr (shows : Shows mem ptr r)
    (agree : ∀ a, ptr ≤ a → a < ptr + n → other a = mem a) : Shows other ptr r := by
  intro i
  rw [agree _ (Nat.le_add_right _ _) (Nat.add_lt_add_left i.isLt _)]
  exact shows i

end Memory

end ByteRecord
