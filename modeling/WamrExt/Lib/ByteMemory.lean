import Mathlib.Data.UInt
import Mathlib.Algebra.Order.Ring.Nat
import Mathlib.Data.Nat.Find

/-!
# Byte-addressed memory

A memory gives a byte at every address. `load` reads a little-endian number of a given
width and `store` writes one. A load after a store of the same field returns the number
up to the width (`load_store`), a store does not change a load outside it
(`load_store_disjoint`), and two memories load the same number from a field exactly when
they agree on its bytes (`load_eq_load_iff`).

A field is inside a memory of a given size when its last byte is (`Inside`). A loop over an
array, which stops at the first element it refuses, reads inside exactly when the array is
inside or an element inside is refused (`elements_inside_iff`).
-/

set_option autoImplicit false

namespace ByteMemory

/-- The byte at every address. -/
abbrev Memory := ℕ → UInt8

/-- Byte `k` of a number, the lowest byte first. -/
def byteAt (v k : ℕ) : UInt8 := UInt8.ofNat (v / 256 ^ k)

/-- The little-endian number of `n` bytes at an address. -/
def load (mem : Memory) : ℕ → ℕ → ℕ
  | _, 0 => 0
  | addr, n + 1 => (mem addr).toNat + 256 * load mem (addr + 1) n

/-- Write the lowest `n` bytes of a number at an address. -/
def store (mem : Memory) (addr n v : ℕ) : Memory := fun a =>
  if addr ≤ a ∧ a < addr + n then byteAt v (a - addr) else mem a

/-- A field of `len` bytes at `off` lies inside a memory of `size` bytes. -/
def Inside (size off len : ℕ) : Prop := off + len ≤ size

instance (size off len : ℕ) : Decidable (Inside size off len) :=
  inferInstanceAs (Decidable (off + len ≤ size))

variable {mem other : Memory} {addr a n v k : ℕ}

theorem store_in (low : addr ≤ a) (high : a < addr + n) :
    store mem addr n v a = byteAt v (a - addr) :=
  if_pos ⟨low, high⟩

theorem store_out (out : a < addr ∨ addr + n ≤ a) : store mem addr n v a = mem a :=
  if_neg (by omega)

theorem byteAt_toNat : (byteAt v k).toNat = v / 256 ^ k % 256 := by
  simp [byteAt]

/-- Adding one unit of byte `k` changes byte `k`. -/
theorem byteAt_add_pow (v k : ℕ) : byteAt (v + 256 ^ k) k ≠ byteAt v k := by
  intro same
  have value := congrArg UInt8.toNat same
  rw [byteAt_toNat, byteAt_toNat, Nat.add_div_right v (Nat.pow_pos (by decide))] at value
  omega

/-- Two loads of one width agree exactly when the bytes they read agree. -/
theorem load_eq_load_iff {addr' : ℕ} :
    load mem addr n = load other addr' n ↔ ∀ k < n, mem (addr + k) = other (addr' + k) := by
  induction n generalizing addr addr' with
  | zero => simp [load]
  | succ n ih =>
      have low := (mem addr).toNat_lt
      have low' := (other addr').toNat_lt
      have split : load mem addr (n + 1) = load other addr' (n + 1) ↔
          mem addr = other addr' ∧ load mem (addr + 1) n = load other (addr' + 1) n := by
        rw [load, load, ← UInt8.toNat_inj]
        omega
      rw [split, ih]
      constructor
      · rintro ⟨first, rest⟩ k bound
        cases k with
        | zero => exact first
        | succ k =>
            have := rest k (by omega)
            rwa [Nat.add_assoc, Nat.add_assoc, Nat.add_comm 1 k] at this
      · intro all
        refine ⟨all 0 (by omega), fun k bound => ?_⟩
        have := all (k + 1) (by omega)
        rwa [Nat.add_comm k 1, ← Nat.add_assoc, ← Nat.add_assoc] at this

/-- A load sees only the bytes of its field. -/
theorem load_congr (agree : ∀ k < n, mem (addr + k) = other (addr + k)) :
    load mem addr n = load other addr n :=
  load_eq_load_iff.mpr agree

/-- A store does not change a load of a disjoint field. -/
theorem load_store_disjoint {field m : ℕ} (apart : field + m ≤ addr ∨ addr + n ≤ field) :
    load (store mem addr n v) field m = load mem field m :=
  load_congr fun _ bound => store_out (by omega)

/-- The bytes of a number, read back, are the number up to the width. -/
theorem load_of_bytes (bytes : ∀ k < n, mem (addr + k) = byteAt v k) :
    load mem addr n = v % 256 ^ n := by
  induction n generalizing addr v with
  | zero => simp [load, Nat.mod_one]
  | succ n ih =>
      have first := bytes 0 (by omega)
      have rest : load mem (addr + 1) n = v / 256 % 256 ^ n := by
        apply ih
        intro k bound
        have byte := bytes (k + 1) (by omega)
        rw [Nat.add_comm k 1, ← Nat.add_assoc] at byte
        rw [byte, byteAt, byteAt, Nat.div_div_eq_div_mul, Nat.pow_add, pow_one]
      rw [load, rest, show mem addr = byteAt v 0 from first, byteAt_toNat, pow_zero, Nat.div_one,
        pow_succ, Nat.mul_comm (256 ^ n), Nat.mod_mul]

/-- A load after a store of the same field. -/
theorem load_store : load (store mem addr n v) addr n = v % 256 ^ n :=
  load_of_bytes fun k bound => by
    rw [store_in (by omega) (by omega), Nat.add_sub_cancel_left]

/-- A load gives a number of the width. -/
theorem load_lt (mem : Memory) (addr n : ℕ) : load mem addr n < 256 ^ n := by
  induction n generalizing addr with
  | zero => exact Nat.one_pos
  | succ n ih =>
      have byte := (mem addr).toNat_lt
      have rest := ih (addr + 1)
      rw [load, pow_succ]
      omega

/-- The bytes of a loaded number are those of the memory. -/
theorem byteAt_load (bound : k < n) : byteAt (load mem addr n) k = mem (addr + k) := by
  have again : load (store mem addr n (load mem addr n)) addr n = load mem addr n := by
    rw [load_store, Nat.mod_eq_of_lt (load_lt mem addr n)]
  have byte := load_eq_load_iff.mp again k bound
  rwa [store_in (Nat.le_add_right _ _) (Nat.add_lt_add_left bound _), Nat.add_sub_cancel_left]
    at byte

/-- A field of two parts. -/
theorem load_add (m : ℕ) :
    load mem addr (n + m) = load mem addr n + 256 ^ n * load mem (addr + n) m := by
  induction n generalizing addr with
  | zero => rw [Nat.zero_add, load, pow_zero, Nat.one_mul, Nat.zero_add, Nat.add_zero]
  | succ n ih =>
      rw [Nat.add_right_comm, load, load, ih, pow_succ', Nat.add_right_comm addr 1 n,
        Nat.add_assoc addr n 1, Nat.mul_add, Nat.mul_assoc, Nat.add_assoc]

/-- The bytes below a multiple are not changed by it. -/
theorem byteAt_add_mul (bound : k < n) (x : ℕ) : byteAt (v + 256 ^ n * x) k = byteAt v k := by
  obtain ⟨m, rfl⟩ := Nat.exists_eq_add_of_le (Nat.succ_le_of_lt bound)
  apply UInt8.toNat_inj.mp
  rw [byteAt_toNat, byteAt_toNat, Nat.succ_add_eq_add_succ, pow_add, Nat.mul_assoc,
    Nat.add_mul_div_left _ _ (Nat.pow_pos (by decide)), pow_succ', Nat.mul_assoc,
    Nat.add_mul_mod_self_left]

/-- A loop that stops at the first refused element reads inside exactly when the whole array is
inside, or an element inside is refused. -/
theorem elements_inside_iff {size start width n : ℕ} {Accepted : ℕ → Prop}
    (startInside : start ≤ size) :
    (∀ j < n, (∀ k < j, Accepted k) → Inside size (start + width * j) width) ↔
      Inside size start (width * n) ∨
        ∃ i < n, Inside size start (width * (i + 1)) ∧ ¬ Accepted i := by
  have next : ∀ j, start + width * j + width = start + width * (j + 1) := fun j => by
    rw [Nat.mul_succ, Nat.add_assoc]
  simp only [Inside, next]
  constructor
  · intro inside
    by_cases all : ∀ k < n, Accepted k
    · left
      cases n with
      | zero => simpa using startInside
      | succ m => exact inside m (Nat.lt_succ_self m) fun k lt => all k (Nat.lt_succ_of_lt lt)
    · right
      have refused : ∃ i, i < n ∧ ¬ Accepted i := by simpa using all
      -- the first refused element is read
      classical
      obtain ⟨lt, notAccepted⟩ := Nat.find_spec refused
      refine ⟨Nat.find refused, lt, inside _ lt fun k before => ?_, notAccepted⟩
      by_contra also
      exact Nat.find_min refused before ⟨before.trans lt, also⟩
  · intro fits j lt accepted
    have upTo : ∀ {m}, j < m → width * (j + 1) ≤ width * m := fun lt => Nat.mul_le_mul_left _ lt
    obtain whole | ⟨i, _, inside, notAccepted⟩ := fits
    · have := upTo lt
      omega
    · have notLater : j < i + 1 := by
        by_contra later
        exact notAccepted (accepted i (by omega))
      have := upTo notLater
      omega

end ByteMemory
