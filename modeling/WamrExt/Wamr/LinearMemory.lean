import WamrExt.Lib.ByteMemory

/-!
# The linear memory of a module instance

The WebAssembly runtime is a separate project. What this library relies on is collected in
`LinearMemory`: where the memory is mapped, its 32-bit size, and the address services with
their documented answers. `LinearMemory.mapped` is a runtime that gives exactly these
answers, for any size and any place in a 64-bit address space.

Guest memory is addressed by offsets from the start of the mapping. An offset at or above
the size is host memory that the guest must not reach.
-/

set_option autoImplicit false

namespace WamrExt
namespace Wamr

open ByteMemory

/-- A 64-bit address space. -/
def addressSpace : ℕ := 2 ^ 64

/-- The memory of a module instance and the address services of the runtime. The size
parameter of a validation is 32 bits wide. -/
structure LinearMemory where
  /-- The host address of offset 0. -/
  memoryData : ℕ
  /-- The size in bytes. -/
  memoryDataSize : ℕ
  memoryData_pos : 0 < memoryData
  memoryDataSize_lt : memoryDataSize < 2 ^ 32
  mapping_fits : memoryData + memoryDataSize ≤ addressSpace
  /-- `wasm_runtime_validate_native_addr`. -/
  validateNativeAddr : ℕ → UInt32 → Bool
  validateNativeAddr_iff : ∀ p size, validateNativeAddr p size = true ↔
    memoryData ≤ p ∧ p + size.toNat ≤ memoryData + memoryDataSize
  /-- `wasm_runtime_addr_app_to_native`, with no value for a null pointer. -/
  addrAppToNative : UInt32 → Option ℕ
  addrAppToNative_eq : ∀ offset, addrAppToNative offset =
    if offset.toNat < memoryDataSize then some (memoryData + offset.toNat) else none
  /-- `wasm_runtime_validate_app_str_addr`. -/
  validateAppStrAddr : Memory → UInt32 → Bool
  validateAppStrAddr_iff : ∀ mem offset, validateAppStrAddr mem offset = true ↔
    ∃ len, offset.toNat + len < memoryDataSize ∧ mem (offset.toNat + len) = 0

namespace LinearMemory

/-- A linear memory mapped at an address, with the documented services. -/
def mapped (base size : ℕ) (positive : 0 < base) (bounded : size < 2 ^ 32)
    (fits : base + size ≤ addressSpace) : LinearMemory where
  memoryData := base
  memoryDataSize := size
  memoryData_pos := positive
  memoryDataSize_lt := bounded
  mapping_fits := fits
  validateNativeAddr p len := decide (base ≤ p ∧ p + len.toNat ≤ base + size)
  validateNativeAddr_iff _ _ := decide_eq_true_iff
  addrAppToNative offset :=
    if offset.toNat < size then some (base + offset.toNat) else none
  addrAppToNative_eq _ := rfl
  validateAppStrAddr mem offset :=
    (List.range (size - offset.toNat)).any fun len => mem (offset.toNat + len) == 0
  validateAppStrAddr_iff mem offset := by
    simp only [List.any_eq_true, List.mem_range, beq_iff_eq]
    constructor
    · rintro ⟨len, bound, zero⟩
      exact ⟨len, by omega, zero⟩
    · rintro ⟨len, bound, zero⟩
      exact ⟨len, by omega, zero⟩

variable (L : LinearMemory)

/-- `wasm_runtime_validate_app_addr`, which answers exactly for the range from the offset on. -/
def validateAppAddr (offset size : UInt32) : Bool :=
  decide (Inside L.memoryDataSize offset.toNat size.toNat)

/-- The host address of an offset. -/
def native (offset : ℕ) : ℕ := L.memoryData + offset

/-- A field at a host address lies inside the linear memory. -/
def Holds (p len : ℕ) : Prop :=
  L.memoryData ≤ p ∧ p + len ≤ L.memoryData + L.memoryDataSize

theorem holds_native {offset len : ℕ} :
    L.Holds (L.native offset) len ↔ Inside L.memoryDataSize offset len := by
  rw [Holds, native, Inside]
  omega

/-- Validating the native address of an offset compares the end of the field with the size
of the memory. -/
theorem validateNativeAddr_native (offset : ℕ) (size : UInt32) :
    L.validateNativeAddr (L.native offset) size = true ↔
      Inside L.memoryDataSize offset size.toNat := by
  rw [L.validateNativeAddr_iff, native, Inside]
  omega

/-- A translated offset is an address of the linear memory. -/
theorem addrAppToNative_eq_some {offset : UInt32} {p : ℕ} :
    L.addrAppToNative offset = some p ↔
      offset.toNat < L.memoryDataSize ∧ p = L.native offset.toNat := by
  rw [L.addrAppToNative_eq, native]
  split <;> simp_all [eq_comm]

theorem addrAppToNative_eq_none {offset : UInt32} :
    L.addrAppToNative offset = none ↔ L.memoryDataSize ≤ offset.toNat := by
  rw [L.addrAppToNative_eq]
  split <;> simp_all

/-- The host address of an offset is no null pointer. -/
theorem native_ne_zero (offset : ℕ) : L.native offset ≠ 0 :=
  Nat.ne_of_gt (Nat.lt_of_lt_of_le L.memoryData_pos (Nat.le_add_right _ _))

/-- A native address of the linear memory fits a 64-bit pointer. -/
theorem native_lt {offset : ℕ} (bound : offset < L.memoryDataSize) :
    L.native offset < 256 ^ 8 := by
  have fits := L.mapping_fits
  have space : addressSpace = 256 ^ 8 := by decide
  rw [native]
  omega

end LinearMemory
end Wamr
end WamrExt
