import Mathlib.Data.UInt

/-!
# The memory of the main module instance

Instantiation gives the main module a linear memory with the heap of the guest at its end.
`wamr_ext_instance_start` enlarges it up to the limit of the configuration by making the
page as large as the limit (`enlargeMemory`). All sizes are 32-bit.

The block is left in one of three ways, which `enlargeMemory_cases` lists with the memory
each of them leaves.
-/

set_option autoImplicit false

namespace WamrExt
namespace Instance

/-- The pool an allocator hands out memory from. -/
structure HeapPool where
  start : ℕ
  size : UInt32
  deriving DecidableEq, Repr

/-- `WASMMemoryInstance`. Pointers are host addresses. -/
structure WASMMemoryInstance where
  numBytesPerPage : UInt32
  curPageCount : UInt32
  maxPageCount : UInt32
  memoryDataSize : UInt32
  memoryData : ℕ
  memoryDataEnd : ℕ
  heapData : ℕ
  heapDataEnd : ℕ
  heapHandle : Option HeapPool
  memBoundCheck1Byte : UInt64
  memBoundCheck2Bytes : UInt64
  memBoundCheck4Bytes : UInt64
  memBoundCheck8Bytes : UInt64
  memBoundCheck16Bytes : UInt64
  deriving DecidableEq, Repr

/-- `max_page_count * num_bytes_per_page`, in 32 bits. -/
def WASMMemoryInstance.pagesSize (mem : WASMMemoryInstance) : UInt32 :=
  mem.maxPageCount * mem.numBytesPerPage

/-- A difference of two pointers, cut to 32 bits. -/
def pointerDifference (high low : ℕ) : UInt32 := UInt32.ofInt ((high : ℤ) - low)

/-- How the enlarging block is left. -/
inductive Enlarging where
  | untouched
  | outOfMemory (mem : WASMMemoryInstance)
  | enlarged (mem : WASMMemoryInstance)
  deriving DecidableEq

/-- The memory after the block, in the new place. -/
def enlargedMemory (mem : WASMMemoryInstance) (maxMemory : UInt32) (newMem : ℕ) :
    WASMMemoryInstance :=
  let heapOffset := pointerDifference mem.heapData mem.memoryData
  let heapSize :=
    pointerDifference mem.heapDataEnd mem.heapData + (maxMemory - mem.pagesSize)
  let heapData := newMem + heapOffset.toNat
  { mem with
    numBytesPerPage := maxMemory
    memoryDataSize := maxMemory
    memoryData := newMem
    memoryDataEnd := newMem + maxMemory.toNat
    heapData := heapData
    heapDataEnd := heapData + heapSize.toNat
    heapHandle := some ⟨heapData, heapSize⟩
    memBoundCheck1Byte := (maxMemory - 1).toUInt64
    memBoundCheck2Bytes := (maxMemory - 2).toUInt64
    memBoundCheck4Bytes := (maxMemory - 4).toUInt64
    memBoundCheck8Bytes := (maxMemory - 8).toUInt64
    memBoundCheck16Bytes := (maxMemory - 16).toUInt64 }

/-- The memory when the host has no room: the page size is changed already, and the heap
has been given up. -/
def abandonedMemory (mem : WASMMemoryInstance) (maxMemory : UInt32) : WASMMemoryInstance :=
  { mem with numBytesPerPage := maxMemory, heapHandle := none }

/-- The enlarging block of `wamr_ext_instance_start`. `realloc` is the answer of the host
to a request for a size: the new address, or nothing. -/
def enlargeMemory (maxMemory : UInt32) (realloc : UInt32 → Option ℕ)
    (mem : WASMMemoryInstance) : Enlarging :=
  if maxMemory > mem.pagesSize then
    match realloc maxMemory with
    | none => .outOfMemory (abandonedMemory mem maxMemory)
    | some newMem => .enlarged (enlargedMemory mem maxMemory newMem)
  else .untouched

/-- The block is entered, and the host has no room. -/
def CannotEnlarge (maxMemory : UInt32) (realloc : UInt32 → Option ℕ)
    (mem : WASMMemoryInstance) : Prop :=
  maxMemory > mem.pagesSize ∧ realloc maxMemory = none

instance (maxMemory : UInt32) (realloc : UInt32 → Option ℕ) (mem : WASMMemoryInstance) :
    Decidable (CannotEnlarge maxMemory realloc mem) :=
  inferInstanceAs (Decidable (_ ∧ _))

/-- **The three ways the block is left.** -/
theorem enlargeMemory_cases (maxMemory : UInt32) (realloc : UInt32 → Option ℕ)
    (mem : WASMMemoryInstance) :
    (enlargeMemory maxMemory realloc mem = .untouched ∧ maxMemory ≤ mem.pagesSize) ∨
      (enlargeMemory maxMemory realloc mem = .outOfMemory (abandonedMemory mem maxMemory) ∧
        CannotEnlarge maxMemory realloc mem) ∨
      ∃ newMem, realloc maxMemory = some newMem ∧ maxMemory > mem.pagesSize ∧
        enlargeMemory maxMemory realloc mem = .enlarged (enlargedMemory mem maxMemory newMem) := by
  by_cases larger : maxMemory > mem.pagesSize
  · right
    cases room : realloc maxMemory with
    | none =>
        left
        exact ⟨by simp [enlargeMemory, larger, room], larger, room⟩
    | some newMem =>
        right
        exact ⟨newMem, rfl, larger, by simp [enlargeMemory, larger, room]⟩
  · left
    exact ⟨by simp [enlargeMemory, larger], UInt32.not_lt.mp larger⟩

end Instance
end WamrExt
