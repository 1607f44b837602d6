import Mathlib.Algebra.Order.Ring.Nat
import WamrExt.Instance.Lifecycle

/-!
# The memory limit

The limit of the configuration is documented as the maximum memory size of an instance. A
start applies it in the enlarging block only, and enters that block when the limit exceeds
the 32-bit product of the page count and the page size.

The largest memory a guest can reach is the page size times the maximal page count, as an
integer. After a start that succeeds it is at most the limit exactly when the module has at
most one page, or already has the limit (`memory_limit_kept_iff`): with more pages the block
multiplies the limit by their number, and a memory that is larger from the start is left
alone.
-/

set_option autoImplicit false

namespace WamrExt
namespace Instance

/-- The size at the maximal page count, as an integer. -/
def WASMMemoryInstance.largestSize (mem : WASMMemoryInstance) : ℕ :=
  mem.numBytesPerPage.toNat * mem.maxPageCount.toNat

/-- The default memory of the main module instance. -/
def WamrExtInstance.mainMemory (inst : WamrExtInstance) : Option WASMMemoryInstance :=
  (inst.wasmMainInstance.bind inst.moduleInsts.lookup).map ModuleInst.memory

/-- A start that returns 0 leaves a memory that can never exceed the limit. -/
def MemoryLimitKept (inst : WamrExtInstance) (answers : StartAnswers) : Prop :=
  (wamrExtInstanceStart inst answers).1 = 0 →
    ∃ memory, (wamrExtInstanceStart inst answers).2.mainMemory = some memory ∧
      memory.largestSize ≤ (wamrExtInstanceStart inst answers).2.config.maxMemory.toNat

/-- The memory of the module has one page at most and fits the limit, or it has the limit as
its largest size. -/
def FitsLimit (maxMemory : UInt32) (memory : WASMMemoryInstance) : Prop :=
  (memory.maxPageCount.toNat ≤ 1 ∧ memory.largestSize ≤ maxMemory.toNat) ∨
    memory.largestSize = maxMemory.toNat

instance (maxMemory : UInt32) (memory : WASMMemoryInstance) :
    Decidable (FitsLimit maxMemory memory) :=
  inferInstanceAs (Decidable (_ ∨ _))

section Sizes

variable (mem : WASMMemoryInstance) (maxMemory : UInt32) (newMem : ℕ)

/-- The product that guards the block is the largest size cut to 32 bits. -/
theorem pagesSize_toNat : mem.pagesSize.toNat = mem.largestSize % 2 ^ 32 := by
  rw [WASMMemoryInstance.pagesSize, WASMMemoryInstance.largestSize, UInt32.toNat_mul,
    Nat.mul_comm]

/-- Enlarging makes each page as large as the limit. -/
theorem largestSize_enlarged :
    (enlargedMemory mem maxMemory newMem).largestSize =
      maxMemory.toNat * mem.maxPageCount.toNat := rfl

variable {mem maxMemory}

/-- One page at most has a size of 32 bits. -/
theorem largestSize_lt (few : mem.maxPageCount.toNat ≤ 1) : mem.largestSize < 2 ^ 32 := by
  have page := mem.numBytesPerPage.toNat_lt
  calc
    mem.largestSize ≤ mem.numBytesPerPage.toNat * 1 := Nat.mul_le_mul_left _ few
    _ < 2 ^ 32 := by omega

/-- A memory that is left alone is within the limit exactly when it has the limit. -/
theorem fitsLimit_of_untouched (untouched : maxMemory ≤ mem.pagesSize) :
    mem.largestSize ≤ maxMemory.toNat ↔ FitsLimit maxMemory mem := by
  have guard : maxMemory.toNat ≤ mem.largestSize % 2 ^ 32 := by
    rw [← pagesSize_toNat]
    exact untouched
  have cut : mem.largestSize % 2 ^ 32 ≤ mem.largestSize := Nat.mod_le _ _
  constructor
  · intro within
    exact Or.inr (by omega)
  · rintro (⟨_, within⟩ | same)
    · exact within
    · exact same.le

/-- A memory that is enlarged is within the limit exactly when it has one page at most. -/
theorem fitsLimit_of_enlarged (larger : maxMemory > mem.pagesSize) :
    (enlargedMemory mem maxMemory newMem).largestSize ≤ maxMemory.toNat ↔
      FitsLimit maxMemory mem := by
  have guard : mem.largestSize % 2 ^ 32 < maxMemory.toNat := by
    rw [← pagesSize_toNat]
    exact larger
  have positive : 0 < maxMemory.toNat := by omega
  have bound := maxMemory.toNat_lt
  rw [largestSize_enlarged]
  constructor
  · intro within
    have few : mem.maxPageCount.toNat ≤ 1 := by
      apply Nat.le_of_mul_le_mul_left _ positive
      rwa [Nat.mul_one]
    have small := largestSize_lt few
    exact Or.inl ⟨few, by omega⟩
  · rintro (⟨few, _⟩ | same)
    · calc
        maxMemory.toNat * mem.maxPageCount.toNat ≤ maxMemory.toNat * 1 :=
          Nat.mul_le_mul_left _ few
        _ = maxMemory.toNat := Nat.mul_one _
    · omega

end Sizes

section Start

variable {inst : WamrExtInstance} {answers : StartAnswers}

/-- The end of a start leaves the memory that was linked. -/
theorem mainMemory_initializeMain (inst : WamrExtInstance) {memory : WASMMemoryInstance}
    (instantiated : answers.instantiated = some memory)
    (execEnvCreated : answers.execEnvCreated = true) (linked : WASMMemoryInstance) :
    (initializeMain (linkMain (instantiateMain inst answers) inst.unused linked)
        answers).2.mainMemory = some linked ∧
      (initializeMain (linkMain (instantiateMain inst answers) inst.unused linked)
        answers).2.config = inst.config := by
  obtain ⟨state, after, _⟩ :=
    initializeMain_eq (linkMain (instantiateMain inst answers) inst.unused linked) answers
  rw [after]
  simp [WamrExtInstance.mainMemory, linkMain, instantiateMain, instantiated, execEnvCreated]

/-- **The memory a start that returns 0 leaves**: that of the module, or the enlarged one
where the limit exceeds the guard. The configuration stays. -/
theorem start_returned {memory : WASMMemoryInstance}
    (instantiated : answers.instantiated = some memory)
    (returned : (wamrExtInstanceStart inst answers).1 = 0) :
    (wamrExtInstanceStart inst answers).2.config = inst.config ∧
      ((inst.config.maxMemory ≤ memory.pagesSize ∧
          (wamrExtInstanceStart inst answers).2.mainMemory = some memory) ∨
        (inst.config.maxMemory > memory.pagesSize ∧ ∃ newMem,
          (wamrExtInstanceStart inst answers).2.mainMemory =
            some (enlargedMemory memory inst.config.maxMemory newMem))) := by
  have fresh : inst.state = .new := by
    by_contra old
    rw [wamrExtInstanceStart_not_new inst answers old] at returned
    cases returned
  have execEnvCreated : answers.execEnvCreated = true := by
    cases failed : answers.execEnvCreated with
    | true => rfl
    | false => simp [wamrExtInstanceStart, fresh, instantiated, failed] at returned
  obtain ⟨_, after⟩ | ⟨linked, found, after⟩ :=
    wamrExtInstanceStart_env fresh instantiated execEnvCreated
  · rw [after] at returned
    cases returned
  · obtain ⟨main, config⟩ := mainMemory_initializeMain inst instantiated execEnvCreated linked
    rw [after]
    refine ⟨config, found.imp ?_ ?_⟩
    · rintro ⟨fits, rfl⟩
      exact ⟨fits, main⟩
    · rintro ⟨larger, newMem, _, rfl⟩
      exact ⟨larger, newMem, main⟩

end Start

/-- **When the limit is a limit.** A start that returns 0 leaves a memory that can never
exceed the limit exactly when the memory of the module has one page at most and fits the
limit, or has the limit as its largest size already. -/
theorem memory_limit_kept_iff {inst : WamrExtInstance} {answers : StartAnswers}
    {memory : WASMMemoryInstance} (instantiated : answers.instantiated = some memory)
    (returned : (wamrExtInstanceStart inst answers).1 = 0) :
    MemoryLimitKept inst answers ↔ FitsLimit inst.config.maxMemory memory := by
  obtain ⟨config, ⟨untouched, main⟩ | ⟨larger, newMem, main⟩⟩ :=
    start_returned instantiated returned
  · rw [MemoryLimitKept, main, config, ← fitsLimit_of_untouched untouched]
    exact ⟨fun kept => by simpa using kept returned, fun within _ => ⟨memory, rfl, within⟩⟩
  · rw [MemoryLimitKept, main, config, ← fitsLimit_of_enlarged newMem larger]
    exact ⟨fun kept => by simpa using kept returned, fun within _ => ⟨_, rfl, within⟩⟩

/-- A module with one page is enlarged up to the limit. -/
theorem onePage_limit_kept : MemoryLimitKept newInstance (startWith fun _ => some 0x100000) :=
  (memory_limit_kept_iff rfl (by decide)).mpr (by decide)

/-- A memory with a number of pages of 64 KiB, which may grow up to another. -/
def pagesMemory (curPages maxPages : UInt32) : WASMMemoryInstance :=
  { onePageMemory with
    curPageCount := curPages
    maxPageCount := maxPages
    memoryDataSize := curPages * 65536
    memoryDataEnd := onePageMemory.memoryData + (curPages * 65536).toNat }

/-- A start that goes well, with such a memory. -/
def startPages (curPages maxPages : UInt32) : StartAnswers :=
  { startWith fun _ => some 0x100000 with instantiated := some (pagesMemory curPages maxPages) }

/-- A new instance with the limit set through the option. -/
def limitedInstance (value : UInt32) : WamrExtInstance :=
  (wamrExtInstanceSetOpt newInstance (.maxMemory value)).2

/-- With a limit of 1 MiB, a module that may grow from one page to 100 is left as it is, and
one with 2 pages gets two pages of 1 MiB each. -/
theorem limit_exceeded :
    ¬ MemoryLimitKept (limitedInstance 0x100000) (startPages 1 100) ∧
      ¬ MemoryLimitKept (limitedInstance 0x100000) (startPages 2 2) := by
  refine ⟨?_, ?_⟩ <;>
  · intro kept
    obtain ⟨memory, main, within⟩ := kept (by decide)
    obtain rfl := Option.some.inj main
    exact absurd within (by decide)

end Instance
end WamrExt
