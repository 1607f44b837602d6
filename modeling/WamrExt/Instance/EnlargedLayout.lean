import Mathlib.Algebra.Order.Ring.Int
import WamrExt.Instance.MemoryLimit
import WamrExt.Syscall.Sysctl

/-!
# The layout of the enlarged memory

The enlarging block writes the fields of the memory of the main module instance by hand: where
the memory and its heap begin and end, the size of it, its page size, and the limits that
compiled guest code checks its accesses against.

The fields belong together. The size is that of all pages, the heap lies in the memory and takes
all that is new, and a guest that asks for its total memory is told the size. The block keeps all
this exactly when the memory is one page before (`layout_kept_iff`). It sets the page size to the
limit and leaves the number of pages, which an assertion was to keep at 1. As it is written the
assertion compares the current number of pages with the maximal one only.

The bottom of the module is a memory with its heap in it as three numbers (`MemoryLayout`), which
grows at its end. A memory of one page is enlarged by growing it.
-/

set_option autoImplicit false

namespace WamrExt
namespace Instance

open ByteMemory SharedProgram Syscall Wamr

/-! ## Layouts -/

/-- A memory with a heap in it. -/
structure MemoryLayout where
  size : ℕ
  heapOffset : ℕ
  heapSize : ℕ
  heap_fits : heapOffset + heapSize ≤ size

/-- The memory grows at its end, and the heap with it. -/
def MemoryLayout.grow (layout : MemoryLayout) (extra : ℕ) : MemoryLayout where
  size := layout.size + extra
  heapOffset := layout.heapOffset
  heapSize := layout.heapSize + extra
  heap_fits := by
    have fits := layout.heap_fits
    omega

/-- The pointers of a memory are those of a layout. -/
structure LaidOut (mem : WASMMemoryInstance) (layout : MemoryLayout) : Prop where
  memoryDataEnd : mem.memoryDataEnd = mem.memoryData + layout.size
  heapData : mem.heapData = mem.memoryData + layout.heapOffset
  heapDataEnd : mem.heapDataEnd = mem.heapData + layout.heapSize

/-- The heap lies inside the memory. -/
structure HeapInside (mem : WASMMemoryInstance) : Prop where
  begins : mem.memoryData ≤ mem.heapData
  ordered : mem.heapData ≤ mem.heapDataEnd
  ends : mem.heapDataEnd ≤ mem.memoryDataEnd

/-- A memory is laid out in some way exactly when its heap lies inside. -/
theorem heapInside_iff {mem : WASMMemoryInstance} :
    HeapInside mem ↔ ∃ layout, LaidOut mem layout := by
  constructor
  · rintro ⟨begins, ordered, ends⟩
    refine ⟨⟨mem.memoryDataEnd - mem.memoryData, mem.heapData - mem.memoryData,
      mem.heapDataEnd - mem.heapData, by omega⟩, ⟨?_, ?_, ?_⟩⟩ <;>
    · simp only
      omega
  · rintro ⟨layout, memoryDataEnd, heapData, heapDataEnd⟩
    have fits := layout.heap_fits
    exact ⟨by omega, by omega, by omega⟩

/-! ## What the fields have to do with each other -/

/-- The number of bytes between the ends of the memory. -/
def WASMMemoryInstance.span (mem : WASMMemoryInstance) : ℤ :=
  (mem.memoryDataEnd : ℤ) - mem.memoryData

/-- The number of bytes between the ends of the heap. -/
def WASMMemoryInstance.heapSpan (mem : WASMMemoryInstance) : ℤ :=
  (mem.heapDataEnd : ℤ) - mem.heapData

/-- Each limit of the accesses is the size less the number of bytes accessed. -/
structure BoundChecked (mem : WASMMemoryInstance) : Prop where
  oneByte : (mem.memBoundCheck1Byte.toNat : ℤ) = mem.memoryDataSize.toNat - 1
  twoBytes : (mem.memBoundCheck2Bytes.toNat : ℤ) = mem.memoryDataSize.toNat - 2
  fourBytes : (mem.memBoundCheck4Bytes.toNat : ℤ) = mem.memoryDataSize.toNat - 4
  eightBytes : (mem.memBoundCheck8Bytes.toNat : ℤ) = mem.memoryDataSize.toNat - 8
  sixteenBytes : (mem.memBoundCheck16Bytes.toNat : ℤ) = mem.memoryDataSize.toNat - 16

/-- A guest that asks for its total memory, and is answered, finds the size in its buffer. -/
def ReportsTotal (mem : WASMMemoryInstance) : Prop :=
  ∀ (L : LinearMemory) (args : SysctlArgs) (answers : SysctlAnswers) (guest : Memory),
    args.name = sysctlName "sysinfo.vm_mem_total" →
    answers.numBytesPerPage = mem.numBytesPerPage → answers.maxPageCount = mem.maxPageCount →
    (alone args.place (wamrExtSysctl L args answers) guest).result = 0 →
    load (alone args.place (wamrExtSysctl L args answers) guest).mem args.buf 8 =
      mem.memoryDataSize.toNat

/-- What enlarging a memory should come to. -/
structure LayoutKept (before after : WASMMemoryInstance) : Prop where
  pages : after.memoryDataSize.toNat = after.largestSize
  inside : HeapInside after
  notShrunk : before.span ≤ after.span
  heapGrown : after.heapSpan - before.heapSpan = after.span - before.span
  checks : BoundChecked after
  total : ReportsTotal after

/-- All of the memory is one page. -/
structure OnePage (mem : WASMMemoryInstance) : Prop where
  count : mem.maxPageCount = 1
  size : mem.span = mem.numBytesPerPage.toNat

/-- The start enters the enlarging block with a memory, and completes it. -/
def EnlargingStart (inst : WamrExtInstance) (answers : StartAnswers)
    (before : WASMMemoryInstance) : Prop :=
  inst.state = .new ∧ answers.execEnvCreated = true ∧ answers.instantiated = some before ∧
    ∃ after, enlargeMemory inst.config.maxMemory answers.realloc before = .enlarged after

/-- The start leaves the instance with a memory whose layout is kept. -/
def StartKeepsLayout (inst : WamrExtInstance) (answers : StartAnswers)
    (before : WASMMemoryInstance) : Prop :=
  ∃ after, (wamrExtInstanceStart inst answers).2.mainMemory = some after ∧
    LayoutKept before after

section Enlarged

variable {mem : WASMMemoryInstance} {layout : MemoryLayout} {maxMemory : UInt32} {newMem : ℕ}

theorem LaidOut.span_eq (laidOut : LaidOut mem layout) : mem.span = layout.size := by
  rw [WASMMemoryInstance.span, laidOut.memoryDataEnd]
  omega

theorem LaidOut.heapSpan_eq (laidOut : LaidOut mem layout) : mem.heapSpan = layout.heapSize := by
  rw [WASMMemoryInstance.heapSpan, laidOut.heapDataEnd]
  omega

theorem pointerDifference_toNat {low : ℕ} (n : ℕ) :
    (pointerDifference (low + n) low).toNat = n % 2 ^ 32 := by
  have difference : ((low + n : ℕ) : ℤ) - low = n := by omega
  rw [pointerDifference, difference]
  change (UInt32.ofNat ((n : ℤ) % 2 ^ 32).toNat).toNat = _
  rw [UInt32.toNat_ofNat']
  omega

/-- With one page the guard of the block is exact. -/
theorem pagesSize_of_one (one : mem.maxPageCount = 1) : mem.pagesSize = mem.numBytesPerPage := by
  rw [WASMMemoryInstance.pagesSize, one, UInt32.one_mul]

/-- **A memory of one page is enlarged by growing it.** No difference and no sum is cut. -/
theorem OnePage.enlarged (onePage : OnePage mem) (laidOut : LaidOut mem layout)
    (larger : maxMemory > mem.pagesSize) :
    LaidOut (enlargedMemory mem maxMemory newMem)
      (layout.grow (maxMemory.toNat - mem.numBytesPerPage.toNat)) := by
  rw [pagesSize_of_one onePage.count] at larger
  have guard : mem.numBytesPerPage.toNat < maxMemory.toNat := larger
  have bound := maxMemory.toNat_lt
  have fits := layout.heap_fits
  have page : layout.size = mem.numBytesPerPage.toNat := by
    have span := laidOut.span_eq
    rw [onePage.size] at span
    omega
  have heapOffset : (pointerDifference mem.heapData mem.memoryData).toNat = layout.heapOffset := by
    rw [laidOut.heapData, pointerDifference_toNat]
    omega
  have extra : (maxMemory - mem.pagesSize).toNat =
      maxMemory.toNat - mem.numBytesPerPage.toNat := by
    rw [pagesSize_of_one onePage.count]
    exact UInt32.toNat_sub_of_le _ _ (UInt32.le_of_lt larger)
  have heapSize : (pointerDifference mem.heapDataEnd mem.heapData +
      (maxMemory - mem.pagesSize)).toNat =
        layout.heapSize + (maxMemory.toNat - mem.numBytesPerPage.toNat) := by
    rw [UInt32.toNat_add, extra, laidOut.heapDataEnd, pointerDifference_toNat]
    omega
  refine ⟨?_, ?_, ?_⟩
  · simp only [enlargedMemory, MemoryLayout.grow]
    omega
  · simp only [enlargedMemory, MemoryLayout.grow, heapOffset]
  · simp only [enlargedMemory, MemoryLayout.grow, heapSize]

/-- A layout that is kept was one page. With one page to the count, the heap grows by the limit
less a page, up to multiples of 2^32, and the memory by the limit less its size. -/
theorem onePage_of_kept (laidOut : LaidOut mem layout) (larger : maxMemory > mem.pagesSize)
    (kept : LayoutKept mem (enlargedMemory mem maxMemory newMem)) : OnePage mem := by
  have bound := maxMemory.toNat_lt
  have count : mem.maxPageCount = 1 := by
    have positive : 0 < maxMemory.toNat := Nat.zero_lt_of_lt (UInt32.lt_iff_toNat_lt.mp larger)
    have pages : maxMemory.toNat = maxMemory.toNat * mem.maxPageCount.toNat := kept.pages
    exact UInt32.toNat_inj.mp (Nat.eq_of_mul_eq_mul_left positive (by rw [← pages]; simp))
  refine ⟨count, ?_⟩
  rw [pagesSize_of_one count] at larger
  have guard : mem.numBytesPerPage.toNat < maxMemory.toNat := larger
  have size : (enlargedMemory mem maxMemory newMem).span = maxMemory.toNat := by
    simp [WASMMemoryInstance.span, enlargedMemory]
  have heapSize : (enlargedMemory mem maxMemory newMem).heapSpan =
      ((layout.heapSize % 2 ^ 32 + (maxMemory.toNat - mem.numBytesPerPage.toNat)) % 2 ^ 32 : ℕ) := by
    have difference : (pointerDifference mem.heapDataEnd mem.heapData).toNat =
        layout.heapSize % 2 ^ 32 := by
      rw [laidOut.heapDataEnd, pointerDifference_toNat]
    rw [← difference, ← UInt32.toNat_sub_of_le _ _ (UInt32.le_of_lt larger), ← UInt32.toNat_add,
      ← pagesSize_of_one count]
    simp [WASMMemoryInstance.heapSpan, enlargedMemory]
  have notShrunk := kept.notShrunk
  have heapGrown := kept.heapGrown
  have fits := layout.heap_fits
  rw [laidOut.span_eq, size] at notShrunk
  rw [laidOut.span_eq, laidOut.heapSpan_eq, size, heapSize] at heapGrown
  rw [laidOut.span_eq]
  omega

/-- A limit of whole pages is large enough for every check. -/
theorem enlarged_checks (pages : IsPageMultiple maxMemory) :
    BoundChecked (enlargedMemory mem maxMemory newMem) := by
  obtain ⟨positive, whole⟩ := pages
  have page : wasmPageSize.toNat = 65536 := by decide
  rw [page] at whole
  have check : ∀ k : UInt32, k.toNat ≤ 16 →
      (((maxMemory - k).toUInt64.toNat : ℕ) : ℤ) = maxMemory.toNat - k.toNat := fun k small => by
    rw [UInt32.toNat_toUInt64, UInt32.toNat_sub_of_le _ _ (UInt32.le_iff_toNat_le.mpr (by omega))]
    omega
  exact ⟨check 1 (by decide), check 2 (by decide), check 4 (by decide), check 8 (by decide),
    check 16 (by decide)⟩

/-- The total that a guest is told is that of all pages. -/
theorem reportsTotal_of_pages (pages : mem.memoryDataSize.toNat = mem.largestSize) :
    ReportsTotal mem := by
  intro L args answers guest name numBytesPerPage maxPageCount returned
  obtain ⟨size, value, known, told⟩ := wamrExtSysctl_returned returned
  have asked : sysctlValue answers args.name =
      some (8, mem.numBytesPerPage.toNat * mem.maxPageCount.toNat) := by
    rw [name, ← numBytesPerPage, ← maxPageCount]
    rfl
  rw [asked] at known
  cases known
  have bound := mem.memoryDataSize.toNat_lt
  rw [told, pages]
  exact Nat.mod_eq_of_lt (by rw [← WASMMemoryInstance.largestSize, ← pages]; omega)

/-- **When enlarging keeps the layout**: exactly when the memory was one page. -/
theorem enlarged_kept_iff (inside : HeapInside mem) (larger : maxMemory > mem.pagesSize)
    (whole : IsPageMultiple maxMemory) :
    LayoutKept mem (enlargedMemory mem maxMemory newMem) ↔ OnePage mem := by
  obtain ⟨layout, laidOut⟩ := heapInside_iff.mp inside
  refine ⟨onePage_of_kept laidOut larger, fun onePage => ?_⟩
  have grown : LaidOut (enlargedMemory mem maxMemory newMem) _ := onePage.enlarged laidOut larger
  have pages : (enlargedMemory mem maxMemory newMem).memoryDataSize.toNat =
      (enlargedMemory mem maxMemory newMem).largestSize := by
    rw [largestSize_enlarged, onePage.count]
    exact (Nat.mul_one _).symm
  constructor
  · exact pages
  · exact heapInside_iff.mpr ⟨_, grown⟩
  · rw [laidOut.span_eq, grown.span_eq]
    simp only [MemoryLayout.grow]
    omega
  · rw [laidOut.span_eq, grown.span_eq, laidOut.heapSpan_eq, grown.heapSpan_eq]
    simp only [MemoryLayout.grow]
    omega
  · exact enlarged_checks whole
  · exact reportsTotal_of_pages pages

end Enlarged

/-- A start that completes the block leaves the instance with the enlarged memory. -/
theorem EnlargingStart.mainMemory {inst : WamrExtInstance} {answers : StartAnswers}
    {before : WASMMemoryInstance} (start : EnlargingStart inst answers before) :
    inst.config.maxMemory > before.pagesSize ∧ ∃ newMem,
      (wamrExtInstanceStart inst answers).2.mainMemory =
        some (enlargedMemory before inst.config.maxMemory newMem) := by
  obtain ⟨fresh, execEnvCreated, instantiated, after, enlarged⟩ := start
  obtain ⟨noRoom, _⟩ | ⟨linked, found, ended⟩ :=
    wamrExtInstanceStart_env fresh instantiated execEnvCreated
  · simp [enlargeMemory, noRoom.1, noRoom.2] at enlarged
  · obtain ⟨fits, _⟩ | ⟨larger, newMem, _, rfl⟩ := found
    · simp [enlargeMemory, UInt32.not_lt.mpr fits] at enlarged
    · rw [ended]
      exact ⟨larger, newMem, (mainMemory_initializeMain inst instantiated execEnvCreated _).1⟩

/-- **When a start keeps the layout.** A start that enlarges a memory with its heap inside leaves
the fields of the memory as they belong together exactly when the memory was one page. -/
theorem layout_kept_iff {inst : WamrExtInstance} {answers : StartAnswers}
    {before : WASMMemoryInstance} (start : EnlargingStart inst answers before)
    (inside : HeapInside before) : StartKeepsLayout inst answers before ↔ OnePage before := by
  obtain ⟨larger, newMem, main⟩ := start.mainMemory
  rw [StartKeepsLayout, main, ← enlarged_kept_iff inside larger inst.config.maxMemory_pages]
  constructor
  · rintro ⟨after, same, kept⟩
    cases same
    exact kept
  · intro kept
    exact ⟨_, rfl, kept⟩

/-- A memory of one page is enlarged to 4 MiB and keeps its layout. -/
theorem onePage_layout_kept :
    StartKeepsLayout newInstance (startWith fun _ => some 0x100000) onePageMemory :=
  (layout_kept_iff ⟨rfl, rfl, rfl, _, rfl⟩ ⟨by decide, by decide, by decide⟩).mpr
    ⟨rfl, by decide⟩

/-- Two pages, and no more to come, pass the assertion. With a limit of 1 MiB they are two pages
of 1 MiB each in a memory of 1 MiB. -/
theorem twoPages_layout_lost :
    EnlargingStart (limitedInstance 0x100000) (startPages 2 2) (pagesMemory 2 2) ∧
      HeapInside (pagesMemory 2 2) ∧
      (pagesMemory 2 2).maxPageCount = (pagesMemory 2 2).curPageCount ∧
      ¬ StartKeepsLayout (limitedInstance 0x100000) (startPages 2 2) (pagesMemory 2 2) := by
  refine ⟨⟨rfl, rfl, rfl, _, rfl⟩, ⟨by decide, by decide, by decide⟩, rfl, ?_⟩
  rintro ⟨after, main, kept⟩
  obtain rfl := Option.some.inj main
  exact absurd kept.pages (by decide)

end Instance
end WamrExt
