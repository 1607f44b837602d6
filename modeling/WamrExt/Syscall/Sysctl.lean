import WamrExt.Lib.SharedProgram
import WamrExt.Syscall.Dispatch

/-!
# `WamrExtSysctl`

A guest asks for a value by its name, with a buffer and a word that holds the length of it. The
word is read four times and written once.
-/

set_option autoImplicit false

namespace WamrExt
namespace Syscall

open ByteMemory SharedProgram Wamr

/-- `UVWASI_EINVAL` and `UVWASI_ERANGE` -/
def uvwasiEINVAL : Int := 28
def uvwasiERANGE : Int := 68

/-- The arguments, with the name as a C string and the offsets of the other two pointers. -/
structure SysctlArgs where
  name : List UInt8
  buf : ℕ
  bufLen : ℕ

/-- What the handler reads or writes: the word with the length, and the first bytes of the
buffer. -/
inductive SysctlAccess where
  | bufLen
  | buf (len : ℕ)
  deriving DecidableEq, Repr

def SysctlArgs.place (args : SysctlArgs) : SysctlAccess → ℕ × ℕ
  | .bufLen => (args.bufLen, 4)
  | .buf len => (args.buf, len)

/-- What the host and the instance answer. The free size of the heap is missing if there is no
heap, or it cannot be asked. A copy that is longer than the value goes on with what lies above it
on the host stack. -/
structure SysctlAnswers where
  currentThreadID : UInt32
  processID : UInt32
  hardwareConcurrency : UInt32
  numBytesPerPage : UInt32
  maxPageCount : UInt32
  totalFreeSize : Option UInt32
  hostStack : ℕ

/-- The bytes of a name. -/
def sysctlName (name : String) : List UInt8 := name.toList.map fun c => UInt8.ofNat c.toNat

/-- The size of a value and the value, for a name. -/
def sysctlValue (answers : SysctlAnswers) (name : List UInt8) : Option (ℕ × ℕ) :=
  if name = sysctlName "sysinfo.tid" then some (4, answers.currentThreadID.toNat)
  else if name = sysctlName "sysinfo.pid" then some (4, answers.processID.toNat)
  else if name = sysctlName "sysinfo.cpu_count" then some (4, answers.hardwareConcurrency.toNat)
  else if name = sysctlName "sysinfo.vm_mem_total" then
    some (8, answers.numBytesPerPage.toNat * answers.maxPageCount.toNat)
  else if name = sysctlName "sysinfo.vm_mem_avail" then
    some (8, (answers.totalFreeSize.getD 0).toNat)
  else none

/-- `WamrExtSysctl` -/
def wamrExtSysctl (L : LinearMemory) (args : SysctlArgs) (answers : SysctlAnswers) :
    Prog SysctlAccess Int := do
  let len ← .get .bufLen
  if len = 0 then pure uvwasiERANGE
  else
    let len ← .get .bufLen
    if L.validateNativeAddr (L.native args.buf) (UInt32.ofNat len) = false then pure uvwasiEFAULT
    else
      match sysctlValue answers args.name with
      | none => pure uvwasiEINVAL
      | some (size, value) =>
          let len ← .get .bufLen
          if len < size then pure uvwasiERANGE
          else
            .put .bufLen size
            let count ← .get .bufLen
            .put (.buf count) (value + 256 ^ size * answers.hostStack)
            pure 0

/-- **What a guest finds in its buffer.** A call that returns 0, with nobody else at the memory,
leaves the value of the name there. -/
theorem wamrExtSysctl_returned {L : LinearMemory} {args : SysctlArgs} {answers : SysctlAnswers}
    {mem : Memory}
    (returned : (alone args.place (wamrExtSysctl L args answers) mem).result = 0) :
    ∃ size value, sysctlValue answers args.name = some (size, value) ∧
      load (alone args.place (wamrExtSysctl L args answers) mem).mem args.buf size =
        value % 256 ^ size := by
  have getLen : ∀ (k : ℕ → Prog SysctlAccess Int) (guest : Memory),
      alone args.place (Prog.get .bufLen >>= k) guest =
        (alone args.place (k (load guest args.bufLen 4)) guest).after .bufLen := alone_get _
  unfold wamrExtSysctl at returned ⊢
  rw [getLen] at returned ⊢
  by_cases empty : load mem args.bufLen 4 = 0
  · rw [if_pos empty] at returned
    cases returned
  rw [if_neg empty, getLen] at returned ⊢
  by_cases refused : L.validateNativeAddr (L.native args.buf)
      (UInt32.ofNat (load mem args.bufLen 4)) = false
  · rw [if_pos refused] at returned
    cases returned
  rw [if_neg refused] at returned ⊢
  cases known : sysctlValue answers args.name with
  | none =>
      rw [known] at returned
      cases returned
  | some found =>
      obtain ⟨size, value⟩ := found
      simp only [known, getLen] at returned ⊢
      by_cases short : load mem args.bufLen 4 < size
      · rw [if_pos short] at returned
        cases returned
      rw [if_neg short]
      refine ⟨size, value, rfl, ?_⟩
      have width : load (store mem args.bufLen 4 size) args.bufLen 4 = size := by
        have fits := load_lt mem args.bufLen 4
        rw [load_store, Nat.mod_eq_of_lt (by omega)]
      have stored : ∀ len, len = size →
          load (store (store mem args.bufLen 4 size) args.buf len
            (value + 256 ^ size * answers.hostStack)) args.buf size = value % 256 ^ size := by
        rintro _ rfl
        rw [load_store, Nat.add_mul_mod_self_left]
      exact stored _ width

end Syscall
end WamrExt
