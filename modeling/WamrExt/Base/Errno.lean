import Mathlib.Data.List.Basic

/-!
# Error numbers

Errors of the host are given to the guest as WASI error numbers.
-/

set_option autoImplicit false

namespace WamrExt
namespace Base

/-- The error numbers of a Linux host that `ConvertErrnoToWasiErrno` knows, in the order of its
table. The WASI numbers count up from 1 in this order. -/
def hostErrnos : List ℕ :=
  [7, 13, 98, 99, 97, 11, 114, 9, 74, 16, 125, 10, 103, 111, 104, 35, 89, 33, 122, 17, 14, 27,
    113, 43, 84, 115, 4, 22, 5, 106, 21, 40, 24, 31, 90, 72, 36, 100, 102, 101, 23, 105, 19, 2, 8,
    37, 67, 12, 42, 92, 28, 38, 107, 20, 39, 131, 88, 95, 25, 6, 75, 130, 1, 32, 71, 93, 91, 34,
    30, 29, 3, 116, 110, 26, 18]

/-- `UVWASI_ENOSYS` -/
def uvwasiENOSYS : ℕ := 52

/-- `ConvertErrnoToWasiErrno`. A negative number is not in the table either. -/
def convertErrnoToWasiErrno (error : ℕ) : ℕ :=
  if error = 0 then 0
  else if error ∈ hostErrnos then hostErrnos.idxOf error + 1
  else uvwasiENOSYS

/-- A host error is never reported as success. -/
theorem convertErrnoToWasiErrno_eq_zero {error : ℕ} :
    convertErrnoToWasiErrno error = 0 ↔ error = 0 := by
  rw [convertErrnoToWasiErrno, uvwasiENOSYS]
  split_ifs <;> simp_all

end Base
end WamrExt
