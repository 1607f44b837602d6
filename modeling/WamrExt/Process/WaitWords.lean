import WamrExt.Lib.SharedProgram
import WamrExt.Process.ProcManager

/-!
# The results of `ProcessWaitPID` in guest memory

`ProcessWaitPID` stores its two results through pointer arguments, and reads the second of them
back to see if it is done. This is the function as a program on guest memory, with the outcomes of
its lock sections and host calls given turn by turn.
-/

set_option autoImplicit false

namespace WamrExt
namespace Process

open SharedProgram Base

/-- The two words, with the offsets of the pointers in the linear memory. -/
structure WaitWordArgs where
  opt : UInt32
  exitStatus : ℕ
  retPID : ℕ

inductive WaitAccess where
  | exitStatus
  | retPID
  deriving DecidableEq, Repr

def WaitWordArgs.place (args : WaitWordArgs) : WaitAccess → ℕ × ℕ
  | .exitStatus => (args.exitStatus, 4)
  | .retPID => (args.retPID, 4)

/-- What comes of a descriptor of the poll array: it is not ready, the map does not know it, or
what `waitpid` answers for its child, where `ECHILD` means that somebody else has reaped it. -/
inductive PolledChild where
  | quiet
  | unknown
  | running
  | reaped (pid status : ℕ)
  | noChild (pid : ℕ)

/-- What comes of a turn of the loop: there is no child to wait for, or what `poll` answers. -/
inductive WaitTurn where
  | noChild
  | failed (errno : ℕ)
  | timeout
  | ready (children : List PolledChild)

/-- The writes for a descriptor. -/
def storeChild : PolledChild → Prog WaitAccess Unit
  | .quiet | .unknown | .running => pure ()
  | .reaped pid status => do
      .put .exitStatus (wexitstatus status)
      .put .retPID pid
  | .noChild pid => do
      .put .exitStatus 0
      .put .retPID pid

/-- The loop over the poll array. -/
def storeChildren : List PolledChild → Prog WaitAccess Unit
  | [] => pure ()
  | child :: rest => do
      storeChild child
      let ret ← .get .retPID
      if ret ≠ 0 then pure () else storeChildren rest

/-- `ProcessWaitPID`, with no result if it goes on after the turns. -/
def processWaitPID (opt : UInt32) : List WaitTurn → Prog WaitAccess (Option ℕ)
  | [] => pure none
  | .noChild :: _ => pure (some uvwasiECHILD)
  | .failed errno :: _ => pure (some (convertErrnoToWasiErrno errno))
  | .timeout :: _ => do
      .put .retPID 0
      pure (some 0)
  | .ready children :: rest => do
      .put .retPID 0
      storeChildren children
      let ret ← .get .retPID
      if ret ≠ 0 ∨ opt &&& wasiWNOHANG ≠ 0 then pure (some 0) else processWaitPID opt rest

end Process
end WamrExt
