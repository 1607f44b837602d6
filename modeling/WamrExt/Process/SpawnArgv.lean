import WamrExt.Socket.PollOneOff

/-!
# The arguments of `ProcessSpawn`

A guest asks for a command of the host by name, and gives an array of pointers to its
arguments. Before it looks at anything else, `ProcessSpawn` finds the command in the whitelist
of the instance, validates the range of the array, and then goes over it: each pointer has to be
that of a string, and is translated.

The number of pointers is read from the request again in each turn of the loop. Here nobody
writes the memory during the call, so the number stays what it is.
-/

set_option autoImplicit false

namespace WamrExt
namespace Process

open ByteMemory Wamr Socket

/-- The fields of `wamr_spawn_req`. -/
inductive SpawnReqField where
  | appCmdNamePointer
  | appArgvPointer
  | argc
  | appFaPointer
  | retPid
  deriving DecidableEq, Repr

/-- The offset of a field. All of them have four bytes. -/
def SpawnReqField.offset : SpawnReqField → ℕ
  | .appCmdNamePointer => 0
  | .appArgvPointer => 4
  | .argc => 8
  | .appFaPointer => 12
  | .retPid => 16

/-- `sizeof(wamr_spawn_req)` -/
def spawnReqSize : ℕ := 20

/-- `sizeof(uint32_t)` -/
def argvPointerSize : ℕ := 4

/-- `UVWASI_ENOENT` -/
def uvwasiENOENT : UInt16 := 44

/-- What the function reads: a field of the request, the name of the command, and a pointer of
the array. -/
inductive SpawnAccess where
  | req (field : SpawnReqField)
  | cmdName
  | argv (i : ℕ)
  deriving DecidableEq, Repr

/-- A field of the request. -/
def spawnReq (pReq : ℕ) (mem : Memory) (field : SpawnReqField) : UInt32 :=
  UInt32.ofNat (load mem (pReq + field.offset) 4)

/-- The C string at an offset, without its end. -/
def appStr (L : LinearMemory) (mem : Memory) (offset : UInt32) : List UInt8 :=
  ((List.range (L.memoryDataSize - offset.toNat)).map fun k => mem (offset.toNat + k)).takeWhile
    (· ≠ 0)

/-- `hostCmdWhitelist`: the command of the host for a name. -/
abbrev HostCmdWhitelist := List UInt8 → Option (List UInt8)

/-- `hostArgv` after the loop: the command, and the host pointers of the arguments. -/
structure HostArgv where
  hostCmd : List UInt8
  args : List ℕ
  deriving DecidableEq, Repr

/-- How far the function gets, and its accesses in order. -/
structure SpawnRun (α : Type) where
  result : Except UInt16 α
  log : List SpawnAccess

section Argv

variable (L : LinearMemory)

/-- The host address of a pointer of the array. A null array is 0. -/
def argvAddr (argvPointer : UInt32) (i : ℕ) : ℕ :=
  (L.addrAppToNative argvPointer).getD 0 + argvPointerSize * i

variable (mem : Memory)

/-- A pointer of the array. -/
def appArgv (argvPointer : UInt32) (i : ℕ) : UInt32 :=
  UInt32.ofNat (load mem (argvPointer.toNat + argvPointerSize * i) argvPointerSize)

/-- The loop over the array, from pointer `i` on. -/
def argvLoop (argvPointer : UInt32) : ℕ → ℕ → SpawnRun (List ℕ)
  | _, 0 => ⟨.ok [], [.req .argc]⟩
  | i, n + 1 =>
      if L.validateAppStrAddr mem (appArgv mem argvPointer i) then
        let rest := argvLoop argvPointer (i + 1) n
        let arg := (L.addrAppToNative (appArgv mem argvPointer i)).getD 0
        ⟨rest.result.map (arg :: ·), [.req .argc, .argv i, .argv i] ++ rest.log⟩
      else ⟨.error uvwasiEFAULT, [.req .argc, .argv i]⟩

/-- `ProcessSpawn` up to the end of the loop over the arguments. -/
def spawnArgv (whitelist : HostCmdWhitelist) (pReq : ℕ) : SpawnRun HostArgv :=
  if L.validateNativeAddr (L.native pReq) (UInt32.ofNat spawnReqSize) = false then
    ⟨.error uvwasiEFAULT, []⟩
  else
    let cmdName := spawnReq pReq mem .appCmdNamePointer
    if L.validateAppStrAddr mem cmdName = false then
      ⟨.error uvwasiEFAULT, [.req .appCmdNamePointer]⟩
    else
      let named := [.req .appCmdNamePointer, .req .appCmdNamePointer, .cmdName]
      match whitelist (appStr L mem cmdName) with
      | none => ⟨.error uvwasiENOENT, named⟩
      | some hostCmd =>
          let argvPointer := spawnReq pReq mem .appArgvPointer
          let argc := spawnReq pReq mem .argc
          let ranged := named ++ [.req .appArgvPointer, .req .argc]
          if L.validateAppAddr argvPointer (validatedSize argvPointerSize argc) then
            let loop := argvLoop L mem argvPointer 0 argc.toNat
            ⟨loop.result.map fun args => ⟨hostCmd, args⟩,
              ranged ++ [.req .argc, .req .appArgvPointer] ++ loop.log⟩
          else ⟨.error uvwasiEFAULT, ranged⟩

end Argv

end Process
end WamrExt
