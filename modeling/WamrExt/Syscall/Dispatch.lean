import WamrExt.Wamr.LinearMemory

/-!
# The dispatcher of the ext syscalls

A guest calls `syscall(id, argc, argv)`, where `argv` is an array of 16-byte slots in its own
linear memory. `wasiExtSyscall` checks the range of the array and looks the class of the id
up. `invoke` walks over the signature of the class. For every pointer character it
translates the offset in the slot, and it stores the native pointer in the same slot, over
the offset (`translate`). `doSyscall` then reads the arguments of the handler from the
slots.

The array stays in guest memory between the two, so the memory may change in between. The
argument `window` of `invoke` is that change: the writes of the other threads of the guest.

Two facts about the loop carry the results on it. The slots it fills and the point where it
stops do not depend on where the memory is mapped (`translate_base_free`), and the memory
it leaves holds the native pointers in those slots and is unchanged elsewhere
(`Translates.mem_in`, `Translates.mem_out`).
-/

set_option autoImplicit false

namespace WamrExt
namespace Syscall

open ByteMemory Wamr

/-! ## Signatures and classes -/

/-- The characters of an argument signature: `*`, `$`, `i` and `I`. -/
inductive ArgChar where
  | pointer
  | str
  | i32
  | i64
  deriving DecidableEq

/-- The characters whose slot holds an offset to translate. -/
def ArgChar.translated : ArgChar → Bool
  | .pointer | .str => true
  | .i32 | .i64 => false

/-- The classes `ExtSyscall_P`, `ExtSyscall_U32` and so on. -/
inductive ExtSyscall where
  | P
  | U32
  | S
  | P_U32
  | P_U64
  | P_P
  | U32_P
  | U32_U32
  | P_P_P
  | S_P_P
  | P_P_U64
  | U32_P_P
  | U32_U32_U32_P
  | U32_P_P_U32
  | U32_U32_P_P
  | U32_U32_U32_P_P
  | U32_U32_U32_P_U32
  deriving DecidableEq

/-- `m_argSig`, as the constructor of each class sets it. -/
def ExtSyscall.argSig : ExtSyscall → List ArgChar
  | .P => [.pointer]
  | .U32 => [.i32]
  | .S => [.str]
  | .P_U32 => [.pointer, .i32]
  | .P_U64 => [.pointer, .i64]
  | .P_P => [.pointer, .pointer]
  | .U32_P => [.i32, .pointer]
  | .U32_U32 => [.i32, .i32]
  | .P_P_P => [.pointer, .pointer, .pointer]
  | .S_P_P => [.str, .pointer, .pointer]
  | .P_P_U64 => [.pointer, .pointer, .i64]
  | .U32_P_P => [.i32, .pointer, .pointer]
  | .U32_U32_U32_P => [.i32, .i32, .i32, .pointer]
  | .U32_P_P_U32 => [.i32, .pointer, .pointer, .i32]
  | .U32_U32_P_P => [.i32, .i32, .pointer, .pointer]
  | .U32_U32_U32_P_P => [.i32, .i32, .i32, .pointer, .pointer]
  | .U32_U32_U32_P_U32 => [.i32, .i32, .i32, .pointer, .i32]

/-- `gExtSyscallMap`, as the `Init` functions fill it. -/
def extSyscallTable : List (UInt32 × ExtSyscall) :=
  [(1, .S_P_P), -- WamrExtSysctl
   (130, .S), -- PthreadSetName
   (200, .U32_P), -- FDStatVFS
   (201, .U32_P), -- FDFcntl
   (300, .U32_U32_U32_P), -- SockOpen
   (301, .U32_P), -- SockBind
   (302, .U32_P), -- SockConnect
   (303, .U32_U32), -- SockListen
   (304, .U32_P_P), -- SockAccept
   (305, .U32_P), -- SockGetSockName
   (306, .U32_P), -- SockGetPeerName
   (307, .U32_U32), -- SockShutdown
   (308, .U32_U32_U32_P_P), -- SockGetOpt
   (309, .U32_U32_U32_P_U32), -- SockSetOpt
   (310, .U32_P_P_U32), -- SockRecvMsg
   (311, .U32_P_P_U32), -- SockSendMsg
   (312, .P), -- SockGetIfAddrs
   (400, .P), -- ProcessSpawn
   (401, .U32_U32_P_P)] -- ProcessWaitPID

/-! ## The argument array -/

/-- `sizeof(wamr_ext_syscall_arg)`. -/
def argSize : ℕ := 16

/-- The offset of a slot of the array. -/
def slot (argv i : ℕ) : ℕ := argv + argSize * i

/-- The member `app_pointer` of a slot. -/
def appPointer (mem : Memory) (argv i : ℕ) : UInt32 := UInt32.ofNat (load mem (slot argv i) 4)

/-- The member `native_pointer` of a slot, on a 64-bit host. -/
def nativePointer (mem : Memory) (argv i : ℕ) : ℕ := load mem (slot argv i) 8

/-- One argument of a handler, as `DoSyscall` takes it from the array. -/
inductive SlotRead where
  | u32 (i : ℕ)
  | u64 (i : ℕ)
  | native (i : ℕ)

/-- The arguments each `DoSyscall` passes to its handler after the exec env. -/
def ExtSyscall.slotReads : ExtSyscall → List SlotRead
  | .P => [.native 0]
  | .U32 => [.u32 0]
  | .S => [.native 0]
  | .P_U32 => [.native 0, .u32 1]
  | .P_U64 => [.native 0, .u64 1]
  | .P_P => [.native 0, .native 1]
  | .U32_P => [.u32 0, .native 1]
  | .U32_U32 => [.u32 0, .u32 1]
  | .P_P_P => [.native 0, .native 1, .native 2]
  | .S_P_P => [.native 0, .native 1, .native 2]
  | .P_P_U64 => [.native 0, .native 1, .u64 2]
  | .U32_P_P => [.u32 0, .native 1, .native 2]
  | .U32_U32_U32_P => [.u32 0, .u32 1, .u32 2, .native 3]
  | .U32_P_P_U32 => [.u32 0, .native 1, .native 2, .u32 3]
  | .U32_U32_P_P => [.u32 0, .u32 1, .native 2, .native 3]
  | .U32_U32_U32_P_P => [.u32 0, .u32 1, .u32 2, .native 3, .native 4]
  | .U32_U32_U32_P_U32 => [.u32 0, .u32 1, .u32 2, .native 3, .u32 4]

/-- An argument of a handler. -/
inductive Arg where
  | u32 (v : ℕ)
  | u64 (v : ℕ)
  | pointer (p : ℕ)
  deriving DecidableEq

def SlotRead.arg (mem : Memory) (argv : ℕ) : SlotRead → Arg
  | .u32 i => .u32 (load mem (slot argv i) 4)
  | .u64 i => .u64 (load mem (slot argv i) 8)
  | .native i => .pointer (nativePointer mem argv i)

/-- `DoSyscall`: the arguments the handler is called with. -/
def ExtSyscall.doSyscall (cls : ExtSyscall) (mem : Memory) (argv : ℕ) : List Arg :=
  cls.slotReads.map (SlotRead.arg mem argv)

/-- The pointer arguments among the arguments of a handler. -/
def pointerArgs (args : List Arg) : List ℕ :=
  args.filterMap fun
    | .pointer p => some p
    | _ => none

/-! ## Invoke -/

/-- What the translation loop leaves: the memory, the slots that now hold a native pointer
with the offset each of them held, and whether it reached the end of the signature. -/
structure Translation where
  mem : Memory
  stored : List (ℕ × UInt32)
  complete : Bool

/-- The translation loop of `Invoke` from slot `i` on. -/
def translate (L : LinearMemory) (argv : ℕ) : List ArgChar → ℕ → Memory → Translation
  | [], _, mem => ⟨mem, [], true⟩
  | c :: rest, i, mem =>
      if c.translated then
        match L.addrAppToNative (appPointer mem argv i) with
        | none => ⟨mem, [], false⟩
        | some p =>
            if c = .str ∧ L.validateAppStrAddr mem (appPointer mem argv i) = false then
              ⟨mem, [], false⟩
            else
              let later := translate L argv rest (i + 1) (store mem (slot argv i) 8 p)
              { later with stored := (i, appPointer mem argv i) :: later.stored }
      else translate L argv rest (i + 1) mem

/-- `UVWASI_EFAULT`, `UVWASI_ENOSYS`, and the `EFAULT` of the host. -/
def uvwasiEFAULT : Int := 21

def uvwasiENOSYS : Int := 52

def hostEFAULT : Int := 14

/-- A handler: its result and the memory it leaves. -/
abbrev Handler := List Arg → Memory → Int × Memory

/-- `ExtSyscallBase::Invoke` in a release build, where `assert` does nothing. -/
def invoke (L : LinearMemory) (cls : ExtSyscall) (argc : UInt32) (argv : ℕ)
    (window : Memory → Memory) (handler : Handler) (mem : Memory) : Int × Memory :=
  if argc.toNat < cls.argSig.length then (uvwasiENOSYS, mem)
  else
    let t := translate L argv cls.argSig 0 mem
    if t.complete then handler (cls.doSyscall (window t.mem) argv) (window t.mem)
    else (uvwasiEFAULT, t.mem)

/-- `WasiExtSyscall`. The size it validates is the low half of the 64-bit product. -/
def wasiExtSyscall (L : LinearMemory) (syscallID argc : UInt32) (argv : ℕ)
    (window : Memory → Memory) (handler : UInt32 → Handler) (mem : Memory) : Int × Memory :=
  if 0 < argc ∧ (L.native argv = 0 ∨
      L.validateNativeAddr (L.native argv) (UInt32.ofNat (argSize * argc.toNat)) = false) then
    (hostEFAULT, mem)
  else
    match extSyscallTable.lookup syscallID with
    | none => (uvwasiENOSYS, mem)
    | some cls => invoke L cls argc argv window (handler syscallID) mem

end Syscall
end WamrExt
