import WamrExt.Base.Errno
import WamrExt.Lib.SharedProgram
import WamrExt.Socket.PollOneOff

/-!
# `SockGetOpt`

A guest asks for a socket option with a buffer and a word that holds the length of it. The
handler validates the buffer with that length, gets the option from the host, cuts the length
to the size of the option, and copies as many bytes as the word then says.

The word is guest memory, so each of its three reads and the write is an access of its own.
-/

set_option autoImplicit false

namespace WamrExt
namespace Socket

open ByteMemory SharedProgram Wamr Base

/-- `UVWASI_ENOPROTOOPT` -/
def uvwasiENOPROTOOPT : UInt16 := 50

/-! ## Options -/

/-- An option of the host, with its level. -/
inductive HostSockOpt where
  | reuseAddr
  | type
  | error
  | dontRoute
  | broadcast
  | sndBuf
  | rcvBuf
  | keepAlive
  | linger
  | reusePort
  | rcvTimeO
  | sndTimeO
  | tcpNoDelay
  | ipTTL
  | ipv6V6Only
  | ipv6UnicastHops
  deriving DecidableEq, Repr

/-- `HostSockOptValType` -/
inductive HostSockOptValType where
  | uint32
  | timeval
  | linger
  deriving DecidableEq, Repr

/-- The options of the level `__WASI_SOL_SOCKET`. -/
def solSocketOpts : List (ℤ × HostSockOpt) :=
  [(2, .reuseAddr), (3, .type), (4, .error), (5, .dontRoute), (6, .broadcast), (7, .sndBuf),
    (8, .rcvBuf), (9, .keepAlive), (13, .linger), (15, .reusePort), (20, .rcvTimeO),
    (21, .sndTimeO)]

/-- The options of the levels `__WASI_IPPROTO_TCP`, `__WASI_SOL_IP` and `__WASI_SOL_IPV6`. -/
def ipprotoTcpOpts : List (ℤ × HostSockOpt) := [(1, .tcpNoDelay)]
def solIpOpts : List (ℤ × HostSockOpt) := [(2, .ipTTL)]
def solIpv6Opts : List (ℤ × HostSockOpt) := [(26, .ipv6V6Only), (16, .ipv6UnicastHops)]

/-- The type of the value of an option. -/
def HostSockOpt.valType : HostSockOpt → HostSockOptValType
  | .linger => .linger
  | .rcvTimeO | .sndTimeO => .timeval
  | _ => .uint32

/-- `MapWasiSockOpt` -/
def mapWasiSockOpt (appLevel appOptName : ℤ) : Except UInt16 HostSockOpt :=
  let known (opts : List (ℤ × HostSockOpt)) : Except UInt16 HostSockOpt :=
    match opts.lookup appOptName with
    | some opt => .ok opt
    | none => .error uvwasiEINVAL
  if appLevel = 0x7fffffff then known solSocketOpts
  else if appLevel = 6 then known ipprotoTcpOpts
  else if appLevel = 0 then known solIpOpts
  else if appLevel = 41 then known solIpv6Opts
  else .error uvwasiENOPROTOOPT

/-- The union `hostSockOptVal`, as the number of its 16 bytes. -/
abbrev HostSockOptVal := ℕ

namespace HostSockOptVal

variable (val : HostSockOptVal)

def intVal : ℕ := val % 2 ^ 32
def tvSec : ℕ := val % 2 ^ 64
def tvUsec : ℕ := val / 2 ^ 64 % 2 ^ 64
def lOnoff : ℕ := val % 2 ^ 32
def lLinger : ℕ := val / 2 ^ 32 % 2 ^ 32

end HostSockOptVal

/-- The value for the guest, with its size: a number of 32 bits, `wasi_timeval_t` or
`wasi_linger_t`. The host error of the option `SO_ERROR` is converted. -/
def appOptVal (opt : HostSockOpt) (val : HostSockOptVal) : ℕ × ℕ :=
  match opt.valType with
  | .timeval => (16, val.tvSec + 2 ^ 64 * val.tvUsec)
  | .linger => (8, val.lOnoff + 2 ^ 32 * val.lLinger)
  | .uint32 => (4, if opt = .error then convertErrnoToWasiErrno val.intVal else val.intVal)

/-! ## The call -/

/-- The arguments, with the offsets of the two pointers in the linear memory. -/
structure GetOptArgs where
  appSockFD : ℤ
  appLevel : ℤ
  appOptName : ℤ
  appOptBuf : ℕ
  appOptBufLen : ℕ

/-- What the handler reads or writes: the word with the length, and the first bytes of the
buffer. -/
inductive OptAccess where
  | optBufLen
  | optBuf (len : ℕ)
  deriving DecidableEq, Repr

/-- The offset and the length of an access. -/
def GetOptArgs.place (args : GetOptArgs) : OptAccess → ℕ × ℕ
  | .optBufLen => (args.appOptBufLen, 4)
  | .optBuf len => (args.appOptBuf, len)

/-- What the host answers: the socket behind an app descriptor with its WASI type, and the value
of an option. A copy that is longer than the value goes on with what lies above it on the host
stack. -/
structure OptAnswers where
  getHostSocketFD : ℤ → Except UInt16 (ℤ × ℕ)
  getsockopt : ℤ → HostSockOpt → Except UInt16 HostSockOptVal
  hostStack : ℕ

/-- A copy to the buffer of the guest: the length that was validated, the size of the value, and
the number of bytes. -/
structure OptCopy where
  validated : ℕ
  source : ℕ
  count : ℕ
  deriving DecidableEq, Repr

/-- The result of a call, with the copy it made. -/
structure GetOptResult where
  err : UInt16
  copied : Option OptCopy := none
  deriving DecidableEq, Repr

section Call

variable (L : LinearMemory) (args : GetOptArgs) (answers : OptAnswers)

/-- The length is cut to the size of the value. -/
def clampOptBufLen (size : ℕ) : Prog OptAccess Unit := do
  let len ← .get .optBufLen
  if size < len then .put .optBufLen size else pure ()

/-- The end of `SockGetOpt`: the length is cut, and the value is copied with the length that the
word then holds. -/
def copyOptVal (validated size value : ℕ) : Prog OptAccess GetOptResult := do
  clampOptBufLen size
  let count ← .get .optBufLen
  .put (.optBuf count) (value + 256 ^ size * answers.hostStack)
  pure { err := 0, copied := some ⟨validated, size, count⟩ }

/-- `SockGetOpt` -/
def sockGetOpt : Prog OptAccess GetOptResult := do
  let validated ← .get .optBufLen
  if L.validateNativeAddr (L.native args.appOptBuf) (UInt32.ofNat validated) = false then
    pure { err := uvwasiEFAULT }
  else
    match mapWasiSockOpt args.appLevel args.appOptName with
    | .error err => pure { err := err }
    | .ok opt =>
        match answers.getHostSocketFD args.appSockFD with
        | .error err => pure { err := err }
        | .ok (hostSockFD, wasiSockType) =>
            match if opt = .type then .ok wasiSockType else answers.getsockopt hostSockFD opt with
            | .error err => pure { err := err }
            | .ok val =>
                copyOptVal answers validated (appOptVal opt val).1 (appOptVal opt val).2

end Call

end Socket
end WamrExt
