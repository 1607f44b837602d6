import WamrExt.Lib.SharedProgram
import WamrExt.Socket.IfAddrs

/-!
# `SockRecvMsg` and `SockSendMsg`

A guest gives a message header and an array of buffers, the iovec entries. Both handlers
validate the array, go over its entries to validate the buffers, and then go over them once
more to build the array of the host.

The header and the array stay in guest memory, which other threads of the guest write too. So
the handlers are programs on shared memory, in which every read of a field is an access of its
own. What `recvmsg` stores in the buffers is left out: after it the handler only writes.
-/

set_option autoImplicit false

namespace WamrExt
namespace Socket

open ByteMemory SharedProgram Wamr

/-! ## Layout -/

/-- `sizeof(wamr_wasi_msghdr)` -/
def msgHdrSize : ℕ := 80

/-- `sizeof(wasi_iovec_t)` -/
def iovecSize : ℕ := 8

/-- The arguments, with the offsets of the two pointers in the linear memory. -/
structure MsgArgs where
  appSockFD : ℤ
  pAppMsgHdr : ℕ
  pAppIOVec : ℕ
  appIOVecCount : UInt32

/-- What the handlers read or write: a field of the socket address in the header, the other
fields of the header, and the two fields of an entry. -/
inductive MsgAccess where
  | addr (off len : ℕ)
  | inputFlags
  | retFlags
  | retDataSize
  | appBufOffset (i : ℕ)
  | bufLen (i : ℕ)
  deriving DecidableEq, Repr

/-- The offset of an entry. -/
def MsgArgs.iovec (args : MsgArgs) (i : ℕ) : ℕ := args.pAppIOVec + iovecSize * i

/-- The offset and the length of a field. -/
def MsgArgs.place (args : MsgArgs) : MsgAccess → ℕ × ℕ
  | .addr off len => (args.pAppMsgHdr + off, len)
  | .inputFlags => (args.pAppMsgHdr + 64, 4)
  | .retFlags => (args.pAppMsgHdr + 68, 4)
  | .retDataSize => (args.pAppMsgHdr + 72, 8)
  | .appBufOffset i => (args.iovec i, 4)
  | .bufLen i => (args.iovec i + 4, 4)

/-- `UVWASI_EAFNOSUPPORT` -/
def uvwasiEAFNOSUPPORT : UInt16 := 5

/-! ## The host -/

/-- `iovec` of the host. A null pointer is 0. -/
structure HostIOVec where
  iovBase : ℕ
  iovLen : ℕ
  deriving DecidableEq, Repr

/-- `msghdr` of the host. The name of a message to send is the local `hostSockAddr`, which holds
no address while its family is `AF_UNSPEC`. -/
structure HostMsgHdr where
  msgName : Option (Option HostSockAddr)
  msgIov : List HostIOVec
  msgIovLen : UInt32

/-- What the host answers: the socket behind an app descriptor, and the results of `recvmsg`,
with the address it stores, and of `sendmsg`. -/
structure MsgAnswers where
  getHostSocketFD : ℤ → Except UInt16 ℤ
  recvmsg : ℤ → HostMsgHdr → UInt32 → Except UInt16 (UInt64 × Option HostSockAddr)
  sendmsg : ℤ → HostMsgHdr → UInt32 → Except UInt16 UInt64

/-- The result of a call, with the header it passed to `recvmsg` or `sendmsg`. -/
structure MsgResult where
  err : UInt16
  passed : Option HostMsgHdr := none

/-! ## Parts of the handlers -/

/-- `MapWasiSockMsgFlags`: `UVWASI_SOCK_RECV_PEEK` and `_WAITALL` to `MSG_PEEK` and
`MSG_WAITALL`. -/
def mapWasiSockMsgFlags (appSockMsgFlags : UInt32) : UInt32 :=
  (if appSockMsgFlags &&& 1 ≠ 0 then 0x2 else 0) |||
    (if appSockMsgFlags &&& 2 ≠ 0 then 0x100 else 0)

/-- The lowest bytes of a number. -/
def lowBytes (n v : ℕ) : Vector UInt8 n := Vector.ofFn fun k => byteAt v k

/-- `WasiAppSockAddrToHostSockAddr`, on the address in the header. -/
def wasiAppSockAddrToHostSockAddr : Prog MsgAccess (Except UInt16 HostSockAddr) := do
  let family ← .get (.addr 0 2)
  if family = wasiAfInet then
    let addr ← .get (.addr 4 4)
    let port ← .get (.addr 8 2)
    pure (.ok (.inet (lowBytes 4 addr) (lowBytes 2 port)))
  else
    let family ← .get (.addr 0 2)
    if family = wasiAfInet6 then
      let addr ← .get (.addr 4 16)
      let port ← .get (.addr 20 2)
      let flowinfo ← .get (.addr 24 4)
      let scopeId ← .get (.addr 28 4)
      pure (.ok (.inet6 (lowBytes 16 addr) (lowBytes 2 port) (UInt32.ofNat flowinfo)
        (UInt32.ofNat scopeId)))
    else pure (.error uvwasiEAFNOSUPPORT)

/-- The number of a list of bytes, the lowest byte first. -/
def leNumber : List UInt8 → ℕ
  | [] => 0
  | byte :: rest => byte.toNat + 256 * leNumber rest

/-- The writes of `HostSockAddrToWasiAppSockAddr` to an address of the guest, the fields of which
are accesses. -/
def putSockAddr {A : Type} (field : ℕ → ℕ → A) : List HostWrite → Prog A Unit
  | [] => pure ()
  | w :: rest => do
      .put (field w.ptr w.bytes.length) (leNumber w.bytes)
      putSockAddr field rest

section Handlers

variable (L : LinearMemory)

/-- The loop that validates the entries, from entry `i` on. It gives `false` where the handler
returns `UVWASI_EFAULT`. -/
def validateIOVecs : ℕ → ℕ → Prog MsgAccess Bool
  | _, 0 => pure true
  | i, n + 1 => do
      let first ← .get (.appBufOffset i)
      if first = 0 then pure false
      else
        let offset ← .get (.appBufOffset i)
        let len ← .get (.bufLen i)
        if L.validateAppAddr (UInt32.ofNat offset) (UInt32.ofNat len) then
          validateIOVecs (i + 1) n
        else pure false

/-- The host entry for the fields of an entry. -/
def hostIOVec (offset len : ℕ) : HostIOVec :=
  ⟨(L.addrAppToNative (UInt32.ofNat offset)).getD 0, (UInt32.ofNat len).toNat⟩

/-- The loop that builds the array of the host, from entry `i` on. -/
def buildIOVecs : ℕ → ℕ → Prog MsgAccess (List HostIOVec)
  | _, 0 => pure []
  | i, n + 1 => do
      let offset ← .get (.appBufOffset i)
      let len ← .get (.bufLen i)
      let rest ← buildIOVecs (i + 1) n
      pure (hostIOVec L offset len :: rest)

/-- The header and the array pass their validation, which takes a size in 32 bits. -/
def MsgValidated (args : MsgArgs) : Prop :=
  L.validateNativeAddr (L.native args.pAppMsgHdr) (UInt32.ofNat msgHdrSize) = true ∧
    L.validateNativeAddr (L.native args.pAppIOVec)
      (validatedSize iovecSize args.appIOVecCount) = true

instance (args : MsgArgs) : Decidable (MsgValidated L args) :=
  inferInstanceAs (Decidable (_ ∧ _))

variable (args : MsgArgs) (answers : MsgAnswers)

/-- `SockRecvMsg` after the validations. -/
def recvMsg : Prog MsgAccess MsgResult := do
  let inputFlags ← .get .inputFlags
  match answers.getHostSocketFD args.appSockFD with
  | .error err => pure { err := err }
  | .ok hostSockFD =>
      let iov ← buildIOVecs L 0 args.appIOVecCount.toNat
      let msg : HostMsgHdr := ⟨some none, iov, args.appIOVecCount⟩
      match answers.recvmsg hostSockFD msg (mapWasiSockMsgFlags (UInt32.ofNat inputFlags)) with
      | .error err => pure { err := err, passed := some msg }
      | .ok (ret, hostSockAddr) =>
          .put .retDataSize ret.toNat
          .put .retFlags 0
          putSockAddr .addr (match hostSockAddr with
            | none => []
            | some addr => hostSockAddrToWasiAppSockAddr 0 (some addr))
          pure { err := 0, passed := some msg }

/-- `SockSendMsg` from the address on. -/
def sendMsgTo (hostSockFD : ℤ) (flags : UInt32) (hostSockAddr : Option HostSockAddr) :
    Prog MsgAccess MsgResult := do
  let iov ← buildIOVecs L 0 args.appIOVecCount.toNat
  let family ← .get (.addr 0 2)
  let msg : HostMsgHdr :=
    ⟨if family = wasiAfUnspec then none else some hostSockAddr, iov, args.appIOVecCount⟩
  match answers.sendmsg hostSockFD msg flags with
  | .error err => pure { err := err, passed := some msg }
  | .ok ret =>
      .put .retDataSize ret.toNat
      pure { err := 0, passed := some msg }

/-- `SockSendMsg` after the validations. -/
def sendMsg : Prog MsgAccess MsgResult := do
  let inputFlags ← .get .inputFlags
  match answers.getHostSocketFD args.appSockFD with
  | .error err => pure { err := err }
  | .ok hostSockFD =>
      let flags := mapWasiSockMsgFlags (UInt32.ofNat inputFlags)
      let family ← .get (.addr 0 2)
      if family = wasiAfUnspec then sendMsgTo L args answers hostSockFD flags none
      else
        match ← wasiAppSockAddrToHostSockAddr with
        | .error err => pure { err := err }
        | .ok addr => sendMsgTo L args answers hostSockFD flags (some addr)

/-- The validations at the start of both handlers, and the rest of the handler after them. -/
def validateMsg (rest : Prog MsgAccess MsgResult) : Prog MsgAccess MsgResult :=
  if args.appIOVecCount = 0 then pure { err := uvwasiEINVAL }
  else if ¬ MsgValidated L args then pure { err := uvwasiEFAULT }
  else do
    if ← validateIOVecs L 0 args.appIOVecCount.toNat then rest
    else pure { err := uvwasiEFAULT }

/-- `SockRecvMsg` -/
def sockRecvMsg : Prog MsgAccess MsgResult := validateMsg L args (recvMsg L args answers)

/-- `SockSendMsg` -/
def sockSendMsg : Prog MsgAccess MsgResult := validateMsg L args (sendMsg L args answers)

end Handlers

end Socket
end WamrExt
