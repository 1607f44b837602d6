import WamrExt.Socket.MsgIOVec

/-!
# `SockOpen` and `SockAccept`

Both get a new socket from the host, insert it into the descriptor table of the guest, and store
the descriptor of the guest through a pointer argument. `SockAccept` stores the address of the
peer as well. Nothing is stored unless the socket is in the table.
-/

set_option autoImplicit false

namespace WamrExt
namespace Socket

open ByteMemory SharedProgram Wamr

/-- `UVWASI_EPROTONOSUPPORT` -/
def uvwasiEPROTONOSUPPORT : UInt16 := 66

/-- `UVWASI_FILETYPE_SOCKET_DGRAM` and `UVWASI_FILETYPE_SOCKET_STREAM` -/
def uvwasiFiletypeSocketDgram : UInt32 := 5
def uvwasiFiletypeSocketStream : UInt32 := 6

/-- `__WASI_SOCK_NONBLOCK` and `__WASI_SOCK_CLOEXEC` -/
def wasiSockNonblock : UInt32 := 0x4000
def wasiSockCloexec : UInt32 := 0x2000

/-- `AF_INET` and `AF_INET6` -/
inductive HostDomain where
  | inet
  | inet6
  deriving DecidableEq, Repr

/-- `SOCK_DGRAM`, which goes with `IPPROTO_UDP` only, and `SOCK_STREAM` with `IPPROTO_TCP`. -/
inductive HostSockType where
  | dgram
  | stream
  deriving DecidableEq, Repr

/-- The WASI file type of a socket, and the only protocol of it. -/
def HostSockType.wasiSockType : HostSockType → UInt32
  | .dgram => uvwasiFiletypeSocketDgram
  | .stream => uvwasiFiletypeSocketStream

def HostSockType.protocol : HostSockType → ℤ
  | .dgram => 17
  | .stream => 6

/-- What `SockOpen` asks of the host: the arguments of `socket`, and the flags it adds to the new
descriptor. -/
structure SocketRequest where
  domain : HostDomain
  hostSockType : HostSockType
  nonblock : Bool
  cloexec : Bool
  deriving DecidableEq, Repr

/-- A flag of the guest is set. -/
def hasFlags (type flags : UInt32) : Bool := type &&& flags == flags

/-- `SockOpen` up to the call of `socket`. A protocol of 0 stands for that of the type. -/
def socketRequest (domain : ℤ) (type : UInt32) (protocol : ℤ) : Except UInt16 SocketRequest := do
  let hostDomain ←
    if domain = 1 then .ok .inet
    else if domain = 2 then .ok .inet6
    else .error uvwasiEAFNOSUPPORT
  let hostSockType ←
    if hasFlags type uvwasiFiletypeSocketDgram then .ok .dgram
    else if hasFlags type uvwasiFiletypeSocketStream then .ok .stream
    else .error uvwasiEINVAL
  if protocol = 0 ∨ protocol = hostSockType.protocol then
    .ok ⟨hostDomain, hostSockType, hasFlags type wasiSockNonblock, hasFlags type wasiSockCloexec⟩
  else .error uvwasiEPROTONOSUPPORT

/-! ## `SockOpen` -/

/-- The arguments, with the offset of the pointer in the linear memory. -/
structure OpenArgs where
  domain : ℤ
  type : UInt32
  protocol : ℤ
  outAppSockFD : ℕ

/-- What `SockOpen` writes. -/
inductive OpenAccess where
  | outAppSockFD
  deriving DecidableEq, Repr

def OpenArgs.place (args : OpenArgs) : OpenAccess → ℕ × ℕ
  | .outAppSockFD => (args.outAppSockFD, 4)

/-- What the host answers: the new socket, and the descriptor of the guest it gets in the table,
for a host socket and its WASI type. -/
structure OpenAnswers where
  socket : SocketRequest → Except UInt16 ℤ
  insertFD : ℤ → UInt32 → Except UInt16 ℕ

/-- `InsertNewHostSocketFDToTable`, with the access to its reference argument. -/
def insertNewHostSocketFDToTable {A : Type} (insertFD : ℤ → UInt32 → Except UInt16 ℕ)
    (hostSockFD : ℤ) (wasiSockType : UInt32) (outAppSockFD : A) : Prog A UInt16 :=
  match insertFD hostSockFD wasiSockType with
  | .error err => pure err
  | .ok id => do
      .put outAppSockFD id
      pure 0

/-- `SockOpen` -/
def sockOpen (L : LinearMemory) (args : OpenArgs) (answers : OpenAnswers) :
    Prog OpenAccess UInt16 :=
  if L.native args.outAppSockFD = 0 then pure uvwasiEINVAL
  else
    match socketRequest args.domain args.type args.protocol with
    | .error err => pure err
    | .ok request =>
        match answers.socket request with
        | .error err => pure err
        | .ok newHostSockFD =>
            insertNewHostSocketFDToTable answers.insertFD newHostSockFD
              request.hostSockType.wasiSockType .outAppSockFD

/-! ## `SockAccept` -/

/-- The arguments, with the offsets of the two pointers in the linear memory. -/
structure AcceptArgs where
  appSockFD : ℤ
  outNewAppSockFD : ℕ
  pAppSockAddr : ℕ

/-- What `SockAccept` writes: the descriptor, and a field of the address of the peer. -/
inductive AcceptAccess where
  | outNewAppSockFD
  | addr (off len : ℕ)
  deriving DecidableEq, Repr

def AcceptArgs.place (args : AcceptArgs) : AcceptAccess → ℕ × ℕ
  | .outNewAppSockFD => (args.outNewAppSockFD, 4)
  | .addr off len => (args.pAppSockAddr + off, len)

/-- `sizeof(wamr_wasi_sockaddr_storage)` -/
def sockAddrSize : ℕ := 64

/-- What the host answers: the socket behind an app descriptor with its WASI type, the accepted
socket with the address of its peer, and the descriptor of the guest. -/
structure AcceptAnswers where
  getHostSocketFD : ℤ → Except UInt16 (ℤ × UInt32)
  accept : ℤ → Except UInt16 (ℤ × HostSockAddr)
  insertFD : ℤ → UInt32 → Except UInt16 ℕ

/-- `SockAccept` -/
def sockAccept (L : LinearMemory) (args : AcceptArgs) (answers : AcceptAnswers) :
    Prog AcceptAccess UInt16 :=
  if L.validateNativeAddr (L.native args.pAppSockAddr) (UInt32.ofNat sockAddrSize) = false then
    pure uvwasiEFAULT
  else
    match answers.getHostSocketFD args.appSockFD with
    | .error err => pure err
    | .ok (hostSockFD, appWasiSockType) =>
        match answers.accept hostSockFD with
        | .error err => pure err
        | .ok (newHostSockFD, hostSockAddr) => do
            let err ← insertNewHostSocketFDToTable answers.insertFD newHostSockFD appWasiSockType
              .outNewAppSockFD
            if err = 0 then
              putSockAddr .addr (hostSockAddrToWasiAppSockAddr 0 (some hostSockAddr))
              pure err
            else pure err

end Socket
end WamrExt
