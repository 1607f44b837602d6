import WamrExt.Lib.ScatterGather
import WamrExt.Socket.IfReportFill
import WamrExt.Socket.MsgEntries
import WamrExt.Socket.SharedReads

/-!
# What a message carries

`SockSendMsg` hands the buffers of a guest to the host as they are, and `SockRecvMsg` lets the
host store in them. Nothing is copied on the way, so what is sent are the bytes of the buffers of
the sender, and they come into the buffers of the receiver (`message_arrives`): in order, as many
as the host says, with their number, the flags and the address in the header, and nothing else
changed. The buffers of the receiver must not overlap each other or the header. The handler does
not ask for that, and the host stores into them one after the other.

The host is free to refuse a call, as it does when there are too many buffers, and to take or store
less than it could. What is taken from it is what a number means that `sendmsg` returns
(`takenBytes`), and where `recvmsg` stores (`Delivers`).

The host stores between the reads and the writes of the handler. So the handler is two programs
here, the one before `recvmsg` and the one after it (`sockRecvMsg_eq`).
-/

set_option autoImplicit false

namespace WamrExt
namespace Socket

open ByteMemory SharedProgram Wamr ScatterGather ByteRecord SockAddrBytes

/-! ## The parts of the handler -/

section Parts

variable (L : LinearMemory) (args : MsgArgs) (getHostSocketFD : ℤ → Except UInt16 ℤ)

/-- The validations at the start of both handlers. -/
def validations : Prog MsgAccess (Except UInt16 Unit) :=
  if args.appIOVecCount = 0 then pure (.error uvwasiEINVAL)
  else if ¬ MsgValidated L args then pure (.error uvwasiEFAULT)
  else do
    if ← validateIOVecs L 0 args.appIOVecCount.toNat then pure (.ok ())
    else pure (.error uvwasiEFAULT)

/-- The arguments of `recvmsg`. -/
structure RecvCall where
  hostSockFD : ℤ
  msg : HostMsgHdr
  flags : UInt32

/-- `SockRecvMsg` up to the call of `recvmsg`. -/
def recvMsgAsk : Prog MsgAccess (Except UInt16 RecvCall) := do
  match ← validations L args with
  | .error err => pure (.error err)
  | .ok () =>
      let inputFlags ← .get .inputFlags
      match getHostSocketFD args.appSockFD with
      | .error err => pure (.error err)
      | .ok hostSockFD =>
          let iov ← buildIOVecs L 0 args.appIOVecCount.toNat
          pure (.ok ⟨hostSockFD, ⟨some none, iov, args.appIOVecCount⟩,
            mapWasiSockMsgFlags (UInt32.ofNat inputFlags)⟩)

/-- `SockRecvMsg` after the call of `recvmsg`. -/
def recvMsgReturn (msg : HostMsgHdr) :
    Except UInt16 (UInt64 × Option HostSockAddr) → Prog MsgAccess MsgResult
  | .error err => pure { err := err, passed := some msg }
  | .ok (ret, hostSockAddr) => do
      .put .retDataSize ret.toNat
      .put .retFlags 0
      putSockAddr .addr (match hostSockAddr with
        | none => []
        | some addr => hostSockAddrToWasiAppSockAddr 0 (some addr))
      pure { err := 0, passed := some msg }

/-- The handlers as what comes after the validations. -/
theorem validateMsg_eq_validations (rest : Prog MsgAccess MsgResult) :
    validateMsg L args rest = validations L args >>= fun validated =>
      match validated with
      | .error err => pure { err := err }
      | .ok () => rest := by
  rw [validateMsg, validations]
  split
  next => rfl
  next =>
    split
    next => rfl
    next =>
      rw [Prog.bind_assoc]
      congr 1
      funext valid
      cases valid <;> rfl

/-- The handler is its two parts with the call between them. -/
theorem sockRecvMsg_eq (answers : MsgAnswers) :
    sockRecvMsg L args answers =
      recvMsgAsk L args answers.getHostSocketFD >>= fun asked =>
        match asked with
        | .error err => pure { err := err }
        | .ok call =>
            recvMsgReturn call.msg (answers.recvmsg call.hostSockFD call.msg call.flags) := by
  rw [sockRecvMsg, validateMsg_eq_validations, recvMsgAsk, Prog.bind_assoc]
  congr 1
  funext validated
  cases validated with
  | error err => rfl
  | ok _ =>
      dsimp only
      rw [recvMsg, Prog.bind_assoc]
      congr 1
      funext inputFlags
      cases answers.getHostSocketFD args.appSockFD with
      | error err => rfl
      | ok hostSockFD =>
          dsimp only
          rw [Prog.bind_assoc]
          congr 1

end Parts

/-! ## The host -/

/-- A message that a socket has, with the address it comes from. -/
structure Message where
  data : List UInt8
  source : Option HostSockAddr

/-- What a successful `recvmsg` gives: the number it returns, the address that it stores, and the
linear memory after it. -/
structure RecvReturn where
  ret : UInt64
  source : Option HostSockAddr
  mem : Memory

/-- `recvmsg`, with the linear memory that the buffers lie in. -/
abbrev RecvMsg := ℤ → HostMsgHdr → UInt32 → Memory → Except UInt16 RecvReturn

section Transfer

variable (L : LinearMemory) (args : MsgArgs)

/-- Where a buffer of the host lies in the linear memory. -/
def appBuffer (entry : HostIOVec) : Buffer := (entry.iovBase - L.memoryData, entry.iovLen)

/-- The buffers of a header of the host. -/
def appBuffers (msg : HostMsgHdr) : List Buffer := msg.msgIov.map (appBuffer L)

/-- The bytes that `sendmsg` has taken when it returns a number: as many, from the start of the
buffers. -/
def takenBytes (msg : HostMsgHdr) (ret : UInt64) (mem : Memory) : List UInt8 :=
  (gather mem (appBuffers L msg)).take ret.toNat

/-- What is documented of `recvmsg` on a socket that has a message. A call that succeeds has stored
as many bytes as it returns, from the start of the message, in the buffers one after the other, and
nothing else. It may fail, and it may store less than there is. -/
def Delivers (recvmsg : RecvMsg) (message : Message) : Prop :=
  ∀ hostSockFD msg flags mem r, recvmsg hostSockFD msg flags mem = .ok r →
    r.ret.toNat ≤ min message.data.length (capacity (appBuffers L msg)) ∧
      r.source = message.source ∧
        r.mem = scatter mem (appBuffers L msg) (message.data.take r.ret.toNat)

/-- A call of `SockRecvMsg`. -/
def receive (getHostSocketFD : ℤ → Except UInt16 ℤ) (recvmsg : RecvMsg) (mem : Memory) :
    Run MsgAccess MsgResult :=
  let asked := alone args.place (recvMsgAsk L args getHostSocketFD) mem
  match asked.result with
  | .error err => ⟨{ err := err }, asked.mem, asked.log⟩
  | .ok call =>
      match recvmsg call.hostSockFD call.msg call.flags asked.mem with
      | .error err =>
          (alone args.place (recvMsgReturn call.msg (.error err)) asked.mem).afterAll asked.log
      | .ok r =>
          (alone args.place (recvMsgReturn call.msg (.ok (r.ret, r.source))) r.mem).afterAll
            asked.log

/-- The buffers that the guest gives, as the array has them. -/
def MsgArgs.buffers (mem : Memory) : List Buffer :=
  (List.range args.appIOVecCount.toNat).map fun i =>
    (valueAt args.place mem (.appBufOffset i), valueAt args.place mem (.bufLen i))

/-- The header as a buffer. -/
def MsgArgs.header : Buffer := (args.pAppMsgHdr, msgHdrSize)

end Transfer

/-! ## The buffers of the guest and of the host -/

section Buffers

variable {L : LinearMemory} {args : MsgArgs} {mem : Memory}

theorem EntryAccepted.bound {i : ℕ} (accepted : EntryAccepted L args mem i) :
    valueAt args.place mem (.appBufOffset i) + valueAt args.place mem (.bufLen i) ≤
      L.memoryDataSize := by
  obtain ⟨_, valid⟩ := accepted
  have offset : valueAt args.place mem (.appBufOffset i) < 2 ^ 32 := load_lt _ _ 4
  have length : valueAt args.place mem (.bufLen i) < 2 ^ 32 := load_lt _ _ 4
  rwa [LinearMemory.validateAppAddr, decide_eq_true_iff, Inside,
    UInt32.toNat_ofNat_of_lt' offset, UInt32.toNat_ofNat_of_lt' length] at valid

/-- An accepted entry is translated to the bytes that it names. -/
theorem EntryAccepted.alike {i : ℕ} (accepted : EntryAccepted L args mem i) :
    Alike (appBuffer L (hostEntry L args mem i))
      (valueAt args.place mem (.appBufOffset i), valueAt args.place mem (.bufLen i)) := by
  have bound := accepted.bound
  have offset : valueAt args.place mem (.appBufOffset i) < 2 ^ 32 := load_lt _ _ 4
  have length : valueAt args.place mem (.bufLen i) < 2 ^ 32 := load_lt _ _ 4
  refine ⟨UInt32.toNat_ofNat_of_lt' length, fun filled => ?_⟩
  rw [appBuffer, hostEntry, hostIOVec, L.addrAppToNative_eq, UInt32.toNat_ofNat_of_lt' offset,
    if_pos (by omega), Option.getD_some, Nat.add_sub_cancel_left]

/-- The buffers that are passed on have the bytes of the buffers of the guest. -/
theorem buffers_alike (accepted : ∀ i < args.appIOVecCount.toNat, EntryAccepted L args mem i) :
    List.Forall₂ Alike
      (((List.range args.appIOVecCount.toNat).map (hostEntry L args mem)).map (appBuffer L))
      (args.buffers mem) := by
  rw [MsgArgs.buffers, List.map_map, List.forall₂_map_left_iff, List.forall₂_map_right_iff,
    List.forall₂_same]
  exact fun i member => (accepted i (List.mem_range.mp member)).alike

variable (L args mem) in
/-- What gets past the validations has been accepted, and nothing has been written. -/
theorem alone_validations :
    (alone args.place (validations L args) mem).mem = mem ∧
      ((alone args.place (validations L args) mem).result = .ok () →
        ∀ i < args.appIOVecCount.toNat, EntryAccepted L args mem i) := by
  have loop : Validates L args mem 0 args.appIOVecCount.toNat _ := validateIOVecs_validates _ 0
  obtain ⟨mem_eq, result, _⟩ := loop
  simp only [Nat.zero_le, Nat.zero_add, true_imp_iff] at result
  rw [validations]
  split
  next => exact ⟨rfl, fun reached => nomatch reached⟩
  next =>
    split
    next => exact ⟨rfl, fun reached => nomatch reached⟩
    next =>
      rw [alone_bind, mem_eq]
      split
      next valid => exact ⟨rfl, fun _ => result.mp valid⟩
      next => exact ⟨rfl, fun reached => nomatch reached⟩

/-- What is known when a call gets to `recvmsg`. -/
structure Asked (L : LinearMemory) (args : MsgArgs) (mem : Memory) (call : RecvCall) : Prop where
  accepted : ∀ i < args.appIOVecCount.toNat, EntryAccepted L args mem i
  msgIov : call.msg.msgIov = (List.range args.appIOVecCount.toNat).map (hostEntry L args mem)

variable (L args mem) in
theorem alone_recvMsgAsk (getHostSocketFD : ℤ → Except UInt16 ℤ) :
    (alone args.place (recvMsgAsk L args getHostSocketFD) mem).mem = mem ∧
      ∀ call, (alone args.place (recvMsgAsk L args getHostSocketFD) mem).result = .ok call →
        Asked L args mem call := by
  obtain ⟨kept, accepted⟩ := alone_validations L args mem
  rw [recvMsgAsk, alone_bind, kept]
  dsimp only [Run.afterAll_mem, Run.afterAll_result]
  split
  next => exact ⟨rfl, fun call reached => nomatch reached⟩
  next valid =>
    rw [alone_get]
    cases getHostSocketFD args.appSockFD with
    | error err => exact ⟨rfl, fun call reached => nomatch reached⟩
    | ok hostSockFD =>
        dsimp only
        rw [alone_bind]
        refine ⟨(alone_buildIOVecs _ 0).1, ?_⟩
        rintro call ⟨⟩
        exact ⟨accepted valid, built_entries⟩

end Buffers

/-! ## What is sent -/

section Sender

variable {L : LinearMemory} {args : MsgArgs} {mem : Memory}

/-- What a guest sends are the bytes of its buffers, one after the other. -/
theorem takenBytes_eq {answers : MsgAnswers} {sent : HostMsgHdr} (ret : UInt64)
    (passed : (alone args.place (sockSendMsg L args answers) mem).result.passed = some sent) :
    takenBytes L sent ret mem = (gather mem (args.buffers mem)).take ret.toNat := by
  obtain ⟨own, accepted⟩ := validateMsg_passed passed
  obtain ⟨_, msgIov⟩ := sendMsg_passes answers sent own
  rw [takenBytes, appBuffers, msgIov, gather_alike (buffers_alike accepted)]

/-- A call has sent as many bytes as the header says, and has written nothing but that. -/
structure Sent (args : MsgArgs) (ret : UInt64) (before : Memory) (run : Run MsgAccess MsgResult) :
    Prop where
  err : run.result.err = 0
  retDataSize : valueAt args.place run.mem .retDataSize = ret.toNat
  frame : ∀ x, x < args.pAppMsgHdr + 72 ∨ args.pAppMsgHdr + 80 ≤ x → run.mem x = before x

/-- Where `sendmsg` returns a number for the header that is passed on, it is written for the
guest. -/
def SendReturns (answers : MsgAnswers) (args : MsgArgs) (mem : Memory)
    (run : Run MsgAccess MsgResult) : Prop :=
  ∀ sent ret, run.result.passed = some sent →
    (∀ hostSockFD flags, answers.sendmsg hostSockFD sent flags = .ok ret) →
      run.result.err = 0 ∧ run.mem = stored args.place mem .retDataSize ret.toNat

theorem sendMsgTo_returns (answers : MsgAnswers) (hostSockFD : ℤ) (flags : UInt32)
    (hostSockAddr : Option HostSockAddr) :
    SendReturns answers args mem
      (alone args.place (sendMsgTo L args answers hostSockFD flags hostSockAddr) mem) := by
  intro sent ret passed returned
  rw [sendMsgTo, alone_bind, (alone_buildIOVecs _ 0).1] at passed ⊢
  dsimp only [Run.afterAll_result, Run.afterAll_mem] at passed ⊢
  rw [alone_get] at passed ⊢
  dsimp only [Run.after_result, Run.after_mem] at passed ⊢
  split at passed
  next err refused =>
    cases passed
    rw [returned] at refused
    cases refused
  next taken accepted =>
    cases passed
    rw [returned] at accepted
    cases accepted
    exact ⟨rfl, rfl⟩

theorem sendMsg_returns (answers : MsgAnswers) :
    SendReturns answers args mem (alone args.place (sendMsg L args answers) mem) := by
  rw [sendMsg, alone_get]
  cases answers.getHostSocketFD args.appSockFD with
  | error err =>
      intro sent ret passed
      cases passed
  | ok hostSockFD =>
      dsimp only
      rw [alone_get]
      split
      next => exact sendMsgTo_returns answers hostSockFD _ none
      next =>
        rw [alone_bind, wasiAppSockAddr_readsOnly.mem_eq]
        split
        next =>
          intro sent ret passed
          cases passed
        next addr _ => exact sendMsgTo_returns answers hostSockFD _ (some addr)

theorem validateMsg_returns {answers : MsgAnswers} {rest : Prog MsgAccess MsgResult}
    (returns : SendReturns answers args mem (alone args.place rest mem)) :
    SendReturns answers args mem (alone args.place (validateMsg L args rest) mem) := by
  rw [validateMsg_eq_validations, alone_bind, (alone_validations L args mem).1]
  cases (alone args.place (validations L args) mem).result with
  | error err =>
      intro sent ret passed
      cases passed
  | ok _ => exact returns

/-- A call that gets to `sendmsg` tells the guest what that returns. -/
theorem sockSendMsg_sent {answers : MsgAnswers} {sent : HostMsgHdr} {ret : UInt64}
    (passed : (alone args.place (sockSendMsg L args answers) mem).result.passed = some sent)
    (returned : ∀ hostSockFD flags, answers.sendmsg hostSockFD sent flags = .ok ret) :
    Sent args ret mem (alone args.place (sockSendMsg L args answers) mem) := by
  obtain ⟨err, mem_eq⟩ := validateMsg_returns (sendMsg_returns answers) sent ret passed returned
  refine ⟨err, ?_, fun x out => ?_⟩
  · rw [sockSendMsg, mem_eq]
    exact load_store.trans (Nat.mod_eq_of_lt ret.toNat_lt)
  · rw [sockSendMsg, mem_eq]
    exact store_out out

end Sender

/-! ## What is received -/

section Receiver

variable {args : MsgArgs} {mem before : Memory}

/-- The address in a header, after the one of the host is set in it. -/
def sourceAddr (source : Option HostSockAddr) (app : WasiSockAddr) : WasiSockAddr :=
  match source with
  | none => app
  | some addr => setSockAddr (some addr) app

/-- A byte is in what `SockRecvMsg` writes to the header. -/
def MsgArgs.Returns (args : MsgArgs) (x : ℕ) : Prop :=
  args.pAppMsgHdr ≤ x ∧ x < args.pAppMsgHdr + 32 ∨
    args.pAppMsgHdr + 68 ≤ x ∧ x < args.pAppMsgHdr + msgHdrSize

/-- The header tells of a message. -/
structure HeaderTells (args : MsgArgs) (ret : ℕ) (source : Option HostSockAddr)
    (before after : Memory) : Prop where
  retDataSize : valueAt args.place after .retDataSize = ret
  retFlags : valueAt args.place after .retFlags = 0
  addr : ∀ app : WasiSockAddr, Shows before args.pAppMsgHdr app →
    Shows after args.pAppMsgHdr (sourceAddr source app)
  frame : ∀ x, ¬ args.Returns x → after x = before x

/-- The numbers that are written to the header, before the address. -/
def numbersStored (args : MsgArgs) (ret : UInt64) (mem : Memory) : Memory :=
  stored args.place (stored args.place mem .retDataSize ret.toNat) .retFlags 0

theorem headerTells_numbers (ret : UInt64) :
    HeaderTells args ret.toNat none mem (numbersStored args ret mem) := by
  have small : ret.toNat < 256 ^ 8 := ret.toNat_lt
  refine ⟨?_, load_store, fun app shows => ?_, fun x out => ?_⟩
  · have apart : args.pAppMsgHdr + 72 + 8 ≤ args.pAppMsgHdr + 68 ∨
        args.pAppMsgHdr + 68 + 4 ≤ args.pAppMsgHdr + 72 := by omega
    exact (load_store_disjoint apart).trans (load_store.trans (Nat.mod_eq_of_lt small))
  · refine shows.congr fun a low high => ?_
    exact (store_out (by simp only [MsgArgs.place]; omega)).trans
      (store_out (by simp only [MsgArgs.place]; omega))
  · rw [MsgArgs.Returns, msgHdrSize] at out
    exact (store_out (by simp only [MsgArgs.place]; omega)).trans
      (store_out (by simp only [MsgArgs.place]; omega))

/-- The address is written beside the numbers. -/
theorem HeaderTells.withAddr {ret : ℕ} {after : Memory}
    (tells : HeaderTells args ret none before after) (addr : HostSockAddr) :
    HeaderTells args ret (some addr) before
      (alone args.place (putSockAddr .addr (hostSockAddrToWasiAppSockAddr 0 (some addr)))
        after).mem := by
  have placed : ∀ off len, args.place (.addr off len) = (args.pAppMsgHdr + off, len) :=
    fun _ _ => rfl
  have outside : ∀ x, x < args.pAppMsgHdr ∨ args.pAppMsgHdr + 32 ≤ x →
      (alone args.place (putSockAddr .addr (hostSockAddrToWasiAppSockAddr 0 (some addr)))
        after).mem x = after x := by
    intro x out
    rw [alone_putSockAddr_mem placed]
    refine storeWrites_out (fun w member => ?_) out
    obtain ⟨own, inOwn, rfl⟩ := List.mem_map.mp member
    obtain ⟨lower, upper⟩ := sockAddr_within 0 _ own inOwn
    exact ⟨Nat.le_add_right _ _, by simp only; omega⟩
  refine ⟨?_, ?_, fun app shows => alone_putSockAddr placed (tells.addr app shows) _, ?_⟩
  · refine (valueAt_congr fun x own => outside x (.inr ?_)).trans tells.retDataSize
    have low : args.pAppMsgHdr + 72 ≤ x := own.1
    omega
  · refine (valueAt_congr fun x own => outside x (.inr ?_)).trans tells.retFlags
    have low : args.pAppMsgHdr + 68 ≤ x := own.1
    omega
  · intro x out
    rw [outside x, tells.frame x out]
    rw [MsgArgs.Returns] at out
    omega

variable (args mem) in
/-- What the handler does after `recvmsg` has returned. -/
theorem alone_recvMsgReturn (msg : HostMsgHdr) (ret : UInt64) (source : Option HostSockAddr) :
    (alone args.place (recvMsgReturn msg (.ok (ret, source))) mem).result.err = 0 ∧
      HeaderTells args ret.toNat source mem
        (alone args.place (recvMsgReturn msg (.ok (ret, source))) mem).mem := by
  have numbers : HeaderTells args ret.toNat none mem _ := headerTells_numbers ret
  cases source with
  | none => exact ⟨rfl, numbers⟩
  | some addr =>
      have run : alone args.place (recvMsgReturn msg (.ok (ret, some addr))) mem =
          ((alone args.place (putSockAddr .addr (hostSockAddrToWasiAppSockAddr 0 (some addr)) >>=
            fun _ => pure { err := 0, passed := some msg })
            (numbersStored args ret mem)).after .retFlags).after .retDataSize := rfl
      rw [run, alone_bind]
      exact ⟨rfl, numbers.withAddr addr⟩

/-- Bytes of a message have come into the buffers of a call, and the header tells of them. -/
structure Arrived (args : MsgArgs) (message : Message) (ret : ℕ) (before : Memory)
    (run : Run MsgAccess MsgResult) : Prop where
  err : run.result.err = 0
  bound : ret ≤ min message.data.length (capacity (args.buffers before))
  /-- The buffers hold the start of the message, and what they held after it. -/
  data : gather run.mem (args.buffers before) =
    message.data.take ret ++ (gather before (args.buffers before)).drop ret
  retDataSize : valueAt args.place run.mem .retDataSize = ret
  retFlags : valueAt args.place run.mem .retFlags = 0
  addr : ∀ app : WasiSockAddr, Shows before args.pAppMsgHdr app →
    Shows run.mem args.pAppMsgHdr (sourceAddr message.source app)
  frame : ∀ x, (∀ b ∈ args.buffers before, x < b.1 ∨ b.1 + b.2 ≤ x) → ¬ args.Returns x →
    run.mem x = before x

/-- A call for which `recvmsg` succeeds receives what that has stored of a message, if its buffers
do not overlap each other or the header. -/
theorem receive_arrives {L : LinearMemory} {getHostSocketFD : ℤ → Except UInt16 ℤ}
    {recvmsg : RecvMsg} {message : Message} {call : RecvCall} {r : RecvReturn}
    (delivers : Delivers L recvmsg message)
    (asks : (alone args.place (recvMsgAsk L args getHostSocketFD) mem).result = .ok call)
    (received : recvmsg call.hostSockFD call.msg call.flags mem = .ok r)
    (apart : (args.header :: args.buffers mem).Pairwise ScatterGather.Apart) :
    Arrived args message r.ret.toNat mem (receive L args getHostSocketFD recvmsg mem) := by
  obtain ⟨kept, asked⟩ := alone_recvMsgAsk L args mem getHostSocketFD
  obtain ⟨accepted, msgIov⟩ := asked call asks
  obtain ⟨clear, buffersApart⟩ := List.pairwise_cons.mp apart
  have alike : List.Forall₂ Alike (appBuffers L call.msg) (args.buffers mem) := by
    rw [appBuffers, msgIov]
    exact buffers_alike accepted
  obtain ⟨count, source, stores⟩ := delivers _ _ _ _ _ received
  rw [capacity_alike alike] at count
  rw [scatter_alike alike] at stores
  have run : receive L args getHostSocketFD recvmsg mem =
      (alone args.place (recvMsgReturn call.msg (.ok (r.ret, r.source))) r.mem).afterAll
        (alone args.place (recvMsgAsk L args getHostSocketFD) mem).log := by
    rw [receive, asks, kept]
    dsimp only
    rw [received]
  obtain ⟨err, retDataSize, retFlags, addr, frame⟩ :=
    alone_recvMsgReturn args r.mem call.msg r.ret r.source
  have part : (message.data.take r.ret.toNat).length = r.ret.toNat :=
    List.length_take_of_le (count.trans (min_le_left _ _))
  rw [run]
  refine ⟨err, count, ?_, retDataSize, retFlags, fun app shows => ?_, ?_⟩
  · have filled : gather (scatter mem (args.buffers mem) (message.data.take r.ret.toNat))
        (args.buffers mem) = _ := gather_scatter buffersApart
    rw [part, List.take_take, min_eq_right (count.trans (min_le_right _ _)), ← stores] at filled
    rw [← filled]
    refine gather_congr fun b member x low high => frame x ?_
    have separate := clear b member
    simp only [ScatterGather.Apart, MsgArgs.header, MsgArgs.Returns, msgHdrSize] at separate ⊢
    omega
  · rw [← source]
    refine addr app (shows.congr fun a low high => ?_)
    rw [stores]
    refine scatter_out fun b member => ?_
    have separate := clear b member
    simp only [ScatterGather.Apart, MsgArgs.header, msgHdrSize] at separate
    omega
  · intro x out quiet
    refine (frame x quiet).trans ?_
    rw [stores]
    exact scatter_out out

end Receiver

/-! ## From one guest to another -/

/-- A call that receives gives the result of the handler, for a host that answers so. -/
theorem receive_result {L : LinearMemory} {args : MsgArgs} {answers : MsgAnswers}
    {recvmsg : RecvMsg} (mem : Memory)
    (returns : ∀ hostSockFD msg flags, answers.recvmsg hostSockFD msg flags =
      (recvmsg hostSockFD msg flags mem).map fun r => (r.ret, r.source)) :
    (receive L args answers.getHostSocketFD recvmsg mem).result =
        (alone args.place (sockRecvMsg L args answers) mem).result ∧
      (receive L args answers.getHostSocketFD recvmsg mem).log =
        (alone args.place (sockRecvMsg L args answers) mem).log := by
  have same : ∀ msg ret source (one two : Memory),
      (alone args.place (recvMsgReturn msg (.ok (ret, source))) one).result =
          (alone args.place (recvMsgReturn msg (.ok (ret, source))) two).result ∧
        (alone args.place (recvMsgReturn msg (.ok (ret, source))) one).log =
          (alone args.place (recvMsgReturn msg (.ok (ret, source))) two).log := by
    intro msg ret source one two
    match source with
    | none | some (.inet _ _) | some (.inet6 _ _ _ _) | some (.packet _ _) | some .other =>
        exact ⟨rfl, rfl⟩
  rw [sockRecvMsg_eq, alone_bind, receive, (alone_recvMsgAsk L args mem _).1]
  cases (alone args.place (recvMsgAsk L args answers.getHostSocketFD) mem).result with
  | error err => exact ⟨rfl, (List.append_nil _).symm⟩
  | ok call =>
      dsimp only
      rw [returns]
      cases recvmsg call.hostSockFD call.msg call.flags mem with
      | error err => exact ⟨rfl, rfl⟩
      | ok r =>
          obtain ⟨result, log⟩ := same call.msg r.ret r.source r.mem mem
          exact ⟨result, congrArg (_ ++ ·) log⟩

/-- The number of buffers that the host takes, and `UVWASI_EMSGSIZE`. -/
def iovMax : ℕ := 1024
def uvwasiEMSGSIZE : UInt16 := 35

/-- A host that takes and stores whole messages, as far as the buffers take them. -/
def wholeSends (L : LinearMemory) : MsgAnswers where
  getHostSocketFD _ := .ok 5
  recvmsg _ _ _ := .error uvwasiEBADF
  sendmsg _ msg _ :=
    if msg.msgIov.length ≤ iovMax then .ok (UInt64.ofNat (capacity (appBuffers L msg)))
    else .error uvwasiEMSGSIZE

def wholeReceives (L : LinearMemory) (message : Message) : RecvMsg := fun _ msg _ mem =>
  let n := min message.data.length (capacity (appBuffers L msg))
  if msg.msgIov.length ≤ iovMax ∧ n < 2 ^ 63 then
    .ok ⟨UInt64.ofNat n, message.source, scatter mem (appBuffers L msg) (message.data.take n)⟩
  else .error uvwasiEMSGSIZE

theorem wholeReceives_delivers (L : LinearMemory) (message : Message) :
    Delivers L (wholeReceives L message) message := by
  intro hostSockFD msg flags mem r received
  simp only [wholeReceives] at received
  split at received
  next accepted =>
    cases received
    have count : (UInt64.ofNat (min message.data.length
        (capacity (appBuffers L msg)))).toNat = _ :=
      UInt64.toNat_ofNat_of_lt' (accepted.2.trans (by decide))
    simp only [count, le_refl, true_and]
  next => cases received

/-- A message of three bytes in two buffers, and one byte and eight bytes to receive it. -/
def sendTwo : MsgArgs := ⟨3, 0, 0x100, 2⟩
def sendTwoMemory : Memory :=
  scatter (fun _ => 0) [(0x100, 16), (0x200, 2), (0x210, 1)]
    ([0, 2, 0, 0, 2, 0, 0, 0, 0x10, 2, 0, 0, 1, 0, 0, 0] ++ [97, 98, 99])
def recvTwo : MsgArgs := ⟨4, 0, 0x100, 2⟩
def recvTwoMemory : Memory :=
  scatter (fun _ => 0) [(0x100, 16)] [0, 2, 0, 0, 1, 0, 0, 0, 0x10, 2, 0, 0, 8, 0, 0, 0]

def threeBytes : Message := ⟨[97, 98, 99], some (.inet #v[127, 0, 0, 1] #v[0x1f, 0x90])⟩
def sentTwo : HostMsgHdr := ⟨none, [⟨0x10200, 2⟩, ⟨0x10210, 1⟩], 2⟩
def recvTwoCall : RecvCall := ⟨6, ⟨some none, [⟨0x10200, 1⟩, ⟨0x10210, 8⟩], 2⟩, 0⟩

end Socket
end WamrExt
