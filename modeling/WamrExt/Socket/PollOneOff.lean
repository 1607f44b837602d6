import WamrExt.Wamr.LinearMemory

/-!
# `poll_oneoff`

A guest passes an array of subscriptions, an array for the events, and a word for their
number, all in its linear memory. `wasiPollOneOff` validates the two arrays, clears the
events, looks through the subscriptions once for the least timeout and the descriptors to
poll, and then sleeps or polls and reports events.

Nothing is copied from guest memory first. So the function is modelled on the memory
itself: every field it reads or writes is an `Access`, and the log of a call holds its
accesses in order. The native pointers it gets are given by their offsets in the linear
memory.
-/

set_option autoImplicit false

namespace WamrExt
namespace Socket

open ByteMemory Wamr

/-! ## Layout -/

/-- `sizeof(uvwasi_subscription_t)` -/
def subscriptionSize : ℕ := 48

/-- `sizeof(uvwasi_event_t)` -/
def eventSize : ℕ := 32

/-- The fields of a subscription. Those of the two variants of its union overlap. -/
inductive SubField where
  | userdata
  | type
  | clockId
  | timeout
  | precision
  | flags
  | fd
  deriving DecidableEq, Repr

/-- The offset of a field in a subscription, and its size. -/
def SubField.place : SubField → ℕ × ℕ
  | .userdata => (0, 8)
  | .type => (8, 1)
  | .clockId => (16, 4)
  | .timeout => (24, 8)
  | .precision => (32, 8)
  | .flags => (40, 2)
  | .fd => (16, 4)

/-- The fields of an event that are written one by one. -/
inductive EventField where
  | userdata
  | error
  | type
  | flags
  deriving DecidableEq, Repr

/-- The offset of a field in an event, and its size. -/
def EventField.place : EventField → ℕ × ℕ
  | .userdata => (0, 8)
  | .error => (8, 2)
  | .type => (10, 1)
  | .flags => (24, 2)

/-- `UVWASI_EVENTTYPE_CLOCK`, `_FD_READ` and `_FD_WRITE` -/
def eventtypeClock : ℕ := 0
def eventtypeFdRead : ℕ := 1
def eventtypeFdWrite : ℕ := 2

/-- `UVWASI_SUBSCRIPTION_CLOCK_ABSTIME` -/
def subscriptionClockAbstime : ℕ := 1

/-- `UVWASI_EVENT_FD_READWRITE_HANGUP` -/
def eventFdReadwriteHangup : ℕ := 1

/-- `UVWASI_EFAULT`, `_EINVAL`, `_EBADF` and `_EPIPE` -/
def uvwasiEFAULT : UInt16 := 21
def uvwasiEINVAL : UInt16 := 28
def uvwasiEBADF : UInt16 := 8
def uvwasiEPIPE : UInt16 := 64

/-- `POLLHUP`, `POLLNVAL`, `POLLRDNORM` and `POLLWRNORM` of the host. -/
def pollHUP : UInt16 := 0x010
def pollNVAL : UInt16 := 0x020
def pollRDNORM : UInt16 := 0x040
def pollWRNORM : UInt16 := 0x100

/-- `INVALID_SOCKET` -/
def invalidSocket : ℤ := -1

/-! ## Accesses -/

/-- The arguments, with the offsets of the three pointers in the linear memory. -/
structure PollArgs where
  pAppSub : ℕ
  pAppOutEvent : ℕ
  appSubCount : UInt32
  pAppNEvents : ℕ
  deriving DecidableEq, Repr

/-- What the function reads or writes: a field of a subscription, the whole event array when
it is cleared, a field of an event, and the number of events. -/
inductive Access where
  | sub (i : ℕ) (field : SubField)
  | clearEvents
  | event (i : ℕ) (field : EventField)
  | nEvents
  deriving DecidableEq, Repr

/-- The offset of an access in the linear memory. -/
def PollArgs.offset (args : PollArgs) : Access → ℕ
  | .sub i field => args.pAppSub + subscriptionSize * i + field.place.1
  | .clearEvents => args.pAppOutEvent
  | .event i field => args.pAppOutEvent + eventSize * i + field.place.1
  | .nEvents => args.pAppNEvents

/-- The size of an access in bytes. -/
def PollArgs.length (args : PollArgs) : Access → ℕ
  | .sub _ field => field.place.2
  | .clearEvents => eventSize * args.appSubCount.toNat
  | .event _ field => field.place.2
  | .nEvents => 4

/-- What the function asks the host to wait for. -/
inductive HostWait where
  | sleepFor (nanoseconds : ℤ)
  | poll (fds : ℕ) (milliseconds : ℕ)
  deriving DecidableEq, Repr

/-- The memory during a call, the accesses made, and the waits. -/
structure PollState where
  mem : Memory
  log : List Access := []
  waits : List HostWait := []

namespace PollState

/-- The accesses are made, and change nothing. -/
def touch (s : PollState) (reads : List Access) : PollState :=
  { s with log := s.log ++ reads }

/-- The value of a field. -/
def value (s : PollState) (args : PollArgs) (a : Access) : ℕ :=
  load s.mem (args.offset a) (args.length a)

/-- A field is written. -/
def write (s : PollState) (args : PollArgs) (a : Access) (v : ℕ) : PollState :=
  { s with mem := store s.mem (args.offset a) (args.length a) v, log := s.log ++ [a] }

/-- `memset` of the event array. -/
def clear (s : PollState) (args : PollArgs) : PollState :=
  { s with
    mem := fun a =>
      if args.offset .clearEvents ≤ a ∧
          a < args.offset .clearEvents + args.length .clearEvents then 0 else s.mem a
    log := s.log ++ [.clearEvents] }

/-- A field of a subscription is copied to an event. -/
def copy (s : PollState) (args : PollArgs) (source target : Access) : PollState :=
  (s.touch [source]).write args target (s.value args source)

end PollState

/-! ## The look through the subscriptions -/

/-- A `pollfd`. -/
structure PollFd where
  fd : ℤ
  events : UInt16
  revents : UInt16 := 0
  deriving DecidableEq, Repr

/-- What the host answers: the time of a clock when a subscription is looked at, the host
descriptor of an app descriptor that is in the table with the right to poll, the result of
`poll` with the `revents` of its entries, and the error after a failed call. -/
structure PollAnswers where
  clockTimeGet : ℕ → UInt32 → UInt64 → Option UInt64
  hostFD : UInt32 → Option ℤ
  poll : List PollFd → ℕ → ℤ × List UInt16
  lastSocketError : UInt16

/-- The locals of the loop over the subscriptions. -/
structure Scan where
  state : PollState
  timeoutNanoSec : UInt64 := 0xffffffffffffffff
  pTimeoutSub : Option ℕ := none
  bSleepOnly : Bool := true
  pollArr : List PollFd := []

section Scan

variable (args : PollArgs) (answers : PollAnswers)

/-- The timeout of a clock subscription, relative to now. -/
def clockTimeout (s : PollState) (i : ℕ) : PollState × UInt64 :=
  let timeout := UInt64.ofNat (s.value args (.sub i .timeout))
  if s.value args (.sub i .flags) &&& subscriptionClockAbstime = 0 then
    (s.touch [.sub i .flags, .sub i .timeout], timeout)
  else
    let clockId := UInt32.ofNat (s.value args (.sub i .clockId))
    let precision := UInt64.ofNat (s.value args (.sub i .precision))
    let asked := s.touch [.sub i .flags, .sub i .clockId, .sub i .precision]
    match answers.clockTimeGet i clockId precision with
    | none => (asked, 0xffffffffffffffff)
    | some curTs =>
        (asked.touch [.sub i .timeout], if curTs < timeout then timeout - curTs else 0)

/-- The part of the loop body for clock subscriptions. -/
def scanClock (s : Scan) (i : ℕ) : Scan :=
  let read := s.state.touch [.sub i .type]
  if read.value args (.sub i .type) = eventtypeClock then
    let timeout := clockTimeout args answers read i
    if timeout.2 < s.timeoutNanoSec then
      { s with state := timeout.1, timeoutNanoSec := timeout.2, pTimeoutSub := some i }
    else { s with state := timeout.1 }
  else { s with state := read }

/-- The part of the loop body that fills the entry for `poll`. -/
def scanFd (s : Scan) (i : ℕ) : Scan :=
  let type := s.state.value args (.sub i .type)
  if type = eventtypeFdWrite ∨ type = eventtypeFdRead then
    let read := s.state.touch [.sub i .fd]
    match answers.hostFD (UInt32.ofNat (s.state.value args (.sub i .fd))) with
    | some fd =>
        { s with
          state := read
          bSleepOnly := false
          pollArr := s.pollArr ++
            [⟨fd, if type = eventtypeFdWrite then pollWRNORM else pollRDNORM, 0⟩] }
    | none => { s with state := read, pollArr := s.pollArr ++ [⟨invalidSocket, 0, 0⟩] }
  else { s with pollArr := s.pollArr ++ [⟨invalidSocket, 0, 0⟩] }

/-- The loop over the subscriptions. -/
def scanSubs (s : PollState) (count : ℕ) : Scan :=
  (List.range count).foldl (fun scan i => scanFd args answers (scanClock args answers scan i) i)
    { state := s }

end Scan

/-! ## Events -/

section Events

variable (args : PollArgs)

/-- `pAppOutEvent[(*pAppNEvents)++]`: the index, and the state with the number counted up. -/
def nextEvent (s : PollState) : ℕ × PollState :=
  let n := s.value args .nEvents
  (n, (s.touch [.nEvents]).write args .nEvents ((n + 1) % 2 ^ 32))

/-- The event at an index gets an error, and the user data and the type of a subscription. -/
def fillEvent (s : PollState) (n j : ℕ) (error : UInt16) : PollState :=
  ((s.write args (.event n .error) error.toNat).copy args
    (.sub j .userdata) (.event n .userdata)).copy args (.sub j .type) (.event n .type)

/-- An event for a subscription is appended. -/
def reportEvent (s : PollState) (j : ℕ) (error : UInt16) (hangup : Bool) : PollState :=
  let next := nextEvent args s
  let filled := fillEvent args next.2 next.1 j error
  if hangup then filled.write args (.event next.1 .flags) eventFdReadwriteHangup else filled

/-- The body of the loop over the results of `poll`. -/
def reportFd (pollArr : List PollFd) (s : PollState) (i : ℕ) : PollState :=
  let read := s.touch [.sub i .type]
  let type := s.value args (.sub i .type)
  let cur := pollArr.getD i ⟨invalidSocket, 0, 0⟩
  if type = eventtypeFdWrite ∨ type = eventtypeFdRead then
    if cur.fd = invalidSocket ∨ cur.revents &&& pollNVAL ≠ 0 then
      reportEvent args read i uvwasiEBADF false
    else if cur.revents &&& (pollRDNORM ||| pollWRNORM) ≠ 0 then
      reportEvent args read i 0 (cur.revents &&& pollHUP ≠ 0)
    else if cur.revents &&& pollHUP ≠ 0 then
      reportEvent args read i uvwasiEPIPE true
    else read
  else read

/-- The end of a call that polls no descriptor. -/
def sleepOnly (scan : Scan) : UInt16 × PollState :=
  match scan.pTimeoutSub with
  | none => (uvwasiEINVAL, scan.state)
  | some j =>
      let waited := if scan.timeoutNanoSec > 0 then
          -- the duration counts in signed 64 bits
          { scan.state with
            waits := scan.state.waits ++ [.sleepFor scan.timeoutNanoSec.toInt64.toInt] }
        else scan.state
      (0, (fillEvent args waited 0 j 0).write args .nEvents 1)

/-- `poll` stores the `revents` of its entries. -/
def setRevents (pollArr : List PollFd) (revents : List UInt16) : List PollFd :=
  pollArr.zipIdx.map fun entry => { entry.1 with revents := revents.getD entry.2 0 }

/-- The end of a call that polls descriptors. -/
def pollFds (answers : PollAnswers) (scan : Scan) : UInt16 × PollState :=
  let pollTimeout := min (scan.timeoutNanoSec / 1000 / 1000).toNat (2 ^ 31 - 1)
  let polled := answers.poll scan.pollArr pollTimeout
  let waited := { scan.state with
    waits := scan.state.waits ++ [.poll scan.pollArr.length pollTimeout] }
  if polled.1 = -1 then (answers.lastSocketError, waited)
  else if polled.1 = 0 then
    match scan.pTimeoutSub with
    | none => (0, waited)
    | some j => (0, reportEvent args waited j 0 false)
  else if polled.1 > 0 then
    (0, (List.range args.appSubCount.toNat).foldl
      (reportFd args (setRevents scan.pollArr polled.2)) waited)
  else (0, waited)

end Events

/-! ## The call -/

/-- The size of an array passed to a validation, which takes 32 bits. -/
def validatedSize (elementSize : ℕ) (count : UInt32) : UInt32 :=
  UInt32.ofNat (elementSize * count.toNat)

/-- Both arrays pass their validation. -/
def Validated (L : LinearMemory) (args : PollArgs) : Prop :=
  L.validateNativeAddr (L.native args.pAppSub)
      (validatedSize subscriptionSize args.appSubCount) = true ∧
    L.validateNativeAddr (L.native args.pAppOutEvent)
      (validatedSize eventSize args.appSubCount) = true

instance (L : LinearMemory) (args : PollArgs) : Decidable (Validated L args) :=
  inferInstanceAs (Decidable (_ ∧ _))

/-- `WasiPollOneOff` -/
def wasiPollOneOff (L : LinearMemory) (args : PollArgs) (answers : PollAnswers)
    (mem : Memory) : UInt16 × PollState :=
  let start : PollState := { mem := mem }
  if ¬ Validated L args then (uvwasiEFAULT, start)
  else
    let counted := start.write args .nEvents 0
    if args.appSubCount = 0 then (0, counted)
    else
      let scan := scanSubs args answers (counted.clear args) args.appSubCount.toNat
      if scan.bSleepOnly then sleepOnly args scan else pollFds args answers scan

end Socket
end WamrExt
