import WamrExt.Lib.LeastScan
import WamrExt.Socket.PollOneOff

/-!
# The events of `poll_oneoff`

A call of `poll_oneoff` turns a list of subscriptions into a list of events. Here this is said for
the lists themselves, with the outcomes of the clocks, of the descriptor table and of `poll` given.
The function that does it in the memory of the guest is `wasiPollOneOff`, and where the arrays do
not overlap the two are the same.

Each event is reported with the index of its subscription. The events of a call are for a strictly
increasing selection of the subscriptions, with their user data and their types
(`attributed_pollOneOff`).
-/

set_option autoImplicit false

namespace WamrExt
namespace Socket

open Wamr LeastScan

/-! ## Subscriptions and events -/

/-- `uvwasi_subscription_t`. Only the fields of one variant of its union count. -/
structure Subscription where
  userdata : UInt64
  type : UInt8
  clockId : UInt32
  timeout : UInt64
  precision : UInt64
  flags : UInt16
  fd : UInt32
  deriving DecidableEq, Repr

/-- `uvwasi_event_t`, as far as it is written. -/
structure Event where
  userdata : UInt64 := 0
  error : UInt16 := 0
  type : UInt8 := 0
  flags : UInt16 := 0
  deriving DecidableEq, Repr

namespace Subscription

variable (sub : Subscription)

def IsClock : Prop := sub.type.toNat = eventtypeClock

def IsFd : Prop := sub.type.toNat = eventtypeFdWrite ∨ sub.type.toNat = eventtypeFdRead

instance : Decidable sub.IsClock := inferInstanceAs (Decidable (_ = _))

instance : Decidable sub.IsFd := inferInstanceAs (Decidable (_ ∨ _))

/-- An event for a subscription. -/
def event (error : UInt16) (flags : UInt16) : Event := ⟨sub.userdata, error, sub.type, flags⟩

/-- The timeout of a clock subscription, relative to now. There is none when the clock cannot be
read. -/
def effectiveTimeout (answers : PollAnswers) (i : ℕ) : Option UInt64 :=
  if sub.flags.toNat &&& subscriptionClockAbstime = 0 then some sub.timeout
  else
    (answers.clockTimeGet i sub.clockId sub.precision).map fun curTs =>
      if curTs < sub.timeout then sub.timeout - curTs else 0

/-- The entry for `poll`. -/
def pollFd (answers : PollAnswers) : PollFd :=
  if sub.IsFd then
    match answers.hostFD sub.fd with
    | some fd => ⟨fd, if sub.type.toNat = eventtypeFdWrite then pollWRNORM else pollRDNORM, 0⟩
    | none => ⟨invalidSocket, 0, 0⟩
  else ⟨invalidSocket, 0, 0⟩

/-- The subscription is for a descriptor that is in the table, so that the call does not only
sleep. -/
def Polled (answers : PollAnswers) : Prop := sub.IsFd ∧ (answers.hostFD sub.fd).isSome = true

/-- The subscription is for a descriptor that is not in the table, or not with the right to poll. -/
def Failed (answers : PollAnswers) : Prop := sub.IsFd ∧ answers.hostFD sub.fd = none

instance (answers : PollAnswers) : Decidable (sub.Polled answers) :=
  inferInstanceAs (Decidable (_ ∧ _))

/-- The event for an entry that `poll` has answered, if there is one. -/
def fdEvent (cur : PollFd) : Option Event :=
  if sub.IsFd then
    if cur.fd = invalidSocket ∨ cur.revents &&& pollNVAL ≠ 0 then some (sub.event uvwasiEBADF 0)
    else if cur.revents &&& (pollRDNORM ||| pollWRNORM) ≠ 0 then
      some (sub.event 0 (if cur.revents &&& pollHUP ≠ 0 then UInt16.ofNat eventFdReadwriteHangup
        else 0))
    else if cur.revents &&& pollHUP ≠ 0 then
      some (sub.event uvwasiEPIPE (UInt16.ofNat eventFdReadwriteHangup))
    else none
  else none

end Subscription

/-! ## The call -/

/-- What a call returns, the events it reports, each with the index of the subscription that it is
for, and what it has the host wait for. -/
structure PollResult where
  ret : UInt16
  reports : List (ℕ × Event)
  waits : List HostWait

/-- The events for a subscription. -/
def PollResult.eventsFor (result : PollResult) (i : ℕ) : List Event :=
  (result.reports.filter fun report => report.1 = i).map Prod.snd

/-- The start value of `timeoutNanoSec`. -/
def noTimeout : UInt64 := 0xffffffffffffffff

section Call

variable (answers : PollAnswers) (subs : List Subscription)

/-- The timeout of a subscription with its index, if it is for a clock. -/
def clockValue (entry : Subscription × ℕ) : Option UInt64 :=
  if entry.1.IsClock then entry.1.effectiveTimeout answers entry.2 else none

/-- `timeoutNanoSec` and `pTimeoutSub` after the loop. -/
def leastTimeout : UInt64 × Option (Subscription × ℕ) :=
  scan (clockValue answers) noTimeout subs.zipIdx

/-- `bSleepOnly` -/
def SleepOnly : Prop := ∀ sub ∈ subs, ¬ sub.Polled answers

instance : Decidable (SleepOnly answers subs) := List.decidableBAll _ _

/-- `pollTimeout` -/
def pollTimeout : ℕ := min ((leastTimeout answers subs).1 / 1000 / 1000).toNat (2 ^ 31 - 1)

/-- What `poll` answers for the entries of the subscriptions. -/
def polled : ℤ × List UInt16 :=
  answers.poll (subs.map fun sub => sub.pollFd answers) (pollTimeout answers subs)

/-- The entry of a subscription with its index, with what `poll` has answered for it. -/
def polledFd (entry : Subscription × ℕ) : PollFd :=
  { entry.1.pollFd answers with revents := (polled answers subs).2.getD entry.2 0 }

/-- The event for a subscription with its index, after `poll`. -/
def reportedEvent (entry : Subscription × ℕ) : Option Event :=
  entry.1.fdEvent (polledFd answers subs entry)

/-- The events after `poll`. -/
def polledReports : List (ℕ × Event) :=
  subs.zipIdx.filterMap fun entry => (reportedEvent answers subs entry).map (entry.2, ·)

/-- The end of a call that polls no descriptor. -/
def sleepResult : PollResult :=
  match (leastTimeout answers subs).2 with
  | none => ⟨uvwasiEINVAL, [], []⟩
  | some entry =>
      ⟨0, [(entry.2, entry.1.event 0 0)],
        if (leastTimeout answers subs).1 > 0 then
          [.sleepFor (leastTimeout answers subs).1.toInt64.toInt]
        else []⟩

/-- The end of a call that polls descriptors. -/
def polledResult : PollResult :=
  let waits : List HostWait := [.poll subs.length (pollTimeout answers subs)]
  if (polled answers subs).1 = -1 then ⟨answers.lastSocketError, [], waits⟩
  else if (polled answers subs).1 = 0 then
    match (leastTimeout answers subs).2 with
    | none => ⟨0, [], waits⟩
    | some entry => ⟨0, [(entry.2, entry.1.event 0 0)], waits⟩
  else if (polled answers subs).1 > 0 then
    ⟨0, polledReports answers subs, waits⟩
  else ⟨0, [], waits⟩

/-- `WasiPollOneOff` on lists. -/
def pollOneOff : PollResult :=
  if subs = [] then ⟨0, [], []⟩
  else if SleepOnly answers subs then sleepResult answers subs
  else polledResult answers subs

end Call

/-! ## Which subscriptions the events are for -/

/-- The indices increase strictly, and each event has the user data and the type of its
subscription. -/
structure Attributed (subs : List Subscription) (reports : List (ℕ × Event)) : Prop where
  increasing : (reports.map Prod.fst).Pairwise (· < ·)
  each : ∀ report ∈ reports, ∃ sub, subs[report.1]? = some sub ∧
    report.2.userdata = sub.userdata ∧ report.2.type = sub.type

section Attribution

variable {answers : PollAnswers} {subs : List Subscription} {sub : Subscription} {event : Event}
  {i : ℕ}

theorem attributed_nil (subs : List Subscription) : Attributed subs [] := ⟨.nil, nofun⟩

/-- One event for a subscription. -/
theorem attributed_single {entry : Subscription × ℕ} (member : entry ∈ subs.zipIdx)
    (error flags : UInt16) : Attributed subs [(entry.2, entry.1.event error flags)] := by
  refine ⟨List.pairwise_singleton _ _, fun report here => ?_⟩
  cases List.mem_singleton.mp here
  exact ⟨entry.1, List.mem_zipIdx_iff_getElem?.mp member, rfl, rfl⟩

theorem mem_polledReports :
    (i, event) ∈ polledReports answers subs ↔
      ∃ sub, subs[i]? = some sub ∧ reportedEvent answers subs (sub, i) = some event := by
  simp only [polledReports, List.mem_filterMap, Prod.exists, List.mem_zipIdx_iff_getElem?,
    Option.map_eq_some_iff, Prod.mk.injEq]
  constructor
  · rintro ⟨sub, _, known, _, reported, rfl, rfl⟩
    exact ⟨sub, known, reported⟩
  · rintro ⟨sub, known, reported⟩
    exact ⟨sub, i, known, event, reported, rfl, rfl⟩

/-- An event for a descriptor has the user data and the type of its subscription. -/
theorem Subscription.fdEvent_eq_some {cur : PollFd} (reported : sub.fdEvent cur = some event) :
    sub.IsFd ∧ event.userdata = sub.userdata ∧ event.type = sub.type := by
  rw [fdEvent] at reported
  split at reported
  next isFd =>
    refine ⟨isFd, ?_⟩
    split at reported
    · cases reported
      exact ⟨rfl, rfl⟩
    · split at reported
      · cases reported
        exact ⟨rfl, rfl⟩
      · split at reported
        · cases reported
          exact ⟨rfl, rfl⟩
        · cases reported
  next => cases reported

/-- The events after `poll` are for the subscriptions that they were made from. -/
theorem attributed_polledReports (answers : PollAnswers) (subs : List Subscription) :
    Attributed subs (polledReports answers subs) := by
  constructor
  · have indices : subs.zipIdx.Pairwise fun a b => a.2 < b.2 := by
      apply List.pairwise_map.mp
      rw [List.zipIdx_map_snd]
      exact List.pairwise_lt_range'
    rw [List.pairwise_map, polledReports, List.pairwise_filterMap]
    refine indices.imp fun {a b} lt report first report' second => ?_
    obtain ⟨_, _, rfl⟩ := Option.map_eq_some_iff.mp first
    obtain ⟨_, _, rfl⟩ := Option.map_eq_some_iff.mp second
    exact lt
  · rintro ⟨i, event⟩ member
    obtain ⟨sub, known, reported⟩ := mem_polledReports.mp member
    exact ⟨sub, known, (Subscription.fdEvent_eq_some reported).2⟩

/-- With increasing indices, a subscription has one event at most. -/
theorem Attributed.filter_eq {reports : List (ℕ × Event)} (attributed : Attributed subs reports)
    (member : (i, event) ∈ reports) :
    (reports.filter fun report => report.1 = i) = [(i, event)] := by
  have increasing := List.pairwise_map.mp attributed.increasing
  clear attributed
  induction reports with
  | nil => cases member
  | cons report rest ih =>
      obtain ⟨above, increasing⟩ := List.pairwise_cons.mp increasing
      rcases List.mem_cons.mp member with same | later
      · have others : (rest.filter fun report => report.1 = i) = [] := by
          refine List.filter_eq_nil_iff.mpr fun other member here => ?_
          have lt := above other member
          rw [← same, of_decide_eq_true here] at lt
          exact Nat.lt_irrefl _ lt
        rw [List.filter_cons_of_pos (by rw [← same]; exact decide_eq_true rfl), others, same]
      · have lt := above _ later
        rw [List.filter_cons_of_neg (by simpa using Nat.ne_of_lt lt)]
        exact ih later increasing

theorem eventsFor_eq_singleton {result : PollResult} (attributed : Attributed subs result.reports)
    (member : (i, event) ∈ result.reports) : result.eventsFor i = [event] := by
  rw [PollResult.eventsFor, attributed.filter_eq member]
  rfl

/-- What is an event for a subscription was reported with its index. -/
theorem mem_reports_of_eventsFor {result : PollResult} (one : result.eventsFor i = [event]) :
    (i, event) ∈ result.reports := by
  have member : event ∈ result.eventsFor i := by rw [one]; exact List.mem_cons_self
  obtain ⟨⟨j, _⟩, found, rfl⟩ := List.mem_map.mp member
  obtain ⟨inside, same⟩ := List.mem_filter.mp found
  cases of_decide_eq_true same
  exact inside

end Attribution

/-! ## The ends of a call -/

section Ends

variable {answers : PollAnswers} {subs : List Subscription} {entry : Subscription × ℕ}
  {timeout : UInt64}

/-- A number that is not the greatest is below it. -/
theorem lt_noTimeout_iff : timeout < noTimeout ↔ timeout ≠ noTimeout := by
  have bound := timeout.toNat_lt
  rw [UInt64.lt_iff_toNat_lt, ne_eq, ← UInt64.toNat_inj, show noTimeout.toNat = 2 ^ 64 - 1 from rfl]
  omega

theorem leastTimeout_eq_iff :
    leastTimeout answers subs = (timeout, some entry) ↔
      FirstLeast (clockValue answers) subs.zipIdx entry timeout ∧ timeout ≠ noTimeout := by
  rw [leastTimeout, scan_eq_iff, lt_noTimeout_iff]

/-- Without a least timeout, no clock that can be read has any. -/
theorem leastTimeout_eq_none (noLeast : (leastTimeout answers subs).2 = none)
    (member : entry ∈ subs.zipIdx) (value : clockValue answers entry = some timeout) :
    timeout = noTimeout := by
  rcases scan_cases (clockValue answers) noTimeout subs.zipIdx with ⟨_, high⟩ | ⟨a, b, found, _⟩
  · by_contra below
    exact absurd (lt_noTimeout_iff.mpr below) (Std.not_lt.mpr (high entry member timeout value))
  · rw [leastTimeout, found] at noLeast
    cases noLeast

/-- The subscription with the least timeout is for a clock. -/
theorem clock_of_least (least : FirstLeast (clockValue answers) subs.zipIdx entry timeout) :
    entry.1.IsClock := by
  by_contra notClock
  have has := least.has
  rw [clockValue, if_neg notClock] at has
  cases has

/-- The subscription that is found has the least timeout. -/
theorem firstLeast_of_found (found : (leastTimeout answers subs).2 = some entry) :
    FirstLeast (clockValue answers) subs.zipIdx entry (leastTimeout answers subs).1 ∧
      (leastTimeout answers subs).1 ≠ noTimeout := by
  apply leastTimeout_eq_iff.mp
  rw [← found]

theorem mem_of_leastTimeout (found : (leastTimeout answers subs).2 = some entry) :
    entry ∈ subs.zipIdx := by
  obtain ⟨before, after, split, _⟩ := (firstLeast_of_found found).1.first
  rw [split]
  exact List.mem_append_right _ List.mem_cons_self

/-- How a call ends: it reports nothing, or one event for the least timeout, or the events after
`poll`. -/
inductive Ended (answers : PollAnswers) (subs : List Subscription) : List (ℕ × Event) → Prop where
  | empty (noSubs : subs = []) : Ended answers subs []
  | invalid (sleeps : SleepOnly answers subs) (noLeast : (leastTimeout answers subs).2 = none)
      (refused : (pollOneOff answers subs).ret = uvwasiEINVAL) : Ended answers subs []
  | clock (entry : Subscription × ℕ) (found : (leastTimeout answers subs).2 = some entry)
      (waited : SleepOnly answers subs ∨ (polled answers subs).1 = 0) :
      Ended answers subs [(entry.2, entry.1.event 0 0)]
  | failed (polls : ¬ SleepOnly answers subs) (failed : (polled answers subs).1 < 0)
      (err : (polled answers subs).1 = -1 →
        (pollOneOff answers subs).ret = answers.lastSocketError) : Ended answers subs []
  | timedOut (polls : ¬ SleepOnly answers subs) (timedOut : (polled answers subs).1 = 0)
      (noLeast : (leastTimeout answers subs).2 = none) : Ended answers subs []
  | reported (polls : ¬ SleepOnly answers subs) (answered : 0 < (polled answers subs).1) :
      Ended answers subs (polledReports answers subs)

/-- **The ends of a call.** -/
theorem pollOneOff_ended (answers : PollAnswers) (subs : List Subscription) :
    Ended answers subs (pollOneOff answers subs).reports := by
  by_cases noSubs : subs = []
  · have result : pollOneOff answers subs = ⟨0, [], []⟩ := by rw [pollOneOff, if_pos noSubs]
    rw [result]
    exact .empty noSubs
  · by_cases sleeps : SleepOnly answers subs
    · have result : pollOneOff answers subs = sleepResult answers subs := by
        rw [pollOneOff, if_neg noSubs, if_pos sleeps]
      cases found : (leastTimeout answers subs).2 with
      | none =>
          rw [sleepResult, found] at result
          have refused : (pollOneOff answers subs).ret = uvwasiEINVAL := by rw [result]
          rw [result]
          exact .invalid sleeps found refused
      | some entry =>
          rw [result, sleepResult, found]
          exact .clock entry found (.inl sleeps)
    · have result : pollOneOff answers subs = polledResult answers subs := by
        rw [pollOneOff, if_neg noSubs, if_neg sleeps]
      rw [result, polledResult]
      split
      next failed =>
        refine .failed sleeps (by omega) fun _ => ?_
        rw [result, polledResult, if_pos failed]
      next notFailed =>
        split
        next timedOut =>
          cases found : (leastTimeout answers subs).2 with
          | none => exact .timedOut sleeps timedOut found
          | some entry => exact .clock entry found (.inr timedOut)
        next =>
          split
          next answered => exact .reported sleeps answered
          next => exact .failed sleeps (by omega) fun failed => absurd failed notFailed

/-- **The events of a call are for the subscriptions that they were made from.** -/
theorem attributed_pollOneOff (answers : PollAnswers) (subs : List Subscription) :
    Attributed subs (pollOneOff answers subs).reports := by
  have ended := pollOneOff_ended answers subs
  generalize (pollOneOff answers subs).reports = reports at ended ⊢
  cases ended with
  | empty | invalid | failed | timedOut => exact attributed_nil subs
  | clock entry found => exact attributed_single (mem_of_leastTimeout found) 0 0
  | reported => exact attributed_polledReports answers subs

end Ends

end Socket
end WamrExt
