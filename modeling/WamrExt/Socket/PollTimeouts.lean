import WamrExt.Socket.PollResults

/-!
# The time before a clock event

`poll_oneoff` reports a clock event when it has slept, or when `poll` has found no descriptor ready
in time. The subscription of the event is the first one with the least timeout. But the host is
asked to wait in other units: `sleep_for` takes the nanoseconds as a signed number, and `poll`
takes whole milliseconds that fit an `int`. So the event may come early, and the values for which
it does not are exactly those that survive the conversion (`noEarlyClock_iff`). This holds of the
list of the subscriptions, and of a call on a memory that holds them (`no_early_clock_iff`).
-/

set_option autoImplicit false

namespace WamrExt
namespace Socket

open ByteMemory LeastScan Wamr

/-- The nanoseconds that the host is asked to wait. -/
def HostWait.nanoseconds : HostWait → ℤ
  | .sleepFor nanoseconds => nanoseconds
  | .poll _ milliseconds => milliseconds * 10 ^ 6

def waitedNanoSec (waits : List HostWait) : ℤ := (waits.map HostWait.nanoseconds).sum

section Early

variable (answers : PollAnswers) (subs : List Subscription)

/-- An event for a clock is for the first subscription with the least timeout, and the host was
asked to wait for at least this time. -/
def NoEarlyClock (result : PollResult) : Prop :=
  ∀ report ∈ result.reports, report.2.type.toNat = eventtypeClock →
    ∃ entry timeout, FirstLeast (clockValue answers) subs.zipIdx entry timeout ∧
      report.1 = entry.2 ∧ timeout.toNat ≤ waitedNanoSec result.waits

/-- The least timeout survives the conversion: to a signed number when the call only sleeps, and to
the milliseconds of `poll` when no descriptor becomes ready. The greatest number stands for no
timeout. -/
def LeastSurvives : Prop :=
  ∀ entry timeout, FirstLeast (clockValue answers) subs.zipIdx entry timeout →
    timeout ≠ noTimeout →
    (SleepOnly answers subs → timeout.toNat < 2 ^ 63) ∧
      (¬ SleepOnly answers subs → (polled answers subs).1 = 0 →
        10 ^ 6 ∣ timeout.toNat ∧ timeout.toNat ≤ (2 ^ 31 - 1) * 10 ^ 6)

variable {answers subs} {entry : Subscription × ℕ} {timeout : UInt64}

/-- The signed number of nanoseconds is as great as the unsigned one if it is not negative. -/
theorem le_sleep_iff :
    (timeout.toNat : ℤ) ≤ (if timeout > 0 then timeout.toInt64.toInt else 0) ↔
      timeout.toNat < 2 ^ 63 := by
  have bound := timeout.toNat_lt
  have signed : timeout.toInt64.toInt = timeout.toBitVec.toInt := rfl
  have positive : timeout > 0 ↔ 0 < timeout.toNat := UInt64.lt_iff_toNat_lt
  rw [signed, BitVec.toInt_eq_toNat_cond, UInt64.toNat_toBitVec]
  split
  · split <;> omega
  next zero =>
    rw [positive] at zero
    omega

/-- The milliseconds of `poll` are as long as the timeout if nothing was cut off. -/
theorem le_poll_iff :
    (timeout.toNat : ℤ) ≤ (min (timeout / 1000 / 1000).toNat (2 ^ 31 - 1) : ℕ) * 10 ^ 6 ↔
      10 ^ 6 ∣ timeout.toNat ∧ timeout.toNat ≤ (2 ^ 31 - 1) * 10 ^ 6 := by
  have milliseconds : (timeout / 1000 / 1000).toNat = timeout.toNat / 10 ^ 6 := by
    rw [UInt64.toNat_div, UInt64.toNat_div, Nat.div_div_eq_div_mul]
    rfl
  rw [milliseconds]
  omega

/-- The events after `poll` are for descriptors. -/
theorem reported_not_clock {report : ℕ × Event} (member : report ∈ polledReports answers subs) :
    report.2.type.toNat ≠ eventtypeClock := by
  obtain ⟨sub, _, reported⟩ := mem_polledReports.mp member
  obtain ⟨isFd, _, type⟩ := Subscription.fdEvent_eq_some reported
  rw [type]
  intro clock
  rw [Subscription.IsFd, clock] at isFd
  exact absurd isFd (by decide)

/-- One event for the least timeout is in time exactly when the wait is long enough. -/
theorem single_in_time_iff {waits : List HostWait}
    (found : leastTimeout answers subs = (timeout, some entry)) :
    (∀ report ∈ [(entry.2, entry.1.event 0 0)], report.2.type.toNat = eventtypeClock →
      ∃ entry timeout, FirstLeast (clockValue answers) subs.zipIdx entry timeout ∧
        report.1 = entry.2 ∧ timeout.toNat ≤ waitedNanoSec waits) ↔
      timeout.toNat ≤ waitedNanoSec waits := by
  have least := (leastTimeout_eq_iff.mp found).1
  constructor
  · intro inTime
    obtain ⟨other, timeout', least', _, waited⟩ :=
      inTime _ List.mem_cons_self (clock_of_least least)
    obtain ⟨rfl, rfl⟩ := least.unique least'
    exact waited
  · intro waited report member _
    cases List.mem_singleton.mp member
    exact ⟨entry, timeout, least, rfl, waited⟩

/-- The condition speaks of the least timeout, if there is one. -/
theorem leastSurvives_of_found (found : leastTimeout answers subs = (timeout, some entry)) :
    LeastSurvives answers subs ↔
      (SleepOnly answers subs → timeout.toNat < 2 ^ 63) ∧
        (¬ SleepOnly answers subs → (polled answers subs).1 = 0 →
          10 ^ 6 ∣ timeout.toNat ∧ timeout.toNat ≤ (2 ^ 31 - 1) * 10 ^ 6) := by
  obtain ⟨least, below⟩ := leastTimeout_eq_iff.mp found
  constructor
  · intro survives
    exact survives entry timeout least below
  · intro survives other timeout' least' _
    obtain ⟨rfl, rfl⟩ := least.unique least'
    exact survives

/-- Without a least timeout there is nothing to survive. -/
theorem leastSurvives_of_none (noLeast : (leastTimeout answers subs).2 = none) :
    LeastSurvives answers subs := by
  intro entry timeout least below
  rw [leastTimeout_eq_iff.mpr ⟨least, below⟩] at noLeast
  cases noLeast

/-- A call that polls no descriptor. -/
theorem sleep_in_time_iff (sleeps : SleepOnly answers subs) (nonempty : subs ≠ []) :
    NoEarlyClock answers subs (pollOneOff answers subs) ↔ LeastSurvives answers subs := by
  have result : pollOneOff answers subs = sleepResult answers subs := by
    rw [pollOneOff, if_neg nonempty, if_pos sleeps]
  rw [NoEarlyClock, result, sleepResult]
  cases found : leastTimeout answers subs with
  | mk timeout best =>
      cases best with
      | none => exact ⟨fun _ => leastSurvives_of_none (by rw [found]),
          fun _ _ member => absurd member List.not_mem_nil⟩
      | some entry =>
          have waited : waitedNanoSec
              (if timeout > 0 then [HostWait.sleepFor timeout.toInt64.toInt] else []) =
                if timeout > 0 then timeout.toInt64.toInt else 0 := by
            split <;> simp [waitedNanoSec, HostWait.nanoseconds]
          rw [leastSurvives_of_found found]
          refine (single_in_time_iff found).trans ?_
          rw [waited, le_sleep_iff]
          exact ⟨fun short => ⟨fun _ => short, absurd sleeps⟩, fun survives => survives.1 sleeps⟩

/-- A call that polls descriptors. -/
theorem poll_in_time_iff (polls : ¬ SleepOnly answers subs) (nonempty : subs ≠ []) :
    NoEarlyClock answers subs (pollOneOff answers subs) ↔ LeastSurvives answers subs := by
  have result : pollOneOff answers subs = polledResult answers subs := by
    rw [pollOneOff, if_neg nonempty, if_neg polls]
  rw [NoEarlyClock, result, polledResult]
  by_cases timedOut : (polled answers subs).1 = 0
  · rw [if_neg (by rw [timedOut]; decide), if_pos timedOut]
    cases found : leastTimeout answers subs with
    | mk timeout best =>
        cases best with
        | none => exact ⟨fun _ => leastSurvives_of_none (by rw [found]),
          fun _ _ member => absurd member List.not_mem_nil⟩
        | some entry =>
            have waited : waitedNanoSec [.poll subs.length (pollTimeout answers subs)] =
                (min (timeout / 1000 / 1000).toNat (2 ^ 31 - 1) : ℕ) * 10 ^ 6 := by
              simp [waitedNanoSec, HostWait.nanoseconds, pollTimeout, found]
            rw [leastSurvives_of_found found]
            refine (single_in_time_iff found).trans ?_
            rw [waited, le_poll_iff]
            exact ⟨fun whole => ⟨fun sleeps => absurd sleeps polls, fun _ _ => whole⟩,
              fun survives => survives.2 polls timedOut⟩
  · have noClock : ∀ report ∈ (polledResult answers subs).reports,
        report.2.type.toNat ≠ eventtypeClock := by
      intro report member
      rw [polledResult, if_neg timedOut] at member
      split at member
      · cases member
      · split at member
        · exact reported_not_clock member
        · cases member
    refine ⟨fun _ entry timeout _ _ => ?_, fun _ report member clock => ?_⟩
    · exact ⟨fun sleeps => absurd sleeps polls, fun _ zero => absurd zero timedOut⟩
    · exact absurd clock (noClock report member)

end Early

/-- No clock event for a list is early exactly when its least timeout survives. -/
theorem noEarlyClock_iff (answers : PollAnswers) (subs : List Subscription) :
    NoEarlyClock answers subs (pollOneOff answers subs) ↔ LeastSurvives answers subs := by
  by_cases empty : subs = []
  · subst empty
    refine ⟨fun _ entry timeout least _ => ?_,
      fun _ _ member => absurd member List.not_mem_nil⟩
    obtain ⟨before, after, split, _⟩ := least.first
    simp at split
  · by_cases sleeps : SleepOnly answers subs
    · exact sleep_in_time_iff sleeps empty
    · exact poll_in_time_iff sleeps empty

/-- **Clock events.** For every list of subscriptions and all outcomes of the clocks, of the
descriptor table and of `poll`: no clock event is early exactly when the least timeout survives the
conversion to the unit of the wait. So it is for the calls on any memory where the places do not
overlap. A call that fails its validation reports no event. -/
theorem no_early_clock_iff (answers : PollAnswers) :
    (∀ subs : List Subscription,
      NoEarlyClock answers subs (pollOneOff answers subs) ↔ LeastSurvives answers subs) ∧
      ∀ (L : LinearMemory) (args : PollArgs) (mem : Memory), ArraysApart args →
        (NoEarlyClock answers (subscriptions args mem)
            (callResult args (wasiPollOneOff L args answers mem)) ↔
          (Validated L args → LeastSurvives answers (subscriptions args mem))) := by
  refine ⟨noEarlyClock_iff answers, fun L args mem apart => ?_⟩
  by_cases validated : Validated L args
  · rw [callResult_eq validated apart, noEarlyClock_iff]
    exact ⟨fun survives _ => survives, fun survives => survives validated⟩
  · rw [callResult_refused validated]
    exact ⟨fun _ passed => absurd passed validated,
      fun _ _ member => absurd member List.not_mem_nil⟩

/-- A clock that is never read, one descriptor, and no descriptor ready in time. -/
def quietHost : PollAnswers := ⟨fun _ _ _ => none, fun fd => if fd = 3 then some 7 else none,
  fun _ _ => (0, []), 0⟩

/-- A relative timeout in nanoseconds. -/
def relativeClock (timeout : UInt64) : Subscription := ⟨1, 0, 0, timeout, 0, 0, 0⟩

/-- Reading from an app descriptor, whose field is that of the clock too. -/
def readFrom (fd : UInt32) : Subscription := ⟨2, 1, fd, 0, 0, 0, fd⟩

/-- A relative timeout and reading from an app descriptor, in memory. -/
def clockAndRead (timeout fd : ℕ) : Memory :=
  store (store (store (store (store (fun _ => 0) 0 8 1) 24 8 timeout) 48 8 2) 56 1 1) 64 4 fd

theorem twoSubscriptions_apart : ArraysApart twoSubscriptions :=
  ⟨.inl (by decide), .inl (by decide), .inr (by decide)⟩

/-- Two milliseconds are whole, so the event for the clock is not early. -/
theorem whole_milliseconds_in_time :
    NoEarlyClock quietHost (subscriptions twoSubscriptions (clockAndRead 2000000 3))
      (callResult twoSubscriptions
        (wasiPollOneOff onePage twoSubscriptions quietHost (clockAndRead 2000000 3))) := by
  have subs : subscriptions twoSubscriptions (clockAndRead 2000000 3) =
      [relativeClock 2000000, readFrom 3] := by
    decide +kernel
  have found : leastTimeout quietHost [relativeClock 2000000, readFrom 3] =
      (2000000, some (relativeClock 2000000, 0)) := by
    decide
  refine ((no_early_clock_iff quietHost).2 _ _ _ twoSubscriptions_apart).mpr fun _ => ?_
  rw [subs, leastSurvives_of_found found]
  decide

/-- With a descriptor to poll, 1.5 milliseconds are over after one. And 2^63 nanoseconds are over
at once. -/
theorem early_clock :
    (¬ NoEarlyClock quietHost [relativeClock 1500000, readFrom 3]
        (pollOneOff quietHost [relativeClock 1500000, readFrom 3]) ∧
      ¬ NoEarlyClock quietHost [relativeClock 0x8000000000000000]
        (pollOneOff quietHost [relativeClock 0x8000000000000000])) ∧
      ¬ NoEarlyClock quietHost (subscriptions twoSubscriptions (clockAndRead 1500000 3))
        (callResult twoSubscriptions
          (wasiPollOneOff onePage twoSubscriptions quietHost (clockAndRead 1500000 3))) := by
  have early : ¬ NoEarlyClock quietHost [relativeClock 1500000, readFrom 3]
      (pollOneOff quietHost [relativeClock 1500000, readFrom 3]) := by
    intro inTime
    have found : leastTimeout quietHost [relativeClock 1500000, readFrom 3] =
        (1500000, some (relativeClock 1500000, 0)) := by
      decide
    obtain ⟨entry, timeout, least, _, waited⟩ := inTime (0, ⟨1, 0, 0, 0⟩) (by decide) rfl
    obtain ⟨rfl, rfl⟩ := (leastTimeout_eq_iff.mp found).1.unique least
    exact absurd waited (by decide)
  refine ⟨⟨early, fun inTime => ?_⟩, ?_⟩
  · have found : leastTimeout quietHost [relativeClock 0x8000000000000000] =
        (0x8000000000000000, some (relativeClock 0x8000000000000000, 0)) := by
      decide
    obtain ⟨entry, timeout, least, _, waited⟩ := inTime (0, ⟨1, 0, 0, 0⟩) (by decide) rfl
    obtain ⟨rfl, rfl⟩ := (leastTimeout_eq_iff.mp found).1.unique least
    exact absurd waited (by decide)
  · have subs : subscriptions twoSubscriptions (clockAndRead 1500000 3) =
        [relativeClock 1500000, readFrom 3] := by
      decide +kernel
    rwa [callResult_eq (by decide) twoSubscriptions_apart, subs]

end Socket
end WamrExt
