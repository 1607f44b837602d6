import WamrExt.Socket.PollTimeouts

/-!
# What `poll_oneoff` leaves out

A subscription for a descriptor that is not in the table has to be reported with `UVWASI_EBADF`. It
is remembered as an entry that `poll` skips, and only the loop over the answers of `poll` looks at
such an entry. So it is dropped when the call only sleeps and when `poll` times out
(`bad_descriptors_reported_iff`).

The loop has an event for an entry that is invalid, ready, or hung up, and none for an entry that
has an error alone. And a timeout of `poll` without a timeout of the guest gives no event at all.
These are the only ways in which readiness is lost or a call succeeds without an event
(`readiness_reported_iff`).

Both are said of the list of the subscriptions, and of a call on a memory that holds them.
-/

set_option autoImplicit false

namespace WamrExt
namespace Socket

open ByteMemory LeastScan Wamr

/-- `POLLERR` of the host. -/
def pollERR : UInt16 := 0x008

section Reports

variable (answers : PollAnswers) (subs : List Subscription)

/-- Each subscription whose lookup has failed has exactly one event, with `UVWASI_EBADF`, its user
data and its type. -/
def BadDescriptorsReported (result : PollResult) : Prop :=
  ∀ i sub, subs[i]? = some sub → sub.Failed answers →
    ∃ event, result.eventsFor i = [event] ∧ event.error = uvwasiEBADF ∧
      event.userdata = sub.userdata ∧ event.type = sub.type

/-- There is no bad descriptor, or there is a good one as well and `poll` reports a descriptor. -/
def BadDescriptorsSeen : Prop :=
  (∀ sub ∈ subs, ¬ sub.Failed answers) ∨
    ((∃ sub ∈ subs, sub.Polled answers) ∧ 0 < (polled answers subs).1)

/-- The `revents` of the entry of a subscription. Nothing is reported when the call only sleeps. -/
def reventsOf (i : ℕ) : UInt16 :=
  if SleepOnly answers subs then 0 else (polled answers subs).2.getD i 0

/-- There is an event, and each subscription for a descriptor whose entry was reported has exactly
one. -/
def ReadinessReported (result : PollResult) : Prop :=
  1 ≤ result.reports.length ∧
    ∀ i sub, subs[i]? = some sub → sub.IsFd → reventsOf answers subs i ≠ 0 →
      ∃ event, result.eventsFor i = [event]

/-- The call only sleeps, or no entry has an error alone and a timeout of `poll` is one of the
guest. -/
def ReadinessKept : Prop :=
  SleepOnly answers subs ∨
    (∀ i < subs.length, (polled answers subs).2.getD i 0 ≠ pollERR) ∧
      ((polled answers subs).1 = 0 → ∃ entry ∈ subs.zipIdx, ∃ timeout,
        clockValue answers entry = some timeout ∧ timeout ≠ noTimeout)

/-- The `revents` are requested bits and the three that are always reported. -/
def RequestedOnly : Prop :=
  ∀ i sub, subs[i]? = some sub → (polled answers subs).2.getD i 0 &&&
    ~~~((sub.pollFd answers).events ||| pollERR ||| pollHUP ||| pollNVAL) = 0

/-- What is documented of `poll`: its result is the number of the entries with non-zero `revents`,
which are only what may be reported, and zero for an entry with a negative descriptor. When it
fails there is an error. -/
structure PollOutcome : Prop where
  result : (polled answers subs).1 = -1 ∧ answers.lastSocketError ≠ 0 ∨
    (polled answers subs).1 =
      ((List.range subs.length).filter fun i => (polled answers subs).2.getD i 0 ≠ 0).length
  requested : RequestedOnly answers subs
  ignored : ∀ i sub, subs[i]? = some sub → (sub.pollFd answers).fd < 0 →
    (polled answers subs).2.getD i 0 = 0

variable {answers subs} {sub : Subscription} {i : ℕ}

/-! ## Bad descriptors -/

/-- An entry without a descriptor is reported as a bad one. -/
theorem fdEvent_of_failed (failed : sub.Failed answers) (revents : UInt16) :
    sub.fdEvent { sub.pollFd answers with revents := revents } =
      some (sub.event uvwasiEBADF 0) := by
  have placeholder : (sub.pollFd answers).fd = invalidSocket := by
    rw [Subscription.pollFd, if_pos failed.1, failed.2]
  rw [Subscription.fdEvent, if_pos failed.1, if_pos (.inl placeholder)]

/-- Without an event for a bad descriptor there is none, if they are all reported. -/
theorem BadDescriptorsReported.none_failed {result : PollResult}
    (reported : BadDescriptorsReported answers subs result)
    (noEvent : ∀ report ∈ result.reports, report.2.error ≠ uvwasiEBADF) :
    ∀ sub ∈ subs, ¬ sub.Failed answers := by
  intro sub member failed
  obtain ⟨i, known⟩ := List.mem_iff_getElem?.mp member
  obtain ⟨event, one, error, _⟩ := reported i sub known failed
  exact noEvent _ (mem_reports_of_eventsFor one) error

theorem badDescriptors_of_none (noFailed : ∀ sub ∈ subs, ¬ sub.Failed answers)
    (result : PollResult) : BadDescriptorsReported answers subs result := by
  intro i sub known failed
  exact absurd failed (noFailed sub (List.mem_iff_getElem?.mpr ⟨i, known⟩))

/-- After a `poll` that has reported something they are all reported. -/
theorem badDescriptors_of_polled
    (same : (pollOneOff answers subs).reports = polledReports answers subs) :
    BadDescriptorsReported answers subs (pollOneOff answers subs) := by
  intro i sub known failed
  have reported : reportedEvent answers subs (sub, i) = some (sub.event uvwasiEBADF 0) :=
    fdEvent_of_failed failed _
  have member : (i, sub.event uvwasiEBADF 0) ∈ (pollOneOff answers subs).reports := by
    rw [same]
    exact mem_polledReports.mpr ⟨sub, known, reported⟩
  exact ⟨_, eventsFor_eq_singleton (attributed_pollOneOff answers subs) member, rfl, rfl, rfl⟩

/-- The bad descriptors of a list are reported exactly when they are seen. -/
theorem badDescriptorsReported_iff (done : (pollOneOff answers subs).ret = 0) :
    BadDescriptorsReported answers subs (pollOneOff answers subs) ↔
      BadDescriptorsSeen answers subs := by
  have ended := pollOneOff_ended answers subs
  generalize same : (pollOneOff answers subs).reports = reports at ended
  have neither : (∀ report ∈ reports, report.2.error ≠ uvwasiEBADF) →
      ¬ ((∃ sub ∈ subs, sub.Polled answers) ∧ 0 < (polled answers subs).1) →
      (BadDescriptorsReported answers subs (pollOneOff answers subs) ↔
        BadDescriptorsSeen answers subs) := by
    intro noEvent notReported
    rw [← same] at noEvent
    exact ⟨fun reported => .inl (reported.none_failed noEvent),
      fun either => badDescriptors_of_none (either.resolve_right notReported) _⟩
  cases ended with
  | empty noSubs =>
      apply neither nofun
      rintro ⟨⟨sub, member, _⟩, _⟩
      rw [noSubs] at member
      cases member
  | invalid sleeps noLeast refused =>
      rw [refused] at done
      exact absurd done (by decide)
  | clock entry found waited =>
      apply neither
      · intro report member
        cases List.mem_singleton.mp member
        exact (by decide : (0 : UInt16) ≠ uvwasiEBADF)
      · rintro ⟨⟨sub, member, polls⟩, answered⟩
        rcases waited with sleeps | timedOut
        · exact sleeps sub member polls
        · omega
  | failed polls failed => exact neither nofun fun both => by omega
  | timedOut polls timedOut => exact neither nofun fun both => by omega
  | reported polls answered =>
      refine ⟨fun _ => .inr ⟨?_, answered⟩, fun _ => badDescriptors_of_polled same⟩
      by_contra none
      exact polls fun sub member polled => none ⟨sub, member, polled⟩

end Reports

/-- **Bad descriptors.** Whenever a call returns 0, whatever the subscriptions, the descriptor
table and the answers of the host are: the bad descriptors are all reported exactly when there are
none, or there is a good one as well and `poll` reports a descriptor. So it is for the calls on any
memory where the places do not overlap. -/
theorem bad_descriptors_reported_iff (answers : PollAnswers) :
    (∀ subs : List Subscription, (pollOneOff answers subs).ret = 0 →
      (BadDescriptorsReported answers subs (pollOneOff answers subs) ↔
        BadDescriptorsSeen answers subs)) ∧
      ∀ (L : LinearMemory) (args : PollArgs) (mem : Memory), ArraysApart args →
        (wasiPollOneOff L args answers mem).1 = 0 →
        (BadDescriptorsReported answers (subscriptions args mem)
            (callResult args (wasiPollOneOff L args answers mem)) ↔
          BadDescriptorsSeen answers (subscriptions args mem)) := by
  refine ⟨fun _ done => badDescriptorsReported_iff done, fun L args mem apart done => ?_⟩
  have result := callResult_eq (validated_of_done done) apart answers mem
  rw [result]
  exact badDescriptorsReported_iff ((congrArg PollResult.ret result).symm.trans done)

/-- `poll` says that every entry is readable. -/
def readableHost : PollAnswers := ⟨fun _ _ _ => none, fun fd => if fd = 3 then some 7 else none,
  fun entries _ => (1, entries.map fun entry => if entry.fd < 0 then 0 else pollRDNORM), 0⟩

/-- Reading from two app descriptors, in memory. -/
def readBoth (fd fd' : ℕ) : Memory :=
  store (store (store (store (store (store (fun _ => 0) 0 8 2) 8 1 1) 16 4 fd) 48 8 2) 56 1 1) 64 4
    fd'

/-- With a descriptor that is ready, the bad one is reported. -/
theorem bad_descriptor_reported :
    BadDescriptorsReported readableHost [readFrom 4, readFrom 3]
        (pollOneOff readableHost [readFrom 4, readFrom 3]) ∧
      BadDescriptorsReported readableHost (subscriptions twoSubscriptions (readBoth 4 3))
        (callResult twoSubscriptions
          (wasiPollOneOff onePage twoSubscriptions readableHost (readBoth 4 3))) := by
  have subs : subscriptions twoSubscriptions (readBoth 4 3) = [readFrom 4, readFrom 3] := by
    decide +kernel
  have seen : BadDescriptorsSeen readableHost [readFrom 4, readFrom 3] := by
    refine .inr ⟨⟨readFrom 3, List.mem_cons_of_mem _ List.mem_cons_self, ?_⟩, by decide⟩
    exact ⟨by decide, by decide⟩
  have reported := bad_descriptors_reported_iff readableHost
  refine ⟨(reported.1 _ (by decide)).mpr seen,
    (reported.2 _ _ _ twoSubscriptions_apart (by decide +kernel)).mpr ?_⟩
  rwa [subs]

/-- A bad descriptor beside a timeout: the call returns 0 with an event for the clock only. The same
happens when `poll` times out. -/
theorem bad_descriptor_dropped :
    (((pollOneOff readableHost [relativeClock 5, readFrom 4]).ret = 0 ∧
        ¬ BadDescriptorsReported readableHost [relativeClock 5, readFrom 4]
          (pollOneOff readableHost [relativeClock 5, readFrom 4])) ∧
      (pollOneOff quietHost [relativeClock 5, readFrom 4, readFrom 3]).ret = 0 ∧
        ¬ BadDescriptorsReported quietHost [relativeClock 5, readFrom 4, readFrom 3]
          (pollOneOff quietHost [relativeClock 5, readFrom 4, readFrom 3])) ∧
      (wasiPollOneOff onePage twoSubscriptions readableHost (clockAndRead 5 4)).1 = 0 ∧
        ¬ BadDescriptorsReported readableHost
          (subscriptions twoSubscriptions (clockAndRead 5 4))
          (callResult twoSubscriptions
            (wasiPollOneOff onePage twoSubscriptions readableHost (clockAndRead 5 4))) := by
  have failed : (readFrom 4).Failed readableHost := by constructor <;> decide
  have failed' : (readFrom 4).Failed quietHost := by constructor <;> decide
  have dropped : ¬ BadDescriptorsReported readableHost [relativeClock 5, readFrom 4]
      (pollOneOff readableHost [relativeClock 5, readFrom 4]) := by
    intro reported
    obtain ⟨event, one, _⟩ := reported 1 _ rfl failed
    have nothing : (pollOneOff readableHost [relativeClock 5, readFrom 4]).eventsFor 1 = [] := by
      decide
    rw [nothing] at one
    cases one
  refine ⟨⟨⟨by decide, dropped⟩, by decide, fun reported => ?_⟩, by decide +kernel, ?_⟩
  · obtain ⟨event, one, _⟩ := reported 1 _ rfl failed'
    have nothing :
        (pollOneOff quietHost [relativeClock 5, readFrom 4, readFrom 3]).eventsFor 1 = [] := by
      decide
    rw [nothing] at one
    cases one
  · have subs : subscriptions twoSubscriptions (clockAndRead 5 4) =
        [relativeClock 5, readFrom 4] := by
      decide +kernel
    rwa [callResult_eq (by decide) twoSubscriptions_apart, subs]

/-! ## Readiness -/

section Readiness

variable {answers : PollAnswers} {subs : List Subscription} {sub : Subscription} {i : ℕ}

/-- With nothing reported by `poll`, all `revents` are zero. -/
theorem revents_of_timeout (outcome : PollOutcome answers subs)
    (timedOut : (polled answers subs).1 = 0) (known : subs[i]? = some sub) :
    (polled answers subs).2.getD i 0 = 0 := by
  have lt : i < subs.length := (List.getElem?_eq_some_iff.mp known).1
  rcases outcome.result with ⟨failed, _⟩ | count
  · omega
  · rw [timedOut, eq_comm, Int.natCast_eq_zero, List.length_eq_zero_iff,
      List.filter_eq_nil_iff] at count
    simpa using count i (List.mem_range.mpr lt)

/-- When `poll` reports something, it does so for a subscription for a descriptor. -/
theorem exists_revents (outcome : PollOutcome answers subs)
    (answered : 0 < (polled answers subs).1) :
    ∃ i sub, subs[i]? = some sub ∧ sub.IsFd ∧ (polled answers subs).2.getD i 0 ≠ 0 := by
  rcases outcome.result with ⟨failed, _⟩ | count
  · omega
  · rw [count, Int.natCast_pos] at answered
    obtain ⟨i, member⟩ := List.exists_mem_of_length_pos answered
    obtain ⟨inside, reported⟩ := List.mem_filter.mp member
    have lt := List.mem_range.mp inside
    refine ⟨i, subs[i], List.getElem?_eq_getElem lt, ?_, by simpa using reported⟩
    by_contra other
    have placeholder : (subs[i].pollFd answers).fd < 0 := by
      rw [Subscription.pollFd, if_neg other]
      decide
    have nothing := outcome.ignored i subs[i] (List.getElem?_eq_getElem lt) placeholder
    exact absurd nothing (of_decide_eq_true reported)

theorem and_or_bits (r a b : UInt16) : r &&& (a ||| b) = r &&& a ||| r &&& b := by
  rw [← UInt16.toBitVec_inj]
  exact BitVec.and_or_distrib_left

/-- Bits that are all in a mask. -/
theorem and_of_within {r mask : UInt16} (within : r &&& ~~~mask = 0) : r &&& mask = r := by
  have whole : r &&& (mask ||| ~~~mask) = r := by rw [UInt16.or_not_self, UInt16.and_neg_one]
  rwa [and_or_bits, within, UInt16.or_zero] at whole

theorem and_pollERR (r : UInt16) : r &&& pollERR = 0 ∨ r &&& pollERR = pollERR := by
  have single : pollERR.toBitVec = BitVec.twoPow 16 3 := by decide
  rw [← UInt16.toBitVec_inj, ← UInt16.toBitVec_inj, UInt16.toBitVec_and, single,
    BitVec.and_twoPow]
  split
  · exact .inr rfl
  · exact .inl rfl

/-- What a subscription requests is one of the bits that the loop looks for, or nothing. -/
theorem events_within (answers : PollAnswers) (sub : Subscription) {r : UInt16}
    (notReady : r &&& (pollRDNORM ||| pollWRNORM) = 0) : r &&& (sub.pollFd answers).events = 0 := by
  have events : (sub.pollFd answers).events &&& ~~~(pollRDNORM ||| pollWRNORM) = 0 := by
    rw [Subscription.pollFd]
    split
    · split
      · dsimp only
        split <;> decide
      · decide
    · decide
  rw [← and_of_within events, UInt16.and_comm (sub.pollFd answers).events, ← UInt16.and_assoc,
    notReady, UInt16.zero_and]

/-- An entry that was reported has an event, if it has not an error alone. -/
theorem fdEvent_of_revents {r : UInt16} (isFd : sub.IsFd)
    (requested : r &&& ~~~((sub.pollFd answers).events ||| pollERR ||| pollHUP ||| pollNVAL) = 0)
    (reported : r ≠ 0) (notAlone : r ≠ pollERR) :
    ∃ event, sub.fdEvent { sub.pollFd answers with revents := r } = some event := by
  rw [Subscription.fdEvent, if_pos isFd]
  split
  · exact ⟨_, rfl⟩
  next valid =>
    split
    · exact ⟨_, rfl⟩
    next notReady =>
      split
      · exact ⟨_, rfl⟩
      next notHungUp =>
        simp only [not_or, not_not] at valid notReady notHungUp
        have only := and_of_within requested
        rw [and_or_bits, and_or_bits, and_or_bits, valid.2, notHungUp,
          events_within answers sub notReady, UInt16.or_zero, UInt16.or_zero,
          UInt16.zero_or] at only
        rcases and_pollERR r with zero | error
        · exact absurd (only.symm.trans zero) reported
        · exact absurd (only.symm.trans error) notAlone

/-- An entry with an error alone has none. -/
theorem fdEvent_of_error (known : (sub.pollFd answers).fd ≠ invalidSocket) :
    sub.fdEvent { sub.pollFd answers with revents := pollERR } = none := by
  rw [Subscription.fdEvent]
  split
  · have valid : ¬ ((sub.pollFd answers).fd = invalidSocket ∨ pollERR &&& pollNVAL ≠ 0) := by
      rintro (absent | bits)
      · exact known absent
      · exact bits (by decide)
    have notReady : ¬ pollERR &&& (pollRDNORM ||| pollWRNORM) ≠ 0 := by decide
    have notHungUp : ¬ pollERR &&& pollHUP ≠ 0 := by decide
    simp only [if_neg valid, if_neg notReady, if_neg notHungUp]
  · rfl

theorem reventsOf_of_polls (polls : ¬ SleepOnly answers subs) (i : ℕ) :
    reventsOf answers subs i = (polled answers subs).2.getD i 0 := by
  rw [reventsOf, if_neg polls]

/-- A call that sleeps, or whose `poll` times out, has no readiness to lose. -/
theorem reventsOf_quiet (outcome : PollOutcome answers subs)
    (waited : SleepOnly answers subs ∨ (polled answers subs).1 = 0) (known : subs[i]? = some sub) :
    reventsOf answers subs i = 0 := by
  rw [reventsOf]
  split
  next => rfl
  next polls => exact revents_of_timeout outcome (waited.resolve_left polls) known

/-- An entry with an error alone belongs to a descriptor that is there. -/
theorem placed_of_error_alone (outcome : PollOutcome answers subs) (known : subs[i]? = some sub)
    (alone : (polled answers subs).2.getD i 0 = pollERR) :
    sub.IsFd ∧ (sub.pollFd answers).fd ≠ invalidSocket := by
  have placed : ¬ (sub.pollFd answers).fd < 0 := by
    intro negative
    have zero := outcome.ignored i sub known negative
    rw [alone] at zero
    exact absurd zero (by decide)
  constructor
  · by_contra other
    rw [Subscription.pollFd, if_neg other] at placed
    exact placed (by decide)
  · intro invalid
    rw [invalid] at placed
    exact placed (by decide)

/-- So it has no event. -/
theorem unreported_of_error_alone (outcome : PollOutcome answers subs)
    (known : subs[i]? = some sub) (alone : (polled answers subs).2.getD i 0 = pollERR)
    (event : Event) : (i, event) ∉ polledReports answers subs := by
  intro member
  obtain ⟨_, known', reported⟩ := mem_polledReports.mp member
  cases known.symm.trans known'
  rw [reportedEvent, polledFd, alone,
    fdEvent_of_error (placed_of_error_alone outcome known alone).2] at reported
  cases reported

/-- Any other entry that was reported has one. -/
theorem event_of_revents (outcome : PollOutcome answers subs) (known : subs[i]? = some sub)
    (isFd : sub.IsFd) (some : (polled answers subs).2.getD i 0 ≠ 0)
    (notAlone : (polled answers subs).2.getD i 0 ≠ pollERR) :
    ∃ event, (i, event) ∈ polledReports answers subs := by
  obtain ⟨event, reported⟩ :=
    fdEvent_of_revents isFd (outcome.requested i sub known) some notAlone
  exact ⟨event, mem_polledReports.mpr ⟨sub, known, reported⟩⟩

/-- No readiness of a list is lost, and there is an event, exactly when it is kept. -/
theorem readinessReported_iff (outcome : PollOutcome answers subs) (nonempty : subs ≠ [])
    (done : (pollOneOff answers subs).ret = 0) :
    ReadinessReported answers subs (pollOneOff answers subs) ↔ ReadinessKept answers subs := by
  have ended := pollOneOff_ended answers subs
  have attributed := attributed_pollOneOff answers subs
  rw [ReadinessReported, ReadinessKept]
  generalize same : (pollOneOff answers subs).reports = reports at ended ⊢
  cases ended with
  | empty noSubs => exact absurd noSubs nonempty
  | invalid sleeps noLeast refused =>
      rw [refused] at done
      exact absurd done (by decide)
  | clock entry found waited =>
      refine ⟨fun _ => ?_, fun _ => ⟨Nat.le_refl 1, fun i sub known _ some => ?_⟩⟩
      · refine or_iff_not_imp_left.mpr fun polls => ⟨fun i lt => ?_, fun _ => ?_⟩
        · have zero := reventsOf_quiet outcome waited (List.getElem?_eq_getElem lt)
          rw [reventsOf_of_polls polls] at zero
          rw [zero]
          decide
        · obtain ⟨least, below⟩ := firstLeast_of_found found
          exact ⟨entry, mem_of_leastTimeout found, _, least.has, below⟩
      · exact absurd (reventsOf_quiet outcome waited known) some
  | failed polls failed err =>
      rcases outcome.result with ⟨minusOne, error⟩ | count
      · exact absurd ((err minusOne).symm.trans done) error
      · omega
  | timedOut polls timedOut noLeast =>
      refine ⟨fun reported => absurd reported.1 (by decide), ?_⟩
      rintro (sleeps | ⟨_, own⟩)
      · exact absurd sleeps polls
      · obtain ⟨entry, member, timeout, value, below⟩ := own timedOut
        exact absurd (leastTimeout_eq_none noLeast member value) below
  | reported polls answered =>
      simp only [reventsOf_of_polls polls]
      constructor
      · rintro ⟨_, each⟩
        refine .inr ⟨fun i lt alone => ?_, fun timedOut => absurd timedOut (by omega)⟩
        have known := List.getElem?_eq_getElem lt
        have isFd := (placed_of_error_alone outcome known alone).1
        obtain ⟨event, one⟩ := each i subs[i] known isFd (by rw [alone]; decide)
        have member := mem_reports_of_eventsFor one
        rw [same] at member
        exact unreported_of_error_alone outcome known alone event member
      · rintro (sleeps | ⟨notAlone, _⟩)
        · exact absurd sleeps polls
        have all : ∀ {i sub}, subs[i]? = some sub → sub.IsFd →
            (polled answers subs).2.getD i 0 ≠ 0 →
            ∃ event, (i, event) ∈ polledReports answers subs := fun known isFd some =>
          event_of_revents outcome known isFd some
            (notAlone _ (List.getElem?_eq_some_iff.mp known).1)
        constructor
        · obtain ⟨i, sub, known, isFd, some⟩ := exists_revents outcome answered
          obtain ⟨event, member⟩ := all known isFd some
          exact List.length_pos_of_mem member
        · intro i sub known isFd some
          obtain ⟨event, member⟩ := all known isFd some
          exact ⟨event, eventsFor_eq_singleton attributed (by rwa [same])⟩

end Readiness

/-- **Readiness.** Whenever a call with subscriptions returns 0, whatever the outcome of `poll`: no
readiness is lost and there is an event exactly when the call only sleeps, or no entry has an error
alone and a timeout of `poll` is one of the guest. So it is for the calls on any memory where the
places do not overlap, whose number of events is in its word. -/
theorem readiness_reported_iff (answers : PollAnswers) :
    (∀ subs : List Subscription, PollOutcome answers subs → subs ≠ [] →
      (pollOneOff answers subs).ret = 0 →
      (ReadinessReported answers subs (pollOneOff answers subs) ↔ ReadinessKept answers subs)) ∧
      ∀ (L : LinearMemory) (args : PollArgs) (mem : Memory), ArraysApart args →
        PollOutcome answers (subscriptions args mem) → args.appSubCount ≠ 0 →
        (wasiPollOneOff L args answers mem).1 = 0 →
        (wasiPollOneOff L args answers mem).2.value args .nEvents =
            (callResult args (wasiPollOneOff L args answers mem)).reports.length ∧
          (ReadinessReported answers (subscriptions args mem)
              (callResult args (wasiPollOneOff L args answers mem)) ↔
            ReadinessKept answers (subscriptions args mem)) := by
  refine ⟨fun _ outcome nonempty done => readinessReported_iff outcome nonempty done,
    fun L args mem apart outcome some done => ⟨?_, ?_⟩⟩
  · exact number_of_callResult (validated_of_done done) apart answers mem
  · have result := callResult_eq (validated_of_done done) apart answers mem
    rw [result]
    exact readinessReported_iff outcome (mt subscriptions_eq_nil_iff.mp some)
      ((congrArg PollResult.ret result).symm.trans done)

/-- What is documented of `poll`, for one subscription. -/
theorem pollOutcome_single {answers : PollAnswers} {sub : Subscription}
    (result : (polled answers [sub]).1 =
      ((List.range 1).filter fun i => (polled answers [sub]).2.getD i 0 ≠ 0).length)
    (requested : (polled answers [sub]).2.getD 0 0 &&&
      ~~~((sub.pollFd answers).events ||| pollERR ||| pollHUP ||| pollNVAL) = 0)
    (ignored : (sub.pollFd answers).fd < 0 → (polled answers [sub]).2.getD 0 0 = 0) :
    PollOutcome answers [sub] := by
  refine ⟨.inr result, fun i other known => ?_, fun i other known => ?_⟩
  · cases i with
    | zero =>
        cases known
        exact requested
    | succ i => cases known
  · cases i with
    | zero =>
        cases known
        exact ignored
    | succ i => cases known

/-- One subscription, its event, and the number of events, in the places of two. -/
def secondOnly : PollArgs := ⟨48, 96, 1, 160⟩

theorem secondOnly_apart : ArraysApart secondOnly :=
  ⟨.inl (by decide), .inl (by decide), .inr (by decide)⟩

theorem subscriptions_secondOnly :
    subscriptions secondOnly (clockAndRead 0 3) = [readFrom 3] := by
  decide +kernel

/-- A descriptor that is readable has its event. -/
theorem readable_reported :
    ReadinessReported readableHost [readFrom 3] (pollOneOff readableHost [readFrom 3]) ∧
      ReadinessReported readableHost (subscriptions secondOnly (clockAndRead 0 3))
        (callResult secondOnly
          (wasiPollOneOff onePage secondOnly readableHost (clockAndRead 0 3))) := by
  have outcome : PollOutcome readableHost [readFrom 3] :=
    pollOutcome_single (by decide) (by decide) (by decide)
  have kept : ReadinessKept readableHost [readFrom 3] := by
    refine .inr ⟨fun i lt => ?_, by decide⟩
    cases Nat.lt_one_iff.mp lt
    decide
  have reported := readiness_reported_iff readableHost
  refine ⟨(reported.1 _ outcome (by decide) (by decide)).mpr kept,
    (reported.2 _ _ _ secondOnly_apart ?_ (by decide) (by decide +kernel)).2.mpr ?_⟩
  · rwa [subscriptions_secondOnly]
  · rwa [subscriptions_secondOnly]

/-- `poll` says that an entry has an error, and nothing else. -/
def errorHost : PollAnswers := ⟨fun _ _ _ => none, fun fd => if fd = 3 then some 7 else none,
  fun entries _ => (1, entries.map fun _ => pollERR), 0⟩

/-- A call that waits for a descriptor returns 0 without an event: when the descriptor has an error
alone, and when `poll` comes back after the longest timeout that it can be given. -/
theorem empty_success :
    ((PollOutcome errorHost [readFrom 3] ∧ (pollOneOff errorHost [readFrom 3]).ret = 0 ∧
        ¬ ReadinessReported errorHost [readFrom 3] (pollOneOff errorHost [readFrom 3])) ∧
      PollOutcome quietHost [readFrom 3] ∧ (pollOneOff quietHost [readFrom 3]).ret = 0 ∧
        ¬ ReadinessReported quietHost [readFrom 3] (pollOneOff quietHost [readFrom 3])) ∧
      (wasiPollOneOff onePage secondOnly errorHost (clockAndRead 0 3)).1 = 0 ∧
        (wasiPollOneOff onePage secondOnly errorHost (clockAndRead 0 3)).2.value secondOnly
          .nEvents = 0 ∧
        ¬ ReadinessReported errorHost (subscriptions secondOnly (clockAndRead 0 3))
          (callResult secondOnly
            (wasiPollOneOff onePage secondOnly errorHost (clockAndRead 0 3))) := by
  have empty : ¬ ReadinessReported errorHost [readFrom 3] (pollOneOff errorHost [readFrom 3]) := by
    rintro ⟨some, _⟩
    exact absurd some (by decide)
  refine ⟨⟨⟨pollOutcome_single (by decide) (by decide) (by decide), by decide, empty⟩,
    pollOutcome_single (by decide) (by decide) (by decide), by decide, ?_⟩,
    by decide +kernel, by decide +kernel, ?_⟩
  · rintro ⟨some, _⟩
    exact absurd some (by decide)
  · rwa [callResult_eq (by decide) secondOnly_apart, subscriptions_secondOnly]

end Socket
end WamrExt
