import WamrExt.Socket.PollReports

/-!
# The events that `poll_oneoff` reports

Every event that a call leaves in the memory of the guest is true, and is there once: there is one
event for a clock, or the events are for subscriptions in their order, and say of each descriptor
what the descriptor table and `poll` have said. Their number is at most that of the subscriptions,
and the rest of the array is zero (`true_events`).
-/

set_option autoImplicit false

namespace WamrExt
namespace Socket

open ByteMemory Wamr

/-- An event for a descriptor says what the lookup and the entry of its subscription say: it is
ready when what was requested is reported, hung up when this is reported and nothing ready, and bad
when the lookup failed or the entry is invalid. -/
structure TrueFdEvent (answers : PollAnswers) (subs : List Subscription)
    (entry : Subscription × ℕ) (event : Event) : Prop where
  isFd : entry.1.IsFd
  userdata : event.userdata = entry.1.userdata
  type : event.type = entry.1.type
  error : event.error = 0 ∨ event.error = uvwasiEPIPE ∨ event.error = uvwasiEBADF
  ready : event.error = 0 →
    (polledFd answers subs entry).revents &&& (entry.1.pollFd answers).events ≠ 0
  hungUp : event.error = uvwasiEPIPE → (polledFd answers subs entry).revents &&& pollHUP ≠ 0 ∧
    (polledFd answers subs entry).revents &&& (pollRDNORM ||| pollWRNORM) = 0
  bad : event.error = uvwasiEBADF →
    entry.1.Failed answers ∨ (polledFd answers subs entry).revents &&& pollNVAL ≠ 0

/-- What a call leaves in the event array, given the memory it was called with: an event for a
clock, or true events for a strictly increasing selection of the subscriptions, and zeros. -/
structure TrueEvents (answers : PollAnswers) (args : PollArgs) (mem : Memory) (s : PollState) :
    Prop where
  number_le : s.value args .nEvents ≤ args.appSubCount.toNat
  events : (∃ (i : ℕ) (sub : Subscription), (subscriptions args mem)[i]? = some sub ∧
      sub.IsClock ∧ s.value args .nEvents = 1 ∧ eventAt args s.mem 0 = sub.event 0 0) ∨
    ∃ selected : List ℕ, selected.Pairwise (· < ·) ∧
      selected.length = s.value args .nEvents ∧
      ∀ (k i : ℕ), selected[k]? = some i → ∃ sub, (subscriptions args mem)[i]? = some sub ∧
        TrueFdEvent answers (subscriptions args mem) (sub, i) (eventAt args s.mem k)
  rest : ∀ k, s.value args .nEvents ≤ k → k < args.appSubCount.toNat → ∀ b < eventSize,
    s.mem (args.pAppOutEvent + eventSize * k + b) = 0

section True

variable {answers : PollAnswers} {subs : List Subscription} {sub : Subscription} {i : ℕ}
  {event : Event}

/-- What is ready was requested. -/
theorem requested_of_ready {r : UInt16}
    (within : r &&& ~~~((sub.pollFd answers).events ||| pollERR ||| pollHUP ||| pollNVAL) = 0)
    (ready : r &&& (pollRDNORM ||| pollWRNORM) ≠ 0) : r &&& (sub.pollFd answers).events ≠ 0 := by
  intro nothing
  have only := and_of_within within
  rw [and_or_bits, and_or_bits, and_or_bits, nothing, UInt16.zero_or, ← and_or_bits,
    ← and_or_bits] at only
  rw [← only, UInt16.and_assoc] at ready
  exact ready (by rw [show (pollERR ||| pollHUP ||| pollNVAL) &&& (pollRDNORM ||| pollWRNORM) = 0
    from by decide, UInt16.and_zero])

/-- The three errors of an event are different. -/
theorem eventErrors_ne :
    uvwasiEPIPE ≠ 0 ∧ uvwasiEBADF ≠ 0 ∧ uvwasiEPIPE ≠ uvwasiEBADF := by
  decide

/-- The event of an entry is true. -/
theorem trueFdEvent (opened : ∀ fd, answers.hostFD fd ≠ some invalidSocket)
    (requested : RequestedOnly answers subs) (known : subs[i]? = some sub)
    (reported : reportedEvent answers subs (sub, i) = some event) :
    TrueFdEvent answers subs (sub, i) event := by
  obtain ⟨isFd, userdata, type⟩ := Subscription.fdEvent_eq_some reported
  have within := requested i sub known
  obtain ⟨pipe, bad, apart⟩ := eventErrors_ne
  rw [reportedEvent, Subscription.fdEvent, if_pos isFd] at reported
  split at reported
  next invalid =>
    cases reported
    refine ⟨isFd, userdata, type, .inr (.inr rfl), (absurd · bad), (absurd · apart.symm),
      fun _ => ?_⟩
    rcases invalid with placeholder | bits
    · refine .inl ⟨isFd, ?_⟩
      rw [polledFd, Subscription.pollFd, if_pos isFd] at placeholder
      cases found : answers.hostFD sub.fd with
      | none => rfl
      | some fd =>
          rw [found] at placeholder
          cases placeholder
          exact absurd found (opened _)
    · exact .inr bits
  next =>
    split at reported
    next ready =>
      cases reported
      exact ⟨isFd, userdata, type, .inl rfl, fun _ => requested_of_ready within ready,
        (absurd · pipe.symm), (absurd · bad.symm)⟩
    next notReady =>
      split at reported
      next hungUp =>
        cases reported
        exact ⟨isFd, userdata, type, .inr (.inl rfl), (absurd · pipe),
          fun _ => ⟨hungUp, not_not.mp notReady⟩, (absurd · apart)⟩
      next => cases reported

/-- What a call reports is true, whatever its end. -/
theorem true_reports (opened : ∀ fd, answers.hostFD fd ≠ some invalidSocket)
    (requested : RequestedOnly answers subs) :
    (∃ entry ∈ subs.zipIdx, entry.1.IsClock ∧
      (pollOneOff answers subs).reports = [(entry.2, entry.1.event 0 0)]) ∨
    ∀ i event, (i, event) ∈ (pollOneOff answers subs).reports →
      ∃ sub, subs[i]? = some sub ∧ TrueFdEvent answers subs (sub, i) event := by
  have ended := pollOneOff_ended answers subs
  generalize (pollOneOff answers subs).reports = reports at ended ⊢
  cases ended with
  | empty | invalid | failed | timedOut => exact .inr nofun
  | clock entry found =>
      exact .inl ⟨entry, mem_of_leastTimeout found, clock_of_least (firstLeast_of_found found).1,
        rfl⟩
  | reported =>
      refine .inr fun i event member => ?_
      obtain ⟨sub, known, reported⟩ := mem_polledReports.mp member
      exact ⟨sub, known, trueFdEvent opened requested known reported⟩

/-- There are no more events than subscriptions. -/
theorem reports_length_le (answers : PollAnswers) (subs : List Subscription) :
    (pollOneOff answers subs).reports.length ≤ subs.length := by
  have ended := pollOneOff_ended answers subs
  generalize (pollOneOff answers subs).reports = reports at ended ⊢
  cases ended with
  | empty | invalid | failed | timedOut => exact Nat.zero_le _
  | clock entry found =>
      have some := List.length_pos_of_mem (mem_of_leastTimeout found)
      rwa [List.length_zipIdx] at some
  | reported => exact (List.length_filterMap_le _ _).trans_eq List.length_zipIdx

end True

/-- **True events.** Whatever the subscriptions, the descriptor table and the outcome of `poll` are:
when a call returns 0, its events in memory are true, each for one subscription and in their order.
The descriptors of the table are open, and the three places do not overlap. -/
theorem true_events {L : LinearMemory} {args : PollArgs} {answers : PollAnswers} {mem : Memory}
    (apart : ArraysApart args) (opened : ∀ fd, answers.hostFD fd ≠ some invalidSocket)
    (requested : RequestedOnly answers (subscriptions args mem))
    (done : (wasiPollOneOff L args answers mem).1 = 0) :
    TrueEvents answers args mem (wasiPollOneOff L args answers mem).2 := by
  have validated := validated_of_done done
  have written := (wasiPollOneOff_refines validated apart answers mem).written
  have attributed := attributed_pollOneOff answers (subscriptions args mem)
  have fewer := reports_length_le answers (subscriptions args mem)
  have true_ := true_reports opened requested
  generalize (pollOneOff answers (subscriptions args mem)).reports = reports at *
  have number := written.number
  rw [List.length_map] at number
  refine ⟨?_, ?_, fun k low high b bound => ?_⟩
  · rw [subscriptions, List.length_map, List.length_range] at fewer
    rwa [number]
  · rcases true_ with ⟨entry, member, clock, rfl⟩ | each
    · exact .inl ⟨entry.2, entry.1, List.mem_zipIdx_iff_getElem?.mp member, clock, number,
        written.each 0 _ rfl⟩
    · refine .inr ⟨reports.map Prod.fst, attributed.increasing, by rw [List.length_map, number],
        fun k i selected => ?_⟩
      rw [List.getElem?_map] at selected
      obtain ⟨⟨_, event⟩, report, rfl⟩ := Option.map_eq_some_iff.mp selected
      obtain ⟨sub, known, event_true⟩ := each _ event (List.mem_of_getElem? report)
      have here : eventAt args (wasiPollOneOff L args answers mem).2.mem k = event :=
        written.each k event (by rw [List.getElem?_map, report]; rfl)
      rw [here]
      exact ⟨sub, known, event_true⟩
  · rw [number] at low
    apply written.rest
    · have := Nat.mul_le_mul_left eventSize low
      rw [List.length_map]
      omega
    · have := eventSize_mul_le high
      rw [Nat.mul_succ] at this
      omega

/-- Two subscriptions: for reading from descriptor 3, and for a relative timeout. -/
def readOrTimeout : Memory :=
  store (store (store (store (fun _ => 0) 0 8 7) 8 1 1) 16 4 3) 72 8 1000000

/-- The descriptor is readable, so there is one event, for the first subscription. -/
theorem read_event_true :
    TrueEvents readableHost twoSubscriptions readOrTimeout
      (wasiPollOneOff onePage twoSubscriptions readableHost readOrTimeout).2 := by
  have subs : subscriptions twoSubscriptions readOrTimeout =
      [⟨7, 1, 3, 0, 0, 0, 3⟩, ⟨0, 0, 0, 1000000, 0, 0, 0⟩] := by
    decide +kernel
  refine true_events twoSubscriptions_apart (fun fd => ?_) ?_ (by decide +kernel)
  · simp only [readableHost]
    split <;> decide
  · rw [subs]
    intro i sub known
    match i with
    | 0 | 1 =>
        cases known
        decide
    | i + 2 => cases known

end Socket
end WamrExt
