import WamrExt.Socket.PollMemory

/-!
# The result of `poll_oneoff` in memory

What a call of `wasiPollOneOff` has done is read off what it leaves: the value it returns, the
events in the memory of the guest, and what it asked the host to wait for. For which subscription
an event was made is in the log, since a call reads the user data of a subscription only to copy
it to an event.

Where the places do not overlap, this is the result of `pollOneOff` on the list of the
subscriptions (`callResult_eq`). So what is said of that list below is said of the call.
-/

set_option autoImplicit false

namespace WamrExt
namespace Socket

open ByteMemory Wamr

/-- The subscription whose user data an access reads. -/
def Access.userdataOf : Access → Option ℕ
  | .sub i .userdata => some i
  | _ => none

/-- The subscriptions whose user data has been read, in order. -/
def PollState.sources (s : PollState) : List ℕ := s.log.filterMap Access.userdataOf

/-- The events that are in memory, by the number of events. -/
def eventsIn (args : PollArgs) (s : PollState) : List Event :=
  (List.range (s.value args .nEvents)).map (eventAt args s.mem)

/-- What a call has returned, the events it has left, each with the subscription whose user data
was read for it, and the waits. -/
def callResult (args : PollArgs) (outcome : UInt16 × PollState) : PollResult where
  ret := outcome.1
  reports := outcome.2.sources.zip (eventsIn args outcome.2)
  waits := outcome.2.waits

/-! ## The sources -/

section Sources

variable {args : PollArgs} {s : PollState}

@[simp]
theorem sources_touch (s : PollState) (reads : List Access) :
    (s.touch reads).sources = s.sources ++ reads.filterMap Access.userdataOf :=
  List.filterMap_append

theorem sources_write (s : PollState) (args : PollArgs) (a : Access) (v : ℕ) :
    (s.write args a v).sources = s.sources ++ (Access.userdataOf a).toList := by
  refine (List.filterMap_append ..).trans (congrArg (s.sources ++ ·) ?_)
  cases reads : Access.userdataOf a with
  | none => exact List.filterMap_cons_none reads
  | some i => exact List.filterMap_cons_some reads

/-- Writing an event, or the number of events, reads nothing. -/
@[simp]
theorem sources_write_event (s : PollState) (args : PollArgs) (n : ℕ) (field : EventField)
    (v : ℕ) : (s.write args (.event n field) v).sources = s.sources :=
  (sources_write s args _ v).trans (List.append_nil _)

@[simp]
theorem sources_write_number (s : PollState) (args : PollArgs) (v : ℕ) :
    (s.write args .nEvents v).sources = s.sources :=
  (sources_write s args _ v).trans (List.append_nil _)

/-- Waiting reads nothing. -/
@[simp]
theorem sources_waits (s : PollState) (waits : List HostWait) :
    PollState.sources { s with waits := waits } = s.sources := rfl

theorem sources_clearedState (args : PollArgs) (mem : Memory) :
    (clearedState args mem).sources = [] := rfl

section Scan

variable (args) (answers : PollAnswers)

theorem sources_clockTimeout (s : PollState) (i : ℕ) :
    (clockTimeout args answers s i).1.sources = s.sources := by
  simp only [clockTimeout]
  split
  · simp [Access.userdataOf]
  · split <;> simp [Access.userdataOf]

theorem sources_scanClock (scan : Scan) (i : ℕ) :
    (scanClock args answers scan i).state.sources = scan.state.sources := by
  have read : (scan.state.touch [.sub i .type]).sources = scan.state.sources := by
    simp [Access.userdataOf]
  simp only [scanClock]
  split
  · split <;> exact (sources_clockTimeout args answers _ i).trans read
  · exact read

theorem sources_scanFd (scan : Scan) (i : ℕ) :
    (scanFd args answers scan i).state.sources = scan.state.sources := by
  simp only [scanFd]
  split
  · split <;> simp [Access.userdataOf]
  · rfl

/-- The look through the subscriptions reads no user data. -/
theorem sources_scanSubs (s : PollState) (count : ℕ) :
    (scanSubs args answers s count).state.sources = s.sources := by
  induction count with
  | zero => rfl
  | succ count ih =>
      rw [scanSubs_succ, sources_scanFd, sources_scanClock, ih]

end Scan

/-- An event is made from one subscription. -/
theorem sources_fillEvent (s : PollState) (n j : ℕ) (error : UInt16) :
    (fillEvent args s n j error).sources = s.sources ++ [j] := by
  simp [fillEvent_def, PollState.copy, Access.userdataOf]

theorem sources_reportEvent (s : PollState) (j : ℕ) (error : UInt16) (hangup : Bool) :
    (reportEvent args s j error hangup).sources = s.sources ++ [j] := by
  have counted : (nextEvent args s).2.sources = s.sources := by
    simp [nextEvent, Access.userdataOf]
  have filled : (fillEvent args (nextEvent args s).2 (nextEvent args s).1 j error).sources =
      s.sources ++ [j] := by
    rw [sources_fillEvent, counted]
  rw [reportEvent]
  split
  · exact (sources_write_event ..).trans filled
  · exact filled

/-- The body of the loop over the answers of `poll` makes an event from its subscription, or
none. -/
theorem sources_reportFd {mem : Memory} (kept : SubsKept args mem s) {i : ℕ}
    (sub : i < args.appSubCount.toNat) (pollArr : List PollFd) :
    (reportFd args pollArr s i).sources = s.sources ++
      (((subscriptionAt args mem i).fdEvent
        (pollArr.getD i ⟨invalidSocket, 0, 0⟩)).map fun _ => i).toList := by
  have type : s.value args (.sub i .type) = (subscriptionAt args mem i).type.toNat :=
    (kept i sub .type).trans (type_subscriptionAt args mem i).symm
  have read : (s.touch [.sub i .type]).sources = s.sources := by simp [Access.userdataOf]
  simp only [reportFd, type, Subscription.fdEvent]
  generalize pollArr.getD i ⟨invalidSocket, 0, 0⟩ = cur
  by_cases isFd : (subscriptionAt args mem i).IsFd
  · rw [if_pos (show _ ∨ _ from isFd), if_pos isFd]
    split
    · rw [sources_reportEvent, read]; rfl
    split
    · rw [sources_reportEvent, read]; rfl
    split
    · rw [sources_reportEvent, read]; rfl
    · rw [read]; exact (List.append_nil _).symm
  · rw [if_neg (show ¬ (_ ∨ _) from isFd), if_neg isFd, read]
    exact (List.append_nil _).symm

/-- The loop makes its events from the subscriptions whose entries give one. -/
theorem sources_reports {mem : Memory} (apart : ArraysApart args) (written : Written args mem s [])
    {pollArr : List PollFd} {cur : ℕ → PollFd}
    (entries : ∀ i < args.appSubCount.toNat, pollArr.getD i ⟨invalidSocket, 0, 0⟩ = cur i) {k : ℕ}
    (le : k ≤ args.appSubCount.toNat) :
    ((List.range k).foldl (reportFd args pollArr) s).sources = s.sources ++
      (firstEntries args mem k).filterMap fun entry =>
        (entry.1.fdEvent (cur entry.2)).map fun _ => entry.2 := by
  induction k with
  | zero => exact (List.append_nil _).symm
  | succ k ih =>
      have before := (written.reports apart entries (Nat.le_of_succ_le le)).1
      rw [List.range_succ, List.foldl_append, filterMap_firstEntries_succ, ← List.append_assoc,
        ← ih (Nat.le_of_succ_le le), ← entries k le]
      exact sources_reportFd before.subs le pollArr

end Sources

/-! ## The call -/

section Call

variable {args : PollArgs} {mem : Memory} {answers : PollAnswers} {s : PollState} {scan : Scan}

theorem map_fst_polledReports (answers : PollAnswers) (subs : List Subscription) :
    (polledReports answers subs).map Prod.fst =
      subs.zipIdx.filterMap fun entry =>
        (reportedEvent answers subs entry).map fun _ => entry.2 := by
  rw [polledReports, List.map_filterMap]
  refine List.filterMap_congr fun entry _ => ?_
  rw [Option.map_map]
  rfl

/-- A call that polls no descriptor makes its event from the subscription with the least
timeout. -/
theorem sources_sleepOnly
    (refines : ScanRefines args answers mem s args.appSubCount.toNat scan) :
    (sleepOnly args scan).2.sources = scan.state.sources ++
      (sleepResult answers (subscriptions args mem)).reports.map Prod.fst := by
  have timeoutSub := refines.all.2.1
  cases found : (leastTimeout answers (subscriptions args mem)).2 with
  | none =>
      rw [found] at timeoutSub
      rw [sleepOnly, timeoutSub, sleepResult, found]
      exact (List.append_nil _).symm
  | some entry =>
      rw [found] at timeoutSub
      rw [sleepOnly, timeoutSub, sleepResult, found]
      simp only [Option.map_some, sources_write_number, sources_fillEvent]
      split <;> rfl

/-- A call that polls descriptors makes its events from the subscriptions that `pollOneOff`
reports. -/
theorem sources_pollFds (apart : ArraysApart args)
    (refines : ScanRefines args answers mem s args.appSubCount.toNat scan)
    (written : Written args mem s []) :
    (pollFds args answers scan).2.sources = scan.state.sources ++
      (polledResult answers (subscriptions args mem)).reports.map Prod.fst := by
  obtain ⟨_, timeoutSub, _, pollArr⟩ := refines.all
  obtain ⟨milliseconds, answered⟩ := refines.polled
  simp only [pollFds, milliseconds, answered, polledResult]
  split
  next => exact (List.append_nil _).symm
  next =>
    split
    next =>
      cases found : (leastTimeout answers (subscriptions args mem)).2 with
      | none =>
          rw [found] at timeoutSub
          rw [timeoutSub]
          exact (List.append_nil _).symm
      | some entry =>
          rw [found] at timeoutSub
          rw [timeoutSub]
          exact sources_reportEvent ..
    next =>
      split
      next =>
        have waited : Written args mem { scan.state with waits := scan.state.waits ++
            [HostWait.poll scan.pollArr.length (pollTimeout answers (subscriptions args mem))] }
            [] := written.of_mem refines.sameMem
        rw [pollArr] at waited ⊢
        rw [sources_reports apart waited (fun i lt => setRevents_getD lt) (Nat.le_refl _),
          map_fst_polledReports, zipIdx_subscriptions, sources_waits]
        refine congrArg (scan.state.sources ++ ·) (List.filterMap_congr fun entry member => ?_)
        rw [events_of_entries answers entry member]
      next => exact (List.append_nil _).symm

/-- The events are made from the subscriptions that `pollOneOff` reports them for. -/
theorem sources_wasiPollOneOff {L : LinearMemory} (validated : Validated L args)
    (apart : ArraysApart args) (answers : PollAnswers) (mem : Memory) :
    (wasiPollOneOff L args answers mem).2.sources =
      (pollOneOff answers (subscriptions args mem)).reports.map Prod.fst := by
  by_cases none : args.appSubCount = 0
  · rw [wasiPollOneOff, if_neg (not_not.mpr validated), if_pos none, pollOneOff,
      if_pos (subscriptions_eq_nil_iff.mpr none)]
    rfl
  · have written := written_cleared apart mem
    have refines : ScanRefines args answers mem _ _
        (scanSubs args answers (clearedState args mem) args.appSubCount.toNat) :=
      scanSubs_refines written.subs (Nat.le_refl _)
    have sleeps := refines.all.2.2.1
    have unread := sources_scanSubs args answers (clearedState args mem) args.appSubCount.toNat
    rw [sources_clearedState] at unread
    rw [wasiPollOneOff_some validated none, pollOneOff,
      if_neg (mt subscriptions_eq_nil_iff.mp none)]
    dsimp only
    split
    next only =>
      rw [if_pos (sleeps.mp only), sources_sleepOnly refines, unread, List.nil_append]
    next polls =>
      rw [if_neg (mt sleeps.mpr polls), sources_pollFds apart refines written, unread,
        List.nil_append]

/-- The events in memory are those that the state holds. -/
theorem Written.eventsIn {events : List Event} (written : Written args mem s events) :
    Socket.eventsIn args s = events := by
  apply List.ext_getElem
  · simp [Socket.eventsIn, written.number]
  · intro k _ inside
    simp only [Socket.eventsIn, List.getElem_map, List.getElem_range]
    exact written.each k _ (List.getElem?_eq_getElem inside)

/-- **The result of a call.** Where the places do not overlap, what a call leaves in memory is the
result of `pollOneOff` on the list of its subscriptions. -/
theorem callResult_eq {L : LinearMemory} (validated : Validated L args) (apart : ArraysApart args)
    (answers : PollAnswers) (mem : Memory) :
    callResult args (wasiPollOneOff L args answers mem) =
      pollOneOff answers (subscriptions args mem) := by
  have refines := wasiPollOneOff_refines validated apart answers mem
  have reports : (wasiPollOneOff L args answers mem).2.sources.zip
      (eventsIn args (wasiPollOneOff L args answers mem).2) =
        (pollOneOff answers (subscriptions args mem)).reports := by
    rw [sources_wasiPollOneOff validated apart, refines.written.eventsIn]
    exact (List.zip_of_prod rfl rfl).symm
  rw [callResult, refines.ret, refines.waits, reports]

/-- The word holds the number of the events that are reported. -/
theorem number_of_callResult {L : LinearMemory} (validated : Validated L args)
    (apart : ArraysApart args) (answers : PollAnswers) (mem : Memory) :
    (wasiPollOneOff L args answers mem).2.value args .nEvents =
      (callResult args (wasiPollOneOff L args answers mem)).reports.length := by
  rw [callResult_eq validated apart,
    (wasiPollOneOff_refines validated apart answers mem).written.number, List.length_map]

/-- A call that fails its validation reports nothing. -/
theorem callResult_refused {L : LinearMemory} (refused : ¬ Validated L args)
    (answers : PollAnswers) (mem : Memory) :
    callResult args (wasiPollOneOff L args answers mem) = ⟨uvwasiEFAULT, [], []⟩ := by
  rw [wasiPollOneOff, if_pos refused]
  rfl

/-- A call that returns 0 has passed its validation. -/
theorem validated_of_done {L : LinearMemory}
    (done : (wasiPollOneOff L args answers mem).1 = 0) : Validated L args := by
  by_contra refused
  rw [wasiPollOneOff, if_pos refused] at done
  exact absurd (show uvwasiEFAULT = 0 from done) (by decide)

end Call

end Socket
end WamrExt
