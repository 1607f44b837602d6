import WamrExt.Socket.PollOneOff

/-!
# `poll_oneoff` and the bounds of the linear memory

The sizes of the two arrays are products with a 32-bit count, and the validation takes them
in 32 bits. The function itself uses the products in full. So a call that passes its
validation stays inside the linear memory exactly when the larger product fits 32 bits and
the number of events, which no validation covers, lies inside (`poll_contained_iff`).

The indices of the subscriptions it reads are below the count. The indices of the events it
writes are too, as long as the number of events is not itself in the event array
(`event_index_lt`).

Both facts are read off the log: `Adds` says what a part of the function adds to it.
-/

set_option autoImplicit false

namespace WamrExt
namespace Socket

open ByteMemory Wamr

/-! ## What is added to the log -/

/-- A part of the function appends to the log, and only accesses of a kind. -/
def Adds (kind : Access → Prop) (s s' : PollState) : Prop :=
  ∃ added, s'.log = s.log ++ added ∧ ∀ a ∈ added, kind a

namespace Adds

variable {kind : Access → Prop} {s s' s'' : PollState} {args : PollArgs}

theorem refl (s : PollState) : Adds kind s s :=
  ⟨[], (List.append_nil _).symm, fun _ member => absurd member List.not_mem_nil⟩

theorem trans (first : Adds kind s s') (second : Adds kind s' s'') : Adds kind s s'' := by
  obtain ⟨added, log, all⟩ := first
  obtain ⟨later, log', all'⟩ := second
  refine ⟨added ++ later, by rw [log', log, List.append_assoc], fun a member => ?_⟩
  exact (List.mem_append.mp member).elim (all a) (all' a)

theorem of_log (same : s'.log = s.log) : Adds kind s s' :=
  ⟨[], by rw [same, List.append_nil], fun _ member => absurd member List.not_mem_nil⟩

theorem touch {reads : List Access} (all : ∀ a ∈ reads, kind a) :
    Adds kind s (s.touch reads) :=
  ⟨reads, rfl, all⟩

theorem write {a : Access} (own : kind a) (v : ℕ) : Adds kind s (s.write args a v) :=
  ⟨[a], rfl, fun _ member => List.mem_singleton.mp member ▸ own⟩

theorem clear (own : kind .clearEvents) : Adds kind s (s.clear args) :=
  ⟨[.clearEvents], rfl, fun _ member => List.mem_singleton.mp member ▸ own⟩

theorem copy {source target : Access} (first : kind source) (second : kind target) :
    Adds kind s (s.copy args source target) :=
  (touch fun _ member => List.mem_singleton.mp member ▸ first).trans (write second _)

/-- A loop adds what its body adds. -/
theorem foldl {body : PollState → ℕ → PollState} {count : ℕ}
    (each : ∀ s, ∀ i < count, Adds kind s (body s i)) (s : PollState) :
    Adds kind s ((List.range count).foldl body s) := by
  induction count with
  | zero => exact refl s
  | succ count ih =>
      rw [List.range_succ, List.foldl_append]
      exact (ih fun s i lt => each s i (Nat.lt_succ_of_lt lt)).trans
        (each _ count (Nat.lt_succ_self count))

/-- What was in the log stays there. -/
theorem mem_log (adds : Adds kind s s') {a : Access} (logged : a ∈ s.log) : a ∈ s'.log := by
  obtain ⟨added, log, _⟩ := adds
  rw [log]
  exact List.mem_append_left _ logged

/-- What is in the log was there or is of the kind. -/
theorem mem_kind (adds : Adds kind s s') {a : Access} (logged : a ∈ s'.log) :
    a ∈ s.log ∨ kind a := by
  obtain ⟨added, log, all⟩ := adds
  rw [log] at logged
  exact (List.mem_append.mp logged).imp_right (all a)

end Adds

/-! ## The look through the subscriptions -/

/-- A kind of access that has every field of the subscriptions below a count. -/
def HasSubs (kind : Access → Prop) (count : ℕ) : Prop :=
  ∀ i < count, ∀ field, kind (.sub i field)

section Scan

variable {args : PollArgs} {answers : PollAnswers} {kind : Access → Prop} {count : ℕ}

/-- What the loop over the subscriptions keeps. -/
structure Scanned (kind : Access → Prop) (count : ℕ) (s : PollState) (scan : Scan) : Prop where
  adds : Adds kind s scan.state
  mem : scan.state.mem = s.mem
  timeout : ∀ j, scan.pTimeoutSub = some j → j < count

theorem clockTimeout_adds {i : ℕ} (subs : ∀ field, kind (.sub i field)) (s : PollState) :
    Adds kind s (clockTimeout args answers s i).1 ∧
      (clockTimeout args answers s i).1.mem = s.mem := by
  simp only [clockTimeout]
  split
  · exact ⟨Adds.touch (by simp [subs]), rfl⟩
  · split
    · exact ⟨Adds.touch (by simp [subs]), rfl⟩
    · exact ⟨(Adds.touch (by simp [subs])).trans (Adds.touch (by simp [subs])), rfl⟩

theorem Scanned.clock {s : PollState} {scan : Scan} (inv : Scanned kind count s scan)
    (subs : HasSubs kind count) {i : ℕ} (lt : i < count) :
    Scanned kind count s (scanClock args answers scan i) := by
  have read : Adds kind scan.state (scan.state.touch [.sub i .type]) :=
    Adds.touch (by simp [subs i lt])
  obtain ⟨adds, mem⟩ : Adds kind _ (clockTimeout args answers
      (scan.state.touch [.sub i .type]) i).1 ∧ _ := clockTimeout_adds (subs i lt) _
  simp only [scanClock]
  split
  · split
    · refine ⟨inv.adds.trans (read.trans adds), mem.trans inv.mem, fun j same => ?_⟩
      cases same
      exact lt
    · exact ⟨inv.adds.trans (read.trans adds), mem.trans inv.mem, inv.timeout⟩
  · exact ⟨inv.adds.trans read, inv.mem, inv.timeout⟩

theorem scanFd_adds {i : ℕ} (subs : ∀ field, kind (.sub i field)) (scan : Scan) :
    Adds kind scan.state (scanFd args answers scan i).state ∧
      (scanFd args answers scan i).state.mem = scan.state.mem ∧
      (scanFd args answers scan i).pTimeoutSub = scan.pTimeoutSub := by
  have read : Adds kind scan.state (scan.state.touch [.sub i .fd]) :=
    Adds.touch (by simp [subs])
  simp only [scanFd]
  split
  · split <;> exact ⟨read, rfl, rfl⟩
  · exact ⟨Adds.refl _, rfl, rfl⟩

theorem Scanned.fd {s : PollState} {scan : Scan} (inv : Scanned kind count s scan)
    (subs : HasSubs kind count) {i : ℕ} (lt : i < count) :
    Scanned kind count s (scanFd args answers scan i) := by
  obtain ⟨adds, mem, timeout⟩ : Adds kind scan.state (scanFd args answers scan i).state ∧ _ :=
    scanFd_adds (subs i lt) scan
  refine ⟨inv.adds.trans adds, mem.trans inv.mem, fun j same => inv.timeout j ?_⟩
  rw [← timeout, same]

/-- The loop over the first subscriptions, as its body after the loop over fewer. -/
theorem scanSubs_succ (s : PollState) (k : ℕ) :
    scanSubs args answers s (k + 1) =
      scanFd args answers (scanClock args answers (scanSubs args answers s k) k) k := by
  rw [scanSubs, List.range_succ, List.foldl_append]
  rfl

/-- The loop reads subscriptions below the count, and changes nothing. -/
theorem scanSubs_scanned (subs : HasSubs kind count) (s : PollState) {k : ℕ}
    (le : k ≤ count) : Scanned kind count s (scanSubs args answers s k) := by
  induction k with
  | zero => exact ⟨Adds.refl s, rfl, fun _ none => by cases none⟩
  | succ k ih =>
      rw [scanSubs_succ]
      exact ((ih (by omega)).clock subs (by omega)).fd subs (by omega)

/-- The flags of a clock subscription are read. -/
theorem scanSubs_flags (s : PollState) (i : ℕ)
    (clock : s.value args (.sub i .type) = eventtypeClock) :
    .sub i .flags ∈ (scanSubs args answers s (i + 1)).state.log := by
  have before : Scanned (fun _ => True) i s (scanSubs args answers s i) :=
    scanSubs_scanned (fun _ _ _ => trivial) s le_rfl
  have type : ((scanSubs args answers s i).state.touch [.sub i .type]).value args
      (.sub i .type) = eventtypeClock := by
    rw [← clock, PollState.value, PollState.value, PollState.touch]
    simp only [before.mem]
  have logged : .sub i .flags ∈
      (scanClock args answers (scanSubs args answers s i) i).state.log := by
    simp only [scanClock, type, if_true]
    have read : Access.sub i .flags ∈ (clockTimeout args answers
        ((scanSubs args answers s i).state.touch [.sub i .type]) i).1.log := by
      simp only [clockTimeout]
      split
      · simp [PollState.touch]
      · split <;> simp [PollState.touch]
    split <;> exact read
  rw [scanSubs_succ]
  have after : Adds (fun _ => True) _ (scanFd args answers
      (scanClock args answers (scanSubs args answers s i) i) i).state ∧ _ :=
    scanFd_adds (fun _ => trivial) _
  exact after.1.mem_log logged

end Scan

/-! ## The events -/

section Events

variable {args : PollArgs} {kind : Access → Prop}

/-- A kind of access that has the number of events and the fields of an event. -/
structure HasEvent (kind : Access → Prop) (n : ℕ) : Prop where
  number : kind .nEvents
  fields : ∀ field, kind (.event n field)

theorem fillEvent_adds {n j : ℕ} (event : ∀ field, kind (.event n field))
    (subs : ∀ field, kind (.sub j field)) (error : UInt16) (s : PollState) :
    Adds kind s (fillEvent args s n j error) :=
  ((Adds.write (event .error) _).trans (Adds.copy (subs .userdata) (event .userdata))).trans
    (Adds.copy (subs .type) (event .type))

/-- An event is reported at the index that the number of events gives. -/
theorem reportEvent_adds {s : PollState} {j : ℕ}
    (event : HasEvent kind (s.value args .nEvents)) (subs : ∀ field, kind (.sub j field))
    (error : UInt16) (hangup : Bool) : Adds kind s (reportEvent args s j error hangup) := by
  have next : Adds kind s (nextEvent args s).2 :=
    (Adds.touch (by simp [event.number])).trans (Adds.write event.number _)
  have filled : Adds kind s
      (fillEvent args (nextEvent args s).2 (s.value args .nEvents) j error) :=
    next.trans (fillEvent_adds event.fields subs error _)
  simp only [reportEvent]
  split
  · exact filled.trans (Adds.write (event.fields .flags) _)
  · exact filled

/-- One entry of `poll` is read, or reported as an event. -/
theorem reportFd_cases (args : PollArgs) (pollArr : List PollFd) (s : PollState) (i : ℕ) :
    reportFd args pollArr s i = s.touch [.sub i .type] ∨
      ∃ error hangup, reportFd args pollArr s i =
        reportEvent args (s.touch [.sub i .type]) i error hangup := by
  simp only [reportFd]
  split
  · split
    · exact Or.inr ⟨_, _, rfl⟩
    · split
      · exact Or.inr ⟨_, _, rfl⟩
      · split
        · exact Or.inr ⟨_, _, rfl⟩
        · exact Or.inl rfl
  · exact Or.inl rfl

theorem reportFd_adds {pollArr : List PollFd} {s : PollState} {i : ℕ}
    (event : HasEvent kind (s.value args .nEvents)) (subs : ∀ field, kind (.sub i field)) :
    Adds kind s (reportFd args pollArr s i) := by
  have read : Adds kind s (s.touch [.sub i .type]) := Adds.touch (by simp [subs])
  obtain same | ⟨error, hangup, same⟩ := reportFd_cases args pollArr s i
  · rw [same]
    exact read
  · have counted : HasEvent kind ((s.touch [.sub i .type]).value args .nEvents) := event
    rw [same]
    exact read.trans (reportEvent_adds counted subs error hangup)

end Events

/-! ## The call -/

section Call

variable {L : LinearMemory} {args : PollArgs} {kind : Access → Prop}

/-- A kind of access that has what a call does after it has cleared the events: it looks
through the subscriptions and reports events from none on. -/
structure Reports (kind : Access → Prop) (args : PollArgs) : Prop where
  subs : HasSubs kind args.appSubCount.toNat
  first : HasEvent kind 0
  one : ∀ s : PollState, s.value args .nEvents = 0 → ∀ j < args.appSubCount.toNat,
    Adds kind s (reportEvent args s j 0 false)
  loop : ∀ (pollArr : List PollFd) (s : PollState), s.value args .nEvents = 0 →
    Adds kind s ((List.range args.appSubCount.toNat).foldl (reportFd args pollArr) s)

/-- The end of a call, after the loop over the subscriptions. -/
theorem pollEnd_adds (reports : Reports kind args) {answers : PollAnswers} {scan : Scan}
    (none : scan.state.value args .nEvents = 0)
    (timeout : ∀ j, scan.pTimeoutSub = some j → j < args.appSubCount.toNat) :
    Adds kind scan.state
      (if scan.bSleepOnly then sleepOnly args scan else pollFds args answers scan).2 := by
  have waited : ∀ waits, Adds kind scan.state { scan.state with waits := waits } :=
    fun _ => Adds.of_log rfl
  split
  · simp only [sleepOnly]
    split
    · exact Adds.refl _
    · next j found =>
      have filled : ∀ s, Adds kind s ((fillEvent args s 0 j 0).write args .nEvents 1) :=
        fun s => (fillEvent_adds reports.first.fields (reports.subs j (timeout j found)) 0
          s).trans (Adds.write reports.first.number 1)
      split
      · exact (waited _).trans (filled _)
      · exact filled _
  · simp only [pollFds]
    split
    · exact waited _
    · split
      · split
        · exact waited _
        · next j found =>
          exact (waited _).trans (reports.one _ none j (timeout j found))
      · split
        · exact (waited _).trans (reports.loop _ _ none)
        · exact waited _

/-- The state of a call that has counted and cleared the events. -/
def clearedState (args : PollArgs) (mem : Memory) : PollState :=
  ((⟨mem, [], []⟩ : PollState).write args .nEvents 0).clear args

theorem clearedState_value (args : PollArgs) (mem : Memory) :
    (clearedState args mem).value args .nEvents = 0 := by
  have bytes : ∀ k < 4, (clearedState args mem).mem (args.pAppNEvents + k) = byteAt 0 k := by
    intro k lt
    have zero : byteAt 0 k = 0 := by simp [byteAt]
    simp only [clearedState, PollState.clear, PollState.write]
    split
    · exact zero.symm
    · have stored : store mem args.pAppNEvents 4 0 (args.pAppNEvents + k) = byteAt 0 _ :=
        store_in (Nat.le_add_right _ _) (Nat.add_lt_add_left lt _)
      rw [Nat.add_sub_cancel_left] at stored
      exact stored
  exact (load_of_bytes bytes).trans (Nat.zero_mod _)

/-- A call with subscriptions, from the loop over them on. -/
theorem wasiPollOneOff_some (validated : Validated L args) (some : args.appSubCount ≠ 0)
    (answers : PollAnswers) (mem : Memory) :
    wasiPollOneOff L args answers mem =
      let scan := scanSubs args answers (clearedState args mem) args.appSubCount.toNat
      if scan.bSleepOnly then sleepOnly args scan else pollFds args answers scan := by
  rw [wasiPollOneOff, if_neg (not_not.mpr validated), if_neg some]
  rfl

/-- What a call has read after the loop over the subscriptions stays in its log. -/
theorem wasiPollOneOff_adds_scan (validated : Validated L args) (some : args.appSubCount ≠ 0)
    (reports : Reports kind args) (answers : PollAnswers) (mem : Memory) :
    Adds kind
      (scanSubs args answers (clearedState args mem) args.appSubCount.toNat).state
      (wasiPollOneOff L args answers mem).2 := by
  have scanned : Scanned kind args.appSubCount.toNat (clearedState args mem)
      (scanSubs args answers (clearedState args mem) args.appSubCount.toNat) :=
    scanSubs_scanned reports.subs _ le_rfl
  have none : (scanSubs args answers (clearedState args mem)
      args.appSubCount.toNat).state.value args .nEvents = 0 := by
    rw [PollState.value, scanned.mem]
    exact clearedState_value args mem
  rw [wasiPollOneOff_some validated some]
  exact pollEnd_adds reports none scanned.timeout

/-- What a call does after it has cleared the events. -/
theorem wasiPollOneOff_adds_cleared (validated : Validated L args)
    (some : args.appSubCount ≠ 0) (reports : Reports kind args) (answers : PollAnswers)
    (mem : Memory) :
    Adds kind (clearedState args mem) (wasiPollOneOff L args answers mem).2 := by
  have scanned : Scanned kind args.appSubCount.toNat (clearedState args mem)
      (scanSubs args answers (clearedState args mem) args.appSubCount.toNat) :=
    scanSubs_scanned reports.subs _ le_rfl
  exact scanned.adds.trans (wasiPollOneOff_adds_scan validated some reports answers mem)

/-- What a call does after it has counted the events. -/
theorem wasiPollOneOff_adds (validated : Validated L args) (clears : kind .clearEvents)
    (reports : args.appSubCount ≠ 0 → Reports kind args) (answers : PollAnswers)
    (mem : Memory) :
    Adds kind ((⟨mem, [], []⟩ : PollState).write args .nEvents 0)
      (wasiPollOneOff L args answers mem).2 := by
  by_cases none : args.appSubCount = 0
  · rw [wasiPollOneOff, if_neg (not_not.mpr validated), if_pos none]
    exact Adds.refl _
  · exact (Adds.clear clears).trans
      (wasiPollOneOff_adds_cleared validated none (reports none) answers mem)

end Call

/-! ## Containment -/

section Containment

variable {L : LinearMemory} {args : PollArgs}

/-- The subscriptions that are read lie below the count. -/
def SubBelow (args : PollArgs) : Access → Prop
  | .sub i _ => i < args.appSubCount.toNat
  | _ => True

theorem subBelow_reports (args : PollArgs) : Reports (SubBelow args) args where
  subs _ lt _ := lt
  first := ⟨trivial, fun _ => trivial⟩
  one _ _ _ lt := reportEvent_adds ⟨trivial, fun _ => trivial⟩ (fun _ => lt) 0 false
  loop _ s _ := Adds.foldl
    (fun _ _ lt => reportFd_adds ⟨trivial, fun _ => trivial⟩ fun _ => lt) s

/-- An access lies inside the linear memory. The events that count are those of the array. -/
def Contained (L : LinearMemory) (args : PollArgs) : Access → Prop
  | .event i field => i < args.appSubCount.toNat →
      Inside L.memoryDataSize (args.offset (.event i field)) (args.length (.event i field))
  | a => Inside L.memoryDataSize (args.offset a) (args.length a)

instance (L : LinearMemory) (args : PollArgs) : ∀ a, Decidable (Contained L args a)
  | .event _ _ => inferInstanceAs (Decidable (_ → _))
  | .sub _ _ | .clearEvents | .nEvents => inferInstanceAs (Decidable (Inside _ _ _))

/-- The number of events lies inside, and the size of the subscriptions fits 32 bits. -/
def FitsValidation (L : LinearMemory) (args : PollArgs) : Prop :=
  args.pAppNEvents + 4 ≤ L.memoryDataSize ∧
    subscriptionSize * args.appSubCount.toNat < 2 ^ 32

instance (L : LinearMemory) (args : PollArgs) : Decidable (FitsValidation L args) :=
  inferInstanceAs (Decidable (_ ∧ _))

theorem SubField.place_le (field : SubField) :
    field.place.1 + field.place.2 ≤ subscriptionSize := by
  cases field <;> decide

theorem EventField.place_le (field : EventField) :
    field.place.1 + field.place.2 ≤ eventSize := by
  cases field <;> decide

/-- A size that fits 32 bits is validated in full. -/
theorem inside_of_validated {p elementSize : ℕ} {count : UInt32}
    (fits : elementSize * count.toNat < 2 ^ 32)
    (valid : L.validateNativeAddr (L.native p) (validatedSize elementSize count) = true) :
    p + elementSize * count.toNat ≤ L.memoryDataSize := by
  have inside := (L.validateNativeAddr_native p _).mp valid
  rwa [Inside, validatedSize, UInt32.toNat_ofNat_of_lt' fits] at inside

/-- A field of an element below the count lies inside if the array does. -/
theorem element_inside {p elementSize size i count : ℕ} {place : ℕ × ℕ}
    (array : p + elementSize * count ≤ size) (lt : i < count)
    (field : place.1 + place.2 ≤ elementSize) :
    Inside size (p + elementSize * i + place.1) place.2 := by
  have next : elementSize * i + elementSize ≤ elementSize * count := by
    rw [← Nat.mul_succ]
    exact Nat.mul_le_mul_left _ lt
  rw [Inside]
  omega

/-- What the validation vouches for, when the sizes fit. -/
theorem contained_of_fits (validated : Validated L args) (fits : FitsValidation L args)
    {a : Access} (below : SubBelow args a) : Contained L args a := by
  have subs := inside_of_validated fits.2 validated.1
  have smaller : eventSize * args.appSubCount.toNat < 2 ^ 32 := by
    have size := fits.2
    simp only [subscriptionSize, eventSize] at size ⊢
    omega
  have events := inside_of_validated smaller validated.2
  cases a with
  | sub i field => exact element_inside subs below field.place_le
  | clearEvents => exact events
  | event i field => exact fun lt => element_inside events lt field.place_le
  | nEvents => exact fits.1

/-- Zero bytes are the number zero. -/
theorem load_zero {mem : Memory} (zero : ∀ a, mem a = 0) (addr n : ℕ) :
    load mem addr n = 0 := by
  induction n generalizing addr with
  | zero => rfl
  | succ n ih =>
      rw [load, zero, ih]
      rfl

/-- With every byte of the memory zero, all subscriptions are for a clock, and the flags of
the last one are read. -/
theorem flags_of_zero (validated : Validated L args) (answers : PollAnswers) {last : ℕ}
    (count : args.appSubCount.toNat = last + 1) :
    .sub last .flags ∈ (wasiPollOneOff L args answers fun _ => 0).2.log := by
  have some : args.appSubCount ≠ 0 := by
    rintro zero
    rw [zero] at count
    cases count
  have zero : ∀ a, (clearedState args fun _ => 0).mem a = 0 := by
    intro a
    simp only [clearedState, PollState.clear, PollState.write, store, byteAt]
    split
    · rfl
    · split <;> simp
  apply (wasiPollOneOff_adds_scan validated some (subBelow_reports args) answers _).mem_log
  rw [count]
  exact scanSubs_flags _ last (load_zero zero _ _)

/-- **When `poll_oneoff` stays inside the linear memory.** A call that passes its validation
makes no access outside the linear memory, whatever the memory holds and the host answers,
exactly when the number of events lies inside and the size of the subscriptions fits 32
bits. -/
theorem poll_contained_iff (validated : Validated L args) :
    (∀ (answers : PollAnswers) (mem : Memory),
      ∀ a ∈ (wasiPollOneOff L args answers mem).2.log, Contained L args a) ↔
      FitsValidation L args := by
  constructor
  · intro contained
    -- a host that answers nothing useful
    let answers : PollAnswers := ⟨fun _ _ _ => none, fun _ => none, fun _ _ => (-1, []), 0⟩
    have first : .nEvents ∈ (wasiPollOneOff L args answers fun _ => 0).2.log :=
      (wasiPollOneOff_adds validated trivial (fun _ => subBelow_reports args) answers
        _).mem_log (by simp [PollState.write])
    refine ⟨contained answers _ _ first, ?_⟩
    cases count : args.appSubCount.toNat with
    | zero => decide
    | succ last =>
        have flags : Inside L.memoryDataSize _ _ :=
          contained answers _ _ (flags_of_zero validated answers count)
        have size := L.memoryDataSize_lt
        simp only [Inside, PollArgs.offset, PollArgs.length, SubField.place,
          subscriptionSize] at flags ⊢
        omega
  · intro fits answers mem a logged
    rcases (wasiPollOneOff_adds validated trivial (fun _ => subBelow_reports args) answers
      mem).mem_kind logged with start | below
    · have number : a = .nEvents := by simpa [PollState.write] using start
      rw [number]
      exact fits.1
    · exact contained_of_fits validated fits below

end Containment

/-- A linear memory of one page. -/
def onePage : LinearMemory :=
  .mapped 0x10000 65536 (by decide) (by decide) (by decide)

/-- Two subscriptions, their events, and the number of events, one after the other. -/
def twoSubscriptions : PollArgs := ⟨0, 96, 2, 160⟩

/-- A call with two subscriptions in one page. -/
theorem two_subscriptions_contained :
    (∀ (answers : PollAnswers) (mem : Memory),
      ∀ a ∈ (wasiPollOneOff onePage twoSubscriptions answers mem).2.log,
        Contained onePage twoSubscriptions a) ↔ FitsValidation onePage twoSubscriptions :=
  poll_contained_iff (by decide)

/-- 2^28 subscriptions and their events at the start of the memory. Both sizes are 0 in 32
bits. -/
def wrappedCount : PollArgs := ⟨0, 0, 0x10000000, 0⟩

/-- The call with 2^28 subscriptions passes its validation and clears 8 GiB. -/
theorem wrapped_count_escapes :
    Validated onePage wrappedCount ∧
      ∀ (answers : PollAnswers) (mem : Memory),
        .clearEvents ∈ (wasiPollOneOff onePage wrappedCount answers mem).2.log ∧
          ¬ Contained onePage wrappedCount .clearEvents := by
  have validated : Validated onePage wrappedCount := by decide
  refine ⟨validated, fun answers mem => ⟨?_, by decide⟩⟩
  refine (wasiPollOneOff_adds_cleared validated (by decide) (subBelow_reports wrappedCount)
    answers mem).mem_log ?_
  simp [clearedState, PollState.clear]

/-! ## The indices of the events -/

section Indices

variable {L : LinearMemory} {args : PollArgs}

/-- The number of events does not lie in the event array. -/
def Apart (args : PollArgs) : Prop :=
  args.pAppNEvents + 4 ≤ args.pAppOutEvent ∨
    args.pAppOutEvent + eventSize * args.appSubCount.toNat ≤ args.pAppNEvents

/-- The subscriptions that are read and the events that are written lie below the count. -/
def Below (args : PollArgs) : Access → Prop
  | .sub i _ | .event i _ => i < args.appSubCount.toNat
  | .clearEvents | .nEvents => True

/-- A write to an event leaves the number of events. -/
theorem value_write_event (apart : Apart args) {n : ℕ} (lt : n < args.appSubCount.toNat)
    (s : PollState) (field : EventField) (v : ℕ) :
    (s.write args (.event n field) v).value args .nEvents = s.value args .nEvents := by
  apply load_store_disjoint
  have place := field.place_le
  have next : eventSize * n + eventSize ≤ eventSize * args.appSubCount.toNat := by
    rw [← Nat.mul_succ]
    exact Nat.mul_le_mul_left _ lt
  simp only [Apart, PollArgs.offset, PollArgs.length] at apart ⊢
  omega

theorem value_fillEvent (apart : Apart args) {n : ℕ} (lt : n < args.appSubCount.toNat)
    (s : PollState) (j : ℕ) (error : UInt16) :
    (fillEvent args s n j error).value args .nEvents = s.value args .nEvents := by
  rw [fillEvent, PollState.copy, PollState.copy, value_write_event apart lt]
  exact (value_write_event apart lt _ _ _).trans (value_write_event apart lt _ _ _)

/-- An event that is reported below the count leaves one more event. -/
theorem reportEvent_below (apart : Apart args) {s : PollState} {j : ℕ}
    (lt : s.value args .nEvents < args.appSubCount.toNat) (sub : j < args.appSubCount.toNat)
    (error : UInt16) (hangup : Bool) :
    Adds (Below args) s (reportEvent args s j error hangup) ∧
      (reportEvent args s j error hangup).value args .nEvents = s.value args .nEvents + 1 := by
  refine ⟨reportEvent_adds ⟨trivial, fun _ => lt⟩ (fun _ => sub) error hangup, ?_⟩
  have bound := args.appSubCount.toNat_lt
  have counted : (nextEvent args s).2.value args .nEvents = s.value args .nEvents + 1 := by
    apply load_store.trans
    change (s.value args .nEvents + 1) % 2 ^ 32 % 256 ^ 4 = _
    omega
  have filled : (fillEvent args (nextEvent args s).2 (s.value args .nEvents) j error).value
      args .nEvents = s.value args .nEvents + 1 :=
    (value_fillEvent apart lt _ j error).trans counted
  simp only [reportEvent]
  split
  · exact (value_write_event apart lt _ _ _).trans filled
  · exact filled

/-- The loop over the results of `poll` reports one event for each entry at most. -/
theorem reports_below (apart : Apart args) (pollArr : List PollFd) {s : PollState}
    (none : s.value args .nEvents = 0) {k : ℕ} (le : k ≤ args.appSubCount.toNat) :
    Adds (Below args) s ((List.range k).foldl (reportFd args pollArr) s) ∧
      ((List.range k).foldl (reportFd args pollArr) s).value args .nEvents ≤ k := by
  induction k with
  | zero => exact ⟨Adds.refl s, none.le⟩
  | succ k ih =>
      obtain ⟨adds, counted⟩ := ih (by omega)
      rw [List.range_succ, List.foldl_append]
      simp only [List.foldl_cons, List.foldl_nil]
      generalize (List.range k).foldl (reportFd args pollArr) s = before at adds counted ⊢
      have read : Adds (Below args) before (before.touch [.sub k .type]) :=
        Adds.touch fun _ member => List.mem_singleton.mp member ▸ le
      obtain same | ⟨error, hangup, same⟩ := reportFd_cases args pollArr before k
      · rw [same]
        exact ⟨adds.trans read, Nat.le_succ_of_le counted⟩
      · have lt : (before.touch [.sub k .type]).value args .nEvents <
            args.appSubCount.toNat := lt_of_le_of_lt counted le
        obtain ⟨reported, one⟩ := reportEvent_below apart lt le error hangup
        rw [same]
        refine ⟨adds.trans (read.trans reported), ?_⟩
        rw [one]
        exact Nat.succ_le_succ counted

theorem below_reports (apart : Apart args) (some : args.appSubCount ≠ 0) :
    Reports (Below args) args where
  subs _ lt _ := lt
  first := ⟨trivial, fun _ => Nat.pos_of_ne_zero fun zero =>
    some (UInt32.toNat_inj.mp zero)⟩
  one _ none _ lt := by
    refine (reportEvent_below apart ?_ lt 0 false).1
    rw [none]
    exact Nat.zero_lt_of_lt lt
  loop pollArr _ none := (reports_below apart pollArr none le_rfl).1

/-- **The events written are those of the array**, when the number of events does not lie in
it. -/
theorem event_index_lt (validated : Validated L args) (apart : Apart args)
    (answers : PollAnswers) (mem : Memory) {i : ℕ} {field : EventField}
    (logged : .event i field ∈ (wasiPollOneOff L args answers mem).2.log) :
    i < args.appSubCount.toNat := by
  rcases (wasiPollOneOff_adds validated trivial (below_reports apart) answers mem).mem_kind
    logged with start | below
  · simp [PollState.write] at start
  · exact below

end Indices

end Socket
end WamrExt
