import WamrExt.Socket.PollContainment
import WamrExt.Socket.PollEvents

/-!
# `poll_oneoff` in memory

Where the subscriptions, the events and the number of events do not overlap, what
`wasiPollOneOff` does in the memory of the guest is what `pollOneOff` does on the list of the
subscriptions that the memory holds (`wasiPollOneOff_refines`): it returns the same, waits for the
same, and leaves the events in the first places of the array, their number in the word, and zeros
in the rest of the array.
-/

set_option autoImplicit false

namespace WamrExt
namespace Socket

open ByteMemory Wamr LeastScan

/-- The three places do not overlap. -/
structure ArraysApart (args : PollArgs) : Prop where
  subs_events : args.pAppSub + subscriptionSize * args.appSubCount.toNat ≤ args.pAppOutEvent ∨
    args.pAppOutEvent + eventSize * args.appSubCount.toNat ≤ args.pAppSub
  subs_number : args.pAppSub + subscriptionSize * args.appSubCount.toNat ≤ args.pAppNEvents ∨
    args.pAppNEvents + 4 ≤ args.pAppSub
  number_events : Apart args

/-- The subscription at an index. -/
def subscriptionAt (args : PollArgs) (mem : Memory) (i : ℕ) : Subscription :=
  let value := fun field => PollState.value { mem := mem } args (.sub i field)
  { userdata := UInt64.ofNat (value .userdata)
    type := UInt8.ofNat (value .type)
    clockId := UInt32.ofNat (value .clockId)
    timeout := UInt64.ofNat (value .timeout)
    precision := UInt64.ofNat (value .precision)
    flags := UInt16.ofNat (value .flags)
    fd := UInt32.ofNat (value .fd) }

/-- The subscriptions in memory. -/
def subscriptions (args : PollArgs) (mem : Memory) : List Subscription :=
  (List.range args.appSubCount.toNat).map (subscriptionAt args mem)

/-- The event at an index. -/
def eventAt (args : PollArgs) (mem : Memory) (k : ℕ) : Event :=
  let value := fun field => PollState.value { mem := mem } args (.event k field)
  { userdata := UInt64.ofNat (value .userdata)
    error := UInt16.ofNat (value .error)
    type := UInt8.ofNat (value .type)
    flags := UInt16.ofNat (value .flags) }

/-! ## What a write leaves alone -/

section Frames

variable {args : PollArgs} {s : PollState} {v : ℕ}

theorem value_write_self (s : PollState) (args : PollArgs) (a : Access) (v : ℕ) :
    (s.write args a v).value args a = v % 256 ^ args.length a :=
  load_store

/-- A write leaves the fields beside it. -/
theorem value_write_beside {a b : Access}
    (beside : args.offset b + args.length b ≤ args.offset a ∨
      args.offset a + args.length a ≤ args.offset b) :
    (s.write args a v).value args b = s.value args b :=
  load_store_disjoint beside

theorem sub_bound {i : ℕ} (lt : i < args.appSubCount.toNat) (field : SubField) :
    args.pAppSub ≤ args.offset (.sub i field) ∧
      args.offset (.sub i field) + args.length (.sub i field) ≤
        args.pAppSub + subscriptionSize * args.appSubCount.toNat := by
  have place := field.place_le
  have next : subscriptionSize * i + subscriptionSize ≤
      subscriptionSize * args.appSubCount.toNat := by
    rw [← Nat.mul_succ]
    exact Nat.mul_le_mul_left _ lt
  simp only [PollArgs.offset, PollArgs.length]
  omega

theorem event_bound (args : PollArgs) (n : ℕ) (field : EventField) :
    args.pAppOutEvent + eventSize * n ≤ args.offset (.event n field) ∧
      args.offset (.event n field) + args.length (.event n field) ≤
        args.pAppOutEvent + eventSize * (n + 1) := by
  have place := field.place_le
  simp only [PollArgs.offset, PollArgs.length, Nat.mul_succ]
  omega

theorem eventSize_mul_le {n m : ℕ} (lt : n < m) : eventSize * (n + 1) ≤ eventSize * m :=
  Nat.mul_le_mul_left _ lt

section Event

variable {n : ℕ}

/-- A write to an event leaves the subscriptions. -/
theorem value_sub_write_event (apart : ArraysApart args) (lt : n < args.appSubCount.toNat)
    (field : EventField) {i : ℕ} (sub : i < args.appSubCount.toNat) (field' : SubField) :
    (s.write args (.event n field) v).value args (.sub i field') =
      s.value args (.sub i field') := by
  have inside := sub_bound sub field'
  have here := event_bound args n field
  have all := eventSize_mul_le lt
  have places := apart.subs_events
  exact value_write_beside (by omega)

/-- A write to an event leaves the other events. -/
theorem value_event_write_event {m : ℕ} (other : m ≠ n) (field field' : EventField) :
    (s.write args (.event n field) v).value args (.event m field') =
      s.value args (.event m field') := by
  have here := event_bound args n field
  have there := event_bound args m field'
  rcases Nat.lt_or_gt_of_ne other with lt | lt
  · have := eventSize_mul_le lt
    exact value_write_beside (by omega)
  · have := eventSize_mul_le lt
    exact value_write_beside (by omega)

/-- A write to an event leaves its other fields. -/
theorem value_field_write_event {field field' : EventField} (other : field' ≠ field) :
    (s.write args (.event n field) v).value args (.event n field') =
      s.value args (.event n field') := by
  apply value_write_beside
  simp only [PollArgs.offset, PollArgs.length]
  cases field <;> cases field' <;>
    first
      | exact absurd rfl other
      | (simp only [EventField.place]; omega)

/-- A write to an event leaves what is outside it. -/
theorem mem_write_event (field : EventField) {a : ℕ}
    (outside : a < args.pAppOutEvent + eventSize * n ∨
      args.pAppOutEvent + eventSize * (n + 1) ≤ a) :
    (s.write args (.event n field) v).mem a = s.mem a := by
  have here := event_bound args n field
  exact store_out (by omega)

end Event

/-- A write to the number of events leaves the subscriptions. -/
theorem value_sub_write_number (apart : ArraysApart args) {i : ℕ}
    (sub : i < args.appSubCount.toNat) (field : SubField) :
    (s.write args .nEvents v).value args (.sub i field) = s.value args (.sub i field) := by
  have inside := sub_bound sub field
  have places := apart.subs_number
  apply value_write_beside
  have number : args.offset .nEvents = args.pAppNEvents ∧ args.length .nEvents = 4 := ⟨rfl, rfl⟩
  omega

/-- A write to the number of events leaves the event array. -/
theorem mem_write_number (apart : ArraysApart args) {a : ℕ} (low : args.pAppOutEvent ≤ a)
    (high : a < args.pAppOutEvent + eventSize * args.appSubCount.toNat) :
    (s.write args .nEvents v).mem a = s.mem a := by
  have places := apart.number_events
  have number : args.offset .nEvents = args.pAppNEvents ∧ args.length .nEvents = 4 := ⟨rfl, rfl⟩
  rw [Apart] at places
  exact store_out (by omega)

theorem value_event_write_number (apart : ArraysApart args) {k : ℕ}
    (lt : k < args.appSubCount.toNat) (field : EventField) :
    (s.write args .nEvents v).value args (.event k field) = s.value args (.event k field) := by
  have here := event_bound args k field
  have all := eventSize_mul_le lt
  refine load_congr fun b bound => mem_write_number apart ?_ ?_ <;> omega

end Frames

/-! ## The look through the subscriptions -/

/-- The subscriptions are as they were in a memory. -/
def SubsKept (args : PollArgs) (mem : Memory) (s : PollState) : Prop :=
  ∀ i < args.appSubCount.toNat, ∀ field,
    s.value args (.sub i field) = PollState.value { mem := mem } args (.sub i field)

/-- The first subscriptions with their indices. -/
def firstEntries (args : PollArgs) (mem : Memory) (k : ℕ) : List (Subscription × ℕ) :=
  (List.range k).map fun i => (subscriptionAt args mem i, i)

section Scan

variable {args : PollArgs} {mem : Memory} {answers : PollAnswers} {s : PollState} {i k : ℕ}

theorem zipIdx_subscriptions (args : PollArgs) (mem : Memory) :
    (subscriptions args mem).zipIdx = firstEntries args mem args.appSubCount.toNat := by
  apply List.ext_getElem
  · simp [subscriptions, firstEntries]
  · intro i _ _
    simp [subscriptions, firstEntries]

theorem firstEntries_succ (args : PollArgs) (mem : Memory) (k : ℕ) :
    firstEntries args mem (k + 1) =
      firstEntries args mem k ++ [(subscriptionAt args mem k, k)] := by
  rw [firstEntries, List.range_succ, List.map_append]
  rfl

/-- The type of a subscription is one byte. -/
theorem type_subscriptionAt (args : PollArgs) (mem : Memory) (i : ℕ) :
    (subscriptionAt args mem i).type.toNat =
      PollState.value { mem := mem } args (.sub i .type) :=
  UInt8.toNat_ofNat_of_lt' (load_lt _ _ 1)

theorem flags_subscriptionAt (args : PollArgs) (mem : Memory) (i : ℕ) :
    (subscriptionAt args mem i).flags.toNat =
      PollState.value { mem := mem } args (.sub i .flags) :=
  UInt16.toNat_ofNat_of_lt' (load_lt _ _ 2)

/-- What the loop has done after the first subscriptions. -/
structure ScanRefines (args : PollArgs) (answers : PollAnswers) (mem : Memory) (s : PollState)
    (k : ℕ) (scan : Scan) : Prop where
  sameMem : scan.state.mem = s.mem
  sameWaits : scan.state.waits = s.waits
  timeout : scan.timeoutNanoSec =
    (LeastScan.scan (clockValue answers) noTimeout (firstEntries args mem k)).1
  timeoutSub : scan.pTimeoutSub =
    (LeastScan.scan (clockValue answers) noTimeout (firstEntries args mem k)).2.map Prod.snd
  sleepOnly : scan.bSleepOnly = true ↔
    ∀ entry ∈ firstEntries args mem k, ¬ entry.1.Polled answers
  pollArr : scan.pollArr = (firstEntries args mem k).map fun entry => entry.1.pollFd answers

theorem clockTimeout_eq (kept : SubsKept args mem s) (lt : i < args.appSubCount.toNat) :
    (clockTimeout args answers s i).2 =
        ((subscriptionAt args mem i).effectiveTimeout answers i).getD noTimeout ∧
      (clockTimeout args answers s i).1.mem = s.mem ∧
      (clockTimeout args answers s i).1.waits = s.waits := by
  have fields := kept i lt
  rw [Subscription.effectiveTimeout, flags_subscriptionAt, ← fields .flags]
  simp only [clockTimeout]
  split
  next => exact ⟨congrArg UInt64.ofNat (fields .timeout), rfl, rfl⟩
  next =>
    rw [fields .clockId, fields .precision, fields .timeout]
    change _ = ((answers.clockTimeGet i (UInt32.ofNat _) (UInt64.ofNat _)).map fun curTs =>
      if curTs < UInt64.ofNat _ then UInt64.ofNat _ - curTs else 0).getD noTimeout ∧ _
    split
    next unknown =>
      refine ⟨?_, rfl, rfl⟩
      rw [unknown, Option.map_none, Option.getD_none, noTimeout]
    next curTs known =>
      refine ⟨?_, rfl, rfl⟩
      rw [known, Option.map_some, Option.getD_some]

/-- Nothing is below the least value and not below the bound that stands for none. -/
theorem keep_getD (best : UInt64 × Option (Subscription × ℕ)) (entry : Subscription × ℕ)
    (value : Option UInt64) (clock : clockValue answers entry = value) :
    keep (clockValue answers) best entry =
      if value.getD noTimeout < best.1 then (value.getD noTimeout, some entry) else best := by
  rw [keep, clock]
  cases value with
  | none =>
      have greatest : ¬ noTimeout < best.1 := by
        have bound := best.1.toNat_lt
        rw [UInt64.lt_iff_toNat_lt, show noTimeout.toNat = 2 ^ 64 - 1 from rfl]
        omega
      rw [Option.getD_none, if_neg greatest]
  | some timeout => rfl

/-- One more subscription, its timeout. -/
theorem ScanRefines.clock {scan : Scan} (refines : ScanRefines args answers mem s k scan)
    (kept : SubsKept args mem s) (lt : k < args.appSubCount.toNat) :
    (scanClock args answers scan k).state.mem = s.mem ∧
      (scanClock args answers scan k).state.waits = s.waits ∧
      (scanClock args answers scan k).bSleepOnly = scan.bSleepOnly ∧
      (scanClock args answers scan k).pollArr = scan.pollArr ∧
      (scanClock args answers scan k).timeoutNanoSec =
        (LeastScan.scan (clockValue answers) noTimeout (firstEntries args mem (k + 1))).1 ∧
      (scanClock args answers scan k).pTimeoutSub =
        (LeastScan.scan (clockValue answers) noTimeout (firstEntries args mem (k + 1))).2.map
          Prod.snd := by
  have step : LeastScan.scan (clockValue answers) noTimeout (firstEntries args mem (k + 1)) =
      keep (clockValue answers)
        (LeastScan.scan (clockValue answers) noTimeout (firstEntries args mem k))
        (subscriptionAt args mem k, k) := by
    rw [firstEntries_succ, LeastScan.scan, List.foldl_append]
    rfl
  have read : SubsKept args mem (scan.state.touch [.sub k .type]) := by
    intro i lt field
    exact (congrArg (fun m => load m _ _) refines.sameMem).trans (kept i lt field)
  obtain ⟨value, same, waits⟩ := clockTimeout_eq read lt
  have type : (scan.state.touch [.sub k .type]).value args (.sub k .type) =
      (subscriptionAt args mem k).type.toNat :=
    (read k lt .type).trans (type_subscriptionAt args mem k).symm
  rw [step]
  by_cases clock : (subscriptionAt args mem k).IsClock
  · have entry : clockValue answers (subscriptionAt args mem k, k) =
        (subscriptionAt args mem k).effectiveTimeout answers k := if_pos clock
    have isClock := type.trans clock
    rw [keep_getD _ _ _ entry, ← refines.timeout, ← value]
    by_cases less : (clockTimeout args answers (scan.state.touch [.sub k .type]) k).2 <
        scan.timeoutNanoSec
    · have result : scanClock args answers scan k =
          { scan with
            state := (clockTimeout args answers (scan.state.touch [.sub k .type]) k).1
            timeoutNanoSec := (clockTimeout args answers (scan.state.touch [.sub k .type]) k).2
            pTimeoutSub := some k } := by
        simp only [scanClock, if_pos isClock, if_pos less]
      rw [result, if_pos less]
      exact ⟨same.trans refines.sameMem, waits.trans refines.sameWaits, rfl, rfl, rfl, rfl⟩
    · have result : scanClock args answers scan k =
          { scan with
            state := (clockTimeout args answers (scan.state.touch [.sub k .type]) k).1 } := by
        simp only [scanClock, if_pos isClock, if_neg less]
      rw [result, if_neg less]
      exact ⟨same.trans refines.sameMem, waits.trans refines.sameWaits, rfl, rfl,
        refines.timeout, refines.timeoutSub⟩
  · have entry : clockValue answers (subscriptionAt args mem k, k) = none := if_neg clock
    have notClock : ¬ _ = eventtypeClock := fun isClock => clock (type.symm.trans isClock)
    have result : scanClock args answers scan k =
        { scan with state := scan.state.touch [.sub k .type] } := by
      simp only [scanClock, if_neg notClock]
    rw [keep, entry, result]
    exact ⟨refines.sameMem, refines.sameWaits, rfl, rfl, refines.timeout, refines.timeoutSub⟩

/-- One more subscription, its entry for `poll`. -/
theorem scanFd_eq {scan : Scan} (kept : SubsKept args mem scan.state)
    (lt : k < args.appSubCount.toNat) :
    (scanFd args answers scan k).state.mem = scan.state.mem ∧
      (scanFd args answers scan k).state.waits = scan.state.waits ∧
      (scanFd args answers scan k).timeoutNanoSec = scan.timeoutNanoSec ∧
      (scanFd args answers scan k).pTimeoutSub = scan.pTimeoutSub ∧
      ((scanFd args answers scan k).bSleepOnly = true ↔
        scan.bSleepOnly = true ∧ ¬ (subscriptionAt args mem k).Polled answers) ∧
      (scanFd args answers scan k).pollArr =
        scan.pollArr ++ [(subscriptionAt args mem k).pollFd answers] := by
  have type : scan.state.value args (.sub k .type) = (subscriptionAt args mem k).type.toNat :=
    (kept k lt .type).trans (type_subscriptionAt args mem k).symm
  have fd : UInt32.ofNat (scan.state.value args (.sub k .fd)) = (subscriptionAt args mem k).fd :=
    congrArg UInt32.ofNat (kept k lt .fd)
  simp only [scanFd, type, fd, Subscription.Polled, Subscription.pollFd]
  by_cases isFd : (subscriptionAt args mem k).IsFd
  · rw [if_pos isFd]
    simp only [if_pos (show _ ∨ _ from isFd)]
    cases found : answers.hostFD (subscriptionAt args mem k).fd with
    | none =>
        simp only [isFd, Option.isSome_none, Bool.false_eq_true, and_false, not_false_iff,
          and_true]
        exact ⟨rfl, rfl⟩
    | some host =>
        simp only [isFd, Option.isSome_some, and_true, not_true, and_false, iff_self,
          Bool.false_eq_true]
        exact ⟨rfl, rfl⟩
  · rw [if_neg isFd]
    simp only [if_neg (show ¬ (_ ∨ _) from isFd)]
    simp [isFd]

/-- The loop over the first subscriptions. -/
theorem scanSubs_refines (kept : SubsKept args mem s) {k : ℕ} (le : k ≤ args.appSubCount.toNat) :
    ScanRefines args answers mem s k (scanSubs args answers s k) := by
  induction k with
  | zero => exact ⟨rfl, rfl, rfl, rfl, by simp [scanSubs, firstEntries], rfl⟩
  | succ k ih =>
      have refines := ih (Nat.le_of_succ_le le)
      obtain ⟨sameMem, sameWaits, sleep, arr, timeout, timeoutSub⟩ := refines.clock kept le
      have read : SubsKept args mem
          (scanClock args answers (scanSubs args answers s k) k).state := by
        intro i lt field
        exact (congrArg (fun m => load m _ _) sameMem).trans (kept i lt field)
      obtain ⟨sameMem', sameWaits', timeout', timeoutSub', sleep', arr'⟩ :
          (scanFd args answers (scanClock args answers (scanSubs args answers s k) k) k).state.mem =
            _ ∧ _ := scanFd_eq read le
      rw [scanSubs_succ]
      refine ⟨sameMem'.trans sameMem, sameWaits'.trans sameWaits, timeout'.trans timeout,
        timeoutSub'.trans timeoutSub, ?_, ?_⟩
      · rw [sleep', sleep, refines.sleepOnly, firstEntries_succ]
        simp only [List.mem_append, List.mem_singleton, or_imp, forall_and, forall_eq]
      · rw [arr', arr, refines.pollArr, firstEntries_succ, List.map_append]
        rfl

end Scan

/-! ## The events -/

/-- A state holds events: the subscriptions are as they were, the number of the events is in its
word, the events are in the first places of the array, and the rest of the array is zero. -/
structure Written (args : PollArgs) (mem : Memory) (s : PollState) (events : List Event) :
    Prop where
  subs : SubsKept args mem s
  number : s.value args .nEvents = events.length
  each : ∀ k event, events[k]? = some event → eventAt args s.mem k = event
  rest : ∀ a, args.pAppOutEvent + eventSize * events.length ≤ a →
    a < args.pAppOutEvent + eventSize * args.appSubCount.toNat → s.mem a = 0

section Events

variable {args : PollArgs} {mem : Memory} {s : PollState} {events : List Event} {n j : ℕ}

/-- The events of two states with the same fields. -/
theorem eventAt_congr {s s' : PollState} {k : ℕ}
    (same : ∀ field, s'.value args (.event k field) = s.value args (.event k field)) :
    eventAt args s'.mem k = eventAt args s.mem k := by
  have fields : ∀ field, PollState.value { mem := s'.mem } args (.event k field) =
      PollState.value { mem := s.mem } args (.event k field) := same
  simp only [eventAt, fields]

/-- A state without events. -/
theorem written_cleared (apart : ArraysApart args) (mem : Memory) :
    Written args mem (clearedState args mem) [] := by
  have places := apart.subs_events
  refine ⟨fun i lt field => ?_, clearedState_value args mem, nofun, fun a low high => ?_⟩
  · have inside := sub_bound lt field
    have kept := value_sub_write_number (s := ⟨mem, [], []⟩) (v := 0) apart lt field
    refine Eq.trans (load_congr fun b bound => ?_) kept
    simp only [clearedState, PollState.clear]
    refine if_neg fun cleared => ?_
    simp only [PollArgs.offset, PollArgs.length] at cleared inside bound
    omega
  · simp only [clearedState, PollState.clear]
    refine if_pos ⟨?_, high⟩
    exact (Nat.le_add_right _ _).trans low

/-- A copy between fields of one size. -/
theorem value_copy_self {source target : Access}
    (same : args.length source = args.length target) :
    (s.copy args source target).value args target = s.value args source := by
  refine (value_write_self _ _ _ _).trans ?_
  rw [← same]
  exact Nat.mod_eq_of_lt (load_lt _ _ _)

theorem value_field_copy {source : Access} {field field' : EventField} (other : field' ≠ field) :
    (s.copy args source (.event n field)).value args (.event n field') =
      s.value args (.event n field') :=
  value_field_write_event other

theorem value_sub_copy (apart : ArraysApart args) (lt : n < args.appSubCount.toNat)
    (source : Access) (field : EventField) {i : ℕ} (sub : i < args.appSubCount.toNat)
    (field' : SubField) :
    (s.copy args source (.event n field)).value args (.sub i field') =
      s.value args (.sub i field') :=
  value_sub_write_event apart lt field sub field'

/-- The error is written first, then the user data and the type are copied. -/
theorem fillEvent_def (s : PollState) (n j : ℕ) (error : UInt16) :
    fillEvent args s n j error =
      ((s.write args (.event n .error) error.toNat).copy args (.sub j .userdata)
        (.event n .userdata)).copy args (.sub j .type) (.event n .type) := rfl

/-- The event that is filled in, if its flags are zero. -/
theorem eventAt_fillEvent (apart : ArraysApart args) (kept : SubsKept args mem s)
    (lt : n < args.appSubCount.toNat) (sub : j < args.appSubCount.toNat) (error : UInt16)
    (flags : s.value args (.event n .flags) = 0) :
    eventAt args (fillEvent args s n j error).mem n =
      (subscriptionAt args mem j).event error 0 := by
  have userdata : (fillEvent args s n j error).value args (.event n .userdata) =
      PollState.value { mem := mem } args (.sub j .userdata) := by
    have sizes : args.length (.sub j .userdata) = args.length (.event n .userdata) := rfl
    rw [fillEvent_def, value_field_copy (by decide), value_copy_self sizes,
      value_sub_write_event apart lt _ sub, kept j sub]
  have error_ : (fillEvent args s n j error).value args (.event n .error) = error.toNat := by
    rw [fillEvent_def, value_field_copy (by decide), value_field_copy (by decide),
      value_write_self]
    exact Nat.mod_eq_of_lt error.toNat_lt
  have type : (fillEvent args s n j error).value args (.event n .type) =
      PollState.value { mem := mem } args (.sub j .type) := by
    have sizes : args.length (.sub j .type) = args.length (.event n .type) := rfl
    rw [fillEvent_def, value_copy_self sizes, value_sub_copy apart lt _ _ sub,
      value_sub_write_event apart lt _ sub, kept j sub]
  have flags_ : (fillEvent args s n j error).value args (.event n .flags) = 0 := by
    rw [fillEvent_def, value_field_copy (by decide), value_field_copy (by decide),
      value_field_write_event (by decide), flags]
  have fields : ∀ field, PollState.value { mem := (fillEvent args s n j error).mem } args
      (.event n field) = (fillEvent args s n j error).value args (.event n field) :=
    fun _ => rfl
  simp only [eventAt, fields, userdata, error_, type, flags_, UInt16.ofNat_toNat]
  rfl

/-- What filling in an event leaves alone. -/
theorem fillEvent_frame (apart : ArraysApart args) (kept : SubsKept args mem s)
    (lt : n < args.appSubCount.toNat) (j : ℕ) (error : UInt16) :
    SubsKept args mem (fillEvent args s n j error) ∧
      (∀ k ≠ n, ∀ field, (fillEvent args s n j error).value args (.event k field) =
        s.value args (.event k field)) ∧
      ∀ a, (a < args.pAppOutEvent + eventSize * n ∨
        args.pAppOutEvent + eventSize * (n + 1) ≤ a) →
        (fillEvent args s n j error).mem a = s.mem a := by
  rw [fillEvent_def]
  refine ⟨?_, ?_, ?_⟩
  · intro i below field
    rw [value_sub_copy apart lt _ _ below, value_sub_copy apart lt _ _ below,
      value_sub_write_event apart lt _ below, kept i below]
  · intro k other field
    exact (value_event_write_event other .type field).trans
      ((value_event_write_event other .userdata field).trans
        (value_event_write_event other .error field))
  · intro a outside
    exact (mem_write_event .type outside).trans
      ((mem_write_event .userdata outside).trans (mem_write_event .error outside))

/-- The flags of an event that is not written yet. -/
theorem Written.flags (written : Written args mem s events)
    (lt : events.length < args.appSubCount.toNat) :
    s.value args (.event events.length .flags) = 0 := by
  have here := event_bound args events.length .flags
  have all := eventSize_mul_le lt
  have bytes : ∀ b < args.length (.event events.length .flags),
      s.mem (args.offset (.event events.length .flags) + b) = byteAt 0 b := by
    intro b bound
    rw [written.rest _ (by omega) (by omega), byteAt, Nat.zero_div]
    rfl
  exact (load_of_bytes bytes).trans (Nat.zero_mod _)

/-- A state that differs from one that holds events in the next event and the number only. -/
theorem Written.append {s' : PollState} {event : Event} (written : Written args mem s events)
    (subs : SubsKept args mem s') (number : s'.value args .nEvents = events.length + 1)
    (here : eventAt args s'.mem events.length = event)
    (others : ∀ k < events.length, ∀ field, s'.value args (.event k field) =
      s.value args (.event k field))
    (after : ∀ a, args.pAppOutEvent + eventSize * (events.length + 1) ≤ a →
      a < args.pAppOutEvent + eventSize * args.appSubCount.toNat → s'.mem a = s.mem a) :
    Written args mem s' (events ++ [event]) := by
  refine ⟨subs, by rw [number, List.length_append]; rfl, fun k other known => ?_,
    fun a low high => ?_⟩
  · rcases Nat.lt_or_ge k events.length with earlier | last
    · rw [List.getElem?_append_left earlier] at known
      rw [eventAt_congr (others k earlier)]
      exact written.each k other known
    · rw [List.getElem?_append_right last, List.getElem?_singleton] at known
      obtain ⟨zero, same⟩ := Option.ite_none_right_eq_some.mp known
      cases same
      have same : k = events.length := by omega
      rw [same]
      exact here
  · rw [List.length_append, List.length_singleton] at low
    rw [after a low high]
    refine written.rest a ?_ high
    have := eventSize_mul_le (Nat.lt_succ_self events.length)
    rw [Nat.mul_succ] at low
    omega

/-- The flags are written last. -/
theorem eventAt_write_flags (s : PollState) (n v : ℕ) :
    eventAt args (s.write args (.event n .flags) v).mem n =
      { eventAt args s.mem n with flags := UInt16.ofNat v } := by
  have fields : ∀ field, PollState.value { mem := (s.write args (.event n .flags) v).mem } args
      (.event n field) = (s.write args (.event n .flags) v).value args (.event n field) :=
    fun _ => rfl
  have others : ∀ field, field ≠ .flags →
      (s.write args (.event n .flags) v).value args (.event n field) =
        PollState.value { mem := s.mem } args (.event n field) :=
    fun field other => value_field_write_event other
  have flags : UInt16.ofNat ((s.write args (.event n .flags) v).value args (.event n .flags)) =
      UInt16.ofNat v := by
    rw [value_write_self, ← UInt16.toNat_inj, UInt16.toNat_ofNat', UInt16.toNat_ofNat']
    exact Nat.mod_mod _ _
  simp only [eventAt, fields, flags, others .userdata (by decide), others .error (by decide),
    others .type (by decide)]

/-- **One more event.** -/
theorem Written.report (apart : ArraysApart args) (written : Written args mem s events)
    (lt : events.length < args.appSubCount.toNat) (sub : j < args.appSubCount.toNat)
    (error : UInt16) (hangup : Bool) :
    Written args mem (reportEvent args s j error hangup)
      (events ++ [(subscriptionAt args mem j).event error
        (if hangup = true then UInt16.ofNat eventFdReadwriteHangup else 0)]) ∧
      (reportEvent args s j error hangup).waits = s.waits := by
  let counted := (nextEvent args s).2
  have index : (nextEvent args s).1 = events.length := written.number
  have countedSubs : SubsKept args mem counted := fun i below field =>
    (value_sub_write_number apart below field).trans (written.subs i below field)
  have countedEvents : ∀ k < args.appSubCount.toNat, ∀ field,
      counted.value args (.event k field) = s.value args (.event k field) :=
    fun k below field => value_event_write_number apart below field
  have countedMem : ∀ a, args.pAppOutEvent ≤ a →
      a < args.pAppOutEvent + eventSize * args.appSubCount.toNat → counted.mem a = s.mem a :=
    fun a low high => mem_write_number apart low high
  have countedNumber : counted.value args .nEvents = events.length + 1 := by
    have bound := args.appSubCount.toNat_lt
    have next : (nextEvent args s).2.value args .nEvents =
        (s.value args .nEvents + 1) % 2 ^ 32 % 256 ^ 4 := value_write_self _ _ _ _
    rw [show counted.value args .nEvents = _ from next, written.number]
    omega
  have filled := fillEvent_frame apart countedSubs lt j error
  have event := eventAt_fillEvent apart countedSubs lt sub error
    ((countedEvents _ lt .flags).trans (written.flags lt))
  have filledNumber := (value_fillEvent apart.number_events lt counted j error).trans countedNumber
  have past : ∀ a, args.pAppOutEvent + eventSize * (events.length + 1) ≤ a →
      args.pAppOutEvent ≤ a := fun a low => (Nat.le_add_right _ _).trans low
  rw [reportEvent, index]
  cases hangup with
  | false =>
      refine ⟨written.append filled.1 filledNumber event (fun k earlier field => ?_)
        fun a low high => ?_, rfl⟩
      · exact (filled.2.1 k (Nat.ne_of_lt earlier) field).trans
          (countedEvents k (earlier.trans lt) field)
      · exact (filled.2.2 a (.inr low)).trans (countedMem a (past a low) high)
  | true =>
      refine ⟨written.append (fun i below field => ?_) ?_ ?_ (fun k earlier field => ?_)
        fun a low high => ?_, rfl⟩
      · exact (value_sub_write_event apart lt .flags below field).trans (filled.1 i below field)
      · exact (value_write_event apart.number_events lt _ .flags _).trans filledNumber
      · refine (eventAt_write_flags _ _ _).trans ?_
        rw [event]
        rfl
      · exact (value_event_write_event (Nat.ne_of_lt earlier) .flags field).trans
          ((filled.2.1 k (Nat.ne_of_lt earlier) field).trans
            (countedEvents k (earlier.trans lt) field))
      · exact (mem_write_event .flags (.inr low)).trans
          ((filled.2.2 a (.inr low)).trans (countedMem a (past a low) high))

end Events

/-! ## The loop over the answers of `poll` -/

section Loop

variable {args : PollArgs} {mem : Memory} {s : PollState} {events : List Event}
  {answers : PollAnswers}

theorem Written.touch (written : Written args mem s events) (reads : List Access) :
    Written args mem (s.touch reads) events :=
  ⟨written.subs, written.number, written.each, written.rest⟩

/-- The body of the loop reports what the entry gives. -/
theorem Written.reportFd (apart : ArraysApart args) (written : Written args mem s events)
    {i : ℕ} (lt : events.length < args.appSubCount.toNat) (sub : i < args.appSubCount.toNat)
    (pollArr : List PollFd) :
    Written args mem (reportFd args pollArr s i)
      (events ++ ((subscriptionAt args mem i).fdEvent
        (pollArr.getD i ⟨invalidSocket, 0, 0⟩)).toList) ∧
      (Socket.reportFd args pollArr s i).waits = s.waits := by
  have type : s.value args (.sub i .type) = (subscriptionAt args mem i).type.toNat :=
    (written.subs i sub .type).trans (type_subscriptionAt args mem i).symm
  have read := written.touch [.sub i .type]
  simp only [Socket.reportFd, type, Subscription.fdEvent]
  generalize pollArr.getD i ⟨invalidSocket, 0, 0⟩ = cur
  by_cases isFd : (subscriptionAt args mem i).IsFd
  · rw [if_pos (show _ ∨ _ from isFd), if_pos isFd]
    by_cases invalid : cur.fd = invalidSocket ∨ cur.revents &&& pollNVAL ≠ 0
    · rw [if_pos invalid, if_pos invalid]
      exact read.report apart lt sub uvwasiEBADF false
    · rw [if_neg invalid, if_neg invalid]
      by_cases ready : cur.revents &&& (pollRDNORM ||| pollWRNORM) ≠ 0
      · rw [if_pos ready, if_pos ready]
        have reported := read.report apart lt sub 0 (cur.revents &&& pollHUP ≠ 0)
        simp only [decide_eq_true_eq] at reported
        exact reported
      · rw [if_neg ready, if_neg ready]
        by_cases hungUp : cur.revents &&& pollHUP ≠ 0
        · rw [if_pos hungUp, if_pos hungUp]
          exact read.report apart lt sub uvwasiEPIPE true
        · rw [if_neg hungUp, if_neg hungUp]
          exact ⟨by rwa [Option.toList_none, List.append_nil], rfl⟩
  · rw [if_neg (show ¬ (_ ∨ _) from isFd), if_neg isFd]
    exact ⟨by rwa [Option.toList_none, List.append_nil], rfl⟩

theorem filterMap_firstEntries_succ {β : Type} (f : Subscription × ℕ → Option β) (k : ℕ) :
    (firstEntries args mem (k + 1)).filterMap f =
      (firstEntries args mem k).filterMap f ++ (f (subscriptionAt args mem k, k)).toList := by
  rw [firstEntries_succ, List.filterMap_append]
  cases reported : f (subscriptionAt args mem k, k) with
  | none => rw [List.filterMap_cons_none reported]; rfl
  | some _ => rw [List.filterMap_cons_some reported]; rfl

/-- The loop reports the events of the first entries. -/
theorem Written.reports (apart : ArraysApart args) (written : Written args mem s [])
    {pollArr : List PollFd} {cur : ℕ → PollFd}
    (entries : ∀ i < args.appSubCount.toNat, pollArr.getD i ⟨invalidSocket, 0, 0⟩ = cur i) {k : ℕ}
    (le : k ≤ args.appSubCount.toNat) :
    Written args mem ((List.range k).foldl (Socket.reportFd args pollArr) s)
        ((firstEntries args mem k).filterMap fun entry => entry.1.fdEvent (cur entry.2)) ∧
      ((List.range k).foldl (Socket.reportFd args pollArr) s).waits = s.waits := by
  induction k with
  | zero => exact ⟨written, rfl⟩
  | succ k ih =>
      obtain ⟨before, waits⟩ := ih (Nat.le_of_succ_le le)
      have fewer : ((firstEntries args mem k).filterMap fun entry =>
          entry.1.fdEvent (cur entry.2)).length < args.appSubCount.toNat := by
        refine Nat.lt_of_le_of_lt (List.length_filterMap_le _ _) ?_
        rw [firstEntries, List.length_map, List.length_range]
        exact le
      obtain ⟨after, waits'⟩ := before.reportFd apart fewer le pollArr
      rw [List.range_succ, List.foldl_append, filterMap_firstEntries_succ, ← entries k le]
      exact ⟨after, waits'.trans waits⟩

end Loop

/-! ## The call -/

section Call

variable {args : PollArgs} {mem : Memory} {answers : PollAnswers} {s : PollState} {scan : Scan}

/-- What a call leaves in memory and returns, against the result on lists. -/
structure Refines (args : PollArgs) (mem : Memory) (outcome : UInt16 × PollState)
    (result : PollResult) : Prop where
  ret : outcome.1 = result.ret
  waits : outcome.2.waits = result.waits
  written : Written args mem outcome.2 (result.reports.map Prod.snd)

/-- The locals after the loop over all subscriptions. -/
theorem ScanRefines.all
    (refines : ScanRefines args answers mem s args.appSubCount.toNat scan) :
    scan.timeoutNanoSec = (leastTimeout answers (subscriptions args mem)).1 ∧
      scan.pTimeoutSub = (leastTimeout answers (subscriptions args mem)).2.map Prod.snd ∧
      (scan.bSleepOnly = true ↔ SleepOnly answers (subscriptions args mem)) ∧
      scan.pollArr = (subscriptions args mem).map fun sub => sub.pollFd answers := by
  rw [leastTimeout, zipIdx_subscriptions]
  refine ⟨refines.timeout, refines.timeoutSub, refines.sleepOnly.trans ?_, ?_⟩
  · simp [SleepOnly, subscriptions, firstEntries]
  · rw [refines.pollArr, subscriptions, firstEntries, List.map_map, List.map_map]
    rfl

/-- The timeout given to `poll`, and what it answers. -/
theorem ScanRefines.polled
    (refines : ScanRefines args answers mem s args.appSubCount.toNat scan) :
    min (scan.timeoutNanoSec / 1000 / 1000).toNat (2 ^ 31 - 1) =
        pollTimeout answers (subscriptions args mem) ∧
      answers.poll scan.pollArr (pollTimeout answers (subscriptions args mem)) =
        Socket.polled answers (subscriptions args mem) := by
  obtain ⟨timeout, _, _, pollArr⟩ := refines.all
  constructor
  · rw [timeout, pollTimeout]
  · rw [pollArr, Socket.polled]

theorem subscriptions_eq_nil_iff : subscriptions args mem = [] ↔ args.appSubCount = 0 := by
  rw [subscriptions, List.map_eq_nil_iff, List.range_eq_nil, ← UInt32.toNat_inj]
  rfl

/-- The subscription with the least timeout is one of those in memory. -/
theorem leastTimeout_entry {entry : Subscription × ℕ}
    (found : (leastTimeout answers (subscriptions args mem)).2 = some entry) :
    ∃ j < args.appSubCount.toNat, entry = (subscriptionAt args mem j, j) := by
  have member := mem_of_leastTimeout found
  rw [zipIdx_subscriptions, firstEntries] at member
  obtain ⟨j, inside, rfl⟩ := List.mem_map.mp member
  exact ⟨j, List.mem_range.mp inside, rfl⟩

/-- The entries that `poll` has answered. -/
theorem setRevents_getD {i : ℕ} (lt : i < args.appSubCount.toNat) :
    (setRevents ((subscriptions args mem).map fun sub => sub.pollFd answers)
      (polled answers (subscriptions args mem)).2).getD i ⟨invalidSocket, 0, 0⟩ =
        polledFd answers (subscriptions args mem) (subscriptionAt args mem i, i) := by
  rw [List.getD_eq_getElem?_getD, setRevents]
  simp [subscriptions, polledFd, lt]

theorem map_snd_polledReports (answers : PollAnswers) (subs : List Subscription) :
    (polledReports answers subs).map Prod.snd =
      subs.zipIdx.filterMap (reportedEvent answers subs) := by
  rw [polledReports, List.map_filterMap]
  refine List.filterMap_congr fun entry _ => ?_
  rw [Option.map_map]
  exact Option.map_id'

/-- The event for an entry, by its index. -/
theorem events_of_entries (answers : PollAnswers) :
    ∀ entry ∈ firstEntries args mem args.appSubCount.toNat,
      reportedEvent answers (subscriptions args mem) entry =
        entry.1.fdEvent (polledFd answers (subscriptions args mem)
          (subscriptionAt args mem entry.2, entry.2)) := by
  intro entry member
  obtain ⟨i, _, rfl⟩ := List.mem_map.mp member
  rfl

theorem Written.of_mem {s' : PollState} {events : List Event}
    (written : Written args mem s events) (same : s'.mem = s.mem) :
    Written args mem s' events := by
  have values : ∀ a, s'.value args a = s.value args a := fun a => by
    rw [PollState.value, PollState.value, same]
  refine ⟨fun i lt field => (values _).trans (written.subs i lt field),
    (values _).trans written.number, ?_, ?_⟩
  · rw [same]
    exact written.each
  · rw [same]
    exact written.rest

/-- The event of a call that polls no descriptor. -/
theorem written_sleep (apart : ArraysApart args) (written : Written args mem s [])
    {j : ℕ} (sub : j < args.appSubCount.toNat) :
    Written args mem ((fillEvent args s 0 j 0).write args .nEvents 1)
      [(subscriptionAt args mem j).event 0 0] := by
  have some : 0 < args.appSubCount.toNat := Nat.zero_lt_of_lt sub
  have filled := fillEvent_frame apart written.subs some j 0
  have event := eventAt_fillEvent apart written.subs some sub 0 (written.flags some)
  refine written.append (fun i lt field => ?_) ?_ ?_ nofun fun a low high => ?_
  · exact (value_sub_write_number apart lt field).trans (filled.1 i lt field)
  · exact value_write_self _ _ _ _
  · exact (eventAt_congr fun field => value_event_write_number apart some field).trans event
  · rw [mem_write_number apart ((Nat.le_add_right _ _).trans low) high]
    exact filled.2.2 a (.inr low)

/-- The end of a call that polls no descriptor. -/
theorem sleepOnly_refines (apart : ArraysApart args)
    (refines : ScanRefines args answers mem s args.appSubCount.toNat scan)
    (written : Written args mem s []) (noWaits : s.waits = []) :
    Refines args mem (sleepOnly args scan) (sleepResult answers (subscriptions args mem)) := by
  obtain ⟨timeout, timeoutSub, _, _⟩ := refines.all
  have waits : scan.state.waits = [] := refines.sameWaits.trans noWaits
  cases found : (leastTimeout answers (subscriptions args mem)).2 with
  | none =>
      rw [found] at timeoutSub
      rw [sleepOnly, timeoutSub, sleepResult, found]
      exact ⟨rfl, waits, written.of_mem refines.sameMem⟩
  | some entry =>
      obtain ⟨j, lt, rfl⟩ := leastTimeout_entry found
      rw [found] at timeoutSub
      by_cases long : scan.timeoutNanoSec > 0
      · simp only [sleepOnly, timeoutSub, sleepResult, found, ← timeout, waits, Option.map_some,
          if_pos long]
        have slept : Written args mem { scan.state with waits :=
            [] ++ [HostWait.sleepFor scan.timeoutNanoSec.toInt64.toInt] } [] :=
          written.of_mem refines.sameMem
        exact ⟨rfl, rfl, written_sleep apart slept lt⟩
      · simp only [sleepOnly, timeoutSub, sleepResult, found, ← timeout, Option.map_some,
          if_neg long]
        exact ⟨rfl, waits, written_sleep apart (written.of_mem refines.sameMem) lt⟩

/-- The end of a call that polls descriptors. -/
theorem pollFds_refines (apart : ArraysApart args)
    (refines : ScanRefines args answers mem s args.appSubCount.toNat scan)
    (written : Written args mem s []) (noWaits : s.waits = []) (some : args.appSubCount ≠ 0) :
    Refines args mem (pollFds args answers scan)
      (polledResult answers (subscriptions args mem)) := by
  obtain ⟨timeout, timeoutSub, _, pollArr⟩ := refines.all
  obtain ⟨milliseconds, answered⟩ := refines.polled
  have positive : 0 < args.appSubCount.toNat :=
    Nat.pos_of_ne_zero fun zero => some (UInt32.toNat_inj.mp zero)
  have waits : scan.state.waits ++
      [HostWait.poll scan.pollArr.length (pollTimeout answers (subscriptions args mem))] =
        [.poll (subscriptions args mem).length (pollTimeout answers (subscriptions args mem))] := by
    rw [refines.sameWaits, noWaits, pollArr, List.length_map, List.nil_append]
  have waited : Written args mem { scan.state with waits :=
      [.poll (subscriptions args mem).length (pollTimeout answers (subscriptions args mem))] }
      [] := written.of_mem refines.sameMem
  simp only [pollFds, milliseconds, answered, waits, polledResult]
  split
  next => exact ⟨rfl, rfl, waited⟩
  next =>
    split
    next =>
      cases found : (leastTimeout answers (subscriptions args mem)).2 with
      | none =>
          rw [found] at timeoutSub
          rw [timeoutSub]
          exact ⟨rfl, rfl, waited⟩
      | some entry =>
          obtain ⟨j, lt, rfl⟩ := leastTimeout_entry found
          rw [found] at timeoutSub
          obtain ⟨reported, waits'⟩ := waited.report apart positive lt 0 false
          rw [timeoutSub]
          exact ⟨rfl, waits', reported⟩
    next =>
      split
      next =>
        rw [pollArr]
        obtain ⟨reported, waits'⟩ := waited.reports apart
          (fun i lt => setRevents_getD lt) (Nat.le_refl _)
        refine ⟨rfl, waits', ?_⟩
        have events : (firstEntries args mem args.appSubCount.toNat).filterMap
            (reportedEvent answers (subscriptions args mem)) = _ :=
          List.filterMap_congr (events_of_entries answers)
        rw [map_snd_polledReports, zipIdx_subscriptions, events]
        exact reported
      next => exact ⟨rfl, rfl, waited⟩

/-- **The call in memory.** Where the places do not overlap, a call does what it does on the list
of its subscriptions. -/
theorem wasiPollOneOff_refines {L : LinearMemory} (validated : Validated L args)
    (apart : ArraysApart args) (answers : PollAnswers) (mem : Memory) :
    Refines args mem (wasiPollOneOff L args answers mem)
      (pollOneOff answers (subscriptions args mem)) := by
  by_cases none : args.appSubCount = 0
  · rw [wasiPollOneOff, if_neg (not_not.mpr validated), if_pos none, pollOneOff,
      if_pos (subscriptions_eq_nil_iff.mpr none)]
    have zero : args.appSubCount.toNat = 0 := by rw [none]; rfl
    refine ⟨rfl, rfl, fun i lt => ?_, value_write_self _ _ _ _, fun k event stored => ?_,
      fun a low high => ?_⟩
    · omega
    · cases stored
    · rw [zero] at high
      omega
  · have written := written_cleared apart mem
    have refines : ScanRefines args answers mem _ _
        (scanSubs args answers (clearedState args mem) args.appSubCount.toNat) :=
      scanSubs_refines written.subs (Nat.le_refl _)
    have sleeps := refines.all.2.2.1
    rw [wasiPollOneOff_some validated none, pollOneOff,
      if_neg (mt subscriptions_eq_nil_iff.mp none)]
    dsimp only
    split
    next only =>
      rw [if_pos (sleeps.mp only)]
      exact sleepOnly_refines apart refines written rfl
    next polls =>
      rw [if_neg (mt sleeps.mpr polls)]
      exact pollFds_refines apart refines written rfl none

end Call

end Socket
end WamrExt
