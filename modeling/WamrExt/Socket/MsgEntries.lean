import WamrExt.Socket.MsgIOVec

/-!
# The entries of a message

The two handlers of messages go over the iovec array twice. When they run alone, they read the
entries up to the first that they refuse, and they pass on the translations of all entries, each
of which was accepted (`validateMsg_passed_inside`). So what they pass on is sound in any case.

The array itself is another matter. Its size is validated in 32 bits, and the loops go over the
full number of entries. The entries read lie inside the linear memory exactly when the array
fits, or an entry inside is refused (`validateMsg_contained_iff`).
-/

set_option autoImplicit false

namespace WamrExt
namespace Socket

open ByteMemory SharedProgram Wamr

/-- The entry of the iovec array that an access reads. -/
def entryOf : MsgAccess → Option ℕ
  | .appBufOffset i | .bufLen i => some i
  | _ => none

@[simp]
theorem entryOf_appBufOffset (i : ℕ) : entryOf (.appBufOffset i) = some i := rfl

@[simp]
theorem entryOf_bufLen (i : ℕ) : entryOf (.bufLen i) = some i := rfl

variable (L : LinearMemory) (args : MsgArgs) (mem : Memory)

/-- The fields of an entry pass the validation of the handlers. -/
def EntryAccepted (i : ℕ) : Prop :=
  valueAt args.place mem (.appBufOffset i) ≠ 0 ∧
    L.validateAppAddr (UInt32.ofNat (valueAt args.place mem (.appBufOffset i)))
      (UInt32.ofNat (valueAt args.place mem (.bufLen i))) = true

instance (i : ℕ) : Decidable (EntryAccepted L args mem i) :=
  inferInstanceAs (Decidable (_ ∧ _))

/-- The translation of an entry. -/
def hostEntry (i : ℕ) : HostIOVec :=
  hostIOVec L (valueAt args.place mem (.appBufOffset i)) (valueAt args.place mem (.bufLen i))

/-- Every byte of a host entry lies inside the linear memory. -/
def EntryInside (entry : HostIOVec) : Prop :=
  ∀ k < entry.iovLen,
    L.memoryData ≤ entry.iovBase + k ∧ entry.iovBase + k < L.memoryData + L.memoryDataSize

/-- A call passes on exactly the translations of the entries, inside the linear memory. -/
def PassesInside (result : MsgResult) : Prop :=
  ∀ msg, result.passed = some msg →
    msg.msgIovLen = args.appIOVecCount ∧
      msg.msgIov = (List.range args.appIOVecCount.toNat).map (hostEntry L args mem) ∧
      ∀ entry ∈ msg.msgIov, EntryInside L entry

/-- A call reads entries that lie inside the linear memory, and what it passes on is sound. -/
structure MsgContained (run : Run MsgAccess MsgResult) : Prop where
  entries : ∀ a ∈ run.log, ∀ i, entryOf a = some i →
    Inside L.memoryDataSize (args.iovec i) iovecSize
  passed : PassesInside L args mem run.result

/-- If a call gets past its first validations, then the array lies inside the linear memory, or
an entry that lies inside is refused. -/
def IOVecFits : Prop :=
  args.appIOVecCount ≠ 0 → MsgValidated L args →
    Inside L.memoryDataSize args.pAppIOVec (iovecSize * args.appIOVecCount.toNat) ∨
      ∃ i < args.appIOVecCount.toNat,
        Inside L.memoryDataSize args.pAppIOVec (iovecSize * (i + 1)) ∧
          ¬ EntryAccepted L args mem i

variable {L args mem}

/-- An accepted entry is translated to a range inside the linear memory. -/
theorem EntryAccepted.inside {i : ℕ} (accepted : EntryAccepted L args mem i) :
    EntryInside L (hostEntry L args mem i) := by
  obtain ⟨_, valid⟩ := accepted
  intro k bound
  rw [LinearMemory.validateAppAddr, decide_eq_true_iff, Inside] at valid
  simp only [hostEntry, hostIOVec] at bound ⊢
  rw [L.addrAppToNative_eq, if_pos (by omega), Option.getD_some]
  omega

/-- The loop goes on after an entry it accepts. -/
theorem alone_validateIOVecs_accepted {i : ℕ} (accepted : EntryAccepted L args mem i) (n : ℕ) :
    alone args.place (validateIOVecs L i (n + 1)) mem =
      (((alone args.place (validateIOVecs L (i + 1) n) mem).after (.bufLen i)).after
        (.appBufOffset i)).after (.appBufOffset i) := by
  obtain ⟨positive, valid⟩ := accepted
  rw [validateIOVecs, alone_get, if_neg positive, alone_get, alone_get, if_pos valid]

/-- The loop ends at an entry it refuses. -/
theorem alone_validateIOVecs_refused {i : ℕ} (refused : ¬ EntryAccepted L args mem i) (n : ℕ) :
    ∃ more, alone args.place (validateIOVecs L i (n + 1)) mem =
        ⟨false, mem, .appBufOffset i :: more⟩ ∧ ∀ a ∈ more, entryOf a = some i := by
  by_cases null : valueAt args.place mem (.appBufOffset i) = 0
  · refine ⟨[], ?_, fun a member => absurd member List.not_mem_nil⟩
    rw [validateIOVecs, alone_get, if_pos null]
    rfl
  · refine ⟨[.appBufOffset i, .bufLen i], ?_, by simp [entryOf]⟩
    rw [validateIOVecs, alone_get, if_neg null, alone_get, alone_get,
      if_neg fun valid => refused ⟨null, valid⟩]
    rfl

/-- What the loop over the entries from `i` on does: it reads the entries up to the first that it
refuses, and gives whether there is none. -/
structure Validates (L : LinearMemory) (args : MsgArgs) (mem : Memory) (i n : ℕ)
    (run : Run MsgAccess Bool) : Prop where
  mem_eq : run.mem = mem
  result : run.result = true ↔ ∀ j, i ≤ j → j < i + n → EntryAccepted L args mem j
  entries : ∀ j, (∃ a ∈ run.log, entryOf a = some j) ↔
    i ≤ j ∧ j < i + n ∧ ∀ k, i ≤ k → k < j → EntryAccepted L args mem k

theorem validateIOVecs_validates (n i : ℕ) :
    Validates L args mem i n (alone args.place (validateIOVecs L i n) mem) := by
  induction n generalizing i with
  | zero =>
      refine ⟨rfl, ⟨fun _ j _ _ => by omega, fun _ => rfl⟩, fun j => ⟨?_, fun _ => by omega⟩⟩
      rintro ⟨a, member, _⟩
      exact absurd member List.not_mem_nil
  | succ n ih =>
      by_cases accepted : EntryAccepted L args mem i
      · obtain ⟨mem_eq, result, entries⟩ := ih (i + 1)
        rw [alone_validateIOVecs_accepted accepted]
        have fromNext : ∀ {k}, i ≤ k → k = i ∨ i + 1 ≤ k := fun le => by omega
        refine ⟨mem_eq, result.trans ⟨fun all j low high => ?_, fun all j low high => ?_⟩,
          fun j => ?_⟩
        · obtain rfl | later := fromNext low
          · exact accepted
          · exact all j later (by omega)
        · exact all j (by omega) (by omega)
        · simp only [Run.after, List.exists_mem_cons_iff, entries, entryOf_appBufOffset,
            entryOf_bufLen, Option.some.injEq]
          constructor
          · rintro (rfl | rfl | rfl | ⟨low, high, before⟩)
            iterate 3 exact ⟨le_rfl, by omega, fun k low high => by omega⟩
            refine ⟨by omega, by omega, fun k le lt => ?_⟩
            obtain rfl | later := fromNext le
            · exact accepted
            · exact before k later lt
          · rintro ⟨low, high, before⟩
            obtain rfl | later := fromNext low
            · exact .inl rfl
            · exact .inr (.inr (.inr ⟨later, by omega, fun k le lt => before k (by omega) lt⟩))
      · obtain ⟨more, run, own⟩ := alone_validateIOVecs_refused accepted n
        rw [run]
        refine ⟨rfl, ⟨fun given => (by cases given), fun all => ?_⟩, fun j => ⟨?_, ?_⟩⟩
        · exact absurd (all i le_rfl (by omega)) accepted
        · rintro ⟨a, member, entry⟩
          have here : i = j := by
            obtain rfl | later := List.mem_cons.mp member
            · exact Option.some.inj entry
            · exact Option.some.inj ((own a later).symm.trans entry)
          exact ⟨here.le, by omega, fun k low high => by omega⟩
        · rintro ⟨low, _, before⟩
          have here : i = j := by
            by_contra other
            exact accepted (before i le_rfl (by omega))
          exact ⟨_, List.mem_cons_self, congrArg some here⟩

/-- The loop that builds the array of the host gives the translations of the entries. -/
theorem alone_buildIOVecs (n i : ℕ) :
    let run := alone args.place (buildIOVecs L i n) mem
    run.mem = mem ∧ run.result = (List.range' i n).map (hostEntry L args mem) := by
  induction n generalizing i with
  | zero => exact ⟨rfl, rfl⟩
  | succ n ih =>
      obtain ⟨mem_eq, result⟩ := ih (i + 1)
      rw [List.range'_succ, List.map_cons, ← result]
      rw [buildIOVecs]
      simp only [alone_bind]
      exact ⟨mem_eq, rfl⟩

/-- An access to the header or to an entry below a number. -/
def EntryBelow (n : ℕ) (a : MsgAccess) : Prop := ∀ j, entryOf a = some j → j < n

theorem buildIOVecs_only (L : LinearMemory) {count : ℕ} (n i : ℕ) (bound : i + n ≤ count) :
    (buildIOVecs L i n).Only (EntryBelow count) := by
  induction n generalizing i with
  | zero => trivial
  | succ n ih =>
      have own : ∀ a, entryOf a = some i → EntryBelow count a := by
        intro a entry j same
        cases entry.symm.trans same
        omega
      exact ⟨own _ rfl, fun _ => ⟨own _ rfl, fun _ => (ih (i + 1) (by omega)).bind fun _ => trivial⟩⟩

theorem entryBelow_header {count : ℕ} {a : MsgAccess} (header : entryOf a = none) :
    EntryBelow count a := by
  intro j entry
  rw [header] at entry
  cases entry

theorem putSockAddr_only (count : ℕ) (writes : List HostWrite) :
    (putSockAddr .addr writes).Only (EntryBelow count) := by
  induction writes with
  | nil => trivial
  | cons w rest ih => exact ⟨entryBelow_header rfl, ih⟩

theorem recvMsg_only (answers : MsgAnswers) :
    (recvMsg L args answers).Only (EntryBelow args.appIOVecCount.toNat) := by
  refine ⟨entryBelow_header rfl, fun inputFlags => ?_⟩
  dsimp only [Prog.bind]
  cases answers.getHostSocketFD args.appSockFD with
  | error err => trivial
  | ok hostSockFD =>
      apply (buildIOVecs_only L _ 0 (by omega)).bind
      intro iov
      split
      next => trivial
      next =>
        exact ⟨entryBelow_header rfl, entryBelow_header rfl,
          (putSockAddr_only _ _).bind fun _ => trivial⟩

theorem wasiAppSockAddr_only (count : ℕ) :
    wasiAppSockAddrToHostSockAddr.Only (EntryBelow count) := by
  have header : ∀ off len, EntryBelow count (.addr off len) := fun _ _ => entryBelow_header rfl
  refine ⟨header 0 2, fun family => ?_⟩
  dsimp only [Prog.bind]
  split
  · exact ⟨header 4 4, fun _ => ⟨header 8 2, fun _ => trivial⟩⟩
  · refine ⟨header 0 2, fun family => ?_⟩
    dsimp only [Prog.bind]
    split
    · exact ⟨header 4 16, fun _ => ⟨header 20 2, fun _ => ⟨header 24 4, fun _ =>
        ⟨header 28 4, fun _ => trivial⟩⟩⟩⟩
    · trivial

theorem wasiAppSockAddr_readsOnly : wasiAppSockAddrToHostSockAddr.ReadsOnly := by
  intro family
  dsimp only [Prog.bind]
  split
  · exact fun _ _ => trivial
  · intro family
    dsimp only [Prog.bind]
    split
    · exact fun _ _ _ _ => trivial
    · trivial

theorem sendMsgTo_only (answers : MsgAnswers) (hostSockFD : ℤ) (flags : UInt32)
    (hostSockAddr : Option HostSockAddr) :
    (sendMsgTo L args answers hostSockFD flags hostSockAddr).Only
      (EntryBelow args.appIOVecCount.toNat) := by
  refine (buildIOVecs_only L _ 0 (by omega)).bind fun iov =>
    ⟨entryBelow_header rfl, fun family => ?_⟩
  dsimp only [Prog.bind]
  cases answers.sendmsg hostSockFD _ flags with
  | error err => trivial
  | ok ret => exact ⟨entryBelow_header rfl, trivial⟩

theorem sendMsg_only (answers : MsgAnswers) :
    (sendMsg L args answers).Only (EntryBelow args.appIOVecCount.toNat) := by
  refine ⟨entryBelow_header rfl, fun inputFlags => ?_⟩
  dsimp only [Prog.bind]
  cases answers.getHostSocketFD args.appSockFD with
  | error err => trivial
  | ok hostSockFD =>
      refine ⟨entryBelow_header rfl, fun family => ?_⟩
      dsimp only [Prog.bind]
      split
      · exact sendMsgTo_only answers _ _ _
      · apply (wasiAppSockAddr_only _).bind
        intro converted
        cases converted with
        | error err => trivial
        | ok addr => exact sendMsgTo_only answers _ _ _

/-- A header with the translations of all entries. -/
def PassesEntries (L : LinearMemory) (args : MsgArgs) (mem : Memory) (result : MsgResult) : Prop :=
  ∀ msg, result.passed = some msg →
    msg.msgIovLen = args.appIOVecCount ∧
      msg.msgIov = (List.range args.appIOVecCount.toNat).map (hostEntry L args mem)

theorem passesEntries_none {result : MsgResult} (none : result.passed = .none) :
    PassesEntries L args mem result := by
  intro msg passed
  rw [none] at passed
  cases passed

theorem passesEntries_some {result : MsgResult} {msg : HostMsgHdr}
    (passed : result.passed = some msg) (len : msg.msgIovLen = args.appIOVecCount)
    (iov : msg.msgIov = (List.range args.appIOVecCount.toNat).map (hostEntry L args mem)) :
    PassesEntries L args mem result := by
  intro other same
  cases passed.symm.trans same
  exact ⟨len, iov⟩

theorem built_entries : (alone args.place (buildIOVecs L 0 args.appIOVecCount.toNat) mem).result =
    (List.range args.appIOVecCount.toNat).map (hostEntry L args mem) := by
  rw [List.range_eq_range']
  exact (alone_buildIOVecs _ 0).2

theorem recvMsg_passes (answers : MsgAnswers) :
    PassesEntries L args mem (alone args.place (recvMsg L args answers) mem).result := by
  rw [recvMsg, alone_bind]
  cases answers.getHostSocketFD args.appSockFD with
  | error err => exact passesEntries_none rfl
  | ok hostSockFD =>
      dsimp only
      rw [alone_bind]
      split
      next => exact passesEntries_some rfl rfl built_entries
      next =>
        change PassesEntries L args mem
          (alone args.place (putSockAddr .addr _ >>= fun _ => pure _) _).result
        rw [alone_bind]
        exact passesEntries_some rfl rfl built_entries

theorem sendMsgTo_passes (answers : MsgAnswers) (hostSockFD : ℤ) (flags : UInt32)
    (hostSockAddr : Option HostSockAddr) :
    PassesEntries L args mem
      (alone args.place (sendMsgTo L args answers hostSockFD flags hostSockAddr) mem).result := by
  rw [sendMsgTo, alone_bind, alone_bind]
  dsimp only
  split
  next => exact passesEntries_some rfl rfl built_entries
  next => exact passesEntries_some rfl rfl built_entries

theorem sendMsg_passes (answers : MsgAnswers) :
    PassesEntries L args mem (alone args.place (sendMsg L args answers) mem).result := by
  rw [sendMsg, alone_bind]
  cases answers.getHostSocketFD args.appSockFD with
  | error err => exact passesEntries_none rfl
  | ok hostSockFD =>
      change PassesEntries L args mem
        (alone args.place (if valueAt args.place mem (.addr 0 2) = wasiAfUnspec then _ else _)
          mem).result
      split
      · exact sendMsgTo_passes answers _ _ _
      · rw [alone_bind, wasiAppSockAddr_readsOnly.mem_eq mem]
        split
        next => exact passesEntries_none rfl
        next => exact sendMsgTo_passes answers _ _ _

/-- A call that gets past its first validations is the loop over the entries and what follows. -/
theorem validateMsg_eq {rest : Prog MsgAccess MsgResult} :
    validateMsg L args rest =
      if args.appIOVecCount ≠ 0 ∧ MsgValidated L args then
        validateIOVecs L 0 args.appIOVecCount.toNat >>= fun valid =>
          if valid = true then rest else pure { err := uvwasiEFAULT }
      else pure { err := if args.appIOVecCount = 0 then uvwasiEINVAL else uvwasiEFAULT } := by
  rw [validateMsg]
  by_cases zero : args.appIOVecCount = 0
  · rw [if_pos zero, if_neg fun both => both.1 zero, if_pos zero]
  · rw [if_neg zero]
    by_cases validated : MsgValidated L args
    · rw [if_neg (not_not_intro validated), if_pos ⟨zero, validated⟩]
    · rw [if_pos validated, if_neg fun both => validated both.2, if_neg zero]

/-- The entries that a call reads are those up to the first that it refuses. -/
theorem validateMsg_entries {rest : Prog MsgAccess MsgResult}
    (only : rest.Only (EntryBelow args.appIOVecCount.toNat)) (j : ℕ) :
    (∃ a ∈ (alone args.place (validateMsg L args rest) mem).log, entryOf a = some j) ↔
      (args.appIOVecCount ≠ 0 ∧ MsgValidated L args) ∧ j < args.appIOVecCount.toNat ∧
        ∀ k < j, EntryAccepted L args mem k := by
  have loop : Validates L args mem 0 args.appIOVecCount.toNat _ := validateIOVecs_validates _ 0
  obtain ⟨_, result, entries⟩ := loop
  simp only [Nat.zero_le, Nat.zero_add, true_imp_iff, true_and] at result entries
  rw [validateMsg_eq]
  split
  next reached =>
    rw [alone_bind, and_iff_right reached]
    simp only [Run.afterAll, List.mem_append, or_and_right, exists_or, entries]
    refine ⟨fun read => read.elim id ?_, .inl⟩
    rintro ⟨a, member, entry⟩
    split at member
    next valid =>
      have lt := only.log _ a member j entry
      exact ⟨lt, fun k before => result.mp valid k (before.trans lt)⟩
    next => exact absurd member List.not_mem_nil
  next early =>
    refine ⟨?_, fun read => absurd read.1 early⟩
    rintro ⟨a, member, _⟩
    exact absurd member List.not_mem_nil

/-- A call passes on what the rest of the handler does, when it accepts all entries. -/
theorem validateMsg_passed {rest : Prog MsgAccess MsgResult} {msg : HostMsgHdr}
    (passed : (alone args.place (validateMsg L args rest) mem).result.passed = some msg) :
    (alone args.place rest mem).result.passed = some msg ∧
      ∀ i < args.appIOVecCount.toNat, EntryAccepted L args mem i := by
  have loop : Validates L args mem 0 args.appIOVecCount.toNat _ := validateIOVecs_validates _ 0
  obtain ⟨mem_eq, result, _⟩ := loop
  simp only [Nat.zero_le, Nat.zero_add, true_imp_iff] at result
  rw [validateMsg_eq] at passed
  split at passed
  next =>
    rw [alone_bind, mem_eq] at passed
    split at passed
    next valid => exact ⟨passed, result.mp valid⟩
    next => cases passed
  next => cases passed

/-- **What a call passes on lies inside the linear memory.** -/
theorem validateMsg_passed_inside {rest : Prog MsgAccess MsgResult}
    (passes : PassesEntries L args mem (alone args.place rest mem).result) :
    PassesInside L args mem (alone args.place (validateMsg L args rest) mem).result := by
  intro msg given
  obtain ⟨own, accepted⟩ := validateMsg_passed given
  obtain ⟨len, iov⟩ := passes msg own
  refine ⟨len, iov, fun entry member => ?_⟩
  rw [iov] at member
  obtain ⟨i, below, rfl⟩ := List.mem_map.mp member
  exact (accepted i (List.mem_range.mp below)).inside

/-- **A call is contained exactly when its array fits.** -/
theorem validateMsg_contained_iff {rest : Prog MsgAccess MsgResult}
    (only : rest.Only (EntryBelow args.appIOVecCount.toNat))
    (passes : PassesEntries L args mem (alone args.place rest mem).result) :
    MsgContained L args mem (alone args.place (validateMsg L args rest) mem) ↔
      IOVecFits L args mem := by
  have read : ∀ j, (∃ a ∈ (alone args.place (validateMsg L args rest) mem).log,
      entryOf a = some j) ↔ _ := validateMsg_entries only
  have start : MsgValidated L args → args.pAppIOVec ≤ L.memoryDataSize := by
    intro validated
    have inside := (L.validateNativeAddr_native _ _).mp validated.2
    rw [Inside] at inside
    omega
  constructor
  · intro contained positive validated
    apply (elements_inside_iff (start validated)).mp
    intro j lt accepted
    obtain ⟨a, member, entry⟩ := (read j).mpr ⟨⟨positive, validated⟩, lt, accepted⟩
    exact contained.entries a member j entry
  · intro fits
    refine ⟨fun a member j entry => ?_, validateMsg_passed_inside passes⟩
    obtain ⟨⟨positive, validated⟩, lt, accepted⟩ := (read j).mp ⟨a, member, entry⟩
    exact (elements_inside_iff (start validated)).mpr (fits positive validated) j lt accepted

end Socket
end WamrExt
