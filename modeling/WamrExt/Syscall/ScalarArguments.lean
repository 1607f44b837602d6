import WamrExt.Process.SpawnArgv
import WamrExt.Process.WaitWords
import WamrExt.Socket.SockOpen
import WamrExt.Socket.SockOpt
import WamrExt.Syscall.PointerSlots
import WamrExt.Syscall.Sysctl

/-!
# Slots and words of a call

The dispatcher validates the argument array with a size of 32 bits, and one byte for each pointer
in it. What it then reads of the array, and what a handler reads or writes as a word of four
bytes through such a pointer, lies inside the linear memory exactly when the array fits as far as
the dispatcher goes over it, and the words fit behind their pointers
(`call_inside_iff`).

The words are those of the five handlers that validate no range for them: the new descriptors of
`SockOpen` and `SockAccept`, the length of `SockGetOpt` and of `WamrExtSysctl`, and the two
results of `ProcessWaitPID`.
-/

set_option autoImplicit false

namespace WamrExt
namespace Syscall

open ByteMemory SharedProgram Wamr Socket Process

/-! ## Handlers with a word -/

/-- What the host answers to the five handlers. -/
structure HandlerHost where
  sockOpen : OpenAnswers
  sockAccept : AcceptAnswers
  sockGetOpt : OptAnswers
  waitTurns : List WaitTurn
  sysctl : SysctlAnswers

/-- The offsets of the words among the accesses of a run. -/
def wordsOf {A α : Type} (place : A → ℕ × ℕ) (isWord : A → Bool) (run : Run A α) : List ℕ :=
  (run.log.filter isWord).map fun a => (place a).1

section Words

variable (L : LinearMemory) (mem : Memory)

def openWords (args : OpenArgs) (answers : OpenAnswers) : List ℕ :=
  wordsOf args.place (fun _ => true) (alone args.place (sockOpen L args answers) mem)

def acceptWords (args : AcceptArgs) (answers : AcceptAnswers) : List ℕ :=
  wordsOf args.place (· = .outNewAppSockFD) (alone args.place (sockAccept L args answers) mem)

def getOptWords (args : GetOptArgs) (answers : OptAnswers) : List ℕ :=
  wordsOf args.place (· = .optBufLen) (alone args.place (sockGetOpt L args answers) mem)

def waitWords (args : WaitWordArgs) (turns : List WaitTurn) : List ℕ :=
  wordsOf args.place (fun _ => true) (alone args.place (processWaitPID args.opt turns) mem)

def sysctlWords (args : SysctlArgs) (answers : SysctlAnswers) : List ℕ :=
  wordsOf args.place (· = .bufLen) (alone args.place (wamrExtSysctl L args answers) mem)

/-- The offset of a host address in the linear memory. -/
def offsetOf (p : ℕ) : ℕ := p - L.memoryData

/-- An argument as an `int32_t`. -/
def int32Arg (v : ℕ) : ℤ := (BitVec.ofNat 32 v).toInt

/-- The words that the handler of a syscall reads or writes. -/
def handlerWords (host : HandlerHost) (syscallID : UInt32) (args : List Arg) : List ℕ :=
  match syscallID.toNat, args with
  | 1, [.pointer name, .pointer buf, .pointer bufLen] =>
      sysctlWords L mem
        ⟨appStr L mem (UInt32.ofNat (offsetOf L name)), offsetOf L buf, offsetOf L bufLen⟩
        host.sysctl
  | 300, [.u32 domain, .u32 type, .u32 protocol, .pointer outAppSockFD] =>
      openWords L mem
        ⟨int32Arg domain, UInt32.ofNat type, int32Arg protocol, offsetOf L outAppSockFD⟩
        host.sockOpen
  | 304, [.u32 appSockFD, .pointer outNewAppSockFD, .pointer pAppSockAddr] =>
      acceptWords L mem
        ⟨int32Arg appSockFD, offsetOf L outNewAppSockFD, offsetOf L pAppSockAddr⟩
        host.sockAccept
  | 308, [.u32 appSockFD, .u32 appLevel, .u32 appOptName, .pointer optBuf, .pointer optBufLen] =>
      getOptWords L mem
        ⟨int32Arg appSockFD, int32Arg appLevel, int32Arg appOptName, offsetOf L optBuf,
          offsetOf L optBufLen⟩
        host.sockGetOpt
  | 401, [.u32 _, .u32 opt, .pointer exitStatus, .pointer retPID] =>
      waitWords mem ⟨UInt32.ofNat opt, offsetOf L exitStatus, offsetOf L retPID⟩ host.waitTurns
  | _, _ => []

end Words

/-! ## The slots of a call -/

/-- The slots that the translation loop reads, and stores in if it accepts the offset. -/
def loopSlots (L : LinearMemory) (argv : ℕ) : List ArgChar → ℕ → Memory → List ℕ
  | [], _, _ => []
  | c :: rest, i, mem =>
      if c.translated then
        i :: if Accepts L c mem (appPointer mem argv i) then
          loopSlots L argv rest (i + 1)
            (store mem (slot argv i) 8 (L.native (appPointer mem argv i).toNat))
        else []
      else loopSlots L argv rest (i + 1) mem

/-- The slot of an argument. -/
def SlotRead.index : SlotRead → ℕ
  | .u32 i | .u64 i | .native i => i

/-- The slots that the dispatcher reads or writes, and the words that the handler does. -/
structure SyscallRun where
  slots : List ℕ
  words : List ℕ

/-- `Invoke`, as far as slots and words go. -/
def invokeRun (L : LinearMemory) (host : HandlerHost) (syscallID argc : UInt32) (cls : ExtSyscall)
    (argv : ℕ) (mem : Memory) : SyscallRun :=
  if argc.toNat < cls.argSig.length then ⟨[], []⟩
  else
    let t := translate L argv cls.argSig 0 mem
    let slots := loopSlots L argv cls.argSig 0 mem
    if t.complete then
      ⟨slots ++ cls.slotReads.map SlotRead.index,
        handlerWords L t.mem host syscallID (cls.doSyscall t.mem argv)⟩
    else ⟨slots, []⟩

/-- `WasiExtSyscall`, as far as slots and words go. -/
def syscallRun (L : LinearMemory) (host : HandlerHost) (syscallID argc : UInt32) (argv : ℕ)
    (mem : Memory) : SyscallRun :=
  if 0 < argc ∧ (L.native argv = 0 ∨
      L.validateNativeAddr (L.native argv) (UInt32.ofNat (argSize * argc.toNat)) = false) then
    ⟨[], []⟩
  else
    match extSyscallTable.lookup syscallID with
    | none => ⟨[], []⟩
    | some cls => invokeRun L host syscallID argc cls argv mem

/-- Each slot and each word of a call lies inside the linear memory. -/
def CallInside (L : LinearMemory) (argv : ℕ) (run : SyscallRun) : Prop :=
  (∀ i ∈ run.slots, Inside L.memoryDataSize (slot argv i) argSize) ∧
    ∀ w ∈ run.words, Inside L.memoryDataSize w 4

/-! ## When a call stays inside -/

section Fits

variable (L : LinearMemory) (mem : Memory) (argv : ℕ)

/-- The loop passes a slot: it holds a number, or an offset that is accepted. -/
def SlotPasses (sig : List ArgChar) (i : ℕ) : Prop :=
  ∀ c ∈ sig[i]?, c.translated = true → Accepts L c mem (appPointer mem argv i)

/-- The array fits as far as the dispatcher goes over it: the slots of the signature lie inside,
or one that lies inside is refused. -/
def SlotsFit (sig : List ArgChar) : Prop :=
  Inside L.memoryDataSize argv (argSize * sig.length) ∨
    ∃ i, Inside L.memoryDataSize argv (argSize * (i + 1)) ∧ ¬ SlotPasses L mem argv sig i

/-- The pointer in a slot has room behind it. -/
def PointsTo (i len : ℕ) : Prop := Inside L.memoryDataSize (appPointer mem argv i).toNat len

/-- The words fit behind their pointers, if the handler gets to them. -/
def WordsFit (syscallID : UInt32) : Prop :=
  let number i := load mem (slot argv i) 4
  match syscallID.toNat with
  | 1 => PointsTo L mem argv 2 4
  | 300 =>
      (∃ request, socketRequest (int32Arg (number 0)) (UInt32.ofNat (number 1))
        (int32Arg (number 2)) = .ok request) → PointsTo L mem argv 3 4
  | 304 => PointsTo L mem argv 2 sockAddrSize → PointsTo L mem argv 1 4
  | 308 => PointsTo L mem argv 4 4
  | 401 => PointsTo L mem argv 2 4 ∧ PointsTo L mem argv 3 4
  | _ => True

/-- A call gets to the translation loop: it passes the validation of the array, and has enough
arguments for a known syscall. -/
def ReachesLoop (syscallID argc : UInt32) (cls : ExtSyscall) : Prop :=
  (0 < argc → Inside L.memoryDataSize argv (UInt32.ofNat (argSize * argc.toNat)).toNat) ∧
    extSyscallTable.lookup syscallID = some cls ∧ cls.argSig.length ≤ argc.toNat

/-- The array and the words of a call fit. -/
def CallFits (syscallID argc : UInt32) : Prop :=
  ∀ cls, ReachesLoop L argv syscallID argc cls →
    SlotsFit L mem argv cls.argSig ∧
      ((∀ i, SlotPasses L mem argv cls.argSig i) → WordsFit L mem argv syscallID)

end Fits

/-! ## The words of each handler -/

section Words

variable {L : LinearMemory} {mem : Memory}

/-- A handler with one word stays inside, whatever the host answers, exactly when the word fits
or no answer makes the handler access it. -/
theorem words_inside_iff {Answers A α : Type} {place : A → ℕ × ℕ} {isWord : A → Bool}
    {run : Answers → Run A α} {size w : ℕ} (only : ∀ a, isWord a = true → (place a).1 = w) :
    (∀ answers, ∀ v ∈ wordsOf place isWord (run answers), Inside size v 4) ↔
      ((∃ answers, ∃ a ∈ (run answers).log, isWord a = true) → Inside size w 4) := by
  simp only [wordsOf, List.forall_mem_map, List.mem_filter, and_imp, exists_imp]
  constructor
  · intro inside answers a member word
    exact only a word ▸ inside answers a member word
  · intro inside answers a member word
    exact (only a word).symm ▸ inside answers a member word

theorem openWords_inside_iff (args : OpenArgs) :
    (∀ answers, ∀ w ∈ openWords L mem args answers, Inside L.memoryDataSize w 4) ↔
      ((∃ request, socketRequest args.domain args.type args.protocol = .ok request) →
        Inside L.memoryDataSize args.outAppSockFD 4) := by
  refine (words_inside_iff fun a _ => (by cases a; rfl)).trans (imp_congr_left ?_)
  simp only [sockOpen, if_neg (L.native_ne_zero _)]
  cases socketRequest args.domain args.type args.protocol with
  | error err =>
      refine ⟨?_, ?_⟩
      · rintro ⟨_, a, member, _⟩
        exact absurd member List.not_mem_nil
      · rintro ⟨_, ⟨⟩⟩
  | ok request =>
      refine ⟨fun _ => ⟨request, rfl⟩, fun _ => ?_⟩
      exact ⟨⟨fun _ => .ok 0, fun _ _ => .ok 0⟩, .outAppSockFD, List.mem_singleton_self _, trivial⟩

theorem acceptWords_inside_iff (args : AcceptArgs) :
    (∀ answers, ∀ w ∈ acceptWords L mem args answers, Inside L.memoryDataSize w 4) ↔
      (Inside L.memoryDataSize args.pAppSockAddr sockAddrSize →
        Inside L.memoryDataSize args.outNewAppSockFD 4) := by
  refine (words_inside_iff fun a word => (by cases of_decide_eq_true word; rfl)).trans
    (imp_congr_left ?_)
  have validated := L.validateNativeAddr_native args.pAppSockAddr (UInt32.ofNat sockAddrSize)
  simp only [sockAccept]
  split
  next refused =>
    rw [refused] at validated
    refine ⟨?_, fun inside => absurd (validated.mpr inside) Bool.false_ne_true⟩
    rintro ⟨_, a, member, _⟩
    exact absurd member List.not_mem_nil
  next passed =>
    refine ⟨fun _ => validated.mp (Bool.not_eq_false _ ▸ passed), fun _ => ?_⟩
    exact ⟨⟨fun _ => .ok (0, 0), fun _ => .ok (0, .other), fun _ _ => .ok 0⟩, .outNewAppSockFD,
      List.mem_cons_self, rfl⟩

theorem getOptWords_inside_iff (args : GetOptArgs) :
    (∀ answers, ∀ w ∈ getOptWords L mem args answers, Inside L.memoryDataSize w 4) ↔
      Inside L.memoryDataSize args.appOptBufLen 4 := by
  refine (words_inside_iff fun a word => (by cases of_decide_eq_true word; rfl)).trans
    (imp_iff_right ?_)
  exact ⟨⟨fun _ => .error 0, fun _ _ => .error 0, 0⟩, .optBufLen, List.mem_cons_self, rfl⟩

theorem sysctlWords_inside_iff (args : SysctlArgs) :
    (∀ answers, ∀ w ∈ sysctlWords L mem args answers, Inside L.memoryDataSize w 4) ↔
      Inside L.memoryDataSize args.bufLen 4 := by
  refine (words_inside_iff fun a word => (by cases of_decide_eq_true word; rfl)).trans
    (imp_iff_right ?_)
  exact ⟨⟨0, 0, 0, 0, 0, none, 0⟩, .bufLen, List.mem_cons_self, rfl⟩

/-- Both words are written when a child is reaped. -/
theorem waitWords_inside_iff (args : WaitWordArgs) :
    (∀ turns, ∀ w ∈ waitWords mem args turns, Inside L.memoryDataSize w 4) ↔
      Inside L.memoryDataSize args.exitStatus 4 ∧ Inside L.memoryDataSize args.retPID 4 := by
  constructor
  · intro inside
    have words := inside [.ready [.reaped 1 0]]
    exact ⟨words _ (List.mem_cons_of_mem _ List.mem_cons_self), words _ List.mem_cons_self⟩
  · rintro ⟨exitStatus, retPID⟩ turns w member
    obtain ⟨a, _, rfl⟩ := List.mem_map.mp member
    cases a with
    | exitStatus => exact exitStatus
    | retPID => exact retPID

end Words

/-! ## The slots of the loop -/

section Slots

variable {L : LinearMemory} {argv : ℕ}

/-- What a slot accepts can be read off a memory that agrees with it from the slot on, unless the
slot holds a string. -/
theorem accepts_congr {c : ArgChar} {mem other : Memory} {i : ℕ}
    (agree : ∀ a, slot argv i ≤ a → mem a = other a) (same : c = .str → mem = other) :
    Accepts L c mem (appPointer mem argv i) ↔ Accepts L c other (appPointer other argv i) := by
  have offset : appPointer mem argv i = appPointer other argv i :=
    congrArg UInt32.ofNat (load_congr fun k _ => agree _ (Nat.le_add_right _ _))
  rw [offset, Accepts, Accepts]
  refine and_congr_right fun _ => imp_congr_right fun isStr => ?_
  rw [same isStr]

/-- A suffix of a signature starts with the character of its slot. -/
theorem suffix_head {sig rest : List ArgChar} {c : ArgChar} {i : ℕ}
    (suffix : sig.drop i = c :: rest) : sig[i]? = some c ∧ sig.drop (i + 1) = rest := by
  constructor
  · rw [← List.head?_drop, suffix, List.head?_cons]
  · rw [← List.tail_drop, suffix, List.tail_cons]

/-- The loop looks at slots of its signature only. -/
theorem loopSlots_bounds {sig : List ArgChar} {i : ℕ} {mem : Memory} {j : ℕ}
    (looked : j ∈ loopSlots L argv sig i mem) : i ≤ j ∧ j < i + sig.length := by
  induction sig generalizing i mem with
  | nil => cases looked
  | cons c rest ih =>
      rw [loopSlots] at looked
      rw [List.length_cons]
      split at looked
      next =>
        rcases List.mem_cons.mp looked with rfl | later
        · omega
        · split at later
          next =>
            have := ih later
            omega
          next => cases later
      next =>
        have := ih looked
        omega

/-- The loop stores in slots that it has looked at. -/
theorem stored_looked (sig : List ArgChar) (i : ℕ) (mem : Memory) :
    ∀ p ∈ (translate L argv sig i mem).stored, p.1 ∈ loopSlots L argv sig i mem := by
  induction sig generalizing i mem with
  | nil => exact fun p stored => absurd stored List.not_mem_nil
  | cons c rest ih =>
      cases translated : c.translated with
      | false =>
          rw [translate_number translated, loopSlots, if_neg (by simp [translated])]
          exact ih (i + 1) mem
      | true =>
          rw [translate_pointer translated, loopSlots, if_pos translated]
          split
          next =>
            refine List.forall_mem_cons.mpr ⟨List.mem_cons_self, fun p stored => ?_⟩
            exact List.mem_cons_of_mem _ (ih (i + 1) _ p stored)
          next => exact fun p stored => absurd stored List.not_mem_nil

theorem forall_from_succ {P : ℕ → Prop} {i : ℕ} (here : P i) (later : ∀ k, i + 1 ≤ k → P k) :
    ∀ k, i ≤ k → P k := by
  intro k le
  rcases Nat.eq_or_lt_of_le le with rfl | lt
  · exact here
  · exact later k lt

/-- **The loop stops at the first slot it refuses.** It looks at this slot, and at none after
it. -/
theorem loop_stops {sig : List ArgChar} (strFirst : ∀ c ∈ sig.tail, c ≠ .str)
    {suffix : List ArgChar} {i : ℕ} {mem other : Memory} (rest : sig.drop i = suffix)
    (agree : ∀ a, slot argv i ≤ a → mem a = other a) (start : i = 0 → mem = other) :
    ((translate L argv suffix i mem).complete = true ∧
        ∀ k, i ≤ k → SlotPasses L other argv sig k) ∨
      ∃ r, (translate L argv suffix i mem).complete = false ∧
        ¬ SlotPasses L other argv sig r ∧ r ∈ loopSlots L argv suffix i mem ∧
        (∀ j ∈ loopSlots L argv suffix i mem, j ≤ r) ∧
        ∀ k, i ≤ k → k < r → SlotPasses L other argv sig k := by
  induction suffix generalizing i mem with
  | nil =>
      refine .inl ⟨rfl, fun k le c member => ?_⟩
      have short : sig.length ≤ i := List.drop_eq_nil_iff.mp rest
      rw [List.getElem?_eq_none (short.trans le)] at member
      cases member
  | cons c suffix ih =>
      obtain ⟨here, later⟩ := suffix_head rest
      have passes : SlotPasses L other argv sig i ↔
          (c.translated = true → Accepts L c other (appPointer other argv i)) := by
        simp only [SlotPasses, here, Option.mem_def, Option.some.injEq, forall_eq']
      cases translated : c.translated with
      | false =>
          have passed : SlotPasses L other argv sig i := passes.mpr fun isPointer => by
            rw [translated] at isPointer
            cases isPointer
          rw [translate_number translated, loopSlots, if_neg (by simp [translated])]
          rcases ih later (agree_next agree) (fun zero => absurd zero (Nat.succ_ne_zero i)) with
            ⟨complete, all⟩ | ⟨r, stopped, refused, looked, last, all⟩
          · exact .inl ⟨complete, forall_from_succ passed all⟩
          · exact .inr ⟨r, stopped, refused, looked, last, forall_from_succ (fun _ => passed) all⟩
      | true =>
          have same : c = .str → mem = other := by
            intro isStr
            cases i with
            | zero => exact start rfl
            | succ k =>
                have inTail : c ∈ sig.tail :=
                  List.mem_of_getElem? (List.getElem?_tail.trans here)
                exact absurd isStr (strFirst c inTail)
          have accepts := accepts_congr (L := L) agree same
          rw [translate_pointer translated, loopSlots, if_pos translated]
          by_cases accepted : Accepts L c mem (appPointer mem argv i)
          · have passed : SlotPasses L other argv sig i :=
              passes.mpr fun _ => accepts.mp accepted
            rw [if_pos accepted, if_pos accepted]
            have above : ∀ a, slot argv (i + 1) ≤ a →
                store mem (slot argv i) 8 (L.native (appPointer mem argv i).toNat) a = other a :=
              fun a le => (store_slot_above le).trans (agree_next agree a le)
            rcases ih later above (fun zero => absurd zero (Nat.succ_ne_zero i)) with
              ⟨complete, all⟩ | ⟨r, stopped, refused, looked, last, all⟩
            · exact .inl ⟨complete, forall_from_succ passed all⟩
            · refine .inr ⟨r, stopped, refused, List.mem_cons_of_mem _ looked, ?_,
                forall_from_succ (fun _ => passed) all⟩
              have le : i ≤ r := (Nat.le_succ i).trans (loopSlots_bounds looked).1
              exact List.forall_mem_cons.mpr ⟨le, last⟩
          · rw [if_neg accepted, if_neg accepted]
            refine .inr ⟨i, rfl, fun passed => ?_, List.mem_singleton_self i, ?_, ?_⟩
            · exact accepted (accepts.mpr (passes.mp passed translated))
            · exact fun j looked => (List.mem_singleton.mp looked).le
            · exact fun k le lt => absurd le (Nat.not_le.mpr lt)

/-- The loop over the whole signature of a class. -/
theorem invoke_stops (L : LinearMemory) (argv : ℕ) (cls : ExtSyscall) (mem : Memory) :
    ((translate L argv cls.argSig 0 mem).complete = true ∧
        ∀ k, SlotPasses L mem argv cls.argSig k) ∨
      ∃ r, (translate L argv cls.argSig 0 mem).complete = false ∧
        ¬ SlotPasses L mem argv cls.argSig r ∧ r ∈ loopSlots L argv cls.argSig 0 mem ∧
        (∀ j ∈ loopSlots L argv cls.argSig 0 mem, j ≤ r) ∧
        ∀ k < r, SlotPasses L mem argv cls.argSig k := by
  have agree : ∀ a, slot argv 0 ≤ a → mem a = mem a := fun _ _ => rfl
  have stops := loop_stops (L := L) (argSig_tail_noStr cls) List.drop_zero agree fun _ => rfl
  simpa only [Nat.zero_le, true_imp_iff] using stops

/-- The arguments of a handler come from all slots of the signature. -/
theorem slotReads_index (cls : ExtSyscall) :
    cls.slotReads.map SlotRead.index = List.range cls.argSig.length := by
  cases cls <;> rfl

theorem argSig_pos (cls : ExtSyscall) : 0 < cls.argSig.length := by
  cases cls <;> decide

theorem slot_inside (i : ℕ) : Inside L.memoryDataSize (slot argv i) argSize ↔
    Inside L.memoryDataSize argv (argSize * (i + 1)) := by
  rw [Inside, Inside, slot, Nat.mul_succ, Nat.add_assoc]

theorem inside_mono {i n : ℕ} (le : i ≤ n) (inside : Inside L.memoryDataSize argv (argSize * n)) :
    Inside L.memoryDataSize argv (argSize * i) :=
  (Nat.add_le_add_left (Nat.mul_le_mul_left _ le) argv).trans inside

/-- **The slots of a call lie inside the linear memory exactly when the array fits.** -/
theorem slots_inside_iff (L : LinearMemory) (argv : ℕ) (cls : ExtSyscall) (mem : Memory) :
    (∀ j ∈ loopSlots L argv cls.argSig 0 mem ++
        if (translate L argv cls.argSig 0 mem).complete then cls.slotReads.map SlotRead.index
        else [],
      Inside L.memoryDataSize (slot argv j) argSize) ↔ SlotsFit L mem argv cls.argSig := by
  simp only [slot_inside]
  have below : ∀ j ∈ loopSlots L argv cls.argSig 0 mem, j + 1 ≤ cls.argSig.length := by
    intro j looked
    have := (loopSlots_bounds looked).2
    omega
  rcases invoke_stops L argv cls mem with
    ⟨complete, passed⟩ | ⟨r, stopped, refused, looked, last, passed⟩
  · rw [if_pos complete, slotReads_index]
    constructor
    · intro inside
      have lastSlot : cls.argSig.length - 1 ∈ List.range cls.argSig.length :=
        List.mem_range.mpr (Nat.sub_one_lt_of_lt (argSig_pos cls))
      have whole := inside _ (List.mem_append_right _ lastSlot)
      rw [Nat.sub_add_cancel (argSig_pos cls)] at whole
      exact .inl whole
    · rintro (whole | ⟨i, _, refused⟩) j member
      · rcases List.mem_append.mp member with looked | read
        · exact inside_mono (below j looked) whole
        · exact inside_mono (List.mem_range.mp read) whole
      · exact absurd (passed i) refused
  · rw [if_neg (by simp [stopped]), List.append_nil]
    constructor
    · exact fun inside => .inr ⟨r, inside r looked, refused⟩
    · rintro (whole | ⟨i, inside, refusedToo⟩) j member
      · exact inside_mono (below j member) whole
      · have first : r ≤ i := by
          by_contra before
          exact refusedToo (passed i (Nat.not_le.mp before))
        have := last j member
        exact inside_mono (by omega) inside

end Slots

/-! ## The arguments of a handler -/

section Arguments

variable {L : LinearMemory} {argv : ℕ} {mem : Memory}

/-- The argument from a slot: the number in it, or the native pointer of the offset in it. -/
def SlotRead.checked (L : LinearMemory) (mem : Memory) (argv : ℕ) : SlotRead → Arg
  | .u32 i => .u32 (load mem (slot argv i) 4)
  | .u64 i => .u64 (load mem (slot argv i) 8)
  | .native i => .pointer (L.native (appPointer mem argv i).toNat)

/-- A filled slot has the offset that was there before the loop. -/
theorem Translates.stored_offset {sig : List ArgChar} {i : ℕ} {m : Memory} {t : Translation}
    (h : Translates L argv sig i m t) (agree : ∀ a, slot argv i ≤ a → m a = mem a)
    {p : ℕ × UInt32} (stored : p ∈ t.stored) : p.2 = appPointer mem argv p.1 := by
  induction h with
  | done => cases stored
  | refused => cases stored
  | number _ _ ih => exact ih (agree_next agree) stored
  | pointer _ _ _ ih =>
      rcases List.mem_cons.mp stored with rfl | later
      · exact congrArg UInt32.ofNat (load_congr fun k _ => agree _ (Nat.le_add_right _ _))
      · exact ih (fun a le => (store_slot_above le).trans (agree_next agree a le)) later

/-- A handler takes native pointers from the pointer slots, and numbers from the others. -/
theorem slotReads_native (cls : ExtSyscall) : ∀ r ∈ cls.slotReads,
    match r with
    | .native i => i ∈ pointerSlots cls.argSig 0
    | .u32 i | .u64 i => i ∉ pointerSlots cls.argSig 0 := by
  cases cls <;> simp [ExtSyscall.slotReads, ExtSyscall.argSig, pointerSlots, ArgChar.translated]

/-- **Without a window, a handler gets the numbers of the array and the native pointers of its
offsets.** -/
theorem doSyscall_checked {cls : ExtSyscall}
    (complete : (translate L argv cls.argSig 0 mem).complete = true) :
    cls.doSyscall (translate L argv cls.argSig 0 mem).mem argv =
      cls.slotReads.map (SlotRead.checked L mem argv) := by
  have walk := translate_translates L argv cls.argSig 0 mem
  have slots := walk.complete_slots complete
  -- a slot that is not filled keeps its number
  have number : ∀ i len, i ∉ pointerSlots cls.argSig 0 → len ≤ 8 →
      load (translate L argv cls.argSig 0 mem).mem (slot argv i) len =
        load mem (slot argv i) len := by
    intro i len other short
    refine load_congr fun k bound => walk.mem_out fun p stored => ?_
    have apart : p.1 ≠ i := by
      rintro rfl
      exact other (slots ▸ List.mem_map_of_mem stored)
    simp only [slot, argSize]
    omega
  apply List.map_congr_left
  intro r member
  have kind := slotReads_native cls r member
  cases r with
  | u32 i => exact congrArg Arg.u32 (number i 4 kind (by decide))
  | u64 i => exact congrArg Arg.u64 (number i 8 kind (by decide))
  | native i =>
      obtain ⟨p, stored, rfl⟩ := List.mem_map.mp (slots ▸ kind : i ∈ _)
      refine congrArg Arg.pointer ((walk.nativePointer_eq stored).trans ?_)
      rw [walk.stored_offset (fun _ _ => rfl) stored]

theorem offsetOf_native (offset : ℕ) : offsetOf L (L.native offset) = offset :=
  Nat.add_sub_cancel_left _ _

/-- A host to which nothing is known. -/
def silentHost : HandlerHost where
  sockOpen := ⟨fun _ => .error 0, fun _ _ => .error 0⟩
  sockAccept := ⟨fun _ => .error 0, fun _ => .error 0, fun _ _ => .error 0⟩
  sockGetOpt := ⟨fun _ => .error 0, fun _ _ => .error 0, 0⟩
  waitTurns := []
  sysctl := ⟨0, 0, 0, 0, 0, none, 0⟩

instance : Inhabited HandlerHost := ⟨silentHost⟩

/-- What holds for every host holds for every answer to one handler. -/
theorem forall_host_iff {α : Type} (f : HandlerHost → α) (P : α → Prop)
    (any : ∀ answers, ∃ host, f host = answers) :
    (∀ host, P (f host)) ↔ ∀ answers, P answers := by
  constructor
  · intro all answers
    obtain ⟨host, rfl⟩ := any answers
    exact all host
  · exact fun all host => all (f host)

/-- **The words of a handler lie inside the linear memory, whatever the host answers, exactly when
they fit.** -/
theorem handlerWords_inside_iff (L : LinearMemory) (argv : ℕ) (mem m : Memory)
    {syscallID : UInt32} {cls : ExtSyscall}
    (known : extSyscallTable.lookup syscallID = some cls) :
    (∀ host, ∀ w ∈ handlerWords L m host syscallID (cls.slotReads.map (SlotRead.checked L mem argv)),
        Inside L.memoryDataSize w 4) ↔ WordsFit L mem argv syscallID := by
  rw [WordsFit]
  dsimp only
  split
  next id =>
    obtain rfl : syscallID = 1 := UInt32.toNat_inj.mp id
    cases known
    refine (forall_host_iff HandlerHost.sysctl
      (fun answers => ∀ w ∈ sysctlWords L m ⟨_, _, _⟩ answers, Inside L.memoryDataSize w 4)
      fun answers => ⟨{ silentHost with sysctl := answers }, rfl⟩).trans ?_
    simp only [sysctlWords_inside_iff, offsetOf_native]
    rfl
  next id =>
    obtain rfl : syscallID = 300 := UInt32.toNat_inj.mp id
    cases known
    refine (forall_host_iff HandlerHost.sockOpen
      (fun answers => ∀ w ∈ openWords L m ⟨_, _, _, _⟩ answers, Inside L.memoryDataSize w 4)
      fun answers => ⟨{ silentHost with sockOpen := answers }, rfl⟩).trans ?_
    simp only [openWords_inside_iff, offsetOf_native]
    rfl
  next id =>
    obtain rfl : syscallID = 304 := UInt32.toNat_inj.mp id
    cases known
    refine (forall_host_iff HandlerHost.sockAccept
      (fun answers => ∀ w ∈ acceptWords L m ⟨_, _, _⟩ answers, Inside L.memoryDataSize w 4)
      fun answers => ⟨{ silentHost with sockAccept := answers }, rfl⟩).trans ?_
    simp only [acceptWords_inside_iff, offsetOf_native]
    rfl
  next id =>
    obtain rfl : syscallID = 308 := UInt32.toNat_inj.mp id
    cases known
    refine (forall_host_iff HandlerHost.sockGetOpt
      (fun answers => ∀ w ∈ getOptWords L m ⟨_, _, _, _, _⟩ answers, Inside L.memoryDataSize w 4)
      fun answers => ⟨{ silentHost with sockGetOpt := answers }, rfl⟩).trans ?_
    simp only [getOptWords_inside_iff, offsetOf_native]
    rfl
  next id =>
    obtain rfl : syscallID = 401 := UInt32.toNat_inj.mp id
    cases known
    refine (forall_host_iff HandlerHost.waitTurns
      (fun turns => ∀ w ∈ waitWords m ⟨_, _, _⟩ turns, Inside L.memoryDataSize w 4)
      fun turns => ⟨{ silentHost with waitTurns := turns }, rfl⟩).trans ?_
    simp only [waitWords_inside_iff, offsetOf_native]
    rfl
  next sysctl sockOpen sockAccept sockGetOpt wait =>
    refine iff_of_true (fun host w member => ?_) trivial
    unfold handlerWords at member
    split at member
    next id _ => exact absurd id sysctl
    next id _ => exact absurd id sockOpen
    next id _ => exact absurd id sockAccept
    next id _ => exact absurd id sockGetOpt
    next id _ => exact absurd id wait
    next => cases member

/-- A call of a known syscall with enough arguments, from the translation loop on. -/
theorem invoke_inside_iff {syscallID argc : UInt32} {cls : ExtSyscall}
    (known : extSyscallTable.lookup syscallID = some cls)
    (enough : cls.argSig.length ≤ argc.toNat) :
    (∀ host, CallInside L argv (invokeRun L host syscallID argc cls argv mem)) ↔
      SlotsFit L mem argv cls.argSig ∧
        ((∀ i, SlotPasses L mem argv cls.argSig i) → WordsFit L mem argv syscallID) := by
  have slots := slots_inside_iff L argv cls mem
  simp only [invokeRun, if_neg (Nat.not_lt.mpr enough)]
  rcases invoke_stops L argv cls mem with
    ⟨complete, passed⟩ | ⟨r, stopped, refused, _⟩
  · have words := handlerWords_inside_iff L argv mem (translate L argv cls.argSig 0 mem).mem known
    rw [← doSyscall_checked complete] at words
    rw [if_pos complete] at slots
    simp only [if_pos complete, CallInside]
    rw [forall_and, words, imp_iff_right passed, ← slots]
    exact and_congr_left fun _ => forall_const HandlerHost
  · have incomplete : ¬ (translate L argv cls.argSig 0 mem).complete = true := by simp [stopped]
    rw [if_neg incomplete, List.append_nil] at slots
    simp only [if_neg incomplete, CallInside]
    rw [← slots]
    constructor
    · exact fun inside => ⟨(inside silentHost).1, fun passed => absurd (passed r) refused⟩
    · exact fun inside _ => ⟨inside.1, fun w member => absurd member List.not_mem_nil⟩

end Arguments

/-- **Slots and words.** Whatever the host answers, each slot that a call touches and each word
that its handler touches lies inside the linear memory exactly when the array and the words
fit. -/
theorem call_inside_iff (L : LinearMemory) (syscallID argc : UInt32) (argv : ℕ) (mem : Memory) :
    (∀ host, CallInside L argv (syscallRun L host syscallID argc argv mem)) ↔
      CallFits L mem argv syscallID argc := by
  have nothing : ∀ _ : HandlerHost, CallInside L argv ⟨[], []⟩ := fun _ =>
    ⟨fun i member => absurd member List.not_mem_nil, fun w member =>
      absurd member List.not_mem_nil⟩
  simp only [syscallRun, range_refused_iff]
  split
  next refused =>
    exact iff_of_true nothing fun cls reaches => absurd (reaches.1 refused.1) refused.2
  next valid =>
    have ranged : 0 < argc → Inside L.memoryDataSize argv
        (UInt32.ofNat (argSize * argc.toNat)).toNat := fun some => by
      by_contra outside
      exact valid ⟨some, outside⟩
    cases known : extSyscallTable.lookup syscallID with
    | none =>
        apply iff_of_true nothing
        intro cls reaches
        cases known.symm.trans reaches.2.1
    | some cls =>
        by_cases enough : cls.argSig.length ≤ argc.toNat
        · refine (invoke_inside_iff known enough).trans ⟨fun fits other reaches => ?_, fun fits => ?_⟩
          · cases known.symm.trans reaches.2.1
            exact fits
          · exact fits cls ⟨ranged, known, enough⟩
        · simp only [invokeRun, if_pos (Nat.not_le.mp enough)]
          apply iff_of_true nothing
          intro other reaches
          cases known.symm.trans reaches.2.1
          exact absurd reaches.2.2 enough

/-- The arguments of `SockGetOpt`, with the pointer to the length at the last byte of a page. -/
def lastByteMemory : Memory := store (fun _ => 0) (slot 0 4) 4 0xffff

/-- The length of `SockGetOpt` is read past the end of the memory from there. With 2^28 arguments
nothing of the array is validated, and `SockListen` reads a slot past the end. -/
theorem unvalidated_slots_escape :
    ¬ CallInside onePage 0 (syscallRun onePage silentHost 308 5 0 lastByteMemory) ∧
      ¬ CallInside onePage 0xfff8
        (syscallRun onePage silentHost 303 0x10000000 0xfff8 fun _ => 0) := by
  constructor
  · intro inside
    have word : 0xffff ∈ (syscallRun onePage silentHost 308 5 0 lastByteMemory).words := by decide
    exact absurd (inside.2 _ word) (by decide)
  · intro inside
    have first : 0 ∈ (syscallRun onePage silentHost 303 0x10000000 0xfff8 fun _ => 0).slots := by
      decide
    exact absurd (inside.1 _ first) (by decide)

end Syscall
end WamrExt
