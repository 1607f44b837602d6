import WamrExt.Socket.MsgEntries
import WamrExt.Process.SpawnArgv

/-!
# Arrays of guest length

`SockRecvMsg`, `SockSendMsg` and `ProcessSpawn` take an array with a 32-bit number of elements.
The size they validate is a product that is cut to 32 bits, and the loops go to the full number.
So an array whose size does not fit is read past the end of the linear memory, unless the
handler refuses an element that lies inside before it gets there
(`array_arguments_inside_iff`).
-/

set_option autoImplicit false

namespace WamrExt
namespace Syscall

open ByteMemory SharedProgram Wamr Socket Process

/-! ## Arguments of a process -/

section Argv

variable (L : LinearMemory) (mem : Memory) (whitelist : HostCmdWhitelist) (pReq : ℕ)

/-- Each pointer of the array that the function reads lies inside the linear memory. -/
def ArgvContained (run : SpawnRun HostArgv) : Prop :=
  ∀ i, .argv i ∈ run.log →
    L.Holds (argvAddr L (spawnReq pReq mem .appArgvPointer) i) argvPointerSize

/-- The function gets to the loop over the arguments. -/
def ReachesArgv : Prop :=
  L.validateNativeAddr (L.native pReq) (UInt32.ofNat spawnReqSize) = true ∧
    L.validateAppStrAddr mem (spawnReq pReq mem .appCmdNamePointer) = true ∧
    (whitelist (appStr L mem (spawnReq pReq mem .appCmdNamePointer))).isSome = true ∧
    L.validateAppAddr (spawnReq pReq mem .appArgvPointer)
      (validatedSize argvPointerSize (spawnReq pReq mem .argc)) = true

/-- If the function gets to the loop, then the array lies inside the linear memory, or a pointer
that lies inside is refused. -/
def ArgvFits : Prop :=
  ReachesArgv L mem whitelist pReq →
    let argvPointer := spawnReq pReq mem .appArgvPointer
    let argc := (spawnReq pReq mem .argc).toNat
    Inside L.memoryDataSize argvPointer.toNat (argvPointerSize * argc) ∨
      ∃ i < argc, Inside L.memoryDataSize argvPointer.toNat (argvPointerSize * (i + 1)) ∧
        ¬ L.validateAppStrAddr mem (appArgv mem argvPointer i) = true

variable {L mem whitelist pReq}

/-- The pointers that the loop reads are those up to the first that it refuses. -/
theorem argvLoop_entries {argvPointer : UInt32} (n i j : ℕ) :
    .argv j ∈ (argvLoop L mem argvPointer i n).log ↔
      i ≤ j ∧ j < i + n ∧
        ∀ k, i ≤ k → k < j → L.validateAppStrAddr mem (appArgv mem argvPointer k) = true := by
  induction n generalizing i with
  | zero =>
      refine ⟨fun member => ?_, fun bounds => by omega⟩
      simp [argvLoop] at member
  | succ n ih =>
      rw [argvLoop]
      split
      next accepted =>
        simp only [List.mem_append, List.mem_cons, List.not_mem_nil, or_false, ih, reduceCtorEq,
          SpawnAccess.argv.injEq, false_or, or_self]
        constructor
        · rintro (rfl | ⟨low, high, before⟩)
          · exact ⟨le_rfl, by omega, fun k low high => by omega⟩
          · refine ⟨by omega, by omega, fun k le lt => ?_⟩
            obtain rfl | later := Nat.eq_or_lt_of_le le
            · exact accepted
            · exact before k later lt
        · rintro ⟨low, high, before⟩
          obtain rfl | later := Nat.eq_or_lt_of_le low
          · exact .inl rfl
          · exact .inr ⟨later, by omega, fun k le lt => before k (by omega) lt⟩
      next refused =>
        simp only [List.mem_cons, List.not_mem_nil, or_false, reduceCtorEq,
          SpawnAccess.argv.injEq, false_or]
        constructor
        · rintro rfl
          exact ⟨le_rfl, by omega, fun k low high => by omega⟩
        · rintro ⟨low, _, before⟩
          by_contra other
          exact refused (before i le_rfl (by omega))

/-- The pointers that the function reads are those up to the first that it refuses, when it gets
to the loop. -/
theorem spawnArgv_entries (j : ℕ) :
    .argv j ∈ (spawnArgv L mem whitelist pReq).log ↔
      ReachesArgv L mem whitelist pReq ∧ j < (spawnReq pReq mem .argc).toNat ∧
        ∀ k < j,
          L.validateAppStrAddr mem (appArgv mem (spawnReq pReq mem .appArgvPointer) k) = true := by
  rw [ReachesArgv, spawnArgv]
  split
  next invalid => simp [invalid]
  next request =>
    rw [Bool.not_eq_false] at request
    dsimp only
    split
    next invalid => simp [invalid]
    next named =>
      rw [Bool.not_eq_false] at named
      cases found : whitelist (appStr L mem (spawnReq pReq mem .appCmdNamePointer)) with
      | none => simp
      | some hostCmd =>
          dsimp only
          split
          next ranged => simp [request, named, ranged, argvLoop_entries]
          next unranged => simp [unranged]

theorem argvAddr_holds {argvPointer : UInt32} (bound : argvPointer.toNat < L.memoryDataSize)
    (i : ℕ) : L.Holds (argvAddr L argvPointer i) argvPointerSize ↔
      Inside L.memoryDataSize (argvPointer.toNat + argvPointerSize * i) argvPointerSize := by
  rw [← L.holds_native, argvAddr, L.addrAppToNative_eq, if_pos bound, Option.getD_some,
    LinearMemory.native, Nat.add_assoc]

/-- An array at the end of the memory is null. -/
theorem argvAddr_not_holds {argvPointer : UInt32} (out : L.memoryDataSize ≤ argvPointer.toNat) :
    ¬ L.Holds (argvAddr L argvPointer 0) argvPointerSize := by
  have positive := L.memoryData_pos
  rw [argvAddr, L.addrAppToNative_eq_none.mpr out, LinearMemory.Holds]
  simp only [Option.getD_none, Nat.mul_zero]
  omega

/-- **The arguments of a process are read inside the linear memory exactly when they fit.** -/
theorem spawnArgv_contained_iff :
    ArgvContained L mem pReq (spawnArgv L mem whitelist pReq) ↔ ArgvFits L mem whitelist pReq := by
  have read : ∀ j, .argv j ∈ (spawnArgv L mem whitelist pReq).log ↔ _ := spawnArgv_entries
  by_cases reached : ReachesArgv L mem whitelist pReq
  · have ranged := reached.2.2.2
    rw [LinearMemory.validateAppAddr, decide_eq_true_iff, Inside] at ranged
    have start : (spawnReq pReq mem .appArgvPointer).toNat ≤ L.memoryDataSize := by omega
    rw [ArgvFits, imp_iff_right reached]
    refine Iff.trans ?_ (elements_inside_iff start)
    simp only [ArgvContained, read, reached, true_and, and_imp]
    by_cases bound : (spawnReq pReq mem .appArgvPointer).toNat < L.memoryDataSize
    · simp only [argvAddr_holds bound]
    · -- if a pointer is read, then the first is
      have none : ∀ i < (spawnReq pReq mem .argc).toNat, 0 < (spawnReq pReq mem .argc).toNat :=
        fun i lt => Nat.zero_lt_of_lt lt
      constructor
      · intro holds j lt
        exact absurd (holds 0 (none j lt) fun k before => absurd before (Nat.not_lt_zero k))
          (argvAddr_not_holds (Nat.not_lt.mp bound))
      · intro inside i lt
        have first := inside 0 (none i lt) fun k before => absurd before (Nat.not_lt_zero k)
        rw [Inside, Nat.mul_zero, argvPointerSize] at first
        omega
  · exact ⟨fun _ other => absurd other reached, fun _ i member =>
      absurd ((read i).mp member).1 reached⟩

end Argv

/-- **When arrays of guest length stay inside.** A call of `SockRecvMsg` or `SockSendMsg` reads
entries inside the linear memory, and passes on the translations of the entries, exactly when its
array fits. `ProcessSpawn` reads arguments inside the linear memory exactly when its array
fits. -/
theorem array_arguments_inside_iff (L : LinearMemory) (mem : Memory) :
    (∀ args answers,
        MsgContained L args mem (alone args.place (sockRecvMsg L args answers) mem) ↔
          IOVecFits L args mem) ∧
      (∀ args answers,
        MsgContained L args mem (alone args.place (sockSendMsg L args answers) mem) ↔
          IOVecFits L args mem) ∧
      ∀ whitelist pReq,
        ArgvContained L mem pReq (spawnArgv L mem whitelist pReq) ↔
          ArgvFits L mem whitelist pReq :=
  ⟨fun _ answers => validateMsg_contained_iff (recvMsg_only answers) (recvMsg_passes answers),
    fun _ answers => validateMsg_contained_iff (sendMsg_only answers) (sendMsg_passes answers),
    fun _ _ => spawnArgv_contained_iff⟩

/-- An array of 2^29 + 1 entries, one of which lies inside a memory of one page. -/
def wrappedIOVec : MsgArgs := ⟨3, 0, 0xfff8, 0x20000001⟩

/-- The entry that lies inside has four bytes at offset 0x100. -/
def wrappedIOVecMemory : Memory :=
  store (store (fun _ => 0) 0xfff8 4 0x100) 0xfffc 4 4

/-- A request with 2^30 + 1 arguments, the first of which lies inside a memory of one page and
points to the string at offset 0x20. -/
def wrappedArgvMemory : Memory :=
  store (store (store (store (fun _ => 0) 0 4 0x20) 4 4 0xfffc) 8 4 0x40000001) 0xfffc 4 0x20

/-- With 2^29 + 1 entries the socket handlers read past the end of the memory, and so does
`ProcessSpawn` with 2^30 + 1 arguments. -/
theorem wrapped_arrays_escape :
    (∀ answers, ¬ MsgContained onePage wrappedIOVec wrappedIOVecMemory
        (alone wrappedIOVec.place (sockRecvMsg onePage wrappedIOVec answers)
          wrappedIOVecMemory)) ∧
      (∀ answers, ¬ MsgContained onePage wrappedIOVec wrappedIOVecMemory
        (alone wrappedIOVec.place (sockSendMsg onePage wrappedIOVec answers)
          wrappedIOVecMemory)) ∧
      ¬ ArgvContained onePage wrappedArgvMemory 0
        (spawnArgv onePage wrappedArgvMemory some 0) := by
  have reads : ¬ IOVecFits onePage wrappedIOVec wrappedIOVecMemory := by
    intro fits
    obtain whole | ⟨i, _, inside, refused⟩ := fits (by decide) (by decide)
    · exact absurd whole (by decide)
    · change 0xfff8 + 8 * (i + 1) ≤ 0x10000 at inside
      obtain rfl : i = 0 := by omega
      exact refused (by decide)
  have argv : ¬ ArgvFits onePage wrappedArgvMemory some 0 := by
    intro fits
    have empty : onePage.validateAppStrAddr wrappedArgvMemory 0x20 = true :=
      (onePage.validateAppStrAddr_iff _ _).mpr ⟨0, by decide, by decide⟩
    have name : spawnReq 0 wrappedArgvMemory .appCmdNamePointer = 0x20 := by decide
    have array : spawnReq 0 wrappedArgvMemory .appArgvPointer = 0xfffc := by decide
    have first : appArgv wrappedArgvMemory 0xfffc 0 = 0x20 := by decide
    obtain whole | ⟨i, _, inside, refused⟩ :=
      fits ⟨by decide, name ▸ empty, rfl, by decide⟩
    · exact absurd whole (by decide)
    · change 0xfffc + 4 * (i + 1) ≤ 0x10000 at inside
      obtain rfl : i = 0 := by omega
      exact refused (array ▸ first ▸ empty)
  refine ⟨fun answers contained => reads ?_, fun answers contained => reads ?_, fun contained =>
    argv (spawnArgv_contained_iff.mp contained)⟩
  · exact (validateMsg_contained_iff (recvMsg_only answers) (recvMsg_passes answers)).mp contained
  · exact (validateMsg_contained_iff (sendMsg_only answers) (sendMsg_passes answers)).mp contained

end Syscall
end WamrExt
