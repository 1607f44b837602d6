import WamrExt.Socket.MsgEntries
import WamrExt.Socket.SockOpt

/-!
# What is validated and what is used

Other threads of the guest may write the linear memory during a call. `SockRecvMsg` and
`SockSendMsg` read each entry of the iovec array to validate it, and again to pass it on.
`SockGetOpt` reads the length word to validate the buffer, to cut the length, and to copy.

Alone, all three use what they validated. Under any writes of other threads they do so as long as
no write changes a byte between two reads of it (`validated_is_used`): such a call gives what a
call alone gives on some memory. One write in between is enough for host entries and a copy that
were never validated (`rewritten_words_escape`).
-/

set_option autoImplicit false

namespace WamrExt
namespace Socket

open ByteMemory SharedProgram Wamr

/-- Each host entry that a call passes on lies inside the linear memory. -/
def EntriesInside (L : LinearMemory) (result : MsgResult) : Prop :=
  ∀ msg, result.passed = some msg → ∀ entry ∈ msg.msgIov, EntryInside L entry

/-- A call copies at most the value of the option, into the range that it validated inside the
linear memory. -/
def CopyInside (L : LinearMemory) (args : GetOptArgs) (result : GetOptResult) : Prop :=
  ∀ copy, result.copied = some copy →
    copy.count ≤ copy.source ∧ copy.count ≤ copy.validated ∧
      Inside L.memoryDataSize args.appOptBuf copy.validated

section Alone

variable {L : LinearMemory} {mem : Memory}

theorem PassesInside.entries {args : MsgArgs} {result : MsgResult}
    (inside : PassesInside L args mem result) : EntriesInside L result := by
  intro msg passed
  exact (inside msg passed).2.2

/-- Alone, the word holds at most the size of the value after the cut. -/
theorem clampOptBufLen_value {args : GetOptArgs} {size : ℕ} (short : size < 256 ^ 4) :
    valueAt args.place (alone args.place (clampOptBufLen size) mem).mem .optBufLen =
      min (valueAt args.place mem .optBufLen) size := by
  rw [clampOptBufLen, alone_get, Run.after_mem]
  split
  next long =>
    rw [Nat.min_eq_right long.le]
    exact load_store.trans (Nat.mod_eq_of_lt short)
  next fits => exact (Nat.min_eq_left (Nat.not_lt.mp fits)).symm

theorem copyOptVal_copied {args : GetOptArgs} (answers : OptAnswers) (validated : ℕ) {size : ℕ}
    (short : size < 256 ^ 4) (value : ℕ) :
    (alone args.place (copyOptVal answers validated size value) mem).result.copied =
      some ⟨validated, size, min (valueAt args.place mem .optBufLen) size⟩ := by
  rw [copyOptVal, alone_bind, ← clampOptBufLen_value short]
  rfl

theorem appOptVal_size (opt : HostSockOpt) (val : HostSockOptVal) :
    (appOptVal opt val).1 < 256 ^ 4 := by
  rw [appOptVal]
  cases opt.valType <;> simp

/-- Alone, `SockGetOpt` copies what it validated. -/
theorem sockGetOpt_copies (args : GetOptArgs) (answers : OptAnswers) :
    CopyInside L args (alone args.place (sockGetOpt L args answers) mem).result := by
  have early : ∀ err, CopyInside L args { err := err } := fun err copy copied => by cases copied
  rw [sockGetOpt, alone_get, Run.after_result]
  split
  next => exact early _
  next valid =>
    have inside := (L.validateNativeAddr_native _ _).mp (Bool.not_eq_false _ ▸ valid)
    have small : valueAt args.place mem .optBufLen < 2 ^ 32 := load_lt mem _ 4
    rw [UInt32.toNat_ofNat_of_lt' small] at inside
    split
    next => exact early _
    next opt _ =>
      split
      next => exact early _
      next hostSockFD wasiSockType _ =>
        split
        next => exact early _
        next val _ =>
          intro copy copied
          rw [copyOptVal_copied answers _ (appOptVal_size opt val)] at copied
          cases copied
          exact ⟨Nat.min_le_right _ _, Nat.min_le_left _ _, inside⟩

end Alone

/-- **What is validated is what is used, unless a write comes in between.** If no write of another
thread changes a byte that the call has accessed and reads again, then each host entry that
`SockRecvMsg` or `SockSendMsg` passes on lies inside the linear memory, and `SockGetOpt` copies
at most the value of the option into the range it validated. -/
theorem validated_is_used (L : LinearMemory) (windows : Windows) (mem : Memory) :
    (∀ (args : MsgArgs) (answers : MsgAnswers),
        Unsplit args.place (sockRecvMsg L args answers) windows mem →
          EntriesInside L
            (interleaved args.place (sockRecvMsg L args answers) windows mem).result) ∧
      (∀ (args : MsgArgs) (answers : MsgAnswers),
        Unsplit args.place (sockSendMsg L args answers) windows mem →
          EntriesInside L
            (interleaved args.place (sockSendMsg L args answers) windows mem).result) ∧
      ∀ (args : GetOptArgs) (answers : OptAnswers),
        Unsplit args.place (sockGetOpt L args answers) windows mem →
          CopyInside L args
            (interleaved args.place (sockGetOpt L args answers) windows mem).result := by
  refine ⟨fun args answers unsplit => ?_, fun args answers unsplit => ?_,
    fun args answers unsplit => ?_⟩
  · obtain ⟨snapshot, same, _⟩ := interleaved_eq_alone unsplit
    rw [same]
    exact (validateMsg_passed_inside (recvMsg_passes answers)).entries
  · obtain ⟨snapshot, same, _⟩ := interleaved_eq_alone unsplit
    rw [same]
    exact (validateMsg_passed_inside (sendMsg_passes answers)).entries
  · obtain ⟨snapshot, same, _⟩ := interleaved_eq_alone unsplit
    rw [same]
    exact sockGetOpt_copies args answers

/-- A message with one buffer, and an option with a word of four bytes. -/
def oneEntry : MsgArgs := ⟨3, 0, 0x100, 1⟩
def oneOption : GetOptArgs := ⟨3, 0x7fffffff, 7, 0x200, 0x300⟩

/-- The entry of the message has four bytes at offset 0x200, and the word holds 4. -/
def oneEntryMemory : Memory :=
  store (store (store (fun _ => 0) 0x100 4 0x200) 0x104 4 4) 0x300 4 4

/-- A host that knows the socket and fails to send or receive. -/
def msgHost : MsgAnswers where
  getHostSocketFD _ := .ok 5
  recvmsg _ _ _ := .error uvwasiEBADF
  sendmsg _ _ _ := .error uvwasiEBADF

/-- A host that knows the socket and gives 0x1000 for every option. -/
def optHost : OptAnswers where
  getHostSocketFD _ := .ok (5, 6)
  getsockopt _ _ := .ok 0x1000
  hostStack := 0

/-- Another thread stores a number before one access. -/
def storeBefore (access offset v : ℕ) : Windows := fun k mem =>
  if k = access then store mem offset 4 v else mem

/-- Another thread writes above the array and the word all the time. -/
def storeAbove : Windows := fun k mem => store mem 0x8000 4 k

/-- The three calls with another thread that stays above what they read. -/
theorem apart_calls_sound :
    EntriesInside onePage (interleaved oneEntry.place (sockRecvMsg onePage oneEntry msgHost)
        storeAbove oneEntryMemory).result ∧
      EntriesInside onePage (interleaved oneEntry.place (sockSendMsg onePage oneEntry msgHost)
        storeAbove oneEntryMemory).result ∧
      CopyInside onePage oneOption (interleaved oneOption.place
        (sockGetOpt onePage oneOption optHost) storeAbove oneEntryMemory).result := by
  have apart : ∀ k mem, ∀ x < 0x8000, storeAbove k mem x = mem x := fun k mem x below =>
    store_out (.inl below)
  obtain ⟨recv, send, getOpt⟩ := validated_is_used onePage storeAbove oneEntryMemory
  exact ⟨recv oneEntry msgHost (.of_below _ _ apart (by decide)),
    send oneEntry msgHost (.of_below _ _ apart (by decide)),
    getOpt oneOption optHost (.of_below _ _ apart (by decide))⟩

theorem not_entriesInside {L : LinearMemory} {result : MsgResult} {entry : HostIOVec}
    (given : result.passed.map HostMsgHdr.msgIov = some [entry]) (out : ¬ EntryInside L entry) :
    ¬ EntriesInside L result := by
  intro inside
  obtain ⟨msg, passed, iov⟩ := Option.map_eq_some_iff.mp given
  exact out (inside msg passed entry (iov ▸ List.mem_singleton_self entry))

/-- The length of the entry is raised before it is passed on, and the word is raised before the
copy. -/
theorem rewritten_words_escape :
    ¬ EntriesInside onePage (interleaved oneEntry.place (sockRecvMsg onePage oneEntry msgHost)
        (storeBefore 5 0x104 0xffffffff) oneEntryMemory).result ∧
      ¬ EntriesInside onePage (interleaved oneEntry.place (sockSendMsg onePage oneEntry msgHost)
        (storeBefore 6 0x104 0xffffffff) oneEntryMemory).result ∧
      ¬ CopyInside onePage oneOption (interleaved oneOption.place
        (sockGetOpt onePage oneOption optHost) (storeBefore 2 0x300 0x1000)
          oneEntryMemory).result := by
  have out : ¬ EntryInside onePage ⟨0x10200, 0xffffffff⟩ := fun inside =>
    absurd (inside 0xfffffffe (by decide)).2 (by decide)
  refine ⟨not_entriesInside (by decide) out, not_entriesInside (by decide) out, fun inside => ?_⟩
  have given : (interleaved oneOption.place (sockGetOpt onePage oneOption optHost)
      (storeBefore 2 0x300 0x1000) oneEntryMemory).result.copied = some ⟨4, 4, 0x1000⟩ := by
    decide
  exact absurd (inside _ given).1 (by decide)

end Socket
end WamrExt
