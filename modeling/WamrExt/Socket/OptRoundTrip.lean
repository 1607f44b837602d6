import WamrExt.Socket.SharedReads

/-!
# Socket options, set and read back

`SockSetOpt` reads the value of an option from a buffer of the guest, which must be long enough,
and hands it to the host. `SockGetOpt` gets it from the host, and copies as much of it as the
buffer of the guest takes. Both go through a union with three members.

If the host returns what it was given, the guest finds the first bytes of what it had set, as many
as its buffer takes and the value has, and the length of them (`sockOpt_round_trip`). A call that
fails leaves the memory of the guest as it was.
-/

set_option autoImplicit false

namespace WamrExt
namespace Socket

open ByteMemory SharedProgram Wamr Base

/-! ## `SockSetOpt` -/

/-- The size of a value, which is the same for the guest and on the host. -/
def HostSockOptValType.size : HostSockOptValType → ℕ
  | .uint32 => 4
  | .timeval => 16
  | .linger => 8

/-- The arguments, with the offset of the buffer in the linear memory. -/
structure SetOptArgs where
  appSockFD : ℤ
  appLevel : ℤ
  appOptName : ℤ
  appOptBuf : ℕ
  appOptBufLen : UInt32

/-- What the handler reads: a field of the value. -/
inductive SetOptAccess where
  | optVal (off len : ℕ)
  deriving DecidableEq, Repr

/-- The offset and the length of a field. -/
def SetOptArgs.place (args : SetOptArgs) : SetOptAccess → ℕ × ℕ
  | .optVal off len => (args.appOptBuf + off, len)

/-- What `setsockopt` is given: the socket and the option, and as many bytes of the union as it is
told to take. -/
structure HostOptGiven where
  hostSockFD : ℤ
  opt : HostSockOpt
  optVal : HostSockOptVal
  optLen : ℕ
  deriving DecidableEq, Repr

/-- What the host answers: the socket behind an app descriptor with its WASI type, and to
`setsockopt`. -/
structure SetOptAnswers where
  getHostSocketFD : ℤ → Except UInt16 (ℤ × ℕ)
  setsockopt : HostOptGiven → Except UInt16 Unit

/-- The result of a call, with what it gave to `setsockopt`. -/
structure SetOptResult where
  err : UInt16
  given : Option HostOptGiven := none
  deriving DecidableEq, Repr

/-- The value for the host, from the fields of `wasi_timeval_t` or `wasi_linger_t` or from a number
of 32 bits. The times have 64 bits on both sides. -/
def readOptVal : HostSockOptValType → Prog SetOptAccess HostSockOptVal
  | .uint32 => .get (.optVal 0 4)
  | .timeval => do
      let tvSec ← .get (.optVal 0 8)
      let tvUsec ← .get (.optVal 8 8)
      pure (tvSec + 2 ^ 64 * tvUsec)
  | .linger => do
      let lLinger ← .get (.optVal 4 4)
      let lOnoff ← .get (.optVal 0 4)
      pure (lOnoff + 2 ^ 32 * lLinger)

section SetOpt

variable (L : LinearMemory) (args : SetOptArgs) (answers : SetOptAnswers)

/-- `SockSetOpt` from the look-up of the socket on. -/
def setHostOpt (opt : HostSockOpt) (val : HostSockOptVal) : SetOptResult :=
  match answers.getHostSocketFD args.appSockFD with
  | .error err => { err := err }
  | .ok (hostSockFD, _) =>
      let given : HostOptGiven := ⟨hostSockFD, opt, val, opt.valType.size⟩
      match answers.setsockopt given with
      | .error err => { err := err, given := some given }
      | .ok () => { err := 0, given := some given }

/-- `SockSetOpt` -/
def sockSetOpt : Prog SetOptAccess SetOptResult :=
  if L.validateNativeAddr (L.native args.appOptBuf) args.appOptBufLen = false then
    pure { err := uvwasiEFAULT }
  else
    match mapWasiSockOpt args.appLevel args.appOptName with
    | .error err => pure { err := err }
    | .ok opt =>
        if args.appOptBufLen.toNat < opt.valType.size then pure { err := uvwasiEINVAL }
        else do
          let val ← readOptVal opt.valType
          pure (setHostOpt args answers opt val)

end SetOpt

section Set

variable {L : LinearMemory} {args : SetOptArgs} {answers : SetOptAnswers} {mem : Memory}

/-- The value is the number of the bytes in the buffer, in the order of the guest. -/
theorem alone_readOptVal (type : HostSockOptValType) :
    (alone args.place (readOptVal type) mem).result = load mem args.appOptBuf type.size := by
  cases type with
  | uint32 => rfl
  | timeval =>
      show load mem (args.appOptBuf + 0) 8 + 2 ^ 64 * load mem (args.appOptBuf + 8) 8 = _
      rw [HostSockOptValType.size, load_add (n := 8) 8]
      rfl
  | linger =>
      show load mem (args.appOptBuf + 0) 4 + 2 ^ 32 * load mem (args.appOptBuf + 4) 4 = _
      rw [HostSockOptValType.size, load_add (n := 4) 4]
      rfl

theorem readOptVal_readsOnly (type : HostSockOptValType) : (readOptVal type).ReadsOnly := by
  cases type with
  | uint32 => exact fun _ => trivial
  | timeval => exact fun _ _ => trivial
  | linger => exact fun _ _ => trivial

/-- **A call of `SockSetOpt`** is refused before the host is called, or goes on with the option that
was asked for and the number in the buffer. It does not write. -/
theorem alone_sockSetOpt :
    (alone args.place (sockSetOpt L args answers) mem).mem = mem ∧
      ((alone args.place (sockSetOpt L args answers) mem).result.given = none ∨
        ∃ opt, mapWasiSockOpt args.appLevel args.appOptName = .ok opt ∧
          (alone args.place (sockSetOpt L args answers) mem).result =
            setHostOpt args answers opt (load mem args.appOptBuf opt.valType.size)) := by
  rw [sockSetOpt]
  split
  next => exact ⟨rfl, Or.inl rfl⟩
  next =>
    split
    next => exact ⟨rfl, Or.inl rfl⟩
    next opt mapped =>
      split
      next => exact ⟨rfl, Or.inl rfl⟩
      next =>
        rw [alone_bind, alone_readOptVal, Run.afterAll_mem, Run.afterAll_result]
        exact ⟨(readOptVal_readsOnly opt.valType).mem_eq mem, Or.inr ⟨opt, mapped, rfl⟩⟩

theorem setHostOpt_given {opt : HostSockOpt} {val : HostSockOptVal} {given : HostOptGiven}
    (gave : (setHostOpt args answers opt val).given = some given) :
    given.opt = opt ∧ given.optVal = val ∧ given.optLen = opt.valType.size := by
  rw [setHostOpt] at gave
  split at gave
  next => cases gave
  next =>
    dsimp only at gave
    split at gave <;>
      (cases gave
       exact ⟨rfl, rfl, rfl⟩)

/-- What is given to the host is the option that was asked for, and the bytes of the guest. -/
theorem sockSetOpt_given {given : HostOptGiven}
    (gave : (alone args.place (sockSetOpt L args answers) mem).result.given = some given) :
    mapWasiSockOpt args.appLevel args.appOptName = .ok given.opt ∧
      given.optLen = given.opt.valType.size ∧
      given.optVal = load mem args.appOptBuf given.opt.valType.size := by
  obtain ⟨_, refused | ⟨opt, mapped, result⟩⟩ := @alone_sockSetOpt L args answers mem
  · rw [refused] at gave
    cases gave
  · rw [result] at gave
    obtain ⟨rfl, val, len⟩ := setHostOpt_given gave
    exact ⟨mapped, len, val⟩

end Set

/-! ## `SockGetOpt` -/

section Get

variable {L : LinearMemory} {args : GetOptArgs} {answers : OptAnswers} {now : Memory}

/-- The length that the guest gives with its buffer. -/
def GetOptArgs.bufLen (args : GetOptArgs) (mem : Memory) : ℕ := load mem args.appOptBufLen 4

/-- A byte of the word with the length. -/
def GetOptArgs.LenByte (args : GetOptArgs) (a : ℕ) : Prop :=
  args.appOptBufLen ≤ a ∧ a < args.appOptBufLen + 4

instance (a : ℕ) : Decidable (args.LenByte a) := inferInstanceAs (Decidable (_ ∧ _))

/-- The value for the guest is that of the host, cut to its size. -/
theorem appOptVal_eq {opt : HostSockOpt} (not_error : opt ≠ .error) (val : HostSockOptVal) :
    appOptVal opt val = (opt.valType.size, val % 256 ^ opt.valType.size) := by
  rw [appOptVal]
  cases opt.valType with
  | uint32 =>
      dsimp only
      rw [if_neg not_error]
      rfl
  | timeval =>
      have split : val % (2 ^ 64 * 2 ^ 64) = val % 2 ^ 64 + 2 ^ 64 * (val / 2 ^ 64 % 2 ^ 64) :=
        Nat.mod_mul
      exact congrArg (Prod.mk 16) split.symm
  | linger =>
      have split : val % (2 ^ 32 * 2 ^ 32) = val % 2 ^ 32 + 2 ^ 32 * (val / 2 ^ 32 % 2 ^ 32) :=
        Nat.mod_mul
      exact congrArg (Prod.mk 8) split.symm

/-- What a call leaves that gives `count` bytes of a value: they are in the buffer, the word has
their number, and no other byte has changed. -/
structure Given (args : GetOptArgs) (now : Memory) (count : ℕ) (value : ℕ → UInt8)
    (run : Run OptAccess GetOptResult) : Prop where
  err : run.result.err = 0
  bufLen : args.bufLen run.mem = count
  bytes : ∀ k < count, run.mem (args.appOptBuf + k) = value k
  other : ∀ a, (∀ k < count, a ≠ args.appOptBuf + k) → ¬ args.LenByte a → run.mem a = now a

/-- The read before a call does not matter to what it leaves. -/
theorem Given.after {count : ℕ} {value : ℕ → UInt8} {run : Run OptAccess GetOptResult}
    (left : Given args now count value run) (a : OptAccess) :
    Given args now count value (run.after a) :=
  ⟨left.err, left.bufLen, left.bytes, left.other⟩

/-- The first read of a call, of the length that is validated. -/
theorem alone_getLen {α : Type} (k : ℕ → Prog OptAccess α) :
    alone args.place (Prog.get .optBufLen >>= k) now =
      (alone args.place (k (args.bufLen now)) now).after .optBufLen := alone_get _ k now

/-- The word after the length has been cut, and nothing else, has changed. -/
theorem clampOptBufLen_mem {size a : ℕ} (out : ¬ args.LenByte a) :
    (alone args.place (clampOptBufLen size) now).mem a = now a := by
  rw [clampOptBufLen, alone_getLen, Run.after_mem]
  split
  next =>
    apply store_out
    rw [GetOptArgs.LenByte] at out
    show a < args.appOptBufLen ∨ args.appOptBufLen + 4 ≤ a
    omega
  next => rfl

theorem copyOptVal_err (answers : OptAnswers) (validated size value : ℕ) :
    (alone args.place (copyOptVal answers validated size value) now).result.err = 0 := by
  rw [copyOptVal, alone_bind, Run.afterAll_result, alone_get, Run.after_result]
  rfl

/-- The end of a call that succeeds, on a buffer apart from the word. -/
theorem alone_copyOptVal (answers : OptAnswers) (validated : ℕ) {size : ℕ} (value : ℕ)
    (short : size < 256 ^ 4)
    (apart : ∀ k < args.bufLen now, ¬ args.LenByte (args.appOptBuf + k)) :
    Given args now (min (args.bufLen now) size) (byteAt value)
      (alone args.place (copyOptVal answers validated size value) now) := by
  let cut := (alone args.place (clampOptBufLen size) now).mem
  let count := min (args.bufLen now) size
  have word : load cut args.appOptBufLen 4 = count := clampOptBufLen_value short
  have stored : (alone args.place (copyOptVal answers validated size value) now).mem =
      store cut args.appOptBuf count (value + 256 ^ size * answers.hostStack) := by
    rw [← word, copyOptVal, alone_bind]
    rfl
  have fits : count ≤ args.bufLen now := Nat.min_le_left _ _
  refine ⟨copyOptVal_err answers validated size value, ?_, fun k bound => ?_,
    fun a buffer length => ?_⟩
  · rw [GetOptArgs.bufLen, stored]
    refine Eq.trans (load_congr fun k bound => store_out ?_) word
    by_contra inside
    -- a byte of the word would be one of the buffer
    apply apart (args.appOptBufLen + k - args.appOptBuf) (by omega)
    rw [GetOptArgs.LenByte]
    omega
  · have short : k < size := Nat.lt_of_lt_of_le bound (Nat.min_le_right _ _)
    rw [stored, store_in (Nat.le_add_right _ _) (Nat.add_lt_add_left bound _),
      Nat.add_sub_cancel_left, byteAt_add_mul short]
  · have same : cut a = now a := clampOptBufLen_mem length
    rw [stored, ← same]
    apply store_out
    by_contra inside
    exact buffer (a - args.appOptBuf) (by omega) (by omega)

/-- Where `SockGetOpt` fails it has not written. -/
theorem sockGetOpt_failed
    (failed : (alone args.place (sockGetOpt L args answers) now).result.err ≠ 0) :
    (alone args.place (sockGetOpt L args answers) now).mem = now := by
  rw [sockGetOpt, alone_getLen] at failed ⊢
  split at failed
  next refused =>
    rw [if_pos refused]
    rfl
  next valid =>
    rw [if_neg valid]
    split at failed
    next => rfl
    next opt _ =>
      split at failed
      next => rfl
      next =>
        split at failed
        next => rfl
        next val _ =>
          rw [Run.after_result] at failed
          exact absurd (copyOptVal_err answers _ _ _) failed

/-- A call that gets a value from the host ends with the copy of it. -/
theorem alone_sockGetOpt {opt : HostSockOpt} {hostSockFD : ℤ} {wasiSockType : ℕ}
    {val : HostSockOptVal}
    (valid : L.validateNativeAddr (L.native args.appOptBuf) (UInt32.ofNat (args.bufLen now)) = true)
    (mapped : mapWasiSockOpt args.appLevel args.appOptName = .ok opt) (not_type : opt ≠ .type)
    (known : answers.getHostSocketFD args.appSockFD = .ok (hostSockFD, wasiSockType))
    (got : answers.getsockopt hostSockFD opt = .ok val) :
    alone args.place (sockGetOpt L args answers) now =
      (alone args.place (copyOptVal answers (args.bufLen now) (appOptVal opt val).1
        (appOptVal opt val).2) now).after .optBufLen := by
  rw [sockGetOpt, alone_getLen, if_neg (ne_false_of_eq_true valid), mapped]
  simp only [known, if_neg not_type, got]

end Get

/-! ## The round trip -/

/-- A call of `SockGetOpt` for the option that was set, while the host still gives the value that
it was given, in as many bytes. The buffer of the guest is valid and does not overlap the word
with the length. -/
structure ReadsBack (L : LinearMemory) (setArgs : SetOptArgs) (given : HostOptGiven)
    (args : GetOptArgs) (answers : OptAnswers) (now : Memory) : Prop where
  appSockFD : args.appSockFD = setArgs.appSockFD
  appLevel : args.appLevel = setArgs.appLevel
  appOptName : args.appOptName = setArgs.appOptName
  hostSockFD : ∃ wasiSockType,
    answers.getHostSocketFD args.appSockFD = .ok (given.hostSockFD, wasiSockType)
  optVal : ∃ val, answers.getsockopt given.hostSockFD given.opt = .ok val ∧
    val % 256 ^ given.optLen = given.optVal
  valid : L.validateNativeAddr (L.native args.appOptBuf) (UInt32.ofNat (args.bufLen now)) = true
  apart : ∀ k < args.bufLen now, ¬ args.LenByte (args.appOptBuf + k)

/-- **Socket options round-trip.** After a call of `SockSetOpt` that succeeds, which changes no
memory, `SockGetOpt` gives the first bytes of the value that the guest had in its buffer: as many
as its own buffer takes and the value has. A call of `SockGetOpt` with an error changes nothing. -/
theorem sockOpt_round_trip (L : LinearMemory) :
    (∀ setArgs setAnswers mem given,
      (alone setArgs.place (sockSetOpt L setArgs setAnswers) mem).result =
        { err := 0, given := some given } →
      (alone setArgs.place (sockSetOpt L setArgs setAnswers) mem).mem = mem ∧
      (given.opt ≠ .type → given.opt ≠ .error → ∀ args answers now,
        ReadsBack L setArgs given args answers now →
        Given args now (min (args.bufLen now) given.opt.valType.size)
          (fun k => mem (setArgs.appOptBuf + k))
          (alone args.place (sockGetOpt L args answers) now))) ∧
    ∀ args answers now, (alone args.place (sockGetOpt L args answers) now).result.err ≠ 0 →
      (alone args.place (sockGetOpt L args answers) now).mem = now := by
  refine ⟨fun setArgs setAnswers mem given accepted => ⟨alone_sockSetOpt.1, ?_⟩,
    fun args answers now failed => sockGetOpt_failed failed⟩
  intro not_type not_error args answers now back
  have gave : (alone setArgs.place (sockSetOpt L setArgs setAnswers) mem).result.given =
      some given := by
    rw [accepted]
  obtain ⟨mapped, len, val⟩ := sockSetOpt_given gave
  obtain ⟨wasiSockType, known⟩ := back.hostSockFD
  obtain ⟨hostVal, got, same⟩ := back.optVal
  rw [← back.appLevel, ← back.appOptName] at mapped
  rw [len, val] at same
  rw [alone_sockGetOpt back.valid mapped not_type known got, appOptVal_eq not_error, same]
  dsimp only
  have short : given.opt.valType.size < 256 ^ 4 := by
    cases given.opt.valType <;> decide
  have copied := alone_copyOptVal answers (args.bufLen now)
    (load mem setArgs.appOptBuf given.opt.valType.size) short back.apart
  apply Given.after
  refine ⟨copied.err, copied.bufLen, fun k bound => ?_, copied.other⟩
  have inside : k < given.opt.valType.size := Nat.lt_of_lt_of_le bound (Nat.min_le_right _ _)
  exact (copied.bytes k bound).trans (byteAt_load inside)

/-- A guest sets `SO_LINGER` from its first offsets. -/
def setLinger : SetOptArgs := ⟨3, 0x7fffffff, 13, 0, 8⟩

/-- A guest gets `SO_LINGER` in a buffer, with the word for the length before it. -/
def getLinger : GetOptArgs := ⟨3, 0x7fffffff, 13, 0x10, 0xc⟩

/-- The host keeps the one value that is set. -/
def lingerGiven : HostOptGiven := ⟨5, .linger, 0x1e00000001, 8⟩

/-- A buffer of 6 bytes takes 6 of the 8 bytes of a linger value. -/
theorem sockOpt_round_trip_linger :
    let value : Memory := store (fun _ => 0) 0 8 0x1e00000001
    let host : OptAnswers := ⟨fun _ => .ok (5, 6), fun _ _ => .ok 0x1e00000001, 0⟩
    Given getLinger (store value 0xc 4 6) 6 (fun k => value (0 + k))
      (alone getLinger.place (sockGetOpt onePage getLinger host) (store value 0xc 4 6)) := by
  intro value host
  have set := (sockOpt_round_trip onePage).1 setLinger
    ⟨fun _ => .ok (5, 6), fun _ => .ok ()⟩ value lingerGiven (by decide)
  apply set.2 (by decide) (by decide) getLinger host
  exact {
    appSockFD := rfl
    appLevel := rfl
    appOptName := rfl
    hostSockFD := ⟨6, rfl⟩
    optVal := ⟨_, rfl, by decide⟩
    valid := by decide
    apart := by decide }

end Socket
end WamrExt
