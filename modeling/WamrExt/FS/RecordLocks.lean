import WamrExt.Base.Errno
import WamrExt.Lib.ProgramCells
import WamrExt.Wamr.LinearMemory

/-!
# Record locks and file system statistics

`FDFcntl` hands a lock of the guest to the `fcntl` of the host. The guest describes the command,
the lock and the result in a structure of its memory, and the handler reads its fields as it goes:
the command up to three times, the type and the position up to three times each. `FDStatVFS`
writes a structure and reads none.

Other threads of the guest may write the structure during the call. No access leaves the linear
memory then (`accesses_inside`), and as long as no write changes what the call reads again, it does
what it is for on the structure of the numbers that it finds first (`fdFcntl_refines`). The guest
finds the lock that the host reports in its own numbers (`getlk_reports`).
-/

set_option autoImplicit false

namespace WamrExt
namespace FS

open ByteMemory SharedProgram Wamr Base

/-- `UVWASI_EFAULT` and `UVWASI_EINVAL` -/
def uvwasiEFAULT : ℕ := 21
def uvwasiEINVAL : ℕ := 28

/-! ## Locks -/

/-- The commands. -/
inductive LockCmd where
  | getlk
  | setlk
  | setlkw
  deriving DecidableEq, Repr

/-- The types of a lock. -/
inductive LockType where
  | rdlck
  | wrlck
  | unlck
  deriving DecidableEq, Repr

/-- What the start of a lock is relative to. -/
inductive Whence where
  | seekSet
  | seekCur
  | seekEnd
  deriving DecidableEq, Repr

/-- `__WASI_F_GETLK`, `__WASI_F_SETLK` and `__WASI_F_SETLKW` -/
def LockCmd.wasi : LockCmd → ℕ
  | .getlk => 257
  | .setlk => 258
  | .setlkw => 259

/-- `__WASI_F_RDLCK`, `__WASI_F_WRLCK` and `__WASI_F_UNLCK` -/
def LockType.wasi : LockType → ℕ
  | .rdlck => 0
  | .wrlck => 1
  | .unlck => 2

/-- `UVWASI_WHENCE_SET`, `UVWASI_WHENCE_CUR` and `UVWASI_WHENCE_END` -/
def Whence.wasi : Whence → ℕ
  | .seekSet => 0
  | .seekCur => 1
  | .seekEnd => 2

/-- The numbers in the order in which the handler compares with them. -/
def wasiLockCmds : List (ℕ × LockCmd) := [(257, .getlk), (258, .setlk), (259, .setlkw)]
def wasiLockTypes : List (ℕ × LockType) := [(0, .rdlck), (1, .wrlck), (2, .unlck)]
def wasiWhences : List (ℕ × Whence) := [(0, .seekSet), (1, .seekCur), (2, .seekEnd)]

/-- The numbers of a host for the types and the positions. -/
structure HostNumbers where
  lockType : LockType → UInt16
  whence : Whence → UInt16
  lockType_injective : Function.Injective lockType
  whence_injective : Function.Injective whence

/-- `host_flock_t`, with the bytes of each field as a number. -/
structure HostFlock where
  lType : UInt16
  lWhence : UInt16
  lStart : UInt64
  lLen : UInt64
  deriving DecidableEq, Repr

namespace HostNumbers

variable (host : HostNumbers)

/-- The switch on the position of the lock that the host leaves. -/
def whenceOfHost (n : UInt16) : ℕ :=
  if n = host.whence .seekSet then Whence.wasi .seekSet
  else if n = host.whence .seekCur then Whence.wasi .seekCur
  else if n = host.whence .seekEnd then Whence.wasi .seekEnd
  else n.toNat

/-- The switch on its type. -/
def lockTypeOfHost (n : UInt16) : ℕ :=
  if n = host.lockType .rdlck then LockType.wasi .rdlck
  else if n = host.lockType .wrlck then LockType.wasi .wrlck
  else if n = host.lockType .unlck then LockType.wasi .unlck
  else n.toNat

/-- The guest gets back the number that it gave. -/
theorem whenceOfHost_whence (w : Whence) : host.whenceOfHost (host.whence w) = w.wasi := by
  cases w <;> simp [whenceOfHost, host.whence_injective.eq_iff]

theorem lockTypeOfHost_lockType (t : LockType) :
    host.lockTypeOfHost (host.lockType t) = t.wasi := by
  cases t <;> simp [lockTypeOfHost, host.lockType_injective.eq_iff]

end HostNumbers

/-! ## The structure of the guest -/

/-- The fields of `wamr_fcntl_flock`. The first two are those of `wamr_fcntl_generic`. -/
inductive FlockField where
  | cmd
  | retValue
  | lType
  | lWhence
  | lStart
  | lLen
  deriving DecidableEq, Repr

/-- The offset of a field in the structure, and its length. -/
def FlockField.range : FlockField → ℕ × ℕ
  | .cmd => (0, 4)
  | .retValue => (4, 4)
  | .lType => (8, 2)
  | .lWhence => (10, 2)
  | .lStart => (16, 8)
  | .lLen => (24, 8)

/-- The sizes of the two structures. -/
def fcntlGenericSize : UInt32 := 8
def fcntlFlockSize : UInt32 := 32

/-- The place of a field of the structure at an offset of the linear memory. -/
def flockPlace (info : ℕ) (f : FlockField) : ℕ × ℕ := (info + f.range.1, f.range.2)

/-! ## `FDFcntl` -/

/-- What `fcntl` gives: the returned value, what it leaves in the lock, and `errno`. -/
structure FcntlAnswer where
  ret : ℤ
  flock : HostFlock
  errno : ℕ

/-- What the host answers. The command is none when `hostCmd` has not been set. -/
structure FcntlAnswers where
  getHostFDByAppFD : ℤ → Except ℕ ℤ
  fcntl : ℤ → Option LockCmd → HostFlock → FcntlAnswer

/-- The result of a call, with what `fcntl` was asked. -/
structure FcntlResult where
  err : ℕ
  asked : Option (Option LockCmd × HostFlock) := none
  deriving DecidableEq, Repr

/-- A chain of comparisons, each of which reads the field. -/
def readChain {α : Type} (f : FlockField) : List (ℕ × α) → Prog FlockField (Option α)
  | [] => pure none
  | (n, x) :: rest => do
      let value ← .get f
      if value = n then pure (some x) else readChain f rest

section Call

variable (L : LinearMemory) (host : HostNumbers) (info : ℕ) (answers : FcntlAnswers) (osfd : ℤ)

/-- The host has got a lock: `FDFcntl` from the call of `fcntl` on. -/
def askHost (lock : HostFlock) : Prog FlockField FcntlResult := do
  let cmd ← .get .cmd
  let hostCmd := wasiLockCmds.lookup cmd
  let answer := answers.fcntl osfd hostCmd lock
  .put .retValue (answer.ret % 2 ^ 32).toNat
  if answer.ret = -1 then
    pure { err := convertErrnoToWasiErrno answer.errno, asked := some (hostCmd, lock) }
  else do
    let cmd ← .get .cmd
    if cmd = LockCmd.wasi .getlk then do
      .put .lStart answer.flock.lStart.toNat
      .put .lLen answer.flock.lLen.toNat
      .put .lWhence (host.whenceOfHost answer.flock.lWhence)
      .put .lType (host.lockTypeOfHost answer.flock.lType)
      pure { err := 0, asked := some (hostCmd, lock) }
    else pure { err := 0, asked := some (hostCmd, lock) }

/-- The three commands on locks. -/
def controlLock : Prog FlockField FcntlResult := do
  let lStart ← .get .lStart
  let lLen ← .get .lLen
  match ← readChain .lType wasiLockTypes with
  | none => pure { err := uvwasiEINVAL }
  | some lType =>
      match ← readChain .lWhence wasiWhences with
      | none => pure { err := uvwasiEINVAL }
      | some lWhence =>
          askHost host answers osfd
            ⟨host.lockType lType, host.whence lWhence, UInt64.ofNat lStart, UInt64.ofNat lLen⟩

/-- `FDFcntl` -/
def fdFcntl (fd : ℤ) : Prog FlockField FcntlResult :=
  if L.validateNativeAddr (L.native info) fcntlGenericSize = false then
    pure { err := uvwasiEFAULT }
  else
    match answers.getHostFDByAppFD fd with
    | .error err => pure { err := err }
    | .ok osfd => do
        .put .retValue 0
        let cmd ← .get .cmd
        if (wasiLockCmds.lookup cmd).isNone then pure { err := uvwasiEINVAL }
        else if L.validateNativeAddr (L.native info) fcntlFlockSize = false then
          pure { err := uvwasiEFAULT }
        else controlLock host answers osfd

end Call

/-! ## `FDStatVFS` -/

/-- The fields of `wamr_statvfs`. -/
inductive StatField where
  | bsize
  | blocks
  | bfree
  | bavail
  deriving DecidableEq, Repr

/-- The offset of a field in the structure, and its length. -/
def StatField.range : StatField → ℕ × ℕ
  | .bsize => (0, 4)
  | .blocks => (8, 8)
  | .bfree => (16, 8)
  | .bavail => (24, 8)

/-- The size of the structure. -/
def statvfsSize : UInt32 := 32

def statPlace (info : ℕ) (f : StatField) : ℕ × ℕ := (info + f.range.1, f.range.2)

/-- `uv_statfs_t`, as far as it is used. -/
structure UVStatfs where
  fBsize : UInt64
  fBlocks : UInt64
  fBfree : UInt64
  fBavail : UInt64
  deriving DecidableEq, Repr

/-- What the host answers: the path of an app descriptor, and the statistics of its file system
or an error that is translated already. -/
structure StatAnswers where
  realPath : ℤ → Except ℕ String
  statfs : String → Except ℕ UVStatfs

/-- `FDStatVFS` -/
def fdStatVFS (L : LinearMemory) (info : ℕ) (answers : StatAnswers) (fd : ℤ) :
    Prog StatField ℕ :=
  if L.validateNativeAddr (L.native info) statvfsSize = false then pure uvwasiEFAULT
  else
    match (answers.realPath fd).bind answers.statfs with
    | .error err => pure err
    | .ok stat => do
        .put .bsize (stat.fBsize.toNat % 2 ^ 32)
        .put .blocks stat.fBlocks.toNat
        .put .bfree stat.fBfree.toNat
        .put .bavail stat.fBavail.toNat
        pure 0

/-! ## Accesses -/

section Accesses

variable {L : LinearMemory} {host : HostNumbers} {info : ℕ} {osfd : ℤ}

/-- A field of the structure lies inside the linear memory. -/
def FlockInside (L : LinearMemory) (info : ℕ) (f : FlockField) : Prop :=
  Inside L.memoryDataSize (flockPlace info f).1 (flockPlace info f).2

theorem readChain_only {α : Type} {kind : FlockField → Prop} {f : FlockField} (own : kind f)
    (values : List (ℕ × α)) : (readChain f values).Only kind := by
  induction values with
  | nil => trivial
  | cons first rest ih =>
      refine Prog.only_get.mpr ⟨own, fun value => ?_⟩
      split
      · trivial
      · exact ih

/-- A structure that has been validated as a whole has all fields. -/
theorem flockInside_of_validated
    (valid : L.validateNativeAddr (L.native info) fcntlFlockSize = true) (f : FlockField) :
    FlockInside L info f := by
  have inside : info + 32 ≤ L.memoryDataSize := (L.validateNativeAddr_native _ _).mp valid
  rw [FlockInside, Inside, flockPlace]
  cases f <;> simp only [FlockField.range] <;> omega

theorem controlLock_only (answers : FcntlAnswers) {kind : FlockField → Prop} (all : ∀ f, kind f) :
    (controlLock host answers osfd).Only kind := by
  refine Prog.only_get.mpr ⟨all _, fun lStart => Prog.only_get.mpr ⟨all _, fun lLen => ?_⟩⟩
  refine (readChain_only (all .lType) _).bind fun lType => ?_
  cases lType with
  | none => trivial
  | some lType =>
      refine (readChain_only (all .lWhence) _).bind fun lWhence => ?_
      cases lWhence with
      | none => trivial
      | some lWhence =>
          refine Prog.only_get.mpr ⟨all _, fun cmd => Prog.only_put.mpr ⟨all _, ?_⟩⟩
          split
          · trivial
          · refine Prog.only_get.mpr ⟨all _, fun cmd => ?_⟩
            split
            · exact ⟨all _, all _, all _, all _, trivial⟩
            · trivial

theorem fdFcntl_only (answers : FcntlAnswers) (fd : ℤ) :
    (fdFcntl L host info answers fd).Only (FlockInside L info) := by
  rw [fdFcntl]
  split
  next => trivial
  next generic =>
    have inside : info + 8 ≤ L.memoryDataSize :=
      (L.validateNativeAddr_native _ _).mp (Bool.eq_true_of_not_eq_false generic)
    have retValue : FlockInside L info .retValue := by
      rw [FlockInside, Inside, flockPlace, FlockField.range]
      omega
    have cmd : FlockInside L info .cmd := by
      rw [FlockInside, Inside, flockPlace, FlockField.range]
      omega
    split
    next => trivial
    next osfd _ =>
      refine Prog.only_put.mpr ⟨retValue, Prog.only_get.mpr ⟨cmd, fun value => ?_⟩⟩
      split
      · trivial
      · split
        · trivial
        next valid =>
          exact controlLock_only answers
            (flockInside_of_validated (Bool.eq_true_of_not_eq_false valid))

/-- The statistics do not leave the structure that was validated. -/
def StatInside (L : LinearMemory) (info : ℕ) (f : StatField) : Prop :=
  Inside L.memoryDataSize (statPlace info f).1 (statPlace info f).2

theorem fdStatVFS_only (answers : StatAnswers) (fd : ℤ) :
    (fdStatVFS L info answers fd).Only (StatInside L info) := by
  rw [fdStatVFS]
  split
  next => trivial
  next valid =>
    have inside : info + 32 ≤ L.memoryDataSize :=
      (L.validateNativeAddr_native _ _).mp (Bool.eq_true_of_not_eq_false valid)
    have all : ∀ f, StatInside L info f := by
      intro f
      rw [StatInside, Inside, statPlace]
      cases f <;> simp only [StatField.range] <;> omega
    split
    next => trivial
    next stat _ => exact ⟨all _, all _, all _, all _, trivial⟩

/-- **No call leaves the linear memory**, whatever other threads write during it: neither the
controlling of locks, whose structure is longer for some commands than for others, nor the
statistics. -/
theorem accesses_inside (windows : Windows) (mem : Memory) (fd : ℤ) :
    (∀ answers, ∀ f ∈ (interleaved (flockPlace info) (fdFcntl L host info answers fd) windows
        mem).log, Inside L.memoryDataSize (flockPlace info f).1 (flockPlace info f).2) ∧
      ∀ answers, ∀ f ∈ (interleaved (statPlace info) (fdStatVFS L info answers fd) windows
        mem).log, Inside L.memoryDataSize (statPlace info f).1 (statPlace info f).2 :=
  ⟨fun answers => (fdFcntl_only answers fd).interleaved_log windows mem,
    fun answers => (fdStatVFS_only answers fd).interleaved_log windows mem⟩

end Accesses

/-! ## What a call is for -/

section Record

variable (L : LinearMemory) (host : HostNumbers) (info : ℕ) (answers : FcntlAnswers) (fd : ℤ)

/-- The lock that a structure describes. -/
def requestedLock (record : FlockField → ℕ) : Option HostFlock := do
  let lType ← wasiLockTypes.lookup (record .lType)
  let lWhence ← wasiWhences.lookup (record .lWhence)
  pure ⟨host.lockType lType, host.whence lWhence, UInt64.ofNat (record .lStart),
    UInt64.ofNat (record .lLen)⟩

/-- The structure after a lock of the host is put into it. -/
def reportLock (lock : HostFlock) (record : FlockField → ℕ) : FlockField → ℕ
  | .lType => host.lockTypeOfHost lock.lType
  | .lWhence => host.whenceOfHost lock.lWhence
  | .lStart => lock.lStart.toNat
  | .lLen => lock.lLen.toNat
  | f => record f

/-- A call on a structure that is read at once, and what it leaves in it. -/
def fcntlOn (record : FlockField → ℕ) : FcntlResult × (FlockField → ℕ) :=
  if ¬ Inside L.memoryDataSize info 8 then ({ err := uvwasiEFAULT }, record)
  else
    match answers.getHostFDByAppFD fd with
    | .error err => ({ err := err }, record)
    | .ok osfd =>
        let record := Function.update record .retValue 0
        match wasiLockCmds.lookup (record .cmd) with
        | none => ({ err := uvwasiEINVAL }, record)
        | some cmd =>
            if ¬ Inside L.memoryDataSize info 32 then ({ err := uvwasiEFAULT }, record)
            else
              match requestedLock host record with
              | none => ({ err := uvwasiEINVAL }, record)
              | some lock =>
                  let answer := answers.fcntl osfd (some cmd) lock
                  let record := Function.update record .retValue (answer.ret % 2 ^ 32).toNat
                  let asked := some (some cmd, lock)
                  if answer.ret = -1 then
                    ({ err := convertErrnoToWasiErrno answer.errno, asked := asked }, record)
                  else if cmd = .getlk then
                    ({ err := 0, asked := asked }, reportLock host answer.flock record)
                  else ({ err := 0, asked := asked }, record)

end Record

section Refinement

variable {L : LinearMemory} {host : HostNumbers} {info : ℕ} {answers : FcntlAnswers} {osfd fd : ℤ}
  {record : FlockField → ℕ}

/-- On a structure that stays as it is, a chain of comparisons looks the number up. -/
theorem onCells_readChain {α : Type} (f : FlockField) (values : List (ℕ × α)) :
    onCells (readChain f values) record = (values.lookup (record f), record) := by
  induction values with
  | nil => rfl
  | cons first rest ih =>
      obtain ⟨n, x⟩ := first
      rw [readChain, onCells_get, List.lookup_cons]
      split
      next same => rw [beq_iff_eq.mpr same]; rfl
      next other => rw [beq_false_of_ne other]; exact ih

theorem lookup_wasiLockCmds {n : ℕ} {cmd : LockCmd} :
    wasiLockCmds.lookup n = some cmd ↔ n = cmd.wasi := by
  simp only [wasiLockCmds, List.lookup_cons, List.lookup_nil]
  cases cmd <;> rw [LockCmd.wasi] <;> grind

/-- The fields of a lock, written one after another. -/
theorem update_lock (lock : HostFlock) :
    Function.update (Function.update (Function.update (Function.update record
      .lStart lock.lStart.toNat) .lLen lock.lLen.toNat) .lWhence (host.whenceOfHost lock.lWhence))
        .lType (host.lockTypeOfHost lock.lType) = reportLock host lock record := by
  funext f
  cases f <;> simp [reportLock]

/-- The host is asked with the command of the structure, and answers into it. -/
theorem onCells_askHost {cmd : LockCmd} (known : wasiLockCmds.lookup (record .cmd) = some cmd)
    (lock : HostFlock) :
    onCells (askHost host answers osfd lock) record =
      let answer := answers.fcntl osfd (some cmd) lock
      let record := Function.update record .retValue (answer.ret % 2 ^ 32).toNat
      let asked := some (some cmd, lock)
      if answer.ret = -1 then
        ({ err := convertErrnoToWasiErrno answer.errno, asked := asked }, record)
      else if cmd = .getlk then
        ({ err := 0, asked := asked }, reportLock host answer.flock record)
      else ({ err := 0, asked := asked }, record) := by
  have sameCmd : ∀ v, Function.update record .retValue v .cmd = cmd.wasi := fun v => by
    rw [Function.update_of_ne (by decide)]
    exact lookup_wasiLockCmds.mp known
  rw [askHost, onCells_get, known, onCells_put]
  dsimp only
  split
  next => rfl
  next =>
    rw [onCells_get, sameCmd]
    cases cmd with
    | getlk =>
        rw [if_pos rfl, if_pos rfl, onCells_put, onCells_put, onCells_put, onCells_put,
          update_lock]
        rfl
    | setlk | setlkw => rfl

/-- The fields of the lock are read, and the host is asked if they describe one. -/
theorem onCells_controlLock :
    onCells (controlLock host answers osfd) record =
      match requestedLock host record with
      | none => ({ err := uvwasiEINVAL }, record)
      | some lock => onCells (askHost host answers osfd lock) record := by
  rw [controlLock, onCells_get, onCells_get, onCells_bind, onCells_readChain, requestedLock]
  cases wasiLockTypes.lookup (record .lType) with
  | none => rfl
  | some lType =>
      dsimp only
      rw [onCells_bind, onCells_readChain]
      cases wasiWhences.lookup (record .lWhence) <;> rfl

/-- **A call alone does what it is for.** -/
theorem onCells_fdFcntl :
    onCells (fdFcntl L host info answers fd) record = fcntlOn L host info answers fd record := by
  have generic : L.validateNativeAddr (L.native info) fcntlGenericSize = false ↔
      ¬ Inside L.memoryDataSize info 8 := by
    rw [← Bool.not_eq_true, L.validateNativeAddr_native]
    rfl
  have flock : L.validateNativeAddr (L.native info) fcntlFlockSize = false ↔
      ¬ Inside L.memoryDataSize info 32 := by
    rw [← Bool.not_eq_true, L.validateNativeAddr_native]
    rfl
  rw [fdFcntl, fcntlOn]
  simp only [generic, flock]
  split
  next => rfl
  next =>
    cases answers.getHostFDByAppFD fd with
    | error err => rfl
    | ok osfd =>
        dsimp only
        rw [onCells_put, onCells_get]
        generalize Function.update record .retValue 0 = record
        cases known : wasiLockCmds.lookup (record .cmd) with
        | none => rfl
        | some cmd =>
            rw [Option.isNone_some, if_neg Bool.false_ne_true]
            dsimp only
            split
            next => rfl
            next =>
              rw [onCells_controlLock]
              cases requestedLock host record with
              | none => rfl
              | some lock => exact onCells_askHost known lock

theorem flockPlace_apart (info : ℕ) : FieldsApart (flockPlace info) := by
  intro a b ne
  simp only [flockPlace]
  cases a <;> cases b <;> simp only [FlockField.range] <;> first | omega | exact absurd rfl ne

theorem readChain_fits {α : Type} {place : FlockField → ℕ × ℕ} (f : FlockField)
    (values : List (ℕ × α)) : (readChain f values).WritesFit place := by
  induction values with
  | nil => trivial
  | cons first rest ih =>
      refine Prog.writesFit_get.mpr fun value => ?_
      split
      · trivial
      · exact ih

theorem whenceOfHost_lt (n : UInt16) : host.whenceOfHost n < 256 ^ 2 := by
  have bound := n.toNat_lt
  rw [HostNumbers.whenceOfHost]
  split_ifs <;> first | exact bound | decide

theorem lockTypeOfHost_lt (n : UInt16) : host.lockTypeOfHost n < 256 ^ 2 := by
  have bound := n.toNat_lt
  rw [HostNumbers.lockTypeOfHost]
  split_ifs <;> first | exact bound | decide

theorem askHost_fits (lock : HostFlock) :
    (askHost host answers osfd lock).WritesFit (flockPlace info) := by
  refine Prog.writesFit_get.mpr fun cmd => Prog.writesFit_put.mpr ⟨?_, ?_⟩
  · simp only [flockPlace, FlockField.range]
    omega
  · split
    · trivial
    · refine Prog.writesFit_get.mpr fun cmd => ?_
      split
      · exact ⟨UInt64.toNat_lt _, UInt64.toNat_lt _, whenceOfHost_lt _, lockTypeOfHost_lt _,
          trivial⟩
      · trivial

theorem fdFcntl_fits : (fdFcntl L host info answers fd).WritesFit (flockPlace info) := by
  rw [fdFcntl]
  split
  · trivial
  · split
    · trivial
    · refine Prog.writesFit_put.mpr ⟨Nat.pow_pos (by decide), Prog.writesFit_get.mpr fun cmd => ?_⟩
      split
      · trivial
      · split
        · trivial
        · refine Prog.writesFit_get.mpr fun lStart => Prog.writesFit_get.mpr fun lLen => ?_
          refine (readChain_fits .lType _).bind fun lType => ?_
          cases lType with
          | none => trivial
          | some lType =>
              refine (readChain_fits .lWhence _).bind fun lWhence => ?_
              cases lWhence with
              | none => trivial
              | some lWhence => exact askHost_fits _

/-! The numbers that a call writes are not read back by it. -/

theorem readChain_reads {α : Type} {kind : FlockField → Prop} {f : FlockField} (own : kind f)
    (values : List (ℕ × α)) : (readChain f values).Reads kind := by
  induction values with
  | nil => trivial
  | cons first rest ih =>
      refine Prog.reads_get.mpr ⟨own, fun value => ?_⟩
      split
      · trivial
      · exact ih

theorem readChain_readsOnly {α : Type} (f : FlockField) (values : List (ℕ × α)) :
    (readChain f values).ReadsOnly := by
  induction values with
  | nil => trivial
  | cons first rest ih =>
      refine Prog.readsOnly_get.mpr fun value => ?_
      split
      · trivial
      · exact ih

theorem askHost_reads (lock : HostFlock) :
    (askHost host answers osfd lock).Reads (· ≠ .retValue) := by
  refine Prog.reads_get.mpr ⟨by decide, fun cmd => Prog.reads_put.mpr ?_⟩
  split
  · trivial
  · refine Prog.reads_get.mpr ⟨by decide, fun cmd => ?_⟩
    split <;> trivial

theorem askHost_noReadBack (lock : HostFlock) :
    (askHost host answers osfd lock).NoReadBack := by
  refine Prog.noReadBack_get.mpr fun cmd => Prog.noReadBack_put.mpr ⟨?_, ?_⟩
  · split
    · trivial
    · refine Prog.reads_get.mpr ⟨by decide, fun cmd => ?_⟩
      split <;> trivial
  · split
    · trivial
    · refine Prog.noReadBack_get.mpr fun cmd => ?_
      split
      · exact ⟨trivial, trivial, trivial, trivial, trivial⟩
      · trivial

theorem controlLock_reads : (controlLock host answers osfd).Reads (· ≠ .retValue) := by
  refine Prog.reads_get.mpr ⟨by decide, fun lStart => ?_⟩
  refine Prog.reads_get.mpr ⟨by decide, fun lLen => ?_⟩
  refine (readChain_reads (by decide) _).bind fun lType => ?_
  cases lType with
  | none => trivial
  | some lType =>
      refine (readChain_reads (by decide) _).bind fun lWhence => ?_
      cases lWhence with
      | none => trivial
      | some lWhence => exact askHost_reads _

theorem controlLock_noReadBack : (controlLock host answers osfd).NoReadBack := by
  refine Prog.noReadBack_get.mpr fun lStart => Prog.noReadBack_get.mpr fun lLen => ?_
  refine (readChain_readsOnly .lType _).noReadBack_bind fun lType => ?_
  cases lType with
  | none => trivial
  | some lType =>
      refine (readChain_readsOnly .lWhence _).noReadBack_bind fun lWhence => ?_
      cases lWhence with
      | none => trivial
      | some lWhence => exact askHost_noReadBack _

theorem fdFcntl_noReadBack : (fdFcntl L host info answers fd).NoReadBack := by
  rw [fdFcntl]
  split
  · trivial
  · split
    · trivial
    · refine Prog.noReadBack_put.mpr ⟨Prog.reads_get.mpr ⟨by decide, fun cmd => ?_⟩,
        Prog.noReadBack_get.mpr fun cmd => ?_⟩
      · split
        · trivial
        · split
          · trivial
          · exact controlLock_reads
      · split
        · trivial
        · split
          · trivial
          · exact controlLock_noReadBack

variable (L host info answers fd)

/-- A call alone gives what it is for, and leaves that in the structure. -/
theorem alone_fdFcntl (mem : Memory) :
    let run := alone (flockPlace info) (fdFcntl L host info answers fd) mem
    let on := fcntlOn L host info answers fd (valueAt (flockPlace info) mem)
    run.result = on.1 ∧ ∀ f, valueAt (flockPlace info) run.mem f = on.2 f := by
  dsimp only
  rw [← onCells_fdFcntl]
  exact alone_eq_onCells (flockPlace_apart info) fdFcntl_fits fun _ => rfl

/-- **The handler takes one view of the structure.** Although it reads the command, the type and
the position several times, a call that is not split by the writes of other threads finds the same
number in a field each time. It asks the host for what the structure of these numbers describes, and
answers what belongs to it, so the host is never asked with a command that was not set. A call
alone also leaves the structure as it should. -/
theorem fdFcntl_refines (mem : Memory) :
    (let run := alone (flockPlace info) (fdFcntl L host info answers fd) mem
      let on := fcntlOn L host info answers fd (valueAt (flockPlace info) mem)
      run.result = on.1 ∧ ∀ f, valueAt (flockPlace info) run.mem f = on.2 f) ∧
    ∀ windows, Unsplit (flockPlace info) (fdFcntl L host info answers fd) windows mem →
      let finds := found (flockPlace info) (fdFcntl L host info answers fd) windows mem
      (∀ r ∈ finds, r.2 = firstFound finds r.1) ∧
        (interleaved (flockPlace info) (fdFcntl L host info answers fd) windows mem).result =
          (fcntlOn L host info answers fd (firstFound finds)).1 := by
  refine ⟨alone_fdFcntl L host info answers fd mem, fun windows unsplit => ?_⟩
  have once := unsplit.firstFound_of_mem (flockPlace_apart info) fdFcntl_noReadBack
  refine ⟨once, ?_⟩
  rw [← onCells_fdFcntl]
  exact interleaved_eq_onCells fdFcntl_noReadBack once

/-- A host whose numbers for the types are not those of the guest. -/
def otherNumbers : HostNumbers where
  lockType
    | .rdlck => 1
    | .wrlck => 3
    | .unlck => 2
  whence
    | .seekSet => 0
    | .seekCur => 1
    | .seekEnd => 2
  lockType_injective := by
    rintro ⟨⟩ ⟨⟩ same <;> first | rfl | exact absurd same (by decide)
  whence_injective := by
    rintro ⟨⟩ ⟨⟩ same <;> first | rfl | exact absurd same (by decide)

/-- A host that knows the file, and finds a lock with the process 7 when it is asked for one. -/
def lockHost : FcntlAnswers where
  getHostFDByAppFD _ := .ok 5
  fcntl _ _ lock := ⟨0, { lock with lType := 3 }, 0⟩

/-- One page, with a structure that asks for a lock for reading at offset 0x100. -/
def lockPage : LinearMemory := .mapped 0x50000 0x800 (by decide) (by decide) (by decide)
def lockMemory : Memory := store (store (fun _ => 0) 0x100 4 257) 0x118 8 10

/-- Another thread writes behind the structure all the time. -/
def writesBehind : Windows := fun k mem => store mem 0x200 4 k

theorem fdFcntl_refines_behind :
    let finds := found (flockPlace 0x100) (fdFcntl lockPage otherNumbers 0x100 lockHost 3)
      writesBehind lockMemory
    (∀ r ∈ finds, r.2 = firstFound finds r.1) ∧
      (interleaved (flockPlace 0x100) (fdFcntl lockPage otherNumbers 0x100 lockHost 3)
        writesBehind lockMemory).result =
          (fcntlOn lockPage otherNumbers 0x100 lockHost 3 (firstFound finds)).1 := by
  have apart : ∀ (k : ℕ) (mem : Memory), ∀ x < 0x200, store mem 0x200 4 k x = mem x :=
    fun k mem x below => store_out (.inl below)
  exact (fdFcntl_refines lockPage otherNumbers 0x100 lockHost 3 lockMemory).2 _
    (.of_below _ _ apart (by decide))

/-- A lock that is reported is described by the structure then. -/
theorem requestedLock_reportLock {lock : HostFlock} {t : LockType} {w : Whence}
    (lType : lock.lType = host.lockType t) (lWhence : lock.lWhence = host.whence w)
    (record : FlockField → ℕ) : requestedLock host (reportLock host lock record) = some lock := by
  obtain ⟨_, _, lStart, lLen⟩ := lock
  cases lType
  cases lWhence
  have type : wasiLockTypes.lookup t.wasi = some t := by cases t <;> rfl
  have whence : wasiWhences.lookup w.wasi = some w := by cases w <;> rfl
  simp [requestedLock, reportLock, host.lockTypeOfHost_lockType, host.whenceOfHost_whence, type,
    whence]

/-- What a call does to the structure: nothing beside the result, or it reports the lock that the
host leaves. -/
theorem fcntlOn_cases (record : FlockField → ℕ) :
    let on := fcntlOn L host info answers fd record
    ((∀ f, f ≠ .retValue → on.2 f = record f) ∧
        ∀ osfd lock, answers.getHostFDByAppFD fd = .ok osfd →
          on.1.asked = some (some .getlk, lock) →
            (answers.fcntl osfd (some .getlk) lock).ret = -1) ∨
      ∃ osfd lock record', answers.getHostFDByAppFD fd = .ok osfd ∧
        on.1.asked = some (some .getlk, lock) ∧
        (answers.fcntl osfd (some .getlk) lock).ret ≠ -1 ∧
        on.2 = reportLock host (answers.fcntl osfd (some .getlk) lock).flock record' := by
  have others : ∀ (record : FlockField → ℕ) v f, f ≠ .retValue →
      Function.update record .retValue v f = record f := fun record v f ne =>
    Function.update_of_ne ne _ _
  dsimp only
  rw [fcntlOn]
  split
  next => exact .inl ⟨fun _ _ => rfl, nofun⟩
  next =>
    cases answers.getHostFDByAppFD fd with
    | error err => exact .inl ⟨fun _ _ => rfl, nofun⟩
    | ok osfd =>
        dsimp only
        split
        next => exact .inl ⟨others _ _, nofun⟩
        next cmd _ =>
          split
          next => exact .inl ⟨others _ _, nofun⟩
          next =>
            split
            next => exact .inl ⟨others _ _, nofun⟩
            next lock _ =>
              split
              next failed =>
                refine .inl ⟨fun f ne => (others _ _ f ne).trans (others _ _ f ne), ?_⟩
                rintro _ _ ⟨⟩ ⟨⟩
                exact failed
              next granted =>
                split
                next get =>
                  subst get
                  exact .inr ⟨osfd, lock, _, rfl, rfl, granted, rfl⟩
                next other =>
                  refine .inl ⟨fun f ne => (others _ _ f ne).trans (others _ _ f ne), ?_⟩
                  rintro _ _ ⟨⟩ ⟨⟩
                  exact absurd rfl other

/-- **What the guest finds.** After a successful `F_GETLK` alone the structure describes the lock
that the host reports, whatever the numbers of the host are: it asks for that lock if it is used
again. After any other call, a failed `F_GETLK` among them, nothing but the result has changed. -/
theorem getlk_reports (mem : Memory) :
    let run := alone (flockPlace info) (fdFcntl L host info answers fd) mem
    let after := valueAt (flockPlace info) run.mem
    (∀ osfd lock, answers.getHostFDByAppFD fd = .ok osfd →
        run.result.asked = some (some .getlk, lock) →
          let answer := answers.fcntl osfd (some .getlk) lock
          answer.ret ≠ -1 → ∀ t w, answer.flock.lType = host.lockType t →
            answer.flock.lWhence = host.whence w → requestedLock host after = some answer.flock) ∧
      ((∀ osfd lock, answers.getHostFDByAppFD fd = .ok osfd →
          run.result.asked = some (some .getlk, lock) →
            (answers.fcntl osfd (some .getlk) lock).ret = -1) →
        ∀ f, f ≠ .retValue → after f = valueAt (flockPlace info) mem f) := by
  obtain ⟨result, left⟩ := alone_fdFcntl L host info answers fd mem
  dsimp only
  rw [result, funext left]
  obtain ⟨kept, failed⟩ | ⟨osfd, lock, record, here, asked, granted, reported⟩ :=
    fcntlOn_cases L host info answers fd (valueAt (flockPlace info) mem)
  · exact ⟨fun osfd lock here asked ok => absurd (failed osfd lock here asked) ok,
      fun _ => kept⟩
  · refine ⟨?_, fun failed => absurd (failed osfd lock here asked) granted⟩
    rw [here, asked, reported]
    rintro _ _ ⟨⟩ ⟨⟩ _ t w lType lWhence
    exact requestedLock_reportLock host lType lWhence record

/-- The host finds a lock for writing with the range that was asked about. -/
theorem getlk_reports_writer :
    requestedLock otherNumbers (valueAt (flockPlace 0x100)
      (alone (flockPlace 0x100) (fdFcntl lockPage otherNumbers 0x100 lockHost 3) lockMemory).mem) =
        some ⟨3, 0, 0, 10⟩ :=
  (getlk_reports lockPage otherNumbers 0x100 lockHost 3 lockMemory).1 5 ⟨1, 0, 0, 10⟩ rfl
    (by decide)
    (by decide) .wrlck .seekSet rfl rfl

end Refinement

end FS
end WamrExt
