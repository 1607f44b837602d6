import WamrExt.Lib.ProgramCells
import WamrExt.Process.WaitWords

/-!
# What a wait tells about a child

`ProcessWaitPID` stands for `waitpid`. When it returns 0, a guest reads from `retPID` whether a
child is reported, which without `WNOHANG` one must be, and takes a child that is reported with
the exit status 0 for one that has exited well.

Two of the ways to an end break this (`waitpid_refined_iff`). Waiting for ever is a `poll` with a
large timeout, and where that is over the wait returns with no child as if it had been asked not to
block. The exit status is `WEXITSTATUS` of the wait status whatever that is, which for a child
that was killed by a signal is 0.

The two results are thought of as cells here. `waitpid_words` says the same of the words in guest
memory.
-/

set_option autoImplicit false

namespace WamrExt
namespace Process

open SharedProgram Base

/-! ## Outcomes -/

/-- `WIFEXITED` -/
def Wifexited (status : ℕ) : Prop := status % 128 = 0

instance (status : ℕ) : Decidable (Wifexited status) :=
  inferInstanceAs (Decidable (_ = _))

/-- A child has exited by itself, with the status 0. -/
def ExitedWell (status : ℕ) : Prop := Wifexited status ∧ wexitstatus status = 0

/-- What comes of a descriptor when nobody else reaps children, each with its own wait status. -/
def ChildOutcome (statusOf : ℕ → ℕ) : PolledChild → Prop
  | .quiet | .unknown | .running => True
  | .reaped pid status => pid ≠ 0 ∧ status = statusOf pid
  | .noChild _ => False

/-- What comes of a turn then. A `poll` that fails has an error number. -/
def TurnOutcome (statusOf : ℕ → ℕ) : WaitTurn → Prop
  | .noChild | .timeout => True
  | .failed errno => errno ≠ 0
  | .ready children => ∀ child ∈ children, ChildOutcome statusOf child

/-! ## The end of a wait -/

/-- The first child of a poll array that has ended, with its wait status. -/
def firstReaped : List PolledChild → Option (ℕ × ℕ)
  | [] => none
  | .reaped pid status :: _ => some (pid, status)
  | .quiet :: rest | .unknown :: rest | .running :: rest | .noChild _ :: rest => firstReaped rest

/-- The wait does not go on after the turn. -/
def EndsWait (opt : UInt32) : WaitTurn → Bool
  | .noChild | .failed _ | .timeout => true
  | .ready children => (firstReaped children).isSome || opt &&& wasiWNOHANG ≠ 0

/-- The turn that ends the wait. -/
def lastTurn (opt : UInt32) (turns : List WaitTurn) : Option WaitTurn := turns.find? (EndsWait opt)

/-- What a guest is promised by a wait that returns 0. -/
def RefinesWaitpid (opt : UInt32) (statusOf : ℕ → ℕ) (turns : List WaitTurn)
    (cells : WaitAccess → ℕ) : Prop :=
  (onCells (processWaitPID opt turns) cells).1 = some 0 →
    let after := (onCells (processWaitPID opt turns) cells).2
    (after .retPID = 0 → opt &&& wasiWNOHANG ≠ 0) ∧
      (after .retPID ≠ 0 → after .exitStatus = 0 → ExitedWell (statusOf (after .retPID)))

/-- The turn does not end a blocking wait with a timeout, nor with a child that was killed and
has no exit status. -/
def TurnTrue (opt : UInt32) : WaitTurn → Prop
  | .noChild | .failed _ => True
  | .timeout => opt &&& wasiWNOHANG ≠ 0
  | .ready children => ∀ pid status, firstReaped children = some (pid, status) →
      wexitstatus status = 0 → Wifexited status

/-- The turn that ends the wait is such. -/
def EndsTrue (opt : UInt32) (turns : List WaitTurn) : Prop :=
  ∀ turn, lastTurn opt turns = some turn → TurnTrue opt turn

section Wait

variable {opt : UInt32} {statusOf : ℕ → ℕ} {cells : WaitAccess → ℕ}

/-- The cells after a child is reported. -/
def reported (cells : WaitAccess → ℕ) : Option (ℕ × ℕ) → WaitAccess → ℕ
  | none => cells
  | some (pid, status) =>
      Function.update (Function.update cells .exitStatus (wexitstatus status)) .retPID pid

/-- **The loop over the poll array** reports the first child that has ended. -/
theorem onCells_storeChildren {children : List PolledChild}
    (outcomes : ∀ child ∈ children, ChildOutcome statusOf child) (unset : cells .retPID = 0) :
    (onCells (storeChildren children) cells).2 = reported cells (firstReaped children) := by
  induction children with
  | nil => rfl
  | cons child rest ih =>
      obtain ⟨here, later⟩ := List.forall_mem_cons.mp outcomes
      have goesOn : (onCells (if cells .retPID ≠ 0 then pure () else storeChildren rest) cells).2 =
          reported cells (firstReaped rest) := by
        rw [if_neg (not_not.mpr unset)]
        exact ih later
      cases child with
      | quiet | unknown | running => exact goesOn
      | reaped pid status =>
          have stops : onCells (storeChildren (.reaped pid status :: rest)) cells =
              onCells (if pid ≠ 0 then pure () else storeChildren rest)
                (reported cells (some (pid, status))) := rfl
          rw [stops, if_pos here.1]
          rfl
      | noChild pid => exact here.elim

/-- A child that is reported is one of the array. -/
theorem firstReaped_mem {children : List PolledChild} {pid status : ℕ}
    (first : firstReaped children = some (pid, status)) : .reaped pid status ∈ children := by
  induction children with
  | nil => cases first
  | cons child rest ih =>
      cases child with
      | reaped _ _ =>
          cases first
          exact List.mem_cons_self
      | quiet | unknown | running | noChild _ => exact List.mem_cons_of_mem _ (ih first)

/-- What a wait returns and leaves, by the turn that ends it. -/
inductive WaitEnded (opt : UInt32) (statusOf : ℕ → ℕ) :
    Option WaitTurn → Option ℕ → (WaitAccess → ℕ) → Prop
  | goesOn {after : WaitAccess → ℕ} : WaitEnded opt statusOf none none after
  | noChild {after : WaitAccess → ℕ} :
      WaitEnded opt statusOf (some .noChild) (some uvwasiECHILD) after
  | failed {errno : ℕ} {after : WaitAccess → ℕ} (bad : errno ≠ 0) :
      WaitEnded opt statusOf (some (.failed errno)) (some (convertErrnoToWasiErrno errno)) after
  | timeout {after : WaitAccess → ℕ} (retPID : after .retPID = 0) :
      WaitEnded opt statusOf (some .timeout) (some 0) after
  | noneOver {children : List PolledChild} {after : WaitAccess → ℕ}
      (none : firstReaped children = none) (asked : opt &&& wasiWNOHANG ≠ 0)
      (retPID : after .retPID = 0) : WaitEnded opt statusOf (some (.ready children)) (some 0) after
  | reports {children : List PolledChild} {pid : ℕ} {after : WaitAccess → ℕ}
      (first : firstReaped children = some (pid, statusOf pid)) (positive : pid ≠ 0)
      (retPID : after .retPID = pid) (exitStatus : after .exitStatus = wexitstatus (statusOf pid)) :
      WaitEnded opt statusOf (some (.ready children)) (some 0) after

/-- The end of a turn in which descriptors are ready. -/
theorem ended_ready {children : List PolledChild} {rest : List WaitTurn}
    (outcomes : ∀ child ∈ children, ChildOutcome statusOf child)
    (later : ∀ cells : WaitAccess → ℕ, WaitEnded opt statusOf (lastTurn opt rest)
      (onCells (processWaitPID opt rest) cells).1 (onCells (processWaitPID opt rest) cells).2) :
    WaitEnded opt statusOf (lastTurn opt (.ready children :: rest))
      (onCells (processWaitPID opt (.ready children :: rest)) cells).1
      (onCells (processWaitPID opt (.ready children :: rest)) cells).2 := by
  let unset := Function.update cells .retPID 0
  have stored : (onCells (storeChildren children) unset).2 = reported unset (firstReaped children) :=
    onCells_storeChildren outcomes rfl
  have turn : onCells (processWaitPID opt (.ready children :: rest)) cells =
      onCells (if reported unset (firstReaped children) .retPID ≠ 0 ∨ opt &&& wasiWNOHANG ≠ 0 then
        pure (some 0) else processWaitPID opt rest) (reported unset (firstReaped children)) := by
    rw [← stored]
    exact onCells_bind (storeChildren children) _ unset
  rw [turn, lastTurn, List.find?_cons]
  cases first : firstReaped children with
  | none =>
      by_cases asked : opt &&& wasiWNOHANG ≠ 0
      · have ends : EndsWait opt (.ready children) = true := by simp [EndsWait, asked]
        rw [if_pos (Or.inr asked), ends]
        exact .noneOver first asked rfl
      · have goesOn : EndsWait opt (.ready children) = false := by
          simpa [EndsWait, first] using asked
        have retPID : reported unset none .retPID = 0 := rfl
        rw [if_neg (not_or.mpr ⟨not_not.mpr retPID, asked⟩), goesOn]
        exact later _
  | some report =>
      obtain ⟨pid, status⟩ := report
      obtain ⟨positive, rfl⟩ : pid ≠ 0 ∧ status = statusOf pid :=
        outcomes _ (firstReaped_mem first)
      have ends : EndsWait opt (.ready children) = true := by simp [EndsWait, first]
      have retPID : reported unset (some (pid, statusOf pid)) .retPID ≠ 0 := positive
      rw [if_pos (Or.inl retPID), ends]
      exact .reports first positive rfl rfl

/-- **How a wait ends.** -/
theorem wait_ended {turns : List WaitTurn} (outcomes : ∀ turn ∈ turns, TurnOutcome statusOf turn)
    (cells : WaitAccess → ℕ) : WaitEnded opt statusOf (lastTurn opt turns)
      (onCells (processWaitPID opt turns) cells).1 (onCells (processWaitPID opt turns) cells).2 := by
  induction turns generalizing cells with
  | nil => exact .goesOn
  | cons turn rest ih =>
      obtain ⟨here, later⟩ := List.forall_mem_cons.mp outcomes
      cases turn with
      | noChild => exact .noChild
      | failed errno => exact .failed here
      | timeout => exact .timeout rfl
      | ready children => exact ended_ready here (ih later)

end Wait

/-- **When a wait tells what `waitpid` tells.** Whatever comes of its calls while nobody else
reaps children, a wait that returns 0 keeps its promise exactly when the turn that ends it is
neither a timeout of a blocking wait nor a report of a child that was killed and has no exit
status. -/
theorem waitpid_refined_iff (opt : UInt32) {statusOf : ℕ → ℕ} {turns : List WaitTurn}
    (outcomes : ∀ turn ∈ turns, TurnOutcome statusOf turn) (cells : WaitAccess → ℕ) :
    RefinesWaitpid opt statusOf turns cells ↔ EndsTrue opt turns := by
  have ended : WaitEnded opt statusOf (lastTurn opt turns) _ _ := wait_ended outcomes cells
  rw [RefinesWaitpid, EndsTrue]
  generalize lastTurn opt turns = last, (onCells (processWaitPID opt turns) cells).1 = result,
    (onCells (processWaitPID opt turns) cells).2 = after at ended
  cases ended with
  | goesOn => exact ⟨fun _ => nofun, fun _ => nofun⟩
  | noChild => exact ⟨fun _ _ same => Option.some.inj same ▸ trivial, fun _ => nofun⟩
  | failed bad =>
      refine ⟨fun _ _ same => Option.some.inj same ▸ trivial, fun _ zero => ?_⟩
      exact absurd (convertErrnoToWasiErrno_eq_zero.mp (Option.some.inj zero)) bad
  | timeout retPID =>
      constructor
      · rintro refines _ ⟨⟩
        exact (refines rfl).1 retPID
      · intro asked _
        exact ⟨fun _ => asked _ rfl, fun set => absurd retPID set⟩
  | noneOver noneOver asked retPID =>
      constructor
      · rintro _ _ ⟨⟩ pid status first
        rw [noneOver] at first
        cases first
      · intro _ _
        exact ⟨fun _ => asked, fun set => absurd retPID set⟩
  | @reports children pid _ first positive retPID exitStatus =>
      simp only [retPID, exitStatus]
      constructor
      · rintro refines _ ⟨⟩ pid' status same zero
        rw [first] at same
        cases same
        exact ((refines trivial).2 positive zero).1
      · intro asked _
        exact ⟨fun unset => absurd unset positive,
          fun _ zero => ⟨asked _ rfl pid _ first zero, zero⟩⟩

/-- A child that has exited with the status 3, reported to a blocking wait. -/
theorem exit_three_told :
    RefinesWaitpid 0 (fun _ => 768) [.ready [.quiet, .reaped 7 768]] fun _ => 0 := by
  refine (waitpid_refined_iff 0 ?_ _).mpr ?_
  · simp [TurnOutcome, ChildOutcome]
  · rintro _ ⟨⟩ _ _ ⟨⟩ zero
    cases zero

/-- A child that was killed by signal 9 is reported with the exit status 0, and a blocking wait
whose `poll` times out reports no child. -/
theorem killed_told_well :
    (∀ turn ∈ [WaitTurn.ready [.reaped 7 9], .timeout], TurnOutcome (fun _ => 9) turn) ∧
      ¬ RefinesWaitpid 0 (fun _ => 9) [.ready [.reaped 7 9]] (fun _ => 0) ∧
      ¬ RefinesWaitpid 0 (fun _ => 9) [.timeout] fun _ => 0 := by
  refine ⟨by simp [TurnOutcome, ChildOutcome], fun refines => ?_, fun refines => ?_⟩
  · obtain ⟨exited, _⟩ := (refines rfl).2 (by decide) rfl
    cases exited
  · exact (refines rfl).1 rfl rfl

/-! ## The words in guest memory -/

/-- The pids of a turn are numbers of 32 bits. -/
def PidsFit : WaitTurn → Prop
  | .noChild | .failed _ | .timeout => True
  | .ready children => ∀ child ∈ children, match child with
      | .quiet | .unknown | .running => True
      | .reaped pid _ | .noChild pid => pid < 2 ^ 32

section Words

variable {args : WaitWordArgs}

/-- The two words do not overlap. -/
theorem waitWords_apart
    (apart : args.exitStatus + 4 ≤ args.retPID ∨ args.retPID + 4 ≤ args.exitStatus) :
    FieldsApart args.place := by
  intro a b different
  cases a <;> cases b
  · exact absurd rfl different
  · exact apart
  · exact apart.symm
  · exact absurd rfl different

theorem storeChildren_fits {children : List PolledChild} (fit : PidsFit (.ready children)) :
    (storeChildren children).WritesFit args.place := by
  induction children with
  | nil => trivial
  | cons child rest ih =>
      obtain ⟨here, later⟩ := List.forall_mem_cons.mp fit
      have goesOn : ∀ ret : ℕ, Prog.WritesFit args.place
          (if ret ≠ 0 then pure () else storeChildren rest) := by
        intro ret
        split
        · trivial
        · exact ih later
      cases child with
      | quiet | unknown | running => exact goesOn
      | reaped pid status =>
          have small : wexitstatus status < 256 ^ 4 := by
            rw [wexitstatus]
            omega
          exact ⟨small, here, goesOn⟩
      | noChild pid => exact ⟨Nat.pow_pos (by decide), here, goesOn⟩

theorem processWaitPID_fits {opt : UInt32} {turns : List WaitTurn}
    (fit : ∀ turn ∈ turns, PidsFit turn) : (processWaitPID opt turns).WritesFit args.place := by
  induction turns with
  | nil => trivial
  | cons turn rest ih =>
      obtain ⟨here, later⟩ := List.forall_mem_cons.mp fit
      cases turn with
      | noChild | failed errno => trivial
      | timeout => exact ⟨Nat.pow_pos (by decide), trivial⟩
      | ready children =>
          have goesOn : ∀ ret : ℕ, Prog.WritesFit args.place (if ret ≠ 0 ∨
              opt &&& wasiWNOHANG ≠ 0 then pure (some 0) else processWaitPID opt rest) := by
            intro ret
            split
            · trivial
            · exact ih later
          exact ⟨Nat.pow_pos (by decide), (storeChildren_fits here).bind fun _ => goesOn⟩

/-- **The words hold what the cells hold.** -/
theorem waitpid_words
    (apart : args.exitStatus + 4 ≤ args.retPID ∨ args.retPID + 4 ≤ args.exitStatus)
    {turns : List WaitTurn} (fit : ∀ turn ∈ turns, PidsFit turn) (mem : ByteMemory.Memory) :
    (alone args.place (processWaitPID args.opt turns) mem).result =
        (onCells (processWaitPID args.opt turns) (valueAt args.place mem)).1 ∧
      ∀ a, valueAt args.place (alone args.place (processWaitPID args.opt turns) mem).mem a =
        (onCells (processWaitPID args.opt turns) (valueAt args.place mem)).2 a :=
  alone_eq_onCells (waitWords_apart apart) (processWaitPID_fits fit) fun _ => rfl

end Words

end Process
end WamrExt
