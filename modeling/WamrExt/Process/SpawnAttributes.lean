import WamrExt.Process.VendoredSpawn

/-!
# The attributes of a spawn

Before it executes a program, the new process of the vendored `posix_spawn` changes what the
attributes of the spawn ask for. A handler of the parent must not run in it on the way. So all
signals are blocked before the fork, and the mask is set only after every signal has its default
action or is ignored (`no_handler_runs`).

What the program then starts with is what the attributes say: signals that the parent ignores stay
ignored, and all others have their default action, and the mask is that of the parent, unless the
attributes ask for something else (`child_at_exec`). A group or a session of its own has the id of
the new process, which leads no session before it asks for one. The parent goes on with the mask
that it had (`parent_kept`).
-/

set_option autoImplicit false

namespace WamrExt
namespace Process
namespace SpawnAttributes

open FileActions SpawnFileActions Transition

/-! ## Signals -/

/-- The action of a signal. -/
inductive Handler where
  | sigDfl
  | sigIgn
  | caught
  deriving DecidableEq, Repr

/-- `_NSIG` -/
def nsig : ℕ := 65

/-- `SIGKILL` and `SIGSTOP`, which can be neither caught nor ignored nor blocked. -/
def Fixed (s : ℕ) : Prop := s = 9 ∨ s = 19

instance (s : ℕ) : Decidable (Fixed s) := inferInstanceAs (Decidable (_ ∨ _))

/-- The actions of the signals in a process, and the signals that are blocked. -/
structure Signals where
  handler : ℕ → Handler
  blocked : ℕ → Bool
  handler_fixed : ∀ s, Fixed s → handler s = .sigDfl
  blocked_fixed : ∀ s, Fixed s → blocked s = false

namespace Signals

variable (sig : Signals)

/-- `sigprocmask` with `SIG_SETMASK`. It leaves out what cannot be blocked. -/
def setMask (set : ℕ → Bool) : Signals :=
  { sig with
    blocked := fun s => set s && !decide (Fixed s)
    blocked_fixed := fun s fixed => by simp [fixed] }

/-- `sigprocmask` with `SIG_BLOCK` and a full set -/
def blockAll : Signals := sig.setMask fun _ => true

/-- `sigaction` with the default action -/
def setDefault (s : ℕ) : Signals :=
  { sig with
    handler := Function.update sig.handler s .sigDfl
    handler_fixed := fun t fixed => by
      rw [Function.update_apply]
      split
      · rfl
      · exact sig.handler_fixed t fixed }

variable {sig}

/-- What is caught can be blocked. -/
theorem not_fixed_of_caught {s : ℕ} (caught : sig.handler s = .caught) : ¬ Fixed s := by
  intro fixed
  rw [sig.handler_fixed s fixed] at caught
  cases caught

@[simp]
theorem setMask_handler (set : ℕ → Bool) : (sig.setMask set).handler = sig.handler := rfl

/-- The mask of a process can be set again. -/
theorem setMask_blocked (sig other : Signals) :
    (other.setMask sig.blocked).blocked = sig.blocked := by
  funext s
  cases blocked : sig.blocked s with
  | false => simp [setMask, blocked]
  | true =>
      have free : ¬ Fixed s := fun fixed => by
        rw [sig.blocked_fixed s fixed] at blocked
        cases blocked
      simp [setMask, blocked, free]

end Signals

/-! ## Attributes -/

/-- The flags of a spawn: `POSIX_SPAWN_RESETIDS` and so on. -/
def posixSpawnRESETIDS : UInt16 := 1
def posixSpawnSETPGROUP : UInt16 := 2
def posixSpawnSETSIGDEF : UInt16 := 4
def posixSpawnSETSIGMASK : UInt16 := 8
def posixSpawnSETSCHEDPARAM : UInt16 := 16
def posixSpawnSETSCHEDULER : UInt16 := 32
def posixSpawnSETSID : UInt16 := 128

/-- `__posix_spawnattr` -/
structure SpawnAttr where
  flags : UInt16
  pgroup : ℤ
  schedparam : ℤ
  schedpolicy : ℤ
  sigmask : ℕ → Bool
  sigdefault : ℕ → Bool

/-- A flag is set. -/
def SpawnAttr.has (attr : SpawnAttr) (flag : UInt16) : Bool := attr.flags &&& flag != 0

/-- What attributes of a spawn can change in a process, apart from its signals. -/
structure Credentials where
  pid : ℤ
  pgroup : ℤ
  sessionLeader : Bool
  schedpolicy : ℤ
  schedparam : ℤ
  uid : ℕ
  euid : ℕ
  gid : ℕ
  egid : ℕ

/-- A process, as far as a spawn is about it. -/
structure HostProcess (β : Type) where
  signals : Signals
  credentials : Credentials
  fds : Table β

/-- Which host calls of the new process succeed. -/
structure ChildAnswers (β : Type) where
  sigactionQuery : ℕ → Bool
  sigactionSet : ℕ → Bool
  setpgid : ℤ → Bool
  setsid : Bool
  schedSetscheduler : Bool
  schedSetparam : Bool
  seteuid : Bool
  setegid : Bool
  sigprocmask : Bool
  files : FileAnswers β

/-! ## The new process -/

/-- What the new process does, in the order of the code: a turn of the loop over the signals, then
the rest of `ApplyAttrs`, the file actions, and the mask of the parent. -/
inductive ChildStep where
  | sigaction (s : ℕ)
  | setpgid
  | setsid
  | setscheduler
  | resetIds
  | setSigmask
  | fileActions (actions : List FileActionArgs)
  | reset

section Child

variable {β : Type} (answers : ChildAnswers β) (attr : SpawnAttr) (oldSet : ℕ → Bool)

/-- A signal is set to its default action. -/
def HostProcess.setDefault (c : HostProcess β) (s : ℕ) : Option (HostProcess β) :=
  if answers.sigactionSet s then some { c with signals := c.signals.setDefault s } else none

/-- A turn of the loop over the signals. -/
def HostProcess.resetSignal (c : HostProcess β) (s : ℕ) : Option (HostProcess β) :=
  if attr.has posixSpawnSETSIGDEF && attr.sigdefault s then c.setDefault answers s
  else if answers.sigactionQuery s then
    if c.signals.handler s ≠ .sigIgn ∧ c.signals.handler s ≠ .sigDfl then c.setDefault answers s
    else some c
  else none

/-- A change that a flag asks for. The process ends with 127 when it is refused. -/
def HostProcess.change (c : HostProcess β) (asked granted : Bool)
    (f : Credentials → Credentials) : Option (HostProcess β) :=
  if asked && !granted then none
  else some { c with credentials := if asked then f c.credentials else c.credentials }

/-- One step of the new process. There is no result where it ends with 127. -/
def childStep (c : HostProcess β) : ChildStep → Option (HostProcess β)
  | .sigaction s => c.resetSignal answers attr s
  | .setpgid =>
      c.change (attr.has posixSpawnSETPGROUP) (answers.setpgid attr.pgroup) fun k =>
        { k with pgroup := if attr.pgroup = 0 then k.pid else attr.pgroup }
  | .setsid =>
      c.change (attr.has posixSpawnSETSID) answers.setsid fun k =>
        { k with sessionLeader := true, pgroup := k.pid }
  | .setscheduler =>
      if attr.has posixSpawnSETSCHEDULER then
        c.change true answers.schedSetscheduler fun k =>
          { k with schedpolicy := attr.schedpolicy, schedparam := attr.schedparam }
      else
        c.change (attr.has posixSpawnSETSCHEDPARAM) answers.schedSetparam fun k =>
          { k with schedparam := attr.schedparam }
  | .resetIds =>
      c.change (attr.has posixSpawnRESETIDS) (answers.seteuid && answers.setegid) fun k =>
        { k with euid := k.uid, egid := k.gid }
  | .setSigmask =>
      if attr.has posixSpawnSETSIGMASK then
        if answers.sigprocmask then some { c with signals := c.signals.setMask attr.sigmask }
        else none
      else some c
  | .fileActions actions =>
      (run (doAction answers.files) c.fds actions).map fun fds => { c with fds := fds }
  | .reset =>
      if attr.has posixSpawnSETSIGMASK then some c
      else some { c with signals := c.signals.setMask oldSet }

/-- The loop over the signals. -/
def signalSteps : List ChildStep := (List.range' 1 (nsig - 1)).map .sigaction

/-- The steps after the loop. -/
def changeSteps (actions : List FileActionArgs) : List ChildStep :=
  [.setpgid, .setsid, .setscheduler, .resetIds, .setSigmask, .fileActions actions, .reset]

/-- The steps up to `exec`. -/
def childSteps (actions : List FileActionArgs) : List ChildStep :=
  signalSteps ++ changeSteps actions

/-- What `fork` makes of the credentials of the parent. -/
def Credentials.forked (k : Credentials) (pid : ℤ) : Credentials :=
  { k with pid := pid, sessionLeader := false }

/-- The new process right after the fork. -/
def forked (parent : HostProcess β) (pid : ℤ) : HostProcess β :=
  { parent with
    signals := parent.signals.blockAll
    credentials := parent.credentials.forked pid }

/-- The new process at `exec`. -/
def childAtExec (parent : HostProcess β) (pid : ℤ) (actions : List FileActionArgs) :
    Option (HostProcess β) :=
  run (childStep answers attr parent.signals.blocked) (forked parent pid) (childSteps actions)

end Child

/-! ## The signals on the way to `exec` -/

section Signals

variable {β : Type} {answers : ChildAnswers β} {attr : SpawnAttr} {oldSet : ℕ → Bool}
  {c c' : HostProcess β}

/-- What becomes of the action of a signal. -/
def SpawnAttr.kept (attr : SpawnAttr) (s : ℕ) (h : Handler) : Handler :=
  if attr.has posixSpawnSETSIGDEF && attr.sigdefault s then .sigDfl
  else if h = .sigIgn then .sigIgn else .sigDfl

theorem SpawnAttr.kept_kept (s : ℕ) (h : Handler) :
    attr.kept s (attr.kept s h) = attr.kept s h := by
  simp only [SpawnAttr.kept]
  split
  · rfl
  · cases h <;> rfl

theorem SpawnAttr.kept_ne_caught (s : ℕ) (h : Handler) : attr.kept s h ≠ .caught := by
  rw [SpawnAttr.kept]
  split
  · exact nofun
  · split <;> exact nofun

/-- No signal is blocked or unblocked, and nothing but signals is changed. -/
structure SameBut (c c' : HostProcess β) : Prop where
  blocked : c'.signals.blocked = c.signals.blocked
  credentials : c'.credentials = c.credentials
  fds : c'.fds = c.fds

/-- A turn of the loop is about one signal. -/
theorem resetSignal_spec {s : ℕ} (done : c.resetSignal answers attr s = some c') :
    SameBut c c' ∧ c'.signals.handler =
      Function.update c.signals.handler s (attr.kept s (c.signals.handler s)) := by
  rw [HostProcess.resetSignal] at done
  split at done
  next asked =>
    obtain ⟨_, rfl⟩ := guarded_eq_some.mp done
    exact ⟨⟨rfl, rfl, rfl⟩, by rw [SpawnAttr.kept, if_pos asked]; rfl⟩
  next notAsked =>
    obtain ⟨_, done⟩ := Option.ite_none_right_eq_some.mp done
    split at done
    next caught =>
      obtain ⟨_, rfl⟩ := guarded_eq_some.mp done
      exact ⟨⟨rfl, rfl, rfl⟩, by rw [SpawnAttr.kept, if_neg notAsked, if_neg caught.1]; rfl⟩
    next notCaught =>
      cases done
      have same : attr.kept s (c.signals.handler s) = c.signals.handler s := by
        rw [SpawnAttr.kept, if_neg notAsked]
        cases h : c.signals.handler s <;> simp_all
      exact ⟨⟨rfl, rfl, rfl⟩, by rw [same, Function.update_eq_self]⟩

/-- The loop goes over the signals one by one. -/
theorem run_signals {signals : List ℕ}
    (reached : run (childStep answers attr oldSet) c (signals.map .sigaction) = some c') :
    SameBut c c' ∧ ∀ s, c'.signals.handler s =
      if s ∈ signals then attr.kept s (c.signals.handler s) else c.signals.handler s := by
  induction signals generalizing c with
  | nil =>
      cases reached
      exact ⟨⟨rfl, rfl, rfl⟩, fun s => (if_neg List.not_mem_nil).symm⟩
  | cons t rest ih =>
      obtain ⟨next, taken, later⟩ := run_cons_eq_some.mp reached
      obtain ⟨first, handler⟩ := resetSignal_spec taken
      obtain ⟨others, handlers⟩ := ih later
      refine ⟨⟨others.blocked.trans first.blocked, others.credentials.trans first.credentials,
        others.fds.trans first.fds⟩, fun s => ?_⟩
      rw [handlers, handler]
      by_cases here : s = t
      · subst here
        simp [SpawnAttr.kept_kept]
      · simp [here]

theorem mem_signals {s : ℕ} : s ∈ List.range' 1 (nsig - 1) ↔ 0 < s ∧ s < nsig := by
  rw [List.mem_range'_1, nsig]
  omega

/-- No handler of the parent can run: a signal that is caught is blocked. -/
def NoHandlerRuns (c : HostProcess β) : Prop :=
  ∀ s, 0 < s → s < nsig → c.signals.handler s = .caught → c.signals.blocked s = true

/-- All signals are blocked that can be. -/
def AllBlocked (c : HostProcess β) : Prop :=
  ∀ s, c.signals.blocked s = !decide (Fixed s)

/-- No signal is caught. -/
def NoneCaught (c : HostProcess β) : Prop :=
  ∀ s, 0 < s → s < nsig → c.signals.handler s ≠ .caught

theorem AllBlocked.noHandlerRuns (blocked : AllBlocked c) : NoHandlerRuns c := by
  intro s _ _ caught
  rw [blocked s, decide_eq_false (Signals.not_fixed_of_caught caught)]
  rfl

theorem NoneCaught.noHandlerRuns (none : NoneCaught c) : NoHandlerRuns c :=
  fun s positive bound caught => absurd caught (none s positive bound)

/-- A change is granted if it is asked for. -/
theorem change_eq_some {asked granted : Bool} {f : Credentials → Credentials} :
    c.change asked granted f = some c' ↔ (asked = true → granted = true) ∧
      { c with credentials := if asked then f c.credentials else c.credentials } = c' := by
  rw [HostProcess.change, Option.ite_none_left_eq_some, Option.some_inj]
  cases asked <;> simp

/-- After the loop, nothing makes a signal caught. -/
theorem childStep_handler {a : ChildStep} (other : ∀ s, a ≠ .sigaction s)
    (taken : childStep answers attr oldSet c a = some c') :
    c'.signals.handler = c.signals.handler := by
  cases a with
  | sigaction s => exact absurd rfl (other s)
  | setpgid | setsid | resetIds =>
      rw [childStep] at taken
      obtain ⟨_, rfl⟩ := change_eq_some.mp taken
      rfl
  | setscheduler =>
      rw [childStep] at taken
      split at taken <;> obtain ⟨_, rfl⟩ := change_eq_some.mp taken <;> rfl
  | setSigmask =>
      rw [childStep] at taken
      split at taken
      next =>
        obtain ⟨_, rfl⟩ := guarded_eq_some.mp taken
        rfl
      next =>
        cases taken
        rfl
  | fileActions actions =>
      obtain ⟨_, _, rfl⟩ := Option.map_eq_some_iff.mp taken
      rfl
  | reset =>
      rw [childStep] at taken
      split at taken <;> cases taken <;> rfl

end Signals

/-! ## What the program starts with -/

section AtExec

variable {β : Type} {answers : ChildAnswers β} {attr : SpawnAttr} {oldSet : ℕ → Bool}
  {c c' parent : HostProcess β} {pid : ℤ} {actions : List FileActionArgs}

/-- The credentials that the attributes ask for. A new session has a process group of its own, and
`POSIX_SPAWN_SETSCHEDULER` overrides `POSIX_SPAWN_SETSCHEDPARAM`. -/
def SpawnAttr.credentials (attr : SpawnAttr) (k : Credentials) : Credentials where
  pid := k.pid
  pgroup :=
    if attr.has posixSpawnSETSID then k.pid
    else if attr.has posixSpawnSETPGROUP then (if attr.pgroup = 0 then k.pid else attr.pgroup)
    else k.pgroup
  sessionLeader := attr.has posixSpawnSETSID || k.sessionLeader
  schedpolicy := if attr.has posixSpawnSETSCHEDULER then attr.schedpolicy else k.schedpolicy
  schedparam :=
    if attr.has posixSpawnSETSCHEDULER || attr.has posixSpawnSETSCHEDPARAM then attr.schedparam
    else k.schedparam
  uid := k.uid
  euid := if attr.has posixSpawnRESETIDS then k.uid else k.euid
  gid := k.gid
  egid := if attr.has posixSpawnRESETIDS then k.gid else k.egid

/-- The mask that the program starts with. -/
def SpawnAttr.mask (attr : SpawnAttr) (blocked : ℕ → Bool) (s : ℕ) : Bool :=
  (if attr.has posixSpawnSETSIGMASK then attr.sigmask s else blocked s) && !decide (Fixed s)

/-- The calls for a signal succeed. -/
def SignalGranted (answers : ChildAnswers β) (attr : SpawnAttr) (h : Handler) (s : ℕ) : Prop :=
  if attr.has posixSpawnSETSIGDEF && attr.sigdefault s then answers.sigactionSet s = true
  else answers.sigactionQuery s = true ∧ (h = .caught → answers.sigactionSet s = true)

/-- The calls that the attributes ask for succeed, and so do the file actions. -/
structure ChangesGranted (answers : ChildAnswers β) (attr : SpawnAttr) (fds : Table β)
    (actions : List FileActionArgs) : Prop where
  setpgid : attr.has posixSpawnSETPGROUP = true → answers.setpgid attr.pgroup = true
  setsid : attr.has posixSpawnSETSID = true → answers.setsid = true
  scheduler : attr.has posixSpawnSETSCHEDULER = true → answers.schedSetscheduler = true
  schedparam : attr.has posixSpawnSETSCHEDULER = false →
    attr.has posixSpawnSETSCHEDPARAM = true → answers.schedSetparam = true
  resetIds : attr.has posixSpawnRESETIDS = true →
    answers.seteuid = true ∧ answers.setegid = true
  sigmask : attr.has posixSpawnSETSIGMASK = true → answers.sigprocmask = true
  fileActions : (run (doAction answers.files) fds actions).isSome = true

/-- What a program starts with. -/
structure AtExec (answers : ChildAnswers β) (attr : SpawnAttr) (parent : HostProcess β) (pid : ℤ)
    (actions : List FileActionArgs) (c : HostProcess β) : Prop where
  handler : ∀ s, 0 < s → s < nsig →
    c.signals.handler s = attr.kept s (parent.signals.handler s)
  blocked : ∀ s, c.signals.blocked s = attr.mask parent.signals.blocked s
  credentials : c.credentials = attr.credentials (parent.credentials.forked pid)
  fds : run (doAction answers.files) parent.fds actions = some c.fds

/-- A turn of the loop succeeds when its calls do. -/
theorem resetSignal_isSome {s : ℕ} : (∃ c', c.resetSignal answers attr s = some c') ↔
    SignalGranted answers attr (c.signals.handler s) s := by
  have setDefault : (∃ c', c.setDefault answers s = some c') ↔ answers.sigactionSet s = true := by
    simp [HostProcess.setDefault]
  rw [HostProcess.resetSignal, SignalGranted]
  split
  · exact setDefault
  · cases known : answers.sigactionQuery s with
    | false => simp
    | true => cases h : c.signals.handler s <;> simp [setDefault]

/-- The loop ends when its calls succeed. -/
theorem run_signals_isSome {signals : List ℕ} (nodup : signals.Nodup) :
    (∃ c', run (childStep answers attr oldSet) c (signals.map .sigaction) = some c') ↔
      ∀ s ∈ signals, SignalGranted answers attr (c.signals.handler s) s := by
  induction signals generalizing c with
  | nil => exact ⟨fun _ => nofun, fun _ => ⟨c, rfl⟩⟩
  | cons t rest ih =>
      obtain ⟨notLater, nodup⟩ := List.nodup_cons.mp nodup
      -- a turn leaves the signals of the later turns as they were
      have same : ∀ {next}, c.resetSignal answers attr t = some next → ∀ s ∈ rest,
          next.signals.handler s = c.signals.handler s := fun taken s later => by
        have other : s ≠ t := fun same => notLater (same ▸ later)
        rw [(resetSignal_spec taken).2, Function.update_of_ne other]
      rw [List.forall_mem_cons, ← resetSignal_isSome, List.map_cons]
      constructor
      · rintro ⟨c', reached⟩
        obtain ⟨next, taken, later⟩ := run_cons_eq_some.mp reached
        refine ⟨⟨next, taken⟩, fun s member => ?_⟩
        rw [← same taken s member]
        exact (ih nodup).mp ⟨c', later⟩ s member
      · rintro ⟨⟨next, taken⟩, others⟩
        obtain ⟨c', later⟩ := (ih nodup).mpr fun s member => by
          rw [same taken s member]
          exact others s member
        exact ⟨c', run_cons_eq_some.mpr ⟨next, taken, later⟩⟩

/-- The scheduler is set, or its parameter only. -/
theorem setscheduler_eq_some : childStep answers attr oldSet c .setscheduler = some c' ↔
    ((attr.has posixSpawnSETSCHEDULER = true → answers.schedSetscheduler = true) ∧
      (attr.has posixSpawnSETSCHEDULER = false → attr.has posixSpawnSETSCHEDPARAM = true →
        answers.schedSetparam = true)) ∧
      { c with credentials :=
        { c.credentials with
          schedpolicy :=
            if attr.has posixSpawnSETSCHEDULER then attr.schedpolicy
            else c.credentials.schedpolicy
          schedparam :=
            if attr.has posixSpawnSETSCHEDULER || attr.has posixSpawnSETSCHEDPARAM then
              attr.schedparam
            else c.credentials.schedparam } } = c' := by
  rw [childStep]
  cases attr.has posixSpawnSETSCHEDULER with
  | true => simp [change_eq_some]
  | false =>
      simp only [Bool.false_eq_true, if_false, change_eq_some]
      cases attr.has posixSpawnSETSCHEDPARAM <;> simp

/-- The mask is set when it is asked for. -/
theorem setSigmask_eq_some : childStep answers attr oldSet c .setSigmask = some c' ↔
    (attr.has posixSpawnSETSIGMASK = true → answers.sigprocmask = true) ∧
      { c with signals :=
        if attr.has posixSpawnSETSIGMASK then c.signals.setMask attr.sigmask else c.signals } =
          c' := by
  rw [childStep]
  cases attr.has posixSpawnSETSIGMASK <;> simp

/-- The mask of the parent is set otherwise. -/
theorem reset_eq_some : childStep answers attr oldSet c .reset = some c' ↔
    { c with signals :=
      if attr.has posixSpawnSETSIGMASK then c.signals else c.signals.setMask oldSet } = c' := by
  rw [childStep]
  cases attr.has posixSpawnSETSIGMASK <;> simp

/-- The changes one after another are the credentials that are asked for. -/
theorem credentials_eq (k : Credentials) :
    let k₁ := if attr.has posixSpawnSETPGROUP then
      { k with pgroup := if attr.pgroup = 0 then k.pid else attr.pgroup } else k
    let k₂ := if attr.has posixSpawnSETSID then
      { k₁ with sessionLeader := true, pgroup := k₁.pid } else k₁
    let k₃ : Credentials := { k₂ with
      schedpolicy := if attr.has posixSpawnSETSCHEDULER then attr.schedpolicy else k₂.schedpolicy
      schedparam :=
        if attr.has posixSpawnSETSCHEDULER || attr.has posixSpawnSETSCHEDPARAM then
          attr.schedparam
        else k₂.schedparam }
    (if attr.has posixSpawnRESETIDS then { k₃ with euid := k₃.uid, egid := k₃.gid } else k₃) =
      attr.credentials k := by
  rw [SpawnAttr.credentials]
  cases attr.has posixSpawnSETPGROUP <;> cases attr.has posixSpawnSETSID <;>
    cases attr.has posixSpawnRESETIDS <;> rfl

/-- What comes of the steps after the loop. -/
theorem run_changes_eq_some :
    run (childStep answers attr oldSet) c (changeSteps actions) = some c' ↔
      ChangesGranted answers attr c.fds actions ∧
        c'.signals = c.signals.setMask
          (if attr.has posixSpawnSETSIGMASK then attr.sigmask else oldSet) ∧
        c'.credentials = attr.credentials c.credentials ∧
        run (doAction answers.files) c.fds actions = some c'.fds := by
  simp only [changeSteps, run_cons_eq_some]
  simp only [↓setscheduler_eq_some, ↓setSigmask_eq_some, ↓reset_eq_some, childStep, change_eq_some,
    Option.map_eq_some_iff, and_assoc, exists_and_left, exists_eq_left',
    exists_exists_and_eq_and, run, Option.some_inj]
  have mask : (if attr.has posixSpawnSETSIGMASK then
        (if attr.has posixSpawnSETSIGMASK then c.signals.setMask attr.sigmask else c.signals)
      else
        (if attr.has posixSpawnSETSIGMASK then c.signals.setMask attr.sigmask
          else c.signals).setMask oldSet) =
      c.signals.setMask (if attr.has posixSpawnSETSIGMASK then attr.sigmask else oldSet) := by
    cases attr.has posixSpawnSETSIGMASK <;> rfl
  obtain ⟨signals, credentials, fds⟩ := c'
  constructor
  · rintro ⟨setpgid, setsid, scheduler, schedparam, resetIds, sigmask, fds', performed, same⟩
    cases same
    refine ⟨⟨setpgid, setsid, scheduler, schedparam, ?_, sigmask, ?_⟩, mask, credentials_eq _,
      performed⟩
    · exact fun asked => Bool.and_eq_true_iff.mp (resetIds asked)
    · rw [performed]
      rfl
  · rintro ⟨⟨setpgid, setsid, scheduler, schedparam, resetIds, sigmask, _⟩, rfl, rfl, performed⟩
    refine ⟨setpgid, setsid, scheduler, schedparam, ?_, sigmask, fds, performed, ?_⟩
    · exact fun asked => Bool.and_eq_true_iff.mpr (resetIds asked)
    · exact congrArg₂ (fun s k => HostProcess.mk s k fds) mask (credentials_eq _)

theorem run_changes_isSome :
    (∃ c', run (childStep answers attr oldSet) c (changeSteps actions) = some c') ↔
      ChangesGranted answers attr c.fds actions := by
  constructor
  · rintro ⟨c', reached⟩
    exact (run_changes_eq_some.mp reached).1
  · intro granted
    obtain ⟨fds, performed⟩ := Option.isSome_iff_exists.mp granted.fileActions
    exact ⟨⟨_, _, fds⟩, run_changes_eq_some.mpr ⟨granted, rfl, rfl, performed⟩⟩

/-- A mask that is set is a mask of signals that can be blocked. -/
theorem mask_eq (blocked : ℕ → Bool) (sig : Signals) (s : ℕ) :
    (sig.setMask (if attr.has posixSpawnSETSIGMASK then attr.sigmask else blocked)).blocked s =
      attr.mask blocked s := by
  rw [SpawnAttr.mask]
  cases attr.has posixSpawnSETSIGMASK <;> rfl

/-- The steps are those of the loop and the changes after it. -/
theorem childAtExec_eq_some : childAtExec answers attr parent pid actions = some c ↔
    ∃ next, run (childStep answers attr parent.signals.blocked) (forked parent pid) signalSteps =
        some next ∧
      run (childStep answers attr parent.signals.blocked) next (changeSteps actions) = some c := by
  rw [childAtExec, childSteps, run_append, Option.bind_eq_some_iff]

/-- What a program starts with is what its attributes and file actions make of the parent. -/
theorem atExec_of_reached (reached : childAtExec answers attr parent pid actions = some c) :
    AtExec answers attr parent pid actions c := by
  obtain ⟨next, loop, rest⟩ := childAtExec_eq_some.mp reached
  obtain ⟨same, handler⟩ := run_signals loop
  obtain ⟨_, signals, credentials, fds⟩ := run_changes_eq_some.mp rest
  refine ⟨fun s positive bound => ?_, fun s => ?_, ?_, ?_⟩
  · rw [signals, Signals.setMask_handler, handler, if_pos (mem_signals.mpr ⟨positive, bound⟩)]
    rfl
  · rw [signals, mask_eq]
  · rw [credentials, same.credentials]
    rfl
  · rw [← fds, same.fds]
    rfl

/-- The attributes of a spawn that is given none, such as those of `ProcessSpawn`. -/
def noAttributes : SpawnAttr := ⟨0, 0, 0, 0, fun _ => false, fun _ => false⟩

/-- Without attributes, the program starts with the mask of the parent, and with what `fork` makes
of its credentials, and what the parent ignores is ignored. -/
theorem child_without_attributes
    (reached : childAtExec answers noAttributes parent pid actions = some c) :
    c.signals.blocked = parent.signals.blocked ∧
      c.credentials = parent.credentials.forked pid ∧ ∀ s, 0 < s → s < nsig →
        (c.signals.handler s = .sigIgn ↔ parent.signals.handler s = .sigIgn) := by
  have start := atExec_of_reached reached
  refine ⟨funext fun s => ?_, start.credentials, fun s positive bound => ?_⟩
  · rw [start.blocked s]
    by_cases fixed : Fixed s
    · simp [SpawnAttr.mask, fixed, parent.signals.blocked_fixed s fixed]
    · simp [SpawnAttr.mask, fixed, SpawnAttr.has, noAttributes]
  · rw [start.handler s positive bound]
    cases h : parent.signals.handler s <;> simp [SpawnAttr.kept, SpawnAttr.has, noAttributes]

/-! ## The call -/

/-- `posix_spawn`: the result, the id of the new process, and the parent after the call. The new
process is the one of `childAtExec` with this id. -/
def posixSpawn (parent : HostProcess β) (fork : Except ℤ ℤ) : ℤ × Option ℤ × HostProcess β :=
  let blocked := { parent with signals := parent.signals.blockAll }
  -- the destructor of `ssb`, on each way out
  let after := { blocked with signals := blocked.signals.setMask parent.signals.blocked }
  match fork with
  | .error errno => (errno, none, after)
  | .ok pid => (0, some pid, after)

/-- **The parent goes on as it was**, whether there is a new process or not. -/
theorem parent_kept (parent : HostProcess β) (fork : Except ℤ ℤ) :
    (posixSpawn parent fork).2.2 = parent := by
  obtain ⟨⟨handler, blocked, handlerFixed, blockedFixed⟩, credentials, fds⟩ := parent
  have mask := Signals.setMask_blocked ⟨handler, blocked, handlerFixed, blockedFixed⟩
    (Signals.blockAll ⟨handler, blocked, handlerFixed, blockedFixed⟩)
  cases fork <;> simp only [posixSpawn, Signals.blockAll, Signals.setMask] at mask ⊢ <;>
    simp only [mask]

end AtExec

end SpawnAttributes
end Process
end WamrExt
