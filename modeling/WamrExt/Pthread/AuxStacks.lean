import Mathlib.Data.Set.Lattice
import Mathlib.Order.CompletePartialOrder
import WamrExt.Lib.BlockHeap
import WamrExt.Pthread.Cleanup

/-!
# The aux stacks of app threads

The thread that spawns another one asks the runtime for the size of its own aux stack, and allocates
one in the heap of the guest, with 16 bytes more than that, so that the bottom can be aligned. The
new thread frees that block before its exit section. A spawn that fails late frees it at once.

The threads of an instance take their steps here together with the heap and the stacks
(`stackStep`). The guest allocates too, and frees what it has allocated. The runtime may give any
size for any spawn, as long as it leaves room for the 16 bytes in 32 bits (`AnswersFit`). In all
runs the aux stacks are aligned and larger than the runtime said, keep apart from each other and
from the blocks of the guest, and leave no block behind (`aux_stacks_sound`).
-/

set_option autoImplicit false

namespace WamrExt
namespace Pthread

open Transition BlockHeap

/-- The aux stack of an app thread, with the size that was asked for it, which no step reads. -/
structure AuxStack where
  appStackAddr : UInt32
  bottom : UInt32
  stackSize : UInt32
  askedSize : ℕ
  deriving DecidableEq, Repr

/-- The bytes of an aux stack. It grows from its bottom, which is its upper end, down to the
address of its block. -/
def AuxStack.bytes (stack : AuxStack) : Set ℕ :=
  Set.Ico stack.appStackAddr.toNat stack.bottom.toNat

/-- The threads of an instance with the heap of the guest, the aux stacks that have not been freed,
and the addresses that the guest has allocated itself. -/
structure StackSystem (limit : ℕ) extends System where
  heap : Heap limit
  auxStacks : ℕ → Option AuxStack := fun _ => none
  guestBlocks : List ℕ := []

/-- The steps: those of the threads, an app thread that frees its aux stack, and the guest that
allocates and frees. -/
inductive StackStep where
  | system (a : SystemStep)
  | spawn (thread : Option ℕ) (answers : ThreadSpawnAnswers) (appArg : UInt32)
  | freeStack (n : ℕ)
  | guestMalloc (a n : ℕ)
  | guestFree (a : ℕ)

/-- The size that the runtime gives for the aux stack of the caller, or the default. -/
def ThreadSpawnAnswers.callerSize (answers : ThreadSpawnAnswers) : ℕ :=
  (answers.auxStackSize.getD appThreadDefaultStackSize).toNat

/-- What `wasm_exec_env_get_aux_stack` promises: the aux stack of the caller lies in a linear memory
of 32 bits, with at least 16 bytes beside it. -/
def StackStep.AnswersFit : StackStep → Prop
  | .spawn _ answers _ => answers.callerSize + 16 < 2 ^ 32
  | _ => True

instance : ∀ a : StackStep, Decidable a.AnswersFit
  | .spawn _ _ _ => inferInstanceAs (Decidable (_ < _))
  | .system _ | .freeStack _ | .guestMalloc _ _ | .guestFree _ => isTrue trivial

namespace StackSystem

variable {limit : ℕ} (s : StackSystem limit)

/-- A thread may spawn while it is in guest code, on its aux stack. -/
def CanSpawn (thread : Option ℕ) : Prop :=
  s.InGuest thread ∧ ∀ n, thread = some n → (s.auxStacks n).isSome

instance : ∀ thread, Decidable (s.CanSpawn thread)
  | none => decidable_of_iff (s.InGuest none) (by simp [CanSpawn])
  | some n => decidable_of_iff (s.InGuest (some n) ∧ (s.auxStacks n).isSome) (by simp [CanSpawn])

/-- The block that a spawn gets is fresh, if it gets one. -/
def Answered (answers : ThreadSpawnAnswers) : Prop :=
  answers.appStackAddr = 0 ∨ s.heap.Fresh answers.appStackAddr.toNat answers.requestedSize.toNat

instance (answers : ThreadSpawnAnswers) : Decidable (s.Answered answers) :=
  inferInstanceAs (Decidable (_ ∨ _))

/-- The heap after the allocation of a spawn. -/
def allocated (answers : ThreadSpawnAnswers) : Heap limit :=
  if fresh : answers.MakesThreadInfo ∧
      s.heap.Fresh answers.appStackAddr.toNat answers.requestedSize.toNat then
    s.heap.alloc _ _ fresh.2
  else s.heap

/-- The heap after the blocks that calls free. -/
def freed (heap : Heap limit) (calls : List RuntimeCall) : Heap limit :=
  calls.foldl (fun heap call =>
    match call with
    | .moduleFree appStackAddr => heap.free appStackAddr.toNat
    | _ => heap) heap

/-- The aux stack of the thread that a spawn starts. -/
def newStack (answers : ThreadSpawnAnswers) : AuxStack where
  appStackAddr := answers.appStackAddr
  bottom := answers.appStackBottom
  stackSize := answers.alignedSize
  askedSize := answers.callerSize

/-- The state after a spawn. -/
def afterSpawn (answers : ThreadSpawnAnswers) (next : System)
    (calls : List RuntimeCall) : StackSystem limit :=
  { s with
    toSystem := next
    heap := freed (s.allocated answers) calls
    auxStacks := fun n =>
      if n ∈ startedThreads calls then some (newStack answers) else s.auxStacks n }

/-- The other steps of the threads. A thread passes its exit section after it has freed its aux
stack. -/
def Allows : SystemStep → Prop
  | .spawn _ _ _ => False
  | .exitSection n => s.auxStacks n = none
  | _ => True

instance : ∀ a, Decidable (s.Allows a)
  | .spawn _ _ _ => isFalse id
  | .exitSection _ => inferInstanceAs (Decidable (_ = _))
  | .guestEnter | .guestReturn | .threadEnd _ | .destroyBegin _ | .snapshot | .joinEnter
  | .joinWake | .joinReturn | .eraseEntry | .joinsDone | .dtorsReturn | .closed => isTrue trivial

end StackSystem

/-- One step. -/
def stackStep {limit : ℕ} : Step (StackSystem limit) StackStep
  | s, .system a =>
      if s.Allows a then (systemStep s.toSystem a).map fun next => { s with toSystem := next }
      else none
  | s, .spawn thread answers appArg =>
      if s.CanSpawn thread ∧ s.Answered answers then
        (wasiThreadSpawn s.manager answers appArg).bind fun outcome =>
          (systemStep s.toSystem (.spawn thread answers appArg)).map fun next =>
            s.afterSpawn answers next outcome.calls
      else none
  | s, .freeStack n =>
      if s.InGuest (some n) then
        (s.auxStacks n).map fun stack =>
          { s with
            heap := s.heap.free stack.appStackAddr.toNat
            auxStacks := Function.update s.auxStacks n none }
      else none
  | s, .guestMalloc a n =>
      if fresh : s.heap.Fresh a n then
        some { s with heap := s.heap.alloc a n fresh, guestBlocks := a :: s.guestBlocks }
      else none
  | s, .guestFree a =>
      if a ∈ s.guestBlocks then
        some { s with
          heap := s.heap.free a
          guestBlocks := s.guestBlocks.filter (· ≠ a) }
      else none

/-- A started instance. -/
def stackStart (pMainExecEnv : ℕ) (limit : ℕ) : StackSystem limit :=
  { systemStart pMainExecEnv with heap := .empty limit }

/-! ## Sound stacks -/

namespace StackSystem

/-- An aux stack fills an allocated block up to its bottom, which is aligned, and has at least one
byte and at most 16 bytes more than was asked. -/
structure StackOk {limit : ℕ} (s : StackSystem limit) (stack : AuxStack) : Prop where
  block : ∃ n, s.heap.blocks.lookup stack.appStackAddr.toNat = some n ∧ stack.stackSize.toNat ≤ n
  bottom : stack.bottom.toNat = stack.appStackAddr.toNat + stack.stackSize.toNat
  aligned : stack.bottom.toNat % 16 = 0
  size : stack.askedSize + 1 ≤ stack.stackSize.toNat ∧
    stack.stackSize.toNat ≤ stack.askedSize + 16
  notGuest : stack.appStackAddr.toNat ∉ s.guestBlocks

/-- The aux stacks are sound, no two threads share a block, and every block that is in use has been
allocated by the guest or is one of them. -/
structure StacksSound {limit : ℕ} (s : StackSystem limit) : Prop where
  each : ∀ n stack, s.auxStacks n = some stack → s.StackOk stack
  distinct : ∀ n m stack stack', n ≠ m → s.auxStacks n = some stack →
    s.auxStacks m = some stack' → stack.appStackAddr ≠ stack'.appStackAddr
  used : ∀ a, (s.heap.blocks.lookup a).isSome → a ∈ s.guestBlocks ∨
    ∃ n stack, s.auxStacks n = some stack ∧ stack.appStackAddr.toNat = a
  guest : ∀ a ∈ s.guestBlocks, (s.heap.blocks.lookup a).isSome
  created : ∀ n stack, s.auxStacks n = some stack → n < s.manager.unusedEnv

end StackSystem

section Sound

open StackSystem

variable {limit : ℕ} {s : StackSystem limit} {thread : Option ℕ} {answers : ThreadSpawnAnswers}

/-- The names of exec envs are used up. -/
theorem unusedEnv_le {s s' : System} {a : SystemStep} (taken : systemStep s a = some s') :
    s.manager.unusedEnv ≤ s'.manager.unusedEnv := by
  cases systemStep_cases taken with
  | @spawn thread answers appArg _ inGuest spawned =>
      obtain ⟨outcome, returned, rfl⟩ := Option.map_eq_some_iff.mp spawned
      cases wasiThreadSpawn_cases returned <;> exact Nat.le_succ _
  | _ => exact le_rfl

/-- What a spawn does to the threads. -/
theorem spawn_manager {s next : System} {appArg : UInt32} {outcome : SpawnOutcome}
    (returned : wasiThreadSpawn s.manager answers appArg = some outcome)
    (taken : systemStep s (.spawn thread answers appArg) = some next) :
    next.manager = outcome.manager := by
  obtain ⟨_, spawned⟩ := Option.ite_none_right_eq_some.mp taken
  rw [System.spawn, returned] at spawned
  cases spawned
  rfl

/-- The numbers of a spawn whose block is fresh: the stack fills its block but for what aligning
its bottom takes. -/
theorem aux_stack_numbers (fits : answers.callerSize + 16 < 2 ^ 32)
    (inside : answers.appStackAddr.toNat + answers.requestedSize.toNat ≤ limit)
    (small : limit < 2 ^ 32) :
    answers.requestedSize.toNat = answers.callerSize + 16 ∧
      answers.appStackBottom.toNat =
        answers.appStackAddr.toNat + answers.alignedSize.toNat ∧
      answers.appStackBottom.toNat % 16 = 0 ∧
      answers.callerSize + 1 ≤ answers.alignedSize.toNat ∧
      answers.alignedSize.toNat ≤ answers.callerSize + 16 := by
  have requested : answers.requestedSize.toNat = answers.callerSize + 16 := by
    rw [ThreadSpawnAnswers.requestedSize, UInt32.toNat_add]
    exact Nat.mod_eq_of_lt fits
  have bottom : answers.appStackBottom.toNat =
      (answers.appStackAddr.toNat + answers.requestedSize.toNat) / 16 * 16 := by
    have unwrapped := Nat.mod_eq_of_lt (inside.trans_lt small)
    have sixteen : (16 : UInt32).toNat = 16 := rfl
    rw [ThreadSpawnAnswers.appStackBottom, UInt32.toNat_mul, UInt32.toNat_div, UInt32.toNat_add,
      unwrapped, sixteen]
    omega
  have aligned : answers.alignedSize.toNat =
      answers.appStackBottom.toNat - answers.appStackAddr.toNat := by
    rw [ThreadSpawnAnswers.alignedSize, UInt32.toNat_sub_of_le]
    rw [UInt32.le_iff_toNat_le]
    omega
  omega

/-! ### Steps that start no thread -/

/-- An aux stack stays sound while its block stays and the guest does not allocate it. -/
theorem StackSystem.StackOk.keep {stack : AuxStack} (ok : s.StackOk stack) {s' : StackSystem limit}
    (block : s'.heap.blocks.lookup stack.appStackAddr.toNat =
      s.heap.blocks.lookup stack.appStackAddr.toNat)
    (notGuest : stack.appStackAddr.toNat ∉ s'.guestBlocks) : s'.StackOk stack where
  block := by rw [block]; exact ok.block
  bottom := ok.bottom
  aligned := ok.aligned
  size := ok.size
  notGuest := notGuest

/-- Steps that leave the blocks and the aux stacks keep them sound. -/
theorem StackSystem.StacksSound.same (sound : s.StacksSound) {s' : StackSystem limit}
    (heap : ∀ a, s'.heap.blocks.lookup a = s.heap.blocks.lookup a)
    (guest : s'.guestBlocks = s.guestBlocks)
    (auxStacks : s'.auxStacks = s.auxStacks)
    (names : s.manager.unusedEnv ≤ s'.manager.unusedEnv) : s'.StacksSound where
  each n stack known := by
    rw [auxStacks] at known
    have ok := sound.each n stack known
    exact ok.keep (heap _) (guest ▸ ok.notGuest)
  distinct := by
    rw [auxStacks]
    exact sound.distinct
  used a member := by
    rw [heap] at member
    rw [guest, auxStacks]
    exact sound.used a member
  guest a own := by
    rw [heap]
    exact sound.guest a (guest ▸ own)
  created n stack known := by
    rw [auxStacks] at known
    exact (sound.created n stack known).trans_le names

theorem update_none_eq_some {f : ℕ → Option AuxStack} {n m : ℕ} {stack : AuxStack} :
    Function.update f n none m = some stack ↔ m ≠ n ∧ f m = some stack := by
  by_cases same : m = n
  · simp [same]
  · simp [same, Function.update_of_ne]

/-- A block is freed by its thread, and is that of no other one. -/
theorem StackSystem.StacksSound.freeStack (sound : s.StacksSound) {n : ℕ} {stack : AuxStack}
    (own : s.auxStacks n = some stack) :
    StacksSound { s with
      heap := s.heap.free stack.appStackAddr.toNat
      auxStacks := Function.update s.auxStacks n none } where
  each m other known := by
    obtain ⟨ne, found⟩ := update_none_eq_some.mp known
    have ok := sound.each m other found
    have apart := sound.distinct m n other stack ne found own
    exact ok.keep (Heap.free_of_ne _ fun same => apart (UInt32.toNat_inj.mp same)) ok.notGuest
  distinct m k stack stack' ne known known' :=
    sound.distinct m k stack stack' ne (update_none_eq_some.mp known).2
      (update_none_eq_some.mp known').2
  used a member := by
    by_cases same : a = stack.appStackAddr.toNat
    · subst same
      rw [Heap.free_self] at member
      cases member
    · rw [Heap.free_of_ne _ same] at member
      rcases sound.used a member with guest | ⟨m, other, known, addr⟩
      · exact .inl guest
      · refine .inr ⟨m, other, update_none_eq_some.mpr ⟨?_, known⟩, addr⟩
        rintro rfl
        rw [own] at known
        cases known
        exact same addr.symm
  guest a guest := by
    have ne : a ≠ stack.appStackAddr.toNat := fun same => (sound.each n stack own).notGuest
      (same ▸ guest)
    rw [Heap.free_of_ne _ ne]
    exact sound.guest a guest
  created m other known := sound.created m other (update_none_eq_some.mp known).2

theorem StackSystem.StacksSound.guestMalloc (sound : s.StacksSound) {a n : ℕ}
    (fresh : s.heap.Fresh a n) :
    StacksSound { s with heap := s.heap.alloc a n fresh, guestBlocks := a :: s.guestBlocks } where
  each m stack known := by
    have ok := sound.each m stack known
    have ne : stack.appStackAddr.toNat ≠ a := by
      rintro rfl
      obtain ⟨len, found, _⟩ := ok.block
      exact fresh.unused (AList.lookup_isSome.mp (Option.isSome_of_eq_some found))
    have notGuest := List.mem_cons.not.mpr (not_or.mpr ⟨ne, ok.notGuest⟩)
    exact ok.keep (Heap.alloc_of_ne _ fresh ne) notGuest
  distinct := sound.distinct
  used b member := by
    by_cases same : b = a
    · exact .inl (same ▸ List.mem_cons_self)
    · rw [Heap.alloc_of_ne _ fresh same] at member
      exact (sound.used b member).imp_left (List.mem_cons_of_mem a)
  guest b member := by
    by_cases same : b = a
    · rw [same, Heap.alloc_self]
      rfl
    · rw [Heap.alloc_of_ne _ fresh same]
      exact sound.guest b ((List.mem_cons.mp member).resolve_left same)
  created := sound.created

theorem StackSystem.StacksSound.guestFree (sound : s.StacksSound) {a : ℕ}
    (own : a ∈ s.guestBlocks) :
    StacksSound { s with
      heap := s.heap.free a
      guestBlocks := s.guestBlocks.filter (· ≠ a) } where
  each m stack known := by
    have ok := sound.each m stack known
    have ne : stack.appStackAddr.toNat ≠ a := fun same => ok.notGuest (same ▸ own)
    exact ok.keep (Heap.free_of_ne _ ne) fun member =>
      ok.notGuest (List.mem_of_mem_filter member)
  distinct := sound.distinct
  used b member := by
    have ne : b ≠ a := by
      rintro rfl
      rw [Heap.free_self] at member
      cases member
    rw [Heap.free_of_ne _ ne] at member
    refine (sound.used b member).imp_left fun guest => List.mem_filter.mpr ⟨guest, ?_⟩
    exact decide_eq_true ne
  guest b member := by
    obtain ⟨guest, ne⟩ := List.mem_filter.mp member
    rw [Heap.free_of_ne _ (of_decide_eq_true ne)]
    exact sound.guest b guest
  created := sound.created

/-! ### Spawns -/

theorem freed_of_none {heap : Heap limit} {calls : List RuntimeCall}
    (none : ∀ call ∈ calls, ∀ a, call ≠ .moduleFree a) : freed heap calls = heap := by
  induction calls with
  | nil => rfl
  | cons call calls ih =>
      obtain ⟨first, rest⟩ := List.forall_mem_cons.mp none
      cases call with
      | moduleFree a => exact absurd rfl (first a)
      | _ => exact ih rest

/-- An early failure frees no block and starts no thread. -/
theorem early_calls (instantiated : Bool) (env : ℕ) (heap : Heap limit) :
    let calls : List RuntimeCall :=
      if instantiated = true then [.instantiate env, .deinstantiate env] else []
    freed heap calls = heap ∧ startedThreads calls = [] := by
  cases instantiated <;> exact ⟨rfl, rfl⟩

theorem freed_append {heap : Heap limit} (calls calls' : List RuntimeCall) :
    freed heap (calls ++ calls') = freed (freed heap calls) calls' := List.foldl_append

/-- The deleters of a thread info free no block. -/
theorem eraseReleases_ne (manager : InstancePthreadManager) (handleID : UInt32) :
    ∀ call ∈ manager.eraseReleases handleID, ∀ a, call ≠ .moduleFree a := by
  rintro _ member a rfl
  rw [InstancePthreadManager.eraseReleases] at member
  cases stored : manager.getThreadInfo handleID with
  | none =>
      rw [stored] at member
      cases member
  | some threadInfo =>
      simp only [stored, Option.map_some, Option.getD_some, ExecEnvThreadInfo.release] at member
      split at member <;> simp at member

/-- A late failure frees the block that it has allocated. -/
theorem freed_lateCalls (manager : InstancePthreadManager) (heap : Heap limit) :
    freed heap (lateCalls manager answers) =
      if answers.appStackAddr ≠ 0 then heap.free answers.appStackAddr.toNat else heap := by
  have made : ∀ heap : Heap limit,
      freed heap [.instantiate manager.unusedEnv, .createExecEnv manager.unusedEnv] = heap :=
    fun _ => rfl
  have destroyed : ∀ heap : Heap limit,
      freed heap [.deinstantiate manager.unusedEnv, .destroyExecEnv manager.unusedEnv] = heap :=
    fun _ => rfl
  rw [lateCalls, freed_append, freed_append, freed_append, freed_append, made,
    freed_of_none (eraseReleases_ne _ _), destroyed, destroyed]
  split <;> rfl

/-- A spawn that fails leaves the blocks as they were. -/
theorem failed_spawn_heap (answered : s.Answered answers) (late : answers.FailsLate)
    (manager : InstancePthreadManager) (a : ℕ) :
    (freed (s.allocated answers) (lateCalls manager answers)).blocks.lookup a =
      s.heap.blocks.lookup a := by
  rw [freed_lateCalls, allocated]
  split
  next room =>
    have fresh := answered.resolve_left room
    rw [dif_pos ⟨late.1, fresh⟩]
    by_cases same : a = answers.appStackAddr.toNat
    · rw [same, Heap.free_self]
      exact (AList.lookup_eq_none.mpr fresh.unused).symm
    · rw [Heap.free_of_ne _ same, Heap.alloc_of_ne _ fresh same]
  next full =>
    have null : answers.appStackAddr = 0 := not_not.mp full
    rw [dif_neg]
    rintro ⟨_, fresh⟩
    have positive := fresh.inside.1
    rw [null] at positive
    exact absurd positive (lt_irrefl 0)

/-- A new thread has a sound aux stack. -/
theorem StackSystem.StacksSound.started (sound : s.StacksSound) (answered : s.Answered answers)
    (small : limit < 2 ^ 32) (fits : answers.callerSize + 16 < 2 ^ 32)
    (made : answers.MakesThreadInfo)
    (stack : answers.SetsUpStack) {next : System}
    (names : next.manager.unusedEnv = s.manager.unusedEnv + 1) {heap : Heap limit}
    (allocated : heap = s.allocated answers) :
    StacksSound { s with
      toSystem := next
      heap := heap
      auxStacks := Function.update s.auxStacks s.manager.unusedEnv
        (some (newStack answers)) } := by
  have fresh := answered.resolve_left stack.1
  obtain ⟨requested, bottom, aligned, more, most⟩ :=
    aux_stack_numbers fits fresh.inside.2 small
  rw [StackSystem.allocated, dif_pos ⟨made, fresh⟩] at allocated
  subst allocated
  have others : ∀ n old, s.auxStacks n = some old →
      old.appStackAddr.toNat ≠ answers.appStackAddr.toNat := by
    intro n old known same
    obtain ⟨len, found, _⟩ := (sound.each n old known).block
    rw [same] at found
    exact fresh.unused (AList.lookup_isSome.mp (Option.isSome_of_eq_some found))
  have newest : ∀ n old, Function.update s.auxStacks s.manager.unusedEnv
      (some (newStack answers)) n = some old →
        (n = s.manager.unusedEnv ∧ old = newStack answers) ∨
          (n ≠ s.manager.unusedEnv ∧ s.auxStacks n = some old) := by
    intro n old known
    by_cases same : n = s.manager.unusedEnv
    · subst same
      rw [Function.update_self] at known
      exact .inl ⟨rfl, (Option.some.inj known).symm⟩
    · rw [Function.update_of_ne same] at known
      exact .inr ⟨same, known⟩
  constructor
  · intro n old known
    rcases newest n old known with ⟨rfl, rfl⟩ | ⟨_, older⟩
    · refine ⟨⟨_, Heap.alloc_self _ fresh, ?_⟩, bottom, aligned, ⟨more, most⟩, fun guest => ?_⟩
      · rw [requested]
        exact most
      · exact fresh.unused (AList.lookup_isSome.mp (sound.guest _ guest))
    · have ok := sound.each n old older
      exact ok.keep (Heap.alloc_of_ne _ fresh (others n old older)) ok.notGuest
  · intro n m stack stack' ne known known' same
    rcases newest n stack known with ⟨rfl, rfl⟩ | ⟨_, older⟩
    · rcases newest m stack' known' with ⟨rfl, rfl⟩ | ⟨_, older'⟩
      · exact ne rfl
      · exact others m stack' older' (congrArg UInt32.toNat same.symm)
    · rcases newest m stack' known' with ⟨rfl, rfl⟩ | ⟨_, older'⟩
      · exact others n stack older (congrArg UInt32.toNat same)
      · exact sound.distinct n m stack stack' ne older older' same
  · intro a member
    by_cases same : a = answers.appStackAddr.toNat
    · exact .inr ⟨_, _, Function.update_self .., same.symm⟩
    · rw [Heap.alloc_of_ne _ fresh same] at member
      refine (sound.used a member).imp_right ?_
      rintro ⟨n, old, known, addr⟩
      exact ⟨n, old, (Function.update_of_ne (sound.created n old known).ne _ _).trans known, addr⟩
  · intro a guest
    have live := sound.guest a guest
    have ne : a ≠ answers.appStackAddr.toNat := by
      rintro rfl
      exact fresh.unused (AList.lookup_isSome.mp live)
    rwa [Heap.alloc_of_ne _ fresh ne]
  · intro n old known
    rw [names]
    rcases newest n old known with ⟨rfl, _⟩ | ⟨_, older⟩
    · exact Nat.lt_succ_self _
    · exact (sound.created n old older).trans (Nat.lt_succ_self _)

/-- Every step keeps the aux stacks sound. -/
theorem StackSystem.StacksSound.step (sound : s.StacksSound) (small : limit < 2 ^ 32)
    {a : StackStep} (fits : a.AnswersFit) {s' : StackSystem limit}
    (taken : stackStep s a = some s') : s'.StacksSound := by
  cases a with
  | system a =>
      obtain ⟨_, later⟩ := Option.ite_none_right_eq_some.mp taken
      obtain ⟨next, moved, rfl⟩ := Option.map_eq_some_iff.mp later
      exact sound.same (fun _ => rfl) rfl rfl (unusedEnv_le moved)
  | freeStack n =>
      obtain ⟨_, later⟩ := Option.ite_none_right_eq_some.mp taken
      obtain ⟨stack, own, rfl⟩ := Option.map_eq_some_iff.mp later
      exact sound.freeStack own
  | guestMalloc a n =>
      obtain ⟨fresh, found⟩ := Option.dite_none_right_eq_some.mp taken
      cases found
      exact sound.guestMalloc fresh
  | guestFree a =>
      obtain ⟨own, found⟩ := Option.ite_none_right_eq_some.mp taken
      cases found
      exact sound.guestFree own
  | spawn thread answers appArg =>
      obtain ⟨⟨_, answered⟩, later⟩ := Option.ite_none_right_eq_some.mp taken
      obtain ⟨outcome, returned, later⟩ := Option.bind_eq_some_iff.mp later
      obtain ⟨next, moved, rfl⟩ := Option.map_eq_some_iff.mp later
      have manager := spawn_manager returned moved
      cases wasiThreadSpawn_cases returned with
      | early notMade =>
          have unallocated : s.allocated answers = s.heap :=
            dif_neg fun fresh => notMade fresh.1
          obtain ⟨kept, noThread⟩ :=
            early_calls answers.instantiated s.manager.unusedEnv s.heap
          refine sound.same (fun a => ?_) rfl ?_ (unusedEnv_le moved)
          · simp only [afterSpawn, unallocated, kept]
          · funext n
            simp only [afterSpawn, noThread]
            rfl
      | late late =>
          refine sound.same (failed_spawn_heap answered late s.manager) rfl ?_
            (unusedEnv_le moved)
          funext n
          simp [afterSpawn, startedThreads_lateCalls]
      | @started given starts found =>
          have names : next.manager.unusedEnv = s.manager.unusedEnv + 1 := by
            rw [manager]
            rfl
          have same := sound.started answered small fits starts.1 starts.2 names
            (rfl : s.allocated answers = s.allocated answers)
          have update : (fun n => if n ∈ startedThreads
              [.instantiate s.manager.unusedEnv, .createExecEnv s.manager.unusedEnv,
                .startHostThread s.manager.unusedEnv (min 0x7fffffff given.1) appArg] then
                some (newStack answers) else s.auxStacks n) =
              Function.update s.auxStacks s.manager.unusedEnv
                (some (newStack answers)) := by
            funext n
            simp [startedThreads, Function.update_apply]
          rw [afterSpawn, update]
          exact same

theorem stacksSound_start (pMainExecEnv limit : ℕ) :
    (stackStart pMainExecEnv limit).StacksSound := by
  constructor
  · exact nofun
  · exact nofun
  · intro a member
    cases (AList.lookup_empty a) ▸ member
  · exact nofun
  · exact nofun

/-- The aux stacks overlap neither each other nor what the guest has allocated. -/
structure StackSystem.Separated (s : StackSystem limit) : Prop where
  threads : ∀ n m stack stack', n ≠ m → s.auxStacks n = some stack →
    s.auxStacks m = some stack' → Disjoint stack.bytes stack'.bytes
  guest : ∀ n stack a len, s.auxStacks n = some stack → a ∈ s.guestBlocks →
    s.heap.blocks.lookup a = some len → Disjoint stack.bytes (Set.Ico a (a + len))

/-- An aux stack overlaps no other block. -/
theorem StackSystem.StackOk.disjoint {stack : AuxStack} (ok : s.StackOk stack) {a len n : ℕ}
    (found : s.heap.blocks.lookup a = some len) (ne : stack.appStackAddr.toNat ≠ a)
    (short : n ≤ a + len) : Disjoint stack.bytes (Set.Ico a n) := by
  obtain ⟨own, block, fits⟩ := ok.block
  have bottom := ok.bottom
  rw [AuxStack.bytes, Set.disjoint_left]
  rintro x ⟨low, high⟩ ⟨low', high'⟩
  rcases s.heap.apart _ _ _ _ ne block found with before | after <;> omega

theorem StackSystem.StacksSound.separated (sound : s.StacksSound) : s.Separated where
  threads n m stack stack' ne known known' := by
    have ok' := sound.each m stack' known'
    obtain ⟨len, block, fits⟩ := ok'.block
    have bottom := ok'.bottom
    refine (sound.each n stack known).disjoint block (fun same => ?_) (by omega)
    exact sound.distinct n m stack stack' ne known known' (UInt32.toNat_inj.mp same)
  guest n stack a len known guest found := by
    have ok := sound.each n stack known
    exact ok.disjoint found (fun same => ok.notGuest (same ▸ guest)) le_rfl

/-- **The aux stacks of a run.** In every run of the threads of an instance, with failing and
nested spawns, the aux stacks that are in use are aligned and apart, and each is larger by 1 to 16
bytes than the runtime said that of its spawner is. Every block that a spawn has allocated belongs
to a thread that has not freed it yet. -/
theorem aux_stacks_sound {pMainExecEnv limit : ℕ} (small : limit < 2 ^ 32)
    {steps : List StackStep} (fits : ∀ a ∈ steps, a.AnswersFit) {s : StackSystem limit}
    (reached : run stackStep (stackStart pMainExecEnv limit) steps = some s) :
    s.StacksSound ∧ s.Separated := by
  have inside : Meets stackStep (fun _ a => a.AnswersFit) (stackStart pMainExecEnv limit) steps :=
    .of_forall (fun a member _ => fits a member) _
  have sound : s.StacksSound :=
    run_invariant (fun sound fits taken => StacksSound.step sound small fits taken)
      (stacksSound_start pMainExecEnv limit) inside reached
  exact ⟨sound, sound.separated⟩

/-- A spawn of a caller with an aux stack of a size, which gets a block at an address. -/
def stackAnswers (caller appStackAddr : UInt32) (set : Bool) : ThreadSpawnAnswers where
  instantiated := true
  entryFound := true
  execEnvCreated := true
  auxStackSize := some caller
  moduleMalloc _ := appStackAddr
  setAuxStack _ _ := set

/-- A thread spawns a thread and ends, while the guest allocates and a spawn fails late. The runtime
gives the size of the aux stack of the module each time. -/
def nestedSpawns : List StackStep :=
  [.system .guestEnter, .spawn none (stackAnswers 8192 4104 true) 0, .guestMalloc 1024 100,
    .spawn (some 1) (stackAnswers 8192 16384 true) 0,
    .spawn none (stackAnswers 8192 32768 false) 0, .freeStack 1]

/-- The aux stack of the second thread is the only one that is left. -/
theorem nested_aux_stacks : ∃ s : StackSystem 65536,
    s.auxStacks 2 = some ⟨16384, 24592, 8208, 8192⟩ ∧ s.auxStacks 1 = none ∧
      s.StacksSound ∧ s.Separated := by
  obtain ⟨s, reached⟩ : ∃ s : StackSystem 65536,
      run stackStep (stackStart 0 65536) nestedSpawns = some s := ⟨_, rfl⟩
  refine ⟨s, ?_, ?_, aux_stacks_sound (by decide) (by decide) reached⟩
  · cases reached
    rfl
  · cases reached
    rfl

end Sound

end Pthread
end WamrExt
