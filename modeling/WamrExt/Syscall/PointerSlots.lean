import WamrExt.Syscall.Dispatch

/-!
# Native pointers in the argument array

The translation loop leaves the native pointers in the argument array, which is guest
memory. Two consequences are settled here.

**Between check and use.** A handler gets the pointers that were checked exactly when the
window between `Invoke` and `DoSyscall` leaves the pointer slots as they were
(`handler_pointers_checked_iff`).

**After the call.** The guest memory after a call is the same for every place the memory
could be mapped at exactly when the handler overwrites every byte of native pointer the
loop left in guest memory (`guest_memory_hides_mapping_iff`).

The loop is read through `Translates`, which has one case for each way a slot is passed.
-/

set_option autoImplicit false

namespace WamrExt
namespace Syscall

open ByteMemory Wamr

/-! ## The translation loop -/

section Loop

variable {L : LinearMemory} {argv : ℕ}

theorem slot_succ (argv i : ℕ) : slot argv (i + 1) = slot argv i + 16 := by
  simp only [slot, argSize]
  omega

theorem slot_le {i j : ℕ} (le : i ≤ j) : slot argv i ≤ slot argv j := by
  simp only [slot, argSize]
  omega

/-- The ways the loop passes a slot: it stops at an offset it refuses, it leaves a number
alone, and it replaces an accepted offset by the native pointer. -/
inductive Translates (L : LinearMemory) (argv : ℕ) :
    List ArgChar → ℕ → Memory → Translation → Prop where
  | done (i : ℕ) (mem : Memory) : Translates L argv [] i mem ⟨mem, [], true⟩
  | refused {c : ArgChar} (rest : List ArgChar) {i : ℕ} {mem : Memory} :
      c.translated = true → Translates L argv (c :: rest) i mem ⟨mem, [], false⟩
  | number {c : ArgChar} {rest : List ArgChar} {i : ℕ} {mem : Memory} {t : Translation} :
      c.translated = false → Translates L argv rest (i + 1) mem t →
        Translates L argv (c :: rest) i mem t
  | pointer {c : ArgChar} {rest : List ArgChar} {i : ℕ} {mem : Memory} {t : Translation} :
      c.translated = true → (appPointer mem argv i).toNat < L.memoryDataSize →
        Translates L argv rest (i + 1)
          (store mem (slot argv i) 8 (L.native (appPointer mem argv i).toNat)) t →
        Translates L argv (c :: rest) i mem
          { t with stored := (i, appPointer mem argv i) :: t.stored }

/-- The offset in a slot is translated: it lies in the memory, and a string argument ends
inside it. -/
def Accepts (L : LinearMemory) (c : ArgChar) (mem : Memory) (off : UInt32) : Prop :=
  off.toNat < L.memoryDataSize ∧ (c = .str → L.validateAppStrAddr mem off = true)

instance (L : LinearMemory) (c : ArgChar) (mem : Memory) (off : UInt32) :
    Decidable (Accepts L c mem off) :=
  inferInstanceAs (Decidable (_ ∧ _))

/-- One step of the loop at a slot that holds a number. -/
theorem translate_number {c : ArgChar} (number : c.translated = false) (rest : List ArgChar)
    (i : ℕ) (mem : Memory) :
    translate L argv (c :: rest) i mem = translate L argv rest (i + 1) mem := by
  rw [translate, number]
  rfl

/-- One step of the loop at a slot that holds an offset. -/
theorem translate_pointer {c : ArgChar} (pointer : c.translated = true) (rest : List ArgChar)
    (i : ℕ) (mem : Memory) :
    translate L argv (c :: rest) i mem =
      if Accepts L c mem (appPointer mem argv i) then
        let later := translate L argv rest (i + 1)
          (store mem (slot argv i) 8 (L.native (appPointer mem argv i).toNat))
        { later with stored := (i, appPointer mem argv i) :: later.stored }
      else ⟨mem, [], false⟩ := by
  rw [translate, if_pos pointer]
  cases found : L.addrAppToNative (appPointer mem argv i) with
  | none =>
      have outside := L.addrAppToNative_eq_none.mp found
      rw [if_neg fun accepted => absurd accepted.1 (Nat.not_lt.mpr outside)]
  | some p =>
      obtain ⟨bound, rfl⟩ := L.addrAppToNative_eq_some.mp found
      dsimp only
      split
      next refused =>
        rw [if_neg fun accepted => by simpa [refused.2] using accepted.2 refused.1]
      next passed =>
        rw [if_pos ⟨bound, fun isStr => by simpa [isStr] using passed⟩]

theorem translate_translates (L : LinearMemory) (argv : ℕ) (sig : List ArgChar) (i : ℕ)
    (mem : Memory) : Translates L argv sig i mem (translate L argv sig i mem) := by
  induction sig generalizing i mem with
  | nil => exact .done i mem
  | cons c rest ih =>
      cases translated : c.translated with
      | false =>
          rw [translate_number translated]
          exact .number translated (ih _ _)
      | true =>
          rw [translate_pointer translated]
          split
          next accepted => exact .pointer translated accepted.1 (ih _ _)
          next => exact .refused rest translated

namespace Translates

variable {sig : List ArgChar} {i : ℕ} {mem : Memory} {t : Translation}

/-- The slots the loop fills are slots it walked over. -/
theorem stored_ge (h : Translates L argv sig i mem t) {p : ℕ × UInt32} (stored : p ∈ t.stored) :
    i ≤ p.1 := by
  induction h with
  | done => cases stored
  | refused => cases stored
  | number _ _ ih => exact Nat.le_of_succ_le (ih stored)
  | pointer _ _ _ ih =>
      rcases List.mem_cons.mp stored with rfl | later
      · exact le_rfl
      · exact Nat.le_of_succ_le (ih later)

/-- A translated offset lies inside the linear memory. -/
theorem stored_lt (h : Translates L argv sig i mem t) {p : ℕ × UInt32} (stored : p ∈ t.stored) :
    p.2.toNat < L.memoryDataSize := by
  induction h with
  | done => cases stored
  | refused => cases stored
  | number _ _ ih => exact ih stored
  | pointer _ bound _ ih =>
      rcases List.mem_cons.mp stored with rfl | later
      · exact bound
      · exact ih later

/-- Outside the slots it fills the loop leaves the memory unchanged. -/
theorem mem_out (h : Translates L argv sig i mem t) {a : ℕ}
    (out : ∀ p ∈ t.stored, a < slot argv p.1 ∨ slot argv p.1 + 8 ≤ a) : t.mem a = mem a := by
  induction h with
  | done => rfl
  | refused => rfl
  | number _ _ ih => exact ih out
  | pointer _ _ _ ih =>
      have here := out _ List.mem_cons_self
      exact (ih fun p later => out p (List.mem_cons_of_mem _ later)).trans (store_out here)

/-- Below the slot it starts at the loop leaves the memory unchanged. -/
theorem mem_below (h : Translates L argv sig i mem t) {a : ℕ} (below : a < slot argv i) :
    t.mem a = mem a :=
  h.mem_out fun _ stored => .inl (lt_of_lt_of_le below (slot_le (h.stored_ge stored)))

/-- **A slot the loop filled holds the native pointer of the offset that was there.** -/
theorem mem_in (h : Translates L argv sig i mem t) {p : ℕ × UInt32} (stored : p ∈ t.stored)
    {k : ℕ} (byte : k < 8) :
    t.mem (slot argv p.1 + k) = byteAt (L.native p.2.toNat) k := by
  induction h with
  | done => cases stored
  | refused => cases stored
  | number _ _ ih => exact ih stored
  | @pointer c rest i mem t _ _ later ih =>
      rcases List.mem_cons.mp stored with rfl | inner
      · -- the later slots start above this one
        have below : slot argv i + k < slot argv (i + 1) := by
          rw [slot_succ]
          omega
        apply (later.mem_below below).trans
        rw [store_in (by omega) (by omega), Nat.add_sub_cancel_left]
      · exact ih inner

/-- A filled slot reads back as the native pointer. -/
theorem nativePointer_eq (h : Translates L argv sig i mem t) {p : ℕ × UInt32}
    (stored : p ∈ t.stored) : nativePointer t.mem argv p.1 = L.native p.2.toNat := by
  rw [nativePointer, load_of_bytes fun k byte => h.mem_in stored byte]
  exact Nat.mod_eq_of_lt (L.native_lt (h.stored_lt stored))

end Translates

/-- The slots of the pointer characters of a signature, from slot `i` on. -/
def pointerSlots : List ArgChar → ℕ → List ℕ
  | [], _ => []
  | c :: rest, i =>
      if c.translated then i :: pointerSlots rest (i + 1) else pointerSlots rest (i + 1)

/-- A loop that reaches the end has filled every pointer slot. -/
theorem Translates.complete_slots {sig : List ArgChar} {i : ℕ} {mem : Memory} {t : Translation}
    (h : Translates L argv sig i mem t) (complete : t.complete = true) :
    t.stored.map Prod.fst = pointerSlots sig i := by
  induction h with
  | done => rfl
  | refused => cases complete
  | number isNumber _ ih =>
      rw [pointerSlots, isNumber]
      exact ih complete
  | pointer isPointer _ _ ih => rw [pointerSlots, if_pos isPointer, List.map_cons, ih complete]

end Loop

/-! ## Between check and use -/

/-- The slots every class reads a pointer from are the pointer slots of its signature. -/
theorem pointerArgs_doSyscall (cls : ExtSyscall) (mem : Memory) (argv : ℕ) :
    pointerArgs (cls.doSyscall mem argv) =
      (pointerSlots cls.argSig 0).map (nativePointer mem argv) := by
  cases cls <;> rfl

/-- The native addresses `Invoke` computed and checked. -/
def checkedPointers (L : LinearMemory) (t : Translation) : List ℕ :=
  t.stored.map fun p => L.native p.2.toNat

/-- The arguments the handler is called with, when `Invoke` gets as far as calling it. -/
def handlerArgs (L : LinearMemory) (cls : ExtSyscall) (argc : UInt32) (argv : ℕ)
    (window : Memory → Memory) (mem : Memory) : Option (List Arg) :=
  let t := translate L argv cls.argSig 0 mem
  if cls.argSig.length ≤ argc.toNat ∧ t.complete = true then
    some (cls.doSyscall (window t.mem) argv)
  else none

/-- Two memories hold the same native pointers in the pointer slots of a class. -/
def SamePointerSlots (cls : ExtSyscall) (argv : ℕ) (mem other : Memory) : Prop :=
  ∀ i ∈ pointerSlots cls.argSig 0, ∀ k < 8, mem (slot argv i + k) = other (slot argv i + k)

/-- `Invoke` calls the handler with `handlerArgs`, and only then. -/
theorem invoke_eq_handler {L : LinearMemory} {cls : ExtSyscall} {argc : UInt32} {argv : ℕ}
    {window : Memory → Memory} {mem : Memory} {args : List Arg}
    (called : handlerArgs L cls argc argv window mem = some args) (handler : Handler) :
    invoke L cls argc argv window handler mem =
      handler args (window (translate L argv cls.argSig 0 mem).mem) := by
  simp only [handlerArgs, Option.ite_none_right_eq_some, Option.some.injEq] at called
  obtain ⟨⟨enough, complete⟩, rfl⟩ := called
  rw [invoke, if_neg (Nat.not_lt.mpr enough), if_pos complete]

theorem pointerArgs_eq_iff (cls : ExtSyscall) (argv : ℕ) (mem other : Memory) :
    pointerArgs (cls.doSyscall mem argv) = pointerArgs (cls.doSyscall other argv) ↔
      SamePointerSlots cls argv mem other := by
  rw [pointerArgs_doSyscall, pointerArgs_doSyscall, List.map_inj_left]
  exact forall₂_congr fun i _ => load_eq_load_iff

/-- Without a window the handler gets the checked pointers. -/
theorem checkedPointers_eq {L : LinearMemory} {cls : ExtSyscall} {argv : ℕ} {mem : Memory}
    (complete : (translate L argv cls.argSig 0 mem).complete = true) :
    checkedPointers L (translate L argv cls.argSig 0 mem) =
      pointerArgs (cls.doSyscall (translate L argv cls.argSig 0 mem).mem argv) := by
  have walk := translate_translates L argv cls.argSig 0 mem
  rw [pointerArgs_doSyscall, ← walk.complete_slots complete, List.map_map, checkedPointers]
  exact List.map_congr_left fun p stored => (walk.nativePointer_eq stored).symm

/-- A checked pointer points into the linear memory. -/
theorem checkedPointers_inside {L : LinearMemory} {argv : ℕ} {sig : List ArgChar} {i : ℕ}
    {mem : Memory} {p : ℕ} (checked : p ∈ checkedPointers L (translate L argv sig i mem)) :
    L.memoryData ≤ p ∧ p < L.memoryData + L.memoryDataSize := by
  obtain ⟨q, stored, rfl⟩ := List.mem_map.mp checked
  have bound := (translate_translates L argv sig i mem).stored_lt stored
  exact ⟨Nat.le_add_right _ _, Nat.add_lt_add_left bound _⟩

/-- **The handler gets the checked pointers exactly when the window leaves the pointer
slots alone.** The pointers it gets after two windows are the same exactly when the windows
leave the same bytes in the pointer slots. The checked pointers point into the linear
memory. -/
theorem handler_pointers_checked_iff (L : LinearMemory) (cls : ExtSyscall) (argc : UInt32)
    (argv : ℕ) (mem : Memory) (window window' : Memory → Memory) (args args' : List Arg)
    (called : handlerArgs L cls argc argv window mem = some args)
    (called' : handlerArgs L cls argc argv window' mem = some args') :
    let t := translate L argv cls.argSig 0 mem
    (pointerArgs args = checkedPointers L t ↔
        SamePointerSlots cls argv (window t.mem) t.mem) ∧
      (pointerArgs args = pointerArgs args' ↔
        SamePointerSlots cls argv (window t.mem) (window' t.mem)) ∧
      ∀ p ∈ checkedPointers L t, L.memoryData ≤ p ∧ p < L.memoryData + L.memoryDataSize := by
  simp only [handlerArgs, Option.ite_none_right_eq_some, Option.some.injEq] at called called'
  obtain ⟨⟨_, complete⟩, rfl⟩ := called
  obtain ⟨_, rfl⟩ := called'
  refine ⟨?_, pointerArgs_eq_iff cls argv _ _, fun p => checkedPointers_inside⟩
  rw [checkedPointers_eq complete]
  exact pointerArgs_eq_iff cls argv _ _

/-- A call in which another thread of the guest writes the address `0xdeadbeef` over the
translated pointer: the handler of a `i*` syscall gets it, and it is not a checked address. -/
theorem swapped_pointer_reaches_handler :
    let L := LinearMemory.mapped 4096 64 (by decide) (by decide) (by decide)
    let window := fun mem => store mem (slot 16 1) 8 0xdeadbeef
    let mem : Memory := fun _ => 0
    handlerArgs L .U32_P 2 16 window mem = some [.u32 0, .pointer 0xdeadbeef] ∧
      checkedPointers L (translate L 16 ExtSyscall.U32_P.argSig 0 mem) = [4096] ∧
      ¬ 0xdeadbeef < L.memoryData + L.memoryDataSize := by
  decide

/-- The same two calls, without and with the write, under `handler_pointers_checked_iff`. -/
theorem swapped_pointer_changes_slots :
    let L := LinearMemory.mapped 4096 64 (by decide) (by decide) (by decide)
    let window := fun mem => store mem (slot 16 1) 8 0xdeadbeef
    let t := translate L 16 ExtSyscall.U32_P.argSig 0 fun _ => 0
    (pointerArgs [.u32 0, .pointer 4096] = checkedPointers L t ↔
        SamePointerSlots .U32_P 16 (id t.mem) t.mem) ∧
      (pointerArgs [.u32 0, .pointer 4096] = pointerArgs [.u32 0, .pointer 0xdeadbeef] ↔
        SamePointerSlots .U32_P 16 (id t.mem) (window t.mem)) ∧
      ∀ p ∈ checkedPointers L t, L.memoryData ≤ p ∧ p < L.memoryData + L.memoryDataSize :=
  handler_pointers_checked_iff
    (LinearMemory.mapped 4096 64 (by decide) (by decide) (by decide)) .U32_P 2 16 (fun _ => 0)
    id (fun mem => store mem (slot 16 1) 8 0xdeadbeef) [.u32 0, .pointer 4096]
    [.u32 0, .pointer 0xdeadbeef] (by decide) (by decide)

/-! ## After the call -/

/-- The writes of a handler to guest memory, in order. -/
def applyWrites : List (ℕ × UInt8) → Memory → Memory
  | [], mem => mem
  | (a, byte) :: rest, mem => applyWrites rest (Function.update mem a byte)

theorem applyWrites_out {writes : List (ℕ × UInt8)} {a : ℕ} (out : a ∉ writes.map Prod.fst)
    (mem : Memory) : applyWrites writes mem a = mem a := by
  induction writes generalizing mem with
  | nil => rfl
  | cons w rest ih =>
      simp only [List.map_cons, List.mem_cons, not_or] at out
      rw [applyWrites, ih out.2, Function.update_of_ne out.1]

/-- A byte that the handler writes does not depend on what was there. -/
theorem applyWrites_in {writes : List (ℕ × UInt8)} {a : ℕ} (written : a ∈ writes.map Prod.fst)
    (mem other : Memory) : applyWrites writes mem a = applyWrites writes other a := by
  induction writes generalizing mem other with
  | nil => cases written
  | cons w rest ih =>
      rw [applyWrites, applyWrites]
      by_cases later : a ∈ rest.map Prod.fst
      · exact ih later _ _
      · have here : a = w.1 := by simpa [later] using written
        rw [applyWrites_out later, applyWrites_out later, here, Function.update_self,
          Function.update_self]

/-- The translation of a call, if the call gets as far as the loop. -/
def translationOf (L : LinearMemory) (syscallID argc : UInt32) (argv : ℕ) (mem : Memory) :
    Option Translation :=
  if 0 < argc ∧ (L.native argv = 0 ∨
      L.validateNativeAddr (L.native argv) (UInt32.ofNat (argSize * argc.toNat)) = false) then
    none
  else
    (extSyscallTable.lookup syscallID).bind fun cls =>
      if argc.toNat < cls.argSig.length then none else some (translate L argv cls.argSig 0 mem)

/-- The memory after a call whose handler makes the given writes. -/
def memoryAfter (L : LinearMemory) (syscallID argc : UInt32) (argv : ℕ) (ret : Int)
    (writes : List (ℕ × UInt8)) (mem : Memory) : Memory :=
  (wasiExtSyscall L syscallID argc argv id (fun _ _ mem => (ret, applyWrites writes mem)) mem).2

theorem memoryAfter_eq (L : LinearMemory) (syscallID argc : UInt32) (argv : ℕ) (ret : Int)
    (writes : List (ℕ × UInt8)) (mem : Memory) :
    memoryAfter L syscallID argc argv ret writes mem =
      match translationOf L syscallID argc argv mem with
      | none => mem
      | some t => if t.complete then applyWrites writes t.mem else t.mem := by
  rw [memoryAfter, wasiExtSyscall, translationOf]
  split
  next => rfl
  next =>
    cases extSyscallTable.lookup syscallID with
    | none => rfl
    | some cls =>
        simp only [Option.bind_some, invoke, id_eq]
        by_cases short : argc.toNat < cls.argSig.length
        · rw [if_pos short, if_pos short]
        · rw [if_neg short, if_neg short]
          dsimp only
          split <;> rfl

/-- Two loops fill the same slots and stop at the same point. -/
def SameWalk (t t' : Translation) : Prop :=
  t.stored = t'.stored ∧ t.complete = t'.complete

/-- Two loops that accept the same offset in a slot take the same walk if they do from the
next slot on. -/
theorem sameWalk_pointer {L L' : LinearMemory} {argv : ℕ} {c : ArgChar} {rest : List ArgChar}
    {i : ℕ} {mem other : Memory} (translated : c.translated = true)
    (offset : appPointer mem argv i = appPointer other argv i)
    (accepts : Accepts L' c mem (appPointer mem argv i) ↔
      Accepts L c other (appPointer other argv i))
    (later : SameWalk
      (translate L' argv rest (i + 1)
        (store mem (slot argv i) 8 (L'.native (appPointer mem argv i).toNat)))
      (translate L argv rest (i + 1)
        (store other (slot argv i) 8 (L.native (appPointer other argv i).toNat)))) :
    SameWalk (translate L' argv (c :: rest) i mem) (translate L argv (c :: rest) i other) := by
  rw [translate_pointer translated, translate_pointer translated]
  by_cases accepted : Accepts L c other (appPointer other argv i)
  · rw [if_pos accepted, if_pos (accepts.mpr accepted)]
    exact ⟨congrArg₂ List.cons (congrArg (Prod.mk i) offset) later.1, later.2⟩
  · rw [if_neg accepted, if_neg fun other => accepted (accepts.mp other)]
    exact ⟨rfl, rfl⟩

/-- Filling a slot changes nothing from the next slot on. -/
theorem store_slot_above {argv i a : ℕ} {mem : Memory} {v : ℕ} (above : slot argv (i + 1) ≤ a) :
    store mem (slot argv i) 8 v a = mem a := by
  rw [slot_succ] at above
  exact store_out (by omega)

/-- Memories that agree from a slot on agree from the next slot on. -/
theorem agree_next {argv i : ℕ} {mem other : Memory}
    (agree : ∀ a, slot argv i ≤ a → mem a = other a) :
    ∀ a, slot argv (i + 1) ≤ a → mem a = other a :=
  fun a above => agree a ((slot_le (Nat.le_succ i)).trans above)

/-- Memories that agree from a slot on still agree from the next slot on after the slot has
been filled. -/
theorem agree_after_store {argv i : ℕ} {mem other : Memory} {v v' : ℕ}
    (agree : ∀ a, slot argv i ≤ a → mem a = other a) :
    ∀ a, slot argv (i + 1) ≤ a →
      store mem (slot argv i) 8 v a = store other (slot argv i) 8 v' a := by
  intro a above
  rw [store_slot_above above, store_slot_above above]
  exact agree_next agree a above

/-- No class has a string argument after its first argument. -/
theorem argSig_tail_noStr (cls : ExtSyscall) : ∀ c ∈ cls.argSig.tail, c ≠ .str := by
  cases cls <;> decide

/-- The range check of the argument array, in offsets. -/
theorem range_refused_iff (L : LinearMemory) (argc : UInt32) (argv : ℕ) :
    (0 < argc ∧ (L.native argv = 0 ∨
        L.validateNativeAddr (L.native argv) (UInt32.ofNat (argSize * argc.toNat)) = false)) ↔
      0 < argc ∧
        ¬ Inside L.memoryDataSize argv (UInt32.ofNat (argSize * argc.toNat)).toNat := by
  rw [← Bool.not_eq_true, L.validateNativeAddr_native]
  simp only [L.native_ne_zero, false_or]

section BaseFree

variable {L L' : LinearMemory} (size : L'.memoryDataSize = L.memoryDataSize)
include size

/-- Without string arguments, two mappings of one size take the same walk over memories that
agree from the first slot on. -/
theorem translate_noStr_base_free {argv : ℕ} {sig : List ArgChar} (noStr : ∀ c ∈ sig, c ≠ .str)
    {i : ℕ} {mem other : Memory} (agree : ∀ a, slot argv i ≤ a → mem a = other a) :
    SameWalk (translate L' argv sig i mem) (translate L argv sig i other) := by
  induction sig generalizing i mem other with
  | nil => exact ⟨rfl, rfl⟩
  | cons c rest ih =>
      have restNoStr : ∀ c ∈ rest, c ≠ .str := fun c member =>
        noStr c (List.mem_cons_of_mem _ member)
      cases translated : c.translated with
      | false =>
          rw [translate_number translated, translate_number translated]
          exact ih restNoStr (agree_next agree)
      | true =>
          have offset : appPointer mem argv i = appPointer other argv i :=
            congrArg UInt32.ofNat (load_congr fun k _ => agree _ (Nat.le_add_right _ _))
          refine sameWalk_pointer translated offset ?_ (ih restNoStr (agree_after_store agree))
          have notStr := noStr c List.mem_cons_self
          simp only [Accepts, size, offset, notStr, false_implies]

/-- **The slots a call translates do not depend on where the memory is mapped.** A string
argument is looked at before any slot has been filled. -/
theorem translate_base_free (cls : ExtSyscall) (argv : ℕ) (mem : Memory) :
    SameWalk (translate L' argv cls.argSig 0 mem) (translate L argv cls.argSig 0 mem) := by
  have tailNoStr := argSig_tail_noStr cls
  cases signature : cls.argSig with
  | nil => exact ⟨rfl, rfl⟩
  | cons c rest =>
      rw [signature, List.tail_cons] at tailNoStr
      cases translated : c.translated with
      | false =>
          rw [translate_number translated, translate_number translated]
          exact translate_noStr_base_free size tailNoStr fun _ _ => rfl
      | true =>
          refine sameWalk_pointer translated rfl ?_
            (translate_noStr_base_free size tailNoStr (agree_after_store fun _ _ => rfl))
          rw [Accepts, Accepts, size, L.validateAppStrAddr_iff, L'.validateAppStrAddr_iff, size]

/-- A call is refused under both mappings, or takes the same walk under both. -/
theorem translationOf_base_free (syscallID argc : UInt32) (argv : ℕ) (mem : Memory) :
    (translationOf L' syscallID argc argv mem = none ∧
        translationOf L syscallID argc argv mem = none) ∨
      ∃ sig t' t, translationOf L' syscallID argc argv mem = some t' ∧
        translationOf L syscallID argc argv mem = some t ∧ SameWalk t' t ∧
        Translates L' argv sig 0 mem t' ∧ Translates L argv sig 0 mem t := by
  simp only [translationOf, range_refused_iff, size]
  split
  next => exact .inl ⟨rfl, rfl⟩
  next =>
    cases extSyscallTable.lookup syscallID with
    | none => exact .inl ⟨rfl, rfl⟩
    | some cls =>
        simp only [Option.bind_some]
        split
        next => exact .inl ⟨rfl, rfl⟩
        next =>
          exact .inr ⟨cls.argSig, _, _, rfl, rfl, translate_base_free size cls argv mem,
            translate_translates L' argv cls.argSig 0 mem,
            translate_translates L argv cls.argSig 0 mem⟩

end BaseFree

/-- Every byte of native pointer the loop left in guest memory is overwritten by the
handler. This holds in particular when the loop translates no argument. -/
def AddressesOverwritten (L : LinearMemory) (syscallID argc : UInt32) (argv : ℕ)
    (writes : List (ℕ × UInt8)) (mem : Memory) : Prop :=
  ∀ t ∈ translationOf L syscallID argc argv mem, ∀ p ∈ t.stored, ∀ k < 8,
    slot argv p.1 + k < L.memoryDataSize →
      t.complete = true ∧ slot argv p.1 + k ∈ writes.map Prod.fst

/-- Some other mapping of the same size gives the native pointer of an offset a different
byte `k`. -/
theorem exists_mapping_byte_ne (L : LinearMemory) (off : ℕ) {k : ℕ} (byte : k < 8) :
    ∃ L' : LinearMemory, L'.memoryDataSize = L.memoryDataSize ∧
      byteAt (L'.native off) k ≠ byteAt (L.native off) k := by
  have positive := L.memoryData_pos
  have bounded := L.memoryDataSize_lt
  have fits := L.mapping_fits
  have unit : 256 ^ k ≤ 256 ^ 7 := Nat.pow_le_pow_right (by decide) (by omega)
  rw [addressSpace] at fits
  -- move the mapping by one unit of byte `k`, upwards where there is room
  by_cases room : L.memoryData + 256 ^ k + L.memoryDataSize ≤ 2 ^ 64
  · refine ⟨LinearMemory.mapped (L.memoryData + 256 ^ k) L.memoryDataSize
      (Nat.add_pos_left positive _) bounded room, rfl, ?_⟩
    have moved : (L.memoryData + 256 ^ k) + off = (L.memoryData + off) + 256 ^ k := by omega
    simp only [LinearMemory.native, LinearMemory.mapped, moved]
    exact byteAt_add_pow _ _
  · have high : 256 ^ k < L.memoryData := by omega
    refine ⟨LinearMemory.mapped (L.memoryData - 256 ^ k) L.memoryDataSize
      (Nat.sub_pos_of_lt high) bounded (by rw [addressSpace]; omega), rfl, ?_⟩
    have moved : L.memoryData + off = (L.memoryData - 256 ^ k + off) + 256 ^ k := by omega
    simp only [LinearMemory.native, LinearMemory.mapped]
    rw [moved]
    exact (byteAt_add_pow _ _).symm

section TwoWalks

variable {L L' : LinearMemory} {argv : ℕ} {sig : List ArgChar} {mem : Memory}
  {t t' : Translation}

/-- Outside the filled slots two walks leave the same memory. -/
theorem SameWalk.mem_out (walk : SameWalk t' t) (loop' : Translates L' argv sig 0 mem t')
    (loop : Translates L argv sig 0 mem t) {a : ℕ}
    (out : ¬ ∃ p ∈ t.stored, slot argv p.1 ≤ a ∧ a < slot argv p.1 + 8) :
    t'.mem a = t.mem a := by
  have apart : ∀ p ∈ t.stored, a < slot argv p.1 ∨ slot argv p.1 + 8 ≤ a := by
    intro p stored
    by_contra inSlot
    exact out ⟨p, stored, by omega, by omega⟩
  rw [loop.mem_out apart, loop'.mem_out (walk.1 ▸ apart)]

/-- A byte of a filled slot is byte `k` of the native pointer under both mappings. -/
theorem SameWalk.mem_ne (walk : SameWalk t' t) (loop' : Translates L' argv sig 0 mem t')
    (loop : Translates L argv sig 0 mem t) {p : ℕ × UInt32} (stored : p ∈ t.stored) {k : ℕ}
    (byte : k < 8) (different : byteAt (L'.native p.2.toNat) k ≠ byteAt (L.native p.2.toNat) k) :
    t'.mem (slot argv p.1 + k) ≠ t.mem (slot argv p.1 + k) := by
  rw [loop.mem_in stored byte, loop'.mem_in (walk.1 ▸ stored) byte]
  exact different

end TwoWalks

/-- **The guest memory after a call hides where it is mapped exactly when the handler
overwrites every byte of native pointer the loop left in it.** -/
theorem guest_memory_hides_mapping_iff (L : LinearMemory) (syscallID argc : UInt32) (argv : ℕ)
    (ret : Int) (writes : List (ℕ × UInt8)) (mem : Memory) :
    (∀ L' : LinearMemory, L'.memoryDataSize = L.memoryDataSize → ∀ a < L.memoryDataSize,
        memoryAfter L' syscallID argc argv ret writes mem a =
          memoryAfter L syscallID argc argv ret writes mem a) ↔
      AddressesOverwritten L syscallID argc argv writes mem := by
  simp only [memoryAfter_eq]
  constructor
  · intro same t found p stored k byte inside
    obtain ⟨L', size, different⟩ := exists_mapping_byte_ne L p.2.toNat byte
    have here := same L' size _ inside
    rcases translationOf_base_free size syscallID argc argv mem with
      ⟨_, refused⟩ | ⟨sig, t', other, found', foundOther, walk, loop', loop⟩
    · rw [Option.mem_def, refused] at found
      cases found
    · rw [Option.mem_def, foundOther] at found
      cases found
      have leak := walk.mem_ne loop' loop stored byte different
      simp only [found', foundOther, walk.2] at here
      cases complete : t.complete with
      | false =>
          simp only [complete] at here
          exact absurd here leak
      | true =>
          refine ⟨rfl, ?_⟩
          by_contra out
          simp only [complete, if_true, applyWrites_out out] at here
          exact leak here
  · intro overwritten L' size a inside
    rcases translationOf_base_free size syscallID argc argv mem with
      ⟨refused', refused⟩ | ⟨sig, t', t, found', found, walk, loop', loop⟩
    · rw [refused, refused']
    · simp only [found, found', walk.2]
      by_cases filled : ∃ p ∈ t.stored, slot argv p.1 ≤ a ∧ a < slot argv p.1 + 8
      · obtain ⟨p, stored, low, high⟩ := filled
        have bytes := overwritten t found p stored (a - slot argv p.1) (by omega)
        rw [Nat.add_sub_cancel' low] at bytes
        obtain ⟨complete, written⟩ := bytes inside
        rw [if_pos complete, if_pos complete]
        exact applyWrites_in written _ _
      · have same := walk.mem_out loop' loop filled
        split
        next =>
          by_cases written : a ∈ writes.map Prod.fst
          · exact applyWrites_in written _ _
          · rw [applyWrites_out written, applyWrites_out written, same]
        next => exact same

/-- A syscall `FDStatVFS` whose handler writes nothing, under two mappings of one size: byte
2 of the second slot, at offset 34, is byte 2 of the place of the mapping. -/
theorem host_address_left_in_memory :
    let low := LinearMemory.mapped 0x10000 64 (by decide) (by decide) (by decide)
    let high := LinearMemory.mapped 0x20000 64 (by decide) (by decide) (by decide)
    memoryAfter low 200 2 16 0 [] (fun _ => 0) 34 = 1 ∧
      memoryAfter high 200 2 16 0 [] (fun _ => 0) 34 = 2 := by
  decide

end Syscall
end WamrExt
