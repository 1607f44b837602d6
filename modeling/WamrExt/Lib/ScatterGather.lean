import Mathlib.Data.List.GetD
import Mathlib.Data.List.Range
import WamrExt.Lib.ByteMemory

/-!
# Scattering and gathering bytes

Bytes are gathered from a list of buffers of a memory, one buffer after the other, and scattered
into a list of buffers until they are used up. If the buffers do not overlap, then gathering gives
back what was scattered, as much of it as the buffers take, and what was there before after it
(`gather_scatter`).

Which address an empty buffer has does not matter: buffers that are alike up to that can take each
other's place (`gather_alike`, `scatter_alike`).
-/

set_option autoImplicit false

namespace ScatterGather

open ByteMemory

/-- The address and the length of a buffer. -/
abbrev Buffer := ℕ × ℕ

/-- Two buffers do not overlap. -/
def Apart (b c : Buffer) : Prop := b.1 + b.2 ≤ c.1 ∨ c.1 + c.2 ≤ b.1

instance (b c : Buffer) : Decidable (Apart b c) := inferInstanceAs (Decidable (_ ∨ _))

/-- Two buffers have the same bytes. -/
def Alike (b c : Buffer) : Prop := b.2 = c.2 ∧ (0 < c.2 → b.1 = c.1)

/-- The bytes from an address on. -/
def bytesAt (mem : Memory) (a n : ℕ) : List UInt8 := (List.range n).map fun k => mem (a + k)

/-- The memory with bytes put at an address. -/
def putBytes (mem : Memory) (a : ℕ) (bytes : List UInt8) : Memory := fun x =>
  if a ≤ x then bytes.getD (x - a) (mem x) else mem x

/-- The bytes of buffers. -/
def gather (mem : Memory) (buffers : List Buffer) : List UInt8 :=
  buffers.flatMap fun b => bytesAt mem b.1 b.2

/-- How many bytes buffers take. -/
def capacity (buffers : List Buffer) : ℕ := (buffers.map Prod.snd).sum

/-- The memory with data put into buffers. -/
def scatter (mem : Memory) : List Buffer → List UInt8 → Memory
  | [], _ => mem
  | b :: rest, data => scatter (putBytes mem b.1 (data.take b.2)) rest (data.drop b.2)

section Bytes

variable {mem other : Memory} {a n x : ℕ} {bytes : List UInt8}

@[simp] theorem bytesAt_length : (bytesAt mem a n).length = n := by
  rw [bytesAt, List.length_map, List.length_range]

theorem bytesAt_congr (agree : ∀ x, a ≤ x → x < a + n → mem x = other x) :
    bytesAt mem a n = bytesAt other a n := by
  apply List.map_congr_left
  intro k member
  have bound := List.mem_range.mp member
  exact agree (a + k) (Nat.le_add_right a k) (Nat.add_lt_add_left bound a)

theorem putBytes_out (out : x < a ∨ a + bytes.length ≤ x) : putBytes mem a bytes x = mem x := by
  rw [putBytes]
  split
  next low =>
    rw [List.getD_eq_default]
    omega
  next => rfl

@[simp] theorem putBytes_nil : putBytes mem a [] = mem := by
  funext x
  rw [putBytes_out]
  rw [List.length_nil]
  omega

/-- Bytes that were put are there, with the old ones after them. -/
theorem bytesAt_putBytes (fits : bytes.length ≤ n) :
    bytesAt (putBytes mem a bytes) a n = bytes ++ (bytesAt mem a n).drop bytes.length := by
  apply List.ext_getElem
  · simp
    omega
  · intro k bound bound'
    rw [bytesAt_length] at bound
    rw [List.getElem_append]
    simp only [bytesAt, List.getElem_map, List.getElem_range, List.getElem_drop, putBytes,
      Nat.le_add_right, if_true, Nat.add_sub_cancel_left]
    split
    next inside => exact List.getD_eq_getElem _ _ inside
    next outside =>
      rw [List.getD_eq_default _ _ (not_lt.mp outside)]
      congr 1
      omega

end Bytes

section Buffers

variable {mem other : Memory} {buffers : List Buffer} {data : List UInt8} {x : ℕ}

@[simp] theorem gather_cons (b : Buffer) :
    gather mem (b :: buffers) = bytesAt mem b.1 b.2 ++ gather mem buffers := List.flatMap_cons

theorem gather_length : (gather mem buffers).length = capacity buffers := by
  induction buffers with
  | nil => rfl
  | cons b rest ih =>
      rw [gather_cons, List.length_append, bytesAt_length, ih, capacity, capacity, List.map_cons,
        List.sum_cons]

theorem gather_congr (agree : ∀ b ∈ buffers, ∀ x, b.1 ≤ x → x < b.1 + b.2 → mem x = other x) :
    gather mem buffers = gather other buffers := by
  induction buffers with
  | nil => rfl
  | cons b rest ih =>
      obtain ⟨own, later⟩ := List.forall_mem_cons.mp agree
      rw [gather_cons, gather_cons, bytesAt_congr own, ih later]

theorem gather_alike {others : List Buffer} (alike : List.Forall₂ Alike buffers others) :
    gather mem buffers = gather mem others := by
  induction alike with
  | nil => rfl
  | @cons b c _ _ first _ ih =>
      have same : bytesAt mem b.1 b.2 = bytesAt mem c.1 c.2 := by
        obtain ⟨length, start⟩ := first
        rw [length]
        rcases Nat.eq_zero_or_pos c.2 with empty | filled
        · rw [empty]
          rfl
        · rw [start filled]
      rw [gather_cons, gather_cons, same, ih]

theorem scatter_alike {others : List Buffer} (alike : List.Forall₂ Alike buffers others) :
    scatter mem buffers data = scatter mem others data := by
  induction alike generalizing mem data with
  | nil => rfl
  | @cons b c _ _ first _ ih =>
      have same : putBytes mem b.1 (data.take b.2) = putBytes mem c.1 (data.take c.2) := by
        obtain ⟨length, start⟩ := first
        rw [length]
        rcases Nat.eq_zero_or_pos c.2 with empty | filled
        · rw [empty, List.take_zero, putBytes_nil, putBytes_nil]
        · rw [start filled]
      rw [scatter, scatter, same, first.1, ih]

theorem capacity_alike {others : List Buffer} (alike : List.Forall₂ Alike buffers others) :
    capacity buffers = capacity others := by
  have same := congrArg List.length (gather_alike alike : gather (fun _ => 0) buffers = _)
  rwa [gather_length, gather_length] at same

/-- What lies outside of all buffers stays. -/
theorem scatter_out (out : ∀ b ∈ buffers, x < b.1 ∨ b.1 + b.2 ≤ x) :
    scatter mem buffers data x = mem x := by
  induction buffers generalizing mem data with
  | nil => rfl
  | cons b rest ih =>
      obtain ⟨own, later⟩ := List.forall_mem_cons.mp out
      rw [scatter, ih later, putBytes_out]
      have short := List.length_take_le b.2 data
      omega

/-- **Gathering after scattering.** Buffers that do not overlap hold the data as far as they take
it, and keep what they held before after it. -/
theorem gather_scatter (apart : buffers.Pairwise Apart) :
    gather (scatter mem buffers data) buffers =
      data.take (capacity buffers) ++ (gather mem buffers).drop data.length := by
  induction buffers generalizing mem data with
  | nil => simp [gather, capacity]
  | cons b rest ih =>
      obtain ⟨own, later⟩ := List.pairwise_cons.mp apart
      have first : bytesAt (scatter mem (b :: rest) data) b.1 b.2 =
          data.take b.2 ++ (bytesAt mem b.1 b.2).drop (data.take b.2).length := by
        rw [scatter, ← bytesAt_putBytes (List.length_take_le b.2 data)]
        refine bytesAt_congr fun x low high => scatter_out fun c member => ?_
        rcases own c member with before | after <;> omega
      have others : gather (putBytes mem b.1 (data.take b.2)) rest = gather mem rest := by
        refine gather_congr fun c member x low high => putBytes_out ?_
        have short := List.length_take_le b.2 data
        rcases own c member with before | after <;> omega
      have total : capacity (b :: rest) = b.2 + capacity rest := by
        rw [capacity, List.map_cons, List.sum_cons, ← capacity]
      rw [gather_cons, first, scatter, ih later, others, gather_cons, total]
      -- either the first buffer takes everything, or it is full
      rcases le_total data.length b.2 with short | long
      · have none : data.drop b.2 = [] := List.drop_eq_nil_of_le short
        have whole : data.take (b.2 + capacity rest) = data := List.take_of_length_le (by omega)
        have inFirst : data.length ≤ (bytesAt mem b.1 b.2).length := short.trans bytesAt_length.ge
        rw [none, whole, List.take_of_length_le short, List.take_nil, List.length_nil,
          List.drop_zero, List.nil_append, List.drop_append_of_le_length inFirst,
          List.append_assoc]
      · have full : (bytesAt mem b.1 b.2).drop b.2 = [] :=
          List.drop_eq_nil_of_le bytesAt_length.le
        have past : (bytesAt mem b.1 b.2).drop data.length = [] :=
          List.drop_eq_nil_of_le (bytesAt_length.le.trans long)
        rw [List.length_take, min_eq_left long, full, List.append_nil, List.take_add,
          List.append_assoc, List.length_drop, List.drop_append, bytesAt_length, past,
          List.nil_append]

end Buffers

end ScatterGather
