import Mathlib.Data.List.AList

/-!
# Heaps of blocks

A heap knows the blocks that are in use, each with its length. No two of them overlap, and all of
them lie above the null address and below the end of the heap. An allocator may answer with any
address where a block of the requested length is fresh, and the record stays well formed then.
-/

set_option autoImplicit false

namespace BlockHeap

/-- The blocks in use of a heap that ends at a limit, by their addresses. -/
structure Heap (limit : ℕ) where
  blocks : AList fun _ : ℕ => ℕ
  inside : ∀ a n, blocks.lookup a = some n → 0 < a ∧ a + n ≤ limit
  apart : ∀ a n b m, a ≠ b → blocks.lookup a = some n → blocks.lookup b = some m →
    a + n ≤ b ∨ b + m ≤ a

namespace Heap

variable {limit : ℕ}

/-- A heap without blocks. -/
def empty (limit : ℕ) : Heap limit where
  blocks := ∅
  inside a n found := by cases (AList.lookup_empty a).symm.trans found
  apart a n _ _ _ found := by cases (AList.lookup_empty a).symm.trans found

variable (heap : Heap limit)

/-- A block of this length can be put at an address. -/
structure Fresh (a n : ℕ) : Prop where
  inside : 0 < a ∧ a + n ≤ limit
  unused : a ∉ heap.blocks
  apart : ∀ e ∈ heap.blocks.entries, a + n ≤ e.1 ∨ e.1 + e.2 ≤ a

instance (a n : ℕ) : Decidable (heap.Fresh a n) :=
  decidable_of_iff ((0 < a ∧ a + n ≤ limit) ∧ a ∉ heap.blocks ∧
      ∀ e ∈ heap.blocks.entries, a + n ≤ e.1 ∨ e.1 + e.2 ≤ a)
    ⟨fun ⟨inside, unused, apart⟩ => ⟨inside, unused, apart⟩,
      fun fresh => ⟨fresh.inside, fresh.unused, fresh.apart⟩⟩

variable {heap}

theorem Fresh.apart_of_lookup {a n b m : ℕ} (fresh : heap.Fresh a n)
    (found : heap.blocks.lookup b = some m) : a + n ≤ b ∨ b + m ≤ a :=
  fresh.apart ⟨b, m⟩ (AList.mem_lookup_iff.mp found)

variable (heap)

/-- The heap with one block more. -/
def alloc (a n : ℕ) (fresh : heap.Fresh a n) : Heap limit where
  blocks := heap.blocks.insert a n
  inside b m found := by
    by_cases same : b = a
    · subst same
      cases (AList.lookup_insert heap.blocks).symm.trans found
      exact fresh.inside
    · rw [AList.lookup_insert_ne same] at found
      exact heap.inside b m found
  apart b m c k different found found' := by
    by_cases first : b = a
    · subst first
      cases (AList.lookup_insert heap.blocks).symm.trans found
      rw [AList.lookup_insert_ne different.symm] at found'
      exact fresh.apart_of_lookup found'
    · rw [AList.lookup_insert_ne first] at found
      by_cases second : c = a
      · subst second
        cases (AList.lookup_insert heap.blocks).symm.trans found'
        exact (fresh.apart_of_lookup found).symm
      · rw [AList.lookup_insert_ne second] at found'
        exact heap.apart b m c k different found found'

/-- The heap without a block. -/
def free (a : ℕ) : Heap limit where
  blocks := heap.blocks.erase a
  inside b m found := heap.inside b m (by
    by_cases same : b = a
    · rw [same, AList.lookup_erase] at found
      cases found
    · rwa [AList.lookup_erase_ne same] at found)
  apart b m c k different found found' := by
    have kept : ∀ {x y}, (heap.blocks.erase a).lookup x = some y →
        heap.blocks.lookup x = some y := by
      intro x y found
      by_cases same : x = a
      · rw [same, AList.lookup_erase] at found
        cases found
      · rwa [AList.lookup_erase_ne same] at found
    exact heap.apart b m c k different (kept found) (kept found')

@[simp] theorem alloc_self {a n : ℕ} (fresh : heap.Fresh a n) :
    (heap.alloc a n fresh).blocks.lookup a = some n := AList.lookup_insert heap.blocks

theorem alloc_of_ne {a n b : ℕ} (fresh : heap.Fresh a n) (ne : b ≠ a) :
    (heap.alloc a n fresh).blocks.lookup b = heap.blocks.lookup b := AList.lookup_insert_ne ne

@[simp] theorem free_self (a : ℕ) : (heap.free a).blocks.lookup a = none :=
  AList.lookup_erase a heap.blocks

theorem free_of_ne {a b : ℕ} (ne : b ≠ a) :
    (heap.free a).blocks.lookup b = heap.blocks.lookup b := AList.lookup_erase_ne ne

end Heap

end BlockHeap
