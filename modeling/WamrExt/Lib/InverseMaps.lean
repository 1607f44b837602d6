import Mathlib.Data.List.AList
import Mathlib.Data.Finset.Card

/-!
# Two maps that are inverse to each other

A pair of finite maps is inverse when each entry of one of them is an entry of the other, read the
other way round. Such maps have one size. A pair that is in both of them can be erased from both,
and a pair can be inserted into both exactly when it is new to both: where its key had another
value already, the second map keeps that value (`Inverse.insert_iff`).
-/

set_option autoImplicit false

namespace InverseMaps

universe u v

variable {α : Type u} {β : Type v} [DecidableEq α] [DecidableEq β]

/-- The entries of the two maps are the same, read in the two ways. -/
def Inverse (f : AList fun _ : α => β) (g : AList fun _ : β => α) : Prop :=
  ∀ a b, f.lookup a = some b ↔ g.lookup b = some a

variable {f : AList fun _ : α => β} {g : AList fun _ : β => α} {a a' : α} {b b' : β}

theorem inverse_empty : Inverse (∅ : AList fun _ : α => β) (∅ : AList fun _ : β => α) := by
  intro a b
  simp

theorem Inverse.symm (inverse : Inverse f g) : Inverse g f := by
  intro b a
  exact (inverse a b).symm

/-- No two keys have one value. -/
theorem Inverse.key_eq (inverse : Inverse f g) (first : f.lookup a = some b)
    (second : f.lookup a' = some b) : a = a' := by
  have back := (inverse a b).mp first
  rw [(inverse a' b).mp second] at back
  exact (Option.some.inj back).symm

/-- The keys of one map go to keys of the other, and no two of them to one. -/
theorem Inverse.size_le (inverse : Inverse f g) : f.keys.length ≤ g.keys.length := by
  have value : ∀ a ∈ f.keys, ∃ b, f.lookup a = some b := by
    intro a key
    exact Option.isSome_iff_exists.mp (AList.lookup_isSome.mpr (AList.mem_keys.mpr key))
  rw [← List.toFinset_card_of_nodup f.keys_nodup]
  refine (Finset.card_le_card_of_injOn (t := (g.keys.map some).toFinset) f.lookup ?_ ?_).trans ?_
  · intro a key
    obtain ⟨b, known⟩ := value a (List.mem_toFinset.mp key)
    have back : b ∈ g.keys :=
      AList.mem_keys.mp (AList.lookup_isSome.mp (Option.isSome_of_eq_some ((inverse a b).mp known)))
    simpa [known] using back
  · intro a key a' _ same
    obtain ⟨b, known⟩ := value a (List.mem_toFinset.mp key)
    exact inverse.key_eq known (same.symm.trans known)
  · exact (List.toFinset_card_le _).trans (List.length_map some).le

theorem Inverse.size_eq (inverse : Inverse f g) : f.keys.length = g.keys.length :=
  Nat.le_antisymm inverse.size_le inverse.symm.size_le

/-- An entry is erased from both maps. -/
theorem Inverse.erase (inverse : Inverse f g) (known : f.lookup a = some b) :
    Inverse (f.erase a) (g.erase b) := by
  intro a' b'
  by_cases key : a' = a
  · subst key
    rw [AList.lookup_erase]
    constructor
    · nofun
    · intro back
      by_cases value : b' = b
      · rw [value, AList.lookup_erase] at back
        cases back
      · rw [AList.lookup_erase_ne value, ← inverse, known] at back
        exact absurd (Option.some.inj back).symm value
  · rw [AList.lookup_erase_ne key, inverse]
    by_cases value : b' = b
    · subst value
      rw [AList.lookup_erase, (inverse a b').mp known]
      constructor
      · intro same
        exact absurd (Option.some.inj same).symm key
      · nofun
    · rw [AList.lookup_erase_ne value]

/-- An entry that is new to both maps is inserted into both. -/
theorem Inverse.insert (inverse : Inverse f g) (newKey : f.lookup a = none)
    (newValue : g.lookup b = none) : Inverse (f.insert a b) (g.insert b a) := by
  intro a' b'
  by_cases key : a' = a
  · subst key
    rw [AList.lookup_insert]
    by_cases value : b' = b
    · rw [value, AList.lookup_insert]
      simp
    · rw [AList.lookup_insert_ne value, ← inverse, newKey]
      simp [Ne.symm value]
  · rw [AList.lookup_insert_ne key, inverse]
    by_cases value : b' = b
    · subst value
      rw [AList.lookup_insert, newValue]
      simp [Ne.symm key]
    · rw [AList.lookup_insert_ne value]

/-- **Insertion.** Where the value is new, the maps stay inverse exactly when the key is new. -/
theorem Inverse.insert_iff (inverse : Inverse f g) (newValue : g.lookup b = none) :
    Inverse (f.insert a b) (g.insert b a) ↔ f.lookup a = none := by
  refine ⟨fun after => ?_, fun newKey => inverse.insert newKey newValue⟩
  cases known : f.lookup a with
  | none => rfl
  | some old =>
      have back := (inverse a old).mp known
      have other : old ≠ b := by
        rintro rfl
        rw [newValue] at back
        cases back
      have stale := (after a old).mpr ((AList.lookup_insert_ne other).trans back)
      rw [AList.lookup_insert] at stale
      exact absurd (Option.some.inj stale).symm other

end InverseMaps
