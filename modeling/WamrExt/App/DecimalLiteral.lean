import Mathlib.Data.List.TakeWhile

/-!
# Decimal literals on a command line

An argument that begins with a minus sign is a value and no option if a decimal literal follows.
The vendored parser of command lines reads literals with a function of several labels and jumps
between them. A comment above it gives the grammar that it is meant to read.

Here each label is a function. They accept exactly the strings of the grammar
(`isDecimalLiteral_iff`).
-/

set_option autoImplicit false

namespace WamrExt
namespace App

/-! ## The function -/

/-- `consume_digits` -/
def consumeDigits (s : List Char) : List Char := s.dropWhile Char.isDigit

/-- `is_digit(lookahead(s))` -/
def startsWithDigit : List Char → Bool
  | [] => false
  | c :: _ => c.isDigit

/-- The sign after which `post_e` goes on. -/
def removeSign : List Char → List Char
  | '-' :: s => s
  | '+' :: s => s
  | s => s

/-- `post_e` -/
def postE (s : List Char) : Bool :=
  startsWithDigit (removeSign s) && (consumeDigits (removeSign s)).isEmpty

/-- `exponent_part_opt` -/
def exponentPartOpt : List Char → Bool
  | [] => true
  | 'e' :: s => postE s
  | 'E' :: s => postE s
  | _ => false

/-- `post_decimal_point` -/
def postDecimalPoint (s : List Char) : Bool :=
  startsWithDigit s && exponentPartOpt (consumeDigits s)

/-- `integer_part_consumed` -/
def integerPartConsumed : List Char → Bool
  | '.' :: s => if startsWithDigit s then postDecimalPoint s else exponentPartOpt s
  | 'e' :: s => postE s
  | 'E' :: s => postE s
  | _ => false

/-- `integer_part` -/
def integerPart (s : List Char) : Bool := integerPartConsumed (consumeDigits s)

/-- `is_decimal_literal` -/
def isDecimalLiteral : List Char → Bool
  | '0' :: s => s.isEmpty || integerPart s
  | '.' :: s => postDecimalPoint s
  | s =>
      startsWithDigit s &&
        ((consumeDigits s).isEmpty || integerPartConsumed (consumeDigits s))

/-! ## The grammar -/

/-- *digit-sequence*, which may be empty where it is optional. -/
def Digits (s : List Char) : Prop := ∀ c ∈ s, c.isDigit = true

/-- *post-e* -/
inductive PostE : List Char → Prop where
  | unsigned {s : List Char} : s ≠ [] → Digits s → PostE s
  | plus {s : List Char} : s ≠ [] → Digits s → PostE ('+' :: s)
  | minus {s : List Char} : s ≠ [] → Digits s → PostE ('-' :: s)

/-- *exponent-part* -/
inductive ExponentPart : List Char → Prop where
  | lower {s : List Char} : PostE s → ExponentPart ('e' :: s)
  | upper {s : List Char} : PostE s → ExponentPart ('E' :: s)

/-- *exponent-part*, if there is one. -/
def ExponentPartOpt (s : List Char) : Prop := s = [] ∨ ExponentPart s

/-- *post-decimal-point* -/
inductive PostDecimalPoint : List Char → Prop where
  | mk {digits rest : List Char} : digits ≠ [] → Digits digits → ExponentPartOpt rest →
      PostDecimalPoint (digits ++ rest)

/-- *fractional-part* -/
inductive FractionalPart : List Char → Prop where
  | mk {s : List Char} : PostDecimalPoint s → FractionalPart ('.' :: s)

/-- *decimal-literal* -/
inductive DecimalLiteral : List Char → Prop where
  | zero : DecimalLiteral ['0']
  | nonzero {c : Char} {s : List Char} : c.isDigit = true → c ≠ '0' → Digits s →
      DecimalLiteral (c :: s)
  | fractional {int frac : List Char} : int ≠ [] → Digits int → FractionalPart frac →
      DecimalLiteral (int ++ frac)
  | fraction {frac : List Char} : FractionalPart frac → DecimalLiteral frac
  | point {int exp : List Char} : int ≠ [] → Digits int → ExponentPartOpt exp →
      DecimalLiteral (int ++ '.' :: exp)
  | exponent {int exp : List Char} : int ≠ [] → Digits int → ExponentPart exp →
      DecimalLiteral (int ++ exp)

/-! ## The function reads the grammar -/

variable {s digits rest : List Char}

/-- A string has digits at its start, and then something that does not begin with one. -/
theorem consumeDigits_append (all : Digits digits) (stops : startsWithDigit rest = false) :
    consumeDigits (digits ++ rest) = rest := by
  rw [consumeDigits, List.dropWhile_append_of_pos all]
  cases rest with
  | nil => rfl
  | cons c rest => exact List.dropWhile_cons_of_neg (by simpa [startsWithDigit] using stops)

/-- The digits at the start of a string. -/
theorem exists_digits (s : List Char) : ∃ digits, Digits digits ∧ s = digits ++ consumeDigits s :=
  ⟨s.takeWhile Char.isDigit, fun _ member => List.mem_takeWhile_imp member,
    List.takeWhile_append_dropWhile.symm⟩

theorem startsWithDigit_append (nonempty : digits ≠ []) (all : Digits digits) :
    startsWithDigit (digits ++ rest) = true := by
  obtain ⟨c, digits, rfl⟩ := List.exists_cons_of_ne_nil nonempty
  exact all c List.mem_cons_self

/-- What follows the digits at the start of a string begins with no digit. -/
theorem startsWithDigit_consumeDigits (s : List Char) :
    startsWithDigit (consumeDigits s) = false := by
  rw [consumeDigits]
  cases after : s.dropWhile Char.isDigit with
  | nil => rfl
  | cons c rest =>
      have head := List.head?_dropWhile_not Char.isDigit s
      rw [after] at head
      simpa [startsWithDigit] using head

/-- Some digits, and then what a part of the grammar allows, is what is read after the digits. -/
theorem digits_then_iff {P : List Char → Prop}
    (stops : ∀ rest, P rest → startsWithDigit rest = false) :
    (∃ digits rest, digits ≠ [] ∧ Digits digits ∧ P rest ∧ digits ++ rest = s) ↔
      startsWithDigit s = true ∧ P (consumeDigits s) := by
  constructor
  · rintro ⟨digits, rest, nonempty, all, part, rfl⟩
    rw [consumeDigits_append all (stops rest part)]
    exact ⟨startsWithDigit_append nonempty all, part⟩
  · rintro ⟨starts, part⟩
    obtain ⟨digits, all, split⟩ := exists_digits s
    refine ⟨digits, consumeDigits s, ?_, all, part, split.symm⟩
    rintro rfl
    rw [List.nil_append] at split
    rw [split, startsWithDigit_consumeDigits] at starts
    cases starts

theorem allDigits_iff : s ≠ [] ∧ Digits s ↔ startsWithDigit s = true ∧ consumeDigits s = [] := by
  rw [← digits_then_iff (P := fun rest => rest = []) (fun rest none => none ▸ rfl)]
  constructor
  · rintro ⟨nonempty, all⟩
    exact ⟨s, [], nonempty, all, rfl, List.append_nil s⟩
  · rintro ⟨digits, _, nonempty, all, rfl, rfl⟩
    rw [List.append_nil]
    exact ⟨nonempty, all⟩

theorem postE_iff : postE s = true ↔ PostE s := by
  have unsigned : ∀ s, (startsWithDigit s && (consumeDigits s).isEmpty) = true ↔
      s ≠ [] ∧ Digits s := fun s => by
    rw [allDigits_iff, Bool.and_eq_true, List.isEmpty_iff]
  have noDigit : ∀ {c : Char} {t : List Char}, c.isDigit = false → ¬ Digits (c :: t) :=
    fun other all => by
      rw [all _ List.mem_cons_self] at other
      cases other
  rw [postE, unsigned]
  unfold removeSign
  split
  next t =>
    refine ⟨fun ⟨nonempty, all⟩ => .minus nonempty all, fun grammar => ?_⟩
    cases grammar with
    | minus nonempty all => exact ⟨nonempty, all⟩
    | unsigned _ all => exact absurd all (noDigit rfl)
  next t =>
    refine ⟨fun ⟨nonempty, all⟩ => .plus nonempty all, fun grammar => ?_⟩
    cases grammar with
    | plus nonempty all => exact ⟨nonempty, all⟩
    | unsigned _ all => exact absurd all (noDigit rfl)
  next notMinus notPlus =>
    refine ⟨fun ⟨nonempty, all⟩ => .unsigned nonempty all, fun grammar => ?_⟩
    cases grammar with
    | unsigned nonempty all => exact ⟨nonempty, all⟩
    | plus => exact absurd rfl (notPlus _)
    | minus => exact absurd rfl (notMinus _)

theorem exponentPartOpt_iff : exponentPartOpt s = true ↔ ExponentPartOpt s := by
  unfold exponentPartOpt
  split
  next => exact ⟨fun _ => .inl rfl, fun _ => rfl⟩
  next s =>
    refine postE_iff.trans ⟨fun grammar => .inr (.lower grammar), ?_⟩
    rintro (none | ⟨⟨⟩⟩)
    · cases none
    · assumption
  next s =>
    refine postE_iff.trans ⟨fun grammar => .inr (.upper grammar), ?_⟩
    rintro (none | ⟨⟨⟩⟩)
    · cases none
    · assumption
  next notNil notLower notUpper =>
    refine ⟨nofun, ?_⟩
    rintro (none | exponent)
    · exact absurd none notNil
    · cases exponent with
      | lower => exact absurd rfl (notLower _)
      | upper => exact absurd rfl (notUpper _)

theorem ExponentPart.stops (exponent : ExponentPart s) : startsWithDigit s = false := by
  cases exponent <;> rfl

theorem ExponentPartOpt.stops (exponent : ExponentPartOpt s) : startsWithDigit s = false := by
  rcases exponent with rfl | exponent
  · rfl
  · exact exponent.stops

theorem postDecimalPoint_iff : postDecimalPoint s = true ↔ PostDecimalPoint s := by
  rw [postDecimalPoint, Bool.and_eq_true, exponentPartOpt_iff,
    ← digits_then_iff fun _ => ExponentPartOpt.stops]
  constructor
  · rintro ⟨digits, rest, nonempty, all, exponent, rfl⟩
    exact .mk nonempty all exponent
  · rintro ⟨nonempty, all, exponent⟩
    exact ⟨_, _, nonempty, all, exponent, rfl⟩

/-- What may follow an integer part. -/
def AfterInteger (s : List Char) : Prop :=
  FractionalPart s ∨ (∃ exp, ExponentPartOpt exp ∧ s = '.' :: exp) ∨ ExponentPart s

theorem AfterInteger.stops (after : AfterInteger s) : startsWithDigit s = false := by
  rcases after with ⟨⟨⟩⟩ | ⟨exp, _, rfl⟩ | exponent
  · rfl
  · rfl
  · exact exponent.stops

theorem integerPartConsumed_iff : integerPartConsumed s = true ↔ AfterInteger s := by
  unfold integerPartConsumed
  split
  next t =>
    split
    next digit =>
      refine postDecimalPoint_iff.trans ⟨fun grammar => .inl (.mk grammar), ?_⟩
      rintro (⟨⟨⟩⟩ | ⟨exp, exponent, same⟩ | ⟨⟨⟩⟩)
      · assumption
      · cases same
        rw [exponent.stops] at digit
        cases digit
    next noDigit =>
      refine exponentPartOpt_iff.trans ⟨fun grammar => .inr (.inl ⟨t, grammar, rfl⟩), ?_⟩
      rintro (⟨⟨nonempty, all, _⟩⟩ | ⟨exp, exponent, same⟩ | ⟨⟨⟩⟩)
      · exact absurd (startsWithDigit_append nonempty all) noDigit
      · cases same
        exact exponent
  next t =>
    refine postE_iff.trans ⟨fun grammar => .inr (.inr (.lower grammar)), ?_⟩
    rintro (⟨⟨⟩⟩ | ⟨exp, _, same⟩ | ⟨⟨⟩⟩)
    · cases same
    · assumption
  next t =>
    refine postE_iff.trans ⟨fun grammar => .inr (.inr (.upper grammar)), ?_⟩
    rintro (⟨⟨⟩⟩ | ⟨exp, _, same⟩ | ⟨⟨⟩⟩)
    · cases same
    · assumption
  next notPoint notLower notUpper =>
    refine ⟨nofun, ?_⟩
    rintro (fraction | ⟨exp, _, same⟩ | ⟨⟨⟩⟩)
    · cases fraction with
      | mk => exact (notPoint _ rfl).elim
    · exact (notPoint exp same).elim
    · exact (notLower _ rfl).elim
    · exact (notUpper _ rfl).elim

/-- A literal in the order in which the function reads it. -/
def ReadAsLiteral (s : List Char) : Prop :=
  s = ['0'] ∨ (∃ c t, c.isDigit = true ∧ c ≠ '0' ∧ Digits t ∧ s = c :: t) ∨
    FractionalPart s ∨
      ∃ int rest, int ≠ [] ∧ Digits int ∧ AfterInteger rest ∧ int ++ rest = s

theorem decimalLiteral_iff : DecimalLiteral s ↔ ReadAsLiteral s := by
  constructor
  · rintro (_ | ⟨digit, notZero, all⟩ | ⟨nonempty, all, frac⟩ | frac | ⟨nonempty, all, exponent⟩ |
      ⟨nonempty, all, exponent⟩)
    · exact .inl rfl
    · exact .inr (.inl ⟨_, _, digit, notZero, all, rfl⟩)
    · exact .inr (.inr (.inr ⟨_, _, nonempty, all, .inl frac, rfl⟩))
    · exact .inr (.inr (.inl frac))
    · exact .inr (.inr (.inr ⟨_, _, nonempty, all, .inr (.inl ⟨_, exponent, rfl⟩), rfl⟩))
    · exact .inr (.inr (.inr ⟨_, _, nonempty, all, .inr (.inr exponent), rfl⟩))
  · rintro (rfl | ⟨c, t, digit, notZero, all, rfl⟩ | frac |
      ⟨int, rest, nonempty, all, frac | ⟨exp, exponent, rfl⟩ | exponent, rfl⟩)
    · exact .zero
    · exact .nonzero digit notZero all
    · exact .fraction frac
    · exact .fractional nonempty all frac
    · exact .point nonempty all exponent
    · exact .exponent nonempty all exponent

/-- **The function accepts exactly the decimal literals of the grammar.** -/
theorem isDecimalLiteral_iff : isDecimalLiteral s = true ↔ DecimalLiteral s := by
  rw [decimalLiteral_iff, ReadAsLiteral, digits_then_iff fun _ => AfterInteger.stops]
  unfold isDecimalLiteral
  split
  next t =>
    rw [Bool.or_eq_true, List.isEmpty_iff, integerPart, integerPartConsumed_iff]
    constructor
    · rintro (rfl | after)
      · exact .inl rfl
      · exact .inr (.inr (.inr ⟨rfl, after⟩))
    · rintro (only | ⟨c, u, _, notZero, _, same⟩ | fraction | ⟨_, after⟩)
      · cases only
        exact .inl rfl
      · cases same
        exact absurd rfl notZero
      · cases fraction
      · exact .inr after
  next t =>
    refine postDecimalPoint_iff.trans ⟨fun grammar => .inr (.inr (.inl (.mk grammar))), ?_⟩
    rintro (only | ⟨c, u, digit, _, _, same⟩ | ⟨⟨⟩⟩ | ⟨starts, _⟩)
    · cases only
    · cases same
      cases digit
    · assumption
    · cases starts
  next notZero notPoint =>
    rw [Bool.and_eq_true, Bool.or_eq_true, List.isEmpty_iff, integerPartConsumed_iff]
    constructor
    · rintro ⟨starts, none | after⟩
      · obtain ⟨nonempty, all⟩ := allDigits_iff.mpr ⟨starts, none⟩
        obtain ⟨c, t, rfl⟩ := List.exists_cons_of_ne_nil nonempty
        obtain ⟨digit, later⟩ := List.forall_mem_cons.mp all
        exact .inr (.inl ⟨c, t, digit, fun zero => notZero t (by rw [zero]), later, rfl⟩)
      · exact .inr (.inr (.inr ⟨starts, after⟩))
    · rintro (only | ⟨c, t, digit, _, all, rfl⟩ | fraction | ⟨starts, after⟩)
      · exact absurd only (notZero [])
      · obtain ⟨starts, none⟩ := allDigits_iff.mp
          ⟨List.cons_ne_nil c t, List.forall_mem_cons.mpr ⟨digit, all⟩⟩
        exact ⟨starts, .inl none⟩
      · cases fraction with
        | mk => exact (notPoint _ rfl).elim
      · exact ⟨starts, .inr after⟩

end App
end WamrExt
