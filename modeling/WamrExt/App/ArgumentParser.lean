import Mathlib.Algebra.Group.Int.Defs
import Mathlib.Data.Int.Notation
import Mathlib.Data.Nat.Notation
import Mathlib.Data.List.Sort
import Mathlib.Data.String.Basic
import WamrExt.App.DecimalLiteral

/-!
# The vendored parser of command lines

A parser is a list of arguments, each with its names and with what it does with the words that it
takes. It goes over the words of a command line. A word that begins with no minus sign is taken by
the next positional argument, and so is a decimal literal. Any other word is the name of an
argument, or several names of one letter each. The argument then takes the words after it.

What changes while a command line is parsed is kept apart from the arguments (`Consumed`). An
exception or a call of `exit` ends the parsing.
-/

set_option autoImplicit false

namespace WamrExt
namespace App

/-- How parsing ends early: an exception of `std::runtime_error` or of `std::logic_error`, or of a
class derived from one of them, a wrong `std::any_cast`, or a call of `exit`. -/
inductive Stop where
  | runtimeError (what : String)
  | logicError (what : String)
  | badAnyCast
  | exit (code : ℤ)
  deriving DecidableEq, Repr

/-- A `std::any` of the parser. -/
inductive Value where
  | empty
  | string (s : String)
  | int (n : ℤ)
  | bool (b : Bool)
  | strings (l : List String)
  deriving DecidableEq, Repr

/-- `has_value` -/
def Value.hasValue (v : Value) : Bool := v != .empty

/-! ## Words -/

/-- `is_positional` -/
def isPositional (name : String) : Bool :=
  match name.toList with
  | '-' :: s => s.isEmpty || isDecimalLiteral s
  | _ => true

/-- `is_optional` -/
def isOptional (name : String) : Bool := !isPositional name

/-- The value of a digit in a base. -/
def digitValue (base : ℕ) (c : Char) : Option ℕ :=
  let value :=
    if c.isDigit then some (c.toNat - '0'.toNat)
    else if 'a' ≤ c ∧ c ≤ 'z' then some (10 + (c.toNat - 'a'.toNat))
    else if 'A' ≤ c ∧ c ≤ 'Z' then some (10 + (c.toNat - 'A'.toNat))
    else none
  value.filter (· < base)

/-- The digits at the start of a string. -/
def leadingDigits (base : ℕ) (s : List Char) : List ℕ :=
  (s.map (digitValue base)).takeWhile Option.isSome |>.filterMap id

/-- `do_from_chars<int>` -/
def doFromChars (base : ℕ) (s : List Char) : Except Stop ℤ :=
  let negative := s.head? = some '-'
  let s := if negative then s.tail else s
  let digits := leadingDigits base s
  let n : ℕ := digits.foldl (fun n d => n * base + d) 0
  let x : ℤ := if negative then -n else n
  if digits.isEmpty then .error (.logicError "pattern not found")
  else if x < -2 ^ 31 ∨ 2 ^ 31 ≤ x then .error (.runtimeError "not representable")
  else if digits.length < s.length then
    .error (.logicError "pattern does not match to the end")
  else .ok x

/-- `parse_number<int>` -/
def parseNumber (s : String) : Except Stop ℤ :=
  match s.toList with
  | '0' :: 'x' :: rest => doFromChars 16 rest
  | '0' :: 'X' :: rest => doFromChars 16 rest
  | '0' :: rest => doFromChars 8 ('0' :: rest)
  | s => doFromChars 10 s

theorem doFromChars_lt {base : ℕ} {s : List Char} {n : ℤ} (read : doFromChars base s = .ok n) :
    n < 2 ^ 31 := by
  unfold doFromChars at read
  extract_lets negative rest digits m x at read
  split at read
  next => cases read
  next =>
    split at read
    next => cases read
    next representable =>
      split at read
      next => cases read
      next => exact Except.ok.inj read ▸ not_le.mp (not_or.mp representable).2

/-- A number that is read fits into an `int`. -/
theorem parseNumber_lt {s : String} {n : ℤ} (read : parseNumber s = .ok n) : n < 2 ^ 31 := by
  rw [parseNumber] at read
  split at read <;> exact doFromChars_lt read

/-! ## Arguments -/

/-- `NArgsRange`. There is no maximum when it is the greatest `std::size_t`. -/
structure NArgsRange where
  min : ℕ
  max : Option ℕ
  min_le_max : ∀ m ∈ max, min ≤ m

/-- The range of one number. -/
def NArgsRange.exactly (n : ℕ) : NArgsRange :=
  ⟨n, some n, fun _ same => (Option.mem_some.mp same).le⟩

/-- `nargs_pattern::any` -/
def NArgsRange.any : NArgsRange := ⟨0, none, nofun⟩

/-- `contains` -/
def NArgsRange.contains (range : NArgsRange) (value : ℕ) : Bool :=
  decide (range.min ≤ value) && range.max.all fun max => decide (value ≤ max)

/-- `m_action` -/
inductive Action where
  | valued (f : String → Except Stop Value)
  | void (f : String → Except Stop Unit)

/-- `Argument`, without what changes. -/
structure Argument where
  names : List String
  isOptional : Bool
  defaultValue : Value := .empty
  implicitValue : Value := .empty
  action : Action := .valued fun s => .ok (.string s)
  numArgsRange : NArgsRange := .exactly 1
  acceptsOptionalLikeValue : Bool := false
  isRequired : Bool := false
  isRepeatable : Bool := false

/-- What changes of an argument. -/
structure Consumed where
  isUsed : Bool := false
  usedName : String := ""
  values : List Value := []
  deriving DecidableEq, Repr

/-- The order of the names of an argument: the shorter first. -/
def nameBefore (lhs rhs : String) : Bool :=
  if lhs.length = rhs.length then decide (lhs ≤ rhs) else decide (lhs.length < rhs.length)

namespace Argument

/-- The constructor of `Argument` -/
def new (names : List String) : Argument where
  names := names.insertionSort fun lhs rhs => nameBefore lhs rhs
  isOptional := names.any App.isOptional

/-- `nargs` -/
def nargs (a : Argument) (range : NArgsRange) : Argument := { a with numArgsRange := range }

/-- `remaining` -/
def remaining (a : Argument) : Argument :=
  { a with acceptsOptionalLikeValue := true }.nargs .any

/-- `implicit_value` -/
def implicit (a : Argument) (value : Value) : Argument :=
  { a with implicitValue := value }.nargs (.exactly 0)

variable (a : Argument)

/-- The words that an argument takes, of those that follow. -/
def taken (rest : List String) : List String :=
  let words := (a.numArgsRange.max.map rest.take).getD rest
  if a.acceptsOptionalLikeValue then words else words.takeWhile App.isPositional

/-- `ActionApply` -/
def apply (c : Consumed) (words : List String) : Except Stop Consumed :=
  match a.action with
  | .valued f => do
      let values ← words.mapM f
      pure { c with values := c.values ++ values }
  | .void f => do
      words.forM f
      if a.defaultValue.hasValue || a.acceptsOptionalLikeValue then pure c
      else
        let padding := List.replicate (words.length - c.values.length) Value.empty
        pure { c with values := c.values.take words.length ++ padding }

/-- `consume`, with the number of words that it goes over. -/
def consume (c : Consumed) (rest : List String) (usedName : String) :
    Except Stop (Consumed × ℕ) :=
  if !a.isRepeatable && c.isUsed then .error (.runtimeError "Duplicate argument")
  else
    let c := { c with isUsed := true, usedName := usedName }
    if a.numArgsRange.max = some 0 then
      let c := { c with values := c.values ++ [a.implicitValue] }
      match a.action with
      | .valued f => do
          let _ ← f ""
          pure (c, 0)
      | .void f => do
          f ""
          pure (c, 0)
    else if a.numArgsRange.min ≤ rest.length then
      let words := a.taken rest
      if words.length < a.numArgsRange.min then .error (.runtimeError "Too few arguments")
      else (a.apply c words).map fun c => (c, words.length)
    else if a.defaultValue.hasValue then .ok (c, 0)
    else .error (.runtimeError ("Too few arguments for '" ++ usedName ++ "'."))

/-- The text of `throw_nargs_range_validation_error` -/
def nargsRangeText (c : Consumed) : String :=
  let name := if c.usedName.isEmpty then "" else c.usedName ++ ": "
  let range := a.numArgsRange
  let expected :=
    match range.max with
    | none => toString range.min ++ " or more"
    | some max =>
        if range.min = max then toString range.min
        else toString range.min ++ " to " ++ toString max
  name ++ expected ++ " argument(s) expected. " ++ toString c.values.length ++ " provided."

/-- `validate` -/
def validate (c : Consumed) : Except Stop Unit :=
  if a.isOptional then
    if !c.isUsed && !a.defaultValue.hasValue && a.isRequired then
      .error (.runtimeError (a.names.headD "" ++ ": required."))
    else if c.isUsed && a.isRequired && c.values.isEmpty then
      .error (.runtimeError (c.usedName ++ ": no value provided."))
    else .ok ()
  else if !a.numArgsRange.contains c.values.length && !a.defaultValue.hasValue then
    .error (.runtimeError (a.nargsRangeText c))
  else .ok ()

/-- The exception of `get` -/
def noValue : Stop :=
  .logicError ("No value provided for '" ++ a.names.getLastD "" ++ "'.")

/-- `get<int>` -/
def getInt (c : Consumed) : Except Stop ℤ :=
  match c.values, a.defaultValue with
  | .int n :: _, _ => .ok n
  | [], .int n => .ok n
  | [], .empty => .error a.noValue
  | _, _ => .error .badAnyCast

/-- `get<std::vector<std::string>>` -/
def getStrings (c : Consumed) : Except Stop (List String) :=
  if c.values.isEmpty then
    match a.defaultValue with
    | .strings l => .ok l
    | .empty => if a.acceptsOptionalLikeValue then .error a.noValue else .ok []
    | _ => .error .badAnyCast
  else
    c.values.mapM fun v =>
      match v with
      | .string s => .ok s
      | _ => .error .badAnyCast

section Consume

variable {a : Argument} {f : String → Except Stop Value} {c : Consumed} {rest : List String}
  {usedName : String}

/-- An argument for one word takes the next if it is a value. -/
theorem consume_one (range : a.numArgsRange = .exactly 1)
    (values : a.acceptsOptionalLikeValue = false) (action : a.action = .valued f)
    (fresh : a.isRepeatable = true ∨ c.isUsed = false) (word : String) :
    a.consume c (word :: rest) usedName =
      if isPositional word then
        (f word).map fun x => (⟨true, usedName, c.values ++ [x]⟩, 1)
      else .error (.runtimeError "Too few arguments") := by
  have notDuplicate : (!a.isRepeatable && c.isUsed) = false := by
    rcases fresh with repeatable | unused
    · rw [repeatable]
      rfl
    · rw [unused, Bool.and_false]
  rw [consume, notDuplicate]
  simp only [range, NArgsRange.exactly, taken, values, Option.map_some, Option.getD_some,
    List.take_succ_cons, List.take_zero, List.takeWhile_cons, List.takeWhile_nil]
  cases isPositional word with
  | false => rfl
  | true =>
      simp only [apply, action]
      cases read : f word <;> simp [read, bind, Except.bind, pure, Except.pure, Except.map]

/-- With no word left, an argument that has a default value takes none. -/
theorem consume_nil (range : a.numArgsRange = .exactly 1)
    (default : a.defaultValue.hasValue = true)
    (fresh : a.isRepeatable = true ∨ c.isUsed = false) :
    a.consume c [] usedName = .ok (⟨true, usedName, c.values⟩, 0) := by
  have notDuplicate : (!a.isRepeatable && c.isUsed) = false := by
    rcases fresh with repeatable | unused
    · rw [repeatable]
      rfl
    · rw [unused, Bool.and_false]
  rw [consume, notDuplicate, default]
  simp [range, NArgsRange.exactly]

/-- The words that an argument has taken. -/
theorem getStrings_strings {l : List String} (taken : c.values = l.map .string) :
    a.getStrings c = if l = [] then a.getStrings {} else .ok l := by
  cases l with
  | nil => rw [getStrings, getStrings, taken, if_pos rfl]; rfl
  | cons s l =>
      have read : ((s :: l).map Value.string).mapM (fun v =>
          match v with
          | .string s => (.ok s : Except Stop String)
          | _ => .error .badAnyCast) = .ok (s :: l) := by
        rw [List.mapM_map]
        exact List.mapM_pure.trans (congrArg _ (List.map_id _))
      rw [getStrings, taken, if_neg (List.cons_ne_nil s l)]
      exact read

/-- An argument that is not repeatable is used once. -/
theorem consume_duplicate (once : a.isRepeatable = false) (used : c.isUsed = true) :
    a.consume c rest usedName = .error (.runtimeError "Duplicate argument") := by
  rw [consume, once, used]
  rfl

end Consume

end Argument

/-! ## Parsers -/

/-- `ArgumentParser`: the arguments in the order in which they were added. -/
abbrev ArgumentParser := List Argument

/-- What has been consumed by each argument. -/
abbrev ParseState := ℕ → Consumed

namespace ArgumentParser

variable (p : ArgumentParser)

/-- The names of an argument. -/
def namesAt (i : ℕ) : List String := ((p[i]?).map Argument.names).getD []

/-- `m_argument_map`. A later argument takes a name from an earlier one. -/
def find (name : String) : Option ℕ :=
  (List.range p.length).reverse.find? fun i => (p.namesAt i).contains name

/-- `m_positional_arguments` -/
def positionals : List ℕ :=
  (List.range p.length).filter fun i => ((p[i]?).map Argument.isOptional) == some false

/-- An argument consumes words. -/
def consumeAt (i : ℕ) (st : ParseState) (rest : List String) (usedName : String) :
    Except Stop (ParseState × ℕ) :=
  match p[i]? with
  | none => .ok (st, 0)
  | some a => (a.consume (st i) rest usedName).map fun (c, n) => (Function.update st i c, n)

/-- The loop over the letters of a compound word. -/
def compoundLoop (current : String) :
    List Char → List String → ParseState → ℕ → Except Stop (ParseState × ℕ)
  | [], _, st, n => .ok (st, n)
  | letter :: letters, rest, st, n =>
      match p.find (String.ofList ['-', letter]) with
      | none => .error (.runtimeError ("Unknown argument: " ++ current))
      | some i =>
          match p.consumeAt i st (rest.drop n) (String.ofList ['-', letter]) with
          | .error stop => .error stop
          | .ok (st, m) => compoundLoop current letters rest st (n + m)

/-- A word of several letters after one minus sign. -/
def isCompound (current : String) : Bool :=
  match current.toList with
  | '-' :: c :: _ => c != '-'
  | _ => false

/-- `parse_args_internal`, from a word on, with the positional arguments that are left. -/
def parseLoop (left : List ℕ) (words : List String) (st : ParseState) :
    Except Stop ParseState :=
  match words with
  | [] => .ok st
  | current :: rest =>
      if isPositional current then
        match left with
        | [] => .error (.runtimeError "Maximum number of positional arguments exceeded")
        | i :: left =>
            match p.consumeAt i st (current :: rest) "" with
            | .error stop => .error stop
            | .ok (st, n) => parseLoop left ((current :: rest).drop n) st
      else
        match p.find current with
        | some i =>
            match p.consumeAt i st rest current with
            | .error stop => .error stop
            | .ok (st, n) => parseLoop left (rest.drop n) st
        | none =>
            if isCompound current then
              match p.compoundLoop current current.toList.tail rest st 0 with
              | .error stop => .error stop
              | .ok (st, n) => parseLoop left (rest.drop n) st
            else .error (.runtimeError ("Unknown argument: " ++ current))
termination_by left.length + words.length
decreasing_by
  all_goals
    simp only [List.length_cons, List.length_drop]
    omega

/-- The names of all arguments, in the order of the map. -/
def namesInOrder : List String := (p.flatMap Argument.names).insertionSort (· ≤ ·)

/-- The loop over the map that validates each argument. -/
def validateAll (st : ParseState) : List String → Except Stop Unit
  | [] => .ok ()
  | name :: names =>
      match p.find name with
      | none => validateAll st names
      | some i =>
          match p[i]? with
          | none => validateAll st names
          | some a => (a.validate (st i)).bind fun _ => validateAll st names

/-- `parse_args`. The first word is the name of the program. -/
def parseArgs (arguments : List String) : Except Stop ParseState := do
  let st ← p.parseLoop p.positionals arguments.tail fun _ => {}
  p.validateAll st p.namesInOrder
  pure st

end ArgumentParser

end App
end WamrExt
