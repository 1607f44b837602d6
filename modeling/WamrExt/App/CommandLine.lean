import WamrExt.App.ArgumentParser

/-!
# The command line of the app

The app has two options that end it, three options with a value, and a positional argument that
takes the file and all words after it. Its parser goes over the words in a loop, and asks for each
word which argument takes it and how many words that takes (`parseLoop_eq_ok`).

A command line is options with their values, and then a file with the arguments of the guest
(`Spells`). The words of the guest may look like options: the positional argument takes them as
they are. The app gets nothing from any other command line (`readCommandLine_eq_ok`).
-/

set_option autoImplicit false

namespace WamrExt
namespace App

/-! ## The parser of the app -/

/-- The argument `-h`, with the text that is printed left out. -/
def helpArgument : Argument :=
  ({ Argument.new ["-h", "--help"] with
    action := .void fun _ => .error (.exit 0)
    defaultValue := .bool false }.implicit (.bool true)).nargs (.exactly 0)

/-- The argument `-v`, with the text that is printed left out. -/
def versionArgument : Argument :=
  ({ Argument.new ["-v", "--version"] with
    action := .void fun _ => .error (.exit 0)
    defaultValue := .bool false }.implicit (.bool true)).nargs (.exactly 0)

/-- The argument `--max-memory` -/
def maxMemoryArgument : Argument :=
  { Argument.new ["--max-memory"] with
    action := .valued fun s => (parseNumber s).map .int
    defaultValue := .int 0 }

/-- The argument `--dir` -/
def dirArgument : Argument :=
  { Argument.new ["--dir"] with defaultValue := .strings [], isRepeatable := true }

/-- The argument `--cmd` -/
def cmdArgument : Argument :=
  { Argument.new ["--cmd"] with defaultValue := .strings [], isRepeatable := true }

/-- The argument `file_and_args` -/
def fileAndArgsArgument : Argument := (Argument.new ["file_and_args"]).remaining

/-- `ap` -/
def miniAppParser : ArgumentParser :=
  [helpArgument, versionArgument, maxMemoryArgument, dirArgument, cmdArgument,
    fileAndArgsArgument]

/-- The number of an argument of the app by its name. -/
theorem find_miniAppParser (name : String) : miniAppParser.find name =
    if name = "file_and_args" then some 5
    else if name = "--cmd" then some 4
    else if name = "--dir" then some 3
    else if name = "--max-memory" then some 2
    else if name = "-v" ∨ name = "--version" then some 1
    else if name = "-h" ∨ name = "--help" then some 0
    else none := by
  have help : miniAppParser.namesAt 0 = ["-h", "--help"] := by decide
  have version : miniAppParser.namesAt 1 = ["-v", "--version"] := by decide
  have maxMemory : miniAppParser.namesAt 2 = ["--max-memory"] := by decide
  have dir : miniAppParser.namesAt 3 = ["--dir"] := by decide
  have cmd : miniAppParser.namesAt 4 = ["--cmd"] := by decide
  have files : miniAppParser.namesAt 5 = ["file_and_args"] := by decide
  have order : (List.range miniAppParser.length).reverse = [5, 4, 3, 2, 1, 0] := by decide
  rw [ArgumentParser.find, order]
  simp only [List.find?_cons, List.find?_nil, help, version, maxMemory, dir, cmd, files,
    List.contains_cons, List.contains_nil, Bool.or_false, beq_eq_decide]
  grind

/-! ## Options -/

/-- The options with a value. -/
inductive OptionName where
  | maxMemory
  | dir
  | cmd
  deriving DecidableEq, Repr

/-- An option with its value. -/
structure AppOption where
  kind : OptionName
  value : String
  deriving DecidableEq, Repr

namespace OptionName

def name : OptionName → String
  | .maxMemory => "--max-memory"
  | .dir => "--dir"
  | .cmd => "--cmd"

/-- The argument of the option. -/
def argument : OptionName → Argument
  | .maxMemory => maxMemoryArgument
  | .dir => dirArgument
  | .cmd => cmdArgument

/-- The number of the argument. -/
def index : OptionName → ℕ
  | .maxMemory => 2
  | .dir => 3
  | .cmd => 4

/-- What the action makes of a value. -/
def read : OptionName → String → Except Stop Value
  | .maxMemory, value => (parseNumber value).map .int
  | .dir, value | .cmd, value => .ok (.string value)

/-- The option may be given now. -/
def Fresh (o : OptionName) (st : ParseState) : Prop :=
  o.argument.isRepeatable = true ∨ (st o.index).isUsed = false

instance (o : OptionName) (st : ParseState) : Decidable (o.Fresh st) :=
  inferInstanceAs (Decidable (_ ∨ _))

/-- A value of the option has been read. -/
def add (o : OptionName) (x : Value) (st : ParseState) : ParseState :=
  Function.update st o.index ⟨true, o.name, (st o.index).values ++ [x]⟩

/-- The name of the option has been read, with no value. -/
def addNone (o : OptionName) (st : ParseState) : ParseState :=
  Function.update st o.index ⟨true, o.name, (st o.index).values⟩

variable {o : OptionName} {st : ParseState} {rest : List String}

theorem not_positional_name (o : OptionName) : isPositional o.name = false := by
  cases o <;> decide

theorem find_name (o : OptionName) : miniAppParser.find o.name = some o.index := by
  rw [find_miniAppParser]
  cases o <;> decide

theorem argument_at (o : OptionName) : miniAppParser[o.index]? = some o.argument := by
  cases o <;> rfl

/-- An option with a word after it. -/
theorem consumeAt_cons (fresh : o.Fresh st) (value : String) :
    miniAppParser.consumeAt o.index st (value :: rest) o.name =
      if isPositional value then (o.read value).map fun x => (o.add x st, 1)
      else .error (.runtimeError "Too few arguments") := by
  have consumed : o.argument.consume (st o.index) (value :: rest) o.name =
      if isPositional value then
        (o.read value).map fun x => (⟨true, o.name, (st o.index).values ++ [x]⟩, 1)
      else .error (.runtimeError "Too few arguments") := by
    cases o <;> exact Argument.consume_one rfl rfl rfl fresh _
  rw [ArgumentParser.consumeAt, o.argument_at]
  dsimp only
  rw [consumed]
  cases isPositional value with
  | false => rfl
  | true => cases o.read value <;> rfl

/-- An option with no word after it. -/
theorem consumeAt_nil (fresh : o.Fresh st) :
    miniAppParser.consumeAt o.index st [] o.name = .ok (o.addNone st, 0) := by
  have consumed : o.argument.consume (st o.index) [] o.name =
      .ok (⟨true, o.name, (st o.index).values⟩, 0) := by
    cases o <;> exact Argument.consume_nil rfl rfl fresh
  rw [ArgumentParser.consumeAt, o.argument_at]
  dsimp only
  rw [consumed]
  rfl

/-- An option that is given again, and is not repeatable. -/
theorem consumeAt_duplicate (again : ¬ o.Fresh st) :
    miniAppParser.consumeAt o.index st rest o.name =
      .error (.runtimeError "Duplicate argument") := by
  obtain ⟨once, used⟩ := not_or.mp again
  rw [ArgumentParser.consumeAt, o.argument_at]
  dsimp only
  rw [Argument.consume_duplicate (Bool.eq_false_of_not_eq_true once)
    (Bool.eq_true_of_not_eq_false used)]
  rfl

end OptionName

/-- The words of an option. -/
def AppOption.words (o : AppOption) : List String := [o.kind.name, o.value]

/-- What the last argument has taken, from the file on. -/
def addFiles (words : List String) (st : ParseState) : ParseState :=
  Function.update st 5 ⟨true, "", (st 5).values ++ words.map .string⟩

theorem consumeAt_files {st : ParseState} (unused : (st 5).isUsed = false)
    (words : List String) :
    miniAppParser.consumeAt 5 st words "" = .ok (addFiles words st, words.length) := by
  have consumed : fileAndArgsArgument.consume (st 5) words "" =
      .ok (⟨true, "", (st 5).values ++ words.map .string⟩, words.length) := by
    rw [Argument.consume, unused, Bool.and_false]
    have read : words.mapM (fun s => (.ok (.string s) : Except Stop Value)) =
        .ok (words.map .string) := List.mapM_pure
    simp [fileAndArgsArgument, Argument.remaining, Argument.nargs, NArgsRange.any, Argument.new,
      Argument.taken, Argument.apply, read, bind, Except.bind, pure, Except.pure, Except.map]
  rw [ArgumentParser.consumeAt, show miniAppParser[5]? = some fileAndArgsArgument from rfl]
  dsimp only
  rw [consumed]
  rfl

/-! ## The loop over the words -/

section Loop

open ArgumentParser

variable {st st' : ParseState} {words rest : List String} {current : String}

/-- The first two arguments end the app. -/
theorem consumeAt_exit {i : ℕ} (low : i < 2) (st : ParseState) (rest : List String)
    (usedName : String) : ∃ stop, miniAppParser.consumeAt i st rest usedName = .error stop := by
  have stops : ∀ a : Argument, a.numArgsRange = .exactly 0 →
      a.action = .void (fun _ => .error (.exit 0)) →
        ∃ stop, a.consume (st i) rest usedName = .error stop := by
    intro a range action
    rw [Argument.consume]
    split
    · exact ⟨_, rfl⟩
    · simp only [range, action, NArgsRange.exactly]
      exact ⟨_, rfl⟩
  obtain rfl | rfl : i = 0 ∨ i = 1 := by omega
  · obtain ⟨stop, consumed⟩ := stops helpArgument rfl rfl
    refine ⟨stop, ?_⟩
    rw [consumeAt, show miniAppParser[0]? = some helpArgument from rfl]
    dsimp only
    rw [consumed]
    rfl
  · obtain ⟨stop, consumed⟩ := stops versionArgument rfl rfl
    refine ⟨stop, ?_⟩
    rw [consumeAt, show miniAppParser[1]? = some versionArgument from rfl]
    dsimp only
    rw [consumed]
    rfl

/-- A name of one letter ends the app. -/
theorem find_letter {letter : Char} {i : ℕ}
    (found : miniAppParser.find (String.ofList ['-', letter]) = some i) : i < 2 := by
  have short : ∀ name : String, name.toList.length ≠ 2 →
      String.ofList ['-', letter] ≠ name := by
    rintro _ long rfl
    rw [String.toList_ofList] at long
    exact long rfl
  rw [find_miniAppParser, if_neg (short _ (by decide)), if_neg (short _ (by decide)),
    if_neg (short _ (by decide)), if_neg (short _ (by decide))] at found
  split at found
  · cases found
    decide
  · split at found
    · cases found
      decide
    · cases found

/-- A compound word ends the app, or is refused. -/
theorem compoundLoop_stops (current : String) (letter : Char) (letters : List Char)
    (rest : List String) (st : ParseState) (n : ℕ) :
    ∃ stop, miniAppParser.compoundLoop current (letter :: letters) rest st n = .error stop := by
  rw [compoundLoop]
  split
  next => exact ⟨_, rfl⟩
  next i found =>
    obtain ⟨stop, consumed⟩ :=
      consumeAt_exit (find_letter found) st (rest.drop n) (String.ofList ['-', letter])
    rw [consumed]
    exact ⟨stop, rfl⟩

/-- A name that does not end the app is that of an option. -/
theorem find_option {i : ℕ} (found : miniAppParser.find current = some i)
    (named : isPositional current = false) : i < 2 ∨ ∃ o : OptionName, current = o.name := by
  rw [find_miniAppParser] at found
  split at found
  next files =>
    rw [files] at named
    cases named
  next =>
    split at found
    next cmd => exact .inr ⟨.cmd, cmd⟩
    next =>
      split at found
      next dir => exact .inr ⟨.dir, dir⟩
      next =>
        split at found
        next maxMemory => exact .inr ⟨.maxMemory, maxMemory⟩
        next =>
          refine .inl ?_
          split at found
          · cases found
            decide
          · split at found <;> cases found
            decide

/-- The words of options are read one option after another. -/
inductive Reads : ParseState → List AppOption → ParseState → Prop where
  | nil {st : ParseState} : Reads st [] st
  | cons {st st' : ParseState} {o : OptionName} {value : String} {x : Value}
      {opts : List AppOption} : o.Fresh st → isPositional value = true → o.read value = .ok x →
        Reads (o.add x st) opts st' → Reads st (⟨o, value⟩ :: opts) st'

/-- How a command line ends after the options: with nothing, with the name of an option, or with
the file and its arguments. -/
inductive Ends (st : ParseState) : List String → ParseState → Prop where
  | nothing : Ends st [] st
  | name {o : OptionName} : o.Fresh st → Ends st [o.name] (o.addNone st)
  | files {file : String} {args : List String} : isPositional file = true →
      Ends st (file :: args) (addFiles (file :: args) st)

theorem parseLoop_positional (left : List ℕ) (positional : isPositional current = true)
    (unused : (st 5).isUsed = false) :
    miniAppParser.parseLoop (5 :: left) (current :: rest) st =
      .ok (addFiles (current :: rest) st) := by
  rw [parseLoop, if_pos positional, consumeAt_files unused]
  dsimp only
  rw [List.drop_length, parseLoop]

theorem parseLoop_name (left : List ℕ) (o : OptionName) (rest : List String) :
    miniAppParser.parseLoop left (o.name :: rest) st =
      match miniAppParser.consumeAt o.index st rest o.name with
      | .error stop => .error stop
      | .ok (st, n) => miniAppParser.parseLoop left (rest.drop n) st := by
  have named : ¬ isPositional o.name = true := by
    rw [o.not_positional_name]
    exact Bool.false_ne_true
  have found := o.find_name
  rw [parseLoop.eq_def]
  dsimp only
  rw [if_neg named]
  generalize miniAppParser.find o.name = i at found
  subst found
  rfl

/-- An option with its value, and what comes after it. -/
theorem parseLoop_option {left : List ℕ} {o : OptionName} {value : String} :
    miniAppParser.parseLoop left (o.name :: value :: rest) st = .ok st' ↔
      o.Fresh st ∧ isPositional value = true ∧ ∃ x, o.read value = .ok x ∧
        miniAppParser.parseLoop left rest (o.add x st) = .ok st' := by
  rw [parseLoop_name]
  by_cases fresh : o.Fresh st
  · rw [OptionName.consumeAt_cons fresh]
    cases isPositional value with
    | false => simp
    | true => cases o.read value <;> simp [fresh, Except.map]
  · rw [OptionName.consumeAt_duplicate fresh]
    simp [fresh]

theorem add_files {o : OptionName} {x : Value} : (o.add x st) 5 = st 5 :=
  Function.update_of_ne (by cases o <;> decide) _ _

/-- A word that is no value is the name of an option, unless the app ends there. -/
theorem exists_name_of_parsed {left : List ℕ} (named : ¬ isPositional current = true)
    (parsed : miniAppParser.parseLoop left (current :: rest) st = .ok st') :
    ∃ o : OptionName, current = o.name := by
  rw [parseLoop.eq_def] at parsed
  dsimp only at parsed
  rw [if_neg named] at parsed
  split at parsed
  next i found =>
    rcases find_option found (Bool.eq_false_of_not_eq_true named) with low | option
    · obtain ⟨stop, consumed⟩ := consumeAt_exit low st rest current
      rw [consumed] at parsed
      cases parsed
    · exact option
  next =>
    split at parsed
    next compound =>
      obtain ⟨letter, letters, same⟩ : ∃ c cs, current.toList.tail = c :: cs := by
        rw [isCompound] at compound
        split at compound
        next c cs same => exact ⟨c, cs, by rw [same]; rfl⟩
        next => cases compound
      obtain ⟨stop, stops⟩ := compoundLoop_stops current letter letters rest st 0
      rw [same, stops] at parsed
      cases parsed
    next => cases parsed

/-- **What the loop accepts.** It is options with their values, and then the file and its
arguments, if there is a file. -/
theorem parseLoop_eq_ok (unused : (st 5).isUsed = false) :
    miniAppParser.parseLoop [5] words st = .ok st' ↔
      ∃ opts mid last, words = opts.flatMap AppOption.words ++ last ∧ Reads st opts mid ∧
        Ends mid last st' := by
  constructor
  · intro parsed
    -- each turn leaves fewer words
    induction length : words.length using Nat.strong_induction_on generalizing words st with
    | _ n ih =>
        cases words with
        | nil =>
            rw [parseLoop] at parsed
            cases parsed
            exact ⟨[], _, [], rfl, .nil, .nothing⟩
        | cons current rest =>
            by_cases positional : isPositional current = true
            · rw [parseLoop_positional [] positional unused] at parsed
              cases parsed
              exact ⟨[], _, _, rfl, .nil, .files positional⟩
            · obtain ⟨o, rfl⟩ := exists_name_of_parsed positional parsed
              cases rest with
              | nil =>
                  rw [parseLoop_name] at parsed
                  by_cases fresh : o.Fresh st
                  · rw [OptionName.consumeAt_nil fresh] at parsed
                    dsimp only at parsed
                    rw [List.drop_nil, parseLoop] at parsed
                    cases parsed
                    exact ⟨[], _, _, rfl, .nil, .name fresh⟩
                  · rw [OptionName.consumeAt_duplicate fresh] at parsed
                    cases parsed
              | cons value rest =>
                  obtain ⟨fresh, isValue, x, read, later⟩ := parseLoop_option.mp parsed
                  obtain ⟨opts, mid, last, split, reads, ends⟩ :=
                    ih rest.length (by simp at length; omega) (by rwa [add_files]) later rfl
                  exact ⟨⟨o, value⟩ :: opts, mid, last, by rw [split]; rfl,
                    .cons fresh isValue read reads, ends⟩
  · rintro ⟨opts, mid, last, rfl, reads, ends⟩
    induction reads with
    | nil =>
        cases ends with
        | nothing => rw [List.flatMap_nil, List.append_nil, parseLoop]
        | name fresh =>
            rw [List.flatMap_nil, List.nil_append, parseLoop_name, OptionName.consumeAt_nil fresh]
            dsimp only
            rw [List.drop_nil, parseLoop]
        | files positional => exact parseLoop_positional [] positional unused
    | cons fresh positional read _ ih =>
        rw [List.flatMap_cons, List.append_assoc]
        refine parseLoop_option.mpr ⟨fresh, positional, _, read, ih ?_ ends⟩
        rwa [add_files]

end Loop

/-! ## What is read -/

/-- The values of an option. -/
def valuesOf (o : OptionName) (opts : List AppOption) : List String :=
  (opts.filter fun opt => opt.kind = o).map AppOption.value

section Values

variable {st mid : ParseState} {opts : List AppOption} {o : OptionName}

theorem valuesOf_cons_self (o : OptionName) (value : String) :
    valuesOf o (⟨o, value⟩ :: opts) = value :: valuesOf o opts := by
  rw [valuesOf, List.filter_cons_of_pos (by simp)]
  rfl

theorem valuesOf_cons_of_ne {kind : OptionName} (other : kind ≠ o) (value : String) :
    valuesOf o (⟨kind, value⟩ :: opts) = valuesOf o opts := by
  rw [valuesOf, List.filter_cons_of_neg (by simpa using other)]
  rfl

theorem index_injective {o o' : OptionName} (same : o.index = o'.index) : o = o' := by
  cases o <;> cases o' <;> first | rfl | cases same

theorem read_string (strings : o ≠ .maxMemory) (value : String) :
    o.read value = .ok (.string value) := by
  cases o with
  | maxMemory => exact absurd rfl strings
  | dir | cmd => rfl

theorem read_maxMemory {value : String} {x : Value} :
    OptionName.maxMemory.read value = .ok x ↔ ∃ m, parseNumber value = .ok m ∧ x = .int m := by
  rw [OptionName.read]
  cases parseNumber value with
  | error stop => simp [Except.map]
  | ok m => simp [Except.map, eq_comm]

/-- The values of an option are in its argument, in their order. -/
theorem Reads.strings (reads : Reads st opts mid) (strings : o ≠ .maxMemory) :
    (mid o.index).values = (st o.index).values ++ (valuesOf o opts).map .string := by
  induction reads with
  | nil => exact (List.append_nil _).symm
  | @cons st st' kind value x opts fresh positional read later ih =>
      rw [ih]
      by_cases here : kind = o
      · subst here
        rw [read_string strings] at read
        cases read
        rw [valuesOf_cons_self, OptionName.add, Function.update_self]
        simp
      · have other : o.index ≠ kind.index := fun same => here (index_injective same).symm
        rw [valuesOf_cons_of_ne here, OptionName.add, Function.update_of_ne other]

/-- The memory is given once at most, and is a number. -/
def MemoryRead (opts : List AppOption) (values values' : List Value) : Prop :=
  (valuesOf .maxMemory opts = [] ∧ values' = values) ∨
    ∃ s m, valuesOf .maxMemory opts = [s] ∧ parseNumber s = .ok m ∧ values' = values ++ [.int m]

theorem Reads.memory (reads : Reads st opts mid) :
    MemoryRead opts (st 2).values (mid 2).values ∧
      ((st 2).isUsed = true → valuesOf .maxMemory opts = []) := by
  induction reads with
  | nil => exact ⟨.inl ⟨rfl, rfl⟩, fun _ => rfl⟩
  | @cons st st' kind value x opts fresh positional read later ih =>
      obtain ⟨memory, once⟩ := ih
      by_cases here : kind = .maxMemory
      · subst here
        have unused : (st 2).isUsed = false := fresh.resolve_left Bool.false_ne_true
        have none : valuesOf .maxMemory opts = [] := once rfl
        obtain ⟨m, parsed, rfl⟩ := read_maxMemory.mp read
        refine ⟨.inr ⟨value, m, ?_, parsed, ?_⟩, fun used => ?_⟩
        · rw [valuesOf_cons_self, none]
        · rcases memory with ⟨_, same⟩ | ⟨s, m', one, _⟩
          · exact same
          · rw [none] at one
            cases one
        · rw [unused] at used
          cases used
      · have other : OptionName.maxMemory.index ≠ kind.index :=
          fun same => here (index_injective same).symm
        have same : kind.add x st 2 = st 2 := Function.update_of_ne other _ _
        rw [same] at memory once
        rw [MemoryRead, valuesOf_cons_of_ne here]
        exact ⟨memory, once⟩

theorem Reads.positional (reads : Reads st opts mid) :
    ∀ opt ∈ opts, isPositional opt.value = true := by
  induction reads with
  | nil => exact nofun
  | cons fresh positional read later ih => exact List.forall_mem_cons.mpr ⟨positional, ih⟩

theorem Reads.files (reads : Reads st opts mid) : mid 5 = st 5 := by
  induction reads with
  | nil => rfl
  | cons fresh positional read later ih => rw [ih, add_files]

/-- Options can be read when their values are values, and the memory is given once at most. -/
theorem exists_reads (st : ParseState) (values : ∀ opt ∈ opts, isPositional opt.value = true)
    (memory : valuesOf .maxMemory opts = [] ∨ (st 2).isUsed = false ∧
      ∃ s m, valuesOf .maxMemory opts = [s] ∧ parseNumber s = .ok m) :
    ∃ mid, Reads st opts mid := by
  induction opts generalizing st with
  | nil => exact ⟨st, .nil⟩
  | cons opt opts ih =>
      obtain ⟨kind, value⟩ := opt
      obtain ⟨positional, others⟩ := List.forall_mem_cons.mp values
      by_cases here : kind = .maxMemory
      · subst here
        rw [valuesOf_cons_self] at memory
        rcases memory with none | ⟨unused, s, m, one, parsed⟩
        · cases none
        · obtain ⟨rfl, none⟩ := List.cons.inj one
          obtain ⟨mid, reads⟩ := ih (OptionName.maxMemory.add (.int m) st) others (.inl none)
          exact ⟨mid, .cons (.inr unused) positional (read_maxMemory.mpr ⟨m, parsed, rfl⟩) reads⟩
      · have other : OptionName.maxMemory.index ≠ kind.index :=
          fun same => here (index_injective same).symm
        have same : kind.add (.string value) st 2 = st 2 := Function.update_of_ne other _ _
        rw [valuesOf_cons_of_ne here] at memory
        obtain ⟨mid, reads⟩ := ih (kind.add (.string value) st) others (by rwa [same])
        have repeatable : kind.argument.isRepeatable = true := by
          cases kind with
          | maxMemory => exact absurd rfl here
          | dir | cmd => rfl
        exact ⟨mid, .cons (.inl repeatable) positional (read_string here value) reads⟩

end Values

/-- No argument of the app is required. -/
theorem validate_eq_ok {i : ℕ} {a : Argument} (known : miniAppParser[i]? = some a)
    (c : Consumed) : a.validate c = .ok () := by
  have member := List.mem_of_getElem? known
  simp only [miniAppParser, List.mem_cons, List.not_mem_nil, or_false] at member
  rcases member with rfl | rfl | rfl | rfl | rfl | rfl <;>
    simp [Argument.validate, helpArgument, versionArgument, maxMemoryArgument, dirArgument,
      cmdArgument, fileAndArgsArgument, Argument.remaining, Argument.implicit, Argument.nargs,
      Argument.new, NArgsRange.any, NArgsRange.contains, Value.hasValue]

theorem validateAll_eq_ok (st : ParseState) (names : List String) :
    miniAppParser.validateAll st names = .ok () := by
  induction names with
  | nil => rfl
  | cons name names ih =>
      rw [ArgumentParser.validateAll]
      split
      next => exact ih
      next i _ =>
        split
        next => exact ih
        next a known =>
          rw [validate_eq_ok known]
          exact ih

/-! ## Command lines -/

/-- What the app gets from its command line. -/
structure MiniAppArgs where
  maxMemory : ℤ
  progArgs : List String
  dirs : List String
  cmds : List String
  deriving DecidableEq, Repr

/-- What `main` reads from the parser. -/
def readCommandLine (arguments : List String) : Except Stop MiniAppArgs := do
  let st ← miniAppParser.parseArgs arguments
  let maxMemory ← maxMemoryArgument.getInt (st 2)
  let progArgs ← fileAndArgsArgument.getStrings (st 5)
  let dirs ← dirArgument.getStrings (st 3)
  let cmds ← cmdArgument.getStrings (st 4)
  pure ⟨maxMemory, progArgs, dirs, cmds⟩

/-- Options, and then the file with its arguments, are a command line. -/
structure Spells (opts : List AppOption) (args : MiniAppArgs) (words : List String) : Prop where
  split : words = opts.flatMap AppOption.words ++ args.progArgs
  file : ∃ file rest, args.progArgs = file :: rest ∧ isPositional file = true
  values : ∀ opt ∈ opts, isPositional opt.value = true
  memory : (valuesOf .maxMemory opts = [] ∧ args.maxMemory = 0) ∨
    ∃ s, valuesOf .maxMemory opts = [s] ∧ parseNumber s = .ok args.maxMemory
  dirs : args.dirs = valuesOf .dir opts
  cmds : args.cmds = valuesOf .cmd opts

section CommandLine

variable {st st' : ParseState} {opts : List AppOption} {program : String} {words : List String}
  {args : MiniAppArgs}

theorem parseArgs_eq_ok (program : String) : miniAppParser.parseArgs (program :: words) = .ok st' ↔
    miniAppParser.parseLoop [5] words (fun _ => {}) = .ok st' := by
  have positionals : miniAppParser.positionals = [5] := by decide
  rw [ArgumentParser.parseArgs, positionals, List.tail_cons]
  cases miniAppParser.parseLoop [5] words fun _ => {} with
  | error stop => exact Iff.rfl
  | ok st =>
      simp only [bind, Except.bind, validateAll_eq_ok]
      exact Iff.rfl

/-- The values of the positional argument are the file and what comes after it. -/
theorem ends_files {mid : ParseState} {last : List String} (ends : Ends mid last st')
    (none : (mid 5).values = []) {progArgs : List String}
    (files : fileAndArgsArgument.getStrings (st' 5) = .ok progArgs) :
    st' = addFiles progArgs mid ∧ last = progArgs ∧
      ∃ file rest, progArgs = file :: rest ∧ isPositional file = true := by
  have noFiles : ∀ st : ParseState, (st 5).values = [] →
      fileAndArgsArgument.getStrings (st 5) ≠ .ok progArgs := by
    intro st empty
    rw [Argument.getStrings_strings (l := []) empty, if_pos rfl]
    exact nofun
  cases ends with
  | nothing => exact absurd files (noFiles _ none)
  | @name o fresh =>
      refine absurd files (noFiles _ ?_)
      have other : 5 ≠ o.index := by cases o <;> decide
      rw [OptionName.addNone, Function.update_of_ne other, none]
  | @files file rest positional =>
      have taken : (addFiles (file :: rest) mid 5).values = (file :: rest).map .string := by
        rw [addFiles, Function.update_self, none, List.nil_append]
      rw [Argument.getStrings_strings taken, if_neg (List.cons_ne_nil _ _)] at files
      cases files
      exact ⟨rfl, rfl, file, rest, rfl, positional⟩

/-- What is read of the options, whatever file comes after them. -/
theorem Reads.gets {mid : ParseState} (reads : Reads (fun _ => {}) opts mid)
    (progArgs : List String) :
    dirArgument.getStrings (addFiles progArgs mid 3) = .ok (valuesOf .dir opts) ∧
      cmdArgument.getStrings (addFiles progArgs mid 4) = .ok (valuesOf .cmd opts) ∧
        ∀ m, maxMemoryArgument.getInt (addFiles progArgs mid 2) = .ok m ↔
          (valuesOf .maxMemory opts = [] ∧ m = 0) ∨
            ∃ s, valuesOf .maxMemory opts = [s] ∧ parseNumber s = .ok m := by
  have apart : ∀ o : OptionName, addFiles progArgs mid o.index = mid o.index := fun o =>
    Function.update_of_ne (by cases o <;> decide) _ _
  have strings : ∀ o : OptionName, o ≠ .maxMemory →
      o.argument.getStrings (addFiles progArgs mid o.index) = .ok (valuesOf o opts) := by
    intro o strings
    have taken := reads.strings strings
    rw [List.nil_append] at taken
    rw [apart, Argument.getStrings_strings taken]
    split
    next none =>
      rw [none]
      cases o with
      | maxMemory => exact absurd rfl strings
      | dir | cmd => rfl
    next => rfl
  have memory : addFiles progArgs mid 2 = mid 2 := apart .maxMemory
  refine ⟨strings .dir nofun, strings .cmd nofun, fun m => ?_⟩
  rw [memory]
  rw [Argument.getInt]
  rcases reads.memory.1 with ⟨none, same⟩ | ⟨s, m', one, parsed, same⟩
  · rw [same, none]
    simp [maxMemoryArgument, eq_comm]
  · rw [same, one]
    simp [parsed, eq_comm]

/-- **A command line is read exactly when it is spelled by options and a file**, and what is read
is what they say. All words from the file on are arguments of the guest. -/
theorem readCommandLine_eq_ok :
    readCommandLine (program :: words) = .ok args ↔ ∃ opts, Spells opts args words := by
  have readAs : ∀ st, miniAppParser.parseArgs (program :: words) = .ok st →
      (readCommandLine (program :: words) = .ok args ↔
        maxMemoryArgument.getInt (st 2) = .ok args.maxMemory ∧
          fileAndArgsArgument.getStrings (st 5) = .ok args.progArgs ∧
            dirArgument.getStrings (st 3) = .ok args.dirs ∧
              cmdArgument.getStrings (st 4) = .ok args.cmds) := by
    intro st parsed
    obtain ⟨maxMemory, progArgs, dirs, cmds⟩ := args
    rw [readCommandLine, parsed]
    simp only [bind, Except.bind]
    cases maxMemoryArgument.getInt (st 2) <;> cases fileAndArgsArgument.getStrings (st 5) <;>
      cases dirArgument.getStrings (st 3) <;> cases cmdArgument.getStrings (st 4) <;>
        simp [pure, Except.pure]
  constructor
  · intro read
    cases parsed : miniAppParser.parseArgs (program :: words) with
    | error stop =>
        rw [readCommandLine, parsed] at read
        cases read
    | ok st =>
        obtain ⟨memory, files, dirs, cmds⟩ := (readAs st parsed).mp read
        obtain ⟨opts, mid, last, split, reads, ends⟩ :=
          (parseLoop_eq_ok rfl).mp ((parseArgs_eq_ok program).mp parsed)
        obtain ⟨rfl, rfl, file⟩ := ends_files ends (by rw [reads.files]) files
        obtain ⟨dirs', cmds', memory'⟩ := reads.gets args.progArgs
        refine ⟨opts, split, file, reads.positional, (memory' _).mp memory, ?_, ?_⟩
        · exact Except.ok.inj (dirs.symm.trans dirs')
        · exact Except.ok.inj (cmds.symm.trans cmds')
  · rintro ⟨opts, split, ⟨file, rest, same, positional⟩, values, memory, dirs, cmds⟩
    have start : valuesOf .maxMemory opts = [] ∨ ({} : Consumed).isUsed = false ∧
        ∃ s m, valuesOf .maxMemory opts = [s] ∧ parseNumber s = .ok m := by
      rcases memory with ⟨none, _⟩ | ⟨s, one, parsed⟩
      · exact .inl none
      · exact .inr ⟨rfl, s, _, one, parsed⟩
    obtain ⟨mid, reads⟩ := exists_reads (fun _ => {}) values start
    have ends : Ends mid args.progArgs (addFiles args.progArgs mid) := by
      rw [same]
      exact .files positional
    have parsed := (parseArgs_eq_ok program).mpr ((parseLoop_eq_ok rfl).mpr
      ⟨opts, mid, _, split, reads, ends⟩)
    obtain ⟨dirs', cmds', memory'⟩ := reads.gets args.progArgs
    refine (readAs _ parsed).mpr ⟨(memory' _).mpr memory, ?_, dirs ▸ dirs', cmds ▸ cmds'⟩
    have taken : (addFiles args.progArgs mid 5).values = args.progArgs.map .string := by
      rw [addFiles, Function.update_self, reads.files, List.nil_append]
    rw [Argument.getStrings_strings taken, if_neg (by rw [same]; exact List.cons_ne_nil _ _)]

end CommandLine

end App
end WamrExt
