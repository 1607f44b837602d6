import WamrExt.Instance.Config
import WamrExt.Lib.Owners
import WamrExt.Lib.Transition

/-!
# Loading a module

`wamr_ext_module_load_by_file` opens a file, maps it and closes it, and gives the mapping to
`WamrExtModuleLoad`; `wamr_ext_module_load_by_buffer` gives it a copy of the bytes. The module keeps
what it was loaded from, as the runtime does not copy it. If it is not loaded, the memory goes back
with the last pointer to it.

Any number of threads load modules, and only `WamrExtModuleLoad` has a lock. In every run each call
closes the descriptor that it has opened and no other, and each mapping or copy belongs to one call
or to one module, or has been given back once (`loads_sound`). So nothing is left of a call that has
returned but the module, and the module keeps its bytes. The size of a file is cut to 32 bits, so a
module has the whole file exactly if its size fits (`whole_file_iff`).

What a mapping shows of a file that is written to is not specified. Here nobody writes to the files.
-/

set_option autoImplicit false

namespace WamrExt
namespace Instance

open Owners Transition

/-- `WamrExtCheckNewModuleName`. A name may be a null pointer. -/
def wamrExtCheckNewModuleName (isBuiltInModule : String → Bool) : Option String → ℤ
  | none => hostEINVAL
  | some name =>
      if name = "" ∨ isBuiltInModule name ∨ name = "wamr_ext" then hostEINVAL else 0

/-- `WamrExtModule`, with the number of its buffer and the length that the runtime was given. The
module of the runtime and the options for instances are left out. -/
structure WamrExtModule where
  moduleName : String
  pModuleBuf : ℕ
  len : UInt32
  deriving DecidableEq, Repr

/-- Where a thread is in a load by file or by buffer. -/
inductive LoadPoint where
  | idle
  | opened (name : String) (file fd : ℕ)
  | sized (name : String) (file fd : ℕ) (fileSize : UInt32)
  | mapped (name : String) (fd buf : ℕ) (fileSize : UInt32)
  /-- The descriptor is closed at the end. -/
  | failed (fd : ℕ) (ret : ℤ)
  /-- Before `WamrExtModuleLoad`. -/
  | loading (name : Option String) (buf : ℕ) (len : UInt32)
  /-- The last pointer to the buffer goes away. -/
  | dropping (buf : ℕ) (ret : ℤ)
  | returned (ret : ℤ)
  deriving DecidableEq, Repr

/-- The descriptor and the buffer of a call. -/
def LoadPoint.fd : LoadPoint → Option ℕ
  | .opened _ _ fd | .sized _ _ fd _ | .mapped _ fd _ _ | .failed fd _ => some fd
  | _ => none

def LoadPoint.buf : LoadPoint → Option ℕ
  | .mapped _ _ buf _ | .loading _ buf _ | .dropping buf _ => some buf
  | _ => none

/-- A mapping of a file with the length that is mapped, or a copy of bytes. -/
inductive ModuleBuf where
  | mapping (file : ℕ) (len : UInt32)
  | copy (bytes : List UInt8)
  deriving DecidableEq, Repr

/-- Who has a buffer. -/
inductive BufHolder where
  | call (thread : ℕ)
  | module (k : ℕ)
  deriving DecidableEq, Repr

/-- The descriptors of the process with the calls that have opened them, the buffers with who has
them, the threads and the modules. -/
structure Loads where
  fds : ℕ → Option ℕ := fun _ => none
  otherFDs : ℕ → Bool := fun _ => false
  made : ℕ := 0
  bufs : ℕ → ModuleBuf := fun _ => .copy []
  holders : ℕ → Option BufHolder := fun _ => none
  drops : ℕ → ℕ := fun _ => 0
  points : ℕ → LoadPoint := fun _ => .idle
  modules : List WamrExtModule := []
  /-- How often a call has closed a number that was not its own. -/
  strayCloses : ℕ := 0

inductive LoadAction where
  /-- `wamr_ext_module_load_by_file`, with the answer of `open`. -/
  | byFile (thread : ℕ) (name : Option String) (file : ℕ) (fd : Except ℤ ℕ)
  /-- `fstat`, which may fail. -/
  | fstat (thread : ℕ) (succeeds : Bool)
  | mmap (thread : ℕ) (answer : Except ℤ Unit)
  | close (thread : ℕ)
  /-- `wamr_ext_module_load_by_buffer`, with the bytes from the pointer on. The buffer and the
  module may be null pointers. -/
  | byBuffer (thread : ℕ) (name : Option String) (buf : Option (ℕ → UInt8)) (len : UInt32)
      (hasModule : Bool)
  /-- `WamrExtModuleLoad`, with the answer of the runtime. -/
  | moduleLoad (thread : ℕ) (loads : Bool)
  | drop (thread : ℕ)
  | leave (thread : ℕ)
  | openOther (fd : ℕ)
  | closeOther (fd : ℕ)

namespace Loads

variable (s : Loads)

def goes (t : ℕ) (p : LoadPoint) : Loads := { s with points := Function.update s.points t p }

/-- The host gives out a free number. -/
def opens (t fd : ℕ) : Loads := { s with fds := Function.update s.fds fd (some t) }

/-- A call closes a number. -/
def closes (t fd : ℕ) : Loads :=
  if s.fds fd = some t then { s with fds := Function.update s.fds fd none }
  else { s with strayCloses := s.strayCloses + 1 }

/-- A new mapping or copy. -/
def makes (t : ℕ) (buf : ModuleBuf) : Loads :=
  { s with
    made := s.made + 1
    bufs := Function.update s.bufs s.made buf
    holders := Function.update s.holders s.made (some (.call t)) }

theorem makes_bufs_self (t : ℕ) (buf : ModuleBuf) : (s.makes t buf).bufs s.made = buf :=
  Function.update_self _ _ _

/-- A mapping is unmapped, or a copy deleted. -/
def dropsBuf (buf : ℕ) : Loads :=
  { s with
    holders := Function.update s.holders buf none
    drops := Function.update s.drops buf (s.drops buf + 1) }

/-- A new module has the buffer. -/
def loads (name : String) (buf : ℕ) (len : UInt32) : Loads :=
  { s with
    holders := Function.update s.holders buf (some (.module s.modules.length))
    modules := s.modules ++ [⟨name, buf, len⟩] }

end Loads

section Steps

/-! The modules that are built in, and what is in the files. -/

variable (isBuiltInModule : String → Bool) (contents : ℕ → List UInt8)

/-- The size of a file in 32 bits, or 0 if `fstat` fails. -/
def fileSize (succeeds : Bool) (file : ℕ) : UInt32 :=
  if succeeds then UInt32.ofNat (contents file).length else 0

/-- One step of a thread, or of somebody else. -/
def loadStep : Step Loads LoadAction := fun s a =>
  match a with
  | .byFile t name file fd =>
      if s.points t ≠ .idle then none
      else
        match name with
        | none => some (s.goes t (.returned hostEINVAL))
        | some name =>
            let err := wamrExtCheckNewModuleName isBuiltInModule (some name)
            if err ≠ 0 then some (s.goes t (.returned err))
            else
              match fd with
              | .error err => some (s.goes t (.returned err))
              | .ok fd =>
                  if s.fds fd = none ∧ s.otherFDs fd = false then
                    some ((s.opens t fd).goes t (.opened name file fd))
                  else none
  | .fstat t succeeds =>
      match s.points t with
      | .opened name file fd =>
          if fileSize contents succeeds file = 0 then some (s.goes t (.failed fd hostEINVAL))
          else some (s.goes t (.sized name file fd (fileSize contents succeeds file)))
      | _ => none
  | .mmap t answer =>
      match s.points t with
      | .sized name file fd fileSize =>
          match answer with
          | .error err => some (s.goes t (.failed fd err))
          | .ok () =>
              some ((s.makes t (.mapping file fileSize)).goes t (.mapped name fd s.made fileSize))
      | _ => none
  | .close t =>
      match s.points t with
      | .mapped name fd buf fileSize =>
          some ((s.closes t fd).goes t (.loading (some name) buf fileSize))
      | .failed fd ret => some ((s.closes t fd).goes t (.returned ret))
      | _ => none
  | .byBuffer t name buf len hasModule =>
      if s.points t ≠ .idle then none
      else
        match buf with
        | none => some (s.goes t (.returned hostEINVAL))
        | some bytes =>
            if len = 0 ∨ ¬ hasModule then some (s.goes t (.returned hostEINVAL))
            else
              some ((s.makes t (.copy ((List.range len.toNat).map bytes))).goes t
                (.loading name s.made len))
  | .moduleLoad t loads =>
      match s.points t with
      | .loading name buf len =>
          let err := wamrExtCheckNewModuleName isBuiltInModule name
          if err ≠ 0 then some (s.goes t (.dropping buf err))
          else if loads then some ((s.loads (name.getD "") buf len).goes t (.returned 0))
          else some (s.goes t (.dropping buf (-1)))
      | _ => none
  | .drop t =>
      match s.points t with
      | .dropping buf ret => some ((s.dropsBuf buf).goes t (.returned ret))
      | _ => none
  | .leave t =>
      match s.points t with
      | .returned _ => some (s.goes t .idle)
      | _ => none
  | .openOther fd =>
      if s.fds fd = none ∧ s.otherFDs fd = false then
        some { s with otherFDs := Function.update s.otherFDs fd true }
      else none
  | .closeOther fd => some { s with otherFDs := Function.update s.otherFDs fd false }

/-! ## What a step can do -/

/-- The length fits the buffer, which is not empty. -/
def FitsBuf (len : UInt32) : ModuleBuf → Prop
  | .mapping file mapped => mapped = len ∧ len = UInt32.ofNat (contents file).length ∧ len ≠ 0
  | .copy bytes => bytes.length = len.toNat ∧ len ≠ 0

/-- What a thread knows of its buffer, or of the file that it maps next. -/
def PointFits (s : Loads) : LoadPoint → Prop
  | .sized _ file _ fileSize => FitsBuf contents fileSize (.mapping file fileSize)
  | .mapped _ _ buf fileSize => FitsBuf contents fileSize (s.bufs buf)
  | .loading _ buf len => FitsBuf contents len (s.bufs buf)
  | _ => True

/-- What a step can do, to a thread and what it has. -/
inductive Moves (s : Loads) : Loads → Prop where
  | turn (t : ℕ) (p : LoadPoint) (fd : p.fd = (s.points t).fd) (buf : p.buf = (s.points t).buf)
      (fits : PointFits contents s p) : Moves s (s.goes t p)
  | opens (t fd : ℕ) (p : LoadPoint) (own : p.fd = some fd) (idle : (s.points t).fd = none)
      (free : s.fds fd = none) (buf : p.buf = (s.points t).buf) (fits : PointFits contents s p) :
      Moves s ((s.opens t fd).goes t p)
  | closes (t fd : ℕ) (p : LoadPoint) (own : (s.points t).fd = some fd) (closed : p.fd = none)
      (buf : p.buf = (s.points t).buf) (fits : PointFits contents s p) :
      Moves s ((s.closes t fd).goes t p)
  | makes (t : ℕ) (b : ModuleBuf) (p : LoadPoint) (fd : p.fd = (s.points t).fd)
      (own : p.buf = some s.made) (idle : (s.points t).buf = none)
      (fits : PointFits contents (s.makes t b) p) : Moves s ((s.makes t b).goes t p)
  | loads (t : ℕ) (name : String) (buf : ℕ) (len : UInt32) (fd : (s.points t).fd = none)
      (own : (s.points t).buf = some buf) (fits : FitsBuf contents len (s.bufs buf))
      (checked : wamrExtCheckNewModuleName isBuiltInModule (some name) = 0) :
      Moves s ((s.loads name buf len).goes t (.returned 0))
  | drops (t buf : ℕ) (ret : ℤ) (fd : (s.points t).fd = none)
      (own : (s.points t).buf = some buf) : Moves s ((s.dropsBuf buf).goes t (.returned ret))
  | others (otherFDs : ℕ → Bool) : Moves s { s with otherFDs := otherFDs }

variable {isBuiltInModule contents} {s s' : Loads}

theorem fileSize_eq {succeeds : Bool} {file : ℕ} (positive : fileSize contents succeeds file ≠ 0) :
    fileSize contents succeeds file = UInt32.ofNat (contents file).length := by
  cases succeeds with
  | false => exact absurd rfl positive
  | true => rfl

theorem checkNewModuleName_getD {name : Option String}
    (checked : wamrExtCheckNewModuleName isBuiltInModule name = 0) :
    wamrExtCheckNewModuleName isBuiltInModule (some (name.getD "")) = 0 := by
  cases name with
  | none => cases checked
  | some name => exact checked

/-- What a step does, when every thread has what it knows of. -/
theorem loadStep_moves {a : LoadAction} (fits : ∀ t, PointFits contents s (s.points t))
    (taken : loadStep isBuiltInModule contents s a = some s') :
    Moves isBuiltInModule contents s s' := by
  unfold loadStep at taken
  cases a with
  | byFile t name file fd =>
      dsimp only at taken
      split at taken
      · cases taken
      next idle =>
        have idle := not_not.mp idle
        split at taken
        · cases taken
          exact .turn t _ (by rw [idle]; rfl) (by rw [idle]; rfl) trivial
        · split at taken
          · cases taken
            exact .turn t _ (by rw [idle]; rfl) (by rw [idle]; rfl) trivial
          · split at taken
            · cases taken
              exact .turn t _ (by rw [idle]; rfl) (by rw [idle]; rfl) trivial
            · obtain ⟨⟨free, _⟩, rfl⟩ := guarded_eq_some.mp taken
              exact .opens t _ _ rfl (by rw [idle]; rfl) free (by rw [idle]; rfl) trivial
  | fstat t succeeds =>
      dsimp only at taken
      split at taken
      next name file fd there =>
        split at taken
        · cases taken
          exact .turn t _ (by rw [there]; rfl) (by rw [there]; rfl) trivial
        next positive =>
          cases taken
          have known := fileSize_eq positive
          exact .turn t _ (by rw [there]; rfl) (by rw [there]; rfl) ⟨rfl, known, positive⟩
      next => cases taken
  | mmap t answer =>
      dsimp only at taken
      split at taken
      next name file fd fileSize there =>
        split at taken
        · cases taken
          exact .turn t _ (by rw [there]; rfl) (by rw [there]; rfl) trivial
        · cases taken
          have known := fits t
          rw [there] at known
          refine .makes t _ _ (by rw [there]; rfl) rfl (by rw [there]; rfl) ?_
          rw [PointFits, Loads.makes_bufs_self]
          exact known
      next => cases taken
  | close t =>
      dsimp only at taken
      split at taken
      next name fd buf fileSize there =>
        cases taken
        have known := fits t
        rw [there] at known
        exact .closes t fd _ (by rw [there]; rfl) rfl (by rw [there]; rfl) known
      next fd ret there =>
        cases taken
        exact .closes t fd _ (by rw [there]; rfl) rfl (by rw [there]; rfl) trivial
      next => cases taken
  | byBuffer t name buf len hasModule =>
      dsimp only at taken
      split at taken
      · cases taken
      next idle =>
        have idle := not_not.mp idle
        split at taken
        · cases taken
          exact .turn t _ (by rw [idle]; rfl) (by rw [idle]; rfl) trivial
        next bytes =>
          split at taken
          · cases taken
            exact .turn t _ (by rw [idle]; rfl) (by rw [idle]; rfl) trivial
          next given =>
            cases taken
            refine .makes t _ _ (by rw [idle]; rfl) rfl (by rw [idle]; rfl) ?_
            rw [PointFits, Loads.makes_bufs_self]
            exact ⟨(List.length_map bytes).trans List.length_range, (not_or.mp given).1⟩
  | moduleLoad t loads =>
      dsimp only at taken
      split at taken
      next name buf len there =>
        have known := fits t
        rw [there] at known
        split at taken
        · cases taken
          exact .turn t _ (by rw [there]; rfl) (by rw [there]; rfl) trivial
        next checked =>
          split at taken
          · cases taken
            have checked := checkNewModuleName_getD (not_not.mp checked)
            exact .loads t _ buf len (by rw [there]; rfl) (by rw [there]; rfl) known checked
          · cases taken
            exact .turn t _ (by rw [there]; rfl) (by rw [there]; rfl) trivial
      next => cases taken
  | drop t =>
      dsimp only at taken
      split at taken
      next buf ret there =>
        cases taken
        exact .drops t buf ret (by rw [there]; rfl) (by rw [there]; rfl)
      next => cases taken
  | leave t =>
      dsimp only at taken
      split at taken
      next ret there =>
        cases taken
        exact .turn t _ (by rw [there]; rfl) (by rw [there]; rfl) trivial
      next => cases taken
  | openOther fd =>
      obtain ⟨_, rfl⟩ := guarded_eq_some.mp taken
      exact .others _
  | closeOther fd =>
      cases taken
      exact .others _

/-! ## The invariant -/

/-- The buffer of a call or of a module. -/
def Loads.bufOf (s : Loads) : BufHolder → Option ℕ
  | .call t => (s.points t).buf
  | .module k => s.modules[k]?.map WamrExtModule.pModuleBuf

variable (isBuiltInModule contents s) in
/-- What holds in every run. -/
structure LoadInv : Prop where
  fds : Matched s.fds fun t => (s.points t).fd
  strays : s.strayCloses = 0
  bufs : Matched s.holders s.bufOf
  fresh : ∀ b, s.made ≤ b → s.holders b = none
  drops : ∀ b, s.drops b = if b < s.made ∧ s.holders b = none then 1 else 0
  fits : ∀ t, PointFits contents s (s.points t)
  modules : ∀ m ∈ s.modules, FitsBuf contents m.len (s.bufs m.pModuleBuf) ∧
    wamrExtCheckNewModuleName isBuiltInModule (some m.moduleName) = 0

theorem loadInv_start : LoadInv isBuiltInModule contents {} where
  fds := matched_none
  strays := rfl
  bufs b o := by
    cases o with
    | call t => exact iff_of_false nofun nofun
    | module k => exact iff_of_false nofun nofun
  fresh _ _ := rfl
  drops b := (if_neg fun both => absurd both.1 (Nat.not_lt_zero b)).symm
  fits _ := trivial
  modules m member := absurd member List.not_mem_nil

theorem goes_fd (s : Loads) (t : ℕ) (p : LoadPoint) :
    (fun t' => ((s.goes t p).points t').fd) =
      Function.update (fun t' => (s.points t').fd) t p.fd := by
  funext t'
  exact Function.apply_update (fun _ => LoadPoint.fd) s.points t p t'

theorem goes_bufOf (s : Loads) (t : ℕ) (p : LoadPoint) :
    (s.goes t p).bufOf = Function.update s.bufOf (.call t) p.buf := by
  funext o
  cases o with
  | call t' =>
      rw [Function.update_apply]
      by_cases same : t' = t
      · subst same
        rw [if_pos rfl]
        exact congrArg LoadPoint.buf (Function.update_self _ _ _)
      · rw [if_neg fun eq => same (BufHolder.call.inj eq)]
        exact congrArg LoadPoint.buf (Function.update_of_ne same _ _)
  | module k =>
      have other : BufHolder.module k ≠ .call t := nofun
      rw [Function.update_of_ne other]
      rfl

/-- The new module has the buffer, and nobody else has another one than before. -/
theorem loads_bufOf (s : Loads) (name : String) (buf : ℕ) (len : UInt32) :
    (s.loads name buf len).bufOf =
      Function.update s.bufOf (.module s.modules.length) (some buf) := by
  funext o
  cases o with
  | call t =>
      have other : BufHolder.call t ≠ .module s.modules.length := nofun
      rw [Function.update_of_ne other]
      rfl
  | module k =>
      rw [Function.update_apply, Loads.bufOf, Loads.loads, Loads.bufOf]
      by_cases new : k = s.modules.length
      · rw [if_pos (congrArg _ new), new, List.getElem?_concat_length]
        rfl
      · rw [if_neg fun eq => new (BufHolder.module.inj eq)]
        rcases Nat.lt_or_ge k s.modules.length with earlier | above
        · rw [List.getElem?_append_left earlier]
        · have later : s.modules.length < k := Nat.lt_of_le_of_ne above (Ne.symm new)
          have none : (s.modules ++ [⟨name, buf, len⟩])[k]? = none :=
            List.getElem?_eq_none (List.length_append.trans_le later)
          rw [none, List.getElem?_eq_none above]

/-- A thread goes on with the descriptor and the buffer that it has. -/
theorem goes_keeps {t : ℕ} {p : LoadPoint} (fd : p.fd = (s.points t).fd)
    (buf : p.buf = (s.points t).buf) :
    (fun t' => ((s.goes t p).points t').fd) = (fun t' => (s.points t').fd) ∧
      (s.goes t p).bufOf = s.bufOf := by
  rw [goes_fd, goes_bufOf, fd, buf]
  exact ⟨Function.update_eq_self _ _, Function.update_eq_self (BufHolder.call t) s.bufOf⟩

/-- A call that owns no descriptor returns, and the descriptors are as before. -/
theorem returned_fd {t : ℕ} {ret : ℤ} (fd : (s.points t).fd = none) :
    (fun t' => ((s.goes t (.returned ret)).points t').fd) = fun t' => (s.points t').fd := by
  rw [goes_fd, show (LoadPoint.returned ret).fd = (s.points t).fd from fd.symm]
  exact Function.update_eq_self _ _

theorem PointFits.congr {p : LoadPoint} (fits : PointFits contents s p)
    (same : ∀ b, p.buf = some b → s'.bufs b = s.bufs b) : PointFits contents s' p := by
  cases p with
  | mapped name fd buf size => rwa [PointFits, same buf rfl]
  | loading name buf len => rwa [PointFits, same buf rfl]
  | _ => exact fits

/-- A thread that has gone on fits, and so do the others. -/
theorem goes_fits {t : ℕ} {p : LoadPoint} (fits : ∀ t, PointFits contents s (s.points t))
    (own : PointFits contents s p) (t' : ℕ) :
    PointFits contents (s.goes t p) ((s.goes t p).points t') := by
  show PointFits contents s (Function.update s.points t p t')
  rw [Function.update_apply]
  split
  · exact own
  · exact fits t'

/-- A buffer that somebody has was made. -/
theorem LoadInv.below (inv : LoadInv isBuiltInModule contents s) {o : BufHolder} {b : ℕ}
    (has : s.bufOf o = some b) : b < s.made := by
  by_contra above
  have held := (inv.bufs b o).mpr has
  rw [inv.fresh b (not_lt.mp above)] at held
  cases held

theorem LoadInv.turn {t : ℕ} {p : LoadPoint} (inv : LoadInv isBuiltInModule contents s)
    (fd : p.fd = (s.points t).fd) (buf : p.buf = (s.points t).buf)
    (fits : PointFits contents s p) : LoadInv isBuiltInModule contents (s.goes t p) := by
  obtain ⟨fds, bufs⟩ := goes_keeps fd buf
  exact { inv with
    fds := by rw [fds]; exact inv.fds
    bufs := by rw [bufs]; exact inv.bufs
    fits := goes_fits inv.fits fits }

theorem LoadInv.opens {t fd : ℕ} {p : LoadPoint} (inv : LoadInv isBuiltInModule contents s)
    (own : p.fd = some fd) (idle : (s.points t).fd = none) (free : s.fds fd = none)
    (buf : p.buf = (s.points t).buf) (fits : PointFits contents s p) :
    LoadInv isBuiltInModule contents ((s.opens t fd).goes t p) := by
  refine { inv with
    fds := ?_, bufs := ?_, fits := goes_fits (s := s.opens t fd) inv.fits fits }
  · rw [goes_fd, own]
    exact inv.fds.acquire free idle
  · rw [goes_bufOf, buf]
    have same : Function.update (s.opens t fd).bufOf (.call t) (s.points t).buf = s.bufOf :=
      Function.update_eq_self (BufHolder.call t) s.bufOf
    rw [same]
    exact inv.bufs

theorem LoadInv.closes {t fd : ℕ} {p : LoadPoint} (inv : LoadInv isBuiltInModule contents s)
    (own : (s.points t).fd = some fd) (closed : p.fd = none) (buf : p.buf = (s.points t).buf)
    (fits : PointFits contents s p) :
    LoadInv isBuiltInModule contents ((s.closes t fd).goes t p) := by
  have closing : s.closes t fd = { s with fds := Function.update s.fds fd none } :=
    if_pos ((inv.fds fd t).mpr own)
  rw [closing]
  refine { inv with
    fds := ?_, bufs := ?_
    fits := goes_fits (s := { s with fds := Function.update s.fds fd none }) inv.fits fits }
  · rw [goes_fd, closed]
    exact inv.fds.release own
  · rw [goes_bufOf, buf]
    have same : Function.update ({ s with fds := Function.update s.fds fd none } : Loads).bufOf
        (.call t) (s.points t).buf = s.bufOf :=
      Function.update_eq_self (BufHolder.call t) s.bufOf
    rw [same]
    exact inv.bufs

theorem LoadInv.moduleBuf (inv : LoadInv isBuiltInModule contents s) {m : WamrExtModule}
    (member : m ∈ s.modules) : ∃ k, s.holders m.pModuleBuf = some (.module k) := by
  obtain ⟨k, there⟩ := List.mem_iff_getElem?.mp member
  refine ⟨k, (inv.bufs _ _).mpr ?_⟩
  rw [Loads.bufOf, there, Option.map_some]

/-- A buffer that is held was made. -/
theorem LoadInv.held (inv : LoadInv isBuiltInModule contents s) {b : ℕ} {o : BufHolder}
    (held : s.holders b = some o) : b < s.made :=
  inv.below ((inv.bufs b o).mp held)

theorem LoadInv.makes {t : ℕ} {b : ModuleBuf} {p : LoadPoint}
    (inv : LoadInv isBuiltInModule contents s) (fd : p.fd = (s.points t).fd)
    (own : p.buf = some s.made) (idle : (s.points t).buf = none)
    (fits : PointFits contents (s.makes t b) p) :
    LoadInv isBuiltInModule contents ((s.makes t b).goes t p) := by
  have kept : ∀ {b'}, b' < s.made → (s.makes t b).bufs b' = s.bufs b' := fun below =>
    Function.update_of_ne (Nat.ne_of_lt below) _ _
  have holders : ∀ {b'}, b' ≠ s.made → (s.makes t b).holders b' = s.holders b' := fun other =>
    Function.update_of_ne other _ _
  have new : (s.makes t b).holders s.made = some (.call t) := Function.update_self _ _ _
  have fresh := inv.fresh s.made le_rfl
  refine { inv with
    fds := ?_, bufs := ?_, fresh := fun b' above => ?_, drops := fun b' => ?_
    fits := goes_fits (s := s.makes t b) (fun t' => (inv.fits t').congr fun b' has => ?_) fits
    modules := fun m member => ?_ }
  · rw [goes_fd, fd]
    have same : Function.update (fun t' => ((s.makes t b).points t').fd) t (s.points t).fd =
        fun t' => (s.points t').fd := Function.update_eq_self _ _
    rw [same]
    exact inv.fds
  · rw [goes_bufOf, own]
    exact inv.bufs.acquire fresh idle
  · have later : s.made + 1 ≤ b' := above
    exact (holders (by omega)).trans (inv.fresh b' (by omega))
  · have count := inv.drops b'
    change s.drops b' = if b' < s.made + 1 ∧ (s.makes t b).holders b' = none then 1 else 0
    by_cases same : b' = s.made
    · subst same
      rw [if_neg fun both => absurd both.1 (lt_irrefl _)] at count
      rw [new, if_neg fun both => nomatch both.2]
      exact count
    · rw [holders same]
      exact count.trans (if_congr (and_congr_left' (by omega)) rfl rfl)
  · have has : s.bufOf (.call t') = some b' := has
    exact kept (inv.below has)
  · obtain ⟨fits, checked⟩ := inv.modules m member
    obtain ⟨k, held⟩ := inv.moduleBuf member
    exact ⟨by rwa [Loads.goes, kept (inv.held held)], checked⟩

theorem LoadInv.drop {t buf : ℕ} {ret : ℤ} (inv : LoadInv isBuiltInModule contents s)
    (fd : (s.points t).fd = none) (own : (s.points t).buf = some buf) :
    LoadInv isBuiltInModule contents ((s.dropsBuf buf).goes t (.returned ret)) := by
  have has : s.bufOf (.call t) = some buf := own
  have gone : (s.dropsBuf buf).holders buf = none := Function.update_self _ _ _
  have holders : ∀ {b}, b ≠ buf → (s.dropsBuf buf).holders b = s.holders b := fun other =>
    Function.update_of_ne other _ _
  refine { inv with
    fds := ?_, bufs := ?_, fresh := fun b above => ?_, drops := fun b => ?_
    fits := goes_fits (s := s.dropsBuf buf) inv.fits trivial }
  · rw [returned_fd (s := s.dropsBuf buf) fd]
    exact inv.fds
  · rw [goes_bufOf]
    exact inv.bufs.release has
  · by_cases same : b = buf
    · rw [same]
      exact gone
    · exact (holders same).trans (inv.fresh b above)
  · have count := inv.drops b
    by_cases same : b = buf
    · subst same
      rw [(inv.bufs b _).mpr has, if_neg fun both => nomatch both.2] at count
      change Function.update s.drops b (s.drops b + 1) b = _
      rw [Function.update_self, count]
      exact (if_pos ⟨inv.below has, gone⟩).symm
    · refine (Function.update_of_ne same _ _).trans (count.trans ?_)
      exact if_congr (and_congr_right' (by rw [← holders same]; rfl)) rfl rfl

theorem LoadInv.loads {t buf : ℕ} {name : String} {len : UInt32}
    (inv : LoadInv isBuiltInModule contents s) (fd : (s.points t).fd = none)
    (own : (s.points t).buf = some buf) (fits : FitsBuf contents len (s.bufs buf))
    (checked : wamrExtCheckNewModuleName isBuiltInModule (some name) = 0) :
    LoadInv isBuiltInModule contents ((s.loads name buf len).goes t (.returned 0)) := by
  have has : s.bufOf (.call t) = some buf := own
  have idle : s.bufOf (.module s.modules.length) = none := by
    rw [Loads.bufOf, List.getElem?_eq_none le_rfl]
    rfl
  have taken : (s.loads name buf len).holders buf = some (.module s.modules.length) :=
    Function.update_self _ _ _
  have holders : ∀ {b}, b ≠ buf → (s.loads name buf len).holders b = s.holders b := fun other =>
    Function.update_of_ne other _ _
  have held := (inv.bufs buf _).mpr has
  refine { inv with
    fds := ?_, bufs := ?_, fresh := fun b above => ?_, drops := fun b => ?_
    fits := goes_fits (s := s.loads name buf len) inv.fits trivial
    modules := fun m member => ?_ }
  · rw [returned_fd (s := s.loads name buf len) fd]
    exact inv.fds
  · rw [goes_bufOf, loads_bufOf]
    have other : BufHolder.module s.modules.length ≠ .call t := nofun
    rw [show (LoadPoint.returned 0).buf = none from rfl, Function.update_comm other]
    exact inv.bufs.pass has idle
  · have other : b ≠ buf := (Nat.lt_of_lt_of_le (inv.below has) above).ne'
    exact (holders other).trans (inv.fresh b above)
  · refine (inv.drops b).trans (if_congr (and_congr_right' ?_) rfl rfl)
    by_cases same : b = buf
    · subst same
      rw [held]
      exact iff_of_false nofun fun none => nomatch taken.symm.trans none
    · rw [← holders same]
      rfl
  · rcases List.mem_append.mp member with earlier | new
    · exact inv.modules m earlier
    · rw [List.mem_singleton.mp new]
      exact ⟨fits, checked⟩

theorem LoadInv.move (inv : LoadInv isBuiltInModule contents s)
    (moves : Moves isBuiltInModule contents s s') : LoadInv isBuiltInModule contents s' := by
  cases moves with
  | turn t p fd buf fits => exact inv.turn fd buf fits
  | opens t fd p own idle free buf fits => exact inv.opens own idle free buf fits
  | closes t fd p own closed buf fits => exact inv.closes own closed buf fits
  | makes t b p fd own idle fits => exact inv.makes fd own idle fits
  | loads t name buf len fd own fits checked => exact inv.loads fd own fits checked
  | drops t buf ret fd own => exact inv.drop fd own
  | others otherFDs => exact { inv with }

theorem LoadInv.step {a : LoadAction} (inv : LoadInv isBuiltInModule contents s)
    (taken : loadStep isBuiltInModule contents s a = some s') :
    LoadInv isBuiltInModule contents s' :=
  inv.move (loadStep_moves inv.fits taken)

/-! ## What is kept -/

/-- Modules are added at the end, and no buffer changes. -/
structure Grown (s s' : Loads) : Prop where
  modules : ∃ new, s'.modules = s.modules ++ new
  made : s.made ≤ s'.made
  bufs : ∀ b < s.made, s'.bufs b = s.bufs b

theorem Grown.refl (s : Loads) : Grown s s :=
  ⟨⟨[], (List.append_nil _).symm⟩, le_rfl, fun _ _ => rfl⟩

theorem Grown.trans {s'' : Loads} (first : Grown s s') (second : Grown s' s'') : Grown s s'' := by
  obtain ⟨new, added⟩ := first.modules
  obtain ⟨newer, addedLater⟩ := second.modules
  refine ⟨⟨new ++ newer, ?_⟩, first.made.trans second.made, fun b below => ?_⟩
  · rw [addedLater, added, List.append_assoc]
  · rw [second.bufs b (Nat.lt_of_lt_of_le below first.made), first.bufs b below]

theorem Moves.grown (moves : Moves isBuiltInModule contents s s') : Grown s s' := by
  have same := Grown.refl s
  cases moves with
  | makes t b p fd own idle fits =>
      exact ⟨same.modules, Nat.le_succ _, fun b' below =>
        Function.update_of_ne (Nat.ne_of_lt below) _ _⟩
  | loads t name buf len fd own fits checked => exact ⟨⟨_, rfl⟩, le_rfl, fun _ _ => rfl⟩
  | closes t fd p own closed buf fits =>
      rw [Loads.closes]
      split <;> exact ⟨same.modules, same.made, same.bufs⟩
  | _ => exact ⟨same.modules, same.made, same.bufs⟩

/-- A later run, from a state where the invariant holds. -/
theorem LoadInv.later {as : List LoadAction} (inv : LoadInv isBuiltInModule contents s)
    (reached : run (loadStep isBuiltInModule contents) s as = some s') :
    LoadInv isBuiltInModule contents s' ∧ Grown s s' := by
  have keeps {s₁ s₂ : Loads} {a : LoadAction}
      (before : LoadInv isBuiltInModule contents s₁ ∧ Grown s s₁)
      (taken : loadStep isBuiltInModule contents s₁ a = some s₂) :
      LoadInv isBuiltInModule contents s₂ ∧ Grown s s₂ :=
    ⟨before.1.step taken, before.2.trans (loadStep_moves before.1.fits taken).grown⟩
  exact run_invariant_always keeps ⟨inv, .refl s⟩ reached

/-- The length that is mapped is that of the file exactly if it fits in 32 bits. -/
theorem whole_file_iff {length : ℕ} :
    (UInt32.ofNat length).toNat = length ↔ length < 2 ^ 32 := by
  rw [UInt32.toNat_ofNat']
  exact Nat.mod_eq_iff_lt (by decide)

variable (isBuiltInModule contents s) in
/-- What a maintainer wants of the loads. -/
structure LoadsSound : Prop where
  /-- A call closes only what it has opened. -/
  strays : s.strayCloses = 0
  descriptors : ∀ fd t, s.fds fd = some t ↔ (s.points t).fd = some fd
  /-- A buffer belongs to one call or one module, or it was given back once. -/
  buffers : ∀ b < s.made, (s.drops b = 0 ∧ ∃! o, s.bufOf o = some b) ∨
    s.drops b = 1 ∧ ∀ o, s.bufOf o ≠ some b
  /-- Nothing is left of a call that has returned. -/
  returned : ∀ t ret, s.points t = .returned ret →
    (∀ fd, s.fds fd ≠ some t) ∧ s.bufOf (.call t) = none
  names : ∀ m ∈ s.modules, wamrExtCheckNewModuleName isBuiltInModule (some m.moduleName) = 0
  /-- The length that the runtime has is that of the buffer. -/
  fits : ∀ m ∈ s.modules, FitsBuf contents m.len (s.bufs m.pModuleBuf)
  kept : ∀ m ∈ s.modules, s.drops m.pModuleBuf = 0
  whole : ∀ m ∈ s.modules, ∀ file len, s.bufs m.pModuleBuf = .mapping file len →
    (m.len.toNat = (contents file).length ↔ (contents file).length < 2 ^ 32)

theorem LoadInv.sound (inv : LoadInv isBuiltInModule contents s) :
    LoadsSound isBuiltInModule contents s where
  strays := inv.strays
  descriptors := inv.fds
  buffers b below := by
    have count := inv.drops b
    cases owner : s.holders b with
    | none =>
        rw [if_pos ⟨below, owner⟩] at count
        refine .inr ⟨count, fun o has => ?_⟩
        rw [(inv.bufs b o).mpr has] at owner
        cases owner
    | some o =>
        rw [owner, if_neg fun both => nomatch both.2] at count
        refine .inl ⟨count, o, (inv.bufs b o).mp owner, fun o' has => ?_⟩
        exact Option.some.inj (((inv.bufs b o').mpr has).symm.trans owner)
  returned t ret there := by
    refine ⟨fun fd has => ?_, ?_⟩
    · have own : (s.points t).fd = some fd := (inv.fds fd t).mp has
      rw [there] at own
      cases own
    · rw [Loads.bufOf, there]
      rfl
  names m member := (inv.modules m member).2
  fits m member := (inv.modules m member).1
  kept m member := by
    obtain ⟨k, held⟩ := inv.moduleBuf member
    rw [inv.drops, held]
    exact if_neg fun both => nomatch both.2
  whole m member file len there := by
    have fits := (inv.modules m member).1
    rw [there] at fits
    rw [fits.2.1]
    exact whole_file_iff

variable (isBuiltInModule contents s s') in
/-- **Loads.** In every run each call closes what it has opened and nothing else, and each mapping
or copy has one owner until it is given back, once. A module is kept with its name and its buffer in
every later run, and has a whole file exactly if the size of the file fits in 32 bits. -/
theorem loads_sound (as later : List LoadAction)
    (reached : run (loadStep isBuiltInModule contents) {} as = some s)
    (goesOn : run (loadStep isBuiltInModule contents) s later = some s') :
    LoadsSound isBuiltInModule contents s ∧
      ∀ (k : ℕ) (m : WamrExtModule), s.modules[k]? = some m →
        s'.modules[k]? = some m ∧ s'.bufs m.pModuleBuf = s.bufs m.pModuleBuf ∧
          s'.drops m.pModuleBuf = 0 := by
  have inv := (loadInv_start.later reached).1
  obtain ⟨inv', grown⟩ := inv.later goesOn
  refine ⟨inv.sound, fun k m there => ?_⟩
  have member := List.mem_of_getElem? there
  obtain ⟨new, added⟩ := grown.modules
  have still : s'.modules[k]? = some m := by
    rw [added, List.getElem?_append_left (List.getElem?_eq_some_iff.mp there).1, there]
  obtain ⟨_, held⟩ := inv.moduleBuf member
  exact ⟨still, grown.bufs _ (inv.held held), inv'.sound.kept m (List.mem_of_getElem? still)⟩

end Steps

/-- One thread loads a file, and another one a buffer that the runtime refuses. -/
def twoLoads : List LoadAction :=
  [.byFile 0 (some "app") 7 (.ok 3), .byBuffer 1 (some "lib") (some fun _ => 0) 4 true,
    .fstat 0 true, .moduleLoad 1 false, .mmap 0 (.ok ()), .drop 1, .close 0, .moduleLoad 0 true]

/-- An empty file is loaded later. -/
def emptyLoad : List LoadAction :=
  [.openOther 3, .leave 1, .byFile 1 (some "lib") 8 (.ok 4), .fstat 1 true, .close 1]

def oneFile (file : ℕ) : List UInt8 := if file = 7 then [0, 97, 115, 109] else []

theorem loads_sound_twoLoads : ∃ s s',
    run (loadStep (· = "env") oneFile) {} twoLoads = some s ∧
      run (loadStep (· = "env") oneFile) s emptyLoad = some s' ∧ s.strayCloses = 0 ∧
      s'.modules[0]? = some ⟨"app", 1, 4⟩ ∧ s'.bufs 1 = .mapping 7 4 ∧ s'.drops 1 = 0 := by
  have runs : (run (loadStep (· = "env") oneFile) {} (twoLoads ++ emptyLoad)).isSome = true := by
    decide
  rw [run_append] at runs
  obtain ⟨s', both⟩ := Option.isSome_iff_exists.mp runs
  obtain ⟨s, reached, goesOn⟩ := Option.bind_eq_some_iff.mp both
  have value : (run (loadStep (· = "env") oneFile) {} twoLoads).map
      (fun s => (s.modules[0]?, s.bufs 1)) = some (some ⟨"app", 1, 4⟩, .mapping 7 4) := by decide
  rw [reached, Option.map_some, Option.some.injEq, Prod.mk.injEq] at value
  obtain ⟨sound, kept⟩ := loads_sound (· = "env") oneFile s s' twoLoads emptyLoad reached goesOn
  obtain ⟨still, same, undropped⟩ := kept 0 _ value.1
  exact ⟨s, s', reached, goesOn, sound.strays, still, same.trans value.2, undropped⟩

end Instance
end WamrExt
