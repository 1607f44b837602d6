import WamrExt.Process.HostProgram

/-!
# The standard streams of a new process

The actions of a spawn redirect the standard streams of the new process, one after another, as
`posix_spawn_file_actions_adddup2` does: an action whose source an earlier one has redirected gets
the redirected file. `ProcessSpawn` does not apply them so. It looks up every source in the
descriptor table of the guest, as it was, keeps the host descriptor of the last action for each
stream, and then has the host duplicate these onto 0, 1 and 2 in turn.

Both steps can lose a file. A source that an action has redirected is looked up as if it had not
been. And a host descriptor below the stream that it is for has been replaced by the time it is
duplicated. The streams are what the list says exactly when neither of the two happens, or does no
harm (`redirections_as_listed_iff`).
-/

set_option autoImplicit false

namespace WamrExt
namespace Process

open ByteMemory FileActions Wamr Socket

universe u

variable {α : Type u}

/-! ## What the list says -/

/-- The descriptors of a `wamr_spawn_action_fdup2`. -/
structure FDup2 where
  srcFD : ℤ
  destFD : ℤ
  deriving DecidableEq, Repr

/-- The redirections in a list of actions. -/
def fdup2Actions (mem : Memory) (actions : List UInt32) : List FDup2 :=
  (actions.filter fun a => spawnAction mem a .cmd == spawnActionFDup2).map fun a =>
    ⟨(spawnAction mem a .srcFD).toBitVec.toInt, (spawnAction mem a .destFD).toBitVec.toInt⟩

/-- What the descriptors stand for after the actions, one after another. -/
def applyInOrder {β : Type u} : List FDup2 → (ℤ → β) → ℤ → β
  | [], now => now
  | a :: rest, now => applyInOrder rest (Function.update now a.destFD (now a.srcFD))

/-- The source of the last action onto a descriptor, and the one it had before otherwise. -/
def lastSource : List FDup2 → (ℤ → ℤ) → ℤ → ℤ
  | [], last => last
  | a :: rest, last => lastSource rest (Function.update last a.destFD a.srcFD)

section Streams

variable (fds : Table α) (answers : ProcessSpawnAnswers) (actions : List FDup2)

/-- The open file of an app descriptor. -/
def appFile (fd : ℤ) : Option α :=
  ((answers.getHostFDByAppFD fd).toOption.bind fds).map Descriptor.file

/-- The open file that an app descriptor denotes after the actions. -/
def redirectedFile (fd : ℤ) : Option α := applyInOrder actions (appFile fds answers) fd

/-- Each standard stream of the new process refers to the file that it denotes after the
actions. -/
def StreamsAsListed (t : NewTable α) : Prop :=
  ∀ d : Fin 3, (t d).map (fun e => e.descriptor.file) = redirectedFile fds answers actions d.val

/-- The host descriptor that the table of the guest has for the last source of a stream. -/
def givenNumber (d : ℕ) : Option ℕ :=
  (answers.getHostFDByAppFD (lastSource actions id d)).toOption

/-- The new process closes this number, as the read end of its pipe. -/
def ClosesReadEnd (n : ℕ) : Prop :=
  answers.addclose = true ∧ ∃ writeEnd, answers.pipe = .ok (n, writeEnd)

/-- The condition for a stream. With a given number below it, which is a stream with a given number
itself, the list has to make the two one file. With any other, the file of that number in the
parent has to be the one that the list says. Without a given number, the stream of the parent is
not inherited. -/
def StreamKept (d : ℕ) : Prop :=
  match givenNumber answers actions d with
  | none => ClosesReadEnd answers d ∨ ∀ own, fds d = some own → own.cloexec = true
  | some h =>
      ¬ ClosesReadEnd answers d ∧
        if h < d ∧ (givenNumber answers actions h).isSome = true then
          redirectedFile fds answers actions d = redirectedFile fds answers actions h
        else redirectedFile fds answers actions d = (fds h).map Descriptor.file

end Streams

/-! ## The array of the streams -/

section Array

variable {fds : Table α} {answers : ProcessSpawnAnswers} {actions : List FDup2}

/-- An action for a standard stream. -/
theorem dup2FDArr_cons (arr : Dup2FDArr) {destFD : ℤ} (onStream : ¬ (destFD < 0 ∨ 3 ≤ destFD))
    (found : Except UInt16 ℕ) (rest : List (ℤ × Except UInt16 ℕ)) :
    dup2FDArr arr ((destFD, found) :: rest) =
      found.bind fun hostFD =>
        dup2FDArr (Function.update arr (Fin.ofNat 3 destFD.toNat) (some hostFD)) rest := by
  cases found with
  | error err => exact if_neg onStream
  | ok hostFD => exact if_neg onStream

/-- The sources are all found, in the table as it was. -/
theorem dup2FDArr_ok {arr arr' : Dup2FDArr} {last : ℤ → ℤ}
    (onStreams : ∀ a ∈ actions, 0 ≤ a.destFD ∧ a.destFD < 3)
    (start : ∀ d : Fin 3, arr d = (answers.getHostFDByAppFD (last d.val)).toOption)
    (done : dup2FDArr arr (actions.map fun a => (a.destFD, answers.getHostFDByAppFD a.srcFD)) =
      .ok arr') :
    (∀ d : Fin 3, arr' d =
        (answers.getHostFDByAppFD (lastSource actions last d.val)).toOption) ∧
      ∀ a ∈ actions, (answers.getHostFDByAppFD a.srcFD).toOption.isSome = true := by
  induction actions generalizing arr last with
  | nil =>
      cases done
      exact ⟨start, nofun⟩
  | cons a rest ih =>
      obtain ⟨low, high⟩ := onStreams a List.mem_cons_self
      have onStream : ¬ (a.destFD < 0 ∨ 3 ≤ a.destFD) := by omega
      rw [List.map_cons, dup2FDArr_cons arr onStream] at done
      cases found : answers.getHostFDByAppFD a.srcFD with
      | error err =>
          rw [found] at done
          cases done
      | ok hostFD =>
          rw [found] at done
          have next : ∀ d : Fin 3,
              Function.update arr (Fin.ofNat 3 a.destFD.toNat) (some hostFD) d =
                (answers.getHostFDByAppFD
                  (Function.update last a.destFD a.srcFD d.val)).toOption := by
            intro d
            have same : d = Fin.ofNat 3 a.destFD.toNat ↔ (d.val : ℤ) = a.destFD := by
              rw [Fin.ext_iff, Fin.val_ofNat]
              omega
            by_cases here : (d.val : ℤ) = a.destFD
            · rw [Function.update_apply, if_pos (same.mpr here), Function.update_apply,
                if_pos here, found]
              rfl
            · rw [Function.update_apply, if_neg (mt same.mp here), Function.update_apply,
                if_neg here]
              exact start d
          obtain ⟨given, sources⟩ :=
            ih (fun b member => onStreams b (List.mem_cons_of_mem _ member)) next done
          refine ⟨given, fun b member => ?_⟩
          rcases List.mem_cons.mp member with rfl | later
          · rw [found]
            rfl
          · exact sources b later

/-- A stream with a given number denotes a file, if all the sources do. -/
theorem applyInOrder_isSome {now : ℤ → Option α} {last : ℤ → ℤ}
    (sources : ∀ a ∈ actions, (answers.getHostFDByAppFD a.srcFD).toOption.isSome = true)
    (listed : ∀ fd, (answers.getHostFDByAppFD fd).toOption.isSome = true → (now fd).isSome = true)
    (given : ∀ fd, (answers.getHostFDByAppFD (last fd)).toOption.isSome = true →
      (now fd).isSome = true) (fd : ℤ)
    (here : (answers.getHostFDByAppFD (lastSource actions last fd)).toOption.isSome = true) :
    (applyInOrder actions now fd).isSome = true := by
  induction actions generalizing now last with
  | nil => exact given fd here
  | cons a rest ih =>
      have source : (now a.srcFD).isSome = true := listed _ (sources a List.mem_cons_self)
      refine ih (fun b member => sources b (List.mem_cons_of_mem _ member)) ?_ ?_ here
      · intro fd known
        rw [Function.update_apply]
        split
        · exact source
        · exact listed fd known
      · intro fd known
        rw [Function.update_apply] at known ⊢
        split
        · exact source
        next other =>
          rw [if_neg other] at known
          exact given fd known

/-- A stream without a given number denotes no file. -/
theorem applyInOrder_eq_none {now : ℤ → Option α} {last : ℤ → ℤ}
    (sources : ∀ a ∈ actions, (answers.getHostFDByAppFD a.srcFD).toOption.isSome = true)
    (absent : ∀ fd, (answers.getHostFDByAppFD (last fd)).toOption = none → now fd = none) (fd : ℤ)
    (here : (answers.getHostFDByAppFD (lastSource actions last fd)).toOption = none) :
    applyInOrder actions now fd = none := by
  induction actions generalizing now last with
  | nil => exact absent fd here
  | cons a rest ih =>
      refine ih (fun b member => sources b (List.mem_cons_of_mem _ member)) ?_ here
      intro fd unknown
      rw [Function.update_apply] at unknown ⊢
      split
      next same =>
        have source := sources a List.mem_cons_self
        rw [if_pos same] at unknown
        rw [unknown] at source
        cases source
      next other =>
        rw [if_neg other] at unknown
        exact absent fd unknown

/-- The file actions of a spawn that executes something. -/
theorem processSpawn_fileActions {L : LinearMemory} {mem : Memory}
    {whitelist : HostCmdWhitelist} {fuel pReq : ℕ} {found : List UInt32} {e : HostExec}
    (walked : spawnActions L mem fuel (spawnReq pReq mem .appFaPointer) = some (.ok found))
    (executed : (processSpawn L mem whitelist answers fuel pReq).exec = some e) :
    ∃ arr readEnd writeEnd, spawnStreams mem answers found = .ok arr ∧
      answers.pipe = .ok (readEnd, writeEnd) ∧
      e.fileActions = hostFA arr readEnd answers.addclose := by
  rw [processSpawn] at executed
  split at executed
  next => cases executed
  next =>
    split at executed
    next => cases executed
    next =>
      rw [walked] at executed
      dsimp only at executed
      split at executed
      next => cases executed
      next arr streams =>
        rw [startHostCmd] at executed
        split at executed
        next => cases executed
        next =>
          split at executed
          next => cases executed
          next =>
            split at executed
            next => cases executed
            next readEnd writeEnd piped =>
              cases executed
              exact ⟨arr, readEnd, writeEnd, streams, piped, rfl⟩

/-- The array has the given numbers, and all sources are in the table of the guest. -/
theorem spawnStreams_ok {mem : Memory} {found : List UInt32} {arr : Dup2FDArr}
    (onStreams : ∀ a ∈ fdup2Actions mem found, 0 ≤ a.destFD ∧ a.destFD < 3)
    (streams : spawnStreams mem answers found = .ok arr) :
    (∀ d : Fin 3, arr d = givenNumber answers (fdup2Actions mem found) d) ∧
      ∀ a ∈ fdup2Actions mem found,
        (answers.getHostFDByAppFD a.srcFD).toOption.isSome = true := by
  refine dup2FDArr_ok onStreams (fun d => rfl) (Eq.trans ?_ streams)
  rw [spawnStreams, fdup2Actions, List.map_map]
  rfl

end Array

/-! ## The streams of the new process -/

/-- The duplications of a spawn. -/
def streamDup2s (arr : Dup2FDArr) : List FileAction :=
  (List.finRange 3).filterMap fun fd => (arr fd).map fun src => .dup2 src fd

section Child

variable {arr : Dup2FDArr} {d : Fin 3} {h : ℕ}

theorem mem_streamDup2s {action : FileAction} :
    action ∈ streamDup2s arr ↔ ∃ fd : Fin 3, ∃ src ∈ arr fd, .dup2 src fd.val = action := by
  simp [streamDup2s]

theorem streamDup2s_ascending (arr : Dup2FDArr) : Ascending (streamDup2s arr) := by
  rw [Ascending, streamDup2s, List.pairwise_filterMap]
  refine (List.pairwise_lt_finRange 3).imp fun {fd fd'} lt action first action' second => ?_
  obtain ⟨_, _, rfl⟩ := Option.map_eq_some_iff.mp first
  obtain ⟨_, _, rfl⟩ := Option.map_eq_some_iff.mp second
  exact lt

/-- A number that is given for a stream is below it, and stands for what the stream of this number
has become, or it is in its place. -/
theorem origin_given (given : arr d = some h) :
    (trace (streamDup2s arr)).origin d =
        (if h < d then (trace (streamDup2s arr)).origin h else some h) ∧
      (trace (streamDup2s arr)).redirected d = true :=
  origin_dup2_of_ascending (streamDup2s_ascending arr) (mem_streamDup2s.mpr ⟨d, h, given, rfl⟩)

/-- A stream for which no number is given stays as it is. -/
theorem origin_not_given (notGiven : arr d = none) :
    (trace (streamDup2s arr)).origin d = some d.val ∧
      (trace (streamDup2s arr)).redirected d = false := by
  refine foldl_perform_of_ne (fun action member => ?_) {}
  obtain ⟨fd, src, given, rfl⟩ := mem_streamDup2s.mp member
  intro same
  rw [Fin.ext same, Option.mem_def.mp given] at notGiven
  cases notGiven

/-- The close of the read end comes after the duplications. -/
theorem trace_hostFA (arr : Dup2FDArr) (readEnd : ℕ) (addclose : Bool) (n : ℕ) :
    (trace (hostFA arr readEnd addclose)).origin n =
        (if addclose = true ∧ n = readEnd then none else (trace (streamDup2s arr)).origin n) ∧
      (trace (hostFA arr readEnd addclose)).redirected n =
        (if addclose = true ∧ n = readEnd then false
          else (trace (streamDup2s arr)).redirected n) := by
  cases addclose with
  | false => simp [hostFA, streamDup2s]
  | true =>
      simp only [hostFA, if_true, trace, List.foldl_append, List.foldl_cons, List.foldl_nil,
        Trace.perform, Function.update_apply, true_and]
      exact ⟨rfl, rfl⟩

variable {fds : Table α} {t : NewTable α} {readEnd : ℕ} {addclose : Bool}

/-- The file of a stream before the close of the read end, if it is inherited at all. -/
def streamFile (fds : Table α) (arr : Dup2FDArr) (d : ℕ) : Option α :=
  (((trace (streamDup2s arr)).origin d).bind fds).map Descriptor.file

theorem streamFile_given (given : arr d = some h) :
    streamFile fds arr d =
      if h < d then streamFile fds arr h else (fds h).map Descriptor.file := by
  rw [streamFile, (origin_given given).1]
  split <;> rfl

theorem streamFile_not_given (notGiven : arr d = none) :
    streamFile fds arr d = (fds d.val).map Descriptor.file := by
  rw [streamFile, (origin_not_given notGiven).1, Option.bind_some]

/-- The file of a stream that is closed in the new process. -/
theorem child_closed (started : posixSpawn fds (hostFA arr readEnd addclose) = some t)
    {n : ℕ} (closed : addclose = true ∧ n = readEnd) :
    (t n).map (fun e => e.descriptor.file) = none := by
  obtain ⟨origin, redirected⟩ := trace_hostFA arr readEnd addclose n
  rw [if_pos closed] at origin redirected
  rw [file_of_placed started redirected, origin]
  rfl

/-- The file of a stream for which a number is given. -/
theorem child_given (started : posixSpawn fds (hostFA arr readEnd addclose) = some t)
    (given : arr d = some h) (stays : ¬ (addclose = true ∧ d.val = readEnd)) :
    (t d).map (fun e => e.descriptor.file) = streamFile fds arr d := by
  obtain ⟨origin, redirected⟩ := trace_hostFA arr readEnd addclose d
  rw [if_neg stays] at origin redirected
  rw [file_of_redirected started (redirected.trans (origin_given given).2), origin, streamFile]

/-- The file of any other stream is that of the parent, if it is inherited. -/
theorem child_not_given (started : posixSpawn fds (hostFA arr readEnd addclose) = some t)
    (notGiven : arr d = none) (stays : ¬ (addclose = true ∧ d.val = readEnd)) :
    (t d).map (fun e => e.descriptor.file) =
      ((fds d.val).filter fun own => !own.cloexec).map Descriptor.file := by
  obtain ⟨origin, redirected⟩ := trace_hostFA arr readEnd addclose d
  rw [if_neg stays] at origin redirected
  rw [file_of_placed started (redirected.trans (origin_not_given notGiven).2), origin,
    (origin_not_given notGiven).1, Option.bind_some]

end Child

/-! ## The exact condition -/

section Exact

variable {fds : Table α} {answers : ProcessSpawnAnswers} {actions : List FDup2} {arr : Dup2FDArr}
  {readEnd writeEnd : ℕ} {t : NewTable α}

theorem closesReadEnd_iff (piped : answers.pipe = .ok (readEnd, writeEnd)) (n : ℕ) :
    ClosesReadEnd answers n ↔ answers.addclose = true ∧ n = readEnd := by
  rw [ClosesReadEnd, piped]
  refine and_congr_right fun _ => ⟨?_, ?_⟩
  · rintro ⟨_, same⟩
    cases same
    rfl
  · rintro rfl
    exact ⟨writeEnd, rfl⟩

/-- The file of a stream, by the given numbers. -/
theorem streamFile_eq (numbers : ∀ d : Fin 3, arr d = givenNumber answers actions d) {d : Fin 3}
    {h : ℕ} (given : givenNumber answers actions d = some h) :
    streamFile fds arr d =
      if h < d ∧ (givenNumber answers actions h).isSome = true then streamFile fds arr h
      else (fds h).map Descriptor.file := by
  rw [streamFile_given ((numbers d).trans given)]
  by_cases lower : h < d
  · have small : h < 3 := lower.trans d.isLt
    rw [if_pos lower]
    cases other : givenNumber answers actions h with
    | none => simpa using streamFile_not_given (d := ⟨h, small⟩) ((numbers ⟨h, small⟩).trans other)
    | some h' => simp [lower]
  · rw [if_neg lower, if_neg fun both => lower both.1]

/-- A stream with a given number that is kept: it is not closed, and its file is as it should be,
by the file of the stream that it comes from. -/
theorem streamKept_given {d : Fin 3} {h : ℕ} (number : givenNumber answers actions d = some h) :
    StreamKept fds answers actions d ↔ ¬ ClosesReadEnd answers d ∧
      redirectedFile fds answers actions d =
        if h < d ∧ (givenNumber answers actions h).isSome = true then
          redirectedFile fds answers actions h
        else (fds h).map Descriptor.file := by
  simp only [StreamKept, number]
  refine and_congr_right fun _ => ?_
  split <;> rfl

/-- The streams are kept, so the duplications give each its file. A stream comes from one below
it, or from the parent. -/
theorem files_of_kept (numbers : ∀ d : Fin 3, arr d = givenNumber answers actions d)
    (kept : ∀ d : Fin 3, StreamKept fds answers actions d) (d : Fin 3)
    (known : (givenNumber answers actions d).isSome = true) :
    streamFile fds arr d = redirectedFile fds answers actions d := by
  have below : ∀ n, ∀ d : Fin 3, d.val = n → (givenNumber answers actions d).isSome = true →
      streamFile fds arr d = redirectedFile fds answers actions d := by
    intro n
    induction n using Nat.strong_induction_on with
    | _ n ih =>
      rintro d rfl known
      obtain ⟨h, number⟩ := Option.isSome_iff_exists.mp known
      rw [streamFile_eq numbers number, ((streamKept_given number).mp (kept d)).2]
      split
      next lower => exact ih h lower.1 ⟨h, lower.1.trans d.isLt⟩ rfl lower.2
      next => rfl
  exact below d d rfl known

/-- The duplications give each stream its file, so those that are not closed are kept. -/
theorem kept_of_files (numbers : ∀ d : Fin 3, arr d = givenNumber answers actions d)
    (files : ∀ d : Fin 3, (givenNumber answers actions d).isSome = true →
      streamFile fds arr d = redirectedFile fds answers actions d)
    {d : Fin 3} {h : ℕ} (number : givenNumber answers actions d = some h)
    (stays : ¬ ClosesReadEnd answers d) : StreamKept fds answers actions d := by
  refine (streamKept_given number).mpr ⟨stays, ?_⟩
  rw [← files d (by rw [number]; rfl), streamFile_eq numbers number]
  split
  next lower => exact files ⟨h, lower.1.trans d.isLt⟩ lower.2
  next => rfl

section Stream

variable (numbers : ∀ d : Fin 3, arr d = givenNumber answers actions d)
  (denoted : ∀ d : Fin 3, (givenNumber answers actions d).isSome = true ↔
    (redirectedFile fds answers actions d).isSome = true)
  (piped : answers.pipe = .ok (readEnd, writeEnd))
  (started : posixSpawn fds (hostFA arr readEnd answers.addclose) = some t)

include numbers denoted piped started

/-- A stream with a given number in the new process. -/
theorem listed_given {d : Fin 3} {h : ℕ} (number : givenNumber answers actions d = some h) :
    (t d).map (fun e => e.descriptor.file) = redirectedFile fds answers actions d ↔
      ¬ ClosesReadEnd answers d ∧
        streamFile fds arr d = redirectedFile fds answers actions d := by
  have closes := closesReadEnd_iff piped d
  have file := (denoted d).mp (by rw [number]; rfl)
  by_cases closed : ClosesReadEnd answers d
  · rw [child_closed started (closes.mp closed)]
    constructor
    · intro nothing
      rw [← nothing] at file
      cases file
    · exact fun both => absurd closed both.1
  · rw [child_given started ((numbers d).trans number) (mt closes.mpr closed)]
    exact (and_iff_right closed).symm

/-- A stream without one. -/
theorem listed_not_given {d : Fin 3} (number : givenNumber answers actions d = none) :
    (t d).map (fun e => e.descriptor.file) = redirectedFile fds answers actions d ↔
      StreamKept fds answers actions d := by
  have closes := closesReadEnd_iff piped d
  have nothing : redirectedFile fds answers actions d = none := by
    have unknown := (denoted d).not.mp (by simp [number])
    simpa using unknown
  simp only [StreamKept, number, nothing]
  by_cases closed : ClosesReadEnd answers d
  · rw [child_closed started (closes.mp closed)]
    exact iff_of_true rfl (.inl closed)
  · rw [child_not_given started ((numbers d).trans number) (mt closes.mpr closed),
      or_iff_right closed, Option.map_eq_none_iff, Option.filter_eq_none_iff]
    simp

end Stream

/-- **The streams of one spawn.** The streams of the new process are as listed exactly when each
of them is kept. -/
theorem streamsAsListed_iff (numbers : ∀ d : Fin 3, arr d = givenNumber answers actions d)
    (denoted : ∀ d : Fin 3, (givenNumber answers actions d).isSome = true ↔
      (redirectedFile fds answers actions d).isSome = true)
    (piped : answers.pipe = .ok (readEnd, writeEnd))
    (started : posixSpawn fds (hostFA arr readEnd answers.addclose) = some t) :
    StreamsAsListed fds answers actions t ↔
      ∀ d : Fin 3, StreamKept fds answers actions d := by
  have given := fun {d : Fin 3} {h : ℕ} (number : givenNumber answers actions d = some h) =>
    listed_given numbers denoted piped started number
  constructor
  · intro listed d
    cases number : givenNumber answers actions d with
    | none => exact (listed_not_given numbers denoted piped started number).mp (listed d)
    | some h =>
        refine kept_of_files numbers (fun d known => ?_) number ((given number).mp (listed d)).1
        obtain ⟨h, number⟩ := Option.isSome_iff_exists.mp known
        exact ((given number).mp (listed d)).2
  · intro kept d
    cases number : givenNumber answers actions d with
    | none => exact (listed_not_given numbers denoted piped started number).mpr (kept d)
    | some h =>
        exact (given number).mpr ⟨((streamKept_given number).mp (kept d)).1,
          files_of_kept numbers kept d (by rw [number]; rfl)⟩

/-- The streams that denote a file are those with a given number. -/
theorem given_iff_denoted
    (opened : ∀ fd n, answers.getHostFDByAppFD fd = .ok n → (fds n).isSome = true)
    (sources : ∀ a ∈ actions, (answers.getHostFDByAppFD a.srcFD).toOption.isSome = true) (d : ℕ) :
    (givenNumber answers actions d).isSome = true ↔
      (redirectedFile fds answers actions d).isSome = true := by
  have listed : ∀ fd, (answers.getHostFDByAppFD fd).toOption.isSome = true →
      (appFile fds answers fd).isSome = true := by
    intro fd known
    cases found : answers.getHostFDByAppFD fd with
    | error err =>
        rw [found] at known
        cases known
    | ok n =>
        rw [appFile, found, Option.isSome_map]
        exact opened fd n found
  constructor
  · exact applyInOrder_isSome sources listed listed d
  · intro file
    by_contra absent
    have unknown : givenNumber answers actions d = none := by simpa using absent
    have nothing : redirectedFile fds answers actions d = none := by
      refine applyInOrder_eq_none sources (fun fd unknown => ?_) d unknown
      rw [appFile, show (answers.getHostFDByAppFD fd).toOption = none from unknown]
      rfl
    rw [nothing] at file
    cases file

end Exact

/-- **Redirections.** Whatever descriptors the app and the host have, and whatever redirections
onto standard streams a spawn lists: the process that it starts has the streams that the list says
exactly when each of them is kept. The descriptors in the table of the guest are open in the
host. -/
theorem redirections_as_listed_iff {L : LinearMemory} {mem : Memory}
    {whitelist : HostCmdWhitelist} {answers : ProcessSpawnAnswers} {fuel pReq : ℕ}
    {actions : List UInt32}
    {fds : Table α} {e : HostExec} {t : NewTable α}
    (walked : spawnActions L mem fuel (spawnReq pReq mem .appFaPointer) = some (.ok actions))
    (onStreams : ∀ a ∈ fdup2Actions mem actions, 0 ≤ a.destFD ∧ a.destFD < 3)
    (opened : ∀ fd n, answers.getHostFDByAppFD fd = .ok n → (fds n).isSome = true)
    (executed : (processSpawn L mem whitelist answers fuel pReq).exec = some e)
    (started : posixSpawn fds e.fileActions = some t) :
    StreamsAsListed fds answers (fdup2Actions mem actions) t ↔
      ∀ d : Fin 3, StreamKept fds answers (fdup2Actions mem actions) d := by
  obtain ⟨arr, readEnd, writeEnd, streams, piped, same⟩ :=
    processSpawn_fileActions walked executed
  obtain ⟨numbers, sources⟩ := spawnStreams_ok onStreams streams
  rw [same] at started
  exact streamsAsListed_iff numbers (fun d => given_iff_denoted opened sources d) piped started

/-- A memory of 128 bytes. -/
def spawnMemory : LinearMemory := .mapped 0x30000 128 (by decide) (by decide) (by decide)

/-- A request at offset 0 for `ls` without arguments, with two actions: descriptor 3 becomes the
standard output, and then this source the standard error. -/
def redirectBoth (source : ℕ) : Memory :=
  store (store (store (store (store (store (store (store (store (store (fun _ => 0)
    0 4 0x20) 0x20 2 0x736c) 12 4 0x30) 0x30 4 0x40) 0x34 4 1) 0x38 4 3) 0x3c 4 1) 0x44 4 1)
    0x48 4 source) 0x4c 4 2

/-- The first four descriptors of the app are 10 to 13 in the host. -/
def duplicatedStreams : ProcessSpawnAnswers :=
  ⟨fun fd => if 0 ≤ fd ∧ fd < 4 then .ok (fd.toNat + 10) else .error uvwasiEBADF, 0, fun _ => 0,
    .ok (8, 9), true, .ok 100⟩

/-- Each descriptor of the host below 14 has a file of its own. -/
def hostFiles : Table ℕ := fun n => if n < 14 then some ⟨n, false⟩ else none

/-- What these requests execute. -/
def listExec (source : ℕ) : HostExec :=
  ⟨true, cBytes "ls", [.dup2 10 0, .dup2 13 1, .dup2 (source + 10) 2, .close 8],
    [some (cBytes "ls"), none]⟩

/-- With the same source for both, the streams are as listed. -/
theorem redirect_both_as_listed :
    ∃ t, posixSpawn hostFiles (listExec 3).fileActions = some t ∧
      (processSpawn spawnMemory (redirectBoth 3) (fun _ => some (cBytes "ls")) duplicatedStreams 3
        0).exec = some (listExec 3) ∧
      StreamsAsListed hostFiles duplicatedStreams (fdup2Actions (redirectBoth 3) [0x30, 0x40]) t := by
  have executed : (processSpawn spawnMemory (redirectBoth 3) (fun _ => some (cBytes "ls"))
      duplicatedStreams 3 0).exec = some (listExec 3) := by
    decide +kernel
  have walked : spawnActions spawnMemory (redirectBoth 3) 3
      (spawnReq 0 (redirectBoth 3) .appFaPointer) = some (.ok [0x30, 0x40]) := by
    decide +kernel
  have actions : fdup2Actions (redirectBoth 3) [0x30, 0x40] = [⟨3, 1⟩, ⟨3, 2⟩] := by
    decide +kernel
  have started : posixSpawn hostFiles (listExec 3).fileActions = some _ := rfl
  refine ⟨_, started, executed, ?_⟩
  refine (redirections_as_listed_iff walked ?_ ?_ executed started).mpr ?_
  · rw [actions]
    decide
  · intro fd n found
    simp only [duplicatedStreams] at found
    split at found
    next low =>
      cases found
      simp only [hostFiles]
      rw [if_pos (by omega)]
      rfl
    next => cases found
  · have stays : ∀ d : Fin 3, ¬ ClosesReadEnd duplicatedStreams d := by
      intro d closes
      have same := ((closesReadEnd_iff rfl d).mp closes).2
      omega
    rw [actions]
    intro d
    match d with
    | 0 => exact ⟨stays 0, by decide⟩
    | 1 => exact ⟨stays 1, by decide⟩
    | 2 => exact ⟨stays 2, by decide⟩

/-- With the standard output as the source of the second, the standard error is not the
redirected file: it is the standard output as it was. -/
theorem redirect_error_to_output_lost :
    ∃ t, posixSpawn hostFiles (listExec 1).fileActions = some t ∧
      (processSpawn spawnMemory (redirectBoth 1) (fun _ => some (cBytes "ls")) duplicatedStreams 3
        0).exec = some (listExec 1) ∧
      fdup2Actions (redirectBoth 1) [0x30, 0x40] = [⟨3, 1⟩, ⟨1, 2⟩] ∧
      ¬ StreamsAsListed hostFiles duplicatedStreams (fdup2Actions (redirectBoth 1) [0x30, 0x40])
        t := by
  refine ⟨_, rfl, by decide +kernel, by decide +kernel, ?_⟩
  intro listed
  have actions : fdup2Actions (redirectBoth 1) [0x30, 0x40] = [⟨3, 1⟩, ⟨1, 2⟩] := by
    decide +kernel
  rw [actions] at listed
  exact absurd (listed 2) (by decide)

end Process
end WamrExt
