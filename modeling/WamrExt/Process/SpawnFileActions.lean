import Mathlib.Data.Int.Notation
import Mathlib.Data.List.Nodup
import WamrExt.Lib.LinkedList
import WamrExt.Lib.Transition

/-!
# The file actions of the vendored `posix_spawn`

On Android the file actions of a spawn are an object of the vendored library. It has the addresses
of the first and of the last node of a linked list, and each node has an action and the address of
the next node. A path is a block of its own. The blocks come from `malloc`, `calloc` and `strdup`,
any of which may fail.

Here a heap has a block at some addresses, and an access to an address without a block of the right
kind has no result. So the results say that the functions never make such an access.

The object holds exactly the actions that were accepted, in their order, whichever calls fail
(`Represents.add`, `accepted_in_order`). It owns its blocks: destroying it frees each of them once,
and leaves the heap as it was before the object was made (`destroy_frees_all`).
-/

set_option autoImplicit false

namespace WamrExt
namespace Process
namespace SpawnFileActions

open LinkedList Transition

/-- `Action` -/
inductive Action where
  | kOpen
  | kClose
  | kDup2
  deriving DecidableEq, Repr

/-- `__posix_spawn_file_action`. The fields `next` and `path` are addresses. -/
structure SpawnFileAction where
  next : ℕ
  what : Action
  fd : ℤ
  newFd : ℤ
  path : ℕ
  flags : ℤ
  mode : ℕ
  deriving DecidableEq, Repr

/-- What an address may have: `__posix_spawn_file_actions`, a node, or a string. -/
inductive Block where
  | fileActions (head last : ℕ)
  | fileAction (action : SpawnFileAction)
  | path (bytes : List UInt8)
  deriving DecidableEq, Repr

/-- The live blocks. No block is at the null address. -/
abbrev Heap := ℕ → Option Block

namespace Heap

/-- `free`, which does nothing with a null pointer. -/
def free (h : Heap) (p : ℕ) : Option Heap :=
  if p = 0 then some h else (h p).map fun _ => Function.update h p none

/-- An address that the allocator may give. -/
def Fresh (h : Heap) (p : ℕ) : Prop := p ≠ 0 ∧ h p = none

/-- The member `next` of a node. -/
def nextOf (h : Heap) (p : ℕ) : Option ℕ :=
  match h p with
  | some (.fileAction action) => some action.next
  | _ => none

end Heap

/-! ## The functions -/

/-- `EBADF` and `ENOMEM` of the host -/
def hostEBADF : ℤ := 9

def hostENOMEM : ℤ := 12

/-- The arguments of `posix_spawn_add_file_action`. -/
structure FileActionArgs where
  what : Action
  fd : ℤ
  newFd : ℤ
  path : Option (List UInt8)
  flags : ℤ
  mode : ℕ
  deriving DecidableEq, Repr

/-- What `malloc` and `strdup` give in a call. There is no address when they fail. -/
structure AddAnswers where
  malloc : Option ℕ
  strdup : Option ℕ
  deriving DecidableEq, Repr

section Functions

variable (h : Heap) (actions : ℕ)

/-- `posix_spawn_file_actions_init` -/
def fileActionsInit (calloc : Option ℕ) : ℤ × Heap × ℕ :=
  match calloc with
  | none => (hostENOMEM, h, 0)
  | some p => (0, Function.update h p (some (.fileActions 0 0)), p)

/-- A node after the last of a list. -/
def linkLast (head last : ℕ) (lastNode : SpawnFileAction) (action : ℕ) : Heap :=
  Function.update (Function.update h last (some (.fileAction { lastNode with next := action })))
    actions (some (.fileActions head action))

/-- The end of `posix_spawn_add_file_action`: a node goes to the end of the list. -/
def linkFileAction (action : ℕ) : Option (ℤ × Heap) :=
  match h actions with
  | some (.fileActions head last) =>
      if head = 0 then some (0, Function.update h actions (some (.fileActions action action)))
      else
        match h last with
        | some (.fileAction lastNode) => some (0, linkLast h actions head last lastNode action)
        | _ => none
  | _ => none

/-- `posix_spawn_add_file_action`. When `strdup` fails, the new node is freed. -/
def addFileAction (args : FileActionArgs) (answers : AddAnswers) : Option (ℤ × Heap) :=
  match answers.malloc with
  | none => some (hostENOMEM, h)
  | some action =>
      let node (path : ℕ) : SpawnFileAction :=
        ⟨0, args.what, args.fd, args.newFd, path, args.flags, args.mode⟩
      match args.path with
      | none =>
          linkFileAction (Function.update h action (some (.fileAction (node 0)))) actions action
      | some bytes =>
          match answers.strdup with
          | none =>
              let h : Heap := Function.update h action (some (.fileAction (node 0)))
              (h.free action).map fun h => (hostENOMEM, h)
          | some p =>
              let h := Function.update h p (some (.path bytes))
              linkFileAction (Function.update h action (some (.fileAction (node p)))) actions action

/-- A call of one of the functions that add an action. -/
inductive FileActionsCall where
  | addopen (fd : ℤ) (path : List UInt8) (flags : ℤ) (mode : ℕ)
  | addclose (fd : ℤ)
  | adddup2 (fd newFd : ℤ)
  deriving DecidableEq, Repr

/-- What a call adds, if its descriptors are not negative. -/
def FileActionsCall.args : FileActionsCall → Option FileActionArgs
  | .addopen fd path flags mode =>
      if fd < 0 then none else some ⟨.kOpen, -1, fd, some path, flags, mode⟩
  | .addclose fd => if fd < 0 then none else some ⟨.kClose, fd, -1, none, 0, 0⟩
  | .adddup2 fd newFd =>
      if fd < 0 ∨ newFd < 0 then none else some ⟨.kDup2, fd, newFd, none, 0, 0⟩

/-- `posix_spawn_file_actions_addopen`, `_addclose` and `_adddup2`. -/
def addCall (call : FileActionsCall) (answers : AddAnswers) : Option (ℤ × Heap) :=
  match call.args with
  | none => some (hostEBADF, h)
  | some args => addFileAction h actions args answers

/-- The loop of `posix_spawn_file_actions_destroy`. -/
def destroyLoop : ℕ → Heap → ℕ → Option Heap
  | 0, _, _ => none
  | fuel + 1, h, a =>
      if a = 0 then some h
      else
        match h a with
        | some (.fileAction last) =>
            (h.free last.path).bind fun h => (h.free a).bind fun h => destroyLoop fuel h last.next
        | _ => none

/-- `posix_spawn_file_actions_destroy` -/
def fileActionsDestroy (fuel : ℕ) : Option Heap :=
  match h actions with
  | some (.fileActions head _) => (destroyLoop fuel h head).bind fun h => h.free actions
  | _ => none

end Functions

/-! ## What an object holds -/

/-- An action that an object holds: what was added, and the addresses of the node and of its
path. -/
structure Stored where
  addr : ℕ
  pathAddr : ℕ
  args : FileActionArgs

namespace Stored

/-- The node, with a link. -/
def node (s : Stored) (next : ℕ) : SpawnFileAction :=
  ⟨next, s.args.what, s.args.fd, s.args.newFd, s.pathAddr, s.args.flags, s.args.mode⟩

/-- The blocks of the action. -/
def blocks (s : Stored) : List ℕ := if s.pathAddr = 0 then [s.addr] else [s.addr, s.pathAddr]

/-- The action is in a heap. -/
structure In (s : Stored) (h : Heap) : Prop where
  node : ∃ next, h s.addr = some (.fileAction (s.node next))
  path : match s.args.path with
    | none => s.pathAddr = 0
    | some bytes => s.pathAddr ≠ 0 ∧ h s.pathAddr = some (.path bytes)

theorem addr_mem_blocks (s : Stored) : s.addr ∈ s.blocks := by
  rw [blocks]
  split <;> exact List.mem_cons_self

theorem mem_blocks {s : Stored} {p : ℕ} :
    p ∈ s.blocks ↔ p = s.addr ∨ (s.pathAddr ≠ 0 ∧ p = s.pathAddr) := by
  rw [blocks]
  split
  next null => simp [null]
  next notNull => simp [notNull]

/-- The blocks of an action are live. -/
theorem In.live {s : Stored} {h : Heap} (inHeap : s.In h) {p : ℕ} (own : p ∈ s.blocks) :
    h p ≠ none := by
  obtain ⟨⟨next, node⟩, path⟩ := inHeap
  rcases mem_blocks.mp own with rfl | ⟨notNull, rfl⟩
  · rw [node]
    exact Option.some_ne_none _
  · split at path
    · exact absurd path notNull
    · rw [path.2]
      exact Option.some_ne_none _

/-- An action stays where its blocks are not changed. -/
theorem In.congr {s : Stored} {h h' : Heap} (inHeap : s.In h)
    (same : ∀ p ∈ s.blocks, h' p = h p) : s.In h' := by
  obtain ⟨⟨next, node⟩, path⟩ := inHeap
  refine ⟨⟨next, (same _ s.addr_mem_blocks).trans node⟩, ?_⟩
  split at path
  next => exact path
  next => exact ⟨path.1, (same _ (mem_blocks.mpr (.inr ⟨path.1, rfl⟩))).trans path.2⟩

/-- An action stays, with another link, where nothing else of it is changed. -/
theorem In.relink {s : Stored} {h h' : Heap} {next : ℕ} (inHeap : s.In h)
    (link : h' s.addr = some (.fileAction (s.node next)))
    (same : ∀ p ∈ s.blocks, p ≠ s.addr → h' p = h p) (apart : s.blocks.Nodup) : s.In h' := by
  refine ⟨⟨next, link⟩, ?_⟩
  have path := inHeap.path
  split at path
  next => exact path
  next =>
    have own : s.pathAddr ∈ s.blocks := mem_blocks.mpr (.inr ⟨path.1, rfl⟩)
    have other : s.pathAddr ≠ s.addr := by
      rw [blocks, if_neg path.1] at apart
      exact fun equal => (List.nodup_cons.mp apart).1 (List.mem_singleton.mpr equal.symm)
    exact ⟨path.1, (same _ own other).trans path.2⟩

end Stored

/-- The blocks of all actions. -/
def blocksOf (stored : List Stored) : List ℕ := stored.flatMap Stored.blocks

/-- An object holds actions, in blocks of its own that were not live in a heap before. -/
structure Represents (base h : Heap) (actions : ℕ) (stored : List Stored) : Prop where
  object : ∃ head last, h actions = some (.fileActions head last) ∧
    Linked h.nextOf head (stored.map Stored.addr) ∧
    ∀ s, stored.getLast? = some s → last = s.addr
  nodes : ∀ s ∈ stored, s.In h
  notNull : actions ≠ 0
  apart : (actions :: blocksOf stored).Nodup
  new : ∀ p ∈ actions :: blocksOf stored, base p = none
  frame : ∀ p, p ∉ actions :: blocksOf stored → h p = base p

section Represents

variable {base h h' : Heap} {actions : ℕ} {stored : List Stored} {s : Stored}

theorem mem_blocksOf {p : ℕ} : p ∈ blocksOf stored ↔ ∃ s ∈ stored, p ∈ s.blocks :=
  List.mem_flatMap

theorem blocksOf_concat : blocksOf (stored ++ [s]) = blocksOf stored ++ s.blocks := by
  simp [blocksOf]

/-- The blocks of an object are live. -/
theorem Represents.live (rep : Represents base h actions stored) :
    ∀ p ∈ actions :: blocksOf stored, h p ≠ none := by
  obtain ⟨head, last, here, _⟩ := rep.object
  refine List.forall_mem_cons.mpr ⟨?_, fun p own => ?_⟩
  · rw [here]
    exact Option.some_ne_none _
  · obtain ⟨s, member, own⟩ := mem_blocksOf.mp own
    exact (rep.nodes s member).live own

/-- An object without actions. -/
theorem represents_init (fresh : base.Fresh actions) :
    Represents base (Function.update base actions (some (.fileActions 0 0))) actions [] where
  object := ⟨0, 0, Function.update_self _ _ _, rfl, nofun⟩
  nodes := nofun
  notNull := fresh.1
  apart := List.nodup_singleton _
  new := List.forall_mem_singleton.mpr fresh.2
  frame := fun _ other => Function.update_of_ne (List.ne_of_not_mem_cons other) _ _

/-- The new action is in a heap, with no link, in blocks that were not live, and nothing else has
changed. -/
structure Placed (h h' : Heap) (s : Stored) : Prop where
  node : h' s.addr = some (.fileAction (s.node 0))
  inHeap : s.In h'
  notNull : s.addr ≠ 0
  apart : s.blocks.Nodup
  new : ∀ p ∈ s.blocks, h p = none
  frame : ∀ p, p ∉ s.blocks → h' p = h p

/-- A new action has no block with an object in common. -/
theorem Represents.disjoint (rep : Represents base h actions stored) (placed : Placed h h' s) :
    (actions :: blocksOf stored).Disjoint s.blocks :=
  fun p own new => rep.live p own (placed.new p new)

/-- The blocks of an object with one action more. -/
theorem Represents.apart_concat (rep : Represents base h actions stored)
    (placed : Placed h h' s) : (actions :: blocksOf (stored ++ [s])).Nodup := by
  rw [blocksOf_concat, ← List.cons_append]
  exact List.nodup_append'.mpr ⟨rep.apart, placed.apart, rep.disjoint placed⟩

theorem Represents.new_concat (rep : Represents base h actions stored) (placed : Placed h h' s) :
    ∀ p ∈ actions :: blocksOf (stored ++ [s]), base p = none := by
  intro p own
  rw [blocksOf_concat, ← List.cons_append] at own
  rcases List.mem_append.mp own with before | new
  · exact rep.new p before
  · rw [← rep.frame p fun before => rep.disjoint placed before new]
    exact placed.new p new

/-- A first action is linked. -/
theorem Represents.link_first (rep : Represents base h actions []) (placed : Placed h h' s) :
    ∃ h'', linkFileAction h' actions s.addr = some (0, h'') ∧
      Represents base h'' actions [s] := by
  obtain ⟨head, last, here, linked, _⟩ := rep.object
  have disjoint := rep.disjoint placed
  have notNew : actions ∉ s.blocks := disjoint List.mem_cons_self
  have header : h' actions = some (.fileActions head last) := (placed.frame _ notNew).trans here
  have null : head = 0 := linked
  have other : s.addr ≠ actions := fun same => notNew (same ▸ s.addr_mem_blocks)
  refine ⟨_, by rw [linkFileAction, header]; exact if_pos null, ?_⟩
  constructor
  case object =>
    refine ⟨_, _, Function.update_self _ _ _, ?_, fun t only => ?_⟩
    · refine Linked.cons placed.notNull ?_ rfl
      rw [Heap.nextOf, Function.update_of_ne other, placed.node]
      rfl
    · cases only
      rfl
  case nodes =>
    refine List.forall_mem_singleton.mpr (placed.inHeap.congr fun p own => ?_)
    have different : p ≠ actions := fun same => notNew (same ▸ own)
    exact Function.update_of_ne different _ _
  case notNull => exact rep.notNull
  case apart => exact rep.apart_concat placed
  case new => exact rep.new_concat placed
  case frame =>
    intro p out
    have notBlock : p ∉ s.blocks := fun own =>
      out (List.mem_cons_of_mem _ (mem_blocksOf.mpr ⟨s, List.mem_singleton_self s, own⟩))
    rw [Function.update_of_ne (List.ne_of_not_mem_cons out), placed.frame p notBlock]
    exact rep.frame p (by simpa [blocksOf] using List.ne_of_not_mem_cons out)

/-- The last action of an object, and its blocks, which are none of those before. -/
theorem Represents.last {before : List Stored} {last : Stored}
    (rep : Represents base h actions (before ++ [last])) :
    last.blocks.Nodup ∧ ∀ p ∈ actions :: blocksOf before, p ∉ last.blocks := by
  have apart := rep.apart
  rw [blocksOf_concat, ← List.cons_append] at apart
  obtain ⟨_, own, disjoint⟩ := List.nodup_append'.mp apart
  exact ⟨own, fun p before => disjoint before⟩

theorem Represents.ne_actions (rep : Represents base h actions stored) (member : s ∈ stored) :
    ∀ p ∈ s.blocks, p ≠ actions := by
  rintro p own rfl
  exact (List.nodup_cons.mp rep.apart).1 (mem_blocksOf.mpr ⟨s, member, own⟩)

section Link

variable {head last action p : ℕ} {lastNode : SpawnFileAction}

theorem linkLast_last (other : last ≠ actions) :
    linkLast h actions head last lastNode action last =
      some (.fileAction { lastNode with next := action }) := by
  rw [linkLast, Function.update_of_ne other, Function.update_self]

theorem linkLast_elsewhere (notObject : p ≠ actions) (notLast : p ≠ last) :
    linkLast h actions head last lastNode action p = h p := by
  rw [linkLast, Function.update_of_ne notObject, Function.update_of_ne notLast]

end Link

/-- A later action is linked after the last. -/
theorem Represents.link_next {before : List Stored} {last : Stored}
    (rep : Represents base h actions (before ++ [last])) (placed : Placed h h' s) :
    ∃ h'', linkFileAction h' actions s.addr = some (0, h'') ∧
      Represents base h'' actions (before ++ [last] ++ [s]) := by
  obtain ⟨head, lastAddr, here, linked, isLast⟩ := rep.object
  cases isLast last (List.getLast?_concat ..)
  obtain ⟨lastApart, notLast⟩ := rep.last
  have lastMember : last ∈ before ++ [last] := List.mem_append_right _ (List.mem_singleton_self _)
  have lastOther : last.addr ≠ actions := rep.ne_actions lastMember _ last.addr_mem_blocks
  -- the new blocks are none of the object, which is as it was before them
  have notNew : ∀ p ∈ actions :: blocksOf (before ++ [last]), p ∉ s.blocks := fun p own =>
    rep.disjoint placed own
  have kept : ∀ t ∈ before ++ [last], ∀ p ∈ t.blocks, h' p = h p := fun t member p own =>
    placed.frame p (notNew p (List.mem_cons_of_mem _ (mem_blocksOf.mpr ⟨t, member, own⟩)))
  obtain ⟨next, nodeAt⟩ := (rep.nodes last lastMember).node
  let linkedHeap := linkLast h' actions head last.addr (last.node next) s.addr
  have atLast : linkedHeap last.addr = some (.fileAction (last.node s.addr)) :=
    linkLast_last lastOther
  have old : ∀ t ∈ before, ∀ p ∈ t.blocks, linkedHeap p = h p := by
    intro t member p own
    have inList : t ∈ before ++ [last] := List.mem_append_left _ member
    have notLastBlock : p ∉ last.blocks :=
      notLast p (List.mem_cons_of_mem _ (mem_blocksOf.mpr ⟨t, member, own⟩))
    have different : p ≠ last.addr := fun same => notLastBlock (same ▸ last.addr_mem_blocks)
    exact (linkLast_elsewhere (rep.ne_actions inList p own) different).trans (kept t inList p own)
  have new : ∀ p ∈ s.blocks, linkedHeap p = h' p := by
    intro p own
    have notObject : p ≠ actions := fun same => notNew p (same ▸ List.mem_cons_self) own
    have different : p ≠ last.addr := by
      rintro rfl
      exact notNew _ (List.mem_cons_of_mem _
        (mem_blocksOf.mpr ⟨last, lastMember, last.addr_mem_blocks⟩)) own
    exact linkLast_elsewhere notObject different
  refine ⟨linkedHeap, ?_, ?_⟩
  · have notEmpty : head ≠ 0 := by
      cases before with
      | nil => exact linked.1 ▸ linked.2.1
      | cons first rest => exact linked.1 ▸ linked.2.1
    have header : h' actions = some (.fileActions head last.addr) :=
      (placed.frame _ (notNew _ List.mem_cons_self)).trans here
    have node : h' last.addr = some (.fileAction (last.node next)) :=
      (kept last lastMember _ last.addr_mem_blocks).trans nodeAt
    rw [linkFileAction, header]
    simp only [if_neg notEmpty, node]
    rfl
  constructor
  case object =>
    refine ⟨head, s.addr, Function.update_self _ _ _, ?_, fun t isLast => ?_⟩
    · rw [List.map_append] at linked
      rw [List.map_append, List.map_append]
      refine linked.concat placed.notNull ?_ ?_ fun a member => ?_
      · rw [Heap.nextOf, atLast]
        rfl
      · rw [Heap.nextOf, new _ s.addr_mem_blocks, placed.node]
        rfl
      · obtain ⟨t, inBefore, rfl⟩ := List.mem_map.mp member
        rw [Heap.nextOf, Heap.nextOf, old t inBefore _ t.addr_mem_blocks]
    · rw [List.getLast?_concat] at isLast
      cases isLast
      rfl
  case nodes =>
    refine List.forall_mem_append.mpr ⟨List.forall_mem_append.mpr ⟨fun t member => ?_, ?_⟩, ?_⟩
    · exact (rep.nodes t (List.mem_append_left _ member)).congr (old t member)
    · refine List.forall_mem_singleton.mpr ?_
      refine (rep.nodes last lastMember).relink atLast (fun p own different => ?_) lastApart
      exact (linkLast_elsewhere (rep.ne_actions lastMember p own) different).trans
        (kept last lastMember p own)
    · exact List.forall_mem_singleton.mpr (placed.inHeap.congr new)
  case notNull => exact rep.notNull
  case apart => exact rep.apart_concat placed
  case new => exact rep.new_concat placed
  case frame =>
    intro p out
    rw [blocksOf_concat, ← List.cons_append, List.mem_append, not_or] at out
    obtain ⟨notOwn, notBlock⟩ := out
    have different : p ≠ last.addr := by
      rintro rfl
      exact notOwn (List.mem_cons_of_mem _
        (mem_blocksOf.mpr ⟨last, lastMember, last.addr_mem_blocks⟩))
    exact ((linkLast_elsewhere (List.ne_of_not_mem_cons notOwn) different).trans
      (placed.frame p notBlock)).trans (rep.frame p notOwn)

/-- An action is linked at the end of the list. -/
theorem Represents.link (rep : Represents base h actions stored) (placed : Placed h h' s) :
    ∃ h'', linkFileAction h' actions s.addr = some (0, h'') ∧
      Represents base h'' actions (stored ++ [s]) := by
  rcases List.eq_nil_or_concat' stored with rfl | ⟨before, last, rfl⟩
  · exact rep.link_first placed
  · exact rep.link_next placed

/-- The allocator gives addresses of no live block, and two different ones. -/
structure AddAnswers.Fresh (h : Heap) (answers : AddAnswers) : Prop where
  malloc : ∀ p, answers.malloc = some p → h.Fresh p
  strdup : ∀ p, answers.strdup = some p → h.Fresh p
  apart : ∀ p, answers.malloc = some p → answers.strdup ≠ some p

instance (h : Heap) (p : ℕ) : Decidable (h.Fresh p) := inferInstanceAs (Decidable (_ ∧ _))

instance (h : Heap) (answers : AddAnswers) : Decidable (answers.Fresh h) :=
  decidable_of_iff ((∀ p ∈ answers.malloc, h.Fresh p) ∧ (∀ p ∈ answers.strdup, h.Fresh p) ∧
      ∀ p ∈ answers.malloc, answers.strdup ≠ some p)
    ⟨fun ⟨malloc, strdup, apart⟩ => ⟨malloc, strdup, apart⟩,
      fun fresh => ⟨fresh.malloc, fresh.strdup, fresh.apart⟩⟩

/-- There is memory for an action. -/
def AddAnswers.enough (answers : AddAnswers) (args : FileActionArgs) : Bool :=
  answers.malloc.isSome && (args.path.isNone || answers.strdup.isSome)

/-- What is left after a call: the object holds the new action, or there was no memory for it and
nothing has changed. -/
def Added (base h : Heap) (actions : ℕ) (stored : List Stored) (args : FileActionArgs)
    (enough : Bool) (result : ℤ × Heap) : Prop :=
  if enough then
    result.1 = 0 ∧ ∃ s, s.args = args ∧ Represents base result.2 actions (stored ++ [s])
  else result = (hostENOMEM, h)

/-- **An action is added at the end, or not at all.** -/
theorem Represents.add (rep : Represents base h actions stored) (args : FileActionArgs)
    {answers : AddAnswers} (fresh : answers.Fresh h) :
    ∃ result, addFileAction h actions args answers = some result ∧
      Added base h actions stored args (answers.enough args) result := by
  obtain ⟨malloc, strdup⟩ := answers
  cases malloc with
  | none => exact ⟨_, rfl, rfl⟩
  | some action =>
      obtain ⟨notNull, new⟩ := fresh.malloc action rfl
      obtain ⟨what, fd, newFd, path, flags, mode⟩ := args
      cases path with
      | none =>
          let s : Stored := ⟨action, 0, ⟨what, fd, newFd, none, flags, mode⟩⟩
          have blocks : s.blocks = [action] := rfl
          have placed : Placed h (Function.update h action (some (.fileAction (s.node 0)))) s :=
            { node := Function.update_self _ _ _
              inHeap := ⟨⟨0, Function.update_self _ _ _⟩, rfl⟩
              notNull := notNull
              apart := blocks ▸ List.nodup_singleton _
              new := blocks ▸ List.forall_mem_singleton.mpr new
              frame := fun p out => by
                rw [blocks, List.mem_singleton] at out
                exact Function.update_of_ne out _ _ }
          obtain ⟨h'', linked, rep'⟩ := rep.link placed
          exact ⟨(0, h''), linked, rfl, s, rfl, rep'⟩
      | some bytes =>
          cases strdup with
          | none =>
              refine ⟨(hostENOMEM, h), ?_, rfl⟩
              have freed : Heap.free (Function.update h action (some (.fileAction
                  ⟨0, what, fd, newFd, 0, flags, mode⟩))) action = some h := by
                rw [Heap.free, if_neg notNull, Function.update_self, Option.map_some,
                  Function.update_idem, ← new, Function.update_eq_self]
              rw [addFileAction]
              simp only [freed, Option.map_some]
          | some q =>
              obtain ⟨pathNotNull, pathNew⟩ := fresh.strdup q rfl
              have different : q ≠ action := fun same => fresh.apart action rfl (same ▸ rfl)
              let s : Stored := ⟨action, q, ⟨what, fd, newFd, some bytes, flags, mode⟩⟩
              have blocks : s.blocks = [action, q] := if_neg pathNotNull
              have placed : Placed h (Function.update (Function.update h q (some (.path bytes)))
                  action (some (.fileAction (s.node 0)))) s :=
                { node := Function.update_self _ _ _
                  inHeap := ⟨⟨0, Function.update_self _ _ _⟩, pathNotNull, by
                    rw [Function.update_of_ne different, Function.update_self]⟩
                  notNull := notNull
                  apart := by simpa [blocks] using different.symm
                  new := by simpa [blocks] using ⟨new, pathNew⟩
                  frame := fun p out => by
                    rw [blocks, List.mem_cons, List.mem_singleton, not_or] at out
                    rw [Function.update_of_ne out.1, Function.update_of_ne out.2] }
              obtain ⟨h'', linked, rep'⟩ := rep.link placed
              exact ⟨(0, h''), linked, rfl, s, rfl, rep'⟩

/-! ## The life of an object -/

/-- The calls that add actions to an object, each with what the allocator gives it. -/
def addStep (actions : ℕ) : Step Heap (FileActionsCall × AddAnswers) := fun h a =>
  (addCall h actions a.1 a.2).map Prod.snd

/-- What the calls have added: the actions whose descriptors are not negative and for which there
was memory. -/
def accepted (calls : List (FileActionsCall × AddAnswers)) : List FileActionArgs :=
  calls.filterMap fun a => a.1.args.filter a.2.enough

/-- A call adds what is accepted of it. -/
theorem Represents.addCall (rep : Represents base h actions stored)
    (a : FileActionsCall × AddAnswers) (fresh : a.2.Fresh h) :
    ∃ h' more, addStep actions h a = some h' ∧ Represents base h' actions (stored ++ more) ∧
      more.map Stored.args = accepted [a] := by
  obtain ⟨call, answers⟩ := a
  cases given : call.args with
  | none =>
      refine ⟨h, [], ?_, by rwa [List.append_nil], by simp [accepted, given]⟩
      rw [addStep, SpawnFileActions.addCall, given]
      rfl
  | some args =>
      obtain ⟨⟨ret, h'⟩, result, added⟩ := rep.add args fresh
      have step : addStep actions h (call, answers) = some h' := by
        rw [addStep, SpawnFileActions.addCall, given]
        simp only [result, Option.map_some]
      rw [Added] at added
      split at added
      next enough =>
        obtain ⟨_, s, rfl, rep'⟩ := added
        exact ⟨h', [s], step, rep', by simp [accepted, given, Option.filter, enough]⟩
      next short =>
        cases added
        exact ⟨h, [], step, by rwa [List.append_nil], by
          simp [accepted, given, Option.filter, short]⟩

/-- **An object holds what was accepted, in its order.** -/
theorem accepted_in_order (rep : Represents base h actions stored)
    {calls : List (FileActionsCall × AddAnswers)}
    (fresh : Meets (addStep actions) (fun h a => a.2.Fresh h) h calls) :
    ∃ h' more, run (addStep actions) h calls = some h' ∧
      Represents base h' actions (stored ++ more) ∧ more.map Stored.args = accepted calls := by
  induction calls generalizing h stored with
  | nil => exact ⟨h, [], rfl, by rwa [List.append_nil], rfl⟩
  | cons a rest ih =>
      obtain ⟨next, first, taken, rep', one⟩ := rep.addCall a fresh.1
      obtain ⟨h', more, later, rep'', others⟩ := ih rep' (fresh.2 next taken)
      refine ⟨h', first ++ more, run_cons_eq_some.mpr ⟨next, taken, later⟩, ?_, ?_⟩
      · rwa [← List.append_assoc]
      · rw [List.map_append, one, others, accepted, accepted, accepted, ← List.filterMap_append]
        rfl

/-- Freeing what is live, or null. -/
theorem Heap.free_eq (h : Heap) {p : ℕ} (notNull : p ≠ 0) (live : h p ≠ none) :
    h.free p = some (Function.update h p none) := by
  obtain ⟨block, here⟩ := Option.ne_none_iff_exists'.mp live
  rw [Heap.free, if_neg notNull, here, Option.map_some]

/-- The blocks of an action are freed. -/
theorem Stored.In.freed (inHeap : s.In h) (notNull : s.addr ≠ 0) (apart : s.blocks.Nodup) :
    ∃ h', ((h.free s.pathAddr).bind fun h => h.free s.addr) = some h' ∧
      ∀ p, h' p = if p ∈ s.blocks then none else h p := by
  have live := fun p own => inHeap.live (p := p) own
  by_cases null : s.pathAddr = 0
  · refine ⟨Function.update h s.addr none, ?_, fun p => ?_⟩
    · rw [Heap.free, if_pos null, Option.bind_some,
        h.free_eq notNull (live _ s.addr_mem_blocks)]
    · simp only [Function.update_apply, Stored.blocks, if_pos null, List.mem_singleton]
  · have other : s.addr ≠ s.pathAddr := by
      rw [Stored.blocks, if_neg null] at apart
      exact fun same => (List.nodup_cons.mp apart).1 (List.mem_singleton.mpr same)
    refine ⟨Function.update (Function.update h s.pathAddr none) s.addr none, ?_, fun p => ?_⟩
    · rw [h.free_eq null (live _ (Stored.mem_blocks.mpr (.inr ⟨null, rfl⟩))), Option.bind_some,
        Heap.free_eq _ notNull]
      rw [Function.update_of_ne other]
      exact live _ s.addr_mem_blocks
    · simp only [Function.update_apply, Stored.blocks, if_neg null, List.mem_cons,
        List.not_mem_nil, or_false]
      by_cases here : p = s.addr <;> by_cases there : p = s.pathAddr <;> simp [here, there]

/-- The loop frees the blocks of all actions, and nothing else. -/
theorem destroyLoop_frees {a fuel : ℕ} (linked : Linked h.nextOf a (stored.map Stored.addr))
    (nodes : ∀ s ∈ stored, s.In h) (apart : (blocksOf stored).Nodup)
    (enough : stored.length < fuel) :
    ∃ h', destroyLoop fuel h a = some h' ∧
      ∀ p, h' p = if p ∈ blocksOf stored then none else h p := by
  obtain ⟨fuel, rfl⟩ : ∃ n, fuel = n + 1 := ⟨fuel - 1, by omega⟩
  induction stored generalizing h a fuel with
  | nil =>
      refine ⟨h, ?_, fun p => (if_neg List.not_mem_nil).symm⟩
      rw [destroyLoop]
      exact if_pos linked
  | cons s rest ih =>
      obtain ⟨rfl, notNull, q, link, later⟩ := linked
      obtain ⟨inHeap, others⟩ := List.forall_mem_cons.mp nodes
      rw [blocksOf, List.flatMap_cons] at apart
      obtain ⟨ownApart, restApart, disjoint⟩ := List.nodup_append'.mp apart
      obtain ⟨next, node⟩ := inHeap.node
      have same : next = q := by
        rw [Heap.nextOf, node] at link
        exact Option.some.inj link
      subst same
      obtain ⟨h₁, freed, after⟩ := inHeap.freed notNull ownApart
      have kept : ∀ t ∈ rest, ∀ p ∈ t.blocks, h₁ p = h p := fun t member p own =>
        (after p).trans (if_neg fun here => disjoint here (mem_blocksOf.mpr ⟨t, member, own⟩))
      obtain ⟨fuel, rfl⟩ : ∃ n, fuel = n + 1 := ⟨fuel - 1, by
        rw [List.length_cons] at enough
        omega⟩
      have linked' : Linked h₁.nextOf next (rest.map Stored.addr) := later.congr fun a member => by
        obtain ⟨t, inRest, rfl⟩ := List.mem_map.mp member
        rw [Heap.nextOf, Heap.nextOf, kept t inRest _ t.addr_mem_blocks]
      obtain ⟨h₂, done, final⟩ := ih linked'
        (fun t member => (others t member).congr (kept t member)) restApart fuel
        (Nat.lt_of_succ_lt_succ enough)
      refine ⟨h₂, ?_, fun p => ?_⟩
      · rw [destroyLoop, if_neg notNull, node]
        dsimp only [Stored.node]
        rw [← done, ← Option.bind_assoc, freed, Option.bind_some]
      · have both : p ∈ blocksOf (s :: rest) ↔ p ∈ s.blocks ∨ p ∈ blocksOf rest := by
          rw [blocksOf, List.flatMap_cons, List.mem_append]
          rfl
        rw [final p, after p]
        by_cases here : p ∈ s.blocks <;> by_cases there : p ∈ blocksOf rest <;>
          simp [both, here, there]

/-- **Destroying an object leaves the heap as it was before the object.** -/
theorem destroy_frees_all (rep : Represents base h actions stored) {fuel : ℕ}
    (enough : stored.length < fuel) : fileActionsDestroy h actions fuel = some base := by
  obtain ⟨head, last, here, linked, _⟩ := rep.object
  obtain ⟨notNode, apart⟩ := List.nodup_cons.mp rep.apart
  obtain ⟨h', freed, after⟩ := destroyLoop_frees linked rep.nodes apart enough
  have object : h' actions ≠ none := by
    rw [after, if_neg notNode, here]
    exact Option.some_ne_none _
  rw [fileActionsDestroy, here]
  dsimp only
  rw [freed, Option.bind_some, h'.free_eq rep.notNull object]
  refine congrArg some (funext fun p => ?_)
  by_cases own : p ∈ actions :: blocksOf stored
  · rw [rep.new p own, Function.update_apply, after]
    split
    next => rfl
    next other => exact if_pos ((List.mem_cons.mp own).resolve_left other)
  · rw [Function.update_of_ne (List.ne_of_not_mem_cons own), after,
      if_neg (List.not_mem_of_not_mem_cons own), rep.frame p own]

/-- **The life of an object.** Whatever is added to a new object, and whichever of the calls there
is no memory for, the functions access live blocks only. The object then holds the accepted actions
in their order, and destroying it leaves the heap as it was. -/
theorem file_actions_life (fresh : base.Fresh actions)
    {calls : List (FileActionsCall × AddAnswers)}
    (answers : Meets (addStep actions) (fun h a => a.2.Fresh h)
      (fileActionsInit base (some actions)).2.1 calls) :
    ∃ h, run (addStep actions) (fileActionsInit base (some actions)).2.1 calls = some h ∧
      (∃ stored, Represents base h actions stored ∧ stored.map Stored.args = accepted calls) ∧
      ∀ fuel, (accepted calls).length < fuel → fileActionsDestroy h actions fuel = some base := by
  obtain ⟨h, stored, reached, rep, same⟩ := accepted_in_order (represents_init fresh) answers
  rw [List.nil_append] at rep
  refine ⟨h, reached, ⟨stored, rep, same⟩, fun fuel enough => destroy_frees_all rep ?_⟩
  rwa [← same, List.length_map] at enough

/-- A file that is opened on the standard output, one whose name there is no memory for, and a
descriptor that is closed. -/
def openTwice : List (FileActionsCall × AddAnswers) :=
  [(.addopen 1 [0x61] 2 0, ⟨some 2, some 3⟩), (.addopen 2 [0x62] 2 0, ⟨some 4, none⟩),
    (.adddup2 (-1) 2, ⟨none, none⟩), (.addclose 7, ⟨some 4, none⟩)]

theorem file_actions_life_openTwice :
    ∃ h, run (addStep 1) (fileActionsInit (fun _ => none) (some 1)).2.1 openTwice = some h ∧
      (∃ stored, Represents (fun _ => none) h 1 stored ∧
        stored.map Stored.args = accepted openTwice) ∧
      ∀ fuel, (accepted openTwice).length < fuel →
        fileActionsDestroy h 1 fuel = some fun _ => none :=
  file_actions_life (by decide) (by decide)

end Represents

end SpawnFileActions
end Process
end WamrExt
