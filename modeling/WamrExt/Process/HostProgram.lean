import WamrExt.Base.Errno
import WamrExt.Instance.HostCommands
import WamrExt.Process.SpawnArgv
import WamrExt.Process.SpawnInherit

/-!
# The host program of a spawn

`ProcessSpawn` looks the requested name up in the whitelist of the instance, once and under the
lock of the instance, and keeps a copy of the command. What it then executes is the command, with
itself and the strings of the guest as arguments. The name in the request is never a path, it
only chooses a command (`host_commands_whitelisted`).

A string of a configuration stands for a C string, with one character for each byte.

The number of arguments is multiplied by four in 32 bits before the array of their pointers is
validated. The pointers are read where the array would be in any case, and each of them has to be
that of a string of the guest.
-/

set_option autoImplicit false

namespace WamrExt
namespace Process

open Transition LatestValue ByteMemory FileActions Wamr Socket Instance Base

/-- The string with these bytes. -/
def cString (bytes : List UInt8) : String := .ofList (bytes.map fun b => Char.ofNat b.toNat)

/-- The bytes of a string. -/
def cBytes (s : String) : List UInt8 := s.toList.map fun c => UInt8.ofNat c.toNat

/-- No two names of bytes are one string. -/
theorem cBytes_cString (bytes : List UInt8) : cBytes (cString bytes) = bytes := by
  rw [cBytes, cString, String.toList_ofList, List.map_map]
  refine (List.map_congr_left fun b _ => ?_).trans (List.map_id _)
  have small := b.toNat_lt
  have byte : (Char.ofNat b.toNat).toNat = b.toNat := by
    rw [Char.ofNat, dif_pos (.inl (by omega))]
    rfl
  rw [Function.comp_apply, byte, UInt8.ofNat_toNat, id]

/-- `preferred_separator` -/
def preferredSeparator : UInt8 := 0x2f

/-- The whitelist of an instance, by the bytes of the name. -/
def hostCmdOf (config : WamrExtInstanceConfig) : HostCmdWhitelist := fun name =>
  (config.hostCmdWhitelist.lookup (cString name)).map cBytes

/-- What `ProcessSpawn` is answered by the descriptor table of the guest and by the host: error
numbers, and the results where there is no error. -/
structure ProcessSpawnAnswers where
  getHostFDByAppFD : ℤ → Except UInt16 ℕ
  fileActionsInit : ℕ
  adddup2 : Fin 3 → ℕ
  pipe : Except ℕ (ℕ × ℕ)
  addclose : Bool
  posixSpawn : Except ℕ ℕ

/-- A call of `posix_spawnp`, which searches the path, or of `posix_spawn`. The null pointer at
the end of `argv` is no string. -/
structure HostExec where
  searchPath : Bool
  program : List UInt8
  fileActions : List FileAction
  argv : List (Option (List UInt8))
  deriving DecidableEq

/-- What a call of `ProcessSpawn` executes, if it gets there, and what it returns, if it does. -/
structure SpawnOutcome where
  exec : Option HostExec
  ret : Option (Except UInt16 ℕ)

namespace SpawnOutcome

def refused (err : UInt16) : SpawnOutcome := ⟨none, some (.error err)⟩

/-- An error number of the host. -/
def failed (err : ℕ) : SpawnOutcome := refused (UInt16.ofNat (convertErrnoToWasiErrno err))

/-- The call does not come back. -/
def stuck : SpawnOutcome := ⟨none, none⟩

end SpawnOutcome

/-! ## The actions of the guest -/

/-- The fields of `wamr_spawn_action_fdup2`. The first two are those of any action. -/
inductive SpawnActionField where
  | appNextActionPointer
  | cmd
  | srcFD
  | destFD
  deriving DecidableEq, Repr

/-- The offset of a field. All of them have four bytes. -/
def SpawnActionField.offset : SpawnActionField → ℕ
  | .appNextActionPointer => 0
  | .cmd => 4
  | .srcFD => 8
  | .destFD => 12

/-- `sizeof(wamr_spawn_action_base)` -/
def spawnActionBaseSize : ℕ := 8

/-- `sizeof(wamr_spawn_action_fdup2)` -/
def spawnActionFDup2Size : ℕ := 16

/-- `__WAMR_WASI_SPAWN_ACTION_FDUP2` -/
def spawnActionFDup2 : UInt32 := 1

section Spawn

variable (L : LinearMemory) (mem : Memory)

/-- A field of an action. -/
def spawnAction (appPointer : UInt32) (field : SpawnActionField) : UInt32 :=
  UInt32.ofNat (load mem (appPointer.toNat + field.offset) 4)

/-- The action is not null and lies inside the linear memory, with the fields of its kind. -/
def validAction (appPointer : UInt32) : Bool :=
  match L.addrAppToNative appPointer with
  | none => false
  | some p =>
      L.validateNativeAddr p (UInt32.ofNat spawnActionBaseSize) &&
        (spawnAction mem appPointer .cmd != spawnActionFDup2 ||
          L.validateNativeAddr p (UInt32.ofNat spawnActionFDup2Size))

/-- The loop over the list of actions. There is no result when it has not come to the end of the
list. The guest can make a list that has none. -/
def spawnActions : ℕ → UInt32 → Option (Except UInt16 (List UInt32))
  | 0, _ => none
  | fuel + 1, appPointer =>
      if appPointer = 0 then some (.ok [])
      else if validAction L mem appPointer then
        (spawnActions fuel (spawnAction mem appPointer .appNextActionPointer)).map fun rest =>
          rest.map (appPointer :: ·)
      else some (.error uvwasiEFAULT)

/-- The `dest_fd` of an action, and what is found for its `src_fd`. -/
def redirection (answers : ProcessSpawnAnswers) (appPointer : UInt32) : ℤ × Except UInt16 ℕ :=
  ((spawnAction mem appPointer .destFD).toBitVec.toInt,
    answers.getHostFDByAppFD (spawnAction mem appPointer .srcFD).toBitVec.toInt)

/-- The descriptors for the standard streams of the new process. -/
def spawnStreams (answers : ProcessSpawnAnswers) (actions : List UInt32) :
    Except UInt16 Dup2FDArr :=
  dup2FDArr (fun fd => (answers.getHostFDByAppFD fd.val).toOption)
    ((actions.filter fun a => spawnAction mem a .cmd == spawnActionFDup2).map
      (redirection mem answers))

/-! ## The call -/

/-- The string that the request names. -/
def requestedName (pReq : ℕ) : List UInt8 := appStr L mem (spawnReq pReq mem .appCmdNamePointer)

/-- The request lies inside the linear memory, and its name is a string there. -/
def NameReadable (pReq : ℕ) : Prop :=
  L.validateNativeAddr (L.native pReq) (UInt32.ofNat spawnReqSize) = true ∧
    L.validateAppStrAddr mem (spawnReq pReq mem .appCmdNamePointer) = true

/-- The strings of the guest that the request gives as arguments. -/
def guestArgs (pReq : ℕ) : List (List UInt8) :=
  (List.range (spawnReq pReq mem .argc).toNat).map fun i =>
    appStr L mem (appArgv mem (spawnReq pReq mem .appArgvPointer) i)

/-- The C string at a host address of the linear memory. -/
def hostStr (p : ℕ) : List UInt8 := appStr L mem (UInt32.ofNat (p - L.memoryData))

/-- What is executed, with `hostArgv` and the null pointer after it. -/
def hostExec (hostArgv : HostArgv) (fileActions : List FileAction) : HostExec where
  searchPath := decide (preferredSeparator ∉ hostArgv.hostCmd)
  program := hostArgv.hostCmd
  fileActions := fileActions
  argv := some hostArgv.hostCmd :: hostArgv.args.map (fun p => some (hostStr L mem p)) ++ [none]

/-- `ProcessSpawn` from the file actions on. -/
def startHostCmd (answers : ProcessSpawnAnswers) (hostArgv : HostArgv) (arr : Dup2FDArr) :
    SpawnOutcome :=
  if answers.fileActionsInit ≠ 0 then .failed answers.fileActionsInit
  else
    match (List.finRange 3).find? fun fd => (arr fd).isSome && answers.adddup2 fd != 0 with
    | some fd => .failed (answers.adddup2 fd)
    | none =>
        match answers.pipe with
        | .error err => .failed err
        | .ok (readEnd, _) =>
            { exec := some (hostExec L mem hostArgv (hostFA arr readEnd answers.addclose))
              ret := some (answers.posixSpawn.mapError fun err =>
                UInt16.ofNat (convertErrnoToWasiErrno err)) }

/-- `ProcessSpawn`. When the array of arguments starts at the end of the memory it is a null
pointer, and reading it ends the host process. -/
def processSpawn (whitelist : HostCmdWhitelist) (answers : ProcessSpawnAnswers) (fuel pReq : ℕ) :
    SpawnOutcome :=
  match (spawnArgv L mem whitelist pReq).result with
  | .error err => .refused err
  | .ok hostArgv =>
      if hostArgv.args ≠ [] ∧
          L.addrAppToNative (spawnReq pReq mem .appArgvPointer) = none then .stuck
      else
        match spawnActions L mem fuel (spawnReq pReq mem .appFaPointer) with
        | none => .stuck
        | some (.error err) => .refused err
        | some (.ok actions) =>
            match spawnStreams mem answers actions with
            | .error err => .refused err
            | .ok arr => startHostCmd L mem answers hostArgv arr

/-! ## What is executed -/

variable {L mem} {whitelist : HostCmdWhitelist} {answers : ProcessSpawnAnswers} {fuel pReq : ℕ}

/-- The pointers that the loop has accepted are translated in their order. -/
theorem argvLoop_ok {argvPointer : UInt32} {i n : ℕ} {args : List ℕ}
    (done : (argvLoop L mem argvPointer i n).result = .ok args) :
    args.map (hostStr L mem) =
      (List.range' i n).map fun k => appStr L mem (appArgv mem argvPointer k) := by
  induction n generalizing i args with
  | zero =>
      cases done
      rfl
  | succ n ih =>
      rw [argvLoop] at done
      split at done
      next accepted =>
        obtain ⟨len, bound, _⟩ := (L.validateAppStrAddr_iff _ _).mp accepted
        have offset : (appArgv mem argvPointer i).toNat < L.memoryDataSize := by omega
        dsimp only at done
        cases rest : (argvLoop L mem argvPointer (i + 1) n).result with
        | error err =>
            rw [rest] at done
            cases done
        | ok others =>
            rw [rest, L.addrAppToNative_eq, if_pos offset] at done
            cases done
            rw [List.map_cons, ih rest, List.range'_succ, List.map_cons]
            congr 1
            rw [hostStr, Option.getD_some, Nat.add_sub_cancel_left, UInt32.ofNat_toNat]
      next => cases done

/-- What `ProcessSpawn` has found when it comes to the actions. -/
theorem spawnArgv_ok {hostArgv : HostArgv}
    (done : (spawnArgv L mem whitelist pReq).result = .ok hostArgv) :
    whitelist (requestedName L mem pReq) = some hostArgv.hostCmd ∧
      hostArgv.args.map (hostStr L mem) = guestArgs L mem pReq := by
  rw [spawnArgv] at done
  split at done
  next => cases done
  next =>
    dsimp only at done
    split at done
    next => cases done
    next =>
      split at done
      next => cases done
      next hostCmd found =>
        split at done
        next =>
          dsimp only at done
          cases loop : (argvLoop L mem (spawnReq pReq mem .appArgvPointer) 0
              (spawnReq pReq mem .argc).toNat).result with
          | error err =>
              rw [loop] at done
              cases done
          | ok args =>
              rw [loop] at done
              cases done
              refine ⟨found, ?_⟩
              rw [guestArgs, List.range_eq_range']
              exact argvLoop_ok loop
        next => cases done

/-- A name that is not in the whitelist is refused. -/
theorem spawnArgv_unknown (readable : NameReadable L mem pReq)
    (unknown : whitelist (requestedName L mem pReq) = none) :
    (spawnArgv L mem whitelist pReq).result = .error uvwasiENOENT := by
  rw [requestedName] at unknown
  simp [spawnArgv, readable.1, readable.2, unknown]

theorem startHostCmd_exec {hostArgv : HostArgv} {arr : Dup2FDArr} {e : HostExec}
    (executed : (startHostCmd L mem answers hostArgv arr).exec = some e) :
    ∃ fileActions, e = hostExec L mem hostArgv fileActions := by
  rw [startHostCmd] at executed
  split at executed
  next => cases executed
  next =>
    split at executed
    next => cases executed
    next =>
      split at executed
      next => cases executed
      next =>
        cases executed
        exact ⟨_, rfl⟩

/-- What is executed comes from the command and the arguments. -/
theorem processSpawn_exec {e : HostExec}
    (executed : (processSpawn L mem whitelist answers fuel pReq).exec = some e) :
    ∃ hostArgv fileActions, (spawnArgv L mem whitelist pReq).result = .ok hostArgv ∧
      e = hostExec L mem hostArgv fileActions := by
  rw [processSpawn] at executed
  split at executed
  next => cases executed
  next hostArgv done =>
    split at executed
    next => cases executed
    next =>
      split at executed
      next => cases executed
      next => cases executed
      next =>
        split at executed
        next => cases executed
        next =>
          obtain ⟨fileActions, same⟩ := startHostCmd_exec executed
          exact ⟨hostArgv, fileActions, done, same⟩

end Spawn

/-- The program that is executed is the latest command of exactly the requested name, with itself
and the strings of the guest as arguments. A name without a command is refused. -/
structure ExecutesAssociated (cmds : List (String × String)) (L : LinearMemory) (mem : Memory)
    (pReq : ℕ) (outcome : SpawnOutcome) : Prop where
  executed : ∀ e, outcome.exec = some e →
    ∃ value, Latest cmds (cString (requestedName L mem pReq)) value ∧
      e.program = cBytes value ∧
      e.argv = some (cBytes value) :: (guestArgs L mem pReq).map some ++ [none] ∧
      (e.searchPath = true → '/' ∉ value.toList)
  unknown : NameReadable L mem pReq →
    (∀ p ∈ cmds, p.1 ≠ cString (requestedName L mem pReq)) → outcome = .refused uvwasiENOENT

theorem separator_of_mem {s : String} (member : '/' ∈ s.toList) : preferredSeparator ∈ cBytes s :=
  List.mem_map.mpr ⟨'/', member, rfl⟩

/-- What a whitelist made of associations lets a spawn execute. -/
theorem executesAssociated {config : WamrExtInstanceConfig} {cmds : List (String × String)}
    (whitelist : config.hostCmdWhitelist = insertAll ∅ cmds) (L : LinearMemory) (mem : Memory)
    (answers : ProcessSpawnAnswers) (fuel pReq : ℕ) :
    ExecutesAssociated cmds L mem pReq
      (processSpawn L mem (hostCmdOf config) answers fuel pReq) := by
  constructor
  · intro e executed
    obtain ⟨hostArgv, fileActions, done, rfl⟩ := processSpawn_exec executed
    obtain ⟨found, args⟩ := spawnArgv_ok done
    rw [hostCmdOf, whitelist] at found
    obtain ⟨value, known, command⟩ := Option.map_eq_some_iff.mp found
    refine ⟨value, lookup_insertAll_empty.mp known, command.symm, ?_, ?_⟩
    · rw [hostExec, ← args, command, List.map_map]
      rfl
    · intro searched separator
      rw [hostExec, decide_eq_true_iff, ← command] at searched
      exact searched (separator_of_mem separator)
  · intro readable never
    have unknown : hostCmdOf config (requestedName L mem pReq) = none := by
      rw [hostCmdOf, whitelist, lookup_insertAll_empty_eq_none.mpr never, Option.map_none]
    rw [processSpawn, spawnArgv_unknown readable unknown]

/-- **Host commands.** Whatever options a module and its instances take, a name in a whitelist has
no separator and a refused option changes nothing. A spawn executes the command that was associated
with the name last, by the constructor, by the module before the instance was created, or by the
instance itself. -/
theorem host_commands_whitelisted (tempDirPath : String) :
    (∀ before after i s,
      run configStep (.loaded tempDirPath) (before ++ .create i :: after) = some s →
        ∃ inst, s.instances i = some inst ∧ ∀ L mem answers fuel pReq,
          ExecutesAssociated (builtinHostCmds ++ moduleHostCmds before ++ ownHostCmds i after)
            L mem pReq (processSpawn L mem (hostCmdOf inst.config) answers fuel pReq)) ∧
      (∀ as s, run configStep (.loaded tempDirPath) as = some s → AllPlain s) ∧
      ∀ (s : ModuleConfigs) (opt : WamrExtInstanceOpt),
        ((s.moduleSetInstDefaultOpt opt).1 ≠ 0 → (s.moduleSetInstDefaultOpt opt).2 = s) ∧
          ∀ i, (s.instanceSetOpt i opt).1 ≠ 0 → (s.instanceSetOpt i opt).2 = s := by
  refine ⟨fun before after i s reached => ?_, fun as s => plain_names, refused_unchanged⟩
  obtain ⟨inst, here, whitelist⟩ := whitelist_eq reached
  exact ⟨inst, here, executesAssociated whitelist⟩

/-- A memory of 64 bytes. -/
def smallMemory : LinearMemory := .mapped 0x20000 64 (by decide) (by decide) (by decide)

/-- A request at offset 0 for `ls` with one argument, `-l`. -/
def listRequest : Memory :=
  store (store (store (store (store (store (fun _ => 0) 0 4 0x20) 4 4 0x30) 8 4 1) 0x30 4 0x28)
    0x20 2 0x736c) 0x28 2 0x6c2d

/-- A host that grants everything. -/
def grantingHost : ProcessSpawnAnswers :=
  ⟨fun fd => .ok fd.toNat, 0, fun _ => 0, .ok (8, 9), true, .ok 100⟩

/-- The module associates `ls` once before the creation and once after it. -/
def listRebound : List ConfigAction × List ConfigAction :=
  ([.moduleSetOpt (.addHostCommand ⟨"ls", "ls"⟩)],
    [.instanceSetOpt 0 (.addHostCommand ⟨"../ls", "rm"⟩),
      .instanceSetOpt 0 (.addHostCommand ⟨"ls", "/bin/ls"⟩),
      .moduleSetOpt (.addHostCommand ⟨"ls", "rm"⟩)])

/-- The instance executes its own command, outside of the search path. -/
theorem host_commands_rebound :
    ∃ s inst e, run configStep (.loaded "/tmp") (listRebound.1 ++ .create 0 :: listRebound.2) =
        some s ∧ s.instances 0 = some inst ∧
      (processSpawn smallMemory listRequest (hostCmdOf inst.config) grantingHost 1 0).exec =
        some e ∧
      e.program = cBytes "/bin/ls" ∧ e.argv = [some (cBytes "/bin/ls"), some (cBytes "-l"), none] ∧
      AllPlain s := by
  obtain ⟨executes, plain, _⟩ := host_commands_whitelisted "/tmp"
  have reached : run configStep (.loaded "/tmp") (listRebound.1 ++ .create 0 :: listRebound.2) =
      some _ := rfl
  obtain ⟨inst, here, executed⟩ := executes listRebound.1 listRebound.2 0 _ reached
  cases exec :
      (processSpawn smallMemory listRequest (hostCmdOf inst.config) grantingHost 1 0).exec with
  | none =>
      cases here
      exact absurd exec (by decide +kernel)
  | some e =>
      obtain ⟨value, latest, program, argv, _⟩ :=
        (executed smallMemory listRequest grantingHost 1 0).executed e exec
      have own : (insertAll ∅ (builtinHostCmds ++ moduleHostCmds listRebound.1 ++
          ownHostCmds 0 listRebound.2)).lookup
            (cString (requestedName smallMemory listRequest 0)) = some "/bin/ls" := by
        decide +kernel
      have args : guestArgs smallMemory listRequest 0 = [cBytes "-l"] := by decide +kernel
      obtain rfl : value = "/bin/ls" :=
        Option.some.inj ((lookup_insertAll_empty.mpr latest).symm.trans own)
      rw [args] at argv
      exact ⟨_, inst, e, reached, here, exec, program, argv, plain _ _ reached⟩

end Process
end WamrExt
