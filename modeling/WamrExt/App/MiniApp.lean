import WamrExt.App.CommandLine
import WamrExt.Instance.HostCommands

/-!
# What the app makes of its command line

The app loads a module, sets options of it, creates an instance with the words of the guest, starts
it and executes its main function. Each value of `--dir` and `--cmd` is a pair around its first
colon, and the app exits at the first one that is not.

The instance has the configuration that the command line spells, and the app returns what the main
function of the guest returns (`miniAppMain_returns`). Where two pairs are about one mapped
directory or one command, the later one counts, and any of them counts before the defaults. The
app does not look at the answers of the options: a command with a separator of paths and a memory
below one page are left out silently.
-/

set_option autoImplicit false

namespace WamrExt
namespace App

open Instance Transition LatestValue

/-! ## Keys and values -/

/-- `SplitKeyValue` -/
def splitKeyValue (srcStr : String) : Except Stop WamrExtKeyValueSS :=
  match srcStr.toList.idxOf? ':' with
  | none => .error (.exit 1)
  | some sepPos =>
      let key := srcStr.toList.take sepPos
      let value := srcStr.toList.drop (sepPos + 1)
      if key.isEmpty || value.isEmpty then .error (.exit 1)
      else .ok ⟨String.ofList key, String.ofList value⟩

/-- The first position of an element splits a list around it. -/
theorem idxOf?_append_cons {α : Type} [DecidableEq α] {a : α} {key value : List α}
    (first : a ∉ key) : (key ++ a :: value).idxOf? a = some key.length := by
  induction key with
  | nil => simp [List.idxOf?_cons]
  | cons c key ih =>
      have other : (c == a) = false := by
        rw [beq_eq_false_iff_ne]
        exact fun same => first (same ▸ List.mem_cons_self)
      rw [List.cons_append, List.idxOf?_cons, other,
        ih fun later => first (List.mem_cons_of_mem c later)]
      rfl

/-- What is made of a text around its first colon. -/
theorem splitKeyValue_ofList {key value : List Char} (first : ':' ∉ key) :
    splitKeyValue (String.ofList (key ++ ':' :: value)) =
      if key.isEmpty || value.isEmpty then .error (.exit 1)
      else .ok ⟨String.ofList key, String.ofList value⟩ := by
  rw [splitKeyValue, String.toList_ofList, idxOf?_append_cons first]
  have after : (key ++ ':' :: value).drop (key.length + 1) = value := by
    rw [← List.drop_drop, List.drop_left]
    rfl
  dsimp only
  rw [List.take_left, after]

/-- **A value is split exactly when it has a key and a value** with a colon between them. Only the
key has no colon. -/
theorem splitKeyValue_eq_ok {s : String} {kv : WamrExtKeyValueSS} :
    splitKeyValue s = .ok kv ↔
      s = kv.k ++ ":" ++ kv.v ∧ ':' ∉ kv.k.toList ∧ kv.k ≠ "" ∧ kv.v ≠ "" := by
  obtain ⟨k, v⟩ := kv
  have around : k ++ ":" ++ v = String.ofList (k.toList ++ ':' :: v.toList) := by
    apply String.toList_injective
    simp
  constructor
  · intro split
    have colon : ':' ∈ s.toList := by
      by_contra none
      rw [splitKeyValue, List.idxOf?_eq_none_iff.mpr none] at split
      cases split
    obtain ⟨key, value, same, first⟩ := List.eq_append_cons_of_mem colon
    have text : s = String.ofList (key ++ ':' :: value) := by
      rw [← same, String.ofList_toList]
    rw [text, splitKeyValue_ofList first] at split
    split at split
    next => cases split
    next nonempty =>
      cases split
      simp only [Bool.or_eq_true, List.isEmpty_iff, not_or] at nonempty
      refine ⟨?_, by rwa [String.toList_ofList], ?_, ?_⟩
      · rw [around, String.toList_ofList, String.toList_ofList, text]
      · exact fun empty => nonempty.1 (by simpa using empty)
      · exact fun empty => nonempty.2 (by simpa using empty)
  · rintro ⟨rfl, first, key, value⟩
    rw [around, splitKeyValue_ofList first, if_neg, String.ofList_toList, String.ofList_toList]
    simpa using ⟨key, value⟩

/-! ## The instance of the app -/

/-- The loop of `main` over the values of `--dir` or `--cmd`. -/
def mapOpts (opt : WamrExtKeyValueSS → WamrExtInstanceOpt) (maps : List String)
    (s : ModuleConfigs) : Except Stop ModuleConfigs :=
  maps.foldlM (fun s strMap => do
    let kvss ← splitKeyValue strMap
    pure (s.moduleSetInstDefaultOpt (opt kvss)).2) s

/-- The exception callback of the app, which prints the exception and exits. -/
def appExceptionCB : WamrExtInstanceExceptionCB := ⟨some 0, 0⟩

/-- What `main` does from the loaded module up to the start of the instance. -/
def configure (tempDirPath : String) (args : MiniAppArgs) : Except Stop ModuleConfigs := do
  let s := ModuleConfigs.loaded tempDirPath
  let s :=
    if 0 < args.maxMemory then
      (s.moduleSetInstDefaultOpt (.maxMemory (UInt32.ofNat args.maxMemory.toNat))).2
    else s
  let s ← mapOpts .addHostDir args.dirs s
  let s ← mapOpts .addHostCommand args.cmds s
  let s := (s.moduleSetInstDefaultOpt (.exceptionCallback appExceptionCB)).2
  let s := s.setInstance 0 (wamrExtInstanceCreate 0 s.instDefaultConf)
  pure (s.instanceSetOpt 0 (.arg args.progArgs)).2

/-- The answers that the app gets: the result of loading the file, and the answers of its
instance. -/
structure AppAnswers where
  load : String → ℤ
  start : StartAnswers
  exec : ExecAnswers

/-- The end of `main`: the instance afterwards, and the returned value. -/
def runInstance (inst : WamrExtInstance) (answers : AppAnswers) : WamrExtInstance × ℤ :=
  let started := wamrExtInstanceStart inst answers.start
  if started.1 ≠ 0 then (started.2, started.1)
  else
    let executed := wamrExtInstanceExecMainFunc started.2 answers.exec
    if executed.result ≠ 0 then (executed.inst, executed.result)
    else ((wamrExtInstanceDestroy executed.inst).inst, executed.retValue.getD 233)

/-- `main`: the instance, if there is one at the end, and the returned value. -/
def miniAppMain (tempDirPath : String) (answers : AppAnswers) (arguments : List String) :
    Except Stop (Option WamrExtInstance × ℤ) := do
  let args ← readCommandLine arguments
  let err := answers.load (args.progArgs.headD "")
  if err ≠ 0 then pure (none, err)
  else
    let s ← configure tempDirPath args
    match s.instances 0 with
    | none => pure (none, hostEINVAL)
    | some inst =>
        let ended := runInstance inst answers
        pure (some ended.1, ended.2)

/-! ## What is set up -/

/-- The values of an option are these pairs. -/
def SplitInto (maps : List String) (kvs : List WamrExtKeyValueSS) : Prop :=
  List.Forall₂ (fun strMap kvss => splitKeyValue strMap = .ok kvss) maps kvs

/-- The mapped directories of the constructor of a configuration. -/
def builtinDirs (tempDirPath : String) : List (String × String) :=
  [("/etc", "/etc"), ("/dev", "/dev")] ++
    if tempDirPath.isEmpty then [] else [("/tmp", tempDirPath)]

/-- The configuration that a command line and its pairs spell. The key of a directory is the one
of the host. -/
structure Configured (tempDirPath : String) (args : MiniAppArgs)
    (dirs cmds : List WamrExtKeyValueSS) (config : WamrExtInstanceConfig) : Prop where
  argv : config.args = args.progArgs
  dirs : config.preOpenDirs =
    insertAll ∅ (builtinDirs tempDirPath ++ dirs.map fun kv => (kv.v, kv.k))
  cmds : config.hostCmdWhitelist =
    insertAll ∅ (builtinHostCmds ++ cmds.flatMap fun kv => associates (.addHostCommand kv))
  envVars : config.envVars = (WamrExtInstanceConfig.new tempDirPath).envVars
  maxMemory : (config.maxMemory.toNat : ℤ) =
    if args.maxMemory < 65536 then 4194304 else args.maxMemory / 65536 * 65536
  exceptionCB : config.exceptionCB = appExceptionCB

section SetUp

variable {s s' : ModuleConfigs} {maps : List String} {opt : WamrExtKeyValueSS → WamrExtInstanceOpt}
  {tempDirPath : String} {args : MiniAppArgs} {config : WamrExtInstanceConfig}

/-- The defaults after options. -/
def setOpts (opts : List WamrExtInstanceOpt) (config : WamrExtInstanceConfig) :
    WamrExtInstanceConfig :=
  opts.foldl (fun config opt => (wamrExtSetInstanceOpt config opt).2) config

/-- The loop goes through exactly when all values are pairs, and each pair is an option then. -/
theorem mapOpts_eq_ok : mapOpts opt maps s = .ok s' ↔
    ∃ kvs, SplitInto maps kvs ∧
      s' = { s with instDefaultConf := setOpts (kvs.map opt) s.instDefaultConf } := by
  induction maps generalizing s with
  | nil =>
      rw [mapOpts, List.foldlM_nil]
      constructor
      · rintro ⟨⟩
        exact ⟨[], .nil, rfl⟩
      · rintro ⟨kvs, split, rfl⟩
        cases split
        rfl
  | cons strMap maps ih =>
      have first : mapOpts opt (strMap :: maps) s = (splitKeyValue strMap).bind fun kvss =>
          mapOpts opt maps (s.moduleSetInstDefaultOpt (opt kvss)).2 := by
        rw [mapOpts, List.foldlM_cons]
        cases splitKeyValue strMap <;> rfl
      rw [first]
      cases same : splitKeyValue strMap with
      | error stop =>
          refine ⟨nofun, ?_⟩
          rintro ⟨kvs, split, _⟩
          cases split with
          | cons head _ =>
              rw [same] at head
              cases head
      | ok kvss =>
          refine (ih (s := (s.moduleSetInstDefaultOpt (opt kvss)).2)).trans ?_
          constructor
          · rintro ⟨kvs, split, rfl⟩
            exact ⟨kvss :: kvs, .cons same split, rfl⟩
          · rintro ⟨kvs, split, rfl⟩
            cases split with
            | cons head split =>
                rw [same] at head
                cases head
                exact ⟨_, split, rfl⟩

theorem setOpts_dirs (dirs : List WamrExtKeyValueSS) :
    setOpts (dirs.map .addHostDir) config =
      { config with
        preOpenDirs := insertAll config.preOpenDirs (dirs.map fun kv => (kv.v, kv.k)) } := by
  induction dirs generalizing config with
  | nil => rfl
  | cons kv dirs ih => exact ih

theorem setOpts_cmds (cmds : List WamrExtKeyValueSS) :
    setOpts (cmds.map .addHostCommand) config =
      { config with
        hostCmdWhitelist := insertAll config.hostCmdWhitelist
          (cmds.flatMap fun kv => associates (.addHostCommand kv)) } := by
  induction cmds generalizing config with
  | nil => rfl
  | cons kv cmds ih =>
      have first : (wamrExtSetInstanceOpt config (.addHostCommand kv)).2 =
          { config with
            hostCmdWhitelist := insertAll config.hostCmdWhitelist
              (associates (.addHostCommand kv)) } := by
        rw [← whitelist_setOpt, wamrExtSetInstanceOpt]
        split <;> rfl
      rw [List.map_cons, setOpts, List.foldl_cons, first]
      refine ih.trans ?_
      rw [List.flatMap_cons, insertAll_append]

/-- The defaults with the memory of the command line. -/
def withMaxMemory (maxMemory : ℤ) (config : WamrExtInstanceConfig) : WamrExtInstanceConfig :=
  if 0 < maxMemory then
    (wamrExtSetInstanceOpt config (.maxMemory (UInt32.ofNat maxMemory.toNat))).2
  else config

/-- The defaults of the module when the instance is created. -/
def appDefaults (tempDirPath : String) (args : MiniAppArgs) (dirs cmds : List WamrExtKeyValueSS) :
    WamrExtInstanceConfig :=
  { setOpts (cmds.map .addHostCommand) (setOpts (dirs.map .addHostDir)
      (withMaxMemory args.maxMemory (.new tempDirPath))) with exceptionCB := appExceptionCB }

/-- The instance of the app, created with these pairs. -/
def appInstance (tempDirPath : String) (args : MiniAppArgs) (dirs cmds : List WamrExtKeyValueSS) :
    WamrExtInstance :=
  wamrExtInstanceCreate 0
    { appDefaults tempDirPath args dirs cmds with args := args.progArgs }

/-- A computation after another one gives a value. -/
theorem bind_eq_ok {α β : Type} {first : Except Stop α} {next : α → Except Stop β} {b : β} :
    first.bind next = .ok b ↔ ∃ a, first = .ok a ∧ next a = .ok b := by
  cases first with
  | error stop => exact ⟨nofun, nofun⟩
  | ok a => exact ⟨fun done => ⟨a, rfl, done⟩, fun ⟨_, same, done⟩ => Except.ok.inj same ▸ done⟩

/-- The set-up goes through exactly when all values are pairs. -/
theorem configure_eq_ok : configure tempDirPath args = .ok s ↔
    ∃ dirs cmds, SplitInto args.dirs dirs ∧ SplitInto args.cmds cmds ∧
      s = ModuleConfigs.setInstance ⟨appDefaults tempDirPath args dirs cmds, fun _ => none⟩ 0
        (appInstance tempDirPath args dirs cmds) := by
  let start : ModuleConfigs := ⟨withMaxMemory args.maxMemory (.new tempDirPath), fun _ => none⟩
  let finish (s : ModuleConfigs) : ModuleConfigs :=
    let s := (s.moduleSetInstDefaultOpt (.exceptionCallback appExceptionCB)).2
    let s := s.setInstance 0 (wamrExtInstanceCreate 0 s.instDefaultConf)
    (s.instanceSetOpt 0 (.arg args.progArgs)).2
  have loops : configure tempDirPath args = (mapOpts .addHostDir args.dirs start).bind fun s =>
      (mapOpts .addHostCommand args.cmds s).bind fun s => .ok (finish s) := by
    simp only [start, withMaxMemory]
    rw [configure]
    split <;> rfl
  have finished : ∀ dirs cmds, finish
      { start with
        instDefaultConf := setOpts (cmds.map .addHostCommand) (setOpts (dirs.map .addHostDir)
          (withMaxMemory args.maxMemory (.new tempDirPath))) } =
      ModuleConfigs.setInstance ⟨appDefaults tempDirPath args dirs cmds, fun _ => none⟩ 0
        (appInstance tempDirPath args dirs cmds) := by
    intro dirs cmds
    simp only [finish, start, ModuleConfigs.instanceSetOpt, ModuleConfigs.setInstance,
      Function.update_idem]
    rfl
  rw [loops, bind_eq_ok]
  constructor
  · rintro ⟨mid, mapped, later⟩
    obtain ⟨dirs, dirsSplit, rfl⟩ := mapOpts_eq_ok.mp mapped
    obtain ⟨last, mapped, done⟩ := bind_eq_ok.mp later
    obtain ⟨cmds, cmdsSplit, rfl⟩ := mapOpts_eq_ok.mp mapped
    exact ⟨dirs, cmds, dirsSplit, cmdsSplit, (Except.ok.inj done).symm.trans (finished dirs cmds)⟩
  · rintro ⟨dirs, cmds, dirsSplit, cmdsSplit, rfl⟩
    refine ⟨_, mapOpts_eq_ok.mpr ⟨dirs, dirsSplit, rfl⟩, bind_eq_ok.mpr
      ⟨_, mapOpts_eq_ok.mpr ⟨cmds, cmdsSplit, rfl⟩, congrArg Except.ok (finished dirs cmds)⟩⟩

/-! ## The configuration -/

theorem toNat_roundToPages (size : UInt32) :
    (roundToPages size).toNat = size.toNat / 65536 * 65536 := by
  have bound := size.toNat_lt
  have page : wasmPageSize.toNat = 65536 := by decide
  rw [roundToPages, UInt32.toNat_mul, UInt32.toNat_div, page]
  omega

/-- The memory of an option is rounded down to pages, and is left out if nothing remains. -/
theorem maxMemory_withMaxMemory {maxMemory : ℤ} (fits : maxMemory < 2 ^ 31) :
    ((withMaxMemory maxMemory config).maxMemory.toNat : ℤ) =
      if maxMemory < 65536 then (config.maxMemory.toNat : ℤ) else maxMemory / 65536 * 65536 := by
  rw [withMaxMemory]
  split
  next positive =>
    have value : (UInt32.ofNat maxMemory.toNat).toNat = maxMemory.toNat :=
      UInt32.toNat_ofNat_of_lt (by change _ < 4294967296; omega)
    have rounded := toNat_roundToPages (UInt32.ofNat maxMemory.toNat)
    rw [value] at rounded
    rw [wamrExtSetInstanceOpt]
    split
    next zero =>
      rw [zero] at rounded
      rw [if_pos (by change 0 = _ at rounded; omega)]
    next nonzero =>
      have some : (roundToPages (UInt32.ofNat maxMemory.toNat)).toNat ≠ 0 :=
        fun zero => nonzero (UInt32.toNat_inj.mp zero)
      dsimp only
      rw [if_neg (by omega), rounded]
      omega
  next negative => rw [if_pos (by omega)]

theorem preOpenDirs_new (tempDirPath : String) :
    (WamrExtInstanceConfig.new tempDirPath).preOpenDirs =
      insertAll ∅ (builtinDirs tempDirPath) := by
  rw [WamrExtInstanceConfig.new, builtinDirs]
  cases tempDirPath.isEmpty <;> rfl

/-- The instance of the app has the configuration that is spelled. -/
theorem configured_appInstance (fits : args.maxMemory < 2 ^ 31)
    (dirs cmds : List WamrExtKeyValueSS) :
    Configured tempDirPath args dirs cmds (appInstance tempDirPath args dirs cmds).config := by
  have others : ∀ maxMemory (config : WamrExtInstanceConfig),
      (withMaxMemory maxMemory config).preOpenDirs = config.preOpenDirs ∧
        (withMaxMemory maxMemory config).hostCmdWhitelist = config.hostCmdWhitelist ∧
          (withMaxMemory maxMemory config).envVars = config.envVars := by
    intro maxMemory config
    rw [withMaxMemory]
    split
    · rw [wamrExtSetInstanceOpt]
      split <;> exact ⟨rfl, rfl, rfl⟩
    · exact ⟨rfl, rfl, rfl⟩
  obtain ⟨preOpenDirs, whitelist, envVars⟩ := others args.maxMemory (.new tempDirPath)
  rw [appInstance, appDefaults, setOpts_dirs, setOpts_cmds]
  constructor
  · rfl
  · rw [insertAll_append, ← preOpenDirs_new, ← preOpenDirs]
    rfl
  · rw [insertAll_append, ← whitelist_new tempDirPath, ← whitelist]
    rfl
  · exact envVars
  · exact maxMemory_withMaxMemory fits
  · rfl

/-- A command line and its pairs spell one configuration. -/
theorem Configured.unique {dirs cmds : List WamrExtKeyValueSS} {config' : WamrExtInstanceConfig}
    (one : Configured tempDirPath args dirs cmds config)
    (other : Configured tempDirPath args dirs cmds config') : config = config' := by
  have maxMemory : config.maxMemory = config'.maxMemory :=
    UInt32.toNat_inj.mp (by exact_mod_cast one.maxMemory.trans other.maxMemory.symm)
  have args := one.argv.trans other.argv.symm
  have dirs := one.dirs.trans other.dirs.symm
  have cmds := one.cmds.trans other.cmds.symm
  have envVars := one.envVars.trans other.envVars.symm
  have exceptionCB := one.exceptionCB.trans other.exceptionCB.symm
  cases config
  cases config'
  simp_all

end SetUp

/-! ## Runs of the app -/

section Main

variable {tempDirPath program : String} {words : List String} {answers : AppAnswers} {value : ℤ}
  {inst : WamrExtInstance}

/-- A start that succeeds starts the instance, and no start destroys it. -/
theorem start_state (fresh : inst.state = .new) (answers : StartAnswers) :
    ((wamrExtInstanceStart inst answers).1 = 0 →
        (wamrExtInstanceStart inst answers).2.state = .started) ∧
      (wamrExtInstanceStart inst answers).2.state ≠ .destroyed := by
  have ended : ∀ inst', ((initializeMain inst' answers).1 = 0 →
      (initializeMain inst' answers).2.state = .started) ∧
        (initializeMain inst' answers).2.state ≠ .destroyed := by
    intro inst'
    rcases initializeMain_cases inst' answers with well | failed
    · rw [well]
      exact ⟨fun _ => rfl, nofun⟩
    · rw [failed]
      exact ⟨nofun, nofun⟩
  by_cases noEnv : answers.instantiated = none ∨ answers.execEnvCreated = false
  · refine ⟨fun zero => ?_, fun destroyed => ?_⟩
    · rw [wamrExtInstanceStart_noEnv fresh noEnv] at zero
      cases zero
    · rw [(start_noEnv fresh noEnv).state] at destroyed
      cases destroyed
  · obtain ⟨made, created⟩ := not_or.mp noEnv
    obtain ⟨memory, instantiated⟩ := Option.ne_none_iff_exists'.mp made
    obtain ⟨_, stuck⟩ | ⟨linked, _, goesOn⟩ :=
      wamrExtInstanceStart_env fresh instantiated (Bool.eq_true_of_not_eq_false created)
    · rw [stuck]
      exact ⟨nofun, nofun⟩
    · rw [goesOn]
      exact ended _

/-- The instance of a run is destroyed exactly when its main function has returned. -/
theorem runInstance_destroyed (fresh : inst.state = .new) :
    ((runInstance inst answers).1.state = .destroyed ∧ (runInstance inst answers).2 = value) ↔
      (wamrExtInstanceStart inst answers.start).1 = 0 ∧ answers.exec.mainFound = true ∧
        answers.exec.mainReturns = some value := by
  obtain ⟨starts, undestroyed⟩ := start_state fresh answers.start
  rw [runInstance]
  split
  next failed => exact ⟨fun ended => absurd ended.1 undestroyed, fun ended => absurd ended.1 failed⟩
  next zero =>
    have started := starts (not_not.mp zero)
    rw [wamrExtInstanceExecMainFunc, started]
    cases answers.exec.mainFound with
    | false => simp [started]
    | true =>
        cases answers.exec.mainReturns with
        | none => simp [started]
        | some returned => simp [started, wamrExtInstanceDestroy, not_not.mp zero]

theorem Spells.fits {opts : List AppOption} {args : MiniAppArgs}
    (spells : Spells opts args words) : args.maxMemory < 2 ^ 31 := by
  rcases spells.memory with ⟨_, zero⟩ | ⟨_, _, read⟩
  · rw [zero]
    decide
  · exact parseNumber_lt read

/-- **A run of the app** comes to the end of the main function of the guest exactly when its
command line is spelled, the file is loaded, all values are pairs, the instance with the spelled
configuration starts, and its main function returns. The app returns what that returns. -/
theorem miniAppMain_returns :
    (∃ inst, miniAppMain tempDirPath answers (program :: words) = .ok (some inst, value) ∧
        inst.state = .destroyed) ↔
      ∃ opts args dirs cmds config, Spells opts args words ∧
        answers.load (args.progArgs.headD "") = 0 ∧
        SplitInto args.dirs dirs ∧ SplitInto args.cmds cmds ∧
        Configured tempDirPath args dirs cmds config ∧
        (wamrExtInstanceStart (wamrExtInstanceCreate 0 config) answers.start).1 = 0 ∧
        answers.exec.mainFound = true ∧ answers.exec.mainReturns = some value := by
  have runs : ∀ config, (wamrExtInstanceCreate 0 config).state = .new := fun _ => rfl
  constructor
  · rintro ⟨inst, ran, destroyed⟩
    obtain ⟨args, read, later⟩ := bind_eq_ok.mp ran
    obtain ⟨opts, spells⟩ := readCommandLine_eq_ok.mp read
    dsimp only at later
    split at later
    next => cases later
    next loaded =>
      obtain ⟨s, configured, later⟩ := bind_eq_ok.mp later
      obtain ⟨dirs, cmds, dirsSplit, cmdsSplit, rfl⟩ := configure_eq_ok.mp configured
      rw [ModuleConfigs.setInstance_self] at later
      cases later
      exact ⟨opts, args, dirs, cmds, _, spells, not_not.mp loaded, dirsSplit, cmdsSplit,
        configured_appInstance spells.fits dirs cmds,
        (runInstance_destroyed (runs _)).mp ⟨destroyed, rfl⟩⟩
  · rintro ⟨opts, args, dirs, cmds, config, spells, loaded, dirsSplit, cmdsSplit, configured, ran⟩
    have same := configured.unique (configured_appInstance spells.fits dirs cmds)
    subst same
    obtain ⟨destroyed, returned⟩ := (runInstance_destroyed (runs _)).mpr ran
    refine ⟨_, bind_eq_ok.mpr ⟨args, readCommandLine_eq_ok.mpr ⟨opts, spells⟩, ?_⟩, destroyed⟩
    dsimp only
    rw [if_neg (not_not.mpr loaded)]
    refine bind_eq_ok.mpr ⟨_, configure_eq_ok.mpr ⟨dirs, cmds, dirsSplit, cmdsSplit, rfl⟩, ?_⟩
    rw [ModuleConfigs.setInstance_self, ← returned]
    rfl

end Main

end App
end WamrExt
