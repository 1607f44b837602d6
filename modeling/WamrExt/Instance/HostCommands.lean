import WamrExt.Instance.Lifecycle
import WamrExt.Lib.LatestValue

/-!
# The host commands of an instance

A module has a default configuration, which an instance copies when it is created. From then on
the options of the module do not concern the instance any more. A name is associated with a
command of the host by the constructor of a configuration and by options, on either level.

The whitelist of an instance is what the associations of the defaults before the creation and its
own give, inserted in their order (`whitelist_eq`). So it knows the latest of them for each name.
No name in a whitelist has a separator of paths (`plain_names`).
-/

set_option autoImplicit false

namespace WamrExt
namespace Instance

open Transition LatestValue

/-- The default configuration of a module, and the instances of the module. -/
structure ModuleConfigs where
  instDefaultConf : WamrExtInstanceConfig
  instances : ℕ → Option WamrExtInstance := fun _ => none

/-- The calls that make and change configurations. -/
inductive ConfigAction where
  | moduleSetOpt (opt : WamrExtInstanceOpt)
  | create (i : ℕ)
  | instanceSetOpt (i : ℕ) (opt : WamrExtInstanceOpt)
  deriving DecidableEq

namespace ModuleConfigs

/-- A module that has just been loaded. -/
def loaded (tempDirPath : String) : ModuleConfigs where
  instDefaultConf := .new tempDirPath

variable (s : ModuleConfigs)

def setInstance (i : ℕ) (inst : WamrExtInstance) : ModuleConfigs :=
  { s with instances := Function.update s.instances i (some inst) }

@[simp] theorem setInstance_self (i : ℕ) (inst : WamrExtInstance) :
    (s.setInstance i inst).instances i = some inst := Function.update_self ..

theorem setInstance_of_ne {i j : ℕ} (inst : WamrExtInstance) (ne : j ≠ i) :
    (s.setInstance i inst).instances j = s.instances j := Function.update_of_ne ne ..

/-- `wamr_ext_module_set_inst_default_opt` -/
def moduleSetInstDefaultOpt (opt : WamrExtInstanceOpt) : ℤ × ModuleConfigs :=
  let answer := wamrExtSetInstanceOpt s.instDefaultConf opt
  (answer.1, { s with instDefaultConf := answer.2 })

/-- `wamr_ext_instance_set_opt`. The handle is null when there is no such instance. -/
def instanceSetOpt (i : ℕ) (opt : WamrExtInstanceOpt) : ℤ × ModuleConfigs :=
  match s.instances i with
  | none => (hostEINVAL, s)
  | some inst =>
      let answer := wamrExtInstanceSetOpt inst opt
      (answer.1, s.setInstance i answer.2)

end ModuleConfigs

/-- One call. An instance is created under a new name. -/
def configStep : Step ModuleConfigs ConfigAction := fun s a =>
  match a with
  | .moduleSetOpt opt => some (s.moduleSetInstDefaultOpt opt).2
  | .create i =>
      if (s.instances i).isNone then
        some (s.setInstance i (wamrExtInstanceCreate i s.instDefaultConf))
      else none
  | .instanceSetOpt i opt => some (s.instanceSetOpt i opt).2

/-! ## Associations -/

/-- The associations of the constructor of a configuration. -/
def builtinHostCmds : List (String × String) := [("uname", "uname"), ("ping", "ping")]

/-- A name without a separator of paths. -/
def PlainName (k : String) : Prop := '/' ∉ k.toList ∧ '\\' ∉ k.toList

instance (k : String) : Decidable (PlainName k) := inferInstanceAs (Decidable (_ ∧ _))

/-- The association that an option makes, if it is one and the name is accepted. -/
def associates : WamrExtInstanceOpt → List (String × String)
  | .addHostCommand kv => if PlainName kv.k then [(kv.k, kv.v)] else []
  | _ => []

/-- The association that a call makes in the defaults. -/
def ConfigAction.moduleAssociates : ConfigAction → List (String × String)
  | .moduleSetOpt opt => associates opt
  | _ => []

/-- The association that a call makes in an instance. -/
def ConfigAction.ownAssociates (i : ℕ) : ConfigAction → List (String × String)
  | .instanceSetOpt j opt => if j = i then associates opt else []
  | _ => []

def moduleHostCmds (as : List ConfigAction) : List (String × String) :=
  as.flatMap ConfigAction.moduleAssociates

def ownHostCmds (i : ℕ) (as : List ConfigAction) : List (String × String) :=
  as.flatMap (ConfigAction.ownAssociates i)

section Whitelists

variable {config : WamrExtInstanceConfig} {s s' : ModuleConfigs} {i : ℕ}

theorem associates_plain {opt : WamrExtInstanceOpt} {p : String × String}
    (member : p ∈ associates opt) : PlainName p.1 := by
  cases opt with
  | addHostCommand kv =>
      rw [associates] at member
      split at member
      next plain =>
        rw [List.mem_singleton.mp member]
        exact plain
      next => cases member
  | _ => cases member

/-- An option inserts its association. -/
theorem whitelist_setOpt (opt : WamrExtInstanceOpt) :
    (wamrExtSetInstanceOpt config opt).2.hostCmdWhitelist =
      insertAll config.hostCmdWhitelist (associates opt) := by
  cases opt with
  | addHostCommand kv =>
      rw [wamrExtSetInstanceOpt, associates]
      split
      next refused =>
        rw [if_neg fun plain : PlainName kv.k => refused.elim plain.1 plain.2]
        rfl
      next accepted =>
        have plain : PlainName kv.k := not_or.mp accepted
        rw [if_pos plain]
        rfl
  | maxMemory value =>
      rw [wamrExtSetInstanceOpt]
      split <;> rfl
  | _ => rfl

/-- The constructor inserts its associations. -/
theorem whitelist_new (tempDirPath : String) :
    (WamrExtInstanceConfig.new tempDirPath).hostCmdWhitelist = insertAll ∅ builtinHostCmds := rfl

/-- The associations of the defaults over a run. -/
theorem whitelist_defaults {as : List ConfigAction} (reached : run configStep s as = some s') :
    s'.instDefaultConf.hostCmdWhitelist =
      insertAll s.instDefaultConf.hostCmdWhitelist (moduleHostCmds as) := by
  induction as generalizing s with
  | nil =>
      cases reached
      rfl
  | cons a rest ih =>
      obtain ⟨next, taken, later⟩ := run_cons_eq_some.mp reached
      have log : moduleHostCmds (a :: rest) = a.moduleAssociates ++ moduleHostCmds rest := rfl
      rw [ih later, log, insertAll_append]
      congr 1
      cases a with
      | moduleSetOpt opt =>
          cases taken
          exact whitelist_setOpt opt
      | create j =>
          obtain ⟨_, rfl⟩ := guarded_eq_some.mp taken
          rfl
      | instanceSetOpt j opt =>
          cases taken
          rw [ModuleConfigs.instanceSetOpt]
          split <;> rfl

/-- The associations of an instance over a run. -/
theorem whitelist_instance {as : List ConfigAction} {inst : WamrExtInstance}
    (here : s.instances i = some inst) (reached : run configStep s as = some s') :
    ∃ inst', s'.instances i = some inst' ∧
      inst'.config.hostCmdWhitelist =
        insertAll inst.config.hostCmdWhitelist (ownHostCmds i as) := by
  induction as generalizing s inst with
  | nil =>
      cases reached
      exact ⟨inst, here, rfl⟩
  | cons a rest ih =>
      obtain ⟨next, taken, later⟩ := run_cons_eq_some.mp reached
      have log : ownHostCmds i (a :: rest) = a.ownAssociates i ++ ownHostCmds i rest := rfl
      rw [log, insertAll_append]
      cases a with
      | moduleSetOpt opt =>
          cases taken
          refine ih ?_ later
          exact here
      | create j =>
          obtain ⟨unused, rfl⟩ := guarded_eq_some.mp taken
          refine ih ?_ later
          rw [ModuleConfigs.setInstance_of_ne, here]
          rintro rfl
          rw [here] at unused
          cases unused
      | instanceSetOpt j opt =>
          cases taken
          rw [ConfigAction.ownAssociates]
          by_cases same : j = i
          · subst same
            rw [if_pos rfl, ← whitelist_setOpt]
            have set : (s.instanceSetOpt j opt).2.instances j =
                some (wamrExtInstanceSetOpt inst opt).2 := by
              simp only [ModuleConfigs.instanceSetOpt, here, s.setInstance_self]
            exact ih set later
          · rw [if_neg same]
            refine ih ?_ later
            rw [ModuleConfigs.instanceSetOpt]
            split
            · exact here
            · rw [ModuleConfigs.setInstance_of_ne _ _ (Ne.symm same), here]

/-- **The whitelist of an instance** comes from the constructor, the options of the module before
the creation, and its own options. -/
theorem whitelist_eq {tempDirPath : String} {before after : List ConfigAction}
    (reached : run configStep (.loaded tempDirPath) (before ++ .create i :: after) = some s) :
    ∃ inst, s.instances i = some inst ∧ inst.config.hostCmdWhitelist =
      insertAll ∅ (builtinHostCmds ++ moduleHostCmds before ++ ownHostCmds i after) := by
  rw [run_append] at reached
  obtain ⟨created, first, rest⟩ := Option.bind_eq_some_iff.mp reached
  obtain ⟨next, taken, later⟩ := run_cons_eq_some.mp rest
  obtain ⟨_, rfl⟩ := guarded_eq_some.mp taken
  obtain ⟨inst, here, whitelist⟩ := whitelist_instance (created.setInstance_self i _) later
  refine ⟨inst, here, ?_⟩
  rw [whitelist, insertAll_append, insertAll_append, ← whitelist_new tempDirPath]
  exact congrArg (insertAll · _) (whitelist_defaults first)

end Whitelists

/-! ## Names, and refused options -/

/-- The names in a whitelist have no separator of paths. -/
def PlainNames (config : WamrExtInstanceConfig) : Prop :=
  ∀ k ∈ config.hostCmdWhitelist, PlainName k

/-- The names in all whitelists. -/
structure AllPlain (s : ModuleConfigs) : Prop where
  defaults : PlainNames s.instDefaultConf
  instances : ∀ i inst, s.instances i = some inst → PlainNames inst.config

section Names

variable {s s' : ModuleConfigs}

theorem PlainNames.setOpt {config : WamrExtInstanceConfig} (plain : PlainNames config)
    (opt : WamrExtInstanceOpt) : PlainNames (wamrExtSetInstanceOpt config opt).2 := by
  intro k member
  rw [whitelist_setOpt, mem_insertAll] at member
  obtain old | ⟨p, new, rfl⟩ := member
  · exact plain k old
  · exact associates_plain new

theorem AllPlain.setInstance (plain : AllPlain s) {i : ℕ} {inst : WamrExtInstance}
    (new : PlainNames inst.config) : AllPlain (s.setInstance i inst) := by
  refine ⟨plain.defaults, (Function.forall_update_iff s.instances fun _ found =>
    ∀ other, found = some other → PlainNames other.config).mpr ⟨?_, ?_⟩⟩
  · rintro other ⟨⟩
    exact new
  · intro j _ other known
    exact plain.instances j other known

theorem AllPlain.step {a : ConfigAction} (plain : AllPlain s)
    (taken : configStep s a = some s') : AllPlain s' := by
  cases a with
  | moduleSetOpt opt =>
      cases taken
      exact ⟨plain.defaults.setOpt opt, plain.instances⟩
  | create i =>
      obtain ⟨_, rfl⟩ := guarded_eq_some.mp taken
      exact plain.setInstance plain.defaults
  | instanceSetOpt i opt =>
      cases taken
      rw [ModuleConfigs.instanceSetOpt]
      split
      next => exact plain
      next inst here => exact plain.setInstance ((plain.instances i inst here).setOpt opt)

theorem allPlain_loaded (tempDirPath : String) : AllPlain (.loaded tempDirPath) := by
  refine ⟨fun k member => ?_, fun i inst known => by cases known⟩
  have builtin : ∀ p ∈ builtinHostCmds, PlainName p.1 := by decide
  rw [ModuleConfigs.loaded, whitelist_new, mem_insertAll] at member
  obtain none | ⟨p, new, rfl⟩ := member
  · exact absurd none (AList.notMem_empty k)
  · exact builtin p new

/-- **No name has a separator.** -/
theorem plain_names {tempDirPath : String} {as : List ConfigAction}
    (reached : run configStep (.loaded tempDirPath) as = some s) : AllPlain s :=
  run_invariant_always AllPlain.step (allPlain_loaded tempDirPath) reached

/-- A call that refuses an option changes no configuration, neither the defaults nor an
instance. -/
theorem refused_unchanged (s : ModuleConfigs) (opt : WamrExtInstanceOpt) :
    ((s.moduleSetInstDefaultOpt opt).1 ≠ 0 → (s.moduleSetInstDefaultOpt opt).2 = s) ∧
      ∀ i, (s.instanceSetOpt i opt).1 ≠ 0 → (s.instanceSetOpt i opt).2 = s := by
  constructor
  · intro refused
    have same : (wamrExtSetInstanceOpt s.instDefaultConf opt).2 = s.instDefaultConf :=
      wamrExtSetInstanceOpt_refused refused rfl
    rw [ModuleConfigs.moduleSetInstDefaultOpt, same]
  · intro i refused
    rw [ModuleConfigs.instanceSetOpt] at refused ⊢
    split
    next => rfl
    next inst here =>
      simp only [here] at refused
      have same : (wamrExtSetInstanceOpt inst.config opt).2 = inst.config :=
        wamrExtSetInstanceOpt_refused refused rfl
      rw [wamrExtInstanceSetOpt, same]
      have unchanged : Function.update s.instances i (some inst) = s.instances :=
        Function.update_eq_self_iff.mpr here.symm
      exact congrArg (ModuleConfigs.mk s.instDefaultConf) unchanged

end Names

end Instance
end WamrExt
