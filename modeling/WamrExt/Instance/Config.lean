import Mathlib.Data.List.AList
import Mathlib.Data.UInt

/-!
# The configuration of an instance

A configuration holds what a guest is given: preopened directories, environment variables,
arguments, the host commands it may run, and its memory limit. A module has a default
configuration, an instance starts from a copy of it, and options change either one
(`wamrExtSetInstanceOpt`).

The memory limit is a positive number of whole pages. Options keep it so, since they round
down and refuse zero, and the record carries it.
-/

set_option autoImplicit false

namespace WamrExt
namespace Instance

/-- `WASM_PAGE_SIZE` -/
def wasmPageSize : UInt32 := 64 * 1024

/-- `EINVAL` of the host. -/
def hostEINVAL : ℤ := 22

/-- `WamrExtInstanceExceptionCB`: the callback, if there is one, and its user data. -/
structure WamrExtInstanceExceptionCB where
  func : Option ℕ := none
  userData : ℕ := 0
  deriving DecidableEq, Repr

/-- Maps of strings. No function here depends on their order. -/
abbrev StringMap := AList fun _ : String => String

/-- A memory limit: a positive multiple of the page size. -/
def IsPageMultiple (size : UInt32) : Prop :=
  0 < size.toNat ∧ size.toNat % wasmPageSize.toNat = 0

instance (size : UInt32) : Decidable (IsPageMultiple size) :=
  inferInstanceAs (Decidable (_ ∧ _))

/-- `WamrExtInstanceConfig`. The keys of `preOpenDirs` are the mapped directories. -/
structure WamrExtInstanceConfig where
  preOpenDirs : StringMap
  envVars : StringMap
  hostCmdWhitelist : StringMap
  args : List String
  maxMemory : UInt32
  exceptionCB : WamrExtInstanceExceptionCB
  maxMemory_pages : IsPageMultiple maxMemory

/-- The constructor of `WamrExtInstanceConfig`, with the temporary directory of the host. -/
def WamrExtInstanceConfig.new (tempDirPath : String) : WamrExtInstanceConfig where
  preOpenDirs :=
    let host : StringMap := ((∅ : StringMap).insert "/etc" "/etc").insert "/dev" "/dev"
    if tempDirPath.isEmpty then host else host.insert "/tmp" tempDirPath
  envVars := if tempDirPath.isEmpty then ∅ else (∅ : StringMap).insert "TMPDIR" "/tmp"
  hostCmdWhitelist := ((∅ : StringMap).insert "uname" "uname").insert "ping" "ping"
  args := []
  maxMemory := 4194304 / wasmPageSize * wasmPageSize
  exceptionCB := {}
  maxMemory_pages := by decide

/-- `WamrExtKeyValueSS` -/
structure WamrExtKeyValueSS where
  k : String
  v : String
  deriving DecidableEq, Repr

/-- An option with its value. `noValue` is any option with a null value, and `unknown` one
that no case of the function handles. -/
inductive WamrExtInstanceOpt where
  | noValue
  | addHostDir (kv : WamrExtKeyValueSS)
  | addEnvVar (kv : WamrExtKeyValueSS)
  | arg (argv : List String)
  | exceptionCallback (cb : WamrExtInstanceExceptionCB)
  | addHostCommand (kv : WamrExtKeyValueSS)
  | maxMemory (value : UInt32)
  | unknown
  deriving DecidableEq, Repr

/-- A limit rounded down to whole pages. -/
def roundToPages (maxMem : UInt32) : UInt32 := maxMem / wasmPageSize * wasmPageSize

/-- Rounding gives whole pages unless it gives nothing. -/
theorem roundToPages_pages {maxMem : UInt32} (some : roundToPages maxMem ≠ 0) :
    IsPageMultiple (roundToPages maxMem) := by
  have bound := maxMem.toNat_lt
  have value : (roundToPages maxMem).toNat = maxMem.toNat / 65536 * 65536 := by
    rw [roundToPages, UInt32.toNat_mul, UInt32.toNat_div]
    have page : wasmPageSize.toNat = 65536 := by decide
    rw [page]
    omega
  have page : wasmPageSize.toNat = 65536 := by decide
  refine ⟨?_, ?_⟩
  · apply Nat.pos_of_ne_zero
    intro zero
    exact some (UInt32.toNat_inj.mp zero)
  · rw [value, page]
    omega

/-- `WamrExtSetInstanceOpt` -/
def wamrExtSetInstanceOpt (config : WamrExtInstanceConfig) :
    WamrExtInstanceOpt → ℤ × WamrExtInstanceConfig
  | .noValue => (hostEINVAL, config)
  | .addHostDir kv => (0, { config with preOpenDirs := config.preOpenDirs.insert kv.v kv.k })
  | .addEnvVar kv => (0, { config with envVars := config.envVars.insert kv.k kv.v })
  | .arg argv => (0, { config with args := argv })
  | .exceptionCallback cb => (0, { config with exceptionCB := cb })
  | .addHostCommand kv =>
      if '/' ∈ kv.k.toList ∨ '\\' ∈ kv.k.toList then (hostEINVAL, config)
      else (0, { config with hostCmdWhitelist := config.hostCmdWhitelist.insert kv.k kv.v })
  | .maxMemory value =>
      if zero : roundToPages value = 0 then (hostEINVAL, config)
      else (0, { config with
        maxMemory := roundToPages value
        maxMemory_pages := roundToPages_pages zero })
  | .unknown => (hostEINVAL, config)

/-- **A refused option changes nothing.** -/
theorem wamrExtSetInstanceOpt_refused {config after : WamrExtInstanceConfig}
    {opt : WamrExtInstanceOpt} {ret : ℤ} (refused : ret ≠ 0)
    (returned : wamrExtSetInstanceOpt config opt = (ret, after)) : after = config := by
  cases opt with
  | noValue | unknown =>
      cases returned
      rfl
  | addHostDir kv | addEnvVar kv | arg argv | exceptionCallback cb =>
      cases returned
      exact absurd rfl refused
  | addHostCommand kv =>
      rw [wamrExtSetInstanceOpt] at returned
      split at returned
      · cases returned
        rfl
      · cases returned
        exact absurd rfl refused
  | maxMemory value =>
      rw [wamrExtSetInstanceOpt] at returned
      split at returned
      · cases returned
        rfl
      · cases returned
        exact absurd rfl refused

end Instance
end WamrExt
