import LustreCsi.Computation.CheckedFold
import LustreCsi.Model.KmodInstaller

/-!
# Custom module settings on COS and on Ubuntu

On COS all settings `<module>.<param>=<value>` are handed to `cos-dkms`. On Ubuntu `modprobe` is
called for eight modules with the settings of each, and a setting of any other module is dropped
(`not_always_delivered`). `delivered_iff` says when both deliver the same.
-/

set_option autoImplicit false

namespace LustreCsi.Analysis.ModuleSettings

open LustreCsi.Computation Model Model.Kmod

/-! ## What the installers deliver -/

/-- The arguments of the calls of a command in a run. -/
def callsOf (name : String) (tr : List (Event kmodSig)) : List (List String) :=
  tr.filterMap fun e => match e.1 with
    | .command _ name' args => if name' = name then some args else none
    | _ => none

/-- What follows the prefix in a text that begins with it. -/
def strip (pre s : String) : Option String :=
  if hasPrefix s pre then some (trimPrefix s pre) else none

/-- The module arguments that the run passes to `cos-dkms`. -/
def cosModuleArgs (tr : List (Event kmodSig)) : List String :=
  (callsOf "/usr/bin/cos-dkms" tr).flatMap fun args => args.filterMap (strip "--module-arg=")

/-- The settings that the run passes to `modprobe -d <dir> <module>`. -/
def passedTo (mod : String) (tr : List (Event kmodSig)) : List String :=
  (callsOf "modprobe" tr).flatMap fun args =>
    if (args.drop 2).head? = some mod then args.drop 3 else []

/-- The module arguments that do not come from the user.
SOURCE: pkg/kmod_installer/kmod_installer.go:390-395 -/
def cosDefaults (cfg : InstallConfig) : List String :=
  ["lnet.accept_port=" ++ toString (lnetPort cfg.enableLegacyPort)] ++
    (if cfg.disableMultiNIC then [] else ["lnet.lnet_numa_range=" ++ toString lnetNumaRange]) ++
    ["lnet.networks=\"" ++ cfg.expectedNetwork ++ "\""]

/-- The settings of a module that do not come from the user, on Ubuntu. -/
def ubuntuDefaults (cfg : InstallConfig) (mod : String) : List String :=
  if mod = "lnet" then lnetDefaults cfg else []

/-- Each setting that the run on COS passes on besides its defaults is passed as often to its module
by the run on Ubuntu, and nothing else is, besides the defaults there. -/
def Delivered (cfg : InstallConfig) (cos ubuntu : List (Event kmodSig)) : Prop :=
  ∃ custom, cosModuleArgs cos = cosDefaults cfg ++ custom ∧
    ∀ mod s, '.' ∉ mod.toList →
      (passedTo mod ubuntu).count s =
        (ubuntuDefaults cfg mod).count s + custom.count (mod ++ "." ++ s)

/-- The form `<module>.<param>=<value>`. -/
def IsSetting (arg : String) : Prop :=
  ∃ mod param value : String, '.' ∉ mod.toList ∧ arg = mod ++ "." ++ (param ++ "=" ++ value)

/-- The text before the first dot. -/
def moduleOf (arg : String) : String := String.ofList (arg.toList.takeWhile (· ≠ '.'))

/-- The modules that the installer on Ubuntu loads explicitly. -/
def loadedModules : List String := "lnet" :: clientModules

/-! ## Prefixes -/

/-- What stands behind the beginning. -/
theorem strip_append (pre s : String) : strip pre (pre ++ s) = some s := by
  have hp : hasPrefix (pre ++ s) pre = true := by
    rw [hasPrefix, List.isPrefixOf_iff_prefix, String.toList_append]
    exact List.prefix_append _ _
  have ht : trimPrefix (pre ++ s) pre = s := by
    rw [trimPrefix, if_pos hp, String.toList_append, List.drop_left, String.ofList_toList]
  rw [strip, if_pos hp, ht]

/-- A text has a beginning exactly if it is put together from it. -/
theorem strip_eq_some {pre s t : String} : strip pre s = some t ↔ s = pre ++ t := by
  constructor
  · intro h
    unfold strip at h
    split at h
    · rename_i hp
      obtain ⟨l, hl⟩ := List.isPrefixOf_iff_prefix.mp hp
      apply String.toList_injective
      rw [← Option.some.inj h, trimPrefix, if_pos hp, String.toList_append, ← hl, List.drop_left,
        String.toList_ofList]
    · cases h
  · rintro rfl
    exact strip_append pre t

/-- The loop over the custom arguments strips the prefix of those that have it. -/
theorem settingsFor_eq (pre : String) (args : List String) :
    settingsFor pre args = args.filterMap (strip pre) := by
  have hloop := foldl_collect (p := fun arg => hasPrefix arg pre = true)
    (f := fun arg => trimPrefix arg pre) args []
  rw [settingsFor, hloop, List.nil_append, ← List.filterMap_eq_map, List.filterMap_filter]
  congr 1
  funext arg
  simp [strip]

/-- As often as the setting with its prefix is given. -/
theorem count_settingsFor (pre s : String) (args : List String) :
    (settingsFor pre args).count s = args.count (pre ++ s) := by
  rw [settingsFor_eq]
  induction args with
  | nil => rfl
  | cons arg args ih =>
    by_cases harg : arg = pre ++ s
    · subst harg
      rw [List.filterMap_cons_some (strip_append pre s), List.count_cons_self, List.count_cons_self, ih]
    rw [List.count_cons_of_ne harg, ← ih]
    cases hstrip : strip pre arg with
    | none => rw [List.filterMap_cons_none hstrip]
    | some t =>
      have hts : t ≠ s := by
        rintro rfl
        exact harg (strip_eq_some.mp hstrip)
      rw [List.filterMap_cons_some hstrip, List.count_cons_of_ne hts]

/-! ## Runs -/

section Runs

variable {cfg : InstallConfig} {σ σ' : KmodState} {tr : List (Event kmodSig)}

/-- The first call of a run. -/
theorem exec_perform {α : Type} {o : KmodOp} {f : o.Res → KmodM α} {a : α}
    (h : Exec KmodState.step (perform o >>= f) σ tr a σ') :
    ∃ r σ₁ tr₁, tr = ⟨o, r⟩ :: tr₁ ∧ Exec KmodState.step (f r) σ₁ tr₁ a σ' := by
  obtain ⟨r, σ₁, tr₁, -, htr, h⟩ := h
  exact ⟨r, σ₁, tr₁, htr, h⟩

/-- A command without which the run does not succeed. -/
theorem exec_command {dir : Option String} {name : String} {args : List String}
    {f : CmdResult → KmodM (Option String)}
    (h : Exec KmodState.step (perform (.command dir name args) >>= f) σ tr none σ')
    (hfail : ∀ res err, res.err = some err → ∃ text, f res = pure (some text)) :
    ∃ res σ₁ tr₁, res.err = none ∧ tr = ⟨.command dir name args, res⟩ :: tr₁ ∧
      Exec KmodState.step (f res) σ₁ tr₁ none σ' := by
  obtain ⟨res, σ₁, tr₁, htr, h⟩ := exec_perform h
  refine ⟨res, σ₁, tr₁, ?_, htr, h⟩
  cases hres : res.err with
  | none => rfl
  | some err =>
    obtain ⟨text, htext⟩ := hfail res err hres
    rw [htext] at h
    obtain ⟨-, hcontra, -⟩ := h
    cases hcontra

/-- When the loop has come to its end, it has loaded each module once. -/
theorem callsOf_loadClientModules {dir : String} {mods : List String}
    (h : Exec KmodState.step (loadClientModules cfg dir mods) σ tr none σ') :
    callsOf "modprobe" tr = mods.map (modArgs cfg dir) := by
  induction mods generalizing σ tr with
  | nil =>
    obtain ⟨rfl, -, -⟩ := h
    rfl
  | cons mod mods ih =>
    rw [loadClientModules] at h
    obtain ⟨res, σ₁, tr₁, hres, rfl, hrest⟩ := exec_command h (by intro res err hres; simp [hres])
    simp only [hres] at hrest
    rw [List.map_cons, ← ih hrest]
    rfl

/-- The calls of `modprobe` that load the modules below a directory. -/
def modprobeCalls (cfg : InstallConfig) (dir : String) : List (List String) :=
  lnetArgs cfg dir :: clientModules.map (modArgs cfg dir)

/-- From the package to the loaded modules. -/
theorem callsOf_loadModules {kernelVersion debPath dir : String}
    (h : Exec KmodState.step (loadModules cfg kernelVersion debPath dir) σ tr none σ') :
    callsOf "modprobe" tr = modprobeCalls cfg dir := by
  rw [loadModules] at h
  obtain ⟨extract, σ₁, tr₁, hextract, rfl, h₁⟩ :=
    exec_command h (by intro res err hres; simp [hres])
  simp only [hextract] at h₁
  obtain ⟨depmod, σ₂, tr₂, hdepmod, rfl, h₂⟩ := exec_command h₁ (by intro res err hres; simp [hres])
  simp only [hdepmod] at h₂
  obtain ⟨lnet, σ₃, tr₃, hlnet, rfl, h₃⟩ := exec_command h₂ (by intro res err hres; simp [hres])
  simp only [hlnet] at h₃
  rw [modprobeCalls, ← callsOf_loadClientModules h₃]
  rfl

/-- A part of the run after which only a directory is removed. -/
theorem callsOf_then_removeAll {p : KmodM (Option String)} {dir : String}
    (hp : ∀ σ tr σ', Exec KmodState.step p σ tr none σ' →
      ∃ dir, callsOf "modprobe" tr = modprobeCalls cfg dir)
    (h : Exec KmodState.step (p >>= fun res => perform (.removeAll dir) >>= fun _ => pure res) σ tr
      none σ') : ∃ dir, callsOf "modprobe" tr = modprobeCalls cfg dir := by
  obtain ⟨tr₁, res, σ₁, tr₂, hfirst, hend, rfl⟩ := exec_bind.mp h
  obtain ⟨removed, σ₂, tr₃, rfl, rfl, hnone, -⟩ := exec_perform hend
  obtain rfl : none = res := hnone
  obtain ⟨dir', hcalls⟩ := hp _ _ _ hfirst
  exact ⟨dir', by rw [← hcalls, callsOf, List.filterMap_append]; simp [callsOf]⟩

/-- The modules are loaded from the directory of the extracted package. -/
theorem callsOf_downloadAndLoad {kernelVersion tmpDir : String}
    (h : Exec KmodState.step (downloadAndLoad cfg kernelVersion tmpDir) σ tr none σ') :
    ∃ dir, callsOf "modprobe" tr = modprobeCalls cfg dir := by
  rw [downloadAndLoad] at h
  obtain ⟨download, σ₁, tr₁, hdownload, rfl, h₁⟩ :=
    exec_command h (by intro res err hres; simp [hres])
  simp only [hdownload] at h₁
  obtain ⟨files, σ₂, tr₂, rfl, h₂⟩ := exec_perform h₁
  cases files with
  | error err =>
    obtain ⟨-, hcontra, -⟩ := h₂
    cases hcontra
  | ok files =>
    simp only at h₂
    split at h₂
    · obtain ⟨-, hcontra, -⟩ := h₂
      cases hcontra
    obtain ⟨made, σ₃, tr₃, rfl, h₃⟩ := exec_perform h₂
    cases made with
    | error err =>
      obtain ⟨-, hcontra, -⟩ := h₃
      cases hcontra
    | ok dir =>
      obtain ⟨dir', hcalls⟩ :=
        callsOf_then_removeAll (fun _ _ _ hload => ⟨dir, callsOf_loadModules hload⟩) h₃
      exact ⟨dir', hcalls⟩

/-- The calls of `modprobe` in a successful run on Ubuntu. -/
theorem callsOf_ubuntu (h : Exec KmodState.step (installLustreKmodOnUbuntu cfg) σ tr none σ') :
    ∃ dir, callsOf "modprobe" tr = modprobeCalls cfg dir := by
  rw [installLustreKmodOnUbuntu] at h
  obtain ⟨uname, σ₁, tr₁, huname, rfl, h₁⟩ := exec_command h (by intro res err hres; simp [hres])
  simp only [huname] at h₁
  obtain ⟨update, σ₂, tr₂, hupdate, rfl, h₂⟩ := exec_command h₁ (by intro res err hres; simp [hres])
  simp only [hupdate] at h₂
  obtain ⟨made, σ₃, tr₃, rfl, h₃⟩ := exec_perform h₂
  cases made with
  | error err =>
    obtain ⟨-, hcontra, -⟩ := h₃
    cases hcontra
  | ok tmpDir =>
    obtain ⟨dir, hcalls⟩ :=
      callsOf_then_removeAll (fun _ _ _ hload => callsOf_downloadAndLoad hload) h₃
    exact ⟨dir, hcalls⟩

/-- What a list of calls, one for each module, passes to a module. -/
theorem passed_map_modArgs {dir mod : String} {mods : List String} (hnodup : mods.Nodup) :
    ((mods.map (modArgs cfg dir)).flatMap fun args =>
        if (args.drop 2).head? = some mod then args.drop 3 else []) =
      if mod ∈ mods then settingsFor (mod ++ ".") cfg.customModuleArgs else [] := by
  induction mods with
  | nil => rfl
  | cons mod' mods ih =>
    obtain ⟨hnot, hrest⟩ := List.nodup_cons.mp hnodup
    rw [List.map_cons, List.flatMap_cons, ih hrest]
    by_cases hmod : mod = mod'
    · subst hmod
      simp [modArgs, hnot]
    · simp [modArgs, hmod, Ne.symm hmod]

/-- Which settings a module gets in a successful run on Ubuntu. -/
theorem passedTo_ubuntu (h : Exec KmodState.step (installLustreKmodOnUbuntu cfg) σ tr none σ')
    (mod : String) :
    passedTo mod tr = ubuntuDefaults cfg mod ++
      if mod ∈ loadedModules then settingsFor (mod ++ ".") cfg.customModuleArgs else [] := by
  obtain ⟨dir, hcalls⟩ := callsOf_ubuntu h
  rw [passedTo, hcalls, modprobeCalls, List.flatMap_cons, passed_map_modArgs (by decide)]
  by_cases hlnet : mod = "lnet"
  · subst hlnet
    have hnot : "lnet" ∉ clientModules := by decide
    simp [lnetArgs, ubuntuDefaults, loadedModules, hnot]
  · simp [lnetArgs, ubuntuDefaults, loadedModules, hlnet, Ne.symm hlnet]

/-- No module argument is among those that select the package. -/
theorem strip_cosPackageArgs (version : String) :
    (cosPackageArgs version).filterMap (strip "--module-arg=") = [] := by
  have hmin : strip "--module-arg=" ("--min-version=" ++ version ++ ".0") = none := by
    rw [strip, hasPrefix, String.toList_append, String.toList_append]
    rfl
  have hmax : strip "--module-arg=" ("--max-version=" ++ version ++ ".9999") = none := by
    rw [strip, hasPrefix, String.toList_append, String.toList_append]
    rfl
  have hexact : strip "--module-arg=" ("--package-version=" ++ version) = none := by
    rw [strip, hasPrefix, String.toList_append]
    rfl
  have hpre : strip "--module-arg=" "lustre-client-drivers-pre" = none := by decide
  have hlatest : strip "--module-arg=" "--latest" = none := by decide
  unfold cosPackageArgs
  split
  · decide
  rw [List.filterMap_cons_none hpre]
  split
  · simp [hlatest, hmin, hmax]
  · simp [hexact]

/-- The module arguments of the command on COS. -/
theorem strip_buildCosDKMSArgs (cfg : InstallConfig) :
    (buildCosDKMSArgs cfg.previewClientVersion (lnetPort cfg.enableLegacyPort) cfg.expectedNetwork
        cfg.customModuleArgs cfg.disableMultiNIC).filterMap (strip "--module-arg=") =
      cosDefaults cfg ++ cfg.customModuleArgs := by
  have hcustom : (cfg.customModuleArgs.map ("--module-arg=" ++ ·)).filterMap (strip "--module-arg=") =
      cfg.customModuleArgs := by
    rw [List.filterMap_map]
    have hstrip : strip "--module-arg=" ∘ ("--module-arg=" ++ ·) = some :=
      funext fun s => strip_append _ s
    rw [hstrip, List.filterMap_some]
  have hfixed : ∀ arg ∈ ["install", "--gcs-bucket=cos-default", "-w", "0",
      "--kernelmodulestree=/host_modules", "--lsb-release-path=/host_etc/lsb-release",
      "--insert-on-install", "--logtostderr"], strip "--module-arg=" arg = none := by decide
  have hport (s : String) : strip "--module-arg=" ("--module-arg=lnet.accept_port=" ++ s) =
      some ("lnet.accept_port=" ++ s) := strip_eq_some.mpr (by rw [← String.append_assoc]; rfl)
  have hrange (s : String) : strip "--module-arg=" ("--module-arg=lnet.lnet_numa_range=" ++ s) =
      some ("lnet.lnet_numa_range=" ++ s) := strip_eq_some.mpr (by rw [← String.append_assoc]; rfl)
  have hnetworks (s : String) : strip "--module-arg=" ("--module-arg=lnet.networks=\"" ++ s) =
      some ("lnet.networks=\"" ++ s) := strip_eq_some.mpr (by rw [← String.append_assoc]; rfl)
  simp only [List.mem_cons, List.not_mem_nil, or_false, forall_eq_or_imp, forall_eq] at hfixed
  simp only [buildCosDKMSArgs, cosDefaults, List.filterMap_append, hcustom, String.append_assoc]
  cases cfg.disableMultiNIC <;> simp [hfixed, hport, hrange, hnetworks, strip_cosPackageArgs]

/-- What a run on COS passes to `cos-dkms`. -/
theorem cosModuleArgs_cos {U : Unicode} {r : Option String}
    (h : Exec KmodState.step (installLustreKmodOnCos U cfg) σ tr r σ') :
    cosModuleArgs tr = cosDefaults cfg ++ cfg.customModuleArgs := by
  rw [installLustreKmodOnCos] at h
  obtain ⟨res, σ₁, tr₁, rfl, hend⟩ := exec_perform h
  have hnil : tr₁ = [] := by
    split at hend
    · exact hend.1
    simp only at hend
    split at hend
    · exact hend.1
    split at hend
    · exact hend.1
    · exact hend.1
  subst hnil
  rw [← strip_buildCosDKMSArgs]
  simp [cosModuleArgs, callsOf]

end Runs

/-! ## Agreement -/

/-- The module of a setting is what stands before the first dot. -/
theorem moduleOf_append {mod : String} (s : String) (hmod : '.' ∉ mod.toList) :
    moduleOf (mod ++ "." ++ s) = mod := by
  have hne : ∀ c ∈ mod.toList, decide (c ≠ '.') = true := by
    intro c hc
    simpa using fun hdot : c = '.' => hmod (hdot ▸ hc)
  apply String.toList_injective
  simp only [moduleOf, String.toList_append, List.append_assoc, String.toList_ofList]
  rw [List.takeWhile_append_of_pos hne]
  simp

section Agreement

variable {U : Unicode} {cfg : InstallConfig} {σ₁ σ₁' σ₂ σ₂' : KmodState}
  {cos ubuntu : List (Event kmodSig)} {r : Option String}

/-- A setting of a module that is not loaded explicitly is dropped on Ubuntu. -/
theorem loaded_of_delivered (hform : ∀ arg ∈ cfg.customModuleArgs, IsSetting arg)
    (hcos : Exec KmodState.step (installLustreKmodOnCos U cfg) σ₁ cos r σ₁')
    (hubuntu : Exec KmodState.step (installLustreKmodOnUbuntu cfg) σ₂ ubuntu none σ₂')
    (hdelivered : Delivered cfg cos ubuntu) :
    ∀ arg ∈ cfg.customModuleArgs, moduleOf arg ∈ loadedModules := by
  obtain ⟨custom, hargs, hcount⟩ := hdelivered
  rw [cosModuleArgs_cos hcos, List.append_cancel_left_eq] at hargs
  intro arg harg
  obtain ⟨mod, param, value, hmod, rfl⟩ := hform arg harg
  rw [moduleOf_append _ hmod]
  by_contra hnot
  have h := hcount mod (param ++ "=" ++ value) hmod
  rw [passedTo_ubuntu hubuntu, if_neg hnot, List.append_nil] at h
  have hpos : 0 < custom.count (mod ++ "." ++ (param ++ "=" ++ value)) :=
    List.count_pos_iff.mpr (hargs ▸ harg)
  omega

/-- **The two installers deliver the same custom settings exactly when all of them are settings of
modules that the installer on Ubuntu loads.** `cos-dkms` gets every custom setting; on Ubuntu a setting
of one of the modules `lnet`, `ksocklnd`, `lustre`, `mgc`, `lmv`, `lov`, `mdc` and `osc` goes once to its
module, and a setting of another module goes nowhere.

SOURCE: pkg/kmod_installer/kmod_installer.go:149-181, 184-299, 345-402 -/
theorem delivered_iff (hform : ∀ arg ∈ cfg.customModuleArgs, IsSetting arg)
    (hcos : Exec KmodState.step (installLustreKmodOnCos U cfg) σ₁ cos r σ₁')
    (hubuntu : Exec KmodState.step (installLustreKmodOnUbuntu cfg) σ₂ ubuntu none σ₂') :
    Delivered cfg cos ubuntu ↔ ∀ arg ∈ cfg.customModuleArgs, moduleOf arg ∈ loadedModules := by
  refine ⟨loaded_of_delivered hform hcos hubuntu, fun hall => ?_⟩
  refine ⟨cfg.customModuleArgs, cosModuleArgs_cos hcos, fun mod s hmod => ?_⟩
  rw [passedTo_ubuntu hubuntu, List.count_append]
  by_cases hloaded : mod ∈ loadedModules
  · rw [if_pos hloaded, count_settingsFor]
  have hzero : cfg.customModuleArgs.count (mod ++ "." ++ s) = 0 := by
    rw [List.count_eq_zero]
    intro hmem
    exact hloaded (moduleOf_append s hmod ▸ hall _ hmem)
  rw [if_neg hloaded, hzero, List.count_nil]

end Agreement

/-! ## Runs in which every command succeeds -/

section Sample

/-- A node without parameter files. -/
def bareNode : KmodState := ⟨fun path => .error ⟨.notExist, path⟩⟩

/-- The answers of calls that succeed. -/
def succeed (s : KmodState) : (o : KmodOp) → o.Res
  | .readFile path => s.file path
  | .command .. => ⟨"6.8.0-1021-gke", none, false⟩
  | .mkdirTemp _ => .ok "/tmp/kmod"
  | .readDir _ => .ok [⟨"lustre-client-modules.deb", false⟩]
  | .removeAll _ => none

/-- A run in which all calls succeed. -/
theorem exec_of_succeed {p : KmodM (Option String)} (n : ℕ)
    (h : (play (S := kmodSig) (fun s o (_ : Unit) => some (succeed s o, s)) p (List.replicate n ())
      bareNode).map Prod.fst = some none) :
    ∃ tr σ', Exec KmodState.step p bareNode tr none σ' := by
  obtain ⟨⟨r, σ'⟩, hplay, hr⟩ := Option.map_eq_some_iff.mp h
  obtain rfl : r = none := hr
  obtain ⟨tr, hrun⟩ := play_exec _ hplay
  refine ⟨tr, σ', hrun.mono ?_⟩
  rintro s o answer s' ⟨c, heq⟩
  simp only [Option.some.injEq, Prod.mk.injEq] at heq
  obtain ⟨rfl, rfl⟩ := heq
  cases o <;> simp [KmodState.step, succeed]

/-- A node with one interface and the given settings. -/
def withSettings (customModuleArgs : List String) : InstallConfig where
  enableLegacyPort := false
  customModuleArgs := customModuleArgs
  nics := ["eth0"]
  disableMultiNIC := true
  primaryNic := "eth0"
  previewClientVersion := ""

/-- The argument is a setting. -/
theorem isSetting_ptlrpc : IsSetting "ptlrpc.max_ptlrpcds=8" :=
  ⟨"ptlrpc", "max_ptlrpcds", "8", by decide, by decide⟩

/-- The setting of the installer's own test of COS is dropped on Ubuntu. -/
theorem not_always_delivered :
    ∃ (U : Unicode) (cfg : InstallConfig) (σ : KmodState) (cos ubuntu : List (Event kmodSig))
      (σ₁ σ₂ : KmodState), cfg.customModuleArgs = ["ptlrpc.max_ptlrpcds=8"] ∧
      (∀ arg ∈ cfg.customModuleArgs, IsSetting arg) ∧
      Exec KmodState.step (installLustreKmodOnCos U cfg) σ cos none σ₁ ∧
      Exec KmodState.step (installLustreKmodOnUbuntu cfg) σ ubuntu none σ₂ ∧
      ¬Delivered cfg cos ubuntu := by
  let cfg := withSettings ["ptlrpc.max_ptlrpcds=8"]
  have hform : ∀ arg ∈ cfg.customModuleArgs, IsSetting arg := by
    intro arg harg
    obtain rfl := List.mem_singleton.mp harg
    exact isSetting_ptlrpc
  obtain ⟨cos, σ₁, hcos⟩ := exec_of_succeed (p := installLustreKmodOnCos .asciiOnly cfg) 1
    (by decide +kernel)
  obtain ⟨ubuntu, σ₂, hubuntu⟩ := exec_of_succeed (p := installLustreKmodOnUbuntu cfg) 18
    (by decide +kernel)
  refine ⟨.asciiOnly, cfg, bareNode, cos, ubuntu, σ₁, σ₂, rfl, hform, hcos, hubuntu, fun h => ?_⟩
  have hloaded := loaded_of_delivered hform hcos hubuntu h "ptlrpc.max_ptlrpcds=8" (by decide)
  exact absurd hloaded (by decide)

/-- Two settings of `lnet` and one of `osc` arrive. -/
theorem delivered_three :
    ∃ cos ubuntu σ₁ σ₂, Exec KmodState.step (installLustreKmodOnCos .asciiOnly
        (withSettings ["lnet.a=1", "osc.b=2", "lnet.a=1"])) bareNode cos none σ₁ ∧
      Exec KmodState.step (installLustreKmodOnUbuntu
        (withSettings ["lnet.a=1", "osc.b=2", "lnet.a=1"])) bareNode ubuntu none σ₂ ∧
      Delivered (withSettings ["lnet.a=1", "osc.b=2", "lnet.a=1"]) cos ubuntu := by
  have hform : ∀ arg ∈ (withSettings ["lnet.a=1", "osc.b=2", "lnet.a=1"]).customModuleArgs,
      IsSetting arg := by
    intro arg harg
    simp only [withSettings, List.mem_cons, List.not_mem_nil, or_false] at harg
    rcases harg with rfl | rfl | rfl
    · exact ⟨"lnet", "a", "1", by decide, by decide⟩
    · exact ⟨"osc", "b", "2", by decide, by decide⟩
    · exact ⟨"lnet", "a", "1", by decide, by decide⟩
  obtain ⟨cos, σ₁, hcos⟩ := exec_of_succeed (p := installLustreKmodOnCos .asciiOnly
    (withSettings ["lnet.a=1", "osc.b=2", "lnet.a=1"])) 1 (by decide +kernel)
  obtain ⟨ubuntu, σ₂, hubuntu⟩ := exec_of_succeed (p := installLustreKmodOnUbuntu
    (withSettings ["lnet.a=1", "osc.b=2", "lnet.a=1"])) 18 (by decide +kernel)
  exact ⟨cos, ubuntu, σ₁, σ₂, hcos, hubuntu, (delivered_iff hform hcos hubuntu).mpr (by decide)⟩

end Sample

end LustreCsi.Analysis.ModuleSettings
