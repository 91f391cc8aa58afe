import LustreCsi.Computation.Program
import LustreCsi.Computation.Regex
import LustreCsi.Model.Status
import LustreCsi.Model.Text

/-!
# Installing the kernel modules

The init container of the node has the Lustre kernel modules installed with the parameters it
builds: on COS by one call of `cos-dkms`, on Ubuntu by `apt-get`, `dpkg`, `depmod` and `modprobe`.
The driver reads the network interfaces back from the parameter `networks` of the module `lnet`. A
command may end in any way and leave any parameter files (`KmodState.step`). Log lines are left out.
-/

set_option autoImplicit false

namespace LustreCsi.Model.Kmod

open LustreCsi.Computation

/-! ## Calls -/

/-- How a command ended: what it printed, its error, and whether the context had expired. -/
structure CmdResult where
  output : String
  err : Option String
  timedOut : Bool
  deriving DecidableEq

/-- An entry of a directory. -/
structure DirEntry where
  name : String
  isDir : Bool
  deriving DecidableEq

/-- The calls of the installer and of the driver's start. -/
inductive KmodOp where
  | readFile (path : String)
  | command (dir : Option String) (name : String) (args : List String)
  | mkdirTemp (pattern : String)
  | readDir (path : String)
  | removeAll (path : String)
  deriving DecidableEq

abbrev KmodOp.Res : KmodOp → Type
  | .readFile _ => Except OsError String
  | .command .. => CmdResult
  | .mkdirTemp _ => Except String String
  | .readDir _ => Except String (List DirEntry)
  | .removeAll _ => Option String

abbrev kmodSig : Sig := ⟨KmodOp, KmodOp.Res⟩

abbrev KmodM : Type → Type := Program kmodSig

def perform (o : KmodOp) : KmodM o.Res := Program.perform (S := kmodSig) o

/-- What reading a parameter file of a kernel module answers. -/
structure KmodState where
  file : String → Except OsError String

/-- Looking at a file changes nothing; whatever else is called may change the files. -/
def KmodState.step (s : KmodState) : (o : kmodSig.Op) → kmodSig.Res o → KmodState → Prop
  | .readFile path, r, s' => r = s.file path ∧ s' = s
  | .readDir _, _, s' => s' = s
  | _, _, _ => True

/-! ## Parameters -/

/-- SOURCE: pkg/kmod_installer/kmod_installer.go:34-35 -/
def legacyLNetPort : ℕ := 6988

def defaultLNetPort : ℕ := 988

/-- SOURCE: pkg/kmod_installer/kmod_installer.go:39 -/
def lnetNumaRange : ℕ := 1000000

/-- `cmdTimeout`, as it is printed.
SOURCE: pkg/kmod_installer/kmod_installer.go:41 -/
def cmdTimeout : String := "15m0s"

/-- SOURCE: pkg/kmod_installer/kmod_installer.go:48 -/
def lnetNetworkParameterFile : String := "/sys/module/lnet/parameters/networks"

/-- SOURCE: pkg/kmod_installer/kmod_installer.go:54-60 -/
def lnetPort (enableLegacyLustrePort : Bool) : ℕ :=
  if enableLegacyLustrePort then legacyLNetPort else defaultLNetPort

/-- `fmt.Sprintf("tcp0(%s)", nics)` -/
def tcp0 (nics : String) : String := s!"tcp0({nics})"

/-- SOURCE: pkg/kmod_installer/kmod_installer.go:325-336 -/
def buildLnetNetworkString (nics : List String) (primaryNic : String) (disableMultiNIC : Bool) :
    String :=
  if disableMultiNIC then tcp0 primaryNic
  else
    let orderedNics := nics.foldl (fun ordered nic =>
      if nic ≠ primaryNic then ordered ++ [nic] else ordered) [primaryNic]
    tcp0 (",".intercalate orderedNics)

/-- SOURCE: pkg/kmod_installer/kmod_installer.go:301-310 -/
def parseLnetNetwork (networkStr : String) : List String :=
  let networkStr := trimSuffix (trimPrefix networkStr "tcp0(") ")"
  if networkStr = "" then [] else split networkStr ','

/-- SOURCE: pkg/kmod_installer/kmod_installer.go:131-145 -/
def readLnetConfig (path defaultNic : String) : KmodM (Except OsError String) := do
  match ← perform (.readFile path) with
  | .error err => return .error err
  | .ok file =>
    let currNetworkNics := trimSpace file
    if currNetworkNics = "" then return .ok (tcp0 defaultNic)
    return .ok currNetworkNics

/-- A mismatch with the expected interfaces is only logged.
SOURCE: pkg/kmod_installer/kmod_installer.go:107-129 -/
def getLnetNetwork (_expectedNics networkFile defaultNic : String) :
    KmodM (Except OsError (List String)) := do
  match ← readLnetConfig networkFile defaultNic with
  | .error err =>
    if err.kind = .notExist then return .ok (parseLnetNetwork (tcp0 defaultNic))
    return .error err
  | .ok networkStr => return .ok (parseLnetNetwork networkStr)

/-- The interfaces that the driver uses besides the default one.
SOURCE: cmd/csi_driver/main.go:117-133 -/
def additionalNics (defaultNic : String) : KmodM (Except OsError (List String)) := do
  match ← getLnetNetwork "" lnetNetworkParameterFile defaultNic with
  | .error err => return .error err
  | .ok nics => return .ok (nics.foldl (fun additional nic =>
      if nic ≠ defaultNic then additional ++ [nic] else additional) [])

/-! ## COS -/

/-- `^[0-9]+\.[0-9]+$`
SOURCE: pkg/kmod_installer/kmod_installer.go:51, 340-342 -/
def isPreviewVersion (version : String) : Bool :=
  let previewVersionRegex : Regex :=
    .cat [.bot, .rep Char.isDigit 1 none, .lit ".", .rep Char.isDigit 1 none, .eot]
  (previewVersionRegex.find (trimSpace version)).isSome

/-- The package and the arguments that select its version.
SOURCE: pkg/kmod_installer/kmod_installer.go:346-365 -/
def cosPackageArgs (previewClientVersion : String) : List String :=
  if previewClientVersion = "" then ["lustre-client-drivers", "--latest"]
  else "lustre-client-drivers-pre" ::
    if isPreviewVersion previewClientVersion then
      ["--latest", "--min-version=" ++ previewClientVersion ++ ".0",
        "--max-version=" ++ previewClientVersion ++ ".9999"]
    else ["--package-version=" ++ previewClientVersion]

/-- SOURCE: pkg/kmod_installer/kmod_installer.go:345-402 -/
def buildCosDKMSArgs (previewClientVersion : String) (lnetPort : ℕ) (expectedNetwork : String)
    (customModuleArgs : List String) (disableMultiNIC : Bool) : List String :=
  "install" :: cosPackageArgs previewClientVersion ++
    ["--gcs-bucket=cos-default", "-w", "0", "--kernelmodulestree=/host_modules",
      "--lsb-release-path=/host_etc/lsb-release", "--insert-on-install", "--logtostderr",
      "--module-arg=lnet.accept_port=" ++ toString lnetPort] ++
    (if disableMultiNIC then [] else
      ["--module-arg=lnet.lnet_numa_range=" ++ toString lnetNumaRange]) ++
    ["--module-arg=lnet.networks=\"" ++ expectedNetwork ++ "\""] ++
    customModuleArgs.map ("--module-arg=" ++ ·)

/-- SOURCE: pkg/kmod_installer/kmod_installer.go:168 -/
def upgradeRequired : String :=
  "lustre kernel module installation failed due to permission issue. Please follow " ++
  "https://docs.cloud.google.com/managed-lustre/docs/lustre-csi-driver-new-volume" ++
  "#node-upgrade-required to upgrade node pool to allow GKE managed Lustre CSI driver installation " ++
  "to complete, or disabling loadpin if you are installing the Lustre CSI driver from open source"

/-- What the user sets for an installation. -/
structure InstallConfig where
  enableLegacyPort : Bool
  customModuleArgs : List String
  nics : List String
  disableMultiNIC : Bool
  primaryNic : String
  previewClientVersion : String

def InstallConfig.expectedNetwork (cfg : InstallConfig) : String :=
  buildLnetNetworkString cfg.nics cfg.primaryNic cfg.disableMultiNIC

/-- SOURCE: pkg/kmod_installer/kmod_installer.go:149-181 -/
def installLustreKmodOnCos (U : Unicode) (cfg : InstallConfig) : KmodM (Option String) := do
  let args := buildCosDKMSArgs cfg.previewClientVersion (lnetPort cfg.enableLegacyPort)
    cfg.expectedNetwork cfg.customModuleArgs cfg.disableMultiNIC
  let res ← perform (.command none "/usr/bin/cos-dkms" args)
  match res.err with
  | none => return none
  | some err =>
    let outputStr := res.output
    let lowerOutput := toLower U outputStr
    if contains lowerOutput "operation not permitted" ∧ contains lowerOutput "insmod" then
      return some s!"command execution failed: {err}. {upgradeRequired}"
    if res.timedOut then
      return some s!"command timed out after {cmdTimeout}: {err}\noutput:\n{outputStr}"
    return some s!"command execution failed: {err}\noutput:\n{outputStr}"

/-! ## Ubuntu -/

/-- SOURCE: pkg/kmod_installer/kmod_installer.go:405-418 -/
def buildUbuntuAptDownloadArgs (kernelVersion previewClientVersion : String) : List String :=
  let pkgTarget := s!"lustre-client-modules-{kernelVersion}"
  if previewClientVersion = "" then ["download", s!"{pkgTarget}/lustre-client-ubuntu-noble"]
  else ["download", "-t", "lustre-client-ubuntu-noble-preview",
    if isPreviewVersion previewClientVersion then s!"{pkgTarget}={previewClientVersion}*"
    else s!"{pkgTarget}={previewClientVersion}"]

/-- The custom arguments with the prefix, without it: the inner loops over `customModuleArgs`.
SOURCE: pkg/kmod_installer/kmod_installer.go:265-269, 284-288 -/
def settingsFor (pre : String) (customModuleArgs : List String) : List String :=
  customModuleArgs.foldl (fun acc arg =>
    if hasPrefix arg pre then acc ++ [trimPrefix arg pre] else acc) []

/-- SOURCE: pkg/kmod_installer/kmod_installer.go:261-264 -/
def lnetDefaults (cfg : InstallConfig) : List String :=
  ["accept_port=" ++ toString (lnetPort cfg.enableLegacyPort), "networks=" ++ cfg.expectedNetwork] ++
    if cfg.disableMultiNIC then [] else ["lnet_numa_range=" ++ toString lnetNumaRange]

/-- SOURCE: pkg/kmod_installer/kmod_installer.go:261-269 -/
def lnetArgs (cfg : InstallConfig) (extractDir : String) : List String :=
  ["-d", extractDir, "lnet"] ++ lnetDefaults cfg ++ settingsFor "lnet." cfg.customModuleArgs

/-- SOURCE: pkg/kmod_installer/kmod_installer.go:280 -/
def clientModules : List String := ["ksocklnd", "lustre", "mgc", "lmv", "lov", "mdc", "osc"]

/-- SOURCE: pkg/kmod_installer/kmod_installer.go:282-288 -/
def modArgs (cfg : InstallConfig) (extractDir mod : String) : List String :=
  ["-d", extractDir, mod] ++ settingsFor (mod ++ ".") cfg.customModuleArgs

/-- The loop over the client modules; the first call that fails ends it.
SOURCE: pkg/kmod_installer/kmod_installer.go:281-294 -/
def loadClientModules (cfg : InstallConfig) (extractDir : String) :
    List String → KmodM (Option String)
  | [] => return none
  | mod :: mods => do
    let res ← perform (.command none "modprobe" (modArgs cfg extractDir mod))
    match res.err with
    | some err =>
      let out := res.output
      return some s!"modprobe {mod} failed: {err}\noutput:\n{out}"
    | none => loadClientModules cfg extractDir mods

/-- From the extracted package to the loaded modules.
SOURCE: pkg/kmod_installer/kmod_installer.go:251-298 -/
def loadModules (cfg : InstallConfig) (kernelVersion debPath extractDir : String) :
    KmodM (Option String) := do
  let extract ← perform (.command none "dpkg" ["-x", debPath, extractDir])
  let out := extract.output
  if let some err := extract.err then return some s!"dpkg -x failed: {err}\noutput:\n{out}"
  let depmod ← perform (.command none "depmod" ["-b", extractDir, kernelVersion])
  let out := depmod.output
  if let some err := depmod.err then return some s!"depmod failed: {err}\noutput:\n{out}"
  let lnet ← perform (.command none "modprobe" (lnetArgs cfg extractDir))
  let out := lnet.output
  if let some err := lnet.err then return some s!"modprobe lnet failed: {err}\noutput:\n{out}"
  loadClientModules cfg extractDir clientModules

/-- From the directory for the downloaded package on; the directory for its content is removed at
the end.
SOURCE: pkg/kmod_installer/kmod_installer.go:213-249 -/
def downloadAndLoad (cfg : InstallConfig) (kernelVersion tmpDir : String) :
    KmodM (Option String) := do
  let download ← perform (.command (some tmpDir) "apt-get"
    (buildUbuntuAptDownloadArgs kernelVersion cfg.previewClientVersion))
  let out := download.output
  if let some err := download.err then
    return some s!"failed to download lustre client modules: {err}\noutput:\n{out}"
  match ← perform (.readDir tmpDir) with
  | .error err => return some s!"failed to read download directory: {err}"
  | .ok files =>
    -- A file without a name stands for no file.
    let debFile := ((files.find? fun f => !f.isDir && hasSuffix f.name ".deb").map
      DirEntry.name).getD ""
    if debFile = "" then return some s!"no .deb file found in {tmpDir}"
    match ← perform (.mkdirTemp "extracted-kmod-*") with
    | .error err => return some s!"failed to create temp extract directory: {err}"
    | .ok extractDir =>
      let res ← loadModules cfg kernelVersion (tmpDir ++ "/" ++ debFile) extractDir
      let _ ← perform (.removeAll extractDir)
      return res

/-- The temporary directory is removed at the end; that this fails is only logged.
SOURCE: pkg/kmod_installer/kmod_installer.go:184-299 -/
def installLustreKmodOnUbuntu (cfg : InstallConfig) : KmodM (Option String) := do
  let uname ← perform (.command none "uname" ["-r"])
  if let some err := uname.err then
    return some s!"failed to determine kernel version via uname -r: {err}"
  let kernelVersion := trimSpace uname.output
  let update ← perform (.command none "apt-get" ["update"])
  let out := update.output
  if let some err := update.err then
    return some s!"failed to update apt repositories: {err}\noutput:\n{out}"
  match ← perform (.mkdirTemp "lustre-kmod-*") with
  | .error err => return some s!"failed to create temp directory: {err}"
  | .ok tmpDir =>
    let res ← downloadAndLoad cfg kernelVersion tmpDir
    let _ ← perform (.removeAll tmpDir)
    return res

end LustreCsi.Model.Kmod
