import LustreCsi.Computation.Regex
import LustreCsi.Model.Driver
import LustreCsi.Model.Host
import LustreCsi.Model.Text

/-!
# The node server

The handlers of `pkg/csi_driver/node.go` and `pkg/csi_driver/unmount.go`. An `error` result of the
source is an `Option`, `none` for `nil`; a handler that returns `none` has returned its response.
`defer Release` is `withLock`. Log lines are left out.

What the handlers use and the repository does not contain is a field of `NodeServer`: the SHA-256
digest behind `computeHash`, the JSON decoder behind `parseToken`, the lower-case table of Unicode.
-/

set_option autoImplicit false

namespace LustreCsi.Model

open LustreCsi.Computation

/-- Programs of the node server. -/
abbrev NodeM : Type → Type := Program nodeSig

/-- Perform one operation on the node. -/
def perform (o : Op) : NodeM o.Res := Program.perform (S := nodeSig) o

/-- What the handlers read of the driver's configuration, and the library functions whose
code is outside the repository.
SOURCE: pkg/csi_driver/lustre_driver.go:32-43 -/
structure NodeServer where
  nodeID : String
  project : String
  additionalNics : List String
  unicode : Unicode
  computeHash : String → Key
  unmarshalTokens : String → Except String StrMap

/-! ## Requests -/

structure NodePublishVolumeRequest where
  volumeID : String
  stagingTargetPath : String
  targetPath : String
  volumeCapability : Option VolumeCapability
  readonly : Bool
  volumeContext : StrMap

structure NodeUnpublishVolumeRequest where
  targetPath : String

structure NodeStageVolumeRequest where
  volumeID : String
  stagingTargetPath : String
  volumeCapability : Option VolumeCapability
  volumeContext : StrMap

structure NodeUnstageVolumeRequest where
  volumeID : String
  stagingTargetPath : String

/-! ## Locks -/

/-- `TryAcquire`, the refusal, and `defer Release` around the rest of a function.
SOURCE: pkg/util/volume_lock.go:42-59 -/
def withLock {ε : Type} (name : String) (refused : ε) (body : NodeM (Option ε)) :
    NodeM (Option ε) := do
  let acquired : Bool ← perform (.tryAcquire name)
  if acquired then
    let err ← body
    perform (.release name)
    return err
  else return some refused

/-! ## Files and directories -/

/-- An error other than `os.IsNotExist`. -/
def unlessNotExist (err : Option OsError) : Option OsError :=
  err.filter fun e => e.kind ≠ .notExist

/-- SOURCE: pkg/csi_driver/node.go:688-697 -/
def makeDir (p : Path) : NodeM (Option OsError) := do
  let err ← perform (.mkdirAll p)
  return err.filter fun e => e.kind ≠ .exist

/-- SOURCE: pkg/csi_driver/node.go:704-712 -/
def pathExists (p : Path) : NodeM (Except OsError Bool) := do
  match ← perform (.stat p) with
  | none => return .ok true
  | some err => if err.kind = .notExist then return .ok false else return .error err

/-- The loop of `File.Write`: partial writes are continued, an empty one is an error. The
fuel is one more than the number of characters, and each round but the last stores one. -/
def writeLoop (p : Path) : ℕ → String → NodeM (Option OsError)
  | 0, _ => return some ⟨.other, "short write"⟩
  | fuel + 1, rest => do
    match ← perform (.write p rest) with
    | .error err => return some err
    | .ok n =>
      if n = rest.length then return none
      else if n = 0 then return some ⟨.other, "unexpected EOF"⟩
      else writeLoop p fuel (String.ofList (rest.toList.drop n))

/-- `os.WriteFile`: open with truncation, then write. -/
def writeFile (p : Path) (data : String) : NodeM (Option OsError) := do
  if let some err ← perform (.openTrunc p) then return some err
  writeLoop p (data.length + 1) data

/-- SOURCE: pkg/csi_driver/node.go:771-781 -/
def makeGlobalDirs (key : Key) : NodeM (Option OsError) := do
  if let some err ← makeDir (.mount key) then return some err
  if let some err ← makeDir (.refs key) then return some err
  return none

/-- SOURCE: pkg/csi_driver/node.go:783-795 -/
def updateTokenFile (key : Key) (token : String) : NodeM (Option OsError) := do
  if let some err ← writeFile (.tokenTmp key) token then return some err
  if let some err ← perform (.renameToken key) then
    let _ ← perform (.remove (.tokenTmp key))
    return some err
  return none

/-- SOURCE: pkg/csi_driver/node.go:797-810 -/
def parseToken (s : NodeServer) (tokenJSON audience : String) : Except String String :=
  match s.unmarshalTokens tokenJSON with
  | .error err => .error err
  | .ok tokens =>
    match tokens.lookup audience with
    | some token => .ok token
    | none => .error s!"token for audience {quote audience} not found"

/-- SOURCE: pkg/csi_driver/node.go:812-820 -/
def addPodReference (key : Key) (podUID volumeID : String) : NodeM (Option OsError) := do
  if let .ok true ← pathExists (.ref key podUID) then return none
  writeFile (.ref key podUID) volumeID

/-- SOURCE: pkg/csi_driver/node.go:822-828 -/
def removePodReference (key : Key) (podUID : String) : NodeM (Option String) := do
  let err ← perform (.remove (.ref key podUID))
  return (unlessNotExist err).map fun e =>
    s!"failed to remove reference file {quote (Path.ref key podUID).render}: {e.text}"

/-! ## Mount points -/

/-- A character that the class `.` matches. -/
def anyChar (c : Char) : Bool := c != '\n'

/-- `^(.+)@tcp:/([^/]+)$`
SOURCE: pkg/csi_driver/node.go:58 -/
def mountPointRegex : Regex :=
  .cat [.bot, .grp (.rep anyChar 1 none), .lit "@tcp:/", .grp (.rep notSlash 1 none), .eot]

/-- SOURCE: pkg/csi_driver/node.go:647-654 -/
def parseMountPoint (mountPoint : String) : Except String (String × String) :=
  match mountPointRegex.find mountPoint with
  | some [ip, fsname] => .ok (ip, fsname)
  | _ => .error
      s!"invalid mountPoint format: {mountPoint}, expected format: <ip>@tcp:/<fsname>"

/-- `.+@tcp:/([^/]+)`
SOURCE: pkg/csi_driver/node.go:634-645 -/
def extractFSName (source : String) : String :=
  let re : Regex := .cat [.rep anyChar 1 none, .lit "@tcp:/", .grp (.rep notSlash 1 none)]
  match re.find source with
  | some (fsname :: _) => fsname
  | _ => ""

/-- SOURCE: pkg/csi_driver/node.go:615-630 -/
def hasMountWithSameFSName (fsname : String) : NodeM (Except OsError Bool) := do
  match ← perform .list with
  | .error err => return .error err
  | .ok mountedFS => return .ok (mountedFS.any fun m => extractFSName m.device = fsname)

/-- SOURCE: pkg/csi_driver/node.go:571-611 -/
def isMounted (target : Path) : NodeM (Except Status Bool) := do
  match ← perform (.isLikelyNotMountPoint target) with
  | .ok notMnt => return .ok !notMnt
  | .error err =>
    if err.kind = .notExist then return .ok false
    match ← pathExists target with
    | .ok _ => return .error ⟨.internal,
        s!"Could not check if {quote target.render} is a mount point: {err.text}, <nil>"⟩
    | .error pathErr =>
      if pathErr.kind = .corrupted then
        match ← perform (.unmount target) with
        | some mntErr => return .error ⟨.internal,
            s!"Unable to unmount the target {quote target.render} : {mntErr.text}"⟩
        | none => return .ok false
      else return .error ⟨.internal,
          s!"Could not check if {quote target.render} is a mount point: {err.text}, " ++
            s!"{pathErr.text}"⟩

/-- SOURCE: pkg/csi_driver/unmount.go:47 -/
def errNotMounted : String := "not mounted"

/-- SOURCE: pkg/csi_driver/unmount.go:156-164 -/
def isNotMounted (s : NodeServer) (err : Option String) (output : String) : Bool :=
  err.any (fun text => contains (toLower s.unicode text) errNotMounted) ||
    contains (toLower s.unicode output) errNotMounted

/-- SOURCE: pkg/csi_driver/unmount.go:190-195 -/
def removeDir (target : Path) : NodeM (Option Status) := do
  let err ← perform (.remove target)
  return (unlessNotExist err).map fun e =>
    ⟨.internal, s!"failed to remove mount directory {quote target.render}: {e.text}"⟩

/-- The three phases of `unmountPath`: `umount` with each set of flags in turn, until one
succeeds or finds nothing mounted.
SOURCE: pkg/csi_driver/unmount.go:117-153 -/
def umountPhases (s : NodeServer) (target : Path) : List (List String) → NodeM (Option Status)
  | [] => return none
  | flags :: rest => do
    let (out, err) ← perform (.umount flags target)
    if err.isNone || isNotMounted s err out then removeDir target
    else if rest.isEmpty then
      let errText := err.getD ""
      return some ⟨.internal, s!"failed to unmount target {quote target.render} after standard, " ++
        s!"force, and lazy attempts: {errText} (output: {out})"⟩
    else umountPhases s target rest

/-- How `unmountPath` reads the probe: an error counts as mounted, unless it says that the
path does not exist.
SOURCE: pkg/csi_driver/unmount.go:101-109 -/
def notMountPoint : Except OsError Bool → Bool
  | .ok notMnt => notMnt
  | .error err => err.kind == .notExist

/-- SOURCE: pkg/csi_driver/unmount.go:100-154 -/
def unmountPath (s : NodeServer) (target : Path) : NodeM (Option Status) := do
  let answer ← perform (.isLikelyNotMountPoint target)
  if notMountPoint answer then removeDir target
  else umountPhases s target [[], ["-f"], ["-l"]]

/-! ## Ownership -/

/-- `strconv.Atoi`: an optional sign and decimal digits, in the range of `int64`. -/
def atoi (text : String) : Except String Int :=
  let (negative, digits) := match text.toList with
    | '-' :: ds => (true, ds)
    | '+' :: ds => (false, ds)
    | ds => (false, ds)
  if digits = [] ∨ ¬ digits.all Char.isDigit then
    .error s!"strconv.Atoi: parsing {quote text}: invalid syntax"
  else
    let n := digits.foldl (fun n c => 10 * n + (c.toNat - '0'.toNat)) 0
    if n < Nat.pow 2 63 ∨ (negative ∧ n = Nat.pow 2 63) then .ok (if negative then -(n : Int) else n)
    else .error s!"strconv.Atoi: parsing {quote text}: value out of range"

/-- The bits that `setVolumeOwnershipTopLevel` adds to the mode of a directory that is not
read-only: `rwMask | os.ModeSetgid | execMask`.
SOURCE: pkg/csi_driver/node.go:41-43, 751-755 -/
def ownershipMask : ℕ := 0o660 ||| Nat.pow 2 22 ||| 0o110

/-- The part of `setVolumeOwnershipTopLevel` that changes the directory.
SOURCE: pkg/csi_driver/node.go:740-764 -/
def changeOwnership (dir : Path) (gid : Int) : NodeM (Option OsError) := do
  match ← perform (.lstat dir) with
  | .error err => return some err
  | .ok info =>
    if let some err ← perform (.lchown dir gid) then return some err
    perform (.chmod dir (info.mode ||| ownershipMask))

/-- SOURCE: pkg/csi_driver/node.go:716-767 -/
def setVolumeOwnershipTopLevel (dir : Path) (fsGroup : String) (readOnly : Bool) :
    NodeM (Option String) := do
  if readOnly then return none
  if fsGroup = "" then return none
  match atoi fsGroup with
  | .error err => return some s!"invalid fsGroup {fsGroup}, must a numeric string: {err}"
  | .ok gid =>
    let err ← changeOwnership dir gid
    return err.map (·.text)

/-! ## Publishing an IAM volume -/

/-- The mount flags that the options do not have yet are appended to them.
SOURCE: pkg/csi_driver/node.go:281-286, 451-457, 677-686 -/
def addMountFlags (options : List String) (volCap : VolumeCapability) : List String :=
  volCap.mountFlags.foldl (fun opts f => if f ∈ opts then opts else opts ++ [f]) options

/-- SOURCE: pkg/csi_driver/node.go:502-527 -/
def setUpMultiNIC (s : NodeServer) (volumeID ip : String) : NodeM (Option Status) :=
  if s.additionalNics = [] then return none else perform (.setUpMultiNIC volumeID ip)

/-- The address and the file system of a volume: those of the mount point if it is given.
SOURCE: pkg/csi_driver/node.go:107-126, 422-440 -/
def lustreEndpoint (ip fsname mountPoint : String) : Except Status (String × String) := do
  let (ip, fsname) ←
    if mountPoint = "" then .ok (ip, fsname)
    else (parseMountPoint mountPoint).mapError fun err => (⟨.invalidArgument, err⟩ : Status)
  if ip = "" then .error ⟨.invalidArgument, "Lustre instance IP is not provided"⟩
  else if fsname = "" then
    .error ⟨.invalidArgument, "Lustre filesystem name is not provided"⟩
  else .ok (ip, fsname)

def lustreSource (ip fsname : String) : String := s!"{ip}@tcp:/{fsname}"

/-- SOURCE: pkg/csi_driver/node.go:421-472 -/
def mountGlobalIAM (s : NodeServer) (volumeID principal : String) (key : Key) (vc : StrMap)
    (volCap : VolumeCapability) : NodeM (Option Status) := do
  let get := fun name => vc.get (normalize s.unicode name)
  match lustreEndpoint (get keyInstanceIP) (get keyFilesystem) (get keyMountPoint) with
  | .error err => return some err
  | .ok (ip, fsname) =>
    if let some err ← setUpMultiNIC s volumeID ip then return some err
    let source := lustreSource ip fsname
    let options := addMountFlags [s!"user_principal=gke-wi://{principal}+{key.name}"] volCap
    match ← perform (.mountSensitiveWithoutSystemd source (.mount key) "lustre" options) with
    | none => return none
    | some err =>
      let _ ← unmountPath s (.mount key)
      return some ⟨.internal, s!"Could not mount {quote source} at " ++
        s!"{quote (Path.mount key).render} on node {s.nodeID}: {err.text}"⟩

/-- What identifies the user of an IAM volume, `vc[normalize(..)]` of the volume context. -/
structure Identity where
  podUID : String
  namespace_ : String
  saName : String
  deriving DecidableEq

/-- SOURCE: pkg/csi_driver/node.go:333-335 -/
def identityOf (s : NodeServer) (vc : StrMap) : Identity :=
  ⟨vc.get (normalize s.unicode keyPodUID), vc.get (normalize s.unicode keyPodNamespace),
    vc.get (normalize s.unicode keyServiceAccount)⟩

/-- SOURCE: pkg/csi_driver/node.go:348 -/
def principalOf (namespace_ saName : String) : String := s!"{namespace_}/{saName}"

/-- SOURCE: pkg/csi_driver/node.go:348-349 -/
def iamKey (s : NodeServer) (volumeID namespace_ saName : String) : Key :=
  s.computeHash (volumeID ++ principalOf namespace_ saName)

/-- The service account token of the volume context, for the audience of the project.
SOURCE: pkg/csi_driver/node.go:366-377 -/
def serviceToken (s : NodeServer) (volumeID : String) (key : Key) (vc : StrMap) :
    Except Status String :=
  match vc.lookup (normalize s.unicode keyServiceToken) with
  | none => .error ⟨.invalidArgument, s!"token not found for IAM volume {volumeID}"⟩
  | some tokenJSON =>
    (parseToken s tokenJSON s!"{s.project}.svc.id.goog").mapError fun err =>
      ⟨.invalidArgument, s!"failed to parse token for key {key.name}: {err}"⟩

/-- Directories, token and global mount of a key: the first half of `publishIAMVolume` under
the lock of the key.
SOURCE: pkg/csi_driver/node.go:360-395 -/
def ensureGlobalMount (s : NodeServer) (volumeID principal : String) (key : Key) (vc : StrMap)
    (volCap : VolumeCapability) : NodeM (Option Status) := do
  if let some err ← makeGlobalDirs key then
    return some ⟨.internal,
      s!"Failed to make global directories for key {key.name}: {err.text}"⟩
  match serviceToken s volumeID key vc with
  | .error err => return some err
  | .ok token =>
    if let some err ← updateTokenFile key token then
      return some ⟨.internal, s!"failed to update token file: {err.text}"⟩
    match ← isMounted (.mount key) with
    | .error err => return some err
    | .ok true => return none
    | .ok false => mountGlobalIAM s volumeID principal key vc volCap

/-- Reference and bind mount of a pod: the second half of `publishIAMVolume`.
SOURCE: pkg/csi_driver/node.go:397-416 -/
def bindPod (s : NodeServer) (volumeID targetPath : String) (targetMounted : Bool)
    (podUID : String) (key : Key) (options : List String) : NodeM (Option Status) := do
  if let some err ← addPodReference key podUID volumeID then
    return some ⟨.internal, s!"Failed to add pod reference: {err.text}"⟩
  if targetMounted then return none
  match ← perform (.mountSensitiveWithoutSystemd (Path.mount key).render (.outside targetPath)
      "lustre" options) with
  | none => return none
  | some err =>
    let _ ← removePodReference key podUID
    let _ ← unmountPath s (.outside targetPath)
    return some ⟨.internal, s!"Bind mount failed for volume {quote volumeID} to target path " ++
      s!"{quote targetPath}: {err.text}"⟩

/-- SOURCE: pkg/csi_driver/node.go:332-417 -/
def publishIAMVolume (s : NodeServer) (volumeID targetPath : String) (targetMounted : Bool)
    (vc : StrMap) (options : List String) (volCap : VolumeCapability) :
    NodeM (Option Status) := do
  let id := identityOf s vc
  if id.podUID = "" then
    return some ⟨.invalidArgument, s!"Pod UID not provided for {volumeID}"⟩
  if id.namespace_ = "" then
    return some ⟨.invalidArgument, s!"Pod namespace not provided for {volumeID}"⟩
  if id.saName = "" then
    return some ⟨.invalidArgument, s!"Service account name not provided for {volumeID}"⟩
  let key := iamKey s volumeID id.namespace_ id.saName
  withLock key.name ⟨.aborted, s!"Operation exists for key {key.name}"⟩ do
    if let some err ← ensureGlobalMount s volumeID (principalOf id.namespace_ id.saName) key vc
        volCap then return some err
    bindPod s volumeID targetPath targetMounted id.podUID key options

/-! ## NodePublishVolume and NodeUnpublishVolume -/

/-- SOURCE: pkg/csi_driver/node.go:266 -/
def isIAM (s : NodeServer) (vc : StrMap) : Bool :=
  equalFoldTrue (vc.get (normalize s.unicode keyIAMAccessControlEnabled))

/-- The options of the bind mount.
SOURCE: pkg/csi_driver/node.go:273-286 -/
def bindOptions (readonly : Bool) (volCap : VolumeCapability) : List String :=
  addMountFlags (["bind"] ++ if readonly then ["ro"] else []) volCap

/-- The mounts of `NodePublishVolume`, for an IAM volume and for a staged one.
SOURCE: pkg/csi_driver/node.go:305-316 -/
def publishMounts (s : NodeServer) (req : NodePublishVolumeRequest) (vc : StrMap)
    (volCap : VolumeCapability) (targetMounted : Bool) : NodeM (Option Status) := do
  let options := bindOptions req.readonly volCap
  if isIAM s vc then
    publishIAMVolume s req.volumeID req.targetPath targetMounted vc options volCap
  else if targetMounted then return none
  else
    let err ← perform (.mountSensitiveWithoutSystemd req.stagingTargetPath
      (.outside req.targetPath) "lustre" options)
    return err.map fun e => ⟨.internal, s!"Legacy bind mount failed: {e.text}"⟩

/-- The change of ownership that ends `NodePublishVolume`, and its cleanup.
SOURCE: pkg/csi_driver/node.go:318-325 -/
def publishOwnership (s : NodeServer) (target : Path) (fsGroup : String) (readonly : Bool) :
    NodeM (Option Status) := do
  match ← setVolumeOwnershipTopLevel target fsGroup readonly with
  | none => return none
  | some err =>
    let _ ← unmountPath s target
    return some ⟨.internal, err⟩

/-- The part of `NodePublishVolume` that holds the lock of the target path.
SOURCE: pkg/csi_driver/node.go:273-328 -/
def publishLocked (s : NodeServer) (req : NodePublishVolumeRequest) (vc : StrMap)
    (volCap : VolumeCapability) : NodeM (Option Status) := do
  let target := Path.outside req.targetPath
  if let some err ← makeDir target then
    return some ⟨.internal,
      s!"Could not create dir {quote req.targetPath} on node {s.nodeID}: {err.text}"⟩
  match ← isMounted target with
  | .error err => return some err
  | .ok targetMounted =>
    if let some err ← publishMounts s req vc volCap targetMounted then return some err
    publishOwnership s target volCap.volumeMountGroup req.readonly

/-- The checks that `NodePublishVolume` makes before it takes a lock, and the volume context
and capability that they yield.
SOURCE: pkg/csi_driver/node.go:236-264 -/
def validatePublish (s : NodeServer) (req : NodePublishVolumeRequest) :
    Except Status (StrMap × VolumeCapability) :=
  if req.volumeID = "" then .error ⟨.invalidArgument, "Volume ID not provided"⟩
  else if req.stagingTargetPath = "" then
    .error ⟨.invalidArgument, "Staging target path not provided"⟩
  else if req.targetPath = "" then .error ⟨.invalidArgument, "Target path not provided"⟩
  else
    match req.volumeCapability with
    | none => .error ⟨.invalidArgument, "Volume capability not provided"⟩
    | some volCap =>
      match validateVolumeCapabilities [some volCap] with
      | some err => .error ⟨.invalidArgument, err⟩
      | none =>
        match normalizeVolumeContext s.unicode req.volumeContext with
        | .error err => .error ⟨.invalidArgument, err⟩
        | .ok vc => .ok (vc, volCap)

/-- SOURCE: pkg/csi_driver/node.go:235-329 -/
def nodePublishVolume (s : NodeServer) (req : NodePublishVolumeRequest) :
    NodeM (Option Status) :=
  match validatePublish s req with
  | .error err => return some err
  | .ok (vc, volCap) =>
    withLock req.targetPath ⟨.aborted, volumeOperationAlreadyExists req.targetPath⟩
      (publishLocked s req vc volCap)

/-- `/pods/([^/]+)/volumes`
SOURCE: pkg/csi_driver/node.go:60 -/
def podUIDRegex : Regex :=
  .cat [.lit "/pods/", .grp (.rep notSlash 1 none), .lit "/volumes"]

/-- SOURCE: pkg/csi_driver/node.go:830-837 -/
def getPodUIDFromTargetPath (path : String) : Option String :=
  (podUIDRegex.find path).bind List.head?

/-- The directories of a list of keys in which the name is found. -/
def keysListing (dirOf : Key → Path) (name : String) : List Key → NodeM (List Key)
  | [] => return []
  | k :: ks => do
    let names : List String ← perform (.readDirNames (dirOf k))
    let rest ← keysListing dirOf name ks
    return if name ∈ names then k :: rest else rest

/-- `filepath.Glob(globalMountRoot/*/refs/<podUID>)`: level by level, where a directory that
cannot be read counts as empty.
SOURCE: pkg/csi_driver/node.go:846-851 -/
def globPodReferences (podUID : String) : NodeM (List Path) := do
  let ks ← perform .readRoot
  let ks ← keysListing .keyDir "refs" ks
  let ks ← keysListing .refs podUID ks
  return ks.map (.ref · podUID)

/-- A separator of `iamKeyExtractRegex`. -/
def isSeparator (c : Char) : Bool := c == '/' || c == '\\'

def notSeparator (c : Char) : Bool := !isSeparator c

/-- `[/\\]([^/\\]+)[/\\]refs[/\\][^/\\]+$`
SOURCE: pkg/csi_driver/node.go:59 -/
def iamKeyExtractRegex : Regex :=
  .cat [.cls isSeparator, .grp (.rep notSeparator 1 none), .cls isSeparator, .lit "refs",
    .cls isSeparator, .rep notSeparator 1 none, .eot]

/-- The key with the given name. -/
def keyNamed (name : String) : Option Key :=
  if h : name.toList ≠ [] ∧ (name.toList.all fun c => c ∈ "0123456789abcdef".toList) = true then
    some ⟨name, h.1, hex_of_all h.2⟩
  else none

/-- The key of a reference path.
SOURCE: pkg/csi_driver/node.go:857-863 -/
def extractKey (refPath : Path) : Option Key :=
  ((iamKeyExtractRegex.find refPath.render).bind List.head?).bind keyNamed

/-- The part of `cleanUpIAMReferenceForKey` after the reference has been removed: if `refs`
is empty now, the global mount goes too.
SOURCE: pkg/csi_driver/node.go:891-925 -/
def releaseGlobalMount (s : NodeServer) (key : Key) : NodeM (Option String) := do
  match ← perform (.remove (.refs key)) with
  | some err =>
    if err.kind = .notExist then return none
    else if err.kind = .notEmpty then return none
    else return some <|
      s!"unexpected error checking refs directory {quote (Path.refs key).render}: {err.text}"
  | none =>
    match ← unmountPath s (.mount key) with
    | some err => return some <|
        s!"failed to unmount global path {quote (Path.mount key).render}: {err.error}"
    | none =>
      let err ← perform (.removeAll key)
      return err.map fun e =>
        s!"failed to clean up global directories for key {key.name}: {e.text}"

/-- SOURCE: pkg/csi_driver/node.go:879-926 -/
def cleanUpIAMReferenceForKey (s : NodeServer) (key : Key) (refPath : Path) :
    NodeM (Option String) :=
  withLock key.name s!"could not acquire lock for key {key.name}; operation in progress" do
    let err ← perform (.remove refPath)
    match unlessNotExist err with
    | some e => return some s!"failed to remove pod reference {quote refPath.render}: {e.text}"
    | none => releaseGlobalMount s key

/-- The loop of `cleanUpIAMReference`, which collects the errors.
SOURCE: pkg/csi_driver/node.go:853-870 -/
def cleanUpReferences (s : NodeServer) : List Path → NodeM (List String)
  | [] => return []
  | refPath :: rest =>
    match extractKey refPath with
    | none => cleanUpReferences s rest
    | some key => do
      let err ← cleanUpIAMReferenceForKey s key refPath
      let errs ← cleanUpReferences s rest
      return err.toList ++ errs

/-- SOURCE: pkg/csi_driver/node.go:839-877 -/
def cleanUpIAMReference (s : NodeServer) (targetPath : String) : NodeM (Option String) := do
  match getPodUIDFromTargetPath targetPath with
  | none => return none
  | some podUID =>
    let refPaths ← globPodReferences podUID
    let errs ← cleanUpReferences s refPaths
    return if errs = [] then none else some ("\n".intercalate errs)

/-- The part of `NodeUnpublishVolume` that holds the lock of the target path.
SOURCE: pkg/csi_driver/node.go:490-499 -/
def unpublishLocked (s : NodeServer) (targetPath : String) : NodeM (Option Status) := do
  if let some err ← unmountPath s (.outside targetPath) then return some err
  let err ← cleanUpIAMReference s targetPath
  return err.map fun text =>
    ⟨.internal, s!"failed to clean up IAM reference directories: {text}"⟩

/-- SOURCE: pkg/csi_driver/node.go:477-500 -/
def nodeUnpublishVolume (s : NodeServer) (req : NodeUnpublishVolumeRequest) :
    NodeM (Option Status) := do
  if req.targetPath = "" then
    return some ⟨.invalidArgument, "NodeUnpublishVolume target path must be provided"⟩
  withLock req.targetPath ⟨.aborted, volumeOperationAlreadyExists req.targetPath⟩
    (unpublishLocked s req.targetPath)

/-! ## NodeStageVolume and NodeUnstageVolume -/

/-- The checks that `NodeStageVolume` makes before it takes a lock; what is to be mounted, address,
file system and capability, or nothing for an IAM volume, whose path and capability are not looked
at.
SOURCE: pkg/csi_driver/node.go:96-147 -/
def validateStage (s : NodeServer) (req : NodeStageVolumeRequest) :
    Except Status (Option (String × String × VolumeCapability)) :=
  if req.volumeID = "" then .error ⟨.invalidArgument, "Volume ID not provided"⟩
  else
    match normalizeVolumeContext s.unicode req.volumeContext with
    | .error err => .error ⟨.invalidArgument, err⟩
    | .ok vc =>
      -- Unlike `mountGlobalIAM` this reads two of the keys as they are.
      match lustreEndpoint (vc.get keyInstanceIP) (vc.get keyFilesystem)
          (vc.get (normalize s.unicode keyMountPoint)) with
      | .error err => .error err
      | .ok (ip, fsname) =>
        if toLower s.unicode (vc.get (normalize s.unicode keyIAMAccessControlEnabled)) = "true" then
          .ok none
        else if req.stagingTargetPath = "" then
          .error ⟨.invalidArgument, "Target path not provided"⟩
        else
          match req.volumeCapability with
          | none => .error ⟨.invalidArgument, "Volume capability not provided"⟩
          | some volCap =>
            match validateVolumeCapabilities [some volCap] with
            | some err => .error ⟨.invalidArgument, s!"Volume capability validation failed: {err}"⟩
            | none => .ok (some (ip, fsname, volCap))

/-- Make the staging directory and mount the file system there; a failed mount is cleaned up.
SOURCE: pkg/csi_driver/node.go:184-203 -/
def mountStaged (s : NodeServer) (targetPath ip fsname : String) (volCap : VolumeCapability) :
    NodeM (Option Status) := do
  let target := Path.outside targetPath
  if let some err ← makeDir target then
    return some ⟨.internal, s!"Could not create dir {targetPath} on node {s.nodeID}: {err.text}"⟩
  let source := lustreSource ip fsname
  match ← perform (.mountSensitiveWithoutSystemd source target "lustre" (addMountFlags [] volCap)) with
  | none => return none
  | some err =>
    let _ ← unmountPath s target
    return some ⟨.internal, s!"Could not mount {quote source} at {quote targetPath} on node " ++
      s!"{s.nodeID}: {err.text}"⟩

/-- The part of `NodeStageVolume` that holds the lock of the staging path.
SOURCE: pkg/csi_driver/node.go:154-208 -/
def stageLocked (s : NodeServer) (req : NodeStageVolumeRequest) (ip fsname : String)
    (volCap : VolumeCapability) : NodeM (Option Status) := do
  match ← isMounted (.outside req.stagingTargetPath) with
  | .error err => return some ⟨.internal, s!"Could not check if {quote req.stagingTargetPath} is " ++
      s!"mounted on node {s.nodeID}: {err.error}"⟩
  | .ok true => return none
  | .ok false =>
    match ← hasMountWithSameFSName fsname with
    | .error err => return some ⟨.internal, "Could not check if there is an existing mountpoint " ++
        s!"with the same Lustre filesystem name {fsname} on node {s.nodeID}: {err.text}"⟩
    | .ok true => return some ⟨.alreadyExists, "A mountpoint with the same lustre filesystem " ++
        s!"name {quote fsname} already exists on node {s.nodeID}. Please mount different lustre " ++
        "filesystems"⟩
    | .ok false =>
      if let some err ← setUpMultiNIC s req.volumeID ip then return some err
      mountStaged s req.stagingTargetPath ip fsname volCap

/-- SOURCE: pkg/csi_driver/node.go:96-208 -/
def nodeStageVolume (s : NodeServer) (req : NodeStageVolumeRequest) : NodeM (Option Status) :=
  match validateStage s req with
  | .error err => return some err
  | .ok none => return none
  | .ok (some (ip, fsname, volCap)) =>
    withLock req.stagingTargetPath
      ⟨.aborted, volumeOperationAlreadyExists req.stagingTargetPath⟩ (stageLocked s req ip fsname volCap)

/-- SOURCE: pkg/csi_driver/node.go:210-234 -/
def nodeUnstageVolume (s : NodeServer) (req : NodeUnstageVolumeRequest) : NodeM (Option Status) :=
  if req.volumeID = "" then return some ⟨.invalidArgument, "Volume ID not provided"⟩
  else if req.stagingTargetPath = "" then
    return some ⟨.invalidArgument, "Staging target path not provided"⟩
  else
    withLock req.stagingTargetPath
      ⟨.aborted, volumeOperationAlreadyExists req.stagingTargetPath⟩
      (unmountPath s (.outside req.stagingTargetPath))

end LustreCsi.Model
