import LustreCsi.Computation.Program
import LustreCsi.Model.Status
import Mathlib.Data.List.AList
import Mathlib.Data.Finset.Insert
import Mathlib.Data.Finset.Erase

/-!
# The node: its file system, its mount table and the driver's lock set

The node handlers act on the node through the operations `Op`. `NodeState.exec` says what each may
do, as a function of the state and of a `Choice` of the environment: every fault is one choice, and
a run is replayed from its list of choices.

Below `globalMountRoot` the driver keeps one directory for each IAM key,

    <key>/mount   the mount point of the per-principal Lustre mount
    <key>/refs/   one file for each pod that uses the mount, named by the pod's UID
    <key>/token   the service account token, written through <key>/token.tmp

and nothing else lives there. All other directories the handlers touch are kubelet's target and
staging paths, `Path.outside`. A pod UID is one path component, without glob metacharacter. The
mount table (`Op.list`) is read from `/proc/mounts`, where the kernel writes white space and
backslashes as octal escapes; it is listed here as it is, for devices whose names need no escapes.
-/

set_option autoImplicit false

namespace LustreCsi.Model

open LustreCsi.Computation

/-- The name of an IAM key: a non-empty string of hexadecimal digits, as
`hex.EncodeToString` prints a digest.
SOURCE: pkg/csi_driver/utils.go:150-155 -/
structure Key where
  name : String
  nonempty : name.toList ≠ []
  hex : ∀ c ∈ name.toList, c ∈ "0123456789abcdef".toList
  deriving DecidableEq

/-- The test for hexadecimal digits as a statement about all characters. -/
theorem hex_of_all {name : String}
    (h : (name.toList.all fun c => c ∈ "0123456789abcdef".toList) = true) :
    ∀ c ∈ name.toList, c ∈ "0123456789abcdef".toList := fun c hc => by
  simpa using List.all_eq_true.mp h c hc

/-- SOURCE: pkg/csi_driver/node.go:57 -/
def globalMountRoot : String := "/var/lib/lustre/mounts"

/-- The paths that the node handlers build: kubelet's own, and what `filepath.Join` makes
from `globalMountRoot` and a key.
SOURCE: pkg/csi_driver/node.go:350, 772-773, 784-785, 813, 893, 913, 920 -/
inductive Path where
  | outside (p : String)
  | keyDir (k : Key)
  | mount (k : Key)
  | refs (k : Key)
  | ref (k : Key) (podUID : String)
  | token (k : Key)
  | tokenTmp (k : Key)
  deriving DecidableEq

/-- The path as the string that the code handles. -/
def Path.render : Path → String
  | .outside p => p
  | .keyDir k => globalMountRoot ++ "/" ++ k.name
  | .mount k => globalMountRoot ++ "/" ++ k.name ++ "/mount"
  | .refs k => globalMountRoot ++ "/" ++ k.name ++ "/refs"
  | .ref k podUID => globalMountRoot ++ "/" ++ k.name ++ "/refs/" ++ podUID
  | .token k => globalMountRoot ++ "/" ++ k.name ++ "/token"
  | .tokenTmp k => globalMountRoot ++ "/" ++ k.name ++ "/token.tmp"

/-- The key whose directory the path lies in. -/
def Path.key? : Path → Option Key
  | .outside _ => none
  | .keyDir k => some k
  | .mount k => some k
  | .refs k => some k
  | .ref k _ => some k
  | .token k => some k
  | .tokenTmp k => some k

/-- Group and mode of a directory. -/
structure Attr where
  gid : Int
  mode : ℕ
  deriving DecidableEq

/-- The group that `lchown` leaves: the id is cut to 32 bits, and all ones mean no change. -/
def chownGroup (group gid : Int) : Int :=
  if gid % 0x100000000 = 0xffffffff then group else gid % 0x100000000

/-- One line of the mount table. -/
structure MountPoint where
  device : String
  path : Path
  fstype : String
  opts : List String
  deriving DecidableEq

/-- The directory of a key: whether `mount` exists, the files in `refs` with their content
if that directory exists, and the contents of `token` and `token.tmp`. -/
structure KeyDir where
  mount : Bool
  refs : Option (AList fun _ : String => String)
  token : Option String
  tokenTmp : Option String

/-- A key directory just created. -/
def KeyDir.empty : KeyDir := ⟨false, none, none, none⟩

/-- The state of a node as far as the handlers can see it. The mount table lists the newest
mount first; `rootAttrs` gives group and mode of the root directory of each mounted file
system; `wiped` collects the devices of mounted file systems whose files a recursive removal
has deleted. -/
structure NodeState where
  locks : Finset String
  outside : String → Option Attr
  keys : AList fun _ : Key => KeyDir
  mounts : List MountPoint
  rootAttrs : String → Attr
  wiped : List String

namespace NodeState

/-- The directory of a key, if it exists. -/
def dir (s : NodeState) (k : Key) : Option KeyDir := s.keys.lookup k

/-- What is mounted on the path, the topmost mount first. -/
def mountsAt (s : NodeState) (p : Path) : List MountPoint := s.mounts.filter fun m => m.path = p

/-- Something is mounted on the path. -/
def mounted (s : NodeState) (p : Path) : Bool := !(s.mountsAt p).isEmpty

/-- The path exists in the local file system. -/
def pathPresent (s : NodeState) : Path → Bool
  | .outside p => (s.outside p).isSome
  | .keyDir k => (s.dir k).isSome
  | .mount k => (s.dir k).any (·.mount)
  | .refs k => (s.dir k).any (·.refs.isSome)
  | .ref k u => (s.dir k).any (·.refs.any fun rs => u ∈ rs)
  | .token k => (s.dir k).any (·.token.isSome)
  | .tokenTmp k => (s.dir k).any (·.tokenTmp.isSome)

/-- The directory is not empty; only mount points lie in kubelet's directories, and nothing
lies below a `mount` that is not mounted. -/
def dirInUse (s : NodeState) : Path → Bool
  | .keyDir k =>
    (s.dir k).any fun d => d.mount || d.refs.isSome || d.token.isSome || d.tokenTmp.isSome
  | .refs k => (s.dir k).any (·.refs.any fun rs => !rs.keys.isEmpty)
  | _ => false

/-- Change the directory of a key, creating it if it is missing. -/
def modifyKey (s : NodeState) (k : Key) (f : KeyDir → KeyDir) : NodeState :=
  { s with keys := s.keys.insert k (f ((s.dir k).getD .empty)) }

/-- Create a directory and its parents. -/
def mkdirAll (s : NodeState) : Path → NodeState
  | .outside p =>
    if (s.outside p).isSome then s
    else { s with outside := Function.update s.outside p (some ⟨0, 0o755⟩) }
  | .keyDir k => s.modifyKey k id
  | .mount k => s.modifyKey k fun d => { d with mount := true }
  | .refs k => s.modifyKey k fun d => { d with refs := some (d.refs.getD ∅) }
  | .ref _ _ => s
  | .token _ => s
  | .tokenTmp _ => s

/-- Remove one file or empty directory. -/
def erase (s : NodeState) : Path → NodeState
  | .outside p => { s with outside := Function.update s.outside p none }
  | .keyDir k => { s with keys := s.keys.erase k }
  | .mount k => s.modifyKey k fun d => { d with mount := false }
  | .refs k => s.modifyKey k fun d => { d with refs := none }
  | .ref k u => s.modifyKey k fun d => { d with refs := d.refs.map (·.erase u) }
  | .token k => s.modifyKey k fun d => { d with token := none }
  | .tokenTmp k => s.modifyKey k fun d => { d with tokenTmp := none }

/-- Take the topmost mount off the path. -/
def detach (s : NodeState) (p : Path) : NodeState :=
  { s with mounts := s.mounts.eraseP fun m => m.path = p }

/-- The device that a mount will show: the source itself, or for a bind mount the device
mounted at the source. -/
def deviceOf (s : NodeState) (source : String) (options : List String) : String :=
  if "bind" ∈ options then
    ((s.mounts.find? fun m => m.path.render = source).map (·.device)).getD source
  else source

/-- Put a new mount on top of the path. -/
def attach (s : NodeState) (source : String) (target : Path) (fstype : String)
    (options : List String) : NodeState :=
  { s with mounts := ⟨s.deviceOf source options, target, fstype, options⟩ :: s.mounts }

/-- The device of the topmost mount on the path. -/
def topDevice (s : NodeState) (p : Path) : Option String :=
  (s.mounts.find? fun m => m.path = p).map (·.device)

/-- Group and mode seen at a path: those of the mounted root, or of the directory itself. -/
def attrAt (s : NodeState) (p : Path) : Option Attr :=
  match s.topDevice p, p with
  | some d, _ => some (s.rootAttrs d)
  | none, .outside q => s.outside q
  | none, _ => none

/-- Change group and mode at a path. -/
def setAttr (s : NodeState) (p : Path) (a : Attr) : NodeState :=
  match s.topDevice p, p with
  | some d, _ => { s with rootAttrs := Function.update s.rootAttrs d a }
  | none, .outside q => { s with outside := Function.update s.outside q (some a) }
  | none, _ => s

/-- The content of a file. -/
def content (s : NodeState) : Path → Option String
  | .ref k u => (s.dir k).bind (·.refs.bind (·.lookup u))
  | .token k => (s.dir k).bind (·.token)
  | .tokenTmp k => (s.dir k).bind (·.tokenTmp)
  | _ => none

/-- The directory a file is created in exists. -/
def parentPresent (s : NodeState) : Path → Bool
  | .ref k _ => s.pathPresent (.refs k)
  | .token k => (s.dir k).isSome
  | .tokenTmp k => (s.dir k).isSome
  | _ => false

/-- Give a file, whose directory exists, a content. -/
def putFile (s : NodeState) (p : Path) (text : String) : NodeState :=
  match p with
  | .ref k u => s.modifyKey k fun d => { d with refs := d.refs.map (·.insert u text) }
  | .token k => s.modifyKey k fun d => { d with token := some text }
  | .tokenTmp k => s.modifyKey k fun d => { d with tokenTmp := some text }
  | _ => s

/-- The names in a directory. -/
def names (s : NodeState) : Path → List String
  | .keyDir k =>
    match s.dir k with
    | none => []
    | some d =>
      (if d.mount then ["mount"] else []) ++ (if d.refs.isSome then ["refs"] else []) ++
        (if d.token.isSome then ["token"] else []) ++
        (if d.tokenTmp.isSome then ["token.tmp"] else [])
  | .refs k => ((s.dir k).bind (·.refs)).elim [] (·.keys)
  | _ => []

/-- Files of the file system mounted on the path are deleted. -/
def wipe (s : NodeState) (p : Path) : NodeState :=
  match s.topDevice p with
  | none => s
  | some d => { s with wiped := d :: s.wiped }

end NodeState

/-! ## The operations -/

/-- What the handlers ask of the node: the lock set, the `os` and `filepath` calls, the
mounter, the `umount` command and the set-up of additional NICs. -/
inductive Op where
  | tryAcquire (name : String)
  | release (name : String)
  | mkdirAll (p : Path)
  | isLikelyNotMountPoint (p : Path)
  | stat (p : Path)
  | unmount (p : Path)
  | mountSensitiveWithoutSystemd (source : String) (target : Path) (fstype : String)
      (options : List String)
  | umount (flags : List String) (target : Path)
  | remove (p : Path)
  | removeAll (k : Key)
  | openTrunc (p : Path)
  | write (p : Path) (data : String)
  | renameToken (k : Key)
  | readRoot
  | readDirNames (p : Path)
  | lstat (p : Path)
  | lchown (p : Path) (gid : Int)
  | chmod (p : Path) (mode : ℕ)
  | setUpMultiNIC (volumeID : String) (ip : String)
  | list
  deriving DecidableEq

/-- The answers. `IsLikelyNotMountPoint` answers `true` beside every error, so that an error
alone is kept; `umount` answers its output and its error. -/
abbrev Op.Res : Op → Type
  | .tryAcquire _ => Bool
  | .release _ => Unit
  | .mkdirAll _ => Option OsError
  | .isLikelyNotMountPoint _ => Except OsError Bool
  | .stat _ => Option OsError
  | .unmount _ => Option OsError
  | .mountSensitiveWithoutSystemd _ _ _ _ => Option OsError
  | .umount _ _ => String × Option String
  | .remove _ => Option OsError
  | .removeAll _ => Option OsError
  | .openTrunc _ => Option OsError
  | .write _ _ => Except OsError ℕ
  | .renameToken _ => Option OsError
  | .readRoot => List Key
  | .readDirNames _ => List String
  | .lstat _ => Except OsError Attr
  | .lchown _ _ => Option OsError
  | .chmod _ _ => Option OsError
  | .setUpMultiNIC _ _ => Option Status
  | .list => Except OsError (List MountPoint)

/-- The signature of the node handlers. -/
abbrev nodeSig : Sig := ⟨Op, Op.Res⟩

/-- The parts of a key directory that a recursive removal had deleted when it failed. -/
structure Removed where
  mount : Bool
  refs : Bool
  token : Bool
  tokenTmp : Bool

/-- What the environment chooses when an operation is performed. -/
inductive Choice where
  /-- The call does its work, as far as the state allows it. -/
  | ok
  /-- The call fails; `applied` says whether its effect took place nevertheless. -/
  | fail (text : String) (applied : Bool)
  /-- The call fails with an error that `IsCorruptedMnt` accepts. -/
  | stale (text : String)
  /-- The mount-point probe gives this answer, whatever is mounted. -/
  | probe (answer : Except OsError Bool)
  /-- The `umount` command ends with this output and error. -/
  | umounted (out : String) (err : Option String) (detached : Bool)
  /-- A recursive removal fails after having deleted these parts. -/
  | removed (parts : Removed) (text : String)
  /-- A write stores the first `n` characters. -/
  | wrote (n : ℕ)
  /-- Reading `globalMountRoot` yields these names. -/
  | keys (ks : List Key)
  /-- Reading a directory yields these names. -/
  | names (ns : List String)
  /-- The NIC set-up ends with this error. -/
  | nic (err : Option Status)

namespace NodeState

/-- Delete parts of a key directory. A mount point cannot be removed; what lies under it is
deleted all the same. -/
def removeParts (s : NodeState) (k : Key) (parts : Removed) : NodeState :=
  let s' := if parts.mount then s.wipe (.mount k) else s
  s'.modifyKey k fun d =>
    ⟨d.mount && !(parts.mount && !s.mounted (.mount k)), if parts.refs then none else d.refs,
      if parts.token then none else d.token, if parts.tokenTmp then none else d.tokenTmp⟩

/-- `os.Remove`: a missing path, a non-empty directory and a mount point are refused. -/
def removeOne (s : NodeState) (p : Path) : Option OsError × NodeState :=
  if !s.pathPresent p then (some ⟨.notExist, "no such file or directory"⟩, s)
  else if s.dirInUse p then (some ⟨.notEmpty, "directory not empty"⟩, s)
  else if s.mounted p then (some ⟨.other, "device or resource busy"⟩, s)
  else (none, s.erase p)

/-- What an operation does in a state, given the environment's choice; `none` when the choice
is not one the operation has. -/
def exec (s : NodeState) : (o : Op) → Choice → Option (o.Res × NodeState)
  | .tryAcquire x, .ok =>
    if x ∈ s.locks then some (false, s) else some (true, { s with locks := insert x s.locks })
  | .release x, .ok => some ((), { s with locks := s.locks.erase x })
  | .mkdirAll p, .ok => some (none, s.mkdirAll p)
  | .mkdirAll p, .fail text applied =>
    some (some ⟨.other, text⟩, if applied then p.key?.elim s (s.mkdirAll <| .keyDir ·) else s)
  | .isLikelyNotMountPoint _, .probe answer => some (answer, s)
  | .stat p, .ok =>
    some (if s.pathPresent p then none else some ⟨.notExist, "no such file or directory"⟩, s)
  | .stat _, .fail text _ => some (some ⟨.other, text⟩, s)
  | .stat _, .stale text => some (some ⟨.corrupted, text⟩, s)
  | .unmount p, .ok => some (none, s.detach p)
  | .unmount p, .fail text applied =>
    some (some ⟨.other, text⟩, if applied then s.detach p else s)
  | .mountSensitiveWithoutSystemd source target fstype options, .ok =>
    if s.pathPresent target then some (none, s.attach source target fstype options)
    else some (some ⟨.other, "mount point does not exist"⟩, s)
  | .mountSensitiveWithoutSystemd source target fstype options, .fail text applied =>
    some (some ⟨.other, text⟩,
      if applied && s.pathPresent target then s.attach source target fstype options else s)
  | .umount _ p, .umounted out none _ => if s.mounted p then some ((out, none), s.detach p) else none
  | .umount _ p, .umounted out (some err) detached =>
    some ((out, some err), if detached then s.detach p else s)
  | .remove p, .ok => some (s.removeOne p)
  | .remove _, .fail text _ => some (some ⟨.other, text⟩, s)
  | .removeAll k, .ok =>
    if (s.dir k).isNone then some (none, s)
    else if s.mounted (.mount k) then
      some (some ⟨.other, "device or resource busy"⟩, s.removeParts k ⟨true, true, true, true⟩)
    else some (none, { s with keys := s.keys.erase k })
  | .removeAll k, .removed parts text =>
    if (s.dir k).isNone then none else some (some ⟨.other, text⟩, s.removeParts k parts)
  | .openTrunc p, .ok =>
    if s.parentPresent p then some (none, s.putFile p "")
    else some (some ⟨.notExist, "no such file or directory"⟩, s)
  | .openTrunc _, .fail text _ => some (some ⟨.other, text⟩, s)
  | .write p data, .wrote n =>
    if n ≤ data.length then
      -- Nothing is seen of what is written to a file that has been unlinked meanwhile.
      some (.ok n, match s.content p with
        | some old => s.putFile p (old ++ String.ofList (data.toList.take n))
        | none => s)
    else none
  | .write p data, .fail text applied =>
    -- With the effect, the error is that of closing the file after a complete write.
    some (.error ⟨.other, text⟩, if applied then
        match s.content p with
        | some old => s.putFile p (old ++ data)
        | none => s
      else s)
  | .renameToken k, .ok =>
    match s.content (.tokenTmp k) with
    | some text => some (none, (s.putFile (.token k) text).erase (.tokenTmp k))
    | none => some (some ⟨.notExist, "no such file or directory"⟩, s)
  | .renameToken _, .fail text _ => some (some ⟨.other, text⟩, s)
  | .readRoot, .keys ks => if ks.Nodup ∧ ∀ k ∈ ks, k ∈ s.keys then some (ks, s) else none
  | .readDirNames p, .names ns => if ns.Nodup ∧ ∀ n ∈ ns, n ∈ s.names p then some (ns, s) else none
  | .lstat p, .ok =>
    some (match s.attrAt p with
      | some a => .ok a
      | none => .error ⟨.notExist, "no such file or directory"⟩, s)
  | .lstat _, .fail text _ => some (.error ⟨.other, text⟩, s)
  | .lchown p gid, .ok =>
    match s.attrAt p with
    | some a => some (none, s.setAttr p { a with gid := chownGroup a.gid gid })
    | none => some (some ⟨.notExist, "no such file or directory"⟩, s)
  | .lchown _ _, .fail text _ => some (some ⟨.other, text⟩, s)
  | .chmod p mode, .ok =>
    match s.attrAt p with
    | some a => some (none, s.setAttr p { a with mode := mode })
    | none => some (some ⟨.notExist, "no such file or directory"⟩, s)
  | .chmod _ _, .fail text _ => some (some ⟨.other, text⟩, s)
  | .setUpMultiNIC _ _, .nic err => some (err, s)
  | .list, .ok => some (.ok s.mounts.reverse, s)
  | .list, .fail text _ => some (.error ⟨.other, text⟩, s)
  | _, _ => none

/-- What the node may do when an operation is performed: any choice of the environment. -/
def step (s : NodeState) (o : nodeSig.Op) (r : nodeSig.Res o) (s' : NodeState) : Prop :=
  stepOf (S := nodeSig) exec s o r s'

end NodeState

end LustreCsi.Model
