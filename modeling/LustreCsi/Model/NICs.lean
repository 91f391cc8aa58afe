import Mathlib.Data.List.Sort
import Mathlib.Data.String.Basic
import LustreCsi.Model.KmodInstaller

/-!
# The network interfaces of LNet

The installer finds out which network interfaces of the node LNet is to use: `getStandardNICs` keeps
those in the network of the instance, `getPrimaryNIC` looks for the one that the metadata lists
first, `checkDisableMultiNIC` decides whether the others are used at all, and `lnetNetwork` is the
text for the kernel modules. The interfaces are enumerated twice, in whatever order the kernel has.
-/

set_option autoImplicit false

namespace LustreCsi.Model.NICs

open LustreCsi.Computation

/-! ## Addresses -/

/-- `net.HardwareAddr` -/
abbrev HardwareAddr : Type := List UInt8

/-- The two hexadecimal digits of a byte. -/
def hexByte (b : UInt8) : String :=
  String.ofList [Nat.digitChar (b.toNat / 16), Nat.digitChar (b.toNat % 16)]

/-- `HardwareAddr.String` -/
def HardwareAddr.text (a : HardwareAddr) : String := ":".intercalate (a.map hexByte)

/-- An interface in the metadata of the instance.
SOURCE: pkg/cloud_provider/metadata/metadata.go:27-30 -/
structure NetworkInterface where
  network : String
  mac : String
  deriving DecidableEq

/-! ## The environment -/

/-- What the installer asks the kernel, the metadata server and the cluster for. -/
inductive NICOp where
  /-- The names of the interfaces with a supported driver. -/
  | standardNICs
  | linkByName (name : String)
  | networkInterfaces
  /-- The labels of the node. -/
  | nodeLabels
  deriving DecidableEq

/-- The answers; an error is given by its text. -/
abbrev NICOp.Res : NICOp → Type
  | .standardNICs => Except String (List String)
  | .linkByName _ => Except String HardwareAddr
  | .networkInterfaces => Except String (List NetworkInterface)
  | .nodeLabels => Except String StrMap

abbrev nicSig : Sig := ⟨NICOp, NICOp.Res⟩

abbrev NICM : Type → Type := Program nicSig

def perform (o : NICOp) : NICM o.Res := Program.perform (S := nicSig) o

/-! ## The interfaces in the network of the instance -/

/-- `sort.Strings`; the order of code points is that of the bytes. -/
def sortStrings (l : List String) : List String := l.insertionSort (· ≤ ·)

/-- The map from lowered addresses to interfaces; of two with one address the later one counts.
SOURCE: pkg/network/network.go:200-203 -/
def metaNICMap (U : Unicode) (metaNICs : List NetworkInterface) :
    AList fun _ : String => NetworkInterface :=
  metaNICs.foldl (fun m metaNIC => m.insert (toLower U metaNIC.mac) metaNIC) ∅

/-- The loop over the interfaces; one without link is skipped.
SOURCE: pkg/network/network.go:205-224 -/
def collectValid (U : Unicode) (metaNICs : AList fun _ : String => NetworkInterface)
    (primaryNetwork : String) : List String → List String → NICM (List String)
  | validNICs, [] => return validNICs
  | validNICs, nic :: nics => do
    match ← perform (.linkByName nic) with
    | .error _ => collectValid U metaNICs primaryNetwork validNICs nics
    | .ok addr =>
      match metaNICs.lookup (toLower U addr.text) with
      | some metaNIC =>
        if metaNIC.network = primaryNetwork then
          collectValid U metaNICs primaryNetwork (validNICs ++ [nic]) nics
        else collectValid U metaNICs primaryNetwork validNICs nics
      | none => collectValid U metaNICs primaryNetwork validNICs nics

/-- SOURCE: pkg/network/network.go:182-229 -/
def validateNICs (U : Unicode) (nics : List String) : NICM (Except String (List String)) := do
  match ← perform .networkInterfaces with
  | .error err => return .error s!"failed to get network interfaces from metadata: {err}"
  | .ok [] =>
    return .error
      "no network interfaces found in instance metadata; cannot perform VPC validation"
  | .ok (primary :: rest) =>
    return .ok (← collectValid U (metaNICMap U (primary :: rest)) primary.network [] nics)

/-- The interfaces in the network of the instance, in sorted order; `mc` says whether there is a
metadata client.
SOURCE: pkg/network/network.go:156-178 -/
def getStandardNICs (U : Unicode) (mc : Bool) : NICM (Except String (List String)) := do
  match ← perform .standardNICs with
  | .error err => return .error err
  | .ok nics =>
    let nics := sortStrings nics
    if nics.length ≤ 1 then return .ok nics
    if !mc then
      return .error "metadata client is nil, cannot perform VPC validation for multi-NIC setup"
    validateNICs U nics

/-! ## The primary interface -/

/-- The loop over the interfaces.
SOURCE: pkg/network/network.go:253-264 -/
def findPrimary (U : Unicode) (primaryMAC : String) : List String → NICM (Option String)
  | [] => return none
  | nic :: nics => do
    match ← perform (.linkByName nic) with
    | .error _ => findPrimary U primaryMAC nics
    | .ok addr =>
      if toLower U addr.text = primaryMAC then return some nic else findPrimary U primaryMAC nics

/-- SOURCE: pkg/network/network.go:232-267 -/
def getPrimaryNIC (U : Unicode) (mc : Bool) : NICM (Except String String) := do
  if !mc then return .error "metadata client is nil, cannot identify primary NIC"
  match ← perform .networkInterfaces with
  | .error err => return .error s!"failed to get network interfaces from metadata: {err}"
  | .ok [] => return .error "no network interfaces found in instance metadata"
  | .ok (primary :: _) =>
    let primaryMAC := toLower U primary.mac
    match ← perform .standardNICs with
    | .error err => return .error s!"failed to get standard NICs: {err}"
    | .ok nics =>
      match ← findPrimary U primaryMAC nics with
      | some nic => return .ok nic
      | none =>
        return .error s!"no standard NIC found matching primary metadata MAC {primaryMAC}"

/-! ## Whether more than one interface is used -/

/-- SOURCE: pkg/network/network.go:38-39 -/
def multiNICLabel : String := "lustre.csi.storage.gke.io/multi-nic"

def multiNICLabelAlias : String := "lustre.csi.storage.gke.io/multi-rail"

/-- `strconv.ParseBool`; the value of a label has no character that is quoted. -/
def parseBool (s : String) : Except String Bool :=
  if s ∈ ["1", "t", "T", "true", "TRUE", "True"] then .ok true
  else if s ∈ ["0", "f", "F", "false", "FALSE", "False"] then .ok false
  else .error s!"strconv.ParseBool: parsing \"{s}\": invalid syntax"

/-- A label of the node counts more than the setting of the cluster.
SOURCE: pkg/network/network.go:402-423 -/
def multiNICDisabled (labels : StrMap) (disableMultiNIC : Bool) : Except String Bool :=
  match (labels.lookup multiNICLabel).or (labels.lookup multiNICLabelAlias) with
  | some val => (parseBool val).map (!·)
  | none => .ok disableMultiNIC

/-- SOURCE: pkg/network/network.go:390-424 -/
def checkDisableMultiNIC (nics : List String) (disableMultiNIC : Bool) : NICM (Except String Bool) := do
  if nics.length ≤ 1 then return .ok true
  match ← perform .nodeLabels with
  | .error err => return .error err
  | .ok labels => return multiNICDisabled labels disableMultiNIC

/-! ## The installer -/

/-- The text for the kernel modules, or why the installer ends without one.
SOURCE: cmd/kmod_installer/main.go:74-106 -/
def lnetNetwork (U : Unicode) (mc disableMultiNIC : Bool) : NICM (Except String String) := do
  match ← getStandardNICs U mc with
  | .error err => return .error s!"Failed to get standard NIC names: {err}"
  | .ok nics =>
    if nics.length = 0 then
      return .error "No standard NICs (gve, idpf, or virtio_net) found"
    match ← getPrimaryNIC U mc with
    | .error err => return .error s!"Failed to identify primary NIC: {err}"
    | .ok primaryNic =>
      match ← checkDisableMultiNIC nics disableMultiNIC with
      | .error err => return .error s!"Failed to check multi-NIC status: {err}"
      | .ok effectiveDisableMultiNIC =>
        return .ok (Kmod.buildLnetNetworkString nics primaryNic effectiveDisableMultiNIC)

end LustreCsi.Model.NICs
