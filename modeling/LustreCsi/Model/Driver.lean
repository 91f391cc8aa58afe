import LustreCsi.Model.Status
import Mathlib.Data.List.Basic

/-!
# What the node and the controller server share

The volume capabilities of the requests and their validation against the access modes that the
driver enables (`pkg/csi_driver/lustre_driver.go`), and the refusal of a volume lock.
-/

set_option autoImplicit false

namespace LustreCsi.Model

/-- SOURCE: pkg/csi_driver/lustre_driver.go:30 -/
def defaultName : String := "lustre.csi.storage.gke.io"

/-- The access modes of the CSI specification. -/
inductive AccessMode where
  | unknown | singleNodeWriter | singleNodeReaderOnly | multiNodeReaderOnly
  | multiNodeSingleWriter | multiNodeMultiWriter | singleNodeSingleWriter | singleNodeMultiWriter
  deriving DecidableEq, Repr

def AccessMode.text : AccessMode → String
  | .unknown => "UNKNOWN"
  | .singleNodeWriter => "SINGLE_NODE_WRITER"
  | .singleNodeReaderOnly => "SINGLE_NODE_READER_ONLY"
  | .multiNodeReaderOnly => "MULTI_NODE_READER_ONLY"
  | .multiNodeSingleWriter => "MULTI_NODE_SINGLE_WRITER"
  | .multiNodeMultiWriter => "MULTI_NODE_MULTI_WRITER"
  | .singleNodeSingleWriter => "SINGLE_NODE_SINGLE_WRITER"
  | .singleNodeMultiWriter => "SINGLE_NODE_MULTI_WRITER"

/-- The access type of a capability. -/
inductive AccessType where
  | block
  | mount (mountFlags : List String) (volumeMountGroup : String)
  deriving DecidableEq

structure VolumeCapability where
  accessMode : Option AccessMode
  accessType : Option AccessType
  deriving DecidableEq

/-- `GetMountFlags` of the mount type, none for other types. -/
def VolumeCapability.mountFlags (c : VolumeCapability) : List String :=
  match c.accessType with
  | some (.mount flags _) => flags
  | _ => []

/-- `GetVolumeMountGroup` of the mount type, empty for other types. -/
def VolumeCapability.volumeMountGroup (c : VolumeCapability) : String :=
  match c.accessType with
  | some (.mount _ group) => group
  | _ => ""

/-- The access modes that `NewLustreDriver` enables.
SOURCE: pkg/csi_driver/lustre_driver.go:75-82 -/
def supportedAccessModes : List AccessMode :=
  [.singleNodeWriter, .singleNodeReaderOnly, .multiNodeReaderOnly, .multiNodeSingleWriter,
    .multiNodeMultiWriter]

/-- SOURCE: pkg/csi_driver/lustre_driver.go:132-157 -/
def validateVolumeCapability : Option VolumeCapability → Option String
  | none => some "volume capability must be provided"
  | some c =>
    match c.accessMode with
    | none => some "volume capability access mode not set"
    | some mode =>
      if mode ∉ supportedAccessModes then
        some s!"driver does not support access mode: {mode.text}"
      else
        match c.accessType with
        | none => some "volume capability access type not set"
        | some .block => some "driver only supports mount access type volume capability"
        | some (.mount _ _) => none

/-- SOURCE: pkg/csi_driver/lustre_driver.go:118-130 -/
def validateVolumeCapabilities (caps : List (Option VolumeCapability)) : Option String :=
  if caps = [] then some "volume capabilities must be provided"
  else caps.findSome? validateVolumeCapability

/-- SOURCE: pkg/util/volume_lock.go:26 -/
def volumeOperationAlreadyExists (key : String) : String :=
  s!"An operation with the given volume key {key} already exists"

end LustreCsi.Model
