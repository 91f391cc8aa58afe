import LustreCsi.Model.Driver
import LustreCsi.Model.LustreService

/-!
# The controller server

The handlers `CreateVolume`, `DeleteVolume` and `ControllerExpandVolume` of
`pkg/csi_driver/controller.go`, with what they use of `pkg/csi_driver/volume.go` and
`pkg/util/util.go`. Capacities are `int64` values; a product that may overflow is reduced to that
range (`gibToBytes`). Log lines are left out.
-/

set_option autoImplicit false

namespace LustreCsi.Model

open LustreCsi.Computation

/-- What the handlers read of the driver's configuration and of the cloud provider, and the
Unicode tables.
SOURCE: pkg/csi_driver/lustre_driver.go:32-43, pkg/cloud_provider/lustre/cloud.go:33-37 -/
structure ControllerServer where
  driverName : String
  enableLegacyLustrePort : Bool
  project : String
  zone : String
  unicode : Unicode

/-! ## Requests and responses -/

structure CapacityRange where
  requiredBytes : Int
  limitBytes : Int
  deriving DecidableEq

/-- A topology; `segments` may be missing. -/
structure Topology where
  segments : Option StrMap

structure TopologyRequirement where
  requisite : List Topology
  preferred : List Topology

structure CreateVolumeRequest where
  name : String
  volumeCapabilities : List (Option VolumeCapability)
  capacityRange : Option CapacityRange
  parameters : StrMap
  accessibilityRequirements : Option TopologyRequirement

structure DeleteVolumeRequest where
  volumeID : String

structure ControllerExpandVolumeRequest where
  volumeID : String
  capacityRange : Option CapacityRange

structure Volume where
  volumeID : String
  capacityBytes : Int
  volumeContext : StrMap
  deriving DecidableEq

structure ControllerExpandVolumeResponse where
  capacityBytes : Int
  nodeExpansionRequired : Bool
  deriving DecidableEq

/-! ## Capacities -/

/-- SOURCE: pkg/util/util.go:29 -/
def gib : Int := 1024 * 1024 * 1024

/-- SOURCE: pkg/util/util.go:172-174 -/
def bytesToGib (bytes : Int) : Int := bytes.tdiv gib

/-- `n * util.Gib` on `int64`. -/
def gibToBytes (n : Int) : Int := (n * gib).bmod (Nat.pow 2 64)

/-- SOURCE: pkg/csi_driver/controller.go:63 -/
def minVolumeSizeBytes : Int := 9000 * gib

/-- SOURCE: pkg/csi_driver/controller.go:315-341 -/
def getRequestCapacity : Option CapacityRange → Except String Int
  | none => .ok minVolumeSizeBytes
  | some capRange =>
    let rBytes := capRange.requiredBytes
    let rSet := rBytes > 0
    let lBytes := capRange.limitBytes
    let lSet := lBytes > 0
    if lSet ∧ rSet ∧ lBytes < rBytes then
      .error s!"limit bytes {lBytes} is less than required bytes {rBytes}"
    else if lSet ∧ lBytes < minVolumeSizeBytes then
      .error s!"limit bytes {lBytes} is less than minimum volume size: {minVolumeSizeBytes}"
    else if rSet then .ok rBytes
    else .ok minVolumeSizeBytes

/-! ## Volume IDs -/

/-- SOURCE: pkg/util/util.go:143-144, 150-151 -/
def invalidVolumeID (id : String) : String :=
  s!"invalid volume ID {quote id}: expected format PROJECT_ID/LOCATION/INSTANCE_NAME"

/-- The volume ID is cut at its first colon; three non-empty components must remain.
SOURCE: pkg/util/util.go:134-155 -/
def parseVolumeID (id : String) : Except String (String × String × String) :=
  let realID := String.ofList (id.toList.takeWhile (· ≠ ':'))
  match split realID '/' with
  | [project, location, instanceName] =>
    if project = "" ∨ location = "" ∨ instanceName = "" then .error (invalidVolumeID id)
    else .ok (project, location, instanceName)
  | _ => .error (invalidVolumeID id)

/-- SOURCE: pkg/csi_driver/volume.go:26-37 -/
def volumeIDToInstance (volumeID : String) : Except String ServiceInstance :=
  match parseVolumeID volumeID with
  | .error err => .error err
  | .ok (projectID, location, instanceName) =>
    .ok { name := instanceName, location := location, project := projectID }

/-- SOURCE: pkg/csi_driver/volume.go:39-44 -/
def instanceToVolumeID (i : ServiceInstance) : String := s!"{i.project}/{i.location}/{i.name}"

/-- SOURCE: pkg/csi_driver/controller.go:264-273 -/
def instanceToCSIVolume (i : ServiceInstance) : Volume where
  volumeID := instanceToVolumeID i
  capacityBytes := gibToBytes i.capacityGib
  volumeContext := ((∅ : StrMap).insert keyInstanceIP i.ip).insert keyFilesystem i.filesystem

/-! ## The instance of a request -/

/-- SOURCE: pkg/csi_driver/controller.go:66 -/
def topologyKeyZone : String := "topology.gke.io/zone"

/-- The loop of `getZoneFromSegment`. -/
def zoneOfSegment (_ : String) (entry : Sigma fun _ : String => String) : Except String String :=
  if entry.1 = topologyKeyZone then .ok entry.2
  else .error s!"topology segment has unknown key {entry.1}"

/-- SOURCE: pkg/csi_driver/controller.go:442-459 -/
def getZoneFromSegment (seg : StrMap) : Except String String :=
  match seg.entries.foldlM zoneOfSegment "" with
  | .error err => .error err
  | .ok zone =>
    if zone = "" then
      .error s!"topology specified but could not find zone in segment: {printMap seg}"
    else .ok zone

/-- SOURCE: pkg/csi_driver/controller.go:425-440 -/
def getZonesFromTopology : List Topology → Except String (List String)
  | [] => .ok []
  | top :: topList =>
    match top.segments with
    | none => .error "topologies specified but no segments"
    | some segments =>
      match getZoneFromSegment segments with
      | .error err => .error s!"could not get zone from topology: {err}"
      | .ok zone => (getZonesFromTopology topList).map (zone :: ·)

/-- SOURCE: pkg/csi_driver/controller.go:403-423 -/
def pickZoneFromTopology (top : TopologyRequirement) : Except String String :=
  match getZonesFromTopology top.requisite with
  | .error err => .error s!"could not get zones from requisite topology: {err}"
  | .ok reqZones =>
    match getZonesFromTopology top.preferred with
    | .error err => .error s!"could not get zones from preferred topology: {err}"
    | .ok prefZones =>
      match prefZones, reqZones with
      | [], [] => .error "both requisite and preferred topology list empty"
      | zone :: _, _ => .ok zone
      | [], zone :: _ => .ok zone

/-- SOURCE: pkg/csi_driver/controller.go:394-400 -/
def pickZone (s : ControllerServer) : Option TopologyRequirement → Except String String
  | none => .ok s.zone
  | some top => pickZoneFromTopology top

/-- SOURCE: pkg/csi_driver/controller.go:348 -/
def networkFullNamePattern : Regex :=
  .cat [.lit "projects/", .grp (.rep notSlash 1 none), .lit "/global/networks/",
    .grp (.rep notSlash 1 none)]

def isAlnumLower (c : Char) : Bool := c.isLower || c.isDigit

/-- SOURCE: pkg/csi_driver/controller.go:349 -/
def networkNamePattern : Regex :=
  .seq .bot (.cat [.cls Char.isLower,
    .opt (.grp (.seq (.rep (fun c => c == '-' || isAlnumLower c) 0 none) (.cls isAlnumLower))), .eot])

/-- `MatchString`. -/
def matchString (r : Regex) (s : String) : Bool := (r.find s).isSome

def networkFullName (project network : String) : String :=
  s!"projects/{project}/global/networks/{network}"

/-- The network of a new instance: of the two patterns the second one decides.
SOURCE: pkg/csi_driver/controller.go:350-358 -/
def networkOf (s : ControllerServer) (params : StrMap) : String :=
  match params.lookup keyNetwork with
  | none => networkFullName s.project "default"
  | some v =>
    if matchString networkFullNamePattern v then v
    else if matchString networkNamePattern v then networkFullName s.project v
    else networkFullName s.project "default"

/-- The description is cut after 2048 bytes.
SOURCE: pkg/csi_driver/controller.go:367-373 -/
def descriptionOf (params : StrMap) : List UInt8 :=
  match params.lookup keyDescription with
  | none => []
  | some v => if (bytes v).length > 2048 then (bytes v).take 2048 else bytes v

/-- SOURCE: pkg/csi_driver/controller.go:378-389 -/
def throughputOf (params : StrMap) : Except String Int :=
  match params.lookup keyPerUnitStorageThroughput with
  | none => .error ("parameter 'perUnitStorageThroughput' is required; " ++
      "supported values are 1000, 500, 250, or 125")
  | some v =>
    if v = "1000" then .ok 1000
    else if v = "500" then .ok 500
    else if v = "250" then .ok 250
    else if v = "125" then .ok 125
    else .error s!"invalid perUnitStorageThroughput {v}, must be 1000, 500, 250 or 125"

/-- SOURCE: pkg/csi_driver/controller.go:343-392 -/
def prepareNewInstance (s : ControllerServer) (name : String) (capBytes : Int) (params : StrMap)
    (top : Option TopologyRequirement) : Except String ServiceInstance :=
  match pickZone s top with
  | .error err => .error s!"invalid topology: {err}"
  | .ok location =>
    match throughputOf params with
    | .error err => .error err
    | .ok perUnitStorageThroughput => .ok {
        name := name, project := s.project, location := location
        capacityGib := bytesToGib capBytes, network := networkOf s params
        gkeSupportEnabled := s.enableLegacyLustrePort, description := descriptionOf params
        filesystem := params.get keyFilesystem
        perUnitStorageThroughput := perUnitStorageThroughput }

/-! ## Labels -/

def tagKeyCreatedForClaimNamespace : String := "kubernetes_io_created-for_pvc_namespace"

def tagKeyCreatedForClaimName : String := "kubernetes_io_created-for_pvc_name"

def tagKeyCreatedForVolumeName : String := "kubernetes_io_created-for_pv_name"

def tagKeyCreatedBy : String := "storage_gke_io_created-by"

/-- The class `[\p{Ll}0-9_-]`. -/
def labelChar (U : Unicode) (c : Char) : Bool := U.isLower c || c.isDigit || c == '_' || c == '-'

/-- SOURCE: pkg/util/util.go:51 -/
def regexKey (U : Unicode) : Regex :=
  .seq .bot (.cat [.cls U.isLower, .rep (labelChar U) 0 (some 62), .eot])

/-- SOURCE: pkg/util/util.go:61 -/
def regexValue (U : Unicode) : Regex := .seq .bot (.cat [.rep (labelChar U) 0 (some 63), .eot])

/-- One entry of a label string. -/
def convertLabel (U : Unicode) (labels : String) (labelsMap : StrMap) (keyValue : String) :
    Except String StrMap :=
  match split keyValue '=' with
  | [k, v] =>
    let key := trimSpace k
    let value := trimSpace v
    if !matchString (regexKey U) key then
      .error (s!"label value {quote key} is invalid (should start with lowercase letter / " ++
        "lowercase letter, digit, _ and - chars are allowed / 1-63 characters")
    else if !matchString (regexValue U) value then
      .error (s!"label value {quote value} is invalid (lowercase letter, digit, _ and - chars " ++
        "are allowed / 0-63 characters")
    else .ok (labelsMap.insert key value)
  | _ => .error s!"labels {quote labels} are invalid, correct format: 'key1=value1,key2=value2'"

/-- SOURCE: pkg/util/util.go:36-97 -/
def convertLabelsStringToMap (U : Unicode) (labels : String) : Except String StrMap :=
  if labels = "" then .ok ∅
  else
    match (split labels ',').foldlM (convertLabel U labels) ∅ with
    | .error err => .error err
    | .ok labelsMap =>
      if labelsMap.entries.length > 64 then
        .error s!"more than 64 labels is not allowed, given: {labelsMap.entries.length}"
      else .ok labelsMap

/-- The labels from the metadata and those of the storage class, as `extractLabels` collects
them from one parameter. -/
def extractLabel (U : Unicode) (acc : StrMap × StrMap) (entry : Sigma fun _ : String => String) :
    Except String (StrMap × StrMap) :=
  let k := toLower U entry.1
  if k = keyPVCName then .ok (acc.1.insert tagKeyCreatedForClaimName entry.2, acc.2)
  else if k = keyPVCNamespace then .ok (acc.1.insert tagKeyCreatedForClaimNamespace entry.2, acc.2)
  else if k = keyPVName then .ok (acc.1.insert tagKeyCreatedForVolumeName entry.2, acc.2)
  else if k = keyLabels then
    match convertLabelsStringToMap U entry.2 with
    | .error err => .error s!"parameters contain invalid labels parameter: {err}"
    | .ok scLabels => .ok (acc.1, scLabels)
  else .ok acc

/-- One storage-class label of `mergeLabels`. -/
def mergeLabel (result : StrMap) (entry : Sigma fun _ : String => String) : Except String StrMap :=
  if entry.1 ∈ result then
    .error s!"StorageClass labels cannot contain metadata label key {entry.1}"
  else .ok (result.insert entry.1 entry.2)

/-- SOURCE: pkg/csi_driver/controller.go:487-502 -/
def mergeLabels (scLabels metadataLabels : StrMap) : Except String StrMap :=
  scLabels.entries.foldlM mergeLabel metadataLabels

/-- SOURCE: pkg/csi_driver/controller.go:461-485 -/
def extractLabels (U : Unicode) (parameters : StrMap) (driverName : String) :
    Except String StrMap :=
  match parameters.entries.foldlM (extractLabel U) (∅, ∅) with
  | .error err => .error err
  | .ok (labels, scLabels) =>
    mergeLabels scLabels (labels.insert tagKeyCreatedBy (replaceAll driverName '.' '_'))

/-! ## File-system names -/

/-- SOURCE: pkg/util/util.go:160-170 -/
def getRegionFromZone (location : String) : Except String String :=
  if location = "" then .error "failed to parse location: location must be provided"
  else
    match split location '-' with
    | [a, b, _] => .ok s!"{a}-{b}"
    | _ => .error s!"failed to parse location {location}: not a valid zone"

/-- SOURCE: pkg/csi_driver/controller.go:546-560 -/
def filterZonesByRegion (locations : List String) (region : String) : List String :=
  locations.filter fun location =>
    match getRegionFromZone location with
    | .ok zoneRegion => zoneRegion = region
    | .error _ => false

/-- The file-system names of the instances in the given zones. -/
def existingFSNames (project : String) : List String → CtrlM (Except ApiError (List String))
  | [] => return .ok []
  | zone :: zones => do
    match ← listInstance project zone with
    | .error err => return .error err
    | .ok instances =>
      match ← existingFSNames project zones with
      | .error err => return .error err
      | .ok names => return .ok (instances.map (·.filesystem) ++ names)

/-- SOURCE: pkg/csi_driver/controller.go:505-543 -/
def generateUniqueFilesystemName (i : ServiceInstance) : CtrlM (Except ApiError String) := do
  if i.filesystem ≠ "" then return .ok i.filesystem
  else
    match getRegionFromZone i.location with
    | .error err => return .error ⟨.plain, err⟩
    | .ok targetRegion =>
      match ← listLocations i.project with
      | .error err => return .error err
      | .ok allLocations =>
        match ← existingFSNames i.project (filterZonesByRegion allLocations targetRegion) with
        | .error err => return .error err
        | .ok taken =>
          match ← invoke (.drawFilesystem taken) with
          | .error err => return .error ⟨.plain, s!"failed to generate random lustre fsname: {err}"⟩
          | .ok id => return .ok id

/-! ## The handlers -/

/-- `TryAcquire`, the refusal, and `defer Release` around the rest of a handler.
SOURCE: pkg/util/volume_lock.go:42-59 -/
def withVolumeLock {α : Type} (name : String) (refused : α) (body : CtrlM α) : CtrlM α := do
  let acquired : Bool ← invoke (.tryAcquire name)
  if acquired then
    let result ← body
    invoke (.release name)
    return result
  else return refused

def aborted (name : String) : Status := ⟨.aborted, volumeOperationAlreadyExists name⟩

/-- The part of `CreateVolume` before the lock: the instance that is asked for, and the
normalised parameters.
SOURCE: pkg/csi_driver/controller.go:172-195 -/
def validateCreate (s : ControllerServer) (req : CreateVolumeRequest) :
    Except Status (ServiceInstance × StrMap) :=
  let volumeName := toLower s.unicode req.name
  if volumeName = "" then .error ⟨.invalidArgument, "CreateVolume name must be provided"⟩
  else
    match validateVolumeCapabilities req.volumeCapabilities with
    | some err => .error ⟨.invalidArgument, err⟩
    | none =>
      match getRequestCapacity req.capacityRange with
      | .error err => .error ⟨.invalidArgument, err⟩
      | .ok capBytes =>
        match normalizeParams s.unicode req.parameters with
        | .error err => .error ⟨.invalidArgument, err⟩
        | .ok params =>
          match prepareNewInstance s volumeName capBytes params req.accessibilityRequirements with
          | .error err => .error ⟨.invalidArgument, err⟩
          | .ok newInstance => .ok (newInstance, params)

/-- The answer for an instance that exists already.
SOURCE: pkg/csi_driver/controller.go:206-225, 255-261 -/
def reuseInstance (volumeName : String) (newInstance found : ServiceInstance) :
    Except Status (Option Volume) :=
  let notReady := s!"Volume {volumeName} not ready, current state: {found.stateText}"
  match compareInstances newInstance found with
  | some err => .error ⟨.alreadyExists, err⟩
  | none =>
    if found.state = some .creating then .error ⟨.deadlineExceeded, notReady⟩
    else if found.state ≠ some .active then .error ⟨.unavailable, notReady⟩
    else .ok (some (instanceToCSIVolume found))

/-- Label the instance, name its file system, and create it.
SOURCE: pkg/csi_driver/controller.go:236-261 -/
def createNew (s : ControllerServer) (newInstance : ServiceInstance) (params : StrMap) :
    CtrlM (Except Status (Option Volume)) := do
  match extractLabels s.unicode params s.driverName with
  | .error err => return .error ⟨.invalidArgument, err⟩
  | .ok labels =>
    let labelled := { newInstance with labels := labels }
    match ← generateUniqueFilesystemName labelled with
    | .error err => return .error (statusError err)
    | .ok fsname =>
      match ← createInstance { labelled with filesystem := fsname } with
      | .error err => return .error (statusError err)
      | .ok created => return .ok (some (instanceToCSIVolume created))

/-- `status.Error`, which is no error for the code OK.
SOURCE: pkg/csi_driver/controller.go:233-235 -/
def failedCreation (code : Code) (message : String) : Except Status (Option Volume) :=
  if code = .ok then .ok none else .error ⟨code, message⟩

/-- The part of `CreateVolume` that holds the lock.
SOURCE: pkg/csi_driver/controller.go:202-262 -/
def createLocked (s : ControllerServer) (newInstance : ServiceInstance) (params : StrMap) :
    CtrlM (Except Status (Option Volume)) := do
  match ← getInstance newInstance with
  | .ok found => return reuseInstance newInstance.name newInstance found
  | .error err =>
    if !isNotFoundErr err then return .error (statusError err)
    else
      -- The operation of a creation that failed is still listed; its instance is gone.
      match ← getCreateInstanceOp s.unicode newInstance with
      | .error err => return .error (statusError err)
      | .ok op =>
        match op.bind Operation.error? with
        | some (code, message) => return failedCreation code message
        | none => createNew s newInstance params

/-- A response without a volume, `.ok none`, is the pair of a nil response and a nil error.
SOURCE: pkg/csi_driver/controller.go:170-262 -/
def createVolume (s : ControllerServer) (req : CreateVolumeRequest) :
    CtrlM (Except Status (Option Volume)) :=
  match validateCreate s req with
  | .error err => return .error err
  | .ok (newInstance, params) =>
    withVolumeLock newInstance.name (.error (aborted newInstance.name))
      (createLocked s newInstance params)

/-- The part of `DeleteVolume` that holds the lock.
SOURCE: pkg/csi_driver/controller.go:295-312 -/
def deleteLocked (volumeID : String) (i : ServiceInstance) : CtrlM (Option Status) := do
  match ← getInstance i with
  | .error err => if isNotFoundErr err then return none else return some (statusError err)
  | .ok found =>
    if found.state = some .deleting then
      return some ⟨.deadlineExceeded, s!"Volume {volumeID} is under deletion"⟩
    else
      match ← deleteInstance found with
      | some err => return some (statusError err)
      | none => return none

/-- SOURCE: pkg/csi_driver/controller.go:275-313 -/
def deleteVolume (req : DeleteVolumeRequest) : CtrlM (Option Status) :=
  if req.volumeID = "" then
    return some ⟨.invalidArgument, "DeleteVolume volumeID must be provided"⟩
  else
    match volumeIDToInstance req.volumeID with
    -- An invalid ID is treated as one that does not exist.
    | .error _ => return none
    | .ok i => withVolumeLock req.volumeID (some (aborted req.volumeID)) (deleteLocked req.volumeID i)

/-- SOURCE: pkg/csi_driver/controller.go:606-645 -/
def expandFound (req : ControllerExpandVolumeRequest) (found : ServiceInstance) :
    CtrlM (Except Status ControllerExpandVolumeResponse) := do
  if found.state ≠ some .active then
    return .error ⟨.failedPrecondition, s!"Instance {found.name} is in {found.stateText} state"⟩
  else
    match getRequestCapacity req.capacityRange with
    | .error err => return .error ⟨.invalidArgument, err⟩
    | .ok capBytes =>
      if gibToBytes found.capacityGib ≥ capBytes then
        return .ok ⟨gibToBytes found.capacityGib, false⟩
      else
        match ← isUpdateInProgress found with
        | .error err => return .error (statusError err)
        | .ok true =>
          let message := s!"Expansion for volume {quote req.volumeID} to new capacity " ++
            s!"{bytesToGib capBytes} GiB is already in progress"
          return .error ⟨.deadlineExceeded, message⟩
        | .ok false =>
          match ← resizeInstance { found with capacityGib := bytesToGib capBytes } with
          | .error err => return .error (statusError err)
          | .ok updated => return .ok ⟨gibToBytes updated.capacityGib, false⟩

/-- The part of `ControllerExpandVolume` that holds the lock; the volume ID is parsed here.
SOURCE: pkg/csi_driver/controller.go:590-646 -/
def expandLocked (req : ControllerExpandVolumeRequest) :
    CtrlM (Except Status ControllerExpandVolumeResponse) := do
  match volumeIDToInstance req.volumeID with
  | .error err => return .error ⟨.invalidArgument, err⟩
  | .ok i =>
    match ← getInstance i with
    | .error err => return .error (statusError err)
    | .ok found => expandFound req found

/-- SOURCE: pkg/csi_driver/controller.go:579-646 -/
def controllerExpandVolume (req : ControllerExpandVolumeRequest) :
    CtrlM (Except Status ControllerExpandVolumeResponse) :=
  if req.volumeID = "" then
    return .error ⟨.invalidArgument, "ControllerExpandVolume volumeID must be provided"⟩
  else withVolumeLock req.volumeID (.error (aborted req.volumeID)) (expandLocked req)

end LustreCsi.Model
