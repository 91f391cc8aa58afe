import LustreCsi.Computation.Regex
import LustreCsi.Model.Cloud

/-!
# The client of the Lustre service

The methods of `pkg/cloud_provider/lustre/lustre.go`: resource names are printed and parsed,
reported instances are converted, operations are searched, and errors are mapped to gRPC codes. Log
lines, the choice of an endpoint and `UpdateInstance`, which only the label controller calls, are
left out.
-/

set_option autoImplicit false

namespace LustreCsi.Model

open LustreCsi.Computation

/-- Programs of the controller server. -/
abbrev CtrlM : Type → Type := Program ctrlSig

/-- Perform one operation on the lock set or the API. -/
def invoke (o : CloudOp) : CtrlM o.Res := Program.perform (S := ctrlSig) o

/-- An instance as the driver sees it. The state is a string in the source, empty for an
instance that was not reported by the API.
SOURCE: pkg/cloud_provider/lustre/lustre.go:78-92 -/
structure ServiceInstance where
  project : String
  location : String
  name : String
  filesystem : String := ""
  network : String := ""
  ip : String := ""
  description : List UInt8 := []
  state : Option InstanceState := none
  labels : StrMap := ∅
  capacityGib : Int := 0
  gkeSupportEnabled : Bool := false
  perUnitStorageThroughput : Int := 0
  mountPoint : String := ""
  deriving DecidableEq

/-- `instance.State` in a message. -/
def ServiceInstance.stateText (i : ServiceInstance) : String := i.state.elim "" InstanceState.text

/-- The location of an instance, in the requests and in the listings. -/
def locationName (project location : String) : String :=
  s!"projects/{project}/locations/{location}"

/-- SOURCE: pkg/cloud_provider/lustre/lustre.go:392-394 -/
def instanceFullName (i : ServiceInstance) : String :=
  s!"projects/{i.project}/locations/{i.location}/instances/{i.name}"

/-- SOURCE: pkg/cloud_provider/lustre/lustre.go:397 -/
def instanceFullNameRegex : Regex :=
  .seq .bot (.cat [.lit "projects/", .grp (.rep notSlash 1 none), .lit "/locations/",
    .grp (.rep notSlash 1 none), .lit "/instances/", .grp (.rep notSlash 1 none), .eot])

/-- SOURCE: pkg/cloud_provider/lustre/lustre.go:396-407 -/
def parseInstanceFullName (fullName : String) : Except ApiError (String × String × String) :=
  match instanceFullNameRegex.find fullName with
  | some [project, location, name] => .ok (project, location, name)
  | _ => .error ⟨.plain, s!"failed to parse instance full name {fullName}"⟩

/-- SOURCE: pkg/cloud_provider/lustre/lustre.go:436-450 -/
def parseInstanceIP (instanceMountpoint : String) : Except ApiError String :=
  -- An instance that is being created has no mount point yet.
  if instanceMountpoint = "" then .ok ""
  else
    match split instanceMountpoint '@' with
    | ip :: _ :: _ => .ok ip
    | _ => .error ⟨.plain, s!"invalid instanceMountpoint {instanceMountpoint}"⟩

/-- SOURCE: pkg/cloud_provider/lustre/lustre.go:409-434 -/
def cloudInstanceToServiceInstance (i : CloudInstance) : Except ApiError ServiceInstance := do
  let (project, location, name) ← parseInstanceFullName i.name
  let ip ← parseInstanceIP i.mountPoint
  return {
    name := name, location := location, project := project, network := i.network
    description := i.description, state := some i.state, labels := i.labels
    capacityGib := i.capacityGib, filesystem := i.filesystem, ip := ip
    perUnitStorageThroughput := i.perUnitStorageThroughput, mountPoint := i.mountPoint }

/-- One comparison of `CompareInstances`: the mismatch, if there is one. -/
def mismatch {α : Type} [DecidableEq α] (a b : α) (message : String) : List String :=
  if a ≠ b then [message] else []

/-- SOURCE: pkg/cloud_provider/lustre/lustre.go:470-494 -/
def compareInstances (a b : ServiceInstance) : Option String :=
  let mismatches :=
    mismatch a.name b.name s!"instance name: expected {quote a.name}, got {quote b.name}" ++
    mismatch a.project b.project
      s!"instance project: expected {quote a.project}, got {quote b.project}" ++
    mismatch a.location b.location
      s!"instance location: expected {quote a.location}, got {quote b.location}" ++
    mismatch a.capacityGib b.capacityGib
      s!"instance size: expected {a.capacityGib} GiB, got {b.capacityGib} GiB" ++
    mismatch a.network b.network
      s!"network name: expected {quote a.network}, got {quote b.network}"
  if mismatches ≠ [] then
    some s!"instance {a.name} already exists but doesn't match expected: {printList mismatches}"
  else none

/-! ## Errors -/

/-- SOURCE: pkg/cloud_provider/lustre/lustre.go:71-76 -/
def userErrorCodeMap (httpCode : ℕ) : Option Code :=
  if httpCode = 403 then some .permissionDenied
  else if httpCode = 400 then some .invalidArgument
  else if httpCode = 429 then some .resourceExhausted
  else if httpCode = 404 then some .notFound
  else none

/-- SOURCE: pkg/cloud_provider/lustre/lustre.go:556-575 -/
def containsUserErrStr (text : String) : Option Code :=
  if contains text "PERMISSION_DENIED" then some .permissionDenied
  else if contains text "RESOURCE_EXHAUSTED" then some .resourceExhausted
  else if contains text "INVALID_ARGUMENT" then some .invalidArgument
  else if contains text "NOT_FOUND" then some .notFound
  else none

/-- SOURCE: pkg/cloud_provider/lustre/lustre.go:580-594 -/
def isContextError (text : String) : Option Code :=
  if contains text "context deadline exceeded" then some .deadlineExceeded
  else if contains text "context canceled" then some .canceled
  else none

/-- The code of an error: that of a gRPC status, else the one its text or its HTTP code
stands for.
SOURCE: pkg/cloud_provider/lustre/lustre.go:519-537, 547-554, 602-624, 631-651 -/
def codeForError (err : ApiError) : Code :=
  match err.source with
  | .grpc code => code
  | .googleapi httpCode =>
    ((isContextError err.text).or (userErrorCodeMap httpCode)).getD .internal
  | .plain => ((containsUserErrStr err.text).or (isContextError err.text)).getD .internal

/-- SOURCE: pkg/cloud_provider/lustre/lustre.go:498-504 -/
def statusError (err : ApiError) : Status := ⟨codeForError err, err.text⟩

/-! ## The methods of the service -/

/-- SOURCE: pkg/cloud_provider/lustre/lustre.go:237-255 -/
def getInstance (i : ServiceInstance) : CtrlM (Except ApiError ServiceInstance) := do
  match ← invoke (.getInstance (instanceFullName i)) with
  | .error err => return .error err
  | .ok reported => return cloudInstanceToServiceInstance reported

/-- The fields of a creation request.
SOURCE: pkg/cloud_provider/lustre/lustre.go:147-155 -/
def ServiceInstance.spec (i : ServiceInstance) : InstanceSpec where
  network := i.network
  description := i.description
  labels := i.labels
  capacityGib := i.capacityGib
  filesystem := i.filesystem
  gkeSupportEnabled := i.gkeSupportEnabled
  perUnitStorageThroughput := i.perUnitStorageThroughput

/-- SOURCE: pkg/cloud_provider/lustre/lustre.go:143-169 -/
def createInstance (i : ServiceInstance) : CtrlM (Except ApiError ServiceInstance) := do
  match ← invoke (.createInstance (locationName i.project i.location) i.name i.spec) with
  | .error err => return .error err
  | .ok op =>
    match ← invoke (.waitInstance op) with
    | .error err => return .error err
    | .ok reported => return cloudInstanceToServiceInstance reported

/-- SOURCE: pkg/cloud_provider/lustre/lustre.go:171-188 -/
def deleteInstance (i : ServiceInstance) : CtrlM (Option ApiError) := do
  match ← invoke (.deleteInstance (instanceFullName i)) with
  | .error err =>
    if isNotFoundErr err then return none
    else
      let context := s!"failed to delete lustre instance {quote (instanceFullName i)}"
      return some (err.wrap context)
  | .ok op => invoke (.waitDelete op)

/-- SOURCE: pkg/cloud_provider/lustre/lustre.go:355-390 -/
def resizeInstance (i : ServiceInstance) : CtrlM (Except ApiError ServiceInstance) := do
  match ← invoke (.updateInstance (instanceFullName i) i.capacityGib) with
  | .error err => return .error err
  | .ok op =>
    match ← invoke (.waitInstance op) with
    | .error err => return .error err
    | .ok reported => return cloudInstanceToServiceInstance reported

/-- SOURCE: pkg/cloud_provider/lustre/lustre.go:190-213 -/
def listInstance (project location : String) : CtrlM (Except ApiError (List ServiceInstance)) := do
  let parent := locationName project location
  let (listed, err) ← invoke (.listInstances parent)
  -- The conversion of an instance fails before the iteration goes on.
  match listed.mapM cloudInstanceToServiceInstance, err with
  | .error err, _ => return .error err
  | .ok _, some err =>
    return .error (err.wrap s!"ListInstances failed for request parent:{quote parent}")
  | .ok instances, none => return .ok instances

/-- SOURCE: pkg/cloud_provider/lustre/lustre.go:215-235 -/
def listLocations (project : String) : CtrlM (Except ApiError (List String)) := do
  let name := s!"projects/{project}"
  match ← invoke (.listLocations name) with
  | (_, some err) =>
    return .error (err.wrap s!"ListLocations failed for request name:{quote name}")
  | (locations, none) => return .ok locations

/-- The filter of the requests for operations.
SOURCE: pkg/cloud_provider/lustre/lustre.go:262, 300 -/
def operationsFilter : String := "metadata.apiVersion=\"v1\""

/-- The search of `GetCreateInstanceOp` and `IsOperationInProgress`: the first operation that
matches; an error of the iteration is met only when none did before, and its text shows the request. -/
def searchOperations (parent : String) (found : Operation → Bool) :
    CtrlM (Except ApiError (Option Operation)) := do
  let (listed, err) ← invoke (.listOperations parent)
  match listed.find? found, err with
  | some op, _ => return .ok (some op)
  | none, some err =>
    return .error (err.wrap
      s!"ListOperations failed for request name:{quote parent} filter:{quote operationsFilter}")
  | none, none => return .ok none

/-- SOURCE: pkg/cloud_provider/lustre/lustre.go:257-293 -/
def getCreateInstanceOp (U : Unicode) (i : ServiceInstance) :
    CtrlM (Except ApiError (Option Operation)) :=
  searchOperations (locationName i.project i.location) fun op =>
    match op.metadata with
    | some (verb, target) => toLower U verb = "create" && target = instanceFullName i
    -- Metadata of other types cannot be unmarshalled and is skipped.
    | none => false

/-- `strings.EqualFold(s, "update")`: no rune outside ASCII folds to a letter of "update". -/
def equalFoldUpdate (s : String) : Bool := s.toList.map Char.toLower = "update".toList

/-- `IsOperationInProgress(ctx, instance, "update")`.
SOURCE: pkg/cloud_provider/lustre/lustre.go:295-328 -/
def isUpdateInProgress (i : ServiceInstance) : CtrlM (Except ApiError Bool) := do
  let found ← searchOperations (locationName i.project i.location) fun op =>
    match op.metadata with
    | some (verb, target) => target = instanceFullName i && equalFoldUpdate verb && !op.done
    | none => false
  return found.map Option.isSome

end LustreCsi.Model
