import LustreCsi.Computation.Program
import LustreCsi.Model.Status
import LustreCsi.Model.Text
import Mathlib.Data.Finset.Insert
import Mathlib.Data.Finset.Erase
import Mathlib.Data.List.Perm.Basic

/-!
# The Lustre API and the controller's lock set

The controller handlers act through the operations `CloudOp`: the lock set, the calls of the Lustre
API client, and the random source. `CloudState.exec` says what each may do, as a function of the
state and of a `CloudChoice` of the environment.

A call that is accepted adds a pending operation, which completes, successfully or not, at any later
time (`CloudState.complete`). Operations stay listed. Any call may fail, and one that changes
something may fail after its effect took place. Two answers are reliable: an instance is reported
missing only if it is, and a listing that ends without an error is complete, in some order.
-/

set_option autoImplicit false

namespace LustreCsi.Model

open LustreCsi.Computation

/-! ## Errors of the API client -/

/-- Where an error of the API client comes from, as far as the code tells: an HTTP answer
(`googleapi.Error`), a gRPC status, which is an error only if its code is not OK, or neither. -/
inductive ErrorSource where
  | googleapi (httpCode : ℕ)
  | grpc (code : { c : Code // c ≠ .ok })
  | plain
  deriving DecidableEq

/-- An error of the API client. -/
structure ApiError where
  source : ErrorSource
  text : String
  deriving DecidableEq

/-- `fmt.Errorf("prefix: %w", err)`. -/
def ApiError.wrap (err : ApiError) (context : String) : ApiError :=
  { err with text := s!"{context}: {err.text}" }

/-- SOURCE: pkg/cloud_provider/lustre/lustre.go:452-459 -/
def isNotFoundErr (err : ApiError) : Bool := err.source = .googleapi 404

/-! ## Instances and operations -/

/-- SOURCE: vendor/cloud.google.com/go/lustre/apiv1/lustrepb/instance.pb.go:48-71 -/
inductive InstanceState where
  | unspecified | active | creating | deleting | upgrading | repairing | stopped | updating
  | suspended
  deriving DecidableEq, Repr

/-- The name of a state, as its `String` method prints it. -/
def InstanceState.text : InstanceState → String
  | .unspecified => "STATE_UNSPECIFIED"
  | .active => "ACTIVE"
  | .creating => "CREATING"
  | .deleting => "DELETING"
  | .upgrading => "UPGRADING"
  | .repairing => "REPAIRING"
  | .stopped => "STOPPED"
  | .updating => "UPDATING"
  | .suspended => "SUSPENDED"

/-- The fields of an instance that a creation request sets. The description is a Go string,
which need not be valid UTF-8. -/
structure InstanceSpec where
  network : String
  description : List UInt8
  labels : StrMap
  capacityGib : Int
  filesystem : String
  gkeSupportEnabled : Bool
  perUnitStorageThroughput : Int
  deriving DecidableEq

/-- An instance as the API reports it (`lustrepb.Instance`). -/
structure CloudInstance extends InstanceSpec where
  name : String
  mountPoint : String
  state : InstanceState
  deriving DecidableEq

/-- The work of an operation on an instance. -/
inductive Work where
  | create
  | delete
  | update (capacityGib : Int)
  deriving DecidableEq

/-- How far an operation is. -/
inductive Progress where
  | pending
  | succeeded
  | failed (code : Code) (message : String)
  deriving DecidableEq

/-- A long-running operation. The metadata of one that works on an instance is an
`OperationMetadata`; imports and exports (`none`) have metadata of their own. -/
structure Operation where
  parent : String
  target : String
  work : Option Work
  progress : Progress
  deriving DecidableEq

/-- The verb in the metadata of an operation. -/
def Work.verb : Work → String
  | .create => "create"
  | .delete => "delete"
  | .update _ => "update"

/-- The verb and the target of an operation, when its metadata is an `OperationMetadata`. -/
def Operation.metadata (o : Operation) : Option (String × String) :=
  o.work.map fun w => (w.verb, o.target)

/-- `GetError` of an operation, without its details. -/
def Operation.error? (o : Operation) : Option (Code × String) :=
  match o.progress with
  | .failed code message => some (code, message)
  | _ => none

def Operation.done (o : Operation) : Bool := o.progress ≠ .pending

/-! ## Resource names -/

/-- The resource name of an instance below a location. -/
def nameBelow (parent instanceID : String) : String := s!"{parent}/instances/{instanceID}"

/-- The instance IDs that the API accepts: 1 to 63 lower-case letters, digits and hyphens,
beginning with a letter and ending with a letter or a digit.
SOURCE: vendor/cloud.google.com/go/lustre/apiv1/lustrepb/instance.pb.go (CreateInstanceRequest) -/
def validInstanceID (id : String) : Bool :=
  id.toList.all (fun c => c.isLower || c.isDigit || c == '-') && id.toList.length ≤ 63 &&
    id.toList.head?.any Char.isLower && id.toList.getLast?.any (fun c => c.isLower || c.isDigit)

/-- The locations that the API accepts: projects/<project>/locations/<location>. -/
def validParent (parent : String) : Bool :=
  match split parent '/' with
  | [a, p, b, l] => a == "projects" && p != "" && b == "locations" && l != ""
  | _ => false

/-! ## The state -/

/-- The lock set of the controller, and what the API keeps. -/
structure CloudState where
  locks : Finset String
  instances : List CloudInstance
  operations : List Operation

namespace CloudState

/-- The instance with the given resource name. -/
def find (s : CloudState) (name : String) : Option CloudInstance :=
  s.instances.find? fun i => i.name = name

/-- The operations that are listed for a location. -/
def operationsOf (s : CloudState) (parent : String) : List Operation :=
  s.operations.filter fun o => o.parent = parent

/-- The instances that are listed for a location. -/
def instancesOf (s : CloudState) (parent : String) : List CloudInstance :=
  s.instances.filter fun i => hasPrefix i.name (parent ++ "/instances/")

def modify (s : CloudState) (name : String) (f : CloudInstance → CloudInstance) : CloudState :=
  { s with instances := s.instances.map fun i => if i.name = name then f i else i }

def remove (s : CloudState) (name : String) : CloudState :=
  { s with instances := s.instances.filter fun i => i.name ≠ name }

/-- Add a pending operation; its index is the number of operations before. -/
def addOperation (s : CloudState) (parent target : String) (work : Work) : CloudState :=
  { s with operations := s.operations ++ [⟨parent, target, some work, .pending⟩] }

/-- An instance can be created: its name is well formed and there is none of that name. -/
def creatable (s : CloudState) (parent instanceID : String) : Bool :=
  validParent parent && validInstanceID instanceID &&
    (s.find (nameBelow parent instanceID)).isNone

/-- The state after a creation was accepted: there is the instance, still without a mount
point, and a pending operation that creates it. -/
def accept (s : CloudState) (parent instanceID : String) (spec : InstanceSpec) : CloudState :=
  let name := nameBelow parent instanceID
  { s with instances := ⟨spec, name, "", .creating⟩ :: s.instances }.addOperation parent name .create

/-- The location of an instance: its resource name up to its last two components. -/
def locationOf (name : String) : String :=
  "/".intercalate ((split name '/').dropLast.dropLast)

/-- The state after a deletion was accepted. -/
def acceptDelete (s : CloudState) (name : String) : CloudState :=
  (s.modify name fun i => { i with state := .deleting }).addOperation (locationOf name) name .delete

/-- The state after a change of the capacity was accepted. -/
def acceptUpdate (s : CloudState) (name : String) (capacityGib : Int) : CloudState :=
  s.addOperation (locationOf name) name (.update capacityGib)

end CloudState

/-- How a pending operation ends; a created instance gets its address then. -/
inductive Ending where
  | succeed (ip : String)
  | fail (code : { c : Code // c ≠ .ok }) (message : String)
  deriving DecidableEq

namespace CloudState

def setProgress (s : CloudState) (n : ℕ) (o : Operation) (progress : Progress) : CloudState :=
  { s with operations := s.operations.set n { o with progress := progress } }

/-- What the successful end of some work does to its instance. -/
def finish (s : CloudState) (target ip : String) : Work → CloudState
  | .create => s.modify target fun i =>
      { i with state := .active, mountPoint := s!"{ip}@tcp:/{i.filesystem}" }
  | .delete => s.remove target
  | .update capacityGib => s.modify target fun i => { i with capacityGib := capacityGib }

/-- What the failure of some work does: an instance that could not be created is removed. -/
def abandon (s : CloudState) (target : String) : Work → CloudState
  | .create => s.remove target
  | _ => s

/-- The end of the pending operation with the given index. -/
def complete (s : CloudState) (n : ℕ) (ending : Ending) : Option CloudState :=
  match s.operations[n]? with
  | some o =>
    if o.progress = .pending then
      match ending with
      | .succeed ip =>
        some ((o.work.elim s (s.finish o.target ip)).setProgress n o .succeeded)
      | .fail code message =>
        some ((o.work.elim s (s.abandon o.target)).setProgress n o (.failed code message))
    else none
  | none => none

/-- A step of the backend on its own. -/
def Progresses (s s' : CloudState) : Prop := ∃ n ending, s.complete n ending = some s'

end CloudState

/-! ## The operations -/

/-- What the handlers ask of the lock set, of the API and of the random source. The loop that
draws file-system names until one is not taken is one operation. -/
inductive CloudOp where
  | tryAcquire (name : String)
  | release (name : String)
  | getInstance (name : String)
  | listOperations (parent : String)
  | createInstance (parent instanceID : String) (spec : InstanceSpec)
  | waitInstance (operation : ℕ)
  | deleteInstance (name : String)
  | waitDelete (operation : ℕ)
  | updateInstance (name : String) (capacityGib : Int)
  | listInstances (parent : String)
  | listLocations (project : String)
  | drawFilesystem (taken : List String)

/-- The answers. An iterator answers the elements it has yielded, and the error that ended
the iteration, if any; a call that starts an operation answers the operation's index. -/
abbrev CloudOp.Res : CloudOp → Type
  | .tryAcquire _ => Bool
  | .release _ => Unit
  | .getInstance _ => Except ApiError CloudInstance
  | .listOperations _ => List Operation × Option ApiError
  | .createInstance _ _ _ => Except ApiError ℕ
  | .waitInstance _ => Except ApiError CloudInstance
  | .deleteInstance _ => Except ApiError ℕ
  | .waitDelete _ => Option ApiError
  | .updateInstance _ _ => Except ApiError ℕ
  | .listInstances _ => List CloudInstance × Option ApiError
  | .listLocations _ => List String × Option ApiError
  | .drawFilesystem _ => Except String String

/-- The signature of the controller handlers. -/
abbrev ctrlSig : Sig := ⟨CloudOp, CloudOp.Res⟩

/-- What the environment chooses when an operation is performed. -/
inductive CloudChoice where
  /-- The call does its work, as far as the state allows it. -/
  | ok
  /-- The call fails; `applied` says whether its effect took place nevertheless. -/
  | fail (err : ApiError) (applied : Bool)
  /-- The operation that is waited for ends now. -/
  | ends (ending : Ending)
  | operations (listed : List Operation) (err : Option ApiError)
  | instances (listed : List CloudInstance) (err : Option ApiError)
  | locations (listed : List String) (err : Option ApiError)
  | drawn (id : Except String String)

/-- The answer for a missing instance. -/
def notFound : ApiError := ⟨.googleapi 404, "googleapi: Error 404: Resource was not found."⟩

/-- A listing: complete when there is no error, otherwise some of the elements. -/
def listing {α : Type} [DecidableEq α] (all listed : List α) (err : Option ApiError) : Bool :=
  if err.isNone then decide (listed.Perm all) else listed.all (· ∈ all)

/-- SOURCE: pkg/csi_driver/controller.go:77, 562-576 -/
def fsnamePrefix : String := "lfs"

/-- A name that `generateRandomID` can produce: the letters of `fsnamePrefix` and five digits. -/
def randomID (id : String) : Bool :=
  id.toList.take 3 = fsnamePrefix.toList && (id.toList.drop 3).length = 5 &&
    (id.toList.drop 3).all Char.isDigit

namespace CloudState

/-- What waiting for the operation `n` answers when it has succeeded. -/
def created (s : CloudState) (n : ℕ) : Option CloudInstance :=
  match s.operations[n]? with
  | some o => if o.progress = .succeeded then s.find o.target else none
  | none => none

def succeededAt (s : CloudState) (n : ℕ) : Bool :=
  match s.operations[n]? with
  | some o => o.progress = .succeeded
  | none => false

/-- What an operation does in a state, given the environment's choice; `none` when the choice
is not one the operation has. -/
def exec (s : CloudState) : (o : CloudOp) → CloudChoice → Option (o.Res × CloudState)
  | .tryAcquire x, .ok =>
    if x ∈ s.locks then some (false, s) else some (true, { s with locks := insert x s.locks })
  | .release x, .ok => some ((), { s with locks := s.locks.erase x })
  | .getInstance name, .ok =>
    match s.find name with
    | some i => some (.ok i, s)
    | none => some (.error notFound, s)
  | .getInstance name, .fail err _ =>
    if isNotFoundErr err && (s.find name).isSome then none else some (.error err, s)
  | .listOperations parent, .operations listed err =>
    if listing (s.operationsOf parent) listed err then some ((listed, err), s) else none
  | .createInstance parent id spec, .ok =>
    if s.creatable parent id then some (.ok s.operations.length, s.accept parent id spec) else none
  | .createInstance parent id spec, .fail err applied =>
    if applied then
      if s.creatable parent id then some (.error err, s.accept parent id spec) else none
    else some (.error err, s)
  | .waitInstance n, .ok =>
    match s.created n with
    | some i => some (.ok i, s)
    | none => none
  | .waitInstance n, .ends ending =>
    match s.complete n ending, ending with
    | some s', .succeed _ => (s'.created n).map fun i => (.ok i, s')
    | some s', .fail code message => some (.error ⟨.grpc code, message⟩, s')
    | none, _ => none
  | .waitInstance _, .fail err _ => some (.error err, s)
  | .deleteInstance name, .ok =>
    if (s.find name).isSome then
      some (.ok s.operations.length, s.acceptDelete name)
    else some (.error notFound, s)
  | .deleteInstance name, .fail err applied =>
    if isNotFoundErr err && (s.find name).isSome then none
    else some (.error err,
      if applied && (s.find name).isSome then s.acceptDelete name else s)
  | .waitDelete n, .ok => if s.succeededAt n then some (none, s) else none
  | .waitDelete n, .ends ending =>
    match s.complete n ending, ending with
    | some s', .succeed _ => some (none, s')
    | some s', .fail code message => some (some ⟨.grpc code, message⟩, s')
    | none, _ => none
  | .waitDelete _, .fail err _ => some (some err, s)
  | .updateInstance name capacityGib, .ok =>
    if (s.find name).isSome then
      some (.ok s.operations.length, s.acceptUpdate name capacityGib)
    else some (.error notFound, s)
  | .updateInstance name capacityGib, .fail err applied =>
    some (.error err,
      if applied && (s.find name).isSome then s.acceptUpdate name capacityGib else s)
  | .listInstances parent, .instances listed err =>
    if listing (s.instancesOf parent) listed err then some ((listed, err), s) else none
  | .listLocations _, .locations listed err => some ((listed, err), s)
  | .drawFilesystem taken, .drawn (.ok id) =>
    if randomID id && !(id ∈ taken) then some (.ok id, s) else none
  | .drawFilesystem _, .drawn (.error text) => some (.error text, s)
  | _, _ => none

/-- What the lock set and the API may do when an operation is performed. -/
def step (s : CloudState) (o : ctrlSig.Op) (r : ctrlSig.Res o) (s' : CloudState) : Prop :=
  stepOf (S := ctrlSig) exec s o r s'

end CloudState

end LustreCsi.Model
