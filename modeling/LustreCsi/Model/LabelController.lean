import LustreCsi.Model.Controller

/-!
# The label controller

The label controller marks the Lustre instance behind each persistent volume of the driver with a
label, unless it has one of the driver's labels already (`PvReconciler.Reconcile`). It reads the
instance, changes one label and writes the whole label map back.

A reconciliation acts through the operations `LabelOp` (`LabelState.exec`). The API replaces the
whole label map in one step, when it accepts an update or while its caller waits for it.
`clientUpdate` is an update by another client of the API.
-/

set_option autoImplicit false

namespace LustreCsi.Model.Labels

open LustreCsi.Computation

/-! ## Calls -/

/-- The source of a persistent volume, if it is a CSI volume. -/
structure CsiSource where
  driver : String
  volumeHandle : String
  deriving DecidableEq

/-- A persistent volume, as far as the controller reads it. -/
structure PersistentVolume where
  name : String
  csi : Option CsiSource
  deriving DecidableEq

/-- The error of a failed read from the cluster. -/
inductive ClusterError where
  | notFound
  | other (text : String)
  deriving DecidableEq

/-- An accepted update; `done` says that it has taken effect. -/
structure UpdateHandle where
  target : String
  labels : StrMap
  done : Bool
  deriving DecidableEq

inductive LabelOp where
  | getPV (name : String)
  | getInstance (fullName : String)
  | updateLabels (fullName : String) (labels : StrMap)
  | waitUpdate (handle : UpdateHandle)
  | clientUpdate (fullName : String) (labels : StrMap)
  deriving DecidableEq

abbrev LabelOp.Res : LabelOp → Type
  | .getPV _ => Except ClusterError PersistentVolume
  | .getInstance _ => Except ApiError CloudInstance
  | .updateLabels .. => Except ApiError UpdateHandle
  | .waitUpdate _ => Option ApiError
  | .clientUpdate .. => Unit

abbrev labelSig : Sig := ⟨LabelOp, LabelOp.Res⟩

abbrev LabelM : Type → Type := Program labelSig

def perform (o : LabelOp) : LabelM o.Res := Program.perform (S := labelSig) o

/-! ## The cluster and the API -/

/-- The persistent volumes of the cluster, and the instances by their resource names. -/
structure LabelState where
  pvs : String → Option PersistentVolume
  instances : String → Option CloudInstance
  named : ∀ x i, instances x = some i → i.name = x

/-- How a call ends. -/
inductive LabelChoice where
  /-- The call does its work. -/
  | ok
  /-- The update is accepted, but has not taken effect. -/
  | later
  /-- Reading from the cluster fails. -/
  | failCluster (text : String)
  /-- The call fails; `applied` says whether its effect took place nevertheless. -/
  | fail (err : ApiError) (applied : Bool)
  deriving DecidableEq

namespace LabelState

/-- Replace the labels of an instance. -/
def setLabels (s : LabelState) (x : String) (labels : StrMap) : LabelState where
  pvs := s.pvs
  instances y := if y = x then (s.instances x).map fun i => { i with labels := labels }
    else s.instances y
  named y i hi := by
    by_cases hy : y = x
    · subst hy
      rw [if_pos rfl] at hi
      obtain ⟨i', hi', rfl⟩ := Option.map_eq_some_iff.mp hi
      exact s.named y i' hi'
    · rw [if_neg hy] at hi
      exact s.named y i hi

/-- What a call answers and does, depending on how it ends. -/
def exec (s : LabelState) : (o : LabelOp) → LabelChoice → Option (o.Res × LabelState)
  | .getPV name, .ok =>
    some (match s.pvs name with
      | some pv => .ok pv
      | none => .error .notFound, s)
  | .getPV _, .failCluster text => some (.error (.other text), s)
  | .getInstance x, .ok =>
    some (match s.instances x with
      | some i => .ok i
      | none => .error notFound, s)
  | .getInstance _, .fail err _ => some (.error err, s)
  | .updateLabels x labels, .ok =>
    some (if (s.instances x).isSome then (.ok ⟨x, labels, true⟩, s.setLabels x labels)
      else (.error notFound, s))
  | .updateLabels x labels, .later =>
    if (s.instances x).isSome then some (.ok ⟨x, labels, false⟩, s) else none
  | .updateLabels x labels, .fail err applied =>
    some (.error err, if applied then s.setLabels x labels else s)
  | .waitUpdate handle, .ok =>
    some (none, if handle.done then s else s.setLabels handle.target handle.labels)
  | .waitUpdate handle, .fail err applied =>
    some (some err, if applied && !handle.done then s.setLabels handle.target handle.labels else s)
  | .clientUpdate x labels, .ok =>
    if (s.instances x).isSome then some ((), s.setLabels x labels) else none
  | _, _ => none

/-- Any outcome of a call. -/
def step (s : LabelState) (o : labelSig.Op) (r : labelSig.Res o) (s' : LabelState) : Prop :=
  stepOf (S := labelSig) exec s o r s'

/-- An outcome of a call that does not fail. -/
def okStep (s : LabelState) (o : labelSig.Op) (r : labelSig.Res o) (s' : LabelState) : Prop :=
  ∃ c, (c = .ok ∨ c = .later) ∧ s.exec o c = some (r, s')

end LabelState

/-! ## Reconciliation -/

/-- SOURCE: pkg/labelcontroller/label_controller.go:37-39 -/
def managedByLabelKey : String := "storage_gke_io_managed-by"

def createdByLabelKey : String := "storage_gke_io_created-by"

def lustreCSILabelValue : String := "lustre_csi_storage_gke_io"

/-- SOURCE: pkg/labelcontroller/label_controller.go:41 -/
def csiDriverName : String := "lustre.csi.storage.gke.io"

/-- SOURCE: pkg/cloud_provider/lustre/lustre.go:461-468 -/
def isPermissionDeniedErr (err : ApiError) : Bool := err.source = .googleapi 403

/-- `GetInstance`, for the controller.
SOURCE: pkg/cloud_provider/lustre/lustre.go:238-255 -/
def getInstance (i : ServiceInstance) : LabelM (Except ApiError ServiceInstance) := do
  match ← perform (.getInstance (instanceFullName i)) with
  | .error err => return .error err
  | .ok reported => return cloudInstanceToServiceInstance reported

/-- The mask of the update is "labels".
SOURCE: pkg/cloud_provider/lustre/lustre.go:330-353 -/
def updateInstance (i : ServiceInstance) : LabelM (Option ApiError) := do
  match ← perform (.updateLabels (instanceFullName i) i.labels) with
  | .error err => return some err
  | .ok op => perform (.waitUpdate op)

/-- The instance has one of the labels that the driver sets.
SOURCE: pkg/labelcontroller/label_controller.go:93-99 -/
def hasDriverLabel (labels : StrMap) : Bool :=
  [managedByLabelKey, createdByLabelKey].any fun key => labels.get key = lustreCSILabelValue

/-- The label map that is written back.
SOURCE: pkg/labelcontroller/label_controller.go:102-105 -/
def addManagedBy (labels : StrMap) : StrMap := labels.insert managedByLabelKey lustreCSILabelValue

/-- From the read of the instance on.
SOURCE: pkg/labelcontroller/label_controller.go:75-113 -/
def labelInstance (pvName : String) (i : ServiceInstance) : LabelM (Option String) := do
  match ← getInstance i with
  | .error err =>
    if isNotFoundErr err then return none
    if isPermissionDeniedErr err then return none
    return some s!"failed to get lustre instance for PV {pvName}: {err.text}"
  | .ok lustreInstance =>
    if hasDriverLabel lustreInstance.labels then return none
    let labelled := { lustreInstance with labels := addManagedBy lustreInstance.labels }
    if let some err ← updateInstance labelled then
      return some s!"failed to update lustre instance for PV {pvName}: {err.text}"
    return none

/-- SOURCE: pkg/labelcontroller/label_controller.go:56-114 -/
def reconcile (name : String) : LabelM (Option String) := do
  match ← perform (.getPV name) with
  | .error .notFound => return none
  | .error (.other text) => return some s!"failed to get PV {name}: {text}"
  | .ok pv =>
    match pv.csi with
    | none => return none
    | some csi =>
      if csi.driver ≠ csiDriverName then return none
      match volumeIDToInstance csi.volumeHandle with
      | .error err => return some s!"failed to get lustre instance for PV {pv.name}: {err}"
      | .ok i => labelInstance pv.name i

end LustreCsi.Model.Labels
