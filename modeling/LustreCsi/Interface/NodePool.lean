import LustreCsi.Interface.KeyDirs
import LustreCsi.Model.Node

/-!
# The node server as a pool of handlers

`nodeBody` is the body of the thread that serves a request; `nodeStep` is a step of the node under
an optional assumption, that the mount-point probe is accurate and no mount is corrupted. What
happens besides the handlers (`Elsewhere`) touches neither the lock set nor what lies below the root
of the global mounts.
-/

set_option autoImplicit false

namespace LustreCsi.Interface

open LustreCsi.Computation Model

variable {s s' : NodeState} {o : Op} {r : o.Res} {e : Event nodeSig} {b : Bool}

/-- A request to the node server. -/
inductive NodeRequest where
  | publish (req : NodePublishVolumeRequest)
  | unpublish (req : NodeUnpublishVolumeRequest)

/-- The handler of a request. -/
def nodeBody (s : NodeServer) : NodeRequest → NodeM (Option Status)
  | .publish req => nodePublishVolume s req
  | .unpublish req => nodeUnpublishVolume s req

/-- The pod a request is for: the UID of the volume context, or that of the target path. -/
def podOf (s : NodeServer) : NodeRequest → Option String
  | .publish req =>
    match validatePublish s req with
    | .ok (vc, _) => some (identityOf s vc).podUID
    | .error _ => none
  | .unpublish req => getPodUIDFromTargetPath req.targetPath

/-- The key of a volume for the user that the volume context names. -/
def keyOf (s : NodeServer) (volumeID : String) (vc : StrMap) : Key :=
  iamKey s volumeID (identityOf s vc).namespace_ (identityOf s vc).saName

/-- A pod UID without slash and without the metacharacters of `filepath.Glob`. -/
def PlainUID (uid : String) : Prop := ∀ c ∈ uid.toList, c ∉ ['/', '*', '?', '[', '\\']

instance (uid : String) : Decidable (PlainUID uid) :=
  List.decidableBAll (fun c => c ∉ ['/', '*', '?', '[', '\\']) uid.toList

/-- The answer is right as far as mount points go: the probe does not take a mounted path for
an unmounted one or the other way round, it finds a path missing only if it is, and no path
is reported as a corrupted mount. -/
def Accurate (s : NodeState) : (o : Op) → o.Res → Prop
  | .isLikelyNotMountPoint p, .ok notMnt => notMnt = !s.mounted p
  | .isLikelyNotMountPoint p, .error e => e.kind = .notExist → s.pathPresent p = false
  | .stat _, some e => e.kind ≠ .corrupted
  | _, _ => True

/-- A step of the node whose answer is accurate, if that is assumed. -/
def nodeStep (acc : Prop) (s : NodeState) (o : nodeSig.Op) (r : nodeSig.Res o) (s' : NodeState) :
    Prop := s.step o r s' ∧ (acc → Accurate s o r)

instance (s : NodeState) (o : Op) (r : o.Res) : Decidable (Accurate s o r) := by
  cases o
  case isLikelyNotMountPoint p => cases r <;> unfold Accurate <;> infer_instance
  case stat p => cases r <;> unfold Accurate <;> infer_instance
  all_goals exact isTrue trivial

/-- `NodeState.exec` restricted to answers of a certain kind. -/
def execWhere (φ : NodeState → (o : Op) → o.Res → Prop) [∀ s o r, Decidable (φ s o r)]
    (s : NodeState) (o : Op) (c : Choice) : Option (o.Res × NodeState) :=
  (s.exec o c).filter fun rs => φ s o rs.1

/-- A step under a condition on the answers is a step that meets it. -/
theorem step_of_execWhere {φ : NodeState → (o : Op) → o.Res → Prop} [∀ s o r, Decidable (φ s o r)]
    {o : Op} {r : o.Res} (h : stepOf (S := nodeSig) (execWhere φ) s o r s') :
    s.step o r s' ∧ φ s o r := by
  obtain ⟨c, hc⟩ := h
  simp only [execWhere, Option.filter_eq_some_iff, decide_eq_true_eq] at hc
  exact ⟨⟨c, hc.1⟩, hc.2⟩

/-- `NodeState.exec` for a node whose answers are accurate. -/
def execAccurate : NodeState → (o : Op) → Choice → Option (o.Res × NodeState) := execWhere Accurate

/-- A step with accurate answers. -/
theorem nodeStep_of_execAccurate (h : stepOf (S := nodeSig) execAccurate s o r s') :
    nodeStep True s o r s' := by
  obtain ⟨hstep, hacc⟩ := step_of_execWhere h
  exact ⟨hstep, fun _ => hacc⟩

/-- A step of the node with accurate answers is a step of the node. -/
theorem step_of_nodeStep {acc : Prop} (h : nodeStep acc s o r s') : NodeState.step s o r s' := h.1

/-- Everything that an operation can do on a node with accurate answers. -/
theorem outcome_of_nodeStep {acc : Prop} (h : nodeStep acc s o r s') :
    Outcome s o r s' := outcome_of_step h.1

/-- What happens on the node outside the driver. -/
structure Elsewhere (s s' : NodeState) : Prop where
  locks : s'.locks = s.locks
  keys : s'.keys = s.keys
  mounts : ∀ k, s'.mountsAt (.mount k) = s.mountsAt (.mount k)
  wiped : s'.wiped = s.wiped

/-- What happens elsewhere leaves the keys. -/
theorem Elsewhere.sameKey (h : Elsewhere s s') (k : Key) : SameKey k s s' :=
  ⟨by simp only [NodeState.dir, h.keys], h.mounts k⟩

/-- The lock set of the pool. -/
def poolLocks (acc : Prop) : LockProtocol (nodeStep acc) String := nodeLocks fun h => h.1

/-! ## What is known of the references -/

/-- What an operation tells about a reference file: that it exists, or that it is gone. -/
def refEvent : Event nodeSig → Option (Path × Bool)
  | ⟨.stat p, r⟩ => if r.isNone then some (p, true) else none
  | ⟨.openTrunc p, r⟩ => if r.isNone then some (p, true) else none
  | ⟨.remove p, r⟩ => if (unlessNotExist r).isNone then some (p, false) else none
  | _ => none

/-- The last that has been learnt of the reference of a pod on a key is that it exists. -/
def Referenced : List (ℕ × Event nodeSig) → Key → String → Prop
  | [], _, _ => False
  | (_, e) :: tr, k, u =>
    match refEvent e with
    | some (p, b) => if p = .ref k u then b = true else Referenced tr k u
    | none => Referenced tr k u

/-- Operations that are none on references change nothing. -/
theorem referenced_cons_none (h : refEvent e = none) (t : ℕ) (tr : List (ℕ × Event nodeSig))
    (k : Key) (u : String) :
    Referenced ((t, e) :: tr) k u ↔ Referenced tr k u := by
  simp only [Referenced, h]

/-- Operations on other references change nothing. -/
theorem referenced_cons_of_ne {p : Path} (h : refEvent e = some (p, b)) (t : ℕ)
    (tr : List (ℕ × Event nodeSig)) {k : Key} {u : String} (hp : p ≠ .ref k u) :
    Referenced ((t, e) :: tr) k u ↔ Referenced tr k u := by
  simp only [Referenced, h, if_neg hp]

/-- The latest operation on a reference decides. -/
theorem referenced_cons_self {k : Key} {u : String} (h : refEvent e = some (.ref k u, b)) (t : ℕ)
    (tr : List (ℕ × Event nodeSig)) :
    Referenced ((t, e) :: tr) k u ↔ b = true := by
  simp only [Referenced, h, if_true]

/-- An operation tells something about a reference only if it names it. -/
theorem opPath_of_refEvent {p : Path} (h : refEvent ⟨o, r⟩ = some (p, b)) :
    o = .stat p ∨ o = .openTrunc p ∨ o = .remove p := by
  cases o <;> simp only [refEvent, Option.ite_none_right_eq_some, Option.some.injEq,
    Prod.mk.injEq, reduceCtorEq] at h <;> simp [h.2.1]

end LustreCsi.Interface
