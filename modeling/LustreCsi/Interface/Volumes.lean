import LustreCsi.Interface.Faultless
import LustreCsi.Interface.NodeCalls

/-!
# The volumes of a node

What the node server is for, without directories, locks and reference files: which file system is
staged at which path, bound to which target and mounted for each key, and by whom it is used.
`Volumes.after` says what each call does to it; `NodeUnpublishVolume` takes away all uses of the pod
of its target, as `cleanUpIAMReference` does.

`Permits` is what kubelet has to see to before it makes a call. `Accounted`: every use of a key
belongs to a pod with a bound target.
-/

set_option autoImplicit false

namespace LustreCsi.Interface

open LustreCsi.Computation Model

/-- The file system mounted for a key, and the pods that use it; there is no mount without one. -/
@[ext]
structure Shared where
  device : String
  users : Finset String
  nonempty : users.Nonempty

/-- One more pod uses the mount. -/
def Shared.join (g : Shared) (u : String) : Shared :=
  ⟨g.device, insert u g.users, Finset.insert_nonempty u g.users⟩

/-- A pod no longer uses the mount; the last one takes it away. -/
def Shared.leave (g : Shared) (u : String) : Option Shared :=
  if h : (g.users.erase u).Nonempty then some ⟨g.device, g.users.erase u, h⟩ else none

/-- A pod that is no user leaves nothing. -/
theorem Shared.leave_of_notMem {g : Shared} {u : String} (h : u ∉ g.users) : g.leave u = some g := by
  have herase : g.users.erase u = g.users := Finset.erase_eq_of_notMem h
  have hne : (g.users.erase u).Nonempty := by
    rw [herase]
    exact g.nonempty
  rw [Shared.leave, dif_pos hne]
  exact congrArg some (Shared.ext rfl herase)

/-- The users are those from before without the one that left. -/
theorem Shared.mem_users_of_leave {g g' : Shared} {u : String} (h : g.leave u = some g') :
    ∀ u', u' ∈ g'.users ↔ u' ≠ u ∧ u' ∈ g.users := by
  unfold Shared.leave at h
  split at h
  · obtain rfl := Option.some.inj h
    exact fun u' => Finset.mem_erase
  · cases h

/-- File systems staged at a path, bound to a target path and mounted for a key. -/
structure Volumes where
  staged : String → Option String
  bound : String → Option String
  shared : Key → Option Shared

namespace Volumes

/-- A node without volumes. -/
def empty : Volumes := ⟨fun _ => none, fun _ => none, fun _ => none⟩

/-- A file system is staged, unless one is. -/
def stage (v : Volumes) (path device : String) : Volumes :=
  { v with staged := Function.update v.staged path (some ((v.staged path).getD device)) }

def unstage (v : Volumes) (path : String) : Volumes :=
  { v with staged := Function.update v.staged path none }

/-- A file system is bound to a target, unless one is. -/
def bind (v : Volumes) (target device : String) : Volumes :=
  { v with bound := Function.update v.bound target (some ((v.bound target).getD device)) }

def unbind (v : Volumes) (target : String) : Volumes :=
  { v with bound := Function.update v.bound target none }

/-- What is mounted for a key when a pod comes to use it. -/
def joined (v : Volumes) (k : Key) (device u : String) : Shared :=
  match v.shared k with
  | none => ⟨device, {u}, Finset.singleton_nonempty u⟩
  | some g => g.join u

def join (v : Volumes) (k : Key) (device u : String) : Volumes :=
  { v with shared := Function.update v.shared k (some (v.joined k device u)) }

/-- The pod leaves the keys in the list. -/
def leaveKeys (v : Volumes) (ks : List Key) (u : String) : Volumes :=
  { v with shared := fun k => if k ∈ ks then (v.shared k).bind (·.leave u) else v.shared k }

/-- The pod leaves all keys. -/
def leave (v : Volumes) (u : String) : Volumes :=
  { v with shared := fun k => (v.shared k).bind (·.leave u) }

/-- A pod leaves only keys that it uses. -/
theorem leaveKeys_eq_leave {v : Volumes} {ks : List Key} {u : String}
    (h : ∀ k g, v.shared k = some g → u ∈ g.users → k ∈ ks) : v.leaveKeys ks u = v.leave u := by
  have hshared : ∀ k, (if k ∈ ks then (v.shared k).bind (·.leave u) else v.shared k) =
      (v.shared k).bind (·.leave u) := by
    intro k
    split
    · rfl
    rename_i hk
    cases hg : v.shared k with
    | none => rfl
    | some g => exact (Shared.leave_of_notMem fun hu => hk (h k g hg hu)).symm
  simp only [leaveKeys, leave, hshared]

/-! ## Calls -/

/-- The file system that a volume context names for an IAM volume. -/
def sourceOf (srv : NodeServer) (vc : StrMap) : String :=
  match endpointOf srv vc with
  | .ok (ip, fsname) => lustreSource ip fsname
  | .error _ => ""

/-- An IAM publish: the pod joins the key, and its file system is bound to the target. -/
def publishIAM (v : Volumes) (k : Key) (device u target : String) : Volumes :=
  (v.join k device u).bind target (v.joined k device u).device

/-- The volumes after a call. -/
def after (srv : NodeServer) (v : Volumes) : NodeCall → Volumes
  | .stage req =>
    match validateStage srv req with
    | .ok (some (ip, fsname, _)) => v.stage req.stagingTargetPath (lustreSource ip fsname)
    | _ => v
  | .unstage req => v.unstage req.stagingTargetPath
  | .publish req =>
    match validatePublish srv req with
    | .error _ => v
    | .ok (vc, _) =>
      if isIAM srv vc then
        v.publishIAM (keyOf srv req.volumeID vc) (sourceOf srv vc) (identityOf srv vc).podUID
          req.targetPath
      else v.bind req.targetPath ((v.staged req.stagingTargetPath).getD req.stagingTargetPath)
  | .unpublish req =>
    match getPodUIDFromTargetPath req.targetPath with
    | none => v.unbind req.targetPath
    | some u => (v.unbind req.targetPath).leave u

end Volumes

/-! ## What kubelet sees to -/

/-- The paths that kubelet uses for the driver, none of which is a key or the mount of one, and the
file systems mounted on the node by others. -/
structure Site where
  kubelet : String → Prop
  foreign : List String
  not_name : ∀ q, kubelet q → ∀ k : Key, q ≠ k.name
  not_mount : ∀ q, kubelet q → ∀ k : Key, q ≠ (Path.mount k).render

/-- No file system on the node has the name. -/
structure Volumes.FreeName (site : Site) (v : Volumes) (fsname : String) : Prop where
  staged : ∀ q d, v.staged q = some d → extractFSName d ≠ fsname
  bound : ∀ q d, v.bound q = some d → extractFSName d ≠ fsname
  shared : ∀ k g, v.shared k = some g → extractFSName g.device ≠ fsname
  foreign : ∀ d ∈ site.foreign, extractFSName d ≠ fsname

/-- A stage call that mounts something: on a path of kubelet that is no target, with a new file
system name unless it is there already. -/
structure Volumes.PermitsMount (site : Site) (v : Volumes) (path fsname : String)
    (volCap : VolumeCapability) : Prop where
  kubelet : site.kubelet path
  bound : v.bound path = none
  plain : "bind" ∉ volCap.mountFlags
  free : v.staged path = none → v.FreeName site fsname

/-- A publish of a staged volume. -/
structure Volumes.PermitsBind (site : Site) (v : Volumes) (req : NodePublishVolumeRequest) :
    Prop where
  kubelet : site.kubelet req.stagingTargetPath
  staged : (v.staged req.stagingTargetPath).isSome

/-- A publish of an IAM volume: pod and principal are named, the target lies in the directory of the
pod, there is a token, and an address if the volume is not mounted for the principal yet. -/
structure Volumes.PermitsIAM (srv : NodeServer) (v : Volumes) (req : NodePublishVolumeRequest)
    (vc : StrMap) (volCap : VolumeCapability) : Prop where
  pod : (identityOf srv vc).podUID ≠ ""
  namespace_ : (identityOf srv vc).namespace_ ≠ ""
  saName : (identityOf srv vc).saName ≠ ""
  target : getPodUIDFromTargetPath req.targetPath = some (identityOf srv vc).podUID
  token : ∃ token, serviceToken srv req.volumeID (keyOf srv req.volumeID vc) vc = .ok token
  plain : "bind" ∉ volCap.mountFlags
  address : v.shared (keyOf srv req.volumeID vc) = none → ∃ ep, endpointOf srv vc = .ok ep

/-- What a publish call needs. -/
structure Volumes.PermitsPublish (srv : NodeServer) (site : Site) (v : Volumes)
    (req : NodePublishVolumeRequest) (vc : StrMap) (volCap : VolumeCapability) : Prop where
  valid : validatePublish srv req = .ok (vc, volCap)
  kubelet : site.kubelet req.targetPath
  staged : v.staged req.targetPath = none
  group : ReadableGroup volCap.volumeMountGroup req.readonly
  iam : isIAM srv vc = true → v.PermitsIAM srv req vc volCap
  legacy : isIAM srv vc = false → v.PermitsBind site req

/-- The calls that kubelet may make. -/
def Volumes.Permits (srv : NodeServer) (site : Site) (v : Volumes) : NodeCall → Prop
  | .stage req => ∃ m, validateStage srv req = .ok m ∧ ∀ ip fsname volCap,
      m = some (ip, fsname, volCap) → v.PermitsMount site req.stagingTargetPath fsname volCap
  | .unstage req => req.volumeID ≠ "" ∧ req.stagingTargetPath ≠ "" ∧
      site.kubelet req.stagingTargetPath ∧ v.bound req.stagingTargetPath = none
  | .publish req => ∃ vc volCap, v.PermitsPublish srv site req vc volCap
  | .unpublish req => req.targetPath ≠ "" ∧ site.kubelet req.targetPath ∧
      v.staged req.targetPath = none ∧
      ∀ u, getPodUIDFromTargetPath req.targetPath = some u → PlainUID u

/-- A sequence of calls each of which kubelet may make when its turn comes. -/
def Volumes.PermitsAll (srv : NodeServer) (site : Site) : Volumes → List NodeCall → Prop
  | _, [] => True
  | v, call :: calls => v.Permits srv site call ∧ PermitsAll srv site (v.after srv call) calls

/-- The volumes after a sequence of calls. -/
def Volumes.afterAll (srv : NodeServer) (v : Volumes) (calls : List NodeCall) : Volumes :=
  calls.foldl (Volumes.after srv) v

/-! ## Every use has its target -/

/-- Every pod that uses a key has a bound target. -/
def Volumes.Accounted (v : Volumes) : Prop :=
  ∀ k g, v.shared k = some g → ∀ u ∈ g.users,
    ∃ q, (v.bound q).isSome ∧ getPodUIDFromTargetPath q = some u

section Accounted

variable {srv : NodeServer} {site : Site} {v : Volumes}

/-- A node without volumes is accounted for. -/
theorem Volumes.accounted_empty : Volumes.empty.Accounted := by
  intro k g hg
  cases hg

/-- More is bound, and nobody else uses anything. -/
theorem Volumes.Accounted.bind (h : v.Accounted) (target device : String) :
    (v.bind target device).Accounted := by
  intro k g hg u hu
  obtain ⟨q, hq, hpod⟩ := h k g hg u hu
  refine ⟨q, ?_, hpod⟩
  by_cases heq : q = target
  · subst heq
    simp [Volumes.bind]
  · simpa [Volumes.bind, Function.update_of_ne heq] using hq

/-- A publish of an IAM volume is accounted for. -/
theorem Volumes.Accounted.publishIAM (h : v.Accounted) {k : Key} {device u target : String}
    (hpod : getPodUIDFromTargetPath target = some u) :
    (v.publishIAM k device u target).Accounted := by
  intro k' g hg u' hu'
  have htarget : ((v.publishIAM k device u target).bound target).isSome := by
    simp [Volumes.publishIAM, Volumes.bind]
  by_cases huu : u' = u
  · exact ⟨target, htarget, huu ▸ hpod⟩
  -- The other users were there before.
  have hold : ∃ g', v.shared k' = some g' ∧ u' ∈ g'.users := by
    by_cases hk : k' = k
    · subst hk
      have hg : v.joined k' device u = g := by
        simpa [Volumes.publishIAM, Volumes.bind, Volumes.join] using hg
      subst hg
      cases hshared : v.shared k' with
      | none => simp [Volumes.joined, hshared, huu] at hu'
      | some g' =>
        refine ⟨g', rfl, ?_⟩
        simpa [Volumes.joined, hshared, Shared.join, huu] using hu'
    · refine ⟨g, ?_, hu'⟩
      simpa [Volumes.publishIAM, Volumes.bind, Volumes.join, Function.update_of_ne hk] using hg
  obtain ⟨g', hg', hmem⟩ := hold
  obtain ⟨q, hq, hqpod⟩ := h k' g' hg' u' hmem
  refine ⟨q, ?_, hqpod⟩
  by_cases heq : q = target
  · exact heq ▸ htarget
  · simpa [Volumes.publishIAM, Volumes.bind, Volumes.join, Function.update_of_ne heq] using hq

/-- What is unbound belonged to nobody, or to a pod that uses nothing any more. -/
theorem Volumes.Accounted.unbind (h : v.Accounted) {v' : Volumes} {target : String}
    (hbound : v'.bound = (v.unbind target).bound)
    (hshared : ∀ k g', v'.shared k = some g' → ∃ g, v.shared k = some g ∧
      ∀ u' ∈ g'.users, u' ∈ g.users ∧ getPodUIDFromTargetPath target ≠ some u') : v'.Accounted := by
  intro k g' hg' u' hu'
  obtain ⟨g, hg, hmem⟩ := hshared k g' hg'
  obtain ⟨hu, hne⟩ := hmem u' hu'
  obtain ⟨q, hq, hpod⟩ := h k g hg u' hu
  refine ⟨q, ?_, hpod⟩
  have heq : q ≠ target := by
    rintro rfl
    exact hne hpod
  simpa [hbound, Volumes.unbind, Function.update_of_ne heq] using hq

/-- Every call that kubelet may make keeps the account. -/
theorem Volumes.Accounted.after (h : v.Accounted) {call : NodeCall} (hp : v.Permits srv site call) :
    (v.after srv call).Accounted := by
  cases call with
  | stage req =>
    simp only [Volumes.after]
    split
    · exact h
    · exact h
  | unstage req => exact h
  | publish req =>
    obtain ⟨vc, volCap, hp⟩ := hp
    simp only [Volumes.after, hp.valid]
    split
    · exact h.publishIAM (hp.iam ‹_›).target
    · exact h.bind _ _
  | unpublish req =>
    simp only [Volumes.after]
    split
    · rename_i hnone
      exact h.unbind rfl fun k g' hg' => ⟨g', hg', fun u' hu' => ⟨hu', by simp [hnone]⟩⟩
    rename_i u hu
    refine h.unbind rfl fun k g' hg' => ?_
    obtain ⟨g, hg, hleave⟩ := Option.bind_eq_some_iff.mp hg'
    refine ⟨g, hg, fun u' hu' => ?_⟩
    obtain ⟨hne, hmem⟩ := (Shared.mem_users_of_leave hleave u').mp hu'
    exact ⟨hmem, fun heq => hne (Option.some.inj (hu.symm.trans heq)).symm⟩

/-- Every sequence of permitted calls is accounted for. -/
theorem Volumes.Accounted.afterAll {calls : List NodeCall} (h : v.Accounted)
    (hp : v.PermitsAll srv site calls) : (v.afterAll srv calls).Accounted := by
  induction calls generalizing v with
  | nil => exact h
  | cons call calls ih => exact ih (h.after hp.1) hp.2

/-- When nothing is bound any more, nothing is mounted for any key. -/
theorem Volumes.Accounted.shared_eq_none (h : v.Accounted) (hbound : ∀ q, v.bound q = none)
    (k : Key) : v.shared k = none := by
  cases hg : v.shared k with
  | none => rfl
  | some g =>
    obtain ⟨u, hu⟩ := g.nonempty
    obtain ⟨q, hq, -⟩ := h k g hg u hu
    simp [hbound q] at hq

end Accounted

end LustreCsi.Interface
