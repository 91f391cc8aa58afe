import LustreCsi.Analysis.VolumeLifecycle
import LustreCsi.Interface.NodeCalls
import LustreCsi.Interface.Sample
import LustreCsi.Interface.VolumeContexts

/-!
# From the instance to the source of its mount

`CreateVolume` cuts the address out of the mount point that the backend reports and returns it with
the file-system name in the volume context; the node glues the two together again, or reads the
mount point itself if that is given. `mounted_source`: on all of these paths the reported mount
point is what is mounted.
-/

set_option autoImplicit false

namespace LustreCsi.Analysis.MountedSource

open LustreCsi.Computation Model Interface VolumeLifecycle

variable {volCap : VolumeCapability} {options : List String} {vc : StrMap}

/-! ## The address of an instance -/

/-- The address that `CreateVolume` cuts out of a mount point. -/
theorem parseInstanceIP_lustreSource {ip fsname : String} (hat : '@' ∉ ip.toList) :
    parseInstanceIP (lustreSource ip fsname) = .ok ip := by
  have hlist : (lustreSource ip fsname).toList = ip.toList ++ '@' :: ("tcp:/".toList ++
      fsname.toList) := lustreSource_toList ip fsname
  have hne : lustreSource ip fsname ≠ "" := fun h => by simp [h] at hlist
  obtain ⟨-, hfree, hs⟩ := split_eq_iff.mp
    (rfl : split (lustreSource ip fsname) '@' = split (lustreSource ip fsname) '@')
  cases hsplit : split (lustreSource ip fsname) '@' with
  | nil => simp [hsplit, hlist] at hs
  | cons x ls =>
    rw [hsplit] at hfree hs
    have hx : '@' ∉ x.toList := hfree x (by simp)
    cases ls with
    | nil =>
      have hsame : (lustreSource ip fsname).toList = x.toList := by
        simpa [List.intercalate] using hs
      exact absurd (hsame ▸ hlist ▸ by simp) hx
    | cons y ls =>
      have hcut : ip.toList ++ '@' :: ("tcp:/".toList ++ fsname.toList) = x.toList ++ '@' ::
          (['@'].intercalate ((y :: ls).map String.toList)) := by
        rw [← hlist, hs]
        simp [List.intercalate]
      have hnot : ∀ {l : List Char}, '@' ∉ l → ∀ c ∈ l, ¬c = '@' := fun hl c hc heq => hl (heq ▸ hc)
      obtain ⟨heq, -, -⟩ := cut_first (p := (· = '@')) (hnot hat) (hnot hx) rfl rfl hcut
      obtain rfl := String.toList_injective heq
      simp [parseInstanceIP, hne, hsplit]

/-- An instance with a mount point of the usual form, under the file-system name of that. -/
structure MountedAt (i : CloudInstance) (ip fsname : String) : Prop where
  mountPoint : i.mountPoint = lustreSource ip fsname
  filesystem : i.filesystem = fsname
  ip_ne : ip ≠ ""
  ip_at : '@' ∉ ip.toList
  ip_line : '\n' ∉ ip.toList
  fs_ne : fsname ≠ ""
  fs_slash : '/' ∉ fsname.toList

variable {i : CloudInstance} {ip fsname : String}

/-- The attributes that `CreateVolume` returns. -/
theorem volumeContext_of_mountedAt (h : MountedAt i ip fsname) {si : ServiceInstance}
    (hconv : cloudInstanceToServiceInstance i = .ok si) :
    (instanceToCSIVolume si).volumeContext =
      ((∅ : StrMap).insert keyInstanceIP ip).insert keyFilesystem fsname := by
  obtain ⟨p, l, n, ip', -, -, -, -, hip, rfl⟩ := cloudInstanceToServiceInstance_eq_ok.mp hconv
  rw [h.mountPoint, parseInstanceIP_lustreSource h.ip_at] at hip
  obtain rfl := Except.ok.inj hip
  simp [instanceToCSIVolume, h.filesystem]

/-! ## The attributes of a volume -/

/-- The attributes by which a volume of the instance is known to the node: those that `CreateVolume`
returned, or the mount point instead. -/
def Attributes (v : Volume) (i : CloudInstance) (attributes : StrMap) : Prop :=
  attributes = v.volumeContext ∨ attributes = (∅ : StrMap).insert keyMountPoint i.mountPoint

/-- What the node is to read from a normalised context. -/
structure Named (attributes : StrMap) (ip fsname : String) : Prop where
  known : ∀ key ∈ attributes, key ∈ volumeAttributes
  plain : keyIAMAccessControlEnabled ∉ attributes
  endpoint : lustreEndpoint (attributes.get keyInstanceIP) (attributes.get keyFilesystem)
    (attributes.get keyMountPoint) = .ok (ip, fsname)

/-- The attributes that the controller gives a volume name its instance's address and filesystem. -/
theorem named_of_attributes (h : MountedAt i ip fsname) {si : ServiceInstance}
    (hconv : cloudInstanceToServiceInstance i = .ok si) {attributes : StrMap}
    (hattr : Attributes (instanceToCSIVolume si) i attributes) : Named attributes ip fsname := by
  rcases hattr with rfl | rfl
  · rw [volumeContext_of_mountedAt h hconv]
    have hmem : ∀ key, key ∈ ((∅ : StrMap).insert keyInstanceIP ip).insert keyFilesystem fsname ↔
        key = keyFilesystem ∨ key = keyInstanceIP := fun key => by
      rw [AList.mem_insert, mem_insert_empty]
    refine ⟨fun key hkey => ?_, fun hmem' => ?_, lustreEndpoint_eq_ok.mpr ⟨h.ip_ne, h.fs_ne, ?_⟩⟩
    · rcases (hmem key).mp hkey with rfl | rfl <;> decide
    · exact absurd ((hmem _).mp hmem') (by decide)
    · rw [get_insert_of_ne _ (by decide), get_insert_of_ne _ (by decide), get_empty,
        get_insert_of_ne _ (by decide), get_insert_self, get_insert_self]
      exact ⟨rfl, rfl⟩
  · have hne : i.mountPoint ≠ "" := by
      rw [h.mountPoint]
      intro hempty
      have := congrArg String.toList hempty
      simp [lustreSource_toList] at this
    refine ⟨fun key hkey => ?_, fun hmem => ?_, lustreEndpoint_eq_ok.mpr ⟨h.ip_ne, h.fs_ne, ?_⟩⟩
    · obtain rfl := mem_insert_empty.mp hkey
      decide
    · exact absurd (mem_insert_empty.mp hmem) (by decide)
    · rw [get_insert_self, if_neg hne, h.mountPoint]
      exact parseMountPoint_lustreSource h.ip_ne h.ip_line h.fs_ne h.fs_slash

/-! ## The three paths -/

/-- A request to stage a volume that is in order apart from its volume context. -/
structure StageInOrder (req : NodeStageVolumeRequest) (volCap : VolumeCapability) : Prop where
  volumeID : req.volumeID ≠ ""
  path : req.stagingTargetPath ≠ ""
  capability : req.volumeCapability = some volCap
  valid : validateVolumeCapabilities [some volCap] = none

/-- A request to publish a volume that is in order apart from its volume context. -/
structure PublishInOrder (req : NodePublishVolumeRequest) (volCap : VolumeCapability) : Prop where
  volumeID : req.volumeID ≠ ""
  staging : req.stagingTargetPath ≠ ""
  path : req.targetPath ≠ ""
  capability : req.volumeCapability = some volCap
  valid : validateVolumeCapabilities [some volCap] = none

/-- The operation mounts nothing but the given source, as a Lustre file system. -/
def MountsOnly (source : String) (o : Op) : Prop :=
  ∀ source' target fstype options,
    o = .mountSensitiveWithoutSystemd source' target fstype options →
      source' = source ∧ fstype = "lustre"

/-- The operation mounts nothing but the given source below the root of the global mounts. -/
def MountsGlobal (source : String) (o : Op) : Prop :=
  ∀ source' k fstype options,
    o = .mountSensitiveWithoutSystemd source' (.mount k) fstype options →
      source' = source ∧ fstype = "lustre"

/-- The path is found to be a mount point, or the source is mounted there. -/
def FindsOrMounts (source : String) (p : Path) (e : Event nodeSig) : Prop :=
  e = ⟨.isLikelyNotMountPoint p, .ok false⟩ ∨
    ∃ options, e = ⟨.mountSensitiveWithoutSystemd source p "lustre" options, none⟩

/-- The request is accepted by `NodeStageVolume`, which mounts the source and nothing else; if it
succeeds, then the source is mounted at the staging path unless there was a mount before. -/
structure Stages (s : NodeServer) (req : NodeStageVolumeRequest) (source : String) : Prop where
  accepted : ∃ ip fsname volCap, validateStage s req = .ok (some (ip, fsname, volCap))
  only : (nodeStageVolume s req).All (MountsOnly source)
  mounts : ∀ tr, Yields (nodeStageVolume s req) tr none →
    ∃ e ∈ tr, FindsOrMounts source (.outside req.stagingTargetPath) e

/-- The request is accepted by `NodePublishVolume` as one for an IAM volume, the global mount of
which is of the source and of nothing else; if the call succeeds, then the source is mounted at the
directory of the key unless there was a mount before. -/
structure PublishesIAM (s : NodeServer) (req : NodePublishVolumeRequest) (source : String) :
    Prop where
  accepted : ∃ vc volCap, validatePublish s req = .ok (vc, volCap) ∧ isIAM s vc = true
  only : (nodePublishVolume s req).All (MountsGlobal source)
  mounts : ∀ tr, Yields (nodePublishVolume s req) tr none →
    ∃ k, ∃ e ∈ tr, FindsOrMounts source (.mount k) e

variable {s : NodeServer} {attributes : StrMap}

/-- A volume context with the attributes is accepted by `NodeStageVolume`. -/
theorem validateStage_of_named (hn : Named attributes ip fsname) {req : NodeStageVolumeRequest}
    (hreq : StageInOrder req volCap) (hctx : Extends s.unicode attributes req.volumeContext) :
    validateStage s req = .ok (some (ip, fsname, volCap)) := by
  obtain ⟨n, hnorm, hget⟩ := normalizeVolumeContext_of_extends hn.known hctx
  have hip : n.get keyInstanceIP = attributes.get keyInstanceIP := by
    rw [← hget keyInstanceIP (by decide), normalize_attribute (by decide)]
    rfl
  have hfs : n.get keyFilesystem = attributes.get keyFilesystem := by
    rw [← hget keyFilesystem (by decide), normalize_attribute (by decide)]
    rfl
  have hiam : toLower s.unicode (n.get (normalize s.unicode keyIAMAccessControlEnabled)) ≠
      "true" := by
    rw [hget _ (by decide), StrMap.get, AList.lookup_eq_none.mpr hn.plain]
    simp [toLower]
  simp only [validateStage, if_neg hreq.volumeID, hnorm, hip, hfs, hget keyMountPoint (by decide),
    hn.endpoint, if_neg hiam, if_neg hreq.path, hreq.capability, hreq.valid]

/-- A mount of a source mounts only that source. -/
theorem mountsOnly_self {source : String} {target : Path} :
    MountsOnly source (.mountSensitiveWithoutSystemd source target "lustre" options) := by
  rintro source' target' fstype options' ⟨⟩
  exact ⟨rfl, rfl⟩

/-- A Lustre mount of a source mounts no other one below the root. -/
theorem mountsGlobal_self {source : String} {target : Path} :
    MountsGlobal source (.mountSensitiveWithoutSystemd source target "lustre" options) :=
  fun source' k => mountsOnly_self source' (.mount k)

/-- A path is not found to be a mount point without the answer that it is one. -/
theorem must_isMounted (source : String) (p : Path) :
    (isMounted p).Must (FindsOrMounts source p) (· = .ok true) := by
  refine Program.Must.bind (S := nodeSig) (Q := (· = .ok false))
    (.perform fun r hr => .inl (hr ▸ rfl)) fun r hr => ?_
  split
  · rename_i notMnt
    exact .pure fun h => hr (by simpa using h)
  split
  · exact .pure (by simp)
  refine .then fun r => ?_
  split
  · exact .pure (by simp)
  split
  · refine .then fun r => ?_
    split <;> exact .pure (by simp)
  · exact .pure (by simp)

/-- What a success needs under a lock. -/
theorem must_withLock {ε : Type} {φ : Event nodeSig → Prop} {x : String} {refused : ε}
    {body : NodeM (Option ε)} (hbody : body.Must φ (· = none)) :
    (withLock x refused body).Must φ (· = none) := by
  refine .then fun acquired => ?_
  split
  · refine .bind hbody fun err herr => .then fun _ => ?_
    exact .pure herr
  · exact .pure (by simp)

/-- A mount whose success is that of the function. -/
theorem must_mount {source : String} {p : Path} {f : Option OsError → NodeM (Option Status)}
    (hf : ∀ err, (f (some err)).Must (FindsOrMounts source p) (· = none)) :
    (perform (.mountSensitiveWithoutSystemd source p "lustre" options) >>= f).Must
      (FindsOrMounts source p) (· = none) := by
  refine Program.Must.bind (S := nodeSig) (Q := (· = none))
    (.perform fun r hr => .inr ⟨options, hr ▸ rfl⟩) fun r hr => ?_
  cases r with
  | none => exact absurd rfl hr
  | some err => exact hf err

/-- What `NodeStageVolume` mounts is the source of the volume. -/
theorem stages_of_validateStage {req : NodeStageVolumeRequest}
    (hval : validateStage s req = .ok (some (ip, fsname, volCap))) :
    Stages s req (lustreSource ip fsname) := by
  have hprog : nodeStageVolume s req = withLock req.stagingTargetPath
      ⟨.aborted, volumeOperationAlreadyExists req.stagingTargetPath⟩
      (stageLocked s req ip fsname volCap) := by
    simp only [nodeStageVolume, hval]
  refine ⟨⟨ip, fsname, volCap, hval⟩, ?_, fun tr htr => ?_⟩
  · rw [hprog]
    refine all_withLock ?_ ?_ (all_stageLocked s (all_isMounted ?_ ?_ ?_) ?_ ?_
      (all_mountStaged s ?_ (fun _ => mountsOnly_self) (all_unmountPath s ?_ ?_ ?_)))
    all_goals simp [MountsOnly]
  · rw [hprog] at htr
    refine htr.exists_mem (must_withLock ?_) rfl
    refine .bind (must_isMounted _ _) fun r hr => ?_
    split
    · exact .pure (by simp)
    · exact absurd rfl hr
    · refine .then fun r => ?_
      split
      · exact .pure (by simp)
      · exact .pure (by simp)
      · refine .then fun r => ?_
        split
        · exact .pure (by simp)
        refine .then fun r => ?_
        split
        · exact .pure (by simp)
        · exact must_mount fun err => .then fun _ => .pure (by simp)

/-- A volume context with the attributes is accepted as one of an IAM volume with this endpoint. -/
theorem validatePublish_of_named (hn : Named attributes ip fsname) {val : String}
    (hval : equalFoldTrue val = true) {req : NodePublishVolumeRequest}
    (hreq : PublishInOrder req volCap)
    (hctx : Extends s.unicode (attributes.insert keyIAMAccessControlEnabled val)
      req.volumeContext) :
    ∃ vc, validatePublish s req = .ok (vc, volCap) ∧ isIAM s vc = true ∧
      lustreEndpoint (vc.get (normalize s.unicode keyInstanceIP))
        (vc.get (normalize s.unicode keyFilesystem)) (vc.get (normalize s.unicode keyMountPoint)) =
          .ok (ip, fsname) := by
  have hknown : ∀ key ∈ attributes.insert keyIAMAccessControlEnabled val,
      key ∈ volumeAttributes := by
    intro key hkey
    rcases (AList.mem_insert _).mp hkey with rfl | hkey
    · decide
    · exact hn.known key hkey
  obtain ⟨n, hnorm, hget⟩ := normalizeVolumeContext_of_extends hknown hctx
  have hsame : ∀ a ∈ volumeAttributes, a ≠ keyIAMAccessControlEnabled →
      n.get (normalize s.unicode a) = attributes.get a := fun a ha hne => by
    rw [hget a ha, get_insert_of_ne _ hne]
  refine ⟨n, ?_, ?_, ?_⟩
  · simp only [validatePublish, if_neg hreq.volumeID, if_neg hreq.staging, if_neg hreq.path,
      hreq.capability, hreq.valid, hnorm]
  · rw [isIAM, hget _ (by decide), get_insert_self]
    exact hval
  · rw [hsame _ (by decide) (by decide), hsame _ (by decide) (by decide),
      hsame _ (by decide) (by decide)]
    exact hn.endpoint

/-- The global mount, or the answer that there is one. -/
theorem must_ensureGlobalMount {volumeID principal : String} {k : Key}
    (hend : lustreEndpoint (vc.get (normalize s.unicode keyInstanceIP))
      (vc.get (normalize s.unicode keyFilesystem)) (vc.get (normalize s.unicode keyMountPoint)) =
        .ok (ip, fsname)) :
    (ensureGlobalMount s volumeID principal k vc volCap).Must
      (FindsOrMounts (lustreSource ip fsname) (.mount k)) (· = none) := by
  refine .then fun r => ?_
  split
  · exact .pure (by simp)
  split
  · exact .pure (by simp)
  refine .then fun r => ?_
  split
  · exact .pure (by simp)
  refine .bind (must_isMounted _ _) fun r hr => ?_
  split
  · exact .pure (by simp)
  · exact absurd rfl hr
  · simp only [mountGlobalIAM, hend]
    refine .then fun r => ?_
    split
    · exact .pure (by simp)
    · exact must_mount fun err => .then fun _ => .pure (by simp)

/-- The Lustre mount of a key has the source that the volume context names. -/
theorem mountsGlobal_ensureGlobalMount {volumeID principal : String} {k : Key}
    (hend : lustreEndpoint (vc.get (normalize s.unicode keyInstanceIP))
      (vc.get (normalize s.unicode keyFilesystem)) (vc.get (normalize s.unicode keyMountPoint)) =
        .ok (ip, fsname)) :
    (ensureGlobalMount s volumeID principal k vc volCap).All
      (MountsGlobal (lustreSource ip fsname)) := by
  have hmount : ∀ ip' fsname' options,
      lustreEndpoint (vc.get (normalize s.unicode keyInstanceIP))
        (vc.get (normalize s.unicode keyFilesystem)) (vc.get (normalize s.unicode keyMountPoint)) =
          .ok (ip', fsname') →
      MountsGlobal (lustreSource ip fsname)
        (.mountSensitiveWithoutSystemd (lustreSource ip' fsname') (.mount k) "lustre" options) := by
    intro ip' fsname' options hend'
    obtain ⟨rfl, rfl⟩ := Prod.mk.inj (Except.ok.inj (hend.symm.trans hend'))
    exact mountsGlobal_self
  refine all_ensureGlobalMount s ?_ ?_ ?_ ?_ ?_ ?_ ?_ ?_ (all_mountGlobalIAM s ?_ hmount ?_ ?_ ?_)
  all_goals simp [MountsGlobal]

/-- What is mounted for an IAM volume is the source of the volume. -/
theorem publishesIAM_of_validatePublish {req : NodePublishVolumeRequest}
    (hval : validatePublish s req = .ok (vc, volCap)) (hiam : isIAM s vc = true)
    (hend : lustreEndpoint (vc.get (normalize s.unicode keyInstanceIP))
      (vc.get (normalize s.unicode keyFilesystem)) (vc.get (normalize s.unicode keyMountPoint)) =
        .ok (ip, fsname)) :
    PublishesIAM s req (lustreSource ip fsname) := by
  have hprog : nodePublishVolume s req = withLock req.targetPath
      ⟨.aborted, volumeOperationAlreadyExists req.targetPath⟩ (publishLocked s req vc volCap) := by
    simp only [nodePublishVolume, hval]
  refine ⟨⟨vc, volCap, hval, hiam⟩, ?_, fun tr htr => ?_⟩
  · have hcleanup : (unmountPath s (.outside req.targetPath)).All
        (MountsGlobal (lustreSource ip fsname)) := by
      apply all_unmountPath
      all_goals simp [MountsGlobal]
    rw [hprog]
    refine all_withLock (by simp [MountsGlobal]) (by simp [MountsGlobal]) ?_
    refine .bind (all_makeDir (by simp [MountsGlobal])) fun r => ?_
    split
    · exact .pure
    refine .bind (all_isMounted ?_ ?_ ?_) fun r => ?_
    iterate 3 simp [MountsGlobal]
    split
    · exact .pure
    refine .bind ?_ fun r => ?_
    · simp only [publishMounts, if_pos hiam, publishIAMVolume]
      split
      · exact .pure
      split
      · exact .pure
      split
      · exact .pure
      refine all_withLock (by simp [MountsGlobal]) (by simp [MountsGlobal]) ?_
      refine .bind (mountsGlobal_ensureGlobalMount hend) fun r => ?_
      split
      · exact .pure
      refine all_bindPod s ?_ ?_ ?_ ?_ ?_ fun _ => hcleanup
      all_goals simp [MountsGlobal]
    · split
      · exact .pure
      · refine all_publishOwnership s ?_ ?_ ?_ hcleanup _ _
        all_goals simp [MountsGlobal]
  · rw [hprog] at htr
    refine ⟨keyOf s req.volumeID vc, htr.exists_mem (must_withLock ?_) rfl⟩
    refine .then fun r => ?_
    split
    · exact .pure (by simp)
    refine .then fun r => ?_
    split
    · exact .pure (by simp)
    refine .bind (Q := (· = none)) ?_ fun r hr => ?_
    · simp only [publishMounts, if_pos hiam, publishIAMVolume]
      split
      · exact .pure (by simp)
      split
      · exact .pure (by simp)
      split
      · exact .pure (by simp)
      refine must_withLock (.bind (must_ensureGlobalMount hend) fun r hr => ?_)
      obtain ⟨err, rfl⟩ := Option.ne_none_iff_exists'.mp hr
      exact .pure (by simp)
    · obtain ⟨err, rfl⟩ := Option.ne_none_iff_exists'.mp hr
      exact .pure (by simp)

/-- **The source of a mount.** Whenever `CreateVolume` succeeds with an instance whose mount point
is `<ip>@tcp:/<fsname>`, the volume context that it returns, and likewise one with the mount point
itself, is accepted by `NodeStageVolume` whatever keys Kubernetes has added, and the mount point is
what is mounted; so it is when the volume is mounted with IAM access control.
SOURCE: pkg/csi_driver/controller.go:264-273, pkg/cloud_provider/lustre/lustre.go:409-450,
pkg/csi_driver/node.go:96-133, 421-450 -/
theorem mounted_source {σ : Type} {backend : σ → (o : ctrlSig.Op) → ctrlSig.Res o → σ → Prop}
    {cs : ControllerServer} {creq : CreateVolumeRequest} {a b : σ} {tr : List (Event ctrlSig)}
    {v : Volume} (h : Exec backend (createVolume cs creq) a tr (.ok (some v)) b)
    (hr : Reports tr i) (hi : MountedAt i ip fsname) (hattr : Attributes v i attributes) :
    (∀ (s : NodeServer) req volCap, StageInOrder req volCap →
      Extends s.unicode attributes req.volumeContext → Stages s req i.mountPoint) ∧
    ∀ (s : NodeServer) req volCap val, PublishInOrder req volCap → equalFoldTrue val = true →
      Extends s.unicode (attributes.insert keyIAMAccessControlEnabled val) req.volumeContext →
        PublishesIAM s req i.mountPoint := by
  obtain ⟨i', si, hconv, rfl, -, huniq⟩ := volume_of_reports h
  obtain rfl := huniq i hr
  have hn := named_of_attributes hi hconv hattr
  rw [hi.mountPoint]
  constructor
  · intro s req volCap hreq hctx
    exact stages_of_validateStage (validateStage_of_named hn hreq hctx)
  · intro s req volCap val hreq hval hctx
    obtain ⟨vc, hvalid, hiam, hend⟩ := validatePublish_of_named hn hval hreq hctx
    exact publishesIAM_of_validatePublish hvalid hiam hend

section Sample

open Interface.ControllerSample Interface.Sample

/-- An instance of the sample project. -/
def sampleInstance : CloudInstance where
  network := "net"
  description := []
  labels := ∅
  capacityGib := 18000
  filesystem := "lustrefs"
  gkeSupportEnabled := false
  perUnitStorageThroughput := 1000
  name := resourceName "proj" "us-central1-a" "vol"
  mountPoint := "10.0.0.2@tcp:/lustrefs"
  state := .active

/-- The request to stage its volume, with a key that the provisioner has added. -/
def stageRequest : NodeStageVolumeRequest where
  volumeID := "proj/us-central1-a/vol"
  stagingTargetPath := "/staging"
  volumeCapability := some (mountCapability "")
  volumeContext := (((∅ : StrMap).insert keyInstanceIP "10.0.0.2").insert keyFilesystem
    "lustrefs").insert "storage.kubernetes.io/csiProvisionerIdentity" "1-lustre"

/-- The call for it on a new node ends well, and the instance is mounted. -/
theorem stage_played :
    ((play (S := nodeSig) NodeState.exec (nodeStageVolume sampleServer stageRequest)
      [.ok, .probe (.ok true), .ok, .ok, .ok, .ok] freshNode).map fun rs =>
        (rs.1, rs.2.mounts.map fun m => (m.device, m.path))) =
      some (none, [("10.0.0.2@tcp:/lustrefs", .outside "/staging")]) := by
  decide +kernel

/-- The instance of the sample has the mount point of its address and filesystem. -/
theorem mountedAt_sampleInstance : MountedAt sampleInstance "10.0.0.2" "lustrefs" where
  mountPoint := rfl
  filesystem := rfl
  ip_ne := by decide
  ip_at := by decide
  ip_line := by decide
  fs_ne := by decide
  fs_slash := by decide

/-- The volume of an instance is created and staged, and the instance is mounted. -/
theorem mounted_source_staged :
    ∃ tr v, Exec anyAnswer (createVolume server (createRequest "vol")) () tr (.ok (some v)) () ∧
      Reports tr sampleInstance ∧
      Extends sampleServer.unicode v.volumeContext stageRequest.volumeContext ∧
      Stages sampleServer stageRequest sampleInstance.mountPoint ∧
      ∃ s', Reaches (stepOf NodeState.exec) (nodeStageVolume sampleServer stageRequest) freshNode none s' ∧
        s'.mounts.map (fun m => (m.device, m.path)) =
          [(sampleInstance.mountPoint, .outside "/staging")] := by
  have hip : parseInstanceIP sampleInstance.mountPoint = .ok "10.0.0.2" := by
    rw [mountedAt_sampleInstance.mountPoint]
    exact parseInstanceIP_lustreSource mountedAt_sampleInstance.ip_at
  have hconv := cloudInstanceToServiceInstance_eq_ok.mpr ⟨"proj", "us-central1-a", "vol",
    "10.0.0.2", by decide, by decide, by decide, (rfl : sampleInstance.name = _), hip, rfl⟩
  obtain ⟨tr, hexec, hreports⟩ := exists_reported hconv
  have hcontext := volumeContext_of_mountedAt mountedAt_sampleInstance hconv
  have hextends : Extends sampleServer.unicode (((∅ : StrMap).insert keyInstanceIP
      "10.0.0.2").insert keyFilesystem "lustrefs") stageRequest.volumeContext := by
    refine extends_insert _ (by decide) (by decide) fun key hkey => ?_
    rcases (AList.mem_insert _).mp hkey with rfl | hkey
    · decide
    obtain rfl := mem_insert_empty.mp hkey
    decide
  have hreq : StageInOrder stageRequest (mountCapability "") :=
    ⟨by decide, by decide, rfl, by decide⟩
  rw [← hcontext] at hextends
  obtain ⟨⟨r, s'⟩, hplay, hobs⟩ := Option.map_eq_some_iff.mp stage_played
  obtain ⟨rfl, hmounts⟩ := Prod.mk.inj hobs
  obtain ⟨tr', hrun⟩ := play_exec _ hplay
  exact ⟨tr, _, hexec, hreports, hextends, (mounted_source hexec hreports mountedAt_sampleInstance
    (.inl rfl)).1 sampleServer stageRequest _ hreq hextends, s', ⟨tr', hrun⟩, hmounts⟩

end Sample

end LustreCsi.Analysis.MountedSource
