import LustreCsi.Interface.Faultless
import LustreCsi.Interface.Sample

/-!
# Publishing a volume that is already published

Kubelet repeats NodePublishVolume for running pods. The cleanup after a failed change of ownership
is not guarded and takes the mount of the running pod away. `republish_keeps_iff`: a call that
returns an error is sure to leave the target mounted exactly when it cannot get as far as that.
-/

set_option autoImplicit false

namespace LustreCsi.Analysis.Republish

open LustreCsi.Computation Model Interface

variable {volumeID principal : String} {vc : StrMap} {volCap : VolumeCapability}
  {req : NodePublishVolumeRequest} {s s' : NodeState} {tr : List (Event nodeSig)}

/-- What an IAM volume needs so that all steps before the change of ownership can succeed. -/
structure IAMReady (srv : NodeServer) (s : NodeState) (req : NodePublishVolumeRequest)
    (vc : StrMap) : Prop where
  podUID : (identityOf srv vc).podUID ≠ ""
  namespace_ : (identityOf srv vc).namespace_ ≠ ""
  saName : (identityOf srv vc).saName ≠ ""
  lock : (keyOf srv req.volumeID vc).name ∉ insert req.targetPath s.locks
  token : ∃ token, serviceToken srv req.volumeID (keyOf srv req.volumeID vc) vc = .ok token
  endpoint : s.mounted (.mount (keyOf srv req.volumeID vc)) = true ∨
    ∃ ep, lustreEndpoint (vc.get (normalize srv.unicode keyInstanceIP))
      (vc.get (normalize srv.unicode keyFilesystem)) (vc.get (normalize srv.unicode keyMountPoint)) =
        .ok ep

/-- The request changes the ownership of the target: it is valid, its lock is free, it asks for
a group and is not read-only, and an IAM volume has what it needs. -/
def ChangesOwnership (srv : NodeServer) (s : NodeState) (req : NodePublishVolumeRequest) : Prop :=
  ∃ vc volCap, validatePublish srv req = .ok (vc, volCap) ∧ req.targetPath ∉ s.locks ∧
    req.readonly = false ∧ volCap.volumeMountGroup ≠ "" ∧
    (isIAM srv vc = true → IAMReady srv s req vc)

section Calls

variable {srv : NodeServer} {k : Key} {targetPath : String}

/-! ## Up to the change of ownership the target stays mounted -/

/-- Ensuring the mount of a key makes no mount at the target path. -/
theorem ensureGlobalMount_mounts :
    (ensureGlobalMount srv volumeID principal k vc volCap).All
      fun o : Op => opMount o ≠ some (.outside targetPath) := by
  refine all_ensureGlobalMount srv ?_ ?_ ?_ ?_ ?_ ?_ ?_ ?_ ?_
  on_goal 9 => apply all_mountGlobalIAM
  all_goals simp [opMount]

/-- When the target is mounted already, the mounts of the call leave it alone. -/
theorem publishMounts_mounts :
    (publishMounts srv req vc volCap true).All
      fun o : Op => opMount o ≠ some (.outside req.targetPath) := by
  simp only [publishMounts]
  split
  · simp only [publishIAMVolume]
    split
    · exact .pure
    split
    · exact .pure
    split
    · exact .pure
    refine all_withLock (by simp [opMount]) (by simp [opMount]) ?_
    refine .bind ensureGlobalMount_mounts fun r => ?_
    split
    · exact .pure
    apply all_bindPod
    all_goals simp [opMount]
  · exact .pure

/-- What a successful `ensureGlobalMount` needs. -/
theorem ready_of_ensureGlobalMount
    (h : Exec (nodeStep True) (ensureGlobalMount srv volumeID principal k vc volCap) s tr none s') :
    (∃ token, serviceToken srv volumeID k vc = .ok token) ∧
      (s.mounted (.mount k) = true ∨
        ∃ ep, lustreEndpoint (vc.get (normalize srv.unicode keyInstanceIP))
          (vc.get (normalize srv.unicode keyFilesystem))
          (vc.get (normalize srv.unicode keyMountPoint)) = .ok ep) := by
  obtain ⟨token, htoken, ⟨hmounted, -⟩ | ⟨-, hendpoint, -⟩⟩ := exec_ensureGlobalMount_none h
  · exact ⟨⟨token, htoken⟩, .inl hmounted⟩
  · exact ⟨⟨token, htoken⟩, .inr hendpoint⟩

/-- An IAM volume whose mounts have succeeded had what it needs. -/
theorem iamReady_of_publishIAMVolume {options : List String} {s₀ : NodeState}
    (hlocks : s₀.locks = insert req.targetPath s.locks)
    (hmounts : s₀.mountsAt (.mount (keyOf srv req.volumeID vc)) =
      s.mountsAt (.mount (keyOf srv req.volumeID vc)))
    (h : Exec (nodeStep True) (publishIAMVolume srv req.volumeID req.targetPath true vc options volCap)
      s₀ tr none s') : IAMReady srv s req vc := by
  simp only [publishIAMVolume] at h
  split at h
  · simpa using (exec_pure.mp h).2.1
  split at h
  · simpa using (exec_pure.mp h).2.1
  split at h
  · simpa using (exec_pure.mp h).2.1
  rename_i hpod hns hsa
  rcases exec_withLock step_of_nodeStep h with ⟨-, hr, -⟩ | ⟨hfree, tr₁, s₁, hbody, -, -⟩
  · simp at hr
  obtain ⟨tr₂, res, s₂, tr₃, hglobal, hrest, -⟩ := exec_bind.mp hbody
  cases res with
  | some err => simpa using (exec_pure.mp hrest).2.1
  | none =>
    obtain ⟨htoken, hendpoint⟩ := ready_of_ensureGlobalMount hglobal
    have hkey : s₀.mounted (.mount (keyOf srv req.volumeID vc)) =
      s.mounted (.mount (keyOf srv req.volumeID vc)) := mounted_eq_of_mountsAt hmounts
    refine ⟨hpod, hns, hsa, hlocks ▸ hfree, htoken, hendpoint.imp_left fun hm => ?_⟩
    rw [← hkey]
    exact hm

/-- The cleanup at the end comes only after a change of ownership has been attempted. -/
theorem ownership_of_error {target : Path} {fsGroup : String} {readonly : Bool} {err : Status}
    (h : Exec (nodeStep True) (publishOwnership srv target fsGroup readonly) s tr (some err) s') :
    readonly = false ∧ fsGroup ≠ "" := by
  obtain ⟨tr₁, res, s₁, tr₂, hset, hrest, -⟩ := exec_bind.mp h
  cases res with
  | none => simpa using (exec_pure.mp hrest).2.1
  | some text =>
    unfold setVolumeOwnershipTopLevel at hset
    split at hset
    · simpa using (exec_pure.mp hset).2.1
    split at hset
    · simpa using (exec_pure.mp hset).2.1
    · exact ⟨by simpa using ‹¬readonly = true›, ‹_›⟩

/-- A call that returns an error has left the target as it was, or has changed the ownership. -/
theorem kept_or_changesOwnership {err : Status}
    (h : Exec (nodeStep True) (nodePublishVolume srv req) s tr (some err) s')
    (hmounted : s.mounted (.outside req.targetPath) = true) :
    s'.mountsAt (.outside req.targetPath) = s.mountsAt (.outside req.targetPath) ∨
      ChangesOwnership srv s req := by
  unfold nodePublishVolume at h
  split at h
  · obtain ⟨-, -, rfl⟩ := exec_pure.mp h
    exact .inl rfl
  rename_i vc volCap hvalid
  rcases exec_withLock step_of_nodeStep h with ⟨-, -, rfl, -⟩ | ⟨hfree, tr₁, s₁, hbody, rfl, -⟩
  · exact .inl rfl
  change s₁.mountsAt _ = _ ∨ _
  obtain ⟨tr₂, made, s₂, tr₃, hmake, hrest, -⟩ := exec_bind.mp hbody
  have hs₂ : ∀ q, s₂.mountsAt q = s.mountsAt q := by
    intro q
    have hkept := exec_mountsAt (q := q) step_of_nodeStep (all_makeDir (by simp [opMount])) hmake
    exact hkept
  have hlocks : s₂.locks = insert req.targetPath s.locks :=
    exec_locks step_of_nodeStep (all_makeDir (by simp [lockEvent])) hmake
  cases made with
  | some e =>
    obtain ⟨-, -, rfl⟩ := exec_pure.mp hrest
    exact .inl (hs₂ _)
  | none =>
    -- The directory exists now, so that an accurate probe finds the mount.
    have hpresent : s₂.pathPresent (.outside req.targetPath) = true := by
      rw [exec_makeDir_none hmake]
      exact pathPresent_mkdirAll_outside _ _
    obtain ⟨tr₄, probe, s₃, tr₅, hprobe, hrest₂, -⟩ := exec_bind.mp hrest
    obtain ⟨rfl, -, hmissing⟩ := exec_isMounted hprobe
    match probe with
    | .error e =>
      obtain ⟨-, -, rfl⟩ := exec_pure.mp hrest₂
      exact .inl (hs₂ _)
    | .ok false =>
      have := hmissing rfl ((mounted_eq_of_mountsAt (hs₂ _)).trans hmounted)
      simp [hpresent] at this
    | .ok true =>
      obtain ⟨tr₆, res, s₄, tr₇, hmounts, hrest₃, -⟩ := exec_bind.mp hrest₂
      have hs₄ := exec_mountsAt step_of_nodeStep publishMounts_mounts hmounts
      cases res with
      | some e =>
        obtain ⟨-, -, rfl⟩ := exec_pure.mp hrest₃
        exact .inl (hs₄.trans (hs₂ _))
      | none =>
        obtain ⟨hreadonly, hgroup⟩ := ownership_of_error hrest₃
        refine .inr ⟨vc, volCap, hvalid, hfree, hreadonly, hgroup, fun hiam => ?_⟩
        simp only [publishMounts, hiam, if_true] at hmounts
        exact iamReady_of_publishIAMVolume hlocks (hs₂ _) hmounts

/-! ## The change of ownership takes the mount away -/

/-- What a node on which nothing goes wrong does, an accurate one may do. -/
theorem reaches_of_faultless {α : Type} {p : NodeM α} {Q : α → NodeState → Prop}
    (h : Faultless p Q s) : ∃ a s', Reaches (nodeStep True) p s a s' ∧ Q a s' := by
  obtain ⟨a, s', ⟨tr, hrun⟩, hQ⟩ := h.reaches
  exact ⟨a, s', ⟨tr, hrun.mono fun _ _ _ _ => nodeStep_of_faultless⟩, hQ⟩

/-- All mounts of the call succeed. -/
theorem faultless_publishMounts (volCap : VolumeCapability)
    (hpresent : s.pathPresent (.outside req.targetPath) = true)
    (hready : isIAM srv vc = true → ∃ s₀ : NodeState, s.locks = insert req.targetPath s₀.locks ∧
      (∀ q, s.mountsAt q = s₀.mountsAt q) ∧ IAMReady srv s₀ req vc) :
    Faultless (publishMounts srv req vc volCap true) (fun r _ => r = none) s := by
  simp only [publishMounts]
  cases hiam : isIAM srv vc with
  | false => exact .pure rfl
  | true =>
    obtain ⟨s₀, hlocks, hmounts, h⟩ := hready hiam
    obtain ⟨token, htoken⟩ := h.token
    simp only [publishIAMVolume, if_neg h.podUID, if_neg h.namespace_, if_neg h.saName, if_true]
    refine cooperative_faultless.withLock (hlocks ▸ h.lock) ?_
    -- The address is needed only where the key is not mounted yet.
    obtain ⟨source, hsource⟩ : ∃ source, s.mounted (.mount (keyOf srv req.volumeID vc)) = false →
        ∃ ip fsname, endpointOf srv vc = .ok (ip, fsname) ∧ source = lustreSource ip fsname := by
      rcases h.endpoint with hm | ⟨⟨ip, fsname⟩, hep⟩
      · exact ⟨"", fun hnot => by simp [mounted_eq_of_mountsAt (hmounts _), hm] at hnot⟩
      · exact ⟨_, fun _ => ⟨ip, fsname, hep, rfl⟩⟩
    refine .bind (faultless_ensureGlobalMount htoken hsource) ?_
    rintro _ _ ⟨rfl, rfl⟩
    have hrefs : ∀ s k, (replaceToken (makeDirs s k) k token).pathPresent (.refs k) = true := by
      simp [NodeState.pathPresent, dir_replaceToken_makeDirs]
    refine (faultless_bindPod ?_ ?_).mono fun r _ hr => hr.1
    all_goals unfold ensured
    · split <;> exact hrefs _ _
    · split <;> exact hpresent

/-- A change of ownership can fail, and then the topmost mount of the target is taken away. -/
theorem reaches_publishOwnership (srv : NodeServer) {target : Path} {fsGroup : String}
    (hgroup : fsGroup ≠ "") (hmounted : s.mounted target = true) :
    ∃ err s', Reaches (nodeStep True) (publishOwnership srv target fsGroup false) s (some err) s' ∧
      s'.mountsAt target = (s.mountsAt target).tail := by
  obtain ⟨text, hset⟩ : ∃ text, Reaches (nodeStep True)
      (setVolumeOwnershipTopLevel target fsGroup false) s (some text) s := by
    have hlstat : nodeStep True s (.lstat target) (.error ⟨.other, "stale NFS file handle"⟩) s :=
      nodeStep_of_exec (.fail "stale NFS file handle" false) rfl trivial
    unfold setVolumeOwnershipTopLevel
    rw [if_neg (by simp), if_neg hgroup]
    split
    · exact ⟨_, .ret _ _⟩
    · exact ⟨_, .bind (reaches_perform hlstat (.ret _ _)) (.ret _ _)⟩
  have hprobe : nodeStep True s (.isLikelyNotMountPoint target) (.ok false) s :=
    nodeStep_of_exec (.probe (.ok false)) rfl (by simp [Accurate, hmounted])
  have humount : nodeStep True s (.umount [] target) ("", none) (s.detach target) :=
    nodeStep_of_exec (.umounted "" none true) (by simp [NodeState.exec, hmounted]) trivial
  obtain ⟨a, s', hremove⟩ := exists_reaches (nodeStep_total True) (removeDir target) (s.detach target)
  have hunmount : Reaches (nodeStep True) (unmountPath srv target) s a s' :=
    reaches_perform hprobe (reaches_perform humount hremove)
  refine ⟨⟨.internal, text⟩, s', .bind hset (.bind hunmount (.ret _ _)), ?_⟩
  obtain ⟨tr, hrun⟩ := hremove
  rw [exec_mountsAt step_of_nodeStep (all_removeDir (by simp [opMount])) hrun, mountsAt_detach_self]

/-- A call that changes the ownership can fail and leave the target without its mount. -/
theorem reaches_republish (hmounted : s.mounted (.outside req.targetPath) = true)
    (h : ChangesOwnership srv s req) :
    ∃ err s', Reaches (nodeStep True) (nodePublishVolume srv req) s (some err) s' ∧
      s'.mountsAt (.outside req.targetPath) = (s.mountsAt (.outside req.targetPath)).tail := by
  obtain ⟨vc, volCap, hvalid, hfree, hreadonly, hgroup, hready⟩ := h
  let s₀ : NodeState := { s with locks := insert req.targetPath s.locks }
  let s₁ := s₀.mkdirAll (.outside req.targetPath)
  have hs₁ : ∀ q, s₁.mountsAt q = s.mountsAt q := fun q => by
    simp only [NodeState.mountsAt, s₁, mounts_mkdirAll, s₀]
  have hlocks : s₁.locks = insert req.targetPath s.locks := (mkdirAll_sameRest s₀ _).locks
  have hpresent : s₁.pathPresent (.outside req.targetPath) = true := pathPresent_mkdirAll_outside _ _
  obtain ⟨_, s₂, hmounts, rfl⟩ := reaches_of_faultless
    (faultless_publishMounts volCap hpresent fun hiam => ⟨s, hlocks, hs₁, hready hiam⟩)
  have hs₂ : s₂.mountsAt (.outside req.targetPath) = s.mountsAt (.outside req.targetPath) := by
    obtain ⟨tr, hrun⟩ := hmounts
    exact (exec_mountsAt step_of_nodeStep publishMounts_mounts hrun).trans (hs₁ _)
  obtain ⟨err, s₃, hownership, hs₃⟩ := reaches_publishOwnership srv hgroup
    ((mounted_eq_of_mountsAt hs₂).trans hmounted)
  obtain ⟨_, _, hmake, rfl, rfl⟩ :=
    reaches_of_faultless (cooperative_faultless.makeDir (s := s₀) (.outside req.targetPath))
  obtain ⟨_, _, hprobe, rfl, rfl⟩ := reaches_of_faultless (cooperative_faultless.isMounted hpresent)
  rw [(mounted_eq_of_mountsAt (hs₁ _)).trans hmounted] at hprobe
  have hbody : Reaches (nodeStep True) (publishLocked srv req vc volCap) s₀ (some err) s₃ := by
    rw [← hreadonly] at hownership
    exact .bind hmake (.bind hprobe (.bind hmounts hownership))
  refine ⟨err, { s₃ with locks := s₃.locks.erase req.targetPath }, ?_, hs₃.trans (by rw [hs₂])⟩
  rw [nodePublishVolume, hvalid]
  exact reaches_withLock hfree hbody

end Calls

/-- A call of NodePublishVolume for a target path that is mounted leaves it mounted as it was
whenever it returns an error, exactly when it is not one that changes the ownership of the
target.
SOURCE: pkg/csi_driver/node.go:235-329, 332-417, 716-767 -/
theorem republish_keeps_iff (srv : NodeServer) (req : NodePublishVolumeRequest) (s : NodeState)
    (hmounted : s.mounted (.outside req.targetPath) = true) :
    (∀ tr err s', Exec (nodeStep True) (nodePublishVolume srv req) s tr (some err) s' →
        s'.mountsAt (.outside req.targetPath) = s.mountsAt (.outside req.targetPath)) ↔
      ¬ChangesOwnership srv s req := by
  constructor
  · intro hkeeps hchanges
    obtain ⟨err, s', ⟨tr, hrun⟩, htail⟩ := reaches_republish hmounted hchanges
    have hsame := (hkeeps tr err s' hrun).symm.trans htail
    cases hm : s.mountsAt (.outside req.targetPath) with
    | nil => simp [NodeState.mounted, hm] at hmounted
    | cons m ms => simp [hm] at hsame
  · intro hnot tr err s' hrun
    exact (kept_or_changesOwnership hrun hmounted).resolve_right hnot

/-! ## A change of ownership that fails -/

open Sample

/-- A request that asks for no group cannot take the mount away. -/
theorem republish_keeps_oneVolume :
    ¬ChangesOwnership sampleServer oneVolume (publishRequest "") ∧
    ∀ tr err s', Exec (nodeStep True) (nodePublishVolume sampleServer (publishRequest "")) oneVolume
        tr (some err) s' → s'.mountsAt (.outside targetPath) =
          oneVolume.mountsAt (.outside targetPath) := by
  have hno : ¬ChangesOwnership sampleServer oneVolume (publishRequest "") := by
    rintro ⟨vc, volCap, hvalid, -, -, hgroup, -⟩
    rw [validatePublish_publishRequest] at hvalid
    cases hvalid
    exact hgroup rfl
  exact ⟨hno, (republish_keeps_iff sampleServer (publishRequest "") oneVolume (by decide +kernel)).mpr
    hno⟩

/-- The volume is published again; the target cannot be read when its ownership is changed. -/
def failingOwnership : List Choice :=
  [.ok, .ok, .probe (.ok false), .ok, .ok, .ok, .ok, .wrote 6, .ok, .probe (.ok false), .ok, .ok,
    .fail "input/output error" false, .probe (.ok false), .umounted "" none true, .ok, .ok]

/-- The call returns an error, and the running pod has lost its volume. -/
theorem play_failingOwnership :
    (play (S := nodeSig) execAccurate (nodePublishVolume sampleServer (publishRequest "2000"))
      failingOwnership oneVolume).map (fun rs => (rs.1.isSome, rs.2.mounted (.outside targetPath))) =
        some (true, false) := by
  decide +kernel

/-- A failed republish does not always leave the target mounted. -/
theorem not_republish_keeps :
    ¬∀ (srv : NodeServer) (req : NodePublishVolumeRequest) (s : NodeState),
      s.mounted (.outside req.targetPath) = true →
      ∀ tr err s', Exec (nodeStep True) (nodePublishVolume srv req) s tr (some err) s' →
        s'.mountsAt (.outside req.targetPath) = s.mountsAt (.outside req.targetPath) := by
  intro hkeeps
  obtain ⟨⟨a, s'⟩, hplay, hafter⟩ := Option.map_eq_some_iff.mp play_failingOwnership
  simp only [Prod.mk.injEq] at hafter
  obtain ⟨err, rfl⟩ := Option.isSome_iff_exists.mp hafter.1
  obtain ⟨tr, hexec⟩ := play_exec _ hplay
  have hbefore : oneVolume.mounted (.outside targetPath) = true := by decide +kernel
  have hsame := hkeeps sampleServer (publishRequest "2000") oneVolume hbefore tr err s'
    (hexec.mono fun _ _ _ _ => nodeStep_of_execAccurate)
  have hm : s'.mounted (.outside targetPath) = true := (mounted_eq_of_mountsAt hsame).trans hbefore
  simp [hafter.2] at hm

end LustreCsi.Analysis.Republish
