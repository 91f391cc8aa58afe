import LustreCsi.Interface.Sample
import LustreCsi.Interface.Sequential

/-!
# What a failed NodePublishVolume leaves behind

Publishing an IAM volume builds up a global mount, a reference and a bind mount, and each error exit
undoes what its own step may have done. None of the later exits undoes the global mount.
`failed_publish_clean_iff`: this is the only thing a failed call leaves, provided its own `umount`s
succeed.
-/

set_option autoImplicit false

namespace LustreCsi.Analysis.PublishLeak

open LustreCsi.Computation Model Interface

variable {o : Op} {r : Option Status} {s s' : NodeState} {α : Type} {p : NodeM α}
  {tr tr' : List (Event nodeSig)} {a : α} {options : List String} {volumeID : String} {vc : StrMap}
  {volCap : VolumeCapability}

/-- Nothing of the volume is on the node: the key is not mounted, the pod holds no reference on
it, and the target path is not mounted. -/
structure Clean (s : NodeState) (k : Key) (podUID targetPath : String) : Prop where
  key : s.mounted (.mount k) = false
  ref : s.pathPresent (.ref k podUID) = false
  target : s.mounted (.outside targetPath) = false

/-- The `umount` commands of the call succeed. -/
def UmountSucceeds : (o : Op) → o.Res → Prop
  | .umount _ _, r => r.2 = none
  | _, _ => True

/-- `UmountSucceeds` as a test. -/
def umountSucceeds : (o : Op) → o.Res → Bool
  | .umount _ _, r => r.2.isNone
  | _, _ => true

/-- The check of an event decides whether an unmount succeeds. -/
theorem umountSucceeds_iff {r : o.Res} :
    umountSucceeds o r = true ↔ UmountSucceeds o r := by
  cases o <;> simp [umountSucceeds, UmountSucceeds]

instance (o : Op) (r : o.Res) : Decidable (UmountSucceeds o r) :=
  decidable_of_iff _ umountSucceeds_iff

/-- A step of a node with accurate answers on which `umount` succeeds. -/
def cleanupStep (s : NodeState) (o : nodeSig.Op) (r : nodeSig.Res o) (s' : NodeState) : Prop :=
  nodeStep True s o r s' ∧ UmountSucceeds o r

/-- The call has mounted the key. -/
def GlobalMounted (k : Key) (tr : List (Event nodeSig)) : Prop :=
  ∃ source fstype options,
    (⟨.mountSensitiveWithoutSystemd source (.mount k) fstype options, none⟩ : Event nodeSig) ∈ tr

section Calls

variable {srv : NodeServer} {k : Key} {podUID targetPath : String}

/-- A step of a cleanup that works is a step of the node. -/
theorem step_of_cleanupStep {r : o.Res} (h : cleanupStep s o r s') :
    NodeState.step s o r s' := h.1.1

/-! ## Steps that keep the node clean -/

/-- The operations that put something of the volume on the node. -/
def Installs (k : Key) (podUID targetPath : String) : Op → Prop
  | .mountSensitiveWithoutSystemd _ p _ _ => p = .mount k ∨ p = .outside targetPath
  | .openTrunc p => p = .ref k podUID
  | _ => False

/-- A path that is not mounted is so after any operation that does not mount on it. -/
theorem not_mounted_of_outcome {r : o.Res} (h : Outcome s o r s') {p : Path}
    (hp : s.mounted p = false)
    (ho : ∀ source fstype options, o ≠ .mountSensitiveWithoutSystemd source p fstype options) :
    s'.mounted p = false := by
  have hdetach : ∀ q, (s.detach q).mounted p = false := fun q => by
    rw [Bool.eq_false_iff]
    exact fun hm => absurd (mounted_of_mounted_detach hm) (by simp [hp])
  by_cases hop : opMount o = some p
  · cases o with
    | unmount q | umount flags q => rcases h with rfl | ⟨-, rfl⟩ <;> simp [hdetach, hp]
    | mountSensitiveWithoutSystemd source q fstype options =>
      simp only [opMount, Option.some.injEq] at hop
      exact absurd (by rw [hop]) (ho source fstype options)
    | _ => simp [opMount] at hop
  · rw [mounted_eq_of_mountsAt (h.mountsAt_eq hop)]
    exact hp

/-- A program that installs nothing keeps the node clean. -/
theorem exec_clean (hp : p.All fun o => ¬Installs k podUID targetPath o)
    (h : Exec cleanupStep p s tr a s') (hs : Clean s k podUID targetPath) :
    Clean s' k podUID targetPath := by
  refine h.rel (R := fun s s' : NodeState => Clean s k podUID targetPath →
    Clean s' k podUID targetPath) (fun _ h => h) ?_ ?_ hp hs
  · intro s₁ s₂ s₃ h h' hs
    exact h' (h hs)
  intro s o r s' ho hs hclean
  have hout := outcome_of_step (step_of_cleanupStep hs)
  refine ⟨not_mounted_of_outcome hout hclean.key ?_, hout.ref_absent hclean.ref ?_,
    not_mounted_of_outcome hout hclean.target ?_⟩
  · rintro source fstype options rfl
    exact ho (.inl rfl)
  · rintro rfl
    exact ho rfl
  · rintro source fstype options rfl
    exact ho (.inr rfl)

/-- A program that installs nothing does not mount the key. -/
theorem exec_not_globalMounted (hp : p.All fun o => ¬Installs k podUID targetPath o)
    (h : Exec cleanupStep p s tr a s') :
    ¬GlobalMounted k tr := by
  rintro ⟨source, fstype, options, hmem⟩
  exact h.mem_all hp _ hmem (.inl rfl)

/-! ## Cleaning up -/

/-- If its `umount` succeeds, `unmountPath` leaves a path unmounted that had one mount at
most. -/
theorem unmountPath_not_mounted {p : Path} {a : Option Status}
    (h : Exec cleanupStep (unmountPath srv p) s tr a s') (hone : (s.mountsAt p).length ≤ 1)
    (hdir : s.mounted p = true → s.pathPresent p = true) : s'.mounted p = false := by
  have hremove : ∀ {s s' : NodeState} {tr a}, Exec cleanupStep (removeDir p) s tr a s' →
      s.mounted p = false → s'.mounted p = false := fun hrun hp => by
    rw [mounted_eq_of_mountsAt (exec_mountsAt step_of_cleanupStep (all_removeDir (by simp [opMount]))
      hrun)]
    exact hp
  obtain ⟨answer, s₁, tr₁, hprobe, -, hrest⟩ := exec_perform_bind.mp h
  obtain rfl : s₁ = s := outcome_of_step hprobe.1.1
  have hacc := hprobe.1.2 trivial
  by_cases hnot : notMountPoint answer = true
  · rw [if_pos hnot] at hrest
    refine hremove hrest ?_
    cases answer with
    | ok notMnt =>
      obtain rfl : notMnt = true := hnot
      simpa [Accurate] using hacc
    | error e =>
      have habs := hacc (by simpa [notMountPoint] using hnot)
      rw [Bool.eq_false_iff]
      intro hm
      simp [hdir hm] at habs
  · rw [if_neg hnot] at hrest
    obtain ⟨r, s₂, tr₂, humount, -, hafter⟩ := exec_perform_bind.mp hrest
    have hnone : r.2 = none := humount.2
    obtain ⟨out, err⟩ := r
    obtain rfl : err = none := hnone
    rcases outcome_of_step humount.1.1 with rfl | ⟨hne, -⟩
    · refine hremove hafter ?_
      cases hm : s₁.mountsAt p with
      | nil => simp [NodeState.mounted, mountsAt_detach_self, hm]
      | cons m ms =>
        obtain rfl : ms = [] := by simpa [hm] using hone
        simp [NodeState.mounted, mountsAt_detach_self, hm]
    · exact absurd rfl hne

/-! ## The steps of a publish -/

/-- How a part of the call may end: with an error and a clean node, the key not having been
mounted, or with the key mounted. -/
def Accounted (k : Key) (podUID targetPath : String) (tr : List (Event nodeSig))
    (r : Option Status) (s' : NodeState) : Prop :=
  (r ≠ none ∧ Clean s' k podUID targetPath ∧ ¬GlobalMounted k tr) ∨
    (GlobalMounted k tr ∧ s'.mounted (.mount k) = true)

/-- A key is mounted in a concatenation of traces when it is in one of them. -/
theorem globalMounted_append :
    GlobalMounted k (tr ++ tr') ↔ GlobalMounted k tr ∨ GlobalMounted k tr' := by
  simp only [GlobalMounted, List.mem_append, exists_or]

/-- A trace without a mount can be put before. -/
theorem Accounted.append_left (htr : ¬GlobalMounted k tr)
    (h : Accounted k podUID targetPath tr' r s') :
    Accounted k podUID targetPath (tr ++ tr') r s' := by
  simpa only [Accounted, globalMounted_append, htr, false_or] using h

/-- An error of a program that installs nothing. -/
theorem accounted_of_error {p : NodeM (Option Status)}
    (hp : p.All fun o => ¬Installs k podUID targetPath o) (h : Exec cleanupStep p s tr r s')
    (hs : Clean s k podUID targetPath) (hr : r ≠ none) : Accounted k podUID targetPath tr r s' :=
  .inl ⟨hr, exec_clean hp h hs, exec_not_globalMounted hp h⟩

/-- A part that installs nothing, and what follows it. -/
theorem accounted_bind {f : α → NodeM (Option Status)}
    (hp : p.All fun o => ¬Installs k podUID targetPath o) (h : Exec cleanupStep (p >>= f) s tr r s')
    (hs : Clean s k podUID targetPath)
    (hf : ∀ a s₁ tr₁ tr₂, Exec cleanupStep p s tr₁ a s₁ → Clean s₁ k podUID targetPath →
      Exec cleanupStep (f a) s₁ tr₂ r s' → Accounted k podUID targetPath tr₂ r s') :
    Accounted k podUID targetPath tr r s' := by
  obtain ⟨tr₁, a, s₁, tr₂, h₁, h₂, rfl⟩ := exec_bind.mp h
  exact (hf a s₁ tr₁ tr₂ h₁ (exec_clean hp h₁ hs) h₂).append_left (exec_not_globalMounted hp h₁)

/-- What follows the global mount leaves it in place. -/
theorem Accounted.append_right {q : NodeM α} (hq : q.All fun o : Op => opMount o ≠ some (.mount k))
    {s₁ : NodeState} (h : Accounted k podUID targetPath tr none s₁)
    (hrun : Exec cleanupStep q s₁ tr' a s') :
    Accounted k podUID targetPath (tr ++ tr') r s' := by
  rcases h with ⟨hr, -⟩ | ⟨htr, hm⟩
  · exact absurd rfl hr
  refine .inr ⟨globalMounted_append.mpr (.inl htr), ?_⟩
  rw [mounted_eq_of_mountsAt (exec_mountsAt step_of_cleanupStep hq hrun)]
  exact hm

/-- A mount of the key that is reported as failed is taken back. -/
theorem clean_of_failed_mount {source fstype : String} {e : OsError} {s₁ : NodeState}
    (hs : Clean s k podUID targetPath)
    (hout : Outcome s (.mountSensitiveWithoutSystemd source (.mount k) fstype options) (some e) s₁)
    {a : Option Status} (h : Exec cleanupStep (unmountPath srv (.mount k)) s₁ tr a s') :
    Clean s' k podUID targetPath := by
  have hnil : s.mountsAt (.mount k) = [] := by simpa [NodeState.mounted] using hs.key
  have hone : (s₁.mountsAt (.mount k)).length ≤ 1 ∧
      (s₁.mounted (.mount k) = true → s₁.pathPresent (.mount k) = true) := by
    rcases hout with ⟨hp, rfl⟩ | ⟨-, rfl⟩
    · exact ⟨by simp [mountsAt_attach_self, hnil], fun _ => hp⟩
    · simp [hnil, hs.key]
  have href : s₁.pathPresent (.ref k podUID) = false := hout.ref_absent hs.ref (by simp)
  have htarget : s₁.mountsAt (.outside targetPath) = s.mountsAt (.outside targetPath) :=
    hout.mountsAt_eq (by simp [opMount])
  refine ⟨unmountPath_not_mounted h hone.1 hone.2, ?_, ?_⟩
  · refine exec_ref_absent step_of_cleanupStep (all_unmountPath srv ?_ ?_ ?_) h href
    all_goals simp
  · rw [mounted_eq_of_mountsAt (exec_mountsAt step_of_cleanupStep (all_unmountPath srv ?_ ?_ ?_) h),
      mounted_eq_of_mountsAt htarget]
    · exact hs.target
    all_goals simp [opMount]

/-- The global mount: if it fails, it is taken back. -/
theorem mountGlobalIAM_accounted {principal : String}
    (h : Exec cleanupStep (mountGlobalIAM srv volumeID principal k vc volCap) s tr r s')
    (hs : Clean s k podUID targetPath) : Accounted k podUID targetPath tr r s' := by
  simp only [mountGlobalIAM] at h
  split at h
  · exact accounted_of_error .pure h hs (by simp [(exec_pure.mp h).2.1])
  refine accounted_bind (all_setUpMultiNIC srv _ _ id) h hs fun nic s₁ _ tr₂ _ hclean hrest => ?_
  cases nic with
  | some err => exact accounted_of_error .pure hrest hclean (by simp [(exec_pure.mp hrest).2.1])
  | none =>
    obtain ⟨res, s₂, tr₃, hmount, rfl, hafter⟩ := exec_perform_bind.mp hrest
    have hout := outcome_of_step hmount.1.1
    cases res with
    | none =>
      obtain ⟨rfl, rfl, rfl⟩ := exec_pure.mp hafter
      rcases hout with ⟨-, rfl⟩ | ⟨hne, -⟩
      · exact .inr ⟨⟨_, _, _, List.mem_cons_self⟩, mounted_attach_self _ _ _ _ _⟩
      · exact absurd rfl hne
    | some err =>
      obtain ⟨tr₄, cleanup, s₃, tr₅, hunmount, hret, rfl⟩ := exec_bind.mp hafter
      obtain ⟨rfl, rfl, rfl⟩ := exec_pure.mp hret
      have hall : (unmountPath srv (.mount k)).All fun o => ¬Installs k podUID targetPath o :=
        all_unmountPath srv id (fun _ => id) id
      have hnot : ¬GlobalMounted k tr₄ := exec_not_globalMounted hall hunmount
      refine .inl ⟨by simp, clean_of_failed_mount hclean hout hunmount, ?_⟩
      rintro ⟨source, fstype, options, hmem⟩
      rcases List.mem_cons.mp hmem with heq | hmem
      · cases heq
      · exact hnot ⟨source, fstype, options, by simpa using hmem⟩

/-! ## NodePublishVolume -/

/-- Directories, token and global mount of the key. -/
theorem ensureGlobalMount_accounted {principal : String}
    (h : Exec cleanupStep (ensureGlobalMount srv volumeID principal k vc volCap) s tr r s')
    (hs : Clean s k podUID targetPath) : Accounted k podUID targetPath tr r s' := by
  refine accounted_bind (all_makeGlobalDirs id id) h hs fun dirs s₁ _ tr₁ _ hclean hrest => ?_
  cases dirs with
  | some err => exact accounted_of_error .pure hrest hclean (by simp [(exec_pure.mp hrest).2.1])
  | none =>
    simp only at hrest
    split at hrest
    · exact accounted_of_error .pure hrest hclean (by simp [(exec_pure.mp hrest).2.1])
    refine accounted_bind (all_updateTokenFile (by simp [Installs]) (fun _ => id) id id _) hrest hclean
      fun written s₂ _ tr₂ _ hclean hrest => ?_
    cases written with
    | some err => exact accounted_of_error .pure hrest hclean (by simp [(exec_pure.mp hrest).2.1])
    | none =>
      refine accounted_bind (all_isMounted id id id) hrest hclean
        fun probe s₃ tr₃ tr₄ hprobe hclean' hrest => ?_
      match probe with
      | .error err =>
        exact accounted_of_error .pure hrest hclean' (by simp [(exec_pure.mp hrest).2.1])
      | .ok true =>
        obtain ⟨-, hm, -⟩ := exec_isMounted (hprobe.mono fun _ _ _ _ h => h.1)
        exact absurd (hm rfl) (by simp [hclean.key])
      | .ok false => exact mountGlobalIAM_accounted hrest hclean'

/-- Reference and bind mount do not touch the global mount, and neither does their cleanup. -/
theorem bindPod_keeps {targetMounted : Bool} :
    (bindPod srv volumeID targetPath targetMounted podUID k options).All
      fun o : Op => opMount o ≠ some (.mount k) := by
  refine all_bindPod srv ?_ ?_ ?_ ?_ ?_ fun _ => all_unmountPath srv ?_ ?_ ?_
  all_goals simp [opMount]

/-- Cleanliness does not depend on the lock set. -/
theorem Clean.withLocks (hs : Clean s k podUID targetPath) (locks : Finset String) :
    Clean { s with locks := locks } k podUID targetPath := ⟨hs.key, hs.ref, hs.target⟩

/-- A body that accounts for what it does, under a lock. -/
theorem withLock_accounted {x : String} {refused : Status} {body : NodeM (Option Status)}
    (h : Exec cleanupStep (withLock x refused body) s tr r s') (hs : Clean s k podUID targetPath)
    (hbody : ∀ s₀ tr₀ s₁, Clean s₀ k podUID targetPath → Exec cleanupStep body s₀ tr₀ r s₁ →
      Accounted k podUID targetPath tr₀ r s₁) : Accounted k podUID targetPath tr r s' := by
  rcases exec_withLock step_of_cleanupStep h with
    ⟨-, rfl, rfl, rfl⟩ | ⟨-, tr₁, s₁, hrun, rfl, rfl⟩
  · exact .inl ⟨by simp, hs, by simp [GlobalMounted]⟩
  have hend : ¬GlobalMounted k [⟨.tryAcquire x, true⟩] ∧ ¬GlobalMounted k [⟨.release x, ()⟩] := by
    simp [GlobalMounted]
  have htr : GlobalMounted k (⟨.tryAcquire x, true⟩ :: tr₁ ++ [⟨.release x, ()⟩]) ↔
      GlobalMounted k tr₁ := by
    rw [globalMounted_append, ← List.singleton_append, globalMounted_append]
    simp only [hend.1, hend.2, false_or, or_false]
  rcases hbody _ tr₁ s₁ (hs.withLocks _) hrun with ⟨hr, hclean, hnot⟩ | ⟨hmounted, hm⟩
  · exact .inl ⟨hr, hclean.withLocks _, fun hg => hnot (htr.mp hg)⟩
  · exact .inr ⟨htr.mpr hmounted, hm⟩

/-- The whole of `publishIAMVolume`. -/
theorem publishIAMVolume_accounted {targetMounted : Bool} (hk : k = keyOf srv volumeID vc)
    (hpod : podUID = (identityOf srv vc).podUID)
    (h : Exec cleanupStep (publishIAMVolume srv volumeID targetPath targetMounted vc options volCap)
      s tr r s') (hs : Clean s k podUID targetPath) : Accounted k podUID targetPath tr r s' := by
  simp only [keyOf] at hk
  simp only [publishIAMVolume, ← hk, ← hpod] at h
  split at h
  · exact accounted_of_error .pure h hs (by simp [(exec_pure.mp h).2.1])
  split at h
  · exact accounted_of_error .pure h hs (by simp [(exec_pure.mp h).2.1])
  split at h
  · exact accounted_of_error .pure h hs (by simp [(exec_pure.mp h).2.1])
  refine withLock_accounted h hs fun s₀ tr₀ s₁ hclean hbody => ?_
  obtain ⟨tr₁, res, s₂, tr₂, hglobal, hrest, rfl⟩ := exec_bind.mp hbody
  have hacc := ensureGlobalMount_accounted hglobal hclean
  cases res with
  | some err =>
    obtain ⟨rfl, rfl, rfl⟩ := exec_pure.mp hrest
    simpa using hacc
  | none => exact hacc.append_right bindPod_keeps hrest

/-- The part of the call under the lock of the target path. -/
theorem publishLocked_accounted {req : NodePublishVolumeRequest} (hiam : isIAM srv vc = true)
    (h : Exec cleanupStep (publishLocked srv req vc volCap) s tr r s')
    (hs : Clean s (keyOf srv req.volumeID vc) (identityOf srv vc).podUID req.targetPath) :
    Accounted (keyOf srv req.volumeID vc) (identityOf srv vc).podUID req.targetPath tr r s' := by
  refine accounted_bind (all_makeDir id) h hs fun made s₁ _ tr₁ _ hclean hrest => ?_
  cases made with
  | some err => exact accounted_of_error .pure hrest hclean (by simp [(exec_pure.mp hrest).2.1])
  | none =>
    refine accounted_bind (all_isMounted id id id) hrest hclean
      fun probe s₂ _ tr₂ _ hclean hrest => ?_
    cases probe with
    | error err => exact accounted_of_error .pure hrest hclean (by simp [(exec_pure.mp hrest).2.1])
    | ok targetMounted =>
      obtain ⟨tr₃, res, s₃, tr₄, hmounts, hafter, rfl⟩ := exec_bind.mp hrest
      simp only [publishMounts, hiam, if_true] at hmounts
      have hacc := publishIAMVolume_accounted rfl rfl hmounts hclean
      cases res with
      | some err =>
        obtain ⟨rfl, rfl, rfl⟩ := exec_pure.mp hafter
        simpa using hacc
      | none =>
        refine hacc.append_right (.bind (all_setVolumeOwnershipTopLevel ?_ ?_ ?_ _ _) fun res => ?_)
          hafter
        · simp [opMount]
        · simp [opMount]
        · simp [opMount]
        · split
          · exact .pure
          · refine .bind (all_unmountPath srv ?_ ?_ ?_) fun _ => .pure
            all_goals simp [opMount]

end Calls

/-- After an IAM publish that returned an error, on a node that had nothing of the volume and
with the cleanup `umount`s succeeding, the node has nothing of the volume exactly when the
call did not get past the global mount.
SOURCE: pkg/csi_driver/node.go:235-329, 332-417, 421-472 -/
theorem failed_publish_clean_iff (srv : NodeServer) (req : NodePublishVolumeRequest) (vc : StrMap)
    (volCap : VolumeCapability) (hvalid : validatePublish srv req = .ok (vc, volCap))
    (hiam : isIAM srv vc = true) (s s' : NodeState) (tr : List (Event nodeSig)) (err : Status)
    (hs : Clean s (keyOf srv req.volumeID vc) (identityOf srv vc).podUID req.targetPath)
    (h : Exec cleanupStep (nodePublishVolume srv req) s tr (some err) s') :
    Clean s' (keyOf srv req.volumeID vc) (identityOf srv vc).podUID req.targetPath ↔
      ¬GlobalMounted (keyOf srv req.volumeID vc) tr := by
  rw [nodePublishVolume, hvalid] at h
  have hacc := withLock_accounted h hs fun s₀ tr₀ s₁ hclean hbody =>
    publishLocked_accounted hiam hbody hclean
  rcases hacc with ⟨-, hclean, hnot⟩ | ⟨hmounted, hm⟩
  · exact ⟨fun _ => hnot, fun _ => hclean⟩
  refine ⟨fun hclean => ?_, fun hnot => absurd hmounted hnot⟩
  simp [hclean.key] at hm

/-! ## A bind mount that fails -/

open Sample

/-- `NodeState.exec` for a node on which `umount` succeeds. -/
def execCleanup : NodeState → (o : Op) → Choice → Option (o.Res × NodeState) :=
  execWhere fun s o r => Accurate s o r ∧ UmountSucceeds o r

/-- The interpreter makes steps of a cleanup that works. -/
theorem cleanupStep_of_execCleanup {r : o.Res} (h : stepOf (S := nodeSig) execCleanup s o r s') :
    cleanupStep s o r s' := by
  obtain ⟨hstep, hacc, humount⟩ := step_of_execWhere h
  exact ⟨⟨hstep, fun _ => hacc⟩, humount⟩

/-- The key of the sample volume. -/
theorem keyOf_sample : keyOf sampleServer "ab" normalContext = digestABC := by
  rw [keyOf, identityOf_normalContext, iamKey_sample]

/-- A fresh node is clean. -/
theorem clean_freshNode :
    Clean freshNode (keyOf sampleServer "ab" normalContext)
      (identityOf sampleServer normalContext).podUID targetPath := by
  rw [keyOf_sample, identityOf_normalContext]
  exact ⟨rfl, rfl, rfl⟩

/-- Everything works up to the bind mount, which fails; its cleanup works. -/
def failingBind : List Choice :=
  [.ok, .ok, .probe (.ok true), .ok, .ok, .ok, .ok, .wrote 6, .ok, .probe (.ok true), .ok, .ok, .ok,
    .wrote 2, .fail "permission denied" false, .ok, .probe (.ok true), .ok, .ok, .ok]

/-- The call returns an error and the key stays mounted. -/
theorem play_failingBind :
    (play (S := nodeSig) execCleanup (nodePublishVolume sampleServer (publishRequest ""))
      failingBind freshNode).map (fun rs => (rs.1.isSome, rs.2.mounted (.mount digestABC),
        rs.2.pathPresent (.ref digestABC "u1"))) = some (true, true, false) := by
  decide +kernel

/-- The run, as one of the runs of the call. -/
theorem exec_failingBind : ∃ tr err s',
    Exec cleanupStep (nodePublishVolume sampleServer (publishRequest "")) freshNode tr (some err) s' ∧
      s'.mounted (.mount digestABC) = true := by
  obtain ⟨⟨a, s'⟩, hplay, hafter⟩ := Option.map_eq_some_iff.mp play_failingBind
  simp only [Prod.mk.injEq] at hafter
  obtain ⟨err, rfl⟩ := Option.isSome_iff_exists.mp hafter.1
  obtain ⟨tr, hexec⟩ := play_exec _ hplay
  exact ⟨tr, err, s', hexec.mono fun _ _ _ _ => cleanupStep_of_execCleanup, hafter.2.1⟩

/-- The run has got past the global mount, and so the node is not as it was. -/
theorem failed_publish_failingBind : ∃ tr err s',
    Exec cleanupStep (nodePublishVolume sampleServer (publishRequest "")) freshNode tr (some err) s' ∧
      GlobalMounted (keyOf sampleServer "ab" normalContext) tr ∧
      ¬Clean s' (keyOf sampleServer "ab" normalContext)
        (identityOf sampleServer normalContext).podUID targetPath := by
  obtain ⟨tr, err, s', hexec, hm⟩ := exec_failingBind
  have hiff := failed_publish_clean_iff sampleServer (publishRequest "") normalContext
    (mountCapability "") (validatePublish_publishRequest "") isIAM_normalContext freshNode s' tr err
    clean_freshNode hexec
  have hleft : ¬Clean s' (keyOf sampleServer "ab" normalContext)
      (identityOf sampleServer normalContext).podUID targetPath := by
    intro hclean
    have hkey := hclean.key
    rw [keyOf_sample, hm] at hkey
    exact absurd hkey (by simp)
  exact ⟨tr, err, s', hexec, not_not.mp fun hnot => hleft (hiff.mpr hnot), hleft⟩

/-- A failed publish is not always undone, even if all its `umount`s succeed. -/
theorem not_failed_publish_clean :
    ¬∀ (srv : NodeServer) (req : NodePublishVolumeRequest) (vc : StrMap) (volCap : VolumeCapability),
      validatePublish srv req = .ok (vc, volCap) → isIAM srv vc = true →
      ∀ s s' tr err, Clean s (keyOf srv req.volumeID vc) (identityOf srv vc).podUID req.targetPath →
        Exec cleanupStep (nodePublishVolume srv req) s tr (some err) s' →
        Clean s' (keyOf srv req.volumeID vc) (identityOf srv vc).podUID req.targetPath := by
  intro hclean
  obtain ⟨tr, err, s', hexec, hm⟩ := exec_failingBind
  have hafter := hclean sampleServer (publishRequest "") normalContext (mountCapability "")
    (validatePublish_publishRequest "") isIAM_normalContext freshNode s' tr err clean_freshNode hexec
  have hkey := hafter.key
  rw [show (publishRequest "").volumeID = "ab" from rfl, keyOf_sample, hm] at hkey
  exact absurd hkey (by simp)

end LustreCsi.Analysis.PublishLeak
