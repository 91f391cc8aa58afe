import LustreCsi.Model.Node

/-!
# Footprints

Which operations the functions of the node server perform, whatever the answers, for any class of
operations that contains the ones in question.
-/

set_option autoImplicit false

namespace LustreCsi.Interface

open LustreCsi.Computation Model

variable {p : Path} {φ : Op → Prop} {k : Key} (s : NodeServer)

/-- A single operation with the property. -/
theorem all_perform {o : Op} (h : φ o) : (perform o).All φ := Program.All.perform (S := nodeSig) h

/-- The operation of `makeDir`. -/
theorem all_makeDir (h : φ (.mkdirAll p)) : (makeDir p).All φ :=
  .bind (all_perform h) fun _ => .pure

/-- The operation of `pathExists`. -/
theorem all_pathExists (h : φ (.stat p)) : (pathExists p).All φ := by
  refine .bind (all_perform h) fun r => ?_
  split
  · exact .pure
  · split <;> exact .pure

/-- The operations of `isMounted`: the probe, and after an error `stat` and the unmount of a stale
mount. -/
theorem all_isMounted (hprobe : φ (.isLikelyNotMountPoint p)) (hstat : φ (.stat p))
    (hunmount : φ (.unmount p)) : (isMounted p).All φ := by
  refine .bind (all_perform hprobe) fun r => ?_
  split
  · exact .pure
  split
  · exact .pure
  refine .bind (all_pathExists hstat) fun r => ?_
  split
  · exact .pure
  split
  · refine .bind (all_perform hunmount) fun r => ?_
    split <;> exact .pure
  · exact .pure

/-- The operation of `removeDir`. -/
theorem all_removeDir (h : φ (.remove p)) : (removeDir p).All φ :=
  .bind (all_perform h) fun _ => .pure

/-- The operations of the phases: commands on the path, and the removal behind one that succeeds. -/
theorem all_umountPhases (humount : ∀ flags, φ (.umount flags p)) (hremove : φ (.remove p))
    (phases : List (List String)) :
    (umountPhases s p phases).All φ := by
  induction phases with
  | nil => exact .pure
  | cons flags rest ih =>
    refine .bind (all_perform (humount flags)) fun r => ?_
    split
    split
    · exact all_removeDir hremove
    split
    · exact .pure
    · exact ih

/-- The operations of `unmountPath`, all on the path itself. -/
theorem all_unmountPath (hprobe : φ (.isLikelyNotMountPoint p))
    (humount : ∀ flags, φ (.umount flags p)) (hremove : φ (.remove p)) :
    (unmountPath s p).All φ := by
  refine .bind (all_perform hprobe) fun r => ?_
  split
  · exact all_removeDir hremove
  · exact all_umountPhases s humount hremove _

/-- The operations of the change of ownership, all on the directory itself. -/
theorem all_setVolumeOwnershipTopLevel {dir : Path} (hlstat : φ (.lstat dir))
    (hlchown : ∀ gid, φ (.lchown dir gid)) (hchmod : ∀ mode, φ (.chmod dir mode))
    (fsGroup : String) (readOnly : Bool) :
    (setVolumeOwnershipTopLevel dir fsGroup readOnly).All φ := by
  unfold setVolumeOwnershipTopLevel
  split
  · exact .pure
  split
  · exact .pure
  split
  · exact .pure
  refine .bind ?_ fun _ => .pure
  refine .bind (all_perform hlstat) fun r => ?_
  split
  · exact .pure
  refine .bind (all_perform (hlchown _)) fun r => ?_
  split
  · exact .pure
  · exact all_perform (hchmod _)

/-- The operation of `setUpMultiNIC`, if there is one. -/
theorem all_setUpMultiNIC (volumeID ip : String) (h : φ (.setUpMultiNIC volumeID ip)) :
    (setUpMultiNIC s volumeID ip).All φ := by
  unfold setUpMultiNIC
  split
  · exact .pure
  · exact all_perform h

/-- The operations of a listing over keys. -/
theorem all_keysListing (dirOf : Key → Path) (name : String) (ks : List Key)
    (h : ∀ k, φ (.readDirNames (dirOf k))) : (keysListing dirOf name ks).All φ := by
  induction ks with
  | nil => exact .pure
  | cons k ks ih =>
    exact .bind (all_perform (h k)) fun _ => .bind ih fun _ => .pure

/-- The operations of `globPodReferences`: listings. -/
theorem all_globPodReferences (podUID : String) (hroot : φ .readRoot)
    (hdir : ∀ p, φ (.readDirNames p)) : (globPodReferences podUID).All φ :=
  .bind (all_perform hroot) fun _ =>
    .bind (all_keysListing _ _ _ fun _ => hdir _) fun _ =>
      .bind (all_keysListing _ _ _ fun _ => hdir _) fun _ => .pure

/-- The operations of the write loop. -/
theorem all_writeLoop (h : ∀ data, φ (.write p data)) (fuel : ℕ) (data : String) :
    (writeLoop p fuel data).All φ := by
  induction fuel generalizing data with
  | zero => exact .pure
  | succ fuel ih =>
    refine .bind (all_perform (h data)) fun r => ?_
    split
    · exact .pure
    split
    · exact .pure
    split
    · exact .pure
    · exact ih _

/-- The operations of `writeFile`. -/
theorem all_writeFile (hopen : φ (.openTrunc p)) (hwrite : ∀ data, φ (.write p data))
    (data : String) : (writeFile p data).All φ := by
  refine .bind (all_perform hopen) fun r => ?_
  split
  · exact .pure
  · exact all_writeLoop hwrite _ _

/-- The operations of `makeGlobalDirs`: two directories of the key. -/
theorem all_makeGlobalDirs (hmount : φ (.mkdirAll (.mount k))) (hrefs : φ (.mkdirAll (.refs k))) :
    (makeGlobalDirs k).All φ := by
  refine .bind (all_makeDir hmount) fun r => ?_
  split
  · exact .pure
  refine .bind (all_makeDir hrefs) fun r => ?_
  split <;> exact .pure

/-- The operations of `updateTokenFile`, on the two token files of the key. -/
theorem all_updateTokenFile (hopen : φ (.openTrunc (.tokenTmp k)))
    (hwrite : ∀ data, φ (.write (.tokenTmp k) data)) (hrename : φ (.renameToken k))
    (hremove : φ (.remove (.tokenTmp k))) (token : String) : (updateTokenFile k token).All φ := by
  refine .bind (all_writeFile hopen hwrite token) fun r => ?_
  split
  · exact .pure
  refine .bind (all_perform hrename) fun r => ?_
  split
  · exact .bind (all_perform hremove) fun _ => .pure
  · exact .pure

/-- The operations of `addPodReference`, on the reference of the pod. -/
theorem all_addPodReference {podUID : String} (hstat : φ (.stat (.ref k podUID)))
    (hopen : φ (.openTrunc (.ref k podUID))) (hwrite : ∀ data, φ (.write (.ref k podUID) data))
    (volumeID : String) : (addPodReference k podUID volumeID).All φ := by
  refine .bind (all_pathExists hstat) fun r => ?_
  split
  · exact .pure
  · exact all_writeFile hopen hwrite _

/-- The operations of a section: its lock, and what its body does. -/
theorem all_withLock {ε : Type} {x : String} {refused : ε} {body : NodeM (Option ε)}
    (hacquire : φ (.tryAcquire x)) (hrelease : φ (.release x)) (hbody : body.All φ) :
    (withLock x refused body).All φ := by
  refine .bind (all_perform hacquire) fun r => ?_
  split
  · exact .bind hbody fun _ => .bind (all_perform hrelease) fun _ => .pure
  · exact .pure

/-- The operations of the teardown of a key. -/
theorem all_releaseGlobalMount (hprobe : φ (.isLikelyNotMountPoint (.mount k)))
    (humount : ∀ flags, φ (.umount flags (.mount k)))
    (hremove : ∀ p, p.key? = some k → φ (.remove p)) (hall : φ (.removeAll k)) :
    (releaseGlobalMount s k).All φ := by
  refine .bind (all_perform (hremove _ rfl)) fun r => ?_
  split
  · split
    · exact .pure
    · split <;> exact .pure
  refine .bind (all_unmountPath s hprobe humount (hremove _ rfl)) fun r => ?_
  split
  · exact .pure
  · exact .bind (all_perform hall) fun _ => .pure

/-- The operations of the cleanup for one key: its lock, the reference, and the teardown. -/
theorem all_cleanUpIAMReferenceForKey {refPath : Path} (hacquire : φ (.tryAcquire k.name))
    (hrelease : φ (.release k.name)) (href : φ (.remove refPath))
    (hprobe : φ (.isLikelyNotMountPoint (.mount k)))
    (humount : ∀ flags, φ (.umount flags (.mount k)))
    (hremove : ∀ p, p.key? = some k → φ (.remove p)) (hall : φ (.removeAll k)) :
    (cleanUpIAMReferenceForKey s k refPath).All φ := by
  refine all_withLock hacquire hrelease (.bind (all_perform href) fun r => ?_)
  split
  · exact .pure
  · exact all_releaseGlobalMount s hprobe humount hremove hall

/-- The operations of the cleanup for a list of references. -/
theorem all_cleanUpReferences (hacquire : ∀ x, φ (.tryAcquire x)) (hrelease : ∀ x, φ (.release x))
    (hprobe : ∀ p, φ (.isLikelyNotMountPoint p)) (humount : ∀ flags p, φ (.umount flags p))
    (hremove : ∀ p, φ (.remove p)) (hall : ∀ k, φ (.removeAll k)) (refPaths : List Path) :
    (cleanUpReferences s refPaths).All φ := by
  induction refPaths with
  | nil => exact .pure
  | cons refPath rest ih =>
    unfold cleanUpReferences
    split
    · exact ih
    refine .bind (all_cleanUpIAMReferenceForKey s (hacquire _) (hrelease _) (hremove _) (hprobe _)
      (fun flags => humount flags _) (fun p _ => hremove p) (hall _)) fun _ => ?_
    exact .bind ih fun _ => .pure

/-! ## Publishing -/

section Publish

variable (s : NodeServer) {k : Key} {volumeID principal targetPath podUID : String} {vc : StrMap}
  {volCap : VolumeCapability} {options : List String}

/-- The global mount, of no source but the one that the volume context names. -/
theorem all_mountGlobalIAM (hnic : ∀ ip, φ (.setUpMultiNIC volumeID ip))
    (hmount : ∀ ip fsname options,
      lustreEndpoint (vc.get (normalize s.unicode keyInstanceIP))
        (vc.get (normalize s.unicode keyFilesystem)) (vc.get (normalize s.unicode keyMountPoint)) =
          .ok (ip, fsname) →
      φ (.mountSensitiveWithoutSystemd (lustreSource ip fsname) (.mount k) "lustre" options))
    (hprobe : φ (.isLikelyNotMountPoint (.mount k))) (humount : ∀ flags, φ (.umount flags (.mount k)))
    (hremove : φ (.remove (.mount k))) :
    (mountGlobalIAM s volumeID principal k vc volCap).All φ := by
  unfold mountGlobalIAM
  dsimp only
  split
  · exact .pure
  rename_i ip fsname hendpoint
  refine .bind (all_setUpMultiNIC s _ _ (hnic ip)) fun r => ?_
  split
  · exact .pure
  refine .bind (all_perform (hmount ip fsname _ hendpoint)) fun r => ?_
  split
  · exact .pure
  · exact .bind (all_unmountPath s hprobe humount hremove) fun _ => .pure

/-- The operations of `ensureGlobalMount`, all on the key. -/
theorem all_ensureGlobalMount (hmkdir : ∀ p, p.key? = some k → φ (.mkdirAll p))
    (hopen : φ (.openTrunc (.tokenTmp k))) (hwrite : ∀ data, φ (.write (.tokenTmp k) data))
    (hrename : φ (.renameToken k)) (hremove : ∀ p, p.key? = some k → φ (.remove p))
    (hprobe : φ (.isLikelyNotMountPoint (.mount k))) (hstat : φ (.stat (.mount k)))
    (hunmount : φ (.unmount (.mount k)))
    (hmount : (mountGlobalIAM s volumeID principal k vc volCap).All φ) :
    (ensureGlobalMount s volumeID principal k vc volCap).All φ := by
  refine .bind (all_makeGlobalDirs (hmkdir _ rfl) (hmkdir _ rfl)) fun r => ?_
  split
  · exact .pure
  split
  · exact .pure
  refine .bind (all_updateTokenFile hopen hwrite hrename (hremove _ rfl) _) fun r => ?_
  split
  · exact .pure
  refine .bind (all_isMounted hprobe hstat hunmount) fun r => ?_
  split
  · exact .pure
  · exact .pure
  · exact hmount

/-- Reference and bind mount; the target is touched only if it was not mounted before. -/
theorem all_bindPod {targetMounted : Bool} (hstat : φ (.stat (.ref k podUID)))
    (hopen : φ (.openTrunc (.ref k podUID))) (hwrite : ∀ data, φ (.write (.ref k podUID) data))
    (hremove : φ (.remove (.ref k podUID)))
    (hmount : targetMounted = false → φ (.mountSensitiveWithoutSystemd (Path.mount k).render
      (.outside targetPath) "lustre" options))
    (hcleanup : targetMounted = false → (unmountPath s (.outside targetPath)).All φ) :
    (bindPod s volumeID targetPath targetMounted podUID k options).All φ := by
  refine .bind (all_addPodReference hstat hopen hwrite _) fun r => ?_
  split
  · exact .pure
  split
  · exact .pure
  rename_i hnot
  have hfree : targetMounted = false := by simpa using hnot
  refine .bind (all_perform (hmount hfree)) fun r => ?_
  split
  · exact .pure
  exact .bind (.bind (all_perform hremove) fun _ => .pure) fun _ =>
    .bind (hcleanup hfree) fun _ => .pure

/-- The operations of the change of ownership and of its cleanup. -/
theorem all_publishOwnership {target : Path} (hlstat : φ (.lstat target))
    (hlchown : ∀ gid, φ (.lchown target gid)) (hchmod : ∀ mode, φ (.chmod target mode))
    (hcleanup : (unmountPath s target).All φ) (fsGroup : String) (readonly : Bool) :
    (publishOwnership s target fsGroup readonly).All φ := by
  refine .bind (all_setVolumeOwnershipTopLevel hlstat hlchown hchmod _ _) fun r => ?_
  split
  · exact .pure
  · exact .bind hcleanup fun _ => .pure

end Publish

/-! ## Staging -/

section Stage

/-- The one operation of `hasMountWithSameFSName`. -/
theorem all_hasMountWithSameFSName (h : φ .list) (fsname : String) :
    (hasMountWithSameFSName fsname).All φ := by
  refine .bind (all_perform h) fun r => ?_
  split <;> exact .pure

variable (s : NodeServer) {ip fsname : String} {volCap : VolumeCapability}

/-- The operations with which a staging path is mounted. -/
theorem all_mountStaged {targetPath : String} (hmkdir : φ (.mkdirAll (.outside targetPath)))
    (hmount : ∀ options, φ (.mountSensitiveWithoutSystemd (lustreSource ip fsname)
      (.outside targetPath) "lustre" options))
    (hcleanup : (unmountPath s (.outside targetPath)).All φ) :
    (mountStaged s targetPath ip fsname volCap).All φ := by
  refine .bind (all_makeDir hmkdir) fun r => ?_
  split
  · exact .pure
  refine .bind (all_perform (hmount _)) fun r => ?_
  split
  · exact .pure
  · exact .bind hcleanup fun _ => .pure

/-- The operations of `nodeStageVolume` under its lock. -/
theorem all_stageLocked {req : NodeStageVolumeRequest}
    (hprobe : (isMounted (.outside req.stagingTargetPath)).All φ) (hlist : φ .list)
    (hnic : φ (.setUpMultiNIC req.volumeID ip))
    (hmount : (mountStaged s req.stagingTargetPath ip fsname volCap).All φ) :
    (stageLocked s req ip fsname volCap).All φ := by
  refine .bind hprobe fun r => ?_
  split
  · exact .pure
  · exact .pure
  · refine .bind (all_hasMountWithSameFSName hlist _) fun r => ?_
    split
    · exact .pure
    · exact .pure
    · refine .bind (all_setUpMultiNIC s _ _ hnic) fun r => ?_
      split
      · exact .pure
      · exact hmount

end Stage

/-! ## Mount options -/

/-- The mount flags of the capability are appended to the options, at most once each. -/
theorem addMountFlags_append (options : List String) (volCap : VolumeCapability) :
    ∃ more, addMountFlags options volCap = options ++ more ∧ ∀ o ∈ more, o ∈ volCap.mountFlags := by
  unfold addMountFlags
  generalize volCap.mountFlags = flags
  induction flags generalizing options with
  | nil => exact ⟨[], (List.append_nil _).symm, by simp⟩
  | cons f flags ih =>
    simp only [List.foldl_cons]
    split
    · obtain ⟨more, hmore, hmem⟩ := ih options
      exact ⟨more, hmore, fun o ho => List.mem_cons_of_mem _ (hmem o ho)⟩
    obtain ⟨more, hmore, hmem⟩ := ih (options ++ [f])
    refine ⟨f :: more, by rw [hmore, List.append_assoc, List.singleton_append], fun o ho => ?_⟩
    rcases List.mem_cons.mp ho with rfl | ho
    · exact List.mem_cons_self
    · exact List.mem_cons_of_mem _ (hmem o ho)

end LustreCsi.Interface
