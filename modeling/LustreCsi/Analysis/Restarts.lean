import LustreCsi.Analysis.ReferenceSafety
import LustreCsi.Analysis.TokenFiles
import LustreCsi.Computation.Restarts
import LustreCsi.Interface.NodeCalls

/-!
# Restarts of the driver and of the node

The lock set is lost in a crash, while reference files, token files and mounts survive it.

* `live_across_restarts`: a volume that a pod uses keeps its mount, its token, its reference and its
  bind mount through any restarts of the driver and any calls for other pods. What a handler takes
  down, it takes down after a check that fails for a volume in use.
* `integrity_across_restarts`: neither restarts nor reboots make teardown delete data of a mounted
  file system, or let a reader of a token file see anything but a complete token.
-/

set_option autoImplicit false

namespace LustreCsi.Analysis.Restarts

open LustreCsi.Computation Model Interface

variable {σ σ' : NodeState} {p : Path} {volumeID : String} {n : ℕ}
  {c : Config nodeSig NodeState (Option Status)}

/-! ## Volumes in use -/

/-- The pod that a call is for. -/
def podCalled (s : NodeServer) : NodeCall → Option String
  | .publish req => podOf s (.publish req)
  | .unpublish req => podOf s (.unpublish req)
  | .stage _ => none
  | .unstage _ => none

/-- The pod `u` uses the key `k`, and these mounts are on its target path `q`. -/
structure Live (k : Key) (u q : String) (ms : List MountPoint) (s : NodeState) : Prop where
  dirs : MountDirs s
  inUse : InUse s k u
  bound : s.mountsAt (.outside q) = ms

/-- Operations that take nothing from the volume, whatever they answer. -/
structure Harmless (k : Key) (u q : String) (o : Op) : Prop where
  drops : ∀ r, ¬Drops o r k u
  bound : opMount o ≠ some (.outside q)

section Handlers

variable {k : Key} {u q : String} {ms : List MountPoint}
  {s : NodeServer}

/-- A step of a harmless operation keeps a live volume. -/
theorem live_of_harmless {o : Op} (h : Harmless k u q o) {r : o.Res} (hlive : Live k u q ms σ)
    (hs : nodeStep True σ o r σ') : Live k u q ms σ' := by
  have hout := outcome_of_nodeStep hs
  exact ⟨hout.mountDirs hlive.dirs, hout.inUse hlive.inUse (h.drops r),
    (hout.mountsAt_eq h.bound).trans hlive.bound⟩

/-- A program that keeps the volume alive, with what it may return. -/
abbrev KeepsLive (k : Key) (u q : String) (ms : List MountPoint) {α : Type} (Q : α → Prop)
    (p : NodeM α) : Prop := Maintains (nodeStep True) (Live k u q ms) Q p

/-- A program of harmless operations keeps a live volume. -/
theorem keepsLive_all {α : Type} {p : NodeM α} (h : p.All (Harmless k u q)) :
    KeepsLive k u q ms (fun _ => True) p :=
  Maintains.all (fun _ ho _ _ _ hlive hs => live_of_harmless ho hlive hs) h

/-- The operations that can take nothing from anybody. -/
theorem harmless_of_opMount {o : Op} (hmount : opMount o = none) (hremove : ∀ p, o ≠ .remove p)
    (hall : ∀ k', o ≠ .removeAll k') : Harmless k u q o := by
  refine ⟨fun r => ?_, by simp [hmount]⟩
  cases o with
  | unmount p | umount flags p => simp [opMount] at hmount
  | remove p => exact absurd rfl (hremove p)
  | removeAll k' => exact absurd rfl (hall k')
  | _ => exact fun h => h

/-- Removing another file is harmless. -/
theorem harmless_remove (href : p ≠ .ref k u) (htoken : p ≠ .token k) :
    Harmless k u q (.remove p) :=
  ⟨fun r h => h.elim (fun h => href h.1) htoken, by simp [opMount]⟩

/-- A mount elsewhere is harmless. -/
theorem harmless_mount {source fstype : String} {options : List String} (hp : p ≠ .outside q) :
    Harmless k u q (.mountSensitiveWithoutSystemd source p fstype options) :=
  ⟨fun r h => h, by simpa [opMount] using hp⟩

/-- Unmounting another path. -/
theorem all_unmountPath_harmless (s : NodeServer) (hmount : p ≠ .mount k) (hbound : p ≠ .outside q)
    (href : p ≠ .ref k u) (htoken : p ≠ .token k) :
    (unmountPath s p).All (Harmless k u q) := by
  refine all_unmountPath s (harmless_of_opMount rfl (by simp) (by simp)) (fun flags => ?_)
    (harmless_remove href htoken)
  exact ⟨fun r h => hmount h, by simpa [opMount] using hbound⟩

/-- Looking for another mount is harmless. -/
theorem all_isMounted_harmless (hmount : p ≠ .mount k) (hbound : p ≠ .outside q) :
    (isMounted p).All (Harmless k u q) := by
  refine all_isMounted (harmless_of_opMount rfl (by simp) (by simp))
    (harmless_of_opMount rfl (by simp) (by simp)) ?_
  exact ⟨fun r h => hmount h, by simpa [opMount] using hbound⟩

/-- No path is found to be a stale mount. -/
theorem keepsLive_pathExists (p : Path) :
    KeepsLive k u q ms (fun r => ∀ e, r = .error e → e.kind ≠ .corrupted) (pathExists p) := by
  refine Maintains.perform
    (fun σ r σ' hlive hs => live_of_harmless (harmless_of_opMount rfl (by simp) (by simp)) hlive hs)
    fun σ r σ' _ hs => ?_
  cases r with
  | none => exact Maintains.pure (by simp)
  | some err =>
    have hstale : err.kind ≠ .corrupted := hs.2 trivial
    dsimp only
    split
    · exact Maintains.pure (by simp)
    refine Maintains.pure fun e he => ?_
    cases he
    exact hstale

/-- The mount of a key in use is never found missing. -/
theorem keepsLive_isMounted :
    KeepsLive k u q ms (fun r => r ≠ .ok false) (isMounted (.mount k)) := by
  refine Maintains.perform
    (fun σ r σ' hlive hs => live_of_harmless (harmless_of_opMount rfl (by simp) (by simp)) hlive hs)
    fun σ r σ' hlive hs => ?_
  have hmounted := hlive.inUse.mounted
  cases r with
  | ok notMnt =>
    have hright : notMnt = !σ.mounted (.mount k) := hs.2 trivial
    rw [hright, hmounted]
    exact Maintains.pure (by simp)
  | error err =>
    dsimp only
    split
    · -- The directory of a mount exists.
      rename_i hkind
      have habsent : σ.pathPresent (.mount k) = false := hs.2 trivial hkind
      rw [hlive.dirs k hmounted] at habsent
      cases habsent
    · refine Maintains.bind (keepsLive_pathExists (.mount k)) fun r hr => ?_
      cases r with
      | ok b => exact Maintains.pure (by simp)
      | error e =>
        simp only [hr e rfl, if_false]
        exact Maintains.pure (by simp)

/-! ### Publishing for another pod -/

/-- The mount of another key is harmless. -/
theorem all_mountGlobalIAM_harmless (s : NodeServer) {k' : Key} (hk : k' ≠ k) {principal : String}
    {vc : StrMap} {volCap : VolumeCapability} :
    (mountGlobalIAM s volumeID principal k' vc volCap).All (Harmless k u q) := by
  refine all_mountGlobalIAM s (fun ip => harmless_of_opMount rfl (by simp) (by simp))
    (fun ip fsname options _ => harmless_mount (by simp))
    (harmless_of_opMount rfl (by simp) (by simp)) (fun flags => ?_) (harmless_remove (by simp) (by simp))
  exact ⟨fun r h => hk (Path.mount.inj h), by simp [opMount]⟩

/-- The global mount of a key is taken down only when it was not there. -/
theorem keepsLive_ensureGlobalMount (s : NodeServer) (k' : Key) {principal : String} {vc : StrMap}
    {volCap : VolumeCapability} :
    KeepsLive k u q ms (fun _ => True) (ensureGlobalMount s volumeID principal k' vc volCap) := by
  have hplain : ∀ {o : Op}, opMount o = none → (∀ p, o ≠ .remove p) → (∀ k', o ≠ .removeAll k') →
      Harmless k u q o := harmless_of_opMount
  have hdirs : (makeGlobalDirs k').All (Harmless k u q) :=
    all_makeGlobalDirs (hplain rfl (by simp) (by simp)) (hplain rfl (by simp) (by simp))
  have htoken : ∀ token, (updateTokenFile k' token).All (Harmless k u q) :=
    all_updateTokenFile (hplain rfl (by simp) (by simp)) (fun _ => hplain rfl (by simp) (by simp))
      (hplain rfl (by simp) (by simp)) (harmless_remove (by simp) (by simp))
  refine Maintains.bind (keepsLive_all hdirs) fun r _ => ?_
  split
  · exact Maintains.pure trivial
  split
  · exact Maintains.pure trivial
  refine Maintains.bind (keepsLive_all (htoken _)) fun r _ => ?_
  split
  · exact Maintains.pure trivial
  by_cases hk : k' = k
  · subst hk
    refine Maintains.bind keepsLive_isMounted fun r hr => ?_
    split
    · exact Maintains.pure trivial
    · exact Maintains.pure trivial
    · exact absurd rfl hr
  · refine Maintains.bind (keepsLive_all (all_isMounted_harmless (by simpa using hk) (by simp)))
      fun r _ => ?_
    split
    · exact Maintains.pure trivial
    · exact Maintains.pure trivial
    · exact keepsLive_all (all_mountGlobalIAM_harmless s hk)

/-- Binding another pod is harmless. -/
theorem all_bindPod_harmless (s : NodeServer) {k' : Key} {targetPath podUID : String}
    {targetMounted : Bool} {options : List String} (hpod : podUID ≠ u) (hpath : targetPath ≠ q) :
    (bindPod s volumeID targetPath targetMounted podUID k' options).All (Harmless k u q) :=
  all_bindPod s (harmless_of_opMount rfl (by simp) (by simp))
    (harmless_of_opMount rfl (by simp) (by simp))
    (fun _ => harmless_of_opMount rfl (by simp) (by simp))
    (harmless_remove (fun h => hpod (Path.ref.inj h).2) (by simp))
    (fun _ => harmless_mount (by simpa using hpath))
    (fun _ => all_unmountPath_harmless s (by simp) (by simpa using hpath) (by simp) (by simp))

/-- A body keeps a live volume under a lock. -/
theorem keepsLive_withLock {ε : Type} {x : String} {refused : ε} {body : NodeM (Option ε)}
    (h : KeepsLive k u q ms (fun _ => True) body) :
    KeepsLive k u q ms (fun _ => True) (withLock x refused body) := by
  refine Maintains.perform
    (fun σ r σ' hlive hs => live_of_harmless (harmless_of_opMount rfl (by simp) (by simp)) hlive hs)
    fun σ r σ' _ _ => ?_
  cases r with
  | false => exact Maintains.pure trivial
  | true =>
    refine Maintains.bind h fun err _ => keepsLive_all (.bind (all_perform ?_) fun _ => .pure)
    exact harmless_of_opMount rfl (by simp) (by simp)

/-- A publish for another pod keeps a live volume. -/
theorem keepsLive_nodePublishVolume {req : NodePublishVolumeRequest}
    (hpod : podOf s (.publish req) ≠ some u) (hpath : req.targetPath ≠ q) :
    KeepsLive k u q ms (fun _ => True) (nodePublishVolume s req) := by
  simp only [nodePublishVolume]
  split
  · exact Maintains.pure trivial
  rename_i vc volCap hval
  have hpod : (identityOf s vc).podUID ≠ u := by simpa [podOf, hval] using hpod
  have htarget : Path.outside req.targetPath ≠ .outside q := by simpa using hpath
  refine keepsLive_withLock (Maintains.bind (keepsLive_all (all_makeDir
    (harmless_of_opMount rfl (by simp) (by simp)))) fun r _ => ?_)
  split
  · exact Maintains.pure trivial
  refine Maintains.bind (keepsLive_all (all_isMounted_harmless (by simp) htarget)) fun r _ => ?_
  split
  · exact Maintains.pure trivial
  refine Maintains.bind (Q := fun _ => True) ?_ fun r _ => ?_
  · simp only [publishMounts, publishIAMVolume]
    split
    · split
      · exact Maintains.pure trivial
      · split
        · exact Maintains.pure trivial
        · split
          · exact Maintains.pure trivial
          · refine keepsLive_withLock (Maintains.bind (keepsLive_ensureGlobalMount s _)
              fun r _ => ?_)
            split
            · exact Maintains.pure trivial
            · exact keepsLive_all (all_bindPod_harmless s hpod hpath)
    · split
      · exact Maintains.pure trivial
      · exact keepsLive_all (.bind (all_perform (harmless_mount htarget)) fun _ => .pure)
  · split
    · exact Maintains.pure trivial
    · exact keepsLive_all (all_publishOwnership s (harmless_of_opMount rfl (by simp) (by simp))
        (fun _ => harmless_of_opMount rfl (by simp) (by simp))
        (fun _ => harmless_of_opMount rfl (by simp) (by simp))
        (all_unmountPath_harmless s (by simp) htarget (by simp) (by simp)) _ _)

/-! ### Unpublishing for another pod -/

/-- A reference directory that is not empty keeps the mount of its key. -/
theorem keepsLive_releaseGlobalMount (s : NodeServer) (k' : Key) :
    KeepsLive k u q ms (fun _ => True) (releaseGlobalMount s k') := by
  by_cases hk : k' = k
  · subst hk
    refine Maintains.perform
      (fun σ r σ' hlive hs => live_of_harmless (harmless_remove (by simp) (by simp)) hlive hs)
      fun σ r σ' hlive hs => ?_
    cases r with
    | none =>
      -- The reference of the pod is in the directory.
      obtain ⟨d, rs, hd, hrs, hu⟩ := pathPresent_ref_iff.mp hlive.inUse.ref
      rcases outcome_of_nodeStep hs with ⟨-, -, hempty, -⟩ | ⟨e, he, -⟩
      · have hnil : rs.keys = [] := by simpa [NodeState.dirInUse, hd, hrs] using hempty
        have hmem : u ∈ rs.keys := AList.mem_keys.mp hu
        simp [hnil] at hmem
      · cases he
    | some err =>
      dsimp only
      split
      · exact Maintains.pure trivial
      split
      · exact Maintains.pure trivial
      · exact Maintains.pure trivial
  · refine keepsLive_all (all_releaseGlobalMount s (harmless_of_opMount rfl (by simp) (by simp))
      (fun flags => ⟨fun r h => hk (Path.mount.inj h), by simp [opMount]⟩) (fun p hp => ?_)
      ⟨fun r h => hk h, by simp [opMount]⟩)
    refine harmless_remove ?_ ?_
    · rintro rfl
      exact hk (Option.some.inj hp).symm
    · rintro rfl
      exact hk (Option.some.inj hp).symm

/-- Cleaning up the references of another pod keeps a live volume. -/
theorem keepsLive_cleanUpReferences (s : NodeServer) {podUID : String} (hpod : podUID ≠ u)
    (ks : List Key) :
    KeepsLive k u q ms (fun _ => True) (cleanUpReferences s (ks.map (.ref · podUID))) := by
  induction ks with
  | nil => exact Maintains.pure trivial
  | cons k' ks ih =>
    simp only [List.map_cons, cleanUpReferences]
    split
    · exact ih
    refine Maintains.bind (keepsLive_withLock ?_) fun err _ =>
      Maintains.bind ih fun errs _ => Maintains.pure trivial
    refine Maintains.bind (keepsLive_all (all_perform
      (harmless_remove (fun h => hpod (Path.ref.inj h).2) (by simp)))) fun r _ => ?_
    split
    · exact Maintains.pure trivial
    · exact keepsLive_releaseGlobalMount s _

/-- An unpublish of another pod keeps a live volume. -/
theorem keepsLive_nodeUnpublishVolume {req : NodeUnpublishVolumeRequest}
    (hpod : podOf s (.unpublish req) ≠ some u) (hpath : req.targetPath ≠ q) :
    KeepsLive k u q ms (fun _ => True) (nodeUnpublishVolume s req) := by
  have htarget : Path.outside req.targetPath ≠ .outside q := by simpa using hpath
  have hplain : ∀ {o : Op}, opMount o = none → (∀ p, o ≠ .remove p) → (∀ k', o ≠ .removeAll k') →
      Harmless k u q o := harmless_of_opMount
  simp only [nodeUnpublishVolume]
  split
  · exact Maintains.pure trivial
  refine keepsLive_withLock (Maintains.bind (keepsLive_all
    (all_unmountPath_harmless s (by simp) htarget (by simp) (by simp))) fun r _ => ?_)
  split
  · exact Maintains.pure trivial
  refine Maintains.bind (Q := fun _ => True) ?_ fun err _ => Maintains.pure trivial
  simp only [cleanUpIAMReference]
  split
  · exact Maintains.pure trivial
  rename_i podUID huid
  have hne : podUID ≠ u := by simpa [podOf, huid] using hpod
  simp only [globPodReferences, Program.bind_assoc]
  refine Maintains.bind (keepsLive_all (all_perform (hplain rfl (by simp) (by simp))))
    fun ks _ => ?_
  refine Maintains.bind (keepsLive_all (all_keysListing _ _ _ fun _ =>
    hplain rfl (by simp) (by simp))) fun ks _ => ?_
  refine Maintains.bind (keepsLive_all (all_keysListing _ _ _ fun _ =>
    hplain rfl (by simp) (by simp))) fun ks _ => ?_
  simp only [Program.pure_eq, Program.ret_bind]
  exact Maintains.bind (keepsLive_cleanUpReferences s hne ks) fun _ _ => Maintains.pure trivial

/-! ### Staging on another path -/

/-- A staging elsewhere keeps a live volume. -/
theorem keepsLive_nodeStageVolume {req : NodeStageVolumeRequest} (hpath : req.stagingTargetPath ≠ q) :
    KeepsLive k u q ms (fun _ => True) (nodeStageVolume s req) := by
  have htarget : Path.outside req.stagingTargetPath ≠ .outside q := by simpa using hpath
  simp only [nodeStageVolume]
  split
  · exact Maintains.pure trivial
  · exact Maintains.pure trivial
  · refine keepsLive_withLock (keepsLive_all (all_stageLocked s
      (all_isMounted_harmless (by simp) htarget) (harmless_of_opMount rfl (by simp) (by simp))
      (harmless_of_opMount rfl (by simp) (by simp)) ?_))
    exact all_mountStaged s (harmless_of_opMount rfl (by simp) (by simp))
      (fun _ => harmless_mount htarget)
      (all_unmountPath_harmless s (by simp) htarget (by simp) (by simp))

/-- An unstaging elsewhere keeps a live volume. -/
theorem keepsLive_nodeUnstageVolume {req : NodeUnstageVolumeRequest}
    (hpath : req.stagingTargetPath ≠ q) :
    KeepsLive k u q ms (fun _ => True) (nodeUnstageVolume s req) := by
  have htarget : Path.outside req.stagingTargetPath ≠ .outside q := by simpa using hpath
  simp only [nodeUnstageVolume]
  split
  · exact Maintains.pure trivial
  split
  · exact Maintains.pure trivial
  exact keepsLive_withLock (keepsLive_all
    (all_unmountPath_harmless s (by simp) htarget (by simp) (by simp)))

/-- A call for another pod and another path keeps the volume alive. -/
theorem keepsLive_callBody {call : NodeCall} (hpod : podCalled s call ≠ some u)
    (hpath : lockPath call ≠ q) : KeepsLive k u q ms (fun _ => True) (callBody s call) := by
  cases call with
  | stage req => exact keepsLive_nodeStageVolume hpath
  | unstage req => exact keepsLive_nodeUnstageVolume hpath
  | publish req => exact keepsLive_nodePublishVolume hpod hpath
  | unpublish req => exact keepsLive_nodeUnpublishVolume hpod hpath

end Handlers

/-- A crash of the driver: the lock set is lost, and with it all handlers. -/
def DriverCrash (s s' : NodeState) : Prop := s' = { s with locks := ∅ }

/-- What happens on the node outside the driver concerns neither the directories of the keys nor the
mounts. -/
structure Undisturbed (s s' : NodeState) : Prop where
  keys : s'.keys = s.keys
  mounts : s'.mounts = s.mounts

/-- Whether a volume is live depends on the directories and mounts only. -/
theorem Live.congr {k : Key} {u q : String} {ms : List MountPoint} (h : Live k u q ms σ)
    (hkeys : σ'.keys = σ.keys) (hmounts : σ'.mounts = σ.mounts) :
    Live k u q ms σ' := by
  have hdir : ∀ k, σ'.dir k = σ.dir k := fun k => by simp only [NodeState.dir, hkeys]
  have hat : ∀ p, σ'.mountsAt p = σ.mountsAt p := fun p => by simp only [NodeState.mountsAt, hmounts]
  have hsame : ∀ k, SameKey k σ σ' := fun k => ⟨hdir k, hat _⟩
  refine ⟨fun k hk => ?_, (hsame k).inUse h.inUse, (hat _).trans h.bound⟩
  rw [(hsame k).pathPresent rfl]
  exact h.dirs k (by rwa [← (hsame k).mounted])

/-- What a driver reaches that crashes any number of times and handles the given calls. -/
abbrev CallRestarts (s : NodeServer) (calls : ℕ → ℕ → NodeCall) (s₀ : NodeState) :
    ℕ → Config nodeSig NodeState (Option Status) → Prop :=
  Computation.Restarts (nodeStep True) Undisturbed DriverCrash (fun n t => callBody s (calls n t)) s₀

/-- **A volume in use survives restarts.** Through any number of crashes of the driver at any steps,
and any interleaving of calls for other pods (whose UIDs are plain) and other paths, with any faults
but wrong probes and stale mounts, a volume that a pod uses keeps its reference, its token, its
mount and what is mounted on its target.
SOURCE: pkg/csi_driver/node.go:96-329, 332-417, 421-500, 571-611, 839-926,
pkg/csi_driver/unmount.go:100-154, pkg/util/volume_lock.go:29-59 -/
theorem live_across_restarts {s : NodeServer} {calls : ℕ → ℕ → NodeCall} {s₀ : NodeState} {k : Key}
    {u q : String} (hdirs : MountDirs s₀) (hlive : InUse s₀ k u)
    (hothers : ∀ n t, (∀ uid, podCalled s (calls n t) = some uid → uid ≠ u ∧ PlainUID uid) ∧
      lockPath (calls n t) ≠ q) {n : ℕ} {c : Config nodeSig NodeState (Option Status)}
    (h : CallRestarts s calls s₀ n c) :
    InUse c.world.state k u ∧ c.world.state.mountsAt (.outside q) = s₀.mountsAt (.outside q) := by
  have hpod : ∀ n t, podCalled s (calls n t) ≠ some u := fun n t heq => ((hothers n t).1 u heq).1 rfl
  have hend : Live k u q (s₀.mountsAt (.outside q)) c.world.state := by
    refine h.maintained (I := Live k u q (s₀.mountsAt (.outside q))) ⟨hdirs, hlive, rfl⟩
      (fun n t => keepsLive_callBody (hpod n t) (hothers n t).2)
      (fun _ _ hσ henv => hσ.congr henv.keys henv.mounts) fun σ σ' hσ hcrash => ?_
    obtain rfl : σ' = { σ with locks := ∅ } := hcrash
    exact hσ.congr rfl rfl
  exact ⟨hend.inUse, hend.bound⟩

section Sample

open Interface.Sample

/-- The driver is asked to unpublish the volume of the other pod, time and again. -/
def otherCalls (_ _ : ℕ) : NodeCall := .unpublish ⟨otherTargetPath⟩

/-- An unpublish that finds a reference of its pod, and gets the lock of the key. -/
def unpublishes : List (Move Choice) :=
  .spawn 0 :: [.ok, .probe (.error ⟨.notExist, ""⟩), .ok, .keys [digestABC],
    .names ["mount", "refs", "token"], .names ["u2"], .ok].map (.call 0)

/-- The volume of the pod `u1`, which the pod `u2` has used too. -/
def sharedVolume : NodeState :=
  { oneVolume with
    keys := (∅ : AList fun _ : Key => KeyDir).insert digestABC
      ⟨true, some (((∅ : AList fun _ : String => String).insert "u1" "ab").insert "u2" "ab"),
        some "secret", none⟩ }

/-- The shared volume has mounts in directories only. -/
theorem sharedVolume_mountDirs : MountDirs sharedVolume := by
  intro k hk
  by_cases heq : k = digestABC
  · subst heq
    decide +kernel
  have hnone : sharedVolume.mounted (.mount k) = false := by
    simp [NodeState.mounted, NodeState.mountsAt, sharedVolume, oneVolume, Ne.symm heq]
  rw [hnone] at hk
  cases hk

/-- The driver crashes in the middle of an unpublish, and begins with it again. -/
theorem restarts_sample : ∃ c, c.next 0 = some (.remove (.ref digestABC "u2")) ∧
    CallRestarts sampleServer otherCalls sharedVolume 1 c := by
  have hplay : ((playPool execAccurate (fun t => callBody sampleServer (otherCalls 0 t)) unpublishes
      (.start sharedVolume)).bind fun c =>
      playPool execAccurate (fun t => callBody sampleServer (otherCalls 1 t)) unpublishes
        (.start { c.world.state with locks := ∅ })).map (fun c => c.next 0) =
        some (some (.remove (.ref digestABC "u2"))) := by decide +kernel
  obtain ⟨c₂, hc₂, hnext⟩ := Option.map_eq_some_iff.mp hplay
  obtain ⟨c₁, hc₁, hc₂⟩ := Option.bind_eq_some_iff.mp hc₂
  have hrun : ∀ {n c c'}, playPool execAccurate (fun t => callBody sampleServer (otherCalls n t))
      unpublishes c = some c' → Run (nodeStep True) Undisturbed
        (fun t => callBody sampleServer (otherCalls n t)) c c' := fun h =>
    (playPool_run (fun _ => trivial) h).mono
      fun _ _ _ _ hs => nodeStep_of_execAccurate hs
  refine ⟨c₂, hnext, ?_⟩
  exact .of_run (.crash (.of_run .start (hrun hc₁)) rfl) (hrun hc₂)

/-- While the second unpublish of the other pod is about to remove its reference, the volume of the
pod `u1` is in use. -/
theorem live_across_restarts_crash : ∃ c : Config nodeSig NodeState (Option Status),
    CallRestarts sampleServer otherCalls sharedVolume 1 c ∧
    c.next 0 = some (.remove (.ref digestABC "u2")) ∧
    InUse c.world.state digestABC "u1" ∧ (c.world.state.mountsAt (.outside targetPath)).length = 1 := by
  obtain ⟨c, hnext, h⟩ := restarts_sample
  have hlive : InUse sharedVolume digestABC "u1" := by
    constructor <;> decide +kernel
  have hpod : podCalled sampleServer (.unpublish ⟨otherTargetPath⟩) = some "u2" := by decide +kernel
  have hothers : ∀ n t, (∀ uid, podCalled sampleServer (otherCalls n t) = some uid →
      uid ≠ "u1" ∧ PlainUID uid) ∧ lockPath (otherCalls n t) ≠ targetPath := by
    refine fun n t => ⟨fun uid huid => ?_, by simp only [otherCalls, lockPath]; decide⟩
    obtain rfl : "u2" = uid := Option.some.inj (hpod.symm.trans huid)
    exact ⟨by decide, by decide⟩
  obtain ⟨hinUse, hbound⟩ := live_across_restarts sharedVolume_mountDirs hlive hothers h
  exact ⟨c, h, hnext, hinUse, hbound ▸ by decide +kernel⟩

end Sample

/-! ## Integrity -/

/-- A crash of the driver or a reboot of the node: the lock set is lost, files stay, and the mounts
stay or are lost. -/
structure Crash (s s' : NodeState) : Prop where
  locks : s'.locks = ∅
  keys : s'.keys = s.keys
  mounts : s'.mounts = s.mounts ∨ s'.mounts = []
  wiped : s'.wiped = s.wiped

/-- A crash keeps mounts in directories only. -/
theorem Crash.mountDirs (h : Crash σ σ') (hdirs : MountDirs σ) :
    MountDirs σ' := by
  refine hdirs.of_dir (fun k => by simp only [NodeState.dir, h.keys]) fun k hk => ?_
  rcases h.mounts with hm | hm
  · simpa only [NodeState.mounted, NodeState.mountsAt, hm] using hk
  · simp [NodeState.mounted, NodeState.mountsAt, hm] at hk

/-- A crash keeps the token files. -/
theorem Crash.content_token (h : Crash σ σ') (k : Key) :
    σ'.content (.token k) = σ.content (.token k) := by
  simp only [NodeState.content, NodeState.dir, h.keys]

section Integrity

variable {s : NodeServer} {reqs : ℕ → ℕ → NodeRequest} {s₀ : NodeState}

/-- The token was there from the start, or a publish of the key has passed it before the `n`-th
crash. -/
def Passed (s : NodeServer) (reqs : ℕ → ℕ → NodeRequest) (s₀ : NodeState) (n : ℕ) (k : Key)
    (text : String) : Prop :=
  s₀.content (.token k) = some text ∨
    ∃ m < n, ∃ u, TokenFiles.Passes s (reqs m u) k text

/-- What a crash hands on to the next epoch. -/
structure Sound (s : NodeServer) (reqs : ℕ → ℕ → NodeRequest) (s₀ : NodeState) (n : ℕ)
    (σ : NodeState) : Prop where
  locks : σ.locks = ∅
  dirs : MountDirs σ
  wiped : σ.wiped = s₀.wiped
  tokens : ∀ k text, σ.content (.token k) = some text → Passed s reqs s₀ n k text

/-- One epoch. -/
theorem poolSafe_of_sound (hplain : ∀ n t uid, podOf s (reqs n t) = some uid → PlainUID uid)
    (hσ : Sound s reqs s₀ n σ)
    (hrun : Run NodeState.step Elsewhere (fun t => nodeBody s (reqs n t)) (.start σ) c) :
    PoolSafe (nodeStep False)
      (SharedMounts.contract (ReferenceSafety.podsOf s (reqs n)) False (fun _ => False) s₀.wiped)
      (fun t => ReferenceSafety.Established s (fun _ => False) t (reqs n t)) (fun _ => True) c := by
  rw [← hσ.wiped]
  exact ReferenceSafety.poolSafe_of_run (hplain n) hσ.locks hσ.dirs
    (hrun.mono fun _ _ _ _ h => ⟨h, False.elim⟩)

/-- From a sound state on, what a token file holds was passed by a call. -/
theorem tokens_of_sound (hσ : Sound s reqs s₀ n σ)
    (hrun : Run NodeState.step Elsewhere (fun t => nodeBody s (reqs n t)) (.start σ) c) {k : Key}
    {text : String} (h : c.world.state.content (.token k) = some text) :
    Passed s reqs s₀ (n + 1) k text := by
  have hrun' : TokenFiles.TokenRun s (reqs n) (.start σ) c :=
    hrun.mono_env fun _ _ henv => ⟨henv.locks, henv.keys⟩
  rcases TokenFiles.complete_of_run hσ.locks hrun' h with hold | ⟨u, -, hp⟩
  · rcases hσ.tokens k text hold with hstart | ⟨m, hm, u, hp⟩
    · exact .inl hstart
    · exact .inr ⟨m, by omega, u, hp⟩
  · exact .inr ⟨n, by omega, u, hp⟩

/-- A crash at any step hands on what it found. -/
theorem sound_of_crash (hplain : ∀ n t uid, podOf s (reqs n t) = some uid → PlainUID uid)
    (hσ : Sound s reqs s₀ n σ)
    (hrun : Run NodeState.step Elsewhere (fun t => nodeBody s (reqs n t)) (.start σ) c)
    (hcrash : Crash c.world.state σ') : Sound s reqs s₀ (n + 1) σ' := by
  have hinv := (poolSafe_of_sound hplain hσ hrun).inv
  refine ⟨hcrash.locks, hcrash.mountDirs hinv.dirs, hcrash.wiped.trans hinv.wiped, fun k text h => ?_⟩
  rw [hcrash.content_token] at h
  exact tokens_of_sound hσ hrun h

/-- What a driver reaches that handles the given requests, where it or the node may crash any number
of times. -/
abbrev RequestRestarts (s : NodeServer) (reqs : ℕ → ℕ → NodeRequest) (s₀ : NodeState) :
    ℕ → Config nodeSig NodeState (Option Status) → Prop :=
  Computation.Restarts NodeState.step Elsewhere Crash (fun n t => nodeBody s (reqs n t)) s₀

/-- **Integrity across restarts.** Through any number of crashes of the driver and reboots of the
node at any steps, and any interleaving of publishes and unpublishes with any faults and any wrong
probes: no file of a mounted file system is deleted, a key directory is removed only when nothing is
mounted for it, and what a reader finds in the token file of a key is a complete token that a publish
of this key has passed, before or after the last crash.
SOURCE: pkg/csi_driver/node.go:352-383, 783-795, 839-926, pkg/csi_driver/unmount.go:100-154,
pkg/util/volume_lock.go:29-59 -/
theorem integrity_across_restarts
    (hplain : ∀ n t uid, podOf s (reqs n t) = some uid → PlainUID uid) (hlocks : s₀.locks = ∅)
    (hdirs : MountDirs s₀) {n : ℕ} {c : Config nodeSig NodeState (Option Status)}
    (h : RequestRestarts s reqs s₀ n c) :
    c.world.state.wiped = s₀.wiped ∧
      (∀ t k, c.next t = some (.removeAll k) → c.world.state.mounted (.mount k) = false) ∧
      ∀ k text, c.world.state.content (.token k) = some text → Passed s reqs s₀ (n + 1) k text := by
  obtain ⟨σ, hσ, hrun⟩ := h.epoch (P := Sound s reqs s₀)
    ⟨hlocks, hdirs, rfl, fun _ _ h => .inl h⟩
    fun n σ c σ' hσ hrun hcrash => sound_of_crash hplain hσ hrun hcrash
  have hsafe := poolSafe_of_sound hplain hσ hrun
  refine ⟨hsafe.inv.wiped, fun t k hnext => ?_, fun k text h => tokens_of_sound hσ hrun h⟩
  obtain ⟨r, σ', hs, -⟩ := nodeStep_total False c.world.state (.removeAll k)
  exact (hsafe.next trivial hnext ⟨hs, False.elim⟩).removal k rfl

end Integrity

section Sample

open Interface.Sample

/-- The driver crashes while it replaces a token; the next publish opens the temporary file again.
-/
theorem restarts_tokens_sample : ∃ c, TokenFiles.tokenFiles c = (some "secret", some "") ∧
    RequestRestarts sampleServer (fun _ => TokenFiles.sampleRequests) freshNode 1 c := by
  have hplay : ((playPool NodeState.exec
      (fun t => nodeBody sampleServer (TokenFiles.sampleRequests t))
      (TokenFiles.enters 0 ++ TokenFiles.completes 0 ++ TokenFiles.enters 1 ++ [.call 1 (.wrote 2)])
      (.start freshNode)).bind fun c =>
      playPool NodeState.exec (fun t => nodeBody sampleServer (TokenFiles.sampleRequests t))
        (TokenFiles.enters 0) (.start { c.world.state with locks := ∅ })).map TokenFiles.tokenFiles =
        some (some "secret", some "") := by decide +kernel
  obtain ⟨c₂, hc₂, hfiles⟩ := Option.map_eq_some_iff.mp hplay
  obtain ⟨c₁, hc₁, hc₂⟩ := Option.bind_eq_some_iff.mp hc₂
  have hcrash : Crash c₁.world.state { c₁.world.state with locks := ∅ } := ⟨rfl, rfl, .inl rfl, rfl⟩
  refine ⟨c₂, hfiles, ?_⟩
  exact .of_run (.crash (.of_run .start (playPool_run (fun _ => trivial) hc₁)) hcrash)
    (playPool_run (fun _ => trivial) hc₂)

/-- After a crash in the middle of a write the token file still holds the complete token. -/
theorem integrity_across_restarts_crash : ∃ c : Config nodeSig NodeState (Option Status),
    RequestRestarts sampleServer (fun _ => TokenFiles.sampleRequests) freshNode 1 c ∧
    TokenFiles.tokenFiles c = (some "secret", some "") ∧ c.world.state.wiped = [] ∧
    Passed sampleServer (fun _ => TokenFiles.sampleRequests) freshNode 2 digestABC "secret" := by
  obtain ⟨c, hfiles, h⟩ := restarts_tokens_sample
  have hplain : ∀ (_ t : ℕ) uid, podOf sampleServer (TokenFiles.sampleRequests t) = some uid →
      PlainUID uid := fun _ t uid huid => by
    have hpod : podOf sampleServer (TokenFiles.sampleRequests t) = some "u1" := by
      simp [podOf, TokenFiles.sampleRequests, validatePublish_publishRequest, identityOf_normalContext]
    obtain rfl : uid = "u1" := Option.some.inj (huid.symm.trans hpod)
    decide
  obtain ⟨hwiped, -, htokens⟩ := integrity_across_restarts
    hplain rfl ReferenceSafety.freshNode_mountDirs h
  exact ⟨c, h, hfiles, hwiped, htokens digestABC "secret" (Prod.mk.inj hfiles).1⟩

end Sample

end LustreCsi.Analysis.Restarts
