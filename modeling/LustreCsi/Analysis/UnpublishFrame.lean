import LustreCsi.Interface.Paths
import LustreCsi.Interface.Sample
import LustreCsi.Interface.Sequential

/-!
# What NodeUnpublishVolume touches besides its own volume

The pod's UID is cut out of the target path, and the references to drop are those of this UID under
every key, whichever volume is mounted there. So a pod's other IAM volumes lose their references
with the first one. `keeps_other_keys_iff` says when the other keys keep everything.
-/

set_option autoImplicit false

namespace LustreCsi.Analysis.UnpublishFrame

open LustreCsi.Computation Model Interface

variable {k k' : Key} {u : String} {s s' : NodeState} {tr : List (Event nodeSig)} {acc : Prop}
  {srv : NodeServer}

/-- The pod has the IAM volume with the given key published at the target path: its reference
exists, and key and target are mounted. Mounts lie on kubelet's paths and on the `mount`
directories of keys only. -/
structure Published (s : NodeState) (k : Key) (targetPath podUID : String) : Prop where
  uid : getPodUIDFromTargetPath targetPath = some podUID
  plain : PlainUID podUID
  ref : s.pathPresent (.ref k podUID) = true
  mounted : s.mounted (.mount k) = true
  target : ∃ m, s.mountsAt (.outside targetPath) = [m]
  mountPaths : ∀ m ∈ s.mounts, (∃ p, m.path = .outside p) ∨ ∃ k, m.path = .mount k

/-! ## Keys that are left alone -/

/-- Cleaning up the reference of one key changes no other. -/
theorem cleanUpIAMReferenceForKey_frame (hne : k' ≠ k) {a : Option String}
    (h : Exec (nodeStep acc) (cleanUpIAMReferenceForKey srv k (.ref k u)) s tr a s') :
    SameKey k' s s' ∧ (k'.name ∈ s.locks → k'.name ∈ s'.locks) := by
  refine ⟨exec_sameKey step_of_nodeStep (cleanUpIAMReferenceForKey_avoids srv hne.symm u) h, ?_⟩
  have hname : k.name ≠ k'.name := fun heq => hne (Key.eq_of_name heq).symm
  refine exec_locked step_of_nodeStep (all_cleanUpIAMReferenceForKey srv ?_ ?_ ?_ ?_ ?_ ?_ ?_) h
  all_goals simp [hname]

/-- A key whose lock is taken is not cleaned up. -/
theorem cleanUpIAMReferenceForKey_locked {a : Option String} (hlock : k.name ∈ s.locks)
    (h : Exec (nodeStep acc) (cleanUpIAMReferenceForKey srv k (.ref k u)) s tr a s') : s' = s := by
  rcases exec_withLock step_of_nodeStep h with ⟨-, -, rfl, -⟩ | ⟨hfree, -⟩
  · rfl
  · exact absurd hlock hfree

/-- The loop over the references leaves a key alone that is not in the list or is locked. -/
theorem cleanUpReferences_frame (hu : u ≠ "") (hsep : ∀ c ∈ u.toList, notSeparator c = true)
    {refPaths : List Path} (hrefs : ∀ p ∈ refPaths, ∃ k, p = .ref k u) {a : List String}
    (h : Exec (nodeStep acc) (cleanUpReferences srv refPaths) s tr a s')
    (hk : .ref k' u ∉ refPaths ∨ k'.name ∈ s.locks) : SameKey k' s s' := by
  induction refPaths generalizing s tr a with
  | nil =>
    obtain ⟨-, -, rfl⟩ := exec_pure.mp h
    exact .refl k' _
  | cons p rest ih =>
    obtain ⟨k, rfl⟩ := hrefs p List.mem_cons_self
    rw [cleanUpReferences, extractKey_ref k hu hsep] at h
    obtain ⟨tr₁, err, s₁, tr₂, hone, hloop, -⟩ := exec_bind.mp h
    obtain ⟨tr₃, errs, s₂, tr₄, hrest, hret, -⟩ := exec_bind.mp hloop
    obtain ⟨-, -, rfl⟩ := exec_pure.mp hret
    have hrest' : ∀ p ∈ rest, ∃ k, p = .ref k u := fun p hp => hrefs p (List.mem_cons_of_mem _ hp)
    by_cases hkk : k' = k
    · subst hkk
      have hlock := hk.resolve_left fun hnot => hnot List.mem_cons_self
      obtain rfl := cleanUpIAMReferenceForKey_locked hlock hone
      exact ih hrest' hrest (.inr hlock)
    · obtain ⟨hsame, hlocks⟩ := cleanUpIAMReferenceForKey_frame hkk hone
      refine hsame.trans (ih hrest' hrest (hk.imp ?_ hlocks))
      exact fun hnot hmem => hnot (List.mem_cons_of_mem _ hmem)

/-- Unmounting one of kubelet's paths touches no key and no lock. -/
theorem unmountPath_outside {p : String} {a : Option Status}
    (h : Exec (nodeStep acc) (unmountPath srv (.outside p)) s tr a s') :
    (∀ k, SameKey k s s') ∧ s'.locks = s.locks := by
  refine ⟨fun k => exec_sameKey step_of_nodeStep (all_unmountPath srv ?_ ?_ ?_) h,
    exec_locks step_of_nodeStep (all_unmountPath srv ?_ ?_ ?_) h⟩
  all_goals simp [opKey, Path.key?, lockEvent]

/-- A key without a reference of the pod, and one whose lock is taken, are left as they were. -/
theorem unpublish_sameKey {targetPath podUID : String}
    (huid : getPodUIDFromTargetPath targetPath = some podUID) (hplain : PlainUID podUID)
    {a : Option Status} (h : Exec (nodeStep acc) (nodeUnpublishVolume srv ⟨targetPath⟩) s tr a s')
    (hk : s.pathPresent (.ref k' podUID) = false ∨ k'.name ∈ s.locks) : SameKey k' s s' := by
  obtain ⟨-, hne, -⟩ := getPodUIDFromTargetPath_spec huid
  have hsep := notSeparator_of_uid huid fun hc => hplain _ hc (by simp)
  rcases exec_nodeUnpublishVolume step_of_nodeStep huid h with
    ⟨-, -, rfl, -⟩ | ⟨-, tr₁, err, s₁, tr₂, s₂, hunmount, hrest, rfl, -⟩
  · exact .refl k' _
  -- The lock of the target path is taken and released around the rest.
  have hlocked : SameKey k' s { s with locks := insert targetPath s.locks } := ⟨rfl, rfl⟩
  have hunlocked : SameKey k' s₂ { s₂ with locks := s₂.locks.erase targetPath } := ⟨rfl, rfl⟩
  obtain ⟨hsame, hlocks⟩ := unmountPath_outside hunmount
  refine (hlocked.trans (hsame k')).trans (SameKey.trans ?_ hunlocked)
  rcases hrest with ⟨-, -, rfl, -⟩ | ⟨tr₃, refPaths, tr₄, errs, -, -, hglob, hloop, -⟩
  · exact .refl k' _
  obtain ⟨-, hfound⟩ := exec_globPodReferences step_of_nodeStep hglob
  have hrefs : ∀ p ∈ refPaths, ∃ k, p = .ref k podUID := fun p hp => by
    obtain ⟨k, hk, -⟩ := hfound p hp
    exact ⟨k, hk⟩
  refine cleanUpReferences_frame hne hsep hrefs hloop (hk.imp (fun habs hmem => ?_) fun hlock => ?_)
  · obtain ⟨k, heq, hpresent⟩ := hfound _ hmem
    obtain ⟨rfl, -⟩ := Path.ref.inj heq
    rw [(hlocked.trans (hsame k')).pathPresent rfl] at hpresent
    exact absurd (habs.symm.trans hpresent) (by simp)
  · rw [hlocks]
    exact Finset.mem_insert_of_mem hlock

/-! ## Keys that are not -/

/-- Nothing is mounted on a reference. -/
theorem Published.ref_not_mounted {targetPath podUID : String} (h : Published s k targetPath podUID)
    (u : String) : s.mountsAt (.ref k' u) = [] := by
  refine List.filter_eq_nil_iff.mpr fun m hm => ?_
  rcases h.mountPaths m hm with ⟨p, hp⟩ | ⟨k, hp⟩ <;> simp [hp]

/-- The target path is unmounted at the first attempt, and its directory removed. -/
theorem reaches_unmountPath (acc : Prop) (srv : NodeServer) {p : Path} {m : MountPoint}
    (hm : s.mountsAt p = [m]) (hp : ∃ q, p = .outside q) :
    ∃ s', Reaches (nodeStep acc) (unmountPath srv p) s none s' := by
  obtain ⟨q, rfl⟩ := hp
  have hmounted : s.mounted (.outside q) = true := by simp [NodeState.mounted, hm]
  have hgone : (s.detach (.outside q)).mounted (.outside q) = false := by
    simp [NodeState.mounted, mountsAt_detach_self, hm]
  have hprobe : nodeStep acc s (.isLikelyNotMountPoint (.outside q)) (.ok false) s :=
    nodeStep_of_exec (.probe (.ok false)) rfl (by simp [Accurate, hmounted])
  have humount : nodeStep acc s (.umount [] (.outside q)) ("", none) (s.detach (.outside q)) :=
    nodeStep_of_exec (.umounted "" none true) (by simp [NodeState.exec, hmounted]) trivial
  have hremove : nodeStep acc (s.detach (.outside q)) (.remove (.outside q))
      ((s.detach (.outside q)).removeOne (.outside q)).1
      ((s.detach (.outside q)).removeOne (.outside q)).2 := nodeStep_of_exec .ok rfl trivial
  have hnone : unlessNotExist ((s.detach (.outside q)).removeOne (.outside q)).1 = none := by
    unfold NodeState.removeOne
    split
    · simp [unlessNotExist]
    · simp [NodeState.dirInUse, hgone, unlessNotExist]
  have hdir : Reaches (nodeStep acc) (removeDir (.outside q)) (s.detach (.outside q)) none _ :=
    reaches_perform hremove (by
      rw [hnone]
      exact .ret _ _)
  exact ⟨_, reaches_perform hprobe (reaches_perform humount hdir)⟩

/-- With the lock of the key free, the reference can be dropped for good. -/
theorem reaches_cleanUpIAMReferenceForKey (acc : Prop) (srv : NodeServer)
    (href : s.pathPresent (.ref k u) = true) (hmount : s.mountsAt (.ref k u) = [])
    (hlock : k.name ∉ s.locks) :
    ∃ a s', Reaches (nodeStep acc) (cleanUpIAMReferenceForKey srv k (.ref k u)) s a s' ∧
      s'.pathPresent (.ref k u) = false := by
  let s₀ : NodeState := { s with locks := insert k.name s.locks }
  have hone : s₀.removeOne (.ref k u) = (none, s₀.erase (.ref k u)) := by
    have hpresent : s₀.pathPresent (.ref k u) = true := href
    have hnot : s₀.mounted (.ref k u) = false := by
      simp [NodeState.mounted, show s₀.mountsAt (.ref k u) = [] from hmount]
    simp [NodeState.removeOne, hpresent, NodeState.dirInUse, hnot]
  have hremove : nodeStep acc s₀ (.remove (.ref k u)) none (s₀.erase (.ref k u)) :=
    nodeStep_of_exec .ok (by rw [NodeState.exec, hone]) trivial
  have habs : (s₀.erase (.ref k u)).pathPresent (.ref k u) = false := by
    rw [Bool.eq_false_iff]
    intro hpresent
    obtain ⟨d, rs, hd, hrs, hu⟩ := pathPresent_ref_iff.mp hpresent
    rw [NodeState.erase, dir_modifyKey_self, Option.some.injEq] at hd
    subst hd
    obtain ⟨rs', -, rfl⟩ := Option.map_eq_some_iff.mp hrs
    simp at hu
  obtain ⟨a, s', hrest⟩ := exists_reaches (nodeStep_total acc)
    (releaseGlobalMount srv k) (s₀.erase (.ref k u))
  have habs' : s'.pathPresent (.ref k u) = false := by
    obtain ⟨tr, hrest⟩ := hrest
    refine exec_ref_absent step_of_nodeStep (all_releaseGlobalMount srv ?_ ?_ ?_ ?_) hrest habs
    all_goals simp
  exact ⟨a, _, reaches_withLock hlock (reaches_perform hremove hrest), habs'⟩

/-- A second key of the pod, with its lock free, can lose its reference. -/
theorem reaches_unpublish (acc : Prop) (srv : NodeServer) {targetPath podUID : String}
    (h : Published s k targetPath podUID) (href : s.pathPresent (.ref k' podUID) = true)
    (htarget : targetPath ∉ s.locks) (hlock : k'.name ∉ s.locks) :
    ∃ a s', Reaches (nodeStep acc) (nodeUnpublishVolume srv ⟨targetPath⟩) s a s' ∧
      s'.pathPresent (.ref k' podUID) = false := by
  obtain ⟨hslash, hne, -⟩ := getPodUIDFromTargetPath_spec h.uid
  have hsep := notSeparator_of_uid h.uid fun hc => h.plain _ hc (by simp)
  have hempty : targetPath ≠ "" := by
    rintro rfl
    simp at hslash
  obtain ⟨m, hm⟩ := h.target
  let s₀ : NodeState := { s with locks := insert targetPath s.locks }
  obtain ⟨s₁, hunmount⟩ := reaches_unmountPath acc srv
    (show s₀.mountsAt (.outside targetPath) = [m] from hm) ⟨_, rfl⟩
  -- What the unmount of the target leaves as it was: references and locks of keys.
  have hkept : s₁.pathPresent (.ref k' podUID) = true ∧ s₁.mountsAt (.ref k' podUID) = [] ∧
      k'.name ∉ s₁.locks := by
    obtain ⟨tr, hrun⟩ := hunmount
    obtain ⟨hsame, hlocks⟩ := unmountPath_outside hrun
    refine ⟨((hsame k').pathPresent rfl).trans href, ?_, ?_⟩
    · rw [exec_mountsAt (q := .ref k' podUID) step_of_nodeStep (all_unmountPath srv ?_ ?_ ?_) hrun]
      · exact h.ref_not_mounted podUID
      all_goals simp [opMount]
    · rw [hlocks, Finset.mem_insert, not_or]
      exact ⟨(ne_name_of_slash k' hslash).symm, hlock⟩
  obtain ⟨rest, hglob⟩ := reaches_globPodReferences acc hkept.1
  obtain ⟨a, s₂, hone, habs⟩ := reaches_cleanUpIAMReferenceForKey acc srv hkept.1
    hkept.2.1 hkept.2.2
  obtain ⟨errs, s₃, hrest⟩ := exists_reaches (nodeStep_total acc) (cleanUpReferences srv rest) s₂
  have habs' : s₃.pathPresent (.ref k' podUID) = false := by
    obtain ⟨tr, hrest⟩ := hrest
    refine exec_ref_absent step_of_nodeStep (all_cleanUpReferences srv ?_ ?_ ?_ ?_ ?_ ?_ _) hrest habs
    all_goals simp
  have hloop : Reaches (nodeStep acc) (cleanUpReferences srv (.ref k' podUID :: rest)) s₁
      (a.toList ++ errs) s₃ := by
    rw [cleanUpReferences, extractKey_ref k' hne hsep]
    exact .bind hone (.bind hrest (.ret _ _))
  obtain ⟨text, hclean⟩ : ∃ text,
      Reaches (nodeStep acc) (cleanUpIAMReference srv targetPath) s₁ text s₃ := by
    rw [cleanUpIAMReference, h.uid]
    exact ⟨_, .bind hglob (.bind hloop (.ret _ _))⟩
  have hbody : Reaches (nodeStep acc) (unpublishLocked srv targetPath) s₀ _ s₃ :=
    .bind hunmount (.bind hclean (.ret _ _))
  rw [nodeUnpublishVolume, if_neg hempty]
  exact ⟨_, _, reaches_withLock htarget hbody, habs'⟩

/-- Unpublishing an IAM volume leaves all other keys of the node as they were, whatever the
outcome, exactly when the pod has no other IAM volume published, or the locks of all its other
keys, or of the target path, are taken.
SOURCE: pkg/csi_driver/node.go:477-500, 839-877 -/
theorem keeps_other_keys_iff (acc : Prop) (srv : NodeServer) (s : NodeState)
    (volumeID namespace_ saName targetPath podUID : String)
    (h : Published s (iamKey srv volumeID namespace_ saName) targetPath podUID) :
    (∀ tr a s', Exec (nodeStep acc) (nodeUnpublishVolume srv ⟨targetPath⟩) s tr a s' →
        ∀ k', k' ≠ iamKey srv volumeID namespace_ saName → SameKey k' s s') ↔
      targetPath ∈ s.locks ∨ ∀ k', k' ≠ iamKey srv volumeID namespace_ saName →
        s.pathPresent (.ref k' podUID) = true → k'.name ∈ s.locks := by
  constructor
  · intro hkeeps
    by_contra hnot
    push Not at hnot
    obtain ⟨htarget, k', hne, href, hlock⟩ := hnot
    obtain ⟨a, s', ⟨tr, hrun⟩, habs⟩ := reaches_unpublish acc srv h href htarget hlock
    rw [((hkeeps tr a s' hrun k' hne).pathPresent rfl), href] at habs
    exact absurd habs (by simp)
  · rintro hcond tr a s' hrun k' hne
    rcases hcond with htarget | hlocks
    · rcases exec_nodeUnpublishVolume step_of_nodeStep h.uid hrun with ⟨-, -, rfl, -⟩ | ⟨hfree, -⟩
      · exact .refl k' _
      · exact absurd htarget hfree
    refine unpublish_sameKey h.uid h.plain hrun ?_
    cases href : s.pathPresent (.ref k' podUID) with
    | false => exact .inl rfl
    | true => exact .inr (hlocks k' hne href)

/-! ## A pod with two IAM volumes -/

open Sample

/-- Besides the volume `ab` at `targetPath`, the pod `u1` has the volume `xy`. -/
def twoVolumes : NodeState :=
  { oneVolume with
    keys := oneVolume.keys.insert digestXYC (usedBy "u1" "xy")
    mounts := ⟨"10.0.0.3@tcp:/other", .mount digestXYC, "lustre", []⟩ :: oneVolume.mounts }

/-- On the node with two volumes, the first is published. -/
theorem published_twoVolumes :
    Published twoVolumes (iamKey sampleServer "ab" "c" "d") targetPath "u1" where
  uid := getPodUIDFromTargetPath_targetPath
  plain := by decide
  ref := by
    rw [iamKey_sample]
    decide +kernel
  mounted := by
    rw [iamKey_sample]
    decide +kernel
  target := ⟨_, rfl⟩
  mountPaths := by simp [twoVolumes, oneVolume]

/-- The same node while another handler holds the lock of the volume `xy`. -/
def lockedVolumes : NodeState := { twoVolumes with locks := {digestXYC.name} }

/-- Locks do not matter for what is published. -/
theorem published_lockedVolumes :
    Published lockedVolumes (iamKey sampleServer "ab" "c" "d") targetPath "u1" :=
  { published_twoVolumes with }

/-- The pod has no third volume. -/
theorem dir_lockedVolumes (habc : k ≠ digestABC) (hxyc : k ≠ digestXYC) :
    lockedVolumes.dir k = none := by
  change (((∅ : AList fun _ : Key => KeyDir).insert digestABC (usedBy "u1" "ab")).insert digestXYC
    (usedBy "u1" "xy")).lookup k = none
  rw [AList.lookup_insert_ne hxyc, AList.lookup_insert_ne habc, AList.lookup_empty]

/-- The second volume of the pod is kept as long as its lock is taken. -/
theorem keeps_other_keys_taken :
    lockedVolumes.pathPresent (.ref digestXYC "u1") = true ∧
    ∀ tr a s', Exec (nodeStep True) (nodeUnpublishVolume sampleServer ⟨targetPath⟩) lockedVolumes tr a
      s' → ∀ k', k' ≠ iamKey sampleServer "ab" "c" "d" → SameKey k' lockedVolumes s' := by
  refine ⟨by decide +kernel, (keeps_other_keys_iff True sampleServer lockedVolumes "ab" "c" "d"
    targetPath "u1" published_lockedVolumes).mpr (.inr fun k' hne href => ?_)⟩
  rw [iamKey_sample] at hne
  by_cases hxyc : k' = digestXYC
  · simp [lockedVolumes, hxyc]
  · simp [NodeState.pathPresent, dir_lockedVolumes hne hxyc] at href

/-- The choices by which the references of a key are dropped and its mount is released, every
call doing its work. -/
def teardown : List Choice :=
  [.ok, .ok, .ok, .probe (.ok false), .umounted "" none true, .ok, .ok, .ok]

/-- Unpublishing the volume `ab`, without any fault. -/
def unpublishing : List Choice :=
  [.ok, .probe (.ok false), .umounted "" none true, .ok, .keys [digestABC, digestXYC],
    .names ["mount", "refs", "token"], .names ["mount", "refs", "token"], .names ["u1"],
    .names ["u1"]] ++ teardown ++ teardown ++ [.ok]

/-- The call succeeds, and takes reference, global mount and directory of the volume `xy`. -/
theorem play_unpublishing :
    (play (S := nodeSig) execAccurate (nodeUnpublishVolume sampleServer ⟨targetPath⟩) unpublishing
      twoVolumes).map (fun rs => (rs.1, rs.2.pathPresent (.ref digestXYC "u1"),
        rs.2.mounted (.mount digestXYC), rs.2.pathPresent (.keyDir digestXYC))) =
      some (none, false, false, false) := by
  decide +kernel

/-- Unpublishing one IAM volume of a pod does not leave the other keys as they were. -/
theorem not_keeps_other_keys :
    ¬∀ (srv : NodeServer) (s : NodeState) (volumeID namespace_ saName targetPath podUID : String),
      Published s (iamKey srv volumeID namespace_ saName) targetPath podUID →
      ∀ tr a s', Exec (nodeStep True) (nodeUnpublishVolume srv ⟨targetPath⟩) s tr a s' →
        ∀ k', k' ≠ iamKey srv volumeID namespace_ saName → SameKey k' s s' := by
  intro hkeeps
  obtain ⟨⟨a, s'⟩, hplay, hafter⟩ := Option.map_eq_some_iff.mp play_unpublishing
  obtain ⟨tr, hexec⟩ := play_exec _ hplay
  have hne : digestXYC ≠ iamKey sampleServer "ab" "c" "d" := by
    rw [iamKey_sample]
    decide
  have hsame := hkeeps sampleServer twoVolumes "ab" "c" "d" targetPath "u1" published_twoVolumes tr a
    s' (hexec.mono fun _ _ _ _ => nodeStep_of_execAccurate) digestXYC hne
  have hbefore : twoVolumes.mounted (.mount digestXYC) = true := by decide +kernel
  simp only [Prod.mk.injEq] at hafter
  rw [hsame.mounted, hbefore] at hafter
  exact absurd hafter.2.2.1 (by simp)

end LustreCsi.Analysis.UnpublishFrame
