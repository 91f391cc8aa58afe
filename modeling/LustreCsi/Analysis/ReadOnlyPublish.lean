import LustreCsi.Interface.Footprints
import LustreCsi.Interface.MountPoints
import LustreCsi.Interface.Sample

/-!
# The mode of a read-only publish

A read-only volume is bind mounted with the options `bind` and `ro` and those mount flags of the
capability that are not among the options yet. Of several `ro` and `rw` the last one decides;
`bindMode_eq_ro_iff` says for which flags the mount is read-only all the same.
-/

set_option autoImplicit false

namespace LustreCsi.Analysis.ReadOnlyPublish

open LustreCsi.Computation Model Interface

/-! ## Options of a mount -/

/-- Whether files can be written. -/
inductive Mode where
  | ro | rw
  deriving DecidableEq

/-- The mode that an option asks for. -/
def modeOf (option : String) : Option Mode :=
  if option = "ro" then some .ro else if option = "rw" then some .rw else none

/-- The single options of a list whose members may be lists separated by commas. -/
def single (options : List String) : List String := options.flatMap (split · ',')

/-- The mode of a mount: of the options that ask for one the last decides. -/
def effectiveMode (options : List String) : Option Mode :=
  ((single options).filterMap modeOf).getLast?

/-- The flags that are added to the options: those that are not among them, once each. -/
def added (options flags : List String) : List String := (flags.filter (· ∉ options)).eraseDups

/-- After each `rw` there is an `ro` again. -/
def Restored (options : List String) : Prop := ∀ a b, options = a ++ "rw" :: b → "ro" ∈ b

/-- The flags that are added to `bind` and `ro` leave a read-only mount read-only. -/
def KeepsReadOnly (flags : List String) : Prop := Restored (single (added ["bind", "ro"] flags))

/-- Flags are appended unless they are there already. -/
theorem foldl_append_new (flags options : List String) :
    flags.foldl (fun opts f => if f ∈ opts then opts else opts ++ [f]) options =
      options ++ added options flags := by
  induction flags generalizing options with
  | nil => simp [added]
  | cons f flags ih =>
    rw [List.foldl_cons, ih]
    by_cases hf : f ∈ options
    · simp [added, hf]
    -- The flag is appended, and is not added a second time.
    have hfilter : flags.filter (· ∉ options ++ [f]) =
        (flags.filter (· ∉ options)).filter fun x => !x == f := by
      rw [List.filter_filter]
      refine List.filter_congr fun x _ => ?_
      by_cases hx : x = f <;> simp [hx]
    have hcons : (f :: flags).filter (· ∉ options) = f :: flags.filter (· ∉ options) := by
      simp [hf]
    rw [if_neg hf, added, added, hfilter, hcons, List.eraseDups_cons, List.append_assoc,
      List.singleton_append]

/-- The mount flags that are not options yet are added at the end. -/
theorem addMountFlags_eq (options : List String) (volCap : VolumeCapability) :
    addMountFlags options volCap = options ++ added options volCap.mountFlags :=
  foldl_append_new _ _

/-- Options that end with `ro` have one after each `rw`. -/
theorem restored_concat_ro (options : List String) : Restored (options ++ ["ro"]) := by
  intro a b h
  rcases List.eq_nil_or_concat' b with rfl | ⟨b, y, rfl⟩
  · exact absurd (List.append_inj_right' h rfl) (by decide)
  have hcut : options ++ ["ro"] = (a ++ "rw" :: b) ++ [y] := by simpa using h
  obtain rfl : "ro" = y := by simpa using List.append_inj_right' hcut rfl
  simp

/-- Options that end with `rw` have no `ro` after it. -/
theorem not_restored_concat_rw (options : List String) : ¬Restored (options ++ ["rw"]) :=
  fun h => by simpa using h options [] rfl

/-- An option that asks for no mode makes no difference. -/
theorem restored_concat_iff {x : String} (hx : modeOf x = none) (options : List String) :
    Restored (options ++ [x]) ↔ Restored options := by
  have hne : x ≠ "ro" ∧ x ≠ "rw" := by
    constructor <;> rintro rfl <;> simp [modeOf] at hx
  constructor
  · intro h a b heq
    have hmem := h a (b ++ [x]) (by simp [heq])
    simpa [Ne.symm hne.1] using hmem
  · intro h a b heq
    rcases List.eq_nil_or_concat' b with rfl | ⟨b, y, rfl⟩
    · exact absurd (by simpa using List.append_inj_right' heq rfl) hne.2
    have hcut : options ++ [x] = (a ++ "rw" :: b) ++ [y] := by simpa using heq
    simp [h a b (List.append_inj_left' hcut rfl)]

/-- Behind an `ro` the mode is read-only exactly if each `rw` is made good. -/
theorem getLast?_eq_ro_iff (options : List String) :
    (Mode.ro :: options.filterMap modeOf).getLast? = some .ro ↔ Restored options := by
  -- The last option decides, or if it asks for no mode those before it.
  induction options using List.reverseRecOn with
  | nil => simp [Restored]
  | append_singleton options x ih =>
    rw [List.filterMap_append, ← List.cons_append, List.getLast?_append]
    cases hx : modeOf x with
    | none => simpa [hx, restored_concat_iff hx] using ih
    | some mode =>
      have hcases : mode = .ro ∧ x = "ro" ∨ mode = .rw ∧ x = "rw" := by
        unfold modeOf at hx
        split at hx
        · exact .inl ⟨(Option.some.inj hx).symm, ‹_›⟩
        split at hx
        · exact .inr ⟨(Option.some.inj hx).symm, ‹_›⟩
        · cases hx
      rcases hcases with ⟨rfl, rfl⟩ | ⟨rfl, rfl⟩
      · simp [hx, restored_concat_ro]
      · simp [hx, not_restored_concat_rw]

/-- A read-only bind mount is read-only exactly when the mount flags keep it so. -/
theorem bindMode_eq_ro (volCap : VolumeCapability) :
    effectiveMode (bindOptions true volCap) = some .ro ↔ KeepsReadOnly volCap.mountFlags := by
  have hsingle : single (bindOptions true volCap) =
      "bind" :: "ro" :: single (added ["bind", "ro"] volCap.mountFlags) := by
    rw [bindOptions, addMountFlags_eq, single, List.flatMap_append]
    rfl
  have hmodes : (single (bindOptions true volCap)).filterMap modeOf =
      Mode.ro :: (single (added ["bind", "ro"] volCap.mountFlags)).filterMap modeOf := by
    rw [hsingle]
    simp [modeOf]
  rw [effectiveMode, hmodes, getLast?_eq_ro_iff, KeepsReadOnly]

/-! ## The bind mounts of a call -/

/-- What is mounted on the path is mounted with the options. -/
def MountsWith (path : Path) (options : List String) (o : Op) : Prop :=
  ∀ source fstype options', o = .mountSensitiveWithoutSystemd source path fstype options' →
    options' = options

section Bind

variable (s : NodeServer) {path : Path} {options : List String}

/-- Looking for a mount mounts nothing. -/
theorem mountsWith_isMounted (p : Path) : (isMounted p).All (MountsWith path options) := by
  apply all_isMounted <;> simp [MountsWith]

/-- An unmount mounts nothing. -/
theorem mountsWith_unmountPath (p : Path) : (unmountPath s p).All (MountsWith path options) := by
  apply all_unmountPath <;> simp [MountsWith]

/-- The bind mount of an IAM volume has the options passed on; its global mount is elsewhere. -/
theorem mountsWith_publishIAMVolume (volumeID targetPath : String) (targetMounted : Bool)
    (vc : StrMap) (volCap : VolumeCapability) :
    (publishIAMVolume s volumeID targetPath targetMounted vc options volCap).All
      (MountsWith (.outside targetPath) options) := by
  simp only [publishIAMVolume]
  split
  · exact .pure
  split
  · exact .pure
  split
  · exact .pure
  refine all_withLock (by simp [MountsWith]) (by simp [MountsWith]) (.bind ?_ fun r => ?_)
  · apply all_ensureGlobalMount
    case hmount => apply all_mountGlobalIAM <;> simp [MountsWith]
    all_goals simp [MountsWith]
  · split
    · exact .pure
    · apply all_bindPod
      case hmount => exact fun _ _ _ _ h => (Op.mountSensitiveWithoutSystemd.inj h).2.2.2.symm
      case hcleanup => exact fun _ => mountsWith_unmountPath s _
      all_goals simp [MountsWith]

/-- Every bind mount of a call has the options of `bindOptions`. -/
theorem mountsWith_nodePublishVolume {req : NodePublishVolumeRequest} {volCap : VolumeCapability}
    (hcap : req.volumeCapability = some volCap) :
    (nodePublishVolume s req).All
      (MountsWith (.outside req.targetPath) (bindOptions req.readonly volCap)) := by
  unfold nodePublishVolume
  split
  · exact .pure
  rename_i vc volCap' hval
  obtain rfl : volCap' = volCap := by
    have hcap' := (validatePublish_eq_ok.mp hval).2.2.2.1
    exact Option.some.inj (hcap'.symm.trans hcap)
  refine all_withLock (by simp [MountsWith]) (by simp [MountsWith]) ?_
  refine .bind (all_makeDir (by simp [MountsWith])) fun r => ?_
  split
  · exact .pure
  refine .bind (mountsWith_isMounted _) fun r => ?_
  split
  · exact .pure
  refine .bind ?_ fun r => ?_
  · simp only [publishMounts]
    split
    · exact mountsWith_publishIAMVolume s _ _ _ _ _
    split
    · exact .pure
    refine .bind (all_perform ?_) fun _ => .pure
    exact fun _ _ _ h => (Op.mountSensitiveWithoutSystemd.inj h).2.2.2.symm
  · split
    · exact .pure
    · apply all_publishOwnership
      case hcleanup => exact mountsWith_unmountPath s _
      all_goals simp [MountsWith]

end Bind

/-- **The mode of a read-only publish.** Whenever a call for a read-only volume, with or without
IAM, bind mounts it on the target path, the options that it passes make the mount read-only exactly
if the mount flags that are added to `bind` and `ro` do not end with write access.
SOURCE: pkg/csi_driver/node.go:273-316, 402-414, 678-686 -/
theorem bindMode_eq_ro_iff {s : NodeServer} {req : NodePublishVolumeRequest}
    {volCap : VolumeCapability} (hro : req.readonly = true)
    (hcap : req.volumeCapability = some volCap) {σ σ' : NodeState} {tr : List (Event nodeSig)}
    {r : Option Status} (hrun : Exec NodeState.step (nodePublishVolume s req) σ tr r σ')
    {e : Event nodeSig} (he : e ∈ tr) {source fstype : String} {options : List String}
    (hmount : e.1 = .mountSensitiveWithoutSystemd source (.outside req.targetPath) fstype options) :
    effectiveMode options = some .ro ↔ KeepsReadOnly volCap.mountFlags := by
  obtain rfl : options = bindOptions req.readonly volCap :=
    hrun.mem_all (mountsWith_nodePublishVolume s hcap) e he source fstype options hmount
  rw [hro]
  exact bindMode_eq_ro volCap

/-! ## Write access by a mount flag -/

section Sample

open Interface.Sample

/-- The request to publish a staged volume read-only, with the given mount flags. -/
def readOnlyRequest (flags : List String) : NodePublishVolumeRequest where
  volumeID := "vol"
  stagingTargetPath := "/staging"
  targetPath := targetPath
  volumeCapability := some ⟨some .multiNodeMultiWriter, some (.mount flags "")⟩
  readonly := true
  volumeContext := ∅

/-- The operations of a call on a new node, and its result. -/
def playPublish (flags : List String) : Option (List Op × Option Status) :=
  (playTrace (S := nodeSig) NodeState.exec (nodePublishVolume sampleServer (readOnlyRequest flags))
    [.ok, .ok, .probe (.ok true), .ok, .ok] freshNode).map fun x => (x.1.map Sigma.fst, x.2.1)

/-- The operations of such a call. -/
def publishOps (options : List String) : List Op :=
  [.tryAcquire targetPath, .mkdirAll (.outside targetPath),
    .isLikelyNotMountPoint (.outside targetPath),
    .mountSensitiveWithoutSystemd "/staging" (.outside targetPath) "lustre" options,
    .release targetPath]

/-- A played call mounts. -/
theorem exists_mount_of_play {flags options : List String}
    (h : playPublish flags = some (publishOps options, none)) :
    ∃ tr σ', Exec NodeState.step (nodePublishVolume sampleServer (readOnlyRequest flags)) freshNode
        tr none σ' ∧
      ∃ e ∈ tr, e.1 = .mountSensitiveWithoutSystemd "/staging" (.outside targetPath) "lustre"
        options := by
  obtain ⟨⟨tr, r, σ'⟩, hplay, heq⟩ := Option.map_eq_some_iff.mp h
  obtain ⟨hops, rfl⟩ := Prod.mk.inj heq
  have hrun := playTrace_exec _ hplay
  have hmem : (.mountSensitiveWithoutSystemd "/staging" (.outside targetPath) "lustre" options : Op) ∈
      tr.map Sigma.fst := by simp [hops, publishOps]
  obtain ⟨e, he, hop⟩ := List.mem_map.mp hmem
  exact ⟨tr, σ', hrun, e, he, hop⟩

/-- A flag that lists `rw` and then `ro` does no harm. -/
theorem bindMode_eq_ro_listed :
    ∃ tr σ', Exec NodeState.step
        (nodePublishVolume sampleServer (readOnlyRequest ["noatime", "rw,ro"])) freshNode tr none σ' ∧
      ∃ e ∈ tr, e.1 = .mountSensitiveWithoutSystemd "/staging" (.outside targetPath) "lustre"
          ["bind", "ro", "noatime", "rw,ro"] ∧ KeepsReadOnly ["noatime", "rw,ro"] := by
  have hplay : playPublish ["noatime", "rw,ro"] =
      some (publishOps ["bind", "ro", "noatime", "rw,ro"], none) := by decide +kernel
  obtain ⟨tr, σ', hrun, e, he, hop⟩ := exists_mount_of_play hplay
  have hcap : (readOnlyRequest ["noatime", "rw,ro"]).volumeCapability =
      some ⟨some .multiNodeMultiWriter, some (.mount ["noatime", "rw,ro"] "")⟩ := rfl
  exact ⟨tr, σ', hrun, e, he, hop, (bindMode_eq_ro_iff rfl hcap hrun he hop).mp (by decide)⟩

/-- The flags `rw` and `ro`: the second is dropped, and the volume is mounted for writing. -/
theorem not_always_readOnly :
    ¬∀ (s : NodeServer) (req : NodePublishVolumeRequest) (σ σ' : NodeState)
      (tr : List (Event nodeSig)) (r : Option Status), req.readonly = true →
      Exec NodeState.step (nodePublishVolume s req) σ tr r σ' → ∀ e ∈ tr, ∀ source fstype options,
        e.1 = .mountSensitiveWithoutSystemd source (.outside req.targetPath) fstype options →
        effectiveMode options = some .ro := by
  intro h
  have hplay : playPublish ["rw", "ro"] = some (publishOps ["bind", "ro", "rw"], none) := by
    decide +kernel
  obtain ⟨tr, σ', hrun, e, he, hop⟩ := exists_mount_of_play hplay
  have hmode := h _ _ _ _ _ _ rfl hrun e he _ _ _ hop
  exact absurd hmode (by decide)

end Sample

end LustreCsi.Analysis.ReadOnlyPublish
