import LustreCsi.Interface.NodePool

/-!
# A node server to run the handlers on

A concrete `NodeServer`, a pod and an IAM volume. The functions that stand for code outside the
repository have the values of the real ones at the inputs used: the digests are SHA-256, and the
token document is decoded as JSON.
-/

set_option autoImplicit false

namespace LustreCsi.Interface.Sample

open LustreCsi.Computation Model

/-! ## Digests -/

/-- A text as a number, in bijective numeration with the code points as digits. -/
def numeral : List Char → ℕ
  | [] => 0
  | c :: cs => c.toNat + 1 + 0x110000 * numeral cs

/-- Different texts have different numbers. -/
theorem numeral_injective : Function.Injective numeral := by
  intro a b h
  have hlt : ∀ c : Char, c.toNat < 0x110000 := fun c => by
    have := c.valid
    simp only [UInt32.isValidChar, Nat.isValidChar] at this
    simp only [Char.toNat]
    omega
  induction a generalizing b with
  | nil =>
    cases b with
    | nil => rfl
    | cons d ds =>
      simp only [numeral] at h
      omega
  | cons c cs ih =>
    cases b with
    | nil =>
      simp only [numeral] at h
      omega
    | cons d ds =>
      simp only [numeral] at h
      have hc := hlt c
      have hd := hlt d
      have hhead : c.toNat = d.toNat := by omega
      have htail : numeral cs = numeral ds := by omega
      rw [Char.toNat_inj.mp hhead, ih htail]

/-- A key of a given length. -/
def keyOfLength (n : ℕ) : Key where
  name := String.ofList (List.replicate (n + 1) 'a')
  nonempty := by simp [List.replicate_succ]
  hex := by
    intro c hc
    simp only [String.toList_ofList, List.mem_replicate] at hc
    rw [hc.2]
    decide

/-- Keys of different lengths are different. -/
theorem keyOfLength_injective : Function.Injective keyOfLength := by
  intro n m h
  simpa [keyOfLength] using congrArg (fun k : Key => k.name.toList.length) h

/-- The digests of three texts, each a volume ID followed by a principal. -/
def digestABC : Key :=
  ⟨"de9f6196b18ca2969dc86dd8a9b09e4a1b448254361639fcdd5733bd73281282", by decide, hex_of_all (by decide)⟩

def digestABE : Key :=
  ⟨"92b4d40d0d514daf65230ef492c5b5fe5549599aa7127aba741a593f0ac0036f", by decide, hex_of_all (by decide)⟩

def digestXYC : Key :=
  ⟨"e32a34196ee55cef0f4d9cabdf6ca41c42ded86de2a36322006d5ca24a518976", by decide, hex_of_all (by decide)⟩

/-- An injective function to keys that has the values of SHA-256 at three texts; the other
values are longer than a digest. -/
def sampleHash : String → Key :=
  Function.update (Function.update (Function.update
    (fun text => keyOfLength (64 + numeral text.toList))
    "abc/d" digestABC) "abe/d" digestABE) "xyc/d" digestXYC

/-- A function stays injective if an argument gets a new value. -/
theorem injective_update {α β : Type} [DecidableEq α] {f : α → β} (hf : Function.Injective f)
    (x : α) {y : β} (hy : ∀ z, f z ≠ y) : Function.Injective (Function.update f x y) := by
  intro a b h
  by_cases ha : a = x <;> by_cases hb : b = x
  · rw [ha, hb]
  · subst ha
    rw [Function.update_self, Function.update_of_ne hb] at h
    exact absurd h.symm (hy b)
  · subst hb
    rw [Function.update_self, Function.update_of_ne ha] at h
    exact absurd h (hy a)
  · rw [Function.update_of_ne ha, Function.update_of_ne hb] at h
    exact hf h

/-- The digests of different texts are different. -/
theorem sampleHash_injective : Function.Injective sampleHash := by
  have hlong : ∀ n, (keyOfLength (64 + n)).name.toList.length ≠ 64 := fun n => by
    simp only [keyOfLength, String.toList_ofList, List.length_replicate]
    omega
  have hbase : Function.Injective fun text : String => keyOfLength (64 + numeral text.toList) := by
    intro a b h
    have hnum := keyOfLength_injective h
    exact String.toList_injective (numeral_injective (by omega))
  -- A new value is none of the long ones and differs from the digests entered before it.
  refine injective_update (injective_update (injective_update hbase _ fun z h => ?_) _
    fun z h => ?_) _ fun z h => ?_
  · exact hlong _ (h ▸ (by decide : digestABC.name.toList.length = 64))
  · by_cases hz : z = "abc/d"
    · rw [hz, Function.update_self] at h
      exact absurd (congrArg (fun k : Key => k.name.toList) h) (by decide)
    · rw [Function.update_of_ne hz] at h
      exact hlong _ (h ▸ (by decide : digestABE.name.toList.length = 64))
  · by_cases hz : z = "abe/d"
    · rw [hz, Function.update_self] at h
      exact absurd (congrArg (fun k : Key => k.name.toList) h) (by decide)
    rw [Function.update_of_ne hz] at h
    by_cases hz : z = "abc/d"
    · rw [hz, Function.update_self] at h
      exact absurd (congrArg (fun k : Key => k.name.toList) h) (by decide)
    rw [Function.update_of_ne hz] at h
    exact hlong _ (h ▸ (by decide : digestXYC.name.toList.length = 64))

/-! ## A server, a pod and a volume -/

/-- The tokens of the pod, for the audience of the project. -/
def tokenJSON : String :=
  "\x7b\"project.svc.id.goog\":\x7b\"token\":\"secret\",\"expirationTimestamp\":\"never\"\x7d\x7d"

/-- A server with these digests, which decodes the tokens of the pod. -/
def sampleServer : NodeServer where
  nodeID := "node"
  project := "project"
  additionalNics := []
  unicode := .asciiOnly
  computeHash := sampleHash
  unmarshalTokens json :=
    if json = tokenJSON then .ok ((∅ : StrMap).insert "project.svc.id.goog" "secret")
    else .error "invalid character"

/-- The volume context that kubelet sends with the volume `ab` for a pod. -/
def volumeContext (podUID : String) : StrMap :=
  ((((((((∅ : StrMap).insert keyInstanceIP "10.0.0.2").insert keyFilesystem "lustrefs").insert
    keyIAMAccessControlEnabled "true").insert keyPodUID podUID).insert
    keyPodNamespace "c").insert keyServiceAccount "d").insert keyServiceToken tokenJSON)

/-- The volume context with its keys normalised. -/
def normalContextOf (podUID : String) : StrMap :=
  ((((((((∅ : StrMap).insert "csi.storage.k8s.io/serviceaccount.tokens" tokenJSON).insert
    "csi.storage.k8s.io/serviceaccount.name" "d").insert
    "csi.storage.k8s.io/pod.namespace" "c").insert "csi.storage.k8s.io/pod.uid" podUID).insert
    "iamaccesscontrolenabled" "true").insert "filesystem" "lustrefs").insert "ip" "10.0.0.2")

/-- The volume context of the pod `u1`. -/
def normalContext : StrMap := normalContextOf "u1"

/-- The target path of the volume in the pod `u1`. -/
def targetPath : String := "/var/lib/kubelet/pods/u1/volumes/kubernetes.io~csi/pv/mount"

/-- The target path of the volume in the pod `u2`. -/
def otherTargetPath : String := "/var/lib/kubelet/pods/u2/volumes/kubernetes.io~csi/pv/mount"

/-- A read-write mount capability. -/
def mountCapability (fsGroup : String) : VolumeCapability :=
  ⟨some .multiNodeMultiWriter, some (.mount [] fsGroup)⟩

/-- The request to publish the volume to a pod. -/
def requestFor (podUID targetPath fsGroup : String) : NodePublishVolumeRequest where
  volumeID := "ab"
  stagingTargetPath := "/var/lib/kubelet/plugins/kubernetes.io/csi/staging"
  targetPath := targetPath
  volumeCapability := some (mountCapability fsGroup)
  readonly := false
  volumeContext := volumeContext podUID

/-- The request to publish the volume to the pod `u1`. -/
def publishRequest (fsGroup : String) : NodePublishVolumeRequest := requestFor "u1" targetPath fsGroup

/-- The request to publish the volume to the pod `u2`, which has the service account of `u1`. -/
def otherRequest (fsGroup : String) : NodePublishVolumeRequest := requestFor "u2" otherTargetPath fsGroup

/-- The requests of the two pods pass the checks. -/
theorem validatePublish_requestFor {podUID targetPath : String} (fsGroup : String)
    (hpod : podUID = "u1" ∨ podUID = "u2") (hpath : targetPath ≠ "") :
    validatePublish sampleServer (requestFor podUID targetPath fsGroup) =
      .ok (normalContextOf podUID, mountCapability fsGroup) := by
  have hcontext : normalizeVolumeContext .asciiOnly (volumeContext podUID) =
      .ok (normalContextOf podUID) := by
    rcases hpod with rfl | rfl
    · rfl
    · rfl
  simp [validatePublish, requestFor, hpath, sampleServer, hcontext, mountCapability,
    validateVolumeCapabilities, validateVolumeCapability, supportedAccessModes]

/-- The request of the pod `u1` passes the checks. -/
theorem validatePublish_publishRequest (fsGroup : String) :
    validatePublish sampleServer (publishRequest fsGroup) =
      .ok (normalContext, mountCapability fsGroup) :=
  validatePublish_requestFor fsGroup (.inl rfl) (by decide)

/-- The request of the pod `u2` passes the checks. -/
theorem validatePublish_otherRequest (fsGroup : String) :
    validatePublish sampleServer (otherRequest fsGroup) =
      .ok (normalContextOf "u2", mountCapability fsGroup) :=
  validatePublish_requestFor fsGroup (.inr rfl) (by decide)

/-- The user that the volume context of a pod names. -/
theorem identityOf_normalContextOf (podUID : String) :
    identityOf sampleServer (normalContextOf podUID) = ⟨podUID, "c", "d"⟩ := by
  with_unfolding_all rfl

/-- The user that the volume context of the pod `u1` names. -/
theorem identityOf_normalContext : identityOf sampleServer normalContext = ⟨"u1", "c", "d"⟩ :=
  identityOf_normalContextOf "u1"

/-- The volume of the pod `u1` is an IAM volume. -/
theorem isIAM_normalContext : isIAM sampleServer normalContext = true := by decide +kernel

/-- And so is that of the pod `u2`. -/
theorem isIAM_otherContext : isIAM sampleServer (normalContextOf "u2") = true := by decide +kernel

/-- The key of the volume for the service account. -/
theorem iamKey_sample : iamKey sampleServer "ab" "c" "d" = digestABC := by decide +kernel

/-- The target path of the pod `u1` names it. -/
theorem getPodUIDFromTargetPath_targetPath : getPodUIDFromTargetPath targetPath = some "u1" := by
  decide +kernel

/-- The target path of the pod `u2` names it. -/
theorem getPodUIDFromTargetPath_otherTargetPath :
    getPodUIDFromTargetPath otherTargetPath = some "u2" := by
  decide +kernel

/-- A node on which nothing has happened. -/
def freshNode : NodeState where
  locks := ∅
  outside := fun _ => none
  keys := ∅
  mounts := []
  rootAttrs := fun _ => ⟨0, 0o755⟩
  wiped := []

/-- The directory of a key that one pod uses. -/
def usedBy (podUID volumeID : String) : KeyDir :=
  ⟨true, some ((∅ : AList fun _ : String => String).insert podUID volumeID), some "secret", none⟩

/-- The pod `u1` has the volume `ab`, and nobody else uses its key. -/
def oneVolume : NodeState where
  locks := ∅
  outside := fun p => if p = targetPath then some ⟨0, 0o755⟩ else none
  keys := (∅ : AList fun _ : Key => KeyDir).insert digestABC (usedBy "u1" "ab")
  mounts := [⟨"10.0.0.2@tcp:/lustrefs", .outside targetPath, "lustre", ["bind"]⟩,
    ⟨"10.0.0.2@tcp:/lustrefs", .mount digestABC, "lustre", []⟩]
  rootAttrs := fun _ => ⟨0, 0o755⟩
  wiped := []

end LustreCsi.Interface.Sample
