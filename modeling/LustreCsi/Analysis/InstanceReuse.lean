import LustreCsi.Interface.ControllerRuns
import LustreCsi.Interface.ControllerSample

/-!
# Reuse of an existing instance

`CreateVolume` answers with an instance that exists already if `CompareInstances` finds no mismatch
in name, project, location, capacity and network. A request also fixes the throughput and may fix
the file-system name (`Meets`); `reused_rightly_iff` says when the answer is right.
-/

set_option autoImplicit false

namespace LustreCsi.Analysis.InstanceReuse

open LustreCsi.Computation Model Interface

/-- An instance has what a request asks for. -/
structure Meets (wanted found : ServiceInstance) : Prop where
  capacity : found.capacityGib = wanted.capacityGib
  network : found.network = wanted.network
  throughput : found.perUnitStorageThroughput = wanted.perUnitStorageThroughput
  filesystem : wanted.filesystem ≠ "" → found.filesystem = wanted.filesystem

/-- The answer to a request for which there is an instance already: success only if the instance
has what is asked for, and the code `AlreadyExists` if it has not. -/
def ReusedRightly (wanted found : ServiceInstance) (r : Except Status (Option Volume)) : Prop :=
  (∀ v, r = .ok v → Meets wanted found) ∧
    (¬Meets wanted found → ∃ text, r = .error ⟨.alreadyExists, text⟩)

/-- An instance of the wanted capacity and network has the wanted throughput and name too. -/
def NotOverlooked (wanted found : ServiceInstance) : Prop :=
  found.capacityGib = wanted.capacityGib → found.network = wanted.network →
    found.perUnitStorageThroughput = wanted.perUnitStorageThroughput ∧
      (wanted.filesystem ≠ "" → found.filesystem = wanted.filesystem)

/-- The instance has the name under which it is looked up, and is ready for use. -/
structure Existing (wanted found : ServiceInstance) : Prop where
  project : found.project = wanted.project
  location : found.location = wanted.location
  name : found.name = wanted.name
  active : found.state = some .active

/-- An active instance is reused if capacity and network are right, and refused otherwise. -/
theorem reuseInstance_of_existing {wanted found : ServiceInstance} (h : Existing wanted found) :
    (found.capacityGib = wanted.capacityGib ∧ found.network = wanted.network ∧
        reuseInstance wanted.name wanted found = .ok (some (instanceToCSIVolume found))) ∨
      (¬(found.capacityGib = wanted.capacityGib ∧ found.network = wanted.network) ∧
        ∃ text, reuseInstance wanted.name wanted found = .error ⟨.alreadyExists, text⟩) := by
  simp only [reuseInstance]
  cases hcompare : compareInstances wanted found with
  | none =>
    obtain ⟨-, -, -, hcap, hnet⟩ := compareInstances_eq_none.mp hcompare
    exact .inl ⟨hcap.symm, hnet.symm, by simp [h.active]⟩
  | some text =>
    refine .inr ⟨fun hsame => ?_, text, rfl⟩
    obtain ⟨hcap, hnet⟩ := hsame
    have hnone := compareInstances_eq_none.mpr
      ⟨h.name.symm, h.project.symm, h.location.symm, hcap.symm, hnet.symm⟩
    simp [hnone] at hcompare

/-- What is decided about an instance that exists is right if no difference is overlooked. -/
theorem reusedRightly_reuseInstance {wanted found : ServiceInstance} (h : Existing wanted found) :
    ReusedRightly wanted found (reuseInstance wanted.name wanted found) ↔
      NotOverlooked wanted found := by
  rcases reuseInstance_of_existing h with ⟨hcap, hnet, heq⟩ | ⟨hdiffers, text, heq⟩
  · rw [heq]
    constructor
    · intro hright _ _
      have hmeets := hright.1 _ rfl
      exact ⟨hmeets.throughput, hmeets.filesystem⟩
    · intro hseen
      obtain ⟨hthroughput, hfs⟩ := hseen hcap hnet
      have hmeets : Meets wanted found := ⟨hcap, hnet, hthroughput, hfs⟩
      exact ⟨fun _ _ => hmeets, fun hnot => absurd hmeets hnot⟩
  · rw [heq]
    refine iff_of_true ⟨fun v hv => (nomatch hv), fun _ => ⟨text, rfl⟩⟩ fun hcap hnet => ?_
    exact absurd ⟨hcap, hnet⟩ hdiffers

/-! ## Runs of `CreateVolume` -/

section Runs

variable {σ : Type} {backend : σ → (o : ctrlSig.Op) → ctrlSig.Res o → σ → Prop}
  {s : ControllerServer} {req : CreateVolumeRequest} {wanted found : ServiceInstance}
  {params : StrMap} {i : CloudInstance}

/-- A call that is told of an instance answers with the comparison. -/
theorem result_of_reported {a b : σ} {tr : List (Event ctrlSig)} {r : Except Status (Option Volume)}
    {n : String} (hval : validateCreate s req = .ok (wanted, params))
    (hrun : Exec backend (createVolume s req) a tr r b) (hget : ⟨.getInstance n, .ok i⟩ ∈ tr)
    (hconv : cloudInstanceToServiceInstance i = .ok found) :
    r = reuseInstance wanted.name wanted found := by
  rw [createVolume, hval] at hrun
  obtain ⟨rfl, -⟩ | ⟨a₁, tr₁, a₂, -, hbody, -, rfl⟩ := exec_withVolumeLock hrun
  · simp at hget
  obtain ⟨tr₂, x, a₃, tr₃, hlookup, hrest, rfl⟩ := exec_bind.mp hbody
  obtain ⟨answer, -, rfl, rfl⟩ := exec_getInstance hlookup
  -- There is no second lookup in the rest of the run.
  have hno : ∀ e ∈ tr₃, ∀ m, e.1 ≠ .getInstance m := by
    refine hrest.mem_all (φ := fun o : CloudOp => ∀ m, o ≠ .getInstance m) ?_
    split
    · exact .pure
    split
    · exact .pure
    refine .bind (all_searchOperations _ (by simp)) fun r => ?_
    split
    · exact .pure
    split
    · exact .pure
    · apply all_createNew <;> simp
  obtain rfl : answer = .ok i := by
    rcases List.mem_append.mp hget with hget | hget
    · rcases List.mem_cons.mp hget with hget | hget
      · cases hget
      · rcases List.mem_append.mp hget with hget | hget
        · cases List.mem_singleton.mp hget
          rfl
        · exact absurd rfl (hno _ hget n)
    · cases List.mem_singleton.mp hget
  simp only [Except.bind, hconv] at hrest
  exact (exec_return.mp hrest).2.1

variable (backend s req) in
/-- The call that is told of an instance. -/
theorem exec_reported {a a₁ a₂ b : σ} (hval : validateCreate s req = .ok (wanted, params))
    (hacquire : backend a (.tryAcquire wanted.name) true a₁)
    (hget : backend a₁ (.getInstance (instanceFullName wanted)) (.ok i) a₂)
    (hconv : cloudInstanceToServiceInstance i = .ok found)
    (hrelease : backend a₂ (.release wanted.name) () b) :
    Exec backend (createVolume s req) a
      [⟨.tryAcquire wanted.name, true⟩, ⟨.getInstance (instanceFullName wanted), .ok i⟩,
        ⟨.release wanted.name, ()⟩] (reuseInstance wanted.name wanted found) b := by
  have hbody : Exec backend (createLocked s wanted params) a₁
      [⟨.getInstance (instanceFullName wanted), .ok i⟩] (reuseInstance wanted.name wanted found)
      a₂ := by
    have hlookup : Exec backend (getInstance wanted) a₁
        [⟨.getInstance (instanceFullName wanted), .ok i⟩] (.ok found) a₂ :=
      ⟨.ok i, a₂, [], hget, rfl, rfl, hconv.symm, rfl⟩
    exact exec_bind.mpr ⟨_, _, _, [], hlookup, ⟨rfl, rfl, rfl⟩, rfl⟩
  rw [createVolume, hval]
  exact exec_withVolumeLock_of_body hacquire hbody hrelease

/-- **Reuse of an existing instance.** Whenever the API reports to a call of `CreateVolume` an active
instance under the requested project, zone and name, the call's answer is right if and only if the
instance, in case it has the requested capacity and network, has the requested throughput too and the
requested file-system name.
SOURCE: pkg/cloud_provider/lustre/lustre.go:470-494, pkg/csi_driver/controller.go:201-223, 343-392 -/
theorem reused_rightly_iff {a b : σ} {tr : List (Event ctrlSig)}
    {r : Except Status (Option Volume)} {n : String}
    (hval : validateCreate s req = .ok (wanted, params))
    (hrun : Exec backend (createVolume s req) a tr r b) (hget : ⟨.getInstance n, .ok i⟩ ∈ tr)
    (hconv : cloudInstanceToServiceInstance i = .ok found) (hexisting : Existing wanted found) :
    ReusedRightly wanted found r ↔ NotOverlooked wanted found := by
  rw [result_of_reported hval hrun hget hconv]
  exact reusedRightly_reuseInstance hexisting

end Runs

/-! ## An instance of another throughput -/

section Sample

open Interface.ControllerSample

/-- What the request for `vol` asks for. -/
def wantedSample : ServiceInstance where
  project := "proj"
  location := "us-central1-a"
  name := "vol"
  filesystem := "lustrefs"
  network := "projects/proj/global/networks/default"
  capacityGib := 9000
  perUnitStorageThroughput := 1000

/-- The instance that exists, with the given throughput. -/
def existingSample (throughput : Int) : CloudInstance where
  network := "projects/proj/global/networks/default"
  description := []
  labels := ∅
  capacityGib := 9000
  filesystem := "lustrefs"
  gkeSupportEnabled := false
  perUnitStorageThroughput := throughput
  name := resourceName "proj" "us-central1-a" "vol"
  mountPoint := "10.0.0.2@tcp:/lustrefs"
  state := .active

/-- The instance as the driver sees it. -/
def foundSample (throughput : Int) : ServiceInstance :=
  { wantedSample with
    ip := "10.0.0.2", state := some .active, perUnitStorageThroughput := throughput,
    mountPoint := "10.0.0.2@tcp:/lustrefs" }

def cloudSample (throughput : Int) : CloudState := ⟨∅, [existingSample throughput], []⟩

/-- The request passes the checks. -/
theorem validateCreate_sample :
    ∃ params, validateCreate server (createRequest "vol") = .ok (wantedSample, params) := by
  have hsome : (validateCreate server (createRequest "vol")).toOption.map Prod.fst =
      some wantedSample := by decide +kernel
  cases hval : validateCreate server (createRequest "vol") with
  | error err => simp [hval, Except.toOption] at hsome
  | ok np =>
    obtain ⟨ni, params⟩ := np
    obtain rfl : ni = wantedSample := by simpa [hval, Except.toOption] using hsome
    exact ⟨params, rfl⟩

/-- The address in the mount point. -/
theorem parseInstanceIP_sample : parseInstanceIP "10.0.0.2@tcp:/lustrefs" = .ok "10.0.0.2" := by
  have hsplit : split "10.0.0.2@tcp:/lustrefs" '@' = ["10.0.0.2", "tcp:/lustrefs"] := by decide
  simp [parseInstanceIP, hsplit]

/-- The instance as the driver reads it. -/
theorem conversion_sample (throughput : Int) :
    cloudInstanceToServiceInstance (existingSample throughput) = .ok (foundSample throughput) :=
  cloudInstanceToServiceInstance_eq_ok.mpr ⟨"proj", "us-central1-a", "vol", "10.0.0.2", by decide,
    by decide, by decide, rfl, parseInstanceIP_sample, rfl⟩

/-- The instance is one that may be found for the request. -/
theorem existing_sample (throughput : Int) : Existing wantedSample (foundSample throughput) :=
  ⟨rfl, rfl, rfl, rfl⟩

/-- The call is told of the instance. -/
theorem exists_reported_sample (throughput : Int) :
    ∃ tr σ', Exec CloudState.step (createVolume server (createRequest "vol"))
        (cloudSample throughput) tr
        (reuseInstance wantedSample.name wantedSample (foundSample throughput)) σ' ∧
      ⟨.getInstance (instanceFullName wantedSample), .ok (existingSample throughput)⟩ ∈ tr := by
  obtain ⟨params, hval⟩ := validateCreate_sample
  let held : CloudState := { cloudSample throughput with locks := {"vol"} }
  have hname : instanceFullName wantedSample = resourceName "proj" "us-central1-a" "vol" := by decide
  have hacquire : CloudState.step (cloudSample throughput) (.tryAcquire "vol") true held :=
    ⟨.ok, rfl⟩
  have hget : held.step (.getInstance (instanceFullName wantedSample))
      (.ok (existingSample throughput)) held := by
    refine ⟨.ok, ?_⟩
    simp [CloudState.exec, CloudState.find, held, cloudSample, existingSample, hname]
  have hrelease : held.step (.release "vol") () (cloudSample throughput) := ⟨.ok, rfl⟩
  have hrun := exec_reported CloudState.step server (createRequest "vol") hval hacquire hget
    (conversion_sample throughput) hrelease
  exact ⟨_, _, hrun, by simp⟩

/-- The instance that was asked for is reused. -/
theorem reused_rightly_same :
    ∃ params tr r σ', validateCreate server (createRequest "vol") = .ok (wantedSample, params) ∧
      Exec CloudState.step (createVolume server (createRequest "vol")) (cloudSample 1000) tr r σ' ∧
      ReusedRightly wantedSample (foundSample 1000) r := by
  obtain ⟨params, hval⟩ := validateCreate_sample
  obtain ⟨tr, σ', hrun, hget⟩ := exists_reported_sample 1000
  have hiff := @reused_rightly_iff _ CloudState.step server (createRequest "vol") _ _ params _ _ _ tr _
    _ hval hrun hget (conversion_sample 1000) (existing_sample 1000)
  exact ⟨params, tr, _, σ', hval, hrun, hiff.mpr fun _ _ => ⟨rfl, fun _ => rfl⟩⟩

/-- The answer is right whatever the instance is like. -/
def AlwaysRight : Prop :=
  ∀ (s : ControllerServer) (req : CreateVolumeRequest) (wanted found : ServiceInstance)
    (params : StrMap) (i : CloudInstance) (σ σ' : CloudState) (tr : List (Event ctrlSig))
    (r : Except Status (Option Volume)) (n : String),
    validateCreate s req = .ok (wanted, params) →
    Exec CloudState.step (createVolume s req) σ tr r σ' → ⟨.getInstance n, .ok i⟩ ∈ tr →
    cloudInstanceToServiceInstance i = .ok found → Existing wanted found →
    ReusedRightly wanted found r

/-- An instance of throughput 125 is the answer to a request for 1000. -/
theorem not_alwaysRight : ¬AlwaysRight := by
  intro h
  obtain ⟨params, hval⟩ := validateCreate_sample
  obtain ⟨tr, σ', hrun, hget⟩ := exists_reported_sample 125
  have hright := h server (createRequest "vol") _ _ params _ _ _ tr _ _ hval hrun hget
    (conversion_sample 125) (existing_sample 125)
  have hmeets : Meets wantedSample (foundSample 125) := by
    rcases reuseInstance_of_existing (existing_sample 125) with ⟨-, -, heq⟩ | ⟨hdiffers, -⟩
    · exact hright.1 _ heq
    · exact absurd ⟨rfl, rfl⟩ hdiffers
  exact absurd hmeets.throughput (by decide)

end Sample

end LustreCsi.Analysis.InstanceReuse
