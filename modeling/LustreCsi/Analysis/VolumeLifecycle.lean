import LustreCsi.Interface.ControllerRuns
import LustreCsi.Interface.ControllerSample

/-!
# The life of a volume ID

`DeleteVolume` and `ControllerExpandVolume` resolve the volume ID that `CreateVolume` has returned.
Resource names may have colons (`example.com:proj`), but a volume ID is cut at its first colon:
`lifecycle_iff` says that the ID leads back to the instance exactly if no component has one.
Otherwise `DeleteVolume` answers success and the instance is left behind (`not_lifecycle`).
-/

set_option autoImplicit false

namespace LustreCsi.Analysis.VolumeLifecycle

open LustreCsi.Computation Model Interface

/-- The backend reported the instance in the course of the run. -/
def Reports (tr : List (Event ctrlSig)) (i : CloudInstance) : Prop :=
  (∃ n, ⟨.getInstance n, .ok i⟩ ∈ tr) ∨ ∃ k, ⟨.waitInstance k, .ok i⟩ ∈ tr

/-- The operation concerns the given instance, if it concerns any. -/
def ActsOn (project location name : String) : CloudOp → Prop
  | .getInstance n => n = resourceName project location name
  | .updateInstance n _ => n = resourceName project location name
  | .listOperations parent => parent = locationName project location
  | .createInstance _ _ _ => False
  | .deleteInstance _ => False
  | _ => True

/-- What a volume ID is good for: whenever `CreateVolume` succeeds with an instance that the
backend reports under the given name, the ID that it returns resolves to this instance,
`DeleteVolume` of the ID succeeds only if there is no such instance afterwards, and
`ControllerExpandVolume` of the ID acts on this instance. -/
def Lifecycle (project location name : String) : Prop :=
  ∀ (σ : Type) (backend : σ → (o : ctrlSig.Op) → ctrlSig.Res o → σ → Prop) (s : ControllerServer)
    (req : CreateVolumeRequest) (a b : σ) (tr : List (Event ctrlSig)) (v : Volume)
    (i : CloudInstance), Exec backend (createVolume s req) a tr (.ok (some v)) b → Reports tr i →
    i.name = resourceName project location name →
    parseVolumeID v.volumeID = .ok (project, location, name) ∧
    (∀ s₀ tr' s', Exec CloudState.step (deleteVolume ⟨v.volumeID⟩) s₀ tr' none s' →
      s'.find (resourceName project location name) = none) ∧
    ∀ range s₀ tr' r s', Exec CloudState.step (controllerExpandVolume ⟨v.volumeID, range⟩) s₀ tr' r s' →
      ∀ e ∈ tr', ActsOn project location name e.1

/-! ## What is reported -/

/-- A successful `CreateVolume` answers with the one instance that was reported. -/
theorem volume_of_reports {σ : Type} {backend : σ → (o : ctrlSig.Op) → ctrlSig.Res o → σ → Prop}
    {s : ControllerServer} {req : CreateVolumeRequest} {a b : σ} {tr : List (Event ctrlSig)}
    {v : Volume} (h : Exec backend (createVolume s req) a tr (.ok (some v)) b) :
    ∃ i si, cloudInstanceToServiceInstance i = .ok si ∧ v = instanceToCSIVolume si ∧
      Reports tr i ∧ ∀ i', Reports tr i' → i' = i := by
  obtain ⟨ni, params, i, si, -, hv, hfound | ⟨labels, fsname, hcreated⟩⟩ := exec_createVolume_ok h
  · refine ⟨i, si, hfound.converted, hv, ?_, ?_⟩
    · rw [hfound.trace]
      exact .inl ⟨instanceFullName ni, by simp⟩
    · rw [hfound.trace]
      rintro i' (⟨n, hn⟩ | ⟨k, hk⟩)
      · have heq : n = instanceFullName ni ∧ i' = i := by simpa using hn
        exact heq.2
      · simp at hk
  · obtain ⟨before, k, htr, hbefore⟩ := hcreated.trace
    -- Before the creation nothing was reported.
    have hnone : ∀ i', ¬Reports before i' := by
      rintro i' (⟨n, hn⟩ | ⟨k', hk⟩)
      · obtain heq | ⟨err, heq⟩ | ⟨-, hno⟩ := hbefore _ hn
        · simp at heq
        · simp at heq
        · exact hno n rfl
      · obtain heq | ⟨err, heq⟩ | ⟨hread, -⟩ := hbefore _ hk
        · simp at heq
        · simp at heq
        · exact hread
    refine ⟨i, si, hcreated.converted, hv, ?_, ?_⟩
    · rw [htr]
      exact .inr ⟨k, by simp⟩
    · rw [htr]
      rintro i' (⟨n, hn⟩ | ⟨k', hk⟩)
      · rcases List.mem_append.mp hn with hn | hn
        · exact absurd (.inl ⟨n, hn⟩) (hnone i')
        · simp at hn
      · rcases List.mem_append.mp hk with hk | hk
        · exact absurd (.inr ⟨k', hk⟩) (hnone i')
        · simp only [List.mem_cons, Sigma.mk.injEq, reduceCtorEq, false_and, List.not_mem_nil,
            or_false, false_or, CloudOp.waitInstance.injEq] at hk
          obtain ⟨rfl, hi⟩ := hk
          simpa using hi

/-- The volume ID is printed from the components of the reported name. -/
theorem volumeID_of_reports {project location name : String} (hp : Component project)
    (hl : Component location) {i : CloudInstance} {si : ServiceInstance}
    (hname : i.name = resourceName project location name)
    (hconv : cloudInstanceToServiceInstance i = .ok si) :
    si.project = project ∧ si.location = location ∧ si.name = name := by
  obtain ⟨p, l, n, ip, hp', hl', -, heq, -, rfl⟩ := cloudInstanceToServiceInstance_eq_ok.mp hconv
  obtain ⟨rfl, rfl, rfl⟩ := resourceName_inj hp hl hp' hl' (hname.symm.trans heq)
  exact ⟨rfl, rfl, rfl⟩

/-! ## Expansion -/

/-- `ControllerExpandVolume` acts on the instance that its volume ID resolves to. -/
theorem actsOn_of_expand {id p l n : String} {range : Option CapacityRange}
    (hparse : parseVolumeID id = .ok (p, l, n)) {s s' : CloudState} {tr : List (Event ctrlSig)}
    {r : Except Status ControllerExpandVolumeResponse}
    (h : Exec CloudState.step (controllerExpandVolume ⟨id, range⟩) s tr r s') :
    ∀ e ∈ tr, ActsOn p l n e.1 := by
  simp only [controllerExpandVolume] at h
  split at h
  · obtain ⟨rfl, -, -⟩ := exec_return.mp h
    simp
  obtain ⟨rfl, -⟩ | ⟨s₁, tr₁, s₂, -, hbody, -, rfl⟩ := exec_withVolumeLock h
  · simp [ActsOn]
  suffices hall : ∀ e ∈ tr₁, ActsOn p l n e.1 by
    intro e he
    simp only [List.cons_append, List.mem_cons, List.mem_append, List.not_mem_nil, or_false] at he
    rcases he with rfl | he | rfl
    · trivial
    · exact hall e he
    · trivial
  simp only [expandLocked, volumeIDToInstance, hparse] at hbody
  obtain ⟨tr₂, x, s₃, tr₃, hget, hrest, rfl⟩ := exec_bind.mp hbody
  obtain ⟨r', hstep, rfl, rfl⟩ := exec_getInstance hget
  have hfirst : ∀ e ∈ [(⟨.getInstance (resourceName p l n), r'⟩ : Event ctrlSig)],
      ActsOn p l n e.1 := by
    simp [ActsOn]
  refine List.forall_mem_append.mpr ⟨hfirst, ?_⟩
  obtain ⟨rfl, ⟨reported, rfl, hfind⟩ | ⟨err, rfl, -⟩⟩ := cloudOutcome_of_step hstep
  · cases hconv : cloudInstanceToServiceInstance reported with
    | error err =>
      simp only [Except.bind, hconv] at hrest
      obtain ⟨rfl, -, -⟩ := exec_return.mp hrest
      simp
    | ok found =>
      simp only [Except.bind, hconv] at hrest
      obtain ⟨hp, hl, -, -⟩ := parseVolumeID_eq_ok.mp hparse
      obtain ⟨rfl, rfl, rfl⟩ := volumeID_of_reports hp hl (name_of_find hfind) hconv
      -- The instance that was found has the name that was asked for.
      refine Exec.mem_all ?_ hrest
      unfold expandFound
      split
      · exact .pure
      split
      · exact .pure
      split
      · exact .pure
      refine .bind (all_isUpdateInProgress rfl) fun r => ?_
      split
      · exact .pure
      · exact .pure
      · refine .bind (all_resizeInstance rfl fun _ => trivial) fun r => ?_
        split <;> exact .pure
  · simp only [Except.bind] at hrest
    obtain ⟨rfl, -, -⟩ := exec_return.mp hrest
    simp

/-! ## The exact condition -/

section Reported

open Interface.ControllerSample

/-- A backend that may answer anything. -/
def anyAnswer (_ : Unit) (o : ctrlSig.Op) (_ : ctrlSig.Res o) (_ : Unit) : Prop := True

/-- The request of the sample is accepted, and its labels are valid. -/
theorem sample_accepted : ∃ ni params labels,
    validateCreate server (createRequest "vol") = .ok (ni, params) ∧ ni.filesystem = "lustrefs" ∧
      extractLabels server.unicode params server.driverName = .ok labels := by
  have hsome : ((validateCreate server (createRequest "vol")).toOption.bind fun np =>
      (extractLabels server.unicode np.2 server.driverName).toOption.map fun _ =>
        np.1.filesystem) = some "lustrefs" := by
    decide +kernel
  cases hval : validateCreate server (createRequest "vol") with
  | error err => simp [hval, Except.toOption] at hsome
  | ok np =>
    obtain ⟨ni, params⟩ := np
    cases hlabels : extractLabels server.unicode params server.driverName with
    | error err => simp [hval, hlabels, Except.toOption] at hsome
    | ok labels =>
      have hfs : ni.filesystem = "lustrefs" := by simpa [hval, hlabels, Except.toOption] using hsome
      exact ⟨ni, params, labels, rfl, hfs, hlabels⟩

/-- Any instance may be reported after a creation. -/
theorem exists_reported {i : CloudInstance} {si : ServiceInstance}
    (hconv : cloudInstanceToServiceInstance i = .ok si) :
    ∃ tr, Exec anyAnswer (createVolume server (createRequest "vol")) () tr
      (.ok (some (instanceToCSIVolume si))) () ∧ Reports tr i := by
  obtain ⟨ni, params, labels, hval, hfs, hlabels⟩ := sample_accepted
  have hname : generateUniqueFilesystemName { ni with labels := labels } = pure (.ok "lustrefs") := by
    simp [generateUniqueFilesystemName, hfs]
  have hcreate : ∃ tr, Exec anyAnswer (createInstance
      { ni with labels := labels, filesystem := "lustrefs" }) () tr (.ok si) () ∧
      ⟨.waitInstance 0, .ok i⟩ ∈ tr :=
    ⟨_, ⟨.ok 0, (), _, trivial, rfl, .ok i, (), _, trivial, rfl, rfl, hconv.symm, rfl⟩, by simp⟩
  obtain ⟨tr₁, hcreate, hmem⟩ := hcreate
  have hnew : Exec anyAnswer (createNew server ni params) () (tr₁ ++ [])
      (.ok (some (instanceToCSIVolume si))) () := by
    simp only [createNew, hlabels, hname, Program.pure_eq, Program.ret_bind]
    exact exec_bind.mpr ⟨tr₁, _, (), [], hcreate, ⟨rfl, rfl, rfl⟩, rfl⟩
  have hbody : Exec anyAnswer (createLocked server ni params) ()
      (⟨.getInstance (instanceFullName ni), .error notFound⟩ ::
        ⟨.listOperations (locationName ni.project ni.location), ([], none)⟩ :: (tr₁ ++ []))
      (.ok (some (instanceToCSIVolume si))) () :=
    ⟨.error notFound, (), _, trivial, rfl, ([], none), (), _, trivial, rfl, hnew⟩
  have hexec : ∃ tr, Exec anyAnswer (createVolume server (createRequest "vol")) () tr
      (.ok (some (instanceToCSIVolume si))) () ∧ ∀ e ∈ tr₁, e ∈ tr := by
    simp only [createVolume, hval]
    exact ⟨_, exec_withVolumeLock_of_body trivial hbody trivial, fun e he => by simp [he]⟩
  obtain ⟨tr, hexec, hsub⟩ := hexec
  exact ⟨tr, hexec, .inr ⟨0, hsub _ hmem⟩⟩

end Reported

/-- **The life of a volume ID.** For every name that `parseInstanceFullName` accepts, the volume
ID that `CreateVolume` returns leads `DeleteVolume` and `ControllerExpandVolume` to the instance
of that name if and only if the project, the location and the name have no colon.
SOURCE: pkg/util/util.go:134-155, pkg/csi_driver/volume.go:26-44,
pkg/csi_driver/controller.go:275-313 -/
theorem lifecycle_iff {project location name : String} (hp : Component project)
    (hl : Component location) (hn : Component name) :
    Lifecycle project location name ↔
      ':' ∉ project.toList ∧ ':' ∉ location.toList ∧ ':' ∉ name.toList := by
  constructor
  · intro h
    let i : CloudInstance :=
      ⟨⟨"", [], ∅, 0, "", false, 0⟩, resourceName project location name, "", .active⟩
    have hconv := cloudInstanceToServiceInstance_eq_ok.mpr
      ⟨project, location, name, "", hp, hl, hn, (rfl : i.name = _), rfl, rfl⟩
    obtain ⟨tr, hexec, hreports⟩ := exists_reported hconv
    obtain ⟨hparse, -, -⟩ := h Unit anyAnswer _ _ () () tr _ i hexec hreports rfl
    exact colon_of_parseVolumeID hparse
  · intro hcolon σ backend s req a b tr v i hexec hreports hname
    obtain ⟨i', si, hconv, rfl, -, huniq⟩ := volume_of_reports hexec
    obtain rfl := huniq i hreports
    obtain ⟨rfl, rfl, rfl⟩ := volumeID_of_reports hp hl hname hconv
    have hparse := (parseVolumeID_instanceToVolumeID hp hl hn).mpr hcolon
    exact ⟨hparse, fun s₀ tr' s' hdelete => find_of_deleteVolume hparse hdelete,
      fun range s₀ tr' r s' hexpand => actsOn_of_expand hparse hexpand⟩

/-- An instance of an ordinary project: its ID leads back to it. -/
theorem lifecycle_proj : Component "proj" ∧ Component "us-central1-a" ∧ Component "vol" ∧
    (Lifecycle "proj" "us-central1-a" "vol" ↔
      ':' ∉ "proj".toList ∧ ':' ∉ "us-central1-a".toList ∧ ':' ∉ "vol".toList) :=
  ⟨by decide, by decide, by decide, lifecycle_iff (by decide) (by decide) (by decide)⟩

/-! ## The project of a domain -/

section Domain

open Interface.ControllerSample

/-- In the project of a domain the sample volume is created and becomes active. -/
theorem created_played :
    ((play (S := ctrlSig) CloudState.exec (createVolume (serverOf "example.com:proj")
      (createRequest "vol"))
      [.ok, .ok, .operations [] none, .ok, .ends (.succeed "10.0.0.2"), .ok]
      ControllerSample.empty).map fun rs =>
        (rs.1.toOption.bind fun v => v.map (·.volumeID),
          (rs.2.find (resourceName "example.com:proj" "us-central1-a" "vol")).isSome)) =
      some (some "example.com:proj/us-central1-a/vol", true) := by
  decide +kernel

/-- The volume of a project of a domain is created, but `DeleteVolume` of its ID answers
success and leaves the instance. -/
theorem not_lifecycle : ¬Lifecycle "example.com:proj" "us-central1-a" "vol" := by
  intro h
  have hplayed := created_played
  rw [Option.map_eq_some_iff] at hplayed
  obtain ⟨⟨r, s'⟩, hplay, hobs⟩ := hplayed
  simp only [Prod.mk.injEq] at hobs
  obtain ⟨v, rfl, hid⟩ : ∃ v, r = .ok (some v) ∧
      v.volumeID = "example.com:proj/us-central1-a/vol" := by
    obtain ⟨ov, hov, hid⟩ := Option.bind_eq_some_iff.mp hobs.1
    obtain ⟨v, rfl, hv⟩ := Option.map_eq_some_iff.mp hid
    cases r with
    | error err => cases hov
    | ok ov' =>
      cases hov
      exact ⟨v, rfl, hv⟩
  obtain ⟨tr, hexec⟩ := play_exec _ hplay
  obtain ⟨i, si, hconv, rfl, hreports, -⟩ := volume_of_reports hexec
  have hname : i.name = resourceName "example.com:proj" "us-central1-a" "vol" := by
    obtain ⟨p, l, n, ip, hp, hl, -, heq, -, rfl⟩ := cloudInstanceToServiceInstance_eq_ok.mp hconv
    have hprinted : instanceToVolumeID _ = instanceToVolumeID
      { project := "example.com:proj", location := "us-central1-a", name := "vol" } := hid
    obtain ⟨hp', hl', hn'⟩ := instanceToVolumeID_inj hp hl (by decide) (by decide) hprinted
    simp only at hp' hl' hn'
    rw [heq, hp', hl', hn']
  obtain ⟨-, hdelete, -⟩ := h CloudState _ _ _ _ _ tr _ i hexec hreports hname
  -- The ID does not resolve, so that the deletion ends without a call.
  have hskip : deleteVolume ⟨"example.com:proj/us-central1-a/vol"⟩ = pure none := by
    have hparse : (volumeIDToInstance "example.com:proj/us-central1-a/vol").toOption = none := by
      decide
    cases hv : volumeIDToInstance "example.com:proj/us-central1-a/vol" with
    | ok i => simp [hv, Except.toOption] at hparse
    | error err => simp [deleteVolume, hv]
  have hgone := hdelete s' [] s' (by rw [hid, hskip]; exact ⟨rfl, rfl, rfl⟩)
  simp [hgone] at hobs

end Domain

end LustreCsi.Analysis.VolumeLifecycle
