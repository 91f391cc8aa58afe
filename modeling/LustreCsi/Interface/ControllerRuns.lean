import LustreCsi.Interface.ControllerPool
import LustreCsi.Interface.ResourceNames

/-!
# Controller handlers run alone

What a run of a controller handler has done when it succeeds, for any backend: the operations of the
run with their answers.
-/

set_option autoImplicit false

namespace LustreCsi.Interface

open LustreCsi.Computation Model

variable {tr : List (Event ctrlSig)} {i : ServiceInstance} {s s' : CloudState} {n : String}

/-- Two instances match exactly if they agree in what is compared. -/
theorem compareInstances_eq_none {a b : ServiceInstance} :
    compareInstances a b = none ↔ a.name = b.name ∧ a.project = b.project ∧
      a.location = b.location ∧ a.capacityGib = b.capacityGib ∧ a.network = b.network := by
  have hmismatch : ∀ {α : Type} [DecidableEq α] (x y : α) (m : String),
      mismatch x y m = [] ↔ x = y := by
    intro α _ x y m
    simp [mismatch]
  simp only [compareInstances, ne_eq, ite_not, List.append_eq_nil_iff, hmismatch]
  split
  · rename_i h
    simp [h]
  rename_i h
  simp only [reduceCtorEq, false_iff]
  exact fun h' => h ⟨⟨⟨⟨h'.1, h'.2.1⟩, h'.2.2.1⟩, h'.2.2.2.1⟩, h'.2.2.2.2⟩

section AnyBackend

variable {σ α β : Type} {backend : σ → (o : ctrlSig.Op) → ctrlSig.Res o → σ → Prop}
  {x : α} {a b : σ}

/-- A run of a single call. -/
theorem exec_invoke {o : CloudOp} {r : o.Res} :
    Exec backend (invoke o) a tr r b ↔ backend a o r b ∧ tr = [⟨o, r⟩] := by
  constructor
  · rintro ⟨r', s₁, tr₁, hs, rfl, rfl, rfl, rfl⟩
    exact ⟨hs, rfl⟩
  · rintro ⟨hs, rfl⟩
    exact ⟨r, b, [], hs, rfl, rfl, rfl, rfl⟩

/-- A run that begins with a call. -/
theorem exec_invoke_bind {o : CloudOp} {f : o.Res → CtrlM α} :
    Exec backend (invoke o >>= f) a tr x b ↔
      ∃ r a₁ tr₁, backend a o r a₁ ∧ tr = ⟨o, r⟩ :: tr₁ ∧ Exec backend (f r) a₁ tr₁ x b := Iff.rfl

/-- A run of a program that returns. -/
theorem exec_return {y : α} :
    Exec backend (pure y : CtrlM α) a tr x b ↔ tr = [] ∧ x = y ∧ b = a := Iff.rfl

/-- `withVolumeLock` answers the refusal, or runs its body between acquisition and release. -/
theorem exec_withVolumeLock {name : String} {refused : α} {body : CtrlM α}
    (h : Exec backend (withVolumeLock name refused body) a tr x b) :
    (tr = [⟨.tryAcquire name, false⟩] ∧ x = refused) ∨
      ∃ a₁ tr₁ a₂, backend a (.tryAcquire name) true a₁ ∧ Exec backend body a₁ tr₁ x a₂ ∧
        backend a₂ (.release name) () b ∧
        tr = ⟨.tryAcquire name, true⟩ :: tr₁ ++ [⟨.release name, ()⟩] := by
  obtain ⟨acquired, a₁, tr₁, hacq, rfl, hrest⟩ := exec_invoke_bind.mp h
  cases acquired with
  | false =>
    obtain ⟨rfl, rfl, -⟩ := exec_return.mp hrest
    exact .inl ⟨rfl, rfl⟩
  | true =>
    obtain ⟨tr₂, y, a₂, tr₃, hbody, hrel, rfl⟩ := exec_bind.mp hrest
    obtain ⟨u, a₃, tr₄, hrelease, rfl, hret⟩ := exec_invoke_bind.mp hrel
    obtain ⟨rfl, rfl, rfl⟩ := exec_return.mp hret
    exact .inr ⟨a₁, tr₂, a₂, hacq, hbody, hrelease, rfl⟩

/-- A run of the body is a run of the section, between taking the lock and its release. -/
theorem exec_withVolumeLock_of_body {name : String} {refused : α} {body : CtrlM α} {a₁ a₂ : σ}
    (hacquire : backend a (.tryAcquire name) true a₁) (hbody : Exec backend body a₁ tr x a₂)
    (hrelease : backend a₂ (.release name) () b) :
    Exec backend (withVolumeLock name refused body) a
      (⟨.tryAcquire name, true⟩ :: tr ++ [⟨.release name, ()⟩]) x b := by
  have hend : Exec backend (invoke (.release name) >>= fun _ => (pure x : CtrlM α)) a₂
      [⟨.release name, ()⟩] x b := exec_invoke_bind.mpr ⟨(), b, [], hrelease, rfl, rfl, rfl, rfl⟩
  have hrest := (exec_bind (p := body) (f := fun y => invoke (.release name) >>= fun _ => pure y)).mpr
    ⟨tr, x, a₂, _, hbody, hend, rfl⟩
  exact exec_invoke_bind.mpr ⟨true, a₁, _, hacquire, rfl, hrest⟩

/-- A lookup asks for the resource name and converts what is reported. -/
theorem exec_getInstance {x : Except ApiError ServiceInstance}
    (h : Exec backend (getInstance i) a tr x b) :
    ∃ r, backend a (.getInstance (instanceFullName i)) r b ∧
      tr = [⟨.getInstance (instanceFullName i), r⟩] ∧ x = r.bind cloudInstanceToServiceInstance := by
  obtain ⟨r, a₁, tr₁, hget, rfl, hrest⟩ := exec_invoke_bind.mp h
  cases r with
  | error err =>
    obtain ⟨rfl, rfl, rfl⟩ := exec_return.mp hrest
    exact ⟨.error err, hget, rfl, rfl⟩
  | ok reported =>
    obtain ⟨rfl, rfl, rfl⟩ := exec_return.mp hrest
    exact ⟨.ok reported, hget, rfl, rfl⟩

/-- A creation that succeeds was accepted and waited for. -/
theorem exec_createInstance_ok {si : ServiceInstance}
    (h : Exec backend (createInstance i) a tr (.ok si) b) :
    ∃ k a₁ reported,
      backend a (.createInstance (locationName i.project i.location) i.name i.spec) (.ok k) a₁ ∧
      backend a₁ (.waitInstance k) (.ok reported) b ∧
      cloudInstanceToServiceInstance reported = .ok si ∧
      tr = [⟨.createInstance (locationName i.project i.location) i.name i.spec, .ok k⟩,
        ⟨.waitInstance k, .ok reported⟩] := by
  obtain ⟨r, a₁, tr₁, hcreate, rfl, hrest⟩ := exec_invoke_bind.mp h
  cases r with
  | error err =>
    cases (exec_return.mp hrest).2.1
  | ok k =>
    obtain ⟨r', a₂, tr₂, hwait, rfl, hret⟩ := exec_invoke_bind.mp hrest
    cases r' with
    | error err =>
      cases (exec_return.mp hret).2.1
    | ok reported =>
      obtain ⟨rfl, hconv, rfl⟩ := exec_return.mp hret
      exact ⟨k, a₁, reported, hcreate, hwait, hconv.symm, rfl⟩

/-- The run of `CreateVolume` found the instance `reported` and answered with it. -/
structure Found (ni : ServiceInstance) (tr : List (Event ctrlSig))
    (reported : CloudInstance) (si : ServiceInstance) : Prop where
  converted : cloudInstanceToServiceInstance reported = .ok si
  matching : compareInstances ni si = none
  active : si.state = some .active
  trace : tr = [⟨.tryAcquire ni.name, true⟩, ⟨.getInstance (instanceFullName ni), .ok reported⟩,
    ⟨.release ni.name, ()⟩]

/-- The run of `CreateVolume` created an instance, with the labels `labels` and the file-system
name `fsname`, and answered with what the backend reported then. -/
structure Created (s : ControllerServer) (ni : ServiceInstance) (params : StrMap)
    (tr : List (Event ctrlSig)) (labels : StrMap) (fsname : String) (reported : CloudInstance)
    (si : ServiceInstance) : Prop where
  converted : cloudInstanceToServiceInstance reported = .ok si
  labelled : extractLabels s.unicode params s.driverName = .ok labels
  trace : ∃ before k, tr = before ++
      [⟨.createInstance (locationName ni.project ni.location) ni.name
          { ni with labels := labels, filesystem := fsname }.spec, .ok k⟩,
        ⟨.waitInstance k, .ok reported⟩, ⟨.release ni.name, ()⟩] ∧
    ∀ e ∈ before, e = ⟨.tryAcquire ni.name, true⟩ ∨
      (∃ err, e = ⟨.getInstance (instanceFullName ni), .error err⟩) ∨
      (Reads e.1 ∧ ∀ n, e.1 ≠ .getInstance n)

/-- What a `CreateVolume` call that succeeds has done. -/
theorem exec_createVolume_ok {s : ControllerServer} {req : CreateVolumeRequest} {v : Volume}
    (h : Exec backend (createVolume s req) a tr (.ok (some v)) b) :
    ∃ ni params reported si, validateCreate s req = .ok (ni, params) ∧
      v = instanceToCSIVolume si ∧ (Found ni tr reported si ∨
        ∃ labels fsname, Created s ni params tr labels fsname reported si) := by
  simp only [createVolume] at h
  split at h
  · cases (exec_return.mp h).2.1
  rename_i ni params hval
  obtain ⟨-, hcontra⟩ | ⟨a₁, tr₁, a₂, -, hbody, -, rfl⟩ := exec_withVolumeLock h
  · cases hcontra
  obtain ⟨tr₂, x, a₃, tr₃, hget, hrest, rfl⟩ := exec_bind.mp hbody
  obtain ⟨r, -, rfl, rfl⟩ := exec_getInstance hget
  cases r with
  | ok reported =>
    cases hconv : cloudInstanceToServiceInstance reported with
    | error err =>
      -- An instance that cannot be converted is an error that is not "not found".
      simp only [Except.bind, hconv] at hrest
      split at hrest
      · cases (exec_return.mp hrest).2.1
      rename_i hnf
      exact absurd hnf (by simp [isNotFoundErr_of_conversion hconv])
    | ok si =>
      simp only [Except.bind, hconv] at hrest
      obtain ⟨rfl, hreuse, -⟩ := exec_return.mp hrest
      simp only [reuseInstance] at hreuse
      split at hreuse
      · cases hreuse
      rename_i hmatch
      split at hreuse
      · cases hreuse
      split at hreuse
      · cases hreuse
      rename_i hactive
      simp only [Except.ok.injEq, Option.some.injEq] at hreuse
      exact ⟨ni, params, reported, si, hval, hreuse, .inl ⟨hconv, hmatch, by simpa using hactive, rfl⟩⟩
  | error err =>
    simp only [Except.bind] at hrest
    split at hrest
    · cases (exec_return.mp hrest).2.1
    obtain ⟨tr₄, found, a₄, tr₅, hops, hrest', rfl⟩ := exec_bind.mp hrest
    cases found with
    | error err' =>
      cases (exec_return.mp hrest').2.1
    | ok op =>
      simp only at hrest'
      split at hrest'
      · obtain ⟨-, hcontra, -⟩ := exec_return.mp hrest'
        simp only [failedCreation] at hcontra
        split at hcontra <;> cases hcontra
      unfold createNew at hrest'
      split at hrest'
      · cases (exec_return.mp hrest').2.1
      rename_i labels hlabels
      obtain ⟨tr₆, fs, a₅, tr₇, hfs, hcreate, rfl⟩ := exec_bind.mp hrest'
      cases fs with
      | error err' =>
        cases (exec_return.mp hcreate).2.1
      | ok fsname =>
        obtain ⟨tr₈, cr, a₆, tr₉, hci, hret, rfl⟩ := exec_bind.mp hcreate
        cases cr with
        | error err' =>
          cases (exec_return.mp hret).2.1
        | ok si =>
          obtain ⟨rfl, hv, -⟩ := exec_return.mp hret
          simp only [Except.ok.injEq, Option.some.injEq] at hv
          obtain ⟨k, -, reported, -, -, hconv, rfl⟩ := exec_createInstance_ok hci
          have hread : ∀ {γ : Type} {p : CtrlM γ} {a b : σ} {tr : List (Event ctrlSig)} {x : γ},
              p.All (fun o : CloudOp => Reads o ∧ ∀ n, o ≠ .getInstance n) → Exec backend p a tr x b →
              ∀ e ∈ tr, Reads e.1 ∧ ∀ n, e.1 ≠ .getInstance n := fun hp hx => hx.mem_all hp
          have h₄ := hread (all_searchOperations _ ⟨trivial, by simp⟩) hops
          have h₆ := hread (all_generateUniqueFilesystemName (fun _ => ⟨trivial, by simp⟩)
            (fun _ => ⟨trivial, by simp⟩) fun _ => ⟨trivial, by simp⟩) hfs
          refine ⟨ni, params, reported, si, hval, hv, .inr ⟨labels, fsname, hconv, hlabels,
            ⟨.tryAcquire ni.name, true⟩ :: ⟨.getInstance (instanceFullName ni), .error err⟩ ::
              (tr₄ ++ tr₆), k, by simp, fun e he => ?_⟩⟩
          simp only [List.mem_cons, List.mem_append] at he
          rcases he with rfl | rfl | he | he
          · exact .inl rfl
          · exact .inr (.inl ⟨err, rfl⟩)
          · exact .inr (.inr (h₄ e he))
          · exact .inr (.inr (h₆ e he))

/-- A resize that succeeds was accepted and waited for. -/
theorem exec_resizeInstance_ok {si : ServiceInstance}
    (h : Exec backend (resizeInstance i) a tr (.ok si) b) :
    ∃ k a₁ reported,
      backend a (.updateInstance (instanceFullName i) i.capacityGib) (.ok k) a₁ ∧
      backend a₁ (.waitInstance k) (.ok reported) b ∧
      cloudInstanceToServiceInstance reported = .ok si := by
  obtain ⟨r, a₁, tr₁, hupdate, rfl, hrest⟩ := exec_invoke_bind.mp h
  cases r with
  | error err =>
    cases (exec_return.mp hrest).2.1
  | ok k =>
    obtain ⟨r', a₂, tr₂, hwait, rfl, hret⟩ := exec_invoke_bind.mp hrest
    cases r' with
    | error err =>
      cases (exec_return.mp hret).2.1
    | ok reported =>
      obtain ⟨rfl, hconv, rfl⟩ := exec_return.mp hret
      exact ⟨k, a₁, reported, hupdate, hwait, hconv.symm⟩

/-- A successful answer for an instance that was found: it is large enough, or was resized. -/
theorem exec_expandFound_ok {req : ControllerExpandVolumeRequest} {found : ServiceInstance}
    {resp : ControllerExpandVolumeResponse}
    (h : Exec backend (expandFound req found) a tr (.ok resp) b) :
    ∃ capBytes, getRequestCapacity req.capacityRange = .ok capBytes ∧
      ((capBytes ≤ gibToBytes found.capacityGib ∧ resp = ⟨gibToBytes found.capacityGib, false⟩) ∨
        (gibToBytes found.capacityGib < capBytes ∧ ∃ k a₁ a₂ a₃ reported updated,
          backend a₁ (.updateInstance (instanceFullName found) (bytesToGib capBytes)) (.ok k) a₂ ∧
          backend a₂ (.waitInstance k) (.ok reported) a₃ ∧
          cloudInstanceToServiceInstance reported = .ok updated ∧
          resp = ⟨gibToBytes updated.capacityGib, false⟩)) := by
  unfold expandFound at h
  split at h
  · cases (exec_return.mp h).2.1
  split at h
  · cases (exec_return.mp h).2.1
  rename_i capBytes hcap
  refine ⟨capBytes, hcap, ?_⟩
  split at h
  · rename_i henough
    obtain ⟨-, hresp, -⟩ := exec_return.mp h
    exact .inl ⟨henough, Except.ok.inj hresp⟩
  rename_i hmore
  obtain ⟨tr₁, inProgress, a₁, tr₂, -, hrest, rfl⟩ := exec_bind.mp h
  split at hrest
  · cases (exec_return.mp hrest).2.1
  · cases (exec_return.mp hrest).2.1
  · obtain ⟨tr₃, r, a₂, tr₄, hresize, hret, rfl⟩ := exec_bind.mp hrest
    cases r with
    | error err =>
      cases (exec_return.mp hret).2.1
    | ok updated =>
      obtain ⟨-, hresp, -⟩ := exec_return.mp hret
      obtain ⟨k, a₃, reported, hupdate, hwait, hconv⟩ := exec_resizeInstance_ok hresize
      exact .inr ⟨by omega, k, a₁, a₃, a₂, reported, updated, hupdate, hwait, hconv,
        Except.ok.inj hresp⟩

/-- What a `ControllerExpandVolume` call that succeeds has done. -/
theorem exec_controllerExpandVolume_ok {req : ControllerExpandVolumeRequest}
    {resp : ControllerExpandVolumeResponse}
    (h : Exec backend (controllerExpandVolume req) a tr (.ok resp) b) :
    ∃ p l n a₁ a₂ a₃ reported found tr₁, parseVolumeID req.volumeID = .ok (p, l, n) ∧
      backend a (.tryAcquire req.volumeID) true a₁ ∧
      backend a₁ (.getInstance (resourceName p l n)) (.ok reported) a₂ ∧
      cloudInstanceToServiceInstance reported = .ok found ∧
      Exec backend (expandFound req found) a₂ tr₁ (.ok resp) a₃ := by
  unfold controllerExpandVolume at h
  split at h
  · cases (exec_return.mp h).2.1
  obtain ⟨-, hcontra⟩ | ⟨a₁, tr₁, a₂, hacquire, hbody, -, rfl⟩ := exec_withVolumeLock h
  · cases hcontra
  unfold expandLocked volumeIDToInstance at hbody
  cases hparse : parseVolumeID req.volumeID with
  | error err =>
    simp only [hparse] at hbody
    cases (exec_return.mp hbody).2.1
  | ok pln =>
    obtain ⟨p, l, n⟩ := pln
    simp only [hparse] at hbody
    obtain ⟨tr₂, x, a₃, tr₃, hget, hrest, rfl⟩ := exec_bind.mp hbody
    obtain ⟨r, hstep, rfl, rfl⟩ := exec_getInstance hget
    cases r with
    | error err =>
      cases (exec_return.mp hrest).2.1
    | ok reported =>
      cases hconv : cloudInstanceToServiceInstance reported with
      | error err =>
        simp only [Except.bind, hconv] at hrest
        cases (exec_return.mp hrest).2.1
      | ok found =>
        simp only [Except.bind, hconv] at hrest
        exact ⟨p, l, n, a₁, a₃, a₂, reported, found, tr₃, rfl, hacquire, hstep, hconv, hrest⟩

end AnyBackend

/-! ## Deletion -/

/-- The operation of an accepted deletion. -/
theorem acceptDelete_operation (s : CloudState) (n : String) :
    (s.acceptDelete n).operations[s.operations.length]? =
      some ⟨CloudState.locationOf n, n, some .delete, .pending⟩ := by
  simp [CloudState.acceptDelete, CloudState.addOperation, CloudState.modify]

/-- A deletion that was accepted and has succeeded leaves no instance of the name. -/
theorem find_of_waitDelete {k : ℕ} {o : Operation} (ho : s.operations[k]? = some o)
    (hpending : o.progress = .pending) (htarget : o.target = n) (hwork : o.work = some .delete)
    (h : Awaited s k s') (hdone : s'.succeededAt k = true) : s'.find n = none := by
  obtain rfl | ⟨ending, hcomplete⟩ := h
  · simp [CloudState.succeededAt, ho, hpending] at hdone
  · obtain ⟨o', ho', -, ⟨ip, -, rfl⟩ | ⟨code, message, -, rfl⟩⟩ := complete_eq_some hcomplete
    · obtain rfl : o = o' := by simpa [ho] using ho'
      rw [find_eq_none]
      simp [hwork, CloudState.finish, CloudState.remove, CloudState.setProgress, htarget]
    · obtain rfl : o = o' := by simpa [ho] using ho'
      have hlen : k < s.operations.length := (List.getElem?_eq_some_iff.mp ho).1
      simp [CloudState.succeededAt, CloudState.setProgress, hwork, CloudState.abandon, hlen] at hdone

/-- `DeleteInstance` succeeds only if the instance is gone. -/
theorem find_of_deleteInstance (h : Exec CloudState.step (deleteInstance i) s tr none s') :
    s'.find (instanceFullName i) = none := by
  obtain ⟨r, s₁, tr₁, hdelete, rfl, hrest⟩ := exec_invoke_bind.mp h
  have hout := cloudOutcome_of_step hdelete
  cases r with
  | error err =>
    simp only at hrest
    split at hrest
    · rename_i hnf
      obtain ⟨-, -, rfl⟩ := exec_return.mp hrest
      obtain ⟨hcontra, -⟩ | ⟨err', heq, ⟨rfl, hmissing⟩ | ⟨hnot, -⟩⟩ := hout
      · cases hcontra
      · cases heq
        exact hmissing hnf
      · cases heq
        simp [hnf] at hnot
    · cases (exec_return.mp hrest).2.1
  | ok k =>
    obtain ⟨hwait, -⟩ := exec_invoke.mp hrest
    obtain ⟨hk, -, rfl⟩ | ⟨err', heq, -⟩ := hout
    · cases hk
      obtain ⟨hawaited, hdone⟩ := cloudOutcome_of_step hwait
      exact find_of_waitDelete (acceptDelete_operation s _) rfl rfl rfl hawaited (hdone rfl)
    · cases heq

/-- A `DeleteVolume` call that succeeds leaves no instance of the name that its volume ID
resolves to. -/
theorem find_of_deleteVolume {id p l : String} (hparse : parseVolumeID id = .ok (p, l, n))
    (h : Exec CloudState.step (deleteVolume ⟨id⟩) s tr none s') :
    s'.find (resourceName p l n) = none := by
  simp only [deleteVolume] at h
  split at h
  · cases (exec_return.mp h).2.1
  simp only [volumeIDToInstance, hparse] at h
  obtain ⟨-, hcontra⟩ | ⟨s₁, tr₁, s₂, -, hbody, hrelease, -⟩ := exec_withVolumeLock h
  · cases hcontra
  obtain rfl : s' = _ := cloudOutcome_of_step hrelease
  change s₂.find _ = none
  obtain ⟨tr₂, x, s₃, tr₃, hget, hrest, -⟩ := exec_bind.mp hbody
  obtain ⟨r, hstep, -, rfl⟩ := exec_getInstance hget
  obtain ⟨rfl, ⟨reported, rfl, hfind⟩ | ⟨err, rfl, hmissing⟩⟩ := cloudOutcome_of_step hstep
  · cases hconv : cloudInstanceToServiceInstance reported with
    | error err =>
      simp only [Except.bind, hconv, isNotFoundErr_of_conversion hconv] at hrest
      cases (exec_return.mp hrest).2.1
    | ok found =>
      -- What was found has the name that was asked for.
      have hname : instanceFullName found = resourceName p l n := by
        obtain ⟨p', l', n', ip, -, -, -, heq, -, rfl⟩ := cloudInstanceToServiceInstance_eq_ok.mp hconv
        rw [instanceFullName_eq, ← heq]
        exact name_of_find hfind
      simp only [Except.bind, hconv] at hrest
      split at hrest
      · cases (exec_return.mp hrest).2.1
      obtain ⟨tr₄, err, s₄, tr₅, hdelete, hret, -⟩ := exec_bind.mp hrest
      cases err with
      | some err =>
        cases (exec_return.mp hret).2.1
      | none =>
        obtain ⟨-, -, rfl⟩ := exec_return.mp hret
        rw [← hname]
        exact find_of_deleteInstance hdelete
  · simp only [Except.bind] at hrest
    split at hrest
    · rename_i hnf
      obtain ⟨-, -, rfl⟩ := exec_return.mp hrest
      exact hmissing hnf
    · cases (exec_return.mp hrest).2.1

end LustreCsi.Interface
