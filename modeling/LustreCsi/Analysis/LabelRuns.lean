import LustreCsi.Interface.ResourceNames
import LustreCsi.Model.LabelController

/-!
# Sequences of reconciliations

Reconciliations of any persistent volumes follow one another, while the calls do not fail and nobody
else writes labels. An instance is updated at most once: the update leaves a label by which later
reconciliations see that nothing is to be done (`exec_reconcile`, `reconciled_instance`).
-/

set_option autoImplicit false

namespace LustreCsi.Analysis.LabelRuns

open LustreCsi.Computation Model Model.Labels Interface

variable {name x : String} {r : Option String}

/-! ## What runs do to an instance -/

/-- The call is about the instance. -/
def Touches (x : String) : LabelOp → Prop
  | .getPV _ => False
  | .getInstance y => y = x
  | .updateLabels y _ => y = x
  | .waitUpdate handle => handle.target = x
  | .clientUpdate y _ => y = x

/-- The label maps that are written to the instance. -/
def updates (x : String) (tr : List (Event labelSig)) : List StrMap :=
  tr.filterMap fun e => match e.1 with
    | .updateLabels y labels => if y = x then some labels else none
    | _ => none

/-- The updates in two parts of a run. -/
theorem updates_append (x : String) (tr tr' : List (Event labelSig)) :
    updates x (tr ++ tr') = updates x tr ++ updates x tr' := List.filterMap_append

/-- The volume is one of the driver, and its handle names the instance. -/
def StandsFor (pv : PersistentVolume) (x : String) : Prop :=
  ∃ csi i, pv.csi = some csi ∧ csi.driver = csiDriverName ∧
    volumeIDToInstance csi.volumeHandle = .ok i ∧ instanceFullName i = x

/-- Some volume of the driver stands for the instance. -/
def Named (pvs : String → Option PersistentVolume) (x : String) : Prop :=
  ∃ name pv, pvs name = some pv ∧ StandsFor pv x

/-- What one reconciliation has done: nothing, or one update that adds the label. -/
inductive Effect (σ : LabelState) (tr : List (Event labelSig)) (σ' : LabelState) : Prop where
  | none (hσ : σ' = σ) (hno : ∀ x, updates x tr = [])
  | update (x : String) (i : CloudInstance) (hi : σ.instances x = some i)
      (hlabels : hasDriverLabel i.labels = false)
      (hσ : σ'.instances = (σ.setLabels x (addManagedBy i.labels)).instances)
      (hone : updates x tr = [addManagedBy i.labels]) (hno : ∀ y, y ≠ x → updates y tr = [])

/-! ## One reconciliation -/

section Reconcile

variable {σ σ' : LabelState} {tr : List (Event labelSig)}

/-- The first call of a run. -/
theorem exec_perform {α : Type} {o : LabelOp} {f : o.Res → LabelM α} {a : α} :
    Exec LabelState.okStep (perform o >>= f) σ tr a σ' ↔
      ∃ r σ₁ tr₁, σ.okStep o r σ₁ ∧ tr = ⟨o, r⟩ :: tr₁ ∧ Exec LabelState.okStep (f r) σ₁ tr₁ a σ' :=
  Iff.rfl

/-- What is read from the cluster. -/
theorem okStep_getPV {r : Except ClusterError PersistentVolume} (h : σ.okStep (.getPV name) r σ') :
    σ' = σ ∧ ((∃ pv, σ.pvs name = some pv ∧ r = .ok pv) ∨ r = .error .notFound) := by
  obtain ⟨c, rfl | rfl, h⟩ := h
  · simp only [LabelState.exec, Option.some.injEq, Prod.mk.injEq] at h
    obtain ⟨rfl, rfl⟩ := h
    refine ⟨rfl, ?_⟩
    cases hpv : σ.pvs name with
    | none => exact .inr rfl
    | some pv => exact .inl ⟨pv, rfl, rfl⟩
  · cases h

/-- What is reported about an instance. -/
theorem okStep_getInstance {r : Except ApiError CloudInstance} (h : σ.okStep (.getInstance x) r σ') :
    σ' = σ ∧ ((∃ i, σ.instances x = some i ∧ r = .ok i) ∨ r = .error notFound) := by
  obtain ⟨c, rfl | rfl, h⟩ := h
  · simp only [LabelState.exec, Option.some.injEq, Prod.mk.injEq] at h
    obtain ⟨rfl, rfl⟩ := h
    refine ⟨rfl, ?_⟩
    cases hi : σ.instances x with
    | none => exact .inr rfl
    | some i => exact .inl ⟨i, rfl, rfl⟩
  · cases h

/-- An update of an instance that is there takes effect once, when it is accepted or while it is
waited for. -/
theorem exec_updateInstance {si : ServiceInstance} {r : Option ApiError}
    (h : Exec LabelState.okStep (updateInstance si) σ tr r σ')
    (hi : (σ.instances (instanceFullName si)).isSome) :
    r = none ∧ σ' = σ.setLabels (instanceFullName si) si.labels ∧
      (∀ x, updates x tr = if x = instanceFullName si then [si.labels] else []) ∧
      ∀ e ∈ tr, ∀ x, Touches x e.1 → x = instanceFullName si := by
  rw [updateInstance] at h
  obtain ⟨answer, σ₁, tr₁, hupdate, rfl, h₁⟩ := exec_perform.mp h
  have hhandle : ∃ done, answer = .ok ⟨instanceFullName si, si.labels, done⟩ ∧
      σ₁ = if done then σ.setLabels (instanceFullName si) si.labels else σ := by
    obtain ⟨c, rfl | rfl, hexec⟩ := hupdate
    · simp only [LabelState.exec, if_pos hi, Option.some.injEq, Prod.mk.injEq] at hexec
      exact ⟨true, hexec.1.symm, hexec.2.symm⟩
    · simp only [LabelState.exec, if_pos hi, Option.some.injEq, Prod.mk.injEq] at hexec
      exact ⟨false, hexec.1.symm, hexec.2.symm⟩
  obtain ⟨done, rfl, rfl⟩ := hhandle
  obtain ⟨r, σ', tr₂, hwait, rfl, rfl, rfl, rfl⟩ := h₁
  have hend : r = none ∧ σ' = σ.setLabels (instanceFullName si) si.labels := by
    obtain ⟨c, rfl | rfl, hexec⟩ := hwait
    · simp only [LabelState.exec, Option.some.injEq, Prod.mk.injEq] at hexec
      obtain ⟨rfl, rfl⟩ := hexec
      cases done with
      | true => exact ⟨rfl, rfl⟩
      | false => exact ⟨rfl, rfl⟩
    · cases hexec
  refine ⟨hend.1, hend.2, fun x => ?_, ?_⟩
  · by_cases hx : instanceFullName si = x
    · simp [updates, hx]
    · simp [updates, hx, Ne.symm hx]
  · simp only [List.mem_cons, List.not_mem_nil, or_false, forall_eq_or_imp, forall_eq, Touches]
    exact ⟨fun x hx => hx.symm, fun x hx => hx.symm⟩

/-- From the read of the instance on. -/
theorem exec_labelInstance {pvName : String} {si : ServiceInstance}
    (h : Exec LabelState.okStep (labelInstance pvName si) σ tr r σ') :
    Effect σ tr σ' ∧ ∀ e ∈ tr, ∀ x, Touches x e.1 → x = instanceFullName si := by
  rw [labelInstance, Labels.getInstance, Program.bind_assoc] at h
  obtain ⟨answer, σ₁, tr₁, hget, rfl, h₁⟩ := exec_perform.mp h
  obtain ⟨rfl, hanswer⟩ := okStep_getInstance hget
  -- A run that ends here has only read the instance.
  have hread : ∀ {r' : Option String}, Exec LabelState.okStep (pure r' : LabelM _) σ₁ tr₁ r σ' →
      Effect σ₁ (⟨.getInstance (instanceFullName si), answer⟩ :: tr₁) σ' ∧
        ∀ e ∈ (⟨.getInstance (instanceFullName si), answer⟩ :: tr₁ : List (Event labelSig)),
          ∀ x, Touches x e.1 → x = instanceFullName si := by
    rintro r' ⟨rfl, -, rfl⟩
    refine ⟨.none rfl fun _ => rfl, ?_⟩
    simp only [List.mem_singleton, forall_eq, Touches]
    exact fun x hx => hx.symm
  rcases hanswer with ⟨i, hi, rfl⟩ | rfl
  · cases hconv : cloudInstanceToServiceInstance i with
    | error err =>
      simp only [hconv, Program.pure_eq, Program.ret_bind] at h₁
      split at h₁
      · exact hread h₁
      · split at h₁ <;> exact hread h₁
    | ok reported =>
      simp only [hconv, Program.pure_eq, Program.ret_bind] at h₁
      split at h₁
      · exact hread h₁
      rename_i hlabels
      obtain ⟨hname, hsame⟩ := fullName_of_conversion hconv
      simp only [hsame] at h₁ hlabels
      have hfull : instanceFullName { reported with labels := addManagedBy i.labels } =
          instanceFullName si := hname.trans (σ₁.named _ _ hi)
      obtain ⟨tr₂, res, σ₂, tr₃, hupdate, hend, rfl⟩ := exec_bind.mp h₁
      obtain ⟨rfl, rfl, hcount, htouch⟩ := exec_updateInstance hupdate (by rw [hfull, hi]; rfl)
      obtain ⟨rfl, -, rfl⟩ := hend
      simp only [hfull] at hcount htouch ⊢
      rw [List.append_nil]
      refine ⟨.update _ i hi (by simpa using hlabels) rfl ?_ fun y hy => ?_, ?_⟩
      · exact (hcount _).trans (if_pos rfl)
      · exact (hcount y).trans (if_neg hy)
      · rintro e he x hx
        rcases List.mem_cons.mp he with rfl | he
        · exact hx.symm
        · exact htouch e he x hx
  · exact hread h₁

/-- **One reconciliation.** It looks only at the instance that its volume stands for, and updates it
only if it has no label of the driver. -/
theorem exec_reconcile (h : Exec LabelState.okStep (reconcile name) σ tr r σ') :
    Effect σ tr σ' ∧ ∀ e ∈ tr, ∀ x, Touches x e.1 → Named σ.pvs x := by
  rw [reconcile] at h
  obtain ⟨answer, σ₁, tr₁, hget, rfl, h₁⟩ := exec_perform.mp h
  obtain ⟨rfl, hanswer⟩ := okStep_getPV hget
  -- A run that ends here has only read the volume.
  have hread : ∀ {r' : Option String}, Exec LabelState.okStep (pure r' : LabelM _) σ₁ tr₁ r σ' →
      Effect σ₁ (⟨.getPV name, answer⟩ :: tr₁) σ' ∧
        ∀ e ∈ (⟨.getPV name, answer⟩ :: tr₁ : List (Event labelSig)),
          ∀ x, Touches x e.1 → Named σ₁.pvs x := by
    rintro r' ⟨rfl, -, rfl⟩
    refine ⟨.none rfl fun _ => rfl, ?_⟩
    simp [Touches]
  rcases hanswer with ⟨pv, hpv, rfl⟩ | rfl
  · cases hcsi : pv.csi with
    | none =>
      simp only [hcsi] at h₁
      exact hread h₁
    | some csi =>
      simp only [hcsi] at h₁
      split at h₁
      · exact hread h₁
      rename_i hdriver
      cases hid : volumeIDToInstance csi.volumeHandle with
      | error err =>
        simp only [hid] at h₁
        exact hread h₁
      | ok si =>
        simp only [hid] at h₁
        obtain ⟨heffect, htouch⟩ := exec_labelInstance h₁
        refine ⟨?_, fun e he x hx => ?_⟩
        · cases heffect with
          | none hσ hno => exact .none hσ hno
          | update x i hi hlabels hσ hone hno => exact .update x i hi hlabels hσ hone hno
        · rcases List.mem_cons.mp he with rfl | he
          · cases hx
          · refine ⟨name, pv, hpv, csi, si, hcsi, by simpa using hdriver, hid, ?_⟩
            exact (htouch e he x hx).symm
  · exact hread h₁

end Reconcile

/-! ## Sequences -/

/-- Reconciliations follow one another, each in some state of the cluster. -/
def Reconciled : List ((String → Option PersistentVolume) × String) → LabelState →
    List (Event labelSig) → LabelState → Prop
  | [], σ, tr, σ' => tr = [] ∧ σ' = σ
  | (pvs, name) :: runs, σ, tr, σ' =>
    ∃ tr₁ r σ₁ tr₂, Exec LabelState.okStep (reconcile name) { σ with pvs := pvs } tr₁ r σ₁ ∧
      Reconciled runs σ₁ tr₂ σ' ∧ tr = tr₁ ++ tr₂

section Sequences

variable {runs : List ((String → Option PersistentVolume) × String)} {σ σ' : LabelState}
  {tr : List (Event labelSig)}

/-- New labels concern one instance. -/
theorem instances_setLabels (σ : LabelState) (x y : String) (labels : StrMap) :
    (σ.setLabels x labels).instances y =
      if y = x then (σ.instances x).map fun i => { i with labels := labels } else σ.instances y := rfl

/-- What was written carries a label of the driver. -/
theorem hasDriverLabel_addManagedBy (labels : StrMap) : hasDriverLabel (addManagedBy labels) = true := by
  simp [hasDriverLabel, addManagedBy, StrMap.get]

/-- An instance with a label of the driver is left alone. -/
theorem reconciled_labelled (h : Reconciled runs σ tr σ') {i : CloudInstance}
    (hi : σ.instances x = some i) (hlabels : hasDriverLabel i.labels = true) :
    updates x tr = [] ∧ σ'.instances x = some i := by
  induction runs generalizing σ tr with
  | nil =>
    obtain ⟨rfl, rfl⟩ := h
    exact ⟨rfl, hi⟩
  | cons run runs ih =>
    obtain ⟨tr₁, r, σ₁, tr₂, hrun, hrest, rfl⟩ := h
    have hfirst : updates x tr₁ = [] ∧ σ₁.instances x = some i := by
      cases (exec_reconcile hrun).1 with
      | none hσ hno =>
        subst hσ
        exact ⟨hno x, hi⟩
      | update y j hj hno hσ hone hothers =>
        have hne : x ≠ y := by
          rintro rfl
          have hij : i = j := Option.some.inj (hi.symm.trans hj)
          rw [hij, hno] at hlabels
          cases hlabels
        refine ⟨hothers x hne, ?_⟩
        rw [hσ, instances_setLabels, if_neg hne]
        exact hi
    obtain ⟨hno, hend⟩ := ih hrest hfirst.2
    exact ⟨by rw [updates_append, hfirst.1, hno, List.append_nil], hend⟩

/-- What a sequence does to one instance: nothing, or one update. -/
theorem reconciled_instance (h : Reconciled runs σ tr σ') (x : String) :
    (updates x tr = [] ∧ σ'.instances x = σ.instances x) ∨
      ∃ i, σ.instances x = some i ∧ hasDriverLabel i.labels = false ∧
        updates x tr = [addManagedBy i.labels] ∧
        σ'.instances x = some { i with labels := addManagedBy i.labels } := by
  induction runs generalizing σ tr with
  | nil =>
    obtain ⟨rfl, rfl⟩ := h
    exact .inl ⟨rfl, rfl⟩
  | cons run runs ih =>
    obtain ⟨tr₁, r, σ₁, tr₂, hrun, hrest, rfl⟩ := h
    -- Either the first run leaves the instance alone, or the others do.
    have hskip (hno : updates x tr₁ = []) (hsame : σ₁.instances x = σ.instances x) :
        (updates x (tr₁ ++ tr₂) = [] ∧ σ'.instances x = σ.instances x) ∨
          ∃ i, σ.instances x = some i ∧ hasDriverLabel i.labels = false ∧
            updates x (tr₁ ++ tr₂) = [addManagedBy i.labels] ∧
            σ'.instances x = some { i with labels := addManagedBy i.labels } := by
      rw [updates_append, hno, List.nil_append, ← hsame]
      exact ih hrest
    cases (exec_reconcile hrun).1 with
    | none hσ hno =>
      subst hσ
      exact hskip (hno x) rfl
    | update y i hi hlabels hσ hone hothers =>
      by_cases hxy : x = y
      · subst hxy
        have hσ₁ : σ₁.instances x = some { i with labels := addManagedBy i.labels } := by
          rw [hσ, instances_setLabels, if_pos rfl, hi]
          rfl
        obtain ⟨hno, hend⟩ := reconciled_labelled hrest hσ₁ (hasDriverLabel_addManagedBy _)
        exact .inr ⟨i, hi, hlabels, by rw [updates_append, hone, hno, List.append_nil], hend⟩
      · refine hskip (hothers x hxy) ?_
        rw [hσ, instances_setLabels, if_neg hxy]

/-- An instance for which no volume of the driver stands is not looked at. -/
theorem reconciled_untouched (h : Reconciled runs σ tr σ') (hnot : ∀ run ∈ runs, ¬Named run.1 x) :
    ∀ e ∈ tr, ¬Touches x e.1 := by
  induction runs generalizing σ tr with
  | nil =>
    obtain ⟨rfl, -⟩ := h
    simp
  | cons run runs ih =>
    obtain ⟨tr₁, r, σ₁, tr₂, hrun, hrest, rfl⟩ := h
    obtain ⟨hfirst, hothers⟩ := List.forall_mem_cons.mp hnot
    intro e he htouch
    rcases List.mem_append.mp he with he | he
    · exact hfirst ((exec_reconcile hrun).2 e he x htouch)
    · exact ih hrest hothers e he htouch

/-- **Label reconciliation over sequences of runs.** However many volumes stand for an instance, the
instance gets at most one update of its labels; afterwards nothing but the label `managed-by` may have
been set; an instance with one of the driver's labels is not updated; and an instance for which no
volume of the driver stands is not even looked at.

SOURCE: pkg/labelcontroller/label_controller.go:56-114; pkg/cloud_provider/lustre/lustre.go:46-57;
pkg/util/util.go:134-155 -/
theorem reconciled_labels (h : Reconciled runs σ tr σ') (x : String) :
    (updates x tr).length ≤ 1 ∧
    (σ'.instances x = σ.instances x ∨ ∃ i, σ.instances x = some i ∧
      σ'.instances x =
        some { i with labels := i.labels.insert managedByLabelKey lustreCSILabelValue }) ∧
    (∀ i, σ.instances x = some i →
      i.labels.get managedByLabelKey = lustreCSILabelValue ∨
        i.labels.get createdByLabelKey = lustreCSILabelValue →
      updates x tr = [] ∧ σ'.instances x = σ.instances x) ∧
    ((∀ run ∈ runs, ¬Named run.1 x) →
      (∀ e ∈ tr, ¬Touches x e.1) ∧ σ'.instances x = σ.instances x) := by
  have hno_update (hnot : ∀ e ∈ tr, ¬Touches x e.1) : updates x tr = [] := by
    rw [updates, List.filterMap_eq_nil_iff]
    intro e he
    obtain ⟨o, answer⟩ := e
    cases o with
    | updateLabels y labels => exact if_neg (hnot _ he)
    | _ => rfl
  refine ⟨?_, ?_, fun i hi hlabels => ?_, fun hnot => ?_⟩
  · rcases reconciled_instance h x with ⟨hno, -⟩ | ⟨i, -, -, hone, -⟩
    · simp [hno]
    · simp [hone]
  · rcases reconciled_instance h x with ⟨-, hsame⟩ | ⟨i, hi, -, -, hend⟩
    · exact .inl hsame
    · exact .inr ⟨i, hi, hend⟩
  · obtain ⟨hno, hend⟩ := reconciled_labelled h hi (by simpa [hasDriverLabel] using hlabels)
    exact ⟨hno, hend.trans hi.symm⟩
  · have huntouched := reconciled_untouched h hnot
    refine ⟨huntouched, ?_⟩
    rcases reconciled_instance h x with ⟨-, hsame⟩ | ⟨i, -, -, hone, -⟩
    · exact hsame
    rw [hno_update huntouched] at hone
    cases hone

end Sequences

/-! ## Two volumes of one instance -/

section Sample

/-- An instance that another client has labelled. -/
def teamInstance : CloudInstance where
  name := "projects/proj/locations/us-central1-a/instances/vol"
  network := "default"
  description := []
  labels := AList.singleton "team" "storage"
  capacityGib := 9000
  filesystem := "lustrefs"
  gkeSupportEnabled := false
  perUnitStorageThroughput := 125
  mountPoint := "10.0.0.2@tcp:/lustrefs"
  state := .active

/-- Two volumes of the driver stand for the instance, one of them by a handle with a suffix. -/
def teamCluster (name : String) : Option PersistentVolume :=
  if name = "pv1" then some ⟨"pv1", some ⟨csiDriverName, "proj/us-central1-a/vol"⟩⟩
  else if name = "pv2" then some ⟨"pv2", some ⟨csiDriverName, "proj/us-central1-a/vol:b"⟩⟩
  else none

def teamState : LabelState where
  pvs := teamCluster
  instances x := if x = teamInstance.name then some teamInstance else none
  named x i hi := by
    by_cases hx : x = teamInstance.name
    · rw [if_pos hx] at hi
      rw [← Option.some.inj hi, hx]
    rw [if_neg hx] at hi
    cases hi

/-- The runs of which no call fails; the choice says whether an update takes effect at once. -/
def okExec (s : LabelState) (o : LabelOp) (atOnce : Bool) : Option (o.Res × LabelState) :=
  s.exec o (if atOnce then .ok else .later)

/-- What is replayed without faults is a run. -/
theorem exec_of_play {σ σ' : LabelState} {choices : List Bool}
    (h : play (S := labelSig) okExec (reconcile name) choices σ = some (r, σ')) :
    ∃ tr, Exec LabelState.okStep (reconcile name) σ tr r σ' := by
  obtain ⟨tr, hrun⟩ := play_exec _ h
  refine ⟨tr, hrun.mono ?_⟩
  rintro s o answer s' ⟨atOnce, hexec⟩
  cases atOnce with
  | true => exact ⟨.ok, .inl rfl, hexec⟩
  | false => exact ⟨.later, .inr rfl, hexec⟩

/-- The instance is updated once, by the first of the two reconciliations. -/
theorem reconciled_labels_team :
    ∃ tr σ', Reconciled [(teamCluster, "pv1"), (teamCluster, "pv2")] teamState tr σ' ∧
      (updates teamInstance.name tr).length ≤ 1 := by
  have hfirst : (play (S := labelSig) okExec (reconcile "pv1") [true, true, false, true]
      teamState).map (·.1) = some none := by decide +kernel
  obtain ⟨⟨r₁, σ₁⟩, hfirst, -⟩ := Option.map_eq_some_iff.mp hfirst
  have hsecond : ((play (S := labelSig) okExec (reconcile "pv1") [true, true, false, true]
      teamState).bind fun x => (play (S := labelSig) okExec (reconcile "pv2") [true, true]
        { x.2 with pvs := teamCluster }).map (·.1)) = some none := by decide +kernel
  rw [hfirst, Option.bind_some] at hsecond
  obtain ⟨⟨r₂, σ₂⟩, hsecond, -⟩ := Option.map_eq_some_iff.mp hsecond
  obtain ⟨tr₁, hrun₁⟩ := exec_of_play hfirst
  obtain ⟨tr₂, hrun₂⟩ := exec_of_play hsecond
  have hruns : Reconciled [(teamCluster, "pv1"), (teamCluster, "pv2")] teamState (tr₁ ++ tr₂) σ₂ :=
    ⟨tr₁, r₁, σ₁, tr₂, hrun₁, ⟨tr₂, r₂, σ₂, [], hrun₂, ⟨rfl, rfl⟩, by simp⟩, rfl⟩
  exact ⟨_, σ₂, hruns, (reconciled_labels hruns teamInstance.name).1⟩

end Sample

end LustreCsi.Analysis.LabelRuns
