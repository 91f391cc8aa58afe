import LustreCsi.Computation.Interleaving
import LustreCsi.Analysis.LabelRuns

/-!
# Labels of other clients

A reconciliation writes back the label map that it has read, with one more label, so that what
another client has written in between is lost (`not_always_kept`). As long as no client's update
falls between the read and the write, every label that a client has written stays until a client
removes it, in every interleaving (`labels_kept`).
-/

set_option autoImplicit false

namespace LustreCsi.Analysis.LabelWrites

open LustreCsi.Computation Model Model.Labels Interface
open LabelRuns (teamInstance teamCluster teamState)

variable {s : LabelState} {x : String}

/-! ## What clients have written -/

/-- The labels of an instance. -/
def labelsOf (s : LabelState) (x : String) : StrMap := ((s.instances x).map (·.labels)).getD ∅

/-- The labels that clients have written last; at the beginning, those that are there. The trace has
its newest event first. -/
def written (s₀ : LabelState) (x : String) : List (ℕ × Event labelSig) → StrMap
  | [] => labelsOf s₀ x
  | (_, ⟨.clientUpdate y labels, _⟩) :: tr => if y = x then labels else written s₀ x tr
  | _ :: tr => written s₀ x tr

/-- Every label that clients have written last is on the instance. -/
def Kept (s₀ : LabelState) (w : World labelSig LabelState) : Prop :=
  ∀ x k v, (written s₀ x w.trace).lookup k = some v → (labelsOf w.state x).lookup k = some v

/-- The label that reconciliations set is missing or has their value. -/
def Respects (labels : StrMap) : Prop :=
  ∀ v, labels.lookup managedByLabelKey = some v → v = lustreCSILabelValue

/-- What other clients do: they read, and they update labels. -/
def ClientOp : LabelOp → Prop
  | .getPV _ => True
  | .getInstance _ => True
  | .clientUpdate _ labels => Respects labels
  | _ => False

/-! ## Between read and write -/

/-- The instance that a reconciliation is to write after the event. -/
def reading : Event labelSig → Option String
  | ⟨.getInstance x, .ok i⟩ =>
    match cloudInstanceToServiceInstance i with
    | .ok reported => if hasDriverLabel reported.labels then none else some x
    | .error _ => none
  | ⟨.updateLabels x _, .ok handle⟩ => if handle.done then none else some x
  | _ => none

/-- The instance that the thread has read and is to write. -/
def pendingRead (t : ℕ) : List (ℕ × Event labelSig) → Option String
  | [] => none
  | (u, e) :: tr => if u = t then reading e else pendingRead t tr

/-- The threads: reconciliations of the requested volumes, and other clients. -/
def body (request : ℕ → Option String) (client : ℕ → LabelM (Option String)) (t : ℕ) :
    LabelM (Option String) :=
  (request t).elim (client t) reconcile

/-- If a client has just updated an instance, no reconciliation was between its read of the instance
and its write. -/
def Undisturbed (request : ℕ → Option String) (w : World labelSig LabelState) : Prop :=
  ∀ u x labels r tr, w.trace = (u, ⟨.clientUpdate x labels, r⟩) :: tr →
    ∀ t, (request t).isSome → pendingRead t tr ≠ some x

/-- The volumes of the cluster may change at any time. -/
def clusterChange (s s' : LabelState) : Prop := s'.instances = s.instances

/-! ## The contract -/

/-- Up to the label that reconciliations set, the instance has the same labels. -/
def SameBut (x : String) (s s' : LabelState) : Prop :=
  ∀ k, k ≠ managedByLabelKey → (labelsOf s' x).lookup k = (labelsOf s x).lookup k

/-- Labels are as they are. -/
theorem SameBut.refl (x : String) (s : LabelState) : SameBut x s s := fun _ _ => rfl

/-- What two writes leave, both together leave. -/
theorem SameBut.trans {s₁ s₂ s₃ : LabelState} (h : SameBut x s₁ s₂) (h' : SameBut x s₂ s₃) :
    SameBut x s₁ s₃ := fun k hk => (h' k hk).trans (h k hk)

variable (request : ℕ → Option String) (s₀ : LabelState)

/-- A reconciliation relies on the instance between its read and its write; only the update of a
client changes more than the label `managed-by`. -/
def labelContract : Contract labelSig LabelState where
  inv w := Kept s₀ w ∧ ∀ x, Respects (written s₀ x w.trace)
  rely t w w' := (request t).isSome → pendingRead t w'.trace = pendingRead t w.trace ∧
    ∀ x, pendingRead t w.trace = some x → SameBut x w.state w'.state
  guar t w e w' := w'.trace = (t, e) :: w.trace ∧
    ∀ x, SameBut x w.state w'.state ∨ ∃ labels, e.1 = .clientUpdate x labels
  rely_refl _ w := fun _ => ⟨rfl, fun x _ => .refl x w.state⟩
  rely_trans _ _ _ _ h h' := fun ht =>
    ⟨((h' ht).1.trans (h ht).1), fun x hx =>
      ((h ht).2 x hx).trans ((h' ht).2 x ((h ht).1.trans hx))⟩

variable {request s₀} {t : ℕ} {w : World labelSig LabelState} {e : Event labelSig} {s' : LabelState}

/-- Only the updates of clients count as written. -/
theorem written_cons (he : ∀ x labels, e.1 ≠ .clientUpdate x labels) (x : String)
    (tr : List (ℕ × Event labelSig)) : written s₀ x ((t, e) :: tr) = written s₀ x tr := by
  obtain ⟨o, r⟩ := e
  cases o with
  | clientUpdate y labels => exact absurd rfl (he y labels)
  | _ => rfl

/-- The latest operation of the thread decides what it has read. -/
theorem pendingRead_self (tr : List (ℕ × Event labelSig)) :
    pendingRead t ((t, e) :: tr) = reading e := if_pos rfl

/-- The same instances have the same labels. -/
theorem labelsOf_congr (h : s'.instances = s.instances) (x : String) :
    labelsOf s' x = labelsOf s x := by rw [labelsOf, h, labelsOf]

/-- The labels of other instances. -/
theorem labelsOf_setLabels_of_ne {y : String} (labels : StrMap) (h : y ≠ x) :
    labelsOf (s.setLabels x labels) y = labelsOf s y := by
  simp only [labelsOf, LabelState.setLabels, if_neg h]

/-- The labels of an instance after a write. -/
theorem labelsOf_setLabels_self (labels : StrMap) (h : (s.instances x).isSome) :
    labelsOf (s.setLabels x labels) x = labels := by
  obtain ⟨i, hi⟩ := Option.isSome_iff_exists.mp h
  simp only [labelsOf, LabelState.setLabels, if_true, hi, Option.map_some, Option.getD_some]

/-- There is nothing to write where there is no instance. -/
theorem setLabels_missing (labels : StrMap) (h : ¬(s.instances x).isSome) :
    (s.setLabels x labels).instances = s.instances := by
  have hnone : s.instances x = none := by simpa using h
  funext y
  by_cases hy : y = x
  · subst hy
    simp [LabelState.setLabels, hnone]
  · simp [LabelState.setLabels, hy]

/-- A call that leaves the instances alone. -/
theorem keeps_of_instances (he : ∀ x labels, e.1 ≠ .clientUpdate x labels)
    (hs : s'.instances = w.state.instances) (hinv : (labelContract request s₀).inv w) :
    (labelContract request s₀).guar t w e (w.after t e s') ∧
      (labelContract request s₀).inv (w.after t e s') := by
  refine ⟨⟨rfl, fun x => .inl fun k _ => by rw [World.after_state, labelsOf_congr hs]⟩, ?_, ?_⟩
  · intro x k v hk
    rw [World.after_trace, written_cons he] at hk
    rw [World.after_state, labelsOf_congr hs]
    exact hinv.1 x k v hk
  · intro x
    rw [World.after_trace, written_cons he]
    exact hinv.2 x

/-- Writing back labels that, up to `managed-by`, are those of the instance. -/
theorem keeps_of_addManagedBy {labels : StrMap} (he : ∀ x labels, e.1 ≠ .clientUpdate x labels)
    (hsame : ∀ k, k ≠ managedByLabelKey → (labelsOf w.state x).lookup k = labels.lookup k)
    (hinv : (labelContract request s₀).inv w) :
    (labelContract request s₀).guar t w e
        (w.after t e (w.state.setLabels x (addManagedBy labels))) ∧
      (labelContract request s₀).inv (w.after t e (w.state.setLabels x (addManagedBy labels))) := by
  by_cases hx : (w.state.instances x).isSome
  swap
  · exact keeps_of_instances he (setLabels_missing _ hx) hinv
  have hlabels : ∀ k, k ≠ managedByLabelKey →
      (labelsOf (w.state.setLabels x (addManagedBy labels)) x).lookup k =
        (labelsOf w.state x).lookup k := by
    intro k hk
    rw [labelsOf_setLabels_self _ hx, addManagedBy, AList.lookup_insert_ne hk, hsame k hk]
  refine ⟨⟨rfl, fun y => .inl fun k hk => ?_⟩, fun y k v hkv => ?_, fun y => ?_⟩
  · by_cases hy : y = x
    · subst hy
      exact hlabels k hk
    · rw [World.after_state, labelsOf_setLabels_of_ne _ hy]
  · rw [World.after_trace, written_cons he] at hkv
    rw [World.after_state]
    by_cases hy : y = x
    · subst hy
      by_cases hk : k = managedByLabelKey
      · subst hk
        rw [labelsOf_setLabels_self _ hx, addManagedBy, AList.lookup_insert, hinv.2 y v hkv]
      rw [hlabels k hk]
      exact hinv.1 y k v hkv
    · rw [labelsOf_setLabels_of_ne _ hy]
      exact hinv.1 y k v hkv
  · rw [World.after_trace, written_cons he]
    exact hinv.2 y

/-! ## Outcomes of calls -/

section Outcomes

variable {s s' : LabelState} {x : String} {labels : StrMap}

/-- Reading a volume of the cluster changes nothing. -/
theorem step_getPV {name : String} {r : Except ClusterError PersistentVolume}
    (h : s.step (.getPV name) r s') : s' = s := by
  obtain ⟨c, h⟩ := h
  cases c <;> cases h <;> rfl

/-- Reading an instance changes nothing and answers the instance. -/
theorem step_getInstance {r : Except ApiError CloudInstance} (h : s.step (.getInstance x) r s') :
    s' = s ∧ ∀ i, r = .ok i → s.instances x = some i := by
  obtain ⟨c, h⟩ := h
  cases c with
  | ok =>
    simp only [LabelState.exec, Option.some.injEq, Prod.mk.injEq] at h
    obtain ⟨rfl, rfl⟩ := h
    refine ⟨rfl, fun i hi => ?_⟩
    cases hx : s.instances x with
    | none => simp [hx] at hi
    | some j =>
      simp only [hx, Except.ok.injEq] at hi
      rw [hi]
  | fail err applied =>
    simp only [LabelState.exec, Option.some.injEq, Prod.mk.injEq] at h
    obtain ⟨rfl, rfl⟩ := h
    exact ⟨rfl, fun i hi => by cases hi⟩
  | _ => cases h

/-- An accepted update has taken effect or has not. -/
theorem step_updateLabels {r : Except ApiError UpdateHandle} (h : s.step (.updateLabels x labels) r s') :
    (s' = s ∧ ∀ handle, r = .ok handle → handle = ⟨x, labels, false⟩) ∨
      (s' = s.setLabels x labels ∧ ∀ handle, r = .ok handle → handle = ⟨x, labels, true⟩) := by
  obtain ⟨c, h⟩ := h
  cases c with
  | ok =>
    simp only [LabelState.exec, Option.some.injEq] at h
    split at h
    · obtain ⟨rfl, rfl⟩ := Prod.mk.inj h
      exact .inr ⟨rfl, fun handle hok => (Except.ok.inj hok).symm⟩
    obtain ⟨rfl, rfl⟩ := Prod.mk.inj h
    exact .inl ⟨rfl, fun handle hok => by cases hok⟩
  | later =>
    simp only [LabelState.exec] at h
    split at h
    · obtain ⟨rfl, rfl⟩ := Prod.mk.inj (Option.some.inj h)
      exact .inl ⟨rfl, fun handle hok => (Except.ok.inj hok).symm⟩
    · cases h
  | fail err applied =>
    simp only [LabelState.exec, Option.some.injEq, Prod.mk.injEq] at h
    obtain ⟨rfl, rfl⟩ := h
    cases applied with
    | true => exact .inr ⟨rfl, fun handle hok => by cases hok⟩
    | false => exact .inl ⟨rfl, fun handle hok => by cases hok⟩
  | failCluster text => cases h

/-- Waiting for an update does nothing, or what the update still has to do. -/
theorem step_waitUpdate {handle : UpdateHandle} {r : Option ApiError}
    (h : s.step (.waitUpdate handle) r s') :
    s' = s ∨ (handle.done = false ∧ s' = s.setLabels handle.target handle.labels) := by
  obtain ⟨c, h⟩ := h
  cases c with
  | ok =>
    simp only [LabelState.exec, Option.some.injEq, Prod.mk.injEq] at h
    obtain ⟨-, rfl⟩ := h
    cases hdone : handle.done with
    | true => exact .inl (by simp)
    | false => exact .inr ⟨rfl, by simp⟩
  | fail err applied =>
    simp only [LabelState.exec, Option.some.injEq, Prod.mk.injEq] at h
    obtain ⟨-, rfl⟩ := h
    cases hdone : handle.done <;> cases applied <;> simp
  | _ => cases h

/-- Another client writes the labels of an instance that exists. -/
theorem step_clientUpdate {r : Unit} (h : s.step (.clientUpdate x labels) r s') :
    (s.instances x).isSome ∧ s' = s.setLabels x labels := by
  obtain ⟨c, h⟩ := h
  cases c with
  | ok =>
    simp only [LabelState.exec] at h
    split at h
    · rename_i hx
      exact ⟨hx, (Prod.mk.inj (Option.some.inj h)).2.symm⟩
    · cases h
  | _ => cases h

end Outcomes

/-! ## Clients and reconciliations -/

/-- The update of a client is what is written from then on. -/
theorem keeps_of_clientUpdate {labels : StrMap} {r : Unit} (hlabels : Respects labels)
    (hstep : w.state.step (.clientUpdate x labels) r s') (hinv : (labelContract request s₀).inv w) :
    (labelContract request s₀).guar t w ⟨.clientUpdate x labels, r⟩
        (w.after t ⟨.clientUpdate x labels, r⟩ s') ∧
      (labelContract request s₀).inv (w.after t ⟨.clientUpdate x labels, r⟩ s') := by
  obtain ⟨hx, rfl⟩ := step_clientUpdate hstep
  have hwritten : ∀ y, written s₀ y ((t, ⟨.clientUpdate x labels, r⟩) :: w.trace) =
      if x = y then labels else written s₀ y w.trace := fun y => rfl
  refine ⟨⟨rfl, fun y => ?_⟩, fun y k v hkv => ?_, fun y => ?_⟩
  · by_cases hy : y = x
    · exact .inr ⟨labels, by rw [hy]⟩
    · exact .inl fun k _ => by rw [World.after_state, labelsOf_setLabels_of_ne _ hy]
  · rw [World.after_trace, hwritten] at hkv
    rw [World.after_state]
    by_cases hy : y = x
    · subst hy
      rw [if_pos rfl] at hkv
      rwa [labelsOf_setLabels_self _ hx]
    rw [if_neg (Ne.symm hy)] at hkv
    rw [labelsOf_setLabels_of_ne _ hy]
    exact hinv.1 y k v hkv
  · rw [World.after_trace, hwritten]
    split
    · exact hlabels
    · exact hinv.2 y

/-- Whatever other clients do, they meet the contract. -/
theorem safe_client {p : LabelM (Option String)} (hp : p.All ClientOp) (w : World labelSig LabelState) :
    Safe LabelState.step t (labelContract request s₀) (fun _ _ => True) p w := by
  induction p generalizing w with
  | ret a => exact fun _ _ _ => trivial
  | call o k ih =>
    intro w' _ hinv r s' hstep
    suffices h : (labelContract request s₀).guar t w' ⟨o, r⟩ (w'.after t ⟨o, r⟩ s') ∧
        (labelContract request s₀).inv (w'.after t ⟨o, r⟩ s') from
      ⟨h.1, h.2, ih r (hp.2 r) _⟩
    cases o with
    | getPV name =>
      obtain rfl := step_getPV hstep
      exact keeps_of_instances (by simp) rfl hinv
    | getInstance x =>
      obtain ⟨rfl, -⟩ := step_getInstance hstep
      exact keeps_of_instances (by simp) rfl hinv
    | clientUpdate x labels => exact keeps_of_clientUpdate hp.1 hstep hinv
    | updateLabels x labels => exact absurd hp.1 id
    | waitUpdate handle => exact absurd hp.1 id

/-- What a reconciliation knows between its read and its write. -/
def Knows (t : ℕ) (x : String) (labels : StrMap) (w : World labelSig LabelState) : Prop :=
  pendingRead t w.trace = some x ∧
    ∀ k, k ≠ managedByLabelKey → (labelsOf w.state x).lookup k = labels.lookup k

/-- What a handler has read stays right while nobody else writes labels of the instance. -/
theorem Knows.stable (ht : (request t).isSome) (x : String) (labels : StrMap) :
    Stable t (labelContract request s₀) (Knows t x labels) := by
  intro w w' hw hrely _
  obtain ⟨hpending, hsame⟩ := hrely ht
  exact ⟨hpending.trans hw.1, fun k hk => (hsame x hw.1 k hk).trans (hw.2 k hk)⟩

/-- The write of a reconciliation. -/
theorem safe_updateInstance (ht : (request t).isSome) {si : ServiceInstance} (labels : StrMap)
    (hlabels : si.labels = addManagedBy labels) (hw : Knows t (instanceFullName si) labels w) :
    Safe LabelState.step t (labelContract request s₀) (fun _ _ => True) (updateInstance si) w := by
  rw [updateInstance, hlabels]
  refine Safe.perform (Knows.stable ht _ _) hw fun w r s' hw hinv hstep => ?_
  rcases step_updateLabels hstep with ⟨rfl, hhandle⟩ | ⟨rfl, hhandle⟩
  · obtain ⟨hguar, hinv'⟩ := keeps_of_instances (e := ⟨.updateLabels _ _, r⟩) (t := t) (by simp) rfl hinv
    refine ⟨hguar, hinv', ?_⟩
    cases r with
    | error err => exact fun _ _ _ => trivial
    | ok handle =>
      obtain rfl := hhandle handle rfl
      have hw' : Knows t (instanceFullName si) labels (w.after t
          ⟨.updateLabels (instanceFullName si) (addManagedBy labels),
            .ok ⟨instanceFullName si, addManagedBy labels, false⟩⟩ w.state) :=
        ⟨pendingRead_self _, hw.2⟩
      refine Safe.call (Knows.stable ht _ _) hw' fun w r s' hw hinv hstep => ?_
      rcases step_waitUpdate hstep with rfl | ⟨-, rfl⟩
      · obtain ⟨hguar, hinv'⟩ :=
          keeps_of_instances (e := ⟨.waitUpdate _, r⟩) (t := t) (by simp) rfl hinv
        exact ⟨hguar, hinv', fun _ _ _ => trivial⟩
      obtain ⟨hguar, hinv'⟩ :=
        keeps_of_addManagedBy (e := ⟨.waitUpdate _, r⟩) (t := t) (by simp) hw.2 hinv
      exact ⟨hguar, hinv', fun _ _ _ => trivial⟩
  · obtain ⟨hguar, hinv'⟩ :=
      keeps_of_addManagedBy (e := ⟨.updateLabels _ _, r⟩) (t := t) (by simp) hw.2 hinv
    refine ⟨hguar, hinv', ?_⟩
    cases r with
    | error err => exact fun _ _ _ => trivial
    | ok handle =>
      obtain rfl := hhandle handle rfl
      intro w' _ hinv r s' hstep
      -- The update has taken effect already.
      rcases step_waitUpdate hstep with rfl | ⟨hdone, -⟩
      · obtain ⟨hguar, hinv'⟩ :=
          keeps_of_instances (e := ⟨.waitUpdate _, r⟩) (t := t) (by simp) rfl hinv
        exact ⟨hguar, hinv', fun _ _ _ => trivial⟩
      · cases hdone

/-- From the read of the instance on. -/
theorem safe_labelInstance (ht : (request t).isSome) (pvName : String) (si : ServiceInstance)
    (w : World labelSig LabelState) :
    Safe LabelState.step t (labelContract request s₀) (fun _ _ => True) (labelInstance pvName si) w := by
  rw [labelInstance, Labels.getInstance, Program.bind_assoc]
  refine Safe.perform .true trivial
    fun w r s' _ hinv hstep => ?_
  obtain ⟨rfl, hread⟩ := step_getInstance hstep
  obtain ⟨hguar, hinv'⟩ :=
    keeps_of_instances (e := ⟨.getInstance (instanceFullName si), r⟩) (t := t) (by simp) rfl hinv
  refine ⟨hguar, hinv', ?_⟩
  cases r with
  | error err =>
    simp only [Program.pure_eq, Program.ret_bind]
    split
    · exact fun _ _ _ => trivial
    · split <;> exact fun _ _ _ => trivial
  | ok i =>
    cases hconv : cloudInstanceToServiceInstance i with
    | error err =>
      simp only [hconv, Program.pure_eq, Program.ret_bind]
      split
      · exact fun _ _ _ => trivial
      · split <;> exact fun _ _ _ => trivial
    | ok reported =>
      simp only [hconv, Program.pure_eq, Program.ret_bind]
      split
      · exact fun _ _ _ => trivial
      rename_i hlabels
      obtain ⟨hname, hsame⟩ := fullName_of_conversion hconv
      have hi := hread i rfl
      have hfull : instanceFullName { reported with labels := addManagedBy reported.labels } =
          instanceFullName si := hname.trans (w.state.named _ _ hi)
      have hknows : Knows t (instanceFullName { reported with labels := addManagedBy reported.labels })
          reported.labels (w.after t ⟨.getInstance (instanceFullName si), .ok i⟩ w.state) := by
        rw [hfull]
        refine ⟨?_, fun k _ => ?_⟩
        · rw [World.after_trace, pendingRead_self]
          simp only [reading, hconv]
          exact if_neg hlabels
        · rw [World.after_state, labelsOf, hi, hsame]
          rfl
      refine Safe.bind (safe_updateInstance ht reported.labels rfl hknows) fun res w _ _ => ?_
      cases res <;> exact fun _ _ _ => trivial

/-- A reconciliation meets the contract. -/
theorem safe_reconcile (ht : (request t).isSome) (name : String) (w : World labelSig LabelState) :
    Safe LabelState.step t (labelContract request s₀) (fun _ _ => True) (reconcile name) w := by
  rw [reconcile]
  refine Safe.perform .true trivial
    fun w r s' _ hinv hstep => ?_
  obtain rfl := step_getPV hstep
  obtain ⟨hguar, hinv'⟩ :=
    keeps_of_instances (e := ⟨.getPV name, r⟩) (t := t) (by simp) rfl hinv
  refine ⟨hguar, hinv', ?_⟩
  cases r with
  | error err => cases err <;> exact fun _ _ _ => trivial
  | ok pv =>
    cases hcsi : pv.csi with
    | none => simp only [hcsi]; exact fun _ _ _ => trivial
    | some csi =>
      simp only [hcsi]
      split
      · exact fun _ _ _ => trivial
      cases volumeIDToInstance csi.volumeHandle with
      | error err => exact fun _ _ _ => trivial
      | ok si => exact safe_labelInstance ht pv.name si _

/-! ## Interleavings -/

/-- As long as clients do not disturb reconciliations, the contract is compatible. -/
theorem labelContract_compatible :
    (labelContract request s₀).CompatibleWhile (Undisturbed request) clusterChange fun _ => True where
  guar_rely t u _ _ hne w e w' _ _ hquiet hguar := by
    intro hu
    obtain ⟨htrace, hsame⟩ := hguar
    refine ⟨by rw [htrace]; exact if_neg hne, fun x hx => ?_⟩
    rcases hsame x with hsame | ⟨labels, he⟩
    · exact hsame
    obtain ⟨o, r⟩ := e
    obtain rfl : o = .clientUpdate x labels := he
    exact absurd hx (hquiet t x labels r w.trace htrace u hu)
  env_inv w s' hinv henv :=
    ⟨fun x k v hk => by rw [labelsOf_congr henv]; exact hinv.1 x k v hk, hinv.2⟩
  env_rely u _ w s' _ henv := fun _ =>
    ⟨rfl, fun x _ k _ => by rw [labelsOf_congr henv]⟩

/-- **No label update is lost as long as clients do not come between the read and the write of a
reconciliation.** Any number of reconciliations and of other clients run interleaved; any call may
fail, with or without its effect. If no client's update of an instance falls between the read of the
instance by a reconciliation and the moment at which the update of the reconciliation takes effect, and
no client sets the label `managed-by` to another value, then at any time every label that clients have
written last is on its instance.

SOURCE: pkg/labelcontroller/label_controller.go:75-114; pkg/cloud_provider/lustre/lustre.go:330-353 -/
theorem labels_kept {client : ℕ → LabelM (Option String)} {c : Config labelSig LabelState (Option String)}
    (hclient : ∀ t, (client t).All ClientOp) (hstart : ∀ x, Respects (labelsOf s₀ x))
    (hrun : RunWhile LabelState.step clusterChange (body request client)
      (fun c => Undisturbed request c.world) (.start s₀) c) : Kept s₀ c.world := by
  have hbody : ∀ t w, True → (labelContract request s₀).inv w →
      Safe LabelState.step t (labelContract request s₀) (fun _ _ => True) (body request client t) w := by
    intro t w _ _
    cases hreq : request t with
    | none =>
      rw [body, hreq]
      exact safe_client (hclient t) w
    | some name =>
      rw [body, hreq]
      exact safe_reconcile (by rw [hreq]; rfl) name w
  have hinit : (labelContract request s₀).inv ⟨s₀, []⟩ := ⟨fun _ _ _ h => h, hstart⟩
  exact (PoolSafe.runWhile (Q := fun _ _ _ => True) labelContract_compatible (fun _ h => h) hbody
    (fun _ _ _ _ _ _ _ _ => trivial) (.start hinit) hrun).1.inv.1

/-! ## A client between read and write -/

section Sample

/-- The labels that a client writes. -/
def owned : StrMap := (AList.singleton "team" "storage").insert "owner" "alice"

/-- Thread 0 reconciles the volume `pv1`, and thread 1 is a client that sets an owner. -/
def pv1Request (t : ℕ) : Option String := if t = 0 then some "pv1" else none

def ownerClient (t : ℕ) : LabelM (Option String) :=
  if t = 1 then perform (.clientUpdate teamInstance.name owned) >>= fun _ => pure none else pure none

/-- What the other client does is what clients do. -/
theorem ownerClient_all (t : ℕ) : (ownerClient t).All ClientOp := by
  unfold ownerClient
  split
  · refine ⟨fun v hv => ?_, fun _ => trivial⟩
    have hnone : owned.lookup managedByLabelKey = none := by decide
    rw [hnone] at hv
    cases hv
  · trivial

/-- The label that reconciliations set is missing at first. -/
theorem respects_teamState (x : String) : Respects (labelsOf teamState x) := by
  intro v hv
  by_cases hx : x = teamInstance.name
  · subst hx
    have hnone : (labelsOf teamState teamInstance.name).lookup managedByLabelKey = none := by decide
    rw [hnone] at hv
    cases hv
  · simp [labelsOf, teamState, hx] at hv

/-- The reconciliation reads the instance, the client sets the owner, and the reconciliation writes
back what it has read. -/
def between : List (Move LabelChoice) :=
  [.spawn 0, .spawn 1, .call 0 .ok, .call 0 .ok, .call 1 .ok, .call 0 .ok, .call 0 .ok, .finish 0]

/-- The client sets the owner first. -/
def before : List (Move LabelChoice) :=
  [.spawn 0, .spawn 1, .call 0 .ok, .call 1 .ok, .call 0 .ok, .call 0 .later, .call 0 .ok, .finish 0]

/-- Whether thread 0 has returned without error, and the owner according to the clients and according
to the instance. -/
def owner (c : Config labelSig LabelState (Option String)) : Bool × Option String × Option String :=
  (match c.slot 0 with
    | .done none => true
    | _ => false,
    (written teamState teamInstance.name c.world.trace).lookup "owner",
    (labelsOf c.world.state teamInstance.name).lookup "owner")

/-- The owner is lost, although nobody has removed it. -/
theorem not_always_kept :
    ∃ (request : ℕ → Option String) (client : ℕ → LabelM (Option String)) (s₀ : LabelState)
      (c : Config labelSig LabelState (Option String)),
      (∀ t, (client t).All ClientOp) ∧ (∀ x, Respects (labelsOf s₀ x)) ∧
      Run LabelState.step clusterChange (body request client) (.start s₀) c ∧
      owner c = (true, some "alice", none) ∧ ¬Kept s₀ c.world := by
  have hplay : (playPool (S := labelSig) LabelState.exec (body pv1Request ownerClient) between
      (.start teamState)).map owner = some (true, some "alice", none) := by decide +kernel
  obtain ⟨c, hc, howner⟩ := Option.map_eq_some_iff.mp hplay
  refine ⟨pv1Request, ownerClient, teamState, c, ownerClient_all, respects_teamState,
    playPool_run (fun _ => trivial) hc, howner, fun hkept => ?_⟩
  simp only [owner, Prod.mk.injEq] at howner
  have hlabel := hkept teamInstance.name "owner" "alice" howner.2.1
  rw [howner.2.2] at hlabel
  cases hlabel

/-- A check for `Undisturbed` that can be evaluated. -/
def undisturbed (c : Config labelSig LabelState (Option String)) : Bool :=
  match c.world.trace with
  | (_, ⟨.clientUpdate x _, _⟩) :: tr => tr.all fun te => pendingRead te.1 tr ≠ some x
  | _ => true

/-- A thread that has done nothing has read nothing. -/
theorem pendingRead_of_forall {tr : List (ℕ × Event labelSig)} (h : ∀ te ∈ tr, te.1 ≠ t) :
    pendingRead t tr = none := by
  induction tr with
  | nil => rfl
  | cons te tr ih =>
    obtain ⟨hne, hrest⟩ := List.forall_mem_cons.mp h
    exact (if_neg hne).trans (ih hrest)

/-- What the test says. -/
theorem undisturbed_of_check {request : ℕ → Option String}
    {c : Config labelSig LabelState (Option String)} (h : undisturbed c = true) :
    Undisturbed request c.world := by
  intro u x labels r tr htrace t _ hpending
  simp only [undisturbed, htrace, List.all_eq_true, decide_eq_true_eq] at h
  by_cases hmem : ∃ te ∈ tr, te.1 = t
  · obtain ⟨te, hte, rfl⟩ := hmem
    exact h te hte hpending
  rw [pendingRead_of_forall fun te hte heq => hmem ⟨te, hte, heq⟩] at hpending
  cases hpending

/-- When the client comes before the read, the owner stays. -/
theorem labels_kept_before :
    ∃ c : Config labelSig LabelState (Option String),
      RunWhile LabelState.step clusterChange (body pv1Request ownerClient)
        (fun c => Undisturbed pv1Request c.world) (.start teamState) c ∧
      owner c = (true, some "alice", some "alice") ∧ Kept teamState c.world := by
  have hplay : (playPoolWhile (S := labelSig) LabelState.exec (body pv1Request ownerClient) undisturbed
      before (.start teamState)).map owner = some (true, some "alice", some "alice") := by
    decide +kernel
  obtain ⟨c, hc, howner⟩ := Option.map_eq_some_iff.mp hplay
  have hrun : RunWhile LabelState.step clusterChange (body pv1Request ownerClient)
      (fun c => Undisturbed pv1Request c.world) (.start teamState) c :=
    (playPoolWhile_run (fun _ => undisturbed_of_check) hc).2
  exact ⟨c, hrun, howner, labels_kept ownerClient_all respects_teamState hrun⟩

end Sample

end LustreCsi.Analysis.LabelWrites
