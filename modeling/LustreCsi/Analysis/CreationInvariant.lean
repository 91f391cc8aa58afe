import LustreCsi.Interface.ControllerRuns

/-!
# What the backend keeps of creations

While no instance is deleted or resized, the instances and the listed operations of the backend
agree (`Accounted`): a name has one creation at most, its instance is there while it is pending or
has succeeded, and gone once it has failed. `creationResources` says what the lock of a volume name
protects: that a name that is not in use stays so.
-/

set_option autoImplicit false

namespace LustreCsi.Analysis.CreationInvariant

open LustreCsi.Computation Model Interface

variable {n : String} {j : ℕ}

/-- The operation with index `k` creates the instance of the given name. -/
structure CreatesAt (s : CloudState) (k : ℕ) (n : String) (o : Operation) : Prop where
  listed : s.operations[k]? = some o
  work : o.work = some .create
  target : o.target = n

/-- The number of creations of a name that were accepted. -/
def creations (s : CloudState) (n : String) : ℕ :=
  s.operations.countP fun o => o.work = some .create ∧ o.target = n

/-- Instances and operations agree. -/
structure Accounted (s : CloudState) : Prop where
  once : ∀ n j k o o', CreatesAt s j n o → CreatesAt s k n o' → j = k
  named : ∀ n k o, CreatesAt s k n o →
    ∃ id, validParent o.parent = true ∧ validInstanceID id = true ∧ n = nameBelow o.parent id
  failed : ∀ n k o code message, CreatesAt s k n o → o.progress = .failed code message →
    code ≠ .ok ∧ s.find n = none
  pending : ∀ n k o, CreatesAt s k n o → o.progress = .pending →
    ∃ i, s.find n = some i ∧ i.state = .creating
  succeeded : ∀ n k o, CreatesAt s k n o → o.progress = .succeeded →
    ∃ i, s.find n = some i ∧ i.state = .active
  /-- Nothing is being deleted or resized. -/
  others : ∀ (k : ℕ) (o : Operation), s.operations[k]? = some o → o.progress = .pending →
    o.work = some .create ∨ o.work = none
  /-- The API reports the instances that it has created in a form that the driver accepts. -/
  converted : ∀ n k o i, CreatesAt s k n o → s.find n = some i →
    ∃ si, cloudInstanceToServiceInstance i = .ok si

/-- There is no instance of the name, and none was ever created. -/
structure Unused (s : CloudState) (n : String) : Prop where
  missing : s.find n = none
  uncreated : ∀ k o, ¬CreatesAt s k n o

/-- What every step keeps: active instances, operations that have ended, and what was asked for
when an instance was created. -/
structure Advances (s s' : CloudState) : Prop where
  active : ∀ n i, s.find n = some i → i.state = .active → s'.find n = some i
  operation : ∀ (k : ℕ) (o : Operation), s.operations[k]? = some o →
    ∃ o', s'.operations[k]? = some o' ∧ o'.parent = o.parent ∧ o'.target = o.target ∧
      o'.work = o.work ∧ (o.progress ≠ .pending → o' = o)
  echoed : ∀ n k o i', CreatesAt s k n o → s'.find n = some i' →
    ∃ i, s.find n = some i ∧ i'.toInstanceSpec = i.toInstanceSpec

/-- Nothing is lost where nothing happens. -/
theorem Advances.refl (s : CloudState) : Advances s s :=
  ⟨fun _ _ h _ => h, fun _ o h => ⟨o, h, rfl, rfl, rfl, fun _ => rfl⟩, fun _ _ _ i _ h => ⟨i, h, rfl⟩⟩

/-- A listed creation stays listed. -/
theorem Advances.createsAt {s s' : CloudState} (h : Advances s s') {k : ℕ} {o : Operation}
    (hc : CreatesAt s k n o) : ∃ o', CreatesAt s' k n o' := by
  obtain ⟨o', ho', -, ht, hw, -⟩ := h.operation k o hc.listed
  exact ⟨o', ho', hw.trans hc.work, ht.trans hc.target⟩

/-- What two steps keep, both together keep. -/
theorem Advances.trans {s₁ s₂ s₃ : CloudState} (h : Advances s₁ s₂) (h' : Advances s₂ s₃) :
    Advances s₁ s₃ where
  active n i hi ha := h'.active n i (h.active n i hi ha) ha
  operation k o ho := by
    obtain ⟨o', ho', hp, ht, hw, hend⟩ := h.operation k o ho
    obtain ⟨o'', ho'', hp', ht', hw', hend'⟩ := h'.operation k o' ho'
    refine ⟨o'', ho'', hp'.trans hp, ht'.trans ht, hw'.trans hw, fun hne => ?_⟩
    obtain rfl := hend hne
    exact hend' hne
  echoed n k o i'' hc hi'' := by
    obtain ⟨o', hc'⟩ := h.createsAt hc
    obtain ⟨i', hi', hspec'⟩ := h'.echoed n k o' i'' hc' hi''
    obtain ⟨i, hi, hspec⟩ := h.echoed n k o i' hc hi'
    exact ⟨i, hi, hspec'.trans hspec⟩

/-- What the lock of a volume name protects: names of instances that are not in use stay so. -/
def KeepsUnused (x : String) (s s' : CloudState) : Prop :=
  ∀ parent, validParent parent = true → validInstanceID x = true →
    Unused s (nameBelow parent x) → Unused s' (nameBelow parent x)

/-- The resources of the handlers of `CreateVolume`. -/
def creationResources : Resources CloudState String where
  inv := Accounted
  mono := Advances
  keeps := KeepsUnused
  mono_refl := Advances.refl
  mono_trans _ _ _ := Advances.trans
  keeps_refl _ _ _ _ _ h := h
  keeps_trans _ _ _ _ h h' parent hp hx hu := h' parent hp hx (h parent hp hx hu)

/-! ## States that differ in the lock set -/

/-- The lock set does not matter for creations. -/
theorem createsAt_locks {s : CloudState} {l : Finset String} {k : ℕ} {o : Operation} :
    CreatesAt { s with locks := l } k n o ↔ CreatesAt s k n o :=
  ⟨fun h => ⟨h.listed, h.work, h.target⟩, fun h => ⟨h.listed, h.work, h.target⟩⟩

/-- The lock set does not matter for instances. -/
theorem find_locks (s : CloudState) (l : Finset String) (n : String) :
    { s with locks := l }.find n = s.find n := rfl

/-- The lock set does not matter for the resources. -/
theorem ignoresLocks_creationResources : IgnoresLocks creationResources := by
  intro s l hi
  refine ⟨⟨?_, ?_, ?_, ?_, ?_, hi.others, ?_⟩, ⟨fun _ _ h _ => h, ?_, ?_⟩, fun x parent hp hx hu => ?_⟩
  · simpa only [createsAt_locks] using hi.once
  · simpa only [createsAt_locks] using hi.named
  · simpa only [createsAt_locks, find_locks] using hi.failed
  · simpa only [createsAt_locks, find_locks] using hi.pending
  · simpa only [createsAt_locks, find_locks] using hi.succeeded
  · simpa only [createsAt_locks, find_locks] using hi.converted
  · exact fun _ o h => ⟨o, h, rfl, rfl, rfl, fun _ => rfl⟩
  · exact fun _ _ _ i _ h => ⟨i, h, rfl⟩
  · exact ⟨hu.missing, fun k o h => hu.uncreated k o (createsAt_locks.mp h)⟩

/-! ## The number of creations -/

/-- A list in which at most one position satisfies a predicate has at most one such element. -/
theorem countP_le_one {α : Type} {p : α → Bool} {l : List α}
    (h : l.Pairwise fun a b => ¬(p a = true ∧ p b = true)) : l.countP p ≤ 1 := by
  induction h with
  | nil => simp
  | @cons a l ha _ ih =>
    by_cases hp : p a = true
    · have hzero : l.countP p = 0 :=
        List.countP_eq_zero.mpr fun b hb hpb => ha b hb ⟨hp, hpb⟩
      simp [hp, hzero]
    · simpa [hp] using ih

/-- At most one creation of each name was accepted. -/
theorem Accounted.creations_le_one {s : CloudState} (h : Accounted s) (n : String) :
    creations s n ≤ 1 := by
  refine countP_le_one (List.pairwise_iff_getElem.mpr fun i j hi hj hij hboth => ?_)
  simp only [decide_eq_true_eq] at hboth
  obtain ⟨⟨hwi, hti⟩, ⟨hwj, htj⟩⟩ := hboth
  have heq := h.once n i j _ _ ⟨List.getElem?_eq_getElem hi, hwi, hti⟩
    ⟨List.getElem?_eq_getElem hj, hwj, htj⟩
  omega

/-! ## The end of an operation -/

/-- A created instance when its operation succeeds. -/
def activated (ip : String) (i : CloudInstance) : CloudInstance :=
  { i with state := .active, mountPoint := s!"{ip}@tcp:/{i.filesystem}" }

/-- What the end of an operation can be, while only creations are pending. -/
inductive Ended (s : CloudState) (k : ℕ) (o : Operation) (s' : CloudState) : Progress → Prop where
  | other (progress : Progress) (hw : o.work = none) (hp : progress ≠ .pending)
      (hfind : ∀ n, s'.find n = s.find n) : Ended s k o s' progress
  | succeeded (ip : String) (hw : o.work = some .create)
      (hfind : ∀ n, s'.find n = if n = o.target then (s.find n).map (activated ip) else s.find n) :
      Ended s k o s' .succeeded
  | failed (code : Code) (message : String) (hcode : code ≠ .ok) (hw : o.work = some .create)
      (hfind : ∀ n, s'.find n = if n = o.target then none else s.find n) :
      Ended s k o s' (.failed code message)

/-- What the end of an operation changes. -/
theorem ended_of_complete {s s' : CloudState} (h : Accounted s) {k : ℕ} {ending : Ending}
    (hc : s.complete k ending = some s') :
    ∃ o progress, s.operations[k]? = some o ∧ o.progress = .pending ∧
      s'.operations = s.operations.set k { o with progress := progress } ∧
      Ended s k o s' progress := by
  obtain ⟨o, ho, hpending, hend⟩ := complete_eq_some hc
  rcases h.others k o ho hpending with hw | hw
  · rcases hend with ⟨ip, -, rfl⟩ | ⟨code, message, -, rfl⟩
    · refine ⟨o, .succeeded, ho, hpending, ?_, .succeeded ip hw fun n => ?_⟩
      · simp [hw, CloudState.setProgress]
      · simp only [hw, Option.elim_some]
        exact find_modify s o.target n (fun _ => rfl)
    · refine ⟨o, .failed code message, ho, hpending, ?_, .failed code message code.2 hw fun n => ?_⟩
      · simp [hw, CloudState.setProgress]
      · simp only [hw, Option.elim_some]
        exact find_remove s o.target n
  · rcases hend with ⟨ip, -, rfl⟩ | ⟨code, message, -, rfl⟩
    · refine ⟨o, .succeeded, ho, hpending, ?_, .other _ hw (by simp) fun n => ?_⟩
      · simp [hw, CloudState.setProgress]
      · simp [hw, CloudState.setProgress, CloudState.find]
    · refine ⟨o, .failed code message, ho, hpending, ?_, .other _ hw (by simp) fun n => ?_⟩
      · simp [hw, CloudState.setProgress]
      · simp [hw, CloudState.setProgress, CloudState.find]

section Complete

variable {s s' : CloudState} {k : ℕ} {o : Operation} {progress : Progress}
  (ho : s.operations[k]? = some o)
  (hops : s'.operations = s.operations.set k { o with progress := progress })
include ho hops

/-- The creations after the end of an operation are those before. -/
theorem createsAt_of_set {o' : Operation} (h : CreatesAt s' j n o') :
    (j = k ∧ o' = { o with progress := progress } ∧ CreatesAt s k n o) ∨
      (j ≠ k ∧ CreatesAt s j n o') := by
  have hlisted := h.listed
  rw [hops, List.getElem?_set] at hlisted
  split at hlisted
  · rename_i hjk
    split at hlisted
    · simp only [Option.some.injEq] at hlisted
      subst hlisted
      exact .inl ⟨hjk.symm, rfl, ho, h.work, h.target⟩
    · simp at hlisted
  · rename_i hjk
    exact .inr ⟨fun heq => hjk heq.symm, hlisted, h.work, h.target⟩

/-- The end of a pending operation leaves parent, target and work of all operations. -/
theorem advances_operation_of_set (hpending : o.progress = .pending) (j : ℕ) (oj : Operation)
    (hj : s.operations[j]? = some oj) :
    ∃ o', s'.operations[j]? = some o' ∧ o'.parent = oj.parent ∧ o'.target = oj.target ∧
      o'.work = oj.work ∧ (oj.progress ≠ .pending → o' = oj) := by
  have hlen : k < s.operations.length := (List.getElem?_eq_some_iff.mp ho).1
  by_cases hjk : j = k
  · subst hjk
    obtain rfl : o = oj := by simpa [ho] using hj
    exact ⟨{ o with progress := progress }, by simp [hops, hlen], rfl, rfl, rfl,
      fun hne => absurd hpending hne⟩
  · refine ⟨oj, ?_, rfl, rfl, rfl, fun _ => rfl⟩
    rw [hops, List.getElem?_set_ne (Ne.symm hjk), hj]

/-- A creation that is listed after the end of an operation was listed before. -/
theorem exists_createsAt_of_set {o' : Operation} (h : CreatesAt s' j n o') :
    ∃ o₀, CreatesAt s j n o₀ ∧ o₀.parent = o'.parent := by
  rcases createsAt_of_set ho hops h with ⟨rfl, rfl, hk⟩ | ⟨-, hj⟩
  · exact ⟨o, hk, rfl⟩
  · exact ⟨o', hj, rfl⟩

end Complete

section Ended

variable {s s' : CloudState} {k : ℕ} {o : Operation} {progress : Progress}

/-- An operation that has ended is not pending. -/
theorem Ended.progress_ne (h : Ended s k o s' progress) : progress ≠ .pending := by
  cases h with
  | other _ _ hp _ => exact hp
  | succeeded _ _ _ => simp
  | failed _ _ _ _ _ => simp

/-- The end of an operation changes no instance but the one that it creates. -/
theorem Ended.find_of_ne (h : Ended s k o s' progress) (hn : o.work = some .create → n ≠ o.target) :
    s'.find n = s.find n := by
  cases h with
  | other _ _ _ hfind => exact hfind n
  | succeeded _ hw hfind | failed _ _ _ hw hfind => rw [hfind, if_neg (hn hw)]

/-- An instance that is there when an operation ends was there before, and is as it was asked
for. -/
theorem Ended.find_eq_some (h : Ended s k o s' progress) {i' : CloudInstance}
    (hi' : s'.find n = some i') :
    ∃ i, s.find n = some i ∧ (i' = i ∨ ∃ ip, i' = activated ip i) := by
  cases h with
  | other _ _ _ hfind => exact ⟨i', by rw [← hfind, hi'], .inl rfl⟩
  | succeeded ip _ hfind =>
    rw [hfind] at hi'
    split at hi'
    · obtain ⟨i, hi, rfl⟩ := Option.map_eq_some_iff.mp hi'
      exact ⟨i, hi, .inr ⟨ip, rfl⟩⟩
    · exact ⟨i', hi', .inl rfl⟩
  | failed _ _ _ _ hfind =>
    rw [hfind] at hi'
    split at hi'
    · simp at hi'
    · exact ⟨i', hi', .inl rfl⟩

/-- The end of an operation makes no instance. -/
theorem Ended.find_eq_none (h : Ended s k o s' progress) (hn : s.find n = none) :
    s'.find n = none := by
  cases hi' : s'.find n with
  | none => rfl
  | some i' =>
    obtain ⟨i, hi, -⟩ := h.find_eq_some hi'
    simp [hn] at hi

end Ended

/-- An instance that the driver accepts while it is being created, it accepts as well when it is
active. -/
theorem converted_activated {i : CloudInstance} {si : ServiceInstance} (ip : String)
    (h : cloudInstanceToServiceInstance i = .ok si) :
    ∃ si', cloudInstanceToServiceInstance (activated ip i) = .ok si' := by
  obtain ⟨p, l, n, ip', hp, hl, hn, hname, -, -⟩ := cloudInstanceToServiceInstance_eq_ok.mp h
  have hat : '@' ∈ (activated ip i).mountPoint.toList := by
    have hmount : (activated ip i).mountPoint = ip ++ "@tcp:/" ++ i.filesystem := rfl
    simp [hmount]
  obtain ⟨ip'', hip⟩ := exists_parseInstanceIP (.inr hat)
  exact ⟨_, cloudInstanceToServiceInstance_eq_ok.mpr ⟨p, l, n, ip'', hp, hl, hn, hname, hip, rfl⟩⟩

section BackendStep

variable {s s' : CloudState} {k : ℕ} {ending : Ending}

/-- The end of an operation keeps instances and operations in agreement. -/
theorem accounted_complete (h : Accounted s) (hc : s.complete k ending = some s') :
    Accounted s' := by
  obtain ⟨o, progress, ho, hpending, hops, hend⟩ := ended_of_complete h hc
  -- A creation with another index is one of another name.
  have hsame : ∀ {j n o'}, j ≠ k → CreatesAt s j n o' → s'.find n = s.find n := by
    intro j n o' hjk hj
    refine hend.find_of_ne fun hw hn => hjk ?_
    exact h.once n j k o' o hj ⟨ho, hw, hn.symm⟩
  constructor
  · intro n i j o₁ o₂ h₁ h₂
    obtain ⟨o₁', h₁', -⟩ := exists_createsAt_of_set ho hops h₁
    obtain ⟨o₂', h₂', -⟩ := exists_createsAt_of_set ho hops h₂
    exact h.once n i j _ _ h₁' h₂'
  · intro n j o' hj
    obtain ⟨o₀, h₀, hparent⟩ := exists_createsAt_of_set ho hops hj
    exact hparent ▸ h.named n j o₀ h₀
  · intro n j o' code message hj hfailed
    rcases createsAt_of_set ho hops hj with ⟨rfl, rfl, hk⟩ | ⟨hjk, hj'⟩
    · subst hfailed
      cases hend with
      | other _ hw => simp [hk.work] at hw
      | failed _ _ hcode _ hfind => exact ⟨hcode, by rw [hfind, if_pos hk.target.symm]⟩
    · obtain ⟨hcode, hnone⟩ := h.failed n j o' code message hj' hfailed
      exact ⟨hcode, hend.find_eq_none hnone⟩
  · intro n j o' hj hp
    rcases createsAt_of_set ho hops hj with ⟨rfl, rfl, hk⟩ | ⟨hjk, hj'⟩
    · exact absurd hp hend.progress_ne
    rw [hsame hjk hj']
    exact h.pending n j o' hj' hp
  · intro n j o' hj hs
    rcases createsAt_of_set ho hops hj with ⟨rfl, rfl, hk⟩ | ⟨hjk, hj'⟩
    · subst hs
      obtain ⟨i, hi, -⟩ := h.pending n j o hk hpending
      cases hend with
      | other _ hw => simp [hk.work] at hw
      | succeeded ip _ hfind =>
        exact ⟨activated ip i, by rw [hfind, if_pos hk.target.symm, hi]; rfl, rfl⟩
    · rw [hsame hjk hj']
      exact h.succeeded n j o' hj' hs
  · intro j o' hj hp
    rw [hops, List.getElem?_set] at hj
    split at hj
    · split at hj
      · simp only [Option.some.injEq] at hj
        subst hj
        exact absurd hp hend.progress_ne
      · simp at hj
    · exact h.others j o' hj hp
  · intro n j o' i' hj hi'
    obtain ⟨o₀, h₀, -⟩ := exists_createsAt_of_set ho hops hj
    obtain ⟨i, hi, rfl | ⟨ip, rfl⟩⟩ := hend.find_eq_some hi'
    · exact h.converted n j o₀ i' h₀ hi
    · obtain ⟨si, hsi⟩ := h.converted n j o₀ i h₀ hi
      exact converted_activated ip hsi

/-- The end of an operation loses nothing that is settled. -/
theorem advances_complete (h : Accounted s) (hc : s.complete k ending = some s') :
    Advances s s' := by
  obtain ⟨o, progress, ho, hpending, hops, hend⟩ := ended_of_complete h hc
  refine ⟨fun n i hi hactive => ?_, advances_operation_of_set ho hops hpending,
    fun n j o' i' hj hi' => ?_⟩
  · -- The instance of a pending creation is not active.
    rw [hend.find_of_ne fun hw hn => ?_, hi]
    obtain ⟨i', hi', hcreating⟩ := h.pending n k o ⟨ho, hw, hn.symm⟩ hpending
    obtain rfl : i = i' := by simpa [hi] using hi'
    simp [hactive] at hcreating
  · obtain ⟨i, hi, rfl | ⟨ip, rfl⟩⟩ := hend.find_eq_some hi'
    · exact ⟨i', hi, rfl⟩
    · exact ⟨i, hi, rfl⟩

/-- The end of an operation brings no unused name into use. -/
theorem keepsUnused_complete (h : Accounted s) (hc : s.complete k ending = some s') (x : String) :
    KeepsUnused x s s' := by
  obtain ⟨o, progress, ho, -, hops, hend⟩ := ended_of_complete h hc
  intro parent _ _ hu
  refine ⟨hend.find_eq_none hu.missing, fun j o' hj => ?_⟩
  obtain ⟨o₀, h₀, -⟩ := exists_createsAt_of_set ho hops hj
  exact hu.uncreated j o₀ h₀

/-- The backend's own steps keep what the locks protect. -/
theorem envKeeps_creationResources :
    creationResources.EnvKeeps ctrlLocks CloudState.Progresses where
  locked := by
    rintro s s' ⟨k, ending, h⟩
    simp only [ctrlLocks, complete_locks h]
  inv := by
    rintro s s' hi ⟨k, ending, h⟩
    exact accounted_complete hi h
  mono := by
    rintro s s' hi ⟨k, ending, h⟩
    exact advances_complete hi h
  keeps := by
    rintro x s s' hi ⟨k, ending, h⟩
    exact keepsUnused_complete hi h x

end BackendStep

/-! ## The acceptance of a creation -/

section Accept

variable {s : CloudState} {parent id : String} {spec : InstanceSpec}

/-- The creations after an acceptance are those before, and the new one. -/
theorem createsAt_accept {o : Operation} (h : CreatesAt (s.accept parent id spec) j n o) :
    CreatesAt s j n o ∨ (j = s.operations.length ∧ n = nameBelow parent id ∧
      o = ⟨parent, nameBelow parent id, some .create, .pending⟩) := by
  have hlisted := h.listed
  simp only [CloudState.accept, CloudState.addOperation, List.getElem?_append] at hlisted
  split at hlisted
  · exact .inl ⟨hlisted, h.work, h.target⟩
  rename_i hlen
  rw [List.getElem?_singleton] at hlisted
  split at hlisted
  · simp only [Option.some.injEq] at hlisted
    exact .inr ⟨by omega, by rw [← h.target, ← hlisted], hlisted.symm⟩
  · simp at hlisted

/-- The operation of the accepted creation. -/
theorem createsAt_accept_self :
    CreatesAt (s.accept parent id spec) s.operations.length (nameBelow parent id)
      ⟨parent, nameBelow parent id, some .create, .pending⟩ :=
  ⟨by simp [CloudState.accept, CloudState.addOperation], rfl, rfl⟩

/-- Operations from before keep their places when a creation is accepted. -/
theorem accept_operation_of_lt {o : Operation} (h : s.operations[j]? = some o) :
    (s.accept parent id spec).operations[j]? = some o := by
  have hlen : j < s.operations.length := (List.getElem?_eq_some_iff.mp h).1
  simp only [CloudState.accept, CloudState.addOperation]
  rw [List.getElem?_append_left hlen, h]

/-- The acceptance of a creation for a name that was never created keeps instances and operations
in agreement. -/
theorem accounted_accept (h : Accounted s) (hc : s.creatable parent id = true)
    (hu : ∀ k o, ¬CreatesAt s k (nameBelow parent id) o) : Accounted (s.accept parent id spec) := by
  simp only [CloudState.creatable, Bool.and_eq_true] at hc
  obtain ⟨⟨hparent, hid⟩, -⟩ := hc
  have hsame : ∀ {j n o}, CreatesAt s j n o → (s.accept parent id spec).find n = s.find n := by
    intro j n o hj
    rw [find_accept, if_neg]
    rintro rfl
    exact hu j o hj
  constructor
  · intro n i j o₁ o₂ h₁ h₂
    rcases createsAt_accept h₁ with h₁' | ⟨rfl, rfl, -⟩
    · rcases createsAt_accept h₂ with h₂' | ⟨-, rfl, -⟩
      · exact h.once n i j o₁ o₂ h₁' h₂'
      · exact absurd h₁' (hu i o₁)
    rcases createsAt_accept h₂ with h₂' | ⟨rfl, -, -⟩
    · exact absurd h₂' (hu j o₂)
    · rfl
  · intro n j o hj
    rcases createsAt_accept hj with hj' | ⟨-, rfl, rfl⟩
    · exact h.named n j o hj'
    · exact ⟨id, hparent, hid, rfl⟩
  · intro n j o code message hj hfailed
    rcases createsAt_accept hj with hj' | ⟨-, -, rfl⟩
    · rw [hsame hj']
      exact h.failed n j o code message hj' hfailed
    · cases hfailed
  · intro n j o hj hp
    rcases createsAt_accept hj with hj' | ⟨-, rfl, -⟩
    · rw [hsame hj']
      exact h.pending n j o hj' hp
    · exact ⟨_, by rw [find_accept, if_pos rfl], rfl⟩
  · intro n j o hj hs
    rcases createsAt_accept hj with hj' | ⟨-, -, rfl⟩
    · rw [hsame hj']
      exact h.succeeded n j o hj' hs
    · cases hs
  · intro j o hj hp
    simp only [CloudState.accept, CloudState.addOperation, List.getElem?_append] at hj
    split at hj
    · exact h.others j o hj hp
    obtain ⟨-, rfl⟩ : _ ∧ _ = o := by simpa [List.getElem?_singleton] using hj
    exact .inl rfl
  · intro n j o i hj hi
    rcases createsAt_accept hj with hj' | ⟨-, rfl, -⟩
    · rw [hsame hj'] at hi
      exact h.converted n j o i hj' hi
    rw [find_accept, if_pos rfl, Option.some.injEq] at hi
    subst hi
    obtain ⟨p, l, hp, hl, rfl⟩ := exists_of_validParent hparent
    exact ⟨_, cloudInstanceToServiceInstance_eq_ok.mpr ⟨p, l, id, "", hp, hl,
      component_of_validInstanceID hid, nameBelow_eq p l id, rfl, rfl⟩⟩

/-- A creation that is accepted loses nothing that is settled. -/
theorem advances_accept (hc : s.creatable parent id = true)
    (hu : ∀ k o, ¬CreatesAt s k (nameBelow parent id) o) :
    Advances s (s.accept parent id spec) := by
  simp only [CloudState.creatable, Bool.and_eq_true, Option.isNone_iff_eq_none] at hc
  refine ⟨fun n i hi _ => ?_, fun j o hj => ?_, fun n j o i hj hi => ?_⟩
  · rw [find_accept, if_neg, hi]
    rintro rfl
    simp [hc.2] at hi
  · exact ⟨o, accept_operation_of_lt hj, rfl, rfl, rfl, fun _ => rfl⟩
  · rw [find_accept, if_neg] at hi
    · exact ⟨i, hi, rfl⟩
    · rintro rfl
      exact hu j o hj

/-- The acceptance of a creation concerns one instance ID only. -/
theorem keepsUnused_accept (hid : validInstanceID id = true) {x : String} (hx : x ≠ id) :
    KeepsUnused x s (s.accept parent id spec) := by
  intro parent' _ hvalid hu
  have hne : nameBelow parent' x ≠ nameBelow parent id := fun heq =>
    hx (nameBelow_inj (component_of_validInstanceID hvalid) (component_of_validInstanceID hid) heq).2
  refine ⟨by rw [find_accept, if_neg hne, hu.missing], fun j o hj => ?_⟩
  rcases createsAt_accept hj with hj' | ⟨-, heq, -⟩
  · exact hu.uncreated j o hj'
  · exact hne heq

end Accept

end LustreCsi.Analysis.CreationInvariant
