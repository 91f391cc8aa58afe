import LustreCsi.Analysis.CreationInvariant
import LustreCsi.Interface.ControllerSample
import LustreCsi.Interface.Text

/-!
# One creation for each instance

Under the lock of the volume name `CreateVolume` looks for the instance, then for an operation that
failed to create it, and only then asks the API to create it. `single_creation`, for any number of
handlers and any schedule: a creation is asked for only under a name that was never created; after
one that failed all handlers answer with an error; and once the instance is active, a repetition of
the request answers with it.
-/

set_option autoImplicit false

namespace LustreCsi.Analysis.SingleCreation

open LustreCsi.Computation Model Interface CreationInvariant

variable {r : Except Status (Option Volume)} {U : Unicode} {op : Operation} {k : ℕ}

/-! ## What a handler knows -/

section Assertions

variable (ni : ServiceInstance)

/-- The API accepts the names of the instance. -/
def Nameable : Prop :=
  validParent (locationName ni.project ni.location) = true ∧ validInstanceID ni.name = true

/-- The name of the instance is not in use, unless the API does not accept it anyway. -/
def Free (s : CloudState) : Prop := Nameable ni → Unused s (instanceFullName ni)

/-- The creation of the instance has failed. -/
def Failed (s : CloudState) : Prop :=
  ∃ k o code message, CreatesAt s k (instanceFullName ni) o ∧ o.progress = .failed code message

/-- The name of the instance is not in use, or its creation has failed. -/
def FreeOrFailed (s : CloudState) : Prop := Nameable ni → Unused s (instanceFullName ni) ∨ Failed ni s

/-- The instance is active and is what the driver sees as `si`. -/
def ActiveAs (si : ServiceInstance) (s : CloudState) : Prop :=
  ∃ i, s.find (instanceFullName ni) = some i ∧ i.state = .active ∧
    cloudInstanceToServiceInstance i = .ok si

/-- What the lookup of the instance tells. -/
def LookedUp : Except ApiError ServiceInstance → CloudState → Prop
  | .ok si, s => si.state = some .active → ActiveAs ni si s
  | .error err, s => isNotFoundErr err = true → FreeOrFailed ni s

/-- What the search for a failed creation tells. -/
def Searched : Except ApiError (Option Operation) → CloudState → Prop
  | .ok op, s => (∀ code message, op.bind Operation.error? = some (code, message) → code ≠ .ok) ∧
      (op.bind Operation.error? = none → Free ni s)
  | .error _, _ => True

/-- What `CreateInstance` tells. -/
def Made : Except ApiError ServiceInstance → CloudState → Prop
  | .ok si, s => ActiveAs ni si s
  | .error _, _ => True

/-- A handler that succeeds answers with the active instance. -/
def Answered (r : Except Status (Option Volume)) (s : CloudState) : Prop :=
  ∀ ov, r = .ok ov → ∃ si, ActiveAs ni si s ∧ ov = some (instanceToCSIVolume si)

end Assertions

section Stability

variable {ni : ServiceInstance} {s s' : CloudState}

/-- An active instance stays so as the cloud advances. -/
theorem ActiveAs.advances {si : ServiceInstance} (h : ActiveAs ni si s) (ha : Advances s s') :
    ActiveAs ni si s' := by
  obtain ⟨i, hi, hactive, hconv⟩ := h
  exact ⟨i, ha.active _ _ hi hactive, hactive, hconv⟩

/-- A failed creation stays so as the cloud advances. -/
theorem Failed.advances (h : Failed ni s) (ha : Advances s s') : Failed ni s' := by
  obtain ⟨k, o, code, message, hc, hfailed⟩ := h
  obtain ⟨o', ho', -, ht, hw, hend⟩ := ha.operation k o hc.listed
  obtain rfl := hend (by simp [hfailed])
  exact ⟨k, o', code, message, ⟨ho', hc.work, hc.target⟩, hfailed⟩

/-- What an answer says stays true as the cloud advances. -/
theorem Answered.advances (h : Answered ni r s) (ha : Advances s s') : Answered ni r s' := by
  intro ov hov
  obtain ⟨si, hsi, hv⟩ := h ov hov
  exact ⟨si, hsi.advances ha, hv⟩

/-- An error says nothing about the instance. -/
theorem answered_error (st : Status) : Answered ni (.error st) s := fun _ h => by cases h

/-- The resource name of the instance, as the lock of its volume name protects it. -/
theorem instanceFullName_eq_nameBelow (ni : ServiceInstance) :
    instanceFullName ni = nameBelow (locationName ni.project ni.location) ni.name := by
  rw [nameBelow_eq, instanceFullName_eq]

/-- A name that is kept unused is not in use after it. -/
theorem unused_of_keeps (hk : KeepsUnused ni.name s s') (hn : Nameable ni)
    (h : Unused s (instanceFullName ni)) : Unused s' (instanceFullName ni) := by
  rw [instanceFullName_eq_nameBelow] at h ⊢
  exact hk _ hn.1 hn.2 h

/-- What is known of a free name is protected by its lock. -/
theorem protected_free : Protected creationResources ni.name (Free ni) :=
  fun _ _ h _ _ hk hn => unused_of_keeps hk hn (h hn)

/-- What a lookup answered is protected by the lock of the name. -/
theorem protected_lookedUp (r : Except ApiError ServiceInstance) :
    Protected creationResources ni.name (LookedUp ni r) := by
  intro s s' h _ ha hk
  cases r with
  | ok si => exact fun hstate => (h hstate).advances ha
  | error err =>
    intro hnf hn
    rcases h hnf hn with hu | hfailed
    · exact .inl (unused_of_keeps hk hn hu)
    · exact .inr (hfailed.advances ha)

/-- What a search answered is protected by the lock of the name. -/
theorem protected_searched (r : Except ApiError (Option Operation)) :
    Protected creationResources ni.name (Searched ni r) := by
  intro s s' h hi ha hk
  cases r with
  | ok op => exact ⟨h.1, fun hnone => protected_free _ _ (h.2 hnone) hi ha hk⟩
  | error err => trivial

/-- What a creation answered is protected by the lock of the name. -/
theorem protected_made (r : Except ApiError ServiceInstance) :
    Protected creationResources ni.name (Made ni r) := by
  intro s s' h _ ha _
  cases r with
  | ok si => exact ActiveAs.advances h ha
  | error err => trivial

/-- What a request is answered with is protected by the lock of the name. -/
theorem protected_answered (r : Except Status (Option Volume)) :
    Protected creationResources ni.name (Answered ni r) :=
  fun _ _ h _ ha _ => h.advances ha

end Stability

/-! ## The contract -/

/-- A creation is asked for only under a name that was never created. -/
def CallsUncreated (_ : ℕ) (w : World ctrlSig CloudState) (e : Event ctrlSig) : Prop :=
  ∀ parent id spec, e.1 = .createInstance parent id spec → validParent parent = true →
    validInstanceID id = true → ∀ k o, ¬CreatesAt w.state k (nameBelow parent id) o

/-- The contract of the handlers of `CreateVolume`. -/
abbrev creationContract : Contract ctrlSig CloudState :=
  sectionContract ctrlLocks creationResources CallsUncreated

/-- The safety of a program of a handler. -/
abbrev SafeCreation {α : Type} (t : ℕ) (Q : α → World ctrlSig CloudState → Prop) (p : CtrlM α)
    (w : World ctrlSig CloudState) : Prop :=
  Safe CloudState.step t creationContract Q p w

/-- An operation that only reads keeps the contract. -/
theorem keeps_of_reads {R : Resources CloudState String} {t : ℕ} {w : World ctrlSig CloudState}
    {o : CloudOp} {r : o.Res} {s' : CloudState} (ho : Reads o) (hi : R.inv w.state)
    (h : CloudOutcome w.state o r s') : Keeps ctrlLocks R CallsUncreated t w ⟨o, r⟩ s' := by
  obtain rfl := state_of_reads ho h
  refine Keeps.refl hi fun parent id spec he => ?_
  obtain rfl : o = .createInstance parent id spec := he
  exact ho.elim

/-! ## The parts of a handler -/

section Parts

variable {t : ℕ} {ni : ServiceInstance} {w : World ctrlSig CloudState}
  {s : CloudState}

/-- A name without instance is not in use, or its creation has failed. -/
theorem freeOrFailed_of_missing (hi : Accounted s) (h : s.find (instanceFullName ni) = none) :
    FreeOrFailed ni s := by
  intro _
  by_cases hc : ∃ k o, CreatesAt s k (instanceFullName ni) o
  · obtain ⟨k, o, hc⟩ := hc
    cases hp : o.progress with
    | pending =>
      obtain ⟨i, hfind, -⟩ := hi.pending _ k o hc hp
      simp [h] at hfind
    | succeeded =>
      obtain ⟨i, hfind, -⟩ := hi.succeeded _ k o hc hp
      simp [h] at hfind
    | failed code message => exact .inr ⟨k, o, code, message, hc, hp⟩
  · exact .inl ⟨h, fun k o hk => hc ⟨k, o, hk⟩⟩

/-- The lookup. -/
theorem safe_getInstance (hw : Inside ctrlLocks t ni.name (fun _ => True) w) :
    SafeCreation t (fun r => Inside ctrlLocks t ni.name (LookedUp ni r)) (getInstance ni) w := by
  refine safe_invoke (.true _) trivial hw
    (fun w r s' _ hi hout => keeps_of_reads trivial hi.2 hout) fun w r s' _ hi hi' hout hin => ?_
  obtain ⟨rfl, ⟨i, rfl, hfind⟩ | ⟨err, rfl, hmissing⟩⟩ := hout
  · refine safe_return protected_lookedUp (hin _ ?_)
    cases hconv : cloudInstanceToServiceInstance i with
    | ok si =>
      intro hactive
      obtain ⟨p, l, n, ip, -, -, -, -, -, rfl⟩ := cloudInstanceToServiceInstance_eq_ok.mp hconv
      exact ⟨i, hfind, by simpa using hactive, hconv⟩
    | error err => exact fun hnf => absurd hnf (by simp [isNotFoundErr_of_conversion hconv])
  · exact safe_return protected_lookedUp
      (hin _ fun hnf => freeOrFailed_of_missing hi.2 (hmissing hnf))

/-- What the search looks for. -/
def isCreation (U : Unicode) (ni : ServiceInstance) (op : Operation) : Bool :=
  match op.metadata with
  | some (verb, target) => toLower U verb = "create" && target = instanceFullName ni
  | none => false

/-- The filter finds the operations that create the instance. -/
theorem isCreation_iff :
    isCreation U ni op = true ↔ op.work = some .create ∧ op.target = instanceFullName ni := by
  have hverb : ∀ w : Work, toLower U w.verb = "create" ↔ w = .create := by
    intro w
    cases w with
    | create => simp [Work.verb, toLower_of_lowerAscii (U := U) (s := "create") (by decide)]
    | delete => simp [Work.verb, toLower_of_lowerAscii (U := U) (s := "delete") (by decide)]
    | update => simp [Work.verb, toLower_of_lowerAscii (U := U) (s := "update") (by decide)]
  cases hw : op.work with
  | none => simp [isCreation, Operation.metadata, hw]
  | some work => simp [isCreation, Operation.metadata, hw, hverb]

/-- A listed operation that creates the instance has an index. -/
theorem exists_createsAt {parent : String} (hmem : op ∈ s.operationsOf parent)
    (h : isCreation U ni op = true) :
    ∃ k, CreatesAt s k (instanceFullName ni) op := by
  obtain ⟨hw, ht⟩ := isCreation_iff.mp h
  obtain ⟨k, hk⟩ := List.getElem?_of_mem (List.mem_of_mem_filter hmem)
  exact ⟨k, hk, hw, ht⟩

/-- A creation of the instance is listed for its location. -/
theorem mem_operationsOf (hi : Accounted s) (hn : Nameable ni) {o : Operation}
    (hc : CreatesAt s k (instanceFullName ni) o) :
    o ∈ s.operationsOf (locationName ni.project ni.location) := by
  obtain ⟨id, -, hid, hname⟩ := hi.named _ k o hc
  rw [instanceFullName_eq_nameBelow] at hname
  obtain ⟨hparent, -⟩ := nameBelow_inj (component_of_validInstanceID hn.2)
    (component_of_validInstanceID hid) hname
  exact List.mem_filter.mpr ⟨List.mem_of_getElem? hc.listed, by simp [hparent]⟩

/-- A search that finds no failed creation shows that the name is not in use. -/
theorem free_of_search {listed : List Operation} (hi : Accounted s) (h : FreeOrFailed ni s)
    (hlisted : listing (s.operationsOf (locationName ni.project ni.location)) listed none = true)
    (hnone : listed.find? (isCreation U ni) = none) : Free ni s := by
  intro hn
  refine (h hn).resolve_right ?_
  rintro ⟨k, o, code, message, hc, -⟩
  have hmem : o ∈ listed := by
    have hperm : listed.Perm (s.operationsOf (locationName ni.project ni.location)) := by
      simpa [listing] using hlisted
    exact hperm.mem_iff.mpr (mem_operationsOf hi hn hc)
  exact List.find?_eq_none.mp hnone o hmem (isCreation_iff.mpr ⟨hc.work, hc.target⟩)

/-- The creation that a search has found, if it did not fail, is not that of a name without
instance. -/
theorem free_of_found (hi : Accounted s) (h : FreeOrFailed ni s)
    (hc : CreatesAt s k (instanceFullName ni) op) (hnone : op.error? = none) : Free ni s := by
  intro hn
  refine (h hn).resolve_right ?_
  rintro ⟨j, o, code, message, hj, hfailed⟩
  obtain rfl := hi.once _ k j op o hc hj
  obtain rfl : op = o := by simpa [hc.listed] using hj.listed
  simp [Operation.error?, hfailed] at hnone

/-- A listing has nothing that is not there. -/
theorem mem_of_listing {α : Type} [DecidableEq α] {all listed : List α} {err : Option ApiError}
    (h : listing all listed err = true) {a : α} (ha : a ∈ listed) : a ∈ all := by
  simp only [listing] at h
  split at h
  · exact (of_decide_eq_true h).mem_iff.mp ha
  · simpa using List.all_eq_true.mp h a ha

/-- The search for a failed creation. -/
theorem safe_getCreateInstanceOp (U : Unicode)
    (hw : Inside ctrlLocks t ni.name (FreeOrFailed ni) w) :
    SafeCreation t (fun r => Inside ctrlLocks t ni.name (Searched ni r))
      (getCreateInstanceOp U ni) w := by
  have hprotected : Protected creationResources ni.name (FreeOrFailed ni) :=
    fun s s' h hi ha hk => protected_lookedUp (.error notFound) s s' (fun _ => h) hi ha hk rfl
  have hprog : getCreateInstanceOp U ni =
      searchOperations (locationName ni.project ni.location) (isCreation U ni) := rfl
  rw [hprog]
  refine safe_invoke hprotected trivial hw
    (fun w r s' _ hi hout => keeps_of_reads trivial hi.2 hout) fun w r s' hF hi hi' hout hin => ?_
  obtain ⟨listed, err⟩ := r
  obtain ⟨rfl, hlisted⟩ := hout
  dsimp only at hlisted ⊢
  cases hfind : listed.find? (isCreation U ni) with
  | some op =>
    have hop : isCreation U ni op = true := List.find?_some hfind
    obtain ⟨k, hc⟩ := exists_createsAt (mem_of_listing hlisted (List.mem_of_find?_eq_some hfind)) hop
    refine safe_return protected_searched (hin _ ⟨fun code message herr => ?_, fun hnone => ?_⟩)
    · have hfailed : op.progress = .failed code message := by
        simp only [Option.bind_some, Operation.error?] at herr
        split at herr
        · simpa [‹op.progress = _›] using herr
        · simp at herr
      exact (hi.2.failed _ k op code message hc hfailed).1
    · exact free_of_found hi.2 hF.2 hc hnone
  | none =>
    cases err with
    | some err => exact safe_return protected_searched (hin _ trivial)
    | none =>
      refine safe_return protected_searched (hin _ ⟨fun _ _ herr => by simp at herr, fun _ => ?_⟩)
      exact free_of_search hi.2 hF.2 hlisted hfind

/-- Reading inside the section keeps what is known. -/
theorem safe_reads {α : Type} {x : String} {ψ : CloudState → Prop} {p : CtrlM α}
    (hψ : Protected creationResources x ψ) (hp : p.All Reads)
    (hw : Inside ctrlLocks t x ψ w) :
    SafeCreation t (fun _ => Inside ctrlLocks t x ψ) p w := by
  refine safe_all hψ (fun o r ho => (noLock_of_reads ho).event_eq r) ?_ hp hw
  intro o w r s' ho hin hi hs
  have hout := cloudOutcome_of_step hs
  exact ⟨keeps_of_reads ho hi.2 hout, state_of_reads ho hout ▸ hin.2⟩

/-- The acceptance of the creation, while the name is not in use, keeps the contract. -/
theorem keeps_accept {spec : InstanceSpec} {r : Except ApiError ℕ}
    (hi : Accounted w.state) (hw : Inside ctrlLocks t ni.name (Free ni) w)
    (hc : w.state.creatable (locationName ni.project ni.location) ni.name = true) :
    Keeps ctrlLocks creationResources CallsUncreated t w
      ⟨.createInstance (locationName ni.project ni.location) ni.name spec, r⟩
      (w.state.accept (locationName ni.project ni.location) ni.name spec) := by
  have hn : Nameable ni := by
    simp only [CloudState.creatable, Bool.and_eq_true] at hc
    exact hc.1
  have hu : ∀ k o, ¬CreatesAt w.state k (nameBelow (locationName ni.project ni.location) ni.name) o := by
    rw [← instanceFullName_eq_nameBelow]
    exact (hw.2 hn).uncreated
  refine ⟨accounted_accept hi hc hu, advances_accept hc hu, fun x hx => ?_, ?_⟩
  · refine keepsUnused_accept hn.2 ?_
    rintro rfl
    exact hx hw.1
  · rintro parent id spec' he - - k o
    cases he
    exact hu k o

/-- A call of `CreateInstance` without effect keeps the contract. -/
theorem keeps_refused {spec : InstanceSpec} {r : Except ApiError ℕ}
    (hi : Accounted w.state) (hw : Inside ctrlLocks t ni.name (Free ni) w) :
    Keeps ctrlLocks creationResources CallsUncreated t w
      ⟨.createInstance (locationName ni.project ni.location) ni.name spec, r⟩ w.state := by
  refine Keeps.refl hi ?_
  rintro parent id spec' he hparent hid k o
  cases he
  rw [← instanceFullName_eq_nameBelow]
  exact (hw.2 ⟨hparent, hid⟩).uncreated k o

/-- What a wait for an operation leaves. -/
theorem keeps_awaited {r : Except ApiError CloudInstance} {s' : CloudState} (hi : Accounted w.state)
    (h : Awaited w.state k s') :
    Keeps ctrlLocks creationResources CallsUncreated t w ⟨.waitInstance k, r⟩ s' := by
  have hcalls : CallsUncreated t w ⟨.waitInstance k, r⟩ := fun _ _ _ he => by cases he
  obtain rfl | ⟨ending, hc⟩ := h
  · exact Keeps.refl hi hcalls
  · exact ⟨accounted_complete hi hc, advances_complete hi hc,
      fun x _ => keepsUnused_complete hi hc x, hcalls⟩

/-- The creation of the instance. -/
theorem safe_createInstance {labels : StrMap} {fsname : String}
    (hw : Inside ctrlLocks t ni.name (Free ni) w) :
    SafeCreation t (fun r => Inside ctrlLocks t ni.name (Made ni r))
      (createInstance { ni with labels := labels, filesystem := fsname }) w := by
  refine safe_invoke protected_free trivial hw (fun w r s' hF hi hout => ?_)
    fun w r s' hF hi hi' hout hin => ?_
  · obtain ⟨-, hc, rfl⟩ | ⟨-, -, rfl | ⟨hc, rfl⟩⟩ := hout
    · exact keeps_accept hi.2 hF hc
    · exact keeps_refused hi.2 hF
    · exact keeps_accept hi.2 hF hc
  cases r with
  | error err => exact safe_return protected_made (hin _ trivial)
  | ok k =>
    -- The handler knows which operation creates its instance.
    have hcreates : ∃ o, CreatesAt s' k (instanceFullName ni) o := by
      obtain ⟨hk, -, rfl⟩ | ⟨err, hcontra, -⟩ := hout
      · cases hk
        exact ⟨_, instanceFullName_eq_nameBelow ni ▸ createsAt_accept_self⟩
      · cases hcontra
    have hprotected : Protected creationResources ni.name
        fun s => ∃ o, CreatesAt s k (instanceFullName ni) o := by
      rintro s s' ⟨o, ho⟩ - ha -
      exact ha.createsAt ho
    refine safe_invoke hprotected trivial (hin _ hcreates)
      (fun w r s' _ hi hout => keeps_awaited hi.2 hout.1) fun w r s' hF hi hi' hout hin => ?_
    obtain ⟨hawaited, ⟨i, rfl, hcreated⟩ | ⟨err, rfl⟩⟩ := hout
    · refine safe_return protected_made (hin _ ?_)
      cases hconv : cloudInstanceToServiceInstance i with
      | error err => trivial
      | ok si =>
        -- The operation that was waited for has succeeded, so the instance is active.
        have hadvances : Advances w.state s' :=
          (keeps_awaited (t := t) (r := .ok i) hi.2 hawaited).2.1
        obtain ⟨o, ho⟩ := hF.2
        obtain ⟨o', ho'⟩ := hadvances.createsAt ho
        simp only [CloudState.created, ho'.listed, ho'.target] at hcreated
        split at hcreated
        · rename_i hsucceeded
          obtain ⟨i', hfind, hactive⟩ := hi'.succeeded _ k o' ho' hsucceeded
          obtain rfl : i = i' := by simpa [hcreated] using hfind
          exact ⟨i, hfind, hactive, hconv⟩
        · simp at hcreated
    · exact safe_return protected_made (hin _ trivial)

/-- Labelling, naming and creating the instance. -/
theorem safe_createNew (s : ControllerServer) (params : StrMap)
    (hw : Inside ctrlLocks t ni.name (Free ni) w) :
    SafeCreation t (fun r => Inside ctrlLocks t ni.name (Answered ni r)) (createNew s ni params) w := by
  unfold createNew
  split
  · exact safe_return protected_answered ⟨hw.1, answered_error _⟩
  rename_i labels _
  have hfs : (generateUniqueFilesystemName { ni with labels := labels }).All Reads :=
    all_generateUniqueFilesystemName (fun _ => trivial) (fun _ => trivial) fun _ => trivial
  refine Safe.bind (safe_reads protected_free hfs hw) fun r w _ hw => ?_
  cases r with
  | error err => exact safe_return protected_answered ⟨hw.1, answered_error _⟩
  | ok fsname =>
    refine Safe.bind (safe_createInstance hw) fun r w _ hw => ?_
    cases r with
    | error err => exact safe_return protected_answered ⟨hw.1, answered_error _⟩
    | ok si =>
      refine safe_return protected_answered ⟨hw.1, fun ov hov => ?_⟩
      cases hov
      exact ⟨si, hw.2, rfl⟩

/-- The answer for an instance that was found. -/
theorem answered_reuseInstance {found : ServiceInstance} {volumeName : String}
    (h : LookedUp ni (.ok found) s) : Answered ni (reuseInstance volumeName ni found) s := by
  intro ov hov
  simp only [reuseInstance] at hov
  split at hov
  · cases hov
  split at hov
  · cases hov
  split at hov
  · cases hov
  rename_i hactive
  cases hov
  exact ⟨found, h (by simpa using hactive), rfl⟩

/-- The locked part of `CreateVolume`. -/
theorem safe_createLocked (s : ControllerServer) (params : StrMap)
    (hw : Inside ctrlLocks t ni.name (fun _ => True) w) :
    SafeCreation t (fun r => Inside ctrlLocks t ni.name (Answered ni r))
      (createLocked s ni params) w := by
  refine Safe.bind (safe_getInstance hw) fun r w _ hw => ?_
  cases r with
  | ok found => exact safe_return protected_answered ⟨hw.1, answered_reuseInstance hw.2⟩
  | error err =>
    dsimp only
    split
    · exact safe_return protected_answered ⟨hw.1, answered_error _⟩
    rename_i hnf
    have hmissing : FreeOrFailed ni w.state := hw.2 (by simpa using hnf)
    refine Safe.bind (safe_getCreateInstanceOp s.unicode ⟨hw.1, hmissing⟩) fun r w _ hw => ?_
    cases r with
    | error err => exact safe_return protected_answered ⟨hw.1, answered_error _⟩
    | ok op =>
      dsimp only
      split
      · rename_i code message herr
        have hcode : failedCreation code message = .error ⟨code, message⟩ :=
          if_neg (hw.2.1 code message herr)
        rw [hcode]
        exact safe_return protected_answered ⟨hw.1, answered_error _⟩
      · rename_i hnone
        exact safe_createNew s params ⟨hw.1, hw.2.2 hnone⟩

end Parts

/-- What a handler has answered, if its request is valid. -/
def Correct (s : ControllerServer) (req : CreateVolumeRequest) (r : Except Status (Option Volume))
    (w : World ctrlSig CloudState) : Prop :=
  (∃ st, r = .error st) ∨
    ∃ ni params, validateCreate s req = .ok (ni, params) ∧ Answered ni r w.state

/-- The handler of `CreateVolume` keeps the contract. -/
theorem safe_createVolume (s : ControllerServer) (req : CreateVolumeRequest) (t : ℕ)
    (w : World ctrlSig CloudState) :
    SafeCreation t (Correct s req) (createVolume s req) w := by
  unfold createVolume
  split
  · exact Safe.ret .true trivial
      fun _ _ _ => .inl ⟨_, rfl⟩
  rename_i ni params hval
  have hsafe : SafeCreation t (fun r w => Answered ni r w.state)
      (withVolumeLock ni.name (.error (aborted ni.name)) (createLocked s ni params)) w := by
    refine safe_withVolumeLock ignoresLocks_creationResources (fun w o r ho => ?_)
      (fun r w w' h hr _ => h.advances hr.2.1) (fun w => answered_error _) (fun r w l h => h)
      fun w hi hw => ?_
    · rintro parent id spec he - - k o'
      obtain rfl : o = .createInstance parent id spec := he
      exact absurd trivial ho
    · exact Safe.mono (safe_createLocked s params hw) fun r w _ h => ⟨⟨h.1, trivial⟩, h.2⟩
  exact hsafe.mono fun r w _ h => .inr ⟨ni, params, hval, h⟩

/-! ## A repetition of the request -/

section Repetition

/-- The resources while there is the given active instance. -/
def whileActive (n : String) (i : CloudInstance) : Resources CloudState String :=
  { creationResources with inv := fun s => Accounted s ∧ s.find n = some i }

/-- The handler was refused the lock, or a lookup of it failed, or it has answered with the
instance. -/
def Repeated (t : ℕ) (si : ServiceInstance) (r : Except Status (Option Volume))
    (w : World ctrlSig CloudState) : Prop :=
  (∃ x, (t, ⟨.tryAcquire x, false⟩) ∈ w.trace) ∨
    (∃ n err, (t, ⟨.getInstance n, .error err⟩) ∈ w.trace) ∨
    r = .ok (some (instanceToCSIVolume si))

variable {t : ℕ} {ni si : ServiceInstance} {i : CloudInstance}

/-- The contract while there is the given active instance. -/
abbrev activeContract (ni : ServiceInstance) (i : CloudInstance) : Contract ctrlSig CloudState :=
  sectionContract ctrlLocks (whileActive (instanceFullName ni) i) CallsUncreated

/-- A repetition stays one after its thread's next event. -/
theorem Repeated.after {w : World ctrlSig CloudState} (h : Repeated t si r w) (e : Event ctrlSig)
    (s' : CloudState) :
    Repeated t si r (w.after t e s') := by
  obtain ⟨x, hx⟩ | ⟨n, err, hn⟩ | hr := h
  · exact .inl ⟨x, List.mem_cons_of_mem _ hx⟩
  · exact .inr (.inl ⟨n, err, List.mem_cons_of_mem _ hn⟩)
  · exact .inr (.inr hr)

/-- That a request is a repetition is stable under the other threads. -/
theorem Repeated.stable (r : Except Status (Option Volume)) :
    Stable t (activeContract ni i) (Repeated t si r) := by
  intro w w' h hr hi
  obtain ⟨x, hx⟩ | ⟨n, err, hn⟩ | heq := h
  · exact .inl ⟨x, mem_trace_stable _ w w' hx hr hi⟩
  · exact .inr (.inl ⟨n, err, mem_trace_stable _ w w' hn hr hi⟩)
  · exact .inr (.inr heq)

/-- The lookup finds the active instance, or fails. -/
theorem safe_getInstance_active {w : World ctrlSig CloudState}
    (hsi : cloudInstanceToServiceInstance i = .ok si)
    (hw : Inside ctrlLocks t ni.name (fun _ => True) w) :
    Safe CloudState.step t (activeContract ni i)
      (fun r w => Inside ctrlLocks t ni.name (fun _ => True) w ∧ (r = .ok si ∨ ∃ err, r = .error err ∧
        isNotFoundErr err = false ∧
        (t, ⟨.getInstance (instanceFullName ni), .error err⟩) ∈ w.trace)) (getInstance ni) w := by
  refine safe_invoke (.true _) trivial hw
    (fun w r s' _ hi hout => keeps_of_reads trivial hi.2 hout) fun w r s' _ hi hi' hout hin => ?_
  obtain ⟨rfl, ⟨i', rfl, hfind⟩ | ⟨err, rfl, hmissing⟩⟩ := hout
  · obtain rfl : i = i' := by simpa [hi.2.2] using hfind
    dsimp only
    rw [hsi]
    exact Safe.ret (Inside.stable (.true _)) (hin _ trivial) fun w _ h => ⟨h, .inl rfl⟩
  · have hnf : isNotFoundErr err = false := by
      by_contra h
      simp [hi.2.2] at hmissing
      simp [hmissing] at h
    refine Safe.ret (P := fun w => Inside ctrlLocks t ni.name (fun _ => True) w ∧
      (t, ⟨.getInstance (instanceFullName ni), .error err⟩) ∈ w.trace) (fun w w' h hr hi => ?_)
      ⟨hin _ trivial, List.mem_cons_self⟩ fun w _ h => ⟨h.1, .inr ⟨err, rfl, hnf, h.2⟩⟩
    exact ⟨Inside.stable (.true _) w w' h.1 hr hi, mem_trace_stable _ w w' h.2 hr hi⟩

/-- While the instance is active and matches, a handler that gets lock and lookup answers with it.
-/
theorem safe_repetition (s : ControllerServer) (params : StrMap) (hactive : i.state = .active)
    (hsi : cloudInstanceToServiceInstance i = .ok si) (hmatch : compareInstances ni si = none)
    (w : World ctrlSig CloudState) :
    Safe CloudState.step t (activeContract ni i) (Repeated t si)
      (withVolumeLock ni.name (.error (aborted ni.name)) (createLocked s ni params)) w := by
  have hlocks : IgnoresLocks (whileActive (instanceFullName ni) i) := by
    intro s l hi
    obtain ⟨hinv, hmono, hkeeps⟩ := ignoresLocks_creationResources s l hi.1
    exact ⟨⟨hinv, hi.2⟩, hmono, hkeeps⟩
  refine safe_withVolumeLock hlocks (fun w o r ho => ?_) Repeated.stable
    (fun w => .inl ⟨ni.name, List.mem_cons_self⟩) (fun r w l h => h.after _ _) fun w _ hw => ?_
  · rintro parent id spec he - - k o'
    obtain rfl : o = .createInstance parent id spec := he
    exact absurd trivial ho
  · refine Safe.bind (safe_getInstance_active hsi hw) fun r w _ hw => ?_
    have hstable : ∀ r, Stable t (activeContract ni i) fun w =>
        Inside ctrlLocks t ni.name (fun _ => True) w ∧ Repeated t si r w := fun r w w' h hr hi =>
      ⟨Inside.stable (.true _) w w' h.1 hr hi, Repeated.stable r w w' h.2 hr hi⟩
    obtain ⟨hin, rfl | ⟨err, rfl, hnf, hmem⟩⟩ := hw
    · have hstate : si.state = some .active := by
        obtain ⟨p, l, n, ip, -, -, -, -, -, rfl⟩ := cloudInstanceToServiceInstance_eq_ok.mp hsi
        simp [hactive]
      have hreuse : reuseInstance ni.name ni si = .ok (some (instanceToCSIVolume si)) := by
        simp [reuseInstance, hmatch, hstate]
      dsimp only
      rw [hreuse]
      exact Safe.ret (hstable _) ⟨hin, .inr (.inr rfl)⟩ fun _ _ h => h
    · dsimp only
      rw [if_pos (by simp [hnf])]
      exact Safe.ret (hstable _) ⟨hin, .inr (.inl ⟨_, err, hmem⟩)⟩ fun _ _ h => h

end Repetition

/-! ## Runs -/

/-- A configuration of the handlers of `CreateVolume`. -/
abbrev CreateConfig : Type := Config ctrlSig CloudState (Except Status (Option Volume))

/-- One step of the handlers of the given requests, or of the backend. -/
abbrev CreateStep (s : ControllerServer) (reqs : ℕ → CreateVolumeRequest) :
    CreateConfig → Action ctrlSig → CreateConfig → Prop :=
  PoolStep CloudState.step CloudState.Progresses fun t => createVolume s (reqs t)

/-- Runs of the handlers of the given requests, with the backend's own steps. -/
abbrev CreateRun (s : ControllerServer) (reqs : ℕ → CreateVolumeRequest) :
    CreateConfig → CreateConfig → Prop :=
  Run CloudState.step CloudState.Progresses fun t => createVolume s (reqs t)

section Runs

variable {s : ControllerServer} {reqs : ℕ → CreateVolumeRequest}

/-- The configurations of a run are safe. -/
abbrev SafeConfig (s : ControllerServer) (reqs : ℕ → CreateVolumeRequest) (c : CreateConfig) : Prop :=
  PoolSafe CloudState.step creationContract (fun t => Correct s (reqs t)) (fun _ => True) c

/-- The initial configuration is safe. -/
theorem safeConfig_start {s₀ : CloudState} (hlocks : s₀.locks = ∅) (hi : Accounted s₀) :
    SafeConfig s reqs (.start s₀) :=
  PoolSafe.start ⟨.start ctrlLocks (by simp [ctrlLocks, hlocks]), hi⟩

/-- A run keeps a configuration safe. -/
theorem SafeConfig.run {c c' : CreateConfig} (h : SafeConfig s reqs c) (hrun : CreateRun s reqs c c') :
    SafeConfig s reqs c' :=
  (PoolSafe.run (sectionContract_compatible envKeeps_creationResources)
    (fun t w _ _ => safe_createVolume s (reqs t) t w) (fun _ _ _ _ _ _ _ _ => trivial) h hrun).1

/-- The cloud only advances along a run. -/
theorem SafeConfig.advances {c c' : CreateConfig} (h : SafeConfig s reqs c)
    (hrun : CreateRun s reqs c c') : Advances c.world.state c'.world.state :=
  PoolSafe.rel (T := fun w w' => Advances w.state w'.state)
    (sectionContract_compatible envKeeps_creationResources)
    (fun t w _ _ => safe_createVolume s (reqs t) t w) (fun _ _ _ _ _ _ _ _ => trivial)
    (fun w => .refl w.state) (fun _ _ _ => Advances.trans) (fun _ _ _ _ hg => hg.2.1)
    (fun _ _ hi he => envKeeps_creationResources.mono _ _ hi.2 he) h hrun

/-- What a handler asks the API to create. -/
def AsksFor (s : ControllerServer) (req : CreateVolumeRequest) (o : CloudOp) : Prop :=
  ∀ parent id spec, o = .createInstance parent id spec → ∃ ni params,
    validateCreate s req = .ok (ni, params) ∧ parent = locationName ni.project ni.location ∧
      id = ni.name ∧ spec.capacityGib = ni.capacityGib ∧ spec.network = ni.network

/-- A request asks for its own instance only. -/
theorem all_createVolume_asksFor (s : ControllerServer) (req : CreateVolumeRequest) :
    (createVolume s req).All (AsksFor s req) := by
  unfold createVolume
  split
  · exact .pure
  rename_i ni params hval
  refine all_withVolumeLock (fun _ _ _ he => by cases he) (fun _ _ _ he => by cases he)
    (all_createLocked (fun o ho _ _ _ he => ?_) (fun labels fsname parent id spec he => ?_)
      fun k _ _ _ he => by cases he)
  · subst he
    exact ho.elim
  · cases he
    exact ⟨ni, params, hval, rfl, rfl, rfl, rfl⟩

/-- The instance of an accepted creation is what the request asked for. -/
theorem compareInstances_of_created {st : CloudState} {ni si : ServiceInstance} {i : CloudInstance}
    {o : Operation} (hi : Accounted st) (hc : CreatesAt st k (instanceFullName ni) o)
    (hparent : o.parent = locationName ni.project ni.location)
    (hfind : st.find (instanceFullName ni) = some i) (hcap : i.capacityGib = ni.capacityGib)
    (hnet : i.network = ni.network) (hsi : cloudInstanceToServiceInstance i = .ok si) :
    compareInstances ni si = none := by
  obtain ⟨id, hvalid, hid, hname⟩ := hi.named _ k o hc
  obtain ⟨p, l, hp, hl, hloc⟩ := exists_of_validParent hvalid
  obtain ⟨hpni, hlni⟩ := locationName_inj hp hl (hparent.symm.trans hloc)
  obtain ⟨p', l', n', ip, hp', hl', -, hiname, -, rfl⟩ := cloudInstanceToServiceInstance_eq_ok.mp hsi
  rw [name_of_find hfind, instanceFullName_eq] at hiname
  obtain ⟨h₁, h₂, h₃⟩ := resourceName_inj (hpni ▸ hp) (hlni ▸ hl) hp' hl' hiname
  exact compareInstances_eq_none.mpr ⟨h₃, h₁, h₂, hcap.symm, hnet.symm⟩

/-- From a configuration with the active instance on, a new handler ends as `Repeated` says. -/
theorem repeated_of_active {s₀ : CloudState} {c c' : CreateConfig} {t : ℕ} {ni si : ServiceInstance}
    {params : StrMap} {i : CloudInstance} (hsafe : SafeConfig s reqs c)
    (hrun₀ : CreateRun s reqs (.start s₀) c) (hval : validateCreate s (reqs t) = .ok (ni, params))
    (hfind : c.world.state.find (instanceFullName ni) = some i) (hactive : i.state = .active)
    (hsi : cloudInstanceToServiceInstance i = .ok si) (hmatch : compareInstances ni si = none)
    (hnew : ∀ e, (t, e) ∉ c.world.trace) (hrun : CreateRun s reqs c c')
    (hdone : c'.slot t = .done r) :
    Repeated t si r c'.world := by
  let K : World ctrlSig CloudState → Prop := fun w => w.state.find (instanceFullName ni) = some i
  let Q : ℕ → Except Status (Option Volume) → World ctrlSig CloudState → Prop :=
    fun u => if u = t then Repeated t si else Correct s (reqs u)
  have hK : ∀ u w e w', creationContract.guar u w e w' → K w → K w' :=
    fun u w e w' hg hw => hg.2.1.active _ _ hw hactive
  -- The handler, under the invariant that the instance is there.
  have ht : ∀ w, Safe CloudState.step t (creationContract.also K) (Repeated t si)
      (createVolume s (reqs t)) w := by
    intro w
    have hprog : createVolume s (reqs t) = withVolumeLock ni.name (.error (aborted ni.name))
        (createLocked s ni params) := by
      simp only [createVolume, hval]
    rw [hprog]
    exact (safe_repetition s params hactive hsi hmatch w).transfer (fun _ => and_assoc.mp)
      (fun _ _ hr => hr) (fun _ _ _ _ hg hi => ⟨hg, and_assoc.mpr hi⟩) fun _ _ _ hq => hq
  have hQt : Q t = Repeated t si := if_pos rfl
  have hQu : ∀ u, u ≠ t → Q u = Correct s (reqs u) := fun u hu => if_neg hu
  have hpool : PoolSafe CloudState.step (creationContract.also K) Q (fun _ => True) c := by
    refine PoolSafe.also hsafe hK hfind hQu (fun p hp => ?_) fun a ha => ?_
    · rcases hrun₀.slot_of_no_events hnew with hidle | hrunning | ⟨a, -, hdone⟩
      · simp [hidle] at hp
      · obtain rfl : createVolume s (reqs t) = p := by simpa [hrunning] using hp
        exact hQt ▸ ht c.world
      · simp [hdone] at hp
    · rcases hrun₀.slot_of_no_events hnew with hidle | hrunning | ⟨b, hbody, hdone⟩
      · simp [hidle] at ha
      · simp [hrunning] at ha
      · obtain rfl : b = a := by simpa [hdone] using ha
        rw [hQt, ← hbody]
        exact ht c.world
  have hcompatible : (creationContract.also K).Compatible CloudState.Progresses fun _ => True :=
    (sectionContract_compatible envKeeps_creationResources).also fun w s' hi he hw =>
      (envKeeps_creationResources.mono _ _ hi.2 he).active _ _ hw hactive
  have hend := PoolSafe.run hcompatible (fun u w _ _ => ?_) (fun _ _ _ _ _ _ _ _ => trivial) hpool hrun
  · have hpost := hend.1.post trivial hdone
    rwa [hQt] at hpost
  · by_cases hu : u = t
    · subst hu
      exact hQt ▸ ht w
    · rw [hQu u hu]
      exact (safe_createVolume s (reqs u) u w).also (hK u)

end Runs

/-- The creation of instances by any number of handlers, from a given state of the backend. -/
structure CreatesOnce (s : ControllerServer) (reqs : ℕ → CreateVolumeRequest) (s₀ : CloudState) :
    Prop where
  /-- At most one creation is accepted for each name. -/
  once : ∀ c, CreateRun s reqs (.start s₀) c → ∀ n, creations c.world.state n ≤ 1
  /-- A creation is asked for only under a name that was never created, or that the API does not
  accept. -/
  calls : ∀ c t parent id spec r c', CreateRun s reqs (.start s₀) c →
    CreateStep s reqs c (.call t ⟨.createInstance parent id spec, r⟩) c' →
    validParent parent = true → validInstanceID id = true →
    creations c.world.state (nameBelow parent id) = 0
  /-- After a failed creation every handler for the instance answers with an error. -/
  failed : ∀ c, CreateRun s reqs (.start s₀) c → ∀ t ni params r,
    validateCreate s (reqs t) = .ok (ni, params) → Failed ni c.world.state → c.slot t = .done r →
    ∃ st, r = .error st
  /-- When the creation that handler `u` asked for was accepted and the instance is active, then a
  handler `t` of the same request that gets the lock from there on, and whose lookup does not fail,
  answers with that instance. -/
  active : ∀ c₀ c₁ c c' u parent id spec x, CreateRun s reqs (.start s₀) c₀ →
    CreateStep s reqs c₀ (.call u ⟨.createInstance parent id spec, x⟩) c₁ →
    c₁.world.state = c₀.world.state.accept parent id spec → CreateRun s reqs c₁ c →
    ∀ i, c.world.state.find (nameBelow parent id) = some i → i.state = .active →
    ∀ t r, reqs t = reqs u → (∀ e, (t, e) ∉ c.world.trace) → CreateRun s reqs c c' →
    c'.slot t = .done r → (∀ y, (t, ⟨.tryAcquire y, false⟩) ∉ c'.world.trace) →
    (∀ n err, (t, ⟨.getInstance n, .error err⟩) ∉ c'.world.trace) →
    ∃ si, cloudInstanceToServiceInstance i = .ok si ∧ r = .ok (some (instanceToCSIVolume si))

/-- A name that was never created has no creations. -/
theorem creations_eq_zero {s : CloudState} {n : String} (h : ∀ k o, ¬CreatesAt s k n o) :
    creations s n = 0 := by
  refine List.countP_eq_zero.mpr fun o ho hcreate => ?_
  obtain ⟨k, hk⟩ := List.getElem?_of_mem ho
  simp only [decide_eq_true_eq] at hcreate
  exact h k o ⟨hk, hcreate.1, hcreate.2⟩

/-- **One creation for each instance.** From a state in which instances and operations agree and no
lock is taken, handlers of `CreateVolume` create each instance at most once, answer with an error
once its creation has failed, and with the instance when the request that created it is repeated.
SOURCE: pkg/csi_driver/controller.go:170-262 -/
theorem single_creation (s : ControllerServer) (reqs : ℕ → CreateVolumeRequest) (s₀ : CloudState)
    (hlocks : s₀.locks = ∅) (hi : Accounted s₀) : CreatesOnce s reqs s₀ where
  once c hrun n := ((safeConfig_start hlocks hi).run hrun).inv.2.creations_le_one n
  calls c t parent id spec r c' hrun hstep hparent hid := by
    have hguar := ((safeConfig_start hlocks hi).run hrun).guarantee trivial hstep
    exact creations_eq_zero (hguar.2.2.2 parent id spec rfl hparent hid)
  failed c hrun t ni params r hval hfailed hdone := by
    have hsafe : SafeConfig s reqs c := (safeConfig_start hlocks hi).run hrun
    obtain hst | ⟨ni', params', hval', hanswered⟩ := hsafe.post trivial hdone
    · exact hst
    · obtain ⟨rfl, rfl⟩ : ni = ni' ∧ params = params' := by simpa [hval] using hval'
      cases r with
      | error st => exact ⟨st, rfl⟩
      | ok ov =>
        -- A handler that succeeded has seen the instance active.
        obtain ⟨k, o, code, message, hc, hprogress⟩ := hfailed
        obtain ⟨si, ⟨i, hfind, -, -⟩, -⟩ := hanswered ov rfl
        have hnone := (hsafe.inv.2.failed _ k o code message hc hprogress).2
        simp [hnone] at hfind
  active c₀ c₁ c c' u parent id spec x hrun₀ hstep haccept hrun₁ i hfind hactive t r hreq hnew hrun
      hdone hlock hlookup := by
    have hrun₁' : CreateRun s reqs (.start s₀) c₁ := .tail hrun₀ hstep trivial
    have hsafe₁ : SafeConfig s reqs c₁ := (safeConfig_start hlocks hi).run hrun₁'
    have hsafe := hsafe₁.run hrun₁
    -- What the accepted request asked for is what handler `u` asked for.
    have hmem : (u, ⟨.createInstance parent id spec, x⟩) ∈ c₁.world.trace := by
      cases hstep with
      | call _ _ _ _ _ _ _ => exact List.mem_cons_self
    have hwithin := (hrun₁'.within (fun t => all_createVolume_asksFor s (reqs t)) (.start s₀)).trace _ hmem
    obtain ⟨ni, params, hval, hparent, hid, hcap, hnet⟩ := hwithin parent id spec rfl
    have hname : instanceFullName ni = nameBelow parent id := by
      rw [instanceFullName_eq_nameBelow, hparent, hid]
    -- The instance is still as it was asked for.
    have hcreates : CreatesAt c₁.world.state c₀.world.state.operations.length (instanceFullName ni)
        ⟨parent, nameBelow parent id, some .create, .pending⟩ := by
      rw [haccept, hname]
      exact createsAt_accept_self
    have hadvances := hsafe₁.advances hrun₁
    rw [← hname] at hfind
    have hspec : i.toInstanceSpec = spec := by
      obtain ⟨i₁, hi₁, heq⟩ := hadvances.echoed _ _ _ i hcreates hfind
      rw [haccept, find_accept, if_pos hname, Option.some.injEq] at hi₁
      rw [heq, ← hi₁]
    obtain ⟨o, ho, hoparent, hotarget, howork, -⟩ := hadvances.operation _ _ hcreates.listed
    have hcreates' : CreatesAt c.world.state c₀.world.state.operations.length (instanceFullName ni) o :=
      ⟨ho, howork, hotarget.trans hname.symm⟩
    obtain ⟨si, hsi⟩ := hsafe.inv.2.converted _ _ o i hcreates' hfind
    have hmatch := compareInstances_of_created hsafe.inv.2 hcreates' (hoparent.trans hparent) hfind
      (by rw [hspec, hcap]) (by rw [hspec, hnet]) hsi
    have hend := repeated_of_active hsafe (hrun₁'.trans hrun₁) (hreq ▸ hval) hfind hactive hsi hmatch
      hnew hrun hdone
    obtain ⟨y, hy⟩ | ⟨n, err, hn⟩ | hr := hend
    · exact absurd hy (hlock y)
    · exact absurd hn (hlookup n err)
    · exact ⟨si, hsi, hr⟩

/-! ## A request and its repetition -/

section Sample

open Interface.ControllerSample

/-- All handlers get the same request. -/
def sameRequest (_ : ℕ) : CreateVolumeRequest := createRequest "vol"

/-- In the empty cloud every instance is accounted for. -/
theorem accounted_empty : Accounted ControllerSample.empty := by
  have hnone : ∀ k n o, ¬CreatesAt ControllerSample.empty k n o := fun k n o h => by
    simpa [ControllerSample.empty] using h.listed
  exact ⟨fun n j k o o' h => absurd h (hnone j n o), fun n k o h => absurd h (hnone k n o),
    fun n k o code message h => absurd h (hnone k n o), fun n k o h => absurd h (hnone k n o),
    fun n k o h => absurd h (hnone k n o), fun k o h => by simp [ControllerSample.empty] at h,
    fun n k o i h => absurd h (hnone k n o)⟩

/-- The first handler creates the volume and waits for it; the second one finds it. -/
def createAndRepeat : List (Move CloudChoice) :=
  [.spawn 0, .call 0 .ok, .call 0 .ok, .call 0 (.operations [] none), .call 0 .ok,
    .call 0 (.ends (.succeed "10.0.0.2")), .call 0 .ok, .finish 0,
    .spawn 1, .call 1 .ok, .call 1 .ok, .call 1 .ok, .finish 1]

/-- The answer of a handler, if it has returned a volume. -/
def answerOf (c : CreateConfig) (t : ℕ) : Option Volume :=
  match c.slot t with
  | .done (.ok v) => v
  | _ => none

/-- A request is answered, and then its repetition. -/
theorem createAndRepeat_played :
    ((playPool (S := ctrlSig) CloudState.exec (fun t => createVolume server (sameRequest t))
      createAndRepeat (.start ControllerSample.empty)).map fun c =>
        (creations c.world.state (resourceName "proj" "us-central1-a" "vol"),
          (answerOf c 0).map (·.volumeID), (answerOf c 1).map (·.volumeID))) =
      some (1, some "proj/us-central1-a/vol", some "proj/us-central1-a/vol") := by
  decide +kernel

/-- The handlers of one request, from an empty backend; there is a run in which one of them creates
the volume and another one answers with the same volume ID. -/
theorem single_creation_sameRequest : CreatesOnce server sameRequest ControllerSample.empty ∧
    ∃ c, CreateRun server sameRequest (.start ControllerSample.empty) c ∧
      creations c.world.state (resourceName "proj" "us-central1-a" "vol") = 1 ∧
      (answerOf c 0).map (·.volumeID) = some "proj/us-central1-a/vol" ∧
      (answerOf c 1).map (·.volumeID) = some "proj/us-central1-a/vol" := by
  refine ⟨single_creation server sameRequest _ rfl accounted_empty, ?_⟩
  have hplayed := createAndRepeat_played
  rw [Option.map_eq_some_iff] at hplayed
  obtain ⟨c, hplay, hobs⟩ := hplayed
  simp only [Prod.mk.injEq] at hobs
  exact ⟨c, playPool_run (fun _ => trivial) hplay, hobs⟩

end Sample

end LustreCsi.Analysis.SingleCreation
