import LustreCsi.Interface.Cloud

/-!
# The controller server as a pool of handlers

`ctrlBody` is the body of the thread that serves a request, `resolve` the instance that a request is
about, and `lockName` the string that its handler locks. `safe_withVolumeLock` is the rule for the
locked part of a handler.
-/

set_option autoImplicit false

namespace LustreCsi.Interface

open LustreCsi.Computation Model

variable {s : ControllerServer} {params : StrMap} {i : ServiceInstance} {o : CloudOp}
  {w : World ctrlSig CloudState} {α : Type} {x : String}

/-- A request to the controller server. -/
inductive ControllerRequest where
  | create (req : CreateVolumeRequest)
  | delete (req : DeleteVolumeRequest)
  | expand (req : ControllerExpandVolumeRequest)

/-- The result of a handler. -/
inductive ControllerResponse where
  | create (result : Except Status (Option Volume))
  | delete (result : Option Status)
  | expand (result : Except Status ControllerExpandVolumeResponse)

/-- The handler of a request. -/
def ctrlBody (s : ControllerServer) : ControllerRequest → CtrlM ControllerResponse
  | .create req => do return .create (← createVolume s req)
  | .delete req => do return .delete (← deleteVolume req)
  | .expand req => do return .expand (← controllerExpandVolume req)

/-- The project, location and name of the instance that a request is about, if the request is
accepted. -/
def resolve (s : ControllerServer) : ControllerRequest → Option (String × String × String)
  | .create req =>
    match validateCreate s req with
    | .ok (i, _) => some (i.project, i.location, i.name)
    | .error _ => none
  | .delete req => (parseVolumeID req.volumeID).toOption
  | .expand req => (parseVolumeID req.volumeID).toOption

/-- The string that the handler of a request locks. -/
def lockName (s : ControllerServer) : ControllerRequest → String
  | .create req => toLower s.unicode req.name
  | .delete req => req.volumeID
  | .expand req => req.volumeID

/-- What the preparation of a new instance yields. -/
theorem prepareNewInstance_eq_ok {name : String} {capBytes : Int} {top : Option TopologyRequirement}
    (h : prepareNewInstance s name capBytes params top = .ok i) :
    ∃ location throughput, pickZone s top = .ok location ∧ throughputOf params = .ok throughput ∧
      i = { name := name, project := s.project, location := location
            capacityGib := bytesToGib capBytes, network := networkOf s params
            gkeSupportEnabled := s.enableLegacyLustrePort, description := descriptionOf params
            filesystem := params.get keyFilesystem
            perUnitStorageThroughput := throughput } := by
  simp only [prepareNewInstance] at h
  split at h
  · simp at h
  rename_i location hzone
  split at h
  · simp at h
  rename_i throughput hthroughput
  exact ⟨location, throughput, hzone, hthroughput, (Except.ok.inj h).symm⟩

/-- What the validation of a creation request yields. -/
theorem validateCreate_inv {req : CreateVolumeRequest} (h : validateCreate s req = .ok (i, params)) :
    ∃ capBytes, getRequestCapacity req.capacityRange = .ok capBytes ∧
      normalizeParams s.unicode req.parameters = .ok params ∧
      prepareNewInstance s (toLower s.unicode req.name) capBytes params
        req.accessibilityRequirements = .ok i := by
  simp only [validateCreate] at h
  split at h
  · simp at h
  split at h
  · simp at h
  split at h
  · simp at h
  rename_i capBytes hcap
  split at h
  · simp at h
  rename_i params' hparams
  split at h
  · simp at h
  rename_i newInstance hprepare
  simp only [Except.ok.injEq, Prod.mk.injEq] at h
  obtain ⟨rfl, rfl⟩ := h
  exact ⟨capBytes, hcap, hparams, hprepare⟩

/-- The instance of a creation request has the lower-case name and the server's project. -/
theorem validateCreate_eq_ok {req : CreateVolumeRequest}
    (h : validateCreate s req = .ok (i, params)) :
    i.name = toLower s.unicode req.name ∧ i.project = s.project := by
  obtain ⟨capBytes, -, -, hprepare⟩ := validateCreate_inv h
  obtain ⟨location, throughput, -, -, rfl⟩ := prepareNewInstance_eq_ok hprepare
  exact ⟨rfl, rfl⟩

/-- The empty text is no volume ID. -/
theorem not_parseVolumeID_empty : (parseVolumeID "").toOption = none := by
  decide

/-- The first thing that the handler of an accepted request does is to take its lock. -/
theorem ctrlBody_eq_call {req : ControllerRequest} {x : String × String × String}
    (h : resolve s req = some x) :
    ∃ k, ctrlBody s req = .call (.tryAcquire (lockName s req)) k := by
  cases req with
  | create req =>
    simp only [resolve] at h
    split at h
    · rename_i i params hval
      rw [lockName, ← (validateCreate_eq_ok hval).1]
      simp only [ctrlBody, createVolume, hval]
      exact ⟨_, rfl⟩
    · simp at h
  | delete req =>
    have hne : req.volumeID ≠ "" := fun he => by
      simp [resolve, he, not_parseVolumeID_empty] at h
    obtain ⟨pln, hparse⟩ : ∃ pln, parseVolumeID req.volumeID = .ok pln := by
      cases hp : parseVolumeID req.volumeID with
      | ok pln => exact ⟨pln, rfl⟩
      | error err => simp [resolve, hp, Except.toOption] at h
    simp only [ctrlBody, deleteVolume, if_neg hne, volumeIDToInstance, hparse]
    exact ⟨_, rfl⟩
  | expand req =>
    have hne : req.volumeID ≠ "" := fun he => by
      simp [resolve, he, not_parseVolumeID_empty] at h
    simp only [ctrlBody, controllerExpandVolume, if_neg hne]
    exact ⟨_, rfl⟩

/-! ## The locked part of a handler -/

/-- An operation that does not act on the lock set. -/
def NoLock : CloudOp → Prop
  | .tryAcquire _ => False
  | .release _ => False
  | _ => True

/-- A call that is none on locks is no event for the lock set. -/
theorem NoLock.event_eq (h : NoLock o) (r : o.Res) : ctrlLocks.event ⟨o, r⟩ = none := by
  cases o <;> first | rfl | exact h.elim

/-- Calls that only read are none on locks. -/
theorem noLock_of_reads (ho : Reads o) : NoLock o := by
  cases o <;> trivial

section Section

variable {R : Resources CloudState String}
  {G : ℕ → World ctrlSig CloudState → Event ctrlSig → Prop} {t : ℕ}

/-- The resources do not depend on the lock set. -/
def IgnoresLocks (R : Resources CloudState String) : Prop :=
  ∀ (s : CloudState) (l : Finset String), R.inv s → R.inv { s with locks := l } ∧
    R.mono s { s with locks := l } ∧ ∀ x, R.keeps x s { s with locks := l }

/-- A call that changes only the lock set keeps resources that do not depend on it. -/
theorem IgnoresLocks.keeps (hR : IgnoresLocks R) {r : o.Res} {l : Finset String}
    (hi : R.inv w.state) (hG : G t w ⟨o, r⟩) :
    Keeps ctrlLocks R G t w ⟨o, r⟩ { w.state with locks := l } := by
  obtain ⟨hinv, hmono, hkeeps⟩ := hR w.state l hi
  exact ⟨hinv, hmono, fun x _ => hkeeps x, hG⟩

/-- The rule for one operation inside a section. -/
theorem safe_invoke {ψ : CloudState → Prop} {f : o.Res → CtrlM α}
    {Q : α → World ctrlSig CloudState → Prop} (hψ : Protected R x ψ) (ho : NoLock o)
    (hw : Inside ctrlLocks t x ψ w)
    (hkeep : ∀ w r s', Inside ctrlLocks t x ψ w → (sectionContract ctrlLocks R G).inv w →
      CloudOutcome w.state o r s' → Keeps ctrlLocks R G t w ⟨o, r⟩ s')
    (hf : ∀ w r s', Inside ctrlLocks t x ψ w → (sectionContract ctrlLocks R G).inv w → R.inv s' →
      CloudOutcome w.state o r s' →
      (∀ ψ' : CloudState → Prop, ψ' s' → Inside ctrlLocks t x ψ' (w.after t ⟨o, r⟩ s')) →
      Safe CloudState.step t (sectionContract ctrlLocks R G) Q (f r) (w.after t ⟨o, r⟩ s')) :
    Safe CloudState.step t (sectionContract ctrlLocks R G) Q (invoke o >>= f) w := by
  have hprog : (invoke o >>= f) = .call o f := rfl
  rw [hprog]
  refine safe_op (Inside.stable hψ) hw (fun w r y _ he => ?_)
    (fun w r s' hF hi hs => hkeep w r s' hF hi (cloudOutcome_of_step hs)) fun w r s' hF hi hs => ?_
  · simp [ho.event_eq r] at he
  · have hout := cloudOutcome_of_step hs
    exact hf w r s' hF hi (hkeep w r s' hF hi hout).1 hout fun ψ' h => hF.after (ho.event_eq r) h

/-- The return rule inside a section. -/
theorem safe_return {a : α} {ψ : α → CloudState → Prop} (hψ : ∀ a, Protected R x (ψ a))
    (hw : Inside ctrlLocks t x (ψ a) w) :
    Safe CloudState.step t (sectionContract ctrlLocks R G)
      (fun a => Inside ctrlLocks t x (ψ a)) (pure a : CtrlM α) w :=
  Safe.ret (Inside.stable (hψ a)) hw fun _ _ h => h

/-- The rule for `TryAcquire`, the refusal, and `defer Release`. -/
theorem safe_withVolumeLock {refused : α} {body : CtrlM α} {Q : α → World ctrlSig CloudState → Prop}
    {w : World ctrlSig CloudState} (hR : IgnoresLocks R) (hG : ∀ w o r, ¬NoLock o → G t w ⟨o, r⟩)
    (hQ : ∀ a, Stable t (sectionContract ctrlLocks R G) (Q a))
    (hrefused : ∀ w : World ctrlSig CloudState,
      Q refused (w.after t ⟨.tryAcquire x, false⟩ w.state))
    (hrelease : ∀ a (w : World ctrlSig CloudState) l, Q a w →
      Q a (w.after t ⟨.release x, ()⟩ { w.state with locks := l }))
    (hbody : ∀ w, (sectionContract ctrlLocks R G).inv w →
      Inside ctrlLocks t x (fun _ => True) w →
      Safe CloudState.step t (sectionContract ctrlLocks R G)
        (fun a w => Inside ctrlLocks t x (fun _ => True) w ∧ Q a w) body w) :
    Safe CloudState.step t (sectionContract ctrlLocks R G) Q (withVolumeLock x refused body) w := by
  have hTrue : Stable t (sectionContract ctrlLocks R G) fun _ => True := fun _ _ _ _ _ => trivial
  have hprog : withVolumeLock x refused body = .call (CloudOp.tryAcquire x) fun acquired : Bool =>
      if acquired then body >>= fun a => .call (CloudOp.release x) fun _ => .ret a
      else .ret refused := rfl
  rw [hprog]
  refine safe_op hTrue trivial (fun w r y _ he => ?_)
    (fun w r s' _ hi hs => ?_) fun w r s' _ hi hs => ?_
  · cases r <;> simp [ctrlLocks, ctrlLockEvent] at he
  · obtain ⟨rfl, -, rfl⟩ | ⟨rfl, -, rfl⟩ := cloudOutcome_of_step hs
    · exact hR.keeps hi.2 (hG _ _ _ fun h => h)
    · exact Keeps.refl hi.2 (hG _ _ _ fun h => h)
  · obtain ⟨rfl, hfree, rfl⟩ | ⟨rfl, -, rfl⟩ := cloudOutcome_of_step hs
    · have hinside : Inside ctrlLocks t x (fun _ => True)
          (w.after t ⟨.tryAcquire x, true⟩ { w.state with locks := insert x w.state.locks }) :=
        ⟨(ctrlLocks.holds_cons_acquired (by rfl) w.trace t x).mpr (.inl ⟨rfl, rfl⟩), trivial⟩
      have hinv : (sectionContract ctrlLocks R G).inv
          (w.after t ⟨.tryAcquire x, true⟩ { w.state with locks := insert x w.state.locks }) :=
        ⟨hi.1.after hs fun y hy => by simp [ctrlLocks, ctrlLockEvent] at hy,
          (hR w.state _ hi.2).1⟩
      simp only [if_true]
      refine Safe.bind (hbody _ hinv hinside) fun a w₁ hi₁ hw₁ => ?_
      -- The section ends: its lock is released by its holder.
      refine safe_op (F := fun w => Inside ctrlLocks t x (fun _ => True) w
        ∧ Q a w) (fun w w' h hr hi => ⟨Inside.stable (.true x) w w' h.1 hr hi, hQ a w w' h.2 hr hi⟩)
        hw₁ (fun w r y hF he => ?_) (fun w r s' _ hi hs => ?_) fun w r s' hF hi hs => ?_
      · obtain rfl : x = y := by simpa [ctrlLocks, ctrlLockEvent] using he
        exact hF.1.1
      · obtain rfl : s' = _ := cloudOutcome_of_step hs
        exact hR.keeps hi.2 (hG _ _ _ fun h => h)
      · obtain rfl : s' = _ := cloudOutcome_of_step hs
        exact Safe.ret (hQ a) (hrelease a w _ hF.2) fun _ _ h => h
    · exact Safe.ret (hQ refused) (hrefused w) fun _ _ h => h

end Section

end LustreCsi.Interface
