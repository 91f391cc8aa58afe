import LustreCsi.Computation.Restarts
import LustreCsi.Interface.ControllerSample
import LustreCsi.Interface.ResourceNames

/-!
# Where instances come from, and what becomes of them

Any number of controller handlers run at once, and the server may crash at any moment: its lock set
is lost then, while the API goes on. `provenance`: every instance was there at the beginning or is
what a request for its name has asked for, its capacity is one that was asked for, and an instance
that no request wants deleted stays.

`Provenance` is a property of the state alone: no handler needs its lock for it. Each operation
keeps it if the request of the handler permits the operation (`provenance_step`).
-/

set_option autoImplicit false

namespace LustreCsi.Analysis.InstanceProvenance

open LustreCsi.Computation Model Interface

/-! ## What requests ask for -/

/-- The request asks for the work on the instance of the name. -/
def Asks (server : ControllerServer) (req : ControllerRequest) (work : Work) (n : String) : Prop :=
  match req, work with
  | .create req, .create =>
    ∃ i params, validateCreate server req = .ok (i, params) ∧ instanceFullName i = n
  | .delete req, .delete => ∃ i, volumeIDToInstance req.volumeID = .ok i ∧ instanceFullName i = n
  | .expand req, .update capacityGib =>
    ∃ i capBytes, volumeIDToInstance req.volumeID = .ok i ∧ instanceFullName i = n ∧
      getRequestCapacity req.capacityRange = .ok capBytes ∧ bytesToGib capBytes = capacityGib
  | _, _ => False

/-- The request asks for an instance of the name with these fields; the labels are those of the
parameters, and the name of the file system is the requested one, if there is one. -/
def Orders (server : ControllerServer) (req : ControllerRequest) (n : String) (spec : InstanceSpec) :
    Prop :=
  ∃ r i params labels filesystem, req = .create r ∧ validateCreate server r = .ok (i, params) ∧
    instanceFullName i = n ∧ extractLabels server.unicode params server.driverName = .ok labels ∧
    (i.filesystem ≠ "" → filesystem = i.filesystem) ∧
    spec = ({ i with labels := labels, filesystem := filesystem } : ServiceInstance).spec

/-- Who orders an instance asks for its creation. -/
theorem Orders.asks {server : ControllerServer} {req : ControllerRequest} {n : String}
    {spec : InstanceSpec} (h : Orders server req n spec) : Asks server req .create n := by
  obtain ⟨r, i, params, -, -, rfl, hval, hn, -⟩ := h
  exact ⟨i, params, hval, hn⟩

/-- The API is at this work on the instance of the name. -/
def Doing (s : CloudState) (work : Work) (n : String) : Prop :=
  ∃ o ∈ s.operations, o.progress = .pending ∧ o.work = some work ∧ o.target = n

section Accounts

variable (server : ControllerServer) (requests : ℕ → ℕ → ControllerRequest) (s₀ : CloudState)

/-- The work was under way at the beginning, or a request asks for it. -/
def Due (work : Work) (n : String) : Prop :=
  Doing s₀ work n ∨ ∃ e t, Asks server (requests e t) work n

/-- The fields of the instance of the name are the same, apart from a capacity that was asked for. -/
structure Resized (n : String) (spec spec' : InstanceSpec) : Prop where
  same : spec' = { spec with capacityGib := spec'.capacityGib }
  capacity : spec'.capacityGib = spec.capacityGib ∨
    Due server requests s₀ (.update spec'.capacityGib) n

/-- How the instances of a state go back to the beginning and to the requests. -/
structure Provenance (s : CloudState) : Prop where
  pending : ∀ work n, Doing s work n → Due server requests s₀ work n
  creating : ∀ n, Doing s .create n →
    Doing s₀ .create n ∨ Due server requests s₀ .delete n ∨ s₀.find n = none
  kept : ∀ n i₀, s₀.find n = some i₀ → ¬Doing s₀ .create n → ¬Due server requests s₀ .delete n →
    ∃ i, s.find n = some i ∧ i.state = i₀.state ∧ i.mountPoint = i₀.mountPoint ∧
      Resized server requests s₀ n i₀.toInstanceSpec i.toInstanceSpec
  origin : ∀ n i, s.find n = some i →
    (∃ i₀, s₀.find n = some i₀ ∧ Resized server requests s₀ n i₀.toInstanceSpec i.toInstanceSpec) ∨
      ∃ e t spec, Orders server (requests e t) n spec ∧
        Resized server requests s₀ n spec i.toInstanceSpec

variable {server requests s₀} {s s' : CloudState}

/-- An instance that has not changed. -/
theorem Resized.refl (n : String) (spec : InstanceSpec) : Resized server requests s₀ n spec spec :=
  ⟨rfl, .inl rfl⟩

/-- Two changes of the capacity. -/
theorem Resized.trans {n : String} {spec spec' spec'' : InstanceSpec}
    (h : Resized server requests s₀ n spec spec') (h' : Resized server requests s₀ n spec' spec'') :
    Resized server requests s₀ n spec spec'' where
  same := by
    rw [h'.same, h.same]
  capacity := by
    rcases h'.capacity with heq | hdue
    · rw [heq]
      exact h.capacity
    · exact .inr hdue

/-- At the beginning everything is accounted for. -/
theorem provenance_start : Provenance server requests s₀ s₀ where
  pending _ _ h := .inl h
  creating _ h := .inl h
  kept _ i₀ hi₀ _ _ := ⟨i₀, hi₀, rfl, rfl, .refl _ _⟩
  origin _ i hi := .inl ⟨i, hi, .refl _ _⟩

/-! ## What a step changes -/

/-- A state in which no instance is new is accounted for if what has changed was due. -/
theorem Provenance.of_changes (h : Provenance server requests s₀ s)
    (hdoing : ∀ work n, Doing s' work n →
      Doing s work n ∨ work ≠ .create ∧ Due server requests s₀ work n)
    (hold : ∀ n i', s'.find n = some i' → ∃ i, s.find n = some i ∧
      Resized server requests s₀ n i.toInstanceSpec i'.toInstanceSpec)
    (hkept : ∀ n i, s.find n = some i → ¬Doing s .create n → ¬Due server requests s₀ .delete n →
      ∃ i', s'.find n = some i' ∧ i'.state = i.state ∧ i'.mountPoint = i.mountPoint) :
    Provenance server requests s₀ s' where
  pending work n hn := (hdoing work n hn).elim (h.pending work n) And.right
  creating n hn := h.creating n ((hdoing _ n hn).resolve_right fun hnew => hnew.1 rfl)
  kept n i₀ hi₀ hcreate hdelete := by
    obtain ⟨i, hi, hstate, hmount, hspec⟩ := h.kept n i₀ hi₀ hcreate hdelete
    have hcreate' : ¬Doing s .create n := by
      intro hn
      rcases h.creating n hn with hstart | hdue | hnone
      · exact hcreate hstart
      · exact hdelete hdue
      · rw [hi₀] at hnone
        cases hnone
    obtain ⟨i', hi', hstate', hmount'⟩ := hkept n i hi hcreate' hdelete
    obtain ⟨j, hj, hspec'⟩ := hold n i' hi'
    obtain rfl := Option.some.inj (hi.symm.trans hj)
    exact ⟨i', hi', hstate'.trans hstate, hmount'.trans hmount, hspec.trans hspec'⟩
  origin n i' hi' := by
    obtain ⟨i, hi, hspec⟩ := hold n i' hi'
    rcases h.origin n i hi with ⟨i₀, hi₀, hspec₀⟩ | ⟨e, t, spec, horders, hspec₀⟩
    · exact .inl ⟨i₀, hi₀, hspec₀.trans hspec⟩
    · exact .inr ⟨e, t, spec, horders, hspec₀.trans hspec⟩

/-- An instance is removed that is being created or is to be deleted. -/
theorem Provenance.of_remove (h : Provenance server requests s₀ s)
    (hdoing : ∀ work n, Doing s' work n →
      Doing s work n ∨ work ≠ .create ∧ Due server requests s₀ work n)
    {target : String} (hfind : ∀ n, s'.find n = if n = target then none else s.find n)
    (htarget : Doing s .create target ∨ Due server requests s₀ .delete target) :
    Provenance server requests s₀ s' := by
  refine h.of_changes hdoing (fun n i' hi' => ?_) fun n i hi hcreate hdelete => ?_
  · rw [hfind] at hi'
    split at hi'
    · cases hi'
    · exact ⟨i', hi', .refl _ _⟩
  · rw [hfind, if_neg]
    · exact ⟨i, hi, rfl, rfl⟩
    · rintro rfl
      exact htarget.elim hcreate hdelete

/-- An instance is changed; its state changes only if it is being created or is to be deleted. -/
theorem Provenance.of_modify (h : Provenance server requests s₀ s)
    (hdoing : ∀ work n, Doing s' work n →
      Doing s work n ∨ work ≠ .create ∧ Due server requests s₀ work n)
    {target : String} {f : CloudInstance → CloudInstance}
    (hfind : ∀ n, s'.find n = if n = target then (s.find n).map f else s.find n)
    (hspec : ∀ i, Resized server requests s₀ target i.toInstanceSpec (f i).toInstanceSpec)
    (htarget : (∀ i, (f i).state = i.state ∧ (f i).mountPoint = i.mountPoint) ∨
      Doing s .create target ∨ Due server requests s₀ .delete target) :
    Provenance server requests s₀ s' := by
  refine h.of_changes hdoing (fun n i' hi' => ?_) fun n i hi hcreate hdelete => ?_
  · rw [hfind] at hi'
    split at hi'
    · rename_i heq
      obtain ⟨i, hi, rfl⟩ := Option.map_eq_some_iff.mp hi'
      exact ⟨i, hi, heq ▸ hspec i⟩
    · exact ⟨i', hi', .refl _ _⟩
  · rw [hfind]
    split
    · rename_i heq
      have hsame := htarget.resolve_right fun hor => hor.elim (heq ▸ hcreate) (heq ▸ hdelete)
      exact ⟨f i, by rw [hi]; rfl, hsame i⟩
    · exact ⟨i, hi, rfl, rfl⟩

/-- Nothing happens to the instances. -/
theorem Provenance.of_same (h : Provenance server requests s₀ s)
    (hdoing : ∀ work n, Doing s' work n →
      Doing s work n ∨ work ≠ .create ∧ Due server requests s₀ work n)
    (hfind : ∀ n, s'.find n = s.find n) : Provenance server requests s₀ s' := by
  refine h.of_changes hdoing (fun n i hi => ⟨i, ?_, .refl _ _⟩) fun n i hi _ _ => ⟨i, ?_, rfl, rfl⟩
  · rw [← hfind]
    exact hi
  · rw [hfind]
    exact hi

/-- What the API is at when it has accepted one more thing. -/
theorem doing_addOperation {parent target n : String} {work work' : Work}
    (h : Doing (s.addOperation parent target work) work' n) :
    Doing s work' n ∨ work' = work ∧ n = target := by
  obtain ⟨o, ho, hpending, hwork, htarget⟩ := h
  simp only [CloudState.addOperation, List.mem_append, List.mem_singleton] at ho
  rcases ho with ho | rfl
  · exact .inl ⟨o, ho, hpending, hwork, htarget⟩
  · exact .inr ⟨(Option.some.inj hwork).symm, htarget.symm⟩

/-- The end of an operation. -/
theorem doing_setProgress {k : ℕ} {o : Operation} {progress : Progress} (hp : progress ≠ .pending)
    (hops : s'.operations = s.operations) {work : Work} {n : String}
    (h : Doing (s'.setProgress k o progress) work n) : Doing s work n := by
  obtain ⟨o', ho', hpending, hwork, htarget⟩ := h
  rcases List.mem_or_eq_of_mem_set ho' with hold | rfl
  · exact ⟨o', hops ▸ hold, hpending, hwork, htarget⟩
  · exact absurd hpending hp

/-- The end of an operation of the API. -/
theorem provenance_complete {k : ℕ} {ending : Ending} (h : Provenance server requests s₀ s)
    (hc : s.complete k ending = some s') : Provenance server requests s₀ s' := by
  obtain ⟨o, ho, hpending, hend⟩ := complete_eq_some hc
  cases hwork : o.work with
  | none =>
    rw [hwork] at hend
    rcases hend with ⟨ip, -, rfl⟩ | ⟨code, message, -, rfl⟩
    · exact h.of_same (fun _ _ hn => .inl (doing_setProgress (by simp) rfl hn)) fun _ => rfl
    · exact h.of_same (fun _ _ hn => .inl (doing_setProgress (by simp) rfl hn)) fun _ => rfl
  | some work =>
    have hdoing : Doing s work o.target := ⟨o, List.mem_of_getElem? ho, hpending, hwork, rfl⟩
    have hdue := h.pending work o.target hdoing
    rw [hwork] at hend
    rcases hend with ⟨ip, -, rfl⟩ | ⟨code, message, -, rfl⟩
    · have hops : ∀ work' n, Doing ((s.finish o.target ip work).setProgress k o .succeeded) work' n →
          Doing s work' n ∨ work' ≠ .create ∧ Due server requests s₀ work' n :=
        fun _ _ hn => .inl (doing_setProgress (by simp) (finish_operations s o.target ip work) hn)
      cases work with
      | create =>
        exact h.of_modify hops (fun n => find_modify s o.target n fun _ => rfl) (fun _ => .refl _ _)
          (.inr (.inl hdoing))
      | delete => exact h.of_remove hops (find_remove s o.target) (.inr hdue)
      | update capacityGib =>
        exact h.of_modify hops (fun n => find_modify s o.target n fun _ => rfl)
          (fun _ => ⟨rfl, .inr hdue⟩) (.inl fun _ => ⟨rfl, rfl⟩)
    · have hops : ∀ work' n,
          Doing ((s.abandon o.target work).setProgress k o (.failed code message)) work' n →
            Doing s work' n ∨ work' ≠ .create ∧ Due server requests s₀ work' n :=
        fun _ _ hn => .inl (doing_setProgress (by simp) (abandon_operations s o.target work) hn)
      cases work with
      | create => exact h.of_remove hops (find_remove s o.target) (.inl hdoing)
      | delete => exact h.of_same hops fun _ => rfl
      | update capacityGib => exact h.of_same hops fun _ => rfl

/-- A creation is accepted. -/
theorem provenance_accept {e t : ℕ} {parent id : String} {spec : InstanceSpec}
    (h : Provenance server requests s₀ s) (hcreatable : s.creatable parent id = true)
    (horders : Orders server (requests e t) (nameBelow parent id) spec) :
    Provenance server requests s₀ (s.accept parent id spec) := by
  have hnone : s.find (nameBelow parent id) = none := by
    simpa using (Bool.and_eq_true_iff.mp hcreatable).2
  have hdoing : ∀ work n, Doing (s.accept parent id spec) work n →
      Doing s work n ∨ work = .create ∧ n = nameBelow parent id :=
    fun work n hn => doing_addOperation hn
  refine ⟨fun work n hn => ?_, fun n hn => ?_, fun n i₀ hi₀ hcreate hdelete => ?_, fun n i hi => ?_⟩
  · rcases hdoing work n hn with hold | ⟨rfl, rfl⟩
    · exact h.pending work n hold
    · exact .inr ⟨e, t, horders.asks⟩
  · rcases hdoing .create n hn with hold | ⟨-, rfl⟩
    · exact h.creating n hold
    · -- An instance that is not accounted for otherwise would still be there.
      by_contra hnot
      rw [not_or, not_or] at hnot
      obtain ⟨i₀, hi₀⟩ := Option.ne_none_iff_exists'.mp hnot.2.2
      obtain ⟨i, hi, -⟩ := h.kept _ i₀ hi₀ hnot.1 hnot.2.1
      rw [hnone] at hi
      cases hi
  · obtain ⟨i, hi, hrest⟩ := h.kept n i₀ hi₀ hcreate hdelete
    refine ⟨i, ?_, hrest⟩
    rw [find_accept, if_neg]
    · exact hi
    · rintro rfl
      rw [hnone] at hi
      cases hi
  · rw [find_accept] at hi
    split at hi
    · rename_i heq
      obtain rfl := Option.some.inj hi
      exact .inr ⟨e, t, spec, heq ▸ horders, .refl _ _⟩
    · exact h.origin n i hi

/-- What the handler of a request may do to the instances. -/
def Permitted (server : ControllerServer) (req : ControllerRequest) : CloudOp → Prop
  | .createInstance parent id spec => Orders server req (nameBelow parent id) spec
  | .deleteInstance n => Asks server req .delete n
  | .updateInstance n capacityGib => Asks server req (.update capacityGib) n
  | _ => True

/-- **The step lemma.** What the request of a handler permits keeps the instances accounted for. -/
theorem provenance_step {e t : ℕ} {o : CloudOp} {r : o.Res} (h : Provenance server requests s₀ s)
    (ho : Permitted server (requests e t) o) (hs : s.step o r s') : Provenance server requests s₀ s' := by
  have hout := cloudOutcome_of_step hs
  have hawaited : ∀ {k}, Awaited s k s' → Provenance server requests s₀ s' := by
    rintro k (rfl | ⟨ending, hc⟩)
    · exact h
    · exact provenance_complete h hc
  have hlocks : ∀ l, Provenance server requests s₀ { s with locks := l } :=
    fun l => h.of_same (fun _ _ hn => .inl hn) fun _ => rfl
  have hreads : Reads o → Provenance server requests s₀ s' := fun hr => state_of_reads hr hout ▸ h
  cases o with
  | tryAcquire x =>
    obtain ⟨-, -, rfl⟩ | ⟨-, -, rfl⟩ := hout
    · exact hlocks _
    · exact h
  | release x =>
    obtain rfl : s' = _ := hout
    exact hlocks _
  | createInstance parent id spec =>
    obtain ⟨-, hcreatable, rfl⟩ | ⟨-, -, rfl | ⟨hcreatable, rfl⟩⟩ := hout
    · exact provenance_accept h hcreatable ho
    · exact h
    · exact provenance_accept h hcreatable ho
  | deleteInstance n =>
    have hdue : Due server requests s₀ .delete n := .inr ⟨e, t, ho⟩
    have haccept : Provenance server requests s₀ (s.acceptDelete n) := by
      refine h.of_modify (fun work m hm => ?_) (fun m => find_modify s n m fun _ => rfl)
        (fun _ => .refl _ _) (.inr (.inr hdue))
      rcases doing_addOperation hm with hold | ⟨rfl, rfl⟩
      · exact .inl hold
      · exact .inr ⟨by simp, hdue⟩
    obtain ⟨-, -, rfl⟩ | ⟨-, -, ⟨rfl, -⟩ | ⟨-, rfl⟩⟩ := hout
    · exact haccept
    · exact h
    · exact haccept
  | updateInstance n capacityGib =>
    have haccept : Provenance server requests s₀ (s.acceptUpdate n capacityGib) := by
      refine h.of_same (fun work m hm => ?_) fun _ => rfl
      rcases doing_addOperation hm with hold | ⟨rfl, rfl⟩
      · exact .inl hold
      · exact .inr ⟨by simp, .inr ⟨e, t, ho⟩⟩
    obtain ⟨-, -, rfl⟩ | ⟨-, -, rfl | rfl⟩ := hout
    · exact haccept
    · exact h
    · exact haccept
  | waitInstance k => exact hawaited hout.1
  | waitDelete k => exact hawaited hout.1
  | _ => exact hreads trivial

/-! ## The handlers -/

variable {e t : ℕ} {α : Type}

/-- The rule for an operation of a handler. -/
theorem maintains_invoke {Q : α → Prop} {o : CloudOp} {f : o.Res → CtrlM α}
    (ho : Permitted server (requests e t) o)
    (hf : ∀ s r s', CloudOutcome s o r s' →
      Maintains CloudState.step (Provenance server requests s₀) Q (f r)) :
    Maintains CloudState.step (Provenance server requests s₀) Q (invoke o >>= f) :=
  .perform (fun _ _ _ h hs => provenance_step h ho hs) fun s r s' _ hs => hf s r s' (cloudOutcome_of_step hs)

/-- A part of a handler that performs only permitted operations. -/
theorem maintains_all {p : CtrlM α} (hp : p.All (Permitted server (requests e t))) :
    Maintains CloudState.step (Provenance server requests s₀) (fun _ => True) p :=
  .all (fun _ ho _ _ _ h hs => provenance_step h ho hs) hp

/-- The API answers with the instance that was asked for. -/
theorem maintains_getInstance (i : ServiceInstance) :
    Maintains CloudState.step (Provenance server requests s₀)
      (fun r => ∀ found, r = .ok found → instanceFullName found = instanceFullName i) (getInstance i) := by
  refine maintains_invoke (e := 0) (t := 0) trivial fun s r s' hout => ?_
  obtain ⟨-, ⟨reported, rfl, hfind⟩ | ⟨err, rfl, -⟩⟩ := hout
  · intro found hfound
    rw [(fullName_of_conversion hfound).1, name_of_find hfind]
  · intro found hfound
    cases hfound

/-- The rule for the lock of a handler. -/
theorem maintains_withVolumeLock {name : String} {refused : α} {body : CtrlM α}
    (hbody : Maintains CloudState.step (Provenance server requests s₀) (fun _ => True) body) :
    Maintains CloudState.step (Provenance server requests s₀) (fun _ => True)
      (withVolumeLock name refused body) := by
  refine maintains_invoke (e := 0) (t := 0) trivial fun s acquired s' _ => ?_
  split
  · refine .bind hbody fun a _ => ?_
    exact maintains_invoke (e := 0) (t := 0) trivial fun _ _ _ _ => .pure trivial
  · exact .pure trivial

/-- The name of the file system is the requested one, if there is one. -/
theorem maintains_generateUniqueFilesystemName (i : ServiceInstance) :
    Maintains CloudState.step (Provenance server requests s₀)
      (fun r => ∀ fsname, r = .ok fsname → i.filesystem ≠ "" → fsname = i.filesystem)
      (generateUniqueFilesystemName i) := by
  by_cases hfs : i.filesystem = ""
  · have hall : (generateUniqueFilesystemName i).All (Permitted server (requests 0 0)) :=
      all_generateUniqueFilesystemName (fun _ => trivial) (fun _ => trivial) fun _ => trivial
    exact (maintains_all hall).mono fun _ _ _ _ hne => absurd hfs hne
  unfold generateUniqueFilesystemName
  rw [if_pos hfs]
  intro fsname heq _
  exact (Except.ok.inj heq).symm

/-- A creation keeps everything accounted for. -/
theorem maintains_createLocked {req : CreateVolumeRequest} {i : ServiceInstance} {params : StrMap}
    (hreq : requests e t = .create req) (hval : validateCreate server req = .ok (i, params)) :
    Maintains CloudState.step (Provenance server requests s₀) (fun _ => True)
      (createLocked server i params) := by
  refine .bind (maintains_getInstance i) fun r _ => ?_
  split
  · exact .pure trivial
  split
  · exact .pure trivial
  have hsearch : (getCreateInstanceOp server.unicode i).All (Permitted server (requests 0 0)) :=
    all_searchOperations _ trivial
  refine .bind (maintains_all hsearch) fun r _ => ?_
  split
  · exact .pure trivial
  split
  · exact .pure trivial
  unfold createNew
  split
  · exact .pure trivial
  rename_i labels hlabels
  refine .bind (maintains_generateUniqueFilesystemName _) fun r hname => ?_
  split
  · exact .pure trivial
  rename_i fsname
  have hcreate : Permitted server (requests e t) (.createInstance (locationName i.project i.location)
      i.name ({ i with labels := labels, filesystem := fsname } : ServiceInstance).spec) :=
    ⟨req, i, params, labels, fsname, hreq, hval, (nameBelow_eq i.project i.location i.name).symm,
      hlabels, hname fsname rfl, rfl⟩
  have hall : (createInstance { i with labels := labels, filesystem := fsname }).All
      (Permitted server (requests e t)) := all_createInstance hcreate fun _ => trivial
  refine .bind (maintains_all hall) fun r _ => ?_
  split <;> exact .pure trivial

/-- A deletion keeps everything accounted for. -/
theorem maintains_deleteLocked {req : DeleteVolumeRequest} {i : ServiceInstance}
    (hreq : requests e t = .delete req) (hid : volumeIDToInstance req.volumeID = .ok i) :
    Maintains CloudState.step (Provenance server requests s₀) (fun _ => True)
      (deleteLocked req.volumeID i) := by
  refine .bind (maintains_getInstance i) fun r hfound => ?_
  split
  · split <;> exact .pure trivial
  rename_i found
  split
  · exact .pure trivial
  have hdelete : Permitted server (requests e t) (.deleteInstance (instanceFullName found)) := by
    rw [hreq]
    exact ⟨i, hid, (hfound found rfl).symm⟩
  have hall : (deleteInstance found).All (Permitted server (requests e t)) :=
    all_deleteInstance hdelete fun _ => trivial
  refine .bind (maintains_all hall) fun r _ => ?_
  split <;> exact .pure trivial

/-- An expansion keeps everything accounted for. -/
theorem maintains_expandLocked {req : ControllerExpandVolumeRequest} (hreq : requests e t = .expand req) :
    Maintains CloudState.step (Provenance server requests s₀) (fun _ => True) (expandLocked req) := by
  unfold expandLocked
  split
  · exact .pure trivial
  rename_i i hid
  refine .bind (maintains_getInstance i) fun r hfound => ?_
  split
  · exact .pure trivial
  rename_i found
  unfold expandFound
  split
  · exact .pure trivial
  split
  · exact .pure trivial
  rename_i capBytes hcap
  split
  · exact .pure trivial
  have hupdates : (isUpdateInProgress found).All (Permitted server (requests 0 0)) :=
    all_isUpdateInProgress trivial
  refine .bind (maintains_all hupdates) fun r _ => ?_
  split
  · exact .pure trivial
  · exact .pure trivial
  · have hupdate : Permitted server (requests e t)
        (.updateInstance (instanceFullName found) (bytesToGib capBytes)) := by
      rw [hreq]
      exact ⟨i, capBytes, hid, (hfound found rfl).symm, hcap, rfl⟩
    have hall : (resizeInstance { found with capacityGib := bytesToGib capBytes }).All
        (Permitted server (requests e t)) := all_resizeInstance hupdate fun _ => trivial
    refine .bind (maintains_all hall) fun r _ => ?_
    split <;> exact .pure trivial

/-- Every handler keeps the instances accounted for. -/
theorem maintains_ctrlBody (e t : ℕ) :
    Maintains CloudState.step (Provenance server requests s₀) (fun _ => True)
      (ctrlBody server (requests e t)) := by
  cases hreq : requests e t with
  | create req =>
    refine .bind (Q := fun _ => True) ?_ fun _ _ => .pure trivial
    unfold createVolume
    split
    · exact .pure trivial
    rename_i i params hval
    exact maintains_withVolumeLock (maintains_createLocked hreq hval)
  | delete req =>
    refine .bind (Q := fun _ => True) ?_ fun _ _ => .pure trivial
    unfold deleteVolume
    split
    · exact .pure trivial
    split
    · exact .pure trivial
    rename_i i hid
    exact maintains_withVolumeLock (maintains_deleteLocked hreq hid)
  | expand req =>
    refine .bind (Q := fun _ => True) ?_ fun _ _ => .pure trivial
    unfold controllerExpandVolume
    split
    · exact .pure trivial
    · exact maintains_withVolumeLock (maintains_expandLocked hreq)

end Accounts

/-! ## Every run -/

/-- A crash of the controller: the lock set is lost. -/
def Crash (s s' : CloudState) : Prop := s' = { s with locks := ∅ }

/-- **Provenance.** Through any number of crashes of the controller and in any interleaving of handlers,
API calls that fail before or after their effect and operations that end at any time, every instance is
accounted for. It was there at the beginning or is what a request for its name has asked for, with the
capacity from then or one that a request asks to expand it to. A name for which nobody asks gets no
instance. An instance that was there and not about to be created or deleted, and that no request wants
deleted, is still there in the same state, with the same mount point and the same fields.
SOURCE: pkg/csi_driver/controller.go:170-313, 579-646, pkg/cloud_provider/lustre/lustre.go:144-189, 238-390 -/
theorem provenance {server : ControllerServer} {requests : ℕ → ℕ → ControllerRequest} {s₀ : CloudState}
    {e : ℕ} {c : Config ctrlSig CloudState ControllerResponse}
    (hrun : Restarts CloudState.step CloudState.Progresses Crash
      (fun e t => ctrlBody server (requests e t)) s₀ e c) (n : String) :
    (∀ i, c.world.state.find n = some i →
      (∃ i₀, s₀.find n = some i₀ ∧
        Resized server requests s₀ n i₀.toInstanceSpec i.toInstanceSpec) ∨
      ∃ e t spec, Orders server (requests e t) n spec ∧
        Resized server requests s₀ n spec i.toInstanceSpec) ∧
    (s₀.find n = none → (∀ e t, ¬Asks server (requests e t) .create n) → c.world.state.find n = none) ∧
    ∀ i₀, s₀.find n = some i₀ → ¬Doing s₀ .create n → ¬Doing s₀ .delete n →
      (∀ e t, ¬Asks server (requests e t) .delete n) →
      ∃ i, c.world.state.find n = some i ∧ i.state = i₀.state ∧ i.mountPoint = i₀.mountPoint ∧
        Resized server requests s₀ n i₀.toInstanceSpec i.toInstanceSpec := by
  have h : Provenance server requests s₀ c.world.state := by
    refine hrun.maintained provenance_start maintains_ctrlBody ?_ ?_
    · rintro s s' h ⟨k, ending, hc⟩
      exact provenance_complete h hc
    · rintro s s' h rfl
      exact h.of_same (fun _ _ hn => .inl hn) fun _ => rfl
  refine ⟨h.origin n, fun hnone hasks => ?_, fun i₀ hi₀ hcreate hdelete hasks => ?_⟩
  · by_contra hsome
    obtain ⟨i, hi⟩ := Option.ne_none_iff_exists'.mp hsome
    rcases h.origin n i hi with ⟨i₀, hi₀, -⟩ | ⟨e, t, spec, horders, -⟩
    · rw [hnone] at hi₀
      cases hi₀
    · exact hasks e t horders.asks
  · refine h.kept n i₀ hi₀ hcreate ?_
    rintro (hdoing | ⟨e, t, hask⟩)
    · exact hdelete hdoing
    · exact hasks e t hask

section Sample

open Interface.ControllerSample

/-- The same volume is asked for again and again. -/
def vol (_ _ : ℕ) : ControllerRequest := .create (createRequest "vol")

/-- The API accepts the creation of the volume. -/
theorem accepted_played :
    (playPool (S := ctrlSig) CloudState.exec (fun t => ctrlBody server (vol 0 t))
      [.spawn 0, .call 0 .ok, .call 0 .ok, .call 0 (.operations [] none), .call 0 .ok]
      (.start ControllerSample.empty)).map
        (fun c => (c.world.state.find (resourceName "proj" "us-central1-a" "vol")).isSome) =
      some true := by
  decide +kernel

/-- The controller crashes after its request to create the volume was accepted; the instance is
accounted for. -/
theorem provenance_crash : ∃ c,
    Restarts CloudState.step CloudState.Progresses Crash (fun e t => ctrlBody server (vol e t))
      ControllerSample.empty 1 c ∧
    ∃ i e t spec, c.world.state.find (resourceName "proj" "us-central1-a" "vol") = some i ∧
      Orders server (vol e t) (resourceName "proj" "us-central1-a" "vol") spec ∧
      Resized server vol ControllerSample.empty (resourceName "proj" "us-central1-a" "vol") spec
        i.toInstanceSpec := by
  obtain ⟨c, hplay, hsome⟩ := Option.map_eq_some_iff.mp accepted_played
  have hstart : Restarts CloudState.step CloudState.Progresses Crash
      (fun e t => ctrlBody server (vol e t)) ControllerSample.empty 0 c :=
    Restarts.start.of_run (playPool_run (fun _ => trivial) hplay)
  have hcrash : Restarts CloudState.step CloudState.Progresses Crash
      (fun e t => ctrlBody server (vol e t)) ControllerSample.empty 1
      (.start { c.world.state with locks := ∅ }) := .crash hstart rfl
  obtain ⟨i, hi⟩ := Option.isSome_iff_exists.mp hsome
  refine ⟨_, hcrash, i, ?_⟩
  rcases (provenance hcrash _).1 i hi with ⟨i₀, hi₀, -⟩ | ⟨e, t, spec, horders, hspec⟩
  · cases hi₀
  · exact ⟨e, t, spec, hi, horders, hspec⟩

end Sample

end LustreCsi.Analysis.InstanceProvenance
