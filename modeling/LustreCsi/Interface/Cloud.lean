import LustreCsi.Computation.LockedSection
import LustreCsi.Model.Controller

/-!
# What the operations of the controller do

`CloudOutcome` lists, operation by operation, what a step of `CloudState` can be;
`cloudOutcome_of_step` is the only place where `CloudState.exec` is unfolded. The second part says
which operations the functions of the controller perform.
-/

set_option autoImplicit false

namespace LustreCsi.Interface

open LustreCsi.Computation Model

variable {s s' : CloudState} {k : ℕ} {ending : Ending} {o : CloudOp} {r : o.Res}
  {i : ServiceInstance}

/-! ## Instances and operations by name and index -/

/-- There is no instance of a name exactly if all instances have other names. -/
theorem find_eq_none {n : String} :
    s.find n = none ↔ ∀ i ∈ s.instances, i.name ≠ n := by
  simp [CloudState.find]

/-- The instance that is found has the name. -/
theorem name_of_find {n : String} {i : CloudInstance} (h : s.find n = some i) :
    i.name = n := by
  simpa using List.find?_some h

/-- A change that keeps names concerns the instance of the name alone. -/
theorem find_modify (s : CloudState) (n m : String) {f : CloudInstance → CloudInstance}
    (hf : ∀ i, (f i).name = i.name) :
    (s.modify n f).find m = if m = n then (s.find m).map f else s.find m := by
  have hname : ∀ i : CloudInstance, (if i.name = n then f i else i).name = i.name := by
    intro i
    split <;> simp [hf]
  simp only [CloudState.find, CloudState.modify, List.find?_map, Function.comp_def, hname]
  cases hfind : s.instances.find? (fun i => i.name = m) with
  | none => simp
  | some i =>
    have him : i.name = m := name_of_find hfind
    by_cases hmn : m = n <;> simp [him, hmn]

/-- Removing an instance leaves the others. -/
theorem find_remove (s : CloudState) (n m : String) :
    (s.remove n).find m = if m = n then none else s.find m := by
  by_cases hmn : m = n
  · subst hmn
    rw [if_pos rfl, find_eq_none]
    simp [CloudState.remove]
  rw [if_neg hmn]
  simp only [CloudState.find, CloudState.remove, List.find?_filter]
  congr 1
  funext i
  by_cases him : i.name = m <;> simp [him, hmn]

/-- After a creation was accepted there is the new instance, and the others as before. -/
theorem find_accept (s : CloudState) (parent id : String) (spec : InstanceSpec) (m : String) :
    (s.accept parent id spec).find m =
      if m = nameBelow parent id then some ⟨spec, nameBelow parent id, "", .creating⟩
      else s.find m := by
  simp only [CloudState.find, CloudState.accept, CloudState.addOperation, List.find?_cons]
  by_cases hm : m = nameBelow parent id
  · simp [hm]
  · simp [hm, Ne.symm hm]

/-- How a pending operation ends. -/
theorem complete_eq_some (h : s.complete k ending = some s') :
    ∃ o, s.operations[k]? = some o ∧ o.progress = .pending ∧
      ((∃ ip, ending = .succeed ip ∧
          s' = (o.work.elim s (s.finish o.target ip)).setProgress k o .succeeded) ∨
        ∃ code message, ending = .fail code message ∧
          s' = (o.work.elim s (s.abandon o.target)).setProgress k o (.failed code message)) := by
  simp only [CloudState.complete] at h
  split at h
  · rename_i o ho
    split at h
    · rename_i hpending
      refine ⟨o, ho, hpending, ?_⟩
      cases ending with
      | succeed ip => exact .inl ⟨ip, rfl, by simpa using h.symm⟩
      | fail code message => exact .inr ⟨code, message, rfl, by simpa using h.symm⟩
    · simp at h
  · simp at h

/-- The end of an operation of the API does not concern the lock set. -/
@[simp] theorem finish_locks (s : CloudState) (target ip : String) (w : Work) :
    (s.finish target ip w).locks = s.locks := by
  cases w <;> rfl

/-- Doing the work of an operation does not change the list of operations. -/
@[simp] theorem finish_operations (s : CloudState) (target ip : String) (w : Work) :
    (s.finish target ip w).operations = s.operations := by
  cases w <;> rfl

/-- The failure of an operation of the API does not concern the lock set. -/
@[simp] theorem abandon_locks (s : CloudState) (target : String) (w : Work) :
    (s.abandon target w).locks = s.locks := by
  cases w <;> rfl

/-- Giving up the work of an operation does not change the list of operations. -/
@[simp] theorem abandon_operations (s : CloudState) (target : String) (w : Work) :
    (s.abandon target w).operations = s.operations := by
  cases w <;> rfl

/-- The end of an operation does not concern the locks. -/
theorem complete_locks (h : s.complete k ending = some s') : s'.locks = s.locks := by
  obtain ⟨o, -, -, ⟨ip, -, rfl⟩ | ⟨code, message, -, rfl⟩⟩ := complete_eq_some h
  · cases ho : o.work <;> simp [CloudState.setProgress]
  · cases ho : o.work <;> simp [CloudState.setProgress]

/-- An instance that waiting for an operation answers when the operation ends. -/
theorem created_of_complete {o : Operation} {i : CloudInstance} (ho : s.operations[k]? = some o)
    (hc : s.complete k ending = some s') (h : s'.created k = some i) :
    ∃ ip, (o.work.elim s (s.finish o.target ip)).find o.target = some i := by
  obtain ⟨o', ho', -, ⟨ip, -, rfl⟩ | ⟨code, message, -, rfl⟩⟩ := complete_eq_some hc
  · obtain rfl : o = o' := by simpa [ho] using ho'
    have hlen : k < s.operations.length := (List.getElem?_eq_some_iff.mp ho).1
    refine ⟨ip, ?_⟩
    cases hw : o.work <;>
      simpa [CloudState.created, CloudState.setProgress, CloudState.find, hlen, hw] using h
  · obtain rfl : o = o' := by simpa [ho] using ho'
    have hlen : k < s.operations.length := (List.getElem?_eq_some_iff.mp ho).1
    cases hw : o.work <;> simp [CloudState.created, CloudState.setProgress, hlen, hw] at h

/-! ## Outcomes -/

/-- The state is unchanged, or the operation that is waited for has ended. -/
def Awaited (s : CloudState) (k : ℕ) (s' : CloudState) : Prop :=
  s' = s ∨ ∃ ending, s.complete k ending = some s'

/-- What an operation can answer in a state, and the state it leaves. -/
def CloudOutcome (s : CloudState) : (o : CloudOp) → o.Res → CloudState → Prop
  | .tryAcquire x, r, s' => (r = true ∧ x ∉ s.locks ∧ s' = { s with locks := insert x s.locks }) ∨
      (r = false ∧ x ∈ s.locks ∧ s' = s)
  | .release x, _, s' => s' = { s with locks := s.locks.erase x }
  | .getInstance n, r, s' => s' = s ∧ ((∃ i, r = .ok i ∧ s.find n = some i) ∨
      ∃ err, r = .error err ∧ (isNotFoundErr err = true → s.find n = none))
  | .listOperations parent, r, s' => s' = s ∧ listing (s.operationsOf parent) r.1 r.2 = true
  | .createInstance parent id spec, r, s' =>
      (r = .ok s.operations.length ∧ s.creatable parent id = true ∧ s' = s.accept parent id spec) ∨
      ∃ err, r = .error err ∧ (s' = s ∨ s.creatable parent id = true ∧ s' = s.accept parent id spec)
  | .waitInstance k, r, s' => Awaited s k s' ∧
      ((∃ i, r = .ok i ∧ s'.created k = some i) ∨ ∃ err, r = .error err)
  | .deleteInstance n, r, s' =>
      (r = .ok s.operations.length ∧ (s.find n).isSome = true ∧ s' = s.acceptDelete n) ∨
      ∃ err, r = .error err ∧ ((s' = s ∧ (isNotFoundErr err = true → s.find n = none)) ∨
        (isNotFoundErr err = false ∧ s' = s.acceptDelete n))
  | .waitDelete k, r, s' => Awaited s k s' ∧ (r = none → s'.succeededAt k = true)
  | .updateInstance n capacityGib, r, s' =>
      (r = .ok s.operations.length ∧ (s.find n).isSome = true ∧ s' = s.acceptUpdate n capacityGib) ∨
      ∃ err, r = .error err ∧ (s' = s ∨ s' = s.acceptUpdate n capacityGib)
  | .listInstances parent, r, s' => s' = s ∧ listing (s.instancesOf parent) r.1 r.2 = true
  | .listLocations _, _, s' => s' = s
  | .drawFilesystem taken, r, s' => s' = s ∧ ∀ id, r = .ok id → randomID id = true ∧ id ∉ taken

/-- Everything that a call can do. -/
theorem cloudOutcome_of_step (h : s.step o r s') :
    CloudOutcome s o r s' := by
  obtain ⟨choice, h⟩ := h
  cases o <;> cases choice <;> simp only [CloudState.exec, reduceCtorEq] at h
  case tryAcquire.ok x =>
    split at h <;> cases h
    · exact .inr ⟨rfl, ‹_›, rfl⟩
    · exact .inl ⟨rfl, ‹_›, rfl⟩
  case release.ok x =>
    cases h
    rfl
  case getInstance.ok n =>
    split at h <;> cases h
    · exact ⟨rfl, .inl ⟨_, rfl, ‹_›⟩⟩
    · exact ⟨rfl, .inr ⟨_, rfl, fun _ => ‹_›⟩⟩
  case getInstance.fail n err applied =>
    split at h <;> cases h
    rename_i hmissing
    refine ⟨rfl, .inr ⟨_, rfl, fun hnf => ?_⟩⟩
    simpa [hnf] using hmissing
  case createInstance.ok parent id spec =>
    split at h <;> cases h
    exact .inl ⟨rfl, ‹_›, rfl⟩
  case createInstance.fail parent id spec err applied =>
    split at h
    · split at h <;> cases h
      exact .inr ⟨_, rfl, .inr ⟨‹_›, rfl⟩⟩
    cases h
    exact .inr ⟨_, rfl, .inl rfl⟩
  case waitInstance.ok k =>
    split at h <;> cases h
    exact ⟨.inl rfl, .inl ⟨_, rfl, ‹_›⟩⟩
  case waitInstance.fail k err applied =>
    cases h
    exact ⟨.inl rfl, .inr ⟨_, rfl⟩⟩
  case waitInstance.ends k ending =>
    split at h
    · rename_i s₁ _ hcomplete
      simp only [Option.map_eq_some_iff, Prod.mk.injEq] at h
      obtain ⟨i, hi, rfl, rfl⟩ := h
      exact ⟨.inr ⟨_, hcomplete⟩, .inl ⟨i, rfl, hi⟩⟩
    · rename_i s₁ _ _ hcomplete
      cases h
      exact ⟨.inr ⟨_, hcomplete⟩, .inr ⟨_, rfl⟩⟩
    · cases h
  case deleteInstance.ok n =>
    split at h <;> cases h
    · exact .inl ⟨rfl, ‹_›, rfl⟩
    rename_i hmissing
    exact .inr ⟨_, rfl, .inl ⟨rfl, fun _ => by simpa using hmissing⟩⟩
  case deleteInstance.fail n err applied =>
    split at h <;> cases h
    rename_i hmissing
    refine .inr ⟨_, rfl, ?_⟩
    split
    · rename_i happlied
      simp only [Bool.and_eq_true] at happlied
      exact .inr ⟨by simpa [happlied.2] using hmissing, rfl⟩
    · exact .inl ⟨rfl, fun hnf => by simpa [hnf] using hmissing⟩
  case waitDelete.ok k =>
    split at h <;> cases h
    exact ⟨.inl rfl, fun _ => ‹_›⟩
  case waitDelete.fail k err applied =>
    cases h
    exact ⟨.inl rfl, fun hnone => by cases hnone⟩
  case waitDelete.ends k ending =>
    split at h
    · rename_i s₁ ip hcomplete
      cases h
      refine ⟨.inr ⟨_, hcomplete⟩, fun _ => ?_⟩
      obtain ⟨o, ho, -, ⟨ip', -, rfl⟩ | ⟨code, message, hcontra, -⟩⟩ := complete_eq_some hcomplete
      · have hlen : k < s.operations.length := (List.getElem?_eq_some_iff.mp ho).1
        cases hw : o.work <;> simp [CloudState.succeededAt, CloudState.setProgress, hlen]
      · cases hcontra
    · rename_i s₁ _ _ hcomplete
      cases h
      exact ⟨.inr ⟨_, hcomplete⟩, fun hnone => by cases hnone⟩
    · cases h
  case updateInstance.ok n capacityGib =>
    split at h <;> cases h
    · exact .inl ⟨rfl, ‹_›, rfl⟩
    · exact .inr ⟨_, rfl, .inl rfl⟩
  case updateInstance.fail n capacityGib err applied =>
    cases h
    refine .inr ⟨_, rfl, ?_⟩
    split
    · exact .inr rfl
    · exact .inl rfl
  case listLocations.locations project names =>
    cases h
    rfl
  case drawFilesystem.drawn taken id =>
    cases id with
    | ok id =>
      simp only at h
      split at h <;> cases h
      rename_i hid
      refine ⟨rfl, fun id' heq => ?_⟩
      cases heq
      simpa using hid
    | error text =>
      cases h
      exact ⟨rfl, fun id heq => by cases heq⟩
  -- The calls that list instances or operations.
  all_goals
    split at h <;> cases h
    exact ⟨rfl, ‹_›⟩

/-! ## The lock set -/

/-- What an operation does to the lock set of the controller. -/
def ctrlLockEvent : Event ctrlSig → Option (LockEvent String)
  | ⟨.tryAcquire x, r⟩ => if r then some (.acquired x) else none
  | ⟨.release x, _⟩ => some (.released x)
  | _ => none

/-- Waiting for an operation does not concern the lock set. -/
theorem Awaited.locks (h : Awaited s k s') : s'.locks = s.locks := by
  obtain rfl | ⟨ending, h⟩ := h
  · rfl
  · exact complete_locks h

/-- Operations other than those on locks leave the lock set as it is. -/
theorem CloudOutcome.locks (h : CloudOutcome s o r s') (hno : ctrlLockEvent ⟨o, r⟩ = none) :
    s'.locks = s.locks := by
  cases o with
  | tryAcquire x =>
    obtain ⟨rfl, -, -⟩ | ⟨-, -, rfl⟩ := h
    · simp [ctrlLockEvent] at hno
    · rfl
  | release x => simp [ctrlLockEvent] at hno
  | getInstance n => exact h.1 ▸ rfl
  | listOperations parent => exact h.1 ▸ rfl
  | createInstance parent id spec => obtain ⟨-, -, rfl⟩ | ⟨-, -, rfl | ⟨-, rfl⟩⟩ := h <;> rfl
  | waitInstance k => exact h.1.locks
  | deleteInstance n => obtain ⟨-, -, rfl⟩ | ⟨-, -, ⟨rfl, -⟩ | ⟨-, rfl⟩⟩ := h <;> rfl
  | waitDelete k => exact h.1.locks
  | updateInstance n capacityGib => obtain ⟨-, -, rfl⟩ | ⟨-, -, rfl | rfl⟩ := h <;> rfl
  | listInstances parent => exact h.1 ▸ rfl
  | listLocations project => exact congrArg CloudState.locks h
  | drawFilesystem taken => exact h.1 ▸ rfl

/-- The lock set of the controller as a set of try-locks. -/
def ctrlLocks : LockProtocol (S := ctrlSig) CloudState.step String where
  event := ctrlLockEvent
  locked s := s.locks
  acquired := by
    intro s o r s' x h he
    have hout := cloudOutcome_of_step h
    cases o with
    | tryAcquire y =>
      obtain ⟨rfl, hfree, rfl⟩ | ⟨rfl, -, -⟩ := hout
      · obtain rfl : y = x := by simpa [ctrlLockEvent] using he
        exact ⟨by simpa using hfree, by simp⟩
      · simp [ctrlLockEvent] at he
    | _ => simp [ctrlLockEvent] at he
  released := by
    intro s o r s' x h he
    have hout := cloudOutcome_of_step h
    cases o with
    | tryAcquire y => cases r <;> simp [ctrlLockEvent] at he
    | release y =>
      obtain rfl : y = x := by simpa [ctrlLockEvent] using he
      rw [show s' = _ from hout]
      simp
    | _ => simp [ctrlLockEvent] at he
  other := by
    intro s o r s' h he
    simp only [(cloudOutcome_of_step h).locks he]

/-! ## Footprints -/

/-- The operations that only read. -/
def Reads : CloudOp → Prop
  | .getInstance _ => True
  | .listOperations _ => True
  | .listInstances _ => True
  | .listLocations _ => True
  | .drawFilesystem _ => True
  | _ => False

/-- An operation that only reads leaves the state as it is. -/
theorem state_of_reads (ho : Reads o) (h : CloudOutcome s o r s') : s' = s := by
  cases o with
  | listLocations project => exact h
  | getInstance n => exact h.1
  | listOperations parent => exact h.1
  | listInstances parent => exact h.1
  | drawFilesystem taken => exact h.1
  | _ => exact ho.elim

section Footprints

variable {φ : CloudOp → Prop}

/-- A single call with the property. -/
theorem all_invoke (h : φ o) : (invoke o).All φ := Program.All.perform (S := ctrlSig) h

/-- The calls of a section: its lock, and what its body calls. -/
theorem all_withVolumeLock {α : Type} {name : String} {refused : α} {body : CtrlM α}
    (hacquire : φ (.tryAcquire name)) (hrelease : φ (.release name)) (hbody : body.All φ) :
    (withVolumeLock name refused body).All φ := by
  refine .bind (all_invoke hacquire) fun acquired => ?_
  split
  · exact .bind hbody fun _ => .bind (all_invoke hrelease) fun _ => .pure
  · exact .pure

/-- The one call of `getInstance`. -/
theorem all_getInstance (h : φ (.getInstance (instanceFullName i))) :
    (getInstance i).All φ := by
  refine .bind (all_invoke h) fun r => ?_
  split <;> exact .pure

/-- The calls of `createInstance`: the creation and the wait for it. -/
theorem all_createInstance
    (hcreate : φ (.createInstance (locationName i.project i.location) i.name i.spec))
    (hwait : ∀ k, φ (.waitInstance k)) : (createInstance i).All φ := by
  refine .bind (all_invoke hcreate) fun r => ?_
  split
  · exact .pure
  refine .bind (all_invoke (hwait _)) fun r => ?_
  split <;> exact .pure

/-- The calls of `deleteInstance`: the deletion and the wait for it. -/
theorem all_deleteInstance (hdelete : φ (.deleteInstance (instanceFullName i)))
    (hwait : ∀ k, φ (.waitDelete k)) : (deleteInstance i).All φ := by
  refine .bind (all_invoke hdelete) fun r => ?_
  split
  · split <;> exact .pure
  · exact all_invoke (hwait _)

/-- The calls of `resizeInstance`: the update and the wait for it. -/
theorem all_resizeInstance (hupdate : φ (.updateInstance (instanceFullName i) i.capacityGib))
    (hwait : ∀ k, φ (.waitInstance k)) : (resizeInstance i).All φ := by
  refine .bind (all_invoke hupdate) fun r => ?_
  split
  · exact .pure
  refine .bind (all_invoke (hwait _)) fun r => ?_
  split <;> exact .pure

/-- The one call of `searchOperations`. -/
theorem all_searchOperations {parent : String} (found : Operation → Bool)
    (h : φ (.listOperations parent)) : (searchOperations parent found).All φ := by
  refine .bind (all_invoke h) fun r => ?_
  obtain ⟨listed, err⟩ := r
  dsimp only
  split <;> exact .pure

/-- The one call of `isUpdateInProgress`. -/
theorem all_isUpdateInProgress (h : φ (.listOperations (locationName i.project i.location))) :
    (isUpdateInProgress i).All φ :=
  .bind (all_searchOperations _ h) fun _ => .pure

/-- The one call of `listInstance`. -/
theorem all_listInstance {project location : String}
    (h : φ (.listInstances (locationName project location))) :
    (listInstance project location).All φ := by
  refine .bind (all_invoke h) fun r => ?_
  obtain ⟨listed, err⟩ := r
  dsimp only
  split <;> exact .pure

/-- The calls of `existingFSNames`, one for each zone. -/
theorem all_existingFSNames {project : String} (h : ∀ parent, φ (.listInstances parent))
    (zones : List String) : (existingFSNames project zones).All φ := by
  induction zones with
  | nil => exact .pure
  | cons zone zones ih =>
    refine .bind (all_listInstance (h _)) fun r => ?_
    split
    · exact .pure
    refine .bind ih fun r => ?_
    split <;> exact .pure

/-- The calls of `generateUniqueFilesystemName`: listings, and the draw. -/
theorem all_generateUniqueFilesystemName (hlocations : ∀ project, φ (.listLocations project))
    (hinstances : ∀ parent, φ (.listInstances parent)) (hdraw : ∀ taken, φ (.drawFilesystem taken)) :
    (generateUniqueFilesystemName i).All φ := by
  unfold generateUniqueFilesystemName
  split
  · exact .pure
  split
  · exact .pure
  refine .bind ?_ fun r => ?_
  · refine .bind (all_invoke (hlocations _)) fun r => ?_
    split <;> exact .pure
  · split
    · exact .pure
    · refine .bind (all_existingFSNames hinstances _) fun r => ?_
      split
      · exact .pure
      refine .bind (all_invoke (hdraw _)) fun r => ?_
      split <;> exact .pure

/-- The calls with which a volume that does not exist is created. -/
theorem all_createNew {s : ControllerServer} {i : ServiceInstance} {params : StrMap}
    (hlocations : ∀ project, φ (.listLocations project))
    (hinstances : ∀ parent, φ (.listInstances parent)) (hdraw : ∀ taken, φ (.drawFilesystem taken))
    (hcreate : ∀ labels fsname, φ (.createInstance (locationName i.project i.location) i.name
      { i with labels := labels, filesystem := fsname }.spec))
    (hwait : ∀ k, φ (.waitInstance k)) : (createNew s i params).All φ := by
  unfold createNew
  split
  · exact .pure
  refine .bind (all_generateUniqueFilesystemName hlocations hinstances hdraw) fun r => ?_
  split
  · exact .pure
  refine .bind (all_createInstance (hcreate _ _) hwait) fun r => ?_
  split <;> exact .pure

/-- The calls of `createVolume` under its lock: everything but the creation only reads. -/
theorem all_createLocked {s : ControllerServer} {i : ServiceInstance} {params : StrMap}
    (hreads : ∀ o, Reads o → φ o)
    (hcreate : ∀ labels fsname, φ (.createInstance (locationName i.project i.location) i.name
      { i with labels := labels, filesystem := fsname }.spec))
    (hwait : ∀ k, φ (.waitInstance k)) : (createLocked s i params).All φ := by
  refine .bind (all_getInstance (hreads _ trivial)) fun r => ?_
  split
  · exact .pure
  split
  · exact .pure
  refine .bind (all_searchOperations _ (hreads _ trivial)) fun r => ?_
  split
  · exact .pure
  split
  · exact .pure
  exact all_createNew (fun _ => hreads _ trivial) (fun _ => hreads _ trivial)
    (fun _ => hreads _ trivial) hcreate hwait

end Footprints

end LustreCsi.Interface
