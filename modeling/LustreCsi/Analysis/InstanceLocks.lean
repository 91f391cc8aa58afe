import LustreCsi.Interface.ControllerSample
import LustreCsi.Interface.ResourceNames

/-!
# Which controller handlers exclude each other

`CreateVolume` locks the lower-case volume name, `DeleteVolume` and `ControllerExpandVolume` the
volume ID as it was given. Two handlers exclude each other exactly if these strings are equal
(`exclusive_iff`), whereas a name and a volume ID, or two volume IDs with different suffixes, may
resolve to one instance.
-/

set_option autoImplicit false

namespace LustreCsi.Analysis.InstanceLocks

open LustreCsi.Computation Model Interface

variable {s : ControllerServer} {reqs : ℕ → ControllerRequest}

/-- A configuration of the controller. -/
abbrev CtrlConfig : Type := Config ctrlSig CloudState ControllerResponse

/-- Runs of the handlers of the given requests, with the backend's own steps. -/
abbrev CtrlRun (s : ControllerServer) (reqs : ℕ → ControllerRequest) :
    CtrlConfig → CtrlConfig → Prop :=
  Run CloudState.step CloudState.Progresses fun t => ctrlBody s (reqs t)

/-- The handler is between the acquisition and the release of its lock. -/
def InSection (c : CtrlConfig) (t : ℕ) : Prop := ∃ x, ctrlLocks.Holds c.world.trace t x

/-- The calls by which instances are created, deleted and resized, and the waiting for them. -/
def Mutating : CloudOp → Prop
  | .createInstance _ _ _ => True
  | .waitInstance _ => True
  | .deleteInstance _ => True
  | .waitDelete _ => True
  | .updateInstance _ _ => True
  | _ => False

/-- Mutual exclusion for each instance: two handlers whose requests resolve to one instance are
never both in their sections, and creations, deletions and resizes happen in sections only. -/
structure Exclusive (s : ControllerServer) (reqs : ℕ → ControllerRequest) : Prop where
  sections : ∀ s₀ c, s₀.locks = ∅ → CtrlRun s reqs (.start s₀) c → ∀ t u x, t ≠ u →
    resolve s (reqs t) = some x → resolve s (reqs u) = some x → ¬(InSection c t ∧ InSection c u)
  calls : ∀ s₀ c, s₀.locks = ∅ → CtrlRun s reqs (.start s₀) c → ∀ t e c',
    PoolStep CloudState.step CloudState.Progresses (fun t => ctrlBody s (reqs t)) c (.call t e) c' →
      Mutating e.1 → InSection c t

/-! ## What a handler locks -/

/-- The only lock that a handler takes is that of its request. -/
def OnlyLock (x : String) : CloudOp → Prop
  | .tryAcquire y => y = x
  | _ => True

/-- A deletion under its lock takes no other. -/
theorem all_deleteLocked_noLock (volumeID : String) (i : ServiceInstance) :
    (deleteLocked volumeID i).All NoLock := by
  refine .bind (all_getInstance trivial) fun r => ?_
  split
  · split <;> exact .pure
  split
  · exact .pure
  refine .bind (all_deleteInstance trivial fun _ => trivial) fun r => ?_
  split <;> exact .pure

/-- An expansion under its lock takes no other. -/
theorem all_expandLocked_noLock (req : ControllerExpandVolumeRequest) :
    (expandLocked req).All NoLock := by
  unfold expandLocked
  split
  · exact .pure
  refine .bind (all_getInstance trivial) fun r => ?_
  split
  · exact .pure
  unfold expandFound
  split
  · exact .pure
  split
  · exact .pure
  split
  · exact .pure
  refine .bind (all_isUpdateInProgress trivial) fun r => ?_
  split
  · exact .pure
  · exact .pure
  · refine .bind (all_resizeInstance trivial fun _ => trivial) fun r => ?_
    split <;> exact .pure

/-- A handler refuses its request, or runs a part without lock operations under the lock of the
request. -/
theorem ctrlBody_cases (s : ControllerServer) (req : ControllerRequest) :
    (∃ r, ctrlBody s req = .ret r) ∨
      ∃ (α : Type) (refused : α) (body : CtrlM α) (f : α → ControllerResponse), body.All NoLock ∧
        ctrlBody s req = (withVolumeLock (lockName s req) refused body >>= fun a => .ret (f a)) := by
  cases req with
  | create req =>
    simp only [ctrlBody, createVolume]
    split
    · exact .inl ⟨_, rfl⟩
    rename_i i params hval
    rw [lockName, ← (validateCreate_eq_ok hval).1]
    exact .inr ⟨_, _, _, .create,
      all_createLocked (fun _ => noLock_of_reads) (fun _ _ => trivial) fun _ => trivial, rfl⟩
  | delete req =>
    simp only [ctrlBody, deleteVolume]
    split
    · exact .inl ⟨_, rfl⟩
    split
    · exact .inl ⟨_, rfl⟩
    rename_i i _
    exact .inr ⟨_, _, _, .delete, all_deleteLocked_noLock req.volumeID i, rfl⟩
  | expand req =>
    simp only [ctrlBody, controllerExpandVolume]
    split
    · exact .inl ⟨_, rfl⟩
    · exact .inr ⟨_, _, _, .expand, all_expandLocked_noLock req, rfl⟩

/-- A handler takes no other lock than that of its request. -/
theorem all_ctrlBody_onlyLock (s : ControllerServer) (req : ControllerRequest) :
    (ctrlBody s req).All (OnlyLock (lockName s req)) := by
  obtain ⟨r, hr⟩ | ⟨α, refused, body, f, hbody, hr⟩ := ctrlBody_cases s req
  · rw [hr]
    exact .pure
  · rw [hr]
    exact .bind (all_withVolumeLock rfl trivial (hbody.mono fun o ho => by cases o <;> trivial))
      fun _ => .pure

/-! ## Exclusion by the lock -/

/-- What a handler guarantees at each call: mutating calls are made in its section. -/
def CallsInside (t : ℕ) (w : World ctrlSig CloudState) (e : Event ctrlSig) : Prop :=
  Mutating e.1 → ∃ x, ctrlLocks.Holds w.trace t x

/-- The contract of the handlers; the locks protect nothing but themselves. -/
abbrev lockContract : Contract ctrlSig CloudState :=
  sectionContract ctrlLocks (Resources.none CloudState String) CallsInside

/-- Every handler keeps the contract. -/
theorem safe_ctrlBody (s : ControllerServer) (req : ControllerRequest) (t : ℕ)
    (w : World ctrlSig CloudState) :
    Safe CloudState.step t lockContract (fun _ _ => True) (ctrlBody s req) w := by
  have hTrue : Stable t lockContract fun _ => True := fun _ _ _ _ _ => trivial
  obtain ⟨r, hr⟩ | ⟨α, refused, body, f, hbody, hr⟩ := ctrlBody_cases s req
  · rw [hr]
    exact Safe.ret hTrue trivial fun _ _ _ => trivial
  · rw [hr]
    have hlocked : Safe CloudState.step t lockContract (fun _ _ => True)
        (withVolumeLock (lockName s req) refused body) w := by
      refine safe_withVolumeLock (fun s l _ => ⟨trivial, trivial, fun _ => trivial⟩)
        (fun w o r ho hmut => ?_) (fun _ => hTrue) (fun _ => trivial) (fun _ _ _ _ => trivial)
        fun w hi hw => ?_
      · cases o <;> first | exact hmut.elim | exact absurd trivial ho
      · refine Safe.mono (safe_all (.true _) (fun o r ho => ho.event_eq r) ?_ hbody hw)
          fun a w _ h => ⟨h, trivial⟩
        intro o w r s' _ hin _ _
        exact ⟨⟨trivial, trivial, fun _ _ => trivial, fun _ => ⟨_, hin.1⟩⟩, trivial⟩
    exact Safe.bind hlocked fun a w _ _ => Safe.ret hTrue trivial fun _ _ _ => trivial

/-- The backend's own steps do not touch the lock set. -/
theorem envKeeps_none :
    (Resources.none CloudState String).EnvKeeps ctrlLocks CloudState.Progresses where
  locked := by
    rintro s s' ⟨k, ending, h⟩
    simp only [ctrlLocks, complete_locks h]
  inv _ _ _ _ := trivial
  mono _ _ _ _ := trivial
  keeps _ _ _ _ _ := trivial

/-- Every configuration that a run reaches is safe. -/
theorem poolSafe_of_run {s₀ : CloudState} {c : CtrlConfig} (hlocks : s₀.locks = ∅)
    (hrun : CtrlRun s reqs (.start s₀) c) :
    PoolSafe CloudState.step lockContract (fun _ _ _ => True) (fun _ => True) c := by
  have hstart : lockContract.inv ⟨s₀, []⟩ :=
    ⟨.start ctrlLocks (by simp [ctrlLocks, hlocks]), trivial⟩
  exact (PoolSafe.run (sectionContract_compatible envKeeps_none)
    (fun t w _ _ => safe_ctrlBody s (reqs t) t w) (fun _ _ _ _ _ _ _ _ => trivial)
    (PoolSafe.start hstart) hrun).1

/-- What a handler holds is the lock of its request. -/
theorem lockName_of_holds {s₀ : CloudState} {c : CtrlConfig} (hrun : CtrlRun s reqs (.start s₀) c)
    {t : ℕ} {x : String} (h : ctrlLocks.Holds c.world.trace t x) : x = lockName s (reqs t) := by
  obtain ⟨⟨o, r⟩, hmem, he⟩ := ctrlLocks.exists_of_holds h
  have hwithin := (hrun.within (fun t => all_ctrlBody_onlyLock s (reqs t)) (.start s₀)).trace _ hmem
  cases o with
  | tryAcquire y =>
    cases r with
    | true =>
      obtain rfl : y = x := by simpa [ctrlLocks, ctrlLockEvent] using he
      exact hwithin
    | false => simp [ctrlLocks, ctrlLockEvent] at he
  | _ => simp [ctrlLocks, ctrlLockEvent] at he

/-! ## Two handlers with different locks -/

/-- Two handlers with different locks can both enter their sections. -/
theorem exists_both_inSection {t u : ℕ} {x y : String × String × String} (hne : t ≠ u)
    (ht : resolve s (reqs t) = some x) (hu : resolve s (reqs u) = some y)
    (hlock : lockName s (reqs t) ≠ lockName s (reqs u)) :
    ∃ s₀ c, s₀.locks = ∅ ∧ CtrlRun s reqs (.start s₀) c ∧ InSection c t ∧ InSection c u := by
  obtain ⟨k, hk⟩ := ctrlBody_eq_call ht
  obtain ⟨l, hl⟩ := ctrlBody_eq_call hu
  let s₀ : CloudState := ⟨∅, [], []⟩
  let s₁ : CloudState := { s₀ with locks := insert (lockName s (reqs t)) s₀.locks }
  let s₂ : CloudState := { s₁ with locks := insert (lockName s (reqs u)) s₁.locks }
  have hs₁ : s₀.step (.tryAcquire (lockName s (reqs t))) true s₁ := ⟨.ok, by simp [CloudState.exec, s₀, s₁]⟩
  have hs₂ : s₁.step (.tryAcquire (lockName s (reqs u))) true s₂ :=
    ⟨.ok, by simp [CloudState.exec, s₀, s₁, s₂, Ne.symm hlock]⟩
  -- Both handlers are spawned before the first of them takes its lock.
  let c₀ : CtrlConfig := .start s₀
  let c₁ : CtrlConfig := ⟨c₀.world, Function.update c₀.slot t (.running (ctrlBody s (reqs t)))⟩
  let c₂ : CtrlConfig := ⟨c₁.world, Function.update c₁.slot u (.running (ctrlBody s (reqs u)))⟩
  have h₁ : CtrlRun s reqs c₀ c₁ := .tail (.refl c₀ trivial) (.spawn c₀ t rfl) trivial
  have h₂ : CtrlRun s reqs c₀ c₂ := .tail h₁ (.spawn c₁ u (by
    simp [c₁, c₀, Config.start, Function.update_of_ne (Ne.symm hne)])) trivial
  have hslot₂ : c₂.slot t = .running (.call (.tryAcquire (lockName s (reqs t))) k) := by
    simp [c₂, c₁, Function.update_of_ne hne, hk]
  have h₃ := RunWhile.tail h₂ (.call c₂ t _ k true s₁ hslot₂ hs₁) trivial
  have hslot₃ : Function.update c₂.slot t (.running (k true)) u =
      .running (.call (.tryAcquire (lockName s (reqs u))) l) := by
    simp [c₂, Function.update_of_ne (Ne.symm hne), hl]
  have h₄ := RunWhile.tail h₃ (.call _ u _ l true s₂ hslot₃ hs₂) trivial
  refine ⟨s₀, _, rfl, h₄, ⟨lockName s (reqs t), ?_⟩, ⟨lockName s (reqs u), ?_⟩⟩
  · simp [LockProtocol.Holds, ctrlLocks, ctrlLockEvent]
  · simp [LockProtocol.Holds, ctrlLocks, ctrlLockEvent]

/-! ## The exact condition -/

/-- How a request names its instance: by the volume name (`none`), or by a volume ID. -/
def volumeHandle : ControllerRequest → Option String
  | .create _ => none
  | .delete req => some req.volumeID
  | .expand req => some req.volumeID

/-- A volume name is not a volume ID of the same instance. -/
theorem ne_volumeID_of_parse {id name p l : String} (h : (parseVolumeID id).toOption = some (p, l, name)) :
    name ≠ id := by
  rintro rfl
  have hparse : parseVolumeID name = .ok (p, l, name) := by
    cases hp : parseVolumeID name with
    | ok pln => simpa [hp, Except.toOption] using h
    | error err => simp [hp, Except.toOption] at h
  obtain ⟨-, -, hn, hid⟩ := parseVolumeID_eq_ok.mp hparse
  have hslash : '/' ∈ name.toList.takeWhile (· ≠ ':') := hid ▸ by simp
  exact hn.slash ((List.takeWhile_sublist _).subset hslash)

/-- Requests for the same instance lock the same string exactly if they name the instance in the
same way. -/
theorem lockName_eq_iff {req req' : ControllerRequest} {x : String × String × String}
    (h : resolve s req = some x) (h' : resolve s req' = some x) :
    lockName s req = lockName s req' ↔ volumeHandle req = volumeHandle req' := by
  -- A creation request resolves to its lock.
  have hcreate : ∀ {r : CreateVolumeRequest}, resolve s (.create r) = some x →
      x.2.2 = toLower s.unicode r.name := by
    intro r hr
    simp only [resolve] at hr
    split at hr
    · rename_i i params hval
      obtain rfl : (i.project, i.location, i.name) = x := by simpa using hr
      exact (validateCreate_eq_ok hval).1
    · simp at hr
  have hmixed : ∀ {r : CreateVolumeRequest} (id : String), resolve s (.create r) = some x →
      (parseVolumeID id).toOption = some x → toLower s.unicode r.name ≠ id := by
    intro r id hr hid
    rw [← hcreate hr]
    exact ne_volumeID_of_parse hid
  cases req with
  | create r =>
    cases req' with
    | create r' => simp [lockName, volumeHandle, ← hcreate h, ← hcreate h']
    | delete r' => simp [lockName, volumeHandle, hmixed r'.volumeID h h']
    | expand r' => simp [lockName, volumeHandle, hmixed r'.volumeID h h']
  | delete r | expand r =>
    cases req' with
    | create r' => simp [lockName, volumeHandle, (hmixed r.volumeID h' h).symm]
    | delete r' => simp [lockName, volumeHandle]
    | expand r' => simp [lockName, volumeHandle]

/-- **Mutual exclusion in the controller.** The handlers of any requests exclude each other
instance by instance if and only if all requests that resolve to one instance name it in the
same way: all by the volume name, or all by the same volume ID.
SOURCE: pkg/csi_driver/controller.go:197-200, 290-293, 585-588 -/
theorem exclusive_iff (s : ControllerServer) (reqs : ℕ → ControllerRequest) :
    Exclusive s reqs ↔ ∀ t u x, t ≠ u → resolve s (reqs t) = some x →
      resolve s (reqs u) = some x → volumeHandle (reqs t) = volumeHandle (reqs u) := by
  constructor
  · intro h t u x hne ht hu
    by_contra hhandle
    have hlock : lockName s (reqs t) ≠ lockName s (reqs u) := mt (lockName_eq_iff ht hu).mp hhandle
    obtain ⟨s₀, c, hlocks, hrun, hint, hinu⟩ := exists_both_inSection hne ht hu hlock
    exact h.sections s₀ c hlocks hrun t u x hne ht hu ⟨hint, hinu⟩
  · intro h
    constructor
    · rintro s₀ c hlocks hrun t u x hne ht hu ⟨⟨y, hy⟩, ⟨z, hz⟩⟩
      have hsame : y = z := by
        rw [lockName_of_holds hrun hy, lockName_of_holds hrun hz]
        exact (lockName_eq_iff ht hu).mpr (h t u x hne ht hu)
      subst hsame
      exact hne ((poolSafe_of_run hlocks hrun).inv.1.unique t u y hy hz)
    · intro s₀ c hlocks hrun t e c' hstep hmut
      exact ((poolSafe_of_run hlocks hrun).guarantee trivial hstep).2.2.2 hmut

/-! ## A deletion during a creation -/

section Overlap

open Interface.ControllerSample

/-- One handler creates the volume, the others delete it by its volume ID. -/
def createAndDelete : ℕ → ControllerRequest
  | 0 => .create (createRequest "vol")
  | _ => .delete ⟨"proj/us-central1-a/vol"⟩

/-- The deletion takes its own lock and is accepted while the creation is waited for. -/
def overlap : List (Move CloudChoice) :=
  [.spawn 0, .call 0 .ok, .call 0 .ok, .call 0 (.operations [] none), .call 0 .ok,
    .spawn 1, .call 1 .ok, .call 1 .ok, .call 1 .ok]

/-- The schedule can be played, and creation and deletion are then both under way. -/
theorem overlap_played :
    ((playPool (S := ctrlSig) CloudState.exec (fun t => ctrlBody server (createAndDelete t)) overlap
      (.start ControllerSample.empty)).map fun c =>
        (c.world.state.operations.map fun o => (o.work, o.progress),
          decide (ctrlLocks.Holds c.world.trace 0 "vol"),
          decide (ctrlLocks.Holds c.world.trace 1 "proj/us-central1-a/vol"))) =
      some ([(some .create, .pending), (some .delete, .pending)], true, true) := by
  decide +kernel

/-- A volume that is being created can be deleted at the same time: the handlers of
`createAndDelete` do not exclude each other. -/
theorem not_exclusive : ¬Exclusive server createAndDelete := by
  intro h
  have hplayed := overlap_played
  rw [Option.map_eq_some_iff] at hplayed
  obtain ⟨c, hplay, hobs⟩ := hplayed
  simp only [Prod.mk.injEq, decide_eq_true_eq] at hobs
  have hrun : CtrlRun server createAndDelete (.start ControllerSample.empty) c :=
    playPool_run (fun _ => trivial) hplay
  exact h.sections ControllerSample.empty c rfl hrun 0 1 ("proj", "us-central1-a", "vol")
    (by decide) (by decide +kernel) (by decide +kernel) ⟨⟨_, hobs.2.1⟩, ⟨_, hobs.2.2⟩⟩

end Overlap

end LustreCsi.Analysis.InstanceLocks
