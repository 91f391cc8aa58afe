import LustreCsi.Analysis.KeySection
import LustreCsi.Interface.Sample
import LustreCsi.Interface.Sequential

/-!
# Reference safety and safe teardown of the global mounts

The concurrent handlers of the node server keep the contract of `SharedMounts`. What a successful
IAM publish has set up stays in use while no other handler of its pod runs (`reference_safe`), and a
key directory is removed recursively only when nothing is mounted in it (`teardown_safe`).
-/

set_option autoImplicit false

namespace LustreCsi.Analysis.ReferenceSafety

open LustreCsi.Computation Model Interface SharedMounts HandlerSafety KeySection Interface.Sample

variable {w w' : NodeWorld} {volumeID : String} {vc : StrMap}

section Handlers

variable {pod : ℕ → Option String} {acc : Prop} {solo : ℕ → Prop} {wiped : List String} {t : ℕ}
  {X : List String}
  {s : NodeServer}

/-- The reference of the pod is known to exist, if the thread is the only one of its pod. -/
def Kept (solo : ℕ → Prop) (t : ℕ) (k : Key) (u : String) (w : NodeWorld) : Prop :=
  solo t → Referenced w.trace k u

/-- That a pod's reference is kept is stable under the other threads. -/
theorem Kept.stable {k : Key} {u : String} (hpod : pod t = some u) :
    StableNode pod acc solo wiped t (Kept solo t k u) :=
  fun _ _ h hr _ hs => hr.own hs k u hpod (h hs)

/-- That a pod's reference is kept depends on the views of keys only. -/
theorem Kept.of_sameView {k : Key} {u : String} (hv : ∀ k, SameView k w w') (h : Kept solo t k u w) :
    Kept solo t k u w' :=
  fun hs => ((hv k).referenced u).mpr (h hs)

/-- What `publishIAMVolume` establishes when it returns. -/
def Bound (s : NodeServer) (solo : ℕ → Prop) (t : ℕ) (volumeID : String) (vc : StrMap)
    (err : Option Status) (w : NodeWorld) : Prop :=
  err = none → Kept solo t (keyOf s volumeID vc) (identityOf s vc).podUID w

/-- That a bind mount has its reference is stable under the other threads. -/
theorem Bound.stable (hpod : pod t = some (identityOf s vc).podUID) (err : Option Status) :
    StableNode pod acc solo wiped t (Bound s solo t volumeID vc err) :=
  fun w w' h hr hi he => Kept.stable hpod w w' (h he) hr hi

/-- That a bind mount has its reference depends on the views of keys only. -/
theorem Bound.of_sameView {err : Option Status} (hv : ∀ k, SameView k w w')
    (h : Bound s solo t volumeID vc err w) :
    Bound s solo t volumeID vc err w' := fun he => (h he).of_sameView hv

/-- After a successful publish of an IAM volume the pod's reference is kept. -/
theorem safe_publishIAMVolume (s : NodeServer) (volumeID targetPath : String) (targetMounted : Bool)
    (options : List String) (volCap : VolumeCapability)
    (hpod : pod t = some (identityOf s vc).podUID) (hw : Held acc t X w) :
    SafeNode pod acc solo wiped t
      (fun err w => Held acc t X w ∧ Bound s solo t volumeID vc err w)
      (publishIAMVolume s volumeID targetPath targetMounted vc options volCap) w := by
  have hfail : ∀ {w : NodeWorld} (e : Status), Held acc t X w → SafeNode pod acc solo wiped t
      (fun err w => Held acc t X w ∧ Bound s solo t volumeID vc err w) (pure (some e)) w :=
    fun e hw => safe_pure At.stable_true hw fun _ _ h => ⟨h, by simp [Bound]⟩
  simp only [publishIAMVolume]
  split
  · exact hfail _ hw
  split
  · exact hfail _ hw
  split
  · exact hfail _ hw
  refine safe_withLock (fun err => Bound.stable hpod err) (fun _ _ _ => Bound.of_sameView)
    (fun _ => by simp [Bound]) (fun w hw => ?_) hw
  -- Under the lock of the key.
  have hk : (keyOf s volumeID vc).name ∈ (keyOf s volumeID vc).name :: X := by simp
  refine Safe.bind (safe_ensureGlobalMount s _ _ _ _ hk hw) fun err w _ hw => ?_
  cases err with
  | some e =>
    exact safe_pure At.stable_true hw.held' fun _ _ h => ⟨h, by simp [Bound]⟩
  | none =>
    refine Safe.mono (safe_bindPod s volumeID targetPath targetMounted options hk hpod
      (hw.mono fun h => h rfl)) fun err w _ h => ⟨h.held', fun he _ => h.fact he⟩

/-- What `NodePublishVolume` establishes when it returns, for an IAM volume. -/
def Published (s : NodeServer) (solo : ℕ → Prop) (t : ℕ) (volumeID : String) (vc : StrMap)
    (err : Option Status) (w : NodeWorld) : Prop :=
  isIAM s vc = true → Bound s solo t volumeID vc err w

/-- That a publish has its reference is stable under the other threads. -/
theorem Published.stable (hpod : pod t = some (identityOf s vc).podUID) (err : Option Status) :
    StableNode pod acc solo wiped t (Published s solo t volumeID vc err) :=
  fun w w' h hr hi hiam => Bound.stable hpod err w w' (h hiam) hr hi

/-- That a publish has its reference depends on the views of keys only. -/
theorem Published.of_sameView {err : Option Status} (hv : ∀ k, SameView k w w')
    (h : Published s solo t volumeID vc err w) : Published s solo t volumeID vc err w' :=
  fun hiam => (h hiam).of_sameView hv

/-- After the mounts of a successful publish its reference is kept. -/
theorem safe_publishMounts (s : NodeServer) (req : NodePublishVolumeRequest)
    (volCap : VolumeCapability) (targetMounted : Bool)
    (hpod : pod t = some (identityOf s vc).podUID) (hw : Held acc t X w) :
    SafeNode pod acc solo wiped t
      (fun err w => Held acc t X w ∧ Published s solo t req.volumeID vc err w)
      (publishMounts s req vc volCap targetMounted) w := by
  simp only [publishMounts]
  split
  · exact Safe.mono (safe_publishIAMVolume s _ _ _ _ _ hpod hw) fun _ _ _ h => ⟨h.1, fun _ => h.2⟩
  rename_i hiam
  split
  · exact safe_pure At.stable_true hw fun _ _ h => ⟨h, fun hi => absurd hi hiam⟩
  refine Safe.bind (safe_outer (all_perform (φ := Outer) rfl) At.stable_true At.respects_true hw)
    fun _ w _ hw => ?_
  exact safe_pure At.stable_true hw fun _ _ h => ⟨h, fun hi => absurd hi hiam⟩

/-- After a successful publish with the target locked its reference is kept. -/
theorem safe_publishLocked (s : NodeServer) (req : NodePublishVolumeRequest)
    (volCap : VolumeCapability) (hpod : pod t = some (identityOf s vc).podUID) (hw : Held acc t X w) :
    SafeNode pod acc solo wiped t
      (fun err w => Held acc t X w ∧ Published s solo t req.volumeID vc err w)
      (publishLocked s req vc volCap) w := by
  have hfail : ∀ {w : NodeWorld} (e : Status), Held acc t X w → SafeNode pod acc solo wiped t
      (fun err w => Held acc t X w ∧ Published s solo t req.volumeID vc err w) (pure (some e)) w :=
    fun e hw => safe_pure At.stable_true hw fun _ _ h => ⟨h, by simp [Published, Bound]⟩
  refine Safe.bind (safe_outer (all_makeDir (φ := Outer) rfl) At.stable_true At.respects_true hw)
    fun err w _ hw => ?_
  split
  · exact hfail _ hw
  refine Safe.bind (safe_outer (outer_isMounted _) At.stable_true At.respects_true hw)
    fun r w _ hw => ?_
  split
  · exact hfail _ hw
  refine Safe.bind (safe_publishMounts s req volCap _ hpod hw) fun err w _ hw => ?_
  cases err with
  | some e => exact hfail _ hw.1
  | none =>
    -- The change of ownership keeps what has been published, whatever it returns.
    refine Safe.mono (safe_outer (outer_publishOwnership s _ _ _)
      (Stable.and At.stable_true (Published.stable hpod none)) ?_ hw) fun err w _ h => ?_
    · exact fun w w' hh hv h => ⟨At.respects_true w w' hh hv h.1, h.2.of_sameView hv⟩
    · exact ⟨h.1, fun hiam _ => h.2 hiam rfl⟩

/-- What the handler of a request establishes when it returns. -/
def Established (s : NodeServer) (solo : ℕ → Prop) (t : ℕ) :
    NodeRequest → Option Status → NodeWorld → Prop
  | .publish req, err, w => ∀ vc volCap, validatePublish s req = .ok (vc, volCap) →
      Published s solo t req.volumeID vc err w
  | .unpublish _, _, _ => True

/-- A thread without locks holds none. -/
theorem held_nil (w : NodeWorld) : Held acc t [] w := ⟨by simp, trivial⟩

/-- A publish is safe and establishes its reference when it succeeds. -/
theorem safe_nodePublishVolume (s : NodeServer) (req : NodePublishVolumeRequest)
    (hpod : pod t = podOf s (.publish req)) :
    SafeNode pod acc solo wiped t (Established s solo t (.publish req)) (nodePublishVolume s req)
      w := by
  simp only [nodePublishVolume]
  cases hv : validatePublish s req with
  | error err =>
    refine safe_pure (F := fun _ => True) (fun _ _ h _ _ => h) trivial fun _ _ _ vc volCap h => ?_
    simp [hv] at h
  | ok valid =>
    obtain ⟨vc, volCap⟩ := valid
    have hpod' : pod t = some (identityOf s vc).podUID := by simpa [podOf, hv] using hpod
    refine Safe.mono (safe_withLock (fun err => Published.stable hpod' err)
      (fun _ _ _ => Published.of_sameView) (fun _ => by simp [Published, Bound])
      (fun w hw => safe_publishLocked s req volCap hpod' hw) (held_nil w)) fun err w _ h => ?_
    intro vc' volCap' h'
    rw [hv] at h'
    cases h'
    exact h.2

/-- The loop over the references of the pod, on whatever keys they were found. -/
theorem safe_cleanUpReferences (s : NodeServer) {podUID : String} (hpod : pod t = some podUID)
    (hne : podUID ≠ "") (hsep : ∀ c ∈ podUID.toList, notSeparator c = true) (ks : List Key)
    (hw : Held acc t X w) :
    SafeNode pod acc solo wiped t (fun _ => Held acc t X)
      (cleanUpReferences s (ks.map (.ref · podUID))) w := by
  induction ks generalizing w with
  | nil => exact safe_pure At.stable_true hw fun _ _ h => h
  | cons k ks ih =>
    simp only [List.map_cons, cleanUpReferences, extractKey_ref k hne hsep]
    refine Safe.bind (safe_cleanUpIAMReferenceForKey s hpod hw) fun _ w _ hw => ?_
    refine Safe.bind (ih hw) fun _ w _ hw => ?_
    exact safe_pure At.stable_true hw fun _ _ h => h

/-- Cleaning up the references of a pod is safe. -/
theorem safe_cleanUpIAMReference (s : NodeServer) {targetPath : String}
    (hpod : pod t = getPodUIDFromTargetPath targetPath)
    (hplain : ∀ uid, getPodUIDFromTargetPath targetPath = some uid → PlainUID uid)
    (hw : Held acc t X w) :
    SafeNode pod acc solo wiped t (fun _ => Held acc t X) (cleanUpIAMReference s targetPath) w := by
  simp only [cleanUpIAMReference]
  cases huid : getPodUIDFromTargetPath targetPath with
  | none => exact safe_pure At.stable_true hw fun _ _ h => h
  | some podUID =>
    have hne := (getPodUIDFromTargetPath_spec huid).2.1
    have hsep := notSeparator_of_uid huid fun hback => hplain podUID huid _ hback (by simp)
    simp only [globPodReferences, Program.bind_assoc]
    -- The three directory listings stay outside; the keys they yield are arbitrary.
    refine Safe.bind (safe_outer (all_perform (φ := Outer) trivial) At.stable_true
      At.respects_true hw) fun ks w _ hw => ?_
    refine Safe.bind (safe_outer (all_keysListing _ _ _ fun _ => trivial) At.stable_true
      At.respects_true hw) fun ks w _ hw => ?_
    refine Safe.bind (safe_outer (all_keysListing _ _ _ fun _ => trivial) At.stable_true
      At.respects_true hw) fun ks w _ hw => ?_
    simp only [Program.pure_eq, Program.ret_bind]
    refine Safe.bind (safe_cleanUpReferences s (hpod.trans huid) hne hsep ks hw) fun _ w _ hw => ?_
    exact safe_pure At.stable_true hw fun _ _ h => h

/-- An unpublish is safe. -/
theorem safe_nodeUnpublishVolume (s : NodeServer) (req : NodeUnpublishVolumeRequest)
    (hpod : pod t = podOf s (.unpublish req))
    (hplain : ∀ uid, podOf s (.unpublish req) = some uid → PlainUID uid) :
    SafeNode pod acc solo wiped t (fun _ _ => True) (nodeUnpublishVolume s req) w := by
  simp only [nodeUnpublishVolume]
  split
  · exact safe_pure (F := fun _ => True) (fun _ _ h _ _ => h) trivial fun _ _ h => h
  refine Safe.mono (safe_withLock (G := fun _ _ => True) (fun _ _ _ h _ _ => h)
    (fun _ _ _ _ h => h) (fun _ => trivial) (fun w hw => ?_) (held_nil w)) fun _ _ _ h => h.2
  refine Safe.bind (safe_outer (outer_unmountPath s _) At.stable_true At.respects_true hw)
    fun err w _ hw => ?_
  split
  · exact safe_pure At.stable_true hw fun _ _ h => ⟨h, trivial⟩
  refine Safe.bind (safe_cleanUpIAMReference s hpod hplain hw) fun err w _ hw => ?_
  exact safe_pure At.stable_true hw fun _ _ h => ⟨h, trivial⟩

end Handlers

/-! ## Runs of the pool -/

section Runs

variable {s : NodeServer} {req : ℕ → NodeRequest} {acc : Prop} {solo : ℕ → Prop}
  {wiped : List String}

/-- The pod of the thread that serves a request. -/
abbrev podsOf (s : NodeServer) (req : ℕ → NodeRequest) : ℕ → Option String := fun t => podOf s (req t)

/-- Every handler keeps the contract. -/
theorem safe_nodeBody (hplain : ∀ t uid, podOf s (req t) = some uid → PlainUID uid) (t : ℕ)
    (w : NodeWorld) :
    SafeNode (podsOf s req) acc solo wiped t (Established s solo t (req t)) (nodeBody s (req t))
      w := by
  cases hreq : req t with
  | publish r => exact safe_nodePublishVolume s r (by simp [podsOf, hreq])
  | unpublish r =>
    exact safe_nodeUnpublishVolume s r (by simp [podsOf, hreq])
      fun uid huid => hplain t uid (by rw [hreq]; exact huid)

/-- The invariant holds at the start of the driver. -/
theorem inv_start {s₀ : NodeState} (hlocks : s₀.locks = ∅) (hdirs : MountDirs s₀) :
    Inv acc s₀.wiped ⟨s₀, []⟩ where
  locks := .start _ (by simp [poolLocks, nodeLocks, hlocks])
  dirs := hdirs
  wiped := rfl
  inUse _ _ _ h := h.elim

/-- A pool in which no thread counts on being the only one of its pod stays safe. -/
theorem poolSafe_of_run {s₀ : NodeState} {c : Config nodeSig NodeState (Option Status)}
    (hplain : ∀ t uid, podOf s (req t) = some uid → PlainUID uid) (hlocks : s₀.locks = ∅)
    (hdirs : MountDirs s₀)
    (hrun : Run (nodeStep acc) Elsewhere (fun t => nodeBody s (req t)) (Config.start s₀) c) :
    PoolSafe (nodeStep acc) (contract (podsOf s req) acc (fun _ => False) s₀.wiped)
      (fun t => Established s (fun _ => False) t (req t)) (fun _ => True) c :=
  (PoolSafe.run (contract_compatible _ _ _ _ fun _ _ _ _ _ h => h.elim)
    (fun t w _ _ => safe_nodeBody hplain t w) (fun _ _ _ _ _ _ _ _ => trivial)
    (PoolSafe.start (inv_start hlocks hdirs)) hrun).1

/-! A pod to which the volume `ab` is published and from which it is unpublished again. -/

/-- The publish is thread 0; all other requests are unpublishes. -/
def sampleRequests : ℕ → NodeRequest
  | 0 => .publish (publishRequest "")
  | _ + 1 => .unpublish ⟨targetPath⟩

/-- The pods of the sample have plain identifiers. -/
theorem sampleRequests_plain (t : ℕ) (uid : String)
    (h : podOf sampleServer (sampleRequests t) = some uid) : PlainUID uid := by
  have hpod : podOf sampleServer (sampleRequests t) = some "u1" := by
    cases t with
    | zero =>
      simp only [sampleRequests, podOf, validatePublish_publishRequest, identityOf_normalContext]
    | succ t => exact getPodUIDFromTargetPath_targetPath
  obtain rfl : "u1" = uid := Option.some.inj (hpod.symm.trans h)
  decide

/-- The fresh node has mounts in directories only. -/
theorem freshNode_mountDirs : MountDirs freshNode := fun k h => by
  simp [freshNode, NodeState.mounted, NodeState.mountsAt] at h

/-- The operations of the publish succeed one after the other. -/
def publishSchedule : List (Move Choice) :=
  [.call 0 .ok, .call 0 .ok, .call 0 (.probe (.ok true)), .call 0 .ok, .call 0 .ok, .call 0 .ok,
    .call 0 .ok, .call 0 (.wrote 6), .call 0 .ok, .call 0 (.probe (.ok true)), .call 0 .ok,
    .call 0 .ok, .call 0 .ok, .call 0 (.wrote 2), .call 0 .ok, .call 0 .ok, .call 0 .ok, .finish 0]

/-- The operations of the unpublish up to the removal of the key directory. -/
def teardownSchedule : List (Move Choice) :=
  [.spawn 1, .call 1 .ok, .call 1 (.probe (.ok false)), .call 1 (.umounted "" none true),
    .call 1 .ok, .call 1 (.keys [digestABC]), .call 1 (.names ["mount", "refs", "token"]),
    .call 1 (.names ["u1"]), .call 1 .ok, .call 1 .ok, .call 1 .ok, .call 1 (.probe (.ok false)),
    .call 1 (.umounted "" none true), .call 1 .ok]

/-- Thread 1 is about to remove a key directory. -/
def Removing (c : Config nodeSig NodeState (Option Status)) : Bool :=
  match c.slot 1 with
  | .running (.call (.removeAll _) _) => true
  | _ => false

/-- A recursive removal of a key directory finds nothing mounted in it, in any run of the
handlers and whatever probes, umounts and removals answer; no file system has been wiped.
SOURCE: pkg/csi_driver/node.go:879-926, pkg/csi_driver/unmount.go:100-195 -/
theorem teardown_safe (s : NodeServer) (req : ℕ → NodeRequest) {s₀ : NodeState}
    {c : Config nodeSig NodeState (Option Status)}
    (hplain : ∀ t uid, podOf s (req t) = some uid → PlainUID uid) (hlocks : s₀.locks = ∅)
    (hdirs : MountDirs s₀)
    (hrun : Run NodeState.step Elsewhere (fun t => nodeBody s (req t)) (Config.start s₀) c) :
    (∀ t k r c', PoolStep NodeState.step Elsewhere (fun t => nodeBody s (req t)) c
        (.call t ⟨.removeAll k, r⟩) c' → c.world.state.mounted (.mount k) = false) ∧
      c.world.state.wiped = s₀.wiped := by
  have hstep : ∀ s o r s', NodeState.step s o r s' → nodeStep False s o r s' :=
    fun _ _ _ _ h => ⟨h, False.elim⟩
  have hsafe := poolSafe_of_run hplain hlocks hdirs (hrun.mono hstep)
  refine ⟨fun t k r c' h => ?_, hsafe.inv.wiped⟩
  exact (hsafe.guarantee trivial (h.mono hstep)).removal k rfl

/-- A run that publishes the volume and unpublishes it again comes to the removal of the key
directory, with nothing mounted. -/
theorem teardown_safe_sample : ∃ c : Config nodeSig NodeState (Option Status),
    Run NodeState.step Elsewhere (fun t => nodeBody sampleServer (sampleRequests t))
      (Config.start freshNode) c ∧
    (∃ k r c', PoolStep NodeState.step Elsewhere
      (fun t => nodeBody sampleServer (sampleRequests t)) c (.call 1 ⟨.removeAll k, r⟩) c' ∧
      c.world.state.mounted (.mount k) = false) ∧ c.world.state.wiped = [] := by
  have hplay : (playPool NodeState.exec (fun t => nodeBody sampleServer (sampleRequests t))
      (.spawn 0 :: publishSchedule ++ teardownSchedule) (Config.start freshNode)).any Removing =
      true := by decide +kernel
  obtain ⟨c, hc, hremoving⟩ := (Option.any_eq_true _ _).mp hplay
  have hrun : Run NodeState.step Elsewhere (fun t => nodeBody sampleServer (sampleRequests t))
      (Config.start freshNode) c := playPool_run (fun _ => trivial) hc
  obtain ⟨hsafe, hwiped⟩ :=
    teardown_safe sampleServer sampleRequests sampleRequests_plain rfl freshNode_mountDirs hrun
  refine ⟨c, hrun, ?_, hwiped⟩
  unfold Removing at hremoving
  split at hremoving
  · rename_i k f hslot
    obtain ⟨r, s', hs, -⟩ := nodeStep_total False c.world.state (.removeAll k)
    exact ⟨k, r, _, .call c 1 (.removeAll k) f r s' hslot hs,
      hsafe 1 k r _ (.call c 1 (.removeAll k) f r s' hslot hs)⟩
  · simp at hremoving

/-- No other handler for the pod of the thread is in flight. -/
def OnlyOfItsPod (s : NodeServer) (req : ℕ → NodeRequest) (t₀ : ℕ)
    (c : Config nodeSig NodeState (Option Status)) : Prop :=
  ∀ u, u ≠ t₀ → podOf s (req u) = podOf s (req t₀) → ¬c.InFlight u

/-- A thread that is spawned as the only one of its pod may count on that. -/
theorem poolSafe_of_spawn {c₁ c₂ : Config nodeSig NodeState (Option Status)} {t₀ : ℕ}
    {A : ℕ → Prop} (hplain : ∀ t uid, podOf s (req t) = some uid → PlainUID uid)
    (h : PoolSafe (nodeStep acc) (contract (podsOf s req) acc (fun _ => False) wiped)
      (fun t => Established s (fun _ => False) t (req t)) (fun _ => True) c₁)
    (hspawn : PoolStep (nodeStep acc) Elsewhere (fun t => nodeBody s (req t)) c₁ (.spawn t₀) c₂) :
    PoolSafe (nodeStep acc) (contract (podsOf s req) acc (· = t₀) wiped)
      (fun t => Established s (· = t₀) t (req t)) A c₂ := by
  -- The other threads go on under the contract they have been safe for.
  have hother : ∀ {u : ℕ} {p : NodeM (Option Status)}, u ≠ t₀ →
      Safe (nodeStep acc) u (contract (podsOf s req) acc (fun _ => False) wiped)
        (Established s (fun _ => False) u (req u)) p c₁.world →
      Safe (nodeStep acc) u (contract (podsOf s req) acc (· = t₀) wiped)
        (Established s (· = t₀) u (req u)) p c₁.world := by
    intro u p hu hp
    refine hp.transfer (fun _ hi => hi) (fun w w' hr => ⟨hr.holds, hr.view, fun h => h.elim⟩)
      (fun _ _ _ _ hg hi => ⟨hg, hi⟩) fun a w _ _ => ?_
    cases req u with
    | publish r => exact fun _ _ _ _ _ hut => absurd hut hu
    | unpublish r => trivial
  cases hspawn with
  | spawn t hidle =>
    refine ⟨h.inv, fun u p _ hp => ?_, fun u a _ ha => ?_⟩
    · by_cases hu : u = t₀
      · subst hu
        simp only [Function.update_self, Slot.running.injEq] at hp
        subst hp
        exact safe_nodeBody hplain u _
      · simp only [Function.update_of_ne hu] at hp
        exact hother hu (h.running u p trivial hp)
    · by_cases hu : u = t₀
      · subst hu
        simp at ha
      · simp only [Function.update_of_ne hu] at ha
        exact hother hu (h.done u a trivial ha)

/-- After an IAM publish for a pod has returned success, the reference of the pod exists and
the key is mounted and has its token, as long as no other handler for that pod has been in
flight since it began, whatever the handlers for other pods do.
SOURCE: pkg/csi_driver/node.go:332-417, 839-926 -/
theorem reference_safe (s : NodeServer) (req : ℕ → NodeRequest) {s₀ : NodeState}
    {c₁ c₂ c₃ : Config nodeSig NodeState (Option Status)} {t₀ : ℕ}
    {r : NodePublishVolumeRequest} {vc : StrMap} {volCap : VolumeCapability}
    (hplain : ∀ t uid, podOf s (req t) = some uid → PlainUID uid) (hlocks : s₀.locks = ∅)
    (hdirs : MountDirs s₀) (hreq : req t₀ = .publish r)
    (hvalid : validatePublish s r = .ok (vc, volCap)) (hiam : isIAM s vc = true)
    (hbefore : Run (nodeStep True) Elsewhere (fun t => nodeBody s (req t)) (Config.start s₀) c₁)
    (hspawn : PoolStep (nodeStep True) Elsewhere (fun t => nodeBody s (req t)) c₁ (.spawn t₀) c₂)
    (hafter : RunWhile (nodeStep True) Elsewhere (fun t => nodeBody s (req t))
      (OnlyOfItsPod s req t₀) c₂ c₃)
    (hdone : c₃.slot t₀ = .done none) :
    InUse c₃.world.state (keyOf s r.volumeID vc) (identityOf s vc).podUID := by
  have hsafe₂ := poolSafe_of_spawn (A := fun u => podOf s (req u) ≠ podOf s (req t₀) ∨ u = t₀)
    hplain (poolSafe_of_run hplain hlocks hdirs hbefore) hspawn
  have hcompat := contract_compatible (podsOf s req) True (· = t₀) s₀.wiped
    (A := fun u => podOf s (req u) ≠ podOf s (req t₀) ∨ u = t₀) (by
      rintro t u ht - hne rfl
      exact ht.resolve_right hne)
  have hactive : ∀ c a c', OnlyOfItsPod s req t₀ c → OnlyOfItsPod s req t₀ c' →
      PoolStep (nodeStep True) Elsewhere (fun t => nodeBody s (req t)) c a c' →
      ∀ t, a.thread = some t → podOf s (req t) ≠ podOf s (req t₀) ∨ t = t₀ := by
    intro c a c' hc hc' hs t ht
    by_contra hno
    rw [not_or, not_not] at hno
    obtain ⟨hp, hne⟩ := hno
    cases hs with
    | spawn t' hidle =>
      cases ht
      exact hc' t hne hp ⟨_, Function.update_self _ _ _⟩
    | call t' o k r s' hslot hstep | finish t' b hslot =>
      cases ht
      exact hc t hne hp ⟨_, hslot⟩
    | env s' henv => cases ht
  have hsafe₃ := (PoolSafe.run hcompat (fun t w _ _ => safe_nodeBody hplain t w) hactive
    hsafe₂ hafter).1
  have hpost := hsafe₃.post (Or.inr rfl) hdone
  rw [hreq] at hpost
  exact hsafe₃.inv.inUse trivial _ _ (hpost vc volCap hvalid hiam rfl rfl)

/-! Two pods that share a key: the volume is published to `u1`, while `u2` comes and goes. -/

/-- The publish to the pod `u1` is thread 0; the pod `u2` is unpublished by thread 2, and published to by
all others. -/
def sharedRequests : ℕ → NodeRequest
  | 0 => .publish (publishRequest "")
  | 2 => .unpublish ⟨otherTargetPath⟩
  | _ => .publish (otherRequest "")

/-- All threads but the first are of the pod `u2`. -/
theorem podOf_sharedRequests (t : ℕ) :
    podOf sampleServer (sharedRequests t) = some (if t = 0 then "u1" else "u2") := by
  unfold sharedRequests
  split
  · simp only [podOf, validatePublish_publishRequest, identityOf_normalContext, if_true]
  · exact getPodUIDFromTargetPath_otherTargetPath
  · rename_i h₀ _
    have hpod : podOf sampleServer (.publish (otherRequest "")) = some "u2" := by
      simp only [podOf, validatePublish_otherRequest, identityOf_normalContextOf]
    rw [hpod, if_neg h₀]

/-- The UIDs of both pods are plain. -/
theorem sharedRequests_plain (t : ℕ) (uid : String)
    (h : podOf sampleServer (sharedRequests t) = some uid) : PlainUID uid := by
  rw [podOf_sharedRequests] at h
  obtain rfl := Option.some.inj h
  split <;> decide

/-- The publish to `u1` holds the key, so that one to `u2` is refused; then `u2` is published and
unpublished. -/
def sharedSchedule : List (Move Choice) :=
  [.call 0 .ok, .call 0 .ok, .call 0 (.probe (.ok true)), .call 0 .ok,
    .spawn 3, .call 3 .ok, .call 3 .ok, .call 3 (.probe (.ok true)), .call 3 .ok, .call 3 .ok, .finish 3,
    .call 0 .ok, .call 0 .ok, .call 0 .ok, .call 0 (.wrote 6), .call 0 .ok, .call 0 (.probe (.ok true)),
    .call 0 .ok, .call 0 .ok, .call 0 .ok, .call 0 (.wrote 2), .call 0 .ok, .call 0 .ok, .call 0 .ok, .finish 0,
    .spawn 1, .call 1 .ok, .call 1 .ok, .call 1 (.probe (.ok true)), .call 1 .ok, .call 1 .ok, .call 1 .ok,
    .call 1 .ok, .call 1 (.wrote 6), .call 1 .ok, .call 1 (.probe (.ok false)), .call 1 .ok, .call 1 .ok,
    .call 1 (.wrote 2), .call 1 .ok, .call 1 .ok, .call 1 .ok, .finish 1,
    .spawn 2, .call 2 .ok, .call 2 (.probe (.ok false)), .call 2 (.umounted "" none true), .call 2 .ok,
    .call 2 (.keys [digestABC]), .call 2 (.names ["mount", "refs", "token"]), .call 2 (.names ["u1", "u2"]),
    .call 2 .ok, .call 2 .ok, .call 2 .ok, .call 2 .ok, .call 2 .ok, .finish 2]

/-- The code that a thread has returned, `none` for success. -/
def returned (c : Config nodeSig NodeState (Option Status)) (t : ℕ) : Option (Option Code) :=
  match c.slot t with
  | .done r => some (r.map (·.code))
  | _ => none

/-- A thread that has returned success. -/
theorem done_of_returned {c : Config nodeSig NodeState (Option Status)} {t : ℕ}
    (h : returned c t = some none) : c.slot t = .done none := by
  unfold returned at h
  split at h
  · rename_i r hslot
    obtain rfl : r = none := by simpa using h
    exact hslot
  · cases h

/-- The volume is published to `u1`; a publish to `u2` on the same key fails, another one succeeds, and `u2`
is unpublished again. The pod `u1` still has its volume. -/
theorem reference_safe_sample : ∃ c₂ c₃ : Config nodeSig NodeState (Option Status),
    PoolStep (nodeStep True) Elsewhere (fun t => nodeBody sampleServer (sharedRequests t))
      (Config.start freshNode) (.spawn 0) c₂ ∧
    RunWhile (nodeStep True) Elsewhere (fun t => nodeBody sampleServer (sharedRequests t))
      (OnlyOfItsPod sampleServer sharedRequests 0) c₂ c₃ ∧
    c₃.slot 0 = .done none ∧
    [0, 1, 2, 3].map (returned c₃) = [some none, some none, some none, some (some .aborted)] ∧
    c₃.world.state.pathPresent (.ref digestABC "u2") = false ∧ InUse c₃.world.state digestABC "u1" := by
  let body : ℕ → NodeM (Option Status) := fun t => nodeBody sampleServer (sharedRequests t)
  let c₂ : Config nodeSig NodeState (Option Status) :=
    ⟨⟨freshNode, []⟩, Function.update (fun _ => .idle) 0 (.running (body 0))⟩
  have hspawn : PoolStep (nodeStep True) Elsewhere body (Config.start freshNode) (.spawn 0) c₂ :=
    .spawn _ 0 rfl
  have hplay : (playPool execAccurate body sharedSchedule c₂).map (fun c => ([0, 1, 2, 3].map (returned c),
      c.world.state.pathPresent (.ref digestABC "u2"))) =
      some ([some none, some none, some none, some (some .aborted)], false) := by
    decide +kernel
  obtain ⟨c₃, hc₃, hobserved⟩ := Option.map_eq_some_iff.mp hplay
  obtain ⟨hreturned, hgone⟩ := Prod.mk.inj hobserved
  -- No other handler is of the pod `u1`.
  have hothers : ∀ c, OnlyOfItsPod sampleServer sharedRequests 0 c := by
    intro c u hu hpod
    rw [podOf_sharedRequests, podOf_sharedRequests, if_neg hu, if_pos rfl] at hpod
    exact absurd hpod (by decide)
  have hrun : RunWhile (nodeStep True) Elsewhere body
      (OnlyOfItsPod sampleServer sharedRequests 0) c₂ c₃ :=
    RunWhile.mono (fun _ _ _ _ h => nodeStep_of_execAccurate h)
      (playPool_run hothers hc₃)
  have hdone : c₃.slot 0 = .done none := by
    apply done_of_returned
    exact (List.cons.inj hreturned).1
  refine ⟨c₂, c₃, hspawn, hrun, hdone, hreturned, hgone, ?_⟩
  have h := reference_safe sampleServer sharedRequests sharedRequests_plain rfl
    freshNode_mountDirs rfl (validatePublish_publishRequest "") isIAM_normalContext
    (.refl _ trivial) hspawn hrun hdone
  rw [keyOf, identityOf_normalContext] at h
  exact iamKey_sample ▸ h

end Runs

end LustreCsi.Analysis.ReferenceSafety
