import LustreCsi.Computation.NestedLocks
import LustreCsi.Interface.NodeCalls
import LustreCsi.Interface.Paths
import LustreCsi.Interface.Sample

/-!
# Lock discipline of the node server

The four handlers share one set of locks, in which paths and IAM keys are both strings.
`lock_discipline`: in every run the set is the disjoint union of what the handlers in flight hold,
which is nothing, the path of their request, or this path and one key; all that a handler does but
the attempt to take the lock of its path it does holding that lock, and what can change a key it
does holding the lock of the key.
-/

set_option autoImplicit false

namespace LustreCsi.Analysis.LockDiscipline

open LustreCsi.Computation Model Interface

variable {o : Op} {ε : Type} {refused : ε} {t : ℕ}

/-- The keys that the handler of a call may lock: the key of an IAM volume that is published, and
any key whose reference an unpublish has found. -/
def SectionKey (s : NodeServer) : NodeCall → Key → Prop
  | .publish req, k => ∃ vc volCap, validatePublish s req = .ok (vc, volCap) ∧
      isIAM s vc = true ∧ k = keyOf s req.volumeID vc
  | .unpublish _, _ => True
  | _, _ => False

/-- What the handler of a call may hold, the newest lock first. -/
def MayHold (s : NodeServer) (call : NodeCall) (held : List String) : Prop :=
  held = [] ∨ held = [lockPath call] ∨
    ∃ k, SectionKey s call k ∧ held = [k.name, lockPath call]

/-- The UID in the target path of an unpublish is one of kubelet's. -/
def PlainCall : NodeCall → Prop
  | .unpublish req => ∀ uid, getPodUIDFromTargetPath req.targetPath = some uid → PlainUID uid
  | _ => True

/-- The locks with which the handler of a call may perform an operation. -/
structure Admissible (s : NodeServer) (call : NodeCall) (o : Op) (held : List String) : Prop where
  mayHold : MayHold s call held
  path : o ≠ .tryAcquire (lockPath call) → lockPath call ∈ held
  key : PlainCall call → ∀ k, opKey o = some k → k.name ∈ held

/-! ## The handlers are nested -/

section Nested

variable {s : NodeServer} {call : NodeCall} {key : Key}

/-- An operation under the lock of the path does not concern a key. -/
theorem admissible_path (ho : opKey o = none) : Admissible s call o [lockPath call] where
  mayHold := .inr (.inl rfl)
  path _ := List.mem_singleton_self _
  key _ k hk := by simp [ho] at hk

/-- An operation under the lock of a key concerns no other key. -/
theorem admissible_key (hkey : SectionKey s call key)
    (ho : PlainCall call → ∀ k, opKey o = some k → k = key) :
    Admissible s call o [key.name, lockPath call] where
  mayHold := .inr (.inr ⟨key, hkey, rfl⟩)
  path _ := by simp
  key hplain k hk := by simp [ho hplain k hk]

/-- The operations on neither the lock set nor a key. -/
def Outer (o : Op) : Prop := opKey o = none ∧ ∀ r, lockEvent ⟨o, r⟩ = none

/-- The operations on no lock and on no key but this one. -/
def Inner (key : Key) (o : Op) : Prop :=
  (∀ k, opKey o = some k → k = key) ∧ ∀ r, lockEvent ⟨o, r⟩ = none

/-- What concerns no key may also be done under the lock of one. -/
theorem Outer.inner (h : Outer o) : Inner key o :=
  ⟨fun k hk => by simp [h.1] at hk, h.2⟩

/-- A program that concerns no key, under the lock of the path. -/
theorem nested_outer {α : Type} {p : NodeM α} (hp : p.All Outer) :
    Nested lockEvent (Admissible s call) [lockPath call] p [lockPath call] :=
  .all (hp.mono fun _ ho => ⟨admissible_path ho.1, ho.2⟩)

/-- A program that concerns one key, under its lock. -/
theorem nested_inner {α : Type} {p : NodeM α} (hkey : SectionKey s call key) (hp : p.All (Inner key)) :
    Nested lockEvent (Admissible s call) [key.name, lockPath call] p [key.name, lockPath call] :=
  .all (hp.mono fun _ ho => ⟨admissible_key hkey fun _ => ho.1, ho.2⟩)

/-- The rule for `withLock`. -/
theorem nested_withLock {ok : Op → List String → Prop} {X : List String} {x : String}
    {body : NodeM (Option ε)} (hacquire : ok (.tryAcquire x) X)
    (hbody : Nested lockEvent ok (x :: X) body (x :: X)) (hrelease : ok (.release x) (x :: X)) :
    Nested lockEvent ok X (withLock x refused body) X := by
  have hprog : withLock x refused body = .call (.tryAcquire x) fun acquired : Bool =>
      if acquired then body >>= fun err => .call (.release x) fun _ => .ret err
      else .ret (some refused) := rfl
  rw [hprog]
  refine ⟨hacquire, fun acquired => ?_⟩
  cases acquired with
  | false => exact .pure
  | true => exact fun _ => Nested.bind hbody fun err => ⟨hrelease, fun _ => ⟨X, rfl, .pure⟩⟩

/-- The section of the path of a call. -/
theorem nested_pathSection (call : NodeCall) {body : NodeM (Option ε)}
    (hbody : Nested lockEvent (Admissible s call) [lockPath call] body [lockPath call]) :
    Nested lockEvent (Admissible s call) [] (withLock (lockPath call) refused body) [] :=
  nested_withLock ⟨.inl rfl, fun h => absurd rfl h, fun _ k hk => by simp [opKey] at hk⟩ hbody
    (admissible_path rfl)

/-- The section of a key within that of the path. -/
theorem nested_keySection {body : NodeM (Option ε)} (hkey : SectionKey s call key)
    (hbody : Nested lockEvent (Admissible s call) [key.name, lockPath call] body
      [key.name, lockPath call]) :
    Nested lockEvent (Admissible s call) [lockPath call] (withLock key.name refused body)
      [lockPath call] :=
  nested_withLock (admissible_path rfl) hbody
    (admissible_key hkey fun _ k hk => by simp [opKey] at hk)

variable (s)

/-- The probe of a path of kubelet's. -/
theorem outer_isMounted (p : String) : (isMounted (.outside p)).All Outer :=
  all_isMounted ⟨rfl, fun _ => rfl⟩ ⟨rfl, fun _ => rfl⟩ ⟨rfl, fun _ => rfl⟩

/-- Unmounting a path of kubelet's. -/
theorem outer_unmountPath (p : String) : (unmountPath s (.outside p)).All Outer :=
  all_unmountPath s ⟨rfl, fun _ => rfl⟩ (fun _ => ⟨rfl, fun _ => rfl⟩) ⟨rfl, fun _ => rfl⟩

/-- Staging concerns no key. -/
theorem outer_stageLocked (req : NodeStageVolumeRequest) (ip fsname : String)
    (volCap : VolumeCapability) : (stageLocked s req ip fsname volCap).All Outer :=
  all_stageLocked s (outer_isMounted _) ⟨rfl, fun _ => rfl⟩ ⟨rfl, fun _ => rfl⟩
    (all_mountStaged s ⟨rfl, fun _ => rfl⟩ (fun _ => ⟨rfl, fun _ => rfl⟩) (outer_unmountPath s _))

/-- The change of ownership that ends a publish concerns no key. -/
theorem outer_publishOwnership (p fsGroup : String) (readonly : Bool) :
    (publishOwnership s (.outside p) fsGroup readonly).All Outer :=
  all_publishOwnership s ⟨rfl, fun _ => rfl⟩ (fun _ => ⟨rfl, fun _ => rfl⟩)
    (fun _ => ⟨rfl, fun _ => rfl⟩) (outer_unmountPath s _) _ _

variable {s}

/-- An operation with a path in the directory of a key concerns this key. -/
theorem inner_of_key (ho : opKey o = some key) (hlock : ∀ r, lockEvent ⟨o, r⟩ = none) :
    Inner key o := by
  refine ⟨fun k hk => ?_, hlock⟩
  rw [ho] at hk
  exact (Option.some.inj hk).symm

variable (s)

/-- The global mount of a key concerns no other key. -/
theorem inner_ensureGlobalMount (volumeID principal : String) (vc : StrMap)
    (volCap : VolumeCapability) :
    (ensureGlobalMount s volumeID principal key vc volCap).All (Inner key) := by
  refine all_ensureGlobalMount s (fun p hp => inner_of_key hp fun _ => rfl)
    (inner_of_key rfl fun _ => rfl) (fun _ => inner_of_key rfl fun _ => rfl)
    (inner_of_key rfl fun _ => rfl) (fun p hp => inner_of_key hp fun _ => rfl)
    (Outer.inner ⟨rfl, fun _ => rfl⟩) (Outer.inner ⟨rfl, fun _ => rfl⟩) (inner_of_key rfl fun _ => rfl) ?_
  exact all_mountGlobalIAM s (fun _ => Outer.inner ⟨rfl, fun _ => rfl⟩)
    (fun _ _ _ _ => inner_of_key rfl fun _ => rfl) (Outer.inner ⟨rfl, fun _ => rfl⟩)
    (fun _ => inner_of_key rfl fun _ => rfl) (inner_of_key rfl fun _ => rfl)

/-- Reference and bind mount of a pod concern no other key. -/
theorem inner_bindPod (volumeID targetPath : String) (targetMounted : Bool) (podUID : String)
    (options : List String) :
    (bindPod s volumeID targetPath targetMounted podUID key options).All (Inner key) :=
  all_bindPod s (Outer.inner ⟨rfl, fun _ => rfl⟩) (inner_of_key rfl fun _ => rfl)
    (fun _ => inner_of_key rfl fun _ => rfl) (inner_of_key rfl fun _ => rfl)
    (fun _ => Outer.inner ⟨rfl, fun _ => rfl⟩)
    fun _ => (outer_unmountPath s targetPath).mono fun _ ho => ho.inner

/-- The end of a global mount concerns no other key. -/
theorem inner_releaseGlobalMount : (releaseGlobalMount s key).All (Inner key) :=
  all_releaseGlobalMount s (Outer.inner ⟨rfl, fun _ => rfl⟩) (fun _ => inner_of_key rfl fun _ => rfl)
    (fun _ hp => inner_of_key hp fun _ => rfl) (inner_of_key rfl fun _ => rfl)

/-- The section of the key is inside that of the target path, and all that concerns the key is in it. -/
theorem nested_publishIAMVolume (volumeID targetPath : String) (targetMounted : Bool) (vc : StrMap)
    (options : List String) (volCap : VolumeCapability)
    (hkey : SectionKey s call (keyOf s volumeID vc)) :
    Nested lockEvent (Admissible s call) [lockPath call]
      (publishIAMVolume s volumeID targetPath targetMounted vc options volCap) [lockPath call] := by
  unfold publishIAMVolume
  dsimp only
  split
  · exact .pure
  split
  · exact .pure
  split
  · exact .pure
  refine nested_keySection hkey ?_
  refine Nested.bind (nested_inner hkey (inner_ensureGlobalMount s _ _ _ _)) fun r => ?_
  split
  · exact .pure
  · exact nested_inner hkey (inner_bindPod s _ _ _ _ _)

/-- A publish touches a key only if the volume is an IAM volume. -/
theorem nested_publishLocked (req : NodePublishVolumeRequest) (vc : StrMap)
    (volCap : VolumeCapability)
    (hkey : isIAM s vc = true → SectionKey s call (keyOf s req.volumeID vc)) :
    Nested lockEvent (Admissible s call) [lockPath call] (publishLocked s req vc volCap)
      [lockPath call] := by
  refine Nested.bind (nested_outer (all_makeDir ⟨rfl, fun _ => rfl⟩)) fun r => ?_
  split
  · exact .pure
  refine Nested.bind (nested_outer (outer_isMounted _)) fun r => ?_
  split
  · exact .pure
  refine Nested.bind (Y := [lockPath call]) ?_ fun r => ?_
  · unfold publishMounts
    dsimp only
    split
    · rename_i hiam
      exact nested_publishIAMVolume s _ _ _ _ _ _ (hkey hiam)
    split
    · exact .pure
    · exact nested_outer (.bind (all_perform ⟨rfl, fun _ => rfl⟩) fun _ => .pure)
  · split
    · exact .pure
    · exact nested_outer (outer_publishOwnership s _ _ _)

/-- What the cleanup of one reference does, it does to the key of the reference. -/
theorem nested_cleanUpIAMReferenceForKey {refPath : Path} (hkey : SectionKey s call key)
    (hpath : PlainCall call → refPath.key? = some key) :
    Nested lockEvent (Admissible s call) [lockPath call] (cleanUpIAMReferenceForKey s key refPath)
      [lockPath call] := by
  refine nested_keySection hkey ?_
  refine Nested.bind (Y := [key.name, lockPath call]) ?_ fun r => ?_
  · refine ⟨admissible_key hkey fun hplain k hk => ?_, fun r => rfl⟩
    exact (Option.some.inj ((hpath hplain).symm.trans hk)).symm
  · split
    · exact .pure
    · exact nested_inner hkey (inner_releaseGlobalMount s)

/-- The references are cleaned up one after the other, each under the lock of its key. -/
theorem nested_cleanUpReferences {refPaths : List Path} (hkeys : ∀ k, SectionKey s call k)
    (hpaths : PlainCall call → ∀ p ∈ refPaths, ∀ k, extractKey p = some k → p.key? = some k) :
    Nested lockEvent (Admissible s call) [lockPath call] (cleanUpReferences s refPaths)
      [lockPath call] := by
  induction refPaths with
  | nil => exact .pure
  | cons refPath rest ih =>
    have hrest := ih fun hplain p hp => hpaths hplain p (List.mem_cons_of_mem _ hp)
    unfold cleanUpReferences
    split
    · exact hrest
    rename_i key hkey
    have hpath : PlainCall call → refPath.key? = some key := fun hplain =>
      hpaths hplain refPath List.mem_cons_self key hkey
    exact Nested.bind (nested_cleanUpIAMReferenceForKey s (hkeys key) hpath) fun err =>
      Nested.bind hrest fun errs => .pure

/-- Between unmounting the target and cleaning up, the references are looked up without a key. -/
theorem nested_unpublishLocked (targetPath : String)
    (hcall : call = .unpublish ⟨targetPath⟩) :
    Nested lockEvent (Admissible s call) [lockPath call] (unpublishLocked s targetPath)
      [lockPath call] := by
  have hkeys : ∀ k, SectionKey s call k := by
    intro k
    rw [hcall]
    trivial
  refine Nested.bind (nested_outer (outer_unmountPath s _)) fun r => ?_
  split
  · exact .pure
  refine Nested.bind ?_ fun _ => .pure
  unfold cleanUpIAMReference
  split
  · exact .pure
  rename_i podUID huid
  simp only [globPodReferences, Program.bind_assoc]
  refine Nested.bind (nested_outer (all_perform ⟨rfl, fun _ => rfl⟩)) fun ks => ?_
  refine Nested.bind (nested_outer (all_keysListing _ _ _ fun _ => ⟨rfl, fun _ => rfl⟩)) fun ks => ?_
  refine Nested.bind (nested_outer (all_keysListing _ _ _ fun _ => ⟨rfl, fun _ => rfl⟩)) fun ks => ?_
  simp only [Program.pure_eq, Program.ret_bind]
  refine Nested.bind (nested_cleanUpReferences s hkeys fun hplain p hp k hk => ?_) fun _ => .pure
  -- A reference lies in the directory of the key that its path is read as.
  obtain ⟨k', -, rfl⟩ := List.mem_map.mp hp
  rw [hcall] at hplain
  have hsep := notSeparator_of_uid huid fun hback => hplain podUID huid _ hback (by simp)
  rw [extractKey_ref k' (getPodUIDFromTargetPath_spec huid).2.1 hsep] at hk
  exact hk

end Nested

/-- Every handler uses its locks like a stack, performs each operation with those it needs, and
keeps none. -/
theorem nested_callBody (s : NodeServer) (call : NodeCall) :
    Nested lockEvent (Admissible s call) [] (callBody s call) [] := by
  cases call with
  | stage req =>
    change Nested lockEvent _ [] (nodeStageVolume s req) []
    unfold nodeStageVolume
    split
    · exact .pure
    · exact .pure
    · exact nested_pathSection (.stage req) (nested_outer (outer_stageLocked s _ _ _ _))
  | unstage req =>
    change Nested lockEvent _ [] (nodeUnstageVolume s req) []
    unfold nodeUnstageVolume
    split
    · exact .pure
    split
    · exact .pure
    · exact nested_pathSection (.unstage req) (nested_outer (outer_unmountPath s _))
  | publish req =>
    change Nested lockEvent _ [] (nodePublishVolume s req) []
    unfold nodePublishVolume
    split
    · exact .pure
    rename_i vc volCap hval
    exact nested_pathSection (.publish req)
      (nested_publishLocked s req vc volCap fun hiam => ⟨vc, volCap, hval, hiam, rfl⟩)
  | unpublish req =>
    change Nested lockEvent _ [] (nodeUnpublishVolume s req) []
    unfold nodeUnpublishVolume
    split
    · exact .pure
    · exact nested_pathSection (.unpublish req) (nested_unpublishLocked s _ rfl)

/-! ## Runs -/

/-- The handler of the thread has taken the lock and has not released it since. -/
abbrev Holds (c : Config nodeSig NodeState (Option Status)) (t : ℕ) (x : String) : Prop :=
  callLocks.Holds c.world.trace t x

/-- The handler of the thread is about to perform the operation. -/
def AboutTo (c : Config nodeSig NodeState (Option Status)) (t : ℕ) (o : Op) : Prop :=
  ∃ k, c.slot t = .running (.call o k)

/-- The handler is in the section of its path: what it is about to do is not to take its lock. -/
def InPath (calls : ℕ → NodeCall) (c : Config nodeSig NodeState (Option Status)) (t : ℕ) : Prop :=
  ∃ o, AboutTo c t o ∧ o ≠ .tryAcquire (lockPath (calls t))

/-- The handler is in the section of a key: what it is about to do can change the directory of the key,
its mount, its token or its references. -/
def InKey (c : Config nodeSig NodeState (Option Status)) (t : ℕ) (k : Key) : Prop :=
  ∃ o r s', AboutTo c t o ∧ c.world.state.step o r s' ∧ ¬SameKey k c.world.state s'

/-- The lock set is the disjoint union of what the handlers in flight hold, and they hold the locks of
the sections that they are in; so no two are in the section of one path or of one key. -/
structure Disciplined (s : NodeServer) (calls : ℕ → NodeCall)
    (c : Config nodeSig NodeState (Option Status)) (held : ℕ → List String) : Prop where
  holds : ∀ t x, x ∈ held t ↔ Holds c t x
  mayHold : ∀ t, MayHold s (calls t) (held t)
  nodup : ∀ t, (held t).Nodup
  notInFlight : ∀ t, ¬c.InFlight t → held t = []
  union : ∀ x, x ∈ c.world.state.locks ↔ ∃ t, c.InFlight t ∧ x ∈ held t
  disjoint : ∀ t u, t ≠ u → ∀ x ∈ held t, x ∉ held u
  empty : (∀ t, ¬c.InFlight t) → c.world.state.locks = ∅
  inPath : ∀ t, InPath calls c t → lockPath (calls t) ∈ held t
  inKey : ∀ t k, PlainCall (calls t) → InKey c t k → k.name ∈ held t
  onePath : ∀ t u, t ≠ u → InPath calls c t → InPath calls c u → lockPath (calls t) ≠ lockPath (calls u)
  oneKey : ∀ t u k, t ≠ u → PlainCall (calls t) → PlainCall (calls u) → InKey c t k → ¬InKey c u k

/-- A run of the handlers of the given calls. -/
abbrev CallRun (s : NodeServer) (calls : ℕ → NodeCall) :
    Config nodeSig NodeState (Option Status) → Config nodeSig NodeState (Option Status) → Prop :=
  Run NodeState.step SameLocks fun t => callBody s (calls t)

section Run

variable {s : NodeServer} {calls : ℕ → NodeCall} {c : Config nodeSig NodeState (Option Status)}
  {held : ℕ → List String}

/-- The stacks of the threads of the node server. -/
abbrev CallStacks (s : NodeServer) (calls : ℕ → NodeCall) (c : Config nodeSig NodeState (Option Status))
    (held : ℕ → List String) : Prop := Stacks callLocks (fun t => Admissible s (calls t)) c held

/-- A handler holds what it may hold. -/
theorem mayHold_of_stacks (h : CallStacks s calls c held) (t : ℕ) : MayHold s (calls t) (held t) := by
  cases hslot : c.slot t with
  | running p =>
    cases p with
    | call o k => exact (h.admissible hslot).mayHold
    | ret r =>
      -- A handler that is about to return holds nothing.
      exact .inl (h.running t _ hslot)
  | idle | done r => exact .inl (h.notInFlight t fun ⟨p, hp⟩ => by simp [hslot] at hp)

/-- The lock of the path is held in its section. -/
theorem inPath_of_stacks (h : CallStacks s calls c held) (hin : InPath calls c t) :
    lockPath (calls t) ∈ held t := by
  obtain ⟨o, ⟨k, hslot⟩, ho⟩ := hin
  exact (h.admissible hslot).path ho

/-- The lock of a key is held in its section. -/
theorem inKey_of_stacks (h : CallStacks s calls c held) {k : Key} (hplain : PlainCall (calls t))
    (hin : InKey c t k) : k.name ∈ held t := by
  obtain ⟨o, r, s', ⟨cont, hslot⟩, hstep, hchange⟩ := hin
  apply (h.admissible hslot).key hplain
  by_contra hkey
  exact hchange ((outcome_of_step hstep).frame hkey)

/-- The lock set consists of what the threads in flight hold. -/
theorem mem_locks_iff_of_stacks (h : CallStacks s calls c held) (x : String) :
    x ∈ c.world.state.locks ↔ ∃ t, c.InFlight t ∧ x ∈ held t := by
  have hlocked := h.consistent.mem_locked x
  simp only [callLocks, nodeLocks, Finset.mem_coe] at hlocked
  rw [hlocked]
  constructor
  · rintro ⟨t, ht⟩
    have hmem := (h.holds t x).mp ht
    refine ⟨t, ?_, hmem⟩
    by_contra hflight
    rw [h.notInFlight t hflight] at hmem
    simp at hmem
  · rintro ⟨t, -, ht⟩
    exact ⟨t, (h.holds t x).mpr ht⟩

/-- The stacks of a configuration have all the properties of a discipline. -/
theorem disciplined_of_stacks (h : CallStacks s calls c held) : Disciplined s calls c held := by
  have hdisjoint : ∀ t u, t ≠ u → ∀ x ∈ held t, x ∉ held u := fun t u hne x hx hx' =>
    hne (h.consistent.unique t u x ((h.holds t x).mpr hx) ((h.holds u x).mpr hx'))
  refine ⟨fun t x => (h.holds t x).symm, mayHold_of_stacks h, h.nodup, h.notInFlight,
    mem_locks_iff_of_stacks h, hdisjoint, fun hnone => ?_, fun t => inPath_of_stacks h,
    fun t k => inKey_of_stacks h, fun t u hne ht hu heq => ?_, fun t u k hne ht hu hkt hku => ?_⟩
  · refine Finset.eq_empty_of_forall_notMem fun x hx => ?_
    obtain ⟨t, hflight, -⟩ := (mem_locks_iff_of_stacks h x).mp hx
    exact hnone t hflight
  · apply hdisjoint t u hne _ (inPath_of_stacks h ht)
    rw [heq]
    exact inPath_of_stacks h hu
  · exact hdisjoint t u hne _ (inKey_of_stacks h ht hkt) (inKey_of_stacks h hu hku)

end Run

/-- **Lock discipline.** In every configuration that a run of any number of handlers reaches, with
any faults, the lock set is the disjoint union of what the handlers in flight hold; a handler is in the
section of its path or of a key only while it holds the lock; and what a handler releases it holds.
SOURCE: pkg/util/volume_lock.go:29-59, pkg/csi_driver/node.go:149-153, 222-226, 268-271, 352-356,
484-488, 880-884 -/
theorem lock_discipline {s : NodeServer} {calls : ℕ → NodeCall} {s₀ : NodeState}
    {c : Config nodeSig NodeState (Option Status)} (hlocks : s₀.locks = ∅)
    (hrun : CallRun s calls (.start s₀) c) :
    (∃ held, Disciplined s calls c held) ∧
      ∀ c' t x r, PoolStep NodeState.step SameLocks (fun t => callBody s (calls t)) c
        (.call t ⟨.release x, r⟩) c' → Holds c t x := by
  have henv : ∀ a b, SameLocks a b → callLocks.locked b = callLocks.locked a := fun a b h => by
    simp only [callLocks, nodeLocks, show b.locks = a.locks from h]
  obtain ⟨held, h⟩ := hrun.stacks (P := callLocks) (fun t => nested_callBody s (calls t)) henv
    (by simp [callLocks, nodeLocks, hlocks])
  refine ⟨⟨held, disciplined_of_stacks h⟩, fun c' t x r hs => ?_⟩
  exact (h.call hs).1 x rfl

/-! ## A publish inside its key section, and an unpublish that was refused -/

section Sample

open Interface.Sample

/-- The publish of the volume `ab` is thread 0; all other calls are unpublishes of its target. -/
def sampleCalls : ℕ → NodeCall
  | 0 => .publish (publishRequest "")
  | _ + 1 => .unpublish ⟨targetPath⟩

/-- The publish takes both of its locks; then an unpublish is refused. -/
def refusal : List (Move Choice) :=
  [.spawn 0, .call 0 .ok, .call 0 .ok, .call 0 (.probe (.ok true)), .call 0 .ok, .spawn 1,
    .call 1 .ok, .finish 1]

/-- The operation that a thread is about to perform. -/
def upcoming (c : Config nodeSig NodeState (Option Status)) (t : ℕ) : Option Op :=
  match c.slot t with
  | .running (.call o _) => some o
  | _ => none

/-- What is read off a configuration is what the thread is about to perform. -/
theorem aboutTo_of_upcoming {c : Config nodeSig NodeState (Option Status)}
    (h : upcoming c t = some o) : AboutTo c t o := by
  unfold upcoming at h
  split at h
  · rename_i o' k hslot
    obtain rfl := Option.some.inj h
    exact ⟨k, hslot⟩
  · cases h

/-- The lock set, what thread 0 is about to do, whether the key directory exists, and the code of
thread 1. -/
def observed (c : Config nodeSig NodeState (Option Status)) :
    Finset String × Option Op × Bool × Option Code :=
  (c.world.state.locks, upcoming c 0, (c.world.state.dir digestABC).isSome, match c.slot 1 with
    | .done (some st) => some st.code
    | _ => none)

/-- While the publish is in its key section, about to make the directory of the key, and after the
unpublish was refused, the lock set is the target path and the key, both held by the publish. -/
theorem lock_discipline_refusal : ∃ c held, CallRun sampleServer sampleCalls (.start freshNode) c ∧
    observed c = ({targetPath, digestABC.name}, some (.mkdirAll (.mount digestABC)), false,
      some .aborted) ∧
    Disciplined sampleServer sampleCalls c held ∧ InPath sampleCalls c 0 ∧ InKey c 0 digestABC ∧
    targetPath ∈ held 0 ∧ digestABC.name ∈ held 0 := by
  have hplay : (playPool NodeState.exec (fun t => callBody sampleServer (sampleCalls t)) refusal
      (.start freshNode)).map observed = some ({targetPath, digestABC.name},
        some (.mkdirAll (.mount digestABC)), false, some .aborted) := by
    decide +kernel
  obtain ⟨c, hc, hobserved⟩ := Option.map_eq_some_iff.mp hplay
  have hrun : CallRun sampleServer sampleCalls (.start freshNode) c :=
    playPool_run (fun _ => trivial) hc
  simp only [observed, Prod.mk.injEq] at hobserved
  have habout := aboutTo_of_upcoming hobserved.2.1
  have hpath : InPath sampleCalls c 0 := ⟨_, habout, by simp⟩
  have hkey : InKey c 0 digestABC := by
    refine ⟨_, none, _, habout, ⟨.ok, rfl⟩, fun hsame => ?_⟩
    -- Making the directory of the mount makes that of the key, which is not there yet.
    have hdir := hsame.dir
    have hnone := hobserved.2.2.1
    rw [NodeState.mkdirAll, dir_modifyKey_self] at hdir
    rw [← hdir] at hnone
    cases hnone
  obtain ⟨held, h⟩ := (lock_discipline rfl hrun).1
  exact ⟨c, held, hrun, by simpa only [observed, Prod.mk.injEq] using hobserved, h, hpath, hkey,
    h.inPath 0 hpath, h.inKey 0 _ trivial hkey⟩

end Sample

end LustreCsi.Analysis.LockDiscipline
