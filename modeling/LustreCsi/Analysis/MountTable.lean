import LustreCsi.Interface.KeyDirs
import LustreCsi.Interface.NodeSections
import LustreCsi.Interface.Sample

/-!
# The mount table under concurrent handlers

The mount-point probe is the only thing that keeps the handlers from stacking mounts.
`single_mounts`: as long as the probe tells the truth when it answers, no run of any number of
handlers, with any other faults, puts two mounts on one path. `principal_isolation`: when a handler
binds the mount of a key to a target path, one Lustre file system is mounted there, with the
principal of that request.

The lock of a path protects the mounts on it, and the lock of a key those on its `mount` directory;
what a handler knows of the mount table is a list of answers (`Known`).
-/

set_option autoImplicit false

namespace LustreCsi.Analysis.MountTable

open LustreCsi.Computation Model Interface

variable {o : Op} {r : o.Res} {σ : NodeState} {p : Path} {w : World nodeSig NodeState}
  {ψ : NodeState → Prop} {α : Type} {options : List String} {vc : StrMap}
  {volCap : VolumeCapability} {req : NodePublishVolumeRequest} {targetMounted : Bool}

/-! ## Truthful probes -/

/-- A probe that answers, or says that the path does not exist, is right about what is mounted. -/
def Truthful (s : NodeState) : (o : Op) → o.Res → Prop
  | .isLikelyNotMountPoint p, .ok notMnt => notMnt = !s.mounted p
  | .isLikelyNotMountPoint p, .error e => e.kind = .notExist → s.mounted p = false
  | _, _ => True

/-- `Truthful` as a test. -/
def truthful (s : NodeState) : (o : Op) → o.Res → Bool
  | .isLikelyNotMountPoint p, .ok notMnt => notMnt == !s.mounted p
  | .isLikelyNotMountPoint p, .error e => e.kind != .notExist || !s.mounted p
  | _, _ => true

/-- The check of an answer decides whether it is truthful. -/
theorem truthful_iff {s : NodeState} : truthful s o r = true ↔ Truthful s o r := by
  cases o with
  | isLikelyNotMountPoint p =>
    cases r with
    | ok notMnt => exact beq_iff_eq
    | error e =>
      simp only [truthful, Truthful, Bool.or_eq_true, bne_iff_ne, Bool.not_eq_true']
      exact Decidable.imp_iff_not_or.symm
  | _ => exact ⟨fun _ => trivial, fun _ => rfl⟩

instance (s : NodeState) (o : Op) (r : o.Res) : Decidable (Truthful s o r) :=
  decidable_of_iff _ truthful_iff

/-- What the node may do when its probes are truthful. -/
def truthfulStep (s : NodeState) (o : nodeSig.Op) (r : nodeSig.Res o) (s' : NodeState) : Prop :=
  s.step o r s' ∧ Truthful s o r

/-- The lock set under this step relation. -/
abbrev truthfulLocks : LockProtocol truthfulStep String := nodeLocks fun h => h.1

/-! ## What the locks protect -/

/-- The lock that guards the mounts on a path. -/
def guardOf : Path → Option String
  | .outside q => some q
  | .mount k => some k.name
  | _ => none

section Contract

variable (carries : Key → List String → Prop)

/-- At most one mount on each path, and on the `mount` of a key one with fitting options; the lock
of a path protects the mounts on it. -/
def mountResources : Resources NodeState String where
  inv s := (∀ p, (s.mountsAt p).length ≤ 1) ∧ ∀ k, ∀ m ∈ s.mountsAt (.mount k), carries k m.opts
  mono _ _ := True
  keeps x s s' := ∀ p, guardOf p = some x → s'.mountsAt p = s.mountsAt p
  mono_refl _ := trivial
  mono_trans _ _ _ _ _ := trivial
  keeps_refl _ _ _ _ := rfl
  keeps_trans _ _ _ _ h h' p hp := (h' p hp).trans (h p hp)

/-- An IAM publish that passes the checks. -/
structure IAMCall (s : NodeServer) (call : NodeCall) (req : NodePublishVolumeRequest) (vc : StrMap)
    (volCap : VolumeCapability) : Prop where
  call : call = .publish req
  valid : validatePublish s req = .ok (vc, volCap)
  iam : isIAM s vc = true

/-- What a handler does with mounts: only under the lock of the path, only on a path where nothing is
mounted, and an IAM publish binds its own key, which is mounted once and with fitting options. -/
structure Tidy (s : NodeServer) (calls : ℕ → NodeCall) (t : ℕ) (w : World nodeSig NodeState)
    (e : Event nodeSig) : Prop where
  owned : ∀ p, opMount e.1 = some p → ∃ x, guardOf p = some x ∧ truthfulLocks.Holds w.trace t x
  fresh : ∀ source p fstype options, e.1 = .mountSensitiveWithoutSystemd source p fstype options →
    w.state.mountsAt p = [] ∧ ∀ k, p = .mount k → carries k options
  bound : ∀ source q fstype options,
    e.1 = .mountSensitiveWithoutSystemd source (.outside q) fstype options →
    ∀ req vc volCap, IAMCall s (calls t) req vc volCap → q = req.targetPath ∧
      source = (Path.mount (keyOf s req.volumeID vc)).render ∧
      ∃ m, w.state.mountsAt (.mount (keyOf s req.volumeID vc)) = [m] ∧
        carries (keyOf s req.volumeID vc) m.opts

/-- The contract of the handlers. -/
abbrev contract (s : NodeServer) (calls : ℕ → NodeCall) : Contract nodeSig NodeState :=
  sectionContract truthfulLocks (mountResources carries) (Tidy carries s calls)

/-- Safety of a handler. -/
abbrev SafeMounts (s : NodeServer) (calls : ℕ → NodeCall) (t : ℕ) {α : Type}
    (Q : α → World nodeSig NodeState → Prop) (p : NodeM α) (w : World nodeSig NodeState) : Prop :=
  Safe truthfulStep t (contract carries s calls) Q p w

end Contract

/-- The handler holds the locks in `X`. -/
abbrev Held (t : ℕ) (X : List String) : World nodeSig NodeState → Prop :=
  InsideAll truthfulLocks t X fun _ => True

variable {carries : Key → List String → Prop} {s : NodeServer} {calls : ℕ → NodeCall} {t : ℕ}
  {X : List String}

/-- A path is mounted or nothing is on it. -/
theorem mounted_eq_false_iff :
    σ.mounted p = false ↔ σ.mountsAt p = [] := by
  simp [NodeState.mounted]

/-- Operations that mount nothing and unmount nothing guarantee all there is. -/
theorem tidy_of_opMount (h : opMount o = none) (w : World nodeSig NodeState) (r : o.Res) :
    Tidy carries s calls t w ⟨o, r⟩ := by
  have hne : ∀ source p fstype options, o ≠ .mountSensitiveWithoutSystemd source p fstype options := by
    rintro source p fstype options rfl
    simp [opMount] at h
  exact ⟨fun p hp => by simp [h] at hp, fun source p fstype options he => absurd he (hne _ _ _ _),
    fun source q fstype options he => absurd he (hne _ _ _ _)⟩

/-- Operations that take mounts away under their lock. -/
theorem tidy_of_unmount {x : String} (ho : o = .unmount p ∨ ∃ flags, o = .umount flags p)
    (hx : guardOf p = some x) (hw : truthfulLocks.Holds w.trace t x) (r : o.Res) :
    Tidy carries s calls t w ⟨o, r⟩ := by
  rcases ho with rfl | ⟨flags, rfl⟩
  all_goals
    refine ⟨fun p' hp' => ⟨x, ?_, hw⟩, fun source p' fstype options he => by simp at he,
      fun source q fstype options he => by simp at he⟩
    obtain rfl : p = p' := by simpa [opMount] using hp'
    exact hx

/-- The mounts on a path after an operation on it: fewer, or one more where there was none. -/
theorem mountsAt_after (hout : Outcome w.state o r σ) (htidy : Tidy carries s calls t w ⟨o, r⟩)
    (p : Path) :
    σ.mountsAt p = w.state.mountsAt p ∨ σ.mountsAt p = (w.state.mountsAt p).tail ∨
      ∃ m, σ.mountsAt p = [m] ∧ ∀ k, p = .mount k → carries k m.opts := by
  by_cases hp : opMount o = some p
  · cases o with
    | unmount q | umount flags q =>
      obtain rfl : q = p := by simpa [opMount] using hp
      rcases hout with rfl | ⟨-, rfl⟩
      · exact .inr (.inl (mountsAt_detach_self _ _))
      · exact .inl rfl
    | mountSensitiveWithoutSystemd source q fstype options =>
      obtain rfl : q = p := by simpa [opMount] using hp
      obtain ⟨hempty, hcarries⟩ := htidy.fresh source q fstype options rfl
      rcases hout with ⟨-, rfl⟩ | ⟨-, rfl⟩
      · refine .inr (.inr ⟨⟨w.state.deviceOf source options, q, fstype, options⟩, ?_, hcarries⟩)
        rw [mountsAt_attach_self, hempty]
      · exact .inl rfl
    | _ => simp [opMount] at hp
  · exact .inl (hout.mountsAt_eq hp)

/-- The guarantee keeps the invariant, and what the other locks protect. -/
theorem sections : @Sections truthfulStep (fun h => h.1) (mountResources carries)
    (Tidy carries s calls) where
  keeps t w o r σ hinv hs htidy := by
    have hout := outcome_of_step hs.1
    refine ⟨⟨fun p => ?_, fun k m hm => ?_⟩, trivial, fun x hx p hp => ?_, htidy⟩
    · have hlen := hinv.1 p
      rcases mountsAt_after hout htidy p with h | h | ⟨m, h, -⟩
      · rwa [h]
      · rw [h, List.length_tail]
        omega
      · simp [h]
    · rcases mountsAt_after hout htidy (.mount k) with h | h | ⟨m', h, hcarries⟩
      · exact hinv.2 k m (h ▸ hm)
      · exact hinv.2 k m (List.mem_of_mem_tail (h ▸ hm))
      · rw [h, List.mem_singleton] at hm
        exact hm ▸ hcarries k rfl
    · refine hout.mountsAt_eq fun ho => hx ?_
      obtain ⟨y, hy, hholds⟩ := htidy.owned p ho
      obtain rfl : y = x := Option.some.inj (hy.symm.trans hp)
      exact hholds
  acquire t w x r := tidy_of_opMount (o := .tryAcquire x) rfl w r
  release t w x r := tidy_of_opMount (o := .release x) rfl w r

/-! ## What a handler knows -/

/-- Each path of the list is mounted or not, as it says. -/
def Known (facts : List (Path × Bool)) (σ : NodeState) : Prop :=
  ∀ pb ∈ facts, σ.mounted pb.1 = pb.2

/-- The locks guard all paths of the list. -/
def Guarded (X : List String) (facts : List (Path × Bool)) : Prop :=
  ∀ pb ∈ facts, ∃ x ∈ X, guardOf pb.1 = some x

/-- The path is not in the list. -/
def Apart (p : Path) (facts : List (Path × Bool)) : Prop := ∀ pb ∈ facts, pb.1 ≠ p

variable {facts : List (Path × Bool)}

/-- One more fact that holds can be added to what is known. -/
theorem Known.cons {σ : NodeState} {p : Path} {b : Bool} (h : Known facts σ)
    (hp : σ.mounted p = b) : Known ((p, b) :: facts) σ :=
  List.forall_mem_cons.mpr ⟨hp, h⟩

/-- What is known depends only on the entries at the paths it is about. -/
theorem Known.of_mountsAt {σ' : NodeState} (h : Known facts σ)
    (hsame : ∀ pb ∈ facts, σ'.mountsAt pb.1 = σ.mountsAt pb.1) : Known facts σ' := by
  intro pb hpb
  rw [mounted_eq_of_mountsAt (hsame pb hpb)]
  exact h pb hpb

/-- What is known does not depend on the locks. -/
theorem Known.locks (σ : NodeState) (locks : Finset String) (h : Known facts σ) :
    Known facts { σ with locks := locks } := h

/-- What is known of guarded paths stays true. -/
theorem known_stable (hg : Guarded X facts) :
    Stable t (contract carries s calls) (InsideAll truthfulLocks t X (Known facts)) := by
  intro w w' hw hrely hinv
  refine ⟨(InsideAll.stable_true w w' ⟨hw.held, trivial⟩ hrely hinv).held, ?_⟩
  refine hw.fact.of_mountsAt fun pb hpb => ?_
  obtain ⟨x, hx, hguard⟩ := hg pb hpb
  exact hrely.2.2 x (hw.held x hx) pb.1 hguard

/-- An operation elsewhere leaves what is known. -/
theorem known_after (hw : InsideAll truthfulLocks t X (Known facts) w)
    (hs : truthfulStep w.state o r σ) (hlock : lockEvent ⟨o, r⟩ = none)
    (hapart : ∀ p, opMount o = some p → Apart p facts) :
    InsideAll truthfulLocks t X (Known facts) (w.after t ⟨o, r⟩ σ) := by
  refine hw.after hlock (hw.fact.of_mountsAt fun pb hpb => ?_)
  exact (outcome_of_step hs.1).mountsAt_eq fun ho => hapart pb.1 ho pb hpb rfl

/-- Operations that take no lock, mount nothing, and take mounts away only from paths that the locks
guard and of which nothing is known. -/
def Plain (X : List String) (facts : List (Path × Bool)) : Op → Prop
  | .tryAcquire _ => False
  | .release _ => False
  | .mountSensitiveWithoutSystemd _ _ _ _ => False
  | .unmount p => Apart p facts ∧ ∃ x ∈ X, guardOf p = some x
  | .umount _ p => Apart p facts ∧ ∃ x ∈ X, guardOf p = some x
  | _ => True

/-- A plain operation neither takes nor releases a lock. -/
theorem Plain.lockEvent_eq (h : Plain X facts o) (r : o.Res) : lockEvent ⟨o, r⟩ = none := by
  cases o with
  | tryAcquire x => exact h.elim
  | release x => exact h.elim
  | _ => rfl

/-- A plain operation is tidy whatever its answer. -/
theorem Plain.tidy (h : Plain X facts o) (hw : InsideAll truthfulLocks t X ψ w) (r : o.Res) :
    Tidy carries s calls t w ⟨o, r⟩ := by
  cases o with
  | mountSensitiveWithoutSystemd source p fstype options => exact h.elim
  | unmount p =>
    obtain ⟨-, x, hx, hguard⟩ := h
    exact tidy_of_unmount (.inl rfl) hguard (hw.held x hx) r
  | umount flags p =>
    obtain ⟨-, x, hx, hguard⟩ := h
    exact tidy_of_unmount (.inr ⟨flags, rfl⟩) hguard (hw.held x hx) r
  | _ => exact tidy_of_opMount rfl w r

/-- A plain operation that mounts or unmounts does so away from the known paths. -/
theorem Plain.apart (h : Plain X facts o) (hp : opMount o = some p) :
    Apart p facts := by
  cases o with
  | mountSensitiveWithoutSystemd source q fstype options => exact h.elim
  | unmount q | umount flags q =>
    obtain rfl : q = p := by simpa [opMount] using hp
    exact h.1
  | _ => simp [opMount] at hp

/-- A program of plain operations is safe, and leaves what is known. -/
theorem safe_plain (hg : Guarded X facts) {p : NodeM α} (hp : p.All (Plain X facts))
    (hw : InsideAll truthfulLocks t X (Known facts) w) :
    SafeMounts carries s calls t (fun _ => InsideAll truthfulLocks t X (Known facts)) p w :=
  sections.all (known_stable hg) (fun _ r h => h.lockEvent_eq r) (fun _ _ r h hw _ => h.tidy hw r)
    (fun _ _ r _ h hw hs => known_after hw hs (h.lockEvent_eq r) fun _ hp => h.apart hp) hp hw

/-- The same without anything known. -/
theorem safe_held {p : NodeM α} (hp : p.All (Plain X [])) (hw : InsideAll truthfulLocks t X ψ w) :
    SafeMounts carries s calls t (fun _ => Held t X) p w := by
  have hg : Guarded X [] := by simp [Guarded]
  have hw' : InsideAll truthfulLocks t X (Known []) w := ⟨hw.held, by simp [Known]⟩
  exact (safe_plain hg hp hw').mono fun _ _ _ h => ⟨h.held, trivial⟩

/-- A program that has ended keeps the locks it holds. -/
theorem safe_return {a : α} (hw : InsideAll truthfulLocks t X ψ w) :
    SafeMounts carries s calls t (fun _ => Held t X) (pure a : NodeM α) w :=
  safe_held .pure hw

/-- An error is returned, whatever is known. -/
theorem safe_error {ε : Type} (e : ε) {φ : NodeState → Prop} (hw : InsideAll truthfulLocks t X φ w) :
    SafeMounts carries s calls t (fun err => InsideAll truthfulLocks t X fun σ => err = none → ψ σ)
      (pure (some e)) w :=
  Safe.ret InsideAll.stable_true ⟨hw.held, trivial⟩ fun _ _ h => h.mono fun _ h => by simp at h

/-- Success is returned with what is known. -/
theorem safe_success {ε : Type} (hg : Guarded X facts)
    (hw : InsideAll truthfulLocks t X (Known facts) w) :
    SafeMounts carries s calls t
      (fun err : Option ε => InsideAll truthfulLocks t X fun σ => err = none → Known facts σ)
      (pure none) w :=
  Safe.ret (known_stable hg) hw fun _ _ h => h.mono fun h _ => h

/-- The rule for a mount. -/
theorem safe_mount {Q : α → World nodeSig NodeState → Prop} {source fstype : String}
    {f : Option OsError → NodeM α} (hg : Guarded X facts) (hp : (p, false) ∈ facts)
    (hcarries : ∀ k, p = .mount k → carries k options)
    (hbound : ∀ w, InsideAll truthfulLocks t X (Known facts) w → (mountResources carries).inv w.state →
      ∀ q, p = .outside q → ∀ req vc volCap, IAMCall s (calls t) req vc volCap →
      q = req.targetPath ∧ source = (Path.mount (keyOf s req.volumeID vc)).render ∧
      ∃ m, w.state.mountsAt (.mount (keyOf s req.volumeID vc)) = [m] ∧
        carries (keyOf s req.volumeID vc) m.opts) (hw : InsideAll truthfulLocks t X (Known facts) w)
    (hnone : ∀ w, InsideAll truthfulLocks t X (Known ((p, true) :: facts.filter fun pb => pb.1 ≠ p)) w →
      SafeMounts carries s calls t Q (f none) w)
    (hsome : ∀ e w, Held t X w → SafeMounts carries s calls t Q (f (some e)) w) :
    SafeMounts carries s calls t Q
      (perform (.mountSensitiveWithoutSystemd source p fstype options) >>= f) w := by
  refine sections.perform (known_stable hg) hw (fun _ => rfl) (fun w r hw hinv => ?_)
    fun w r σ hw _ hs => ?_
  · obtain ⟨x, hx, hguard⟩ := hg _ hp
    refine ⟨fun p' hp' => ⟨x, ?_, hw.held x hx⟩, fun source' p' fstype' options' he => ?_,
      fun source' q fstype' options' he req vc volCap hcall => ?_⟩
    · obtain rfl : p = p' := by simpa [opMount] using hp'
      exact hguard
    · cases he
      exact ⟨mounted_eq_false_iff.mp (hw.fact _ hp), hcarries⟩
    · cases he
      exact hbound w hw hinv q rfl req vc volCap hcall
  · cases r with
    | some e => exact hsome e _ (hw.after rfl trivial)
    | none =>
      refine hnone _ (hw.after rfl ?_)
      rcases outcome_of_step hs.1 with ⟨-, rfl⟩ | ⟨hr, -⟩
      · refine Known.cons (fun pb hpb => ?_) (mounted_attach_self _ _ _ _ _)
        obtain ⟨hmem, hne⟩ := List.mem_filter.mp hpb
        have hne : pb.1 ≠ p := by simpa using hne
        rw [mounted_eq_of_mountsAt (mountsAt_attach_of_ne _ hne _ _ _)]
        exact hw.fact pb hmem
      · exact absurd rfl hr

/-- What a probe adds to what is known. -/
def answered (p : Path) (facts : List (Path × Bool)) : Except Status Bool → List (Path × Bool)
  | .ok b => (p, b) :: facts
  | .error _ => facts

/-- An answer about a guarded path keeps the facts guarded. -/
theorem Guarded.answered (hg : Guarded X facts) (hp : ∃ x ∈ X, guardOf p = some x)
    (r : Except Status Bool) : Guarded X (answered p facts r) := by
  cases r with
  | ok b => exact List.forall_mem_cons.mpr ⟨hp, hg⟩
  | error e => exact hg

/-- The probe returns what is known then. -/
theorem safe_answer (hg : Guarded X facts) (hp : ∃ x ∈ X, guardOf p = some x)
    (r : Except Status Bool) (hw : InsideAll truthfulLocks t X (Known (answered p facts r)) w) :
    SafeMounts carries s calls t
      (fun r => InsideAll truthfulLocks t X (Known (answered p facts r))) (pure r) w :=
  Safe.ret (known_stable (hg.answered hp r)) hw fun _ _ h => h

/-- `isMounted` is right, also when it has unmounted a corrupted mount. -/
theorem safe_isMounted (hg : Guarded X facts) (hp : ∃ x ∈ X, guardOf p = some x)
    (hapart : Apart p facts) (hw : InsideAll truthfulLocks t X (Known facts) w) :
    SafeMounts carries s calls t
      (fun r => InsideAll truthfulLocks t X (Known (answered p facts r))) (isMounted p) w := by
  refine sections.perform (known_stable hg) hw (fun _ => rfl)
    (fun w r _ _ => tidy_of_opMount (o := .isLikelyNotMountPoint p) rfl w r) fun w r σ hw _ hs => ?_
  have hnow := known_after hw hs rfl (by simp [opMount])
  obtain rfl : σ = w.state := outcome_of_step hs.1
  cases r with
  | ok notMnt =>
    have hright : notMnt = !w.state.mounted p := hs.2
    refine safe_answer hg hp (.ok !notMnt) (hnow.mono fun h => h.cons ?_)
    simp [hright]
  | error err =>
    dsimp only
    split
    · rename_i hkind
      exact safe_answer hg hp (.ok false) (hnow.mono fun h => h.cons (hs.2 hkind))
    refine Safe.bind (safe_plain hg (all_pathExists (by exact trivial)) hnow) fun r w _ hw => ?_
    cases r with
    | ok b => exact safe_answer hg hp (.error _) hw
    | error pathErr =>
      dsimp only
      split
      · refine sections.perform (known_stable hg) hw (fun _ => rfl) (fun w r hw _ => ?_)
          fun w r σ hw hinv hs => ?_
        · obtain ⟨x, hx, hguard⟩ := hp
          exact tidy_of_unmount (.inl rfl) hguard (hw.held x hx) r
        · have hafter := known_after hw hs rfl fun q hq => by
            obtain rfl : p = q := by simpa [opMount] using hq
            exact hapart
          cases r with
          | some e => exact safe_answer hg hp (.error _) hafter
          | none =>
            refine safe_answer hg hp (.ok false) (hafter.mono fun h => h.cons ?_)
            rcases outcome_of_step hs.1 with rfl | ⟨hr, -⟩
            · -- There was one mount at most.
              rw [World.after_state, mounted_eq_false_iff, mountsAt_detach_self]
              have hlen := hinv.1 p
              exact List.eq_nil_of_length_eq_zero (by rw [List.length_tail]; omega)
            · exact absurd rfl hr
      · exact safe_answer hg hp (.error _) hw

/-! ## The handlers -/

/-- Clean-up under the lock of the path. -/
theorem plain_unmountPath (hapart : Apart p facts) (hp : ∃ x ∈ X, guardOf p = some x) :
    (unmountPath s p).All (Plain X facts) :=
  all_unmountPath s trivial (fun _ => ⟨hapart, hp⟩) trivial

/-- The mount of a key is made where none is known, with options that are the key's, and is then
known. -/
theorem safe_mountGlobalIAM {k : Key} {volumeID principal : String} (hk : k.name ∈ X)
    (hg : Guarded X facts) (hapart : Apart (.mount k) facts)
    (hcarries : carries k (addMountFlags [s!"user_principal=gke-wi://{principal}+{k.name}"] volCap))
    (hw : InsideAll truthfulLocks t X (Known ((.mount k, false) :: facts)) w) :
    SafeMounts carries s calls t (fun err => InsideAll truthfulLocks t X fun σ =>
      err = none → Known ((.mount k, true) :: facts) σ)
      (mountGlobalIAM s volumeID principal k vc volCap) w := by
  have hp : ∃ x ∈ X, guardOf (.mount k) = some x := ⟨k.name, hk, rfl⟩
  have hg' : ∀ b, Guarded X ((.mount k, b) :: facts) := fun b => List.forall_mem_cons.mpr ⟨hp, hg⟩
  have hrest : ((Path.mount k, false) :: facts).filter (fun pb => pb.1 ≠ Path.mount k) = facts := by
    rw [List.filter_cons_of_neg (by simp)]
    exact List.filter_eq_self.mpr fun pb hpb => decide_eq_true (hapart pb hpb)
  simp only [mountGlobalIAM]
  split
  · exact safe_error _ hw
  refine Safe.bind (safe_plain (hg' false) (all_setUpMultiNIC s _ _ trivial) hw) fun r w _ hw => ?_
  split
  · exact safe_error _ hw
  refine safe_mount (hg' false) List.mem_cons_self (fun k' hk' => ?_)
    (fun _ _ _ q hq => by cases hq) hw (fun w hw => ?_) fun e w hw => ?_
  · cases hk'
    exact hcarries
  · refine safe_success (hg' true) (hw.mono fun h => ?_)
    rwa [hrest] at h
  · refine Safe.bind (safe_held (plain_unmountPath (by simp [Apart]) hp) hw) fun _ w _ hw => ?_
    exact safe_error _ hw

/-- After `ensureGlobalMount` the key is mounted, and what was known of other paths still holds. -/
theorem safe_ensureGlobalMount {k : Key} {volumeID principal : String} (hk : k.name ∈ X)
    (hg : Guarded X facts) (hapart : Apart (.mount k) facts)
    (hcarries : carries k (addMountFlags [s!"user_principal=gke-wi://{principal}+{k.name}"] volCap))
    (hw : InsideAll truthfulLocks t X (Known facts) w) :
    SafeMounts carries s calls t (fun err => InsideAll truthfulLocks t X fun σ =>
      err = none → Known ((.mount k, true) :: facts) σ)
      (ensureGlobalMount s volumeID principal k vc volCap) w := by
  have hp : ∃ x ∈ X, guardOf (.mount k) = some x := ⟨k.name, hk, rfl⟩
  refine Safe.bind (safe_plain hg (all_makeGlobalDirs trivial trivial) hw) fun r w _ hw => ?_
  split
  · exact safe_error _ hw
  split
  · exact safe_error _ hw
  have htoken := fun token => all_updateTokenFile (k := k) (φ := Plain X facts) trivial
    (fun _ => trivial) trivial trivial token
  refine Safe.bind (safe_plain hg (htoken _) hw) fun r w _ hw => ?_
  split
  · exact safe_error _ hw
  refine Safe.bind (safe_isMounted hg hp hapart hw) fun r w _ hw => ?_
  split
  · exact safe_error _ hw
  · exact safe_success (hg.answered hp (.ok true)) hw
  · exact safe_mountGlobalIAM hk hg hapart hcarries hw

/-- The bind mount shows the one file system that is mounted for the key. -/
theorem safe_bindPod (hcall : IAMCall s (calls t) req vc volCap) {podUID : String}
    (hk : (keyOf s req.volumeID vc).name ∈ X) (hq : req.targetPath ∈ X)
    (hw : InsideAll truthfulLocks t X
      (Known [(.mount (keyOf s req.volumeID vc), true), (.outside req.targetPath, targetMounted)]) w) :
    SafeMounts carries s calls t (fun _ => Held t X)
      (bindPod s req.volumeID req.targetPath targetMounted podUID (keyOf s req.volumeID vc) options)
      w := by
  have hp : ∃ x ∈ X, guardOf (.outside req.targetPath) = some x := ⟨_, hq, rfl⟩
  have hg : Guarded X [(.mount (keyOf s req.volumeID vc), true),
      (.outside req.targetPath, targetMounted)] := by
    refine List.forall_mem_cons.mpr ⟨⟨_, hk, rfl⟩, List.forall_mem_singleton.mpr hp⟩
  refine Safe.bind (safe_plain hg (all_addPodReference trivial trivial (fun _ => trivial) _) hw)
    fun r w _ hw => ?_
  split
  · exact safe_return hw
  split
  · exact safe_return hw
  rename_i hnot
  obtain rfl : targetMounted = false := by simpa using hnot
  refine safe_mount hg (by simp) (fun k hk => by cases hk)
    (fun w hw hinv q hq req' vc' volCap' hcall' => ?_) hw (fun w hw => safe_return hw)
    fun e w hw => ?_
  · cases hq
    obtain rfl : req = req' := by simpa using hcall.call.symm.trans hcall'.call
    obtain ⟨rfl, rfl⟩ : vc = vc' ∧ volCap = volCap' := by
      simpa using hcall.valid.symm.trans hcall'.valid
    refine ⟨rfl, rfl, ?_⟩
    -- The key is mounted, and at most once.
    have hmounted := hw.fact _ List.mem_cons_self
    obtain ⟨m, rest, hlist⟩ : ∃ m rest,
        w.state.mountsAt (.mount (keyOf s req.volumeID vc)) = m :: rest := by
      apply List.exists_cons_of_ne_nil
      intro hnil
      simp [mounted_eq_false_iff.mpr hnil] at hmounted
    have hlen := hinv.1 (.mount (keyOf s req.volumeID vc))
    obtain rfl : rest = [] := by simpa [hlist] using hlen
    exact ⟨m, hlist, hinv.2 _ m (by simp [hlist])⟩
  · have href : (removePodReference (keyOf s req.volumeID vc) podUID).All (Plain X []) :=
      .bind (all_perform (by exact trivial)) fun _ => .pure
    refine Safe.bind (safe_held href hw) fun _ w _ hw => ?_
    refine Safe.bind (safe_held (plain_unmountPath (by simp [Apart]) hp) hw) fun _ w _ hw => ?_
    exact safe_return hw

/-- What the options of an IAM publish have to satisfy. -/
def Carrying (carries : Key → List String → Prop) (s : NodeServer) (calls : ℕ → NodeCall) : Prop :=
  ∀ t req vc volCap, IAMCall s (calls t) req vc volCap → carries (keyOf s req.volumeID vc)
    (addMountFlags [s!"user_principal=gke-wi://{principalOf (identityOf s vc).namespace_
      (identityOf s vc).saName}+{(keyOf s req.volumeID vc).name}"] volCap)

/-- Publishing an IAM volume is tidy while the target path is locked. -/
theorem safe_publishIAMVolume (hcarrying : Carrying carries s calls)
    (hcall : IAMCall s (calls t) req vc volCap) (hq : req.targetPath ∈ X)
    (hw : InsideAll truthfulLocks t X (Known [(.outside req.targetPath, targetMounted)]) w) :
    SafeMounts carries s calls t (fun _ => Held t X)
      (publishIAMVolume s req.volumeID req.targetPath targetMounted vc options volCap) w := by
  have hg : ∀ Y, X ⊆ Y → Guarded Y [(.outside req.targetPath, targetMounted)] := fun Y hY =>
    List.forall_mem_singleton.mpr ⟨_, hY hq, rfl⟩
  simp only [publishIAMVolume]
  split
  · exact safe_return hw
  split
  · exact safe_return hw
  split
  · exact safe_return hw
  refine sections.withLock (known_stable (hg X fun _ h => h)) (fun σ L h => h.locks σ L)
    (fun w hw => ?_) hw
  refine Safe.bind (safe_ensureGlobalMount (by simp) (hg _ fun x hx => List.mem_cons_of_mem _ hx)
    (by simp [Apart]) (hcarrying t req vc volCap hcall) hw) fun err w _ hw => ?_
  cases err with
  | some e => exact safe_return hw
  | none => exact safe_bindPod hcall (by simp [keyOf]) (by simp [hq]) (hw.mono fun h => h rfl)

/-- The mounts of a publish are tidy while the target path is locked. -/
theorem safe_publishMounts (hcarrying : Carrying carries s calls) (hreq : calls t = .publish req)
    (hval : validatePublish s req = .ok (vc, volCap)) (hq : req.targetPath ∈ X)
    (hw : InsideAll truthfulLocks t X (Known [(.outside req.targetPath, targetMounted)]) w) :
    SafeMounts carries s calls t (fun _ => Held t X) (publishMounts s req vc volCap targetMounted)
      w := by
  have hg : Guarded X [(.outside req.targetPath, targetMounted)] :=
    List.forall_mem_singleton.mpr ⟨_, hq, rfl⟩
  simp only [publishMounts]
  split
  · rename_i hiam
    exact safe_publishIAMVolume hcarrying ⟨hreq, hval, hiam⟩ hq hw
  rename_i hiam
  split
  · exact safe_return hw
  rename_i hnot
  obtain rfl : targetMounted = false := by simpa using hnot
  refine safe_mount hg (by simp) (fun k hk => by cases hk)
    (fun w hw hinv q hq req' vc' volCap' hcall' => ?_) hw (fun w hw => safe_return hw)
    fun e w hw => safe_return hw
  obtain rfl : req = req' := by simpa using hreq.symm.trans hcall'.call
  obtain ⟨rfl, rfl⟩ : vc = vc' ∧ volCap = volCap' := by
    simpa using hval.symm.trans hcall'.valid
  exact absurd hcall'.iam hiam

/-- A publish is tidy and ends without locks. -/
theorem safe_nodePublishVolume (hcarrying : Carrying carries s calls)
    (hreq : calls t = .publish req) (hw : Held t [] w) :
    SafeMounts carries s calls t (fun _ => Held t []) (nodePublishVolume s req) w := by
  simp only [nodePublishVolume]
  split
  · exact safe_return hw
  rename_i vc volCap hval
  refine sections.withLock InsideAll.stable_true (fun _ _ h => h) (fun w hw => ?_) hw
  have hp : ∃ x ∈ [req.targetPath], guardOf (.outside req.targetPath) = some x := ⟨_, by simp, rfl⟩
  refine Safe.bind (safe_held (all_makeDir trivial) hw) fun r w _ hw => ?_
  split
  · exact safe_return hw
  have hknown : InsideAll truthfulLocks t [req.targetPath] (Known []) w :=
    ⟨hw.held, by simp [Known]⟩
  refine Safe.bind (safe_isMounted (by simp [Guarded]) hp (by simp [Apart]) hknown)
    fun r w _ hw => ?_
  split
  · exact safe_return hw
  refine Safe.bind (safe_publishMounts hcarrying hreq hval (by simp) hw) fun err w _ hw => ?_
  cases err with
  | some e => exact safe_return hw
  | none =>
    exact safe_held (all_publishOwnership s trivial (fun _ => trivial) (fun _ => trivial)
      (plain_unmountPath (by simp [Apart]) hp) _ _) hw

/-- Cleaning up a list of references is tidy; each key is locked and released. -/
theorem safe_cleanUpReferences (refPaths : List Path) (hw : Held t X w) :
    SafeMounts carries s calls t (fun _ => Held t X) (cleanUpReferences s refPaths) w := by
  induction refPaths generalizing w with
  | nil => exact safe_return hw
  | cons refPath rest ih =>
    simp only [cleanUpReferences]
    split
    · exact ih hw
    rename_i k _
    refine Safe.bind (sections.withLock InsideAll.stable_true (fun _ _ h => h) (fun w hw => ?_) hw)
      fun _ w _ hw => Safe.bind (ih hw) fun _ w _ hw => safe_return hw
    refine safe_held (.bind (all_perform (by exact trivial)) fun r => ?_) hw
    split
    · exact .pure
    exact all_releaseGlobalMount s trivial
      (fun _ => ⟨by simp [Apart], k.name, by simp, rfl⟩) (fun _ _ => trivial) trivial

/-- Cleaning up the references of a pod is tidy. -/
theorem safe_cleanUpIAMReference (targetPath : String) (hw : Held t X w) :
    SafeMounts carries s calls t (fun _ => Held t X) (cleanUpIAMReference s targetPath) w := by
  simp only [cleanUpIAMReference]
  split
  · exact safe_return hw
  refine Safe.bind (safe_held (all_globPodReferences _ trivial fun _ => trivial) hw)
    fun refPaths w _ hw => ?_
  exact Safe.bind (safe_cleanUpReferences refPaths hw) fun _ w _ hw => safe_return hw

/-- An unpublish is tidy and ends without locks. -/
theorem safe_nodeUnpublishVolume {req : NodeUnpublishVolumeRequest} (hw : Held t [] w) :
    SafeMounts carries s calls t (fun _ => Held t []) (nodeUnpublishVolume s req) w := by
  simp only [nodeUnpublishVolume]
  split
  · exact safe_return hw
  refine sections.withLock InsideAll.stable_true (fun _ _ h => h) (fun w hw => ?_) hw
  refine Safe.bind (safe_held (plain_unmountPath (by simp [Apart]) ⟨_, by simp, rfl⟩) hw)
    fun r w _ hw => ?_
  split
  · exact safe_return hw
  · exact Safe.bind (safe_cleanUpIAMReference req.targetPath hw) fun err w _ hw => safe_return hw

/-- A staging is tidy and ends without locks. -/
theorem safe_nodeStageVolume {req : NodeStageVolumeRequest} (hreq : calls t = .stage req)
    (hw : Held t [] w) :
    SafeMounts carries s calls t (fun _ => Held t []) (nodeStageVolume s req) w := by
  simp only [nodeStageVolume]
  split
  · exact safe_return hw
  · exact safe_return hw
  · refine sections.withLock InsideAll.stable_true (fun _ _ h => h) (fun w hw => ?_) hw
    have hp : ∃ x ∈ [req.stagingTargetPath], guardOf (.outside req.stagingTargetPath) = some x :=
      ⟨_, by simp, rfl⟩
    have hg : Guarded [req.stagingTargetPath] [(.outside req.stagingTargetPath, false)] :=
      List.forall_mem_singleton.mpr hp
    have hknown : InsideAll truthfulLocks t [req.stagingTargetPath] (Known []) w :=
      ⟨hw.held, by simp [Known]⟩
    refine Safe.bind (safe_isMounted (by simp [Guarded]) hp (by simp [Apart]) hknown)
      fun r w _ hw => ?_
    split
    · exact safe_return hw
    · exact safe_return hw
    · refine Safe.bind (safe_plain hg (all_hasMountWithSameFSName trivial _) hw) fun r w _ hw => ?_
      split
      · exact safe_return hw
      · exact safe_return hw
      · refine Safe.bind (safe_plain hg (all_setUpMultiNIC s _ _ trivial) hw) fun r w _ hw => ?_
        split
        · exact safe_return hw
        refine Safe.bind (safe_plain hg (all_makeDir trivial) hw) fun r w _ hw => ?_
        split
        · exact safe_return hw
        refine safe_mount hg (by simp) (fun k hk => by cases hk)
          (fun w hw hinv q hq req' vc' volCap' hcall' => ?_) hw (fun w hw => safe_return hw)
          fun e w hw => ?_
        · cases hreq.symm.trans hcall'.call
        · exact Safe.bind (safe_held (plain_unmountPath (by simp [Apart]) hp) hw)
            fun _ w _ hw => safe_return hw

/-- An unstaging is tidy and ends without locks. -/
theorem safe_nodeUnstageVolume {req : NodeUnstageVolumeRequest} (hw : Held t [] w) :
    SafeMounts carries s calls t (fun _ => Held t []) (nodeUnstageVolume s req) w := by
  simp only [nodeUnstageVolume]
  split
  · exact safe_return hw
  split
  · exact safe_return hw
  refine sections.withLock InsideAll.stable_true (fun _ _ h => h) (fun w hw => ?_) hw
  exact safe_held (plain_unmountPath (by simp [Apart]) ⟨_, by simp, rfl⟩) hw

/-- Every handler keeps the contract. -/
theorem safe_callBody (hcarrying : Carrying carries s calls) (w : World nodeSig NodeState) :
    SafeMounts carries s calls t (fun _ => Held t []) (callBody s (calls t)) w := by
  have hw : Held t [] w := ⟨by simp, trivial⟩
  cases hreq : calls t with
  | stage req => exact safe_nodeStageVolume hreq hw
  | unstage req => exact safe_nodeUnstageVolume hw
  | publish req => exact safe_nodePublishVolume hcarrying hreq hw
  | unpublish req => exact safe_nodeUnpublishVolume hw

/-! ## Runs -/

/-- What happens on the node outside the driver concerns neither its lock set nor the mounts. -/
structure SameMounts (s s' : NodeState) : Prop where
  locks : s'.locks = s.locks
  mounts : s'.mounts = s.mounts

/-- Equal mount tables have the same entries at a path. -/
theorem SameMounts.mountsAt {σ' : NodeState} (h : SameMounts σ σ') (p : Path) :
    σ'.mountsAt p = σ.mountsAt p := by
  simp only [NodeState.mountsAt, h.mounts]

/-- The environment respects the resources, as it leaves locks and mounts alone. -/
theorem envKeeps_mounts : (mountResources carries).EnvKeeps truthfulLocks SameMounts where
  locked _ _ h := by simp only [nodeLocks, h.locks]
  inv σ σ' hinv h := by
    simp only [mountResources, h.mountsAt]
    exact hinv
  mono _ _ _ _ := trivial
  keeps _ _ _ _ h p _ := h.mountsAt p

/-- A run of the handlers of the given calls, with truthful probes and any other faults. -/
abbrev MountRun (s : NodeServer) (calls : ℕ → NodeCall) :
    Config nodeSig NodeState (Option Status) → Config nodeSig NodeState (Option Status) → Prop :=
  Run truthfulStep SameMounts fun t => callBody s (calls t)

variable {s₀ : NodeState} {c : Config nodeSig NodeState (Option Status)}

/-- The handlers keep their contract in every configuration reached. -/
theorem safePool_of_run (hcarrying : Carrying carries s calls) (hlocks : s₀.locks = ∅)
    (hinv : (mountResources carries).inv s₀) (hrun : MountRun s calls (.start s₀) c) :
    PoolSafe truthfulStep (contract carries s calls) (fun t _ => Held t []) (fun _ => True) c := by
  refine (PoolSafe.run (sectionContract_compatible envKeeps_mounts)
    (fun t w _ _ => safe_callBody hcarrying w) (fun _ _ _ _ _ _ _ _ => trivial) (.start ?_) hrun).1
  exact ⟨.start truthfulLocks (by simp [nodeLocks, hlocks]), hinv⟩

/-- A handler that is about to mount guarantees what it has to. -/
theorem tidy_of_next (hcarrying : Carrying carries s calls) (hlocks : s₀.locks = ∅)
    (hinv : (mountResources carries).inv s₀) (hrun : MountRun s calls (.start s₀) c)
    {source fstype : String}
    (hnext : c.next t = some (.mountSensitiveWithoutSystemd source p fstype options)) :
    ∃ r, Tidy carries s calls t c.world ⟨.mountSensitiveWithoutSystemd source p fstype options, r⟩ := by
  have hfails : truthfulStep c.world.state (.mountSensitiveWithoutSystemd source p fstype options)
      (some ⟨.other, ""⟩) c.world.state := ⟨⟨.fail "" false, by simp [NodeState.exec]⟩, trivial⟩
  exact ⟨_, ((safePool_of_run hcarrying hlocks hinv hrun).next trivial hnext hfails).2.2.2⟩

/-- **No stacked mounts.** On a node with at most one mount on each path and no lock taken, in every
configuration that a run of any number of stage, unstage, publish and unpublish handlers reaches, with
truthful probes and any other faults, at most one mount is on each path; and a handler that is about to
mount on a path finds it empty and holds its lock.
SOURCE: pkg/csi_driver/node.go:154-208, 222-233, 273-329, 352-416, 421-472, 484-499, 571-611,
879-926, pkg/csi_driver/unmount.go:100-154 -/
theorem single_mounts (hlocks : s₀.locks = ∅) (hsingle : ∀ p, (s₀.mountsAt p).length ≤ 1)
    (hrun : MountRun s calls (.start s₀) c) :
    (∀ p, (c.world.state.mountsAt p).length ≤ 1) ∧
      ∀ t source p fstype options,
        c.next t = some (.mountSensitiveWithoutSystemd source p fstype options) →
        c.world.state.mountsAt p = [] ∧
          ∃ x, guardOf p = some x ∧ truthfulLocks.Holds c.world.trace t x := by
  have hcarrying : Carrying (fun _ _ => True) s calls := fun _ _ _ _ _ => trivial
  have hinv : (mountResources fun _ _ => True).inv s₀ := ⟨hsingle, fun _ _ _ => trivial⟩
  refine ⟨(safePool_of_run hcarrying hlocks hinv hrun).inv.2.1,
    fun t source p fstype options hnext => ?_⟩
  obtain ⟨r, htidy⟩ := tidy_of_next hcarrying hlocks hinv hrun hnext
  exact ⟨(htidy.fresh _ _ _ _ rfl).1, htidy.owned p rfl⟩

section Sample

open Interface.Sample

/-- A schedule with truthful probes is a run. -/
theorem mountRun_of_play {ms : List (Move Choice)} {c' : Config nodeSig NodeState (Option Status)}
    (h : playPool (execWhere Truthful) (fun t => callBody s (calls t)) ms c = some c') :
    MountRun s calls c c' := by
  have hrun : Run (stepOf (S := nodeSig) (execWhere Truthful)) SameMounts
      (fun t => callBody s (calls t)) c c' := playPool_run (fun _ => trivial) h
  exact hrun.mono fun _ _ _ _ hs => step_of_execWhere hs

/-- All threads publish the volume `ab` to its pod. -/
def sampleCalls (_ : ℕ) : NodeCall := .publish (publishRequest "")

/-- The publish of thread 0 reaches the mount of its key; thread 1 is refused. -/
def mountsKey : List (Move Choice) :=
  .spawn 0 :: [.ok, .ok, .probe (.ok true), .ok, .ok, .ok, .ok, .wrote 6, .ok,
    .probe (.ok true)].map (.call 0) ++ [.spawn 1, .call 1 .ok, .finish 1]

/-- A handler finds its key unmounted, and mounts it under the lock. -/
theorem single_mounts_key : ∃ c, MountRun sampleServer sampleCalls (.start freshNode) c ∧
    c.next 0 = some (.mountSensitiveWithoutSystemd "10.0.0.2@tcp:/lustrefs" (.mount digestABC)
      "lustre" [s!"user_principal=gke-wi://c/d+{digestABC.name}"]) ∧
    truthfulLocks.Holds c.world.trace 0 digestABC.name := by
  have hplay : (playPool (execWhere Truthful) (fun t => callBody sampleServer (sampleCalls t))
      mountsKey (.start freshNode)).map (fun c => c.next 0) =
        some (some (.mountSensitiveWithoutSystemd "10.0.0.2@tcp:/lustrefs" (.mount digestABC)
          "lustre" [s!"user_principal=gke-wi://c/d+{digestABC.name}"])) := by decide +kernel
  obtain ⟨c, hc, hnext⟩ := Option.map_eq_some_iff.mp hplay
  have hrun := mountRun_of_play hc
  obtain ⟨-, x, hx, hholds⟩ := (single_mounts rfl (by simp [NodeState.mountsAt, freshNode]) hrun).2
    _ _ _ _ _ hnext
  cases hx
  exact ⟨c, hrun, hnext, hholds⟩

end Sample

/-! ## Principals -/

/-- The option by which the principal of a request is passed to the mount of a key. -/
def userPrincipal (s : NodeServer) (vc : StrMap) (k : Key) : String :=
  s!"user_principal=gke-wi://{principalOf (identityOf s vc).namespace_ (identityOf s vc).saName}+{k.name}"

/-- IAM publishes with the same key are made for the same service account. -/
def Agree (s : NodeServer) (calls : ℕ → NodeCall) : Prop :=
  ∀ t u req req' vc vc' volCap volCap', IAMCall s (calls t) req vc volCap →
    IAMCall s (calls u) req' vc' volCap' → keyOf s req.volumeID vc = keyOf s req'.volumeID vc' →
    (identityOf s vc).namespace_ = (identityOf s vc').namespace_ ∧
      (identityOf s vc).saName = (identityOf s vc').saName

/-- The first of the options is the principal of every request with this key. -/
def OwnPrincipal (s : NodeServer) (calls : ℕ → NodeCall) (k : Key) (options : List String) : Prop :=
  ∀ t req vc volCap, IAMCall s (calls t) req vc volCap → keyOf s req.volumeID vc = k →
    options.head? = some (userPrincipal s vc k)

/-- The first option stays the first. -/
theorem head_addMountFlags (option : String) (volCap : VolumeCapability) :
    (addMountFlags [option] volCap).head? = some option := by
  obtain ⟨more, hmore, -⟩ := addMountFlags_append [option] volCap
  rw [hmore]
  rfl

/-- Calls that agree on the key of a principal mount each key with its own principal only. -/
theorem carrying_ownPrincipal (hagree : Agree s calls) :
    Carrying (OwnPrincipal s calls) s calls := by
  intro t req vc volCap hcall
  unfold OwnPrincipal
  intro u req' vc' volCap' hcall' hkey
  obtain ⟨hns, hsa⟩ := hagree u t req' req vc' vc volCap' volCap hcall' hcall hkey
  rw [head_addMountFlags]
  unfold userPrincipal
  rw [hns, hsa]

/-- **Principal isolation.** In every run of any number of handlers, with truthful probes and any
other faults, in which the publishes of a key are made for one service account, from a node with at
most one mount on each path, on which the mounts of keys have their own principals: an IAM publish
that is about to bind the mount of a key to a target binds its own key to its own target, exactly
one file system is mounted for this key, and it is mounted with the principal of that request.
SOURCE: pkg/csi_driver/node.go:332-417, 421-472 -/
theorem principal_isolation (hlocks : s₀.locks = ∅) (hsingle : ∀ p, (s₀.mountsAt p).length ≤ 1)
    (hown : ∀ k, ∀ m ∈ s₀.mountsAt (.mount k), OwnPrincipal s calls k m.opts)
    (hagree : Agree s calls) (hrun : MountRun s calls (.start s₀) c) {t : ℕ}
    {req : NodePublishVolumeRequest} {vc : StrMap} {volCap : VolumeCapability}
    (hcall : IAMCall s (calls t) req vc volCap) {source q fstype : String} {options : List String}
    (hnext : c.next t = some (.mountSensitiveWithoutSystemd source (.outside q) fstype options)) :
    q = req.targetPath ∧ source = (Path.mount (keyOf s req.volumeID vc)).render ∧
      ∃ m, c.world.state.mountsAt (.mount (keyOf s req.volumeID vc)) = [m] ∧
        m.opts.head? = some (userPrincipal s vc (keyOf s req.volumeID vc)) := by
  obtain ⟨r, htidy⟩ := tidy_of_next (carrying_ownPrincipal hagree) hlocks ⟨hsingle, hown⟩ hrun hnext
  obtain ⟨hq, hsource, m, hm, hprincipal⟩ := htidy.bound _ _ _ _ rfl req vc volCap hcall
  exact ⟨hq, hsource, m, hm, hprincipal t req vc volCap hcall rfl⟩

section Sample

open Interface.Sample

/-- The calls of the sample publish the sample volume for its pod. -/
theorem iamCall_sample (t : ℕ) :
    IAMCall sampleServer (sampleCalls t) (publishRequest "") normalContext (mountCapability "") :=
  ⟨rfl, validatePublish_publishRequest "", isIAM_normalContext⟩

/-- All these calls are for one service account. -/
theorem agree_sample : Agree sampleServer sampleCalls := by
  intro t u req req' vc vc' volCap volCap' h h' _
  obtain rfl : publishRequest "" = req := by simpa using (iamCall_sample t).call.symm.trans h.call
  obtain rfl : publishRequest "" = req' := by simpa using (iamCall_sample u).call.symm.trans h'.call
  obtain ⟨rfl, rfl⟩ : vc = vc' ∧ volCap = volCap' := by simpa using h.valid.symm.trans h'.valid
  exact ⟨rfl, rfl⟩

/-- The publish of thread 0 goes on to its bind mount. -/
def bindsKey : List (Move Choice) := mountsKey ++ [.ok, .ok, .ok, .wrote 2].map (.call 0)

/-- The publish binds the mount of its key to its target; what is mounted there has its principal. -/
theorem principal_isolation_bind : ∃ c m, MountRun sampleServer sampleCalls (.start freshNode) c ∧
    c.next 0 = some (.mountSensitiveWithoutSystemd (Path.mount digestABC).render
      (.outside targetPath) "lustre" ["bind"]) ∧
    c.world.state.mountsAt (.mount (keyOf sampleServer "ab" normalContext)) = [m] ∧
    m.opts.head? =
      some (userPrincipal sampleServer normalContext (keyOf sampleServer "ab" normalContext)) := by
  have hplay : (playPool (execWhere Truthful) (fun t => callBody sampleServer (sampleCalls t))
      bindsKey (.start freshNode)).map (fun c => c.next 0) =
        some (some (.mountSensitiveWithoutSystemd (Path.mount digestABC).render
          (.outside targetPath) "lustre" ["bind"])) := by decide +kernel
  obtain ⟨c, hc, hnext⟩ := Option.map_eq_some_iff.mp hplay
  have hrun := mountRun_of_play hc
  obtain ⟨-, -, m, hm, hprincipal⟩ := principal_isolation rfl
    (by simp [NodeState.mountsAt, freshNode]) (by simp [NodeState.mountsAt, freshNode]) agree_sample
    hrun (iamCall_sample 0) hnext
  exact ⟨c, m, hrun, hnext, hm, hprincipal⟩

end Sample

end LustreCsi.Analysis.MountTable
