import LustreCsi.Analysis.SharedMounts
import LustreCsi.Interface.Footprints
import LustreCsi.Interface.Paths

/-!
# The node handlers keep their contract

Rules for the contract of `SharedMounts`. Assertions of a thread are of the form `At X ψ`: it holds
the locks in `X`, and `ψ` is a fact about a key it has locked, so that no other thread can falsify
it. Programs that stay outside the root of the global mounts are safe (`safe_outer`).
-/

set_option autoImplicit false

namespace LustreCsi.Analysis.HandlerSafety

open LustreCsi.Computation Model Interface SharedMounts

variable {X : List String} {k : Key} {ψ ψ' F : NodeWorld → Prop} {w : NodeWorld} {α : Type} {o : Op}
  {s' : NodeState} {pod : ℕ → Option String} {acc : Prop} {solo : ℕ → Prop} {wiped : List String}
  {t : ℕ}

/-- Safety of thread `t` for the contract of the node server. -/
abbrev SafeNode (pod : ℕ → Option String) (acc : Prop) (solo : ℕ → Prop) (wiped : List String)
    (t : ℕ) {α : Type} (Q : α → NodeWorld → Prop) (p : NodeM α) (w : NodeWorld) : Prop :=
  Safe (nodeStep acc) t (contract pod acc solo wiped) Q p w

/-- Stability for the contract of the node server. -/
abbrev StableNode (pod : ℕ → Option String) (acc : Prop) (solo : ℕ → Prop) (wiped : List String)
    (t : ℕ) (P : NodeWorld → Prop) : Prop :=
  Stable t (contract pod acc solo wiped) P

/-! ## Assertions -/

/-- The thread holds the locks `X`, and `ψ` holds. -/
structure At (acc : Prop) (t : ℕ) (X : List String) (ψ : NodeWorld → Prop) (w : NodeWorld) :
    Prop where
  held : ∀ x ∈ X, Holds acc w t x
  fact : ψ w

/-- The assertion is about the view of one key only. -/
def Local (k : Key) (ψ : NodeWorld → Prop) : Prop := ∀ w w', SameView k w w' → ψ w → ψ w'

/-- What is local to a key whose lock is held cannot be changed by the others. -/
theorem At.stable (hk : k.name ∈ X) (hψ : Local k ψ) : StableNode pod acc solo wiped t (At acc t X ψ) :=
  fun _ _ h hr _ => ⟨fun x hx => (hr.holds x).mpr (h.held x hx),
    hψ _ _ (hr.view k (h.held _ hk)) h.fact⟩

/-- The others cannot take away the locks that a handler holds. -/
theorem At.stable_true :
    StableNode pod acc solo wiped t (At acc t X fun _ => True) :=
  fun _ _ h hr _ => ⟨fun x hx => (hr.holds x).mpr (h.held x hx), trivial⟩

/-- The fact about the key may be weakened. -/
theorem At.mono (h : At acc t X ψ w) (hψ : ψ w → ψ' w) : At acc t X ψ' w := ⟨h.held, hψ h.fact⟩

/-- Two facts that are local to a key. -/
theorem Local.and (h : Local k ψ) (h' : Local k ψ') :
    Local k fun w => ψ w ∧ ψ' w :=
  fun w w' hv hw => ⟨h w w' hv hw.1, h' w w' hv hw.2⟩

/-- A local fact under a condition. -/
theorem Local.imp (P : Prop) (h : Local k ψ) :
    Local k fun w => P → ψ w :=
  fun w w' hv hw hp => h w w' hv (hw hp)

/-- A fact about nothing is local to every key. -/
theorem Local.true (k : Key) : Local k fun _ => True := fun _ _ _ h => h

/-- The key has its token. -/
def HasToken (k : Key) (w : NodeWorld) : Prop := w.state.pathPresent (.token k) = true

/-- The key is mounted and has its token. -/
def Ready (k : Key) (w : NodeWorld) : Prop :=
  w.state.mounted (.mount k) = true ∧ w.state.pathPresent (.token k) = true

/-- No reference on the key is known to exist. -/
def Unreferenced (k : Key) (w : NodeWorld) : Prop := ∀ u, ¬Referenced w.trace k u

/-- The reference of the pod on the key is known to exist. -/
def HasRef (k : Key) (u : String) (w : NodeWorld) : Prop := Referenced w.trace k u

/-- The mount point of the key does not exist. -/
def NoMountDir (k : Key) (w : NodeWorld) : Prop := w.state.pathPresent (.mount k) = false

/-- That the token is there is local to the key. -/
theorem HasToken.isLocal (k : Key) : Local k (HasToken k) :=
  fun _ _ hv h => (hv.key.pathPresent rfl).trans h

/-- That the key is mounted with its token is local to the key. -/
theorem Ready.isLocal (k : Key) : Local k (Ready k) :=
  fun _ _ hv h => ⟨hv.key.mounted.trans h.1, (hv.key.pathPresent rfl).trans h.2⟩

/-- That nobody refers to the key is local to the key. -/
theorem Unreferenced.isLocal (k : Key) : Local k (Unreferenced k) :=
  fun _ _ hv h u hu => h u ((hv.referenced u).mp hu)

/-- That a pod refers to the key is local to the key. -/
theorem HasRef.isLocal (k : Key) (u : String) : Local k (HasRef k u) :=
  fun _ _ hv h => (hv.referenced u).mpr h

/-- That the mount directory is gone is local to the key. -/
theorem NoMountDir.isLocal (k : Key) : Local k (NoMountDir k) :=
  fun _ _ hv h => (hv.key.pathPresent rfl).trans h

/-! ## Rules -/

/-- The rule for one operation. -/
theorem safe_op {Q : α → NodeWorld → Prop} {f : o.Res → NodeM α}
    (hF : StableNode pod acc solo wiped t F) (hw : F w)
    (hallow : ∀ w, Inv acc wiped w → F w → Allowed pod acc t w o)
    (hnext : ∀ w r s', Inv acc wiped w → F w → nodeStep acc w.state o r s' →
      Inv acc wiped (w.after t ⟨o, r⟩ s') →
      SafeNode pod acc solo wiped t Q (f r) (w.after t ⟨o, r⟩ s')) :
    SafeNode pod acc solo wiped t Q (perform o >>= f) w := by
  refine Safe.call (o := o) hF hw fun w r s' hFw hi hs => ?_
  have hok := hallow w hi hFw
  exact ⟨hok.guar hs, hok.inv hi hs, hnext w r s' hi hFw hs (hok.inv hi hs)⟩

/-- The rule for returning. -/
theorem safe_pure {Q : α → NodeWorld → Prop} {a : α} (hF : StableNode pod acc solo wiped t F)
    (hw : F w) (hQ : ∀ w, Inv acc wiped w → F w → Q a w) :
    SafeNode pod acc solo wiped t Q (pure a) w := Safe.ret hF hw hQ

/-- Operations other than those on locks do not change what the thread holds. -/
theorem holds_after {e : Event nodeSig} {x : String} (he : lockEvent e = none) :
    Holds acc (w.after t e s') t x ↔ Holds acc w t x :=
  (poolLocks acc).holds_cons_none he _ _ _

/-- An operation that is none on locks leaves all locks held. -/
theorem At.after {e : Event nodeSig} (h : At acc t X ψ w) (he : lockEvent e = none)
    (hψ : ψ' (w.after t e s')) :
    At acc t X ψ' (w.after t e s') :=
  ⟨fun x hx => (holds_after he).mpr (h.held x hx), hψ⟩

/-! ## Programs that stay outside the root -/

/-- Operations that neither name a path of a key nor act on the lock set. -/
def Outer : Op → Prop
  | .tryAcquire _ => False
  | .release _ => False
  | .removeAll _ => False
  | .renameToken _ => False
  | .mkdirAll p => p.key? = none
  | .stat p => p.key? = none
  | .unmount p => p.key? = none
  | .mountSensitiveWithoutSystemd _ p _ _ => p.key? = none
  | .umount _ p => p.key? = none
  | .remove p => p.key? = none
  | .openTrunc p => p.key? = none
  | .write p _ => p.key? = none
  | _ => True

/-- An operation outside the keys is always allowed. -/
theorem Outer.allowed (h : Outer o) (w : NodeWorld) : Allowed pod acc t w o := by
  have howns : ∀ {p : Path}, p.key? = none → Owns acc w t p := fun hp k hk => by simp [hp] at hk
  have href : ∀ {p : Path} {k : Key} {u : String}, p.key? = none → p ≠ .ref k u :=
    fun hp heq => by simp [heq, Path.key?] at hp
  have hmount : ∀ {p : Path} {k : Key}, p.key? = none → p ≠ .mount k :=
    fun hp heq => by simp [heq, Path.key?] at hp
  have htoken : ∀ {p : Path} {k : Key}, p.key? = none → p ≠ .token k :=
    fun hp heq => by simp [heq, Path.key?] at hp
  cases o with
  | tryAcquire x => exact h.elim
  | release x => exact h.elim
  | removeAll k => exact h.elim
  | renameToken k => exact h.elim
  | mkdirAll p => exact howns h
  | stat p | openTrunc p => exact ⟨howns h, fun _ _ _ heq => absurd heq (href h)⟩
  | unmount p | umount flags p => exact ⟨howns h, fun _ _ _ heq => absurd heq (hmount h)⟩
  | mountSensitiveWithoutSystemd source p fstype options => exact howns h
  | remove p => exact ⟨howns h, fun _ _ heq => absurd heq (href h), fun _ => htoken h⟩
  | write p data => exact howns h
  | _ => trivial

/-- An operation outside the keys is none on locks. -/
theorem Outer.lockEvent_eq (h : Outer o) (r : o.Res) : lockEvent ⟨o, r⟩ = none := by
  cases o with
  | tryAcquire x => exact h.elim
  | release x => exact h.elim
  | _ => rfl

/-- An operation outside the keys concerns no key. -/
theorem Outer.opKey_eq (h : Outer o) : opKey o = none := by
  cases o with
  | tryAcquire x => exact h.elim
  | release x => exact h.elim
  | removeAll k => exact h.elim
  | renameToken k => exact h.elim
  | isLikelyNotMountPoint p => rfl
  | readRoot => rfl
  | readDirNames p => rfl
  | lstat p => rfl
  | lchown p gid => rfl
  | chmod p mode => rfl
  | setUpMultiNIC volumeID ip => rfl
  | list => rfl
  | stat p => rfl
  | _ => exact h

/-- An operation outside the keys changes nothing that a handler of a key sees. -/
theorem Outer.sameView (h : Outer o) {r : o.Res} (hs : nodeStep acc w.state o r s') (k : Key) :
    SameView k w (w.after t ⟨o, r⟩ s') := by
  refine ⟨(outcome_of_nodeStep hs).frame (by simp [h.opKey_eq]), fun u => ?_⟩
  rcases he : refEvent ⟨o, r⟩ with _ | ⟨p, b⟩
  · exact referenced_cons_none he t _ k u
  refine referenced_cons_of_ne he t _ ?_
  rintro rfl
  rcases opPath_of_refEvent he with rfl | rfl | rfl <;> simp [Outer, Path.key?] at h

/-- The assertion is about the locks of the thread and the views of the keys only. -/
def Respects (acc : Prop) (t : ℕ) (F : NodeWorld → Prop) : Prop :=
  ∀ w w', (∀ x, Holds acc w' t x ↔ Holds acc w t x) → (∀ k, SameView k w w') → F w → F w'

/-- What is local to a key depends on the locks and on its view only. -/
theorem At.respects (hψ : Local k ψ) :
    Respects acc t (At acc t X ψ) :=
  fun _ _ hh hv h => ⟨fun x hx => (hh x).mpr (h.held x hx), hψ _ _ (hv k) h.fact⟩

/-- Which locks are held depends on the locks only. -/
theorem At.respects_true : Respects acc t (At acc t X fun _ => True) :=
  fun _ _ hh _ h => ⟨fun x hx => (hh x).mpr (h.held x hx), trivial⟩

/-- A program that stays outside keeps every assertion about locks and keys. -/
theorem safe_outer {p : NodeM α} (hp : p.All Outer) (hF : StableNode pod acc solo wiped t F)
    (hR : Respects acc t F) (hw : F w) : SafeNode pod acc solo wiped t (fun _ => F) p w := by
  induction p generalizing w with
  | ret a => exact Safe.ret hF hw fun _ _ h => h
  | call o k ih =>
    refine Safe.call hF hw fun w r s' hFw hi hs => ?_
    have hok : Allowed pod acc t w o := Outer.allowed hp.1 w
    refine ⟨hok.guar hs, hok.inv hi hs, ih r (hp.2 r) ?_⟩
    exact hR w _ (fun x => holds_after (Outer.lockEvent_eq hp.1 r)) (Outer.sameView hp.1 hs) hFw

/-- The probe of a path of kubelet concerns no key. -/
theorem outer_isMounted (q : String) : (isMounted (.outside q)).All Outer :=
  all_isMounted trivial rfl rfl

/-- Unmounting a path of kubelet concerns no key. -/
theorem outer_unmountPath (s : NodeServer) (q : String) :
    (unmountPath s (.outside q)).All Outer :=
  all_unmountPath s trivial (fun _ => rfl) rfl

/-- The change of ownership of a path of kubelet concerns no key. -/
theorem outer_publishOwnership (s : NodeServer) (q fsGroup : String) (readonly : Bool) :
    (publishOwnership s (.outside q) fsGroup readonly).All Outer :=
  all_publishOwnership s trivial (fun _ => trivial) (fun _ => trivial) (outer_unmountPath s q) fsGroup readonly

/-! ## Locks -/

/-- The thread holds the locks `X`. -/
abbrev Held (acc : Prop) (t : ℕ) (X : List String) : NodeWorld → Prop :=
  At acc t X fun _ => True

/-- Whatever is known, the locks are held. -/
theorem At.held' (h : At acc t X ψ w) :
    Held acc t X w := ⟨h.held, trivial⟩

/-- Operations on locks leave all keys as they are. -/
theorem sameView_of_lock (ho : opKey o = none) (he : ∀ r, refEvent ⟨o, r⟩ = none) {r : o.Res}
    (hs : nodeStep acc w.state o r s') (k : Key) :
    SameView k w (w.after t ⟨o, r⟩ s') :=
  ⟨(outcome_of_nodeStep hs).frame (by simp [ho]), fun u => referenced_cons_none (he r) t _ k u⟩

/-- Two stable facts. -/
theorem Stable.and {P P' : NodeWorld → Prop} (h : StableNode pod acc solo wiped t P)
    (h' : StableNode pod acc solo wiped t P') :
    StableNode pod acc solo wiped t fun w => P w ∧ P' w :=
  fun w w' hw hr hi => ⟨h w w' hw.1 hr hi, h' w w' hw.2 hr hi⟩

/-- The rule for `withLock`: the body runs with the lock; what it establishes may not be about the
lock. -/
theorem safe_withLock {ε : Type} {x : String} {refused : ε} {body : NodeM (Option ε)}
    {G : Option ε → NodeWorld → Prop} (hG : ∀ a, StableNode pod acc solo wiped t (G a))
    (hGview : ∀ a w w', (∀ k, SameView k w w') → G a w → G a w')
    (hrefused : ∀ w, G (some refused) w) (hbody : ∀ w, Held acc t (x :: X) w →
      SafeNode pod acc solo wiped t (fun a w => Held acc t (x :: X) w ∧ G a w) body w)
    (hw : Held acc t X w) :
    SafeNode pod acc solo wiped t (fun a w => Held acc t X w ∧ G a w)
      (withLock x refused body) w := by
  refine safe_op At.stable_true hw (fun _ _ _ => trivial) fun w acquired s' hi hX hs hi' => ?_
  rcases outcome_of_nodeStep hs with ⟨rfl, hfree, -⟩ | ⟨rfl, -, -⟩
  · have he : (poolLocks acc).event ⟨.tryAcquire x, true⟩ = some (.acquired x) := rfl
    have hacq := fun y => (poolLocks acc).holds_cons_acquired (u := t) he w.trace t y
    have hnot : x ∉ X := fun hx =>
      hfree (by simpa [poolLocks, nodeLocks] using (hi.locks.mem_locked x).mpr ⟨t, hX.held x hx⟩)
    have hheld : Held acc t (x :: X) (w.after t ⟨.tryAcquire x, true⟩ s') := by
      refine ⟨fun y hy => (hacq y).mpr ?_, trivial⟩
      rcases List.mem_cons.mp hy with rfl | hy
      · exact .inl ⟨rfl, rfl⟩
      · exact .inr (hX.held y hy)
    simp only [if_true]
    refine Safe.bind (hbody _ hheld) fun a w hi hw => ?_
    refine safe_op (Stable.and At.stable_true (hG a)) hw
      (fun w _ h => h.1.held x (by simp)) fun w r s' hi h hs hi' => ?_
    refine safe_pure (Stable.and At.stable_true (hG a)) ⟨⟨fun y hy => ?_, trivial⟩, ?_⟩
      fun _ _ h => h
    · have he' : (poolLocks acc).event ⟨.release x, r⟩ = some (.released x) := rfl
      refine ((poolLocks acc).holds_cons_released he' w.trace t y).mpr
        ⟨h.1.held y (List.mem_cons_of_mem x hy), ?_⟩
      rintro ⟨-, rfl⟩
      exact hnot hy
    · exact hGview a _ _ (fun k => sameView_of_lock rfl (fun _ => rfl) hs k) h.2
  · simp only [Bool.false_eq_true, if_false]
    have hsame : lockEvent ⟨.tryAcquire x, false⟩ = none := rfl
    exact safe_pure (Stable.and At.stable_true (hG _)) ⟨hX.after hsame trivial, hrefused _⟩
      fun _ _ h => h

end LustreCsi.Analysis.HandlerSafety
