import LustreCsi.Interface.NodePool

/-!
# The contract of the node handlers

A handler may change the directory and the mount of a key, and what is known of its references, only
while it holds the lock of the key; it relies on nothing changing there meanwhile. A reference is
given up only by handlers of its pod. The invariant, when probes are accurate: a key of which some
reference is known to exist is mounted and has its token.

`Allowed` lists what a handler has to know before it performs an operation; by `Allowed.guar` and
`Allowed.inv` this is enough.
-/

set_option autoImplicit false

namespace LustreCsi.Analysis.SharedMounts

open LustreCsi.Computation Model Interface

variable {k : Key} {t : ℕ} {o : Op} {r : o.Res} {s' : NodeState}

/-- Worlds of the node server. -/
abbrev NodeWorld : Type := World nodeSig NodeState

/-- The thread holds the lock. -/
abbrev Holds (acc : Prop) (w : NodeWorld) (t : ℕ) (x : String) : Prop :=
  (poolLocks acc).Holds w.trace t x

/-- Nothing of the key has changed: directory, mount, and what is known of the references. -/
structure SameView (k : Key) (w w' : NodeWorld) : Prop where
  key : SameKey k w.state w'.state
  referenced : ∀ u, Referenced w'.trace k u ↔ Referenced w.trace k u

/-- A key has the same view as itself. -/
theorem SameView.refl (k : Key) (w : NodeWorld) : SameView k w w :=
  ⟨.refl k w.state, fun _ => Iff.rfl⟩

/-- Having the same view is transitive. -/
theorem SameView.trans {w₁ w₂ w₃ : NodeWorld} (h : SameView k w₁ w₂) (h' : SameView k w₂ w₃) :
    SameView k w₁ w₃ :=
  ⟨h.key.trans h'.key, fun u => (h'.referenced u).trans (h.referenced u)⟩

section Contract

variable (pod : ℕ → Option String) (acc : Prop) (solo : ℕ → Prop) (wiped : List String)

/-- The invariant of the pool. -/
structure Inv (w : NodeWorld) : Prop where
  locks : (poolLocks acc).Consistent w
  dirs : MountDirs w.state
  wiped : w.state.wiped = wiped
  inUse : acc → ∀ k u, Referenced w.trace k u → InUse w.state k u

/-- What a thread relies on. The last part is for a thread that is the only one of its pod. -/
structure Rely (t : ℕ) (w w' : NodeWorld) : Prop where
  holds : ∀ x, Holds acc w' t x ↔ Holds acc w t x
  view : ∀ k : Key, Holds acc w t k.name → SameView k w w'
  own : solo t → ∀ k u, pod t = some u → Referenced w.trace k u → Referenced w'.trace k u

/-- What a thread guarantees. -/
structure Guar (t : ℕ) (w : NodeWorld) (e : Event nodeSig) (w' : NodeWorld) : Prop where
  holds : ∀ u, u ≠ t → ∀ x, Holds acc w' u x ↔ Holds acc w u x
  view : ∀ k : Key, ¬Holds acc w t k.name → SameView k w w'
  others : ∀ k u, pod t ≠ some u → Referenced w.trace k u → Referenced w'.trace k u
  removal : ∀ k, e.1 = .removeAll k → w.state.mounted (.mount k) = false

/-- The contract of the node server. -/
def contract : Contract nodeSig NodeState where
  inv := Inv acc wiped
  rely := Rely pod acc solo
  guar := Guar pod acc
  rely_refl _ w := ⟨fun _ => Iff.rfl, fun k _ => .refl k w, fun _ _ _ _ h => h⟩
  rely_trans _ _ _ _ h h' :=
    ⟨fun x => (h'.holds x).trans (h.holds x),
      fun k hk => (h.view k hk).trans (h'.view k ((h.holds _).mpr hk)),
      fun hs k u hp hr => h'.own hs k u hp (h.own hs k u hp hr)⟩

/-- The guarantees are within the relies, as long as a thread that counts on being the only one of
its pod is so among the active ones. -/
theorem contract_compatible {A : ℕ → Prop}
    (hsolo : ∀ t u, A t → A u → t ≠ u → solo u → pod t ≠ pod u) :
    (contract pod acc solo wiped).Compatible Elsewhere A where
  guar_rely t u ht hu hne w e w' hi _ _ hg := by
    refine ⟨hg.holds u hne.symm, fun k hk => hg.view k fun hk' => ?_, fun hs k v hv hr => ?_⟩
    · exact hne (hi.locks.unique t u k.name hk' hk)
    · exact hg.others k v (fun h => hsolo t u ht hu hne hs (h.trans hv.symm)) hr
  env_inv w s' hi he := by
    refine ⟨⟨fun x => ?_, hi.locks.unique⟩, ?_, he.wiped.trans hi.wiped, fun ha k u hr => ?_⟩
    · have hlocked : (poolLocks acc).locked s' = (poolLocks acc).locked w.state := by
        simp only [poolLocks, nodeLocks, he.locks]
      rw [hlocked]
      exact hi.locks.mem_locked x
    · exact hi.dirs.of_dir (fun k => (he.sameKey k).dir) fun k hk => by
        rwa [(he.sameKey k).mounted] at hk
    · exact (he.sameKey k).inUse (hi.inUse ha k u hr)
  env_rely u _ w s' _ he :=
    ⟨fun _ => Iff.rfl, fun k _ => ⟨he.sameKey k, fun _ => Iff.rfl⟩, fun _ _ _ _ h => h⟩

/-! ## Operations within the contract -/

/-- The thread holds the lock of the key, if the path is one of a key. -/
def Owns (w : NodeWorld) (t : ℕ) (p : Path) : Prop :=
  ∀ k, p.key? = some k → Holds acc w t k.name

/-- What a thread has to know before it performs an operation. -/
def Allowed (t : ℕ) (w : NodeWorld) : Op → Prop
  | .release x => Holds acc w t x
  | .mkdirAll p => Owns acc w t p
  | .mountSensitiveWithoutSystemd _ p _ _ => Owns acc w t p
  | .write p _ => Owns acc w t p
  | .unmount p => Owns acc w t p ∧ (acc → ∀ k u, p = .mount k → ¬Referenced w.trace k u)
  | .umount _ p => Owns acc w t p ∧ (acc → ∀ k u, p = .mount k → ¬Referenced w.trace k u)
  | .stat p => Owns acc w t p ∧ (acc → ∀ k u, p = .ref k u →
      w.state.mounted (.mount k) = true ∧ w.state.pathPresent (.token k) = true)
  | .openTrunc p => Owns acc w t p ∧ (acc → ∀ k u, p = .ref k u →
      w.state.mounted (.mount k) = true ∧ w.state.pathPresent (.token k) = true)
  | .remove p => Owns acc w t p ∧ (∀ k u, p = .ref k u → pod t = some u) ∧ ∀ k, p ≠ .token k
  | .removeAll k => Holds acc w t k.name ∧ w.state.mounted (.mount k) = false
  | .renameToken k => Holds acc w t k.name
  | _ => True

variable {pod acc solo wiped}

/-- An allowed operation changes a key only under its lock. -/
theorem Allowed.holds_of_opKey {w : NodeWorld} (h : Allowed pod acc t w o) (hk : opKey o = some k) :
    Holds acc w t k.name := by
  cases o with
  | mkdirAll p => exact h k hk
  | unmount p => exact h.1 k hk
  | mountSensitiveWithoutSystemd source p fstype options => exact h k hk
  | umount flags p => exact h.1 k hk
  | remove p => exact h.1 k hk
  | removeAll k' => exact Option.some.inj hk ▸ h.1
  | openTrunc p => exact h.1 k hk
  | write p data => exact h k hk
  | renameToken k' => exact Option.some.inj hk ▸ h
  | _ => simp [opKey] at hk

/-- An allowed operation tells about a reference only under the lock of its key. -/
theorem Allowed.holds_of_refEvent {w : NodeWorld} (h : Allowed pod acc t w o) {p : Path} {b : Bool}
    (he : refEvent ⟨o, r⟩ = some (p, b)) (hk : p.key? = some k) : Holds acc w t k.name := by
  rcases opPath_of_refEvent he with rfl | rfl | rfl
  · exact h.1 k hk
  · exact h.1 k hk
  · exact h.1 k hk

/-- Allowed operations are within the guarantee. -/
theorem Allowed.guar {w : NodeWorld} (h : Allowed pod acc t w o) (hs : nodeStep acc w.state o r s') :
    Guar pod acc t w ⟨o, r⟩ (w.after t ⟨o, r⟩ s') where
  holds u hu x := (poolLocks acc).holds_cons_of_ne hu.symm _ _ x
  view k hk := by
    refine ⟨(outcome_of_nodeStep hs).frame fun heq => hk (h.holds_of_opKey heq), fun u => ?_⟩
    rcases he : refEvent ⟨o, r⟩ with _ | ⟨p, b⟩
    · exact referenced_cons_none he t _ k u
    refine referenced_cons_of_ne he t _ fun hp => hk ?_
    exact h.holds_of_refEvent he (by rw [hp]; rfl)
  others k u hu hr := by
    rcases he : refEvent ⟨o, r⟩ with _ | ⟨p, b⟩
    · exact (referenced_cons_none he t _ k u).mpr hr
    by_cases hp : p = .ref k u
    · subst hp
      refine (referenced_cons_self he t _).mpr ?_
      cases o <;> simp only [refEvent, Option.ite_none_right_eq_some, Option.some.injEq,
        Prod.mk.injEq, reduceCtorEq] at he
      case stat => exact he.2.2.symm
      case openTrunc => exact he.2.2.symm
      case remove => exact absurd (h.2.1 k u he.2.1) hu
    · exact (referenced_cons_of_ne he t _ hp).mpr hr
  removal k hk := by
    obtain rfl : o = .removeAll k := hk
    exact h.2

/-- A reference that an allowed operation finds or creates is in use. -/
theorem Allowed.inUse_of_refEvent {w : NodeWorld} (h : Allowed pod acc t w o) (ha : acc)
    (hs : Outcome w.state o r s') {u : String} (he : refEvent ⟨o, r⟩ = some (.ref k u, true)) :
    InUse s' k u := by
  cases o <;> simp only [refEvent, Option.ite_none_right_eq_some, Option.some.injEq,
    Prod.mk.injEq, reduceCtorEq, and_false] at he
  case stat p =>
    obtain ⟨hr, rfl, -⟩ := he
    obtain ⟨rfl, hpresent, -⟩ := hs
    obtain ⟨hm, ht⟩ := h.2 ha k u rfl
    exact ⟨hpresent (by simpa using hr), hm, ht⟩
  case openTrunc p =>
    obtain ⟨hr, rfl, -⟩ := he
    obtain ⟨hm, ht⟩ := h.2 ha k u rfl
    rcases hs with ⟨-, hparent, rfl⟩ | ⟨e, rfl, -⟩
    · simp only [NodeState.parentPresent, NodeState.pathPresent, Option.any_eq_true] at hparent
      obtain ⟨d, hd, hrefs⟩ := hparent
      obtain ⟨rs, hrs⟩ := Option.isSome_iff_exists.mp hrefs
      obtain ⟨d', hd', ht'⟩ := pathPresent_token_iff.mp ht
      obtain rfl : d = d' := Option.some.inj (hd.symm.trans hd')
      refine ⟨pathPresent_ref_iff.mpr ⟨_, rs.insert u "", dir_modifyKey_self _ _ _, ?_, by simp⟩,
        hm, pathPresent_token_iff.mpr ⟨_, dir_modifyKey_self _ _ _, ?_⟩⟩
      · simp [hd, hrs]
      · simpa [hd] using ht'
    · simp at hr

/-- An allowed operation ends the use of a key only together with what is known of the reference. -/
theorem Allowed.not_drops {w : NodeWorld} (h : Allowed pod acc t w o) (ha : acc) {u : String}
    (hr : Referenced w.trace k u) (hu : InUse w.state k u)
    (hr' : Referenced ((t, ⟨o, r⟩) :: w.trace) k u) : ¬Drops o r k u := by
  intro hd
  cases o <;> simp only [Drops] at hd
  case unmount p => exact h.2 ha k u hd hr
  case umount flags p => exact h.2 ha k u hd hr
  case remove p =>
    rcases hd with ⟨rfl, rfl⟩ | rfl
    · have he : refEvent ⟨.remove (.ref k u), none⟩ = some (.ref k u, false) := rfl
      simpa using (referenced_cons_self he t _).mp hr'
    · exact h.2.2 k rfl
  case removeAll k' =>
    subst hd
    exact absurd hu.mounted (by simp [h.2])

/-- Allowed operations keep the invariant. -/
theorem Allowed.inv {w : NodeWorld} (h : Allowed pod acc t w o) (hi : Inv acc wiped w)
    (hs : nodeStep acc w.state o r s') :
    Inv acc wiped (w.after t ⟨o, r⟩ s') where
  locks := by
    refine hi.locks.after hs fun x hx => ?_
    cases o with
    | release y =>
      obtain rfl : y = x := by simpa [poolLocks, nodeLocks, lockEvent] using hx
      exact h
    | tryAcquire y => cases r <;> simp [poolLocks, nodeLocks, lockEvent] at hx
    | _ => simp [poolLocks, nodeLocks, lockEvent] at hx
  dirs := (outcome_of_nodeStep hs).mountDirs hi.dirs
  wiped := by
    refine ((outcome_of_nodeStep hs).wiped fun k hk => ?_).trans hi.wiped
    subst hk
    exact h.2
  inUse ha k u hr := by
    have hout := outcome_of_nodeStep hs
    rcases he : refEvent ⟨o, r⟩ with _ | ⟨p, b⟩
    · have hold := (referenced_cons_none he t _ k u).mp hr
      have hu := hi.inUse ha k u hold
      exact hout.inUse hu (h.not_drops ha hold hu hr)
    by_cases hp : p = .ref k u
    · subst hp
      obtain rfl : b = true := (referenced_cons_self he t _).mp hr
      exact h.inUse_of_refEvent ha hout he
    have hold := (referenced_cons_of_ne he t _ hp).mp hr
    have hu := hi.inUse ha k u hold
    exact hout.inUse hu (h.not_drops ha hold hu hr)

end Contract

end LustreCsi.Analysis.SharedMounts
