import LustreCsi.Computation.LockedSection
import LustreCsi.Interface.NodeCalls

/-!
# Lock sections of the node handlers

The rules of `LockedSection` for the operations of the node, for any step relation within that of
the node and any guarantee that implies that the resources of the locks are kept (`Sections`).
-/

set_option autoImplicit false

namespace LustreCsi.Interface

open LustreCsi.Computation Model

variable {step : NodeState → (o : nodeSig.Op) → nodeSig.Res o → NodeState → Prop}
  {hstep : ∀ {s o r s'}, step s o r s' → s.step o r s'} {R : Resources NodeState String}
  {G : ℕ → World nodeSig NodeState → Event nodeSig → Prop}

/-- What an operation guarantees is enough to keep the resources of the locks, and the operations on
the lock set guarantee it. -/
structure Sections (hstep : ∀ {s o r s'}, step s o r s' → s.step o r s')
    (R : Resources NodeState String) (G : ℕ → World nodeSig NodeState → Event nodeSig → Prop) :
    Prop where
  keeps : ∀ t w o r s', R.inv w.state → step w.state o r s' → G t w ⟨o, r⟩ →
    Keeps (nodeLocks hstep) R G t w ⟨o, r⟩ s'
  acquire : ∀ t w x r, G t w ⟨.tryAcquire x, r⟩
  release : ∀ t w x r, G t w ⟨.release x, r⟩

namespace Sections

variable {t : ℕ} {X : List String} {α : Type} {Q : α → World nodeSig NodeState → Prop}
  {F : World nodeSig NodeState → Prop} {w : World nodeSig NodeState}

/-- The rule for one operation that does not act on the lock set. -/
theorem perform (h : Sections hstep R G) {o : Op} {f : o.Res → NodeM α}
    (hF : Stable t (sectionContract (nodeLocks hstep) R G) F) (hw : F w)
    (hlock : ∀ r, lockEvent ⟨o, r⟩ = none) (hG : ∀ w r, F w → R.inv w.state → G t w ⟨o, r⟩)
    (hf : ∀ w r s', F w → R.inv w.state → step w.state o r s' →
      Safe step t (sectionContract (nodeLocks hstep) R G) Q (f r) (w.after t ⟨o, r⟩ s')) :
    Safe step t (sectionContract (nodeLocks hstep) R G) Q (Model.perform o >>= f) w := by
  have hprog : (Model.perform o >>= f) = .call o f := rfl
  rw [hprog]
  refine safe_op hF hw (fun w r y _ he => ?_)
    (fun w r s' hw hi hs => h.keeps t w o r s' hi.2 hs (hG w r hw hi.2))
    fun w r s' hw hi hs => hf w r s' hw hi.2 hs
  have hnone : (nodeLocks hstep).event ⟨o, r⟩ = none := hlock r
  simp [hnone] at he

/-- The rule for a program of operations that do not act on the lock set and keep a stable fact. -/
theorem all (h : Sections hstep R G) {φ : Op → Prop} {p : NodeM α}
    (hF : Stable t (sectionContract (nodeLocks hstep) R G) F)
    (hlock : ∀ o r, φ o → lockEvent ⟨o, r⟩ = none)
    (hG : ∀ w o r, φ o → F w → R.inv w.state → G t w ⟨o, r⟩)
    (hkeep : ∀ w o r s', φ o → F w → step w.state o r s' → F (w.after t ⟨o, r⟩ s'))
    (hp : p.All φ) (hw : F w) :
    Safe step t (sectionContract (nodeLocks hstep) R G) (fun _ => F) p w :=
  safe_all_stable hF hlock (fun o w r s' ho hFw hi hs =>
    ⟨h.keeps t w o r s' hi.2 hs (hG w o r ho hFw hi.2), hkeep w o r s' ho hFw hs⟩) hp hw

/-- The rule for `withLock`: a fact about the state that does not concern the lock set enters the
section. -/
theorem withLock (h : Sections hstep R G) {ε : Type} {x : String} {refused : ε}
    {body : NodeM (Option ε)} {ψ : NodeState → Prop}
    (hF : Stable t (sectionContract (nodeLocks hstep) R G) (InsideAll (nodeLocks hstep) t X ψ))
    (hψ : ∀ s locks, ψ s → ψ { s with locks := locks })
    (hbody : ∀ w, InsideAll (nodeLocks hstep) t (x :: X) ψ w →
      Safe step t (sectionContract (nodeLocks hstep) R G)
        (fun _ => InsideAll (nodeLocks hstep) t (x :: X) fun _ => True) body w)
    (hw : InsideAll (nodeLocks hstep) t X ψ w) :
    Safe step t (sectionContract (nodeLocks hstep) R G)
      (fun _ => InsideAll (nodeLocks hstep) t X fun _ => True) (Model.withLock x refused body) w := by
  have hprog : Model.withLock x refused body = .call (Op.tryAcquire x) fun acquired : Bool =>
      if acquired then body >>= fun err => .call (Op.release x) fun _ => .ret err
      else .ret (some refused) := rfl
  rw [hprog]
  refine safe_op hF hw (fun w r y _ he => ?_)
    (fun w r s' _ hi hs => h.keeps t w _ r s' hi.2 hs (h.acquire t w x r)) fun w r s' hw hi hs => ?_
  · cases r <;> simp [nodeLocks, lockEvent] at he
  · have hheld : InsideAll (nodeLocks hstep) t X (fun _ => True) w := ⟨hw.held, trivial⟩
    rcases outcome_of_step (hstep hs) with ⟨rfl, hfree, rfl⟩ | ⟨rfl, -, -⟩
    · -- The lock was free, so it is none of those that the thread holds.
      have hx : x ∉ X := fun hmem => hfree (by
        simpa [nodeLocks] using (hi.1.mem_locked x).mpr ⟨t, hw.held x hmem⟩)
      simp only [if_true]
      refine Safe.bind (hbody _ ⟨(hheld.acquired rfl).held, hψ _ _ hw.fact⟩) fun err w _ hw => ?_
      refine safe_op InsideAll.stable_true hw (fun w r y hw he => ?_)
        (fun w r s' _ hi hs => h.keeps t w _ r s' hi.2 hs (h.release t w x r))
        fun w r s' hw _ _ => ?_
      · obtain rfl : x = y := by simpa [nodeLocks, lockEvent] using he
        exact hw.held x (by simp)
      · exact Safe.ret InsideAll.stable_true (hw.released hx rfl) fun _ _ h => h
    · exact Safe.ret InsideAll.stable_true (hheld.after rfl trivial) fun _ _ h => h

end Sections

end LustreCsi.Interface
