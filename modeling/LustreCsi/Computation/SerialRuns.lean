import LustreCsi.Computation.Interleaving

/-!
# Runs in which nobody is interrupted

A program may keep an invariant as long as it runs alone, although it relies on what it has seen
before (`Throughout`). In a pool of such programs the invariant holds in every configuration that is
reached without an interruption: once a thread has begun, no other thread performs an operation
between two of its own (`Serial`).
-/

set_option autoImplicit false

namespace LustreCsi.Computation

variable {S : Sig} {σ α β : Type}

section Throughout

variable (step : σ → (o : S.Op) → S.Res o → σ → Prop) (I : σ → Prop) {Q : α → σ → Prop} {s : σ}

/-- Run alone from the state, the program keeps the invariant at every step, and ends as `Q` says. -/
def Throughout (Q : α → σ → Prop) : Program S α → σ → Prop
  | .ret a, s => Q a s
  | .call o k, s => ∀ r s', step s o r s' → I s' ∧ Throughout Q (k r) s'

variable {step I}

/-- The rule of sequencing. -/
theorem Throughout.bind {R : β → σ → Prop} {p : Program S α} {f : α → Program S β}
    (hp : Throughout step I Q p s) (hf : ∀ a s', Q a s' → Throughout step I R (f a) s') :
    Throughout step I R (p >>= f) s := by
  induction p generalizing s with
  | ret a => exact hf a s hp
  | call o k ih => exact fun r s' hs => ⟨(hp r s' hs).1, ih r (hp r s' hs).2⟩

/-- The rule for an operation at the beginning of a sequence. -/
theorem Throughout.perform {o : S.Op} {f : S.Res o → Program S α}
    (h : ∀ r s', step s o r s' → I s' ∧ Throughout step I Q (f r) s') :
    Throughout step I Q (Program.perform o >>= f) s := h

/-- A program of operations that all keep the invariant, with what is known of its runs. -/
theorem Throughout.of_exec {φ : S.Op → Prop} {p : Program S α} (hp : p.All φ)
    (hkeep : ∀ s o r s', φ o → step s o r s' → I s → I s') (hs : I s)
    (hQ : ∀ tr a s', Exec step p s tr a s' → Q a s') : Throughout step I Q p s := by
  induction p generalizing s with
  | ret a => exact hQ [] a s ⟨rfl, rfl, rfl⟩
  | call o k ih =>
    intro r s' hstep
    have hs' := hkeep s o r s' hp.1 hstep hs
    exact ⟨hs', ih r (hp.2 r) hs' fun tr a s'' h => hQ _ a s'' ⟨r, s', tr, hstep, rfl, h⟩⟩

end Throughout

/-- No thread performs an operation between two operations of another thread. -/
def Serial : List (ℕ × Event S) → Prop
  | [] => True
  | (t, _) :: tr => Serial tr ∧ (tr.head?.map Prod.fst = some t ∨ ∀ te ∈ tr, te.1 ≠ t)

instance decidableSerial : (tr : List (ℕ × Event S)) → Decidable (Serial tr)
  | [] => inferInstanceAs (Decidable True)
  | (t, _) :: tr =>
    haveI := decidableSerial tr
    inferInstanceAs (Decidable
      (Serial tr ∧ (tr.head?.map Prod.fst = some t ∨ ∀ te ∈ tr, te.1 ≠ t)))

section Pool

variable {step : σ → (o : S.Op) → S.Res o → σ → Prop} {env : σ → σ → Prop}
  {body : ℕ → Program S α} {I : σ → Prop}
  {c : Config S σ α}

/-- What is known of a configuration that was reached without interruption. -/
structure Undisturbed (step : σ → (o : S.Op) → S.Res o → σ → Prop) (I : σ → Prop)
    (c : Config S σ α) : Prop where
  inv : I c.world.state
  last : ∀ t p, c.slot t = .running p → c.world.trace.head?.map Prod.fst = some t →
    Throughout step I (fun _ s => I s) p c.world.state
  fresh : ∀ t p, c.slot t = .running p → (∀ te ∈ c.world.trace, te.1 ≠ t) →
    ∀ s, I s → Throughout step I (fun _ s => I s) p s
  idle : ∀ t, c.slot t = .idle → ∀ te ∈ c.world.trace, te.1 ≠ t

/-- One step that interrupts nobody: a thread goes on where it has stopped, or begins. -/
theorem Undisturbed.next {c' : Config S σ α} {a : Action S} (henv : ∀ s s', env s s' → s' = s)
    (hbody : ∀ t s, I s → Throughout step I (fun _ s => I s) (body t) s) (h : Undisturbed step I c)
    (hs : PoolStep step env body c a c') (hser : Serial c'.world.trace) :
    Undisturbed step I c' := by
  cases hs with
  | spawn t hidle =>
    refine ⟨h.inv, fun u p hp hhead => ?_, fun u p hp hfresh => ?_, fun u hu => ?_⟩
    all_goals by_cases hut : u = t
    · subst hut
      obtain ⟨te, hte, heq⟩ := Option.map_eq_some_iff.mp hhead
      exact absurd heq (h.idle u hidle te (List.mem_of_mem_head? hte))
    · exact h.last u p (by simpa [hut] using hp) hhead
    · subst hut
      obtain rfl : body u = p := by simpa using hp
      exact hbody u
    · exact h.fresh u p (by simpa [hut] using hp) hfresh
    · subst hut
      simp at hu
    · exact h.idle u (by simpa [hut] using hu)
  | call t o k r s' hrun hstep =>
    obtain ⟨-, hturn⟩ := hser
    -- Either the thread goes on, or it begins here.
    have hthr : Throughout step I (fun _ s => I s) (.call o k) c.world.state := by
      rcases hturn with hhead | hfresh
      · exact h.last t _ hrun hhead
      · exact h.fresh t _ hrun hfresh _ h.inv
    obtain ⟨hinv, hrest⟩ := hthr r s' hstep
    refine ⟨hinv, fun u p hp hhead => ?_, fun u p hp hfresh => ?_, fun u hu te hte => ?_⟩
    · obtain rfl : t = u := by simpa using hhead
      obtain rfl : k r = p := by simpa using hp
      exact hrest
    · obtain ⟨hne, hold⟩ := List.forall_mem_cons.mp hfresh
      exact h.fresh u p (by simpa [Ne.symm hne] using hp) hold
    · have hut : u ≠ t := by
        rintro rfl
        simp at hu
      rcases List.mem_cons.mp hte with rfl | hte
      · exact Ne.symm hut
      · exact h.idle u (by simpa [hut] using hu) te hte
  | finish t a hrun =>
    have hslot : ∀ u p, Function.update c.slot t (.done a) u = .running p → c.slot u = .running p :=
      fun u p hp => by
        by_cases hut : u = t
        · subst hut
          simp at hp
        · simpa [hut] using hp
    refine ⟨h.inv, fun u p hp => h.last u p (hslot u p hp), fun u p hp => h.fresh u p (hslot u p hp),
      fun u hu => ?_⟩
    by_cases hut : u = t
    · subst hut
      simp at hu
    · exact h.idle u (by simpa [hut] using hu)
  | env s' he =>
    obtain rfl := henv _ _ he
    exact ⟨h.inv, h.last, h.fresh, h.idle⟩

/-- A run without interruption was without interruption before its last step. -/
theorem serial_of_step {c' : Config S σ α} {a : Action S} (hs : PoolStep step env body c a c')
    (hser : Serial c'.world.trace) : Serial c.world.trace := by
  cases hs with
  | call => exact hser.1
  | _ => exact hser

/-- What programs keep when they run alone holds in every run without interruption. -/
theorem invariant_of_serial {ok : Config S σ α → Prop} {s₀ : σ} (henv : ∀ s s', env s s' → s' = s)
    (hbody : ∀ t s, I s → Throughout step I (fun _ s => I s) (body t) s) (hs₀ : I s₀)
    (hrun : RunWhile step env body ok (.start s₀) c) (hser : Serial c.world.trace) :
    I c.world.state := by
  suffices h : Undisturbed step I c from h.inv
  induction hrun with
  | refl => exact ⟨hs₀, fun _ _ h => (nomatch h), fun _ _ h => (nomatch h), fun _ _ _ h => (nomatch h)⟩
  | tail _ hs _ ih => exact (ih (serial_of_step hs hser)).next henv hbody hs hser

end Pool

end LustreCsi.Computation
