import LustreCsi.Computation.Interleaving

/-!
# State invariants of a pool, across restarts

`Maintains step I Q p`: every operation of `p` keeps the invariant `I` in whatever state that
satisfies `I` it is performed, and `p` returns only in `Q`. Such a program needs no locks.
`RunWhile.maintained` is the parallel rule.

`Restarts` are the runs of a system that may crash at any moment: all threads are lost, the state is
what a crash leaves of it, and a new pool is started. `Restarts.epoch` is the induction rule: what
holds at the beginning and is handed on from one epoch to the next holds at the beginning of the
current one.
-/

set_option autoImplicit false

namespace LustreCsi.Computation

variable {S : Sig} {σ α β : Type}

section Maintains

variable (step : σ → (o : S.Op) → S.Res o → σ → Prop) (I : σ → Prop) {p : Program S α}
  {Q : α → Prop}

/-- Every operation of the program keeps `I`, given the answers that `I` leaves open. -/
def Maintains (Q : α → Prop) : Program S α → Prop
  | .ret a => Q a
  | .call o k => (∀ s r s', I s → step s o r s' → I s') ∧
      ∀ s r s', I s → step s o r s' → Maintains Q (k r)

variable {step I}

/-- A program that has returned maintains the invariant. -/
theorem Maintains.pure {a : α} (h : Q a) :
    Maintains step I Q (Pure.pure a : Program S α) := h

/-- What is known of the result may be weakened. -/
theorem Maintains.mono {Q' : α → Prop} (h : Maintains step I Q p) (hQ : ∀ a, Q a → Q' a) :
    Maintains step I Q' p := by
  induction p with
  | ret a => exact hQ a h
  | call o k ih => exact ⟨h.1, fun s r s' hI hs => ih r (h.2 s r s' hI hs)⟩

/-- A sequence maintains the invariant if its parts do. -/
theorem Maintains.bind {Q' : β → Prop} {f : α → Program S β} (h : Maintains step I Q p)
    (hf : ∀ a, Q a → Maintains step I Q' (f a)) :
    Maintains step I Q' (p >>= f) := by
  induction p with
  | ret a => exact hf a h
  | call o k ih => exact ⟨h.1, fun s r s' hI hs => ih r (h.2 s r s' hI hs)⟩

/-- The rule for one operation. -/
theorem Maintains.perform {Q : β → Prop} {o : S.Op} {f : S.Res o → Program S β}
    (hI : ∀ s r s', I s → step s o r s' → I s')
    (hf : ∀ s r s', I s → step s o r s' → Maintains step I Q (f r)) :
    Maintains step I Q (Program.perform o >>= f) := ⟨hI, hf⟩

/-- A program whose operations all keep the invariant. -/
theorem Maintains.all {φ : S.Op → Prop} (hφ : ∀ o, φ o → ∀ s r s', I s → step s o r s' → I s')
    (hp : p.All φ) : Maintains step I (fun _ => True) p := by
  induction p with
  | ret a => trivial
  | call o k ih => exact ⟨hφ o hp.1, fun s r s' _ _ => ih r (hp.2 r)⟩

/-- **The parallel rule for state invariants.** -/
theorem RunWhile.maintained {env : σ → σ → Prop} {body : ℕ → Program S α} {ok : Config S σ α → Prop}
    {s : σ} {c : Config S σ α} (hI : I s) (hbody : ∀ t, Maintains step I Q (body t))
    (henv : ∀ s s', I s → env s s' → I s') (hrun : RunWhile step env body ok (.start s) c) :
    I c.world.state ∧ ∀ t p, c.slot t = .running p → Maintains step I Q p := by
  induction hrun with
  | refl _ => exact ⟨hI, fun t p hp => by simp [Config.start] at hp⟩
  | @tail c₁ c₂ a _ hs _ ih =>
    obtain ⟨ihI, ihslot⟩ := ih
    -- Only the slot of the thread that moves changes.
    have hupdate : ∀ {t : ℕ} {x : Slot S α}, (∀ p, x = .running p → Maintains step I Q p) →
        ∀ u p, Function.update c₁.slot t x u = .running p → Maintains step I Q p := by
      intro t x hx u p hp
      by_cases hut : u = t
      · subst hut
        exact hx p (by simpa using hp)
      · exact ihslot u p (by simpa [Function.update_of_ne hut] using hp)
    cases hs with
    | spawn t hidle =>
      refine ⟨ihI, hupdate fun p hp => ?_⟩
      cases hp
      exact hbody t
    | call t o k r s' hslot hstep =>
      obtain ⟨hkeep, hrest⟩ := ihslot t _ hslot
      refine ⟨hkeep _ r s' ihI hstep, hupdate fun p hp => ?_⟩
      cases hp
      exact hrest _ r s' ihI hstep
    | finish t b hslot => exact ⟨ihI, hupdate fun p hp => by cases hp⟩
    | env s' h => exact ⟨henv _ _ ihI h, ihslot⟩

end Maintains

section Restarts

variable (step : σ → (o : S.Op) → S.Res o → σ → Prop) (env crash : σ → σ → Prop)
  (body : ℕ → ℕ → Program S α) (s₀ : σ) {c : Config S σ α} {n : ℕ}

/-- The configurations that a system reaches which crashes any number of times; in the epoch after
the `n`-th crash thread `t` runs `body n t`. -/
inductive Restarts : ℕ → Config S σ α → Prop where
  | start : Restarts 0 (.start s₀)
  | step {n : ℕ} {c c' : Config S σ α} {a : Action S} (h : Restarts n c)
      (hs : PoolStep step env (body n) c a c') : Restarts n c'
  | crash {n : ℕ} {c : Config S σ α} {s' : σ} (h : Restarts n c) (hs : crash c.world.state s') :
      Restarts (n + 1) (.start s')

variable {step env crash body s₀}

/-- **The induction rule.** What holds at the first beginning, and is handed on from the beginning of
an epoch to the next one, holds at the beginning of the current epoch. -/
theorem Restarts.epoch {P : ℕ → σ → Prop} (hstart : P 0 s₀)
    (hcrash : ∀ n s c s', P n s → Run step env (body n) (.start s) c → crash c.world.state s' →
      P (n + 1) s') (h : Restarts step env crash body s₀ n c) :
    ∃ s, P n s ∧ Run step env (body n) (.start s) c := by
  induction h with
  | start => exact ⟨s₀, hstart, .refl _ trivial⟩
  | step _ hs ih =>
    obtain ⟨s, hP, hrun⟩ := ih
    exact ⟨s, hP, .tail hrun hs trivial⟩
  | crash _ hs ih =>
    obtain ⟨s, hP, hrun⟩ := ih
    exact ⟨_, hcrash _ s _ _ hP hrun hs, .refl _ trivial⟩

/-- A state invariant that every body maintains and a crash keeps holds at all times. -/
theorem Restarts.maintained {I : σ → Prop} {Q : α → Prop} (hI : I s₀)
    (hbody : ∀ n t, Maintains step I Q (body n t)) (henv : ∀ s s', I s → env s s' → I s')
    (hcrash : ∀ s s', I s → crash s s' → I s') (h : Restarts step env crash body s₀ n c) :
    I c.world.state := by
  obtain ⟨s, hs, hrun⟩ := h.epoch (P := fun _ => I) hI fun n s c s' hs hrun hcr =>
    hcrash _ _ (hrun.maintained hs (hbody n) henv).1 hcr
  exact (hrun.maintained hs (hbody n) henv).1

/-- One epoch of a system that never crashes. -/
theorem Restarts.of_run {c' : Config S σ α} (h : Restarts step env crash body s₀ n c)
    (hrun : Run step env (body n) c c') : Restarts step env crash body s₀ n c' := by
  induction hrun with
  | refl _ => exact h
  | tail _ hs _ ih => exact .step ih hs

end Restarts

end LustreCsi.Computation
