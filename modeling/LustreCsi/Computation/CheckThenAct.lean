import LustreCsi.Computation.Interleaving

/-!
# Checks that are acted upon later

Threads of a pool check something of the shared state and act upon it later. A `Window` says which
operations begin a check, act upon it, and end it otherwise; `Window.Between` is the time from the
check to the act. What a check is about belongs to a class (a name, a region): `Checked` gives the
invariant of the state and, for each class, when a step leaves it alone (`calm`).

In `checkContract` a thread relies on its class being left alone between its check and its act. It
is compatible for the runs in which a thread acts only while no other thread of its class is between
the two (`Window.Alone`, `checkContract_compatible`).
-/

set_option autoImplicit false

namespace LustreCsi.Computation

variable {S : Sig} {σ α κ : Type}

/-- The operations that begin a check, that act upon it, and that end it without acting. -/
structure Window (S : Sig) where
  opens : S.Op → Prop
  acts : S.Op → Prop
  ends : S.Op → Prop

namespace Window

variable (W : Window S)

/-- The thread has begun a check and has neither acted nor ended it since. -/
def Between (u : ℕ) : List (ℕ × Event S) → Prop
  | [] => False
  | (v, e) :: tr =>
    if v = u then W.opens e.1 ∨ (¬W.acts e.1 ∧ ¬W.ends e.1 ∧ Between u tr) else Between u tr

/-- What other threads do does not change whether a thread is between check and act. -/
theorem between_cons_of_ne {t u : ℕ} (hne : t ≠ u) (e : Event S) (tr : List (ℕ × Event S)) :
    W.Between u ((t, e) :: tr) ↔ W.Between u tr := by
  simp only [Between, if_neg hne]

/-- The latest operation of the thread itself decides, unless it neither opens, acts nor ends. -/
theorem between_cons_self (u : ℕ) (e : Event S) (tr : List (ℕ × Event S)) :
    W.Between u ((u, e) :: tr) ↔
      W.opens e.1 ∨ (¬W.acts e.1 ∧ ¬W.ends e.1 ∧ W.Between u tr) := by
  simp only [Between, if_true]

/-- A thread that has performed nothing is not between check and act. -/
theorem not_between_of_forall {u : ℕ} {tr : List (ℕ × Event S)} (h : ∀ te ∈ tr, te.1 ≠ u) :
    ¬W.Between u tr := by
  induction tr with
  | nil => exact id
  | cons te tr ih =>
    obtain ⟨hne, htr⟩ := List.forall_mem_cons.mp h
    exact fun hb => ih htr ((W.between_cons_of_ne hne te.2 tr).mp hb)

/-- If a thread has just acted, no other thread of its class was between check and act. -/
def Alone (cls : ℕ → Option κ) (w : World S σ) : Prop :=
  ∀ t e tr, w.trace = (t, e) :: tr → W.acts e.1 → ∀ u, u ≠ t → W.Between u tr → cls u ≠ cls t

section Check

variable [DecidablePred W.opens] [DecidablePred W.acts] [DecidablePred W.ends]

instance decidableBetween (u : ℕ) : (tr : List (ℕ × Event S)) → Decidable (W.Between u tr)
  | [] => inferInstanceAs (Decidable False)
  | (v, e) :: tr =>
    haveI := decidableBetween u tr
    inferInstanceAs (Decidable (if v = u then
      W.opens e.1 ∨ (¬W.acts e.1 ∧ ¬W.ends e.1 ∧ W.Between u tr) else W.Between u tr))

/-- If a thread has just acted, no other thread at all was between check and act. -/
def undisturbed (w : World S σ) : Bool :=
  match w.trace with
  | [] => true
  | (t, e) :: tr =>
    !decide (W.acts e.1) || tr.all fun te => te.1 == t || !decide (W.Between te.1 tr)

variable {W}

/-- A thread that acts undisturbed is alone, whatever the classes are. -/
theorem alone_of_undisturbed {cls : ℕ → Option κ} {w : World S σ} (h : W.undisturbed w = true) :
    W.Alone cls w := by
  intro t e tr htrace hacts u hu hb
  -- A thread that is between check and act has performed an operation.
  obtain ⟨te, hte, rfl⟩ : ∃ te ∈ tr, te.1 = u := by
    by_contra hno
    push Not at hno
    exact W.not_between_of_forall hno hb
  simp only [undisturbed, htrace, hacts, decide_true, Bool.not_true, Bool.false_or,
    List.all_eq_true] at h
  simpa [hu, hb] using h te hte

end Check

end Window

/-- The invariant of the state, what every step keeps, and when a step leaves a class alone. -/
structure Checked (σ κ : Type) where
  inv : σ → Prop
  mono : σ → σ → Prop
  calm : κ → σ → σ → Prop
  mono_refl : ∀ s, mono s s
  mono_trans : ∀ s₁ s₂ s₃, mono s₁ s₂ → mono s₂ s₃ → mono s₁ s₃
  calm_refl : ∀ k s, calm k s s
  calm_trans : ∀ k s₁ s₂ s₃, calm k s₁ s₂ → calm k s₂ s₃ → calm k s₁ s₃

/-- Leaving every class alone, and keeping the invariant. -/
structure Checked.Inert (R : Checked σ κ) (s s' : σ) : Prop where
  inv : R.inv s → R.inv s'
  mono : R.mono s s'
  calm : ∀ k, R.calm k s s'

section Contract

variable (W : Window S) (cls : ℕ → Option κ) (R : Checked σ κ) {o : S.Op} {w : World S σ}
  {Q : α → World S σ → Prop}

/-- The contract of threads that check and act. -/
def checkContract : Contract S σ where
  inv w := R.inv w.state
  rely u w w' := R.mono w.state w'.state ∧ (W.Between u w'.trace ↔ W.Between u w.trace) ∧
    (W.Between u w.trace → ∀ k, cls u = some k → R.calm k w.state w'.state)
  guar t w e w' := w'.trace = (t, e) :: w.trace ∧ R.mono w.state w'.state ∧
    ∀ k, R.calm k w.state w'.state ∨ (W.acts e.1 ∧ cls t = some k)
  rely_refl _ w := ⟨R.mono_refl _, Iff.rfl, fun _ k _ => R.calm_refl k w.state⟩
  rely_trans _ _ _ _ h h' :=
    ⟨R.mono_trans _ _ _ h.1 h'.1, h'.2.1.trans h.2.1, fun hb k hk =>
      R.calm_trans k _ _ _ (h.2.2 hb k hk) (h'.2.2 (h.2.1.mpr hb) k hk)⟩

variable {W cls R}

/-- What one thread guarantees the others may rely on, in runs in which who acts is alone. -/
theorem checkContract_compatible {env : σ → σ → Prop} {A : ℕ → Prop}
    (henv : ∀ s s', env s s' → R.Inert s s') :
    (checkContract W cls R).CompatibleWhile (W.Alone cls) env A where
  guar_rely t u _ _ hne w e w' _ _ halone hguar := by
    obtain ⟨htrace, hmono, hcalm⟩ := hguar
    refine ⟨hmono, by rw [htrace]; exact W.between_cons_of_ne hne e _, fun hb k hk => ?_⟩
    rcases hcalm k with hcalm | ⟨hact, hcls⟩
    · exact hcalm
    · exact absurd (hk.trans hcls.symm) (halone t e w.trace htrace hact u (Ne.symm hne) hb)
  env_inv w s' hi he := (henv _ _ he).inv hi
  env_rely u _ w s' _ he := ⟨(henv _ _ he).mono, Iff.rfl, fun _ k _ => (henv _ _ he).calm k⟩

/-! ## Rules -/

/-- A fact about the state that lasts as long as the class is left alone. -/
def Checked.Lasting (R : Checked σ κ) (k : κ) (φ : σ → Prop) : Prop :=
  ∀ s s', R.mono s s' → R.calm k s s' → φ s → φ s'

/-- The thread is between check and act, and the fact holds. -/
def Window.Knows (W : Window S) (t : ℕ) (φ : σ → Prop) (w : World S σ) : Prop :=
  W.Between t w.trace ∧ φ w.state

variable {t : ℕ} {k : κ} {φ : σ → Prop}

/-- What a thread knows between check and act stays true. -/
theorem Window.Knows.stable (hk : cls t = some k) (hφ : R.Lasting k φ) :
    Stable t (checkContract W cls R) (W.Knows t φ) :=
  fun _ _ hw hr _ => ⟨hr.2.1.mpr hw.1, hφ _ _ hr.1 (hr.2.2 hw.1 k hk) hw.2⟩

variable {step : σ → (o : S.Op) → S.Res o → σ → Prop}

/-- An inert step of a thread meets its guarantee and keeps the invariant. -/
theorem Checked.Inert.keeps {e : Event S} {s' : σ} (h : R.Inert w.state s')
    (hi : (checkContract W cls R).inv w) :
    (checkContract W cls R).guar t w e (w.after t e s') ∧
      (checkContract W cls R).inv (w.after t e s') :=
  ⟨⟨rfl, h.mono, fun k => .inl (h.calm k)⟩, h.inv hi⟩

/-- A program of inert operations is safe. -/
theorem safe_of_inert {φ : S.Op → Prop} {p : Program S α} (hp : p.All φ)
    (hinert : ∀ o s r s', φ o → step s o r s' → R.Inert s s') (w : World S σ) :
    Safe step t (checkContract W cls R) (fun _ _ => True) p w := by
  induction p generalizing w with
  | ret a => exact fun _ _ _ => trivial
  | call o f ih =>
    intro w' _ hi r s' hs
    obtain ⟨hg, hi'⟩ := (hinert o _ r s' hp.1 hs).keeps (t := t) (e := ⟨o, r⟩) hi
    exact ⟨hg, hi', ih r (hp.2 r) _⟩

/-- The rule for an inert operation that begins a check, or is between check and act. -/
theorem safe_inert {P : World S σ → Prop} {f : S.Res o → Program S α}
    (hP : Stable t (checkContract W cls R) P) (hw : P w)
    (ho : ∀ w, P w → W.opens o ∨ (¬W.acts o ∧ ¬W.ends o ∧ W.Between t w.trace))
    (hinert : ∀ s r s', step s o r s' → R.Inert s s')
    (hf : ∀ w r s', P w → R.inv s' → step w.state o r s' →
      (∀ ψ : σ → Prop, ψ s' → W.Knows t ψ (w.after t ⟨o, r⟩ s')) →
      Safe step t (checkContract W cls R) Q (f r) (w.after t ⟨o, r⟩ s')) :
    Safe step t (checkContract W cls R) Q (Program.perform o >>= f) w := by
  refine Safe.perform hP hw fun w r s' hw hi hs => ?_
  obtain ⟨hg, hi'⟩ := (hinert _ r s' hs).keeps (t := t) (e := ⟨o, r⟩) hi
  refine ⟨hg, hi', hf w r s' hw hi' hs fun ψ hψ => ⟨?_, hψ⟩⟩
  exact (W.between_cons_self t ⟨o, r⟩ w.trace).mpr (ho w hw)

/-- A program of inert operations between check and act keeps what the thread knows. -/
theorem safe_all_between {χ : S.Op → Prop} {p : Program S α} (hp : p.All χ)
    (hact : ∀ o, χ o → ¬W.acts o) (hend : ∀ o, χ o → ¬W.ends o) (hk : cls t = some k)
    (hφ : R.Lasting k φ) (hw : W.Knows t φ w)
    (hinert : ∀ o s r s', χ o → step s o r s' → R.Inert s s') :
    Safe step t (checkContract W cls R) (fun _ => W.Knows t φ) p w := by
  induction p generalizing w with
  | ret a => exact Safe.ret (Window.Knows.stable hk hφ) hw fun _ _ h => h
  | call o f ih =>
    refine Safe.call (Window.Knows.stable hk hφ) hw fun w r s' hw hi hs => ?_
    have hin := hinert o _ r s' hp.1 hs
    obtain ⟨hg, hi'⟩ := hin.keeps (t := t) (e := ⟨o, r⟩) hi
    refine ⟨hg, hi', ih r (hp.2 r) ⟨?_, hφ _ _ hin.mono (hin.calm k) hw.2⟩⟩
    exact (W.between_cons_self t ⟨o, r⟩ w.trace).mpr (.inr ⟨hact o hp.1, hend o hp.1, hw.1⟩)

/-- The rule for the act: it may concern the class of the thread, and no other one. -/
theorem safe_act {f : S.Res o → Program S α} (hact : W.acts o) (hk : cls t = some k)
    (hφ : R.Lasting k φ) (hw : W.Knows t φ w) (hkeep : ∀ s r s', step s o r s' → φ s → R.inv s →
      R.inv s' ∧ R.mono s s' ∧ ∀ k', k' ≠ k → R.calm k' s s')
    (hf : ∀ (w : World S σ) r s', Safe step t (checkContract W cls R) Q (f r) (w.after t ⟨o, r⟩ s')) :
    Safe step t (checkContract W cls R) Q (Program.perform o >>= f) w := by
  refine Safe.perform (Window.Knows.stable hk hφ) hw fun w r s' hw hi hs => ?_
  obtain ⟨hinv, hmono, hcalm⟩ := hkeep _ r s' hs hw.2 hi
  refine ⟨⟨rfl, hmono, fun k' => ?_⟩, hinv, hf w r s'⟩
  by_cases hkk : k' = k
  · exact .inr ⟨hact, hkk ▸ hk⟩
  · exact .inl (hcalm k' hkk)

end Contract

end LustreCsi.Computation
