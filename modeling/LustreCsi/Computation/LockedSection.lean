import LustreCsi.Computation.TryLock

/-!
# Sections guarded by a try-lock

`Resources` says what the locks of a set protect: an invariant of the state, what every step keeps
(`mono`), and what a step of another thread keeps for the holder of a lock (`keeps`). In
`sectionContract` a thread relies on this for the locks it holds and guarantees it for the others;
by exclusion guarantees are within relies (`sectionContract_compatible`). The rules are `safe_op`
for one operation, and `safe_all_stable` and `safe_all` for a program that does not act on the lock
set.
-/

set_option autoImplicit false

namespace LustreCsi.Computation

variable {S : Sig} {σ L α : Type}

/-- The events of one thread. -/
def ownTrace (t : ℕ) (tr : List (ℕ × Event S)) : List (ℕ × Event S) :=
  tr.filter fun e => e.1 = t

/-- The own trace of a thread has all its operations. -/
theorem mem_ownTrace {t : ℕ} {tr : List (ℕ × Event S)} {e : Event S} :
    (t, e) ∈ ownTrace t tr ↔ (t, e) ∈ tr := by
  simp [ownTrace]

/-- Operations of other threads are not in the own trace. -/
theorem ownTrace_cons_of_ne {t u : ℕ} (hne : u ≠ t) (e : Event S) (tr : List (ℕ × Event S)) :
    ownTrace t ((u, e) :: tr) = ownTrace t tr := by
  simp [ownTrace, hne]

/-- What the locks protect. -/
structure Resources (σ L : Type) where
  inv : σ → Prop
  mono : σ → σ → Prop
  keeps : L → σ → σ → Prop
  mono_refl : ∀ s, mono s s
  mono_trans : ∀ s₁ s₂ s₃, mono s₁ s₂ → mono s₂ s₃ → mono s₁ s₃
  keeps_refl : ∀ x s, keeps x s s
  keeps_trans : ∀ x s₁ s₂ s₃, keeps x s₁ s₂ → keeps x s₂ s₃ → keeps x s₁ s₃

/-- The resources of locks that protect nothing. -/
def Resources.none (σ L : Type) : Resources σ L :=
  ⟨fun _ => True, fun _ _ => True, fun _ _ _ => True, fun _ => trivial,
    fun _ _ _ _ _ => trivial, fun _ _ => trivial, fun _ _ _ _ _ _ => trivial⟩

variable {step : σ → (o : S.Op) → S.Res o → σ → Prop}

namespace LockProtocol

variable (P : LockProtocol step L)

/-- What a thread holds is told by its own events. -/
theorem holds_ownTrace (t : ℕ) (x : L) (tr : List (ℕ × Event S)) :
    P.Holds (ownTrace t tr) t x ↔ P.Holds tr t x := by
  induction tr with
  | nil => rfl
  | cons ue tr ih =>
    obtain ⟨u, e⟩ := ue
    by_cases hne : u = t
    · subst hne
      have hown : ownTrace u ((u, e) :: tr) = (u, e) :: ownTrace u tr := by simp [ownTrace]
      rw [hown]
      rcases he : P.event e with _ | ⟨y⟩ | ⟨y⟩
      · simp only [P.holds_cons_none he, ih]
      · simp only [P.holds_cons_acquired he, ih]
      · simp only [P.holds_cons_released he, ih]
    · rw [ownTrace_cons_of_ne hne, ih, P.holds_cons_of_ne hne]

/-- A thread that holds a lock has taken it. -/
theorem exists_of_holds {t : ℕ} {x : L} {tr : List (ℕ × Event S)} (h : P.Holds tr t x) :
    ∃ e, (t, e) ∈ tr ∧ P.event e = some (.acquired x) := by
  induction tr with
  | nil => simp [Holds] at h
  | cons ue tr ih =>
    obtain ⟨u, e⟩ := ue
    have hlift : P.Holds tr t x → ∃ e', (t, e') ∈ (u, e) :: tr ∧ P.event e' = some (.acquired x) :=
      fun htr => by
        obtain ⟨e', hmem, he'⟩ := ih htr
        exact ⟨e', by simp [hmem], he'⟩
    rcases he : P.event e with _ | ⟨y⟩ | ⟨y⟩
    · exact hlift ((P.holds_cons_none he tr t x).mp h)
    · rcases (P.holds_cons_acquired he tr t x).mp h with ⟨rfl, rfl⟩ | htr
      · exact ⟨e, by simp, he⟩
      · exact hlift htr
    · exact hlift ((P.holds_cons_released he tr t x).mp h).1

end LockProtocol

section Contract

variable (P : LockProtocol step L) (R : Resources σ L) (G : ℕ → World S σ → Event S → Prop)
  {e : Event S} {x : L} {p : Program S α} {o : S.Op} {φ : S.Op → Prop} {w : World S σ} {s' : σ}
  {ψ ψ' : σ → Prop}

/-- The contract of threads with a lock set and resources; `G` is what else each operation
guarantees. -/
def sectionContract : Contract S σ where
  inv w := P.Consistent w ∧ R.inv w.state
  rely t w w' := ownTrace t w'.trace = ownTrace t w.trace ∧ R.mono w.state w'.state ∧
    ∀ x, P.Holds w.trace t x → R.keeps x w.state w'.state
  guar t w e w' := w'.trace = (t, e) :: w.trace ∧ R.mono w.state w'.state ∧
    (∀ x, ¬P.Holds w.trace t x → R.keeps x w.state w'.state) ∧ G t w e
  rely_refl t w := ⟨rfl, R.mono_refl _, fun x _ => R.keeps_refl x _⟩
  rely_trans t w₁ w₂ w₃ h₁ h₂ := by
    refine ⟨h₂.1.trans h₁.1, R.mono_trans _ _ _ h₁.2.1 h₂.2.1, fun x hx => ?_⟩
    have hx₂ : P.Holds w₂.trace t x := by
      rwa [← P.holds_ownTrace, h₁.1, P.holds_ownTrace]
    exact R.keeps_trans x _ _ _ (h₁.2.2 x hx) (h₂.2.2 x hx₂)

variable {P R G}

/-- Steps of the environment leave the lock set alone and keep what the locks protect. -/
structure Resources.EnvKeeps (R : Resources σ L) (P : LockProtocol step L) (env : σ → σ → Prop) :
    Prop where
  locked : ∀ s s', env s s' → P.locked s' = P.locked s
  inv : ∀ s s', R.inv s → env s s' → R.inv s'
  mono : ∀ s s', R.inv s → env s s' → R.mono s s'
  keeps : ∀ x s s', R.inv s → env s s' → R.keeps x s s'

/-- What one thread guarantees, all others may rely on: a lock has one holder. -/
theorem sectionContract_compatible {env : σ → σ → Prop} {A : ℕ → Prop} (h : R.EnvKeeps P env) :
    (sectionContract P R G).Compatible env A where
  guar_rely := by
    rintro t u - - hne w e w' hi - - ⟨htr, hmono, hkeeps, -⟩
    refine ⟨by rw [htr, ownTrace_cons_of_ne hne], hmono, fun x hx => hkeeps x fun hx' => ?_⟩
    exact hne (hi.1.unique t u x hx' hx)
  env_inv := by
    rintro w s' ⟨hc, hi⟩ henv
    refine ⟨⟨fun x => ?_, hc.unique⟩, h.inv _ _ hi henv⟩
    simp only [h.locked _ _ henv]
    exact hc.mem_locked x
  env_rely u _ w s' hi henv :=
    ⟨rfl, h.mono _ _ hi.2 henv, fun x _ => h.keeps x _ _ hi.2 henv⟩

variable {t : ℕ}

/-- What a thread has done stays done. -/
theorem mem_trace_stable (e : Event S) :
    Stable t (sectionContract P R G) fun w => (t, e) ∈ w.trace := by
  rintro w w' h ⟨hown, -, -⟩ -
  rw [← mem_ownTrace, hown, mem_ownTrace]
  exact h

/-- What an operation of thread `t` in the world `w` has to keep. -/
def Keeps (P : LockProtocol step L) (R : Resources σ L) (G : ℕ → World S σ → Event S → Prop)
    (t : ℕ) (w : World S σ) (e : Event S) (s' : σ) : Prop :=
  R.inv s' ∧ R.mono w.state s' ∧ (∀ x, ¬P.Holds w.trace t x → R.keeps x w.state s') ∧ G t w e

/-- An operation without effect keeps all resources. -/
theorem Keeps.refl (hi : R.inv w.state) (hG : G t w e) :
    Keeps P R G t w e w.state :=
  ⟨hi, R.mono_refl _, fun x _ => R.keeps_refl x _, hG⟩

/-- The rule for one operation. -/
theorem safe_op {Q : α → World S σ → Prop} {F : World S σ → Prop} {k : S.Res o → Program S α}
    (hF : Stable t (sectionContract P R G) F) (hw : F w)
    (hrel : ∀ w r x, F w → P.event ⟨o, r⟩ = some (.released x) → P.Holds w.trace t x)
    (hkeep : ∀ w r s', F w → (sectionContract P R G).inv w → step w.state o r s' →
      Keeps P R G t w ⟨o, r⟩ s')
    (hk : ∀ w r s', F w → (sectionContract P R G).inv w → step w.state o r s' →
      Safe step t (sectionContract P R G) Q (k r) (w.after t ⟨o, r⟩ s')) :
    Safe step t (sectionContract P R G) Q (.call o k) w := by
  refine Safe.call hF hw fun w r s' hFw hi hs => ?_
  obtain ⟨hinv, hmono, hkeeps, hG⟩ := hkeep w r s' hFw hi hs
  exact ⟨⟨rfl, hmono, hkeeps, hG⟩,
    ⟨hi.1.after hs fun x hx => hrel w r x hFw hx, hinv⟩, hk w r s' hFw hi hs⟩

/-- Thread `t` holds the lock `x`, and the state satisfies `ψ`. -/
def Inside (P : LockProtocol step L) (t : ℕ) (x : L) (ψ : σ → Prop) (w : World S σ) : Prop :=
  P.Holds w.trace t x ∧ ψ w.state

/-- A property of the state that the others keep for the holder of the lock `x`. -/
def Protected (R : Resources σ L) (x : L) (ψ : σ → Prop) : Prop :=
  ∀ s s', ψ s → R.inv s' → R.mono s s' → R.keeps x s s' → ψ s'

/-- A fact about nothing is protected by every lock. -/
theorem Protected.true (x : L) : Protected R x fun _ => True := fun _ _ _ _ _ _ => trivial

/-- What a held lock protects cannot be changed by the others. -/
theorem Inside.stable (hψ : Protected R x ψ) :
    Stable t (sectionContract P R G) (Inside P t x ψ) := by
  rintro w w' ⟨hx, hψw⟩ ⟨hown, hmono, hkeeps⟩ ⟨-, hi⟩
  refine ⟨?_, hψ _ _ hψw hi hmono (hkeeps x hx)⟩
  rwa [← P.holds_ownTrace, hown, P.holds_ownTrace]

/-- An operation that does not act on the lock set leaves the thread inside. -/
theorem Inside.after (h : Inside P t x ψ w) (he : P.event e = none) (hψ : ψ' s') :
    Inside P t x ψ' (w.after t e s') :=
  ⟨(P.holds_cons_none he w.trace t x).mpr h.1, hψ⟩

/-- A program of operations that do not act on the lock set and keep the stable fact `F` is safe. -/
theorem safe_all_stable {F : World S σ → Prop} (hF : Stable t (sectionContract P R G) F)
    (hlock : ∀ o r, φ o → P.event ⟨o, r⟩ = none)
    (hkeep : ∀ o w r s', φ o → F w → (sectionContract P R G).inv w → step w.state o r s' →
      Keeps P R G t w ⟨o, r⟩ s' ∧ F (w.after t ⟨o, r⟩ s')) (hp : p.All φ) (hw : F w) :
    Safe step t (sectionContract P R G) (fun _ => F) p w := by
  induction p generalizing w with
  | ret a => exact Safe.ret hF hw fun _ _ h => h
  | call o k ih =>
    refine safe_op hF hw (fun w r y _ he => ?_)
      (fun w r s' hFw hi hs => (hkeep o w r s' hp.1 hFw hi hs).1) fun w r s' hFw hi hs => ?_
    · simp [hlock o r hp.1] at he
    · exact ih r (hp.2 r) (hkeep o w r s' hp.1 hFw hi hs).2

/-- Inside a section, a program of operations that do not act on the lock set and keep `ψ` is
safe. -/
theorem safe_all (hψ : Protected R x ψ) (hlock : ∀ o r, φ o → P.event ⟨o, r⟩ = none)
    (hkeep : ∀ o w r s', φ o → Inside P t x ψ w → (sectionContract P R G).inv w →
      step w.state o r s' → Keeps P R G t w ⟨o, r⟩ s' ∧ ψ s') (hp : p.All φ) (hw : Inside P t x ψ w) :
    Safe step t (sectionContract P R G) (fun _ => Inside P t x ψ) p w := by
  refine safe_all_stable (Inside.stable hψ) hlock (fun o w r s' ho hin hi hs => ?_) hp hw
  obtain ⟨hkept, hfact⟩ := hkeep o w r s' ho hin hi hs
  exact ⟨hkept, hin.after (hlock o r ho) hfact⟩

/-! ## Several locks -/

/-- Thread `t` holds all the locks in `X`, and the state satisfies `ψ`. -/
structure InsideAll (P : LockProtocol step L) (t : ℕ) (X : List L) (ψ : σ → Prop)
    (w : World S σ) : Prop where
  held : ∀ x ∈ X, P.Holds w.trace t x
  fact : ψ w.state

variable {X : List L}

/-- The others cannot take away the locks that a thread holds. -/
theorem InsideAll.stable_true :
    Stable t (sectionContract P R G) (InsideAll P t X fun _ => True) := by
  rintro w w' h ⟨hown, -, -⟩ -
  refine ⟨fun x hx => ?_, trivial⟩
  rw [← P.holds_ownTrace, hown, P.holds_ownTrace]
  exact h.held x hx

/-- What one of several held locks protects cannot be changed by the others. -/
theorem InsideAll.stable (hx : x ∈ X) (hψ : Protected R x ψ) :
    Stable t (sectionContract P R G) (InsideAll P t X ψ) := by
  intro w w' h hr hi
  exact ⟨(InsideAll.stable_true w w' ⟨h.held, trivial⟩ hr hi).held,
    hψ _ _ h.fact hi.2 hr.2.1 (hr.2.2 x (h.held x hx))⟩

/-- The fact about the state may be weakened. -/
theorem InsideAll.mono (h : InsideAll P t X ψ w) (hψ : ψ w.state → ψ' w.state) :
    InsideAll P t X ψ' w := ⟨h.held, hψ h.fact⟩

/-- An operation that does not act on the lock set leaves the thread inside. -/
theorem InsideAll.after (h : InsideAll P t X ψ w) (he : P.event e = none) (hψ : ψ' s') :
    InsideAll P t X ψ' (w.after t e s') :=
  ⟨fun x hx => (P.holds_cons_none he w.trace t x).mpr (h.held x hx), hψ⟩

/-- An operation that is none on locks leaves all locks held. -/
theorem InsideAll.kept (h : InsideAll P t X ψ w) (he : P.event e = none) :
    InsideAll P t X (fun _ => True) (w.after t e s') := h.after he trivial

/-- Taking a free lock adds it to those that the thread is inside of. -/
theorem InsideAll.acquired {r : S.Res o} (h : InsideAll P t X (fun _ => True) w)
    (he : P.event ⟨o, r⟩ = some (.acquired x)) :
    InsideAll P t (x :: X) (fun _ => True) (w.after t ⟨o, r⟩ s') := by
  refine ⟨fun y hy => (P.holds_cons_acquired he w.trace t y).mpr ?_, trivial⟩
  rcases List.mem_cons.mp hy with rfl | hy
  · exact .inl ⟨rfl, rfl⟩
  · exact .inr (h.held y hy)

/-- A release leaves the thread inside of its other locks. -/
theorem InsideAll.released {r : S.Res o} (h : InsideAll P t (x :: X) (fun _ => True) w) (hx : x ∉ X)
    (he : P.event ⟨o, r⟩ = some (.released x)) :
    InsideAll P t X (fun _ => True) (w.after t ⟨o, r⟩ s') := by
  refine ⟨fun y hy => (P.holds_cons_released he w.trace t y).mpr
    ⟨h.held y (List.mem_cons_of_mem x hy), ?_⟩, trivial⟩
  rintro ⟨-, rfl⟩
  exact hx hy

end Contract

end LustreCsi.Computation
