import LustreCsi.Computation.TryLock

/-!
# Nested locks

`Nested` says of the text of a program that it takes locks one inside the other and releases them in
the reverse order: it follows the stack of the locks held, every operation is performed with a stack
that is admissible for it, and the program returns with a given stack.

`RunWhile.stacks`: when the bodies of all threads are nested and return with nothing held, every
configuration of a run has a stack for each thread (`Stacks`), and together these are the lock set.
What a thread holds at an operation is admissible for it (`Stacks.admissible`).
-/

set_option autoImplicit false

namespace LustreCsi.Computation

variable {S : Sig} {σ L α β : Type}

/-- Performed with the locks `X`, the newest one first, the program releases only the newest lock,
performs each operation with a stack that is admissible for it, and returns with the locks `Y`. -/
def Nested (event : Event S → Option (LockEvent L)) (ok : S.Op → List L → Prop) (Y : List L) :
    Program S α → List L → Prop
  | .ret _, X => X = Y
  | .call o k, X => ok o X ∧ ∀ r,
    match event ⟨o, r⟩ with
    | some (.acquired x) => x ∉ X → Nested event ok Y (k r) (x :: X)
    | some (.released x) => ∃ X', X = x :: X' ∧ Nested event ok Y (k r) X'
    | none => Nested event ok Y (k r) X

section Rules

variable {event : Event S → Option (LockEvent L)} {ok : S.Op → List L → Prop} {X Y Z : List L}

/-- The rule of returning. -/
theorem Nested.pure {a : α} : Nested event ok X (pure a : Program S α) X := rfl

/-- The rule of sequencing. -/
theorem Nested.bind {p : Program S α} {f : α → Program S β} (hp : Nested event ok Y p X)
    (hf : ∀ a, Nested event ok Z (f a) Y) : Nested event ok Z (p >>= f) X := by
  induction p generalizing X with
  | ret a =>
    rw [Program.ret_bind]
    obtain rfl : X = Y := hp
    exact hf a
  | call o k ih =>
    rw [Program.call_bind]
    refine ⟨hp.1, fun r => ?_⟩
    have hr := hp.2 r
    rcases he : event ⟨o, r⟩ with _ | ⟨x⟩ | ⟨x⟩
    · simp only [he] at hr
      exact ih r hr
    · simp only [he] at hr
      exact fun hx => ih r (hr hx)
    · simp only [he] at hr
      obtain ⟨X', hX, hr⟩ := hr
      exact ⟨X', hX, ih r hr⟩

/-- A program that does not act on the lock set keeps the stack. -/
theorem Nested.all {p : Program S α} (hp : p.All fun o => ok o X ∧ ∀ r, event ⟨o, r⟩ = none) :
    Nested event ok X p X := by
  induction p with
  | ret a => rfl
  | call o k ih =>
    refine ⟨hp.1.1, fun r => ?_⟩
    simp only [hp.1.2 r]
    exact ih r (hp.2 r)

end Rules

section Pool

variable {step : σ → (o : S.Op) → S.Res o → σ → Prop} {env : σ → σ → Prop} {body : ℕ → Program S α}
  {c : Config S σ α} {stack : ℕ → List L}

/-- The stacks say what the threads of a configuration hold. -/
structure Stacks (P : LockProtocol step L) (ok : ℕ → S.Op → List L → Prop) (c : Config S σ α)
    (stack : ℕ → List L) : Prop where
  consistent : P.Consistent c.world
  holds : ∀ t x, P.Holds c.world.trace t x ↔ x ∈ stack t
  nodup : ∀ t, (stack t).Nodup
  running : ∀ t p, c.slot t = .running p → Nested P.event (ok t) [] p (stack t)
  notInFlight : ∀ t, ¬c.InFlight t → stack t = []

variable {P : LockProtocol step L} {ok : ℕ → S.Op → List L → Prop}

/-- At the beginning nothing is held. -/
theorem Stacks.start {s : σ} (h : P.locked s = ∅) :
    Stacks P ok (.start s : Config S σ α) fun _ => [] where
  consistent := .start P h
  holds t x := by simp [Config.start, LockProtocol.Holds]
  nodup _ := List.nodup_nil
  running t p hp := by simp [Config.start] at hp
  notInFlight _ _ := rfl

/-- The stacks after a thread has moved, from the new stack of this thread. -/
theorem Stacks.update {c' : Config S σ α} {t : ℕ} {X : List L} {x : Slot S α}
    (h : Stacks P ok c stack) (hc : P.Consistent c'.world)
    (hslot : c'.slot = Function.update c.slot t x)
    (hothers : ∀ u, u ≠ t → ∀ y, P.Holds c'.world.trace u y ↔ P.Holds c.world.trace u y)
    (hholds : ∀ y, P.Holds c'.world.trace t y ↔ y ∈ X) (hnodup : X.Nodup)
    (hrunning : ∀ p, x = .running p → Nested P.event (ok t) [] p X)
    (hrest : (∀ p, x ≠ .running p) → X = []) :
    Stacks P ok c' (Function.update stack t X) where
  consistent := hc
  holds u y := by
    by_cases hut : u = t
    · subst hut
      simpa using hholds y
    rw [hothers u hut, Function.update_of_ne hut]
    exact h.holds u y
  nodup u := by
    by_cases hut : u = t
    · subst hut
      simpa using hnodup
    rw [Function.update_of_ne hut]
    exact h.nodup u
  running u p hp := by
    rw [hslot] at hp
    by_cases hut : u = t
    · subst hut
      rw [Function.update_self] at hp ⊢
      exact hrunning p hp
    rw [Function.update_of_ne hut] at hp ⊢
    exact h.running u p hp
  notInFlight u hu := by
    simp only [Config.InFlight, hslot, not_exists] at hu
    by_cases hut : u = t
    · subst hut
      rw [Function.update_self] at hu ⊢
      exact hrest hu
    rw [Function.update_of_ne hut] at hu ⊢
    exact h.notInFlight u fun ⟨p, hp⟩ => hu p hp

/-- What a thread holds when it comes to an operation is admissible for the operation. -/
theorem Stacks.admissible {t : ℕ} {o : S.Op} {k : S.Res o → Program S α} (h : Stacks P ok c stack)
    (hslot : c.slot t = .running (.call o k)) :
    ok t o (stack t) := (h.running t _ hslot).1

/-- An operation of a nested program leads to stacks again; what is released was held. -/
theorem Stacks.call {c c' : Config S σ α} {stack : ℕ → List L} {t : ℕ} {e : Event S}
    (h : Stacks P ok c stack) (hs : PoolStep step env body c (.call t e) c') :
    (∀ x, P.event e = some (.released x) → P.Holds c.world.trace t x) ∧
      ∃ stack', Stacks P ok c' stack' := by
  cases hs with
  | call t o k r s' hslot hstep =>
    have hnested := (h.running t _ hslot).2 r
    have hothers : ∀ u, u ≠ t → ∀ y, P.Holds ((t, ⟨o, r⟩) :: c.world.trace) u y ↔
        P.Holds c.world.trace u y := fun u hu y => P.holds_cons_of_ne (Ne.symm hu) _ _ y
    have hmoved : ∀ {X : List L}, Nested P.event (ok t) [] (k r) X →
        (∀ p, Slot.running (k r) = .running p → Nested P.event (ok t) [] p X) ∧
        ((∀ p, Slot.running (k r) ≠ .running p) → X = []) := fun hX =>
      ⟨fun p hp => by cases hp; exact hX, fun hp => absurd rfl (hp _)⟩
    rcases he : P.event ⟨o, r⟩ with _ | ⟨x⟩ | ⟨x⟩
    · simp only [he] at hnested
      refine ⟨by simp, _, h.update (h.consistent.after hstep (by simp [he])) rfl hothers
        (fun y => ?_) (h.nodup t) (hmoved hnested).1 (hmoved hnested).2⟩
      exact (P.holds_cons_none he _ t y).trans (h.holds t y)
    · simp only [he] at hnested
      have hnew : x ∉ stack t := by
        intro hx
        refine (P.acquired hstep he).1 ((h.consistent.mem_locked x).mpr ⟨t, ?_⟩)
        exact (h.holds t x).mpr hx
      refine ⟨by simp, _, h.update (h.consistent.after hstep (by simp [he])) rfl hothers
        (fun y => ?_) (List.nodup_cons.mpr ⟨hnew, h.nodup t⟩) (hmoved (hnested hnew)).1
        (hmoved (hnested hnew)).2⟩
      rw [P.holds_cons_acquired he, h.holds t y]
      simp [eq_comm]
    · simp only [he] at hnested
      obtain ⟨X, hX, hnested⟩ := hnested
      have hheld : P.Holds c.world.trace t x := (h.holds t x).mpr (by simp [hX])
      have hnodup : (x :: X).Nodup := hX ▸ h.nodup t
      refine ⟨fun y hy => ?_, _, h.update (h.consistent.after hstep fun y hy => ?_) rfl hothers
        (fun y => ?_) (List.nodup_cons.mp hnodup).2 (hmoved hnested).1 (hmoved hnested).2⟩
      · obtain rfl : x = y := by simpa using hy
        exact hheld
      · obtain rfl : x = y := by simpa [he] using hy
        exact hheld
      · rw [P.holds_cons_released he, h.holds t y, hX, List.mem_cons]
        have hx : x ∉ X := (List.nodup_cons.mp hnodup).1
        constructor
        · rintro ⟨rfl | hy, hne⟩
          · exact absurd ⟨rfl, rfl⟩ hne
          · exact hy
        · intro hy
          exact ⟨.inr hy, fun heq => hx (heq.2 ▸ hy)⟩

/-- A step of the pool leads to stacks again. -/
theorem Stacks.preserved {c' : Config S σ α} {a : Action S}
    (hbody : ∀ t, Nested P.event (ok t) [] (body t) [])
    (henv : ∀ s s', env s s' → P.locked s' = P.locked s) (h : Stacks P ok c stack)
    (hs : PoolStep step env body c a c') : ∃ stack', Stacks P ok c' stack' := by
  cases hs with
  | spawn t hidle =>
    have hnil : stack t = [] := h.notInFlight t fun ⟨p, hp⟩ => by simp [hidle] at hp
    refine ⟨_, h.update (X := []) h.consistent rfl (fun u _ y => Iff.rfl) (fun y => ?_)
      List.nodup_nil (fun p hp => ?_) fun _ => rfl⟩
    · rw [h.holds t y, hnil]
    · cases hp
      exact hbody t
  | call t o k r s' hslot hstep =>
    have hcall : PoolStep step env body c (.call t ⟨o, r⟩) _ := .call c t o k r s' hslot hstep
    exact (h.call hcall).2
  | finish t b hslot =>
    have hnil : stack t = [] := h.running t _ hslot
    refine ⟨_, h.update (X := []) h.consistent rfl (fun u _ y => Iff.rfl) (fun y => ?_)
      List.nodup_nil (fun p hp => ?_) fun _ => rfl⟩
    · rw [h.holds t y, hnil]
    · cases hp
  | env s' he =>
    refine ⟨stack, ⟨⟨fun x => ?_, h.consistent.unique⟩, h.holds, h.nodup, h.running, h.notInFlight⟩⟩
    simp only [henv _ _ he]
    exact h.consistent.mem_locked x

/-- **Nested locks.** In every configuration that a run reaches, the locks are held in stacks. -/
theorem RunWhile.stacks {good : Config S σ α → Prop} {s : σ}
    (hbody : ∀ t, Nested P.event (ok t) [] (body t) [])
    (henv : ∀ s s', env s s' → P.locked s' = P.locked s) (h : P.locked s = ∅)
    (hrun : RunWhile step env body good (.start s) c) : ∃ stack, Stacks P ok c stack := by
  induction hrun with
  | refl _ => exact ⟨_, .start h⟩
  | tail _ hs _ ih =>
    obtain ⟨stack, hstack⟩ := ih
    exact hstack.preserved hbody henv hs

end Pool

end LustreCsi.Computation
