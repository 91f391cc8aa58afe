import LustreCsi.Computation.Interleaving
import Mathlib.Data.Set.Insert

/-!
# Sets of try-locks

An attempt to take a lock succeeds exactly when the lock is free, and a release frees a lock whoever
holds it. Who holds a lock is read off the trace of the pool (`LockProtocol.Holds`). As long as
threads release only what they hold, the set contains exactly the held locks and no lock has two
holders (`LockProtocol.Consistent`).
-/

set_option autoImplicit false

namespace LustreCsi.Computation

/-- What an operation does to a lock set. -/
inductive LockEvent (L : Type) where
  | acquired (x : L)
  | released (x : L)

section

variable {S : Sig} {σ : Type}

/-- The lock set of a system: which operations act on it, and how. -/
structure LockProtocol (step : σ → (o : S.Op) → S.Res o → σ → Prop) (L : Type) where
  event : Event S → Option (LockEvent L)
  locked : σ → Set L
  acquired : ∀ {s o r s' x}, step s o r s' → event ⟨o, r⟩ = some (.acquired x) →
    x ∉ locked s ∧ locked s' = insert x (locked s)
  released : ∀ {s o r s' x}, step s o r s' → event ⟨o, r⟩ = some (.released x) →
    locked s' = locked s \ {x}
  other : ∀ {s o r s'}, step s o r s' → event ⟨o, r⟩ = none → locked s' = locked s

namespace LockProtocol

variable {step : σ → (o : S.Op) → S.Res o → σ → Prop} {L : Type} (P : LockProtocol step L)

/-- The thread has taken the lock and has not released it since. -/
def Holds : List (ℕ × Event S) → ℕ → L → Prop
  | [], _, _ => False
  | (u, e) :: tr, t, x =>
    match P.event e with
    | some (.acquired y) => (u = t ∧ y = x) ∨ Holds tr t x
    | some (.released y) => Holds tr t x ∧ ¬(u = t ∧ y = x)
    | none => Holds tr t x

/-- Taking a lock. -/
theorem holds_cons_acquired {u : ℕ} {e : Event S} {y : L} (h : P.event e = some (.acquired y))
    (tr : List (ℕ × Event S)) (t : ℕ) (x : L) :
    P.Holds ((u, e) :: tr) t x ↔ (u = t ∧ y = x) ∨ P.Holds tr t x := by
  simp only [Holds, h]

/-- Releasing a lock. -/
theorem holds_cons_released {u : ℕ} {e : Event S} {y : L} (h : P.event e = some (.released y))
    (tr : List (ℕ × Event S)) (t : ℕ) (x : L) :
    P.Holds ((u, e) :: tr) t x ↔ P.Holds tr t x ∧ ¬(u = t ∧ y = x) := by
  simp only [Holds, h]

/-- Operations that are none on locks change nothing. -/
theorem holds_cons_none {u : ℕ} {e : Event S} (h : P.event e = none)
    (tr : List (ℕ × Event S)) (t : ℕ) (x : L) :
    P.Holds ((u, e) :: tr) t x ↔ P.Holds tr t x := by
  simp only [Holds, h]

instance decidableHolds [DecidableEq L] :
    (tr : List (ℕ × Event S)) → (t : ℕ) → (x : L) → Decidable (P.Holds tr t x)
  | [], _, _ => .isFalse id
  | (_, e) :: tr, t, x =>
    have := decidableHolds tr t x
    match h : P.event e with
    | none => decidable_of_iff _ (P.holds_cons_none h tr t x).symm
    | some (.acquired _) => decidable_of_iff _ (P.holds_cons_acquired h tr t x).symm
    | some (.released _) => decidable_of_iff _ (P.holds_cons_released h tr t x).symm

/-- What other threads do does not change what a thread holds. -/
theorem holds_cons_of_ne {u t : ℕ} (hne : u ≠ t) (e : Event S) (tr : List (ℕ × Event S)) (x : L) :
    P.Holds ((u, e) :: tr) t x ↔ P.Holds tr t x := by
  rcases he : P.event e with _ | ⟨y⟩ | ⟨y⟩
  · rw [P.holds_cons_none he]
  · simp [P.holds_cons_acquired he, hne]
  · simp [P.holds_cons_released he, hne]

/-- The lock set contains exactly the held locks, and each of them has one holder. -/
structure Consistent (w : World S σ) : Prop where
  mem_locked : ∀ x, x ∈ P.locked w.state ↔ ∃ t, P.Holds w.trace t x
  unique : ∀ t u x, P.Holds w.trace t x → P.Holds w.trace u x → t = u

/-- With no operations performed and no lock taken, the lock set is consistent. -/
theorem Consistent.start {s : σ} (h : P.locked s = ∅) : P.Consistent ⟨s, []⟩ :=
  ⟨fun x => by simp [h, Holds], fun t u x ht => by simp [Holds] at ht⟩

variable {P}

/-- An operation of a thread that releases at most what it holds keeps the lock set
consistent. -/
theorem Consistent.after {w : World S σ} (h : P.Consistent w) {t : ℕ} {o : S.Op} {r : S.Res o}
    {s' : σ} (hs : step w.state o r s')
    (hrel : ∀ x, P.event ⟨o, r⟩ = some (.released x) → P.Holds w.trace t x) :
    P.Consistent (w.after t ⟨o, r⟩ s') := by
  rcases he : P.event ⟨o, r⟩ with _ | ⟨y⟩ | ⟨y⟩
  · constructor
    · intro x
      simp only [World.after_state, World.after_trace, P.other hs he, P.holds_cons_none he]
      exact h.mem_locked x
    · intro t₁ t₂ x
      simp only [World.after_trace, P.holds_cons_none he]
      exact h.unique t₁ t₂ x
  · obtain ⟨hfree, hlocked⟩ := P.acquired hs he
    have hnone : ∀ u, ¬P.Holds w.trace u y := fun u hu => hfree ((h.mem_locked y).mpr ⟨u, hu⟩)
    constructor
    · intro x
      simp only [World.after_state, World.after_trace, hlocked, P.holds_cons_acquired he,
        Set.mem_insert_iff, h.mem_locked]
      constructor
      · rintro (rfl | ⟨u, hu⟩)
        · exact ⟨t, .inl ⟨rfl, rfl⟩⟩
        · exact ⟨u, .inr hu⟩
      · rintro ⟨u, ⟨-, rfl⟩ | hu⟩
        · exact .inl rfl
        · exact .inr ⟨u, hu⟩
    · intro t₁ t₂ x
      simp only [World.after_trace, P.holds_cons_acquired he]
      rintro (⟨rfl, rfl⟩ | h₁) (⟨rfl, h₂⟩ | h₂)
      · rfl
      · exact absurd h₂ (hnone t₂)
      · exact absurd (h₂ ▸ h₁) (hnone t₁)
      · exact h.unique t₁ t₂ x h₁ h₂
  · have hown := hrel y he
    constructor
    · intro x
      simp only [World.after_state, World.after_trace, P.released hs he,
        P.holds_cons_released he, Set.mem_sdiff, Set.mem_singleton_iff, h.mem_locked]
      constructor
      · rintro ⟨⟨u, hu⟩, hne⟩
        exact ⟨u, hu, fun heq => hne heq.2.symm⟩
      · rintro ⟨u, hu, hne⟩
        refine ⟨⟨u, hu⟩, ?_⟩
        rintro rfl
        exact hne ⟨h.unique t u x hown hu, rfl⟩
    · intro t₁ t₂ x
      simp only [World.after_trace, P.holds_cons_released he]
      exact fun h₁ h₂ => h.unique t₁ t₂ x h₁.1 h₂.1

end LockProtocol

end

end LustreCsi.Computation
