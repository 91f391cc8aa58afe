import LustreCsi.Computation.Program
import Mathlib.Logic.Function.Basic
import Mathlib.Logic.Relation

/-!
# Interleaved programs, and rely-guarantee reasoning about them

A pool runs any number of programs over one shared state. Thread `t` runs `body t`; a step of the
pool spawns a thread, lets one perform an operation or return, or changes the state by the
environment. The pool records the trace of operations, newest first (`World`).

A `Contract` gives the invariant of the pool and, for each thread, its rely and its guarantee. `Safe
t C Q p w`: from `w` on, whatever the others do within the rely of `t`, each operation of `p` meets
the guarantee and keeps the invariant, and `p` returns only in `Q`. `PoolSafe.run` is the parallel
rule: when every thread's guarantee is within every other thread's rely, the invariant holds in
every configuration of a run, and the guarantee at every operation (`PoolSafe.guarantee`). The
active threads are a parameter.

`playPool` computes the configuration that a schedule leads to, for a step relation that is given as
a function of the environment's choices.
-/

set_option autoImplicit false

namespace LustreCsi.Computation

section Pool

variable {S : Sig} {σ α : Type} {t : ℕ} {φ : ℕ → S.Op → Prop}

/-- The shared state with the trace of the operations performed so far, newest first. -/
structure World (S : Sig) (σ : Type) where
  state : σ
  trace : List (ℕ × Event S)

/-- Where a thread of the pool stands. -/
inductive Slot (S : Sig) (α : Type) where
  | idle
  | running (p : Program S α)
  | done (a : α)

/-- A configuration of the pool. -/
structure Config (S : Sig) (σ α : Type) where
  world : World S σ
  slot : ℕ → Slot S α

/-- The thread has been spawned and has not returned. -/
def Config.InFlight (c : Config S σ α) (t : ℕ) : Prop := ∃ p, c.slot t = .running p

/-- The operation that the thread performs next. -/
def Config.next (c : Config S σ α) (t : ℕ) : Option S.Op :=
  match c.slot t with
  | .running (.call o _) => some o
  | _ => none

/-- A thread with a next operation stands before the call of it. -/
theorem Config.next_eq_some {c : Config S σ α} {o : S.Op} (h : c.next t = some o) :
    ∃ k, c.slot t = .running (.call o k) := by
  unfold Config.next at h
  split at h
  · rename_i o' k hslot
    obtain rfl := Option.some.inj h
    exact ⟨k, hslot⟩
  · cases h

/-- A configuration in which no thread has been spawned. -/
def Config.start (s : σ) : Config S σ α := ⟨⟨s, []⟩, fun _ => .idle⟩

variable (step : σ → (o : S.Op) → S.Res o → σ → Prop) (env : σ → σ → Prop)
  (body : ℕ → Program S α)

/-- What one step of the pool is. -/
inductive Action (S : Sig) where
  | spawn (t : ℕ)
  | call (t : ℕ) (e : Event S)
  | finish (t : ℕ)
  | env

/-- The thread that takes the step, if it is a thread's step. -/
def Action.thread : Action S → Option ℕ
  | .spawn t => some t
  | .call t _ => some t
  | .finish t => some t
  | .env => none

/-- One step of the pool. -/
inductive PoolStep : Config S σ α → Action S → Config S σ α → Prop where
  | spawn (c : Config S σ α) (t : ℕ) (h : c.slot t = .idle) :
      PoolStep c (.spawn t) ⟨c.world, Function.update c.slot t (.running (body t))⟩
  | call (c : Config S σ α) (t : ℕ) (o : S.Op) (k : S.Res o → Program S α) (r : S.Res o) (s' : σ)
      (h : c.slot t = .running (.call o k)) (hs : step c.world.state o r s') :
      PoolStep c (.call t ⟨o, r⟩)
        ⟨⟨s', (t, ⟨o, r⟩) :: c.world.trace⟩, Function.update c.slot t (.running (k r))⟩
  | finish (c : Config S σ α) (t : ℕ) (a : α) (h : c.slot t = .running (.ret a)) :
      PoolStep c (.finish t) ⟨c.world, Function.update c.slot t (.done a)⟩
  | env (c : Config S σ α) (s' : σ) (h : env c.world.state s') :
      PoolStep c .env ⟨⟨s', c.world.trace⟩, c.slot⟩

/-- A run of the pool whose configurations all satisfy `ok`, the first one included. -/
inductive RunWhile (ok : Config S σ α → Prop) : Config S σ α → Config S σ α → Prop where
  | refl (c : Config S σ α) (h : ok c) : RunWhile ok c c
  | tail {c c₁ c₂ : Config S σ α} {a : Action S} (h : RunWhile ok c c₁)
      (hs : PoolStep step env body c₁ a c₂) (h₂ : ok c₂) : RunWhile ok c c₂

/-- A run of the pool. -/
abbrev Run : Config S σ α → Config S σ α → Prop := RunWhile step env body fun _ => True

variable {step env body}

/-- A step of the pool is one for every larger step relation of the state. -/
theorem PoolStep.mono {step' : σ → (o : S.Op) → S.Res o → σ → Prop}
    (h : ∀ s o r s', step s o r s' → step' s o r s') {c c' : Config S σ α} {a : Action S}
    (hs : PoolStep step env body c a c') : PoolStep step' env body c a c' := by
  cases hs with
  | spawn t hidle => exact .spawn c t hidle
  | call t o k r s' hslot hstep => exact .call c t o k r s' hslot (h _ _ _ _ hstep)
  | finish t b hslot => exact .finish c t b hslot
  | env s' henv => exact .env c s' henv

/-- A run under one step relation is a run under any that allows more. -/
theorem RunWhile.mono {step' : σ → (o : S.Op) → S.Res o → σ → Prop}
    (h : ∀ s o r s', step s o r s' → step' s o r s') {ok : Config S σ α → Prop}
    {c c' : Config S σ α} (hr : RunWhile step env body ok c c') :
    RunWhile step' env body ok c c' := by
  induction hr with
  | refl hok => exact .refl _ hok
  | tail _ hs hok ih => exact .tail ih (hs.mono h) hok

/-- A run is one in every wider environment. -/
theorem RunWhile.mono_env {env' : σ → σ → Prop} (h : ∀ s s', env s s' → env' s s')
    {ok : Config S σ α → Prop} {c c' : Config S σ α} (hr : RunWhile step env body ok c c') :
    RunWhile step env' body ok c c' := by
  induction hr with
  | refl hok => exact .refl _ hok
  | @tail c₁ c₂ a _ hs hok ih =>
    refine ih.tail (a := a) ?_ hok
    cases hs with
    | spawn t hidle => exact .spawn c₁ t hidle
    | call t o k r s' hslot hstep => exact .call c₁ t o k r s' hslot hstep
    | finish t b hslot => exact .finish c₁ t b hslot
    | env s' henv => exact .env c₁ s' (h _ _ henv)

/-- What every step and the environment keep of the state, a run keeps. -/
theorem RunWhile.state_rel {T : σ → σ → Prop} (hrefl : ∀ s, T s s)
    (htrans : ∀ s₁ s₂ s₃, T s₁ s₂ → T s₂ s₃ → T s₁ s₃)
    (hstep : ∀ s o r s', step s o r s' → T s s') (henv : ∀ s s', env s s' → T s s')
    {ok : Config S σ α → Prop} {c c' : Config S σ α} (hr : RunWhile step env body ok c c') :
    T c.world.state c'.world.state := by
  induction hr with
  | refl _ => exact hrefl _
  | tail _ hs _ ih =>
    refine htrans _ _ _ ih ?_
    cases hs with
    | spawn t hidle => exact hrefl _
    | call t o k r s' hslot hs => exact hstep _ _ _ _ hs
    | finish t b hslot => exact hrefl _
    | env s' henv' => exact henv _ _ henv'

/-- Every operation that a thread has performed, or may still perform, is in its footprint. -/
structure Config.Within (φ : ℕ → S.Op → Prop) (c : Config S σ α) : Prop where
  running : ∀ t p, c.slot t = .running p → p.All (φ t)
  trace : ∀ te ∈ c.world.trace, φ te.1 te.2.1

/-- Nothing is running at the start, so every bound on operations is kept. -/
theorem Config.Within.start (s : σ) :
    (Config.start s : Config S σ α).Within φ :=
  ⟨fun _ _ hp => by simp [Config.start] at hp, fun _ h => by simp [Config.start] at h⟩

/-- A step leaves threads within the operations that their bodies are made of. -/
theorem PoolStep.within (hbody : ∀ t, (body t).All (φ t)) {c c' : Config S σ α} {a : Action S}
    (h : c.Within φ) (hs : PoolStep step env body c a c') :
    c'.Within φ := by
  -- Only the slot of the thread that moves changes.
  have hupdate : ∀ {f : ℕ → Slot S α} {t : ℕ} {x : Slot S α},
      (∀ u p, f u = .running p → p.All (φ u)) → (∀ p, x = .running p → p.All (φ t)) →
      ∀ u p, Function.update f t x u = .running p → p.All (φ u) := by
    intro f t x hf hx u p hp
    by_cases hut : u = t
    · subst hut
      exact hx p (by simpa using hp)
    · exact hf u p (by simpa [Function.update_of_ne hut] using hp)
  cases hs with
  | spawn t hidle =>
    refine ⟨hupdate h.running fun p hp => ?_, h.trace⟩
    cases hp
    exact hbody t
  | call t o k r s' hslot hstep =>
    have hall := h.running t _ hslot
    refine ⟨hupdate h.running fun p hp => ?_, List.forall_mem_cons.mpr ⟨hall.1, h.trace⟩⟩
    cases hp
    exact hall.2 r
  | finish t b hslot => exact ⟨hupdate h.running fun p hp => (by cases hp), h.trace⟩
  | env s' henv => exact ⟨h.running, h.trace⟩

/-- Threads perform only operations that their bodies are made of, in every run. -/
theorem RunWhile.within (hbody : ∀ t, (body t).All (φ t)) {ok : Config S σ α → Prop}
    {c c' : Config S σ α} (h : c.Within φ) (hr : RunWhile step env body ok c c') : c'.Within φ := by
  induction hr with
  | refl _ => exact h
  | tail _ hs _ ih => exact hs.within hbody ih

/-- A thread that has performed nothing is idle, at its beginning, or had nothing to perform. -/
theorem RunWhile.slot_of_no_events {ok : Config S σ α → Prop} {s : σ} {c : Config S σ α}
    (hr : RunWhile step env body ok (.start s) c) (h : ∀ e, (t, e) ∉ c.world.trace) :
    c.slot t = .idle ∨ c.slot t = .running (body t) ∨ ∃ a, body t = .ret a ∧ c.slot t = .done a := by
  induction hr with
  | refl _ => exact .inl rfl
  | @tail c₁ c₂ a _ hs _ ih =>
    cases hs with
    | spawn u hidle =>
      by_cases hut : t = u
      · subst hut
        exact .inr (.inl (Function.update_self _ _ _))
      simp only [Function.update_of_ne hut]
      exact ih h
    | call u o k r s' hslot hstep =>
      have hut : t ≠ u := by
        rintro rfl
        exact h ⟨o, r⟩ List.mem_cons_self
      simp only [Function.update_of_ne hut]
      exact ih fun e he => h e (List.mem_cons_of_mem _ he)
    | finish u b hslot =>
      by_cases hut : t = u
      · subst hut
        rcases ih h with hidle | hrun | ⟨b', -, hdone⟩
        · simp [hidle] at hslot
        · refine .inr (.inr ⟨b, ?_, Function.update_self _ _ _⟩)
          simpa [hrun] using hslot
        · simp [hdone] at hslot
      · simp only [Function.update_of_ne hut]
        exact ih h
    | env s' henv => exact ih h

/-- A thread that has not been started has left no events. -/
theorem RunWhile.no_events_of_idle {ok : Config S σ α → Prop} {s : σ} {c : Config S σ α}
    (hr : RunWhile step env body ok (.start s) c) (h : c.slot t = .idle) (e : Event S) :
    (t, e) ∉ c.world.trace := by
  induction hr with
  | refl _ => exact List.not_mem_nil
  | tail _ hs _ ih =>
    cases hs with
    | spawn u hu =>
      by_cases htu : t = u
      · subst htu
        simp at h
      · exact ih (by simpa [Function.update_of_ne htu] using h)
    | call u o k r s' hu hstep =>
      by_cases htu : t = u
      · subst htu
        simp at h
      simp only [List.mem_cons, Prod.mk.injEq, htu, false_and, false_or]
      exact ih (by simpa [Function.update_of_ne htu] using h)
    | finish u a hu =>
      by_cases htu : t = u
      · subst htu
        simp at h
      · exact ih (by simpa [Function.update_of_ne htu] using h)
    | env s' henv => exact ih h

/-- Two runs in a row are a run. -/
theorem RunWhile.trans {ok : Config S σ α → Prop} {c c₁ c₂ : Config S σ α}
    (h : RunWhile step env body ok c c₁) (h' : RunWhile step env body ok c₁ c₂) :
    RunWhile step env body ok c c₂ := by
  induction h' with
  | refl _ => exact h
  | tail _ hs hok ih => exact .tail ih hs hok

end Pool

section Schedule

variable {S : Sig} {σ χ α : Type} (exec : σ → (o : S.Op) → χ → Option (S.Res o × σ))
  (body : ℕ → Program S α) {env : σ → σ → Prop}

/-- A move of a schedule: a thread is spawned, performs its next operation with the given
choice of the environment, or returns. -/
inductive Move (χ : Type) where
  | spawn (t : ℕ)
  | call (t : ℕ) (x : χ)
  | finish (t : ℕ)

/-- The configuration after a move; `none` when the thread cannot make it. -/
def playMove (c : Config S σ α) : Move χ → Option (Config S σ α)
  | .spawn t =>
    match c.slot t with
    | .idle => some ⟨c.world, Function.update c.slot t (.running (body t))⟩
    | _ => none
  | .call t x =>
    match c.slot t with
    | .running (.call o k) =>
      match exec c.world.state o x with
      | some (r, s') =>
        some ⟨⟨s', (t, ⟨o, r⟩) :: c.world.trace⟩, Function.update c.slot t (.running (k r))⟩
      | none => none
    | _ => none
  | .finish t =>
    match c.slot t with
    | .running (.ret a) => some ⟨c.world, Function.update c.slot t (.done a)⟩
    | _ => none

/-- The configuration that a schedule leads to. -/
def playPool : List (Move χ) → Config S σ α → Option (Config S σ α)
  | [], c => some c
  | m :: ms, c => (playMove exec body c m).bind (playPool ms)

variable {exec body}

/-- A move of a schedule is a step of the pool. -/
theorem playMove_step {c c' : Config S σ α} {m : Move χ} (h : playMove exec body c m = some c') :
    ∃ a, PoolStep (stepOf exec) env body c a c' := by
  cases m with
  | spawn t =>
    simp only [playMove] at h
    split at h <;> cases h
    exact ⟨_, .spawn c t ‹_›⟩
  | call t x =>
    simp only [playMove] at h
    split at h
    · rename_i o k hslot
      cases hexec : exec c.world.state o x with
      | none => simp [hexec] at h
      | some rs =>
        simp only [hexec] at h
        cases h
        exact ⟨_, .call c t o k rs.1 rs.2 hslot ⟨x, hexec⟩⟩
    · cases h
  | finish t =>
    simp only [playMove] at h
    split at h <;> cases h
    exact ⟨_, .finish c t _ ‹_›⟩

/-- A schedule is a run. -/
theorem playPool_run {ok : Config S σ α → Prop} {ms : List (Move χ)} {c c' : Config S σ α}
    (hok : ∀ c, ok c) (h : playPool exec body ms c = some c') :
    RunWhile (stepOf exec) env body ok c c' := by
  induction ms generalizing c with
  | nil =>
    obtain rfl := Option.some.inj h
    exact .refl c (hok c)
  | cons m ms ih =>
    simp only [playPool, Option.bind_eq_some_iff] at h
    obtain ⟨c₁, hmove, hrest⟩ := h
    obtain ⟨a, hstep⟩ := playMove_step hmove
    have hfirst : RunWhile (stepOf exec) env body ok c c₁ := .tail (.refl c (hok c)) hstep (hok c₁)
    exact hfirst.trans (ih hrest)

variable (exec body) in
/-- The configuration that a schedule leads to, if every configuration on the way passes a check. -/
def playPoolWhile (check : Config S σ α → Bool) :
    List (Move χ) → Config S σ α → Option (Config S σ α)
  | [], c => if check c then some c else none
  | m :: ms, c => if check c then (playMove exec body c m).bind (playPoolWhile check ms) else none

/-- A schedule whose configurations pass the check is a run within what the check stands for. -/
theorem playPoolWhile_run {ok : Config S σ α → Prop} {check : Config S σ α → Bool}
    {ms : List (Move χ)} {c c' : Config S σ α} (hcheck : ∀ c, check c = true → ok c)
    (h : playPoolWhile exec body check ms c = some c') :
    ok c ∧ RunWhile (stepOf exec) env body ok c c' := by
  induction ms generalizing c with
  | nil =>
    simp only [playPoolWhile, Option.ite_none_right_eq_some] at h
    obtain ⟨hc, heq⟩ := h
    obtain rfl := Option.some.inj heq
    exact ⟨hcheck _ hc, .refl _ (hcheck _ hc)⟩
  | cons m ms ih =>
    simp only [playPoolWhile, Option.ite_none_right_eq_some, Option.bind_eq_some_iff] at h
    obtain ⟨hc, c₁, hmove, hrest⟩ := h
    obtain ⟨a, hstep⟩ := playMove_step hmove
    obtain ⟨hc₁, hrun⟩ := ih hrest
    have hfirst : RunWhile (stepOf exec) env body ok c c₁ :=
      .tail (.refl c (hcheck c hc)) hstep hc₁
    exact ⟨hcheck c hc, hfirst.trans hrun⟩

end Schedule

section RelyGuarantee

variable {S : Sig} {σ α β : Type} {step : σ → (o : S.Op) → S.Res o → σ → Prop} {p : Program S α}

/-- The invariant of a pool and, for each thread, what it relies on and what it guarantees. -/
structure Contract (S : Sig) (σ : Type) where
  inv : World S σ → Prop
  rely : ℕ → World S σ → World S σ → Prop
  guar : ℕ → World S σ → Event S → World S σ → Prop
  rely_refl : ∀ t w, rely t w w
  rely_trans : ∀ t w₁ w₂ w₃, rely t w₁ w₂ → rely t w₂ w₃ → rely t w₁ w₃

/-- The world after thread `t` performed an operation. -/
def World.after (w : World S σ) (t : ℕ) (e : Event S) (s' : σ) : World S σ :=
  ⟨s', (t, e) :: w.trace⟩

/-- The state after an operation is the one that the operation leaves. -/
@[simp] theorem World.after_state (w : World S σ) (t : ℕ) (e : Event S) (s' : σ) :
    (w.after t e s').state = s' := rfl

/-- The trace after an operation begins with it. -/
@[simp] theorem World.after_trace (w : World S σ) (t : ℕ) (e : Event S) (s' : σ) :
    (w.after t e s').trace = (t, e) :: w.trace := rfl

variable (step)

/-- Under interference within the rely of `t`, every operation of the program meets the
guarantee and keeps the invariant, and the program returns only in `Q`. -/
def Safe (t : ℕ) (C : Contract S σ) (Q : α → World S σ → Prop) :
    Program S α → World S σ → Prop
  | .ret a, w => ∀ w', C.rely t w w' → C.inv w' → Q a w'
  | .call o k, w => ∀ w', C.rely t w w' → C.inv w' → ∀ r s', step w'.state o r s' →
      C.guar t w' ⟨o, r⟩ (w'.after t ⟨o, r⟩ s') ∧ C.inv (w'.after t ⟨o, r⟩ s') ∧
        Safe t C Q (k r) (w'.after t ⟨o, r⟩ s')

variable {step} {t : ℕ} {C : Contract S σ}

/-- An assertion of thread `t` that interference within its rely cannot falsify. -/
def Stable (t : ℕ) (C : Contract S σ) (P : World S σ → Prop) : Prop :=
  ∀ w w', P w → C.rely t w w' → C.inv w' → P w'

/-- What is true everywhere is stable. -/
theorem Stable.true {t : ℕ} {C : Contract S σ} : Stable t C fun _ => True := fun _ _ _ _ _ => trivial

/-- Interference within the rely keeps a program safe. -/
theorem Safe.stable (Q : α → World S σ → Prop) (p : Program S α) :
    Stable t C (Safe step t C Q p) := by
  intro w w' hw hr _
  cases p with
  | ret a | call o k => exact fun w'' hr' => hw w'' (C.rely_trans _ _ _ _ hr hr')

/-- A program that is safe wherever the interference may have led is safe. -/
theorem Safe.of_rely {Q : α → World S σ → Prop} {w : World S σ}
    (h : ∀ w', C.rely t w w' → C.inv w' → Safe step t C Q p w') : Safe step t C Q p w := by
  cases p with
  | ret a | call o k => exact fun w' hr hi => h w' hr hi w' (C.rely_refl t w') hi

/-- The return rule. -/
theorem Safe.ret {Q : α → World S σ → Prop} {P : World S σ → Prop} {a : α} {w : World S σ}
    (hP : Stable t C P) (hw : P w) (hQ : ∀ w, C.inv w → P w → Q a w) :
    Safe step t C Q (.ret a) w :=
  fun w' hr hi => hQ w' hi (hP w w' hw hr hi)

/-- The rule for one operation, from a stable precondition. -/
theorem Safe.call {Q : α → World S σ → Prop} {P : World S σ → Prop} {o : S.Op}
    {k : S.Res o → Program S α} {w : World S σ} (hP : Stable t C P) (hw : P w)
    (h : ∀ w r s', P w → C.inv w → step w.state o r s' →
      C.guar t w ⟨o, r⟩ (w.after t ⟨o, r⟩ s') ∧ C.inv (w.after t ⟨o, r⟩ s') ∧
        Safe step t C Q (k r) (w.after t ⟨o, r⟩ s')) :
    Safe step t C Q (.call o k) w :=
  fun w' hr hi r s' hs => h w' r s' (hP w w' hw hr hi) hi hs

/-- The rule for an operation at the beginning of a sequence. -/
theorem Safe.perform {Q : α → World S σ → Prop} {P : World S σ → Prop} {o : S.Op}
    {f : S.Res o → Program S α} {w : World S σ} (hP : Stable t C P) (hw : P w)
    (h : ∀ w r s', P w → C.inv w → step w.state o r s' →
      C.guar t w ⟨o, r⟩ (w.after t ⟨o, r⟩ s') ∧ C.inv (w.after t ⟨o, r⟩ s') ∧
        Safe step t C Q (f r) (w.after t ⟨o, r⟩ s')) :
    Safe step t C Q (Program.perform o >>= f) w :=
  Safe.call hP hw h

/-- Safety for one contract gives safety for another one, under which the thread may rely on as much
and need not guarantee more. -/
theorem Safe.transfer {C' : Contract S σ} {Q Q' : α → World S σ → Prop} {w : World S σ}
    (h : Safe step t C Q p w) (hinv : ∀ w, C'.inv w → C.inv w)
    (hrely : ∀ w w', C'.rely t w w' → C.rely t w w')
    (hguar : ∀ w e w', C'.inv w → C.guar t w e w' → C.inv w' → C'.guar t w e w' ∧ C'.inv w')
    (hQ : ∀ a w, C'.inv w → Q a w → Q' a w) : Safe step t C' Q' p w := by
  induction p generalizing w with
  | ret a => exact fun w' hr hi => hQ a w' hi (h w' (hrely w w' hr) (hinv w' hi))
  | call o k ih =>
    intro w' hr hi r s' hs
    obtain ⟨hg, hi', hk⟩ := h w' (hrely w w' hr) (hinv w' hi) r s' hs
    exact (and_assoc.mp ⟨hguar _ _ _ hi hg hi', ih r hk⟩)

/-- The rule of consequence. -/
theorem Safe.mono {Q Q' : α → World S σ → Prop} {w : World S σ} (h : Safe step t C Q p w)
    (hQ : ∀ a w, C.inv w → Q a w → Q' a w) : Safe step t C Q' p w :=
  h.transfer (fun _ hi => hi) (fun _ _ hr => hr) (fun _ _ _ _ hg hi => ⟨hg, hi⟩) hQ

/-- The rule of sequencing: the first program establishes that the second one is safe. -/
theorem Safe.bind {Q : β → World S σ → Prop} {Q' : α → World S σ → Prop} {f : α → Program S β}
    {w : World S σ} (hp : Safe step t C Q' p w)
    (hf : ∀ a w, C.inv w → Q' a w → Safe step t C Q (f a) w) : Safe step t C Q (p >>= f) w := by
  induction p generalizing w with
  | ret a =>
    rw [Program.ret_bind]
    exact Safe.of_rely fun w' hr hi => hf a w' hi (hp w' hr hi)
  | call o k ih =>
    rw [Program.call_bind]
    intro w' hr hi r s' hs
    obtain ⟨hg, hi', hk⟩ := hp w' hr hi r s' hs
    exact ⟨hg, hi', ih r hk⟩

end RelyGuarantee

section Advance

variable {S : Sig} {σ α β : Type} {step : σ → (o : S.Op) → S.Res o → σ → Prop} {env : σ → σ → Prop}
  {body : ℕ → Program S α} {t : ℕ} {p p' : Program S α}

variable (step t) in
/-- Thread `t` gets from one point of its program to another by operations of its own. -/
inductive Advance : World S σ → Program S α → World S σ → Program S α → Prop where
  | refl (w : World S σ) (p : Program S α) : Advance w p w p
  | call {w w' : World S σ} {o : S.Op} {k : S.Res o → Program S α} {r : S.Res o} {s' : σ} {p' : Program S α}
      (hs : step w.state o r s') (h : Advance (w.after t ⟨o, r⟩ s') (k r) w' p') :
      Advance w (.call o k) w' p'

/-- Two stretches of one thread are one. -/
theorem Advance.trans {w w₁ w₂ : World S σ} {p₁ p₂ : Program S α} (h : Advance step t w p w₁ p₁)
    (h' : Advance step t w₁ p₁ w₂ p₂) : Advance step t w p w₂ p₂ := by
  induction h with
  | refl _ _ => exact h'
  | call hs _ ih => exact .call hs (ih h')

/-- The rest of a program waits until its first part has got on. -/
theorem Advance.bind {w w' : World S σ} (f : α → Program S β) (h : Advance step t w p w' p') :
    Advance step t w (p >>= f) w' (p' >>= f) := by
  induction h with
  | refl _ _ => exact .refl _ _
  | call hs _ ih => exact .call hs ih

/-- A thread gets over the part of its program that has a run. -/
theorem Advance.of_exec {w : World S σ} {tr : List (Event S)} {a : α} {s' : σ}
    (h : Exec step p w.state tr a s') (f : α → Program S β) :
    Advance step t w (p >>= f) ⟨s', (tr.map fun e => (t, e)).reverse ++ w.trace⟩ (f a) := by
  induction p generalizing w tr with
  | ret b =>
    obtain ⟨rfl, rfl, rfl⟩ := h
    exact .refl w (f a)
  | call o k ih =>
    obtain ⟨r, s₁, tr', hs, rfl, hrest⟩ := h
    have hnext : Exec step (k r) (w.after t ⟨o, r⟩ s₁).state tr' a s' := hrest
    simpa using Advance.call hs (ih r hnext)

/-- What a thread can do, the pool can do. -/
theorem Advance.run {w w' : World S σ} (h : Advance step t w p w' p') {c : Config S σ α}
    (hw : c.world = w) (hslot : c.slot t = .running p) :
    Run step env body c ⟨w', Function.update c.slot t (.running p')⟩ := by
  induction h generalizing c with
  | refl w p =>
    rw [← hw, ← hslot, Function.update_eq_self]
    exact .refl c trivial
  | @call w w' o k r s' p' hs _ ih =>
    subst hw
    have hstep : PoolStep step env body c (.call t ⟨o, r⟩)
        ⟨c.world.after t ⟨o, r⟩ s', Function.update c.slot t (.running (k r))⟩ := .call c t o k r s' hslot hs
    have hrest := ih (c := ⟨c.world.after t ⟨o, r⟩ s', Function.update c.slot t (.running (k r))⟩) rfl
      (Function.update_self ..)
    rw [Function.update_idem] at hrest
    exact RunWhile.trans (.tail (.refl c trivial) hstep trivial) hrest

/-- What a thread can do from its start. -/
theorem Advance.run_spawn {w' : World S σ} {c : Config S σ α}
    (h : Advance step t c.world (body t) w' p') (hslot : c.slot t = .idle) :
    Run step env body c ⟨w', Function.update c.slot t (.running p')⟩ := by
  have hrest : Run step env body ⟨c.world, Function.update c.slot t (.running (body t))⟩ _ :=
    h.run rfl (Function.update_self ..)
  rw [Function.update_idem] at hrest
  exact RunWhile.trans (.tail (.refl c trivial) (.spawn c t hslot) trivial) hrest

/-- What a thread can do up to its end. -/
theorem Advance.run_finish {w' : World S σ} {a : α} {c : Config S σ α}
    (h : Advance step t c.world p w' (.ret a)) (hslot : c.slot t = .running p) :
    Run step env body c ⟨w', Function.update c.slot t (.done a)⟩ := by
  have hstep : PoolStep step env body ⟨w', Function.update c.slot t (.running (.ret a))⟩ (.finish t)
      ⟨w', Function.update (Function.update c.slot t (.running (.ret a))) t (.done a)⟩ :=
    .finish ⟨w', _⟩ t a (Function.update_self ..)
  rw [Function.update_idem] at hstep
  exact .tail (h.run rfl hslot) hstep trivial

end Advance

section ParallelRule

variable {S : Sig} {σ α : Type} {step : σ → (o : S.Op) → S.Res o → σ → Prop}
  {env : σ → σ → Prop} {body : ℕ → Program S α} {C : Contract S σ}
  {Q : ℕ → α → World S σ → Prop} {A : ℕ → Prop} {W : World S σ → Prop}
  {t : ℕ}

/-- Among the active threads, each one's guarantee is within every other one's rely, as long as it
leads to a world of the kind `W`; and so is what the environment does, which also keeps the
invariant. -/
structure Contract.CompatibleWhile (C : Contract S σ) (W : World S σ → Prop) (env : σ → σ → Prop)
    (A : ℕ → Prop) : Prop where
  guar_rely : ∀ t u, A t → A u → t ≠ u → ∀ w e w', C.inv w → C.inv w' → W w' → C.guar t w e w' →
    C.rely u w w'
  env_inv : ∀ w s', C.inv w → env w.state s' → C.inv ⟨s', w.trace⟩
  env_rely : ∀ u, A u → ∀ w s', C.inv w → env w.state s' → C.rely u w ⟨s', w.trace⟩

/-- Each thread's guarantee is within every other one's rely, wherever it leads. -/
abbrev Contract.Compatible (C : Contract S σ) (env : σ → σ → Prop) (A : ℕ → Prop) : Prop :=
  C.CompatibleWhile (fun _ => True) env A

/-- The invariant holds and every active thread that is in flight or has returned is safe. -/
structure PoolSafe (step : σ → (o : S.Op) → S.Res o → σ → Prop) (C : Contract S σ)
    (Q : ℕ → α → World S σ → Prop) (A : ℕ → Prop) (c : Config S σ α) : Prop where
  inv : C.inv c.world
  running : ∀ t p, A t → c.slot t = .running p → Safe step t C (Q t) p c.world
  done : ∀ t a, A t → c.slot t = .done a → Safe step t C (Q t) (.ret a) c.world

/-- Every operation of an active thread meets its guarantee. -/
theorem PoolSafe.guarantee {c c' : Config S σ α} {e : Event S} (h : PoolSafe step C Q A c)
    (ht : A t) (hs : PoolStep step env body c (.call t e) c') :
    C.guar t c.world e c'.world := by
  cases hs with
  | call t o k r s' hslot hstep =>
    exact (h.running t _ ht hslot c.world (C.rely_refl t c.world) h.inv r s' hstep).1

/-- An active thread is about to meet its guarantee, whatever answer its next operation gets. -/
theorem PoolSafe.next {c : Config S σ α} {o : S.Op} {r : S.Res o} {s' : σ}
    (h : PoolSafe step C Q A c) (ht : A t) (ho : c.next t = some o) (hs : step c.world.state o r s') :
    C.guar t c.world ⟨o, r⟩ (c.world.after t ⟨o, r⟩ s') := by
  obtain ⟨k, hslot⟩ := Config.next_eq_some ho
  exact (h.running t _ ht hslot c.world (C.rely_refl t c.world) h.inv r s' hs).1

/-- A step of an active thread, or of the environment, keeps the pool safe. -/
theorem PoolSafe.preserved {c c' : Config S σ α} {a : Action S} (hC : C.CompatibleWhile W env A)
    (hbody : ∀ t, A t → c.slot t = .idle → Safe step t C (Q t) (body t) c.world)
    (h : PoolSafe step C Q A c) (hs : PoolStep step env body c a c') (hW : W c'.world)
    (ha : ∀ t, a.thread = some t → A t) : PoolSafe step C Q A c' := by
  cases hs with
  | spawn t hidle =>
    refine ⟨h.inv, fun u p hu hp => ?_, fun u b hu hb => ?_⟩
    · by_cases hut : u = t
      · subst hut
        simp only [Function.update_self, Slot.running.injEq] at hp
        subst hp
        exact hbody u hu hidle
      · simp only [Function.update_of_ne hut] at hp
        exact h.running u p hu hp
    · by_cases hut : u = t
      · subst hut
        simp at hb
      · simp only [Function.update_of_ne hut] at hb
        exact h.done u b hu hb
  | call t o k r s' hslot hstep =>
    obtain ⟨hg, hi, hk⟩ := h.running t _ (ha t rfl) hslot c.world (C.rely_refl t _) h.inv r s' hstep
    have hrely : ∀ u, A u → u ≠ t → C.rely u c.world (c.world.after t ⟨o, r⟩ s') :=
      fun u hu hut => hC.guar_rely t u (ha t rfl) hu (Ne.symm hut) _ _ _ h.inv hi hW hg
    refine ⟨hi, fun u p hu hp => ?_, fun u b hu hb => ?_⟩
    · by_cases hut : u = t
      · subst hut
        simp only [Function.update_self, Slot.running.injEq] at hp
        subst hp
        exact hk
      · simp only [Function.update_of_ne hut] at hp
        exact Safe.stable _ _ _ _ (h.running u p hu hp) (hrely u hu hut) hi
    · by_cases hut : u = t
      · subst hut
        simp at hb
      · simp only [Function.update_of_ne hut] at hb
        exact Safe.stable _ _ _ _ (h.done u b hu hb) (hrely u hu hut) hi
  | finish t b hslot =>
    refine ⟨h.inv, fun u p hu hp => ?_, fun u b' hu hb => ?_⟩
    · by_cases hut : u = t
      · subst hut
        simp at hp
      · simp only [Function.update_of_ne hut] at hp
        exact h.running u p hu hp
    · by_cases hut : u = t
      · subst hut
        simp only [Function.update_self, Slot.done.injEq] at hb
        subst hb
        exact h.running u _ hu hslot
      · simp only [Function.update_of_ne hut] at hb
        exact h.done u b' hu hb
  | env s' henv =>
    have hi := hC.env_inv c.world s' h.inv henv
    refine ⟨hi, fun u p hu hp => ?_, fun u b hu hb => ?_⟩
    · exact Safe.stable _ _ _ _ (h.running u p hu hp) (hC.env_rely u hu _ s' h.inv henv) hi
    · exact Safe.stable _ _ _ _ (h.done u b hu hb) (hC.env_rely u hu _ s' h.inv henv) hi

/-- **The parallel rule.** A run in which only active threads move keeps the pool safe, if the
contract is compatible for the worlds that the run passes through. -/
theorem PoolSafe.runWhile {ok : Config S σ α → Prop} {c c' : Config S σ α}
    (hC : C.CompatibleWhile W env A) (hW : ∀ c, ok c → W c.world)
    (hbody : ∀ t w, A t → C.inv w → Safe step t C (Q t) (body t) w)
    (hA : ∀ c a c', ok c → ok c' → PoolStep step env body c a c' → ∀ t, a.thread = some t → A t)
    (h : PoolSafe step C Q A c) (hrun : RunWhile step env body ok c c') :
    PoolSafe step C Q A c' ∧ ok c' := by
  induction hrun with
  | refl hok => exact ⟨h, hok⟩
  | tail _ hs hok ih =>
    obtain ⟨ih, hok₁⟩ := ih
    exact ⟨ih.preserved hC (fun t ht _ => hbody t _ ht ih.inv) hs (hW _ hok) (hA _ _ _ hok₁ hok hs), hok⟩

/-- The parallel rule for a contract that is compatible everywhere. -/
theorem PoolSafe.run {ok : Config S σ α → Prop} {c c' : Config S σ α} (hC : C.Compatible env A)
    (hbody : ∀ t w, A t → C.inv w → Safe step t C (Q t) (body t) w)
    (hA : ∀ c a c', ok c → ok c' → PoolStep step env body c a c' → ∀ t, a.thread = some t → A t)
    (h : PoolSafe step C Q A c) (hrun : RunWhile step env body ok c c') :
    PoolSafe step C Q A c' ∧ ok c' :=
  PoolSafe.runWhile hC (fun _ _ => trivial) hbody hA h hrun

/-- What every guarantee and every step of the environment keeps, a run keeps. -/
theorem PoolSafe.rel {ok : Config S σ α → Prop} {T : World S σ → World S σ → Prop}
    {c c' : Config S σ α} (hC : C.Compatible env A)
    (hbody : ∀ t w, A t → C.inv w → Safe step t C (Q t) (body t) w)
    (hA : ∀ c a c', ok c → ok c' → PoolStep step env body c a c' → ∀ t, a.thread = some t → A t)
    (hrefl : ∀ w, T w w) (htrans : ∀ w₁ w₂ w₃, T w₁ w₂ → T w₂ w₃ → T w₁ w₃)
    (hguar : ∀ t w e w', C.guar t w e w' → T w w')
    (henv : ∀ w s', C.inv w → env w.state s' → T w ⟨s', w.trace⟩)
    (h : PoolSafe step C Q A c) (hrun : RunWhile step env body ok c c') : T c.world c'.world := by
  induction hrun with
  | refl _ => exact hrefl _
  | @tail c₁ c₂ a hrun₁ hs hok ih =>
    obtain ⟨h₁, hok₁⟩ := PoolSafe.run hC hbody hA h hrun₁
    refine htrans _ _ _ ih ?_
    have hthread := hA _ _ _ hok₁ hok hs
    cases hs with
    | spawn t hidle => exact hrefl _
    | call t o k r s' hslot hstep =>
      have hcall : PoolStep step env body c₁ (.call t ⟨o, r⟩) _ := .call c₁ t o k r s' hslot hstep
      exact hguar t _ _ _ (h₁.guarantee (hthread t rfl) hcall)
    | finish t b hslot => exact hrefl _
    | env s' henv' => exact henv _ s' h₁.inv henv'

/-- Before any thread is spawned, the pool is safe when the invariant holds. -/
theorem PoolSafe.start {s : σ} (h : C.inv ⟨s, []⟩) :
    PoolSafe step C Q A (Config.start s : Config S σ α) :=
  ⟨h, fun _ _ _ hp => by simp [Config.start] at hp, fun _ _ _ hb => by simp [Config.start] at hb⟩

/-- The parallel rule for runs from the start, where a thread that starts has not done anything yet. -/
theorem PoolSafe.run_from_start {s : σ} {c : Config S σ α} (hC : C.Compatible env A)
    (hbody : ∀ t w, A t → C.inv w → (∀ e, (t, e) ∉ w.trace) → Safe step t C (Q t) (body t) w)
    (hA : ∀ t, A t) (hs : C.inv ⟨s, []⟩) (hrun : Run step env body (.start s) c) :
    PoolSafe step C Q A c := by
  induction hrun with
  | refl _ => exact .start hs
  | tail hrun hstep _ ih =>
    exact ih.preserved hC (fun t ht hidle => hbody t _ ht ih.inv (hrun.no_events_of_idle hidle)) hstep
      trivial fun t _ => hA t

/-- A thread that has returned did so in a state its postcondition describes, and still is
in one. -/
theorem PoolSafe.post {c : Config S σ α} {a : α} (h : PoolSafe step C Q A c) (ht : A t)
    (hslot : c.slot t = .done a) : Q t a c.world :=
  h.done t a ht hslot c.world (C.rely_refl t _) h.inv

end ParallelRule

section Strengthening

variable {S : Sig} {σ α : Type} {step : σ → (o : S.Op) → S.Res o → σ → Prop}
  {env : σ → σ → Prop} {body : ℕ → Program S α} {C : Contract S σ} {K : World S σ → Prop}

/-- The contract with a stronger invariant. -/
def Contract.also (C : Contract S σ) (K : World S σ → Prop) : Contract S σ :=
  { C with inv := fun w => C.inv w ∧ K w }

/-- From some point on a run may have a stronger invariant: what every thread's guarantee
keeps can be added to the invariant of a program that is safe already. -/
theorem Safe.also {t : ℕ} {Q : α → World S σ → Prop} {p : Program S α} {w : World S σ}
    (hK : ∀ w e w', C.guar t w e w' → K w → K w') (h : Safe step t C Q p w) :
    Safe step t (C.also K) Q p w :=
  h.transfer (fun _ hi => hi.1) (fun _ _ hr => hr)
    (fun _ _ _ hi hg hi' => ⟨hg, hi', hK _ _ _ hg hi.2⟩) fun _ _ _ hq => hq

/-- An invariant that the environment keeps can be added to a compatible contract. -/
theorem Contract.Compatible.also {A : ℕ → Prop} (h : C.Compatible env A)
    (henv : ∀ w s', C.inv w → env w.state s' → K w → K ⟨s', w.trace⟩) :
    (C.also K).Compatible env A where
  guar_rely t u ht hu hne w e w' hi hi' hW := h.guar_rely t u ht hu hne w e w' hi.1 hi'.1 hW
  env_inv w s' hi he := ⟨h.env_inv w s' hi.1 he, henv w s' hi.1 he hi.2⟩
  env_rely u hu w s' hi he := h.env_rely u hu w s' hi.1 he

/-- One thread may get another postcondition, if what is left of it is safe for it. -/
theorem PoolSafe.also {A : ℕ → Prop} {Q Q' : ℕ → α → World S σ → Prop} {c : Config S σ α} {t : ℕ}
    (h : PoolSafe step C Q A c) (hK : ∀ u w e w', C.guar u w e w' → K w → K w')
    (hc : K c.world) (hQ : ∀ u, u ≠ t → Q' u = Q u)
    (hrunning : ∀ p, c.slot t = .running p → Safe step t (C.also K) (Q' t) p c.world)
    (hdone : ∀ a, c.slot t = .done a → Safe step t (C.also K) (Q' t) (.ret a) c.world) :
    PoolSafe step (C.also K) Q' A c where
  inv := ⟨h.inv, hc⟩
  running u p hu hp := by
    by_cases hut : u = t
    · subst hut
      exact hrunning p hp
    rw [hQ u hut]
    exact (h.running u p hu hp).also (hK u)
  done u a hu ha := by
    by_cases hut : u = t
    · subst hut
      exact hdone a ha
    rw [hQ u hut]
    exact (h.done u a hu ha).also (hK u)

end Strengthening

end LustreCsi.Computation
