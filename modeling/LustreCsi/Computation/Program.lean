import Mathlib.Data.List.Basic
import Mathlib.Tactic.Common

/-!
# Programs over operations, and their sequential runs

A `Program S α` performs operations of the signature `S` and returns an `α`. What an operation
answers is given by a step relation `step s o r s'` (in state `s`, operation `o` may answer `r` and
leave `s'`), so that one program is run against every outcome its environment can produce.

* `Exec step p s tr a s'`: run alone from `s`, `p` may return `a` in state `s'` after the operations
  and answers listed in `tr`; `Reaches step p s a s'`: some run does.
* `Ensures step φ p Q s`: no run gets stuck, and every run ends in `Q a s'` with operations that
  satisfy `φ` only.
* `p.All φ`: every operation that `p` can perform, whatever the answers, satisfies `φ`.
* `play exec p cs s`: the run determined by a list of choices; `play_exec` says it is a run.
-/

set_option autoImplicit false

namespace LustreCsi.Computation

/-- A signature: the operations and, for each, the type of its answers. -/
structure Sig where
  Op : Type
  Res : Op → Type

/-- An operation that was performed, with its answer. -/
abbrev Event (S : Sig) : Type := Σ o : S.Op, S.Res o

/-- A program is a finitely deep tree: it returns, or performs an operation and goes on
with a program that depends on the answer. -/
inductive Program (S : Sig) (α : Type) : Type where
  | ret (a : α)
  | call (o : S.Op) (k : S.Res o → Program S α)

namespace Program

variable {S : Sig} {α β γ : Type}
  {φ : S.Op → Prop}

/-- Run `p`, then `f` on what it returned. -/
def bind : Program S α → (α → Program S β) → Program S β
  | .ret a, f => f a
  | .call o k, f => .call o fun r => (k r).bind f

instance : Monad (Program S) where
  pure := .ret
  bind := .bind

/-- The program that performs one operation and returns its answer. -/
def perform (o : S.Op) : Program S (S.Res o) := .call o .ret

/-- Returning a value is the program that has returned. -/
@[simp] theorem pure_eq (a : α) : (pure a : Program S α) = .ret a := rfl

/-- A program that has returned hands its value on. -/
@[simp] theorem ret_bind (a : α) (f : α → Program S β) : (Program.ret a >>= f) = f a := rfl

/-- A program that calls first calls first also as a part of another one. -/
@[simp] theorem call_bind (o : S.Op) (k : S.Res o → Program S α) (f : α → Program S β) :
    (Program.call o k >>= f) = .call o fun r => k r >>= f := rfl

/-- One operation and what follows is a call. -/
@[simp] theorem perform_bind (o : S.Op) (f : S.Res o → Program S β) :
    (perform o >>= f) = .call o f := rfl

/-- Sequencing is associative. -/
@[simp] theorem bind_assoc (p : Program S α) (f : α → Program S β) (g : β → Program S γ) :
    ((p >>= f) >>= g) = (p >>= fun a => f a >>= g) := by
  induction p with
  | ret a => rfl
  | call o k ih =>
    simp only [call_bind]
    exact congrArg _ (funext ih)

/-- Whatever the answers, the program performs only operations in `φ`. -/
def All (φ : S.Op → Prop) : Program S α → Prop
  | .ret _ => True
  | .call o k => φ o ∧ ∀ r, (k r).All φ

/-- A program without operations performs only operations with the property. -/
theorem All.pure {a : α} : (Pure.pure a : Program S α).All φ := trivial

/-- A single operation with the property. -/
theorem All.perform {o : S.Op} (h : φ o) : (Program.perform o).All φ :=
  ⟨h, fun _ => trivial⟩

/-- A sequence whose parts perform only operations with the property does the same. -/
theorem All.bind {p : Program S α} {f : α → Program S β} (hp : p.All φ) (hf : ∀ a, (f a).All φ) :
    (p >>= f).All φ := by
  induction p with
  | ret a => exact hf a
  | call o k ih => exact ⟨hp.1, fun r => ih r (hp.2 r)⟩

/-- The trivial property holds of the operations of every program. -/
theorem All.trivial (p : Program S α) : p.All fun _ => True := by
  induction p with
  | ret a => exact True.intro
  | call o k ih => exact ⟨True.intro, ih⟩

/-- The property of the operations may be weakened. -/
theorem All.mono {φ' : S.Op → Prop} {p : Program S α} (hp : p.All φ) (h : ∀ o, φ o → φ' o) :
    p.All φ' := by
  induction p with
  | ret a => trivial
  | call o k ih => exact ⟨h o hp.1, fun r => ih r (hp.2 r)⟩

/-- Whatever the answers, the program does not return an `a` with `Q a` before an event in `ε`. -/
def Must (ε : Event S → Prop) (Q : α → Prop) : Program S α → Prop
  | .ret a => ¬Q a
  | .call o k => ∀ r, ε ⟨o, r⟩ ∨ (k r).Must ε Q

/-- A result that is excluded needs no event. -/
theorem Must.pure {ε : Event S → Prop} {Q : α → Prop} {a : α} (h : ¬Q a) :
    (Pure.pure a : Program S α).Must ε Q := h

/-- A single operation whose results give the event. -/
theorem Must.perform {ε : Event S → Prop} {o : S.Op} {Q : S.Res o → Prop}
    (h : ∀ r, Q r → ε ⟨o, r⟩) : (Program.perform o).Must ε Q := fun r => by
  by_cases hr : ε ⟨o, r⟩
  · exact .inl hr
  · exact .inr fun hQ => hr (h r hQ)

/-- The first part gives the event, or the second one does. -/
theorem Must.bind {ε : Event S → Prop} {Q : α → Prop} {R : β → Prop} {p : Program S α}
    {f : α → Program S β} (hp : p.Must ε Q) (hf : ∀ a, ¬Q a → (f a).Must ε R) :
    (p >>= f).Must ε R := by
  induction p with
  | ret a => exact hf a hp
  | call o k ih => exact fun r => (hp r).imp_right (ih r)

/-- A first part that may return anything. -/
theorem Must.then {ε : Event S → Prop} {R : β → Prop} {p : Program S α} {f : α → Program S β}
    (hf : ∀ a, (f a).Must ε R) : (p >>= f).Must ε R := by
  induction p with
  | ret a => exact hf a
  | call o k ih => exact fun r => .inr (ih r)

/-- Perform every operation of a program by a program over another signature. -/
def translate {T : Sig} (f : (o : S.Op) → Program T (S.Res o)) : Program S α → Program T α
  | .ret a => .ret a
  | .call o k => f o >>= fun r => (k r).translate f

end Program

section Sequential

variable {S : Sig} {σ α β : Type} (step : σ → (o : S.Op) → S.Res o → σ → Prop) {φ : S.Op → Prop}
  {a : α} {Q : α → σ → Prop} {s s' : σ}

/-- Run alone from `s`, the program may return `a` in state `s'`; the list holds the
operations it performed with their answers, first one first. -/
def Exec : Program S α → σ → List (Event S) → α → σ → Prop
  | .ret b, s, tr, a, s' => tr = [] ∧ a = b ∧ s' = s
  | .call o k, s, tr, a, s' =>
    ∃ r s₁ tr₁, step s o r s₁ ∧ tr = ⟨o, r⟩ :: tr₁ ∧ Exec (k r) s₁ tr₁ a s'

/-- Some run of the program from `s` returns `a` in state `s'`. -/
def Reaches (p : Program S α) (s : σ) (a : α) (s' : σ) : Prop := ∃ tr, Exec step p s tr a s'

/-- Given the right answers, the program performs the operations of the list and returns `a`. -/
abbrev Yields (p : Program S α) (tr : List (Event S)) (a : α) : Prop :=
  Exec (fun (_ : Unit) _ _ _ => True) p () tr a ()

variable {step}

/-- A run of a sequence is a run of its first part followed by one of its second. -/
theorem exec_bind {p : Program S α} {f : α → Program S β} {tr : List (Event S)} {b : β} :
    Exec step (p >>= f) s tr b s' ↔
      ∃ tr₁ a s₁ tr₂, Exec step p s tr₁ a s₁ ∧ Exec step (f a) s₁ tr₂ b s' ∧ tr = tr₁ ++ tr₂ := by
  induction p generalizing s tr with
  | ret a =>
    rw [Program.ret_bind]
    constructor
    · intro h
      exact ⟨[], a, s, tr, ⟨rfl, rfl, rfl⟩, h, rfl⟩
    · rintro ⟨tr₁, a', s₁, tr₂, ⟨rfl, rfl, rfl⟩, h, rfl⟩
      exact h
  | call o k ih =>
    rw [Program.call_bind]
    constructor
    · rintro ⟨r, s₁, tr₁, hstep, rfl, h⟩
      obtain ⟨tr₂, a, s₂, tr₃, hp, hf, rfl⟩ := (ih r).mp h
      exact ⟨⟨o, r⟩ :: tr₂, a, s₂, tr₃, ⟨r, s₁, tr₂, hstep, rfl, hp⟩, hf, rfl⟩
    · rintro ⟨tr₁, a, s₁, tr₂, ⟨r, s₂, tr₃, hstep, rfl, hp⟩, hf, rfl⟩
      exact ⟨r, s₂, tr₃ ++ tr₂, hstep, rfl, (ih r).mpr ⟨tr₃, a, s₁, tr₂, hp, hf, rfl⟩⟩

/-- A program that has returned reaches its value in the same state. -/
theorem Reaches.ret (a : α) (s : σ) : Reaches step (pure a : Program S α) s a s :=
  ⟨[], rfl, rfl, rfl⟩

/-- A step and what is reached after it. -/
theorem Reaches.call {o : S.Op} {k : S.Res o → Program S α} {r : S.Res o} {s s₁ s' : σ} {a : α}
    (hs : step s o r s₁) (h : Reaches step (k r) s₁ a s') : Reaches step (.call o k) s a s' := by
  obtain ⟨tr, h⟩ := h
  exact ⟨_, r, s₁, tr, hs, rfl, h⟩

/-- What a sequence reaches is reached through the end of its first part. -/
theorem Reaches.bind {p : Program S α} {f : α → Program S β} {s₁ : σ} {b : β}
    (hp : Reaches step p s a s₁) (hf : Reaches step (f a) s₁ b s') :
    Reaches step (p >>= f) s b s' := by
  obtain ⟨tr₁, hp⟩ := hp
  obtain ⟨tr₂, hf⟩ := hf
  exact ⟨_, exec_bind.mpr ⟨tr₁, a, s₁, tr₂, hp, hf, rfl⟩⟩

/-- A run performs only operations that its program can perform. -/
theorem Exec.mem_all {p : Program S α} (hp : p.All φ) {tr : List (Event S)}
    (h : Exec step p s tr a s') : ∀ e ∈ tr, φ e.1 := by
  induction p generalizing s tr with
  | ret b =>
    obtain ⟨rfl, -, -⟩ := h
    simp
  | call o k ih =>
    obtain ⟨r, s₁, tr₁, -, rfl, hk⟩ := h
    exact List.forall_mem_cons.mpr ⟨hp.1, ih r (hp.2 r) hk⟩

/-- A run whose operations, with their answers, all keep a transitive relation between states. -/
theorem Exec.rel_of_mem {R : σ → σ → Prop} (hrefl : ∀ s, R s s)
    (htrans : ∀ s₁ s₂ s₃, R s₁ s₂ → R s₂ s₃ → R s₁ s₃) {p : Program S α} {tr : List (Event S)}
    (h : Exec step p s tr a s') (hstep : ∀ e ∈ tr, ∀ s s', step s e.1 e.2 s' → R s s') : R s s' := by
  induction p generalizing s tr with
  | ret b =>
    obtain ⟨-, -, rfl⟩ := h
    exact hrefl s'
  | call o k ih =>
    obtain ⟨r, s₁, tr₁, hs, rfl, hk⟩ := h
    obtain ⟨hfirst, hrest⟩ := List.forall_mem_cons.mp hstep
    exact htrans _ _ _ (hfirst s s₁ hs) (ih r hk hrest)

/-- A run of a program whose operations all keep a transitive relation between states. -/
theorem Exec.rel {R : σ → σ → Prop} (hrefl : ∀ s, R s s)
    (htrans : ∀ s₁ s₂ s₃, R s₁ s₂ → R s₂ s₃ → R s₁ s₃)
    (hstep : ∀ s o r s', φ o → step s o r s' → R s s') {p : Program S α} (hp : p.All φ)
    {tr : List (Event S)} (h : Exec step p s tr a s') : R s s' :=
  h.rel_of_mem hrefl htrans fun e he s s' hs => hstep s e.1 e.2 s' (Exec.mem_all hp h e he) hs

/-- A run that returns such a value has such an event. -/
theorem Exec.exists_mem {ε : Event S → Prop} {Q : α → Prop} {p : Program S α} (hp : p.Must ε Q)
    {tr : List (Event S)} (h : Exec step p s tr a s') (ha : Q a) :
    ∃ e ∈ tr, ε e := by
  induction p generalizing s tr with
  | ret b =>
    obtain ⟨-, rfl, -⟩ := h
    exact absurd ha hp
  | call o k ih =>
    obtain ⟨r, s₁, tr₁, -, rfl, hk⟩ := h
    rcases hp r with he | hk'
    · exact ⟨_, List.mem_cons_self, he⟩
    obtain ⟨e, hmem, he⟩ := ih r hk' hk
    exact ⟨e, List.mem_cons_of_mem _ hmem, he⟩

/-- The first operation of a run. -/
theorem Exec.cons {p : Program S α} {s : σ} {e : Event S} {tr : List (Event S)} {a : α} {s' : σ}
    (h : Exec step p s (e :: tr) a s') :
    ∃ s₁ p', step s e.1 e.2 s₁ ∧ Exec step p' s₁ tr a s' := by
  cases p with
  | ret b =>
    obtain ⟨hcontra, -, -⟩ := h
    cases hcontra
  | call o k =>
    obtain ⟨r, s₁, tr₁, hs, htr, hk⟩ := h
    cases htr
    exact ⟨s₁, k r, hs, hk⟩

/-- What comes after the first operations of a run is a run of the rest of the program. -/
theorem Exec.drop {p : Program S α} (tr₁ : List (Event S)) {tr₂ : List (Event S)}
    (h : Exec step p s (tr₁ ++ tr₂) a s') : ∃ p' s₁, Exec step p' s₁ tr₂ a s' := by
  induction tr₁ generalizing p s with
  | nil => exact ⟨p, s, h⟩
  | cons e tr₁ ih =>
    obtain ⟨s₁, p', -, hk⟩ := Exec.cons h
    exact ih hk

/-- A run is one for every larger step relation. -/
theorem Exec.mono {step' : σ → (o : S.Op) → S.Res o → σ → Prop}
    (hstep : ∀ s o r s', step s o r s' → step' s o r s') {p : Program S α} {tr : List (Event S)}
    (h : Exec step p s tr a s') :
    Exec step' p s tr a s' := by
  induction p generalizing s tr with
  | ret b => exact h
  | call o k ih =>
    obtain ⟨r, s₁, tr₁, hs, htr, hk⟩ := h
    exact ⟨r, s₁, tr₁, hstep _ _ _ _ hs, htr, ih r hk⟩

variable (step) in
/-- Total correctness: no run from `s` is ever without a next step, its operations satisfy `φ`, and it ends
as `Q` says. -/
def Ensures (φ : S.Op → Prop) : Program S α → (α → σ → Prop) → σ → Prop
  | .ret a, Q, s => Q a s
  | .call o k, Q, s =>
    φ o ∧ (∃ r s', step s o r s') ∧ ∀ r s', step s o r s' → Ensures φ (k r) Q s'

/-- A program that has returned ensures what holds of its value. -/
theorem Ensures.pure (h : Q a s) :
    Ensures step φ (Pure.pure a : Program S α) Q s := h

/-- An allowed operation that can be performed ensures what all its outcomes have in common. -/
theorem Ensures.perform {o : S.Op} {Q : S.Res o → σ → Prop} (ho : φ o)
    (hsome : ∃ r s', step s o r s') (hall : ∀ r s', step s o r s' → Q r s') :
    Ensures step φ (Program.perform o) Q s := ⟨ho, hsome, hall⟩

/-- A sequence ensures what its second part ensures from whatever the first one ensures. -/
theorem Ensures.bind {p : Program S α} {f : α → Program S β} {R : β → σ → Prop}
    (hp : Ensures step φ p Q s) (hf : ∀ a s', Q a s' → Ensures step φ (f a) R s') :
    Ensures step φ (p >>= f) R s := by
  induction p generalizing s with
  | ret a => exact hf a s hp
  | call o k ih => exact ⟨hp.1, hp.2.1, fun r s' hs => ih r (hp.2.2 r s' hs)⟩

/-- The postcondition may be weakened. -/
theorem Ensures.mono {p : Program S α} {Q' : α → σ → Prop} (hp : Ensures step φ p Q s)
    (hQ : ∀ a s', Q a s' → Q' a s') : Ensures step φ p Q' s := by
  induction p generalizing s with
  | ret a => exact hQ a s hp
  | call o k ih => exact ⟨hp.1, hp.2.1, fun r s' hs => ih r (hp.2.2 r s' hs)⟩

/-- What is known of all runs may be added to what is ensured. -/
theorem Ensures.with_exec {p : Program S α} {Q' : α → σ → Prop} (hp : Ensures step φ p Q s)
    (h : ∀ tr a s', Exec step p s tr a s' → Q a s' → Q' a s') :
    Ensures step φ p Q' s := by
  induction p generalizing s with
  | ret a => exact h [] a s ⟨rfl, rfl, rfl⟩ hp
  | call o k ih =>
    refine ⟨hp.1, hp.2.1, fun r s₁ hs => ih r (hp.2.2 r s₁ hs) fun tr a s' hk => ?_⟩
    exact h (⟨o, r⟩ :: tr) a s' ⟨r, s₁, tr, hs, rfl, hk⟩

/-- What is ensured holds of some run. -/
theorem Ensures.reaches {p : Program S α} (hp : Ensures step φ p Q s) :
    ∃ a s', Reaches step p s a s' ∧ Q a s' := by
  induction p generalizing s with
  | ret a => exact ⟨a, s, .ret a s, hp⟩
  | call o k ih =>
    obtain ⟨-, ⟨r, s₁, hs⟩, hrest⟩ := hp
    obtain ⟨a, s', hk, hQ⟩ := ih r (hrest r s₁ hs)
    exact ⟨a, s', .call hs hk, hQ⟩

/-- When every operation has an outcome, every program has a run. -/
theorem exists_reaches (htotal : ∀ s o, ∃ r s', step s o r s') (p : Program S α) (s : σ) :
    ∃ a s', Reaches step p s a s' := by
  induction p generalizing s with
  | ret a => exact ⟨a, s, .ret a s⟩
  | call o k ih =>
    obtain ⟨r, s₁, hs⟩ := htotal s o
    obtain ⟨a, s', hk⟩ := ih r s₁
    exact ⟨a, s', .call hs hk⟩

end Sequential

section Eval

variable {S : Sig} {σ α β : Type} (answer : σ → (o : S.Op) → Option (S.Res o × σ))

/-- The run against an environment that has one answer to each operation, or none. -/
def Program.eval : Program S α → σ → Option (α × σ)
  | .ret a, s => some (a, s)
  | .call o k, s => (answer s o).bind fun rs => (k rs.1).eval rs.2

/-- Evaluating a program that has returned. -/
@[simp] theorem Program.eval_ret (a : α) (s : σ) :
    (Program.ret a : Program S α).eval answer s = some (a, s) := rfl

/-- Evaluating a call: the answer is asked for, and the rest is evaluated with it. -/
@[simp] theorem Program.eval_call (o : S.Op) (k : S.Res o → Program S α) (s : σ) :
    (Program.call o k).eval answer s = (answer s o).bind fun rs => (k rs.1).eval answer rs.2 := rfl

/-- Evaluating a sequence. -/
@[simp] theorem Program.eval_bind (p : Program S α) (f : α → Program S β) (s : σ) :
    (p >>= f).eval answer s = (p.eval answer s).bind fun rs => (f rs.1).eval answer rs.2 := by
  induction p generalizing s with
  | ret a => rfl
  | call o k ih =>
    rw [call_bind]
    simp only [eval, ih, Option.bind_assoc]

end Eval

section Play

variable {S : Sig} {σ χ α : Type} (exec : σ → (o : S.Op) → χ → Option (S.Res o × σ))

/-- The step relation of an environment that is a function of its choice. -/
def stepOf (s : σ) (o : S.Op) (r : S.Res o) (s' : σ) : Prop := ∃ c, exec s o c = some (r, s')

/-- The run that a list of choices determines; `none` when a choice does not fit the
operation, or too few or too many choices are given. -/
def play : Program S α → List χ → σ → Option (α × σ)
  | .ret a, [], s => some (a, s)
  | .ret _, _ :: _, _ => none
  | .call _ _, [], _ => none
  | .call o k, c :: cs, s =>
    match exec s o c with
    | none => none
    | some (r, s') => play (k r) cs s'

/-- A played run is one of the program's runs. -/
theorem play_exec {p : Program S α} {cs : List χ} {s : σ} {a : α} {s' : σ}
    (h : play exec p cs s = some (a, s')) : ∃ tr, Exec (stepOf exec) p s tr a s' := by
  induction p generalizing cs s with
  | ret b =>
    cases cs with
    | nil =>
      simp only [play, Option.some.injEq, Prod.mk.injEq] at h
      exact ⟨[], rfl, h.1.symm, h.2.symm⟩
    | cons c cs => simp [play] at h
  | call o k ih =>
    cases cs with
    | nil => simp [play] at h
    | cons c cs =>
      simp only [play] at h
      split at h
      · simp at h
      rename_i r s₁ hc
      obtain ⟨tr, htr⟩ := ih r h
      exact ⟨⟨o, r⟩ :: tr, r, s₁, tr, ⟨c, hc⟩, rfl, htr⟩

/-- The trace of the run that a list of choices determines, with its result and end. -/
def playTrace : Program S α → List χ → σ → Option (List (Event S) × α × σ)
  | .ret a, [], s => some ([], a, s)
  | .ret _, _ :: _, _ => none
  | .call _ _, [], _ => none
  | .call o k, c :: cs, s =>
    match exec s o c with
    | none => none
    | some (r, s') => (playTrace (k r) cs s').map fun x => (⟨o, r⟩ :: x.1, x.2)

/-- A played run is a run with the trace that was recorded. -/
theorem playTrace_exec {p : Program S α} {cs : List χ} {s : σ} {tr : List (Event S)} {a : α} {s' : σ}
    (h : playTrace exec p cs s = some (tr, a, s')) : Exec (stepOf exec) p s tr a s' := by
  induction p generalizing cs s tr with
  | ret b =>
    cases cs with
    | nil =>
      simp only [playTrace, Option.some.injEq, Prod.mk.injEq] at h
      obtain ⟨rfl, rfl, rfl⟩ := h
      exact ⟨rfl, rfl, rfl⟩
    | cons c cs => simp [playTrace] at h
  | call o k ih =>
    cases cs with
    | nil => simp [playTrace] at h
    | cons c cs =>
      simp only [playTrace] at h
      split at h
      · simp at h
      rename_i r s₁ hc
      obtain ⟨⟨tr', a', s₂⟩, hplay, heq⟩ := Option.map_eq_some_iff.mp h
      simp only [Prod.mk.injEq] at heq
      obtain ⟨rfl, rfl, rfl⟩ := heq
      exact ⟨r, s₁, tr', ⟨c, hc⟩, rfl, ih r hplay⟩

end Play

end LustreCsi.Computation
