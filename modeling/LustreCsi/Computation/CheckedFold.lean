import Mathlib.Data.List.Basic
import Mathlib.Tactic.Common

/-!
# Loops over lists

A loop whose body may end it with an error is `foldlM` in `Except`; a loop that appends something
for some of the elements collects these (`foldl_collect`).
-/

set_option autoImplicit false

namespace LustreCsi.Computation

variable {α β ε : Type} {f : β → α → Except ε β}
  {l : List α} {b r : β}

/-- A fold that succeeds over a list has succeeded on its head and over its tail. -/
theorem foldlM_cons_eq_ok {a : α} :
    (a :: l).foldlM f b = .ok r ↔ ∃ b', f b a = .ok b' ∧ l.foldlM f b' = .ok r := by
  rw [List.foldlM_cons]
  cases hf : f b a with
  | error err | ok b' => simp [bind, Except.bind]

/-- The fold over the empty list returns what it started with. -/
theorem foldlM_nil_eq_ok : ([] : List α).foldlM f b = .ok r ↔ r = b := by
  rw [List.foldlM_nil]
  exact ⟨fun h => (Except.ok.inj h).symm, fun h => by rw [h]; rfl⟩

/-- What holds before a loop and is kept by its iterations holds after it. -/
theorem foldlM_invariant (I : List α → β → Prop)
    (hstep : ∀ a l b b', I (a :: l) b → f b a = .ok b' → I l b') (hb : I l b)
    (h : l.foldlM f b = .ok r) : I [] r := by
  induction l generalizing b with
  | nil =>
    obtain rfl := foldlM_nil_eq_ok.mp h
    exact hb
  | cons a l ih =>
    obtain ⟨b', hfirst, hrest⟩ := foldlM_cons_eq_ok.mp h
    exact ih (hstep a l b b' hb hfirst) hrest

/-- A loop that ends with an error has come to an iteration that fails. -/
theorem exists_of_foldlM_error {err : ε} (h : l.foldlM f b = .error err) :
    ∃ l₁ a l₂ b', l = l₁ ++ a :: l₂ ∧ l₁.foldlM f b = .ok b' ∧ f b' a = .error err := by
  induction l generalizing b with
  | nil => cases h
  | cons a l ih =>
    cases hf : f b a with
    | error err' =>
      have herr : err' = err := by simpa [List.foldlM_cons, hf, bind, Except.bind] using h
      exact ⟨[], a, l, b, rfl, rfl, by rw [hf, herr]⟩
    | ok b' =>
      have hrest : l.foldlM f b' = .error err := by
        simpa [List.foldlM_cons, hf, bind, Except.bind] using h
      obtain ⟨l₁, a', l₂, b'', rfl, hl₁, ha'⟩ := ih hrest
      exact ⟨a :: l₁, a', l₂, b'', rfl, foldlM_cons_eq_ok.mpr ⟨b', hf, hl₁⟩, ha'⟩

/-- A loop that appends something for each element with the property. -/
theorem foldl_collect {p : α → Prop} [DecidablePred p] {f : α → β} (l : List α) (acc : List β) :
    l.foldl (fun acc a => if p a then acc ++ [f a] else acc) acc =
      acc ++ (l.filter (p ·)).map f := by
  induction l generalizing acc with
  | nil => simp
  | cons a l ih =>
    rw [List.foldl_cons, ih]
    by_cases ha : p a
    · simp [ha]
    · simp [ha]

end LustreCsi.Computation
