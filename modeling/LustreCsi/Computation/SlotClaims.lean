import Mathlib.Data.List.Basic
import Mathlib.Logic.Function.Basic
import Mathlib.Tactic.Common

/-!
# Slots that are claimed by their users

A slot is free, held by a user, or blocked. A user picks the first slot that is free or its own
(`pick`) and claims it; it is settled then (`Settled`) and picks the same slot again, whatever the
other users claim in the meantime.
-/

set_option autoImplicit false

namespace LustreCsi.Computation

variable {ι ω : Type}

/-- The state of a slot. -/
inductive Tenancy (ω : Type) where
  | free
  | held (user : ω)
  | blocked
  deriving DecidableEq

variable [DecidableEq ω]

/-- The slot is free, or held by the user. -/
def Tenancy.usable (user : ω) : Tenancy ω → Bool
  | .free => true
  | .held user' => user' = user
  | .blocked => false

/-- A slot is usable if it is free or held by the user already. -/
theorem Tenancy.usable_iff {user : ω} {x : Tenancy ω} :
    x.usable user = true ↔ x = .free ∨ x = .held user := by
  cases x <;> simp [Tenancy.usable]

/-- The first slot of the list that the user can use. -/
def pick (slots : List ι) (view : ι → Tenancy ω) (user : ω) : Option ι :=
  slots.find? fun i => (view i).usable user

variable {slots : List ι} {view view' : ι → Tenancy ω} {user user' : ω} {i j : ι}

/-- The slot that is picked is usable. -/
theorem usable_of_pick (h : pick slots view user = some i) : (view i).usable user = true := by
  simpa using List.find?_some h

/-- The slot that is picked is one of the slots. -/
theorem mem_of_pick (h : pick slots view user = some i) : i ∈ slots := List.mem_of_find?_eq_some h

/-- A picked slot stays the first one, if it stays usable and no unusable slot becomes usable. -/
theorem pick_of_pick (h : pick slots view user = some i) (hi : (view' i).usable user = true)
    (hothers : ∀ j ∈ slots, (view j).usable user = false → (view' j).usable user = false) :
    pick slots view' user = some i := by
  obtain ⟨-, as, bs, hslots, has⟩ := List.find?_eq_some_iff_append.mp h
  refine List.find?_eq_some_iff_append.mpr ⟨hi, as, bs, hslots, fun j hj => ?_⟩
  have hnot : (view j).usable user = false := by simpa using has j hj
  simpa using hothers j (by simp [hslots, hj]) hnot

/-- The user holds the slot that it picks. -/
structure Settled (slots : List ι) (view : ι → Tenancy ω) (user : ω) (i : ι) : Prop where
  holds : view i = .held user
  picks : pick slots view user = some i

variable [DecidableEq ι]

/-- A slot that is picked and claimed. -/
theorem Settled.of_claim (h : pick slots view user = some i) :
    Settled slots (Function.update view i (.held user)) user i := by
  refine ⟨Function.update_self .., pick_of_pick h (by simp [Tenancy.usable]) fun j _ hj => ?_⟩
  have hne : j ≠ i := by
    rintro rfl
    rw [usable_of_pick h] at hj
    cases hj
  rwa [Function.update_of_ne hne]

end LustreCsi.Computation
