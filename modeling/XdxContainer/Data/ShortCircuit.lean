import Mathlib.Tactic.Common

/-!
# Data/ShortCircuit — connectives that stop at the first value that decides

    shortCircuit true  = a conjunction        shortCircuit false = a disjunction
    some b  a value,  none  a failure, which decides as well

Two evaluations that differ on *bad* items only, where the second one fails, agree exactly until the
first one meets such an item.
-/

namespace ShortCircuit

variable {α : Type}

/-- Values from left to right, as long as they are `go`. -/
def shortCircuit (go : Bool) : List (Option Bool) → Option Bool
  | [] => some go
  | none :: _ => none
  | some b :: vs => if b = go then shortCircuit go vs else some b

/-- The evaluation comes to an item that is bad: all before it let it go on. -/
def Meets (go : Bool) (u : α → Option Bool) (bad : α → Prop) (xs : List α) : Prop :=
  ∃ pre x post, xs = pre ++ x :: post ∧ (∀ y ∈ pre, u y = some go) ∧ bad x

section

variable {go : Bool} {u v : α → Option Bool} {bad : α → Prop} {x : α} {xs : List α}

theorem not_meets_nil : ¬Meets go u bad [] := by
  rintro ⟨pre, x, post, h, -, -⟩
  exact absurd h.symm (List.append_ne_nil_of_right_ne_nil _ (List.cons_ne_nil _ _))

/-- A list meets a bad element at its head, or goes on and meets one behind. -/
theorem meets_cons : Meets go u bad (x :: xs) ↔ bad x ∨ u x = some go ∧ Meets go u bad xs := by
  constructor
  · rintro ⟨pre, y, post, h, hpre, hbad⟩
    rcases pre with _ | ⟨z, pre⟩
    · obtain ⟨rfl, -⟩ := List.cons.inj h
      exact .inl hbad
    · obtain ⟨rfl, rfl⟩ := List.cons.inj h
      exact .inr ⟨hpre _ List.mem_cons_self, pre, y, post, rfl,
        fun y hy => hpre y (List.mem_cons_of_mem _ hy), hbad⟩
  · rintro (hbad | ⟨hx, pre, y, post, rfl, hpre, hbad⟩)
    · exact ⟨[], x, xs, rfl, by simp, hbad⟩
    · refine ⟨x :: pre, y, post, rfl, fun z hz => ?_, hbad⟩
      rcases List.mem_cons.mp hz with rfl | hz
      · exact hx
      · exact hpre z hz

/-- **Meeting a bad item** makes the evaluation fail. -/
theorem shortCircuit_of_meets (hbad : ∀ x, bad x → v x = none) (hgood : ∀ x, ¬bad x → v x = u x)
    (h : Meets go u bad xs) : shortCircuit go (xs.map v) = none := by
  induction xs with
  | nil => exact absurd h not_meets_nil
  | cons x xs ih =>
    rw [List.map_cons]
    by_cases hx : bad x
    · rw [hbad x hx, shortCircuit]
    · obtain ⟨hgo, hrest⟩ := (meets_cons.mp h).resolve_left hx
      rw [hgood x hx, hgo, shortCircuit, if_pos rfl, ih hrest]

/-- **Meeting none** leaves the value as it is. -/
theorem shortCircuit_of_not_meets (hgood : ∀ x, ¬bad x → v x = u x) (h : ¬Meets go u bad xs) :
    shortCircuit go (xs.map v) = shortCircuit go (xs.map u) := by
  induction xs with
  | nil => rfl
  | cons x xs ih =>
    rw [meets_cons, not_or, not_and] at h
    rw [List.map_cons, List.map_cons, hgood x h.1]
    rcases hx : u x with _ | b
    · rw [shortCircuit, shortCircuit]
    · rw [shortCircuit, shortCircuit]
      split_ifs with hb
      · exact ih (h.2 (hb ▸ hx))
      · rfl

end

end ShortCircuit
