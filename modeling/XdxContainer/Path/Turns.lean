import Mathlib.Order.WellFounded
import XdxContainer.Path.Run

/-!
# Path/Turns — the loop of a resolution ends

    nlinks, left  ──token──▸  nlinks, less left
                  ──link───▸  nlinks + 1 ≤ MAXSYMLINKS, anything left

Following a link makes the string longer, so what is left of it does not go down by itself.
`Vars.budget` puts the links that may still be followed in front of it: every turn of the loop goes
down in the lexicographic order (`Reached.turn_drops`), so that there is no run without an end
(`doPathResolve_terminates`).
-/

open Paths Walk Fs

namespace Resolve

/-- The links that may still be followed, and the characters that are left. -/
def Vars.budget (v : Vars) : ℕ × ℕ := (MAXSYMLINKS - v.nlinks, v.left)

/-- A turn follows one more of the links that may be followed, or leaves less of the string. -/
def Vars.Drops (v v' : Vars) : Prop :=
  (v'.nlinks = v.nlinks + 1 ∧ v'.nlinks ≤ MAXSYMLINKS) ∨ (v'.nlinks = v.nlinks ∧ v'.left < v.left)

section Turns

variable {fs : Tree} {root path : Str} {v v' : Vars} {p : Bool × ℕ}

theorem Vars.Drops.budget_lt (h : v.Drops v') :
    Prod.Lex (· < ·) (· < ·) v'.budget v.budget := by
  rcases h with ⟨hlink, hmax⟩ | ⟨hsame, hleft⟩
  · refine Prod.Lex.left _ _ ?_
    omega
  · rw [Vars.budget, Vars.budget, hsame]
    exact Prod.Lex.right _ hleft

/-- The root is open in every run. -/
theorem Reached.exists_root (h : Reached fs root path v) : ∃ R, openRoot fs root = .ok R := by
  induction h with
  | start hroot _ => exact ⟨_, hroot⟩
  | turn _ _ _ ih => exact ih

/-- **Every turn goes down**: an empty token and a name shorten what is left, a link takes one of
those that may be followed. -/
theorem Reached.turn_drops (h : Reached fs root path v) (hp : v.ptr = some p)
    (hturn : v.turn fs root path p = .ok v') : v.Drops v' := by
  obtain ⟨R, hroot⟩ := h.exists_root
  obtain ⟨s, rest, ha, -, -⟩ := h.agrees hroot
  obtain ⟨hslash, rest', -, ha'⟩ := ha.advance hp
  have hleft := Vars.left_advance hp
  have hsame : (v.advance p).nlinks = v.nlinks := rfl
  obtain ⟨-, rfl⟩ | ⟨-, -, -, -, hlinks, hkept⟩ | ⟨-, -, -, -, -, hlt, hlinks, -⟩ :=
    ha'.token hroot hslash hturn
  · exact .inr ⟨hsame, hleft⟩
  · exact .inr ⟨hlinks.trans hsame, by omega⟩
  · exact .inl ⟨hlinks.trans (congrArg (· + 1) hsame), by omega⟩

/-- **From everything the variables come to, the loop ends**, by induction on the budget. -/
theorem Reached.loop_ends (h : Reached fs root path v) : ∃ n r, loop fs root path n v = some r := by
  have hwf : WellFounded fun a b : Vars => Prod.Lex (· < ·) (· < ·) a.budget b.budget :=
    InvImage.wf Vars.budget (Prod.lex ⟨_, wellFounded_lt⟩ ⟨_, wellFounded_lt⟩).wf
  induction v using hwf.induction with
  | _ v ih =>
    rcases hp : v.ptr with _ | p
    · exact ⟨1, .ok v, by simp only [loop, hp]⟩
    · rcases hturn : v.turn fs root path p with e | v'
      · exact ⟨1, .error e, by rw [loop_succ hp, hturn]⟩
      · obtain ⟨n, r, hr⟩ := ih v' (h.turn_drops hp hturn).budget_lt (h.turn hp hturn)
        refine ⟨n + 1, r, ?_⟩
        rw [loop_succ hp, hturn]
        exact hr

end Turns

/-- **A resolution ends on every tree.**  Every turn of its loop follows one more link, at most
`MAXSYMLINKS` in all, or leaves less of the string; from every state the loop comes to its end, and
from the start it does so in the turns that `doPathResolve` grants it. -/
theorem doPathResolve_terminates (fs : Tree) (root path : Str) :
    (∀ v p v', Reached fs root path v → v.ptr = some p → v.turn fs root path p = .ok v' →
        v.Drops v')
      ∧ (∀ v, Reached fs root path v → ∃ n r, loop fs root path n v = some r)
      ∧ ∀ fd rest, openRoot fs root = .ok fd → append [] path = .ok rest →
        ∃ r, loop fs root path maxTurns (.start fd rest) = some r := by
  refine ⟨fun v p v' h hp hturn => h.turn_drops hp hturn, fun v h => h.loop_ends, ?_⟩
  intro fd rest hroot hrest
  obtain ⟨r, hr, -⟩ := loop_of_start hroot hrest
  exact ⟨r, hr⟩

end Resolve
