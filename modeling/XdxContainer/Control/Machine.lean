import Mathlib.Tactic.Common

/-!
# Control/Machine — runs of a machine, and conditions on their steps

    s ──a₁──▸ s₁ ──a₂──▸ s₂ ──▸ …        C s a₁,  C s₁ a₂,  …

`step` is partial: an action that is not possible in a state has no successor.  `Throughout C` says
that every action of a run meets `C` in the state before it; `run_inv` carries an invariant along
such a run, `good_iff_throughout` characterises the runs on which nothing bad is ever recorded.
-/

namespace Machine

variable {σ α : Type} {step : σ → α → Option σ}

/-- The state a run ends in, if every action was possible. -/
def run (step : σ → α → Option σ) (s : σ) (as : List α) : Option σ := as.foldlM step s

/-- Every action of the run meets the condition in the state before it. -/
def Throughout (step : σ → α → Option σ) (C : σ → α → Prop) : σ → List α → Prop
  | _, [] => True
  | s, a :: as => C s a ∧ ∀ t, step s a = some t → Throughout step C t as

theorem run_cons_eq_some {s u : σ} {a : α} {as : List α} :
    run step s (a :: as) = some u ↔ ∃ t, step s a = some t ∧ run step t as = some u := by
  rw [run, List.foldlM_cons, Option.bind_eq_bind, Option.bind_eq_some_iff]
  rfl

variable {C : σ → α → Prop} {Inv : σ → Prop}

/-- **The invariant rule.** -/
theorem run_inv (hstep : ∀ {s t : σ} {a : α}, Inv s → C s a → step s a = some t → Inv t)
    {as : List α} {s t : σ} (hs : Inv s) (hC : Throughout step C s as)
    (hrun : run step s as = some t) : Inv t := by
  induction as generalizing s with
  | nil =>
    obtain rfl : s = t := Option.some.inj hrun
    exact hs
  | cons a as ih =>
    obtain ⟨u, hu, hrest⟩ := run_cons_eq_some.mp hrun
    exact ih (hstep hs hC.1 hu) (hC.2 u hu) hrest

/-- What no step brings about, a run that ends with it started with. -/
theorem of_run {Good : σ → Prop}
    (hmono : ∀ {s t : σ} {a : α}, step s a = some t → Good t → Good s)
    {as : List α} {s t : σ} (hrun : run step s as = some t) (ht : Good t) : Good s := by
  induction as generalizing s with
  | nil =>
    obtain rfl : s = t := Option.some.inj hrun
    exact ht
  | cons a as ih =>
    obtain ⟨u, hu, hrest⟩ := run_cons_eq_some.mp hrun
    exact hmono hu (ih hrest)

/-- **Good runs are those whose steps are.**  Nothing bad that was recorded goes away, and on an
invariant state a step records nothing bad exactly when it meets the condition. -/
theorem good_iff_throughout {Good : σ → Prop}
    (hmono : ∀ {s t : σ} {a : α}, step s a = some t → Good t → Good s)
    (hgood : ∀ {s t : σ} {a : α}, Inv s → Good s → step s a = some t → (Good t ↔ C s a))
    (hinv : ∀ {s t : σ} {a : α}, Inv s → C s a → step s a = some t → Inv t)
    {as : List α} {s t : σ} (hs : Inv s) (hg : Good s) (hrun : run step s as = some t) :
    Good t ↔ Throughout step C s as := by
  induction as generalizing s with
  | nil =>
    obtain rfl : s = t := Option.some.inj hrun
    exact iff_of_true hg trivial
  | cons a as ih =>
    obtain ⟨u, hu, hrest⟩ := run_cons_eq_some.mp hrun
    constructor
    · intro ht
      have hgu : Good u := of_run hmono hrest ht
      have hC : C s a := (hgood hs hg hu).mp hgu
      refine ⟨hC, fun w hw => ?_⟩
      obtain rfl : u = w := Option.some.inj (hu.symm.trans hw)
      exact (ih (hinv hs hC hu) hgu hrest).mp ht
    · rintro ⟨hC, htail⟩
      exact (ih (hinv hs hC hu) ((hgood hs hg hu).mpr hC) hrest).mpr (htail u hu)

end Machine
