import Mathlib.Tactic.Common
import Mathlib.Data.Int.Notation

/-!
# Path/Walk — walks over a list that may be rewritten on the way, a bounded number of times

    s ──a──▸ `next s'`          go on with the rest of the list
      ──a──▸ `splice s' t`      go on with `t` in front of the rest, one splice less left
      ──a──▸ `fail e`

Symbolic links are the example: meeting one puts its target in front of the remaining components,
and a budget bounds how often.  A walk ends with the splices it has left and its last state.

* `step_induction`, `walk_induction` — the rules every fact about walks comes from, the second for
  walks that end well.
* `walk_append`, `walk_append_error` — walks compose; `walk_add`, `walk_error_add` — a larger budget
  changes nothing.
* `walk_sim` — a walk whose steps are matched by another's is matched by it.
* `Steps` — what a walk comes to on its way; from there on it is the same walk (`Steps.walk_eq`).
-/

namespace Walk

variable {σ τ α ε ε' : Type}

/-- What meeting an element does. -/
inductive Move (σ α ε : Type)
  | next (s : σ)
  | splice (s : σ) (t : List α)
  | fail (e : ε)

/-- Go through a list; the first splice hands over to `again`. -/
def scan (step : σ → α → Move σ α ε) (again : List α → σ → Except ε (ℕ × σ)) (n : ℕ) :
    List α → σ → Except ε (ℕ × σ)
  | [], s => .ok (n, s)
  | a :: l, s =>
    match step s a with
    | .next s' => scan step again n l s'
    | .splice s' t => again (t ++ l) s'
    | .fail e => .error e

/-- Walk over a list with `n` splices left; `loop` is the error when they do not suffice. -/
def walk (step : σ → α → Move σ α ε) (loop : ε) : ℕ → List α → σ → Except ε (ℕ × σ)
  | 0 => scan step (fun _ _ => .error loop) 0
  | n + 1 => scan step (walk step loop n) (n + 1)

section Equations

variable {step : σ → α → Move σ α ε} {loop : ε} {s s' : σ} {a : α}

@[simp] theorem walk_nil (n : ℕ) (s : σ) : walk step loop n [] s = .ok (n, s) := by
  rcases n with _ | n <;> rfl

theorem walk_next (h : step s a = .next s') (n : ℕ) (l : List α) :
    walk step loop n (a :: l) s = walk step loop n l s' := by
  rcases n with _ | n <;> simp only [walk, scan, h]

theorem walk_splice {t : List α} (h : step s a = .splice s' t) (n : ℕ) (l : List α) :
    walk step loop (n + 1) (a :: l) s = walk step loop n (t ++ l) s' := by
  simp only [walk, scan, h]

theorem walk_splice_zero {t : List α} (h : step s a = .splice s' t) (l : List α) :
    walk step loop 0 (a :: l) s = .error loop := by
  simp only [walk, scan, h]

theorem walk_fail {e : ε} (h : step s a = .fail e) (n : ℕ) (l : List α) :
    walk step loop n (a :: l) s = .error e := by
  rcases n with _ | n <;> simp only [walk, scan, h]

end Equations

/-! ## The rules for walks -/

section Induction

variable {step : σ → α → Move σ α ε} {loop : ε}

/-- **Induction along a list and its splices**, as a walk goes. -/
theorem step_induction (step : σ → α → Move σ α ε) {P : ℕ → List α → σ → Prop}
    (nil : ∀ n s, P n [] s)
    (next : ∀ {n l s a s'}, step s a = .next s' → P n l s' → P n (a :: l) s)
    (splice : ∀ {n l s a s' t}, step s a = .splice s' t → P n (t ++ l) s' → P (n + 1) (a :: l) s)
    (spent : ∀ {l s a s' t}, step s a = .splice s' t → P 0 (a :: l) s)
    (fail : ∀ {n l s a e}, step s a = .fail e → P n (a :: l) s) (n : ℕ) (l : List α) (s : σ) :
    P n l s := by
  induction n generalizing l s with
  | zero =>
    induction l generalizing s with
    | nil => exact nil 0 s
    | cons a l ih =>
      rcases ha : step s a with s' | ⟨s', t⟩ | e
      · exact next ha (ih s')
      · exact spent ha
      · exact fail ha
  | succ n ihn =>
    induction l generalizing s with
    | nil => exact nil (n + 1) s
    | cons a l ih =>
      rcases ha : step s a with s' | ⟨s', t⟩ | e
      · exact next ha (ih s')
      · exact splice ha (ihn (t ++ l) s')
      · exact fail ha

/-- **Induction over a walk that ends well**: along its elements and its splices. -/
theorem walk_induction {P : ℕ → List α → σ → ℕ → σ → Prop} (nil : ∀ n s, P n [] s n s)
    (next : ∀ {n l s a s' m t}, step s a = .next s' → walk step loop n l s' = .ok (m, t) →
      P n l s' m t → P n (a :: l) s m t)
    (splice : ∀ {n l s a s' t' m t}, step s a = .splice s' t' →
      walk step loop n (t' ++ l) s' = .ok (m, t) → P n (t' ++ l) s' m t →
      P (n + 1) (a :: l) s m t)
    {n m : ℕ} {l : List α} {s t : σ} (h : walk step loop n l s = .ok (m, t)) : P n l s m t := by
  refine step_induction step
    (P := fun n l s => walk step loop n l s = .ok (m, t) → P n l s m t) ?_ ?_ ?_ ?_ ?_ n l s h
  · intro n s h
    obtain ⟨rfl, rfl⟩ := Prod.mk.inj (Except.ok.inj ((walk_nil n s).symm.trans h))
    exact nil n s
  · intro n l s a s' ha ih h
    rw [walk_next ha] at h
    exact next ha h (ih h)
  · intro n l s a s' t' ha ih h
    rw [walk_splice ha] at h
    exact splice ha h (ih h)
  · intro l s a s' t' ha h
    rw [walk_splice_zero ha] at h
    cases h
  · intro n l s a e ha h
    rw [walk_fail ha] at h
    cases h

/-- An invariant of the steps holds where the walk ends. -/
theorem walk_invariant {I : σ → Prop} (hnext : ∀ {s a s'}, I s → step s a = .next s' → I s')
    (hsplice : ∀ {s a s' t}, I s → step s a = .splice s' t → I s') {n m : ℕ} {l : List α} {s t : σ}
    (h : walk step loop n l s = .ok (m, t)) (hs : I s) : I t :=
  walk_induction (P := fun _ _ s _ t => I s → I t) (fun _ _ h => h)
    (fun ha _ ih hI => ih (hnext hI ha)) (fun ha _ ih hI => ih (hsplice hI ha)) h hs

/-- **A walk over two lists is a walk over the first, then over the second.** -/
theorem walk_append {n m : ℕ} {l : List α} {s t : σ} (h : walk step loop n l s = .ok (m, t))
    (l' : List α) : walk step loop n (l ++ l') s = walk step loop m l' t := by
  refine walk_induction
    (P := fun n l s m t => walk step loop n (l ++ l') s = walk step loop m l' t) ?_ ?_ ?_ h
  · intro n s
    rfl
  · intro n l s a s' m t ha _ ih
    rw [List.cons_append, walk_next ha, ih]
  · intro n l s a s' t' m t ha _ ih
    rw [List.cons_append, walk_splice ha, ← List.append_assoc, ih]

/-- A walk that ends has ended on every first part of its list. -/
theorem walk_prefix {n m : ℕ} {l l' : List α} {s t : σ}
    (h : walk step loop n (l ++ l') s = .ok (m, t)) : ∃ k u, walk step loop n l s = .ok (k, u) := by
  refine walk_induction (P := fun n L s _ _ => ∀ l l', L = l ++ l' →
    ∃ k u, walk step loop n l s = .ok (k, u)) ?_ ?_ ?_ h l l' rfl
  · intro n s l l' hl
    obtain ⟨rfl, -⟩ := List.append_eq_nil_iff.mp hl.symm
    exact ⟨n, s, walk_nil n s⟩
  · intro n L s a s' m t ha _ ih l l' hl
    rcases l with _ | ⟨b, l⟩
    · exact ⟨n, s, walk_nil n s⟩
    · obtain ⟨rfl, hL⟩ := List.cons.inj hl
      obtain ⟨k, u, hu⟩ := ih l l' hL
      exact ⟨k, u, by rw [walk_next ha, hu]⟩
  · intro n L s a s' t' m t ha _ ih l l' hl
    rcases l with _ | ⟨b, l⟩
    · exact ⟨n + 1, s, walk_nil (n + 1) s⟩
    · obtain ⟨rfl, hL⟩ := List.cons.inj hl
      obtain ⟨k, u, hu⟩ := ih (t' ++ l) l' (by rw [hL, List.append_assoc]; rfl)
      exact ⟨k, u, by rw [walk_splice ha, hu]⟩

/-- A larger budget is left over. -/
theorem walk_add {n m : ℕ} {l : List α} {s t : σ} (h : walk step loop n l s = .ok (m, t)) (k : ℕ) :
    walk step loop (n + k) l s = .ok (m + k, t) := by
  refine walk_induction
    (P := fun n l s m t => walk step loop (n + k) l s = .ok (m + k, t)) ?_ ?_ ?_ h
  · intro n s
    exact walk_nil (n + k) s
  · intro n l s a s' m t ha _ ih
    rw [walk_next ha, ih]
  · intro n l s a s' t' m t ha _ ih
    rw [show n + 1 + k = n + k + 1 by omega, walk_splice ha, ih]

/-- The budget only shrinks. -/
theorem walk_le {n m : ℕ} {l : List α} {s t : σ} (h : walk step loop n l s = .ok (m, t)) :
    m ≤ n := by
  refine walk_induction (P := fun n _ _ m _ => m ≤ n) ?_ ?_ ?_ h
  · intro n s
    exact Nat.le_refl n
  · intro n l s a s' m t _ _ ih
    exact ih
  · intro n l s a s' t' m t _ _ ih
    exact Nat.le_succ_of_le ih

/-- A failure that is not for want of budget stays one under a larger budget. -/
theorem walk_error_add {n : ℕ} {l : List α} {s : σ} {e : ε} (h : walk step loop n l s = .error e)
    (he : e ≠ loop) (k : ℕ) : walk step loop (n + k) l s = .error e := by
  refine step_induction step (P := fun n l s => walk step loop n l s = .error e →
    walk step loop (n + k) l s = .error e) ?_ ?_ ?_ ?_ ?_ n l s h
  · intro n s h
    rw [walk_nil] at h
    cases h
  · intro n l s a s' ha ih h
    rw [walk_next ha] at h ⊢
    exact ih h
  · intro n l s a s' t ha ih h
    rw [walk_splice ha] at h
    rw [show n + 1 + k = n + k + 1 by omega, walk_splice ha]
    exact ih h
  · intro l s a s' t ha h
    rw [walk_splice_zero ha] at h
    exact absurd (Except.error.inj h).symm he
  · intro n l s a e' ha h
    rw [walk_fail ha] at h ⊢
    exact h

/-- A failure on a first part of the list is one on the whole list. -/
theorem walk_append_error {n : ℕ} {l : List α} {s : σ} {e : ε}
    (h : walk step loop n l s = .error e) (l' : List α) :
    walk step loop n (l ++ l') s = .error e := by
  refine step_induction step (P := fun n l s => walk step loop n l s = .error e →
    walk step loop n (l ++ l') s = .error e) ?_ ?_ ?_ ?_ ?_ n l s h
  · intro n s h
    rw [walk_nil] at h
    cases h
  · intro n l s a s' ha ih h
    rw [walk_next ha] at h
    rw [List.cons_append, walk_next ha]
    exact ih h
  · intro n l s a s' t ha ih h
    rw [walk_splice ha] at h
    rw [List.cons_append, walk_splice ha, ← List.append_assoc]
    exact ih h
  · intro l s a s' t ha h
    rw [List.cons_append, walk_splice_zero ha, ← walk_splice_zero ha l, h]
  · intro n l s a e' ha h
    rw [List.cons_append, walk_fail ha, ← walk_fail ha n l, h]

/-- **A walk whose steps another machine matches is matched by it.** -/
theorem walk_sim {step' : τ → α → Move τ α ε'} {loop' : ε'} {R : σ → τ → Prop}
    (hnext : ∀ {s u a s'}, R s u → step s a = .next s' → ∃ u', step' u a = .next u' ∧ R s' u')
    (hsplice : ∀ {s u a s' t}, R s u → step s a = .splice s' t →
      ∃ u', step' u a = .splice u' t ∧ R s' u')
    {n m : ℕ} {l : List α} {s t : σ} {u : τ} (h : walk step loop n l s = .ok (m, t)) (hR : R s u) :
    ∃ v, walk step' loop' n l u = .ok (m, v) ∧ R t v := by
  refine walk_induction
    (P := fun n l s m t => ∀ u, R s u → ∃ v, walk step' loop' n l u = .ok (m, v) ∧ R t v)
    ?_ ?_ ?_ h u hR
  · intro n s u hR
    exact ⟨u, walk_nil n u, hR⟩
  · intro n l s a s' m t ha _ ih u hR
    obtain ⟨u', hu, hR'⟩ := hnext hR ha
    rw [walk_next hu]
    exact ih u' hR'
  · intro n l s a s' t' m t ha _ ih u hR
    obtain ⟨u', hu, hR'⟩ := hsplice hR ha
    rw [walk_splice hu]
    exact ih u' hR'

end Induction

/-! ## On the way -/

/-- What a walk comes to: splices left, the list, the state. -/
inductive Steps (step : σ → α → Move σ α ε) (n : ℕ) (l : List α) (s : σ) : ℕ → List α → σ → Prop
  | refl : Steps step n l s n l s
  | next {k m t a t'} (h : Steps step n l s k (a :: m) t) (ha : step t a = .next t') :
      Steps step n l s k m t'
  | splice {k m t a t' u} (h : Steps step n l s (k + 1) (a :: m) t) (ha : step t a = .splice t' u) :
      Steps step n l s k (u ++ m) t'

section Steps

variable {step : σ → α → Move σ α ε} {n k : ℕ} {l m : List α} {s t : σ}

/-- **From what it comes to on a walk is the same walk.** -/
theorem Steps.walk_eq (h : Steps step n l s k m t) (loop : ε) :
    walk step loop n l s = walk step loop k m t := by
  induction h with
  | refl => rfl
  | next _ ha ih => rw [ih, walk_next ha]
  | splice _ ha ih => rw [ih, walk_splice ha]

/-- Another machine that makes every step comes to the same. -/
theorem Steps.of_imp {step' : σ → α → Move σ α ε'}
    (hnext : ∀ {s a s'}, step s a = .next s' → step' s a = .next s')
    (hsplice : ∀ {s a s' u}, step s a = .splice s' u → step' s a = .splice s' u)
    (h : Steps step n l s k m t) : Steps step' n l s k m t := by
  induction h with
  | refl => exact .refl
  | next _ ha ih => exact ih.next (hnext ha)
  | splice _ ha ih => exact ih.splice (hsplice ha)

/-- With one splice less a walk comes to the same, or it fails for the one that is missing. -/
theorem Steps.one_less (loop : ε) (h : Steps step (n + 1) l s k m t) :
    (∃ j, k = j + 1 ∧ Steps step n l s j m t) ∨ k = 0 ∧ walk step loop n l s = .error loop := by
  induction h with
  | refl => exact .inl ⟨n, rfl, .refl⟩
  | next _ ha ih =>
    obtain ⟨j, hk, hless⟩ | hend := ih
    · exact .inl ⟨j, hk, hless.next ha⟩
    · exact .inr hend
  | splice _ ha ih =>
    obtain ⟨_ | j, hk, hless⟩ | ⟨hk, -⟩ := ih
    · refine .inr ⟨Nat.succ.inj hk, ?_⟩
      rw [hless.walk_eq, walk_splice_zero ha]
    · exact .inl ⟨j, Nat.succ.inj hk, hless.splice ha⟩
    · cases hk

end Steps

end Walk
