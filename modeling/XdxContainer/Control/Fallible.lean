import Mathlib.Tactic.Common

/-!
# Control/Fallible — computations whose steps may fail, and which of them fails first

A `Prog` runs on a state and ends with a value or with the step that failed.  What such a program
does is described beside it by a *plan*: the steps it takes while nothing fails, each with whether
it fails.  `Follows` relates the two:

    plan has no failing step       ──▸ value and state as told
    first failing step is `e`      ──▸ error `e`, in a state that `U e` holds of

The rules (`Follows.pure`, `.bind`, `.attempt`, `.onError`, `.mono`) build plans along programs.
-/

namespace Fallible

variable {ε ε' σ α β : Type}

/-- A computation on a state that ends with a value or with the step that failed. -/
def Prog (ε σ α : Type) : Type := σ → Except ε α × σ

instance : Monad (Prog ε σ) where
  pure a := fun s => (.ok a, s)
  bind m f := fun s =>
    match m s with
    | (.ok a, s') => f a s'
    | (.error e, s') => (.error e, s')

/-- A step that succeeds or fails, with what the state is then. -/
def attempt (e : ε) (f : σ → Bool × σ) : Prog ε σ Unit := fun s =>
  match f s with
  | (true, s') => (.ok (), s')
  | (false, s') => (.error e, s')

/-- A step that reads a value off the state, if there is one. -/
def query (e : ε) (f : σ → Option α) : Prog ε σ α := fun s =>
  match f s with
  | some a => (.ok a, s)
  | none => (.error e, s)

/-- Read the state. -/
def reading (f : σ → α) : Prog ε σ α := fun s => (.ok (f s), s)

/-- Clean up when the computation fails, and fail all the same. -/
def onError (m : Prog ε σ α) (clean : σ → σ) : Prog ε σ α := fun s =>
  match m s with
  | (.ok a, s') => (.ok a, s')
  | (.error e, s') => (.error e, clean s')

/-- Tell the errors of the computation another way. -/
def reporting (f : ε → ε') (m : Prog ε σ α) : Prog ε' σ α := fun s =>
  match m s with
  | (.ok a, s') => (.ok a, s')
  | (.error e, s') => (.error (f e), s')

/-- Run only under a condition. -/
def onlyIf (c : Bool) (m : Prog ε σ Unit) : Prog ε σ Unit := if c then m else pure ()

/-- Run only under a condition, with the value if it ran. -/
def optionally (c : Bool) (m : Prog ε σ α) : Prog ε σ (Option α) :=
  if c then m >>= fun a => pure (some a) else pure none

/-- Run, and keep what it ends with. -/
def tried (m : Prog ε σ α) : Prog ε' σ (Except ε α) := fun s => (.ok (m s).1, (m s).2)

/-- End with what was kept. -/
def raised (r : Except ε α) : Prog ε σ α := fun s => (r, s)

/-- One computation after the other, whatever each ends with. -/
def inTurn : List (Prog ε σ α) → σ → List (Except ε α) × σ
  | [], s => ([], s)
  | m :: ms, s => ((m s).1 :: (inTurn ms (m s).2).1, (inTurn ms (m s).2).2)

/-! ## Laws -/

section Laws

variable (m : Prog ε σ α) (g : α → Prog ε σ β)

instance : LawfulMonad (Prog ε σ) := LawfulMonad.mk' (Prog ε σ)
  (fun m => by
    funext s
    change (match m s with | (.ok a, s') => (.ok a, s') | (.error e, s') => (.error e, s')) = m s
    rcases m s with ⟨_ | _, _⟩ <;> rfl)
  (fun _ _ => rfl)
  (fun m f g => by
    funext s
    change (match (match m s with
        | (.ok a, s') => f a s'
        | (.error e, s') => (.error e, s')) with
      | (.ok b, s') => g b s'
      | (.error e, s') => (.error e, s'))
      = match m s with
        | (.ok a, s') => (match f a s' with
          | (.ok b, s'') => g b s''
          | (.error e, s'') => (.error e, s''))
        | (.error e, s') => (.error e, s')
    rcases m s with ⟨_ | _, _⟩ <;> rfl)

/-- The cleanup of a sequence is the cleanup of both its parts. -/
theorem onError_bind (clean : σ → σ) :
    onError (m >>= g) clean = onError m clean >>= fun a => onError (g a) clean := by
  funext s
  change (match (match m s with
      | (.ok a, s') => g a s'
      | (.error e, s') => (.error e, s')) with
    | (.ok b, s') => (Except.ok b, s')
    | (.error e, s') => (.error e, clean s'))
    = match (match m s with
        | (.ok a, s') => (Except.ok a, s')
        | (.error e, s') => (.error e, clean s')) with
      | (.ok a, s') => (match g a s' with
        | (.ok b, s'') => (Except.ok b, s'')
        | (.error e, s'') => (.error e, clean s''))
      | (.error e, s') => (.error e, s')
  rcases m s with ⟨_ | _, _⟩ <;> rfl

theorem onError_pure (a : α) (clean : σ → σ) :
    onError (pure a : Prog ε σ α) clean = pure a := rfl

/-- The errors of a sequence are those of its parts. -/
theorem reporting_bind (f : ε → ε') :
    reporting f (m >>= g) = reporting f m >>= fun a => reporting f (g a) := by
  funext s
  change (match (match m s with
      | (.ok a, s') => g a s'
      | (.error e, s') => (.error e, s')) with
    | (.ok b, s') => (Except.ok b, s')
    | (.error e, s') => (.error (f e), s'))
    = match (match m s with
        | (.ok a, s') => (Except.ok a, s')
        | (.error e, s') => (.error (f e), s')) with
      | (.ok a, s') => (match g a s' with
        | (.ok b, s'') => (Except.ok b, s'')
        | (.error e, s'') => (.error (f e), s''))
      | (.error e, s') => (.error e, s')
  rcases m s with ⟨_ | _, _⟩ <;> rfl

end Laws

/-! ## Which way a run went -/

section Runs

variable {m : Prog ε σ α} {f : α → Prog ε σ β} {e e' : ε} {s t : σ} {a : α} {b : β}

/-- A sequence goes on behind a success. -/
theorem bind_of_ok {s' : σ} (h : m s = (.ok a, s')) : (m >>= f) s = f a s' := by
  change (match m s with | (.ok a, s') => f a s' | (.error e, s') => (.error e, s')) = _
  rw [h]

/-- A sequence ends at a failure. -/
theorem bind_of_error {s' : σ} (h : m s = (.error e, s')) : (m >>= f) s = (.error e, s') := by
  change (match m s with | (.ok a, s') => f a s' | (.error e, s') => (.error e, s')) = _
  rw [h]

/-- A call that succeeds. -/
theorem attempt_of_true {g : σ → Bool × σ} {s' : σ} (h : g s = (true, s')) :
    attempt e g s = (.ok (), s') := by
  rw [attempt, h]

/-- A call that fails. -/
theorem attempt_of_false {g : σ → Bool × σ} {s' : σ} (h : g s = (false, s')) :
    attempt e g s = (.error e, s') := by
  rw [attempt, h]

/-- No cleanup behind a success. -/
theorem onError_of_ok {clean : σ → σ} {s' : σ} (h : m s = (.ok a, s')) :
    onError m clean s = (.ok a, s') := by
  rw [onError, h]

/-- The cleanup behind a failure. -/
theorem onError_of_error {clean : σ → σ} {s' : σ} (h : m s = (.error e, s')) :
    onError m clean s = (.error e, clean s') := by
  rw [onError, h]

theorem reporting_of_ok {f : ε → ε'} {s' : σ} (h : m s = (.ok a, s')) :
    reporting f m s = (.ok a, s') := by
  rw [reporting, h]

theorem reporting_ok {f : ε → ε'} (h : reporting f m s = (.ok a, t)) : m s = (.ok a, t) := by
  rw [reporting] at h
  rcases hm : m s with ⟨e' | x, s'⟩
  · rw [hm] at h
    cases (Prod.mk.inj h).1
  · rw [hm] at h
    obtain ⟨h₁, rfl⟩ := Prod.mk.inj h
    rw [Except.ok.inj h₁]

/-- Where a sequence has failed. -/
theorem bind_error (h : (m >>= f) s = (.error e, t)) :
    m s = (.error e, t) ∨ ∃ a s', m s = (.ok a, s') ∧ f a s' = (.error e, t) := by
  change (match m s with | (.ok a, s') => f a s' | (.error e, s') => (.error e, s')) = _ at h
  rcases hm : m s with ⟨e' | a, s'⟩
  · rw [hm] at h
    obtain ⟨h₁, rfl⟩ := Prod.mk.inj h
    exact .inl (by rw [Except.error.inj h₁])
  · rw [hm] at h
    exact .inr ⟨a, s', rfl, h⟩

/-- What a success of a sequence has come from. -/
theorem bind_ok (h : (m >>= f) s = (.ok b, t)) :
    ∃ a s', m s = (.ok a, s') ∧ f a s' = (.ok b, t) := by
  change (match m s with | (.ok a, s') => f a s' | (.error e, s') => (.error e, s')) = _ at h
  rcases hm : m s with ⟨e' | a, s'⟩
  · rw [hm] at h
    cases (Prod.mk.inj h).1
  · rw [hm] at h
    exact ⟨a, s', rfl, h⟩

/-- What a run of a sequence has come from. -/
theorem bind_cases {r : Except ε β} (h : (m >>= f) s = (r, t)) :
    (∃ e, r = .error e ∧ m s = (.error e, t)) ∨ ∃ a s', m s = (.ok a, s') ∧ f a s' = (r, t) := by
  rcases r with e | b
  · rcases bind_error h with h | h
    · exact .inl ⟨e, rfl, h⟩
    · exact .inr h
  · exact .inr (bind_ok h)

theorem pure_ok {a' : α} (h : (pure a : Prog ε σ α) s = (.ok a', t)) : a = a' ∧ s = t := by
  obtain ⟨h₁, h₂⟩ := Prod.mk.inj h
  exact ⟨Except.ok.inj h₁, h₂⟩

theorem pure_error (h : (pure a : Prog ε σ α) s = (.error e, t)) : False := by
  cases (Prod.mk.inj h).1

/-- What a failed call has left. -/
theorem attempt_error {g : σ → Bool × σ} (h : attempt e g s = (.error e', t)) :
    e' = e ∧ g s = (false, t) := by
  rw [attempt] at h
  rcases hg : g s with ⟨_ | _, s'⟩
  · rw [hg] at h
    obtain ⟨h₁, rfl⟩ := Prod.mk.inj h
    exact ⟨(Except.error.inj h₁).symm, rfl⟩
  · rw [hg] at h
    cases (Prod.mk.inj h).1

/-- What a call has left. -/
theorem attempt_ok {g : σ → Bool × σ} {u : Unit} (h : attempt e g s = (.ok u, t)) :
    g s = (true, t) := by
  rw [attempt] at h
  rcases hg : g s with ⟨_ | _, s'⟩
  · rw [hg] at h
    cases (Prod.mk.inj h).1
  · rw [hg] at h
    rw [(Prod.mk.inj h).2]

/-- A query that fails leaves the state as it was. -/
theorem query_error {g : σ → Option α} (h : query e g s = (.error e', t)) :
    e' = e ∧ g s = none ∧ t = s := by
  rw [query] at h
  rcases hg : g s with _ | x
  · rw [hg] at h
    obtain ⟨h₁, rfl⟩ := Prod.mk.inj h
    exact ⟨(Except.error.inj h₁).symm, rfl, rfl⟩
  · rw [hg] at h
    cases (Prod.mk.inj h).1

theorem reading_ok {f : σ → α} {s' : σ} (h : (reading f : Prog ε σ α) s = (.ok a, s')) :
    f s = a ∧ s' = s :=
  ⟨Except.ok.inj (Prod.mk.inj h).1, (Prod.mk.inj h).2.symm⟩

/-- What a query has answered. -/
theorem query_ok {g : σ → Option α} (h : query e g s = (.ok a, t)) : g s = some a ∧ t = s := by
  rw [query] at h
  rcases hg : g s with _ | x
  · rw [hg] at h
    cases (Prod.mk.inj h).1
  · rw [hg] at h
    obtain ⟨h₁, rfl⟩ := Prod.mk.inj h
    exact ⟨congrArg some (Except.ok.inj h₁), rfl⟩

/-- What was there before the cleanup. -/
theorem onError_error {clean : σ → σ} (h : onError m clean s = (.error e, t)) :
    ∃ t', m s = (.error e, t') ∧ t = clean t' := by
  rw [onError] at h
  rcases hm : m s with ⟨e' | x, s'⟩
  · rw [hm] at h
    obtain ⟨h₁, rfl⟩ := Prod.mk.inj h
    exact ⟨s', by rw [Except.error.inj h₁], rfl⟩
  · rw [hm] at h
    cases (Prod.mk.inj h).1

/-- A success has not been cleaned up. -/
theorem onError_ok {clean : σ → σ} (h : onError m clean s = (.ok a, t)) : m s = (.ok a, t) := by
  rw [onError] at h
  rcases hm : m s with ⟨e' | x, s'⟩
  · rw [hm] at h
    cases (Prod.mk.inj h).1
  · rw [hm] at h
    exact h

end Runs

/-- The first failing step of a plan. -/
def firstFailure (p : List (ε × Bool)) : Option ε := (p.find? (·.2)).map (·.1)

@[simp] theorem firstFailure_nil : firstFailure ([] : List (ε × Bool)) = none := rfl

@[simp] theorem firstFailure_cons_true (e : ε) (p : List (ε × Bool)) :
    firstFailure ((e, true) :: p) = some e := rfl

@[simp] theorem firstFailure_cons_false (e : ε) (p : List (ε × Bool)) :
    firstFailure ((e, false) :: p) = firstFailure p := rfl

/-- The first failure of two plans, one behind the other. -/
theorem firstFailure_append (p q : List (ε × Bool)) :
    firstFailure (p ++ q) = (firstFailure p).or (firstFailure q) := by
  rw [firstFailure, firstFailure, firstFailure, List.find?_append]
  cases p.find? (·.2) <;> rfl

/-- The first failing step is one of the plan. -/
theorem mem_of_firstFailure {p : List (ε × Bool)} {e : ε} (h : firstFailure p = some e) :
    (e, true) ∈ p := by
  obtain ⟨⟨e', b⟩, hfind, rfl⟩ := Option.map_eq_some_iff.mp h
  have hb : b = true := List.find?_some (p := fun x : ε × Bool => x.2) hfind
  exact hb ▸ List.mem_of_find?_eq_some hfind

/-- **The program takes the steps of the plan.** -/
structure Follows (m : Prog ε σ α) (p : List (ε × Bool)) (s : σ) (a : α) (s' : σ)
    (U : ε → σ → Prop) : Prop where
  done : firstFailure p = none → m s = (.ok a, s')
  failed : ∀ e, firstFailure p = some e → ∃ t, m s = (.error e, t) ∧ U e t

namespace Follows

variable {m : Prog ε σ α} {f : α → Prog ε σ β} {p q : List (ε × Bool)} {s s' s'' : σ} {a : α}
    {b : β}
  {U V : ε → σ → Prop}

/-- Nothing to follow. -/
theorem pure (a : α) (s : σ) (U : ε → σ → Prop) : Follows (pure a : Prog ε σ α) [] s a s U :=
  ⟨fun _ => rfl, by simp⟩

/-- One program after the other takes the steps of both; the second runs where no step of the first
fails. -/
theorem bind_of_done (hm : Follows m p s a s' U)
    (hf : firstFailure p = none → Follows (f a) q s' b s'' U) :
    Follows (m >>= f) (p ++ q) s b s'' U := by
  have hrun : ∀ r t, m s = (r, t) → (m >>= f) s = match r with
      | .ok a => f a t
      | .error e => (.error e, t) := by
    intro r t hr
    change (match m s with | (.ok a, s') => f a s' | (.error e, s') => (.error e, s')) = _
    rw [hr]
    rcases r <;> rfl
  rcases hp : firstFailure p with _ | e
  · have hok := hrun _ _ (hm.done hp)
    refine ⟨fun h => ?_, fun e h => ?_⟩
    · rw [firstFailure_append, hp, Option.none_or] at h
      rw [hok]
      exact (hf hp).done h
    · rw [firstFailure_append, hp, Option.none_or] at h
      rw [hok]
      exact (hf hp).failed e h
  · obtain ⟨t, ht, hU⟩ := hm.failed e hp
    have herr := hrun _ _ ht
    refine ⟨fun h => ?_, fun e' h => ?_⟩
    · rw [firstFailure_append, hp] at h
      cases h
    · rw [firstFailure_append, hp] at h
      obtain rfl := Option.some.inj h
      exact ⟨t, herr, hU⟩

/-- The plans of a sequence, one behind the other. -/
theorem bind (hm : Follows m p s a s' U) (hf : Follows (f a) q s' b s'' U) :
    Follows (m >>= f) (p ++ q) s b s'' U :=
  hm.bind_of_done fun _ => hf

theorem bind_pure (hm : Follows m p s a s' U) (g : α → β) :
    Follows (m >>= fun x => Pure.pure (g x)) p s (g a) s' U := by
  have h : Follows (m >>= fun x => Pure.pure (g x)) (p ++ []) s (g a) s' U :=
    hm.bind (Follows.pure (g a) s' U)
  rwa [List.append_nil] at h

/-- A call is a plan of one step. -/
theorem attempt {e : ε} {f : σ → Bool × σ} {ok : Bool} (hf : f s = (ok, s'))
    (hU : ok = false → U e s') : Follows (Fallible.attempt e f) [(e, !ok)] s () s' U := by
  rcases ok
  · refine ⟨by simp, fun e' h => ?_⟩
    obtain rfl := Option.some.inj h
    exact ⟨s', by rw [Fallible.attempt, hf], hU rfl⟩
  · exact ⟨fun _ => by rw [Fallible.attempt, hf], by simp⟩

/-- A query is a plan of one step. -/
theorem query {e : ε} {f : σ → Option α} {fails : Bool} (hf : f s = if fails then none else some a)
    (hU : fails = true → U e s) : Follows (Fallible.query e f) [(e, fails)] s a s U := by
  rcases fails
  · exact ⟨fun _ => by rw [Fallible.query, hf]; rfl, by simp⟩
  · refine ⟨by simp, fun e' h => ?_⟩
    obtain rfl := Option.some.inj h
    exact ⟨s, by rw [Fallible.query, hf]; rfl, hU rfl⟩

theorem reading (f : σ → α) (s : σ) (U : ε → σ → Prop) :
    Follows (Fallible.reading f) [] s (f s) s U :=
  ⟨fun _ => rfl, by simp⟩

/-- The plan of a part that is run only under a condition. -/
theorem onlyIf {m : Prog ε σ Unit} {c : Bool} (hm : c = true → Follows m p s () s' U) :
    Follows (Fallible.onlyIf c m) (if c then p else []) s () (if c then s' else s) U := by
  rcases c
  · exact Follows.pure () s U
  · exact hm rfl

/-- The plan of a part whose answer is kept only under a condition. -/
theorem optionally {c : Bool} (hm : c = true → Follows m p s a s' U) :
    Follows (Fallible.optionally c m) (if c then p else []) s (if c then some a else none)
      (if c then s' else s) U := by
  rcases c
  · exact Follows.pure none s U
  · exact (hm rfl).bind_pure some

/-- Only what the failing steps of the plan leave matters. -/
theorem mono (hm : Follows m p s a s' U)
    (h : ∀ e t, firstFailure p = some e → U e t → V e t) :
    Follows m p s a s' V := by
  refine ⟨hm.done, fun e he => ?_⟩
  obtain ⟨t, ht, hU⟩ := hm.failed e he
  exact ⟨t, ht, h e t he hU⟩

/-- Cleaning up when the program fails. -/
theorem onError {clean : σ → σ} (hm : Follows m p s a s' U)
    (h : ∀ e t, firstFailure p = some e → U e t → V e (clean t)) :
    Follows (Fallible.onError m clean) p s a s' V := by
  refine ⟨fun hp => ?_, fun e he => ?_⟩
  · rw [Fallible.onError, hm.done hp]
  · obtain ⟨t, ht, hU⟩ := hm.failed e he
    exact ⟨clean t, by rw [Fallible.onError, ht], h e t he hU⟩

/-- A loop whose turns leave the state takes the steps of its turns. -/
theorem forM {γ : Type} {f : γ → Prog ε σ Unit} {q : γ → List (ε × Bool)} {l : List γ}
    (h : ∀ x ∈ l, Follows (f x) (q x) s () s U) : Follows (l.forM f) (l.flatMap q) s () s U := by
  induction l with
  | nil => exact Follows.pure () s U
  | cons x l ih =>
    have hfirst := h x List.mem_cons_self
    have hrest := ih fun y hy => h y (List.mem_cons_of_mem x hy)
    rw [List.flatMap_cons]
    exact hfirst.bind hrest

/-- The program succeeds exactly when no step of the plan fails. -/
theorem ok_iff (hm : Follows m p s a s' U) :
    (∃ b t, m s = (.ok b, t)) ↔ firstFailure p = none := by
  constructor
  · rintro ⟨b, t, ht⟩
    by_contra hne
    obtain ⟨e, he⟩ := Option.ne_none_iff_exists'.mp hne
    obtain ⟨t', ht', -⟩ := hm.failed e he
    rw [ht] at ht'
    cases (Prod.mk.inj ht').1
  · intro h
    exact ⟨a, s', hm.done h⟩

/-- The program fails exactly with the first failing step of the plan. -/
theorem error_iff (hm : Follows m p s a s' U) (e : ε) :
    (m s).1 = .error e ↔ firstFailure p = some e := by
  rcases hp : firstFailure p with _ | e'
  · rw [hm.done hp]
    simp
  · obtain ⟨t, ht, -⟩ := hm.failed e' hp
    rw [ht]
    simp

/-- **When every failure leaves what is asked for**: when the first failing step does. -/
theorem forall_error_iff {P : σ → Prop} {Q : ε → Prop} (hm : Follows m p s a s' U)
    (h : ∀ e t, U e t → (P t ↔ Q e)) :
    (∀ e t, m s = (.error e, t) → P t) ↔ ∀ e, firstFailure p = some e → Q e := by
  constructor
  · intro hall e he
    obtain ⟨t, ht, hU⟩ := hm.failed e he
    exact (h e t hU).mp (hall e t ht)
  · intro hall e t ht
    have he : firstFailure p = some e := (hm.error_iff e).mp (congrArg Prod.fst ht)
    obtain ⟨t', ht', hU⟩ := hm.failed e he
    obtain rfl : t' = t := (Prod.mk.inj (ht'.symm.trans ht)).2
    exact (h e t' hU).mpr (hall e he)

end Follows

/-! ## Programs along an embedding of states -/

variable {τ : Type} {ι : τ → σ}

/-- On the embedded states the program does what another one does before embedding. -/
structure Along (ι : τ → σ) (m : Prog ε σ α) (m₀ : Prog ε τ α) : Prop where
  run : ∀ t, m (ι t) = ((m₀ t).1, ι (m₀ t).2)

namespace Along

variable {m : Prog ε σ α} {m₀ : Prog ε τ α}

theorem pure (a : α) : Along ι (Pure.pure a : Prog ε σ α) (Pure.pure a) := ⟨fun _ => rfl⟩

/-- A sequence, part by part. -/
theorem bind {f : α → Prog ε σ β} {f₀ : α → Prog ε τ β} (hm : Along ι m m₀)
    (hf : ∀ a, Along ι (f a) (f₀ a)) : Along ι (m >>= f) (m₀ >>= f₀) := by
  constructor
  intro t
  have ht := hm.run t
  rcases h₀ : m₀ t with ⟨e | a, t'⟩
  · rw [h₀] at ht
    rw [bind_of_error h₀, bind_of_error ht]
  · rw [h₀] at ht
    rw [bind_of_ok h₀, bind_of_ok ht, (hf a).run t']

/-- A call that corresponds to a call. -/
theorem attempt {e : ε} {f : σ → Bool × σ} {f₀ : τ → Bool × τ}
    (hf : ∀ t, f (ι t) = ((f₀ t).1, ι (f₀ t).2)) :
    Along ι (Fallible.attempt e f) (Fallible.attempt e f₀) := by
  constructor
  intro t
  rw [Fallible.attempt, Fallible.attempt, hf]
  rcases f₀ t with ⟨_ | _, t'⟩ <;> rfl

/-- A query that has the same answer. -/
theorem query {e : ε} {f : σ → Option α} {f₀ : τ → Option α} (hf : ∀ t, f (ι t) = f₀ t) :
    Along ι (Fallible.query e f) (Fallible.query e f₀) := by
  constructor
  intro t
  rw [Fallible.query, Fallible.query, hf]
  rcases f₀ t with _ | a <;> rfl

theorem reading {f : σ → α} {f₀ : τ → α} (hf : ∀ t, f (ι t) = f₀ t) :
    Along ι (Fallible.reading f : Prog ε σ α) (Fallible.reading f₀) := by
  constructor
  intro t
  rw [Fallible.reading, Fallible.reading, hf]

/-- A cleanup that corresponds to a cleanup. -/
theorem onError {clean : σ → σ} {clean₀ : τ → τ} (hm : Along ι m m₀)
    (hclean : ∀ t, clean (ι t) = ι (clean₀ t)) :
    Along ι (Fallible.onError m clean) (Fallible.onError m₀ clean₀) := by
  constructor
  intro t
  have ht := hm.run t
  rw [Fallible.onError, Fallible.onError, ht]
  rcases m₀ t with ⟨e | a, t'⟩
  · exact congrArg (Prod.mk (Except.error e)) (hclean t')
  · rfl

theorem onlyIf {m : Prog ε σ Unit} {m₀ : Prog ε τ Unit} (c : Bool) (hm : Along ι m m₀) :
    Along ι (Fallible.onlyIf c m) (Fallible.onlyIf c m₀) := by
  rcases c
  · exact pure ()
  · exact hm

theorem optionally (c : Bool) (hm : Along ι m m₀) :
    Along ι (Fallible.optionally c m) (Fallible.optionally c m₀) := by
  rcases c
  · exact pure none
  · exact hm.bind fun a => pure (some a)

/-- Either branch. -/
theorem ite {p : Prop} [Decidable p] {n : Prog ε σ α} {n₀ : Prog ε τ α} (hm : Along ι m m₀)
    (hn : Along ι n n₀) : Along ι (if p then m else n) (if p then m₀ else n₀) := by
  split_ifs
  · exact hm
  · exact hn

/-- Several programs in turn, by induction on the list. -/
theorem inTurn {γ : Type} {f : γ → Prog ε σ α} {f₀ : γ → Prog ε τ α} {cs : List γ}
    (h : ∀ c ∈ cs, Along ι (f c) (f₀ c)) (t : τ) :
    inTurn (cs.map f) (ι t) = ((inTurn (cs.map f₀) t).1, ι (inTurn (cs.map f₀) t).2) := by
  induction cs generalizing t with
  | nil => rfl
  | cons c cs ih =>
    have hc := (h c List.mem_cons_self).run t
    have hcs := ih (fun d hd => h d (List.mem_cons_of_mem _ hd)) (f₀ c t).2
    simp only [List.map_cons, Fallible.inTurn, hc, hcs]

end Along

/-! ## Programs on a part of the state -/

/-- Run on a part of the state. -/
def zoom {τ : Type} (get : σ → τ) (put : τ → σ → σ) (m : Prog ε τ α) : Prog ε σ α := fun s =>
  ((m (get s)).1, put (m (get s)).2 s)

/-- **The program does to a part of the state what another one does.** -/
structure Over {τ : Type} (π : σ → τ) (m : Prog ε σ α) (m₀ : Prog ε τ α) : Prop where
  run : ∀ s, m₀ (π s) = ((m s).1, π (m s).2)

namespace Over

variable {τ : Type} {π : σ → τ} {m : Prog ε σ α} {m₀ : Prog ε τ α}

/-- A sequence, part by part. -/
theorem bind {f : α → Prog ε σ β} {f₀ : α → Prog ε τ β} (hm : Over π m m₀)
    (hf : ∀ a, Over π (f a) (f₀ a)) : Over π (m >>= f) (m₀ >>= f₀) := by
  constructor
  intro s
  have hs := hm.run s
  rcases h : m s with ⟨e | a, s'⟩
  · rw [h] at hs
    rw [bind_of_error h, bind_of_error hs]
  · rw [h] at hs
    rw [bind_of_ok h, bind_of_ok hs, (hf a).run s']

theorem reading {f : σ → α} {f₀ : τ → α} (hf : ∀ s, f₀ (π s) = f s) :
    Over π (Fallible.reading f : Prog ε σ α) (Fallible.reading f₀) :=
  ⟨fun s => congrArg (fun a => (Except.ok a, π s)) (hf s)⟩

/-- A call that does the same to what is seen. -/
theorem attempt {e : ε} {f : σ → Bool × σ} {f₀ : τ → Bool × τ}
    (hf : ∀ s, f₀ (π s) = ((f s).1, π (f s).2)) :
    Over π (Fallible.attempt e f) (Fallible.attempt e f₀) := by
  constructor
  intro s
  rw [Fallible.attempt, Fallible.attempt, hf]
  rcases f s with ⟨_ | _, s'⟩
  · rfl
  · rfl

/-- A program on a part of the state, seen as that part. -/
theorem zoom {put : τ → σ → σ} (hput : ∀ t s, π (put t s) = t) (m₀ : Prog ε τ α) :
    Over π (Fallible.zoom π put m₀) m₀ :=
  ⟨fun s => congrArg (Prod.mk (m₀ (π s)).1) (hput _ s).symm⟩

theorem onlyIf {m : Prog ε σ Unit} {m₀ : Prog ε τ Unit} (c : Bool) (hm : Over π m m₀) :
    Over π (Fallible.onlyIf c m) (Fallible.onlyIf c m₀) := by
  rcases c
  · exact ⟨fun _ => rfl⟩
  · exact hm

/-- What a success leaves of what is seen. -/
theorem ok {s s' : σ} {a : α} (hm : Over π m m₀) (h : m s = (.ok a, s')) :
    m₀ (π s) = (.ok a, π s') := by
  rw [hm.run, h]

end Over

/-! ## What every run keeps -/

/-- **Whatever the program ends with**, the state is then related to the one before. -/
structure Keeps (R : σ → σ → Prop) (m : Prog ε σ α) : Prop where
  run : ∀ s, R s (m s).2

namespace Keeps

variable {R : σ → σ → Prop} {m : Prog ε σ α}

/-- A sequence, for a transitive relation. -/
theorem bind [IsTrans σ R] {f : α → Prog ε σ β} (hm : Keeps R m) (hf : ∀ a, Keeps R (f a)) :
    Keeps R (m >>= f) := by
  constructor
  intro s
  have hs := hm.run s
  rcases h : m s with ⟨e | a, s'⟩
  · rw [h] at hs
    rw [bind_of_error h]
    exact hs
  · rw [h] at hs
    rw [bind_of_ok h]
    exact trans_of R hs ((hf a).run s')

theorem pure [Std.Refl R] (a : α) : Keeps R (Pure.pure a : Prog ε σ α) := ⟨fun s => refl_of R s⟩

theorem reading [Std.Refl R] (f : σ → α) : Keeps R (Fallible.reading f : Prog ε σ α) :=
  ⟨fun s => refl_of R s⟩

/-- A loop, by induction on the list. -/
theorem forM [Std.Refl R] [IsTrans σ R] {γ : Type} {f : γ → Prog ε σ PUnit}
    (hf : ∀ c, Keeps R (f c)) (cs : List γ) : Keeps R (cs.forM f) := by
  induction cs with
  | nil => exact ⟨fun s => refl_of R s⟩
  | cons c cs ih => exact bind (hf c) fun _ => ih

theorem query [Std.Refl R] (e : ε) (f : σ → Option α) : Keeps R (Fallible.query e f) := by
  constructor
  intro s
  rw [Fallible.query]
  rcases f s with _ | a
  · exact refl_of R s
  · exact refl_of R s

/-- A call after which the relation holds. -/
theorem attempt {e : ε} {f : σ → Bool × σ} (hf : ∀ s, R s (f s).2) :
    Keeps R (Fallible.attempt e f) := by
  constructor
  intro s
  have hs := hf s
  rw [Fallible.attempt]
  rcases h : f s with ⟨_ | _, s'⟩
  · rw [h] at hs
    exact hs
  · rw [h] at hs
    exact hs

theorem onlyIf [Std.Refl R] {m : Prog ε σ Unit} {c : Bool} (hm : Keeps R m) :
    Keeps R (Fallible.onlyIf c m) := by
  rcases c
  · exact pure ()
  · exact hm

theorem reporting {f : ε → ε'} (hm : Keeps R m) : Keeps R (Fallible.reporting f m) := by
  constructor
  intro s
  have hs := hm.run s
  rw [Fallible.reporting]
  rcases h : m s with ⟨e | a, s'⟩
  · rw [h] at hs
    exact hs
  · rw [h] at hs
    exact hs

end Keeps

/-! ## Programs on data of another form -/

/-- **The program does what another one does.**  It leaves the same state, its value has the form
`P` of the other's, and it fails with the same step, told by `f`. -/
structure Realizes (f : ε → ε') (P : α → β → Prop) (m₀ : Prog ε σ α) (m : Prog ε' σ β) : Prop where
  ok : ∀ {s s' : σ} {a : α}, m₀ s = (.ok a, s') → ∃ b, m s = (.ok b, s') ∧ P a b
  error : ∀ {s s' : σ} {e : ε}, m₀ s = (.error e, s') → m s = (.error (f e), s')

namespace Realizes

variable {γ δ : Type} {f : ε → ε'} {P : α → β → Prop} {Q : γ → δ → Prop} {m₀ : Prog ε σ α}
  {m : Prog ε' σ β}

/-- Answers that belong together. -/
theorem pure {a : α} {b : β} (h : P a b) :
    Realizes f P (Pure.pure a : Prog ε σ α) (Pure.pure b) where
  ok hrun := by
    obtain ⟨rfl, rfl⟩ := pure_ok hrun
    exact ⟨b, rfl, h⟩
  error hrun := (pure_error hrun).elim

/-- The same program, its errors told. -/
theorem reporting (f : ε → ε') (m : Prog ε σ α) : Realizes f Eq m (Fallible.reporting f m) where
  ok hrun := ⟨_, reporting_of_ok hrun, rfl⟩
  error hrun := by rw [Fallible.reporting, hrun]

/-- A sequence, part by part. -/
theorem bind {g₀ : α → Prog ε σ γ} {g : β → Prog ε' σ δ} (hm : Realizes f P m₀ m)
    (hg : ∀ a b, P a b → Realizes f Q (g₀ a) (g b)) : Realizes f Q (m₀ >>= g₀) (m >>= g) where
  ok hrun := by
    obtain ⟨a, s', hm₀, hg₀⟩ := bind_ok hrun
    obtain ⟨b, hb, hP⟩ := hm.ok hm₀
    rw [bind_of_ok hb]
    exact (hg a b hP).ok hg₀
  error hrun := by
    rcases bind_error hrun with hm₀ | ⟨a, s', hm₀, hg₀⟩
    · exact bind_of_error (hm.error hm₀)
    · obtain ⟨b, hb, hP⟩ := hm.ok hm₀
      rw [bind_of_ok hb]
      exact (hg a b hP).error hg₀

/-- What comes behind on the one side alone. -/
theorem bind_pure {Q : α → δ → Prop} {g : β → Prog ε' σ δ} (hm : Realizes f P m₀ m)
    (hg : ∀ a b, P a b → ∃ d, g b = Pure.pure d ∧ Q a d) : Realizes f Q m₀ (m >>= g) where
  ok hrun := by
    obtain ⟨b, hb, hP⟩ := hm.ok hrun
    obtain ⟨d, hd, hQ⟩ := hg _ b hP
    rw [bind_of_ok hb, hd]
    exact ⟨d, rfl, hQ⟩
  error hrun := bind_of_error (hm.error hrun)

/-- The same cleanup on both sides. -/
theorem onError {clean clean₀ : σ → σ} (hm : Realizes f P m₀ m) (hclean : ∀ s, clean s = clean₀ s) :
    Realizes f P (Fallible.onError m₀ clean₀) (Fallible.onError m clean) where
  ok hrun := by
    obtain ⟨b, hb, hP⟩ := hm.ok (onError_ok hrun)
    exact ⟨b, onError_of_ok hb, hP⟩
  error hrun := by
    obtain ⟨t, ht, rfl⟩ := onError_error hrun
    rw [onError_of_error (hm.error ht), hclean]

/-- A weaker relation of the answers. -/
theorem mono {Q : α → β → Prop} (hm : Realizes f P m₀ m)
    (h : ∀ {s s' : σ} {a : α} {b : β}, m₀ s = (.ok a, s') → P a b → Q a b) :
    Realizes f Q m₀ m where
  ok hrun := by
    obtain ⟨b, hb, hP⟩ := hm.ok hrun
    exact ⟨b, hb, h hrun hP⟩
  error := hm.error

/-- Every error is one that is told. -/
theorem exists_of_error (hm : Realizes f P m₀ m) {s t : σ} {e' : ε'} (h : m s = (.error e', t)) :
    ∃ e, e' = f e := by
  rcases h₀ : m₀ s with ⟨e | a, s'⟩
  · have hrun := (hm.error h₀).symm.trans h
    exact ⟨e, (Except.error.inj (Prod.mk.inj hrun).1).symm⟩
  · obtain ⟨b, hb, -⟩ := hm.ok h₀
    cases (Prod.mk.inj (hb.symm.trans h)).1

/-- What the program returns is what the other one does, in its form. -/
theorem exists_of_ok (hm : Realizes f P m₀ m) {s t : σ} {b : β} (h : m s = (.ok b, t)) :
    ∃ a, m₀ s = (.ok a, t) ∧ P a b := by
  rcases h₀ : m₀ s with ⟨e | a, s'⟩
  · cases (Prod.mk.inj ((hm.error h₀).symm.trans h)).1
  · obtain ⟨b', hb, hP⟩ := hm.ok h₀
    obtain ⟨hval, rfl⟩ := Prod.mk.inj (hb.symm.trans h)
    obtain rfl : b' = b := Except.ok.inj hval
    exact ⟨a, rfl, hP⟩

end Realizes

end Fallible
