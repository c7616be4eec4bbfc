import Mathlib.Data.List.Forall2

/-!
# Data/Except — taking successful computations apart, and comparing two
-/

namespace Except

variable {ε α β : Type}

/-- Taking the first computation of a successful sequence apart. -/
theorem bind_eq_ok {x : Except ε α} {f : α → Except ε β} {b : β} (h : x >>= f = .ok b) :
    ∃ a, x = .ok a ∧ f a = .ok b := by
  rcases x with e | a
  · cases h
  · exact ⟨a, rfl, h⟩

/-- **What every turn of a loop keeps** holds behind the loop. -/
theorem foldlM_inv {f : β → α → Except ε β} {Inv : β → Prop} {as : List α}
    (hstep : ∀ b a b', a ∈ as → Inv b → f b a = .ok b' → Inv b') {b b' : β} (hb : Inv b)
    (h : as.foldlM f b = .ok b') : Inv b' := by
  induction as generalizing b with
  | nil =>
    rw [← Except.ok.inj h]
    exact hb
  | cons a as ih =>
    rw [List.foldlM_cons] at h
    obtain ⟨b₁, hturn, h⟩ := bind_eq_ok h
    exact ih (fun b a b' ha => hstep b a b' (List.mem_cons_of_mem _ ha))
      (hstep b a b₁ List.mem_cons_self hb hturn) h

/-- A success of a map is one of what is mapped. -/
theorem map_eq_ok {x : Except ε α} {f : α → β} {b : β} (h : x.map f = .ok b) :
    ∃ a, x = .ok a ∧ f a = b := by
  rcases x with e | a
  · cases h
  · exact ⟨a, rfl, Except.ok.inj h⟩

theorem eq_ok_of_isOk {x : Except ε α} (hx : x.isOk) (d : α) : x = .ok (x.toOption.getD d) := by
  rcases x with e | a
  · cases hx
  · rfl

theorem toOption_eq_some {x : Except ε α} {a : α} (h : x.toOption = some a) : x = .ok a := by
  rcases x with e | b
  · cases h
  · exact congrArg Except.ok (Option.some.inj h)

/-- Forgetting the errors of a sequence. -/
theorem toOption_bind (x : Except ε α) (f : α → Except ε β) :
    (x >>= f).toOption = x.toOption >>= fun a => (f a).toOption := by
  rcases x with e | a <;> rfl

@[simp] theorem toOption_mapError {ε' : Type} (x : Except ε α) (g : ε → ε') :
    (x.mapError g).toOption = x.toOption := by
  rcases x with e | a <;> rfl

/-- A list of computations succeeds when each of them does. -/
theorem mapM_eq_ok_iff {f : α → Except ε β} {as : List α} {bs : List β} :
    as.mapM f = .ok bs ↔ List.Forall₂ (fun a b => f a = .ok b) as bs := by
  induction as generalizing bs with
  | nil =>
    rw [List.mapM_nil, List.forall₂_nil_left_iff]
    constructor
    · intro h
      exact (Except.ok.inj h).symm
    · rintro rfl
      rfl
  | cons a as ih =>
    rw [List.mapM_cons, List.forall₂_cons_left_iff]
    constructor
    · intro h
      obtain ⟨b, hb, h⟩ := bind_eq_ok h
      obtain ⟨bs', hbs', h⟩ := bind_eq_ok h
      exact ⟨b, bs', hb, ih.mp hbs', (Except.ok.inj h).symm⟩
    · rintro ⟨b, bs', hb, hbs', rfl⟩
      rw [hb, ih.mpr hbs']
      rfl

/-- Forgetting the errors of a loop. -/
theorem toOption_mapM (f : α → Except ε β) (as : List α) :
    (as.mapM f).toOption = as.mapM fun a => (f a).toOption := by
  induction as with
  | nil => rfl
  | cons a as ih =>
    rw [List.mapM_cons, List.mapM_cons, toOption_bind, ← ih]
    rcases f a with e | b
    · rfl
    · rcases as.mapM f with e | bs <;> rfl

/-! ## Two computations side by side -/

/-- Both computations fail alike, or both succeed, with results that are related. -/
inductive Related (R : α → β → Prop) : Except ε α → Except ε β → Prop
  | error (e : ε) : Related R (.error e) (.error e)
  | ok {a : α} {b : β} (h : R a b) : Related R (.ok a) (.ok b)

namespace Related

variable {α' β' : Type} {R : α → β → Prop} {S : α' → β' → Prop}

/-- Every outcome is related to itself. -/
theorem refl (x : Except ε α) : Related Eq x x := by
  rcases x with e | a
  · exact .error e
  · exact .ok rfl

/-- **Sequences of related computations are related.** -/
theorem bind {x : Except ε α} {y : Except ε β} {f : α → Except ε α'} {g : β → Except ε β'}
    (h : Related R x y) (hf : ∀ a b, R a b → Related S (f a) (g b)) :
    Related S (x >>= f) (y >>= g) := by
  rcases h with e | h
  · exact .error e
  · exact hf _ _ h

/-- A computation both of them start with. -/
theorem bind_same {x : Except ε α} {f : α → Except ε α'} {g : α → Except ε β'}
    (hf : ∀ a, Related S (f a) (g a)) : Related S (x >>= f) (x >>= g) := by
  refine (refl x).bind fun a b hab => ?_
  subst hab
  exact hf a

/-- A success on one side is one on the other. -/
theorem exists_ok {x : Except ε α} {y : Except ε β} {a : α} (h : Related R x y) (ha : x = .ok a) :
    ∃ b, y = .ok b ∧ R a b := by
  rcases h with e | @⟨a', b, h⟩
  · cases ha
  · obtain rfl := Except.ok.inj ha
    exact ⟨b, rfl, h⟩

end Related

end Except
