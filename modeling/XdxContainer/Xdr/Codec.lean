import Mathlib.Algebra.Group.Nat.Defs
import Mathlib.Algebra.Group.Int.Defs
import Mathlib.Data.List.Basic
import Mathlib.Logic.Equiv.Defs
import Mathlib.Tactic.Common

/-!
# Xdr/Codec — codecs that read back what they wrote, and how they are put together

    a ──encode──▸ w        w ++ rest ──decode──▸ (a, rest)        w ++ v, v ≠ [] ⟹ w is refused

A codec writes a value as a word over `β`, if it can, and reads one from the front of a stream.  Its
laws are fields, so that whatever is put together from codecs obeys them: what was written is read
back, whatever follows it; what is read does not depend on what follows; lengths are multiples of
`k`.  No encoding is then the start of another one, and a cut off encoding is refused.
-/

/-- A codec over `β` for values of type `α`, in blocks of `k`. -/
structure Codec (β : Type) (k : ℕ) (α : Type) where
  encode : α → Option (List β)
  decode : List β → Option (α × List β)
  decode_encode : ∀ {a w}, encode a = some w → ∀ rest, decode (w ++ rest) = some (a, rest)
  decode_append : ∀ {w a rest}, decode w = some (a, rest) →
    ∀ more, decode (w ++ more) = some (a, rest ++ more)
  dvd_length : ∀ {a w}, encode a = some w → k ∣ w.length

namespace Codec

variable {β : Type} {k : ℕ} {α γ τ : Type}

/-- The value can be written. -/
def Writes (c : Codec β k α) (a : α) : Prop := (c.encode a).isSome

instance (c : Codec β k α) (a : α) : Decidable (c.Writes a) :=
  inferInstanceAs (Decidable ((c.encode a).isSome))

/-! ## What follows from the laws -/

section Laws

variable (c : Codec β k α) {a b : α} {w v : List β}

/-- A value is written if it can be encoded. -/
theorem writes_iff : c.Writes a ↔ ∃ w, c.encode a = some w := Option.isSome_iff_exists

/-- **What is encoded is decoded.** -/
theorem decode_encode_self (h : c.encode a = some w) : c.decode w = some (a, []) := by
  have hread := c.decode_encode h []
  rwa [List.append_nil] at hread

/-- No encoding is the start of another one. -/
theorem encode_prefix_free (ha : c.encode a = some w) (hb : c.encode b = some v) (h : w <+: v) :
    a = b ∧ w = v := by
  obtain ⟨rest, rfl⟩ := h
  have hread : some (a, rest) = some (b, []) :=
    (c.decode_encode ha rest).symm.trans (c.decode_encode_self hb)
  obtain ⟨rfl, rfl⟩ := Prod.mk.inj (Option.some.inj hread)
  exact ⟨rfl, (List.append_nil w).symm⟩

/-- **A cut off encoding is refused.** -/
theorem decode_eq_none_of_truncated (h : c.encode a = some (w ++ v)) (hv : v ≠ []) :
    c.decode w = none := by
  rcases hw : c.decode w with _ | ⟨b, rest⟩
  · rfl
  · have hread : some (b, rest ++ v) = some (a, []) :=
      (c.decode_append hw v).symm.trans (c.decode_encode_self h)
    obtain ⟨-, hrest⟩ := Prod.mk.inj (Option.some.inj hread)
    exact absurd (List.append_eq_nil_iff.mp hrest).2 hv

end Laws

/-! ## Putting codecs together -/

/-- The codec of the only value: nothing is written. -/
def unit : Codec β k Unit where
  encode _ := some []
  decode w := some ((), w)
  decode_encode h rest := by rw [← Option.some.inj h, List.nil_append]
  decode_append h more := by
    obtain ⟨rfl, rfl⟩ := Prod.mk.inj (Option.some.inj h)
    rfl
  dvd_length h := by
    rw [← Option.some.inj h]
    exact Nat.dvd_zero k

/-- Writing `a` and then `g`. -/
def seqEncode (c : Codec β k α) (d : α → Codec β k γ) (p : α × γ) : Option (List β) :=
  (c.encode p.1).bind fun w => ((d p.1).encode p.2).map (w ++ ·)

/-- Reading `a` and then, by it, `g`. -/
def seqDecode (c : Codec β k α) (d : α → Codec β k γ) (w : List β) : Option ((α × γ) × List β) :=
  (c.decode w).bind fun (a, w) => ((d a).decode w).map fun (g, rest) => ((a, g), rest)

section Sequence

variable {c : Codec β k α} {d : α → Codec β k γ}

/-- A pair is encoded one behind the other. -/
theorem seqEncode_eq_some {p : α × γ} {w : List β} : seqEncode c d p = some w ↔
    ∃ u v, c.encode p.1 = some u ∧ (d p.1).encode p.2 = some v ∧ u ++ v = w := by
  simp only [seqEncode, Option.bind_eq_some_iff, Option.map_eq_some_iff]
  constructor
  · rintro ⟨u, hu, v, hv, rfl⟩
    exact ⟨u, v, hu, hv, rfl⟩
  · rintro ⟨u, v, hu, hv, rfl⟩
    exact ⟨u, hu, v, hv, rfl⟩

/-- A pair is decoded one behind the other. -/
theorem seqDecode_eq_some {w rest : List β} {p : α × γ} : seqDecode c d w = some (p, rest) ↔
    ∃ v, c.decode w = some (p.1, v) ∧ (d p.1).decode v = some (p.2, rest) := by
  simp only [seqDecode, Option.bind_eq_some_iff, Option.map_eq_some_iff]
  constructor
  · rintro ⟨⟨a, v⟩, ha, ⟨g, r⟩, hg, heq⟩
    obtain ⟨rfl, rfl⟩ := Prod.mk.inj heq
    exact ⟨v, ha, hg⟩
  · rintro ⟨v, ha, hg⟩
    exact ⟨(p.1, v), ha, (p.2, rest), hg, rfl⟩

theorem seqEncode_isSome {p : α × γ} :
    (seqEncode c d p).isSome ↔ c.Writes p.1 ∧ (d p.1).Writes p.2 := by
  simp only [writes_iff, Option.isSome_iff_exists, seqEncode_eq_some]
  constructor
  · rintro ⟨w, u, v, hu, hv, -⟩
    exact ⟨⟨u, hu⟩, ⟨v, hv⟩⟩
  · rintro ⟨⟨u, hu⟩, ⟨v, hv⟩⟩
    exact ⟨u ++ v, u, v, hu, hv, rfl⟩

end Sequence

/-- **One after the other**; how the second is written may depend on the first. -/
def seq (c : Codec β k α) (d : α → Codec β k γ) : Codec β k (α × γ) where
  encode := seqEncode c d
  decode := seqDecode c d
  decode_encode h rest := by
    obtain ⟨u, v, hu, hv, rfl⟩ := seqEncode_eq_some.mp h
    rw [List.append_assoc]
    exact seqDecode_eq_some.mpr ⟨v ++ rest, c.decode_encode hu _, (d _).decode_encode hv rest⟩
  decode_append h more := by
    obtain ⟨v, ha, hg⟩ := seqDecode_eq_some.mp h
    exact seqDecode_eq_some.mpr ⟨v ++ more, c.decode_append ha more, (d _).decode_append hg more⟩
  dvd_length h := by
    obtain ⟨u, v, hu, hv, rfl⟩ := seqEncode_eq_some.mp h
    rw [List.length_append]
    exact Nat.dvd_add (c.dvd_length hu) ((d _).dvd_length hv)

/-- A pair is written if both of it are. -/
theorem writes_seq {c : Codec β k α} {d : α → Codec β k γ} {p : α × γ} :
    (c.seq d).Writes p ↔ c.Writes p.1 ∧ (d p.1).Writes p.2 := seqEncode_isSome

/-- Both, side by side. -/
abbrev both (c : Codec β k α) (d : Codec β k γ) : Codec β k (α × γ) := c.seq fun _ => d

/-- The same, where the second does not depend on the first. -/
theorem writes_both {c : Codec β k α} {d : Codec β k γ} {p : α × γ} :
    (c.both d).Writes p ↔ c.Writes p.1 ∧ d.Writes p.2 :=
  seqEncode_isSome (d := fun _ => d)

/-- **The words of other values**: a value is written as the one `f` makes of it, if there is one,
and a value read is refused unless `g` makes something of it. -/
def narrow (c : Codec β k α) (f : γ → Option α) (g : α → Option γ)
    (hfg : ∀ x a, f x = some a → g a = some x) : Codec β k γ where
  encode x := (f x).bind c.encode
  decode w := (c.decode w).bind fun p => (g p.1).map fun x => (x, p.2)
  decode_encode h rest := by
    obtain ⟨a, ha, hw⟩ := Option.bind_eq_some_iff.mp h
    rw [c.decode_encode hw rest, Option.bind_some, hfg _ _ ha]
    rfl
  decode_append h more := by
    obtain ⟨⟨a, r⟩, ha, hx⟩ := Option.bind_eq_some_iff.mp h
    obtain ⟨x, hg, heq⟩ := Option.map_eq_some_iff.mp hx
    obtain ⟨rfl, rfl⟩ := Prod.mk.inj heq
    rw [c.decode_append ha more, Option.bind_some, hg]
    rfl
  dvd_length h := by
    obtain ⟨a, -, hw⟩ := Option.bind_eq_some_iff.mp h
    exact c.dvd_length hw

/-- A value is written if it is one of the wider type. -/
theorem writes_narrow {c : Codec β k α} {f : γ → Option α} {g : α → Option γ}
    {hfg : ∀ x a, f x = some a → g a = some x} {x : γ} :
    (c.narrow f g hfg).Writes x ↔ ∃ a, f x = some a ∧ c.Writes a := by
  change ((f x).bind c.encode).isSome ↔ _
  rcases f x with _ | a
  · simp
  · simp [Writes]

/-- The same words for the values of an equivalent type. -/
def map (e : α ≃ γ) (c : Codec β k α) : Codec β k γ :=
  c.narrow (fun x => some (e.symm x)) (fun a => some (e a)) fun x a h => by
    rw [← Option.some.inj h, Equiv.apply_symm_apply]

theorem writes_map {e : α ≃ γ} {c : Codec β k α} {x : γ} :
    (c.map e).Writes x ↔ c.Writes (e.symm x) := Iff.rfl

/-! ## Unions -/

section Switch

variable [DecidableEq τ] (tag : Codec β k τ) (t₀ : τ) (c : Codec β k α) (d : Codec β k γ)

/-- Writing a union: the discriminant, then the arm it selects. -/
def switchEncode : α ⊕ {t : τ // t ≠ t₀} × γ → Option (List β)
  | .inl a => seqEncode tag (fun _ => c) (t₀, a)
  | .inr (t, g) => seqEncode tag (fun _ => d) (t.1, g)

/-- The value of a union, by the discriminant read. -/
def switchArm (t : τ) (w : List β) : Option ((α ⊕ {t : τ // t ≠ t₀} × γ) × List β) :=
  if h : t = t₀ then (c.decode w).map fun (a, rest) => (.inl a, rest)
  else (d.decode w).map fun (g, rest) => (.inr (⟨t, h⟩, g), rest)

/-- The tag, and then the arm for it. -/
def switchDecode (w : List β) : Option ((α ⊕ {t : τ // t ≠ t₀} × γ) × List β) :=
  (tag.decode w).bind fun (t, w) => switchArm t₀ c d t w

variable {tag t₀ c d}

theorem switchDecode_of_tag {w v : List β} {t : τ} (h : tag.decode w = some (t, v)) :
    switchDecode tag t₀ c d w = switchArm t₀ c d t v := by
  rw [switchDecode, h]
  rfl

/-- The arm of the tag that is singled out. -/
theorem switchArm_self {w rest : List β} {a : α} (h : c.decode w = some (a, rest)) :
    switchArm t₀ c d t₀ w = some (.inl a, rest) := by
  rw [switchArm, dif_pos rfl, h]
  rfl

/-- The arm of every other tag. -/
theorem switchArm_of_ne {w rest : List β} {g : γ} (t : {t : τ // t ≠ t₀})
    (h : d.decode w = some (g, rest)) : switchArm t₀ c d t.1 w = some (.inr (t, g), rest) := by
  rw [switchArm, dif_neg t.2, h]
  rfl

theorem switchArm_append {t : τ} {w rest : List β} {x : α ⊕ {t : τ // t ≠ t₀} × γ}
    (h : switchArm t₀ c d t w = some (x, rest)) (more : List β) :
    switchArm t₀ c d t (w ++ more) = some (x, rest ++ more) := by
  unfold switchArm at h
  split_ifs at h with ht
  · obtain ⟨⟨a, r⟩, ha, heq⟩ := Option.map_eq_some_iff.mp h
    obtain ⟨rfl, rfl⟩ := Prod.mk.inj heq
    subst ht
    exact switchArm_self (c.decode_append ha more)
  · obtain ⟨⟨g, r⟩, hg, heq⟩ := Option.map_eq_some_iff.mp h
    obtain ⟨rfl, rfl⟩ := Prod.mk.inj heq
    exact switchArm_of_ne ⟨t, ht⟩ (d.decode_append hg more)

variable (tag t₀ c d)

/-- **A union with a discriminant**: one arm for `t₀`, one for every other value. -/
def switch : Codec β k (α ⊕ {t : τ // t ≠ t₀} × γ) where
  encode := switchEncode tag t₀ c d
  decode := switchDecode tag t₀ c d
  decode_encode {x w} h rest := by
    rcases x with a | ⟨t, g⟩
    · rw [switchEncode, seqEncode_eq_some] at h
      obtain ⟨u, v, hu, hv, rfl⟩ := h
      rw [List.append_assoc, switchDecode_of_tag (tag.decode_encode hu _)]
      exact switchArm_self (c.decode_encode hv rest)
    · rw [switchEncode, seqEncode_eq_some] at h
      obtain ⟨u, v, hu, hv, rfl⟩ := h
      rw [List.append_assoc, switchDecode_of_tag (tag.decode_encode hu _)]
      exact switchArm_of_ne t (d.decode_encode hv rest)
  decode_append h more := by
    obtain ⟨⟨t, v⟩, htag, harm⟩ := Option.bind_eq_some_iff.mp h
    rw [switchDecode_of_tag (tag.decode_append htag more)]
    exact switchArm_append harm more
  dvd_length {x w} h := by
    rcases x with a | ⟨t, g⟩
    · exact (tag.both c).dvd_length h
    · exact (tag.both d).dvd_length h

variable {tag t₀ c d}

/-- A value of the first arm is written with its tag. -/
theorem writes_switch_inl {a : α} :
    (tag.switch t₀ c d).Writes (.inl a) ↔ tag.Writes t₀ ∧ c.Writes a :=
  seqEncode_isSome (d := fun _ => c)

/-- A value of the other arm is written with its tag. -/
theorem writes_switch_inr {t : {t : τ // t ≠ t₀}} {g : γ} :
    (tag.switch t₀ c d).Writes (.inr (t, g)) ↔ tag.Writes t.1 ∧ d.Writes g :=
  seqEncode_isSome (d := fun _ => d)

end Switch

end Codec
