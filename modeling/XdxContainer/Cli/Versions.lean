import Mathlib.Order.PiLex
import Mathlib.Order.WellFounded
import Mathlib.Data.List.Chain
import Mathlib.Data.List.TakeWhile
import XdxContainer.Cli.Dsl

/-!
# Cli/Versions — the order of versions

    "11.02."  ──▸  11, 2, 0, 0, …       compared lexicographically

A version is runs of digits with dots between them; its components, with zeros behind them, are a
point of the lexicographic order on `ℕ → ℕ`.

* `dslCompareVersion_components` — `dsl_compare_version` decides each comparator in that order,
  which makes it a total preorder on the texts.
-/

open Paths Scan

namespace Dsl

/-! ## Components -/

/-- The components, with zeros behind them. -/
def padded (ns : List ℕ) : Lex (ℕ → ℕ) := toLex fun i => ns.getD i 0

theorem padded_ext {ns ms : List ℕ} (h : ∀ i, padded ns i = padded ms i) : padded ns = padded ms :=
  funext h

/-- **Equal components** are equal one by one. -/
theorem padded_cons_eq {n m : ℕ} {ns ms : List ℕ} :
    padded (n :: ns) = padded (m :: ms) ↔ n = m ∧ padded ns = padded ms := by
  constructor
  · intro h
    exact ⟨congrFun h 0, funext fun i => congrFun h (i + 1)⟩
  · rintro ⟨rfl, h⟩
    refine padded_ext fun i => ?_
    rcases i with _ | i
    · rfl
    · exact congrFun h i

/-- **The first component that differs** decides. -/
theorem padded_cons_lt {n m : ℕ} {ns ms : List ℕ} :
    padded (n :: ns) < padded (m :: ms) ↔ n < m ∨ n = m ∧ padded ns < padded ms := by
  constructor
  · rintro ⟨i, heq, hlt⟩
    rcases i with _ | i
    · exact .inl hlt
    · exact .inr ⟨heq 0 (Nat.succ_pos i), i, fun j hj => heq (j + 1) (Nat.succ_lt_succ hj), hlt⟩
  · rintro (hlt | ⟨rfl, i, heq, hlt⟩)
    · exact ⟨0, fun j hj => absurd hj (Nat.not_lt_zero j), hlt⟩
    · refine ⟨i + 1, fun j hj => ?_, hlt⟩
      rcases j with _ | j
      · rfl
      · exact heq j (Nat.lt_of_succ_lt_succ hj)

/-- Zeros add nothing. -/
theorem padded_eq_nil_iff {ns : List ℕ} : padded ns = padded [] ↔ ∀ n ∈ ns, n = 0 := by
  have hzero : padded [] = padded [0] := by
    refine padded_ext fun i => ?_
    rcases i with _ | i <;> rfl
  induction ns with
  | nil => simp
  | cons n ns ih =>
    rw [List.forall_mem_cons, hzero, padded_cons_eq]
    exact and_congr_right' ih

/-- No version is below the one without components. -/
theorem padded_nil_le (ns : List ℕ) : padded [] ≤ padded ns :=
  Pi.toLex_monotone fun _ => Nat.zero_le _

/-! ## Comparators -/

/-- What a comparator asks for, in any order. -/
def Comparator.Rel {α : Type} [LinearOrder α] (x y : α) : Comparator → Prop
  | .EQUAL => x = y
  | .NOT_EQUAL => x ≠ y
  | .LESS => x < y
  | .LESS_EQUAL => x ≤ y
  | .GREATER => y < x
  | .GREATER_EQUAL => y ≤ x

/-- Of components that begin with the same one. -/
theorem rel_cons (cmp : Comparator) (n : ℕ) (ns ms : List ℕ) :
    cmp.Rel (padded (n :: ns)) (padded (n :: ms)) ↔ cmp.Rel (padded ns) (padded ms) := by
  have heq : ∀ {ns ms : List ℕ}, padded (n :: ns) = padded (n :: ms) ↔ padded ns = padded ms :=
    padded_cons_eq.trans (and_iff_right rfl)
  have hlt : ∀ {ns ms : List ℕ}, Comparator.LESS.Rel (padded (n :: ns)) (padded (n :: ms))
      ↔ Comparator.LESS.Rel (padded ns) (padded ms) :=
    padded_cons_lt.trans ((or_iff_right (Nat.lt_irrefl n)).trans (and_iff_right rfl))
  cases cmp with
  | EQUAL => exact heq
  | NOT_EQUAL => exact heq.not
  | LESS => exact hlt
  | LESS_EQUAL => exact not_lt.symm.trans (hlt.not.trans not_lt)
  | GREATER => exact hlt
  | GREATER_EQUAL => exact not_lt.symm.trans (hlt.not.trans not_lt)

/-- Of components that differ. -/
theorem differing_iff {cmp : Comparator} {n m : ℕ} (hne : n ≠ m) (ns ms : List ℕ) :
    differing cmp n m = true ↔ cmp.Rel (padded (n :: ns)) (padded (m :: ms)) := by
  have hpadded : padded (n :: ns) ≠ padded (m :: ms) := fun h => hne (padded_cons_eq.mp h).1
  have hlt : Comparator.LESS.Rel (padded (n :: ns)) (padded (m :: ms)) ↔ n < m :=
    padded_cons_lt.trans (or_iff_left fun h => hne h.1)
  have hgt : Comparator.GREATER.Rel (padded (n :: ns)) (padded (m :: ms)) ↔ m < n :=
    padded_cons_lt.trans (or_iff_left fun h => hne h.1.symm)
  cases cmp with
  | EQUAL => exact iff_of_false (by simp [differing]) hpadded
  | NOT_EQUAL => exact iff_of_true (by simp [differing]) hpadded
  | LESS => exact decide_eq_true_iff.trans hlt.symm
  | LESS_EQUAL => exact (decide_eq_true_iff.trans hlt.symm).trans hpadded.le_iff_lt.symm
  | GREATER => exact decide_eq_true_iff.trans hgt.symm
  | GREATER_EQUAL => exact (decide_eq_true_iff.trans hgt.symm).trans hpadded.symm.le_iff_lt.symm

/-- At the end of one of the versions, where it is decided whether the other one has anything but
zeros left. -/
theorem atEnd_iff {α : Type} [LinearOrder α] {x y bot : α} {cmp : Comparator} {v₁ v₂ : Str}
    (hx : bot ≤ x) (hy : bot ≤ y) (hend : x = bot ∨ y = bot)
    (h₁ : (v₁.dropWhile fun c => c = '.' ∨ c = '0') = [] ↔ x = bot)
    (h₂ : (v₂.dropWhile fun c => c = '.' ∨ c = '0') = [] ↔ y = bot) :
    atEnd cmp v₁ v₂ = true ↔ cmp.Rel x y := by
  cases cmp
  all_goals
    simp only [atEnd, Comparator.Rel, decide_eq_true_iff, ne_eq, h₁, h₂]
    grind

/-! ## The texts -/

/-- A run of digits, and the number of dots behind it. -/
structure Part where
  run : Str
  dots : ℕ
  run_ne : run ≠ []
  digits : ∀ c ∈ run, c.isDigit = true
  small : number run < 2 ^ 64 - 1

/-- A component as it is written. -/
def Part.text (p : Part) : Str := p.run ++ List.replicate p.dots '.'

/-- **A version**: runs of digits, separated by dots. -/
structure Version where
  parts : List Part
  parts_ne : parts ≠ []
  separated : parts.IsChain fun p _ => 0 < p.dots

/-- Components one behind the other. -/
def partsText (ps : List Part) : Str := ps.flatMap Part.text

/-- A version as it is written. -/
def Version.text (v : Version) : Str := partsText v.parts

/-- The components, as numbers. -/
def Version.components (v : Version) : List ℕ := v.parts.map (number ·.run)

/-! ## The loop -/

section Loop

variable {p : Part} {ps qs : List Part}

theorem partsText_cons (p : Part) (ps : List Part) :
    partsText (p :: ps) = p.run ++ (List.replicate p.dots '.' ++ partsText ps) := by
  rw [partsText, List.flatMap_cons, Part.text, List.append_assoc, partsText]

theorem exists_head (p : Part) : ∃ c run, p.run = c :: run ∧ c.isDigit = true := by
  obtain ⟨c, run, hrun⟩ := List.exists_cons_of_ne_nil p.run_ne
  exact ⟨c, run, hrun, p.digits c (hrun ▸ List.mem_cons_self)⟩

theorem partsText_eq_nil_iff : partsText ps = [] ↔ ps = [] := by
  refine ⟨fun h => ?_, fun h => by rw [h]; rfl⟩
  rcases ps with _ | ⟨p, ps⟩
  · rfl
  · rw [partsText_cons] at h
    exact absurd (List.append_eq_nil_iff.mp h).1 p.run_ne

/-- What is behind a run starts with a dot, if there is anything. -/
theorem head_behind (hsep : (p :: ps).IsChain fun p _ => 0 < p.dots) :
    ∀ c ∈ (List.replicate p.dots '.' ++ partsText ps).head?, c = '.' := by
  intro c hc
  rcases hdots : p.dots with _ | n
  · rcases ps with _ | ⟨q, ps⟩
    · rw [hdots] at hc
      cases hc
    · exact absurd (List.isChain_cons_cons.mp hsep).1 (by omega)
  · rw [hdots, List.replicate_succ, List.cons_append, List.head?_cons] at hc
    exact (Option.some.inj hc).symm

/-- The dots behind a run are skipped. -/
theorem dropWhile_dots (n : ℕ) :
    (List.replicate n '.' ++ partsText ps).dropWhile (· = '.') = partsText ps := by
  rw [List.dropWhile_append_of_pos (by simp)]
  rcases ps with _ | ⟨p, ps⟩
  · rfl
  · obtain ⟨c, run, hrun, hc⟩ := exists_head p
    rw [partsText_cons, hrun, List.cons_append, List.dropWhile_cons_of_neg]
    rintro hdot
    rw [of_decide_eq_true hdot] at hc
    cases hc

/-- The number of a part is read, and the dots behind it are skipped. -/
theorem strtoumax_part (hsep : (p :: ps).IsChain fun p _ => 0 < p.dots) :
    ∃ ptr, strtoumax (partsText (p :: ps)) = (number p.run, ptr)
      ∧ (partsText (p :: ps)).length ≠ ptr.length ∧ ptr.dropWhile (· = '.') = partsText ps := by
  refine ⟨List.replicate p.dots '.' ++ partsText ps, ?_, ?_, dropWhile_dots p.dots⟩
  · rw [partsText_cons]
    exact strtoumax_run p.run_ne p.digits p.small (head_behind hsep)
  · have hpos := List.length_pos_iff.mpr p.run_ne
    rw [partsText_cons, List.length_append]
    omega

theorem number_eq_zero_iff {run : Str} (hrun : ∀ c ∈ run, c.isDigit = true) :
    number run = 0 ↔ ∀ c ∈ run, c = '0' := by
  have hgen : ∀ acc, run.foldl (fun n c => n * 10 + (c.toNat - '0'.toNat)) acc = 0
      ↔ acc = 0 ∧ ∀ c ∈ run, c = '0' := by
    induction run with
    | nil => simp
    | cons c run ih =>
      intro acc
      have hc : c.toNat - '0'.toNat = 0 ↔ c = '0' := by
        refine ⟨fun hzero => Char.toNat_inj.mp ?_, fun h => by rw [h, Nat.sub_self]⟩
        have hle : '0'.toNat ≤ c.toNat := (range_of_isDigit (hrun c List.mem_cons_self)).1
        omega
      rw [List.foldl_cons, ih (fun d hd => hrun d (List.mem_cons_of_mem _ hd)),
        List.forall_mem_cons, ← and_assoc, ← hc]
      refine and_congr_left' ?_
      omega
  rw [number, hgen, and_iff_right rfl]

/-- Nothing is left behind dots and zeros exactly when all components are zero. -/
theorem dropWhile_partsText :
    ((partsText ps).dropWhile fun c => c = '.' ∨ c = '0') = []
      ↔ padded (ps.map (number ·.run)) = padded [] := by
  rw [List.dropWhile_eq_nil_iff, padded_eq_nil_iff, List.forall_mem_map]
  simp only [partsText, List.mem_flatMap, decide_eq_true_iff]
  constructor
  · intro h p hp
    refine (number_eq_zero_iff p.digits).mpr fun c hc => ?_
    refine (h c ⟨p, hp, List.mem_append_left _ hc⟩).resolve_left fun hdot => ?_
    have hdigit := p.digits c hc
    rw [hdot] at hdigit
    cases hdigit
  · rintro h c ⟨p, hp, hc⟩
    rcases List.mem_append.mp hc with hc | hc
    · exact .inr ((number_eq_zero_iff p.digits).mp (h p hp) c hc)
    · exact .inl (List.eq_of_mem_replicate hc)

/-- **The loop** compares the components. -/
theorem compareLoop_eq (cmp : Comparator) {n : ℕ} (hn : ps.length < n)
    (hps : ps.IsChain fun p _ => 0 < p.dots) (hqs : qs.IsChain fun p _ => 0 < p.dots) :
    ∃ r, compareLoop cmp n (partsText ps) (partsText qs) = some r
      ∧ (r = true ↔ cmp.Rel (padded (ps.map (number ·.run))) (padded (qs.map (number ·.run)))) := by
  induction n generalizing ps qs with
  | zero => exact absurd hn (Nat.not_lt_zero _)
  | succ n ih =>
    rw [compareLoop]
    by_cases hend : partsText ps = [] ∨ partsText qs = []
    · refine ⟨_, if_pos hend, ?_⟩
      refine atEnd_iff (padded_nil_le _)
        (padded_nil_le _) ?_ dropWhile_partsText dropWhile_partsText
      rcases hend with h | h
      · rw [partsText_eq_nil_iff.mp h]
        exact .inl rfl
      · rw [partsText_eq_nil_iff.mp h]
        exact .inr rfl
    · rw [not_or] at hend
      obtain ⟨p, ps, rfl⟩ := List.exists_cons_of_ne_nil (mt partsText_eq_nil_iff.mpr hend.1)
      obtain ⟨q, qs, rfl⟩ := List.exists_cons_of_ne_nil (mt partsText_eq_nil_iff.mpr hend.2)
      obtain ⟨ptr₁, hread₁, hmoved₁, hrest₁⟩ := strtoumax_part hps
      obtain ⟨ptr₂, hread₂, hmoved₂, hrest₂⟩ := strtoumax_part hqs
      rw [if_neg (not_or.mpr hend), hread₁, hread₂]
      simp only [p.small.ne, q.small.ne, hmoved₁, hmoved₂, or_self, if_false, List.map_cons]
      split_ifs with hne
      · exact ⟨_, rfl, differing_iff hne _ _⟩
      · obtain ⟨r, hr, hrel⟩ := ih (Nat.lt_of_succ_lt_succ hn) hps.tail hqs.tail
        rw [hrest₁, hrest₂]
        refine ⟨r, hr, hrel.trans ?_⟩
        rw [not_not.mp hne]
        exact (rel_cons cmp _ _ _).symm

end Loop

/-! ## The order of the texts -/

/-- The point of the order a version is at. -/
def Version.point (v : Version) : Lex (ℕ → ℕ) := padded v.components

/-- `dsl_compare_version` answers 1. -/
def Compares (cmp : Comparator) (v w : Version) : Prop :=
  dslCompareVersion v.text cmp w.text = some true

theorem isVersion_text (v : Version) : v.text.all (fun c => c.isDigit || c = '.') = true := by
  rw [List.all_eq_true]
  intro c hc
  obtain ⟨p, -, hc⟩ := List.mem_flatMap.mp hc
  rcases List.mem_append.mp hc with hc | hc
  · rw [p.digits c hc, Bool.true_or]
  · rw [List.eq_of_mem_replicate hc]
    rfl

theorem length_le_partsText (ps : List Part) : ps.length ≤ (partsText ps).length := by
  induction ps with
  | nil => exact Nat.le_refl 0
  | cons p ps ih =>
    have hpos := List.length_pos_iff.mpr p.run_ne
    rw [partsText_cons, List.length_cons, List.length_append, List.length_append]
    omega

/-- `dsl_compare_version` answers 1 or 0, as the comparator says about the points. -/
theorem dslCompareVersion_eq (v w : Version) (cmp : Comparator) :
    ∃ r, dslCompareVersion v.text cmp w.text = some r ∧ (r = true ↔ cmp.Rel v.point w.point) := by
  have hlen := Nat.lt_succ_of_le (length_le_partsText v.parts)
  obtain ⟨r, hr, hrel⟩ := compareLoop_eq cmp hlen v.separated w.separated
  refine ⟨r, ?_, hrel⟩
  have hloop :
      dslCompareVersion v.text cmp w.text = compareLoop cmp (v.text.length + 1) v.text w.text := by
    simp only [dslCompareVersion, isVersion_text]
    rfl
  exact hloop.trans hr

theorem compares_iff (cmp : Comparator) (v w : Version) :
    Compares cmp v w ↔ cmp.Rel v.point w.point := by
  obtain ⟨r, hr, hrel⟩ := dslCompareVersion_eq v w cmp
  rw [Compares, hr, Option.some_inj, hrel]

/-- **Versions are ordered by their components**: every comparator is decided in the lexicographic
order of the components with zeros behind them, so that on the texts `EQUAL` is an equivalence,
`LESS` is transitive, exactly one of `LESS`, `EQUAL` and `GREATER` holds, and the others are
complements. -/
theorem dslCompareVersion_components :
    (∀ (v w : Version) cmp, ∃ r, dslCompareVersion v.text cmp w.text = some r
        ∧ (r = true ↔ cmp.Rel v.point w.point))
      ∧ Equivalence (Compares .EQUAL)
      ∧ (∀ u v w, Compares .LESS u v → Compares .LESS v w → Compares .LESS u w)
      ∧ (∀ v w, Compares .LESS v w ∧ ¬Compares .EQUAL v w ∧ ¬Compares .GREATER v w
        ∨ ¬Compares .LESS v w ∧ Compares .EQUAL v w ∧ ¬Compares .GREATER v w
        ∨ ¬Compares .LESS v w ∧ ¬Compares .EQUAL v w ∧ Compares .GREATER v w)
      ∧ ∀ v w, (Compares .NOT_EQUAL v w ↔ ¬Compares .EQUAL v w)
        ∧ (Compares .LESS_EQUAL v w ↔ ¬Compares .GREATER v w)
        ∧ (Compares .GREATER_EQUAL v w ↔ ¬Compares .LESS v w) := by
  refine ⟨dslCompareVersion_eq, ?_, ?_, fun v w => ?_, fun v w => ?_⟩
  · refine ⟨fun v => ?_, fun h => ?_, fun h₁ h₂ => ?_⟩
    · exact (compares_iff _ _ _).mpr rfl
    · exact (compares_iff _ _ _).mpr ((compares_iff _ _ _).mp h).symm
    · exact (compares_iff _ _ _).mpr
        (((compares_iff _ _ _).mp h₁).trans ((compares_iff _ _ _).mp h₂))
  · intro u v w h₁ h₂
    exact (compares_iff _ _ _).mpr
      (lt_trans ((compares_iff _ _ _).mp h₁) ((compares_iff _ _ _).mp h₂))
  · simp only [compares_iff, Comparator.Rel]
    rcases lt_trichotomy v.point w.point with h | h | h
    · exact .inl ⟨h, ne_of_lt h, lt_asymm h⟩
    · exact .inr (.inl ⟨h.not_lt, h, h.not_gt⟩)
    · exact .inr (.inr ⟨lt_asymm h, (ne_of_lt h).symm, h⟩)
  · simp only [compares_iff]
    exact ⟨Iff.rfl, not_lt.symm, not_lt.symm⟩

example : dslCompareVersion "11.02.".toList .LESS_EQUAL "11.2.0.0".toList = some true := by
  decide +kernel

end Dsl
