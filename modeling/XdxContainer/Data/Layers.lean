import Mathlib.Tactic.Common
import Mathlib.Data.List.Perm.Subperm
import Mathlib.Order.Antichain

/-!
# Data/Layers — layers on the places of a tree, newer ones covering older ones

    layers, newest first      seen at /a/b      taken off at /a            taken off at /a/b
    ─────────────────────────────────────────────────────────────────────────────────────────
    /a/b                      /a/b              nothing: /a is not seen    /a/b
    /a/b/c  /a  /a/b          /a                /a/b/c and /a              nothing

A place is a list of names.  What one sees at a place is the newest layer that starts there or
above; only a layer that is seen where it starts can be taken off, and the newer ones below go with
it.  A path leads to a place that may depend on the layers there are (`leads`).

* `unwinds_iff`, `clears_iff` — when taking layers off path by path takes off one's own, and spares
  the others.
* `pops_eq_iff`, `pops_left_iff` — the same where no place is below another: only how often each
  place is named matters.
-/

namespace Layers

variable {κ α π : Type} [DecidableEq κ] (top : α → List κ)

/-- The layer one sees at a place. -/
def seen (p : List κ) (l : List α) : Option α := l.find? fun x => top x <+: p

/-- What is left without the layer one sees at a place and the newer ones below the place. -/
def strip (p : List κ) (l : List α) : List α :=
  (l.takeWhile fun x => !(top x <+: p : Bool)).filter (fun x => !(p <+: top x : Bool))
    ++ (l.dropWhile fun x => !(top x <+: p : Bool)).tail

/-- A layer is seen at the place it starts at. -/
def starts (p : List κ) (l : List α) : Bool := (seen top p l).any (top · = p)

/-- Take the layer off that starts at a place, if one sees it there. -/
def pop (p : List κ) (l : List α) : List α := if starts top p l then strip top p l else l

/-- Take layers off, one place after the other. -/
def pops (ps : List (List κ)) (l : List α) : List α := ps.foldl (fun l p => pop top p l) l

section Taking

variable {top} {p : List κ} {x : α} {A B l : List α}

/-- Either nothing is at the place or above, or something is the newest there. -/
theorem split_cases (top : α → List κ) (p : List κ) (l : List α) : (∀ x ∈ l, ¬top x <+: p)
    ∨ ∃ A x B, l = A ++ x :: B ∧ top x <+: p ∧ ∀ y ∈ A, ¬top y <+: p := by
  rcases h : seen top p l with _ | x
  · exact .inl (by simpa [seen] using h)
  · obtain ⟨hx, A, B, hl, hA⟩ := List.find?_eq_some_iff_append.mp h
    exact .inr ⟨A, x, B, hl, by simpa using hx, by simpa using hA⟩

/-- The layer one sees is the newest that covers the path. -/
theorem seen_split (hx : top x <+: p) (hA : ∀ y ∈ A, ¬top y <+: p) :
    seen top p (A ++ x :: B) = some x :=
  List.find?_eq_some_iff_append.mpr ⟨by simpa using hx, A, B, rfl, by simpa using hA⟩

/-- What is stripped with a layer are the newer ones below it. -/
theorem strip_split (hx : top x <+: p) (hA : ∀ y ∈ A, ¬top y <+: p) :
    strip top p (A ++ x :: B) = A.filter (fun y => !(p <+: top y : Bool)) ++ B := by
  have hnot : ∀ y ∈ A, (!(top y <+: p : Bool)) = true := by simpa using hA
  rw [strip, List.takeWhile_append_of_pos hnot, List.dropWhile_append_of_pos hnot]
  simp [hx]

/-- **A layer seen where it starts is taken off**, with the newer ones below. -/
theorem pop_split (hA : ∀ y ∈ A, ¬top y <+: top x) : pop top (top x) (A ++ x :: B)
    = A.filter (fun y => !(top x <+: top y : Bool)) ++ B := by
  rw [pop, starts, seen_split List.prefix_rfl hA, strip_split List.prefix_rfl hA]
  simp

/-- Where a layer starts and is seen, it is the newest there. -/
theorem exists_split (h : starts top p l = true) :
    ∃ A x B, l = A ++ x :: B ∧ top x = p ∧ ∀ y ∈ A, ¬top y <+: p := by
  rcases split_cases top p l with hbare | ⟨A, x, B, rfl, hx, hA⟩
  · have hnone : seen top p l = none := by simpa [seen] using hbare
    rw [starts, hnone] at h
    cases h
  · rw [starts, seen_split hx hA] at h
    exact ⟨A, x, B, rfl, by simpa using h, hA⟩

theorem pop_of_not_starts (h : starts top p l = false) : pop top p l = l := by
  rw [pop, h]
  rfl

theorem starts_of_bare (h : ∀ x ∈ l, ¬top x <+: p) : starts top p l = false := by
  have hnone : seen top p l = none := by simpa [seen] using h
  rw [starts, hnone]
  rfl

/-- Nothing is added, and nothing changes its place. -/
theorem pop_sublist (p : List κ) (l : List α) : (pop top p l).Sublist l := by
  rcases h : starts top p l
  · rw [pop_of_not_starts h]
  · obtain ⟨A, x, B, rfl, rfl, hA⟩ := exists_split h
    rw [pop_split hA]
    exact List.filter_sublist.append (List.sublist_cons_self x B)

/-- Something is taken off exactly where a layer starts and is seen. -/
theorem pop_eq_self_iff : pop top p l = l ↔ starts top p l = false := by
  refine ⟨fun h => ?_, pop_of_not_starts⟩
  by_contra hne
  obtain ⟨A, x, B, rfl, rfl, hA⟩ := exists_split (Bool.of_not_eq_false hne)
  have hlen := congrArg List.length h
  have hle := (List.filter_sublist (l := A) (p := fun y => !(top x <+: top y : Bool))).length_le
  rw [pop_split hA, List.length_append, List.length_append, List.length_cons] at hlen
  omega

theorem pops_sublist (ps : List (List κ)) (l : List α) : (pops top ps l).Sublist l := by
  induction ps generalizing l with
  | nil => exact List.Sublist.refl l
  | cons p ps ih => exact (ih (pop top p l)).trans (pop_sublist p l)

/-- Nothing goes if no path starts a layer. -/
theorem pops_eq_self_iff {ps : List (List κ)} :
    pops top ps l = l ↔ ∀ p ∈ ps, starts top p l = false := by
  induction ps with
  | nil => exact iff_of_true rfl (by simp)
  | cons p ps ih =>
    rw [List.forall_mem_cons, ← ih, ← pop_eq_self_iff]
    constructor
    · intro h
      have hsub : (pops top ps (pop top p l)).Sublist (pop top p l) := pops_sublist ps _
      change pops top ps (pop top p l) = l at h
      rw [h] at hsub
      have hself := (pop_sublist p l).antisymm hsub
      exact ⟨hself, by rwa [hself] at h⟩
    · rintro ⟨hp, hps⟩
      change pops top ps (pop top p l) = l
      rwa [hp]

end Taking

/-! ## Where no place is below another -/

section Apart

variable {top} {S : Set (List κ)} {own T : List α} {p : List κ} {ps : List (List κ)}

/-- One's own layer at the place is the one that is taken off, and nothing else. -/
theorem pop_append_of_mem (hS : IsAntichain (· <+: ·) S) (hown : ∀ x ∈ own, top x ∈ S)
    (hp : p ∈ S) (hmem : p ∈ own.map top) :
    pop top p (own ++ T) = own.eraseP (top · = p) ++ T := by
  obtain ⟨x, hx, rfl⟩ := List.mem_map.mp hmem
  obtain ⟨x', A, B, hA, hx', rfl, herase⟩ := List.exists_of_eraseP (p := fun y => top y = top x) hx
    (by simp)
  have heq : top x' = top x := by simpa using hx'
  have hbare : ∀ y ∈ A, ¬top y <+: top x' := by
    intro y hy hpre
    have hyS := hown y (by simp [hy])
    have hsame : top y = top x' := hS.eq hyS (heq ▸ hp) hpre
    exact hA y hy (by simpa using hsame.trans heq)
  have hkept : A.filter (fun y => !(top x' <+: top y : Bool)) = A := by
    rw [List.filter_eq_self]
    intro y hy
    have hne : ¬top x' <+: top y := by
      intro hpre
      have hyS := hown y (by simp [hy])
      exact hbare y hy (hS.eq (heq ▸ hp) hyS hpre ▸ List.prefix_rfl)
    simpa using hne
  rw [herase, ← heq, List.append_assoc, List.cons_append, pop_split hbare, hkept,
    List.append_assoc]

/-- Where one has no layer of one's own, the others' are what is taken off. -/
theorem pop_append_of_notMem (hS : IsAntichain (· <+: ·) S) (hown : ∀ x ∈ own, top x ∈ S)
    (hp : p ∈ S) (hmem : p ∉ own.map top) : pop top p (own ++ T) = own ++ pop top p T := by
  have hne : ∀ y ∈ own, top y ≠ p := fun y hy he => hmem (List.mem_map.mpr ⟨y, hy, he⟩)
  have hbare : ∀ y ∈ own, ¬top y <+: p := fun y hy hpre =>
    hne y hy (hS.eq (hown y hy) hp hpre)
  have hkept : own.filter (fun y => !(p <+: top y : Bool)) = own := by
    rw [List.filter_eq_self]
    intro y hy
    have hnot : ¬p <+: top y := fun hpre => hne y hy (hS.eq hp (hown y hy) hpre).symm
    simpa using hnot
  rcases split_cases top p T with hT | ⟨A, x, B, rfl, hx, hA⟩
  · have hall : ∀ y ∈ own ++ T, ¬top y <+: p := fun y hy =>
      (List.mem_append.mp hy).elim (hbare y) (hT y)
    rw [pop_of_not_starts (starts_of_bare hall), pop_of_not_starts (starts_of_bare hT)]
  · have hall : ∀ y ∈ own ++ A, ¬top y <+: p := fun y hy =>
      (List.mem_append.mp hy).elim (hbare y) (hA y)
    by_cases heq : top x = p
    · subst heq
      rw [← List.append_assoc, pop_split hall, pop_split hA, List.filter_append, hkept,
        List.append_assoc]
    · have hcovered {C : List α} (hC : ∀ y ∈ C, ¬top y <+: p) :
          starts top p (C ++ x :: B) = false := by
        rw [starts, seen_split hx hC]
        simpa using heq
      rw [pop_of_not_starts (hcovered hA), ← List.append_assoc,
        pop_of_not_starts (hcovered hall), List.append_assoc]

/-- **Taking off at places none of which is below another**: as many of one's own are left at each
place as were not taken off, and the others' only go where too many are. -/
theorem exists_pops_append (hS : IsAntichain (· <+: ·) S) (hown : ∀ x ∈ own, top x ∈ S)
    (hps : ∀ p ∈ ps, p ∈ S) : ∃ own' more, pops top ps (own ++ T) = own' ++ pops top more T
      ∧ own'.Sublist own ∧ (own'.map top ++ ps).Perm (own.map top ++ more)
      ∧ ∀ p ∈ more, p ∉ own'.map top := by
  induction ps generalizing own T with
  | nil => exact ⟨own, [], rfl, List.Sublist.refl own, List.Perm.refl _, by simp⟩
  | cons p ps ih =>
    have hp := hps p List.mem_cons_self
    have htail : ∀ q ∈ ps, q ∈ S := fun q hq => hps q (List.mem_cons_of_mem p hq)
    change ∃ own' more, pops top ps (pop top p (own ++ T)) = _ ∧ _
    by_cases hmem : p ∈ own.map top
    · have hsub : (own.eraseP (top · = p)).Sublist own := List.eraseP_sublist
      obtain ⟨own', more, hpops, hsub', hperm, hmore⟩ :=
        @ih (own.eraseP (top · = p)) T (fun x hx => hown x (hsub.mem hx)) htail
      rw [pop_append_of_mem hS hown hp hmem]
      refine ⟨own', more, hpops, hsub'.trans hsub, ?_, hmore⟩
      -- one of one's own at `p` less
      have herase : (own.map top).Perm (p :: (own.eraseP (top · = p)).map top) := by
        obtain ⟨x, hx, rfl⟩ := List.mem_map.mp hmem
        obtain ⟨x', A, B, -, hx', rfl, h⟩ :=
          List.exists_of_eraseP (p := fun y => top y = top x) hx (by simp)
        have heq : top x' = top x := by simpa using hx'
        rw [h, List.map_append, List.map_cons, heq, List.map_append]
        exact List.perm_middle
      calc (own'.map top ++ p :: ps).Perm (p :: (own'.map top ++ ps)) := List.perm_middle
        _ |>.Perm (p :: ((own.eraseP (top · = p)).map top ++ more)) := hperm.cons p
        _ |>.Perm (own.map top ++ more) := (herase.append_right more).symm
    · obtain ⟨own', more, hpops, hsub, hperm, hmore⟩ := ih (T := pop top p T) hown htail
      rw [pop_append_of_notMem hS hown hp hmem]
      refine ⟨own', p :: more, hpops, hsub, ?_, ?_⟩
      · exact List.perm_middle.trans ((hperm.cons p).trans List.perm_middle.symm)
      · rw [List.forall_mem_cons]
        exact ⟨fun h => hmem ((hsub.map top).mem h), hmore⟩

omit [DecidableEq κ] in
/-- What was taken off as often as it was laid is gone. -/
theorem own_eq_nil_of_perm {own' : List α} {more more' : List (List κ)}
    (hperm : (own'.map top ++ ps).Perm (own.map top ++ more))
    (hmore : ∀ p ∈ more, p ∉ own'.map top) (hps : ps.Perm (own.map top ++ more')) :
    own' = [] ∧ more.Perm more' := by
  have hcancel : (own'.map top ++ more').Perm more := by
    have h := (hps.append_left (own'.map top)).symm.trans hperm
    rw [← List.append_assoc] at h
    have hswap : (own.map top ++ own'.map top).Perm (own'.map top ++ own.map top) :=
      List.perm_append_comm
    have h' := (hswap.append_right more').trans h
    rw [List.append_assoc] at h'
    exact (List.perm_append_left_iff _).mp h'
  have hnil : own'.map top = [] := by
    rw [List.eq_nil_iff_forall_not_mem]
    intro p hp
    exact hmore p (hcancel.subset (List.mem_append_left more' hp)) hp
  rw [hnil] at hcancel
  exact ⟨List.map_eq_nil_iff.mp hnil, hcancel.symm⟩

/-- **The others' layers are all that is left**, exactly when one's own are taken off as often as
they were laid, and what is taken off besides is nowhere seen. -/
theorem pops_eq_iff (hS : IsAntichain (· <+: ·) S) (hown : ∀ x ∈ own, top x ∈ S)
    (hps : ∀ p ∈ ps, p ∈ S) (hT : ∀ x ∈ own, x ∉ T) : pops top ps (own ++ T) = T
      ↔ ∃ more, ps.Perm (own.map top ++ more) ∧ ∀ p ∈ more, starts top p T = false := by
  obtain ⟨own', more, hpops, hsub, hperm, hmore⟩ := exists_pops_append (T := T) hS hown hps
  rw [hpops]
  constructor
  · intro h
    have hnil : own' = [] := by
      rw [List.eq_nil_iff_forall_not_mem]
      intro x hx
      exact hT x (hsub.mem hx) (h ▸ List.mem_append_left _ hx)
    rw [hnil, List.nil_append] at h
    rw [hnil, List.map_nil, List.nil_append] at hperm
    exact ⟨more, hperm, pops_eq_self_iff.mp h⟩
  · rintro ⟨more', hps', hidle⟩
    obtain ⟨rfl, hsame⟩ := own_eq_nil_of_perm hperm hmore hps'
    exact pops_eq_self_iff.mpr fun p hp => hidle p (hsame.subset hp)

/-- **None of one's own is left** exactly when they are taken off as often as they were laid. -/
theorem pops_left_iff (hS : IsAntichain (· <+: ·) S) (hown : ∀ x ∈ own, top x ∈ S)
    (hps : ∀ p ∈ ps, p ∈ S) (hT : ∀ x ∈ own, x ∉ T) :
    (∀ x ∈ pops top ps (own ++ T), x ∉ own) ↔ (own.map top).Subperm ps := by
  obtain ⟨own', more, hpops, hsub, hperm, hmore⟩ := exists_pops_append (T := T) hS hown hps
  rw [hpops]
  constructor
  · intro h
    have hnil : own' = [] := by
      rw [List.eq_nil_iff_forall_not_mem]
      exact fun x hx => h x (List.mem_append_left _ hx) (hsub.mem hx)
    rw [hnil, List.map_nil, List.nil_append] at hperm
    exact ((List.sublist_append_left (own.map top) more).subperm).trans hperm.symm.subperm
  · intro hle
    obtain ⟨l, hl, hlps⟩ := hle
    obtain ⟨more', hmore'⟩ := hlps.exists_perm_append
    obtain ⟨rfl, -⟩ := own_eq_nil_of_perm hperm hmore (hmore'.trans (hl.append_right more'))
    intro x hx hmem
    exact hT x hmem ((pops_sublist more T).mem hx)

end Apart

/-! ## Along paths -/

section Paths

variable (leads : List α → π → Option (List κ))

/-- Take the layer off that a path leads to. -/
def off (l : List α) (a : π) : List α := (leads l a).elim l (pop top · l)

/-- Take layers off, one path after the other. -/
def offs (as : List π) (l : List α) : List α := as.foldl (off top leads) l

/-- **One's own layers, above those of others, are gone after the paths.**  A path may lead to
nothing that can be taken off; to a layer of one's own, which goes with the newer ones below; or,
where these may be taken, to a layer of `others`, with which one's own go that are below. -/
inductive Unwinds (others : Prop) : (own T : List α) → List π → Prop
  | done (T : List α) : Unwinds others [] T []
  | idle {own T : List α} {a : π} {as : List π}
      (h : ∀ p, leads (own ++ T) a = some p → starts top p (own ++ T) = false)
      (rest : Unwinds others own T as) : Unwinds others own T (a :: as)
  | own {A B T : List α} {x : α} {a : π} {as : List π}
      (hp : leads (A ++ x :: B ++ T) a = some (top x)) (hA : ∀ y ∈ A, ¬top y <+: top x)
      (rest : Unwinds others (A.filter (fun y => !(top x <+: top y : Bool)) ++ B) T as) :
      Unwinds others (A ++ x :: B) T (a :: as)
  | other {own A B : List α} {x : α} {a : π} {as : List π} (h : others)
      (hp : leads (own ++ (A ++ x :: B)) a = some (top x))
      (hown : ∀ y ∈ own ++ A, ¬top y <+: top x)
      (rest : Unwinds others (own.filter (fun y => !(top x <+: top y : Bool)))
        (A.filter (fun y => !(top x <+: top y : Bool)) ++ B) as) :
      Unwinds others own (A ++ x :: B) (a :: as)

variable {top leads} {others : Prop} {own T l : List α} {a : π} {as : List π}

/-- A path that leads somewhere is taken off there. -/
theorem off_of_leads {p : List κ} (h : leads l a = some p) : off top leads l a = pop top p l := by
  rw [off, h]
  rfl

/-- A path that leads to no layer takes none. -/
theorem off_of_idle (h : ∀ p, leads l a = some p → starts top p l = false) :
    off top leads l a = l := by
  rcases hp : leads l a with _ | p
  · rw [off, hp]
    rfl
  · rw [off_of_leads hp, pop_of_not_starts (h p hp)]

theorem off_sublist (l : List α) (a : π) : (off top leads l a).Sublist l := by
  rcases hp : leads l a with _ | p
  · rw [off, hp]
    exact List.Sublist.refl l
  · rw [off_of_leads hp]
    exact pop_sublist p l

theorem offs_sublist (top : α → List κ) (leads : List α → π → Option (List κ)) (as : List π)
    (l : List α) : (offs top leads as l).Sublist l := by
  induction as generalizing l with
  | nil => exact List.Sublist.refl l
  | cons a as ih => exact (ih _).trans (off_sublist l a)

theorem offs_cons (a : π) (as : List π) (l : List α) :
    offs top leads (a :: as) l = offs top leads as (off top leads l a) := rfl

/-- Where each path leads to one place all along. -/
theorem offs_eq_pops {place : π → List κ} (h : ∀ l, ∀ a ∈ as, leads l a = some (place a))
    (l : List α) : offs top leads as l = pops top (as.map place) l := by
  induction as generalizing l with
  | nil => rfl
  | cons a as ih =>
    rw [offs_cons, off_of_leads (h l a List.mem_cons_self),
      ih fun l b hb => h l b (List.mem_cons_of_mem a hb)]
    rfl

/-- **What a path takes off.** -/
theorem off_cases (top : α → List κ) (leads : List α → π → Option (List κ)) (own T : List α)
    (a : π) :
    (∀ p, leads (own ++ T) a = some p → starts top p (own ++ T) = false)
      ∨ (∃ A x B, own = A ++ x :: B ∧ leads (A ++ x :: B ++ T) a = some (top x)
        ∧ ∀ y ∈ A, ¬top y <+: top x)
      ∨ ∃ A x B, T = A ++ x :: B ∧ leads (own ++ (A ++ x :: B)) a = some (top x)
        ∧ ∀ y ∈ own ++ A, ¬top y <+: top x := by
  by_cases hidle : ∀ p, leads (own ++ T) a = some p → starts top p (own ++ T) = false
  · exact .inl hidle
  right
  simp only [not_forall] at hidle
  obtain ⟨p, hp, hstarts⟩ := hidle
  obtain ⟨A, x, B, hl, rfl, hA⟩ := exists_split (Bool.of_not_eq_false hstarts)
  rcases List.append_eq_append_iff.mp hl with ⟨C, rfl, rfl⟩ | ⟨C, hC, hB⟩
  · exact .inr ⟨C, x, B, rfl, hp, hA⟩
  · rcases C with _ | ⟨c, C⟩
    · obtain rfl : own = A := by simpa using hC
      obtain rfl : T = x :: B := hB.symm
      exact .inr ⟨[], x, B, rfl, hp, by simpa using hA⟩
    · obtain ⟨rfl, rfl⟩ := List.cons_eq_cons.mp hB
      exact .inl ⟨A, x, C, hC, hC ▸ hp, hA⟩

/-- One's own layer goes, with the newer ones of one's own below. -/
theorem off_own {A B : List α} {x : α} (hp : leads (A ++ x :: B ++ T) a = some (top x))
    (hA : ∀ y ∈ A, ¬top y <+: top x) : off top leads (A ++ x :: B ++ T) a
      = A.filter (fun y => !(top x <+: top y : Bool)) ++ B ++ T := by
  rw [off_of_leads hp, List.append_assoc, List.cons_append, pop_split hA, List.append_assoc]

/-- Another's layer goes, with one's own below. -/
theorem off_other {A B : List α} {x : α} (hp : leads (own ++ (A ++ x :: B)) a = some (top x))
    (hown : ∀ y ∈ own ++ A, ¬top y <+: top x) : off top leads (own ++ (A ++ x :: B)) a
      = own.filter (fun y => !(top x <+: top y : Bool))
        ++ (A.filter (fun y => !(top x <+: top y : Bool)) ++ B) := by
  rw [off_of_leads hp, ← List.append_assoc, pop_split hown, List.filter_append,
    List.append_assoc]

/-- What is left are layers of others; all of them where these may not be taken. -/
theorem Unwinds.offs_eq (h : Unwinds top leads others own T as) :
    (offs top leads as (own ++ T)).Sublist T
      ∧ (¬others → offs top leads as (own ++ T) = T) := by
  induction h with
  | done T => exact ⟨List.Sublist.refl T, fun _ => rfl⟩
  | idle hidle _ ih =>
    rw [offs_cons, off_of_idle hidle]
    exact ih
  | own hp hA _ ih =>
    rw [offs_cons, off_own hp hA]
    exact ih
  | other hothers hp hown _ ih =>
    rw [offs_cons, off_other hp hown]
    refine ⟨ih.1.trans ?_, fun hnot => absurd hothers hnot⟩
    exact List.filter_sublist.append (List.sublist_cons_self _ _)

omit [DecidableEq κ] in
theorem sublist_of_notMem {L C D : List α} (h : L.Sublist (C ++ D)) (hC : ∀ x ∈ L, x ∉ C) :
    L.Sublist D := by
  obtain ⟨l₁, l₂, rfl, h₁, h₂⟩ := List.sublist_append_iff.mp h
  obtain rfl : l₁ = [] := by
    rw [List.eq_nil_iff_forall_not_mem]
    exact fun x hx => hC x (List.mem_append_left l₂ hx) (h₁.mem hx)
  exact h₂

/-- Where nothing of one's own is left, the paths unwind it. -/
theorem unwinds_of_left (hT : ∀ x ∈ own, x ∉ T)
    (h : ∀ x ∈ offs top leads as (own ++ T), x ∉ own)
    (hothers : ¬others → offs top leads as (own ++ T) = T) :
    Unwinds top leads others own T as := by
  induction as generalizing own T with
  | nil =>
    obtain rfl : own = [] := by
      rw [List.eq_nil_iff_forall_not_mem]
      exact fun x hx => h x (List.mem_append_left T hx) hx
    exact .done T
  | cons a as ih =>
    rcases off_cases top leads own T a with
      hidle | ⟨A, x, B, rfl, hp, hA⟩ | ⟨A, x, B, rfl, hp, hown⟩
    · rw [offs_cons, off_of_idle hidle] at h hothers
      exact .idle hidle (ih hT h hothers)
    · rw [offs_cons, off_own hp hA] at h hothers
      have hsub : (A.filter (fun y => !(top x <+: top y : Bool)) ++ B).Sublist (A ++ x :: B) :=
        List.filter_sublist.append (List.sublist_cons_self x B)
      exact .own hp hA (ih (fun y hy => hT y (hsub.mem hy))
        (fun y hy hmem => h y hy (hsub.mem hmem)) hothers)
    · rw [offs_cons, off_other hp hown] at h hothers
      have hless : (A.filter (fun y => !(top x <+: top y : Bool)) ++ B).length
          < (A ++ x :: B).length := by
        have hle := (List.filter_sublist (l := A)
          (p := fun y => !(top x <+: top y : Bool))).length_le
        rw [List.length_append, List.length_append, List.length_cons]
        omega
      have hmay : others := by
        -- a layer of others that is gone does not come back
        by_contra hnot
        have hsub := offs_sublist top leads as
          (own.filter (fun y => !(top x <+: top y : Bool))
            ++ (A.filter (fun y => !(top x <+: top y : Bool)) ++ B))
        rw [hothers hnot] at hsub
        have hback := sublist_of_notMem hsub fun y hy hmem => hT y (List.filter_sublist.mem hmem) hy
        exact absurd hback.length_le (Nat.not_le.mpr hless)
      refine .other hmay hp hown (ih (fun y hy hmem => ?_) (fun y hy hmem => ?_) ?_)
      · have hmemT := (List.filter_sublist.append (List.sublist_cons_self x B)).mem hmem
        exact hT y (List.filter_sublist.mem hy) hmemT
      · exact h y hy (List.filter_sublist.mem hmem)
      · exact fun hnot => absurd hmay hnot

/-- **Exactly the others' layers are left.** -/
theorem unwinds_iff (hT : ∀ x ∈ own, x ∉ T) :
    offs top leads as (own ++ T) = T ↔ Unwinds top leads False own T as := by
  refine ⟨fun h => ?_, fun h => h.offs_eq.2 not_false⟩
  refine unwinds_of_left hT (fun x hx hmem => ?_) fun _ => h
  exact hT x hmem (h ▸ hx)

/-- **None of one's own layers is left.** -/
theorem clears_iff (hT : ∀ x ∈ own, x ∉ T) :
    (∀ x ∈ offs top leads as (own ++ T), x ∉ own) ↔ Unwinds top leads True own T as := by
  refine ⟨fun h => unwinds_of_left hT h fun hnot => absurd trivial hnot, fun h x hx hmem => ?_⟩
  exact hT x hmem (h.offs_eq.1.mem hx)

end Paths

end Layers
