import XdxContainer.Fs.Tree
import Mathlib.Data.List.Dedup

/-!
# Fs/Edit — changing a tree, and what resolves in a larger one

    add      a node in a directory                resize   the size of a file
    prune    without the branch at a location     graft    another branch there: a mount
    hollow   without what is below a location

Every change is told by what `inode` says afterwards (`inode_add`, `inode_prune`, `inode_graft`),
and what resolves in a tree resolves to the same location in every tree in which a walk sees the
same (`Seen.resolve`), in particular in one that has all of its nodes (`Le.resolve`).
-/

open Paths Walk

namespace Fs

/-! ## Association lists -/

section Lookup

variable {α β : Type} [BEq α] [LawfulBEq α]

/-- A lookup among some of the keys. -/
theorem lookup_filter_key (P : α → Bool) (l : List (α × β)) (k : α) :
    (l.filter fun x => P x.1).lookup k = if P k then l.lookup k else none := by
  induction l with
  | nil => simp
  | cons x l ih =>
    obtain ⟨k', b⟩ := x
    by_cases hk : k = k'
    · subst hk
      by_cases hP : P k = true
      · simp [hP]
      · simp [hP, ih]
    · have hne : (k == k') = false := by simpa using hk
      rw [List.lookup_cons, hne, ← ih]
      by_cases hP : P k' = true
      · simp [hP, List.lookup_cons, hne]
      · simp [hP]

omit [LawfulBEq α] in

/-- A lookup with one entry more. -/
theorem lookup_snoc (l : List (α × β)) (k k' : α) (b : β) :
    (l ++ [(k', b)]).lookup k = (l.lookup k).or (if k == k' then some b else none) := by
  rw [List.lookup_append, List.lookup_cons]
  rcases k == k' <;> rfl

theorem lookup_snoc_eq_some {l : List (α × β)} {k k' : α} {b c : β}
    (h : (l ++ [(k', b)]).lookup k = some c) : l.lookup k = some c ∨ k = k' ∧ b = c := by
  rw [lookup_snoc, Option.or_eq_some_iff] at h
  rcases h with h | ⟨-, h⟩
  · exact .inl h
  · split_ifs at h with hk
    exact .inr ⟨beq_iff_eq.mp hk, Option.some.inj h⟩

/-- A lookup with the values changed. -/
theorem lookup_map_value (f : α → β → β) (l : List (α × β)) (k : α) :
    (l.map fun x => (x.1, f x.1 x.2)).lookup k = (l.lookup k).map (f k) := by
  induction l with
  | nil => rfl
  | cons x l ih =>
    obtain ⟨k', b⟩ := x
    rw [List.map_cons, List.lookup_cons, List.lookup_cons, ih]
    by_cases hk : k = k'
    · subst hk
      simp
    · have hne : (k == k') = false := by simpa using hk
      rw [hne]

/-- A lookup with the keys renamed. -/
theorem lookup_map_key {f : α → α} {l : List (α × β)} {k : α}
    (hf : ∀ x ∈ l, f x.1 = f k → x.1 = k) :
    (l.map fun x => (f x.1, x.2)).lookup (f k) = l.lookup k := by
  induction l with
  | nil => rfl
  | cons x l ih =>
    obtain ⟨k', b⟩ := x
    have ih' := ih fun x hx => hf x (List.mem_cons_of_mem _ hx)
    rw [List.map_cons, List.lookup_cons, List.lookup_cons, ih']
    by_cases hk : k = k'
    · subst hk
      simp
    · have hne : f k ≠ f k' := fun he => hk (hf (k', b) List.mem_cons_self he.symm).symm
      have h₁ : (k == k') = false := by simpa using hk
      have h₂ : (f k == f k') = false := by simpa using hne
      rw [h₁, h₂]

end Lookup

/-- The inode, with another size under a condition. -/
def Inode.resizeIf (i : Inode) (c : Bool) (n : ℕ) : Inode :=
  { i with size := if c then n else i.size }

/-- What a walk sees of a node: whether it is a directory, and the target of a link. -/
def Inode.sight (i : Inode) : Bool × Option Str :=
  (i.isDir, if i.isLink then some i.target else none)

namespace Tree

/-! ## Directories -/

/-- The name under which a location is in the directory at another. -/
def nameIn (dir p : Loc) : Option Name :=
  if p ≠ [] ∧ p.dropLast = dir then p.getLast? else none

theorem nameIn_eq_some_iff {dir p : Loc} {c : Name} : nameIn dir p = some c ↔ p = dir ++ [c] := by
  rw [nameIn]
  constructor
  · intro h
    split_ifs at h with hp
    rw [← hp.2]
    exact (List.dropLast_append_getLast? c h).symm
  · rintro rfl
    simp

/-- The names in a directory, in the order they are read. -/
def children (fs : Tree) (dir : Loc) : List Name :=
  (fs.nodes.filterMap fun x => nameIn dir x.1).dedup

variable {fs fs' : Tree} {p q dir : Loc} {c : Name} {i j : Inode}

/-- The children are the names that are there. -/
theorem mem_children_iff : c ∈ fs.children dir ↔ (fs.inode (dir ++ [c])).isSome := by
  rw [children, List.mem_dedup, List.mem_filterMap, inode, List.lookup_isSome_iff]
  constructor
  · rintro ⟨x, hx, hname⟩
    exact ⟨x, hx, by simp [nameIn_eq_some_iff.mp hname]⟩
  · rintro ⟨x, hx, hkey⟩
    have heq : dir ++ [c] = x.1 := by simpa using hkey
    exact ⟨x, hx, nameIn_eq_some_iff.mpr heq.symm⟩

/-! ## Nodes above a node -/

/-- What has something below it is a directory. -/
theorem isDir_of_below (h : fs.inode (p ++ q) = some i) (hq : q ≠ []) : fs.IsDir p := by
  induction q using List.reverseRecOn generalizing i with
  | nil => exact absurd rfl hq
  | append_singleton q c ih =>
    rw [← List.append_assoc] at h
    obtain ⟨j, hj, hdir⟩ := isDir_of_inode h
    by_cases hnil : q = []
    · rw [hnil, List.append_nil] at hj
      exact ⟨j, hj, hdir⟩
    · exact ih hj hnil

/-- Above a node there are nodes. -/
theorem exists_inode_above (h : fs.inode q = some i) (hpq : p <+: q) :
    ∃ j, fs.inode p = some j := by
  obtain ⟨r, rfl⟩ := hpq
  by_cases hr : r = []
  · rw [hr, List.append_nil] at h
    exact ⟨i, h⟩
  · obtain ⟨j, hj, -⟩ := isDir_of_below h hr
    exact ⟨j, hj⟩

/-- Below a location where nothing is there is nothing. -/
theorem inode_eq_none_below (h : fs.inode p = none) (hpq : p <+: q) : fs.inode q = none := by
  by_contra hsome
  obtain ⟨i, hi⟩ := Option.ne_none_iff_exists'.mp hsome
  obtain ⟨j, hj⟩ := exists_inode_above hi hpq
  rw [h] at hj
  cases hj

/-! ## Larger trees -/

/-- Every node of a tree is one of another. -/
def Le (fs fs' : Tree) : Prop := ∀ p i, fs.inode p = some i → fs'.inode p = some i

/-- Every tree is part of itself. -/
theorem Le.refl (fs : Tree) : Le fs fs := fun _ _ h => h

/-- A part of a part is a part. -/
theorem Le.trans {fs'' : Tree} (h : Le fs fs') (h' : Le fs' fs'') : Le fs fs'' :=
  fun p i hi => h' p i (h p i hi)

theorem Le.inode_eq_none (h : Le fs fs') (hp : fs'.inode p = none) : fs.inode p = none := by
  rcases hi : fs.inode p with _ | i
  · rfl
  · exact absurd ((h p i hi).symm.trans hp) (by simp)

/-- A walk sees in another tree what it sees in a tree. -/
def Seen (fs fs' : Tree) : Prop :=
  ∀ p i, fs.inode p = some i → ∃ j, fs'.inode p = some j ∧ j.sight = i.sight

theorem Le.seen (h : Le fs fs') : Seen fs fs' := fun p i hi => ⟨i, h p i hi, rfl⟩

theorem Seen.isDir (h : Seen fs fs') (hp : fs.isDir p = true) : fs'.isDir p = true := by
  rw [isDir_iff] at hp ⊢
  obtain ⟨i, hi, hdir⟩ := hp
  obtain ⟨j, hj, hsight⟩ := h p i hi
  exact ⟨j, hj, (congrArg Prod.fst hsight).trans hdir⟩

/-- A directory of the part is one of the whole. -/
theorem Le.isDir (h : Le fs fs') (hp : fs.isDir p = true) : fs'.isDir p = true := h.seen.isDir hp

/-- A step that goes somewhere goes there in a tree that looks the same. -/
theorem Seen.walkStep {split : Str → List Name} {root cur : Loc} (h : Seen fs fs')
    (hstep : ∀ e, fs.walkStep split root cur c ≠ .fail e) :
    fs'.walkStep split root cur c = fs.walkStep split root cur c := by
  by_cases hdir : fs.isDir cur = true
  · have hdir' := h.isDir hdir
    by_cases hdot : c = dot
    · rw [hdot, walkStep_dot hdir, walkStep_dot hdir']
    by_cases hup : c = dotdot
    · simp [Tree.walkStep, hdir, hdir', hup]
    by_cases hlong : NAME_MAX < c.length
    · exact absurd (by simp [Tree.walkStep, hdir, hdot, hup, hlong]) (hstep .ENAMETOOLONG)
    rw [walkStep_name hdir hdot hup hlong] at hstep ⊢
    rw [walkStep_name hdir' hdot hup hlong]
    rcases hi : fs.inode (cur ++ [c]) with _ | i
    · exact absurd (by rw [hi]) (hstep .ENOENT)
    · obtain ⟨j, hj, hsight⟩ := h _ _ hi
      have htarget := congrArg Prod.snd hsight
      simp only [Inode.sight] at htarget
      rw [hj]
      dsimp only
      by_cases hlink : i.isLink = true
      · have hlink' : j.isLink = true := by
          by_contra hne
          simp [hlink, hne] at htarget
        simp only [hlink, hlink', if_true, Option.some.injEq] at htarget ⊢
        rw [htarget]
      · have hlink' : ¬j.isLink = true := by
          intro hj'
          simp [hlink, hj'] at htarget
        simp only [hlink, hlink', if_false, Bool.false_eq_true]
  · exact absurd (by simp [Tree.walkStep, hdir]) (hstep .ENOTDIR)

/-- **A walk that ends ends there in a tree that looks the same.** -/
theorem Seen.walk {split : Str → List Name} {root cur : Loc} {n m : ℕ} {l : List Name} {e : Errno}
    (h : Seen fs fs') (hwalk : walk (fs.walkStep split root) e n l cur = .ok (m, p)) :
    walk (fs'.walkStep split root) e n l cur = .ok (m, p) := by
  refine walk_induction (P := fun n l cur m p =>
    Walk.walk (fs'.walkStep split root) e n l cur = .ok (m, p)) ?_ ?_ ?_ hwalk
  · intro n cur
    exact walk_nil n cur
  · intro n l cur c cur' m p hs _ ih
    rw [walk_next (h.walkStep (by simp [hs]) |>.trans hs), ih]
  · intro n l cur c cur' t m p hs _ ih
    rw [walk_splice (h.walkStep (by simp [hs]) |>.trans hs), ih]

/-- A walk in the part is one in the whole. -/
theorem Le.walk {split : Str → List Name} {root cur : Loc} {n m : ℕ} {l : List Name} {e : Errno}
    (h : Le fs fs') (hwalk : walk (fs.walkStep split root) e n l cur = .ok (m, p)) :
    walk (fs'.walkStep split root) e n l cur = .ok (m, p) :=
  h.seen.walk hwalk

/-- **A path leads where the walk of its components does.** -/
theorem resolve_eq_ok_iff {s : Str} : fs.resolve s = .ok p ↔ s ≠ [] ∧ s.length < PATH_MAX
    ∧ ∃ m, Walk.walk (fs.walkStep kernelComponents []) .ELOOP linkLimit (kernelComponents s) []
      = .ok (m, p) := by
  rw [resolve]
  split_ifs with hnil hlen
  · simp [hnil]
  · simp [show ¬s.length < PATH_MAX by omega]
  · constructor
    · intro h
      obtain ⟨⟨m, q⟩, hwalk, rfl⟩ := Except.map_eq_ok h
      exact ⟨hnil, by omega, m, hwalk⟩
    · rintro ⟨-, -, m, hwalk⟩
      rw [hwalk]
      rfl

/-- **What resolves in a tree resolves to the same location in one that looks the same.** -/
theorem Seen.resolve {s : Str} (h : Seen fs fs') (hs : fs.resolve s = .ok p) :
    fs'.resolve s = .ok p := by
  rw [resolve_eq_ok_iff] at hs ⊢
  obtain ⟨hnil, hlen, m, hwalk⟩ := hs
  exact ⟨hnil, hlen, m, h.walk hwalk⟩

/-- A path of the part leads to the same place in the whole. -/
theorem Le.resolve {s : Str} (h : Le fs fs') (hs : fs.resolve s = .ok p) : fs'.resolve s = .ok p :=
  h.seen.resolve hs

/-- What a string leads to is there, and is no link. -/
theorem inode_of_walk {split : Str → List Name} {cur : Loc} {n m : ℕ} {l : List Name} {e : Errno}
    (hwalk : Walk.walk (fs.walkStep split []) e n l cur = .ok (m, p))
    (hcur : ∃ i, fs.inode cur = some i ∧ i.isLink = false) :
    ∃ i, fs.inode p = some i ∧ i.isLink = false := by
  have hdir {d : Loc} (hd : fs.IsDir d) : ∃ i, fs.inode d = some i ∧ i.isLink = false := by
    obtain ⟨i, hi, hid⟩ := hd
    exact ⟨i, hi, Inode.isLink_eq_false hid⟩
  refine walk_invariant (I := fun d => ∃ i, fs.inode d = some i ∧ i.isLink = false) ?_ ?_ hwalk hcur
  · intro d a d' hd hs
    obtain ⟨hisDir, ⟨-, rfl⟩ | ⟨-, rfl⟩ | ⟨-, hi, rfl⟩⟩ := walkStep_next hs
    · exact hd
    · split_ifs with hroot
      · exact hdir isDir_root
      · obtain ⟨i, hi, -⟩ := hd
        rw [← List.dropLast_append_getLast hroot] at hi
        exact hdir (isDir_of_inode hi)
    · exact hi
  · intro d a d' t hd hs
    obtain ⟨hisDir, -, i, -, -, rfl, -⟩ := walkStep_splice hs
    split_ifs
    · exact hdir isDir_root
    · exact hd

/-- A path leads to what is there and is no link. -/
theorem inode_of_resolve {s : Str} (hs : fs.resolve s = .ok p) :
    ∃ i, fs.inode p = some i ∧ i.isLink = false := by
  obtain ⟨-, -, m, hwalk⟩ := resolve_eq_ok_iff.mp hs
  refine inode_of_walk hwalk ?_
  obtain ⟨i, hi, hid⟩ := fs.isDir_root
  exact ⟨i, hi, Inode.isLink_eq_false hid⟩

/-! ## Adding and resizing -/

/-- The tree with a node added to a directory. -/
def add (fs : Tree) (dir : Loc) (c : Name) (i : Inode) (hdir : fs.IsDir dir) (hname : IsName c)
    (hlink : i.isLink → i.target ≠ []) : Tree where
  nodes := fs.nodes ++ [(dir ++ [c], i)]
  root := by
    obtain ⟨j, hj, hd⟩ := fs.root
    exact ⟨j, by rw [List.lookup_append, hj]; rfl, hd⟩
  parent p d j hj := by
    have hp : fs.IsDir p := by
      rcases lookup_snoc_eq_some hj with hj | ⟨heq, -⟩
      · exact fs.parent p d j hj
      · rw [(List.append_inj' heq rfl).1]
        exact hdir
    obtain ⟨k, hk, hd⟩ := hp
    rw [inode] at hk
    exact ⟨k, by rw [List.lookup_append, hk]; rfl, hd⟩
  name p d j hj := by
    rcases lookup_snoc_eq_some hj with hj | ⟨heq, -⟩
    · exact fs.name p d j hj
    · rw [(List.cons.inj (List.append_inj' heq rfl).2).1]
      exact hname
  target p j hj := by
    rcases lookup_snoc_eq_some hj with hj | ⟨-, rfl⟩
    · exact fs.target p j hj
    · exact hlink

/-- One node is added. -/
theorem inode_add {hdir : fs.IsDir dir} {hname : IsName c} {hlink : i.isLink → i.target ≠ []}
    (p : Loc) : (fs.add dir c i hdir hname hlink).inode p
      = (fs.inode p).or (if p = dir ++ [c] then some i else none) := by
  have h := lookup_snoc fs.nodes p (dir ++ [c]) i
  simp only [beq_iff_eq] at h
  exact h

theorem lookup_resize (fs : Tree) (q : Loc) (n : ℕ) (p : Loc) :
    (fs.nodes.map fun x => (x.1, x.2.resizeIf (x.1 = q) n)).lookup p
      = (fs.inode p).map (·.resizeIf (p = q) n) :=
  lookup_map_value (fun (p : Loc) (i : Inode) => i.resizeIf (p = q) n) fs.nodes p

/-- The tree with the size of a node changed. -/
def resize (fs : Tree) (q : Loc) (n : ℕ) : Tree where
  nodes := fs.nodes.map fun x => (x.1, x.2.resizeIf (x.1 = q) n)
  root := by
    obtain ⟨j, hj, hd⟩ := fs.root
    exact ⟨j.resizeIf _ n, by rw [lookup_resize, inode, hj]; rfl, hd⟩
  parent p d j hj := by
    rw [lookup_resize] at hj
    obtain ⟨k, hk, -⟩ := Option.map_eq_some_iff.mp hj
    obtain ⟨k', hk', hd⟩ := fs.parent p d k hk
    exact ⟨k'.resizeIf _ n, by rw [lookup_resize, inode, hk']; rfl, hd⟩
  name p d j hj := by
    rw [lookup_resize] at hj
    obtain ⟨k, hk, -⟩ := Option.map_eq_some_iff.mp hj
    exact fs.name p d k hk
  target p j hj := by
    rw [lookup_resize] at hj
    obtain ⟨k, hk, rfl⟩ := Option.map_eq_some_iff.mp hj
    exact fs.target p k hk

/-! ## Pruning -/

/-- The tree without the branch at a location other than `/`. -/
def prune (fs : Tree) (q : Loc) : Tree where
  nodes := fs.nodes.filter fun x => !(q ≠ [] ∧ q <+: x.1 : Bool)
  root := by
    obtain ⟨j, hj, hd⟩ := fs.root
    exact ⟨j, by rw [lookup_filter_key fun p => !(q ≠ [] ∧ q <+: p : Bool), hj]; simp, hd⟩
  parent p d j hj := by
    rw [lookup_filter_key fun p => !(q ≠ [] ∧ q <+: p : Bool)] at hj ⊢
    split_ifs at hj with hkeep
    obtain ⟨k, hk, hd⟩ := fs.parent p d j hj
    refine ⟨k, ?_, hd⟩
    rw [if_pos, hk]
    simp only [Bool.not_eq_true', decide_eq_false_iff_not, not_and] at hkeep ⊢
    exact fun hq hp => hkeep hq (hp.trans (List.prefix_append p [d]))
  name p d j hj := by
    rw [lookup_filter_key fun p => !(q ≠ [] ∧ q <+: p : Bool)] at hj
    split_ifs at hj
    exact fs.name p d j hj
  target p j hj := by
    rw [lookup_filter_key fun p => !(q ≠ [] ∧ q <+: p : Bool)] at hj
    split_ifs at hj
    exact fs.target p j hj

/-- What is at and below a location is gone. -/
theorem inode_prune (q p : Loc) :
    (fs.prune q).inode p = if q ≠ [] ∧ q <+: p then none else fs.inode p := by
  rw [inode, prune, lookup_filter_key fun p => !(q ≠ [] ∧ q <+: p : Bool)]
  by_cases h : q ≠ [] ∧ q <+: p
  · simp [h]
  · rw [if_neg h, if_pos (by simpa [-not_and, not_and_or] using h)]
    rfl

theorem prune_le (q : Loc) : Le (fs.prune q) fs := by
  intro p i h
  rw [inode_prune] at h
  split_ifs at h
  exact h

/-- The tree without what is below a location. -/
def hollow (fs : Tree) (q : Loc) : Tree where
  nodes := fs.nodes.filter fun x => !(q <+: x.1 ∧ q ≠ x.1 : Bool)
  root := by
    obtain ⟨j, hj, hd⟩ := fs.root
    refine ⟨j, ?_, hd⟩
    rw [lookup_filter_key fun p => !(q <+: p ∧ q ≠ p : Bool), hj]
    simp
  parent p d j hj := by
    rw [lookup_filter_key fun p => !(q <+: p ∧ q ≠ p : Bool)] at hj ⊢
    split_ifs at hj with hkeep
    obtain ⟨k, hk, hd⟩ := fs.parent p d j hj
    refine ⟨k, ?_, hd⟩
    rw [if_pos, hk]
    simp only [Bool.not_eq_true', decide_eq_false_iff_not, not_and, not_not] at hkeep ⊢
    intro hp
    have hlen := congrArg List.length (hkeep (hp.trans (List.prefix_append p [d])))
    have hle := hp.length_le
    rw [List.length_append, List.length_singleton] at hlen
    omega
  name p d j hj := by
    rw [lookup_filter_key fun p => !(q <+: p ∧ q ≠ p : Bool)] at hj
    split_ifs at hj
    exact fs.name p d j hj
  target p j hj := by
    rw [lookup_filter_key fun p => !(q <+: p ∧ q ≠ p : Bool)] at hj
    split_ifs at hj
    exact fs.target p j hj

/-- What is below a location is gone. -/
theorem inode_hollow (q p : Loc) :
    (fs.hollow q).inode p = if q <+: p ∧ q ≠ p then none else fs.inode p := by
  rw [inode, hollow, lookup_filter_key fun p => !(q <+: p ∧ q ≠ p : Bool)]
  by_cases h : q <+: p ∧ q ≠ p
  · simp [h]
  · rw [if_neg h, if_pos (by simpa [-not_and, not_and_or] using h)]
    rfl

theorem hollow_le (q : Loc) : Le (fs.hollow q) fs := by
  intro p i h
  rw [inode_hollow] at h
  split_ifs at h
  exact h

end Tree

/-! ## Branches -/

/-- What is at a location and below it. -/
structure Branch (top : Loc) where
  nodes : List (Loc × Inode)
  below : ∀ x ∈ nodes, top <+: x.1
  root : ∃ i, nodes.lookup top = some i ∧ (top = [] → i.isDir)
  parent : ∀ p c i, top <+: p → nodes.lookup (p ++ [c]) = some i →
    ∃ j, nodes.lookup p = some j ∧ j.isDir
  name : ∀ p c i, top <+: p → nodes.lookup (p ++ [c]) = some i → IsName c
  target : ∀ p i, nodes.lookup p = some i → i.isLink → i.target ≠ []

namespace Tree

variable {fs fs' : Tree} {p q top : Loc} {c : Name} {i : Inode}

theorem lookup_branch (fs : Tree) (top p : Loc) :
    (fs.nodes.filter fun x => decide (top <+: x.1)).lookup p
      = if top <+: p then fs.inode p else none := by
  rw [lookup_filter_key fun p => decide (top <+: p)]
  simp only [decide_eq_true_eq]
  rfl

/-- The branch of a tree at one of its nodes. -/
def branch (fs : Tree) (top : Loc) (h : (fs.inode top).isSome) : Branch top where
  nodes := fs.nodes.filter fun x => decide (top <+: x.1)
  below x hx := by simpa using (List.mem_filter.mp hx).2
  root := by
    obtain ⟨i, hi⟩ := Option.isSome_iff_exists.mp h
    refine ⟨i, by rw [lookup_branch, if_pos List.prefix_rfl, hi], ?_⟩
    rintro rfl
    obtain ⟨j, hj, hd⟩ := fs.root
    obtain rfl : j = i := Option.some.inj (hj.symm.trans hi)
    exact hd
  parent p c i hp hi := by
    rw [lookup_branch, if_pos (hp.trans (List.prefix_append p [c]))] at hi
    obtain ⟨j, hj, hd⟩ := isDir_of_inode hi
    exact ⟨j, by rw [lookup_branch, if_pos hp, hj], hd⟩
  name p c i hp hi := by
    rw [lookup_branch, if_pos (hp.trans (List.prefix_append p [c]))] at hi
    exact isName_of_inode hi
  target p i hi := by
    rw [lookup_branch] at hi
    split_ifs at hi
    exact fs.target p i hi

theorem lookup_moved (fs : Tree) (src top r : Loc) :
    ((fs.nodes.filter fun x => decide (src <+: x.1)).map fun x =>
      (top ++ x.1.drop src.length, x.2)).lookup (top ++ r) = fs.inode (src ++ r) := by
  have hkey := lookup_map_key (f := fun p : Loc => top ++ p.drop src.length) (k := src ++ r)
    (l := fs.nodes.filter fun x => decide (src <+: x.1)) ?_
  · simp only [List.drop_left] at hkey
    rw [hkey, lookup_branch, if_pos (List.prefix_append src r)]
  · rintro ⟨p, i⟩ hx heq
    obtain ⟨t, rfl⟩ : src <+: p := by simpa using (List.mem_filter.mp hx).2
    simpa using heq

/-- The branch of a tree at one of its nodes, as it stands at another location; only a directory
stands at `/`. -/
def moved (fs : Tree) (src top : Loc) (h : (fs.inode src).isSome)
    (hroot : top = [] → fs.IsDir src) : Branch top where
  nodes := (fs.nodes.filter fun x => decide (src <+: x.1)).map fun x =>
    (top ++ x.1.drop src.length, x.2)
  below x hx := by
    obtain ⟨y, -, rfl⟩ := List.mem_map.mp hx
    exact List.prefix_append _ _
  root := by
    obtain ⟨i, hi⟩ := Option.isSome_iff_exists.mp h
    refine ⟨i, ?_, fun htop => ?_⟩
    · have hmoved := lookup_moved fs src top []
      rwa [List.append_nil, List.append_nil, hi] at hmoved
    · obtain ⟨j, hj, hd⟩ := hroot htop
      obtain rfl : j = i := Option.some.inj (hj.symm.trans hi)
      exact hd
  parent p c i hp hi := by
    obtain ⟨r, rfl⟩ := hp
    rw [List.append_assoc, lookup_moved, ← List.append_assoc] at hi
    obtain ⟨j, hj, hd⟩ := isDir_of_inode hi
    exact ⟨j, by rw [lookup_moved, hj], hd⟩
  name p c i hp hi := by
    obtain ⟨r, rfl⟩ := hp
    rw [List.append_assoc, lookup_moved, ← List.append_assoc] at hi
    exact isName_of_inode hi
  target p i hi := by
    obtain ⟨y, hy, hp⟩ := List.mem_map.mp (mem_of_lookup hi)
    obtain ⟨r, rfl⟩ : top <+: p := ⟨y.1.drop src.length, (Prod.mk.inj hp).1⟩
    rw [lookup_moved] at hi
    exact fs.target _ i hi

theorem lookup_graft (fs : Tree) (b : Branch top) (p : Loc) :
    ((fs.nodes.filter fun x => !decide (top <+: x.1)) ++ b.nodes).lookup p
      = if top <+: p then b.nodes.lookup p else fs.inode p := by
  rw [List.lookup_append, lookup_filter_key fun p => !decide (top <+: p)]
  by_cases hp : top <+: p
  · simp [hp]
  · have hnone : b.nodes.lookup p = none := by
      by_contra hsome
      obtain ⟨i, hi⟩ := Option.ne_none_iff_exists'.mp hsome
      exact hp (b.below _ (mem_of_lookup hi))
    simp only [hp, hnone, decide_false, Bool.not_false, if_true, if_false, Option.or_none]
    rfl

/-- **The tree with a branch in place of its own.** -/
def graft (fs : Tree) (b : Branch top) (h : (fs.inode top).isSome) : Tree where
  nodes := (fs.nodes.filter fun x => !decide (top <+: x.1)) ++ b.nodes
  root := by
    rw [lookup_graft]
    split_ifs with htop
    · obtain rfl := List.prefix_nil.mp htop
      obtain ⟨i, hi, hd⟩ := b.root
      exact ⟨i, hi, hd rfl⟩
    · exact fs.root
  parent p c i hi := by
    rw [lookup_graft] at hi ⊢
    by_cases hp : top <+: p
    · rw [if_pos (hp.trans (List.prefix_append p [c]))] at hi
      rw [if_pos hp]
      exact b.parent p c i hp hi
    · rw [if_neg hp]
      -- the parent of the branch is outside of it
      split_ifs at hi with hpc
      · obtain rfl := (List.prefix_concat_iff.mp hpc).resolve_right hp
        obtain ⟨j, hj⟩ := Option.isSome_iff_exists.mp h
        exact isDir_of_inode hj
      · exact isDir_of_inode hi
  name p c i hi := by
    rw [lookup_graft] at hi
    by_cases hp : top <+: p
    · rw [if_pos (hp.trans (List.prefix_append p [c]))] at hi
      exact b.name p c i hp hi
    · split_ifs at hi with hpc
      · obtain rfl := (List.prefix_concat_iff.mp hpc).resolve_right hp
        obtain ⟨j, hj⟩ := Option.isSome_iff_exists.mp h
        exact isName_of_inode hj
      · exact isName_of_inode hi
  target p i hi := by
    rw [lookup_graft] at hi
    split_ifs at hi
    · exact b.target p i hi
    · exact fs.target p i hi

/-- What is at and below a location is the branch. -/
theorem inode_graft (b : Branch top) (h : (fs.inode top).isSome) (p : Loc) :
    (fs.graft b h).inode p = if top <+: p then b.nodes.lookup p else fs.inode p :=
  lookup_graft fs b p

end Tree

end Fs
