import XdxContainer.Fs.World
import Mathlib.Data.List.TakeWhile

/-!
# Fs/Create — what `file_create` does to the tree

A path below a root, `root ++ "/a/b/c"`, none of whose components is a link (`Rooted`), leads to
`R ++ [a, b, c]` or nowhere, and `file_create` adds nodes on the way to it and no links (`Grown`):

    stat root/a/b   ──missing──▸ stat root/a   ──missing──▸ root is there
    mkdir root/a/b  ◂─────────── mkdir root/a  ◂───────────

Where something is at the path already, nothing is added (`fileCreate_of_exists`).
-/

open Paths Walk

namespace Fs

namespace Tree

variable {fs fs' fs'' : Tree} {T p q : Loc} {c : Name}

/-! ## Growing -/

/-- The tree has grown by nodes on the way to a location, none of them a link. -/
structure Grown (fs fs' : Tree) (T : Loc) : Prop where
  le : Le fs fs'
  new : ∀ p i, fs'.inode p = some i → fs.inode p = some i ∨ p <+: T ∧ i.isLink = false

namespace Grown

/-- Nothing was added. -/
theorem refl (fs : Tree) (T : Loc) : Grown fs fs T := ⟨Le.refl fs, fun _ _ h => .inl h⟩

theorem trans (h : Grown fs fs' T) (h' : Grown fs' fs'' T) : Grown fs fs'' T := by
  refine ⟨h.le.trans h'.le, fun p i hi => ?_⟩
  rcases h'.new p i hi with hold | hnew
  · exact h.new p i hold
  · exact .inr hnew

theorem add {dir : Loc} {i : Inode} (hdir : fs.IsDir dir) (hname : IsName c)
    (hlink : i.isLink → i.target ≠ []) (hT : dir ++ [c] <+: T) (hi : i.isLink = false) :
    Grown fs (fs.add dir c i hdir hname hlink) T := by
  refine ⟨fun p j hj => by rw [inode_add, hj]; rfl, fun p j hj => ?_⟩
  rw [inode_add, Option.or_eq_some_iff] at hj
  rcases hj with hj | ⟨-, hj⟩
  · exact .inl hj
  · split_ifs at hj with hp
    rw [hp, ← Option.some.inj hj]
    exact .inr ⟨hT, hi⟩

end Grown

/-! ## Walks over names -/

section Names

variable {split : Str → List Name} {root cur : Loc} {e : Errno} {n m : ℕ} {l : List Name}

/-- **A walk over names, none of them a link's, leads to where they stand.** -/
theorem walk_names (hnames : ∀ c ∈ l, c ≠ dot ∧ c ≠ dotdot)
    (hfree : ∀ p, p ≠ [] → p <+: l → ∀ i, fs.inode (cur ++ p) = some i → i.isLink = false)
    (h : walk (fs.walkStep split root) e n l cur = .ok (m, q)) : q = cur ++ l := by
  induction l generalizing cur with
  | nil =>
    rw [walk_nil] at h
    rw [List.append_nil]
    exact (Prod.mk.inj (Except.ok.inj h)).2.symm
  | cons c l ih =>
    obtain ⟨hdot, hup⟩ := hnames c List.mem_cons_self
    rcases hstep : fs.walkStep split root cur c with cur' | ⟨cur', t⟩ | e'
    · obtain ⟨-, ⟨hc, -⟩ | ⟨hc, -⟩ | ⟨-, -, rfl⟩⟩ := walkStep_next hstep
      · exact absurd hc hdot
      · exact absurd hc hup
      · rw [walk_next hstep] at h
        rw [ih (fun d hd => hnames d (List.mem_cons_of_mem c hd)) (fun p hp hpl i hi => ?_) h,
          List.append_assoc, List.singleton_append]
        refine hfree (c :: p) (by simp) (List.cons_prefix_cons.mpr ⟨rfl, hpl⟩) i ?_
        rwa [List.append_assoc, List.singleton_append] at hi
    · obtain ⟨-, -, i, hi, hlink, -⟩ := walkStep_splice hstep
      have hfalse := hfree [c] (by simp) (List.prefix_append [c] l) i hi
      rw [hlink] at hfalse
      cases hfalse
    · rw [walk_fail hstep] at h
      cases h

/-- Where something is, the walk gets there. -/
theorem walk_names_of_inode (hnames : ∀ c ∈ l, c ≠ dot ∧ c ≠ dotdot)
    (hfree : ∀ p, p ≠ [] → p <+: l → ∀ i, fs.inode (cur ++ p) = some i → i.isLink = false)
    (h : (fs.inode (cur ++ l)).isSome) :
    walk (fs.walkStep split root) e n l cur = .ok (n, cur ++ l) := by
  induction l generalizing cur with
  | nil => rw [walk_nil, List.append_nil]
  | cons c l ih =>
    obtain ⟨hdot, hup⟩ := hnames c List.mem_cons_self
    obtain ⟨j, hj⟩ := Option.isSome_iff_exists.mp h
    have hdir : fs.isDir cur = true := isDir_iff.mpr (isDir_of_below hj (by simp))
    have hj' : fs.inode ((cur ++ [c]) ++ l) = some j := by
      rw [List.append_assoc, List.singleton_append]
      exact hj
    obtain ⟨i, hi⟩ := exists_inode_above hj' (List.prefix_append (cur ++ [c]) l)
    have hlink := hfree [c] (by simp) (List.prefix_append [c] l) i hi
    have hlong : ¬NAME_MAX < c.length := Nat.not_lt.mpr (isName_of_inode hi).2.2.2.2
    have hstep : fs.walkStep split root cur c = .next (cur ++ [c]) := by
      rw [walkStep_name hdir hdot hup hlong, hi]
      exact if_neg (by simp [hlink])
    rw [walk_next hstep,
      ih (fun d hd => hnames d (List.mem_cons_of_mem c hd)) (fun p hp hpl i hi => ?_)
      (by rw [hj']; rfl), List.append_assoc, List.singleton_append]
    refine hfree (c :: p) (by simp) (List.cons_prefix_cons.mpr ⟨rfl, hpl⟩) i ?_
    rwa [List.append_assoc, List.singleton_append] at hi

end Names

/-! ## Parents -/

theorem kernelComponents_of_getLast? {s : Str} (h : s.getLast? ≠ some '/') :
    kernelComponents s = components s := by
  rw [kernelComponents, if_neg h, List.append_nil]

/-- **The directory a string's last component is looked up in.** -/
theorem resolveParent_eq_ok {s : Str} {cur : Loc}
    (h : fs.resolveParent s = .ok (some (cur, c))) :
    s ≠ [] ∧ s.length < PATH_MAX ∧ fs.isDir cur = true
      ∧ ∃ l m, kernelComponents s = l ++ [c]
        ∧ walk (fs.walkStep kernelComponents []) .ELOOP linkLimit l [] = .ok (m, cur) := by
  rw [resolveParent] at h
  split_ifs at h with hnil hlen
  split at h
  · cases h
  next d hlast =>
  obtain ⟨⟨m, cur'⟩, hwalk, hrest⟩ := Except.bind_eq_ok h
  dsimp only at hrest
  split_ifs at hrest with hdir
  obtain ⟨rfl, rfl⟩ := Prod.mk.inj (Option.some.inj (Except.ok.inj hrest))
  exact ⟨hnil, by omega, hdir, _, m, (List.dropLast_append_getLast? d hlast).symm, hwalk⟩

/-- A path with components leads to a parent and a name. -/
theorem exists_of_resolveParent {s : Str} {r : Option (Loc × Name)} (hs : kernelComponents s ≠ [])
    (h : fs.resolveParent s = .ok r) : ∃ cur c, r = some (cur, c) := by
  rw [resolveParent] at h
  split_ifs at h
  split at h
  · next hnone => exact absurd (List.getLast?_eq_none_iff.mp hnone) hs
  · obtain ⟨⟨m, cur⟩, -, hrest⟩ := Except.bind_eq_ok h
    dsimp only at hrest
    split_ifs at hrest
    exact ⟨_, _, (Except.ok.inj hrest).symm⟩

/-- The parent is where the walk without the last component leads. -/
theorem resolveParent_of_walk {s : Str} {cur : Loc} {l : List Name} {m : ℕ} (hnil : s ≠ [])
    (hlen : s.length < PATH_MAX) (hl : kernelComponents s = l ++ [c]) (hdir : fs.isDir cur = true)
    (hwalk : walk (fs.walkStep kernelComponents []) .ELOOP linkLimit l [] = .ok (m, cur)) :
    fs.resolveParent s = .ok (some (cur, c)) := by
  rw [resolveParent, if_neg hnil, if_neg (by omega), hl]
  simp only [List.getLast?_concat, List.dropLast_concat]
  rw [hwalk]
  exact if_pos hdir

/-- What is looked up in a tree is looked up in the same directory of every larger one. -/
theorem Le.resolveParent {s : Str} {cur : Loc} (h : Le fs fs')
    (hs : fs.resolveParent s = .ok (some (cur, c))) :
    fs'.resolveParent s = .ok (some (cur, c)) := by
  obtain ⟨hnil, hlen, hdir, l, m, hl, hwalk⟩ := resolveParent_eq_ok hs
  exact resolveParent_of_walk hnil hlen hl (h.isDir hdir) (h.walk hwalk)

/-- A component that leads somewhere is there. -/
theorem lookupLast_of_walkStep {split : Str → List Name} {cur : Loc}
    (h : ∀ e, fs.walkStep split [] cur c ≠ .fail e) :
    fs.isDir cur = true ∧ ∃ p, fs.lookupLast cur c = .ok p := by
  have hdir : fs.isDir cur = true := by
    by_contra hdir
    exact h .ENOTDIR (by simp [walkStep, hdir])
  refine ⟨hdir, ?_⟩
  rw [lookupLast]
  split_ifs with hdot hup hlong hsome
  · exact ⟨cur, rfl⟩
  · exact ⟨_, rfl⟩
  · exact absurd (by simp [walkStep, hdir, hdot, hup, hlong]) (h .ENAMETOOLONG)
  · exact ⟨_, rfl⟩
  · refine absurd ?_ (h .ENOENT)
    rw [walkStep_name hdir hdot hup hlong, Option.not_isSome_iff_eq_none.mp hsome]

/-- **A directory a string leads to without following a link at its end is where it leads.** -/
theorem walk_of_resolveNoFollow {s : Str} (h : fs.resolveNoFollow s = .ok p)
    (hdir : fs.isDir p = true) : s ≠ [] ∧ s.length < PATH_MAX
      ∧ ∃ m, walk (fs.walkStep kernelComponents []) .ELOOP linkLimit (components s) []
        = .ok (m, p) := by
  obtain ⟨r, hr, hrest⟩ := Except.bind_eq_ok h
  by_cases hlast : s.getLast? = some '/'
  · have hk : kernelComponents s = components s ++ [dot] := by rw [kernelComponents, if_pos hlast]
    obtain ⟨cur, c, rfl⟩ := exists_of_resolveParent (by rw [hk]; simp) hr
    obtain ⟨hnil, hlen, -, l, m, hl, hwalk⟩ := resolveParent_eq_ok hr
    obtain ⟨rfl, hc⟩ := List.append_inj' (hk.symm.trans hl) rfl
    have hcur : fs.lookupLast cur dot = .ok p := by
      rw [(List.cons.inj hc).1]
      exact hrest
    rw [lookupLast, if_pos rfl] at hcur
    exact ⟨hnil, hlen, m, Except.ok.inj hcur ▸ hwalk⟩
  · have hk : kernelComponents s = components s := kernelComponents_of_getLast? hlast
    rcases r with _ | ⟨cur, c⟩
    · rw [resolveParent] at hr
      split_ifs at hr with hnil hlen
      split at hr
      · next hnone =>
        rw [hk, List.getLast?_eq_none_iff] at hnone
        rw [hnone]
        exact ⟨hnil, by omega, linkLimit, by rw [walk_nil, Except.ok.inj hrest]⟩
      · obtain ⟨⟨m, cur⟩, -, hrest'⟩ := Except.bind_eq_ok hr
        dsimp only at hrest'
        split_ifs at hrest'
        cases Except.ok.inj hrest'
    · obtain ⟨hnil, hlen, hcur, l, m, hl, hwalk⟩ := resolveParent_eq_ok hr
      refine ⟨hnil, hlen, m, ?_⟩
      have hstep : fs.walkStep kernelComponents [] cur c = .next p := by
        have hlook : fs.lookupLast cur c = .ok p := hrest
        rw [lookupLast] at hlook
        split_ifs at hlook with hdot hup hlong hsome
        · rw [hdot, walkStep_dot hcur, Except.ok.inj hlook]
        · rw [← Except.ok.inj hlook]
          rw [walkStep, if_neg (by simp [hcur]), if_neg hdot, if_pos hup]
          by_cases hroot : cur = [] <;> simp [hroot]
        · obtain rfl := Except.ok.inj hlook
          obtain ⟨i, hi, hid⟩ := isDir_iff.mp hdir
          rw [walkStep_name hcur hdot hup hlong, hi]
          exact if_neg (by simp [Inode.isLink_eq_false hid])
      rw [← hk, hl, walk_append hwalk, walk_next hstep, walk_nil]

end Tree

/-! ## Paths below a root -/

/-- A root as it stands in front of a component: without one slash at its end. -/
def bare (root : Str) : Str := if root.getLast? = some '/' then root.dropLast else root

theorem components_bare (root : Str) : components (bare root) = components root := by
  rw [bare]
  split_ifs with hlast
  · have hroot := List.dropLast_append_getLast? _ hlast
    conv_rhs => rw [← hroot]
    rw [components_append_slash, components_nil, List.append_nil]
  · rfl

theorem length_bare_le (root : Str) : (bare root).length ≤ root.length := by
  rw [bare]
  split_ifs
  · rw [List.length_dropLast]
    omega
  · exact Nat.le_refl _

/-- The components of a path below a root. -/
theorem kernelComponents_render (x : Str) {cs : List Name} (hcs : ∀ c ∈ cs, c ≠ [] ∧ '/' ∉ c)
    (hne : cs ≠ []) : kernelComponents (x ++ render cs) = components x ++ cs := by
  obtain ⟨c, cs', rfl⟩ := List.exists_cons_of_ne_nil hne
  have hlast : (x ++ render (c :: cs')).getLast? ≠ some '/' := by
    rw [List.getLast?_append_of_ne_nil x (by simp [render])]
    exact getLast?_render_ne hcs
  rw [Tree.kernelComponents_of_getLast? hlast]
  have hrender : render (c :: cs') = '/' :: (render (c :: cs')).tail := by simp [render]
  have htail := components_render hcs
  rw [hrender, components_slash] at htail
  rw [hrender, components_append_slash, htail]

/-- The string of the root leads to `R`, and the components behind it are names, no existing one a
link. -/
structure Rooted (fs : Tree) (root : Str) (R : Loc) (cs : List Name) : Prop where
  walk : ∃ m, walk (fs.walkStep kernelComponents []) .ELOOP linkLimit (components root) []
    = .ok (m, R)
  dir : fs.IsDir R
  length : root.length < PATH_MAX
  names : ∀ c ∈ cs, c ≠ [] ∧ '/' ∉ c ∧ c ≠ dot ∧ c ≠ dotdot
  linkFree : ∀ p, p ≠ [] → p <+: cs → ∀ i, fs.inode (R ++ p) = some i → i.isLink = false

/-- The last component is looked up in its directory. -/
theorem lookupLast_eq {fs : Tree} {cur : Loc} {c : Name} (hdot : c ≠ dot) (hup : c ≠ dotdot) :
    fs.lookupLast cur c = if NAME_MAX < c.length then .error .ENAMETOOLONG
      else if (fs.inode (cur ++ [c])).isSome then .ok (cur ++ [c]) else .error .ENOENT := by
  rw [Tree.lookupLast, if_neg hdot, if_neg hup]

namespace Rooted

variable {fs fs' : Tree} {root : Str} {R cur T : Loc} {cs ds : List Name} {c c' : Name}

theorem grown (h : Rooted fs root R cs) (hgrown : fs.Grown fs' T) : Rooted fs' root R cs := by
  obtain ⟨m, hwalk⟩ := h.walk
  refine ⟨⟨m, hgrown.le.walk hwalk⟩, ?_, h.length, h.names, fun p hp hpre i hi => ?_⟩
  · exact Tree.isDir_iff.mp (hgrown.le.isDir (Tree.isDir_iff.mpr h.dir))
  · rcases hgrown.new _ i hi with hold | hnew
    · exact h.linkFree p hp hpre i hold
    · exact hnew.2

/-- A path further up is below the root too. -/
theorem of_prefix (h : Rooted fs root R cs) (hds : ds <+: cs) : Rooted fs root R ds :=
  ⟨h.walk, h.dir, h.length, fun c hc => h.names c (hds.subset hc),
    fun p hp hpre => h.linkFree p hp (hpre.trans hds)⟩

/-- The string of the components behind the root. -/
theorem kernelComponents_eq (h : Rooted fs root R cs) (hne : cs ≠ []) :
    kernelComponents (bare root ++ render cs) = components root ++ cs := by
  rw [kernelComponents_render _ (fun c hc => ⟨(h.names c hc).1, (h.names c hc).2.1⟩) hne,
    components_bare]

theorem kernelComponents_snoc (h : Rooted fs root R ds)
    (hc : c ≠ [] ∧ '/' ∉ c ∧ c ≠ dot ∧ c ≠ dotdot) :
    kernelComponents (bare root ++ render (ds ++ [c])) = components root ++ ds ++ [c] := by
  have hnames : ∀ d ∈ ds ++ [c], d ≠ [] ∧ '/' ∉ d := fun d hd => by
    rcases List.mem_append.mp hd with hd | hd
    · exact ⟨(h.names d hd).1, (h.names d hd).2.1⟩
    · rw [List.mem_singleton.mp hd]
      exact ⟨hc.1, hc.2.1⟩
  rw [kernelComponents_render _ hnames (by simp), components_bare, List.append_assoc]

/-- **A path below the root leads to where its components stand**, be there a link or not. -/
theorem resolveParent_snoc (h : Rooted fs root R ds)
    (hc : c ≠ [] ∧ '/' ∉ c ∧ c ≠ dot ∧ c ≠ dotdot)
    (hparent : fs.resolveParent (bare root ++ render (ds ++ [c])) = .ok (some (cur, c'))) :
    cur = R ++ ds ∧ c' = c := by
  obtain ⟨-, -, -, l, m, hl, hwalk⟩ := Tree.resolveParent_eq_ok hparent
  rw [h.kernelComponents_snoc hc] at hl
  obtain ⟨rfl, hlast⟩ := List.append_inj' hl rfl
  obtain ⟨m', hroot⟩ := h.walk
  rw [walk_append hroot] at hwalk
  exact ⟨Tree.walk_names (fun d hd => (h.names d hd).2.2) h.linkFree hwalk,
    (List.cons.inj hlast).1.symm⟩

theorem resolveParent (h : Rooted fs root R (ds ++ [c]))
    (hparent : fs.resolveParent (bare root ++ render (ds ++ [c])) = .ok (some (cur, c'))) :
    cur = R ++ ds ∧ c' = c :=
  (h.of_prefix (List.prefix_append ds [c])).resolveParent_snoc (h.names c (by simp)) hparent

/-- The kernel follows no link below the root. -/
theorem resolve (h : Rooted fs root R cs) (hne : cs ≠ []) {p : Loc}
    (hp : fs.resolve (bare root ++ render cs) = .ok p) : p = R ++ cs := by
  obtain ⟨-, -, m, hwalk⟩ := Tree.resolve_eq_ok_iff.mp hp
  obtain ⟨m', hroot⟩ := h.walk
  rw [h.kernelComponents_eq hne, walk_append hroot] at hwalk
  exact Tree.walk_names (fun d hd => (h.names d hd).2.2) h.linkFree hwalk

/-- A name behind the path, if there is no link under it. -/
theorem snoc (h : Rooted fs root R ds) (hc : c ≠ [] ∧ '/' ∉ c ∧ c ≠ dot ∧ c ≠ dotdot)
    (hfree : ∀ i, fs.inode (R ++ (ds ++ [c])) = some i → i.isLink = false) :
    Rooted fs root R (ds ++ [c]) := by
  refine ⟨h.walk, h.dir, h.length, fun d hd => ?_, fun p hp hpre i hi => ?_⟩
  · rcases List.mem_append.mp hd with hd | hd
    · exact h.names d hd
    · rwa [List.mem_singleton.mp hd]
  · rcases List.prefix_concat_iff.mp hpre with rfl | hpre
    · exact hfree i hi
    · exact h.linkFree p hp hpre i hi

/-- Where something is, be it a link, the path is found. -/
theorem resolveParent_of_inode (h : Rooted fs root R ds)
    (hc : c ≠ [] ∧ '/' ∉ c ∧ c ≠ dot ∧ c ≠ dotdot)
    (hlen : (bare root ++ render (ds ++ [c])).length < PATH_MAX)
    (hsome : (fs.inode (R ++ (ds ++ [c]))).isSome) :
    fs.resolveParent (bare root ++ render (ds ++ [c])) = .ok (some (R ++ ds, c)) := by
  obtain ⟨i, hi⟩ := Option.isSome_iff_exists.mp hsome
  rw [← List.append_assoc] at hi
  have hdir : fs.IsDir (R ++ ds) := Tree.isDir_of_inode hi
  obtain ⟨m, hroot⟩ := h.walk
  refine Tree.resolveParent_of_walk (m := m) (l := components root ++ ds) (by simp [render]) hlen
    (h.kernelComponents_snoc hc) (Tree.isDir_iff.mpr hdir) ?_
  obtain ⟨j, hj, -⟩ := hdir
  rw [walk_append hroot, Tree.walk_names_of_inode (fun d hd => (h.names d hd).2.2) h.linkFree
    (by rw [hj]; rfl)]

/-- A path to what is there is resolved. -/
theorem resolve_of_inode (h : Rooted fs root R cs) (hne : cs ≠ [])
    (hlen : (bare root ++ render cs).length < PATH_MAX) (hsome : (fs.inode (R ++ cs)).isSome) :
    fs.resolve (bare root ++ render cs) = .ok (R ++ cs) := by
  obtain ⟨m, hroot⟩ := h.walk
  obtain ⟨c, cs', rfl⟩ := List.exists_cons_of_ne_nil hne
  refine Tree.resolve_eq_ok_iff.mpr ⟨by simp [render], hlen, m, ?_⟩
  rw [h.kernelComponents_eq hne, walk_append hroot,
    Tree.walk_names_of_inode (fun d hd => (h.names d hd).2.2) h.linkFree hsome]

/-- What is found at the path without following is where its components stand. -/
theorem resolveNoFollow (h : Rooted fs root R (ds ++ [c])) {p : Loc}
    (hp : fs.resolveNoFollow (bare root ++ render (ds ++ [c])) = .ok p) :
    p = R ++ (ds ++ [c]) ∧ (fs.inode p).isSome := by
  obtain ⟨r, hr, hrest⟩ := Except.bind_eq_ok hp
  obtain ⟨cur, c', rfl⟩ := Tree.exists_of_resolveParent
    (by rw [h.kernelComponents_eq (by simp)]; simp) hr
  obtain ⟨rfl, rfl⟩ := h.resolveParent hr
  obtain ⟨-, -, hdot, hup⟩ := h.names c' (by simp)
  have hlook : fs.lookupLast (R ++ ds) c' = .ok p := hrest
  rw [lookupLast_eq hdot hup] at hlook
  split_ifs at hlook with hlong hsome
  rw [← Except.ok.inj hlook, ← List.append_assoc]
  exact ⟨rfl, hsome⟩

theorem resolveNoFollow_of_inode (h : Rooted fs root R ds)
    (hc : c ≠ [] ∧ '/' ∉ c ∧ c ≠ dot ∧ c ≠ dotdot)
    (hlen : (bare root ++ render (ds ++ [c])).length < PATH_MAX)
    (hsome : (fs.inode (R ++ (ds ++ [c]))).isSome) :
    fs.resolveNoFollow (bare root ++ render (ds ++ [c])) = .ok (R ++ (ds ++ [c])) := by
  obtain ⟨i, hi⟩ := Option.isSome_iff_exists.mp hsome
  obtain ⟨-, -, hdot, hup⟩ := id hc
  rw [← List.append_assoc] at hi ⊢
  have hlong : ¬NAME_MAX < c.length := Nat.not_lt.mpr (Tree.isName_of_inode hi).2.2.2.2
  rw [Tree.resolveNoFollow, h.resolveParent_of_inode hc hlen hsome]
  change fs.lookupLast (R ++ ds) c = _
  rw [lookupLast_eq hdot hup, if_neg hlong, if_pos (by rw [hi]; rfl)]

/-- The path has no slash at its end. -/
theorem ftwStart_eq (h : Rooted fs root R (ds ++ [c])) :
    Tree.ftwStart (bare root ++ render (ds ++ [c])) = bare root ++ render (ds ++ [c]) := by
  have hlast : (bare root ++ render (ds ++ [c])).getLast? ≠ some '/' := by
    rw [List.getLast?_append_of_ne_nil _ (by simp [render])]
    exact getLast?_render_ne fun d hd => ⟨(h.names d hd).1, (h.names d hd).2.1⟩
  rw [Tree.ftwStart, dropSlashes_eq_self hlast, if_neg (by simp [render])]

/-- The root itself is there, with or without slashes at its end. -/
theorem resolve_root (h : Rooted fs root R cs) {s : Str} (hs : s ≠ []) (hlen : s.length < PATH_MAX)
    (hcomps : components s = components root) : fs.resolve s = .ok R := by
  obtain ⟨m, hroot⟩ := h.walk
  refine Tree.resolve_eq_ok_iff.mpr ⟨hs, hlen, m, ?_⟩
  rw [kernelComponents, hcomps]
  split_ifs
  · rw [walk_append hroot, walk_next (Tree.walkStep_dot (Tree.isDir_iff.mpr h.dir)), walk_nil]
  · rw [List.append_nil, hroot]

end Rooted

namespace World

variable {w w' : World} {k : Creation} {perm : BitVec 12} {path root : Str} {data : Option Str}
  {mode : Mode} {R T dir : Loc} {cs ds : List Name} {c : Name} {size : ℕ}

/-- The world has grown on the way to a location. -/
structure Grown (w w' : World) (T : Loc) : Prop where
  fs : w.fs.Grown w'.fs T
  mounts : w'.mounts = w.mounts

/-- Nothing was added. -/
theorem Grown.refl (w : World) (T : Loc) : Grown w w T := ⟨Tree.Grown.refl w.fs T, rfl⟩

/-- What is added twice is added. -/
theorem Grown.trans {w'' : World} (h : Grown w w' T) (h' : Grown w' w'' T) : Grown w w'' T :=
  ⟨h.fs.trans h'.fs, h'.mounts.trans h.mounts⟩

theorem stat_of_resolve {p : Loc} {i : Inode} (hp : w.fs.resolve path = .ok p)
    (hi : w.fs.inode p = some i) : w.stat path = .ok i := by
  have hpure : (Except.ok p : Except Errno Loc) = pure p := rfl
  rw [stat, hp, hpure, pure_bind, hi]
  rfl

/-! ## The calls that add a node -/

/-- **What there is with a node more.** -/
theorem inode_addNode {i : Inode} (hdir : w.fs.IsDir dir) (hname : IsName c)
    (hlink : i.isLink = false) (q : Loc) :
    (w.addNode dir c i).fs.inode q = (w.fs.inode q).or (if q = dir ++ [c] then
      some { i with dev := ((w.fs.inode dir).map (·.dev)).getD 0 } else none) := by
  have h : w.fs.isDir dir = true ∧ IsName c ∧ (i.isLink = true → i.target ≠ []) :=
    ⟨Tree.isDir_iff.mpr hdir, hname, fun hl => absurd (hlink.symm.trans hl) (by simp)⟩
  rw [addNode, dif_pos h]
  exact @Tree.inode_add w.fs dir c { i with dev := ((w.fs.inode dir).map (·.dev)).getD 0 } hdir
    hname h.2.2 q

theorem grown_addNode {i : Inode} (hT : dir ++ [c] <+: T) (hi : i.isLink = false) :
    Grown w (w.addNode dir c i) T := by
  rw [addNode]
  split_ifs with h
  · refine ⟨?_, rfl⟩
    exact Tree.Grown.add (i := { i with dev := ((w.fs.inode dir).map (·.dev)).getD 0 })
      (Tree.isDir_iff.mp h.1) h.2.1 h.2.2 hT hi
  · exact Grown.refl w T

/-- Where a new name goes, nothing is. -/
theorem place_eq_ok (h : w.place path = .ok (dir, c)) :
    w.fs.resolveParent path = .ok (some (dir, c)) ∧ (c ≠ dot ∧ c ≠ dotdot)
      ∧ w.fs.inode (dir ++ [c]) = none := by
  obtain ⟨r, hr, hrest⟩ := Except.bind_eq_ok h
  rcases r with _ | ⟨dir', c'⟩
  · cases hrest
  · dsimp only at hrest
    split_ifs at hrest with hdot hlong hsome
    obtain ⟨rfl, rfl⟩ := Prod.mk.inj (Except.ok.inj hrest)
    exact ⟨hr, not_or.mp hdot, by simpa using hsome⟩

/-- `mkdir` below a root. -/
theorem grown_mkdir (hrooted : Rooted w.fs root R (ds ++ [c])) (hT : R ++ (ds ++ [c]) <+: T)
    (h : w.mkdir (bare root ++ render (ds ++ [c])) perm size = .ok w') : Grown w w' T := by
  obtain ⟨⟨dir, c'⟩, hplace, hrest⟩ := Except.bind_eq_ok h
  obtain ⟨rfl, rfl⟩ := hrooted.resolveParent (place_eq_ok hplace).1
  rw [← Except.ok.inj hrest]
  refine grown_addNode ?_ rfl
  rwa [List.append_assoc]

/-- `open` below a root. -/
theorem grown_openCreate (hrooted : Rooted w.fs root R (ds ++ [c])) (hT : R ++ (ds ++ [c]) <+: T)
    (h : w.openCreate (bare root ++ render (ds ++ [c])) none perm = .ok w') : Grown w w' T := by
  obtain ⟨r, hr, hrest⟩ := Except.bind_eq_ok h
  rcases r with _ | ⟨dir, c'⟩
  · cases hrest
  · obtain ⟨rfl, rfl⟩ := hrooted.resolveParent hr
    dsimp only at hrest
    split_ifs at hrest
    split at hrest
    · rw [← Except.ok.inj hrest]
      refine grown_addNode ?_ rfl
      rwa [List.append_assoc]
    · split_ifs at hrest
      rw [← Except.ok.inj hrest]
      exact Grown.refl w T

/-! ## Ancestors -/

/-- **`make_ancestors` adds directories on the way.** -/
theorem grown_makeAncestors (hrooted : Rooted w.fs root R cs) (hT : R ++ cs <+: T) (n : ℕ) :
    Grown w (w.makeAncestors k perm n (bare root ++ render cs)).2 T := by
  induction cs using List.reverseRecOn generalizing n with
  | nil =>
    rw [render_nil, List.append_nil]
    rcases n with _ | n
    · exact Grown.refl w T
    rw [makeAncestors]
    split_ifs with hstop
    · exact Grown.refl w T
    · have hlen := hrooted.length
      have hle := length_bare_le root
      rw [hrooted.resolve_root (fun h => hstop (.inl h)) (by omega) (components_bare root)]
      exact Grown.refl w T
  | append_singleton ds c ih =>
    rcases n with _ | n
    · exact Grown.refl w T
    rw [makeAncestors]
    split_ifs
    · exact Grown.refl w T
    split
    · exact Grown.refl w T
    split_ifs
    · exact Grown.refl w T
    -- the path without its last component comes first
    have hslash : '/' ∉ c := (hrooted.names c (by simp)).2.1
    have hcut : cutLast (bare root ++ render (ds ++ [c])) = some (bare root ++ render ds) := by
      rw [render_append, render_singleton, ← List.append_assoc, cutLast_append_slash _ hslash]
    have hprev :=
      ih (hrooted.of_prefix (List.prefix_append ds [c])) ((List.prefix_append_right_inj R).mpr
      (List.prefix_append ds [c]) |>.trans hT) n
    simp only [hcut]
    split_ifs
    · exact hprev
    split
    · next hmk => exact hprev.trans (grown_mkdir (hrooted.grown hprev.fs) hT hmk)
    · exact hprev

/-- The root is there. -/
theorem makeAncestors_root (hrooted : Rooted w.fs root R cs) (hs : path ≠ [])
    (hlen : path.length < PATH_MAX) (hcomps : components path = components root) (n : ℕ) :
    w.makeAncestors k perm (n + 1) path = (true, w) := by
  rw [makeAncestors]
  split_ifs
  · rfl
  · rw [hrooted.resolve_root hs hlen hcomps]
    exact congrArg (·, w) (Tree.isDir_iff.mpr hrooted.dir)

/-! ## The whole routine -/

/-- A node is added at most. -/
theorem grown_createNode (hrooted : Rooted w.fs root R (ds ++ [c])) (hT : R ++ (ds ++ [c]) <+: T) :
    Grown w (w.createNode k (bare root ++ render (ds ++ [c])) none mode).2 T := by
  rw [createNode]
  split_ifs
  · exact Grown.refl w T
  split
  · split
    · next hmk => exact grown_mkdir hrooted hT hmk
    · exact Grown.refl w T
  · exact Grown.refl w T
  · split
    · next hopen => exact grown_openCreate hrooted hT hopen
    · exact Grown.refl w T

theorem grown_dirname (k : Creation) (perm : BitVec 12) (hrooted : Rooted w.fs root R (ds ++ [c]))
    (hT : R ++ (ds ++ [c]) <+: T) :
    Grown w (w.makeAncestors k perm ((dirname (bare root ++ render (ds ++ [c]))).length + 1)
      (dirname (bare root ++ render (ds ++ [c])))).2 T := by
  have hslash : '/' ∉ c := (hrooted.names c (by simp)).2.1
  have hds := hrooted.of_prefix (List.prefix_append ds [c])
  have hnames : ∀ d ∈ ds ++ [c], d ≠ [] ∧ '/' ∉ d := fun d hd =>
    ⟨(hrooted.names d hd).1, (hrooted.names d hd).2.1⟩
  have hself :
      dropSlashes (bare root ++ render (ds ++ [c])) = (bare root ++ render ds) ++ '/' :: c := by
    rw [dropSlashes_eq_self, render_append, render_singleton, List.append_assoc]
    rw [List.getLast?_append_of_ne_nil _ (by simp [render])]
    exact getLast?_render_ne hnames
  rw [dirname_append_slash _ hslash hself]
  by_cases hnil : ds = []
  · -- the directory is the root
    have hcomps : components (dropSlashes (bare root)) = components root := by
      rw [components_dropSlashes, components_bare]
    have hlen := hrooted.length
    have hle := length_bare_le root
    have hle' := length_dropSlashes_le (bare root)
    rw [hnil, render_nil, List.append_nil]
    split_ifs with hempty
    · rw [makeAncestors_root hrooted (by simp) (by decide) (by rw [← hcomps, hempty]; rfl)]
      exact Grown.refl w T
    · rw [makeAncestors_root hrooted hempty (by omega) hcomps]
      exact Grown.refl w T
  · have hlast : (bare root ++ render ds).getLast? ≠ some '/' := by
      obtain ⟨d, ds', rfl⟩ := List.exists_cons_of_ne_nil hnil
      rw [List.getLast?_append_of_ne_nil _ (by simp [render])]
      exact getLast?_render_ne fun d hd => hnames d (List.mem_append_left [c] hd)
    have hne : bare root ++ render ds ≠ [] := by
      obtain ⟨d, ds', rfl⟩ := List.exists_cons_of_ne_nil hnil
      simp [render]
    rw [dropSlashes_eq_self hlast, if_neg hne]
    exact grown_makeAncestors hds ((List.prefix_append_right_inj R).mpr
      (List.prefix_append ds [c]) |>.trans hT) _

/-- **`file_create` adds nodes on the way to its path, none of them a link.** -/
theorem grown_fileCreate (hrooted : Rooted w.fs root R (ds ++ [c])) :
    Grown w (w.fileCreate k (bare root ++ render (ds ++ [c])) none mode).2 (R ++ (ds ++ [c])) := by
  rw [fileCreate]
  split_ifs
  · exact Grown.refl w _
  · exact Grown.refl w _
  have hdirs := grown_dirname k ((0x1ff &&& ~~~k.umask ||| 0xc0) &&& ~~~k.umask) hrooted
    List.prefix_rfl
  dsimp only
  split
  · next heq =>
    rw [heq] at hdirs
    exact hdirs
  · next heq =>
    rw [heq] at hdirs
    exact hdirs.trans (grown_createNode (hrooted.grown hdirs.fs) List.prefix_rfl)

/-! ## Where something is already -/

theorem ftwStart_of_getLast? (hpath : path.getLast? ≠ some '/') : Tree.ftwStart path = path := by
  rw [Tree.ftwStart, dropSlashes_eq_self hpath]
  split_ifs with hnil
  · rw [hnil]
    rfl
  · rfl

theorem components_ftwStart (path : Str) : components (Tree.ftwStart path) = components path := by
  rw [Tree.ftwStart]
  split_ifs with hempty
  · -- nothing but slashes
    have hpath := components_dropSlashes path
    rw [hempty, components_nil] at hpath
    rw [← hpath]
    rcases path with _ | ⟨x, path⟩
    · rfl
    · have hx : x = '/' := by
        simp only [dropSlashes, List.reverse_eq_nil_iff, List.dropWhile_eq_nil_iff] at hempty
        simpa using hempty x (by simp)
      simp [hx]
  · exact components_dropSlashes path

/-- **A directory that is walked from is where the path leads.** -/
theorem resolve_eq_of_ftwStart {T L : Loc} (h : w.fs.resolveNoFollow (Tree.ftwStart path) = .ok T)
    (hdir : w.fs.isDir T = true) (hL : w.fs.resolve path = .ok L) : L = T := by
  obtain ⟨-, -, m, hwalk⟩ := Tree.walk_of_resolveNoFollow h hdir
  obtain ⟨-, -, m', hwalk'⟩ := Tree.resolve_eq_ok_iff.mp hL
  rw [components_ftwStart] at hwalk
  rw [kernelComponents, walk_append hwalk] at hwalk'
  split_ifs at hwalk'
  · rw [walk_next (Tree.walkStep_dot hdir), walk_nil] at hwalk'
    exact (Prod.mk.inj (Except.ok.inj hwalk')).2.symm
  · rw [walk_nil] at hwalk'
    exact (Prod.mk.inj (Except.ok.inj hwalk')).2.symm

/-- What is looked up is there, or the path ends in a dot. -/
theorem resolveParent_of_exists {T : Loc} (h : w.fs.resolveNoFollow (Tree.ftwStart path) = .ok T)
    (hparent : w.fs.resolveParent path = .ok (some (dir, c))) :
    c = dot ∨ c = dotdot ∨ (w.fs.inode (dir ++ [c])).isSome := by
  by_cases hlast : path.getLast? = some '/'
  · -- a slash at the end
    obtain ⟨-, -, -, l, m, hl, -⟩ := Tree.resolveParent_eq_ok hparent
    rw [kernelComponents, if_pos hlast] at hl
    exact .inl (List.cons.inj (List.append_inj' hl rfl).2).1.symm
  · rw [ftwStart_of_getLast? hlast, Tree.resolveNoFollow] at h
    obtain ⟨r, hr, hrest⟩ := Except.bind_eq_ok h
    obtain rfl := Except.ok.inj (hparent.symm.trans hr)
    simp only [Tree.lookupLast] at hrest
    split_ifs at hrest with hdot hup hlong hsome
    · exact .inl hdot
    · exact .inr (.inl hup)
    · exact .inr (.inr hsome)

/-- A directory is there without the slashes at the end of its path, too. -/
theorem exists_ftwStart (h : w.fs.resolveNoFollow path = .ok T) (hdir : w.fs.isDir T = true) :
    ∃ T', w.fs.resolveNoFollow (Tree.ftwStart path) = .ok T' := by
  by_cases hlast : path.getLast? = some '/'
  swap
  · exact ⟨T, by rw [ftwStart_of_getLast? hlast, h]⟩
  obtain ⟨hnil, hlen, m, hwalk⟩ := Tree.walk_of_resolveNoFollow h hdir
  rw [Tree.ftwStart]
  split_ifs with hempty
  · -- nothing but slashes
    obtain ⟨x, path', rfl⟩ := List.exists_cons_of_ne_nil hnil
    have hx : x = '/' := by
      simp only [dropSlashes, List.reverse_eq_nil_iff, List.dropWhile_eq_nil_iff] at hempty
      simpa using hempty x (by simp)
    refine ⟨[], ?_⟩
    have htake : (x :: path').take 1 = ['/'] := by simp [hx]
    rw [htake, Tree.resolveNoFollow,
      Tree.resolveParent_of_walk (m := linkLimit) (l := []) (c := dot)
      (by simp) (by decide) rfl (Tree.isDir_iff.mpr w.fs.isDir_root) (walk_nil _ _)]
    rfl
  · have hk : kernelComponents (dropSlashes path) = components path := by
      rw [Tree.kernelComponents_of_getLast? (getLast?_dropSlashes path), components_dropSlashes]
    have hle := length_dropSlashes_le path
    have hcne : components path ≠ [] := by
      rw [← components_dropSlashes]
      exact components_ne_nil hempty (getLast?_dropSlashes path)
    rw [← List.dropLast_append_getLast hcne] at hwalk hk
    obtain ⟨k, cur, hcur⟩ := walk_prefix hwalk
    rw [walk_append hcur] at hwalk
    have hstep : ∀ e, w.fs.walkStep kernelComponents [] cur ((components path).getLast hcne)
        ≠ .fail e := by
      intro e he
      rw [walk_fail he] at hwalk
      cases hwalk
    obtain ⟨hcurDir, p, hp⟩ := Tree.lookupLast_of_walkStep hstep
    refine ⟨p, ?_⟩
    rw [Tree.resolveNoFollow, Tree.resolveParent_of_walk hempty (by omega) hk hcurDir hcur]
    exact hp

/-- What is there is not created. -/
theorem createNode_of_exists (h : w.fs.resolveNoFollow (Tree.ftwStart path) = .ok T) :
    (w.createNode k path none mode).2 = w := by
  have hplace : ∀ x, w.place path ≠ .ok x := by
    rintro ⟨dir, c⟩ hx
    obtain ⟨hparent, ⟨hdot, hup⟩, hnone⟩ := place_eq_ok hx
    rcases resolveParent_of_exists h hparent with hc | hc | hc
    · exact hdot hc
    · exact hup hc
    · rw [hnone] at hc
      cases hc
  have hmkdir : ∀ perm size w', w.mkdir path perm size ≠ .ok w' := by
    intro perm size w' hw'
    obtain ⟨x, hx, -⟩ := Except.bind_eq_ok hw'
    exact hplace x hx
  have hopen : ∀ perm w', w.openCreate path none perm = .ok w' → w' = w := by
    intro perm w' hw'
    obtain ⟨r, hr, hrest⟩ := Except.bind_eq_ok hw'
    rcases r with _ | ⟨dir, c⟩
    · cases hrest
    · dsimp only at hrest
      split_ifs at hrest with hdot
      split at hrest
      · next hnone =>
        rcases resolveParent_of_exists h hr with hc | hc | hc
        · exact absurd (.inl hc) hdot
        · exact absurd (.inr hc) hdot
        · rw [hnone] at hc
          cases hc
      · split_ifs at hrest
        exact (Except.ok.inj hrest).symm
  rw [createNode]
  split_ifs
  · rfl
  split
  · split
    · next hmk => exact absurd hmk (hmkdir _ _ _)
    · rfl
  · rfl
  · split
    · next hw' => exact hopen _ _ hw'
    · rfl

/-- The directory of what is there is there. -/
theorem makeAncestors_of_exists (h : w.fs.resolveNoFollow (Tree.ftwStart path) = .ok T) (n : ℕ) :
    w.makeAncestors k perm (n + 1) (dirname path) = (true, w) := by
  have hstop (s : Str) (cur : Loc) (hs : w.fs.resolve s = .ok cur) (hdir : w.fs.isDir cur = true) :
      w.makeAncestors k perm (n + 1) s = (true, w) := by
    rw [makeAncestors, hs]
    split_ifs
    · rfl
    · exact congrArg (·, w) hdir
  have hslash : w.fs.resolve ['/'] = .ok [] := by
    refine Tree.resolve_eq_ok_iff.mpr ⟨by simp, by decide, linkLimit, ?_⟩
    exact walk_next (Tree.walkStep_dot (Tree.isDir_iff.mpr w.fs.isDir_root)) _ _
  by_cases hmem : '/' ∈ dropSlashes path
  · obtain ⟨x, c, hx, hc⟩ := exists_eq_append_slash hmem
    have hne : dropSlashes path ≠ [] := List.ne_nil_of_mem hmem
    rw [Tree.ftwStart, if_neg hne] at h
    rw [dirname_append_slash x hc hx]
    split_ifs with hempty
    · exact hstop _ _ hslash (Tree.isDir_iff.mpr w.fs.isDir_root)
    -- the walk behind `h` passes through the directory
    have hcomps : kernelComponents (dropSlashes path) = components x ++ [c] := by
      have hcne : c ≠ [] := by
        rintro rfl
        exact getLast?_dropSlashes path (by rw [hx]; simp)
      rw [Tree.kernelComponents_of_getLast? (getLast?_dropSlashes path), hx,
        components_append_slash, components_of_not_mem hc hcne]
    obtain ⟨r, hr, -⟩ := Except.bind_eq_ok h
    obtain ⟨cur, c', rfl⟩ := Tree.exists_of_resolveParent (by rw [hcomps]; simp) hr
    obtain ⟨-, hlen, hdir, l, m, hl, hwalk⟩ := Tree.resolveParent_eq_ok hr
    obtain ⟨rfl, -⟩ := List.append_inj' (hcomps.symm.trans hl) rfl
    refine hstop _ cur (Tree.resolve_eq_ok_iff.mpr ⟨hempty, ?_, m, ?_⟩) hdir
    · have hle := length_dropSlashes_le x
      rw [hx, List.length_append] at hlen
      omega
    · rw [Tree.kernelComponents_of_getLast? (getLast?_dropSlashes x), components_dropSlashes, hwalk]
  · simp only [dirname, if_neg hmem]
    split_ifs
    · exact hstop _ _ hslash (Tree.isDir_iff.mpr w.fs.isDir_root)
    · rw [makeAncestors, if_pos (.inr rfl)]

/-- **`file_create` changes nothing where something is.** -/
theorem fileCreate_of_exists (h : w.fs.resolveNoFollow (Tree.ftwStart path) = .ok T) :
    (w.fileCreate k path none mode).2 = w := by
  rw [fileCreate]
  split_ifs
  · rfl
  · rfl
  · dsimp only
    rw [makeAncestors_of_exists h]
    exact createNode_of_exists h

end World

end Fs
