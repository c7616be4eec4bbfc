import XdxContainer.Fs.Create
import XdxContainer.Fs.Remove

/-!
# Fs/Tour — where the walk of `nftw` goes, and in what order

    /a            DP  ⟨[a]⟩            ◂ last
    ├── /a/d      DP  ⟨[a, d]⟩         ◂ after what is in it
    │   └── /a/d/x  F ⟨[a, d, x]⟩
    └── /a/l      SL  ⟨[a, l]⟩         ◂ not followed

A visit is a path; here it comes with the location it was made at.  In every tree that is left of
the one walked over, the path leads to that location or nowhere (`Visited.loc_eq`), every node below
the start on its device is visited (`mem_tour_of_inode`), and nothing below a location is visited
after it (`pairwise_tour`).
-/

open Paths Walk

namespace Fs

/-- The flag a node is visited with. -/
def Inode.ftwFlag (i : Inode) : FtwFlag := if i.isDir then .DP else if i.isLink then .SL else .F

/-- The visit of a node. -/
def Inode.visit (i : Inode) (path : Str) : Visit := ⟨path, i.ftwFlag, i.size⟩

namespace Tree

/-- What is visited from a node on, as in `visit`, with the locations. -/
def tour (fs : Tree) (dev : ℕ) : ℕ → Str → Loc → Inode → List (Loc × Visit)
  | 0, _, _, _ => []
  | n + 1, path, p, i =>
    if i.isDir then
      (fs.children p).flatMap (fun c =>
        match fs.inode (p ++ [c]) with
        | some j => if j.dev = dev then fs.tour dev n (entryPath path c) (p ++ [c]) j else []
        | none => [])
        ++ [(p, i.visit path)]
    else [(p, i.visit path)]

/-- `nftw`: the calls it makes, with the locations. -/
def nftwAt (fs : Tree) (path : Str) : List (Loc × Visit) :=
  match fs.resolveNoFollow (ftwStart path) with
  | .error _ => []
  | .ok p =>
    match fs.inode p with
    | none => []
    | some i => fs.tour i.dev (fs.depth + 1) (ftwStart path) p i

variable {fs fs' : Tree} {dev n : ℕ} {path : Str} {p q top : Loc} {c : Name} {i j : Inode}
  {v : Visit} {ds : List Name}

theorem ftwFlag_of_isDir (h : i.isDir = true) : i.ftwFlag = .DP := if_pos h

/-- The tour, without the locations. -/
theorem map_tour (fs : Tree) (dev n : ℕ) (path : Str) (p : Loc) (i : Inode) :
    (fs.tour dev n path p i).map (·.2) = fs.visit dev n path p i := by
  induction n generalizing path p i with
  | zero => rfl
  | succ n ih =>
    rw [tour, visit]
    split_ifs with hdir hlink
    · rw [List.map_append, List.map_flatMap]
      refine congrArg₂ (· ++ ·) (List.flatMap_congr fun c _ => ?_) ?_
      · rcases fs.inode (p ++ [c]) with _ | j
        · rfl
        · dsimp only
          split_ifs
          · exact ih _ _ _
          · rfl
      · simp [Inode.visit, Inode.ftwFlag, hdir]
    · simp [Inode.visit, Inode.ftwFlag, hdir, hlink]
    · simp [Inode.visit, Inode.ftwFlag, hdir, hlink]

/-- Without the locations it is the walk of `nftw`. -/
theorem map_nftwAt (fs : Tree) (path : Str) : (fs.nftwAt path).map (·.2) = fs.nftw path := by
  rw [nftwAt, nftw]
  rcases fs.resolveNoFollow (ftwStart path) with e | p
  · rfl
  dsimp only
  rcases fs.inode p with _ | i
  · rfl
  · exact map_tour fs i.dev _ _ p i

/-! ## What is visited -/

/-- The entries of the tour of a directory. -/
theorem mem_tour_succ {x : Loc × Visit} (h : x ∈ fs.tour dev (n + 1) path p i) :
    x = (p, i.visit path) ∨ ∃ c j, fs.inode (p ++ [c]) = some j
      ∧ x ∈ fs.tour dev n (entryPath path c) (p ++ [c]) j := by
  rw [tour] at h
  split_ifs at h
  · rcases List.mem_append.mp h with h | h
    · obtain ⟨c, -, h⟩ := List.mem_flatMap.mp h
      split at h
      · next j hj =>
        split_ifs at h
        · exact .inr ⟨c, j, hj, h⟩
        · cases h
      · cases h
    · exact .inl (List.mem_singleton.mp h)
  · exact .inl (List.mem_singleton.mp h)

/-- The names below a path that starts a walk. -/
def pathBelow (path : Str) (ds : List Name) : Str :=
  if ds = [] then path else bare path ++ render ds

theorem entryPath_eq (path : Str) (c : Name) : entryPath path c = bare path ++ '/' :: c := by
  rw [entryPath, bare]
  split_ifs with hlast
  · have hpath := List.dropLast_append_getLast? _ hlast
    conv_lhs => rw [← hpath]
    rw [List.append_assoc, List.singleton_append]
  · rfl

theorem pathBelow_entryPath (path : Str) (hc : IsName c) (ds : List Name) :
    pathBelow (entryPath path c) ds = pathBelow path (c :: ds) := by
  have hlast : (entryPath path c).getLast? ≠ some '/' := by
    rw [entryPath_eq, ← render_singleton, List.getLast?_append_of_ne_nil _ (by simp [render])]
    refine getLast?_render_ne fun d hd => ?_
    rw [List.mem_singleton.mp hd]
    exact ⟨hc.1, hc.2.2.2.1⟩
  rw [pathBelow, pathBelow, if_neg (List.cons_ne_nil c ds), bare, if_neg hlast, entryPath_eq,
    ← render_singleton]
  split_ifs with hds
  · rw [hds]
  · rw [List.append_assoc, ← render_append, List.singleton_append]

/-- A visit at a location at or below the start, of what is there. -/
structure Visited (fs : Tree) (start : Str) (top p : Loc) (v : Visit) : Prop where
  below : ∃ ds, p = top ++ ds ∧ v.path = pathBelow start ds
  inode : ∃ i, fs.inode p = some i ∧ v = i.visit v.path

/-- What is visited is at or below the start. -/
theorem Visited.top_le {start : Str} (h : Visited fs start top p v) : top <+: p := by
  obtain ⟨ds, rfl, -⟩ := h.below
  exact List.prefix_append top ds

/-- **What is visited is there**, and visited by its path. -/
theorem visited_of_mem_tour (hi : fs.inode p = some i) (h : (q, v) ∈ fs.tour dev n path p i) :
    Visited fs path p q v := by
  induction n generalizing path p i with
  | zero => cases h
  | succ n ih =>
    rcases mem_tour_succ h with heq | ⟨c, j, hj, h⟩
    · obtain ⟨rfl, rfl⟩ := Prod.mk.inj heq
      exact ⟨⟨[], (List.append_nil q).symm, (if_pos rfl).symm⟩, i, hi, rfl⟩
    · obtain ⟨⟨ds, hq, hpath⟩, hinode⟩ := ih hj h
      refine ⟨⟨c :: ds, ?_, ?_⟩, hinode⟩
      · rw [hq, List.append_assoc, List.singleton_append]
      · rw [hpath, pathBelow_entryPath path (isName_of_inode hj)]

/-- What is in the list is visited. -/
theorem visited_of_mem_nftwAt (h : (q, v) ∈ fs.nftwAt path) :
    ∃ top, fs.resolveNoFollow (ftwStart path) = .ok top ∧ Visited fs (ftwStart path) top q v := by
  rw [nftwAt] at h
  split at h
  · cases h
  next top htop =>
  split at h
  · cases h
  next i hi =>
  exact ⟨top, htop, visited_of_mem_tour hi h⟩

/-- The length of the locations is bounded. -/
theorem length_le_depth (hi : fs.inode p = some i) : p.length ≤ fs.depth := by
  have hmem : p.length ∈ fs.nodes.map fun x => x.1.length :=
    List.mem_map.mpr ⟨(p, i), mem_of_lookup hi, rfl⟩
  rw [depth]
  generalize fs.nodes.map (fun x => x.1.length) = l at hmem ⊢
  induction l with
  | nil => cases hmem
  | cons m l ih =>
    rw [List.foldr_cons]
    rcases List.mem_cons.mp hmem with rfl | hmem
    · exact Nat.le_max_left _ _
    · exact (ih hmem).trans (Nat.le_max_right _ _)

/-- **Every node on the device is visited.** -/
theorem mem_tour_of_inode (hi : fs.inode p = some i)
    (hdev : ∀ q j, p <+: q → fs.inode q = some j → j.dev = dev) (hn : fs.depth < n + p.length)
    (hj : fs.inode (p ++ ds) = some j) :
    ∃ path', (p ++ ds, j.visit path') ∈ fs.tour dev n path p i := by
  induction ds generalizing n path p i with
  | nil =>
    have hle := length_le_depth hi
    obtain ⟨n, rfl⟩ : ∃ m, n = m + 1 := ⟨n - 1, by omega⟩
    rw [List.append_nil] at hj ⊢
    obtain rfl := Option.some.inj (hi.symm.trans hj)
    refine ⟨path, ?_⟩
    rw [tour]
    split_ifs
    · exact List.mem_append_right _ List.mem_cons_self
    · exact List.mem_cons_self
  | cons c ds ih =>
    have hle := length_le_depth hj
    rw [List.length_append, List.length_cons] at hle
    obtain ⟨n, rfl⟩ : ∃ m, n = m + 1 := ⟨n - 1, by omega⟩
    obtain ⟨i', hi', hdir⟩ := isDir_of_below hj (List.cons_ne_nil c ds)
    obtain rfl := Option.some.inj (hi.symm.trans hi')
    rw [← List.singleton_append, ← List.append_assoc] at hj ⊢
    obtain ⟨k, hk⟩ := exists_inode_above hj (List.prefix_append (p ++ [c]) ds)
    have hlen : fs.depth < n + (p ++ [c]).length := by
      rw [List.length_append, List.length_singleton]
      omega
    obtain ⟨path', hmem⟩ : ∃ path', ((p ++ [c]) ++ ds, j.visit path')
        ∈ fs.tour dev n (entryPath path c) (p ++ [c]) k :=
      ih hk (fun q j hq => hdev q j ((List.prefix_append p [c]).trans hq)) hlen hj
    refine ⟨path', ?_⟩
    rw [tour, if_pos hdir]
    refine List.mem_append_left _ (List.mem_flatMap.mpr ⟨c, ?_, ?_⟩)
    · rw [mem_children_iff, hk]
      rfl
    · rw [hk]
      dsimp only
      rwa [if_pos (hdev _ _ (List.prefix_append p [c]) hk)]

/-! ## In what order -/

/-- **What is visited later is not below what is visited earlier.** -/
theorem pairwise_tour (hi : fs.inode p = some i) :
    (fs.tour dev n path p i).Pairwise fun x y => ¬x.1 <+: y.1 := by
  induction n generalizing path p i with
  | zero => exact List.Pairwise.nil
  | succ n ih =>
    rw [tour]
    split_ifs
    swap
    · exact List.pairwise_singleton _ _
    -- what is visited for an entry is below the entry
    have hbelow (c : Name) (x : Loc × Visit) (hx : x ∈ match fs.inode (p ++ [c]) with
        | some j => if j.dev = dev then fs.tour dev n (entryPath path c) (p ++ [c]) j else []
        | none => []) : p ++ [c] <+: x.1 := by
      split at hx
      · next j hj =>
        split_ifs at hx
        · exact (visited_of_mem_tour hj hx).top_le
        · cases hx
      · cases hx
    refine List.pairwise_append.mpr ⟨?_, List.pairwise_singleton _ _, ?_⟩
    · refine List.pairwise_flatMap.mpr ⟨fun c _ => ?_, ?_⟩
      · split
        · next j hj =>
          split_ifs
          · exact ih hj
          · exact List.Pairwise.nil
        · exact List.Pairwise.nil
      · refine (List.nodup_dedup _).imp ?_
        intro c d hcd x hx y hy hxy
        have hc := (hbelow c x hx).trans hxy
        have hd := hbelow d y hy
        have heq := (List.prefix_of_prefix_length_le hc hd (by simp)).eq_of_length (by simp)
        exact hcd (List.cons.inj (List.append_inj' heq rfl).2).1
    · intro x hx y hy hxy
      obtain ⟨c, -, hx⟩ := List.mem_flatMap.mp hx
      rw [List.mem_singleton.mp hy] at hxy
      have hle := ((hbelow c x hx).trans hxy).length_le
      rw [List.length_append, List.length_singleton] at hle
      exact absurd hle (Nat.not_succ_le_self p.length)

/-- **What is below comes first.** -/
theorem pairwise_nftwAt (fs : Tree) (path : Str) :
    (fs.nftwAt path).Pairwise fun x y => ¬x.1 <+: y.1 := by
  rw [nftwAt]
  split
  · exact List.Pairwise.nil
  split
  · exact List.Pairwise.nil
  next i hi => exact pairwise_tour hi

/-! ## Where the paths lead -/

theorem isName_of_mem (hi : fs.inode (p ++ ds) = some i) (hc : c ∈ ds) : IsName c := by
  obtain ⟨ds₁, ds₂, rfl⟩ := List.append_of_mem hc
  have habove : (p ++ ds₁) ++ [c] <+: p ++ (ds₁ ++ c :: ds₂) := ⟨ds₂, by simp⟩
  obtain ⟨j, hj⟩ := exists_inode_above hi habove
  exact isName_of_inode hj

/-- **The path of a visit leads to its location or nowhere**, however much of the tree is left. -/
theorem Visited.loc_eq {start : Str} {dir : Loc} (h : Visited fs start top p v)
    (htop : fs.resolveNoFollow start = .ok top) (hle : Le fs' fs)
    (hparent : fs'.resolveParent v.path = .ok (some (dir, c))) (hc : c ≠ dot ∧ c ≠ dotdot) :
    dir ++ [c] = p := by
  obtain ⟨ds, rfl, hpath⟩ := h.below
  obtain ⟨i, hi, -⟩ := h.inode
  have hparent := hle.resolveParent hparent
  rcases List.eq_nil_or_concat ds with rfl | ⟨ds, d, rfl⟩
  · -- the start itself
    rw [pathBelow, if_pos rfl] at hpath
    obtain ⟨r, hr, hlast⟩ := Except.bind_eq_ok htop
    rw [← hpath, hparent] at hr
    obtain rfl := Except.ok.inj hr
    have hlook : fs.lookupLast dir c = .ok top := hlast
    rw [lookupLast_eq hc.1 hc.2] at hlook
    split_ifs at hlook
    rw [List.append_nil]
    exact Except.ok.inj hlook
  · rw [List.concat_eq_append] at hi hpath ⊢
    have hname : ∀ e ∈ ds ++ [d], e ≠ [] ∧ '/' ∉ e ∧ e ≠ dot ∧ e ≠ dotdot := fun e he => by
      obtain ⟨hne, hdot, hup, hslash, -⟩ := isName_of_mem hi he
      exact ⟨hne, hslash, hdot, hup⟩
    have hdir {e : List Name} (he : e <+: ds) : fs.IsDir (top ++ e) := by
      obtain ⟨f, rfl⟩ := he
      rw [List.append_assoc, ← List.append_assoc top] at hi
      exact isDir_of_below hi (by simp)
    have htopDir : fs.IsDir top := by
      have := hdir List.nil_prefix
      rwa [List.append_nil] at this
    obtain ⟨-, hlen, hwalk⟩ := walk_of_resolveNoFollow htop (isDir_iff.mpr htopDir)
    have hrooted : Rooted fs start top ds :=
      { walk := hwalk
        dir := htopDir
        length := hlen
        names := fun e he => hname e (List.mem_append_left [d] he)
        linkFree := fun e _ he k hk => by
          obtain ⟨k', hk', hkd⟩ := hdir he
          obtain rfl := Option.some.inj (hk.symm.trans hk')
          exact Inode.isLink_eq_false hkd }
    rw [pathBelow, if_neg (by simp)] at hpath
    rw [hpath] at hparent
    obtain ⟨rfl, rfl⟩ := hrooted.resolveParent_snoc (hname d (by simp)) hparent
    exact List.append_assoc top ds [c]

end Tree

end Fs
