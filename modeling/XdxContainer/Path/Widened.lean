import XdxContainer.Path.Resolve
import XdxContainer.Fs.Create

/-!
# Path/Widened — resolving again, behind `file_create`

    R/a          ──file_create──▸          R/a/b/c       directories, and a regular file
    └ l ──▸ a                              └ l ──▸ a     the links there were

A tree that was widened has more nodes and other sizes, but no link more.  So a path leads through
the same links as before, and a name that was missing is the same name when it is there.

* `pathResolveFull_widened` — a path that resolves before and after resolves to the same.
* `widened_fileCreate` — `file_create` of a file with data widens the tree, and the file is there.
-/

open Paths Walk

namespace Fs

theorem Inode.isLink_of_sight {i j : Inode} (h : j.sight = i.sight) : j.isLink = i.isLink := by
  have htarget := congrArg Prod.snd h
  simp only [Inode.sight] at htarget
  by_cases hi : i.isLink = true
  · by_cases hj : j.isLink = true
    · rw [hi, hj]
    · simp [hi, hj] at htarget
  · by_cases hj : j.isLink = true
    · simp [hi, hj] at htarget
    · rw [eq_false_of_ne_true hi, eq_false_of_ne_true hj]

namespace Tree

variable {fs fs' fs'' : Tree} {T : Loc}

/-- **The tree got nodes and other sizes, but no links.** -/
structure Widened (fs fs' : Tree) : Prop where
  seen : Seen fs fs'
  links : ∀ p i, fs'.inode p = some i → i.isLink = true → (fs.inode p).isSome

namespace Widened

theorem refl (fs : Tree) : Widened fs fs := ⟨(Le.refl fs).seen, fun _ _ hi _ => by rw [hi]; rfl⟩

theorem trans (h : Widened fs fs') (h' : Widened fs' fs'') : Widened fs fs'' := by
  refine ⟨fun p i hi => ?_, fun p i hi hlink => ?_⟩
  · obtain ⟨j, hj, hsight⟩ := h.seen p i hi
    obtain ⟨k, hk, hsight'⟩ := h'.seen p j hj
    exact ⟨k, hk, hsight'.trans hsight⟩
  · obtain ⟨j, hj⟩ := Option.isSome_iff_exists.mp (h'.links p i hi hlink)
    obtain ⟨k, hk, hsight⟩ := h'.seen p j hj
    obtain rfl := Option.some.inj (hk.symm.trans hi)
    exact h.links p j hj ((Inode.isLink_of_sight hsight).symm.trans hlink)

/-- A link that is there was there, with the same target. -/
theorem isLink (h : Widened fs fs') {p : Loc} {j : Inode} (hj : fs'.inode p = some j)
    (hlink : j.isLink = true) : ∃ i, fs.inode p = some i ∧ i.isLink = true := by
  obtain ⟨i, hi⟩ := Option.isSome_iff_exists.mp (h.links p j hj hlink)
  obtain ⟨k, hk, hsight⟩ := h.seen p i hi
  obtain rfl := Option.some.inj (hk.symm.trans hj)
  exact ⟨i, hi, (Inode.isLink_of_sight hsight).symm.trans hlink⟩

end Widened

theorem Grown.widened (h : fs.Grown fs' T) : Widened fs fs' :=
  ⟨h.le.seen, fun p i hi hlink => (h.new p i hi).elim (fun hold => by rw [hold]; rfl)
    fun hnew => absurd hlink (by rw [hnew.2]; exact Bool.false_ne_true)⟩

theorem widened_resize (fs : Tree) (q : Loc) (n : ℕ) : Widened fs (fs.resize q n) := by
  have hinode (p : Loc) : (fs.resize q n).inode p = (fs.inode p).map (·.resizeIf (p = q) n) :=
    lookup_resize fs q n p
  refine ⟨fun p i hi => ⟨i.resizeIf (p = q) n, by rw [hinode, hi]; rfl, rfl⟩, fun p i hi _ => ?_⟩
  rw [hinode] at hi
  obtain ⟨j, hj, -⟩ := Option.map_eq_some_iff.mp hi
  rw [hj]
  rfl

end Tree

/-- A path below a root stays one. -/
theorem Rooted.widened {fs fs' : Tree} {root : Str} {R : Loc} {cs : List Name}
    (h : Rooted fs root R cs) (hwide : fs.Widened fs') : Rooted fs' root R cs := by
  obtain ⟨m, hwalk⟩ := h.walk
  have hdir := hwide.seen.isDir (Tree.isDir_iff.mpr h.dir)
  refine ⟨⟨m, hwide.seen.walk hwalk⟩, Tree.isDir_iff.mp hdir, h.length, h.names, ?_⟩
  refine fun p hp hpre i hi => eq_false_of_ne_true fun hlink => ?_
  obtain ⟨j, hj, hlink'⟩ := hwide.isLink hi hlink
  rw [h.linkFree p hp hpre j hj] at hlink'
  cases hlink'

end Fs

/-! ## Resolving again -/

namespace Resolve

open Fs

variable {fs fs' : Tree} {root path t t' buf buf' : Str} {R : Loc} {s u s' u' : Stack} {c : Name}
  {n m m' : ℕ} {l x : List Name}

/-- The root a path is resolved below leads where it was opened. -/
theorem walk_of_openRoot (h : openRoot fs root = .ok R) :
    fs.IsDir R ∧ root.length < PATH_MAX
      ∧ ∃ m, walk (fs.walkStep kernelComponents []) .ELOOP linkLimit (components root) []
        = .ok (m, R) := by
  rw [openRoot] at h
  split at h
  · cases h
  next p hp =>
  split_ifs at h with hdir
  obtain rfl := Except.ok.inj h
  obtain ⟨-, hlen, hwalk⟩ := Tree.walk_of_resolveNoFollow hp hdir
  exact ⟨Tree.isDir_iff.mp hdir, hlen, hwalk⟩

theorem openRoot_widened {R' : Loc} (h : fs.Widened fs') (hroot : openRoot fs root = .ok R)
    (hroot' : openRoot fs' root = .ok R') : R' = R := by
  obtain ⟨-, -, m, hwalk⟩ := walk_of_openRoot hroot
  obtain ⟨-, -, m', hwalk'⟩ := walk_of_openRoot hroot'
  exact (Prod.mk.inj (Except.ok.inj (hwalk'.symm.trans (h.seen.walk hwalk)))).2

/-- The component of a step that meets a link. -/
theorem ne_nil_of_splice (h : boundedStep fs R s c = .splice s' x) : c ≠ [] := by
  rintro rfl
  rw [boundedStep] at h
  split_ifs at h
  rw [refStep, if_pos (.inl rfl)] at h
  cases h

/-- What a step looks up below something that is missing is missing. -/
theorem Stack.Resolved.inode_eq_none (hs : s.Resolved fs R) (hm : 0 < s.missing) :
    fs.inode (R ++ (s.comps ++ [c])) = none := by
  have hparent := hs.absent s.comps List.prefix_rfl (by omega)
  by_contra hsome
  obtain ⟨i, hi⟩ := Option.ne_none_iff_exists'.mp hsome
  rw [← List.append_assoc] at hi
  obtain ⟨j, hj, -⟩ := Tree.isDir_of_inode hi
  rw [hparent] at hj
  cases hj

/-- The stack of the same names, of which more may be there. -/
structure Stack.Matches (s u : Stack) : Prop where
  comps : u.comps = s.comps
  missing : u.missing ≤ s.missing

/-- **A step in the wider tree that goes on does what it does in the other.** -/
theorem boundedStep_widened_next (h : fs.Widened fs') (hs : s.Resolved fs R) (hsu : s.Matches u)
    (hstep : boundedStep fs R s c = .next s') (hstep' : boundedStep fs' R u c = .next u') :
    s'.Matches u' := by
  obtain ⟨hcomps, hle⟩ := hsu
  obtain ⟨hskip, rfl⟩ | ⟨hup, rfl, -, -⟩ | ⟨⟨hne, hdot, hup⟩, -, hcase⟩ := boundedStep_next hstep
  · obtain ⟨-, rfl⟩ | ⟨rfl, -⟩ | ⟨⟨hne, hdot, -⟩, -⟩ := boundedStep_next hstep'
    · exact ⟨hcomps, hle⟩
    · exact absurd hskip (by decide)
    · exact absurd hskip (not_or.mpr ⟨hne, hdot⟩)
  · obtain ⟨hskip, -⟩ | ⟨-, rfl, -⟩ | ⟨⟨-, -, hup'⟩, -⟩ := boundedStep_next hstep'
    · exact absurd hskip (by rw [hup]; decide)
    · exact ⟨congrArg List.dropLast hcomps, Nat.sub_le_sub_right hle 1⟩
    · exact absurd hup hup'
  · obtain ⟨hskip, -⟩ | ⟨hup', -⟩ | ⟨-, -, hcase'⟩ := boundedStep_next hstep'
    · exact absurd hskip (not_or.mpr ⟨hne, hdot⟩)
    · exact absurd hup' hup
    · rcases hcase with ⟨rfl, -⟩ | ⟨hm, rfl, i, hi, -⟩
      · rcases hcase' with ⟨rfl, -⟩ | ⟨-, rfl, -⟩
        · exact ⟨congrArg (· ++ [c]) hcomps, Nat.succ_le_succ hle⟩
        · exact ⟨congrArg (· ++ [c]) hcomps, hle.trans (Nat.le_succ _)⟩
      · rcases hcase' with ⟨-, hnone⟩ | ⟨-, rfl, -⟩
        · -- the name is there in the wider tree, too
          obtain ⟨j, hj, -⟩ := h.seen _ i hi
          rw [← hcomps, hnone (by omega)] at hj
          cases hj
        · exact ⟨congrArg (· ++ [c]) hcomps, hle⟩

/-- A step that goes on meets no link in the wider tree. -/
theorem boundedStep_widened_ne_splice (h : fs.Widened fs') (hs : s.Resolved fs R)
    (hsu : s.Matches u) (hstep : boundedStep fs R s c = .next s') :
    boundedStep fs' R u c ≠ .splice u' x := by
  intro hstep'
  have hnil := ne_nil_of_splice hstep'
  obtain ⟨-, ⟨hdot, hup, -⟩, -, j, hj, hlink, -⟩ := boundedStep_splice hstep'
  rw [hsu.comps] at hj
  obtain ⟨i, hi, hlink'⟩ := h.isLink hj hlink
  obtain ⟨hskip, -⟩ | ⟨hup', -⟩ | ⟨-, -, ⟨-, hnone⟩ | ⟨-, -, k, hk, hfree⟩⟩ :=
    boundedStep_next hstep
  · exact absurd hskip (not_or.mpr ⟨hnil, hdot⟩)
  · exact absurd hup' hup
  · obtain hm | hm := Nat.eq_zero_or_pos s.missing
    · rw [hnone hm] at hi
      cases hi
    · rw [hs.inode_eq_none hm] at hi
      cases hi
  · obtain rfl := Option.some.inj (hk.symm.trans hi)
    rw [hfree] at hlink'
    cases hlink'

/-- **A step that meets a link meets it in the wider tree**, unless it fails there. -/
theorem boundedStep_widened_splice (h : fs.Widened fs') (hsu : s.Matches u)
    (hstep : boundedStep fs R s c = .splice s' x) :
    (∃ u', boundedStep fs' R u c = .splice u' x ∧ s'.Matches u')
      ∨ ∃ e, boundedStep fs' R u c = .fail e := by
  have hnil := ne_nil_of_splice hstep
  obtain ⟨hm, ⟨hdot, hup, -⟩, -, i, hi, hlink, rfl, rfl⟩ := boundedStep_splice hstep
  obtain ⟨j, hj, hsight⟩ := h.seen _ i hi
  have hlink' := (Inode.isLink_of_sight hsight).trans hlink
  have htarget : j.target = i.target := by
    have hsnd := congrArg Prod.snd hsight
    simpa [Inode.sight, hlink, hlink'] using hsnd
  have hm' : ¬0 < u.missing := by
    have hle := hsu.missing
    omega
  rw [boundedStep]
  split_ifs
  · exact .inr ⟨(), rfl⟩
  · exact .inr ⟨(), rfl⟩
  · refine .inl ⟨u.atLink i.target, ?_, ?_⟩
    · rw [refStep, if_neg (not_or.mpr ⟨hnil, hdot⟩), if_neg hup, if_neg hm', hsu.comps, hj]
      simp only [hlink', if_true, htarget]
    · rw [Stack.atLink, Stack.atLink]
      split_ifs
      · exact ⟨rfl, hsu.missing⟩
      · exact hsu

/-- **Two walks that end, one in the wider tree, end at the same names.** -/
theorem comps_widened (h : fs.Widened fs') (hwalk : walk (boundedStep fs R) () n l s = .ok (m, s'))
    (hs : s.Resolved fs R) (hsu : s.Matches u)
    (hwalk' : walk (boundedStep fs' R) () n l u = .ok (m', u')) : u'.comps = s'.comps := by
  refine walk_induction (P := fun n l s _ s' => s.Resolved fs R → ∀ u, s.Matches u →
    walk (boundedStep fs' R) () n l u = .ok (m', u') → u'.comps = s'.comps) ?_ ?_ ?_
      hwalk hs u hsu hwalk'
  · intro n s _ u hsu hwalk'
    rw [walk_nil] at hwalk'
    rw [← (Prod.mk.inj (Except.ok.inj hwalk')).2, hsu.comps]
  · intro n l s c s₁ m s' hstep _ ih hs u hsu hwalk'
    rcases hstep' : boundedStep fs' R u c with u₁ | ⟨u₁, x⟩ | e
    · rw [walk_next hstep'] at hwalk'
      exact ih (hs.next hstep) u₁ (boundedStep_widened_next h hs hsu hstep hstep') hwalk'
    · exact absurd hstep' (boundedStep_widened_ne_splice h hs hsu hstep)
    · rw [walk_fail hstep'] at hwalk'
      cases hwalk'
  · intro n l s c s₁ x m s' hstep _ ih hs u hsu hwalk'
    obtain ⟨u₁, hstep', hsu'⟩ | ⟨e, hstep'⟩ := boundedStep_widened_splice h hsu hstep
    · rw [walk_splice hstep'] at hwalk'
      exact ih (hs.splice hstep) u₁ hsu' hwalk'
    · rw [walk_fail hstep'] at hwalk'
      cases hwalk'

/-- **A path that resolves before and after resolves to the same.** -/
theorem pathResolveFull_widened (h : fs.Widened fs')
    (ht : pathResolveFull fs buf root path = (.ok (), t))
    (ht' : pathResolveFull fs' buf' root path = (.ok (), t')) : t' = t := by
  obtain ⟨R, m, s, hroot, hwalk, -, htext⟩ := doPathResolve_walk ht
  obtain ⟨R', m', s', hroot', hwalk', -, htext'⟩ := doPathResolve_walk ht'
  obtain rfl := openRoot_widened h hroot hroot'
  have hempty : Stack.Resolved fs R' {} := by
    refine ⟨fun p hp hpre => absurd (List.prefix_nil.mp hpre) hp, fun p hpre hlt => ?_, by simp⟩
    simp [List.prefix_nil.mp hpre] at hlt
  rw [comps_widened h hwalk hempty ⟨rfl, Nat.le_refl _⟩ hwalk'] at htext'
  exact (Prod.mk.inj (htext'.symm.trans htext)).2

end Resolve

/-! ## `file_create` with data -/

namespace Fs.World

variable {w w' : World} {k : Creation} {perm : BitVec 12} {root data : Str} {R : Loc}
  {cs ds : List Name} {c : Name}

/-- `open` below a root, with data. -/
theorem widened_openCreate (hrooted : Rooted w.fs root R (ds ++ [c]))
    (h : w.openCreate (bare root ++ render (ds ++ [c])) (some data) perm = .ok w') :
    w.fs.Widened w'.fs ∧ ∃ i, w'.fs.inode (R ++ (ds ++ [c])) = some i ∧ i.isDir = false := by
  obtain ⟨r, hr, hrest⟩ := Except.bind_eq_ok h
  rcases r with _ | ⟨dir, c'⟩
  · cases hrest
  obtain ⟨rfl, rfl⟩ := hrooted.resolveParent hr
  obtain ⟨-, -, hdir, -⟩ := Tree.resolveParent_eq_ok hr
  obtain ⟨hne, hslash, hdot, hup⟩ := hrooted.names c' (by simp)
  dsimp only at hrest
  split_ifs at hrest with hskip hlong
  have hname : IsName c' := ⟨hne, hdot, hup, hslash, Nat.not_lt.mp hlong⟩
  rw [List.append_assoc] at hrest
  split at hrest
  · next hnone =>
    rw [← Except.ok.inj hrest]
    have hnode := inode_addNode (i := { mode := ⟨.reg, perm⟩, size := data.length })
      (Tree.isDir_iff.mp hdir) hname rfl (R ++ (ds ++ [c']))
    rw [hnone, Option.none_or, if_pos (List.append_assoc ..).symm] at hnode
    exact ⟨(grown_addNode List.prefix_rfl rfl).fs.widened, _, hnode, rfl⟩
  · next i hi =>
    split_ifs at hrest with hlink hisDir
    rw [← Except.ok.inj hrest]
    refine ⟨Tree.widened_resize _ _ _, i.resizeIf true data.length, ?_, eq_false_of_ne_true hisDir⟩
    exact (Tree.lookup_resize w.fs _ _ _).trans (by rw [hi]; simp)

/-- **`file_create` of a file with data**: the tree is wider, and the file is there. -/
theorem widened_fileCreate (hrooted : Rooted w.fs root R cs) (hne : cs ≠ [])
    (h : w.fileCreate k (bare root ++ render cs) (some data) ⟨.reg, perm⟩ = (true, w')) :
    w.fs.Widened w'.fs ∧ ∃ i, w'.fs.inode (R ++ cs) = some i ∧ i.isDir = false := by
  obtain ⟨ds, c, rfl⟩ := (List.eq_nil_or_concat' cs).resolve_left hne
  rw [fileCreate, if_neg (by simp)] at h
  split_ifs at h
  · cases (Prod.mk.inj h).1
  have hdirs := grown_dirname k ((0x1ff &&& ~~~k.umask ||| 0xc0) &&& ~~~k.umask) hrooted
    List.prefix_rfl
  dsimp only at h
  split at h
  · cases (Prod.mk.inj h).1
  next w₁ heq =>
  rw [heq] at hdirs
  rw [createNode] at h
  split_ifs at h
  · cases (Prod.mk.inj h).1
  dsimp only at h
  split at h
  · next w₂ hopen =>
    obtain rfl := (Prod.mk.inj h).2
    obtain ⟨hwide, hfile⟩ := widened_openCreate (hrooted.grown hdirs.fs) hopen
    exact ⟨hdirs.fs.widened.trans hwide, hfile⟩
  · cases (Prod.mk.inj h).1

end Fs.World
