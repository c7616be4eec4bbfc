import XdxContainer.Fs.Tour

/-!
# Fs/Cleanup — what `file_remove` takes away, whichever of its calls fail

    path/a/x   F   ─▸ unlink        before ──▸ after      what is missing after a call was
    path/a/l   SL  ─▸ stat, unlink                        expendable before it
    path/a     DP  ─▸ rmdir

The walk removes nodes of the tree it goes over, so whether a directory is empty or a link dangles
is a matter of the moment.  A call removes the node it is for and no other (`gone_of_fate`), and
what the calls after it are for is still there, in whichever way it went (`Left.step`).

* `fileRemove_keepsData` — nothing but what is expendable at its moment is removed; and where no
  call fails, no empty file and no empty directory is left.
* `fileRemoveUnder_none` — where no call fails but for what the tree says, it is `file_remove`.
-/

open Paths Walk

namespace Fs

/-! ## The walk, with calls that fail -/

/-- What a call fails with: what the tree says, or anything else. -/
inductive CallError
  | tree (e : Errno)
  | other (code : ℕ)
  deriving DecidableEq, Repr

/-- Which system calls fail in the `n`-th call of `do_file_remove`, whatever the tree says.  A
`stat` does not report `ENOENT` then. -/
structure Faults where
  /-- `nftw` reports `FTW_NS` or `FTW_DNR`. -/
  report : ℕ → Bool
  unlink : ℕ → Option CallError
  rmdir : ℕ → Option CallError
  stat : ℕ → Option CallError
  stat_ne : ∀ n, stat n ≠ some (.tree .ENOENT)

/-- No call fails but for what the tree says. -/
def Faults.none : Faults where
  report _ := false
  unlink _ := Option.none
  rmdir _ := Option.none
  stat _ := Option.none
  stat_ne _ := nofun

/-- A system call that may fail. -/
def failing {α : Type} (fault : Option CallError) (x : Except Errno α) : Except CallError α :=
  match fault with
  | some e => .error e
  | none => x.mapError .tree

/-- What a call has failed with. -/
def failure {α : Type} : Except CallError α → Option CallError
  | .error e => some e
  | .ok _ => none

theorem failing_eq_ok {α : Type} {fault : Option CallError} {x : Except Errno α} {a : α}
    (h : failing fault x = .ok a) : x = .ok a := by
  rcases fault with _ | e
  · rcases x with e | b
    · cases h
    · rw [Except.ok.inj h]
  · cases h

namespace World

section Code

variable (k : Faults)

/-- `unlink` in the `n`-th call: whether it returns 0, and the world then. -/
def unlinking (n : ℕ) (path : Str) (w : World) : Bool × World :=
  match failing (k.unlink n) (w.unlink path) with
  | .ok w' => (true, w')
  | .error _ => (false, w)

/-- The `n`-th call of `do_file_remove`: whether the walk goes on, and the world then. -/
def doFileRemoveUnder (n : ℕ) (v : Visit) (w : World) : Bool × World :=
  if k.report n then (false, w)
  else
    match v.flag with
    | .DP =>
      match failing (k.rmdir n) (w.rmdir v.path) with
      | .ok w' => (true, w')
      | .error e => (e = .tree .ENOTEMPTY, w)
    | .F => if v.size = 0 then unlinking k n v.path w else (true, w)
    | .SL =>
      match failing (k.stat n) (w.stat v.path) with
      | .error e => if e = .tree .ENOENT then unlinking k n v.path w else (false, w)
      | .ok i => if i.size = 0 then unlinking k n v.path w else (true, w)

/-- A call of `do_file_remove` in a walk. -/
structure Turn where
  n : ℕ
  loc : Loc
  visit : Visit
  before : World
  after : World

/-- The calls of a walk, up to the first that fails. -/
def turns : ℕ → List (Loc × Visit) → World → List Turn
  | _, [], _ => []
  | n, (p, v) :: vs, w =>
    match doFileRemoveUnder k n v w with
    | (true, w') => ⟨n, p, v, w, w'⟩ :: turns (n + 1) vs w'
    | (false, w') => [⟨n, p, v, w, w'⟩]

/-- The walk: whether no call fails, and the world then. -/
def removeAllUnder : ℕ → List (Loc × Visit) → World → Bool × World
  | _, [], w => (true, w)
  | n, (_, v) :: vs, w =>
    match doFileRemoveUnder k n v w with
    | (true, w') => removeAllUnder (n + 1) vs w'
    | (false, w') => (false, w')

/-- `file_remove`: whether it returns 0, and the world then. -/
def fileRemoveUnder (path : Str) (w : World) : Bool × World :=
  match w.fs.resolveNoFollow (Tree.ftwStart path) with
  | .error _ => (false, w)
  | .ok _ => removeAllUnder k 0 (w.fs.nftwAt path) w

/-- The calls of `file_remove`. -/
def fileRemoveTurns (path : Str) (w : World) : List Turn := turns k 0 (w.fs.nftwAt path) w

end Code

variable {k : Faults} {w w' : World} {fs : Tree} {n : ℕ} {path start : Str} {p q top dir : Loc}
  {c : Name} {i j : Inode} {v : Visit} {vs : List (Loc × Visit)} {t : Turn}

theorem turns_cons (x : Loc × Visit) : turns k n (x :: vs) w
    = ⟨n, x.1, x.2, w, (doFileRemoveUnder k n x.2 w).2⟩
      :: if (doFileRemoveUnder k n x.2 w).1 then turns k (n + 1) vs (doFileRemoveUnder k n x.2 w).2
        else [] := by
  rw [turns]
  rcases doFileRemoveUnder k n x.2 w with ⟨_ | _, w'⟩
  · rfl
  · rfl

theorem removeAllUnder_cons (x : Loc × Visit) : removeAllUnder k n (x :: vs) w
    = if (doFileRemoveUnder k n x.2 w).1 then
        removeAllUnder k (n + 1) vs (doFileRemoveUnder k n x.2 w).2
      else (false, (doFileRemoveUnder k n x.2 w).2) := by
  rw [removeAllUnder]
  rcases doFileRemoveUnder k n x.2 w with ⟨_ | _, w'⟩
  · rfl
  · rfl

/-! ### Where nothing fails -/

/-- Where nothing fails it is the plain one. -/
theorem doFileRemoveUnder_none (n : ℕ) (v : Visit) (w : World) :
    doFileRemoveUnder .none n v w = w.doFileRemove v := by
  have hunlink : unlinking .none n v.path w = (w.unlinkFate v.path).apply w := by
    rw [← unlink_apply, unlinking]
    change (match (w.unlink v.path).mapError CallError.tree with | .ok w' => _ | .error _ => _) = _
    rcases w.unlink v.path with e | w'
    · rfl
    · rfl
  rw [doFileRemove_eq, fate, doFileRemoveUnder]
  rw [if_neg (show ¬Faults.none.report n = true from Bool.false_ne_true)]
  rcases v.flag
  · dsimp only
    split_ifs
    · exact hunlink
    · rfl
  · dsimp only
    change (match (w.rmdir v.path).mapError CallError.tree with
      | .ok w' => (true, w') | .error e => (decide (e = CallError.tree .ENOTEMPTY), w)) = _
    rw [rmdir]
    rcases w.rmdirAt v.path with e | p
    · by_cases he : e = .ENOTEMPTY
      · simp [he, Except.map, Except.mapError, Fate.apply]
      · simp [he, Except.map, Except.mapError, Fate.apply]
    · rfl
  · dsimp only
    change (match (w.stat v.path).mapError CallError.tree with
      | .error e => if e = CallError.tree .ENOENT then unlinking .none n v.path w else (false, w)
      | .ok i => if i.size = 0 then unlinking .none n v.path w else (true, w)) = _
    rw [hunlink]
    rcases w.stat v.path with e | i
    · by_cases he : e = .ENOENT
      · simp [he, Except.mapError]
      · simp [he, Except.mapError, Fate.apply]
    · by_cases hi : i.size = 0
      · simp [hi, Except.mapError]
      · simp [hi, Except.mapError, Fate.apply]

theorem removeAllUnder_none (n : ℕ) (vs : List (Loc × Visit)) (w : World) :
    (removeAllUnder .none n vs w).2 = w.removeAll (vs.map (·.2)) := by
  induction vs generalizing n w with
  | nil => rfl
  | cons x vs ih =>
    rw [removeAllUnder_cons, List.map_cons, removeAll, doFileRemoveUnder_none]
    rcases w.doFileRemove x.2 with ⟨_ | _, w'⟩
    · rfl
    · exact ih (n + 1) w'

theorem fileRemoveUnder_snd (k : Faults) (path : Str) (w : World) :
    (fileRemoveUnder k path w).2 = (removeAllUnder k 0 (w.fs.nftwAt path) w).2 := by
  rw [fileRemoveUnder, Tree.nftwAt]
  rcases w.fs.resolveNoFollow (Tree.ftwStart path) with e | p
  · rfl
  · rfl

/-- **Where no call fails but for what the tree says, it is `file_remove`.** -/
theorem fileRemoveUnder_none (path : Str) (w : World) :
    (fileRemoveUnder .none path w).2 = w.fileRemove path := by
  rw [fileRemoveUnder_snd, removeAllUnder_none, Tree.map_nftwAt, fileRemove]

end World

/-! ## What may go -/

/-- Where a link leads: its name, resolved in the directory it is in. -/
def Tree.follow (fs : Tree) (p : Loc) : Except Errno Loc :=
  (walk (fs.walkStep kernelComponents []) .ELOOP linkLimit p.getLast?.toList p.dropLast).map (·.2)

/-- A node that may go: no regular file of some size, no link to something of some size, and no
directory with an entry. -/
structure Expendable (fs : Tree) (p : Loc) (i : Inode) : Prop where
  reg : i.mode.fmt = .reg → i.size = 0
  lnk : i.mode.fmt = .lnk → ∀ q j, fs.follow p = .ok q → fs.inode q = some j → j.size = 0
  dir : i.mode.fmt = .dir → fs.children p = []

namespace World

variable {k : Faults} {w w' : World} {fs : Tree} {n : ℕ} {path start : Str} {p q top dir : Loc}
  {c : Name} {i j : Inode} {v : Visit} {vs : List (Loc × Visit)} {t : Turn}

/-- **A link that `stat` finds nothing or something empty behind leads to nothing else.** -/
theorem size_of_follow (hparent : w.fs.resolveParent path = .ok (some (dir, c)))
    (hstat : w.stat path = .error .ENOENT ∨ ∃ i, w.stat path = .ok i ∧ i.size = 0)
    (hfollow : w.fs.follow (dir ++ [c]) = .ok q) (hj : w.fs.inode q = some j) : j.size = 0 := by
  obtain ⟨hnil, hlen, -, l, m, hl, hwalk⟩ := Tree.resolveParent_eq_ok hparent
  have hresolve : w.fs.resolve path
      = (walk (w.fs.walkStep kernelComponents []) .ELOOP m [c] dir).map (·.2) := by
    rw [Tree.resolve, if_neg hnil, if_neg (by omega), hl, walk_append hwalk]
  -- the directory has been reached with some of the links to follow used up
  obtain ⟨b, hb⟩ := Nat.exists_eq_add_of_le (walk_le hwalk)
  rw [Tree.follow, List.getLast?_concat, List.dropLast_concat, hb] at hfollow
  obtain ⟨⟨m', q'⟩, hlink, rfl⟩ := Except.map_eq_ok hfollow
  rcases hlast : walk (w.fs.walkStep kernelComponents []) .ELOOP m [c] dir with e | ⟨m'', q''⟩
  · rw [hlast] at hresolve
    have hfail : w.stat path = .error e := by
      rw [stat, hresolve]
      rfl
    rw [hfail] at hstat
    rcases hstat with he | ⟨i, hi, -⟩
    · obtain rfl := Except.error.inj he
      have hmore := walk_error_add hlast (by decide) b
      rw [Option.toList_some, hmore] at hlink
      cases hlink
    · cases hi
  · obtain ⟨-, rfl⟩ := Prod.mk.inj (Except.ok.inj ((walk_add hlast b).symm.trans hlink))
    rw [hlast] at hresolve
    have hok : w.stat path = .ok j := stat_of_resolve hresolve hj
    rw [hok] at hstat
    rcases hstat with he | ⟨i, hi, hsize⟩
    · cases he
    · rwa [Except.ok.inj hi]

/-! ## One call -/

/-- A name is dropped, or nothing happens. -/
theorem unlinking_cases (k : Faults) (n : ℕ) (path : Str) (w : World) :
    unlinking k n path w = (false, w)
      ∨ ∃ p, w.unlinkAt path = .ok p ∧ unlinking k n path w = (true, w.drop p) := by
  rw [unlinking]
  rcases h : failing (k.unlink n) (w.unlink path) with e | w'
  · exact .inl rfl
  · obtain ⟨p, hp, rfl⟩ := Except.map_eq_ok (failing_eq_ok h)
    exact .inr ⟨p, hp, rfl⟩

/-- **What a call does**: it stops the walk, keeps its entry, or takes away what the entry's turn is
for. -/
theorem doFileRemoveUnder_cases (k : Faults) (n : ℕ) (v : Visit) (w : World) :
    doFileRemoveUnder k n v w = (false, w)
      ∨ (doFileRemoveUnder k n v w = (true, w) ∧ (v.flag = .F → v.size ≠ 0)
        ∧ (v.flag = .DP →
          failure (failing (k.rmdir n) (w.rmdir v.path)) = some (.tree .ENOTEMPTY)))
      ∨ ∃ p, w.fate v = .gone p ∧ doFileRemoveUnder k n v w = (true, w.drop p) := by
  have hunlink (hfate : w.fate v = w.unlinkFate v.path) : unlinking k n v.path w = (false, w)
      ∨ ∃ p, w.fate v = .gone p ∧ unlinking k n v.path w = (true, w.drop p) := by
    rcases unlinking_cases k n v.path w with h | ⟨p, hp, h⟩
    · exact .inl h
    · exact .inr ⟨p, by rw [hfate, unlinkFate, hp], h⟩
  rw [doFileRemoveUnder]
  by_cases hreport : k.report n = true
  · exact .inl (if_pos hreport)
  rw [if_neg hreport]
  split
  · next hflag =>
    rcases h : failing (k.rmdir n) (w.rmdir v.path) with e | w'
    · by_cases he : e = .tree .ENOTEMPTY
      · refine .inr (.inl ⟨by simp [he], by simp [hflag], fun _ => ?_⟩)
        rw [he]
        rfl
      · exact .inl (by simp [he])
    · obtain ⟨p, hp, rfl⟩ := Except.map_eq_ok (failing_eq_ok h)
      exact .inr (.inr ⟨p, by simp only [fate, hflag, hp], rfl⟩)
  · next hflag =>
    split_ifs with hsize
    · exact (hunlink (by simp only [fate, hflag, hsize, if_true])).imp id .inr
    · exact .inr (.inl ⟨rfl, fun _ => hsize, by simp [hflag]⟩)
  · next hflag =>
    split
    · next e he =>
      split_ifs with hnoent
      · -- only the tree says that there is nothing
        have hstat : w.stat v.path = .error .ENOENT := by
          rw [hnoent] at he
          rcases hfault : k.stat n with _ | e'
          · rw [hfault] at he
            rcases hs : w.stat v.path with e'' | i
            · rw [hs] at he
              rw [CallError.tree.inj (Except.error.inj he)]
            · rw [hs] at he
              cases he
          · rw [hfault] at he
            exact absurd (hfault.trans (congrArg some (Except.error.inj he))) (k.stat_ne n)
        exact (hunlink (by simp only [fate, hflag, hstat, if_true])).imp id .inr
      · exact .inl rfl
    · next i hi =>
      split_ifs with hsize
      · refine (hunlink ?_).imp id .inr
        simp only [fate, hflag, failing_eq_ok hi, hsize, if_true]
      · exact .inr (.inl ⟨rfl, by simp [hflag], by simp [hflag]⟩)

theorem doFileRemoveUnder_le (k : Faults) (n : ℕ) (v : Visit) (w : World) :
    Tree.Le (doFileRemoveUnder k n v w).2.fs w.fs := by
  obtain h | ⟨h, -⟩ | ⟨p, -, h⟩ := doFileRemoveUnder_cases k n v w
  · rw [h]
    exact Tree.Le.refl w.fs
  · rw [h]
    exact Tree.Le.refl w.fs
  · rw [h]
    exact Tree.prune_le p

/-- Below what is no directory is nothing. -/
theorem inode_below_eq_none (hj : fs.inode q = some j) (hdir : j.isDir = false) (c : Name) :
    fs.inode (q ++ [c]) = none := by
  by_contra hsome
  obtain ⟨i, hi⟩ := Option.ne_none_iff_exists'.mp hsome
  obtain ⟨j', hj', hdir'⟩ := Tree.isDir_of_inode hi
  rw [Option.some.inj (hj.symm.trans hj'), hdir'] at hdir
  cases hdir

/-- **What a call takes away is the node it is for**, which is expendable and has nothing below. -/
theorem gone_of_fate (hv : fs.Visited start top q v) (htop : fs.resolveNoFollow start = .ok top)
    (hle : Tree.Le w.fs fs) (h : w.fate v = .gone p) :
    p = q ∧ q ≠ [] ∧ (∀ c, w.fs.inode (q ++ [c]) = none)
      ∧ ∃ i, w.fs.inode q = some i ∧ Expendable w.fs q i := by
  obtain ⟨i, hi, hvi⟩ := hv.inode
  have hflag : v.flag = i.ftwFlag := congrArg Visit.flag hvi
  have hsize : v.size = i.size := congrArg Visit.size hvi
  have hfmt {f g : Fmt} (hf : i.mode.fmt = f) (hg : i.mode.fmt = g) (hne : f ≠ g) : False :=
    hne (hf.symm.trans hg)
  obtain ⟨hDP, hrmdir⟩ | ⟨hF, hzero, hunlink⟩ | ⟨hSL, hstat, hunlink⟩ := fate_eq_gone h
  · obtain ⟨dir, c, hparent, hc, rfl, ⟨j, hj, hdir⟩, hchildren⟩ := rmdirAt_eq_ok hrmdir
    obtain rfl := hv.loc_eq htop hle hparent hc
    obtain rfl := Option.some.inj (hi.symm.trans (hle _ _ hj))
    rw [Inode.isDir, decide_eq_true_eq] at hdir
    exact ⟨rfl, by simp, Tree.children_eq_nil_iff.mp hchildren, i, hj,
      { reg := fun hreg => (hfmt hdir hreg (by decide)).elim
        lnk := fun hlnk => (hfmt hdir hlnk (by decide)).elim
        dir := fun _ => hchildren }⟩
  · obtain ⟨dir, c, hparent, hc, rfl, j, hj, hdir⟩ := unlinkAt_eq_ok hunlink
    obtain rfl := hv.loc_eq htop hle hparent hc
    obtain rfl := Option.some.inj (hi.symm.trans (hle _ _ hj))
    have hlink : i.isLink = false := by
      rw [hflag, Inode.ftwFlag, if_neg (by simp [hdir])] at hF
      by_contra hne
      rw [if_pos (by simpa using hne)] at hF
      cases hF
    exact ⟨rfl, by simp, inode_below_eq_none hj hdir, i, hj,
      { reg := fun _ => hsize.symm.trans hzero
        lnk := fun hlnk => by simp [Inode.isLink, hlnk] at hlink
        dir := fun hd => by simp [Inode.isDir, hd] at hdir }⟩
  · obtain ⟨dir, c, hparent, hc, rfl, j, hj, hdir⟩ := unlinkAt_eq_ok hunlink
    obtain rfl := hv.loc_eq htop hle hparent hc
    obtain rfl := Option.some.inj (hi.symm.trans (hle _ _ hj))
    have hlink : i.mode.fmt = .lnk := by
      rw [hflag, Inode.ftwFlag, if_neg (by simp [hdir])] at hSL
      by_contra hne
      rw [if_neg (by simpa [Inode.isLink] using hne)] at hSL
      cases hSL
    exact ⟨rfl, by simp, inode_below_eq_none hj hdir, i, hj,
      { reg := fun hreg => (hfmt hlink hreg (by decide)).elim
        lnk := fun _ q j hq hj => size_of_follow hparent hstat hq hj
        dir := fun hd => (hfmt hlink hd (by decide)).elim }⟩

/-- Taking a node away below which there is nothing. -/
theorem inode_drop (hne : q ≠ []) (hleaf : ∀ c, w.fs.inode (q ++ [c]) = none) (p : Loc) :
    (w.drop q).fs.inode p = if p = q then none else w.fs.inode p := by
  rw [drop, Tree.inode_prune]
  by_cases hq : q <+: p
  · rw [if_pos ⟨hne, hq⟩]
    split_ifs with hp
    · rfl
    · obtain ⟨r, rfl⟩ := hq
      obtain ⟨c, r, rfl⟩ := List.exists_cons_of_ne_nil fun hr : r = [] => hp (by simp [hr])
      exact (Tree.inode_eq_none_below (hleaf c) ⟨r, by simp⟩).symm
  · rw [if_neg fun h => hq h.2, if_neg fun h : p = q => hq (h ▸ List.prefix_rfl)]

/-! ## The run -/

/-- What is left of a tree on a walk over it, and the visits still to come: what they are of is
still there, and none of it is below what is visited before. -/
structure Left (fs : Tree) (start : Str) (top : Loc) (vs : List (Loc × Visit)) (w : World) :
    Prop where
  start_eq : fs.resolveNoFollow start = .ok top
  visited : ∀ x ∈ vs, fs.Visited start top x.1 x.2
  order : vs.Pairwise fun x y => ¬x.1 <+: y.1
  le : Tree.Le w.fs fs
  there : ∀ x ∈ vs, (w.fs.inode x.1).isSome

theorem left_nftwAt (htop : w.fs.resolveNoFollow (Tree.ftwStart path) = .ok top) :
    Left w.fs (Tree.ftwStart path) top (w.fs.nftwAt path) w := by
  have hvisited (x : Loc × Visit) (hx : x ∈ w.fs.nftwAt path) :
      w.fs.Visited (Tree.ftwStart path) top x.1 x.2 := by
    obtain ⟨top', htop', hv⟩ := Tree.visited_of_mem_nftwAt hx
    rwa [Except.ok.inj (htop.symm.trans htop')]
  refine ⟨htop, hvisited, Tree.pairwise_nftwAt w.fs path, Tree.Le.refl w.fs, fun x hx => ?_⟩
  obtain ⟨i, hi, -⟩ := (hvisited x hx).inode
  rw [hi]
  rfl

/-- **A call takes nothing away that is still to be visited.** -/
theorem Left.step {x : Loc × Visit} (h : Left fs start top (x :: vs) w) (k : Faults) (n : ℕ) :
    Left fs start top vs (doFileRemoveUnder k n x.2 w).2 := by
  obtain ⟨hfirst, horder⟩ := List.pairwise_cons.mp h.order
  have hrest : Left fs start top vs w :=
    ⟨h.start_eq, fun y hy => h.visited y (List.mem_cons_of_mem x hy), horder, h.le,
      fun y hy => h.there y (List.mem_cons_of_mem x hy)⟩
  obtain hcall | ⟨hcall, -⟩ | ⟨p, hfate, hcall⟩ := doFileRemoveUnder_cases k n x.2 w
  · rwa [hcall]
  · rwa [hcall]
  · rw [hcall]
    obtain ⟨rfl, hne, hleaf, -⟩ :=
      gone_of_fate (h.visited x List.mem_cons_self) h.start_eq h.le hfate
    refine { hrest with le := (Tree.prune_le x.1).trans h.le, there := fun y hy => ?_ }
    have hyx : y.1 ≠ x.1 := fun heq => hfirst y hy (heq ▸ List.prefix_rfl)
    rw [inode_drop hne hleaf, if_neg hyx]
    exact hrest.there y hy

/-- **Every call is one of the walk.** -/
theorem left_of_mem_turns (h : Left fs start top vs w) (ht : t ∈ turns k n vs w) :
    (t.loc, t.visit) ∈ vs ∧ t.after = (doFileRemoveUnder k t.n t.visit t.before).2
      ∧ ∃ vs', Left fs start top ((t.loc, t.visit) :: vs') t.before := by
  induction vs generalizing n w with
  | nil => cases ht
  | cons x vs ih =>
    rw [turns_cons] at ht
    rcases List.mem_cons.mp ht with rfl | ht
    · exact ⟨List.mem_cons_self, rfl, vs, h⟩
    · split_ifs at ht
      · obtain ⟨hmem, hrest⟩ := ih (h.step k n) ht
        exact ⟨List.mem_cons_of_mem x hmem, hrest⟩
      · cases ht

/-- A call that takes a node away. -/
structure Turn.Removes (t : Turn) (p : Loc) (i : Inode) : Prop where
  before : t.before.fs.inode p = some i
  after : t.after.fs.inode p = none

/-- **A call takes away only the node it is for, and that only if it is expendable.** -/
theorem expendable_of_removes (h : Left fs start top vs w) (ht : t ∈ turns k n vs w)
    (hr : t.Removes p i) : p = t.loc ∧ Expendable t.before.fs p i := by
  obtain ⟨-, hafter, vs', hleft⟩ := left_of_mem_turns h ht
  have hgone := hr.after
  rw [hafter] at hgone
  obtain hcall | ⟨hcall, -⟩ | ⟨q, hfate, hcall⟩ :=
    doFileRemoveUnder_cases k t.n t.visit t.before
  · rw [hcall, hr.before] at hgone
    cases hgone
  · rw [hcall, hr.before] at hgone
    cases hgone
  · obtain ⟨rfl, hne, hleaf, j, hj, hexp⟩ :=
      gone_of_fate (hleft.visited _ List.mem_cons_self) hleft.start_eq hleft.le hfate
    rw [hcall, inode_drop hne hleaf, hr.before] at hgone
    split_ifs at hgone with hp
    obtain rfl := hp
    rw [Option.some.inj (hr.before.symm.trans hj)]
    exact ⟨rfl, hexp⟩

theorem removeAllUnder_le (k : Faults) (n : ℕ) (vs : List (Loc × Visit)) (w : World) :
    Tree.Le (removeAllUnder k n vs w).2.fs w.fs := by
  induction vs generalizing n w with
  | nil => exact Tree.Le.refl w.fs
  | cons x vs ih =>
    rw [removeAllUnder_cons]
    split_ifs
    · exact (ih (n + 1) _).trans (doFileRemoveUnder_le k n x.2 w)
    · exact doFileRemoveUnder_le k n x.2 w

/-- **What is missing in the end, a call has taken away.** -/
theorem kept_or_removed (hi : w.fs.inode p = some i) :
    (removeAllUnder k n vs w).2.fs.inode p = some i ∨ ∃ t ∈ turns k n vs w, t.Removes p i := by
  induction vs generalizing n w with
  | nil => exact .inl hi
  | cons x vs ih =>
    rw [removeAllUnder_cons, turns_cons]
    rcases hafter : (doFileRemoveUnder k n x.2 w).2.fs.inode p with _ | j
    · exact .inr ⟨_, List.mem_cons_self, hi, hafter⟩
    · obtain rfl : i = j :=
        Option.some.inj (hi.symm.trans (doFileRemoveUnder_le k n x.2 w p j hafter))
      split_ifs
      · rcases ih (n := n + 1) hafter with hkept | ⟨t, ht, hr⟩
        · exact .inl hkept
        · exact .inr ⟨t, List.mem_cons_of_mem _ ht, hr⟩
      · exact .inl hafter

/-! ## Where no call fails -/

namespace Turn

/-- What `unlink` fails with in a call. -/
def unlinkFailure (k : Faults) (t : Turn) : Option CallError :=
  failure (failing (k.unlink t.n) (t.before.unlink t.visit.path))

/-- What `rmdir` fails with in a call. -/
def rmdirFailure (k : Faults) (t : Turn) : Option CallError :=
  failure (failing (k.rmdir t.n) (t.before.rmdir t.visit.path))

/-- No system call fails in a call, but for `rmdir` with `ENOTEMPTY` on a directory that has an
entry, and for `stat` with `ENOENT`. -/
def smooth (k : Faults) (t : Turn) : Bool :=
  !k.report t.n &&
    match t.visit.flag with
    | .DP => t.rmdirFailure k = none
        ∨ t.rmdirFailure k = some (.tree .ENOTEMPTY) ∧ t.before.fs.children t.loc ≠ []
    | .F => t.visit.size = 0 → t.unlinkFailure k = none
    | .SL =>
      match failing (k.stat t.n) (t.before.stat t.visit.path) with
      | .error e => e = .tree .ENOENT ∧ t.unlinkFailure k = none
      | .ok i => i.size = 0 → t.unlinkFailure k = none

end Turn

/-- A call none of whose system calls fails does not stop the walk. -/
theorem continues_of_smooth (h : t.smooth k = true) :
    (doFileRemoveUnder k t.n t.visit t.before).1 = true := by
  have hunlink (hok : t.unlinkFailure k = none) :
      (unlinking k t.n t.visit.path t.before).1 = true := by
    rw [Turn.unlinkFailure] at hok
    rw [unlinking]
    rcases hcall : failing (k.unlink t.n) (t.before.unlink t.visit.path) with e | w'
    · rw [hcall] at hok
      cases hok
    · rfl
  obtain ⟨hreport, hcall⟩ := Bool.and_eq_true_iff.mp h
  rw [doFileRemoveUnder, if_neg (by simpa using hreport)]
  rcases hflag : t.visit.flag
  · simp only [hflag, decide_eq_true_eq] at hcall ⊢
    split_ifs with hsize
    · exact hunlink (hcall hsize)
    · rfl
  · simp only [hflag, decide_eq_true_eq] at hcall ⊢
    rw [Turn.rmdirFailure] at hcall
    rcases hrmdir : failing (k.rmdir t.n) (t.before.rmdir t.visit.path) with e | w'
    · rw [hrmdir] at hcall
      rcases hcall with hok | ⟨hnotempty, -⟩
      · cases hok
      · simpa [failure] using hnotempty
    · rfl
  · simp only [hflag] at hcall ⊢
    rcases hstat : failing (k.stat t.n) (t.before.stat t.visit.path) with e | i
    · simp only [hstat, decide_eq_true_eq] at hcall ⊢
      rw [if_pos hcall.1]
      exact hunlink hcall.2
    · simp only [hstat, decide_eq_true_eq] at hcall ⊢
      split_ifs with hsize
      · exact hunlink (hcall hsize)
      · rfl

/-- **A call none of whose system calls fails** takes its node away, unless that is a file of some
size or a directory with an entry, or a link. -/
theorem cases_of_smooth (hleft : Left fs start top ((t.loc, t.visit) :: vs) t.before)
    (h : t.smooth k = true) :
    (doFileRemoveUnder k t.n t.visit t.before = (true, t.before)
        ∧ (t.visit.flag = .F → t.visit.size ≠ 0)
        ∧ (t.visit.flag = .DP → t.before.fs.children t.loc ≠ []))
      ∨ (doFileRemoveUnder k t.n t.visit t.before).2.fs.inode t.loc = none := by
  obtain hcall | ⟨hcall, hfile, hdir⟩ | ⟨p, hfate, hcall⟩ :=
    doFileRemoveUnder_cases k t.n t.visit t.before
  · have hcontinues := continues_of_smooth h
    rw [hcall] at hcontinues
    cases hcontinues
  · refine .inl ⟨hcall, hfile, fun hDP => ?_⟩
    obtain ⟨-, hsmooth⟩ := Bool.and_eq_true_iff.mp h
    simp only [hDP, decide_eq_true_eq] at hsmooth
    rcases hsmooth with hok | ⟨-, hchildren⟩
    · exact absurd ((hdir hDP).symm.trans hok) nofun
    · exact hchildren
  · obtain ⟨rfl, hne, hleaf, -⟩ :=
      gone_of_fate (hleft.visited _ List.mem_cons_self) hleft.start_eq hleft.le hfate
    right
    rw [hcall, inode_drop hne hleaf, if_pos rfl]

/-- A location that is not visited any more is as it is. -/
theorem inode_of_not_visited (h : Left fs start top vs w) (hp : ∀ x ∈ vs, x.1 ≠ p)
    (hi : w.fs.inode p = some i) : (removeAllUnder k n vs w).2.fs.inode p = some i := by
  have hcases : (removeAllUnder k n vs w).2.fs.inode p = some i
      ∨ ∃ t ∈ turns k n vs w, t.Removes p i := kept_or_removed hi
  rcases hcases with hkept | ⟨t, ht, hr⟩
  · exact hkept
  · obtain ⟨hmem, -⟩ := left_of_mem_turns h ht
    exact absurd (expendable_of_removes h ht hr).1.symm (hp _ hmem)

/-- **Where no call fails, the empty files and the empty directories that are visited are gone.** -/
theorem gone_of_smooth (h : Left fs start top vs w)
    (hsmooth : ∀ t ∈ turns k n vs w, t.smooth k = true) {x : Loc × Visit} (hx : x ∈ vs) :
    (x.2.flag = .F → x.2.size = 0 → (removeAllUnder k n vs w).2.fs.inode x.1 = none)
      ∧ (x.2.flag = .DP → (removeAllUnder k n vs w).2.fs.inode x.1 = none
        ∨ (removeAllUnder k n vs w).2.fs.children x.1 ≠ []) := by
  induction vs generalizing n w with
  | nil => cases hx
  | cons y vs ih =>
    rw [turns_cons] at hsmooth
    have hfirst := hsmooth _ List.mem_cons_self
    have hgoes : (doFileRemoveUnder k n y.2 w).1 = true := continues_of_smooth hfirst
    have hstep := h.step k n
    rw [removeAllUnder_cons, if_pos hgoes]
    rw [if_pos hgoes] at hsmooth
    rcases List.mem_cons.mp hx with rfl | hx
    swap
    · exact ih hstep (fun t ht => hsmooth t (List.mem_cons_of_mem _ ht)) hx
    obtain ⟨hcall, hfile, hdir⟩ | hgone := cases_of_smooth h hfirst
    · refine ⟨fun hF hsize => absurd hsize (hfile hF), fun hDP => .inr ?_⟩
      -- an entry that is there now is not visited any more
      obtain ⟨c, hc⟩ := List.exists_mem_of_ne_nil _ (hdir hDP)
      obtain ⟨j, hj⟩ := Option.isSome_iff_exists.mp (Tree.mem_children_iff.mp hc)
      have hlater : ∀ y ∈ vs, y.1 ≠ x.1 ++ [c] := by
        intro y hy heq
        exact (List.pairwise_cons.mp h.order).1 y hy (heq ▸ List.prefix_append x.1 [c])
      have hkept := inode_of_not_visited (k := k) (n := n + 1) hstep hlater (i := j) (by
        rw [hcall]
        exact hj)
      exact List.ne_nil_of_mem (Tree.mem_children_iff.mpr (by rw [hkept]; rfl))
    · have hnone : (removeAllUnder k (n + 1) vs (doFileRemoveUnder k n x.2 w).2).2.fs.inode x.1
          = none := by
        by_contra hsome
        obtain ⟨j, hj⟩ := Option.ne_none_iff_exists'.mp hsome
        have hback := removeAllUnder_le k (n + 1) vs _ _ _ hj
        rw [hgone] at hback
        cases hback
      exact ⟨fun _ _ => hnone, fun _ => .inl hnone⟩

/-! ## `file_remove` -/

/-- **Nothing is lost**: every call is for a node as it then is and takes away no other, and that
one only if it is expendable; what is missing in the end, a call has taken away. -/
structure KeepsData (k : Faults) (path : Str) (w : World) : Prop where
  current : ∀ t ∈ fileRemoveTurns k path w, ∃ i, t.before.fs.inode t.loc = some i
    ∧ t.visit = i.visit t.visit.path
  turn : ∀ t ∈ fileRemoveTurns k path w, ∀ p i, t.Removes p i →
    p = t.loc ∧ Expendable t.before.fs p i
  rest : ∀ p i, w.fs.inode p = some i → (fileRemoveUnder k path w).2.fs.inode p = some i
    ∨ ∃ t ∈ fileRemoveTurns k path w, t.Removes p i

/-- What is at a location and below it is on one device. -/
def OneDevice (fs : Tree) (top : Loc) : Prop :=
  ∀ p q i j, top <+: p → top <+: q → fs.inode p = some i → fs.inode q = some j → i.dev = j.dev

/-- Of the empty files at a location and below it none is left, and no directory without entries. -/
structure Cleared (fs fs' : Tree) (top : Loc) : Prop where
  file : ∀ p i, top <+: p → fs.inode p = some i → i.mode.fmt = .reg → i.size = 0 →
    fs'.inode p = none
  dir : ∀ p, top <+: p → fs'.IsDir p → fs'.children p ≠ []

/-- **Whatever fails, no data is lost.** -/
theorem keepsData_fileRemove (k : Faults) (path : Str) (w : World) : KeepsData k path w := by
  rcases htop : w.fs.resolveNoFollow (Tree.ftwStart path) with e | top
  · have hnil : w.fs.nftwAt path = [] := by rw [Tree.nftwAt, htop]
    have hturns : fileRemoveTurns k path w = [] := by
      rw [fileRemoveTurns, hnil]
      rfl
    refine ⟨by simp [hturns], by simp [hturns], fun p i hi => .inl ?_⟩
    rwa [fileRemoveUnder_snd, hnil]
  · have hleft := left_nftwAt htop
    refine ⟨fun t ht => ?_, fun t ht p i => expendable_of_removes hleft ht, fun p i hi => ?_⟩
    · obtain ⟨-, -, vs, ht⟩ := left_of_mem_turns hleft ht
      obtain ⟨i, hi, hv⟩ := (ht.visited _ List.mem_cons_self).inode
      obtain ⟨j, hj⟩ := Option.isSome_iff_exists.mp (ht.there _ List.mem_cons_self)
      obtain rfl := Option.some.inj (hi.symm.trans (ht.le _ _ hj))
      exact ⟨i, hj, hv⟩
    · rw [fileRemoveUnder_snd]
      exact kept_or_removed hi

/-- **If nothing fails, what could be removed is.** -/
theorem cleared_fileRemove (htop : w.fs.resolveNoFollow (Tree.ftwStart path) = .ok top)
    (hdev : OneDevice w.fs top) (hsmooth : ∀ t ∈ fileRemoveTurns k path w, t.smooth k = true) :
    Cleared w.fs (fileRemoveUnder k path w).2.fs top := by
  have hleft := left_nftwAt htop
  have hvisit (p : Loc) (i : Inode) (hp : top <+: p) (hi : w.fs.inode p = some i) :
      ∃ path', (p, i.visit path') ∈ w.fs.nftwAt path := by
    obtain ⟨ds, rfl⟩ := hp
    obtain ⟨j, hj⟩ := Tree.exists_inode_above hi (List.prefix_append top ds)
    rw [Tree.nftwAt, htop]
    simp only [hj]
    exact Tree.mem_tour_of_inode hj (fun q m hq hm => hdev q top m j hq List.prefix_rfl hm hj)
      (by omega) hi
  rw [fileRemoveUnder_snd]
  refine ⟨fun p i hp hi hreg hsize => ?_, fun p hp hdir => ?_⟩
  · obtain ⟨path', hmem⟩ := hvisit p i hp hi
    have hflag : i.ftwFlag = .F := by simp [Inode.ftwFlag, Inode.isDir, Inode.isLink, hreg]
    exact (gone_of_smooth hleft hsmooth hmem).1 hflag hsize
  · obtain ⟨i, hi, hid⟩ := hdir
    obtain ⟨path', hmem⟩ := hvisit p i hp (removeAllUnder_le k 0 _ w p i hi)
    rcases (gone_of_smooth hleft hsmooth hmem).2 (Tree.ftwFlag_of_isDir hid) with hgone | hkept
    · rw [show (removeAllUnder k 0 (w.fs.nftwAt path) w).2.fs.inode p = none from hgone] at hi
      cases hi
    · exact hkept

/-- **`file_remove` loses no data, whichever of its calls fail**; and where none does, on one device
it leaves no empty file and no empty directory behind. -/
theorem fileRemove_keepsData (k : Faults) (path : Str) (w : World) :
    KeepsData k path w
      ∧ ∀ top, w.fs.resolveNoFollow (Tree.ftwStart path) = .ok top → OneDevice w.fs top →
        (∀ t ∈ fileRemoveTurns k path w, t.smooth k = true) →
        Cleared w.fs (fileRemoveUnder k path w).2.fs top :=
  ⟨keepsData_fileRemove k path w, fun _ => cleared_fileRemove⟩

/-- A directory `/a` with a link to an empty file in an otherwise empty directory, and one to a file
that is not empty. -/
def leftovers : World where
  fs := .ofNodes [([], { mode := ⟨.dir, 0x1ed⟩ }), ([['a']], { mode := ⟨.dir, 0x1ed⟩ }),
    ([['a'], ['e']], { mode := ⟨.dir, 0x1ed⟩ }),
    ([['a'], ['e'], ['x']], { mode := ⟨.reg, 0x1a4⟩ }),
    ([['a'], ['l']], { mode := ⟨.lnk, 0x1ff⟩, size := 3, target := ['e', '/', 'x'] }),
    ([['a'], ['y']], { mode := ⟨.reg, 0x1a4⟩, size := 5 }),
    ([['a'], ['m']], { mode := ⟨.lnk, 0x1ff⟩, size := 1, target := ['y'] })] (by decide)

/-- No call fails there: `/a/e/x`, `/a/e` and, once they are gone, `/a/l` are taken away. -/
theorem fileRemove_keepsData_leftovers :
    Cleared leftovers.fs (fileRemoveUnder .none ['/', 'a'] leftovers).2.fs [['a']]
      ∧ (fileRemoveUnder .none ['/', 'a'] leftovers).2.fs.nodes.map (·.1)
        = [[], [['a']], [['a'], ['y']], [['a'], ['m']]] := by
  refine ⟨(fileRemove_keepsData .none ['/', 'a'] leftovers).2 [['a']] (by decide +kernel) ?_
    (List.all_eq_true.mp (by decide +kernel)), by decide +kernel⟩
  have hdev : ∀ x ∈ leftovers.fs.nodes, x.2.dev = 0 := by decide
  intro p q i j _ _ hi hj
  rw [hdev _ (Tree.mem_of_lookup hi), hdev _ (Tree.mem_of_lookup hj)]

end World

end Fs
