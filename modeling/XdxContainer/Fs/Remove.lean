import XdxContainer.Fs.World
import Mathlib.Data.List.Perm.Basic

/-!
# Fs/Remove — what `file_remove` does to the tree, and what unmounting brings back

The walk of `file_remove` changes the tree at the first entry it does not keep, if that one is
removed and not an error: `firstRemoval` reads it off the tree as it is before the walk, and
nothing that was there is missing afterwards exactly when there is none (`le_removeAll_iff`).

Binding and detaching again gives back every node, and the entries of every directory that was
covered in their order (`inode_detach_bind`, `children_detach_bind`).
-/

open Paths Walk

namespace Fs

namespace Tree

variable {fs fs' : Tree} {p top : Loc} {c : Name}

/-! ## Trees with the same nodes -/

theorem isDir_congr (h : fs.inode = fs'.inode) : fs.isDir = fs'.isDir := by
  funext p
  rw [isDir, isDir, h]

theorem walkStep_congr (h : fs.inode = fs'.inode) (split : Str → List Name) :
    fs.walkStep split = fs'.walkStep split := by
  funext root cur c
  rw [walkStep, walkStep, isDir_congr h, h]

/-- Trees with the same nodes resolve paths alike. -/
theorem resolve_congr (h : fs.inode = fs'.inode) : fs.resolve = fs'.resolve := by
  funext s
  rw [resolve, resolve, walkStep_congr h]

theorem resolveParent_congr (h : fs.inode = fs'.inode) : fs.resolveParent = fs'.resolveParent := by
  funext s
  rw [resolveParent, resolveParent, walkStep_congr h, isDir_congr h]

theorem resolveNoFollow_congr (h : fs.inode = fs'.inode) :
    fs.resolveNoFollow = fs'.resolveNoFollow := by
  funext s
  have hlast : fs.lookupLast = fs'.lookupLast := by
    funext cur c
    rw [lookupLast, lookupLast, h]
  rw [resolveNoFollow, resolveNoFollow, resolveParent_congr h, hlast]

/-- A directory without children is empty. -/
theorem children_eq_nil_iff : fs.children p = [] ↔ ∀ c, fs.inode (p ++ [c]) = none := by
  rw [List.eq_nil_iff_forall_not_mem]
  refine forall_congr' fun c => ?_
  rw [mem_children_iff, Option.not_isSome_iff_eq_none]

/-- A walk sees the nodes and the order of the directories it goes through. -/
theorem visit_congr (h : fs.inode = fs'.inode)
    (hchildren : ∀ p, top <+: p → fs.children p = fs'.children p)
    (dev n : ℕ) (path : Str) {p : Loc} {i : Inode} (hp : i.isDir = true → top <+: p) :
    fs.visit dev n path p i = fs'.visit dev n path p i := by
  induction n generalizing path p i with
  | zero => rfl
  | succ n ih =>
    rw [visit, visit]
    split_ifs with hdir
    · rw [hchildren p (hp hdir)]
      refine congrArg (· ++ _) (List.flatMap_congr fun c _ => ?_)
      rw [h]
      split
      · rw [ih _ fun _ => (hp hdir).trans (List.prefix_append p [c])]
      · rfl
    all_goals rfl

end Tree

namespace World

variable {w w' : World} {v : Visit} {vs : List Visit} {p top : Loc} {path : Str}

/-! ## One entry -/

/-- What becomes of an entry. -/
inductive Fate
  | kept
  | gone (p : Loc)
  | stops
  deriving DecidableEq

/-- What becomes of an entry that is unlinked. -/
def unlinkFate (w : World) (path : Str) : Fate :=
  match w.unlinkAt path with
  | .ok p => .gone p
  | .error _ => .stops

/-- **What becomes of an entry**, on the world as it is. -/
def fate (w : World) (v : Visit) : Fate :=
  match v.flag with
  | .DP =>
    match w.rmdirAt v.path with
    | .ok p => .gone p
    | .error e => if e = .ENOTEMPTY then .kept else .stops
  | .F => if v.size = 0 then w.unlinkFate v.path else .kept
  | .SL =>
    match w.stat v.path with
    | .error e => if e = .ENOENT then w.unlinkFate v.path else .stops
    | .ok i => if i.size = 0 then w.unlinkFate v.path else .kept

/-- The world, and whether the walk goes on, after an entry. -/
def Fate.apply (w : World) : Fate → Bool × World
  | .kept => (true, w)
  | .gone p => (true, w.drop p)
  | .stops => (false, w)

/-- What `unlink` does is told by its fate. -/
theorem unlink_apply (w : World) (path : Str) :
    (match w.unlink path with
      | .ok w' => (true, w')
      | .error _ => (false, w)) = (w.unlinkFate path).apply w := by
  rw [unlink, unlinkFate]
  rcases w.unlinkAt path <;> rfl

/-- What a visit does is told by its fate. -/
theorem doFileRemove_eq (v : Visit) (w : World) : w.doFileRemove v = (w.fate v).apply w := by
  rw [doFileRemove, fate]
  rcases v.flag
  · dsimp only
    split_ifs
    · exact unlink_apply w v.path
    · rfl
  · dsimp only
    rw [rmdir]
    rcases w.rmdirAt v.path with e | p
    · by_cases he : e = .ENOTEMPTY <;> simp [he, Except.map, Fate.apply]
    · rfl
  · dsimp only
    rcases w.stat v.path with e | i
    · by_cases he : e = .ENOENT
      · simp only [he, if_true]
        exact unlink_apply w v.path
      · simp [he, Fate.apply]
    · by_cases hi : i.size = 0
      · simp only [hi, decide_true, if_true]
        exact unlink_apply w v.path
      · simp [hi, Fate.apply]

/-- The node a removal takes away is the one at the path, and is there. -/
def Named (w : World) (path : Str) (p : Loc) : Prop :=
  ∃ dir c, w.fs.resolveParent path = .ok (some (dir, c)) ∧ p = dir ++ [c] ∧ (w.fs.inode p).isSome

/-- **What `rmdir` takes away**: an empty directory. -/
theorem rmdirAt_eq_ok (h : w.rmdirAt path = .ok p) :
    ∃ dir c, w.fs.resolveParent path = .ok (some (dir, c)) ∧ (c ≠ dot ∧ c ≠ dotdot)
      ∧ p = dir ++ [c] ∧ w.fs.IsDir p ∧ w.fs.children p = [] := by
  obtain ⟨r, hr, hrest⟩ := Except.bind_eq_ok h
  rcases r with _ | ⟨dir, c⟩
  · cases hrest
  rcases hi : w.fs.inode (dir ++ [c]) with _ | i
  · simp only [hi] at hrest
    split_ifs at hrest
  · simp only [hi] at hrest
    split_ifs at hrest with hdot hup hlong hdir hmnt hchildren
    obtain rfl := Except.ok.inj hrest
    exact ⟨dir, c, hr, ⟨hdot, hup⟩, rfl, ⟨i, hi, by simpa using hdir⟩, by simpa using hchildren⟩

/-- **What `unlink` takes away**: no directory. -/
theorem unlinkAt_eq_ok (h : w.unlinkAt path = .ok p) :
    ∃ dir c, w.fs.resolveParent path = .ok (some (dir, c)) ∧ (c ≠ dot ∧ c ≠ dotdot)
      ∧ p = dir ++ [c] ∧ ∃ i, w.fs.inode p = some i ∧ i.isDir = false := by
  obtain ⟨r, hr, hrest⟩ := Except.bind_eq_ok h
  rcases r with _ | ⟨dir, c⟩
  · cases hrest
  rcases hi : w.fs.inode (dir ++ [c]) with _ | i
  · simp only [hi] at hrest
    split_ifs at hrest
  · simp only [hi] at hrest
    split_ifs at hrest with hdots hlong hdir hmnt
    obtain rfl := Except.ok.inj hrest
    exact ⟨dir, c, hr, not_or.mp hdots, rfl, i, hi, by simpa using hdir⟩

theorem named_of_rmdirAt (h : w.rmdirAt path = .ok p) : w.Named path p := by
  obtain ⟨dir, c, hr, -, hp, ⟨i, hi, -⟩, -⟩ := rmdirAt_eq_ok h
  exact ⟨dir, c, hr, hp, by rw [hi]; rfl⟩

theorem named_of_unlinkAt (h : w.unlinkAt path = .ok p) : w.Named path p := by
  obtain ⟨dir, c, hr, -, hp, i, hi, -⟩ := unlinkAt_eq_ok h
  exact ⟨dir, c, hr, hp, by rw [hi]; rfl⟩

/-- **When an entry goes.** -/
theorem fate_eq_gone (h : w.fate v = .gone p) :
    (v.flag = .DP ∧ w.rmdirAt v.path = .ok p)
      ∨ (v.flag = .F ∧ v.size = 0 ∧ w.unlinkAt v.path = .ok p)
      ∨ (v.flag = .SL ∧ (w.stat v.path = .error .ENOENT ∨ ∃ i, w.stat v.path = .ok i ∧ i.size = 0)
        ∧ w.unlinkAt v.path = .ok p) := by
  have hunlink (hfate : w.unlinkFate v.path = .gone p) : w.unlinkAt v.path = .ok p := by
    rw [unlinkFate] at hfate
    split at hfate
    · next q hq => rw [hq, Fate.gone.inj hfate]
    · cases hfate
  rw [fate] at h
  split at h
  · next hflag =>
    split at h
    · next q hq => exact .inl ⟨hflag, by rw [hq, Fate.gone.inj h]⟩
    · split_ifs at h
  · next hflag =>
    split_ifs at h with hsize
    exact .inr (.inl ⟨hflag, hsize, hunlink h⟩)
  · next hflag =>
    split at h
    · next e he =>
      split_ifs at h with hnoent
      exact .inr (.inr ⟨hflag, .inl (by rw [he, hnoent]), hunlink h⟩)
    · next i hi =>
      split_ifs at h with hsize
      exact .inr (.inr ⟨hflag, .inr ⟨i, hi, hsize⟩, hunlink h⟩)

/-- What a visit removes is named by its path. -/
theorem named_of_fate (h : w.fate v = .gone p) : w.Named v.path p := by
  obtain ⟨-, hrmdir⟩ | ⟨-, -, hunlink⟩ | ⟨-, -, hunlink⟩ := fate_eq_gone h
  · exact named_of_rmdirAt hrmdir
  · exact named_of_unlinkAt hunlink
  · exact named_of_unlinkAt hunlink

/-! ## The walk -/

/-- The first entry that is not kept, if it is removed. -/
def firstRemoval (w : World) : List Visit → Option Loc
  | [] => none
  | v :: vs =>
    match w.fate v with
    | .kept => w.firstRemoval vs
    | .gone p => some p
    | .stops => none

/-- No mount is removed. -/
theorem removeAll_mounts (vs : List Visit) (w : World) : (w.removeAll vs).mounts = w.mounts := by
  induction vs generalizing w with
  | nil => rfl
  | cons v vs ih =>
    rw [removeAll, doFileRemove_eq]
    rcases w.fate v with _ | p | _
    · exact ih w
    · exact ih (w.drop p)
    · rfl

/-- The nodes that are left were there. -/
theorem removeAll_le (vs : List Visit) (w : World) : Tree.Le (w.removeAll vs).fs w.fs := by
  induction vs generalizing w with
  | nil => exact Tree.Le.refl w.fs
  | cons v vs ih =>
    rw [removeAll, doFileRemove_eq]
    rcases w.fate v with _ | p | _
    · exact ih w
    · exact (ih (w.drop p)).trans (Tree.prune_le p)
    · exact Tree.Le.refl w.fs

/-- Where nothing is removable nothing happens. -/
theorem removeAll_of_firstRemoval_eq_none (h : w.firstRemoval vs = none) : w.removeAll vs = w := by
  induction vs with
  | nil => rfl
  | cons v vs ih =>
    rw [firstRemoval] at h
    rw [removeAll, doFileRemove_eq]
    rcases hfate : w.fate v with _ | p | _
    · rw [hfate] at h
      exact ih h
    · rw [hfate] at h
      cases h
    · rfl

/-- The first that is removable was there, and is gone. -/
theorem inode_removeAll_of_firstRemoval (h : w.firstRemoval vs = some p) :
    (w.fs.inode p).isSome ∧ (w.removeAll vs).fs.inode p = none := by
  induction vs with
  | nil => cases h
  | cons v vs ih =>
    rw [firstRemoval] at h
    rw [removeAll, doFileRemove_eq]
    rcases hfate : w.fate v with _ | q | _
    · rw [hfate] at h
      exact ih h
    · rw [hfate] at h
      obtain rfl := Option.some.inj h
      obtain ⟨dir, c, -, hq, hsome⟩ := named_of_fate hfate
      refine ⟨hsome, ?_⟩
      by_contra hne
      obtain ⟨i, hi⟩ := Option.ne_none_iff_exists'.mp hne
      have hdrop := removeAll_le vs (w.drop q) _ _ hi
      rw [drop, Tree.inode_prune, if_pos ⟨by simp [hq], List.prefix_rfl⟩] at hdrop
      cases hdrop
    · rw [hfate] at h
      cases h

/-- **Nothing is missing after the walk exactly when no entry is the first to be removed.** -/
theorem le_removeAll_iff (w : World) (vs : List Visit) :
    Tree.Le w.fs (w.removeAll vs).fs ↔ w.firstRemoval vs = none := by
  refine ⟨fun h => ?_, fun h => ?_⟩
  · by_contra hne
    obtain ⟨p, hp⟩ := Option.ne_none_iff_exists'.mp hne
    obtain ⟨hsome, hnone⟩ := inode_removeAll_of_firstRemoval hp
    obtain ⟨i, hi⟩ := Option.isSome_iff_exists.mp hsome
    rw [h p i hi] at hnone
    cases hnone
  · rw [removeAll_of_firstRemoval_eq_none h]
    exact Tree.Le.refl w.fs

/-- What becomes of an entry depends on the nodes and the mounts. -/
theorem fate_congr (h : w.fs.inode = w'.fs.inode) (hmounts : w.mounts = w'.mounts) :
    w.fate = w'.fate := by
  have hat : w.mountAt = w'.mountAt := by
    funext p
    rw [mountAt, mountAt, mountOf, mountOf, hmounts]
  have hchildren : ∀ p, (w.fs.children p ≠ []) = (w'.fs.children p ≠ []) := by
    intro p
    rw [ne_eq, ne_eq, Tree.children_eq_nil_iff, Tree.children_eq_nil_iff, h]
  have hrmdir : w.rmdirAt = w'.rmdirAt := by
    funext path
    simp only [rmdirAt, Tree.resolveParent_congr h, h, hat, hchildren]
  have hunlink : w.unlinkFate = w'.unlinkFate := by
    funext path
    simp only [unlinkFate, unlinkAt, Tree.resolveParent_congr h, h, hat]
  have hstat : w.stat = w'.stat := by
    funext path
    simp only [stat, Tree.resolve_congr h, h]
  funext v
  rw [fate, fate, hrmdir, hunlink, hstat]

theorem firstRemoval_congr (h : w.fs.inode = w'.fs.inode) (hmounts : w.mounts = w'.mounts) :
    w.firstRemoval = w'.firstRemoval := by
  funext vs
  induction vs with
  | nil => rfl
  | cons v vs ih => rw [firstRemoval, firstRemoval, fate_congr h hmounts, ih]

/-! ## Binding and detaching -/

section Detach

variable {src : Loc} (hsrc : (w.fs.inode src).isSome) (htop : (w.fs.inode top).isSome)
  (hkind : w.fs.isDir src = w.fs.isDir top)

/-- At the mount point is the source. -/
theorem inode_bind_top : (w.bind src top hsrc htop hkind).fs.inode top = w.fs.inode src := by
  rw [bind, Tree.inode_graft, if_pos List.prefix_rfl]
  have hmoved := Tree.lookup_moved w.fs src top []
  rwa [List.append_nil, List.append_nil] at hmoved

theorem inode_bind_of_not_prefix (hp : ¬top <+: p) :
    (w.bind src top hsrc htop hkind).fs.inode p = w.fs.inode p := by
  rw [bind, Tree.inode_graft, if_neg hp]

/-- The mount point has the mount. -/
theorem mountAt_bind : (w.bind src top hsrc htop hkind).mountAt top
    = some ⟨top, w.fs.branch top htop⟩ := by
  simp [mountAt, mountOf, Layers.seen, bind]

/-- The world once what was bound is detached. -/
def unbound : World := (w.bind src top hsrc htop hkind).detach ⟨top, w.fs.branch top htop⟩

theorem unbound_eq : ∃ h, unbound hsrc htop hkind
    = { fs := (w.bind src top hsrc htop hkind).fs.graft (w.fs.branch top htop) h
        mounts := w.mounts } := by
  have h : ((w.bind src top hsrc htop hkind).fs.inode top).isSome := by rwa [inode_bind_top]
  refine ⟨h, ?_⟩
  rw [unbound, detach, dif_pos h]
  simp [Layers.strip, bind]

theorem mounts_unbound : (unbound hsrc htop hkind).mounts = w.mounts := by
  obtain ⟨h, heq⟩ := unbound_eq hsrc htop hkind
  rw [heq]

/-- **Detaching what was bound gives every node back.** -/
theorem inode_unbound : (unbound hsrc htop hkind).fs.inode = w.fs.inode := by
  obtain ⟨h, heq⟩ := unbound_eq hsrc htop hkind
  funext p
  rw [heq, Tree.inode_graft]
  by_cases hp : top <+: p
  · rw [if_pos hp]
    exact (Tree.lookup_branch w.fs top p).trans (if_pos hp)
  · rw [if_neg hp, inode_bind_of_not_prefix hsrc htop hkind hp]

/-- The nodes that were covered come last. -/
theorem nodes_unbound : (unbound hsrc htop hkind).fs.nodes
    = (w.fs.nodes.filter fun x => !decide (top <+: x.1))
      ++ w.fs.nodes.filter fun x => decide (top <+: x.1) := by
  obtain ⟨h, heq⟩ := unbound_eq hsrc htop hkind
  have hmoved : ((w.fs.moved src top hsrc fun h => Tree.isDir_iff.mp
      (hkind.trans (h ▸ Tree.isDir_iff.mpr w.fs.isDir_root))).nodes.filter
      fun x => !decide (top <+: x.1)) = [] := by
    rw [List.filter_eq_nil_iff]
    intro x hx
    simpa using Branch.below _ x hx
  rw [heq]
  change (((w.fs.nodes.filter fun x => !decide (top <+: x.1)) ++ _).filter
    fun x => !decide (top <+: x.1)) ++ _ = _
  rw [List.filter_append, hmoved, List.append_nil, List.filter_filter]
  simp only [Bool.and_self]
  rfl

/-- **The directories that were covered have their entries in the same order.** -/
theorem children_unbound (hp : top <+: p) :
    (unbound hsrc htop hkind).fs.children p = w.fs.children p := by
  have hbelow (x : Loc × Inode) (hx : Tree.nameIn p x.1 ≠ none) : top <+: x.1 := by
    obtain ⟨c, hc⟩ := Option.ne_none_iff_exists'.mp hx
    rw [Tree.nameIn_eq_some_iff.mp hc]
    exact hp.trans (List.prefix_append p [c])
  rw [Tree.children, Tree.children, nodes_unbound, List.filterMap_append, List.filterMap_filter,
    List.filterMap_filter]
  have hout : (w.fs.nodes.filterMap fun x =>
      if (!decide (top <+: x.1)) = true then Tree.nameIn p x.1 else none) = [] := by
    rw [List.filterMap_eq_nil_iff]
    intro x _
    by_cases hx : Tree.nameIn p x.1 = none
    · simp [hx]
    · simp [hbelow x hx]
  have hin : (w.fs.nodes.filterMap fun x =>
      if decide (top <+: x.1) = true then Tree.nameIn p x.1 else none)
      = w.fs.nodes.filterMap fun x => Tree.nameIn p x.1 := by
    refine List.filterMap_congr fun x _ => ?_
    by_cases hx : Tree.nameIn p x.1 = none
    · simp [hx]
    · simp [hbelow x hx]
  rw [hout, hin, List.nil_append]

theorem depth_unbound : (unbound hsrc htop hkind).fs.depth = w.fs.depth := by
  rw [Tree.depth, Tree.depth, nodes_unbound]
  have hperm := (List.perm_append_comm.trans
    (List.filter_append_perm (fun x => decide (top <+: x.1)) w.fs.nodes)).map fun x => x.1.length
  exact hperm.foldr_eq 0

/-- A walk that goes into no directory but below where it was bound finds what it found before. -/
theorem nftw_unbound (path : Str)
    (hdir : ∀ p i, w.fs.resolveNoFollow (Tree.ftwStart path) = .ok p → w.fs.inode p = some i →
      i.isDir = true → top <+: p) :
    (unbound hsrc htop hkind).fs.nftw path = w.fs.nftw path := by
  have hinode := inode_unbound hsrc htop hkind
  rw [Tree.nftw, Tree.nftw, Tree.resolveNoFollow_congr hinode, hinode, depth_unbound]
  split
  · rfl
  next p hp =>
  split
  · rfl
  next i hi =>
  exact Tree.visit_congr hinode (fun q hq => children_unbound hsrc htop hkind hq) _ _ _
    fun hd => hdir p i hp hi hd

end Detach

/-- **What a mount that succeeds does.** -/
theorem mount_eq_ok {src dst : Str} (h : w.mount src dst = .ok w') :
    ∃ S L hS hL hkind, w.fs.resolve dst = .ok L ∧ w.fs.resolve src = .ok S
      ∧ w' = w.bind S L hS hL hkind := by
  obtain ⟨L, hL, h₁⟩ := Except.bind_eq_ok h
  obtain ⟨S, hS, h₂⟩ := Except.bind_eq_ok h₁
  split_ifs at h₂ with hsome hkind
  exact ⟨S, L, hsome.1, hsome.2, hkind, hL, hS, (Except.ok.inj h₂).symm⟩

theorem top_of_mountAt {m : Mnt} (h : w.mountAt p = some m) : m.top = p := by
  have hfilter := (Option.filter_eq_some_iff.mp h).2
  simpa using hfilter

/-- What `umount2` does to the mounts. -/
theorem mounts_umount2 {path : Str} (h : w.fs.resolve path = .ok p) :
    (w.umount2 path).mounts = Layers.pop Mnt.top p w.mounts := by
  obtain ⟨i, hi, -⟩ := Tree.inode_of_resolve h
  rw [umount2, h, Layers.pop, Layers.starts]
  obtain hm | ⟨m, hm⟩ := Option.eq_none_or_eq_some (Layers.seen Mnt.top p w.mounts)
  · have hat : w.mountAt p = none := by rw [mountAt, mountOf, hm]; rfl
    simp [hat, hm]
  · by_cases htop : m.top = p
    · have hat : w.mountAt p = some m := by rw [mountAt, mountOf, hm]; simp [htop]
      simp [hat, hm, htop, detach, hi]
    · have hat : w.mountAt p = none := by rw [mountAt, mountOf, hm]; simp [htop]
      simp [hat, hm, htop]

/-- **Unmounting at a location leaves a mount less there.** -/
theorem countP_detach_lt {m : Mnt} (h : w.mountAt p = some m) (hp : (w.fs.inode p).isSome) :
    (w.detach m).mounts.countP (·.top = p) < w.mounts.countP (·.top = p) := by
  obtain rfl := top_of_mountAt h
  have hfind := (Option.filter_eq_some_iff.mp h).1
  obtain ⟨-, newer, older, hmounts, hnewer⟩ := List.find?_eq_some_iff_append.mp hfind
  have hnot : ∀ n ∈ newer, ¬n.top <+: m.top := by simpa using hnewer
  have hzero : newer.countP (·.top = m.top) = 0 := by
    rw [List.countP_eq_zero]
    intro n hn heq
    have htop : n.top = m.top := by simpa using heq
    exact hnot n hn (htop ▸ List.prefix_rfl)
  have hle : (newer.filter fun n => !(m.top <+: n.top : Bool)).countP (·.top = m.top) = 0 := by
    have := (List.filter_sublist (p := fun n : Mnt => !(m.top <+: n.top : Bool))
        (l := newer)).countP_le
      (p := fun n => decide (n.top = m.top))
    omega
  rw [detach, dif_pos hp, hmounts, Layers.strip_split List.prefix_rfl hnot]
  simp only [List.countP_append, hle]
  rw [hzero, List.countP_cons_of_pos (by simp)]
  omega

/-- A node without entries is visited alone. -/
theorem nftw_of_leaf {i : Inode} (hp : w.fs.resolveNoFollow (Tree.ftwStart path) = .ok p)
    (hi : w.fs.inode p = some i) (hleaf : ∀ c, w.fs.inode (p ++ [c]) = none) :
    ∃ v, w.fs.nftw path = [v] ∧ v.path = Tree.ftwStart path := by
  rw [Tree.nftw, hp]
  simp only [hi, Tree.visit, Tree.children_eq_nil_iff.mpr hleaf]
  split_ifs
  · exact ⟨_, rfl, rfl⟩
  all_goals exact ⟨_, rfl, rfl⟩

end World

end Fs
