import XdxContainer.Mount.Live
import XdxContainer.Fs.Remove

/-!
# Mount/Confine — where `mount_files` mounts

The directory is resolved below the root and the name of the file is put behind it, so that only a
link under that name can lead elsewhere:

    dst = rootfs/a/b        R ++ [a, b], no link on the way       (`Rooted`)
    dst/name                no link: R ++ [a, b, name]
                            a link that `file_create` lets through: wherever it leads

`traced` notes the destination of every call of `mount` with the world it is made in.  When no link
that is let through leads out of the root, and no destination is reached through what it covers
(`Sound`), every call in the whole run is confined.
-/

open Paths Fs Fallible

namespace Mount

/-! ## The calls of `mount` -/

/-- A call of `mount`, in the world it is made in. -/
structure MountCall (W : Type) where
  world : W
  dst : Str
  /-- `MS_BIND` without `MS_REMOUNT`. -/
  binds : Bool

/-- The system that notes the calls of `mount`. -/
def Sys.traced {W : Type} (sys : Sys W) : Sys (W × List (MountCall W)) where
  pathResolveFull e buf root path s := sys.pathResolveFull e buf root path s.1
  fileMode e path s := sys.fileMode e path s.1
  xstat e path s := sys.xstat e path s.1
  fileCreate e path data mode s :=
    let (ok, w) := sys.fileCreate e path data mode s.1
    (ok, (w, s.2))
  mount e src dst s :=
    let (ok, w) := sys.mount e src dst s.1
    (ok, (w, s.2 ++ [⟨s.1, dst, true⟩]))
  remount e dst flags s :=
    let (ok, w) := sys.remount e dst flags s.1
    (ok, (w, s.2 ++ [⟨s.1, dst, false⟩]))
  alloc e s := sys.alloc e s.1
  umount2 path s := (sys.umount2 path s.1, s.2)
  fileRemove path s := (sys.fileRemove path s.1, s.2)

/-- **The call's destination is in the subtree.** -/
def MountCall.Confined (R : Loc) (t : MountCall World) : Prop :=
  ∀ p, t.world.fs.resolve t.dst = .ok p → R <+: p

/-- **What a bind must meet**: a link at the end of its destination does not lead out of the
subtree, and what the mount covers is not on the way to it. -/
def MountCall.Sound (R : Loc) (t : MountCall World) : Prop :=
  ∀ p, t.world.fs.resolve t.dst = .ok p →
    (∀ q i, t.world.fs.resolveNoFollow t.dst = .ok q → t.world.fs.inode q = some i →
      i.isLink = true → R <+: p)
    ∧ (t.world.fs.hollow p).resolve t.dst = .ok p

/-! ## Names -/

theorem slash_notMem_basename (path : Str) : '/' ∉ basename path := by
  rw [basename, List.mem_reverse]
  intro hmem
  have hne := List.mem_takeWhile_imp hmem
  simp at hne

theorem exists_prefix_of_selected {cnt : Container} {path : Str} (h : selected cnt path = true) :
    ∃ pre ∈ utilityBins ++ dxcoreLibs ++ utilityLibs ++ computeLibs ++ videoLibs ++ graphicsLibs,
      pre <+: basename path := by
  have hany {arr : List Str} (harr : strArrayMatchPrefix (basename path) arr = true) :
      ∃ pre ∈ arr, pre <+: basename path := by
    obtain ⟨pre, hpre, hmatch⟩ := List.any_eq_true.mp harr
    exact ⟨pre, hpre, List.isPrefixOf_iff_prefix.mp hmatch⟩
  simp only [selected, matchBinaryFlags, matchLibraryFlags, Bool.or_eq_true, Bool.and_eq_true] at h
  rcases h with ⟨-, h⟩ | (((h | ⟨-, h⟩) | ⟨-, h⟩) | ⟨-, h⟩) | ⟨-, h⟩
  all_goals
    obtain ⟨pre, hpre, hmatch⟩ := hany h
    exact ⟨pre, by simp [hpre], hmatch⟩

/-- The name of a file that is mounted is a proper one. -/
theorem basename_of_selected {cnt : Container} {path : Str} (h : selected cnt path = true) :
    basename path ≠ [] ∧ '/' ∉ basename path ∧ basename path ≠ dot ∧ basename path ≠ dotdot := by
  obtain ⟨pre, hpre, hmatch⟩ := exists_prefix_of_selected h
  have hhead : ∀ pre ∈ utilityBins ++ dxcoreLibs ++ utilityLibs ++ computeLibs ++ videoLibs
      ++ graphicsLibs, pre.head? ≠ none ∧ pre.head? ≠ some '.' := by decide
  obtain ⟨hnone, hdot⟩ := hhead pre hpre
  have hne : pre ≠ [] := fun hnil => hnone (by rw [hnil]; rfl)
  obtain ⟨x, l, rfl⟩ := List.exists_cons_of_ne_nil hne
  obtain ⟨t, ht⟩ := hmatch
  have hx : x ≠ '.' := by simpa using hdot
  refine ⟨by rw [← ht]; simp, slash_notMem_basename path, ?_, ?_⟩
  · intro heq
    rw [← ht] at heq
    exact hx (List.cons.inj heq).1
  · intro heq
    rw [← ht] at heq
    exact hx (List.cons.inj heq).1

/-- The text of a name behind a resolved directory. -/
theorem pathAppend_resultText {root s : Str} {ds : List Name} {c : Name}
    (hds : ∀ d ∈ ds, d ≠ [] ∧ '/' ∉ d) (hc : c ≠ [] ∧ '/' ∉ c)
    (h : pathAppend (Resolve.resultText true root ds) c = (true, s)) :
    s = bare root ++ render (ds ++ [c]) := by
  obtain ⟨-, -, rfl⟩ := pathAppend_ok h
  obtain ⟨x, l, rfl⟩ := List.exists_cons_of_ne_nil hc.1
  have hx : x ≠ '/' := fun he => hc.2 (by simp [he])
  rw [if_neg hc.1, render_append, render_singleton]
  by_cases hnil : ds = []
  · rw [hnil, render_nil, Resolve.resultText, bare]
    by_cases hlast : root.getLast? = some '/'
    · have hroot := List.dropLast_append_getLast? _ hlast
      simp only [if_pos hlast, render_nil]
      conv_lhs => rw [← hroot]
      simp [joinText, hx]
    · simp [joinText, hx, hlast]
  · obtain ⟨d, ds', rfl⟩ := List.exists_cons_of_ne_nil hnil
    have hlast : (bare root ++ render (d :: ds')).getLast? ≠ some '/' := by
      rw [List.getLast?_append_of_ne_nil _ (by simp [render])]
      exact getLast?_render_ne hds
    rw [resultText_eq hnil, joinText, if_pos ⟨by simpa using hx, hlast⟩, if_neg (by simp [hx]),
      List.append_assoc]
    rfl

/-! ## One bind -/

section Bind

variable {w w₁ w₂ : World} {root src dst : Str} {R L : Loc} {ds : List Name} {c : Name}

/-- Behind what is bound a walk sees what it saw. -/
theorem seen_hollow_bind {S : Loc} (hS : (w.fs.inode S).isSome) (hL : (w.fs.inode L).isSome)
    (hkind : w.fs.isDir S = w.fs.isDir L) (hsrc : w.fs.resolve src = .ok S)
    (hdst : w.fs.resolve dst = .ok L) : Tree.Seen (w.fs.hollow L) (w.bind S L hS hL hkind).fs := by
  intro p i hi
  rw [Tree.inode_hollow] at hi
  split_ifs at hi with hbelow
  by_cases hp : L <+: p
  · obtain rfl : L = p := not_not.mp fun hne => hbelow ⟨hp, hne⟩
    obtain ⟨j, hj, hlink⟩ := Tree.inode_of_resolve hsrc
    obtain ⟨i', hi', hlink'⟩ := Tree.inode_of_resolve hdst
    obtain rfl := Option.some.inj (hi'.symm.trans hi)
    refine ⟨j, by rw [World.inode_bind_top, hj], ?_⟩
    rw [Tree.isDir, Tree.isDir, hj, hi'] at hkind
    have hdir : j.isDir = i'.isDir := hkind
    simp only [Inode.sight, hdir, hlink, hlink', Bool.false_eq_true, if_false]
  · exact ⟨i, by rw [World.inode_bind_of_not_prefix _ _ _ hp, hi], rfl⟩

/-- **After a sound bind** the destination leads where it was bound, and the directory is reached as
before. -/
theorem rooted_of_mount (h : Rooted w.fs root R ds)
    (hc : c ≠ [] ∧ '/' ∉ c ∧ c ≠ dot ∧ c ≠ dotdot) (htext : dst = bare root ++ render (ds ++ [c]))
    (hdst : w.fs.resolve dst = .ok L) (hhollow : (w.fs.hollow L).resolve dst = .ok L)
    (hm : w.mount src dst = .ok w₂) : w₂.fs.resolve dst = .ok L ∧ Rooted w₂.fs root R ds := by
  obtain ⟨S, L', hS, hL, hkind, hdst', hsrc, rfl⟩ := World.mount_eq_ok hm
  obtain rfl := Except.ok.inj (hdst.symm.trans hdst')
  have hseen := seen_hollow_bind hS hL hkind hsrc hdst
  have hle := w.fs.hollow_le L
  refine ⟨hseen.resolve hhollow, ?_⟩
  -- the walk to the root, and from there to the directory
  obtain ⟨m, hroot⟩ := h.walk
  obtain ⟨-, -, m', hwalk⟩ := Tree.resolve_eq_ok_iff.mp hhollow
  rw [htext, h.kernelComponents_snoc hc] at hwalk
  obtain ⟨k, D, hdir⟩ := Walk.walk_prefix hwalk
  obtain ⟨k', R', hroot'⟩ := Walk.walk_prefix hdir
  obtain ⟨rfl, rfl⟩ := Prod.mk.inj (Except.ok.inj ((hle.walk hroot').symm.trans hroot))
  have hD : D = R' ++ ds := by
    have hwalk' := hle.walk hdir
    rw [Walk.walk_append hroot] at hwalk'
    exact Tree.walk_names (fun d hd => (h.names d hd).2.2) h.linkFree hwalk'
  have hstart : ∃ i, (w.fs.hollow L).inode [] = some i ∧ i.isLink = false := by
    obtain ⟨i, hi, hid⟩ := (w.fs.hollow L).isDir_root
    exact ⟨i, hi, Inode.isLink_eq_false hid⟩
  have habove : ¬(L <+: R' ++ ds ∧ L ≠ R' ++ ds) := by
    obtain ⟨i, hi, -⟩ := Tree.inode_of_walk hdir hstart
    rw [hD, Tree.inode_hollow] at hi
    intro hbelow
    rw [if_pos hbelow] at hi
    cases hi
  refine ⟨⟨k', hseen.walk hroot'⟩, ?_, h.length, h.names, fun p hp hpre i hi => ?_⟩
  · obtain ⟨i, hi, -⟩ := Tree.inode_of_walk hroot' hstart
    obtain ⟨i', hi', hid⟩ := h.dir
    obtain rfl := Option.some.inj ((hle _ _ hi).symm.trans hi')
    exact Tree.isDir_iff.mp (hseen.isDir (Tree.isDir_iff.mpr ⟨i, hi, hid⟩))
  · by_cases hLp : L <+: R' ++ p
    · obtain rfl : L = R' ++ p := by
        by_contra hne
        refine habove ⟨hLp.trans ((List.prefix_append_right_inj R').mpr hpre), fun heq => hne ?_⟩
        have hle₁ := hLp.length_le
        have hle₂ := hpre.length_le
        refine hLp.eq_of_length ?_
        rw [heq, List.length_append] at hle₁ ⊢
        rw [List.length_append] at hle₁ ⊢
        omega
      rw [World.inode_bind_top] at hi
      obtain ⟨j, hj, hlink⟩ := Tree.inode_of_resolve hsrc
      obtain rfl := Option.some.inj (hj.symm.trans hi)
      exact hlink
    · rw [World.inode_bind_of_not_prefix _ _ _ hLp] at hi
      exact h.linkFree p hp hpre i hi

end Bind

/-! ## One file -/

section Turn

variable {env : Mishaps} {cnt : Container} {call : Call} {root src dst dst' path : Str} {i : ℕ}
  {w w' w₁ : World} {log log' : List (MountCall World)} {r : Except Step Str} {R : Loc}
  {ds : List Name}

/-- What a turn of the loop has done when it ends. -/
inductive Turn (env : Mishaps) (call : Call) (i : ℕ) (dst path : Str) (w : World) :
    Except Step Str → World → List (MountCall World) → Prop
  | early (e : Step) (w' : World) : Turn env call i dst path w (.error e) w' []
  | unbound (e : Step) (dst' : Str) (mode : Mode) (w₁ : World)
      (hdst : pathAppend dst (basename path) = (true, dst'))
      (hw₁ : w₁ = (w.fileCreate (env.creation ⟨call, .create, i⟩) dst' none mode).2) :
      Turn env call i dst path w (.error e) w₁ [⟨w₁, dst', true⟩]
  | bound (r : Except Step Str) (src' dst' : Str) (mode : Mode) (w₁ w₂ : World)
      (hdst : pathAppend dst (basename path) = (true, dst'))
      (hw₁ : w₁ = (w.fileCreate (env.creation ⟨call, .create, i⟩) dst' none mode).2)
      (hm : w₁.mount src' dst' = .ok w₂) :
      Turn env call i dst path w r w₂ [⟨w₁, dst', true⟩, ⟨w₂, dst', false⟩]

/-- **How a turn ends.** -/
theorem turn_of_mountFile
    (h : mountFile env.sys.traced call src dst i path (w, log) = (r, (w', log'))) :
    ∃ new, log' = log ++ new ∧ Turn env call i dst path w r w' new := by
  have hearly {e : Step} (hlog : log' = log) : ∃ new, log' = log ++ new
      ∧ Turn env call i dst path w (.error e) w' new :=
    ⟨[], by rw [hlog, List.append_nil], .early e w'⟩
  rcases bind_cases h with ⟨e, rfl, h₁⟩ | ⟨src', s₁, hsrc, h₁⟩
  · exact hearly (Prod.mk.inj (query_error h₁).2.2).2
  obtain ⟨-, rfl⟩ := query_ok hsrc
  rcases bind_cases h₁ with ⟨e, rfl, h₂⟩ | ⟨dst', s₂, hjoin, h₂⟩
  · exact hearly (Prod.mk.inj (query_error h₂).2.2).2
  obtain ⟨hdst, rfl⟩ := query_ok hjoin
  have hdst' : pathAppend dst (basename path) = (true, dst') := by
    split_ifs at hdst with hok
    exact Prod.ext hok (Option.some.inj hdst)
  rcases bind_cases h₂ with ⟨e, rfl, h₃⟩ | ⟨mode, s₃, hmode, h₃⟩
  · exact hearly (Prod.mk.inj (query_error h₃).2.2).2
  obtain ⟨-, rfl⟩ := query_ok hmode
  rcases bind_cases h₃ with ⟨e, rfl, h₄⟩ | ⟨_, s₄, hcreate, h₄⟩
  · exact hearly (Prod.mk.inj (Prod.mk.inj (attempt_error h₄).2).2).2.symm
  obtain ⟨-, rfl⟩ := Prod.mk.inj (attempt_ok hcreate)
  set w₁ := (env.sys.fileCreate ⟨call, .create, i⟩ dst' none mode w).2 with hw₁
  rcases bind_cases h₄ with ⟨e, rfl, h₅⟩ | ⟨_, s₅, hbind, h₅⟩
  · -- the bind fails
    obtain ⟨-, hfail⟩ := attempt_error h₅
    obtain ⟨hfalse, hs⟩ := Prod.mk.inj hfail
    obtain ⟨hw', hlog⟩ := Prod.mk.inj hs
    rcases mount_cases (Prod.ext hfalse hw') with ⟨-, rfl⟩ | ⟨hr, -⟩
    · exact ⟨_, hlog.symm, .unbound e dst' mode w₁ hdst' hw₁⟩
    · cases hr
  obtain ⟨htrue, rfl⟩ := Prod.mk.inj (attempt_ok hbind)
  have hm : w₁.mount src' dst' = .ok (env.sys.mount ⟨call, .bind, i⟩ src' dst' w₁).2 := by
    rcases mount_cases (Prod.ext htrue rfl) with ⟨hr, -⟩ | ⟨-, hm⟩
    · cases hr
    · exact hm
  set w₂ := (env.sys.mount ⟨call, .bind, i⟩ src' dst' w₁).2 with hw₂
  -- the remount is made whatever comes of it
  suffices hend : (w', log') = (w₂, log ++ [⟨w₁, dst', true⟩] ++ [⟨w₂, dst', false⟩]) by
    obtain ⟨rfl, rfl⟩ := Prod.mk.inj hend
    exact ⟨_, List.append_assoc _ _ _, .bound r src' dst' mode w₁ w₂ hdst' hw₁ hm⟩
  rcases bind_cases h₅ with ⟨e, rfl, h₆⟩ | ⟨_, s₆, hremount, h₆⟩
  · exact (Prod.mk.inj (attempt_error h₆).2).2.symm
  obtain ⟨-, rfl⟩ := Prod.mk.inj (attempt_ok hremount)
  rcases bind_cases h₆ with ⟨e, rfl, h₇⟩ | ⟨_, s₇, hdup, h₇⟩
  · exact (Prod.mk.inj (attempt_error h₇).2).2.symm
  · obtain rfl := (Prod.mk.inj (attempt_ok hdup)).2
    exact (Prod.mk.inj h₇).2.symm

/-- What `file_create` leaves of a directory reached below the root: a name in it is no link, or it
was a link and nothing has changed. -/
theorem rooted_of_create {c : Name} {mode : Mode} {e : Step} (h : Rooted w.fs root R ds)
    (hc : c ≠ [] ∧ '/' ∉ c ∧ c ≠ dot ∧ c ≠ dotdot) (htext : dst = bare root ++ render (ds ++ [c]))
    (hlen : dst.length < PATH_MAX) (hw₁ : w₁ = (w.fileCreate (env.creation e) dst none mode).2) :
    Rooted w₁.fs root R (ds ++ [c])
      ∨ w₁ = w ∧ w.fs.resolveNoFollow dst = .ok (R ++ (ds ++ [c]))
        ∧ ∃ i, w.fs.inode (R ++ (ds ++ [c])) = some i ∧ i.isLink = true := by
  by_cases hfree : ∀ i, w.fs.inode (R ++ (ds ++ [c])) = some i → i.isLink = false
  · have hrooted := h.snoc hc hfree
    refine .inl (hrooted.grown (T := R ++ (ds ++ [c])) ?_)
    rw [hw₁, htext]
    exact (World.grown_fileCreate hrooted).fs
  · simp only [not_forall, Bool.not_eq_false] at hfree
    obtain ⟨i, hi, hlink⟩ := hfree
    have hfound : w.fs.resolveNoFollow dst = .ok (R ++ (ds ++ [c])) := by
      rw [htext]
      exact h.resolveNoFollow_of_inode hc (htext ▸ hlen) (by rw [hi]; rfl)
    have hlast : dst.getLast? ≠ some '/' := by
      rw [htext, List.getLast?_append_of_ne_nil _ (by simp [render])]
      refine getLast?_render_ne fun d hd => ?_
      rcases List.mem_append.mp hd with hd | hd
      · exact ⟨(h.names d hd).1, (h.names d hd).2.1⟩
      · rw [List.mem_singleton.mp hd]
        exact ⟨hc.1, hc.2.1⟩
    refine .inr ⟨?_, hfound, i, hi, hlink⟩
    rw [hw₁]
    exact World.fileCreate_of_exists (by rw [World.ftwStart_of_getLast? hlast, hfound])

/-- A sound bind in such a directory is confined. -/
theorem confined_of_create {c : Name} {mode : Mode} {e : Step} (h : Rooted w.fs root R ds)
    (hc : c ≠ [] ∧ '/' ∉ c ∧ c ≠ dot ∧ c ≠ dotdot) (htext : dst = bare root ++ render (ds ++ [c]))
    (hlen : dst.length < PATH_MAX) (hw₁ : w₁ = (w.fileCreate (env.creation e) dst none mode).2)
    (hsound : MountCall.Sound R ⟨w₁, dst, true⟩) :
    MountCall.Confined R ⟨w₁, dst, true⟩ ∧ Rooted w₁.fs root R ds := by
  rcases rooted_of_create h hc htext hlen hw₁ with hrooted | ⟨rfl, hfound, i, hi, hlink⟩
  · refine ⟨fun p hp => ?_, hrooted.of_prefix (List.prefix_append ds [c])⟩
    have hp' : w₁.fs.resolve dst = .ok p := hp
    rw [htext] at hp'
    rw [hrooted.resolve (by simp) hp']
    exact List.prefix_append R _
  · exact ⟨fun p hp => (hsound p hp).1 _ i hfound hi hlink, h⟩

/-- **A turn whose binds are sound is confined**, and leaves the directory reached as before. -/
theorem Turn.confined {new : List (MountCall World)} (hturn : Turn env call i dst path w r w' new)
    (h : Rooted w.fs root R ds) (hdst : dst = Resolve.resultText true root ds)
    (hlen : dst.length < PATH_MAX) (hsel : selected cnt path = true)
    (hsound : ∀ t ∈ new, t.binds = true → t.Sound R) :
    (∀ t ∈ new, t.Confined R) ∧ ∀ m, r = .ok m → Rooted w'.fs root R ds := by
  have hc := basename_of_selected hsel
  have htext {dst'} (hdst' : pathAppend dst (basename path) = (true, dst')) :
      dst' = bare root ++ render (ds ++ [basename path]) ∧ dst'.length < PATH_MAX := by
    refine ⟨?_, (pathAppend_ok hdst').2.1 hlen⟩
    rw [hdst] at hdst'
    exact pathAppend_resultText (fun d hd => ⟨(h.names d hd).1, (h.names d hd).2.1⟩)
      ⟨hc.1, hc.2.1⟩ hdst'
  cases hturn with
  | early e w' => exact ⟨nofun, nofun⟩
  | unbound e dst' mode w₁ hdst' hw₁ =>
    obtain ⟨htext, hlen'⟩ := htext hdst'
    obtain ⟨hconf, -⟩ := confined_of_create h hc htext hlen' hw₁ (hsound _ (by simp) rfl)
    refine ⟨fun t ht => ?_, nofun⟩
    rwa [List.mem_singleton.mp ht]
  | bound r src' dst' mode w₁ w₂ hdst' hw₁ hm =>
    obtain ⟨htext, hlen'⟩ := htext hdst'
    have hs := hsound ⟨w₁, dst', true⟩ (by simp) rfl
    obtain ⟨hconf, hrooted⟩ := confined_of_create h hc htext hlen' hw₁ hs
    obtain ⟨S, L, -, -, -, hL, -⟩ := World.mount_eq_ok hm
    obtain ⟨hremount, hrooted'⟩ := rooted_of_mount hrooted hc htext hL (hs L hL).2 hm
    refine ⟨fun t ht => ?_, fun _ _ => hrooted'⟩
    rcases List.mem_cons.mp ht with rfl | ht
    · exact hconf
    · rw [List.mem_singleton.mp ht]
      intro p hp
      obtain rfl := Except.ok.inj (hremount.symm.trans hp)
      exact hconf L hL

end Turn

/-! ## The whole run -/

section Run

variable {env : Mishaps} {cnt : Container} {call : Call} {root src dst dir : Str} {i : ℕ}
  {w w' : World} {log log' : List (MountCall World)} {paths mnt : List Str}
  {r : Except Step (List Str)} {R : Loc} {ds : List Name}

/-- Unmounting makes no call of `mount`. -/
theorem unmountAll_traced (mnt : List Str) (s : World × List (MountCall World)) :
    (env.sys.traced.unmountAll mnt s).2 = s.2 := by
  have hunmount (p : Str) (s : World × List (MountCall World)) :
      (env.sys.traced.unmount (some p) s).2 = s.2 := by
    rw [Sys.unmount]
    split_ifs <;> rfl
  induction mnt generalizing s with
  | nil => rfl
  | cons p mnt ih =>
    rw [Sys.unmountAll, List.foldl_cons]
    exact (ih _).trans (hunmount p s)

/-- **How the loop goes on**: not at all, past a file, or after a turn. -/
theorem loop_cases {path : Str}
    (h : mountFilesLoop env.sys.traced cnt call src dst i mnt (path :: paths) (w, log)
      = (r, (w', log'))) :
    (mountFilesLoop env.sys.traced cnt call src dst (i + 1) mnt paths (w, log) = (r, (w', log')))
      ∨ selected cnt path = true ∧ ∃ new, ((∃ e w₁, Turn env call i dst path w (.error e) w₁ new)
          ∧ log' = log ++ new
        ∨ ∃ m w₁, Turn env call i dst path w (.ok m) w₁ new
          ∧ mountFilesLoop env.sys.traced cnt call src dst (i + 1) (mnt ++ [m]) paths
            (w₁, log ++ new) = (r, (w', log'))) := by
  rw [mountFilesLoop] at h
  split_ifs at h with hsel
  · refine .inr ⟨hsel, ?_⟩
    rcases bind_cases h with ⟨e, rfl, h₁⟩ | ⟨m, ⟨w₁, log₁⟩, hm, h₁⟩
    · obtain ⟨⟨w₁, log₁⟩, hfail, hclean⟩ := onError_error h₁
      obtain ⟨new, rfl, hturn⟩ := turn_of_mountFile hfail
      refine ⟨new, .inl ⟨⟨e, w₁, hturn⟩, ?_⟩⟩
      have hlog : (env.sys.traced.unmountAll mnt (w₁, log ++ new)).2 = log ++ new :=
        unmountAll_traced mnt _
      rw [← hclean] at hlog
      exact hlog
    · obtain ⟨new, rfl, hturn⟩ := turn_of_mountFile (onError_ok hm)
      exact ⟨new, .inr ⟨m, w₁, hturn, h₁⟩⟩
  · exact .inl h

/-- Calls are never forgotten. -/
theorem loop_log
    (h : mountFilesLoop env.sys.traced cnt call src dst i mnt paths (w, log) = (r, (w', log'))) :
    log <+: log' := by
  induction paths generalizing i mnt w log with
  | nil =>
    obtain ⟨-, hs⟩ := Prod.mk.inj h
    exact (Prod.mk.inj hs).2 ▸ List.prefix_rfl
  | cons path paths ih =>
    rcases loop_cases h with h | ⟨-, new, ⟨-, rfl⟩ | ⟨m, w₁, -, h⟩⟩
    · exact ih h
    · exact List.prefix_append log new
    · exact (List.prefix_append log new).trans (ih h)

/-- **The loop is confined** when its binds are sound. -/
theorem loop_confined
    (h : mountFilesLoop env.sys.traced cnt call src dst i mnt paths (w, log) = (r, (w', log')))
    (hrooted : Rooted w.fs root R ds) (hdst : dst = Resolve.resultText true root ds)
    (hlen : dst.length < PATH_MAX) (hlog : ∀ t ∈ log, t.Confined R)
    (hsound : ∀ t ∈ log', t.binds = true → t.Sound R) : ∀ t ∈ log', t.Confined R := by
  induction paths generalizing i mnt w log with
  | nil =>
    obtain ⟨-, hs⟩ := Prod.mk.inj h
    rw [← (Prod.mk.inj hs).2]
    exact hlog
  | cons path paths ih =>
    rcases loop_cases h with h | ⟨hsel, new, ⟨⟨e, w₁, hturn⟩, rfl⟩ | ⟨m, w₁, hturn, h⟩⟩
    · exact ih h hrooted hlog
    · obtain ⟨hnew, -⟩ := hturn.confined hrooted hdst hlen hsel
        fun t ht => hsound t (List.mem_append_right log ht)
      exact fun t ht => (List.mem_append.mp ht).elim (hlog t) (hnew t)
    · have hsub := (loop_log h).subset
      obtain ⟨hnew, hrooted'⟩ := hturn.confined hrooted hdst hlen hsel
        fun t ht => hsound t (hsub (List.mem_append_right log ht))
      refine ih h (hrooted' m rfl) fun t ht => ?_
      exact (List.mem_append.mp ht).elim (hlog t) (hnew t)

/-- The directory `mount_files` mounts into is reached as before once it is created. -/
theorem rooted_createDir {k : Creation} {mode : Mode} (hrooted : Rooted w.fs root R ds)
    (hroot : Resolve.openRoot w.fs root = .ok R) (hdst : dst = Resolve.resultText true root ds) :
    Rooted (w.fileCreate k dst none mode).2.fs root R ds := by
  rcases List.eq_nil_or_concat ds with rfl | ⟨ds, c, rfl⟩
  · -- the root is there
    have hdst' : dst = root := by
      rw [hdst]
      simp [Resolve.resultText]
    rw [Resolve.openRoot] at hroot
    split at hroot
    · cases hroot
    next p hp =>
    split_ifs at hroot with hdir
    obtain ⟨T, hT⟩ := World.exists_ftwStart hp hdir
    rw [hdst', World.fileCreate_of_exists hT]
    exact hrooted
  · rw [List.concat_eq_append] at hrooted hdst ⊢
    rw [hdst, resultText_eq (by simp)]
    exact hrooted.grown (World.grown_fileCreate hrooted).fs

/-- **`mount_files` mounts inside the root**: in every run whose binds are sound every destination
it passes to `mount` leads into the subtree. -/
theorem mountFiles_confined (habs : cnt.rootfs.head? = some '/')
    (hR : Resolve.openRoot w.fs cnt.rootfs = .ok R)
    (h : mountFiles env.sys.traced cnt call root dir paths (w, []) = (r, (w', log)))
    (hsound : ∀ t ∈ log, t.binds = true → t.Sound R) : ∀ t ∈ log, t.Confined R := by
  have hnone {log₁ : List (MountCall World)} (hnil : log₁ = []) : ∀ t ∈ log₁, t.Confined R := by
    rw [hnil]
    exact nofun
  rcases bind_cases h with ⟨e, rfl, h₁⟩ | ⟨src, s₁, hsrc, h₁⟩
  · exact hnone (Prod.mk.inj (query_error h₁).2.2).2
  obtain ⟨-, rfl⟩ := query_ok hsrc
  rcases bind_cases h₁ with ⟨e, rfl, h₂⟩ | ⟨dst, s₂, hquery, h₂⟩
  · exact hnone (Prod.mk.inj (query_error h₂).2.2).2
  have hresolved : env.sys.pathResolveFull ⟨call, .resolve, 0⟩ [] cnt.rootfs dir w = (true, dst) :=
    (Sys.resolve_ok hquery).1
  obtain rfl := (Sys.resolve_ok hquery).2
  rcases bind_cases h₂ with ⟨e, rfl, h₃⟩ | ⟨_, s₃, hcreate, h₃⟩
  · exact hnone (Prod.mk.inj (Prod.mk.inj (attempt_error h₃).2).2).2.symm
  obtain ⟨-, rfl⟩ := Prod.mk.inj (attempt_ok hcreate)
  rcases bind_cases h₃ with ⟨e, rfl, h₄⟩ | ⟨_, s₄, halloc, h₄⟩
  · exact hnone (Prod.mk.inj (Prod.mk.inj (attempt_error h₄).2).2).2.symm
  obtain ⟨-, rfl⟩ := Prod.mk.inj (attempt_ok halloc)
  obtain ⟨R', ds, hrooted, hroot, htext, hlen⟩ := rooted_of_resolved habs hresolved
  obtain rfl := Except.ok.inj (hR.symm.trans hroot)
  exact loop_confined h₄ (rooted_createDir hrooted hroot htext) htext hlen nofun hsound

end Run

/-! ## A link under the name of a library -/

/-- A host with a library and a file `p`, and a container at `/c` with a directory `l`; `i` is what
is in it under the name of the library. -/
def hostWith (i : Inode) (hlink : i.isLink = true → i.target ≠ []) : World where
  fs := Tree.add (.ofNodes [([], { mode := ⟨.dir, 0x1ed⟩ }), ([['c']], { mode := ⟨.dir, 0x1ed⟩ }),
    ([['c'], ['l']], { mode := ⟨.dir, 0x1ed⟩ }), ([['p']], { mode := ⟨.reg, 0x1a4⟩, size := 9 }),
    ([['l', 'i', 'b', 'd', 'r', 'm', '.', 's', 'o']], { mode := ⟨.reg, 0x1a4⟩, size := 5 })]
    (by decide)) [['c'], ['l']] ['l', 'i', 'b', 'd', 'r', 'm', '.', 's', 'o'] i ⟨_, rfl, rfl⟩
    (by decide) hlink
  mounts := []

/-- A container that is given the libraries of `utility`. -/
def drmContainer : Container where
  flags := OPT_UTILITY_LIBS
  rootfs := ['/', 'c']
  binsDir := []
  libsDir := ['/', 'l']
  libs32Dir := []
  drisDir := []
  libs := []

/-- Mounting the library. -/
def mountDrm (w : World) : Except Step (List Str) × World × List (MountCall World) :=
  mountFiles fortunate.sys.traced drmContainer .libs ['/'] ['/', 'l']
    [['/', 'l', 'i', 'b', 'd', 'r', 'm', '.', 's', 'o']] (w, [])

/-- The container has an empty file there. -/
def fileHost : World := hostWith { mode := ⟨.reg, 0x1ed⟩ } nofun

/-- The container has a link to `/p` there. -/
def linkHost : World := hostWith { mode := ⟨.lnk, 0x1ff⟩, size := 2, target := ['/', 'p'] } nofun

/-- A destination that no link ends, and that resolves the same with nothing below where it is. -/
def MountCall.settled (t : MountCall World) : Bool :=
  match t.world.fs.resolve t.dst with
  | .error _ => true
  | .ok p =>
    (t.world.fs.resolveNoFollow t.dst).toOption.all (fun q =>
      (t.world.fs.inode q).all fun i => !i.isLink)
    && decide ((t.world.fs.hollow p).resolve t.dst = .ok p)

theorem mountFiles_confined_fileHost :
    (mountDrm fileHost).2.2.length = 2 ∧ ∀ t ∈ (mountDrm fileHost).2.2, t.Confined [['c']] := by
  have hroot : Resolve.openRoot fileHost.fs drmContainer.rootfs = .ok [['c']] := by decide +kernel
  -- said of any outcome, so that the call is not run for it
  have houtcome : ∀ o : Except Step (List Str) × World × List (MountCall World),
      o = (o.1, (o.2.1, o.2.2)) := fun _ => rfl
  refine ⟨by decide +kernel, mountFiles_confined rfl hroot (houtcome (mountDrm fileHost)) ?_⟩
  intro t ht _ p hp
  have hall : (mountDrm fileHost).2.2.all MountCall.settled = true := by decide +kernel
  have hone := List.all_eq_true.mp hall t ht
  rw [MountCall.settled, hp] at hone
  obtain ⟨hfree, hhollow⟩ := Bool.and_eq_true_iff.mp hone
  refine ⟨fun q i hq hi hlink => ?_, of_decide_eq_true hhollow⟩
  rw [hq] at hfree
  simp [Except.toOption, hi, hlink] at hfree

/-- **The library is mounted over `/p`**, outside the root. -/
theorem mountFiles_escapes :
    ∃ t ∈ (mountDrm linkHost).2.2, t.world.fs.resolve t.dst = .ok [['p']]
      ∧ ¬t.Confined [['c']] := by
  have hlog : (mountDrm linkHost).2.2.map (fun t => t.world.fs.resolve t.dst)
      = [.ok [['p']], .ok [['p']]] := by decide +kernel
  have hmem : (Except.ok [['p']] : Except Errno Loc)
      ∈ (mountDrm linkHost).2.2.map fun t => t.world.fs.resolve t.dst := by
    rw [hlog]
    exact List.mem_cons_self
  obtain ⟨t, ht, hp⟩ := List.mem_map.mp hmem
  exact ⟨t, ht, hp, fun hconf => absurd (hconf _ hp) (by decide)⟩

end Mount
