import XdxContainer.Mount.Code
import XdxContainer.Path.Widened

/-!
# Mount/Live — the mount functions on a mount namespace

`Mishaps` says which calls fail whatever the tree says; otherwise the calls of the mount functions
are those of `Fs.World`, and paths are resolved by `path_resolve_full` on its tree.

    dst = rootfs ++ "/a/b",  R where rootfs leads,  no link on the way   (`rooted_of_resolved`)
-/

open Paths Fs Fallible

namespace Mount

/-- What fails whatever the tree says. -/
structure Mishaps where
  denies : Step → Bool
  creation : Step → Creation

/-- The system on a mount namespace. -/
def Mishaps.sys (env : Mishaps) : Sys World where
  pathResolveFull e buf root path w :=
    if env.denies e then (false, buf)
    else
      match Resolve.pathResolveFull w.fs buf root path with
      | (.ok (), s) => (true, s)
      | (.error _, s) => (false, s)
  fileMode e path w := if env.denies e then none else (w.stat path).toOption.map (·.mode)
  xstat e path w := if env.denies e then none else (w.stat path).toOption.map (·.rdev)
  fileCreate e path data mode w := w.fileCreate (env.creation e) path data mode
  mount e src dst w :=
    if env.denies e then (false, w)
    else
      match w.mount src dst with
      | .ok w' => (true, w')
      | .error _ => (false, w)
  remount e dst _ w :=
    (!env.denies e && match w.fs.resolve dst with
      | .ok p => (w.mountAt p).isSome
      | .error _ => false, w)
  alloc e _ := !env.denies e
  umount2 path w := w.umount2 path
  fileRemove path w := w.fileRemove path

/-- Nothing fails but what the tree makes fail. -/
def fortunate : Mishaps where
  denies _ := false
  creation _ := { denies := fun _ => false, umask := 0x12, dirSize := 4096 }

variable {env : Mishaps} {w : World} {e : Step} {root path dst : Str}

/-- What a bind has done. -/
theorem mount_cases {w' : World} {src : Str} {r : Bool} (h : env.sys.mount e src dst w = (r, w')) :
    r = false ∧ w' = w ∨ r = true ∧ w.mount src dst = .ok w' := by
  change (if env.denies e then (false, w) else
    match w.mount src dst with
    | .ok w' => (true, w')
    | .error _ => (false, w)) = (r, w') at h
  by_cases hdenies : env.denies e = true
  · rw [if_pos hdenies] at h
    obtain ⟨rfl, rfl⟩ := Prod.mk.inj h
    exact .inl ⟨rfl, rfl⟩
  · rw [if_neg hdenies] at h
    split at h
    · next w₂ hw₂ =>
      obtain ⟨rfl, rfl⟩ := Prod.mk.inj h
      exact .inr ⟨rfl, hw₂⟩
    · obtain ⟨rfl, rfl⟩ := Prod.mk.inj h
      exact .inl ⟨rfl, rfl⟩

/-- The text of a resolved path with components. -/
theorem resultText_eq {cs : List Name} (hne : cs ≠ []) :
    Resolve.resultText true root cs = bare root ++ render cs := by
  obtain ⟨c, cs', rfl⟩ := List.exists_cons_of_ne_nil hne
  rw [Resolve.resultText, if_pos rfl, bare]
  split_ifs with hlast
  · have hroot := List.dropLast_append_getLast? _ hlast
    have hrender : render (c :: cs') = '/' :: (render (c :: cs')).tail := by simp [render]
    conv_rhs => rw [hrender]
    conv_lhs => rw [← hroot]
    simp
  · rfl

/-- A path the host resolves is resolved on its tree. -/
theorem pathResolveFull_of_resolved
    (h : env.sys.pathResolveFull e [] root path w = (true, dst)) :
    Resolve.pathResolveFull w.fs [] root path = (.ok (), dst) := by
  change (if env.denies e then (false, []) else
    match Resolve.pathResolveFull w.fs [] root path with
    | (.ok (), s) => (true, s)
    | (.error _, s) => (false, s)) = (true, dst) at h
  by_cases hdenies : env.denies e = true
  · rw [if_pos hdenies] at h
    cases (Prod.mk.inj h).1
  rw [if_neg hdenies] at h
  split at h
  · next s heq => rw [heq, (Prod.mk.inj h).2]
  · cases (Prod.mk.inj h).1

/-- **The text of a path that was resolved**, below a root that leads to `R`. -/
theorem rooted_of_resolved (habs : root.head? = some '/')
    (h : env.sys.pathResolveFull e [] root path w = (true, dst)) :
    ∃ R cs, Rooted w.fs root R cs ∧ Resolve.openRoot w.fs root = .ok R
      ∧ dst = Resolve.resultText true root cs ∧ dst.length < PATH_MAX := by
  obtain ⟨R, m, st, hroot, hwalk, hnames, htext⟩ :=
    Resolve.doPathResolve_walk (pathResolveFull_of_resolved h)
  obtain ⟨hdir, hlen, hrootWalk⟩ := Resolve.walk_of_openRoot hroot
  exact ⟨R, st.comps, ⟨hrootWalk, hdir, hlen, hnames, (Resolve.resolved_of_walk hwalk).linkFree⟩,
    hroot, Resolve.pathJoin_render habs htext, length_pathJoin_lt htext⟩

end Mount
