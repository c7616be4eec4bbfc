import XdxContainer.Fs.Create
import XdxContainer.Data.CString

/-!
# Fs/Ancestors — `make_ancestors` in its buffer, and what it makes

    │ / │ a │ / │ b │NUL│    stat: missing ──cut──▸ │ / │ a │NUL│ b │NUL│    stat: missing ──▸ …
    │ / │ a │ / │ b │NUL│    mkdir        ◂──'/'──  │ / │ a │NUL│ b │NUL│    mkdir        ◂── …

The routine cuts the path at its last slash for the call it makes of itself and writes the slash
back (`makeAncestorsIn_eq`: it is the routine on strings).  What it has made is told by the location
its path then leads to (`Made`), one component at a time.

* `makeAncestorsIn_makesMissing` — when it returns 0, and that it has made what was missing only.
-/

open Paths Walk CString

namespace Fs

/-- No call fails but for what the tree says. -/
def Creation.granting (umask : BitVec 12) (dirSize : ℕ) : Creation where
  denies _ := false
  umask := umask
  dirSize := dirSize

namespace World

/-! ## The routine in its buffer -/

/-- The `errno` that `make_ancestors` goes by; none where it stops at a directory. -/
def ancestorErrno (path : Str) (w : World) : Option Errno :=
  match w.stat path with
  | .ok s => if s.isDir then none else some .ENOTDIR
  | .error e => some e

/-- A call of `mkdir` in `make_ancestors`: whether it returns 0, and the world then. -/
def mkdirAncestor (k : Creation) (path : Str) (perm : BitVec 12) (w : World) : Bool × World :=
  if k.denies (.ancestor path) then (false, w)
  else
    match w.mkdir path perm k.dirSize with
    | .ok w' => (true, w')
    | .error _ => (false, w)

/-- The routine's call of itself: the path is cut at its last slash, and the slash written back
after a success only. -/
def ancestorsBefore (again : List Char → World → Bool × List Char × World) (buf : List Char)
    (w : World) : Bool × List Char × World :=
  match strrchr buf '/' with
  | none => (true, buf, w)
  | some p =>
    match again (buf.set p NUL) w with
    | (true, buf', w') => (true, buf'.set p '/', w')
    | (false, buf', w') => (false, buf', w')

/-- `make_ancestors`, for at most a number of calls: whether it returns 0, and the buffer and the
world then. -/
def makeAncestorsIn (k : Creation) (perm : BitVec 12) :
    ℕ → List Char → World → Bool × List Char × World
  | 0, buf, w => (false, buf, w)
  | n + 1, buf, w =>
    let path := CString.str buf
    if path = [] ∨ path.head? = some '.' then (true, buf, w)
    else
      match w.ancestorErrno path with
      | none => (true, buf, w)
      | some errno =>
        if errno ≠ .ENOENT then (false, buf, w)
        else
          match ancestorsBefore (makeAncestorsIn k perm n) buf w with
          | (true, buf', w') =>
            let (ok, w'') := w'.mkdirAncestor k (CString.str buf') (perm &&& ~~~k.umask)
            (ok, buf', w'')
          | (false, buf', w') => (false, buf', w')

variable {w w' : World} {k : Creation} {perm : BitVec 12} {n : ℕ} {path s q : Str} {p : Loc}
  {e : Errno}

/-- What a path that leads somewhere is in the way of. -/
theorem ancestorErrno_of_ok (h : w.fs.resolve path = .ok p) :
    w.ancestorErrno path = if w.fs.isDir p then none else some .ENOTDIR := by
  obtain ⟨i, hi, -⟩ := Tree.inode_of_resolve h
  rw [ancestorErrno, stat_of_resolve h hi, Tree.isDir, hi]
  rfl

theorem ancestorErrno_of_error (h : w.fs.resolve path = .error e) :
    w.ancestorErrno path = some e := by
  have hstat : w.stat path = .error e := by
    rw [stat, h]
    rfl
  rw [ancestorErrno, hstat]

/-! ### One call of it -/

section Call

variable (hstop : ¬(path = [] ∨ path.head? = some '.'))

include hstop

/-- A directory that is there is not made. -/
theorem makeAncestors_of_ok (hres : w.fs.resolve path = .ok p) :
    w.makeAncestors k perm (n + 1) path = (w.fs.isDir p, w) := by
  rw [makeAncestors, if_neg hstop, hres]

theorem makeAncestors_of_error (hres : w.fs.resolve path = .error e) (he : e ≠ .ENOENT) :
    w.makeAncestors k perm (n + 1) path = (false, w) := by
  rw [makeAncestors, if_neg hstop, hres]
  exact if_pos he

/-- A missing directory is made behind its ancestors. -/
theorem makeAncestors_of_missing (hres : w.fs.resolve path = .error .ENOENT) :
    w.makeAncestors k perm (n + 1) path =
      let r := (cutLast path).elim (true, w) (w.makeAncestors k perm n ·)
      if r.1 then r.2.mkdirAncestor k path perm else (false, r.2) := by
  rw [makeAncestors, if_neg hstop, hres]
  rcases cutLast path with _ | q
  · by_cases hdenied : k.denies (.ancestor path) = true
    · simp [mkdirAncestor, hdenied]
    · simp only [mkdirAncestor, hdenied]
      rfl
  · dsimp only [Option.elim]
    rcases w.makeAncestors k perm n q with ⟨_ | _, w'⟩
    · rfl
    · by_cases hdenied : k.denies (.ancestor path) = true
      · simp [mkdirAncestor, hdenied]
      · simp only [mkdirAncestor, hdenied]
        rfl

end Call

/-- A directory that can be made is made. -/
theorem mkdirAncestor_of_ok {umask : BitVec 12} {dirSize : ℕ}
    (h : w.mkdir path perm dirSize = .ok w') :
    w.mkdirAncestor (.granting umask dirSize) path perm = (true, w') := by
  rw [mkdirAncestor, if_neg (by simp [Creation.granting])]
  dsimp only [Creation.granting]
  rw [h]

/-- A directory that cannot be made is the error. -/
theorem mkdirAncestor_of_error {umask : BitVec 12} {dirSize : ℕ}
    (h : w.mkdir path perm dirSize = .error e) :
    w.mkdirAncestor (.granting umask dirSize) path perm = (false, w) := by
  rw [mkdirAncestor, if_neg (by simp [Creation.granting])]
  dsimp only [Creation.granting]
  rw [h]

/-- **The routine in its buffer is the one on strings**, and where it returns 0 the buffer is as it
was. -/
theorem makeAncestorsIn_eq (k : Creation) (perm : BitVec 12) (n : ℕ) (hs : NUL ∉ s)
    (t : List Char) (w : World) : ∃ buf,
      w.makeAncestorsIn k perm n (s ++ NUL :: t)
        = ((w.makeAncestors k (perm &&& ~~~k.umask) n s).1, buf,
          (w.makeAncestors k (perm &&& ~~~k.umask) n s).2)
      ∧ ((w.makeAncestors k (perm &&& ~~~k.umask) n s).1 = true → buf = s ++ NUL :: t) := by
  induction n generalizing s t w with
  | zero => exact ⟨_, rfl, by simp [makeAncestors]⟩
  | succ n ih =>
    rw [makeAncestorsIn, str_append_nul hs]
    dsimp only
    by_cases hstop : s = [] ∨ s.head? = some '.'
    · rw [if_pos hstop, makeAncestors, if_pos hstop]
      exact ⟨_, rfl, fun _ => rfl⟩
    rw [if_neg hstop]
    rcases hres : w.fs.resolve s with e | p
    · rw [ancestorErrno_of_error hres]
      dsimp only
      by_cases he : e = .ENOENT
      · subst he
        rw [makeAncestors_of_missing hstop hres, if_neg (by simp)]
        by_cases hmem : '/' ∈ s
        · obtain ⟨x, c, rfl, hc⟩ := exists_eq_append_slash hmem
          have hx : NUL ∉ x := fun hx => hs (List.mem_append_left _ hx)
          obtain ⟨buf, heq, hbuf⟩ := ih hx (c ++ NUL :: t) w
          rw [cutLast_append_slash x hc, ancestorsBefore, strrchr_append (str_append_nul hs t) hc]
          dsimp only [Option.elim]
          rw [List.append_assoc, List.cons_append, set_append, heq]
          rcases hr : w.makeAncestors k (perm &&& ~~~k.umask) n x with ⟨_ | _, w'⟩
          · exact ⟨buf, rfl, by simp⟩
          · rw [hr] at hbuf
            rw [hbuf rfl]
            dsimp only
            rw [set_append, ← List.cons_append, ← List.append_assoc, str_append_nul hs]
            exact ⟨_, rfl, fun _ => rfl⟩
        · have hcut : cutLast s = none := if_neg hmem
          have hrchr : strrchr (s ++ NUL :: t) '/' = none :=
            strrchr_of_notMem (by rwa [str_append_nul hs])
          rw [hcut, ancestorsBefore, hrchr]
          dsimp only [Option.elim]
          rw [str_append_nul hs, if_pos rfl]
          exact ⟨_, rfl, fun _ => rfl⟩
      · rw [makeAncestors_of_error hstop hres he, if_pos he]
        exact ⟨_, rfl, by simp⟩
    · rw [ancestorErrno_of_ok hres, makeAncestors_of_ok hstop hres]
      rcases w.fs.isDir p
      · exact ⟨_, rfl, by simp⟩
      · exact ⟨_, rfl, fun _ => rfl⟩

end World

/-! ## Where a path leads -/

/-- A component of a path that is a name, if not a short one. -/
def IsComponent (c : Name) : Prop := c ≠ [] ∧ '/' ∉ c ∧ c ≠ dot ∧ c ≠ dotdot

instance (c : Name) : Decidable (IsComponent c) := inferInstanceAs (Decidable (_ ∧ _))

namespace Tree

variable {fs : Tree} {cs ds : List Name} {c : Name} {m : ℕ} {p q D : Loc} {i : Inode} {e : Errno}

/-- The kernel's walk over components from `/`. -/
def walkAll (fs : Tree) (cs : List Name) : Except Errno (ℕ × Loc) :=
  walk (fs.walkStep kernelComponents []) .ELOOP linkLimit cs []

/-- A walk by one component more. -/
theorem walkAll_snoc (h : fs.walkAll ds = .ok (m, D)) (c : Name) : fs.walkAll (ds ++ [c])
    = walk (fs.walkStep kernelComponents []) .ELOOP m [c] D :=
  walk_append h [c]

/-- A walk that fails goes nowhere. -/
theorem walkAll_snoc_error (h : fs.walkAll ds = .error e) (c : Name) :
    fs.walkAll (ds ++ [c]) = .error e :=
  walk_append_error h [c]

/-- A walk to a name that is missing. -/
theorem walkAll_snoc_missing (h : fs.walkAll ds = .ok (m, D)) (hdir : fs.IsDir D)
    (hc : IsComponent c) (hlong : c.length ≤ NAME_MAX) (hnone : fs.inode (D ++ [c]) = none) :
    fs.walkAll (ds ++ [c]) = .error .ENOENT := by
  obtain ⟨-, -, hdot, hup⟩ := hc
  have hstep : fs.walkStep kernelComponents [] D c = .fail .ENOENT := by
    rw [walkStep_name (isDir_iff.mpr hdir) hdot hup (Nat.not_lt.mpr hlong), hnone]
  rw [walkAll_snoc h, walk_fail hstep]

/-- A walk to what is no link. -/
theorem walkAll_snoc_of_inode (h : fs.walkAll ds = .ok (m, D)) (hc : IsComponent c)
    (hi : fs.inode (D ++ [c]) = some i) (hlink : i.isLink = false) :
    fs.walkAll (ds ++ [c]) = .ok (m, D ++ [c]) := by
  obtain ⟨-, -, hdot, hup⟩ := hc
  have hlong : c.length ≤ NAME_MAX := (isName_of_inode hi).2.2.2.2
  have hstep : fs.walkStep kernelComponents [] D c = .next (D ++ [c]) := by
    rw [walkStep_name (isDir_iff.mpr (isDir_of_inode hi)) hdot hup (Nat.not_lt.mpr hlong), hi]
    exact if_neg (by simp [hlink])
  rw [walkAll_snoc h, walk_next hstep, walk_nil]

/-- **A walk that gets to its end gets there through a directory** that has the last component. -/
theorem of_walkAll_snoc (h : fs.walkAll (ds ++ [c]) = .ok (m, q)) (hc : IsComponent c) :
    ∃ k D, fs.walkAll ds = .ok (k, D) ∧ (fs.inode (D ++ [c])).isSome := by
  obtain ⟨k, D, hD⟩ := walk_prefix h
  obtain ⟨-, -, hdot, hup⟩ := hc
  have hlast : walk (fs.walkStep kernelComponents []) .ELOOP k [c] D = .ok (m, q) := by
    rw [← h, walkAll, walk_append hD]
  have hstep : ∀ e, fs.walkStep kernelComponents [] D c ≠ .fail e := by
    intro e he
    rw [walk_fail he] at hlast
    exact absurd hlast (by simp)
  obtain ⟨-, p, hp⟩ := lookupLast_of_walkStep hstep
  rw [lookupLast_eq hdot hup] at hp
  split_ifs at hp with hlong hsome
  exact ⟨k, D, hD, hsome⟩

theorem length_le_of_walkAll (hcs : ∀ c ∈ cs, IsComponent c) (h : fs.walkAll cs = .ok (m, q)) :
    ∀ c ∈ cs, c.length ≤ NAME_MAX := by
  induction cs using List.reverseRecOn generalizing m q with
  | nil => exact fun d hd => absurd hd List.not_mem_nil
  | append_singleton ds c ih =>
    obtain ⟨k, D, hD, hsome⟩ := of_walkAll_snoc h (hcs c (by simp))
    obtain ⟨i, hi⟩ := Option.isSome_iff_exists.mp hsome
    intro d hd
    rcases List.mem_append.mp hd with hd | hd
    · exact ih (fun d hd => hcs d (List.mem_append_left _ hd)) hD d hd
    · rw [List.mem_singleton.mp hd]
      exact (isName_of_inode hi).2.2.2.2

/-- Something is at the path, be it a link. -/
def Present (fs : Tree) (path : Str) : Prop := ∃ p, fs.resolveNoFollow path = .ok p

/-- At the path is a directory, or a link that leads to one. -/
def LeadsToDir (fs : Tree) (path : Str) : Prop := ∃ p, fs.resolve path = .ok p ∧ fs.IsDir p

/-- At the path is a link that leads to nothing. -/
def Dangling (fs : Tree) (path : Str) : Prop :=
  (∃ p i, fs.resolveNoFollow path = .ok p ∧ fs.inode p = some i ∧ i.isLink = true)
    ∧ fs.resolve path = .error .ENOENT

theorem kernelComponents_of_isComponent (hcs : ∀ c ∈ cs, IsComponent c) (hne : cs ≠ []) :
    kernelComponents (render cs) = cs := by
  have h := kernelComponents_render [] (fun c hc => ⟨(hcs c hc).1, (hcs c hc).2.1⟩) hne
  rwa [List.nil_append, components_nil, List.nil_append] at h

/-- The kernel walks the components of a path that is rendered. -/
theorem resolve_render (hcs : ∀ c ∈ cs, IsComponent c) (hne : cs ≠ [])
    (hlen : (render cs).length < PATH_MAX) :
    fs.resolve (render cs) = (fs.walkAll cs).map (·.2) := by
  have hnil : render cs ≠ [] := by
    obtain ⟨c, cs', rfl⟩ := List.exists_cons_of_ne_nil hne
    simp [render]
  rw [resolve, if_neg hnil, if_neg (Nat.not_le.mpr hlen), kernelComponents_of_isComponent hcs hne,
    walkAll]

/-- A rendered path leads to a directory where the walk does. -/
theorem leadsToDir_render_iff (hcs : ∀ c ∈ cs, IsComponent c) (hne : cs ≠ [])
    (hlen : (render cs).length < PATH_MAX) :
    fs.LeadsToDir (render cs) ↔ ∃ m D, fs.walkAll cs = .ok (m, D) ∧ fs.IsDir D := by
  rw [LeadsToDir, resolve_render hcs hne hlen]
  constructor
  · rintro ⟨p, hp, hdir⟩
    obtain ⟨⟨m, q⟩, hq, rfl⟩ := Except.map_eq_ok hp
    exact ⟨m, q, hq, hdir⟩
  · rintro ⟨m, D, hD, hdir⟩
    exact ⟨D, by rw [hD]; rfl, hdir⟩

/-- **What is at a path is in the directory its other components lead to.** -/
theorem resolveNoFollow_render_iff (hcs : ∀ d ∈ ds ++ [c], IsComponent d)
    (hlen : (render (ds ++ [c])).length < PATH_MAX) :
    fs.resolveNoFollow (render (ds ++ [c])) = .ok q
      ↔ ∃ m D, fs.walkAll ds = .ok (m, D) ∧ (fs.inode (D ++ [c])).isSome ∧ q = D ++ [c] := by
  have hk := kernelComponents_of_isComponent hcs (by simp)
  obtain ⟨-, -, hdot, hup⟩ := hcs c (by simp)
  constructor
  · intro h
    obtain ⟨r, hr, hrest⟩ := Except.bind_eq_ok h
    obtain ⟨D, c', rfl⟩ := exists_of_resolveParent (by rw [hk]; simp) hr
    obtain ⟨-, -, -, l, m, hl, hwalk⟩ := resolveParent_eq_ok hr
    obtain ⟨rfl, hc⟩ := List.append_inj' (hk.symm.trans hl) rfl
    obtain rfl := (List.cons.inj hc).1
    have hlook : fs.lookupLast D c = .ok q := hrest
    rw [lookupLast_eq hdot hup] at hlook
    split_ifs at hlook with hlong hsome
    exact ⟨m, D, hwalk, hsome, (Except.ok.inj hlook).symm⟩
  · rintro ⟨m, D, hD, hsome, rfl⟩
    obtain ⟨i, hi⟩ := Option.isSome_iff_exists.mp hsome
    have hdir := isDir_iff.mpr (isDir_of_inode hi)
    have hlong : ¬NAME_MAX < c.length := Nat.not_lt.mpr (isName_of_inode hi).2.2.2.2
    rw [resolveNoFollow, resolveParent_of_walk (by simp [render]) hlen hk hdir hD]
    change fs.lookupLast D c = _
    rw [lookupLast_eq hdot hup, if_neg hlong, if_pos hsome]

theorem length_lt_of_present {path : Str} (h : fs.Present path) : path.length < PATH_MAX := by
  obtain ⟨p, hp⟩ := h
  obtain ⟨r, hr, -⟩ := Except.bind_eq_ok hp
  rw [resolveParent] at hr
  split_ifs at hr with hnil hlong
  exact Nat.not_le.mp hlong

/-- A rendered path is there where the walk of its parent has the name. -/
theorem present_render_iff (hcs : ∀ d ∈ ds ++ [c], IsComponent d)
    (hlen : (render (ds ++ [c])).length < PATH_MAX) : fs.Present (render (ds ++ [c]))
      ↔ ∃ m D, fs.walkAll ds = .ok (m, D) ∧ (fs.inode (D ++ [c])).isSome := by
  constructor
  · rintro ⟨q, hq⟩
    obtain ⟨m, D, hD, hsome, -⟩ := (resolveNoFollow_render_iff hcs hlen).mp hq
    exact ⟨m, D, hD, hsome⟩
  · rintro ⟨m, D, hD, hsome⟩
    exact ⟨D ++ [c], (resolveNoFollow_render_iff hcs hlen).mpr ⟨m, D, hD, hsome, rfl⟩⟩

/-- What is at a path is there in every larger tree. -/
theorem Le.resolveNoFollow_render {fs' : Tree} (h : Le fs fs') (hcs : ∀ c ∈ cs, IsComponent c)
    (hne : cs ≠ []) (hlen : (render cs).length < PATH_MAX)
    (hq : fs.resolveNoFollow (render cs) = .ok q) : fs'.resolveNoFollow (render cs) = .ok q := by
  rcases List.eq_nil_or_concat cs with hnil | ⟨ds, c, hsnoc⟩
  · exact absurd hnil hne
  · rw [List.concat_eq_append] at hsnoc
    subst hsnoc
    obtain ⟨m, D, hD, hsome, hqD⟩ := (resolveNoFollow_render_iff hcs hlen).mp hq
    obtain ⟨i, hi⟩ := Option.isSome_iff_exists.mp hsome
    exact (resolveNoFollow_render_iff hcs hlen).mpr
      ⟨m, D, h.walk hD, by rw [h _ i hi]; rfl, hqD⟩

/-! ## Nothing in the way -/

/-- **Nothing is in the way to a path**: whatever is there, from its first component on, is or links
to a directory, and no link leads to nothing. -/
structure Unobstructed (fs : Tree) (cs : List Name) : Prop where
  dir : ∀ ds, ds ≠ [] → ds <+: cs → fs.Present (render ds) → fs.LeadsToDir (render ds)
  live : ∀ ds, ds ≠ [] → ds <+: cs → ¬fs.Dangling (render ds)

theorem length_render_lt (h : ds <+: cs) (hlen : (render cs).length < PATH_MAX) :
    (render ds).length < PATH_MAX := by
  obtain ⟨es, rfl⟩ := h
  rw [render_append, List.length_append] at hlen
  omega

/-- What leads to a directory is no dangling link. -/
theorem not_dangling_of_leadsToDir {path : Str} (h : fs.LeadsToDir path) : ¬fs.Dangling path := by
  rintro ⟨-, hmissing⟩
  obtain ⟨p, hp, -⟩ := h
  rw [hmissing] at hp
  exact absurd hp (by simp)

theorem not_dangling_of_not_present {path : Str} (h : ¬fs.Present path) : ¬fs.Dangling path := by
  rintro ⟨⟨p, -, hp, -⟩, -⟩
  exact h ⟨p, hp⟩

/-- A walk to a directory is one through directories. -/
theorem leadsToDir_of_walkAll (hcs : ∀ c ∈ cs, IsComponent c)
    (hlen : (render cs).length < PATH_MAX) (h : fs.walkAll cs = .ok (m, D)) (hdir : fs.IsDir D) :
    ∀ ds, ds ≠ [] → ds <+: cs → fs.LeadsToDir (render ds) := by
  induction cs using List.reverseRecOn generalizing m D with
  | nil => exact fun ds hne hds => absurd (List.prefix_nil.mp hds) hne
  | append_singleton cs c ih =>
    have hprev : ∀ d ∈ cs, IsComponent d := fun d hd => hcs d (List.mem_append_left _ hd)
    intro ds hne hds
    rcases List.prefix_concat_iff.mp hds with rfl | hds
    · exact (leadsToDir_render_iff hcs hne hlen).mpr ⟨m, D, h, hdir⟩
    · obtain ⟨k, E, hE, hsome⟩ := of_walkAll_snoc h (hcs c (by simp))
      obtain ⟨i, hi⟩ := Option.isSome_iff_exists.mp hsome
      have hlen' := length_render_lt (List.prefix_append cs [c]) hlen
      exact ih hprev hlen' hE (isDir_of_inode hi) ds hne hds

theorem unobstructed_of_leadsToDir
    (h : ∀ ds, ds ≠ [] → ds <+: cs → fs.LeadsToDir (render ds)) : fs.Unobstructed cs where
  dir ds hne hds _ := h ds hne hds
  live ds hne hds := not_dangling_of_leadsToDir (h ds hne hds)

namespace Unobstructed

/-- A prefix is not obstructed either. -/
theorem of_prefix (h : fs.Unobstructed cs) (hds : ds <+: cs) : fs.Unobstructed ds where
  dir es hne hes := h.dir es hne (hes.trans hds)
  live es hne hes := h.live es hne (hes.trans hds)

/-- One component more that is not there. -/
theorem snoc (h : fs.Unobstructed ds) (hc : ¬fs.Present (render (ds ++ [c]))) :
    fs.Unobstructed (ds ++ [c]) := by
  refine ⟨fun es hne hes hpresent => ?_, fun es hne hes => ?_⟩
  · rcases List.prefix_concat_iff.mp hes with rfl | hes
    · exact absurd hpresent hc
    · exact h.dir es hne hes hpresent
  · rcases List.prefix_concat_iff.mp hes with rfl | hes
    · exact not_dangling_of_not_present hc
    · exact h.live es hne hes

variable (h : fs.Unobstructed cs) (hcs : ∀ c ∈ cs, IsComponent c)
  (hlen : (render cs).length < PATH_MAX)

include h hcs hlen

/-- What is there is, or links to, a directory the walk gets to. -/
theorem exists_walkAll (hne : cs ≠ []) (hpresent : fs.Present (render cs)) :
    ∃ m D, fs.walkAll cs = .ok (m, D) ∧ fs.IsDir D :=
  (leadsToDir_render_iff hcs hne hlen).mp (h.dir cs hne List.prefix_rfl hpresent)

/-- What the walk leads to is a directory. -/
theorem isDir_of_walkAll (hwalk : fs.walkAll cs = .ok (m, D)) : fs.IsDir D := by
  rcases List.eq_nil_or_concat cs with rfl | ⟨ds, c, rfl⟩
  · rw [walkAll, walk_nil] at hwalk
    rw [← (Prod.mk.inj (Except.ok.inj hwalk)).2]
    exact fs.isDir_root
  · rw [List.concat_eq_append] at *
    obtain ⟨k, E, hE, hsome⟩ := of_walkAll_snoc hwalk (hcs c (by simp))
    have hpresent := (present_render_iff hcs hlen).mpr ⟨k, E, hE, hsome⟩
    obtain ⟨m', D', hD', hdir⟩ := h.exists_walkAll hcs hlen (by simp) hpresent
    rw [hD'] at hwalk
    rwa [(Prod.mk.inj (Except.ok.inj hwalk)).2] at hdir

/-- **With nothing in the way a walk fails for something missing**, if no name is too long. -/
theorem eq_of_walkAll_error (hlong : ∀ c ∈ cs, c.length ≤ NAME_MAX)
    (hwalk : fs.walkAll cs = .error e) : e = .ENOENT := by
  induction cs using List.reverseRecOn generalizing e with
  | nil =>
    rw [walkAll, walk_nil] at hwalk
    exact absurd hwalk (by simp)
  | append_singleton ds c ih =>
    have hds := h.of_prefix (List.prefix_append ds [c])
    have hprev : ∀ d ∈ ds, IsComponent d := fun d hd => hcs d (List.mem_append_left _ hd)
    have hle := length_render_lt (List.prefix_append ds [c]) hlen
    rcases hD : fs.walkAll ds with e' | ⟨m, D⟩
    · rw [walkAll_snoc_error hD] at hwalk
      rw [← Except.error.inj hwalk]
      exact ih hds hprev hle (fun d hd => hlong d (List.mem_append_left _ hd)) hD
    · have hdir := hds.isDir_of_walkAll hprev hle hD
      rcases hi : fs.inode (D ++ [c]) with _ | i
      · rw [walkAll_snoc_missing hD hdir (hcs c (by simp)) (hlong c (by simp)) hi] at hwalk
        exact (Except.error.inj hwalk).symm
      · have hpresent := (present_render_iff hcs hlen).mpr ⟨m, D, hD, by rw [hi]; rfl⟩
        obtain ⟨m', D', hD', -⟩ := h.exists_walkAll hcs hlen (by simp) hpresent
        rw [hD'] at hwalk
        exact absurd hwalk (by simp)

end Unobstructed

end Tree

namespace World

variable {w w' w'' : World} {umask perm : BitVec 12} {dirSize n m : ℕ} {cs ds : List Name}
  {c : Name} {D : Loc} {i : Inode}

/-! ## What a call makes -/

theorem mounts_addNode (w : World) (D : Loc) (c : Name) (i : Inode) :
    (w.addNode D c i).mounts = w.mounts := by
  rw [addNode]
  split_ifs
  · rfl
  · rfl

/-- **`mkdir` behind a directory.** -/
theorem mkdir_render (hcs : ∀ d ∈ ds ++ [c], IsComponent d)
    (hlen : (render (ds ++ [c])).length < PATH_MAX) (h : w.fs.walkAll ds = .ok (m, D))
    (hdir : w.fs.IsDir D) : w.mkdir (render (ds ++ [c])) perm dirSize
      = if NAME_MAX < c.length then .error .ENAMETOOLONG
        else if (w.fs.inode (D ++ [c])).isSome then .error .EEXIST
        else .ok (w.addNode D c { mode := ⟨.dir, perm⟩, size := dirSize }) := by
  have hk := Tree.kernelComponents_of_isComponent hcs (by simp)
  obtain ⟨-, -, hdot, hup⟩ := hcs c (by simp)
  have hparent : w.fs.resolveParent (render (ds ++ [c])) = .ok (some (D, c)) :=
    Tree.resolveParent_of_walk (by simp [render]) hlen hk (Tree.isDir_iff.mpr hdir) h
  have hplace : w.place (render (ds ++ [c])) = if NAME_MAX < c.length then .error .ENAMETOOLONG
      else if (w.fs.inode (D ++ [c])).isSome then .error .EEXIST else .ok (D, c) := by
    have hpure : (Except.ok (some (D, c)) : Except Errno _) = pure (some (D, c)) := rfl
    rw [place, hparent, hpure, pure_bind]
    dsimp only
    rw [if_neg (not_or.mpr ⟨hdot, hup⟩)]
    rfl
  rw [mkdir, hplace]
  split_ifs
  · rfl
  · rfl
  · rfl

/-- **What `make_ancestors` has made when its path leads to a location**: where the path led nowhere
the location is new, and what is new is a directory on the way to it, where nothing was. -/
structure Made (perm : BitVec 12) (w w' : World) (cs : List Name) (D : Loc) : Prop where
  le : Tree.Le w.fs w'.fs
  mounts : w'.mounts = w.mounts
  walk : ∃ m, w'.fs.walkAll cs = .ok (m, D)
  dir : w'.fs.IsDir D
  fresh : (∃ m, w.fs.walkAll cs = .ok (m, D)) ∨ w.fs.inode D = none
  new : ∀ q i, w'.fs.inode q = some i → w.fs.inode q = some i ∨ (q <+: D ∧ i.mode = ⟨.dir, perm⟩
    ∧ ∃ ds, ds ≠ [] ∧ ds <+: cs ∧ ¬w.fs.Present (render ds)
      ∧ w'.fs.resolveNoFollow (render ds) = .ok q)

namespace Made

/-- Nothing is to be made. -/
theorem refl (h : w.fs.walkAll cs = .ok (m, D)) (hdir : w.fs.IsDir D) : Made perm w w cs D where
  le := Tree.Le.refl w.fs
  mounts := rfl
  walk := ⟨m, h⟩
  dir := hdir
  fresh := .inl ⟨m, h⟩
  new _ _ hi := .inl hi

variable (h : Made perm w w' ds D) (hcs : ∀ d ∈ ds ++ [c], IsComponent d)
  (hlen : (render (ds ++ [c])).length < PATH_MAX)

include h hcs hlen

/-- **What is not below the location then was not there before**, and conversely. -/
theorem inode_eq_none_iff :
    w'.fs.inode (D ++ [c]) = none ↔ ¬w.fs.Present (render (ds ++ [c])) := by
  rw [Tree.present_render_iff hcs hlen]
  constructor
  · rintro hnone ⟨m, E, hE, hsome⟩
    obtain ⟨m', hD⟩ := h.walk
    have hE' : w'.fs.walkAll ds = .ok (m, E) := h.le.walk hE
    obtain rfl : E = D := (Prod.mk.inj (Except.ok.inj (hE'.symm.trans hD))).2
    rw [h.le.inode_eq_none hnone] at hsome
    exact absurd hsome (by simp)
  · intro hmissing
    by_contra hsome
    obtain ⟨i, hi⟩ := Option.ne_none_iff_exists'.mp hsome
    rcases h.new _ i hi with hold | ⟨hle, -⟩
    · rcases h.fresh with ⟨m, hD⟩ | hfresh
      · exact hmissing ⟨m, D, hD, by rw [hold]; rfl⟩
      · rw [Tree.inode_eq_none_below hfresh (List.prefix_append D [c])] at hold
        exact absurd hold (by simp)
    · have hlength := hle.length_le
      rw [List.length_append, List.length_singleton] at hlength
      omega

/-- What a call of `mkdir` for one component more has done. -/
theorem mkdir_eq_ok (hmk : w'.mkdir (render (ds ++ [c])) perm dirSize = .ok w'') :
    IsName c ∧ w'.fs.inode (D ++ [c]) = none
      ∧ w'.addNode D c { mode := ⟨.dir, perm⟩, size := dirSize } = w'' := by
  obtain ⟨m, hD⟩ := h.walk
  obtain ⟨hne, hslash, hdot, hup⟩ := hcs c (by simp)
  rw [mkdir_render hcs hlen hD h.dir] at hmk
  split_ifs at hmk with hlong hsome
  exact ⟨⟨hne, hdot, hup, hslash, Nat.not_lt.mp hlong⟩, Option.not_isSome_iff_eq_none.mp hsome,
    Except.ok.inj hmk⟩

/-- **One component more.** -/
theorem snoc (hmk : w'.mkdir (render (ds ++ [c])) perm dirSize = .ok w'') :
    Made perm w w'' (ds ++ [c]) (D ++ [c]) := by
  obtain ⟨m, hD⟩ := h.walk
  obtain ⟨hname, hnone, rfl⟩ := h.mkdir_eq_ok hcs hlen hmk
  set w'' := w'.addNode D c { mode := ⟨.dir, perm⟩, size := dirSize } with hw''
  have hinode (q : Loc) := inode_addNode (i := { mode := ⟨.dir, perm⟩, size := dirSize })
    h.dir hname rfl q
  rw [← hw''] at hinode
  have hle : Tree.Le w'.fs w''.fs := fun q i hi => by rw [hinode, hi]; rfl
  obtain ⟨j, hj, hmode⟩ : ∃ j, w''.fs.inode (D ++ [c]) = some j ∧ j.mode = ⟨.dir, perm⟩ :=
    ⟨_, by rw [hinode, hnone, if_pos rfl]; rfl, rfl⟩
  have hjdir : j.isDir = true := by simp [Inode.isDir, hmode]
  have hwalk : w''.fs.walkAll ds = .ok (m, D) := hle.walk hD
  have hpresent := (h.inode_eq_none_iff hcs hlen).mp hnone
  refine ⟨h.le.trans hle, ?_, ⟨m, ?_⟩, ⟨j, hj, hjdir⟩, ?_, fun q i hi => ?_⟩
  · rw [← h.mounts, hw'', mounts_addNode]
  · exact Tree.walkAll_snoc_of_inode hwalk (hcs c (by simp)) hj (Inode.isLink_eq_false hjdir)
  · exact .inr (h.le.inode_eq_none hnone)
  · rcases hi' : w'.fs.inode q with _ | i'
    · -- the node of this call
      rw [hinode, hi', Option.none_or] at hi
      split_ifs at hi with hq
      subst hq
      refine .inr ⟨List.prefix_rfl, ?_, ds ++ [c], by simp, List.prefix_rfl, hpresent, ?_⟩
      · rw [← Option.some.inj hi]
      · exact (Tree.resolveNoFollow_render_iff hcs hlen).mpr ⟨m, D, hwalk, by rw [hj]; rfl, rfl⟩
    · -- an earlier one
      obtain rfl : i' = i := Option.some.inj ((hle q i' hi').symm.trans hi)
      rcases h.new q i' hi' with hold | ⟨hq, hmode', es, hne', hes, hmissing, hat⟩
      · exact .inl hold
      · have hes' : es <+: ds ++ [c] := hes.trans (List.prefix_append ds [c])
        have hlen' := Tree.length_render_lt hes' hlen
        refine .inr ⟨hq.trans (List.prefix_append D [c]), hmode', es, hne', hes', hmissing, ?_⟩
        exact hle.resolveNoFollow_render (fun d hd => hcs d (hes'.subset hd)) hne' hlen' hat

end Made

/-! ## All the calls -/

theorem not_stop_render (ds : List Name) (c : Name) :
    ¬(render (ds ++ [c]) = [] ∨ (render (ds ++ [c])).head? = some '.') := by
  rcases ds with _ | ⟨d, ds⟩
  · simp [render]
  · simp [render]

theorem length_lt_of_missing (hne : cs ≠ []) (h : w.fs.resolve (render cs) = .error .ENOENT) :
    (render cs).length < PATH_MAX := by
  rw [Tree.resolve] at h
  split_ifs at h with hnil hlong
  · obtain ⟨c, cs', rfl⟩ := List.exists_cons_of_ne_nil hne
    simp [render] at hnil
  · exact absurd (Except.error.inj h) (by decide)
  · exact Nat.not_le.mp hlong

/-- **What `make_ancestors` has made where it returns 0**, and that nothing was in the way. -/
theorem made_of_makeAncestors (umask perm : BitVec 12) (dirSize n : ℕ)
    (hcs : ∀ c ∈ cs, IsComponent c)
    (h : (w.makeAncestors (.granting umask dirSize) perm n (render cs)).1 = true) :
    (render cs).length < PATH_MAX ∧ w.fs.Unobstructed cs
      ∧ ∃ D, Made perm w (w.makeAncestors (.granting umask dirSize) perm n (render cs)).2 cs D := by
  induction cs using List.reverseRecOn generalizing n with
  | nil =>
    refine ⟨by decide, Tree.unobstructed_of_leadsToDir fun ds hne hds => ?_, [], ?_⟩
    · exact absurd (List.prefix_nil.mp hds) hne
    · have hroot : w.makeAncestors (.granting umask dirSize) perm n (render []) = (true, w) := by
        rcases n with _ | n
        · exact absurd h (by simp [makeAncestors])
        · rw [makeAncestors, if_pos (.inl rfl)]
      rw [hroot]
      exact Made.refl (walk_nil _ _) w.fs.isDir_root
  | append_singleton ds c ih =>
    rcases n with _ | n
    · exact absurd h (by simp [makeAncestors])
    have hprev : ∀ d ∈ ds, IsComponent d := fun d hd => hcs d (List.mem_append_left _ hd)
    have hstop := not_stop_render ds c
    rcases hres : w.fs.resolve (render (ds ++ [c])) with e | p
    · by_cases he : e = .ENOENT
      · subst he
        have hlen := length_lt_of_missing (by simp) hres
        rw [makeAncestors_of_missing hstop hres, cutLast_render _ (hcs c (by simp)).2.1] at h ⊢
        dsimp only [Option.elim] at h ⊢
        by_cases hrun : (w.makeAncestors (.granting umask dirSize) perm n (render ds)).1 = true
        · rw [if_pos hrun] at h ⊢
          obtain ⟨-, hclear, D, hmade⟩ := ih n hprev hrun
          rcases hmk : (w.makeAncestors (.granting umask dirSize) perm n (render ds)).2.mkdir
            (render (ds ++ [c])) perm dirSize with e | w''
          · rw [mkdirAncestor_of_error hmk] at h
            exact absurd h (by simp)
          · rw [mkdirAncestor_of_ok hmk]
            obtain ⟨-, hnone, -⟩ := hmade.mkdir_eq_ok hcs hlen hmk
            have hmissing := (hmade.inode_eq_none_iff hcs hlen).mp hnone
            exact ⟨hlen, hclear.snoc hmissing, D ++ [c], hmade.snoc hcs hlen hmk⟩
        · rw [if_neg hrun] at h
          exact absurd h (by simp)
      · rw [makeAncestors_of_error hstop hres he] at h
        exact absurd h (by simp)
    · rw [makeAncestors_of_ok hstop hres] at h ⊢
      obtain ⟨-, hlen, m, hwalk⟩ := Tree.resolve_eq_ok_iff.mp hres
      rw [Tree.kernelComponents_of_isComponent hcs (by simp)] at hwalk
      have hdir := Tree.isDir_iff.mp h
      have hleads := Tree.leadsToDir_of_walkAll hcs hlen hwalk hdir
      exact ⟨hlen, Tree.unobstructed_of_leadsToDir hleads, p, Made.refl hwalk hdir⟩

/-- **With nothing in the way `make_ancestors` returns 0**, if the kernel takes the path. -/
theorem makeAncestors_of_unobstructed (umask perm : BitVec 12) (dirSize n : ℕ)
    (hcs : ∀ c ∈ cs, IsComponent c) (hlen : (render cs).length < PATH_MAX)
    (hlong : ∀ c ∈ cs, c.length ≤ NAME_MAX) (h : w.fs.Unobstructed cs) (hn : cs.length < n) :
    (w.makeAncestors (.granting umask dirSize) perm n (render cs)).1 = true := by
  induction cs using List.reverseRecOn generalizing n with
  | nil =>
    obtain ⟨n, rfl⟩ := Nat.exists_eq_add_one_of_ne_zero (Nat.ne_of_gt hn)
    rw [makeAncestors, if_pos (.inl rfl)]
  | append_singleton ds c ih =>
    obtain ⟨n, rfl⟩ := Nat.exists_eq_add_one_of_ne_zero (Nat.ne_of_gt (Nat.zero_lt_of_lt hn))
    rw [List.length_append, List.length_singleton] at hn
    have hprev : ∀ d ∈ ds, IsComponent d := fun d hd => hcs d (List.mem_append_left _ hd)
    have hle := Tree.length_render_lt (List.prefix_append ds [c]) hlen
    have hstop := not_stop_render ds c
    have hres : w.fs.resolve (render (ds ++ [c])) = (w.fs.walkAll (ds ++ [c])).map (·.2) :=
      Tree.resolve_render hcs (by simp) hlen
    rcases hwalk : w.fs.walkAll (ds ++ [c]) with e | ⟨m, p⟩
    · -- the path leads nowhere
      obtain rfl := h.eq_of_walkAll_error hcs hlen hlong hwalk
      have hrun := ih n hprev hle (fun d hd => hlong d (List.mem_append_left _ hd))
        (h.of_prefix (List.prefix_append ds [c])) (by omega)
      obtain ⟨-, -, D, hmade⟩ := made_of_makeAncestors umask perm dirSize n hprev hrun
      have hmissing : ¬w.fs.Present (render (ds ++ [c])) := by
        intro hpresent
        obtain ⟨m, p, hp, -⟩ := h.exists_walkAll hcs hlen (by simp) hpresent
        rw [hwalk] at hp
        exact absurd hp (by simp)
      obtain ⟨m, hD⟩ := hmade.walk
      have hmk : (w.makeAncestors (.granting umask dirSize) perm n (render ds)).2.mkdir
          (render (ds ++ [c])) perm dirSize = _ := mkdir_render hcs hlen hD hmade.dir
      rw [if_neg (Nat.not_lt.mpr (hlong c (by simp))),
        if_neg (by rw [(hmade.inode_eq_none_iff hcs hlen).mpr hmissing]; simp)] at hmk
      rw [hwalk] at hres
      rw [makeAncestors_of_missing hstop hres, cutLast_render _ (hcs c (by simp)).2.1]
      dsimp only [Option.elim]
      rw [if_pos hrun, mkdirAncestor_of_ok hmk]
    · rw [hwalk] at hres
      rw [makeAncestors_of_ok hstop hres]
      exact Tree.isDir_iff.mpr (h.isDir_of_walkAll hcs hlen hwalk)

end World

/-! ## Paths from `/` -/

/-- An absolute path without empty, `.` or `..` components and without a slash at its end. -/
structure PlainPath where
  text : Str
  ne : text ≠ []
  plain : render (components text) = text
  names : ∀ c ∈ components text, c ≠ dot ∧ c ≠ dotdot
  noNul : NUL ∉ text

namespace PlainPath

theorem isComponent (path : PlainPath) : ∀ c ∈ components path.text, IsComponent c := by
  intro c hc
  obtain ⟨hne, hslash⟩ := mem_components hc
  exact ⟨hne, hslash, path.names c hc⟩

/-- A path has more characters than components. -/
theorem length_components_le (path : PlainPath) :
    (components path.text).length ≤ path.text.length := by
  have hle (cs : List Name) : cs.length ≤ (render cs).length := by
    induction cs with
    | nil => exact Nat.le_refl 0
    | cons c cs ih =>
      rw [← List.singleton_append, render_append, render_singleton, List.length_append,
        List.length_append]
      simp only [List.length_cons, List.length_nil]
      omega
  have h := hle (components path.text)
  rwa [path.plain] at h

/-- The path of a list of names. -/
def ofNames (cs : List Name) (hne : cs ≠ []) (hcs : ∀ c ∈ cs, IsComponent c ∧ NUL ∉ c) :
    PlainPath :=
  have hcomps : components (render cs) = cs :=
    components_render fun c hc => ⟨(hcs c hc).1.1, (hcs c hc).1.2.1⟩
  { text := render cs
    ne := by
      obtain ⟨c, cs', rfl⟩ := List.exists_cons_of_ne_nil hne
      simp [render]
    plain := congrArg render hcomps
    names := by
      rw [hcomps]
      exact fun c hc => (hcs c hc).1.2.2
    noNul := by
      intro hnul
      obtain ⟨c, hc, hmem⟩ := List.mem_flatMap.mp hnul
      rcases List.mem_cons.mp hmem with hslash | hmem
      · exact absurd hslash (by decide)
      · exact (hcs c hc).2 hmem }

end PlainPath

namespace World

/-- **The directories on the way to a path have been completed**: all are there, nothing else is
new, and what was there is as it was. -/
structure Completed (perm : BitVec 12) (w w' : World) (path : PlainPath) : Prop where
  dir : ∀ ds, ds ≠ [] → ds <+: components path.text → w'.fs.LeadsToDir (render ds)
  kept : ∀ q i, w.fs.inode q = some i → w'.fs.inode q = some i
  mounts : w'.mounts = w.mounts
  new : ∀ q i, w.fs.inode q = none → w'.fs.inode q = some i → i.mode = ⟨.dir, perm⟩
    ∧ ∃ ds, ds ≠ [] ∧ ds <+: components path.text ∧ ¬w.fs.Present (render ds)
      ∧ w'.fs.resolveNoFollow (render ds) = .ok q

/-- **A call of `make_ancestors` makes what is missing**: it returns 0 exactly if nothing is in the
way and the kernel takes the path, and leaves the buffer as it was. -/
structure MakesMissing (umask perm : BitVec 12) (w : World) (path : PlainPath) (rest : List Char)
    (r : Bool × List Char × World) : Prop where
  ok_iff : r.1 = true ↔ w.fs.Unobstructed (components path.text) ∧ path.text.length < PATH_MAX
    ∧ ∀ c ∈ components path.text, c.length ≤ NAME_MAX
  completed : r.1 = true → Completed (perm &&& ~~~umask) w r.2.2 path
  buffer : r.1 = true → r.2.1 = path.text ++ NUL :: rest

variable {w w' : World} {perm : BitVec 12} {D : Loc}

/-- What is made completes the path. -/
theorem Made.completed {path : PlainPath} (h : Made perm w w' (components path.text) D)
    (hlen : path.text.length < PATH_MAX) : Completed perm w w' path := by
  obtain ⟨m, hD⟩ := h.walk
  refine ⟨?_, h.le, h.mounts, fun q i hnone hi => ?_⟩
  · exact Tree.leadsToDir_of_walkAll path.isComponent (by rwa [path.plain]) hD h.dir
  · rcases h.new q i hi with hold | ⟨-, hmode, hat⟩
    · rw [hnone] at hold
      exact absurd hold (by simp)
    · exact ⟨hmode, hat⟩

/-- **`make_ancestors` makes exactly the directories that are missing.** -/
theorem makeAncestorsIn_makesMissing (w : World) (umask perm : BitVec 12) (dirSize more : ℕ)
    (path : PlainPath) (rest : List Char) :
    MakesMissing umask perm w path rest (w.makeAncestorsIn (.granting umask dirSize) perm
      (path.text.length + 1 + more) (path.text ++ NUL :: rest)) := by
  obtain ⟨buf, hrun, hbuf⟩ := makeAncestorsIn_eq (.granting umask dirSize) perm
    (path.text.length + 1 + more) path.noNul rest w
  rw [hrun]
  have hmade := made_of_makeAncestors (w := w) umask (perm &&& ~~~umask) dirSize
    (path.text.length + 1 + more) path.isComponent
  rw [path.plain] at hmade
  refine ⟨⟨fun hok => ?_, fun ⟨hclear, hlen, hlong⟩ => ?_⟩, fun hok => ?_, hbuf⟩
  · obtain ⟨hlen, hclear, D, hD⟩ := hmade hok
    obtain ⟨m, hwalk⟩ := hD.walk
    exact ⟨hclear, hlen, Tree.length_le_of_walkAll path.isComponent hwalk⟩
  · have hle := path.length_components_le
    have hok := makeAncestors_of_unobstructed umask (perm &&& ~~~umask) dirSize
      (path.text.length + 1 + more) path.isComponent (by rwa [path.plain]) hlong hclear (by omega)
    rwa [path.plain] at hok
  · obtain ⟨hlen, -, D, hD⟩ := hmade hok
    exact hD.completed hlen

/-- A world with nothing in it. -/
def emptyWorld : World where
  fs := .ofNodes [([], { mode := ⟨.dir, 0x1ed⟩ })] (by decide)

/-- There nothing is in the way. -/
theorem unobstructed_emptyWorld {cs : List Name} (hcs : ∀ c ∈ cs, IsComponent c) :
    emptyWorld.fs.Unobstructed cs := by
  induction cs using List.reverseRecOn with
  | nil =>
    exact Tree.unobstructed_of_leadsToDir fun ds hne hds => absurd (List.prefix_nil.mp hds) hne
  | append_singleton ds c ih =>
    have hprev : ∀ d ∈ ds, IsComponent d := fun d hd => hcs d (List.mem_append_left _ hd)
    refine (ih hprev).snoc fun hpresent => ?_
    have hlen := Tree.length_lt_of_present hpresent
    obtain ⟨m, D, -, hsome⟩ := (Tree.present_render_iff hcs hlen).mp hpresent
    have hkey : (D ++ [c] == []) = false := by simp
    have hnone : emptyWorld.fs.inode (D ++ [c]) = none := by
      change List.lookup (D ++ [c]) [([], _)] = none
      rw [List.lookup_cons, hkey]
      rfl
    rw [hnone] at hsome
    exact absurd hsome (by decide)

/-- A path with one name, longer than a directory can hold. -/
def longName : PlainPath :=
  .ofNames [List.replicate 256 'a'] (List.cons_ne_nil _ _) (by decide +kernel)

/-- A path longer than the kernel takes. -/
def longPath : PlainPath :=
  .ofNames (List.replicate 2048 ['a']) (by decide +kernel) (by decide +kernel)

/-- **A path may be too long to be made**, or a name in it, though nothing is in the way. -/
theorem not_makesMissing_long :
    ¬((emptyWorld.makeAncestorsIn (.granting 0x12 4096) 0x1ed (longName.text.length + 1)
        (longName.text ++ [NUL])).1 = true
      ↔ emptyWorld.fs.Unobstructed (components longName.text))
    ∧ ¬((emptyWorld.makeAncestorsIn (.granting 0x12 4096) 0x1ed (longPath.text.length + 1)
        (longPath.text ++ [NUL])).1 = true
      ↔ emptyWorld.fs.Unobstructed (components longPath.text)) := by
  have hname : (emptyWorld.makeAncestorsIn (.granting 0x12 4096) 0x1ed
      (longName.text.length + 1) (longName.text ++ [NUL])).1 = false := by
    decide +kernel
  have hpath : (emptyWorld.makeAncestorsIn (.granting 0x12 4096) 0x1ed
      (longPath.text.length + 1) (longPath.text ++ [NUL])).1 = false := by
    decide +kernel
  constructor
  · intro h
    rw [h.mpr (unobstructed_emptyWorld longName.isComponent)] at hname
    exact absurd hname (by decide)
  · intro h
    rw [h.mpr (unobstructed_emptyWorld longPath.isComponent)] at hpath
    exact absurd hpath (by decide)

end World

end Fs
