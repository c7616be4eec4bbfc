import XdxContainer.Path.Resolve

/-!
# Path/Run — the variables a resolution comes to

    start ──turn──▸ v ──turn──▸ v' ──turn──▸ …        the pointer is NULL, or a turn fails
      │             │            │
     {} ───────────▸ s ─────────▸ s'                  what the reference comes to

The loop of `do_path_resolve` turn by turn: how a resolution ends is how its last turn does
(`doPathResolve_run`), and a turn fails for one of a few reasons (`Agrees.token_error`).
-/

open Paths Walk Fs

namespace Resolve

/-- The target of a link. -/
def linkTarget (fs : Tree) (p : Loc) : Option Str :=
  (fs.inode p).bind fun i => if i.isLink then some i.target else none

/-- The target behind the slash of an absolute one, and what is left of the path behind it. -/
def Vars.spliced (v : Vars) (target : Str) : Str :=
  appended (target.drop (if target.head? = some '/' then 1 else 0))
    ((v.ptr.map (deref v.dbuf)).getD [])

/-- **The strings the component needs**: the target of a link and what is left of the path behind
it, or the resolved path with the component. -/
def Vars.needs (fs : Tree) (file : Str) (v : Vars) : List Str :=
  if file = [] ∨ file = dot ∨ file = dotdot then []
  else
    match if 0 < v.noents then none else linkTarget fs (v.fd ++ [file]) with
    | some target => [target, v.spliced target]
    | none => [appended v.realpath file]

/-- Enough links have been followed, and yet a name is looked up that is none. -/
structure Vars.LooksUpLate (fs : Tree) (file : Str) (v : Vars) : Prop where
  links : MAXSYMLINKS ≤ v.nlinks
  noents : v.noents = 0
  name : file ≠ [] ∧ file ≠ dot ∧ file ≠ dotdot
  notLink : ∀ target, readlinkat fs v.fd file ≠ .ok target

/-- The error is `ELOOP`. -/
def Failure.isLoop : Failure → Bool
  | .openFailed _ e | .pathError _ _ e => e = .ELOOP
  | .appendFailed _ | .resolvesOutside _ _ => false

/-- **What the variables come to**, turn by turn. -/
inductive Reached (fs : Tree) (root path : Str) : Vars → Prop
  | start {fd rest} (hroot : openRoot fs root = .ok fd) (hrest : append [] path = .ok rest) :
      Reached fs root path (.start fd rest)
  | turn {v v' p} (h : Reached fs root path v) (hp : v.ptr = some p)
      (hturn : v.turn fs root path p = .ok v') : Reached fs root path v'

/-- What is left in the caller's buffer when the loop has ended. -/
def Vars.result (full : Bool) (root : Str) (v : Vars) : Except Failure Unit × Str :=
  match if full then pathJoin root v.realpath else pathNew v.realpath with
  | (true, s) => (.ok (), s)
  | (false, s) => (.error (.appendFailed v.realpath), s)

section Run

variable {fs : Tree} {root path : Str} {R : Loc} {v v' : Vars} {p : Bool × ℕ} {n : ℕ}

/-- **A loop ends where the pointer is `NULL`, or where a turn fails.** -/
theorem Reached.of_loop {r : Except Failure Vars} (h : Reached fs root path v)
    (hr : loop fs root path n v = some r) :
    (∃ w, r = .ok w ∧ Reached fs root path w ∧ w.ptr = none)
      ∨ ∃ w p e, r = .error e ∧ Reached fs root path w ∧ w.ptr = some p
        ∧ w.turn fs root path p = .error e := by
  induction n generalizing v with
  | zero => cases hr
  | succ n ih =>
    rcases hp : v.ptr with _ | p
    · rw [loop, hp] at hr
      exact .inl ⟨v, (Option.some.inj hr).symm, h, hp⟩
    · rw [loop_succ hp] at hr
      rcases hturn : v.turn fs root path p with e | w
      · rw [hturn] at hr
        exact .inr ⟨v, p, e, (Option.some.inj hr).symm, h, hp, hturn⟩
      · rw [hturn] at hr
        exact ih (h.turn hp hturn) hr

/-- A resolution is its loop, which ends. -/
theorem doPathResolve_loop {rest : Str} (hroot : openRoot fs root = .ok R)
    (hrest : append [] path = .ok rest) :
    ∃ r, loop fs root path maxTurns (.start R rest) = some r
      ∧ ∀ full buf, doPathResolve fs full buf root path = match r with
        | .error e => (.error e, buf)
        | .ok w => w.result full root := by
  obtain ⟨r, hr, -⟩ := loop_of_start hroot hrest
  refine ⟨r, hr, fun full buf => ?_⟩
  rw [doPathResolve, hroot, hrest]
  simp only
  rw [Vars.start] at hr
  rw [hr]
  rcases r with e | w <;> rfl

/-- **How a resolution ends**: with what the loop leaves, or with the turn that fails. -/
theorem doPathResolve_run {rest : Str} (hroot : openRoot fs root = .ok R)
    (hrest : append [] path = .ok rest) :
    (∃ w, Reached fs root path w ∧ w.ptr = none
        ∧ ∀ full buf, doPathResolve fs full buf root path = w.result full root)
      ∨ ∃ w p e, Reached fs root path w ∧ w.ptr = some p ∧ w.turn fs root path p = .error e
        ∧ ∀ full buf, doPathResolve fs full buf root path = (.error e, buf) := by
  obtain ⟨r, hr, hresolve⟩ := doPathResolve_loop hroot hrest
  obtain ⟨w, rfl, hw, hend⟩ | ⟨w, p, e, rfl, hw, hp, hturn⟩ :=
    (Reached.start hroot hrest).of_loop hr
  · exact .inl ⟨w, hw, hend, hresolve⟩
  · exact .inr ⟨w, p, e, hw, hp, hturn, hresolve⟩

theorem Reached.exists_append (h : Reached fs root path v) : ∃ rest, append [] path = .ok rest := by
  induction h with
  | start _ hrest => exact ⟨_, hrest⟩
  | turn _ _ _ ih => exact ih

/-- More turns change nothing. -/
theorem loop_add {r : Except Failure Vars} (h : loop fs root path n v = some r) (k : ℕ) :
    loop fs root path (n + k) v = some r := by
  induction n generalizing v with
  | zero => cases h
  | succ n ih =>
    rw [show n + 1 + k = n + k + 1 by omega]
    rcases hp : v.ptr with _ | p
    · rw [loop, hp] at h ⊢
      exact h
    · rw [loop_succ hp] at h ⊢
      rcases hturn : v.turn fs root path p with e | w
      · rw [hturn] at h
        exact h
      · rw [hturn] at h
        exact ih h

/-- The loop is on its way through what the variables come to. -/
theorem Reached.loop_start {rest : Str} (hroot : openRoot fs root = .ok R)
    (hrest : append [] path = .ok rest) (h : Reached fs root path v) :
    ∃ k, ∀ n, loop fs root path (n + k) (.start R rest) = loop fs root path n v := by
  induction h with
  | start hroot' hrest' =>
    obtain rfl := Except.ok.inj (hroot.symm.trans hroot')
    obtain rfl := Except.ok.inj (hrest.symm.trans hrest')
    exact ⟨0, fun n => rfl⟩
  | turn _ hp hturn ih =>
    obtain ⟨k, hk⟩ := ih
    refine ⟨k + 1, fun n => ?_⟩
    rw [show n + (k + 1) = n + 1 + k by omega, hk, loop_succ hp, hturn]

/-- **The resolution fails with the turn that fails.** -/
theorem Reached.doPathResolve_error {e : Failure} (hroot : openRoot fs root = .ok R)
    (h : Reached fs root path v) (hp : v.ptr = some p)
    (hturn : v.turn fs root path p = .error e) (full : Bool) (buf : Str) :
    doPathResolve fs full buf root path = (.error e, buf) := by
  obtain ⟨rest, hrest⟩ := h.exists_append
  obtain ⟨r, hr, hresolve⟩ := doPathResolve_loop hroot hrest
  obtain ⟨k, hk⟩ := h.loop_start hroot hrest
  have hfail : loop fs root path (maxTurns + 1) v = some (.error e) := by
    rw [loop_succ hp, hturn]
  have hsame := loop_add hr (1 + k)
  rw [← Nat.add_assoc, hk, hfail] at hsame
  rw [hresolve, ← Option.some.inj hsame]

end Run

/-! ## The run and the reference -/

section Agree

variable {fs : Tree} {root path : Str} {R : Loc} {v v' : Vars} {p : Bool × ℕ} {s : Stack}
  {rest : List Name}

/-- **What the variables come to is what the reference comes to.** -/
theorem Reached.agrees (hroot : openRoot fs root = .ok R) (h : Reached fs root path v) :
    ∃ s rest, Agrees R v s rest ∧ v.nlinks ≤ MAXSYMLINKS
      ∧ Steps (boundedStep fs R) MAXSYMLINKS (components path) {} (MAXSYMLINKS - v.nlinks) rest
        s := by
  induction h with
  | start hopen hrest =>
    obtain rfl := Except.ok.inj (hroot.symm.trans hopen)
    exact ⟨{}, components path, agrees_start hrest, Nat.zero_le _, .refl⟩
  | @turn v v' p _ hp hturn ih =>
    obtain ⟨s, rest, ha, hmax, hsteps⟩ := ih
    obtain ⟨hslash, rest', rfl, ha'⟩ := ha.advance hp
    have hsame : (v.advance p).nlinks = v.nlinks := rfl
    obtain ⟨hnil, rfl⟩ | ⟨hne, s', hstep, hagrees, hlinks, -⟩ |
        ⟨hne, s', t, hstep, hagrees, hlt, hlinks, -⟩ := ha'.token hroot hslash hturn
    · rw [if_pos hnil, List.nil_append] at hsteps
      exact ⟨s, rest', ha', hmax, hsteps⟩
    · rw [if_neg hne] at hsteps
      rw [hlinks]
      exact ⟨s', rest', hagrees, hmax, hsteps.next hstep⟩
    · rw [hsame] at hlt hlinks
      have hleft : MAXSYMLINKS - v.nlinks = MAXSYMLINKS - v'.nlinks + 1 := by omega
      rw [if_neg hne, hleft] at hsteps
      exact ⟨s', t ++ rest', hagrees, by omega, hsteps.splice hstep⟩

end Agree

/-! ## Why a turn fails -/

section Fails

variable {fs : Tree} {root path file : Str} {R : Loc} {v v' : Vars} {s : Stack}
  {rest : List Name} {e : Failure}

theorem append_error {buf path : Str} (h : append buf path = .error e) :
    e = .appendFailed path ∧ PATH_MAX ≤ (appended buf path).length := by
  rw [append, pathAppend] at h
  split_ifs at h with hnil hlong
  obtain rfl := Except.error.inj h
  refine ⟨rfl, ?_⟩
  rw [appended, if_neg hnil, List.length_append]
  omega

theorem Vars.push_error (h : v.push file = .error e) :
    e = .appendFailed file ∧ PATH_MAX ≤ (appended v.realpath file).length := by
  rw [Vars.push] at h
  rcases happend : append v.realpath file with e' | t
  · rw [happend] at h
    obtain rfl := Except.error.inj h
    exact append_error happend
  · rw [happend] at h
    cases h

/-- Following a link fails only where the string is too long: the root is still there. -/
theorem Vars.follow_error {target : Str} (hroot : openRoot fs root = .ok R)
    (hfree : ∀ p, v.ptr = some p → p.1 = !v.link)
    (h : v.follow fs root target = .error e) :
    e.isLoop = false ∧ PATH_MAX ≤ (v.spliced target).length := by
  obtain ⟨w, hw⟩ : ∃ w, v.restart fs root target = .ok w := by
    rw [Vars.restart, hroot]
    split_ifs
    exacts [⟨_, rfl⟩, ⟨_, rfl⟩]
  rw [Vars.follow, hw] at h
  rcases hp : v.ptr with _ | p
  · rw [hp] at h
    cases h
  · have hne : p.1 ≠ v.link := by
      rw [hfree p hp]
      simp
    rw [hp] at h
    simp only [appendPtr, deref_setBuf, deref_setBuf_of_ne hne] at h
    rcases happend : append (target.drop (if target.head? = some '/' then 1 else 0))
      (deref v.dbuf p) with e' | t
    · rw [happend] at h
      obtain rfl := Except.error.inj h
      obtain ⟨rfl, hlong⟩ := append_error happend
      rw [Vars.spliced, hp]
      exact ⟨rfl, hlong⟩
    · rw [happend] at h
      cases h

/-- What `readlinkat` fails with where the directory or the name will not do. -/
theorem boundedStep_refused (hm : s.missing = 0) (hname : file ≠ [] ∧ file ≠ dot ∧ file ≠ dotdot)
    {e : Errno} (h : readlinkat fs (R ++ s.comps) file = .error e) (hnoent : e ≠ .ENOENT)
    (hinval : e ≠ .EINVAL) : boundedStep fs R s file = .fail () ∧ e ≠ .ELOOP := by
  rw [readlinkat] at h
  split_ifs at h with hdir hlong
  · obtain rfl := Except.error.inj h
    rw [boundedStep, if_pos ⟨hm, hname.2.1, hdir⟩]
    exact ⟨rfl, by decide⟩
  · obtain rfl := Except.error.inj h
    rw [boundedStep, if_neg fun hno => hdir hno.2.2, if_pos ⟨hm, hname.2.2, hlong⟩]
    exact ⟨rfl, by decide⟩
  · split at h
    · exact absurd (Except.error.inj h).symm hnoent
    · split_ifs at h
      exact absurd (Except.error.inj h).symm hinval

/-- **Why a lookup fails**: the reference does, a string is too long, or enough links have been
followed. -/
theorem Agrees.lookup_error (hroot : openRoot fs root = .ok R) (ha : Agrees R v s rest)
    (hm : s.missing = 0) (hname : file ≠ [] ∧ file ≠ dot ∧ file ≠ dotdot)
    (h : v.lookup fs root path file = .error e) :
    (e.isLoop = false
        ∧ (boundedStep fs R s file = .fail () ∨ ∃ x ∈ v.needs fs file, PATH_MAX ≤ x.length))
      ∨ e.isLoop = true ∧ MAXSYMLINKS ≤ v.nlinks
        ∧ ((∃ s' t, boundedStep fs R s file = .splice s' t) ∨ v.LooksUpLate fs file) := by
  have hnoents : v.noents = 0 := by rw [ha.noents, hm]
  have hskip : ¬(file = [] ∨ file = dot) := by simp [hname]
  have hneeds : v.needs fs file = match linkTarget fs (v.fd ++ [file]) with
      | some target => [target, v.spliced target]
      | none => [appended v.realpath file] := by
    rw [Vars.needs, if_neg (by simp [hname]), if_neg (by omega)]
  rw [Vars.lookup] at h
  split at h
  · next target hread =>
    obtain ⟨hdir, hlong, i, hi, hlink, htake⟩ := readlinkat_ok hread
    have htarget : linkTarget fs (v.fd ++ [file]) = some i.target := by
      simp [linkTarget, hi, hlink]
    rw [htarget] at hneeds
    split_ifs at h with hbound hmax
    · have htarget' : target = i.target := by
        rw [htake, List.length_take] at hbound
        rw [htake, List.take_of_length_le (by omega)]
      obtain ⟨hloop, hmax⟩ := Vars.follow_error hroot ha.free h
      refine .inl ⟨hloop, .inr ⟨v.spliced target, ?_, hmax⟩⟩
      rw [hneeds, htarget']
      simp
    · obtain rfl := Except.error.inj h
      refine .inl ⟨rfl, .inr ⟨i.target, by simp [hneeds], ?_⟩⟩
      rw [htake, List.length_take] at hmax
      omega
    · obtain rfl := Except.error.inj h
      refine .inr ⟨rfl, by omega, .inl ?_⟩
      rw [ha.fd_eq hm, List.append_assoc] at hi
      rw [boundedStep_name hm hskip hname.2.2 (ha.fd_eq hm ▸ hdir) hlong, hi]
      exact ⟨_, _, if_pos hlink⟩
  · next errno hread =>
    split_ifs at h with hloop hnoent hinval
    · obtain rfl := Except.error.inj h
      refine .inr ⟨rfl, hloop, .inr ⟨hloop, hnoents, hname, fun target ht => ?_⟩⟩
      rw [hread] at ht
      cases ht
    · obtain ⟨-, -, hi⟩ := readlinkat_noent (hnoent ▸ hread)
      obtain ⟨rfl, hlong⟩ := Vars.push_error h
      have htarget : linkTarget fs (v.fd ++ [file]) = none := by simp [linkTarget, hi]
      rw [htarget] at hneeds
      exact .inl ⟨rfl, .inr ⟨_, by simp [hneeds], hlong⟩⟩
    · obtain ⟨-, -, i, hi, hlink⟩ := readlinkat_inval (hinval ▸ hread)
      obtain ⟨rfl, hlong⟩ := Vars.push_error h
      have htarget : linkTarget fs (v.fd ++ [file]) = none := by simp [linkTarget, hi, hlink]
      rw [htarget] at hneeds
      exact .inl ⟨rfl, .inr ⟨_, by simp [hneeds], hlong⟩⟩
    · obtain rfl := Except.error.inj h
      rw [ha.fd_eq hm] at hread
      obtain ⟨hfail, hne⟩ := boundedStep_refused hm hname hread hnoent hinval
      exact .inl ⟨by simp [Failure.isLoop, hne], .inl hfail⟩

/-- **Why a turn fails.** -/
theorem Agrees.token_error (hroot : openRoot fs root = .ok R) (ha : Agrees R v s rest)
    (h : v.token fs root path file = .error e) :
    (e.isLoop = false
        ∧ (boundedStep fs R s file = .fail () ∨ ∃ x ∈ v.needs fs file, PATH_MAX ≤ x.length))
      ∨ e.isLoop = true ∧ MAXSYMLINKS ≤ v.nlinks
        ∧ ((∃ s' t, boundedStep fs R s file = .splice s' t) ∨ v.LooksUpLate fs file) := by
  rw [Vars.token] at h
  split_ifs at h with hskip hup
  · refine .inl ?_
    subst hup
    rw [Vars.up, ha.realpath] at h
    split at h
    · next hcut =>
      obtain rfl := Except.error.inj h
      have hempty : s.comps = [] := by
        by_contra hne
        obtain ⟨cs, c, he⟩ := (List.eq_nil_or_concat s.comps).resolve_left hne
        rw [List.concat_eq_append] at he
        rw [he, cutLast_render cs (ha.names c (by simp [he])).2.1] at hcut
        cases hcut
      refine ⟨rfl, .inl ?_⟩
      rw [boundedStep]
      split_ifs with hnodir hlong
      · rfl
      · rfl
      · rw [refStep, if_neg hskip, if_pos rfl, if_pos hempty]
    · split_ifs at h with hmiss
      rw [openParent] at h
      split_ifs at h with hdir
      · cases h
      · obtain rfl := Except.error.inj h
        have hm : s.missing = 0 := by
          rw [← ha.noents]
          omega
        rw [ha.fd_eq hm] at hdir
        refine ⟨rfl, .inl ?_⟩
        rw [boundedStep, if_pos ⟨hm, by decide, eq_false_of_ne_true hdir⟩]
  · obtain ⟨hne, hdot⟩ := not_or.mp hskip
    have hname : file ≠ [] ∧ file ≠ dot ∧ file ≠ dotdot := ⟨hne, hdot, hup⟩
    rw [Vars.descend] at h
    by_cases hm : 0 < v.noents
    · rw [if_pos hm] at h
      obtain ⟨rfl, hlong⟩ := Vars.push_error h
      refine .inl ⟨rfl, .inr ⟨_, ?_, hlong⟩⟩
      rw [Vars.needs, if_neg (by simp [hname]), if_pos hm]
      exact List.mem_singleton.mpr rfl
    · rw [if_neg hm] at h
      refine ha.lookup_error hroot ?_ hname h
      rw [← ha.noents]
      omega

end Fails

end Resolve
