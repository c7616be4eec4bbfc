import XdxContainer.Path.Run

/-!
# Path/Idempotent — resolving a resolved path

    path ──path_resolve──▸ "/e/x/y" ──path_resolve──▸ "/e/x/y"
                             ╰─ x and y do not exist, nothing on the way to them is a link

A resolution leaves proper components of which those that exist are no links; and every component up
to the first one that does not exist has been looked up in a directory, so that it can be again.

* `pathResolve_idempotent` — what a resolution returns resolves to itself.
-/

open Paths Walk Fs

namespace Resolve

variable {fs : Tree} {root path r : Str} {R : Loc} {s s' : Stack} {c : Name} {t : List Name}

/-! ## What has been looked up -/

/-- Every component up to the first missing one was looked up: in a directory, under a name that is
not too long. -/
def Stack.LookedUp (fs : Tree) (R : Loc) (s : Stack) : Prop :=
  ∀ p c, p ++ [c] <+: s.comps → p.length + s.missing ≤ s.comps.length →
    fs.isDir (R ++ p) = true ∧ ¬NAME_MAX < c.length

/-- A step keeps it. -/
theorem Stack.LookedUp.next (hs : s.LookedUp fs R) (h : boundedStep fs R s c = .next s') :
    s'.LookedUp fs R := by
  -- a component pushed behind the others was looked up if nothing was missing
  have hpush (hlook : s.missing = 0 → fs.isDir (R ++ s.comps) = true ∧ ¬NAME_MAX < c.length)
      (p : List Name) (d : Name) (hpre : p ++ [d] <+: s.comps ++ [c])
      (hlen : p.length + s.missing ≤ s.comps.length) :
      fs.isDir (R ++ p) = true ∧ ¬NAME_MAX < d.length := by
    rcases List.prefix_concat_iff.mp hpre with he | hpre
    · obtain ⟨rfl, hd⟩ := List.append_inj' he rfl
      obtain rfl := List.cons.inj hd |>.1
      exact hlook (by omega)
    · exact hs p d hpre hlen
  obtain ⟨-, rfl⟩ | ⟨-, rfl, -, -⟩ | ⟨-, hlook, ⟨rfl, -⟩ | ⟨hm, rfl, -⟩⟩ := boundedStep_next h
  · exact hs
  · intro p d hpre hlen
    have hpre' := hpre.trans (List.dropLast_prefix s.comps)
    have hle := hpre'.length_le
    simp only [Stack.pop, List.length_dropLast] at hlen
    simp only [List.length_append, List.length_singleton] at hle
    exact hs p d hpre' (by omega)
  · intro p d hpre hlen
    simp only [Stack.pushMissing, List.length_append, List.length_singleton] at hlen
    exact hpush hlook p d hpre (by omega)
  · intro p d hpre hlen
    have hle := hpre.length_le
    simp only [Stack.push, List.length_append, List.length_singleton] at hle
    exact hpush hlook p d hpre (by omega)

theorem Stack.LookedUp.splice (hs : s.LookedUp fs R) (h : boundedStep fs R s c = .splice s' t) :
    s'.LookedUp fs R := by
  obtain ⟨-, -, -, i, -, -, rfl, -⟩ := boundedStep_splice h
  rw [Stack.atLink]
  split_ifs
  · intro p d hpre _
    exact absurd (List.prefix_nil.mp hpre) (by simp)
  · exact hs

/-! ## The second resolution -/

/-- What the first resolution has left. -/
structure Settled (fs : Tree) (R : Loc) (s : Stack) : Prop where
  resolved : s.Resolved fs R
  lookedUp : s.LookedUp fs R
  missing : s.missing ≤ s.comps.length
  names : ∀ c ∈ s.comps, c ≠ [] ∧ '/' ∉ c ∧ c ≠ dot ∧ c ≠ dotdot

/-- The text of a resolved path, where it fits. -/
theorem result_render {v : Vars} {comps : List Name} (hv : v.realpath = render comps) :
    v.result false root = if (render comps).length < PATH_MAX then (.ok (), render comps)
      else (.error (.appendFailed v.realpath), (render comps).take (PATH_MAX - 1)) := by
  rw [Vars.result, hv, if_neg Bool.false_ne_true, pathNew_render]
  split_ifs <;> rfl

/-- **What a resolution leaves is settled.** -/
theorem settled_of_pathResolve {buf : Str} (h : pathResolve fs buf root path = (.ok (), r)) :
    ∃ R s, openRoot fs root = .ok R ∧ Settled fs R s ∧ r = render s.comps
      ∧ (render s.comps).length < PATH_MAX := by
  obtain ⟨R, -, -, hroot, -⟩ := doPathResolve_walk h
  obtain ⟨rest, hrest⟩ : ∃ rest, append [] path = .ok rest := by
    rcases happend : append [] path with e | rest
    · rw [pathResolve, doPathResolve, hroot, happend] at h
      cases h
    · exact ⟨rest, rfl⟩
  obtain ⟨w, hw, hend, hresult⟩ | ⟨w, p, e, -, -, -, hresult⟩ := doPathResolve_run hroot hrest
  · obtain ⟨s, left, ha, -, hsteps⟩ := hw.agrees hroot
    have hleft : left = [] := by
      rw [ha.rest, hend]
      rfl
    rw [hleft] at hsteps
    have hwalk := (hsteps.walk_eq ()).trans (walk_nil _ s)
    have hempty : Stack.LookedUp fs R {} :=
      fun p d hpre _ => absurd (List.prefix_nil.mp hpre) (by simp)
    have hlooked : s.LookedUp fs R :=
      walk_invariant (fun hI h => hI.next h) (fun hI h => hI.splice h) hwalk hempty
    rw [pathResolve, hresult, result_render ha.realpath] at h
    split_ifs at h with hshort
    swap
    · cases (Prod.mk.inj h).1
    exact ⟨R, s, hroot, ⟨resolved_of_walk hwalk, hlooked, ha.missing, ha.names⟩,
      (Prod.mk.inj h).2.symm, hshort⟩
  · rw [pathResolve, hresult] at h
    cases h

/-- **How far the second resolution has come**: the first components of the result, no link met, and
nothing missing as long as they exist. -/
structure Retraces (fs : Tree) (R : Loc) (comps : List Name) (v : Vars) (s : Stack)
    (left : List Name) : Prop extends Agrees R v s left where
  whole : s.comps ++ left = comps
  unlinked : v.nlinks = 0
  present : s.missing = 0 → s.comps = [] ∨ ∃ i, fs.inode (R ++ s.comps) = some i

section Retrace

variable {first : Stack} {v v' : Vars} {rest : List Name}

/-- The next component of a settled stack is pushed. -/
theorem Settled.next (hf : Settled fs R first) (hv : Retraces fs R first.comps v s rest)
    (hpre : s.comps ++ [c] <+: first.comps) : ∃ s', boundedStep fs R s c = .next s' := by
  have hc := hf.names c (hpre.subset (by simp))
  have hskip : ¬(c = [] ∨ c = dot) := by simp [hc]
  by_cases hm : s.missing = 0
  · have hlen : s.comps.length + first.missing ≤ first.comps.length := by
      rcases hv.present hm with hnil | ⟨i, hi⟩
      · rw [hnil, List.length_nil, Nat.zero_add]
        exact hf.missing
      · by_contra hlt
        rw [hf.resolved.absent s.comps ((List.prefix_append _ _).trans hpre) (by omega)] at hi
        cases hi
    obtain ⟨hdir, hlong⟩ := hf.lookedUp s.comps c hpre hlen
    rw [boundedStep_name hm hskip hc.2.2.2 hdir hlong]
    rcases hi : fs.inode (R ++ (s.comps ++ [c])) with _ | i
    · exact ⟨_, rfl⟩
    · have hlink := hf.resolved.linkFree _ (by simp) hpre i hi
      exact ⟨s.push c, if_neg (by simp [hlink])⟩
  · refine ⟨s.pushMissing c, ?_⟩
    rw [boundedStep, if_neg (by omega), if_neg (by omega), refStep, if_neg hskip, if_neg hc.2.2.2,
      if_pos (by omega)]

/-- What the next component needs fits: it is a part of the result. -/
theorem Settled.needs (hf : Settled fs R first) (hshort : (render first.comps).length < PATH_MAX)
    (ha : Agrees R v s rest) (hpre : s.comps ++ [c] <+: first.comps) :
    ∀ x ∈ v.needs fs c, x.length < PATH_MAX := by
  have hc := hf.names c (hpre.subset (by simp))
  have hnolink : (if 0 < v.noents then none else linkTarget fs (v.fd ++ [c])) = none := by
    split_ifs with hm
    · rfl
    · have hm' : s.missing = 0 := by
        rw [← ha.noents]
        omega
      rw [linkTarget, ha.fd_eq hm', List.append_assoc]
      rcases hi : fs.inode (R ++ (s.comps ++ [c])) with _ | i
      · rfl
      · exact if_neg (by simp [hf.resolved.linkFree _ (by simp) hpre i hi])
  intro x hx
  rw [Vars.needs, if_neg (by simp [hc]), hnolink] at hx
  rw [List.mem_singleton.mp hx, ha.realpath,
    appended_render (fun d hd => ⟨(ha.names d hd).1, (ha.names d hd).2.1⟩) ⟨hc.1, hc.2.1⟩]
  obtain ⟨more, hmore⟩ := hpre
  rw [← hmore, render_append, List.length_append] at hshort
  omega

/-- **A turn retraces the first resolution.** -/
theorem Settled.turn (hroot : openRoot fs root = .ok R) (hf : Settled fs R first)
    (hshort : (render first.comps).length < PATH_MAX) {p : Bool × ℕ} (hp : v.ptr = some p)
    (hv : Retraces fs R first.comps v s rest) :
    ∃ v' s' rest', v.turn fs root path p = .ok v' ∧ Retraces fs R first.comps v' s' rest' := by
  obtain ⟨hslash, rest', rfl, ha⟩ := hv.advance hp
  by_cases hnil : v.file p = []
  · rw [if_pos hnil, List.nil_append] at hv
    refine ⟨v.advance p, s, rest', ?_, ha, hv.whole, hv.unlinked, hv.present⟩
    rw [Vars.turn, Vars.token, if_pos (.inl hnil)]
  rw [if_neg hnil, List.singleton_append] at hv
  have hpre : s.comps ++ [v.file p] <+: first.comps := ⟨rest', by rw [← hv.whole]; simp⟩
  obtain ⟨s', hstep⟩ := hf.next hv hpre
  obtain ⟨hne, -, hdot, hup⟩ := hf.names (v.file p) (hpre.subset (by simp))
  have hneeds := hf.needs hshort ha hpre
  rcases hturn : v.turn fs root path p with e | v'
  · obtain ⟨-, hfail | ⟨x, hx, hlong⟩⟩ | ⟨-, hmax, -⟩ := ha.token_error hroot hturn
    · rw [hstep] at hfail
      cases hfail
    · exact absurd (hneeds x hx) (by omega)
    · have hlinks : (v.advance p).nlinks = 0 := hv.unlinked
      rw [hlinks] at hmax
      exact absurd hmax (by decide)
  · obtain ⟨hnil', -⟩ | ⟨-, s'', hstep', hagrees, hlinks, -⟩ | ⟨-, s'', t, hstep', -⟩ :=
      ha.token hroot hslash hturn
    · exact absurd hnil' hnil
    · refine ⟨v', s'', rest', rfl, hagrees, ?_, hlinks.trans hv.unlinked, ?_⟩
      all_goals
        obtain ⟨hskip, -⟩ | ⟨hup', -⟩ | ⟨-, -, ⟨rfl, -⟩ | ⟨-, rfl, i, hi, -⟩⟩ :=
          boundedStep_next hstep'
      · exact absurd hskip (by simp [hne, hdot])
      · exact absurd hup' hup
      · rw [Stack.pushMissing, ← hv.whole]
        simp
      · rw [Stack.push, ← hv.whole]
        simp
      · exact absurd hskip (by simp [hne, hdot])
      · exact absurd hup' hup
      · exact fun hm => absurd hm (by simp [Stack.pushMissing])
      · exact fun _ => .inr ⟨i, hi⟩
    · rw [hstep] at hstep'
      cases hstep'

/-- **Every turn of the second resolution retraces the first one.** -/
theorem Settled.reached (hroot : openRoot fs root = .ok R) (hf : Settled fs R first)
    (hshort : (render first.comps).length < PATH_MAX)
    (h : Reached fs root (render first.comps) v) :
    ∃ s rest, Retraces fs R first.comps v s rest := by
  induction h with
  | start hopen hrest =>
    obtain rfl := Except.ok.inj (hroot.symm.trans hopen)
    refine ⟨{}, first.comps, ?_, rfl, rfl, fun _ => .inl rfl⟩
    have ha := agrees_start (R := R) hrest
    rwa [components_render fun c hc => ⟨(hf.names c hc).1, (hf.names c hc).2.1⟩] at ha
  | turn _ hp hturn ih =>
    obtain ⟨s, rest, hv⟩ := ih
    obtain ⟨v', s', rest', hturn', hv'⟩ := hf.turn hroot hshort hp hv
    obtain rfl := Except.ok.inj (hturn.symm.trans hturn')
    exact ⟨s', rest', hv'⟩

end Retrace

/-- **Resolution is idempotent**: what `path_resolve` returns it resolves to itself, the components
that do not exist included. -/
theorem pathResolve_idempotent {buf : Str} (h : pathResolve fs buf root path = (.ok (), r))
    (buf' : Str) : pathResolve fs buf' root r = (.ok (), r) := by
  obtain ⟨R, first, hroot, hf, rfl, hshort⟩ := settled_of_pathResolve h
  have hrest : append [] (render first.comps) = .ok (render first.comps) := by
    have hnew := pathNew_render first.comps
    rw [if_pos hshort, pathNew] at hnew
    rw [append, hnew]
  obtain ⟨w, hw, hend, hresult⟩ | ⟨w, p, e, hw, hp, hturn, -⟩ := doPathResolve_run hroot hrest
  · obtain ⟨s, rest, hv⟩ := hf.reached hroot hshort hw
    have hwhole : s.comps = first.comps := by
      have hleft : rest = [] := by
        rw [hv.rest, hend]
        rfl
      rw [← hv.whole, hleft, List.append_nil]
    rw [pathResolve, hresult, result_render (hwhole ▸ hv.realpath), if_pos hshort]
  · obtain ⟨s, rest, hv⟩ := hf.reached hroot hshort hw
    obtain ⟨w', -, -, hturn', -⟩ := hf.turn hroot hshort hp hv
    rw [hturn] at hturn'
    cases hturn'

/-- `l/../l/x/../y` below `/r` is `/e/y`, where `y` does not exist, and so is `/e/y`. -/
theorem pathResolve_idempotent_linked :
    pathResolve linked [] ['/', 'r'] ['l', '/', '.', '.', '/', 'l', '/', 'x', '/', '.', '.', '/',
      'y'] = (.ok (), ['/', 'e', '/', 'y'])
      ∧ pathResolve linked [] ['/', 'r'] ['/', 'e', '/', 'y'] = (.ok (), ['/', 'e', '/', 'y']) := by
  have h : pathResolve linked [] ['/', 'r'] ['l', '/', '.', '.', '/', 'l', '/', 'x', '/', '.',
      '.', '/', 'y'] = (.ok (), ['/', 'e', '/', 'y']) := by decide +kernel
  exact ⟨h, pathResolve_idempotent h []⟩

end Resolve
