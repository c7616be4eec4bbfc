import XdxContainer.Path.Run

/-!
# Path/LinkLimit — how many links a resolution follows

    l₁/l₂/…/l₂₀/d      20 links, and d is none: `ELOOP`
    l₁/l₂/…/l₂₀        20 links, and nothing is looked up any more: resolved

The limit is tested where a component is a link and, in the branch of the others, where it is none.
So the last link that is allowed works only if no other name has to be looked up behind it.

* `limitExact_iff` — when a resolution fails for too many links only if there are too many.
* `not_looksUpLate_of_reference` — with a link to spare there is nothing in between.
-/

open Paths Walk Fs

namespace Resolve

/-- More links than are allowed would have to be followed: the reference meets another one. -/
def TooManyLinks (fs : Tree) (R : Loc) (path : Str) : Prop :=
  ∃ s c rest s' t, Steps (refStep fs R) MAXSYMLINKS (components path) {} 0 (c :: rest) s
    ∧ refStep fs R s c = .splice s' t

/-- **All accesses are permitted**: every component that the reference looks up, or leaves by `..`,
is in a directory, and no name that is looked up is too long. -/
def Permitted (fs : Tree) (R : Loc) (path : Str) : Prop :=
  ∀ k s c rest, Steps (refStep fs R) MAXSYMLINKS (components path) {} k (c :: rest) s →
    s.missing = 0 → c ≠ dot →
    fs.isDir (R ++ s.comps) = true ∧ (c ≠ dotdot → ¬NAME_MAX < c.length)

/-- **No string of `PATH_MAX` or more characters is needed**: not for the path, for a component or
for the result. -/
structure Fits (fs : Tree) (full : Bool) (root path : Str) : Prop where
  start : (appended [] path).length < PATH_MAX
  component : ∀ v p, Reached fs root path v → v.ptr = some p →
    ∀ x ∈ (v.advance p).needs fs (v.file p), x.length < PATH_MAX
  result : ∀ v, Reached fs root path v → v.ptr = none →
    (appended [] (if full then root else v.realpath)).length < PATH_MAX
      ∧ (full = true → (appended (appended [] root) v.realpath).length < PATH_MAX)

/-- **The limit is exact**: a path that the reference resolves with the links allowed resolves, and
`ELOOP` is reported only where there are more. -/
structure LimitExact (fs : Tree) (full : Bool) (root : Str) (R : Loc) (path : Str) : Prop where
  resolves : (∃ s, reference fs R MAXSYMLINKS path = .ok s) → Permitted fs R path →
    Fits fs full root path → ∀ buf, ∃ t, doPathResolve fs full buf root path = (.ok (), t)
  loop : ∀ buf e t, doPathResolve fs full buf root path = (.error e, t) → e.isLoop = true →
    TooManyLinks fs R path

/-- The loop comes to a name that is looked up after the last link allowed, and is no link. -/
def LooksUpLate (fs : Tree) (root path : Str) : Prop :=
  ∃ v p, Reached fs root path v ∧ v.ptr = some p ∧ (v.advance p).LooksUpLate fs (v.file p)

section Limit

variable {fs : Tree} {full : Bool} {root path : Str} {R : Loc} {v : Vars} {p : Bool × ℕ}

/-- The reference makes every step of the code's resolution. -/
theorem refStep_eq {s : Stack} {c : Name} (h : boundedStep fs R s c ≠ .fail ()) :
    refStep fs R s c = boundedStep fs R s c := by
  rw [boundedStep] at h ⊢
  split_ifs at h ⊢
  · exact absurd rfl h
  · exact absurd rfl h
  · rfl

theorem steps_reference {k : ℕ} {l rest : List Name} {s s' : Stack} {n : ℕ}
    (h : Steps (boundedStep fs R) n l s k rest s') : Steps (refStep fs R) n l s k rest s' :=
  h.of_imp (fun h => (refStep_eq (by simp [h])).trans h)
    (fun h => (refStep_eq (by simp [h])).trans h)

/-- Where there are too many links the reference does not get through. -/
theorem TooManyLinks.reference (h : TooManyLinks fs R path) :
    reference fs R MAXSYMLINKS path = .error () := by
  obtain ⟨s, c, rest, s', t, hsteps, hstep⟩ := h
  rw [Resolve.reference, hsteps.walk_eq, walk_splice_zero hstep]
  rfl

/-- A late lookup fails with `ELOOP`. -/
theorem Vars.LooksUpLate.token {file : Str} (h : v.LooksUpLate fs file) :
    v.token fs root path file = .error (.pathError root path .ELOOP) := by
  obtain ⟨hlinks, hnoents, ⟨hne, hdot, hup⟩, hnotLink⟩ := h
  rw [Vars.token, if_neg (by simp [hne, hdot]), if_neg hup, Vars.descend, if_neg (by omega),
    Vars.lookup]
  split
  · next target hread => exact absurd hread (hnotLink target)
  · rw [if_pos hlinks]

/-- The result fits. -/
theorem Fits.result_ok (h : Fits fs full root path) (hv : Reached fs root path v)
    (hend : v.ptr = none) : ∃ t, v.result full root = (.ok (), t) := by
  obtain ⟨hfirst, hsecond⟩ := h.result v hv hend
  have hnil : ([] : Str).length < PATH_MAX := by decide
  rcases full
  · rw [if_neg Bool.false_ne_true] at hfirst
    rw [Vars.result, if_neg Bool.false_ne_true, pathNew, pathAppend_eq hnil, if_pos hfirst]
    exact ⟨_, rfl⟩
  · rw [if_pos rfl] at hfirst
    rw [Vars.result, if_pos rfl, pathJoin, pathNew, pathAppend_eq hnil, if_pos hfirst]
    simp only
    rw [pathAppend_eq hfirst, if_pos (hsecond rfl)]
    exact ⟨_, rfl⟩

theorem result_isLoop {e : Failure} {t : Str} (h : v.result full root = (.error e, t)) :
    e.isLoop = false := by
  rw [Vars.result] at h
  split at h
  · cases h
  · obtain rfl := Except.error.inj (Prod.mk.inj h).1
    rfl

/-- A turn on an empty component goes on. -/
theorem file_ne_nil {e : Failure} (h : v.turn fs root path p = .error e) : v.file p ≠ [] := by
  intro hnil
  rw [Vars.turn, Vars.token, if_pos (.inl hnil)] at h
  cases h

/-- **Why the turn that ends a resolution fails**, in terms of the reference. -/
theorem Reached.turn_error {e : Failure} (hroot : openRoot fs root = .ok R)
    (hv : Reached fs root path v) (hp : v.ptr = some p)
    (h : v.turn fs root path p = .error e) :
    (e.isLoop = false ∧ ((Permitted fs R path → reference fs R MAXSYMLINKS path = .error ())
        ∨ ∃ x ∈ (v.advance p).needs fs (v.file p), PATH_MAX ≤ x.length))
      ∨ e.isLoop = true
        ∧ (TooManyLinks fs R path ∨ (v.advance p).LooksUpLate fs (v.file p)) := by
  obtain ⟨s, rest, ha, hmax, hsteps⟩ := hv.agrees hroot
  obtain ⟨-, rest', rfl, ha'⟩ := ha.advance hp
  rw [if_neg (file_ne_nil h), List.singleton_append] at hsteps
  have hsteps' := steps_reference hsteps
  obtain ⟨hloop, hfail | hlong⟩ | ⟨hloop, hlinks, ⟨s', t, hsplice⟩ | hlate⟩ :=
    ha'.token_error hroot h
  · refine .inl ⟨hloop, .inl fun hpermitted => ?_⟩
    have hfail' : refStep fs R s (v.file p) = .fail () := by
      rw [boundedStep] at hfail
      split_ifs at hfail with hnodir hlong
      · have hdir := (hpermitted _ _ _ _ hsteps' hnodir.1 hnodir.2.1).1
        rw [hdir] at hnodir
        cases hnodir.2.2
      · by_cases hdot : v.file p = dot
        · rw [hdot] at hlong
          exact absurd hlong.2.2 (by decide)
        · exact absurd hlong.2.2 ((hpermitted _ _ _ _ hsteps' hlong.1 hdot).2 hlong.2.1)
      · exact hfail
    rw [Resolve.reference, hsteps'.walk_eq, walk_fail hfail']
    rfl
  · exact .inl ⟨hloop, .inr hlong⟩
  · have hzero : MAXSYMLINKS - v.nlinks = 0 := by
      have hsame : (v.advance p).nlinks = v.nlinks := rfl
      omega
    rw [hzero] at hsteps'
    have hsplice' := (refStep_eq (by simp [hsplice])).trans hsplice
    exact .inr ⟨hloop, .inl ⟨s, _, _, s', t, hsteps', hsplice'⟩⟩
  · exact .inr ⟨hloop, .inr hlate⟩

/-- **What resolves**: a path that the reference resolves, where all is permitted and fits and no
name is looked up late. -/
theorem doPathResolve_of_fits {s : Stack} (hroot : openRoot fs root = .ok R)
    (hs : reference fs R MAXSYMLINKS path = .ok s) (hpermitted : Permitted fs R path)
    (hfits : Fits fs full root path) (hlate : ¬LooksUpLate fs root path) (buf : Str) :
    ∃ t, doPathResolve fs full buf root path = (.ok (), t) := by
  have hrest : append [] path = .ok (appended [] path) := by
    have hnil : ([] : Str).length < PATH_MAX := by decide
    rw [append, pathAppend_eq hnil, if_pos hfits.start]
  obtain ⟨w, hw, hend, hresult⟩ | ⟨w, p, e, hw, hp, hturn, -⟩ := doPathResolve_run hroot hrest
  · rw [hresult]
    exact hfits.result_ok hw hend
  · obtain ⟨-, hfail | ⟨x, hx, hlong⟩⟩ | ⟨-, hmany | hlate'⟩ := hw.turn_error hroot hp hturn
    · rw [hfail hpermitted] at hs
      cases hs
    · exact absurd (hfits.component w p hw hp x hx) (by omega)
    · rw [hmany.reference] at hs
      cases hs
    · exact absurd ⟨w, p, hw, hp, hlate'⟩ hlate

/-- **Why a resolution fails with `ELOOP`.** -/
theorem tooManyLinks_or_late {buf t : Str} {e : Failure} (hroot : openRoot fs root = .ok R)
    (h : doPathResolve fs full buf root path = (.error e, t)) (hloop : e.isLoop = true) :
    TooManyLinks fs R path ∨ LooksUpLate fs root path := by
  rcases happend : append [] path with e' | rest
  · rw [doPathResolve, hroot, happend] at h
    obtain rfl := Except.error.inj (Prod.mk.inj h).1
    obtain ⟨rfl, -⟩ := append_error happend
    cases hloop
  obtain ⟨w, -, -, hresult⟩ | ⟨w, p, e', hw, hp, hturn, hresult⟩ :=
    doPathResolve_run hroot happend
  · rw [hresult] at h
    rw [result_isLoop h] at hloop
    cases hloop
  · rw [hresult] at h
    obtain rfl := Except.error.inj (Prod.mk.inj h).1
    obtain ⟨hno, -⟩ | ⟨-, hmany | hlate⟩ := hw.turn_error hroot hp hturn
    · rw [hno] at hloop
      cases hloop
    · exact .inl hmany
    · exact .inr ⟨w, p, hw, hp, hlate⟩

/-- **When the limit is exact**: when there are too many links, or no name that is none is looked up
behind the last link allowed. -/
theorem limitExact_iff (hroot : openRoot fs root = .ok R) :
    LimitExact fs full root R path ↔ TooManyLinks fs R path ∨ ¬LooksUpLate fs root path := by
  constructor
  · intro h
    refine or_iff_not_imp_right.mpr fun hlate => ?_
    obtain ⟨v, p, hv, hp, hlate⟩ := not_not.mp hlate
    exact h.loop [] _ _ (hv.doPathResolve_error hroot hp hlate.token full []) rfl
  · intro hcond
    refine ⟨fun ⟨s, hs⟩ hpermitted hfits buf => ?_, fun buf e t h hloop => ?_⟩
    · have hfew : ¬TooManyLinks fs R path := by
        intro hmany
        rw [hmany.reference] at hs
        cases hs
      exact doPathResolve_of_fits hroot hs hpermitted hfits (hcond.resolve_left hfew) buf
    · refine (tooManyLinks_or_late hroot h hloop).elim id fun hlate => ?_
      exact hcond.resolve_right (not_not_intro hlate)

/-- **With a link to spare no name is looked up late.** -/
theorem not_looksUpLate_of_reference {s : Stack} (hroot : openRoot fs root = .ok R)
    (hs : reference fs R (MAXSYMLINKS - 1) path = .ok s) : ¬LooksUpLate fs root path := by
  rintro ⟨v, p, hv, -, hlinks, -⟩
  obtain ⟨_, rest, -, -, hsteps⟩ := hv.agrees hroot
  have hspent : MAXSYMLINKS - v.nlinks = 0 := Nat.sub_eq_zero_of_le hlinks
  rw [hspent] at hsteps
  obtain ⟨j, hj, -⟩ | ⟨-, hend⟩ := (steps_reference hsteps).one_less ()
  · cases hj
  · have hfails : walk (refStep fs R) () (MAXSYMLINKS - 1) (components path) {} = .error () := hend
    rw [reference, hfails] at hs
    cases hs

end Limit

/-- `/` holds a directory `d` and a link `l` to `.`. -/
def looped : Tree :=
  .ofNodes [([], { mode := ⟨.dir, 0x1ed⟩ }), ([['d']], { mode := ⟨.dir, 0x1ed⟩ }),
    ([['l']], { mode := ⟨.lnk, 0x1ff⟩, size := 1, target := ['.'] })] (by decide)

/-- `l/l/…/l/d`. -/
def throughLinks (n : ℕ) : Str := (List.replicate n ['l', '/']).flatten ++ ['d']

/-- **Nineteen links and a directory behind them**: the limit is exact. -/
theorem limitExact_looped : LimitExact looped false ['/'] [] (throughLinks 19) := by
  have hreference : (reference looped [] (MAXSYMLINKS - 1) (throughLinks 19)).toBool = true := by
    decide +kernel
  rcases hs : reference looped [] (MAXSYMLINKS - 1) (throughLinks 19) with e | s
  · rw [hs] at hreference
    cases hreference
  · exact (limitExact_iff (by decide +kernel)).mpr
      (.inr (not_looksUpLate_of_reference (by decide +kernel) hs))

/-- **Twenty links and a directory behind them**: `ELOOP`, although the reference gets through. -/
theorem not_limitExact : ¬LimitExact looped false ['/'] [] (throughLinks 20) := by
  intro h
  have hrun : doPathResolve looped false [] ['/'] (throughLinks 20)
      = (.error (.pathError ['/'] (throughLinks 20) .ELOOP), []) := by decide +kernel
  have hreference : (reference looped [] MAXSYMLINKS (throughLinks 20)).toBool = true := by
    decide +kernel
  rw [(h.loop [] _ _ hrun rfl).reference] at hreference
  cases hreference

end Resolve
