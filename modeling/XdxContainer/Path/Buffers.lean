import XdxContainer.Path.Run

/-!
# Path/Buffers — how far the buffers of a resolution are written

    dbuf[link]   t a r g e t / r e s t ␀          a relative target: `path_append` counts from here
                 / t a r g e t / r e s t ␀        an absolute one: from behind the slash
                 ╰ `++link`

`path_append` is given the pointer behind the slash of an absolute target and lets the string have
`PATH_MAX` bytes from there, one more than the array has left.

* `buffersBounded_iff` — when no string leaves its array.
-/

open Paths Walk Fs

namespace Resolve

/-- The target of the link that a turn follows, if it follows one. -/
def Vars.follows (fs : Tree) (file : Str) (v : Vars) : Option Str :=
  if file = [] ∨ file = dot ∨ file = dotdot ∨ 0 < v.noents then none
  else
    match readlinkat fs v.fd file with
    | .ok target => if target.length < PATH_MAX ∧ v.nlinks < MAXSYMLINKS then some target else none
    | .error _ => none

/-- **The strings a turn stores in the buffer that is free**, from the start of the array: the
target of a link, and the target with what is left of the path behind it, or as much of that as
fits. -/
def Vars.stores (fs : Tree) (file : Str) (v : Vars) : List Str :=
  match v.follows fs file with
  | none => []
  | some target =>
    let off := if target.head? = some '/' then 1 else 0
    [target, target.take off
      ++ v.ptr.elim (target.drop off) fun p => (pathAppend (target.drop off) (deref v.dbuf p)).2]

/-- **The strings stored in the buffers** at some point of a resolution.  `strsep` only makes them
shorter. -/
inductive Stored (fs : Tree) (root path : Str) : Str → Prop
  | start {fd} (hroot : openRoot fs root = .ok fd) : Stored fs root path (pathAppend [] path).2
  | turn {v p x} (h : Reached fs root path v) (hp : v.ptr = some p)
      (hx : x ∈ (v.advance p).stores fs (v.file p)) : Stored fs root path x

/-- **No string leaves its array**, the terminating NUL included. -/
def BuffersBounded (fs : Tree) (root path : Str) : Prop :=
  ∀ x, Stored fs root path x → x.length + 1 ≤ PATH_MAX

/-- An absolute link whose target, without the slash, and what is left of the path do not leave a
byte of `PATH_MAX` besides the NUL. -/
def Vars.Tight (fs : Tree) (file : Str) (v : Vars) : Prop :=
  ∃ target, v.follows fs file = some target ∧ target.head? = some '/'
    ∧ PATH_MAX ≤ (v.spliced target).length + 1

section Buffers

variable {fs : Tree} {root path file : Str} {v v' : Vars} {target x : Str}

/-- What `path_append` leaves is cut at the size it counts with. -/
theorem length_pathAppend {buf path : Str} (hbuf : buf.length < PATH_MAX) :
    (pathAppend buf path).2.length = min (appended buf path).length (PATH_MAX - 1) := by
  rw [pathAppend_eq hbuf]
  split_ifs with hfits
  · simp only
    omega
  · rw [List.length_take, Nat.min_comm]

theorem length_of_follows (h : v.follows fs file = some target) : target.length < PATH_MAX := by
  rw [Vars.follows] at h
  split_ifs at h
  split at h
  · split_ifs at h with hbound
    exact Option.some.inj h ▸ hbound.1
  · cases h

/-- **How long the strings of a turn are.** -/
theorem length_stores (h : v.follows fs file = some target) :
    ∃ y, v.stores fs file = [target, y]
      ∧ y.length = (if target.head? = some '/' then 1 else 0)
        + min (v.spliced target).length (PATH_MAX - 1) := by
  have hlen := length_of_follows h
  set off := if target.head? = some '/' then 1 else 0 with hoff
  have hdrop : (target.drop off).length < PATH_MAX := by
    rw [List.length_drop]
    omega
  have htake : (target.take off).length = off := by
    rw [List.length_take, hoff]
    rcases target with _ | ⟨c, l⟩
    · rfl
    · split_ifs <;> simp
  refine ⟨_, by rw [Vars.stores, h], ?_⟩
  rw [List.length_append, htake]
  congr 1
  rcases hp : v.ptr with _ | p
  · rw [Vars.spliced, hp, Option.elim_none, Option.map_none, Option.getD_none, appended,
      if_pos rfl, List.append_nil, ← hoff]
    omega
  · rw [Vars.spliced, hp, Option.elim_some, length_pathAppend hdrop]
    rfl

theorem stores_of_follows_none (h : v.follows fs file = none) : v.stores fs file = [] := by
  rw [Vars.stores, h]

/-- A turn stays within the array unless it is tight. -/
theorem length_lt_of_not_tight (h : ¬v.Tight fs file) (hx : x ∈ v.stores fs file) :
    x.length + 1 ≤ PATH_MAX := by
  rcases hfollows : v.follows fs file with _ | target
  · rw [stores_of_follows_none hfollows] at hx
    cases hx
  obtain ⟨y, hstores, hy⟩ := length_stores hfollows
  rw [hstores] at hx
  rcases List.mem_cons.mp hx with rfl | hx
  · exact length_of_follows hfollows
  · obtain rfl := List.mem_singleton.mp hx
    have hpos : 0 < PATH_MAX := by decide
    split_ifs at hy with habs
    · have hroom : ¬PATH_MAX ≤ (v.spliced target).length + 1 :=
        fun hmax => h ⟨target, hfollows, habs, hmax⟩
      omega
    · omega

/-- A tight turn writes a byte behind the array. -/
theorem Vars.Tight.exists_stores (h : v.Tight fs file) :
    ∃ x ∈ v.stores fs file, PATH_MAX < x.length + 1 := by
  obtain ⟨target, hfollows, habs, hmax⟩ := h
  obtain ⟨y, hstores, hy⟩ := length_stores hfollows
  have hpos : 0 < PATH_MAX := by decide
  rw [if_pos habs] at hy
  exact ⟨y, by simp [hstores], by omega⟩

/-! ## What is in the buffers -/

theorem push_dbuf (h : v.push file = .ok v') : v'.dbuf = v.dbuf := by
  obtain ⟨t, -, h⟩ := Except.bind_eq_ok h
  obtain rfl := Except.ok.inj h
  rfl

theorem up_dbuf (h : v.up fs root path = .ok v') : v'.dbuf = v.dbuf := by
  rw [Vars.up] at h
  split at h
  · cases h
  · split_ifs at h
    · obtain rfl := Except.ok.inj h
      rfl
    · obtain ⟨fd, -, h⟩ := Except.bind_eq_ok h
      obtain rfl := Except.ok.inj h
      rfl

/-- The branch of a link leaves what it stored last. -/
theorem follow_dbuf (hfree : ∀ p, v.ptr = some p → p.1 = !v.link)
    (hfollows : v.follows fs file = some target) (h : v.follow fs root target = .ok v') :
    ∃ x ∈ v.stores fs file, ∀ b, v'.dbuf b = if b = v.link then x else v.dbuf b := by
  obtain ⟨w, -, h⟩ := Except.bind_eq_ok h
  obtain ⟨t, ht, h⟩ := Except.bind_eq_ok h
  obtain rfl := Except.ok.inj h
  have ht' : t = v.ptr.elim (target.drop (if target.head? = some '/' then 1 else 0)) fun p =>
      (pathAppend (target.drop (if target.head? = some '/' then 1 else 0))
        (deref v.dbuf p)).2 := by
    rcases hp : v.ptr with _ | p
    · rw [hp, appendPtr, deref_setBuf] at ht
      exact (Except.ok.inj ht).symm
    · have hne : p.1 ≠ v.link := by
        rw [hfree p hp]
        simp
      rw [hp, appendPtr, deref_setBuf, deref_setBuf_of_ne hne] at ht
      rw [Option.elim_some, append_ok ht]
  refine ⟨target.take (if target.head? = some '/' then 1 else 0) ++ t, ?_, fun b => ?_⟩
  · rw [Vars.stores, hfollows, ht']
    exact List.mem_cons_of_mem _ (List.mem_singleton.mpr rfl)
  · by_cases hb : b = v.link
    · simp [setBuf, hb]
    · simp [setBuf, hb]

/-- **The buffers after a turn**: only what the turn stored is new. -/
theorem token_dbuf (hfree : ∀ p, v.ptr = some p → p.1 = !v.link)
    (h : v.token fs root path file = .ok v') (b : Bool) :
    v'.dbuf b = v.dbuf b ∨ v'.dbuf b ∈ v.stores fs file := by
  rw [Vars.token] at h
  split_ifs at h with hskip hup
  · obtain rfl := Except.ok.inj h
    exact .inl rfl
  · exact .inl (congrFun (up_dbuf h) b)
  rw [Vars.descend] at h
  split_ifs at h with hm
  · exact .inl (congrFun (push_dbuf h) b)
  rw [Vars.lookup] at h
  split at h
  · next target hread =>
    split_ifs at h with hbound
    have hfollows : v.follows fs file = some target := by
      rw [Vars.follows, if_neg (by tauto), hread]
      exact if_pos hbound
    obtain ⟨x, hx, hdbuf⟩ := follow_dbuf hfree hfollows h
    rw [hdbuf b]
    split_ifs
    exacts [.inr hx, .inl rfl]
  · split_ifs at h
    exacts [.inl (congrFun (push_dbuf h) b), .inl (congrFun (push_dbuf h) b)]

/-- **What is in the buffers was stored there.** -/
theorem Reached.stored {R : Loc} (hroot : openRoot fs root = .ok R) (h : Reached fs root path v)
    (b : Bool) : v.dbuf b = [] ∨ Stored fs root path (v.dbuf b) := by
  induction h with
  | start hopen hrest =>
    rcases b
    · exact .inl rfl
    · refine .inr ?_
      have hstored : Stored fs root path (pathAppend [] path).2 := .start hopen
      rw [append_ok hrest] at hstored
      exact hstored
  | turn hv hp hturn ih =>
    obtain ⟨s, rest, ha, -⟩ := hv.agrees hroot
    obtain ⟨-, rest', -, ha'⟩ := ha.advance hp
    rcases token_dbuf ha'.free hturn b with hsame | hnew
    · rw [hsame]
      exact ih
    · exact .inr (.turn hv hp hnew)

/-- **When no string leaves its array**: when no absolute link is tight. -/
theorem buffersBounded_iff : BuffersBounded fs root path
    ↔ ∀ v p, Reached fs root path v → v.ptr = some p → ¬(v.advance p).Tight fs (v.file p) := by
  constructor
  · intro h v p hv hp htight
    obtain ⟨x, hx, hlong⟩ := htight.exists_stores
    have hle := h x (.turn hv hp hx)
    omega
  · rintro h x (⟨hroot⟩ | ⟨hv, hp, hx⟩)
    · have hnil : ([] : Str).length < PATH_MAX := by decide
      have hpos : 0 < PATH_MAX := by decide
      rw [length_pathAppend hnil]
      omega
    · exact length_lt_of_not_tight (h _ _ hv hp) hx

end Buffers

/-- `/` holds a link `l` to 2048 slashes. -/
def slashes : Tree :=
  .ofNodes [([], { mode := ⟨.dir, 0x1ed⟩ }),
    ([['l']], { mode := ⟨.lnk, 0x1ff⟩, size := 2048, target := List.replicate 2048 '/' })]
    (by decide)

/-- `/l/` and 2048 letters. -/
def behindSlashes : Str := '/' :: 'l' :: '/' :: List.replicate 2048 'x'

/-- **The NUL is written behind the array**: 2047 slashes and 2048 letters behind the one
skipped. -/
theorem not_buffersBounded : ¬BuffersBounded slashes ['/'] behindSlashes := by
  have hroot : openRoot slashes ['/'] = .ok [] := by decide +kernel
  have hrest : append [] behindSlashes = .ok behindSlashes := by
    have hnil : ([] : Str).length < PATH_MAX := by decide
    have happended : appended [] behindSlashes = behindSlashes := rfl
    have hshort : behindSlashes.length < PATH_MAX := by
      rw [behindSlashes, List.length_cons, List.length_cons, List.length_cons,
        List.length_replicate]
      decide
    rw [append, pathAppend_eq hnil, happended, if_pos hshort]
  -- the first turn takes the slash off, the second one follows the link
  have hstart : Reached slashes ['/'] behindSlashes (.start [] behindSlashes) := .start hroot hrest
  have hv := hstart.turn (p := (true, 0)) rfl rfl
  set v := (Vars.start [] behindSlashes).advance (true, 0) with hdef
  have hfile : v.file (true, 1) = ['l'] := rfl
  have hread : readlinkat slashes [] ['l'] = .ok (List.replicate 2048 '/') := by
    have htarget : (List.replicate 2048 '/').take PATH_MAX = List.replicate 2048 '/' :=
      List.take_of_length_le (by rw [List.length_replicate]; decide)
    rw [← htarget]
    rfl
  have hfollows : (v.advance (true, 1)).follows slashes ['l'] = some (List.replicate 2048 '/') := by
    have hbound : (List.replicate 2048 '/').length < PATH_MAX ∧ 0 < MAXSYMLINKS := by
      rw [List.length_replicate]
      decide
    have hfd : (v.advance (true, 1)).fd = [] := rfl
    rw [Vars.follows, if_neg (by decide), hfd, hread]
    exact if_pos hbound
  have hspliced : (v.advance (true, 1)).spliced (List.replicate 2048 '/')
      = List.replicate 2047 '/' ++ List.replicate 2048 'x' := by
    have hleft : ((v.advance (true, 1)).ptr.map (deref (v.advance (true, 1)).dbuf)).getD []
        = List.replicate 2048 'x' := rfl
    have hhead : (List.replicate 2048 'x').head? ≠ some '/' := by
      rw [List.head?_replicate]
      decide
    have hlast : (List.replicate 2047 '/').getLast? = some '/' := by
      rw [List.getLast?_replicate]
      rfl
    have habs : (List.replicate 2048 '/').head? = some '/' := List.head?_replicate
    have hdrop : (List.replicate 2048 '/').drop 1 = List.replicate 2047 '/' := List.drop_replicate
    rw [Vars.spliced, hleft, if_pos habs, hdrop, appended, if_neg (by simp), joinText,
      if_neg fun h => h.2 hlast, if_neg fun h => hhead h.1, List.nil_append]
  have htight : (v.advance (true, 1)).Tight slashes (v.file (true, 1)) := by
    refine ⟨_, hfollows, rfl, ?_⟩
    rw [hspliced, List.length_append, List.length_replicate, List.length_replicate]
    decide
  obtain ⟨x, hx, hlong⟩ := htight.exists_stores
  intro h
  have hle := h x (.turn hv rfl hx)
  omega

end Resolve
