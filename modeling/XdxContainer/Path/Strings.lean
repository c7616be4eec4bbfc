import Mathlib.Tactic.Common
import Mathlib.Data.List.Induction
import Mathlib.Data.Int.Notation
import Mathlib.Algebra.Group.Nat.Defs
import Mathlib.Algebra.Group.Int.Defs

/-!
# Path/Strings — path strings, their components, and the joining routines

    "/usr//lib/"  ──components──▸  ["usr", "lib"]  ──render──▸  "/usr/lib"

A string is the list of its characters, without the terminating NUL.  `pathAppend`, `pathNew` and
`pathJoin` are `path_append`, `path_new` and `path_join` of `utils.c` on the contents of the buffer:
whether they succeed, and what is in the buffer then, truncated when they fail.  Up to empty
components joining is appending (`components_pathAppend`).
-/

namespace Paths

/-- A string, without the character that ends it. -/
abbrev Str := List Char

/-- The size of a path buffer, the terminating NUL included. -/
def PATH_MAX : ℕ := 4096

/-- The directory itself. -/
def dot : Str := ['.']

/-- The directory above. -/
def dotdot : Str := ['.', '.']

/-! ## Components -/

/-- The components of a path string, the empty ones left out. -/
def components (s : Str) : List Str := (s.splitOn '/').filter (· ≠ [])

/-- The string of a list of components, each behind a slash. -/
def render (cs : List Str) : Str := cs.flatMap ('/' :: ·)

@[simp] theorem components_nil : components [] = [] := rfl

/-- A slash separates. -/
theorem components_append_slash (s t : Str) :
    components (s ++ '/' :: t) = components s ++ components t := by
  rw [components, List.splitOn_append_cons_self, List.filter_append]
  rfl

@[simp] theorem components_slash (t : Str) : components ('/' :: t) = components t :=
  components_append_slash [] t

/-- A string without a slash is one component. -/
theorem components_of_not_mem {s : Str} (hs : '/' ∉ s) (hne : s ≠ []) : components s = [s] := by
  rw [components, List.splitOn_eq_singleton hs]
  simp [hne]

/-- A component has characters, none of them a slash. -/
theorem mem_components {s c : Str} (hc : c ∈ components s) : c ≠ [] ∧ '/' ∉ c := by
  obtain ⟨hin, hne⟩ := List.mem_filter.mp hc
  refine ⟨by simpa using hne, ?_⟩
  clear hc hne
  induction s generalizing c with
  | nil =>
    rw [List.splitOn_nil, List.mem_singleton] at hin
    rw [hin]
    simp
  | cons x s ih =>
    rw [List.splitOn_cons_eq_if_modifyHead] at hin
    obtain ⟨d, l, hl⟩ := List.exists_cons_of_ne_nil (List.splitOn_ne_nil '/' s)
    rw [hl] at hin ih
    split_ifs at hin with hx
    · rcases List.mem_cons.mp hin with rfl | hin
      · simp
      · exact ih hin
    · rw [List.modifyHead_cons] at hin
      rcases List.mem_cons.mp hin with rfl | hin
      · have hd := ih (List.mem_cons_self (a := d) (l := l))
        have hx' : x ≠ '/' := by simpa using hx
        simp [hd, hx'.symm]
      · exact ih (List.mem_cons_of_mem d hin)

/-- Its components hold the characters of a path other than slashes. -/
theorem flatten_components (s : Str) : (components s).flatten = s.filter (· ≠ '/') := by
  have hsplit : (s.splitOn '/').flatten = s.filter (· ≠ '/') := by
    induction s with
    | nil => rfl
    | cons x s ih =>
      obtain ⟨d, l, hl⟩ := List.exists_cons_of_ne_nil (List.splitOn_ne_nil '/' s)
      rw [List.splitOn_cons_eq_if_modifyHead]
      rw [hl] at ih ⊢
      split_ifs with hx
      · rw [List.flatten_cons, List.nil_append, ih, List.filter_cons_of_neg (by simpa using hx)]
      · rw [List.modifyHead_cons, List.flatten_cons, List.cons_append, ← List.flatten_cons, ih,
          List.filter_cons_of_pos (by simpa using hx)]
  rw [← hsplit, components, List.flatten_filter_ne_nil]

@[simp] theorem render_nil : render [] = [] := rfl

/-- Components one behind the other. -/
@[simp] theorem render_append (cs ds : List Str) : render (cs ++ ds) = render cs ++ render ds := by
  simp [render]

theorem render_singleton (c : Str) : render [c] = '/' :: c := by
  simp [render]

/-- Rendering and splitting undo each other on components. -/
theorem components_render {cs : List Str} (hcs : ∀ c ∈ cs, c ≠ [] ∧ '/' ∉ c) :
    components (render cs) = cs := by
  induction cs using List.reverseRecOn with
  | nil => rfl
  | append_singleton cs c ih =>
    obtain ⟨hne, hslash⟩ := hcs c (by simp)
    rw [render_append, render_singleton, components_append_slash,
      ih fun d hd => hcs d (by simp [hd]), components_of_not_mem hslash hne]

/-- A rendered path does not end in a slash. -/
theorem getLast?_render_ne {cs : List Str} (hcs : ∀ c ∈ cs, c ≠ [] ∧ '/' ∉ c) :
    (render cs).getLast? ≠ some '/' := by
  induction cs using List.reverseRecOn with
  | nil => simp
  | append_singleton cs c ih =>
    obtain ⟨hne, hslash⟩ := hcs c (by simp)
    obtain ⟨x, l, rfl⟩ := List.exists_cons_of_ne_nil hne
    have hlast : (render cs ++ '/' :: x :: l).getLast? = (x :: l).getLast? := by
      rw [List.getLast?_append, List.getLast?_cons_cons, List.getLast?_cons]
      rfl
    rw [render_append, render_singleton, hlast]
    intro he
    exact hslash (List.mem_of_getLast? he)

/-! ## Joining -/

/-- What is written behind the buffer: a slash is put between or dropped so that exactly one stands
there. -/
def joinText (buf path : Str) : Str :=
  (if path.head? ≠ some '/' ∧ buf.getLast? ≠ some '/' then ['/'] else [])
    ++ (if path.head? = some '/' ∧ buf.getLast? = some '/' then path.tail else path)

/-- `path_append`. -/
def pathAppend (buf path : Str) : Bool × Str :=
  if path = [] then (true, buf)
  else if buf.length + (joinText buf path).length < PATH_MAX then (true, buf ++ joinText buf path)
  else (false, (buf ++ joinText buf path).take (PATH_MAX - 1)) -- ENAMETOOLONG

/-- `path_new`. -/
def pathNew (path : Str) : Bool × Str := pathAppend [] path

/-- `path_join`. -/
def pathJoin (p1 p2 : Str) : Bool × Str :=
  match pathNew p1 with
  | (true, buf) => pathAppend buf p2
  | (false, buf) => (false, buf)

/-- Up to empty components joining is appending. -/
theorem components_joinText (buf : Str) {path : Str} (hp : path ≠ []) :
    components (buf ++ joinText buf path) = components buf ++ components path := by
  obtain ⟨x, p, rfl⟩ := List.exists_cons_of_ne_nil hp
  simp only [joinText, List.head?_cons, Option.some.injEq, ne_eq, List.tail_cons]
  by_cases hbuf : buf.getLast? = some '/'
  · obtain ⟨b, rfl⟩ := List.getLast?_eq_some_iff.mp hbuf
    have hb : components (b ++ ['/']) = components b := by
      rw [components_append_slash, components_nil, List.append_nil]
    by_cases hx : x = '/'
    · subst hx
      simp [hb, components_append_slash]
    · simp [hx, hb, components_append_slash]
  · by_cases hx : x = '/'
    · subst hx
      simp [hbuf, components_append_slash]
    · simp [hbuf, hx, components_append_slash]

/-- **What `path_append` leaves when it succeeds.** -/
theorem pathAppend_ok {buf path s : Str} (h : pathAppend buf path = (true, s)) :
    components s = components buf ++ components path
      ∧ (buf.length < PATH_MAX → s.length < PATH_MAX)
      ∧ s = buf ++ if path = [] then [] else joinText buf path := by
  rw [pathAppend] at h
  split_ifs at h with hp hlen
  · obtain rfl := (Prod.mk.inj h).2
    exact ⟨by simp [hp], id, by simp [hp]⟩
  · obtain rfl := (Prod.mk.inj h).2
    refine ⟨components_joinText buf hp, fun _ => ?_, by simp [hp]⟩
    rw [List.length_append]
    exact hlen
  · cases (Prod.mk.inj h).1

/-- What `path_append` leaves where there is room. -/
def appended (buf path : Str) : Str := buf ++ if path = [] then [] else joinText buf path

/-- **When `path_append` succeeds**, and what is in the buffer if it does not: as much as fits. -/
theorem pathAppend_eq {buf path : Str} (hbuf : buf.length < PATH_MAX) : pathAppend buf path
    = if (appended buf path).length < PATH_MAX then (true, appended buf path)
      else (false, (appended buf path).take (PATH_MAX - 1)) := by
  by_cases hnil : path = []
  · rw [pathAppend, appended, if_pos hnil, if_pos hnil, List.append_nil, if_pos hbuf]
  · rw [pathAppend, appended, if_neg hnil, if_neg hnil, List.length_append]

/-- A joined path fits the buffer. -/
theorem length_pathJoin_lt {p₁ p₂ s : Str} (h : pathJoin p₁ p₂ = (true, s)) :
    s.length < PATH_MAX := by
  rw [pathJoin] at h
  split at h
  · next buf hnew => exact (pathAppend_ok h).2.1 ((pathAppend_ok hnew).2.1 (by decide))
  · cases h

/-- A component is appended to a rendered path. -/
theorem appended_render {cs : List Str} {c : Str} (hcs : ∀ d ∈ cs, d ≠ [] ∧ '/' ∉ d)
    (hc : c ≠ [] ∧ '/' ∉ c) : appended (render cs) c = render (cs ++ [c]) := by
  obtain ⟨x, l, rfl⟩ := List.exists_cons_of_ne_nil hc.1
  have hx : x ≠ '/' := fun he => hc.2 (by simp [he])
  simp [appended, joinText, hx, getLast?_render_ne hcs, render_singleton]

/-- Appending a component to a rendered path renders the longer path. -/
theorem pathAppend_render {cs : List Str} {c s : Str} (hcs : ∀ d ∈ cs, d ≠ [] ∧ '/' ∉ d)
    (hc : c ≠ [] ∧ '/' ∉ c) (h : pathAppend (render cs) c = (true, s)) :
    s = render (cs ++ [c]) := by
  rw [← appended_render hcs hc]
  exact (pathAppend_ok h).2.2

theorem appended_nil_render (cs : List Str) : appended [] (render cs) = render cs := by
  rcases cs with _ | ⟨c, cs⟩
  · rfl
  · simp [appended, joinText, render]

/-- A rendered path is copied as it is. -/
theorem pathNew_render (cs : List Str) : pathNew (render cs)
    = if (render cs).length < PATH_MAX then (true, render cs)
      else (false, (render cs).take (PATH_MAX - 1)) := by
  have hnil : ([] : Str).length < PATH_MAX := by decide
  rw [pathNew, pathAppend_eq hnil, appended_nil_render]

/-! ## Taking the first token off -/

/-- The characters up to the first slash. -/
def token (s : Str) : Str := s.takeWhile (· ≠ '/')

/-- A token ends before a slash. -/
theorem slash_notMem_token (s : Str) : '/' ∉ token s := by
  induction s with
  | nil => simp [token]
  | cons x s ih =>
    by_cases hx : x = '/'
    · simp [token, hx]
    · have hcons : token (x :: s) = x :: token s := by simp [token, hx]
      rw [hcons, List.mem_cons, not_or]
      exact ⟨fun he => hx he.symm, ih⟩

theorem token_eq_self {s : Str} (hs : '/' ∉ s) : token s = s := by
  induction s with
  | nil => rfl
  | cons x s ih =>
    obtain ⟨hx, hs'⟩ := not_or.mp (List.mem_cons.not.mp hs)
    have hcons : token (x :: s) = x :: token s := by simp [token, Ne.symm hx]
    rw [hcons, ih hs']

/-- A string with a slash is its first token, a slash and the rest. -/
theorem exists_eq_token_append {s : Str} (hs : '/' ∈ s) : ∃ t, s = token s ++ '/' :: t := by
  induction s with
  | nil => simp at hs
  | cons x s ih =>
    by_cases hx : x = '/'
    · exact ⟨s, by simp [token, hx]⟩
    · obtain ⟨t, ht⟩ := ih ((List.mem_cons.mp hs).resolve_left (Ne.symm hx))
      have hcons : token (x :: s) = x :: token s := by simp [token, hx]
      exact ⟨t, by rw [hcons, List.cons_append, ← ht]⟩

/-! ## Taking the last component off -/

/-- Cut the string at its last slash (`strrchr`), if it has one. -/
def cutLast (s : Str) : Option Str :=
  if '/' ∈ s then some (s.reverse.dropWhile (· ≠ '/')).tail.reverse else none

theorem dropWhile_append_slash (x : Str) {c : Str} (hc : '/' ∉ c) :
    (x ++ '/' :: c).reverse.dropWhile (· ≠ '/') = '/' :: x.reverse := by
  rw [List.reverse_append, List.reverse_cons, List.append_assoc, List.singleton_append,
    List.dropWhile_append_of_pos]
  · simp
  · intro y hy
    simpa using fun he : y = '/' => hc (he ▸ List.mem_reverse.mp hy)

theorem cutLast_append_slash (x : Str) {c : Str} (hc : '/' ∉ c) :
    cutLast (x ++ '/' :: c) = some x := by
  rw [cutLast, if_pos (by simp), dropWhile_append_slash x hc]
  simp

/-- The last component is cut off. -/
theorem cutLast_render (cs : List Str) {c : Str} (hc : '/' ∉ c) :
    cutLast (render (cs ++ [c])) = some (render cs) := by
  rw [render_append, render_singleton, cutLast_append_slash _ hc]

theorem cutLast_nil : cutLast [] = none := rfl

/-- The GNU `basename`. -/
def basename (path : Str) : Str := (path.reverse.takeWhile (· ≠ '/')).reverse

/-- A string without the slashes at its end. -/
def dropSlashes (s : Str) : Str := (s.reverse.dropWhile (· = '/')).reverse

/-- `dirname`. -/
def dirname (path : Str) : Str :=
  let p := dropSlashes path
  if '/' ∈ p then
    let dir := dropSlashes (p.reverse.dropWhile (· ≠ '/')).reverse
    if dir = [] then ['/'] else dir
  else if path.head? = some '/' then ['/'] else dot

/-- A string with a slash is what is before its last slash, the slash and the rest. -/
theorem exists_eq_append_slash {s : Str} (hs : '/' ∈ s) : ∃ x c, s = x ++ '/' :: c ∧ '/' ∉ c := by
  obtain ⟨t, ht⟩ := exists_eq_token_append (List.mem_reverse.mpr hs)
  refine ⟨t.reverse, (token s.reverse).reverse, ?_, by simpa using slash_notMem_token s.reverse⟩
  have hrev := congrArg List.reverse ht
  simpa using hrev

/-- One more slash at the end. -/
theorem dropSlashes_append_slash (s : Str) : dropSlashes (s ++ ['/']) = dropSlashes s := by
  simp [dropSlashes]

theorem dropSlashes_eq_self {s : Str} (hs : s.getLast? ≠ some '/') : dropSlashes s = s := by
  rcases List.eq_nil_or_concat s with rfl | ⟨l, x, rfl⟩
  · rfl
  · have hx : x ≠ '/' := by simpa using hs
    simp [dropSlashes, hx]

/-- No slash is left at the end. -/
theorem getLast?_dropSlashes (s : Str) : (dropSlashes s).getLast? ≠ some '/' := by
  induction s using List.reverseRecOn with
  | nil => simp [dropSlashes]
  | append_singleton s x ih =>
    by_cases hx : x = '/'
    · rw [hx, dropSlashes_append_slash]
      exact ih
    · rw [dropSlashes_eq_self (by simpa using hx)]
      simpa using hx

/-- The slashes at the end are no components. -/
theorem components_dropSlashes (s : Str) : components (dropSlashes s) = components s := by
  induction s using List.reverseRecOn with
  | nil => rfl
  | append_singleton s x ih =>
    by_cases hx : x = '/'
    · rw [hx, dropSlashes_append_slash, ih, components_append_slash, components_nil,
        List.append_nil]
    · rw [dropSlashes_eq_self (by simpa using hx)]

theorem length_dropSlashes_le (s : Str) : (dropSlashes s).length ≤ s.length := by
  have hsuffix := (List.dropWhile_suffix (l := s.reverse) (· = '/')).length_le
  rw [dropSlashes, List.length_reverse]
  rwa [List.length_reverse] at hsuffix

theorem components_ne_nil {s : Str} (hne : s ≠ []) (hlast : s.getLast? ≠ some '/') :
    components s ≠ [] := by
  by_cases hs : '/' ∈ s
  · obtain ⟨x, c, rfl, hc⟩ := exists_eq_append_slash hs
    have hcne : c ≠ [] := by
      rintro rfl
      simp at hlast
    rw [components_append_slash, components_of_not_mem hc hcne]
    simp
  · rw [components_of_not_mem hs hne]
    simp

/-- **`dirname` of a string that has a slash before its last component.** -/
theorem dirname_append_slash (x : Str) {c s : Str} (hc : '/' ∉ c)
    (hs : dropSlashes s = x ++ '/' :: c) :
    dirname s = if dropSlashes x = [] then ['/'] else dropSlashes x := by
  have hdrop : ((x ++ '/' :: c).reverse.dropWhile (· ≠ '/')).reverse = x ++ ['/'] := by
    rw [dropWhile_append_slash x hc]
    simp
  have hmem : '/' ∈ x ++ '/' :: c := by simp
  simp only [dirname, hs, if_pos hmem, hdrop, dropSlashes_append_slash]

end Paths
