import XdxContainer.Path.Strings
import XdxContainer.Data.CString
import Mathlib.Algebra.FreeMonoid.Basic

/-!
# Path/Joining — the joining routines in their buffer, and what joining is

    buf   │ / │ u │ s │ r │NUL│ ? │ …       snprintf from NUL on, as much as fits:
                        ^end                "/" or nothing, then `path` or `path + 1`

Joining two paths leaves one slash between them.  Paths from the root are a monoid under it, and to
take a path apart is a homomorphism to lists of components (`RootPath.components`); `path_append`
multiplies as long as there is room (`PathBuf.yields_pathAppend`), so `path_join` is associative.

* `pathJoin_components` — joining in the buffer is appending of components, and when it fits.
-/

namespace Paths

open CString

/-! ## What joining is -/

/-- A path without one slash at its end. -/
def dropEnd (s : Str) : Str := if s.getLast? = some '/' then s.dropLast else s

/-- A path without one slash at its front. -/
def dropFront (s : Str) : Str := if s.head? = some '/' then s.tail else s

/-- **Two paths, with one slash between them** for those that stand on either side; an empty path
adds nothing. -/
def glued (s t : Str) : Str := if t = [] then s else dropEnd s ++ '/' :: dropFront t

variable {s t u : Str}

@[simp] theorem glued_nil (s : Str) : glued s [] = s := if_pos rfl

/-- There is one slash between the parts. -/
theorem glued_of_ne (ht : t ≠ []) : glued s t = dropEnd s ++ '/' :: dropFront t := if_neg ht

theorem glued_ne_nil (ht : t ≠ []) : glued s t ≠ [] := by
  rw [glued_of_ne ht]
  simp

/-- Slashes are dropped at the end only. -/
theorem dropEnd_append (ht : t ≠ []) : dropEnd (s ++ t) = s ++ dropEnd t := by
  rw [dropEnd, dropEnd, List.getLast?_append_of_ne_nil s ht]
  split_ifs
  · rw [List.dropLast_append_of_ne_nil ht]
  · rfl

theorem dropEnd_cons (x : Char) (hs : s ≠ []) : dropEnd (x :: s) = x :: dropEnd s :=
  dropEnd_append hs (s := [x])

theorem dropFront_slash (s : Str) : dropFront ('/' :: s) = s := by simp [dropFront]

/-- Slashes are dropped in front only. -/
theorem dropFront_cons {x : Char} (hx : x ≠ '/') (s : Str) : dropFront (x :: s) = x :: s := by
  simp [dropFront, hx]

/-- What is joined to a path may have a slash in front. -/
theorem slash_dropFront_append (hs : s ≠ []) (t : Str) :
    '/' :: dropFront (dropEnd s ++ '/' :: t) = dropEnd ('/' :: dropFront s) ++ '/' :: t := by
  obtain ⟨x, s, rfl⟩ := List.exists_cons_of_ne_nil hs
  by_cases hx : x = '/'
  · subst hx
    rw [dropFront_slash]
    by_cases hnil : s = []
    · simp [hnil, dropEnd, dropFront]
    · rw [dropEnd_cons _ hnil, List.cons_append, dropFront_slash]
  · have hend : ∃ r, dropEnd (x :: s) = x :: r := by
      by_cases hnil : s = []
      · exact ⟨[], by simp [hnil, dropEnd, hx]⟩
      · exact ⟨dropEnd s, dropEnd_cons x hnil⟩
    obtain ⟨r, hr⟩ := hend
    rw [dropFront_cons hx, dropEnd_cons _ hs, hr, List.cons_append, dropFront_cons hx]
    rfl

/-- **Joining is associative.** -/
theorem glued_assoc (s t u : Str) : glued (glued s t) u = glued s (glued t u) := by
  by_cases hu : u = []
  · simp [hu]
  by_cases ht : t = []
  · rw [ht, glued_nil, glued_of_ne hu, glued_of_ne (glued_ne_nil hu), glued_of_ne hu]
    simp [dropEnd, dropFront]
  · rw [glued_of_ne hu, glued_of_ne ht, glued_of_ne (glued_ne_nil hu), glued_of_ne hu,
      slash_dropFront_append ht, dropEnd_append (by simp), List.append_assoc]

/-- What is joined to a path may be put below the root before. -/
theorem glued_root (s t : Str) : glued s (glued [] t) = glued s t := by
  rw [← glued_assoc, glued_nil]

theorem head?_glued_root (ht : t ≠ []) : (glued [] t).head? = some '/' := by
  rw [glued_of_ne ht]
  rfl

/-- Gluing makes no string shorter. -/
theorem length_le_glued (s t : Str) : s.length ≤ (glued s t).length := by
  by_cases ht : t = []
  · simp [ht]
  · rw [glued_of_ne ht, dropEnd]
    split_ifs
    · simp only [List.length_append, List.length_dropLast, List.length_cons]
      omega
    · simp

theorem length_root_le_glued (s t : Str) : (glued [] t).length ≤ (glued s t).length := by
  by_cases ht : t = []
  · simp [ht]
  · rw [glued_of_ne ht, glued_of_ne ht]
    simp [dropEnd]

/-- What `path_append` leaves where there is room is the paths joined. -/
theorem appended_eq_glued (s t : Str) : appended s t = glued s t := by
  by_cases ht : t = []
  · simp [appended, ht]
  · rw [appended, if_neg ht, glued_of_ne ht, joinText, dropEnd, dropFront]
    by_cases hs : s.getLast? = some '/'
    · have hback (u : Str) : s.dropLast ++ '/' :: u = s ++ u := by
        rw [← List.singleton_append, ← List.append_assoc, List.dropLast_append_getLast? _ hs]
      by_cases hhead : t.head? = some '/'
      · simp [hs, hhead, hback]
      · simp [hs, hhead, hback]
    · by_cases hhead : t.head? = some '/'
      · obtain ⟨t, rfl⟩ := List.head?_eq_some_iff.mp hhead
        simp [hs]
      · simp [hs, hhead]

/-- The components of both parts. -/
theorem components_glued (s t : Str) :
    components (glued s t) = components s ++ components t := by
  rw [← appended_eq_glued, appended]
  split_ifs with ht
  · simp [ht]
  · exact components_joinText s ht

/-! ## Paths from the root -/

/-- A path from the root, or none. -/
@[ext] structure RootPath where
  text : Str
  head : text ≠ [] → text.head? = some '/'

namespace RootPath

/-- A path, taken from the root. -/
def of (s : Str) : RootPath where
  text := glued [] s
  head hne := head?_glued_root fun hs => hne (by simp [hs])

instance : Mul RootPath where
  mul p q :=
    { text := glued p.text q.text
      head := fun hne => by
        by_cases hq : q.text = []
        · rw [hq, glued_nil] at hne ⊢
          exact p.head hne
        · rw [glued_of_ne hq]
          by_cases hp : p.text = []
          · simp [hp, dropEnd]
          · obtain ⟨s, hs⟩ := List.head?_eq_some_iff.mp (p.head hp)
            by_cases hnil : s = []
            · simp [hs, hnil, dropEnd]
            · simp [hs, dropEnd_cons _ hnil] }

instance : One RootPath := ⟨[], nofun⟩

@[simp] theorem text_one : (1 : RootPath).text = [] := rfl

/-- A path below the root starts with its slash. -/
theorem glued_nil_text (p : RootPath) : glued [] p.text = p.text := by
  by_cases hp : p.text = []
  · simp [hp]
  · obtain ⟨s, hs⟩ := List.head?_eq_some_iff.mp (p.head hp)
    rw [glued_of_ne hp, hs, dropFront_slash]
    rfl

/-- **Paths from the root are a monoid under joining.** -/
instance : Monoid RootPath where
  mul_assoc p q r := RootPath.ext (glued_assoc p.text q.text r.text)
  one_mul p := RootPath.ext p.glued_nil_text
  mul_one p := RootPath.ext (glued_nil p.text)

/-- **To take a path apart is a homomorphism.** -/
def components : RootPath →* FreeMonoid Str where
  toFun p := FreeMonoid.ofList (Paths.components p.text)
  map_one' := rfl
  map_mul' p q := congrArg FreeMonoid.ofList (components_glued p.text q.text)

/-- The path of a string has the string's components. -/
theorem components_of (s : Str) : components (of s) = FreeMonoid.ofList (Paths.components s) :=
  congrArg FreeMonoid.ofList (components_glued [] s)

/-- Gluing is multiplication. -/
theorem mul_of (p : RootPath) (s : Str) : (p * of s).text = glued p.text s := glued_root p.text s

/-- A path is that of its text. -/
theorem of_text (p : RootPath) : of p.text = p := RootPath.ext p.glued_nil_text

/-- A factor is no longer than the product. -/
theorem length_le_mul_right (p q : RootPath) : p.text.length ≤ (p * q).text.length :=
  length_le_glued p.text q.text

theorem length_le_mul_left (p q : RootPath) : q.text.length ≤ (p * q).text.length := by
  have hle := length_root_le_glued p.text q.text
  rwa [q.glued_nil_text] at hle

end RootPath

/-! ## The buffer -/

/-- The most that `snprintf` can return. -/
def INT_MAX : ℕ := 2 ^ 31 - 1

/-- An array of `PATH_MAX` characters. -/
structure Room where
  cells : List Char
  size : cells.length = PATH_MAX

/-- An array of `PATH_MAX` characters that holds a string. -/
structure PathBuf extends Room where
  nul : NUL ∈ cells

/-- A string that is passed to a routine. -/
structure CStr where
  text : Str
  noNul : NUL ∉ text

/-- `snprintf(a + i, cap, …)` of a text: what it returns, and the array then.  A length that is no
`int` is an error. -/
def snprintf (a : List Char) (i cap : ℕ) (s : Str) : ℤ × List Char :=
  (if s.length ≤ INT_MAX then s.length else -1,
    if cap = 0 then a else write a i (s.take (cap - 1) ++ [NUL]))

/-- What `snprintf` leaves in the buffer. -/
theorem snprintf_snd {cap : ℕ} (hcap : 0 < cap) (a : List Char) (i : ℕ) (s : Str) :
    (snprintf a i cap s).2 = write a i (s.take (cap - 1) ++ [NUL]) :=
  if_neg (by omega)

/-- A number taken as a `size_t`. -/
def toSize (n : ℤ) : ℕ := (BitVec.ofInt 64 n).toNat

/-- What `path_append` fails with: whether `errno` is `ENAMETOOLONG`, and the text. -/
structure PathError where
  nameTooLong : Bool
  text : Str

namespace PathBuf

/-- The string in the buffer. -/
def str (b : PathBuf) : Str := CString.str b.cells

/-- The buffer is its string, a NUL, and whatever is behind it. -/
theorem exists_cells_eq (b : PathBuf) : ∃ t, b.cells = b.str ++ NUL :: t :=
  exists_eq_str_append b.nul

/-- The string fits the buffer. -/
theorem length_str_lt (b : PathBuf) : b.str.length < PATH_MAX := by
  obtain ⟨t, ht⟩ := b.exists_cells_eq
  have hsize := b.size
  rw [ht, List.length_append, List.length_cons] at hsize
  omega

/-- What `snprintf` leaves at the end of the string. -/
theorem snprintf_end (b : PathBuf) (s : Str) : ∃ t,
    (snprintf b.cells b.str.length (PATH_MAX - b.str.length) s).2
      = (b.str ++ s.take (PATH_MAX - b.str.length - 1)) ++ NUL :: t := by
  obtain ⟨t, ht⟩ := b.exists_cells_eq
  have hlt := b.length_str_lt
  refine ⟨(NUL :: t).drop (s.take (PATH_MAX - b.str.length - 1) ++ [NUL]).length, ?_⟩
  have hwrite := write_append b.str (NUL :: t) (s.take (PATH_MAX - b.str.length - 1) ++ [NUL])
  rw [← ht] at hwrite
  rw [snprintf_snd (by omega), hwrite, List.append_assoc, List.append_assoc]
  rfl

/-- `snprintf` at the end of the string, with the room that is left: what it returns, and the buffer
then. -/
def print (b : PathBuf) (s : Str) : ℤ × PathBuf :=
  let printed := snprintf b.cells b.str.length (PATH_MAX - b.str.length) s
  (printed.1,
    { cells := printed.2
      size := by
        have hlt := b.length_str_lt
        have hsize := b.size
        change (snprintf _ _ _ s).2.length = _
        rw [snprintf_snd (by omega), length_write, hsize]
        rw [List.length_append, List.length_take, List.length_singleton, hsize]
        omega
      nul := by
        obtain ⟨t, ht⟩ := b.snprintf_end s
        change NUL ∈ (snprintf _ _ _ s).2
        rw [ht]
        simp })

/-- The two strings `path_append` prints for `"%s%s"`. -/
def appendText (b : PathBuf) (path : CStr) : Str :=
  let len := b.str.length
  -- `*end`, in an empty buffer the `NUL`
  let last := b.cells.getD (if 0 < len then len - 1 else 0) NUL
  (if path.text.head? ≠ some '/' ∧ last ≠ '/' then ['/'] else [])
    ++ (if path.text.head? = some '/' ∧ last = '/' then path.text.tail else path.text)

/-- `path_append`: with what it fails, and the buffer then. -/
def pathAppend (b : PathBuf) (path : CStr) : Option PathError × PathBuf :=
  if path.text = [] then (none, b)
  else
    let len := b.str.length
    let cap := PATH_MAX - len
    let (n, b') := b.print (b.appendText path)
    if n < 0 ∨ cap ≤ toSize n then
      -- `buf` has been moved to what was printed
      let shown := CString.str (b'.cells.drop len)
      (some ⟨cap ≤ toSize n, "path error: ".toList ++ shown ++ '/' :: path.text⟩, b')
    else (none, b')

end PathBuf

/-- `path_new`. -/
def Room.pathNew (r : Room) (path : CStr) : Option PathError × PathBuf :=
  PathBuf.pathAppend
    { cells := r.cells.set 0 NUL
      size := by rw [List.length_set, r.size]
      nul := List.mem_set (by rw [r.size]; decide) NUL } path

/-- `path_join`. -/
def Room.pathJoin (r : Room) (p1 p2 : CStr) : Option PathError × PathBuf :=
  match r.pathNew p1 with
  | (some e, buf) => (some e, buf)
  | (none, buf) => buf.pathAppend p2

/-- The string in a buffer, as it is passed on. -/
def PathBuf.toCStr (b : PathBuf) : CStr := ⟨b.str, nul_notMem_str b.cells⟩

/-! ## What the buffer holds -/

theorem toSize_natCast {n : ℕ} (hn : n ≤ INT_MAX) : toSize n = n := by
  have hlt : n < 2 ^ 64 := Nat.lt_of_le_of_lt hn (by decide)
  rw [toSize, BitVec.ofInt_natCast, BitVec.toNat_ofNat, Nat.mod_eq_of_lt hlt]

theorem toSize_neg_one : toSize (-1) = 2 ^ 64 - 1 := by decide

namespace PathBuf

variable {b : PathBuf} {path : CStr} {e : PathError}

/-- **The last character of the string**, which in an empty buffer is the `NUL`. -/
theorem last_eq_slash_iff (b : PathBuf) :
    b.cells.getD (if 0 < b.str.length then b.str.length - 1 else 0) NUL = '/'
      ↔ b.str.getLast? = some '/' := by
  obtain ⟨t, ht⟩ := b.exists_cells_eq
  rw [ht]
  rcases List.eq_nil_or_concat b.str with hnil | ⟨l, x, hx⟩
  · simp [hnil, NUL]
  · rw [hx]
    simp

/-- What is printed is put behind the string, cut to the room there is. -/
theorem str_print (b : PathBuf) (hs : NUL ∉ s) :
    (b.print s).2.str = b.str ++ s.take (PATH_MAX - b.str.length - 1) := by
  obtain ⟨t, ht⟩ := b.snprintf_end s
  change CString.str (snprintf _ _ _ s).2 = _
  rw [ht, str_append_nul]
  rw [List.mem_append, not_or]
  exact ⟨nul_notMem_str b.cells, fun h => hs (List.mem_of_mem_take h)⟩

/-- What is printed behind a string has been cut exactly if it says so. -/
theorem print_fails_iff (b : PathBuf) (s : Str) :
    ((b.print s).1 < 0 ∨ PATH_MAX - b.str.length ≤ toSize (b.print s).1)
      ↔ ¬b.str.length + s.length < PATH_MAX := by
  have hlt := b.length_str_lt
  have hmax : PATH_MAX ≤ INT_MAX := by decide
  change ((if s.length ≤ INT_MAX then (s.length : ℤ) else -1) < 0
    ∨ PATH_MAX - b.str.length ≤ toSize (if s.length ≤ INT_MAX then (s.length : ℤ) else -1)) ↔ _
  split_ifs with hint
  · rw [toSize_natCast hint]
    omega
  · simp only [show ((-1 : ℤ) < 0) from by decide, true_or, true_iff]
    omega

theorem appendText_eq (b : PathBuf) (path : CStr) :
    b.appendText path = joinText b.str path.text := by
  simp only [appendText, joinText, ne_eq, last_eq_slash_iff]

/-- What is appended has no NUL in it. -/
theorem nul_notMem_joinText (buf : Str) (path : CStr) : NUL ∉ joinText buf path.text := by
  have hslash : ¬NUL = '/' := by decide
  rw [joinText, List.mem_append, not_or]
  constructor
  · split_ifs
    · simpa using hslash
    · simp
  · split_ifs
    · exact fun h => path.noNul (List.mem_of_mem_tail h)
    · exact path.noNul

/-- The string in the buffer is cut where there is no room for it. -/
theorem str_pathAppend (b : PathBuf) (path : CStr) :
    (b.pathAppend path).2.str = (appended b.str path.text).take (PATH_MAX - 1) := by
  have hlt := b.length_str_lt
  by_cases hne : path.text = []
  · rw [pathAppend, if_pos hne, appended, if_pos hne, List.append_nil,
      List.take_of_length_le (by omega)]
  · have hsnd : (b.pathAppend path).2 = (b.print (joinText b.str path.text)).2 := by
      rw [pathAppend, if_neg hne, appendText_eq]
      dsimp only
      split_ifs
      · rfl
      · rfl
    have hcap : PATH_MAX - b.str.length - 1 = PATH_MAX - 1 - b.str.length := by omega
    rw [hsnd, str_print b (nul_notMem_joinText b.str path), appended, if_neg hne, List.take_append,
      List.take_of_length_le (show b.str.length ≤ PATH_MAX - 1 by omega), hcap]

/-- **When `path_append` succeeds.** -/
theorem pathAppend_eq_none_iff (b : PathBuf) (path : CStr) :
    (b.pathAppend path).1 = none ↔ (appended b.str path.text).length < PATH_MAX := by
  by_cases hne : path.text = []
  · rw [pathAppend, if_pos hne, appended, if_pos hne, List.append_nil]
    exact iff_of_true rfl b.length_str_lt
  · have hfails := print_fails_iff b (joinText b.str path.text)
    rw [pathAppend, if_neg hne, appendText_eq, appended, if_neg hne, List.length_append]
    dsimp only
    split_ifs with hfail
    · exact iff_of_false (by simp) (hfails.mp hfail)
    · exact iff_of_true rfl (not_not.mp fun h => hfail (hfails.mpr h))

/-- **The routine in its buffer is the one on strings.** -/
theorem pathAppend_eq (b : PathBuf) (path : CStr) :
    ((b.pathAppend path).1.isNone, (b.pathAppend path).2.str)
      = Paths.pathAppend b.str path.text := by
  have hiff := pathAppend_eq_none_iff b path
  rw [Paths.pathAppend_eq b.length_str_lt, str_pathAppend]
  split_ifs with hfits
  · rw [hiff.mpr hfits, List.take_of_length_le (by omega)]
    rfl
  · have hsome : (b.pathAppend path).1.isNone = false := by
      rw [Option.isNone_eq_false_iff, Option.isSome_iff_ne_none]
      exact fun h => hfits (hiff.mp h)
    rw [hsome]

/-- **Every failure is `ENAMETOOLONG`**; its text shows what was printed, not what it was printed
behind. -/
theorem error_of_pathAppend (h : (b.pathAppend path).1 = some e) : e = ⟨true, "path error: ".toList
    ++ (joinText b.str path.text).take (PATH_MAX - b.str.length - 1) ++ '/' :: path.text⟩ := by
  have hlt := b.length_str_lt
  have hmax : PATH_MAX ≤ INT_MAX := by decide
  set joint := joinText b.str path.text with hjoint
  have htoo (hfail : (b.print joint).1 < 0 ∨ PATH_MAX - b.str.length ≤ toSize (b.print joint).1) :
      PATH_MAX - b.str.length ≤ toSize (b.print joint).1 := by
    rcases hfail with hneg | hle
    · have hone : (b.print joint).1 = -1 := by
        change (if joint.length ≤ INT_MAX then (joint.length : ℤ) else -1) < 0 at hneg
        change (if joint.length ≤ INT_MAX then (joint.length : ℤ) else -1) = -1
        split_ifs at hneg ⊢ with hint
        · omega
        · rfl
      have hbig : PATH_MAX ≤ 2 ^ 64 - 1 := by decide
      rw [hone, toSize_neg_one]
      omega
    · exact hle
  have hshown : CString.str ((b.print joint).2.cells.drop b.str.length)
      = joint.take (PATH_MAX - b.str.length - 1) := by
    obtain ⟨t, ht⟩ := b.snprintf_end joint
    change CString.str ((snprintf _ _ _ joint).2.drop b.str.length) = _
    rw [ht, List.append_assoc, List.drop_left, str_append_nul]
    exact fun hmem => nul_notMem_joinText b.str path (List.mem_of_mem_take hmem)
  rw [pathAppend] at h
  split_ifs at h
  rw [appendText_eq, ← hjoint] at h
  dsimp only at h
  split_ifs at h with hfail
  rw [← Option.some.inj h, hshown, decide_eq_true (htoo hfail)]

/-- **What `path_append` does to a buffer**: the paths are joined if they fit. -/
structure Appends (b : PathBuf) (path : CStr) : Prop where
  ok_iff : (b.pathAppend path).1 = none ↔ (glued b.str path.text).length + 1 ≤ PATH_MAX
  text : (b.pathAppend path).1 = none → (b.pathAppend path).2.str = glued b.str path.text
  components : (b.pathAppend path).1 = none →
    Paths.components (b.pathAppend path).2.str
      = Paths.components b.str ++ Paths.components path.text
  absolute : (b.pathAppend path).1 = none → b.str = [] → path.text ≠ [] →
    (b.pathAppend path).2.str.head? = some '/'

/-- **Appending joins the components**, or says that they do not fit. -/
theorem appends (b : PathBuf) (path : CStr) : b.Appends path := by
  have hok := pathAppend_eq_none_iff b path
  rw [appended_eq_glued] at hok
  have htext (h : (b.pathAppend path).1 = none) :
      (b.pathAppend path).2.str = glued b.str path.text := by
    have hfits := hok.mp h
    rw [str_pathAppend, appended_eq_glued, List.take_of_length_le (by omega)]
  refine ⟨hok, htext, fun h => ?_, fun h hnil hne => ?_⟩
  · rw [htext h, components_glued]
  · rw [htext h, hnil, head?_glued_root hne]

end PathBuf

/-! ## Joining two paths -/

/-- **A routine that leaves a path if there is room for it**, and fails if not. -/
structure Yields (x : Option PathError × PathBuf) (p : RootPath) : Prop where
  ok_iff : x.1 = none ↔ p.text.length < PATH_MAX
  text : x.1 = none → x.2.str = p.text

/-- A routine after another that has not failed. -/
def andThen (x : Option PathError × PathBuf) (f : PathBuf → Option PathError × PathBuf) :
    Option PathError × PathBuf :=
  match x with
  | (some e, buf) => (some e, buf)
  | (none, buf) => f buf

/-- Where the second path fits, the first has. -/
theorem Yields.andThen {x : Option PathError × PathBuf} {f : PathBuf → Option PathError × PathBuf}
    {p q : RootPath} (h : Yields x p) (hle : p.text.length ≤ q.text.length)
    (hf : ∀ buf, buf.str = p.text → Yields (f buf) q) : Yields (Paths.andThen x f) q := by
  obtain ⟨e | _, buf⟩ := x
  · exact hf buf (h.text rfl)
  · refine ⟨iff_of_false (by simp [Paths.andThen]) fun hfits => ?_, by simp [Paths.andThen]⟩
    exact absurd (h.ok_iff.mpr (Nat.lt_of_le_of_lt hle hfits)) (by simp)

/-- `path_append` multiplies. -/
theorem PathBuf.yields_pathAppend {b : PathBuf} {p : RootPath} (h : b.str = p.text) (q : CStr) :
    Yields (b.pathAppend q) (p * RootPath.of q.text) := by
  obtain ⟨hok, htext, -, -⟩ := b.appends q
  rw [h, ← RootPath.mul_of] at hok htext
  exact ⟨hok, htext⟩

namespace Room

/-- `path_new` starts from the root. -/
theorem yields_pathNew (r : Room) (p : CStr) : Yields (r.pathNew p) (RootPath.of p.text) := by
  set empty : PathBuf := ⟨⟨r.cells.set 0 NUL, by rw [List.length_set, r.size]⟩,
    List.mem_set (by rw [r.size]; decide) NUL⟩ with hempty
  have hnil : empty.str = RootPath.text 1 := by
    obtain ⟨x, t, ht⟩ := List.exists_cons_of_ne_nil (l := r.cells) fun hnil => by
      have hsize := r.size
      rw [hnil] at hsize
      cases hsize
    rw [PathBuf.str, hempty]
    simp [ht, CString.str]
  have hyields := PathBuf.yields_pathAppend hnil p
  rwa [one_mul] at hyields

/-- **`path_join` multiplies** as long as there is room. -/
theorem yields_pathJoin (r : Room) (p q : CStr) :
    Yields (r.pathJoin p q) (RootPath.of p.text * RootPath.of q.text) :=
  (r.yields_pathNew p).andThen (RootPath.length_le_mul_right _ _)
    fun _ hbuf => PathBuf.yields_pathAppend hbuf q

/-- Three paths joined, from the left. -/
def pathJoinLeft (r r' : Room) (a b c : CStr) : Option PathError × PathBuf :=
  match r.pathJoin a b with
  | (some e, buf) => (some e, buf)
  | (none, buf) => r'.pathJoin buf.toCStr c

/-- Three paths joined, from the right. -/
def pathJoinRight (r r' : Room) (a b c : CStr) : Option PathError × PathBuf :=
  match r.pathJoin b c with
  | (some e, buf) => (some e, buf)
  | (none, buf) => r'.pathJoin a buf.toCStr

theorem of_toCStr {buf : PathBuf} {p : RootPath} (h : buf.str = p.text) :
    RootPath.of buf.toCStr.text = p :=
  (congrArg RootPath.of h).trans p.of_text

/-- Joining from the left multiplies from the left. -/
theorem yields_pathJoinLeft (r r' : Room) (a b c : CStr) : Yields (pathJoinLeft r r' a b c)
    (RootPath.of a.text * RootPath.of b.text * RootPath.of c.text) := by
  refine (r.yields_pathJoin a b).andThen (f := fun buf => r'.pathJoin buf.toCStr c)
    (RootPath.length_le_mul_right _ _) fun buf hbuf => ?_
  have hjoin := r'.yields_pathJoin buf.toCStr c
  rwa [of_toCStr hbuf] at hjoin

/-- Joining from the right multiplies from the right. -/
theorem yields_pathJoinRight (r r' : Room) (a b c : CStr) : Yields (pathJoinRight r r' a b c)
    (RootPath.of a.text * (RootPath.of b.text * RootPath.of c.text)) := by
  refine (r.yields_pathJoin b c).andThen (f := fun buf => r'.pathJoin a buf.toCStr)
    (RootPath.length_le_mul_left _ _) fun buf hbuf => ?_
  have hjoin := r'.yields_pathJoin a buf.toCStr
  rwa [of_toCStr hbuf] at hjoin

/-- Three paths, one below the other, from the root. -/
def joinedText (a b c : CStr) : Str := glued (glued (glued [] a.text) b.text) c.text

theorem joinedText_eq (a b c : CStr) :
    (RootPath.of a.text * RootPath.of b.text * RootPath.of c.text).text = joinedText a b c := by
  rw [RootPath.mul_of, RootPath.mul_of]
  rfl

theorem components_joinedText (a b c : CStr) : Paths.components (joinedText a b c)
    = Paths.components a.text ++ Paths.components b.text ++ Paths.components c.text := by
  have hhom : RootPath.components (RootPath.of a.text * RootPath.of b.text * RootPath.of c.text)
      = RootPath.components (RootPath.of a.text) * RootPath.components (RootPath.of b.text)
        * RootPath.components (RootPath.of c.text) := by
    rw [map_mul, map_mul]
  rw [RootPath.components_of, RootPath.components_of, RootPath.components_of] at hhom
  rw [← joinedText_eq]
  exact hhom

/-- **Three paths are joined alike from either side**: both ways succeed exactly when the joined
string fits, and leave that string. -/
structure Associates (l l' r r' : Room) (a b c : CStr) : Prop where
  left_ok_iff : (pathJoinLeft l l' a b c).1 = none ↔ (joinedText a b c).length + 1 ≤ PATH_MAX
  right_ok_iff : (pathJoinRight r r' a b c).1 = none ↔ (joinedText a b c).length + 1 ≤ PATH_MAX
  left_text : (pathJoinLeft l l' a b c).1 = none →
    (pathJoinLeft l l' a b c).2.str = joinedText a b c
  right_text : (pathJoinRight r r' a b c).1 = none →
    (pathJoinRight r r' a b c).2.str = joinedText a b c
  left : (pathJoinLeft l l' a b c).1 = none → Paths.components (pathJoinLeft l l' a b c).2.str
    = Paths.components a.text ++ Paths.components b.text ++ Paths.components c.text
  right : (pathJoinRight r r' a b c).1 = none → Paths.components (pathJoinRight r r' a b c).2.str
    = Paths.components a.text ++ Paths.components b.text ++ Paths.components c.text

/-- **Joining associates.** -/
theorem associates (l l' r r' : Room) (a b c : CStr) : Associates l l' r r' a b c := by
  obtain ⟨hleft, hltext⟩ := yields_pathJoinLeft l l' a b c
  obtain ⟨hright, hrtext⟩ := yields_pathJoinRight r r' a b c
  rw [joinedText_eq] at hleft hltext
  rw [← mul_assoc, joinedText_eq] at hright hrtext
  refine ⟨hleft, hright, hltext, hrtext, fun h => ?_, fun h => ?_⟩
  · rw [hltext h, components_joinedText]
  · rw [hrtext h, components_joinedText]

end Room

/-- **Joining in the buffer is appending of components**, when the joined string fits and not
otherwise; three paths are joined alike from either side, when they fit and not otherwise. -/
theorem pathJoin_components :
    (∀ (b : PathBuf) (path : CStr), b.Appends path)
      ∧ ∀ (l l' r r' : Room) (a b c : CStr), Room.Associates l l' r r' a b c :=
  ⟨PathBuf.appends, Room.associates⟩

end Paths
