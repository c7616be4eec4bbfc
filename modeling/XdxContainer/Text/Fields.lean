import Mathlib.Data.List.TakeWhile
import Mathlib.Data.Nat.Notation
import Mathlib.Tactic.Common
import XdxContainer.Text.Lines

/-!
# Text/Fields — taking lines apart as C does

    "a b c"  ──strsep──▸  "a", "b c"  ──strsep──▸  "b", "c"  ──strsep──▸  "c", NULL

`strsep` and `strchr` of the C library with the line they move along, NULL for none, and the lines
`getline` gives.  On a line put together from fields they give the fields.
-/

open Lines

namespace Fields

/-! ## The functions -/

/-- `strsep`: a token and what is behind it; the last token is all that is left. -/
def strsep (sep : Char) : Option (List Char) → Option (List Char) × Option (List Char)
  | none => (none, none)
  | some s =>
    match s.dropWhile (· ≠ sep) with
    | [] => (some s, none)
    | _ :: rest => (some (s.takeWhile (· ≠ sep)), some rest)

/-- `strsep` once and `n` times more: the last token and what is behind it. -/
def strsepLast (sep : Char) : ℕ → Option (List Char) → Option (List Char) × Option (List Char)
  | 0, line => strsep sep line
  | n + 1, line => strsepLast sep n (strsep sep line).2

/-- `strchr`. -/
def strchr (c : Char) (s : List Char) : Option (List Char) :=
  match s.dropWhile (· ≠ c) with
  | [] => none
  | t => some t

/-- What `getline` gives, without the newlines: each line, and whether the end of the file was
seen. -/
def getlines (text : List Char) : List (List Char × Bool) :=
  let pieces := text.splitOn '\n'
  pieces.dropLast.map (·, false)
    ++ (pieces.getLast?.filter (· ≠ [])).toList.map (·, true)

/-! ## On fields -/

/-- The line of some fields, NULL when there is none. -/
def line (sep : Char) : List (List Char) → Option (List Char)
  | [] => none
  | f :: fs => some ([sep].intercalate (f :: fs))

theorem dropWhile_ne_of_not_mem {c : Char} {s : List Char} (hs : c ∉ s) :
    s.dropWhile (· ≠ c) = [] := by
  rw [List.dropWhile_eq_nil_iff]
  intro x hx
  simpa using fun he : x = c => hs (he ▸ hx)

theorem line_cons_cons (sep : Char) (f g : List Char) (fs : List (List Char)) :
    line sep (f :: g :: fs) = some (f ++ sep :: [sep].intercalate (g :: fs)) := by
  rw [line, List.intercalate_cons_cons, List.append_assoc]
  rfl

variable {sep c : Char}

/-- `strsep` cuts at the first separator. -/
theorem strsep_append_cons {f : List Char} (hf : sep ∉ f) (t : List Char) :
    strsep sep (some (f ++ sep :: t)) = (some f, some t) := by
  rw [strsep, (takeWhile_ne hf _).1, (takeWhile_ne hf _).2]

/-- **A token is a field.** -/
theorem strsep_line {f : List Char} (hf : sep ∉ f) (fs : List (List Char)) :
    strsep sep (line sep (f :: fs)) = (some f, line sep fs) := by
  cases fs with
  | nil =>
    have hone : line sep [f] = some f := by rw [line, List.intercalate_singleton]
    rw [hone, strsep, dropWhile_ne_of_not_mem hf]
    rfl
  | cons g gs =>
    rw [line_cons_cons, strsep_append_cons hf]
    rfl

theorem strsepLast_none (n : ℕ) : strsepLast sep n none = (none, none) := by
  induction n with
  | zero => rfl
  | succ n ih => exact ih

/-- The last of several calls gives the field of that number. -/
theorem strsepLast_line (n : ℕ) {fs : List (List Char)} (h : ∀ f ∈ fs, sep ∉ f) :
    strsepLast sep n (line sep fs) = (fs[n]?, line sep (fs.drop (n + 1))) := by
  induction n generalizing fs with
  | zero =>
    cases fs with
    | nil => rfl
    | cons f fs => exact strsep_line (h f List.mem_cons_self) fs
  | succ n ih =>
    cases fs with
    | nil => exact strsepLast_none (n + 1)
    | cons f fs =>
      rw [strsepLast, strsep_line (h f List.mem_cons_self),
        ih fun g hg => h g (List.mem_cons_of_mem f hg)]
      rfl

/-- A line has its fields with separators between them. -/
theorem line_of_ne_nil {fs : List (List Char)} (h : fs ≠ []) :
    line sep fs = some ([sep].intercalate fs) := by
  obtain ⟨f, gs, rfl⟩ := List.exists_cons_of_ne_nil h
  rfl

/-- A line with one field more. -/
theorem line_concat {fs : List (List Char)} (hne : fs ≠ []) (x : List Char) :
    line sep (fs ++ [x]) = some ([sep].intercalate fs ++ sep :: x) := by
  rw [line_of_ne_nil (by simp)]
  congr 1
  induction fs with
  | nil => exact absurd rfl hne
  | cons f fs ih =>
    cases fs with
    | nil => simp [List.intercalate_cons_cons]
    | cons g gs =>
      rw [List.cons_append, List.cons_append, List.intercalate_cons_cons, ← List.cons_append,
        ih (List.cons_ne_nil g gs), List.intercalate_cons_cons, List.append_assoc _ _ (sep :: x)]

theorem dropWhile_ne_ne_nil {f : List Char} (hf : c ∈ f) : f.dropWhile (· ≠ c) ≠ [] := by
  rw [Ne, List.dropWhile_eq_nil_iff]
  intro h
  simpa using h c hf

/-- The fields before the first one with the character are left out, and the start of that one. -/
theorem dropWhile_intercalate (hc : c ≠ sep) {before behind : List (List Char)} {f : List Char}
    (hbefore : ∀ g ∈ before, c ∉ g) (hf : c ∈ f) :
    ([sep].intercalate (before ++ f :: behind)).dropWhile (· ≠ c)
      = [sep].intercalate (f.dropWhile (· ≠ c) :: behind) := by
  induction before with
  | nil =>
    have hne := dropWhile_ne_ne_nil hf
    cases behind with
    | nil => rw [List.nil_append, List.intercalate_singleton, List.intercalate_singleton]
    | cons g gs =>
      rw [List.nil_append, List.intercalate_cons_cons, List.intercalate_cons_cons,
        List.append_assoc, List.dropWhile_append, if_neg (by simpa using hne), List.append_assoc]
  | cons g gs ih =>
    have hg : c ∉ g ++ [sep] := by simpa [hc] using hbefore g List.mem_cons_self
    have hall : ∀ x ∈ g ++ [sep], decide (x ≠ c) = true := by
      intro x hx
      simpa using fun he : x = c => hg (he ▸ hx)
    obtain ⟨k, ks, hks⟩ := List.exists_cons_of_ne_nil
      (List.append_ne_nil_of_right_ne_nil gs (List.cons_ne_nil f behind))
    rw [List.cons_append, hks, List.intercalate_cons_cons, List.dropWhile_append_of_pos hall, ← hks]
    exact ih fun h hh => hbefore h (List.mem_cons_of_mem g hh)

/-- **A character is found in the first field that has it.** -/
theorem strchr_line (hc : c ≠ sep) {before behind : List (List Char)} {f : List Char}
    (hbefore : ∀ g ∈ before, c ∉ g) (hf : c ∈ f) :
    (line sep (before ++ f :: behind)).bind (strchr c)
      = line sep (f.dropWhile (· ≠ c) :: behind) := by
  have hne : [sep].intercalate (f.dropWhile (· ≠ c) :: behind) ≠ [] := by
    cases behind with
    | nil => simpa using dropWhile_ne_ne_nil hf
    | cons g gs => simp [List.intercalate_cons_cons]
  rw [line_of_ne_nil (List.append_ne_nil_of_right_ne_nil _ (List.cons_ne_nil f behind)),
    Option.bind_some, strchr, dropWhile_intercalate hc hbefore hf, line]
  split
  · next h => exact absurd h hne
  · rfl

/-- Lines that were written with their newlines are read without reaching the end of the file. -/
theorem getlines_unlines {lines : List (List Char)} (h : ∀ l ∈ lines, '\n' ∉ l) :
    getlines (Lines.unlines lines) = lines.map (·, false) := by
  simp [getlines, Lines.splitOn_unlines h]

end Fields
