import Mathlib.Tactic.Common
import Mathlib.Data.Nat.Notation

/-!
# Text/Lines — reading lines and fields as Go's standard library does

    "a:b:c:d\r\n…"  ──scanLines──▸  ["a:b:c:d", …]  ──splitN 3 ':'──▸  ["a", "b", "c:d"]

`bufio.Scanner` with `ScanLines`, `strings.SplitN`, `strings.TrimPrefix` and `filepath.Base`, on
lists of characters, and what they give on texts put together from lines and fields.
-/

namespace Lines

/-! ## Lines -/

/-- `bufio.MaxScanTokenSize`: a scanner ends, without an error its caller sees unless it asks, at a
line that fills its buffer. -/
def maxScanTokenSize : ℕ := 64 * 1024

/-- What a scanner drops of a line: one carriage return at its end. -/
def dropCR (line : List Char) : List Char :=
  if line.getLast? = some '\r' then line.dropLast else line

/-- The lines of a text, the last one with or without its newline. -/
def pieces (text : List Char) : List (List Char) :=
  let ps := text.splitOn '\n'
  if ps.getLast? = some [] then ps.dropLast else ps

/-- Whether a scanner can hold a line. -/
def Short (line : List Char) : Prop := line.length < maxScanTokenSize

instance (line : List Char) : Decidable (Short line) :=
  inferInstanceAs (Decidable (line.length < maxScanTokenSize))

/-- The lines a scanner gives before it ends. -/
def scanLines (text : List Char) : List (List Char) :=
  ((pieces text).takeWhile (Short ·)).map dropCR

/-- The text of a list of lines. -/
def unlines (lines : List (List Char)) : List Char := lines.flatMap (· ++ ['\n'])

theorem splitOn_unlines {lines : List (List Char)} (h : ∀ l ∈ lines, '\n' ∉ l) :
    (unlines lines).splitOn '\n' = lines ++ [[]] := by
  induction lines with
  | nil => rfl
  | cons l lines ih =>
    have hl : '\n' ∉ l := h l List.mem_cons_self
    have htail : ∀ k ∈ lines, '\n' ∉ k := fun k hk => h k (List.mem_cons_of_mem l hk)
    have hcons : unlines (l :: lines) = l ++ '\n' :: unlines lines := by simp [unlines]
    rw [hcons, List.splitOn_append_cons_self_of_not_mem hl, ih htail]
    rfl

/-- The lines that were joined. -/
theorem pieces_unlines {lines : List (List Char)} (h : ∀ l ∈ lines, '\n' ∉ l) :
    pieces (unlines lines) = lines := by
  simp [pieces, splitOn_unlines h]

/-- **The lines read are the lines written**, as far as they are short. -/
theorem scanLines_unlines {lines : List (List Char)} (h : ∀ l ∈ lines, '\n' ∉ l) :
    scanLines (unlines lines) = (lines.takeWhile (Short ·)).map dropCR := by
  rw [scanLines, pieces_unlines h]

/-- A carriage return is dropped of the last field only. -/
theorem dropCR_append_cons (s : List Char) {c : Char} (hc : c ≠ '\r') (t : List Char) :
    dropCR (s ++ c :: t) = s ++ c :: dropCR t := by
  cases t with
  | nil =>
    have hlast : (s ++ [c]).getLast? ≠ some '\r' := by simpa using hc
    rw [dropCR, if_neg hlast]
    rfl
  | cons d t =>
    have hlast : (s ++ c :: d :: t).getLast? = (d :: t).getLast? := by
      simp [List.getLast?_append, List.getLast?_cons]
    unfold dropCR
    rw [hlast]
    split
    · rw [List.dropLast_append_of_ne_nil (List.cons_ne_nil c _), List.dropLast_cons_cons]
    · rfl

/-- A line without a carriage return is left as it is. -/
theorem dropCR_eq_self {line : List Char} (h : line.getLast? ≠ some '\r') : dropCR line = line :=
  if_neg h

theorem not_mem_dropCR {line : List Char} {c : Char} (h : c ∉ line) : c ∉ dropCR line := by
  unfold dropCR
  split
  · exact fun hc => h (List.dropLast_subset line hc)
  · exact h

/-! ## Fields -/

/-- `strings.SplitN(s, sep, n)`. -/
def splitN (sep : Char) : ℕ → List Char → List (List Char)
  | 0, _ => []
  | 1, s => [s]
  | n + 2, s =>
    match s.dropWhile (· ≠ sep) with
    | [] => [s]
    | _ :: rest => s.takeWhile (· ≠ sep) :: splitN sep (n + 1) rest

/-- The characters before the first of a kind, and those from it on. -/
theorem takeWhile_ne {c : Char} {s : List Char} (hs : c ∉ s) (t : List Char) :
    (s ++ c :: t).takeWhile (· ≠ c) = s ∧ (s ++ c :: t).dropWhile (· ≠ c) = c :: t := by
  have hall : ∀ x ∈ s, decide (x ≠ c) = true := by
    intro x hx
    simpa using fun he : x = c => hs (he ▸ hx)
  rw [List.takeWhile_append_of_pos hall, List.dropWhile_append_of_pos hall]
  simp

/-- A split at the first separator. -/
theorem splitN_append_cons {sep : Char} (n : ℕ) {s : List Char} (hs : sep ∉ s) (t : List Char) :
    splitN sep (n + 2) (s ++ sep :: t) = s :: splitN sep (n + 1) t := by
  rw [splitN, (takeWhile_ne hs t).1, (takeWhile_ne hs t).2]

/-- The three fields of a line. -/
theorem splitN_three {sep : Char} {a b : List Char} (ha : sep ∉ a) (hb : sep ∉ b) (c : List Char) :
    splitN sep 3 (a ++ sep :: (b ++ sep :: c)) = [a, b, c] := by
  rw [splitN_append_cons 1 ha, splitN_append_cons 0 hb]
  rfl

theorem not_mem_intercalate {x sep : Char} (hx : x ≠ sep) {fields : List (List Char)}
    (h : ∀ f ∈ fields, x ∉ f) : x ∉ [sep].intercalate fields := by
  induction fields with
  | nil => simp
  | cons f fields ih =>
    have hf : x ∉ f := h f List.mem_cons_self
    have hfields := ih fun g hg => h g (List.mem_cons_of_mem f hg)
    cases fields with
    | nil => simpa using hf
    | cons g gs =>
      rw [List.intercalate_cons_cons]
      simp [hf, hx, hfields]

/-! ## Prefixes and paths -/

/-- `strings.TrimPrefix`. -/
def trimPrefix (s p : List Char) : List Char := if p <+: s then s.drop p.length else s

/-- A prefix is trimmed. -/
theorem trimPrefix_append (p s : List Char) : trimPrefix (p ++ s) p = s := by
  simp [trimPrefix]

theorem trimPrefix_of_not {s p : List Char} (h : ¬ p <+: s) : trimPrefix s p = s := if_neg h

/-- `filepath.Base`. -/
def base (path : List Char) : List Char :=
  if path = [] then ['.']
  else
    let q := (path.reverse.dropWhile (· = '/')).takeWhile (· ≠ '/')
    if q = [] then ['/'] else q.reverse

end Lines
