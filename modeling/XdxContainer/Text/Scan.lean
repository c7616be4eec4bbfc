import XdxContainer.Path.Strings

/-!
# Text/Scan — reading numbers as the C library does

`strtoumax`, `strtoimax` and the integer conversions of `sscanf`: white space is skipped, a sign is
read, then digits; a number out of range becomes the nearest one, an unsigned one with a sign is
taken modulo the word.
-/

open Paths

namespace Scan

/-- `isspace`. -/
def isSpace (c : Char) : Bool := c ∈ [' ', '\t', '\n', '\x0b', '\x0c', '\r']

/-- `tolower`. -/
def toLower (c : Char) : Char := if 'A' ≤ c ∧ c ≤ 'Z' then Char.ofNat (c.toNat + 32) else c

/-- `strcasecmp` finds no difference. -/
def strCaseEqual (s t : Str) : Bool := s.map toLower = t.map toLower

/-- `strncasecmp` finds no difference. -/
def strnCaseEqual (s t : Str) (n : ℕ) : Bool := (s.map toLower).take n = (t.map toLower).take n

/-- The value of a digit. -/
def digit (base : ℕ) (c : Char) : Option ℕ :=
  let d := if '0' ≤ c ∧ c ≤ '9' then c.toNat - '0'.toNat
    else if 'a' ≤ toLower c ∧ toLower c ≤ 'z' then (toLower c).toNat - 'a'.toNat + 10 else base
  if d < base then some d else none

/-- The value of the digits a string starts with, and what is behind them. -/
def digits (base : ℕ) : ℕ → Str → ℕ × Str
  | acc, [] => (acc, [])
  | acc, c :: s =>
    match digit base c with
    | some d => digits base (acc * base + d) s
    | none => (acc, c :: s)

/-- The sign a string starts with, and what is behind it. -/
def sign : Str → Bool × Str
  | '-' :: s => (true, s)
  | '+' :: s => (false, s)
  | s => (false, s)

/-- The value of a 64-bit unsigned integer read with a sign: `ULONG_MAX` if it is too large. -/
def toWord (neg : Bool) (n : ℕ) : ℕ :=
  if 2 ^ 64 ≤ n then 2 ^ 64 - 1 else if neg then (2 ^ 64 - n) % 2 ^ 64 else n

/-- `strtoumax(s, &end, 10)`: the value and where it ended, the start if there was no digit. -/
def strtoumax (s : Str) : ℕ × Str :=
  let (neg, t) := sign (s.dropWhile isSpace)
  if t.head?.any (fun c => (digit 10 c).isSome) then
    let (n, rest) := digits 10 0 t
    (toWord neg n, rest)
  else (0, s)

/-- The least that `strtoimax` returns. -/
def INTMAX_MIN : ℤ := -(2 ^ 63 : ℕ)

/-- The most that `strtoimax` returns. -/
def INTMAX_MAX : ℤ := (2 ^ 63 - 1 : ℕ)

/-- The value of a 64-bit signed integer read with a sign: the nearest one if it is out of range. -/
def toSigned (neg : Bool) (n : ℕ) : ℤ :=
  if neg then if 2 ^ 63 < n then INTMAX_MIN else -n
  else if 2 ^ 63 ≤ n then INTMAX_MAX else n

/-- `strtoimax(s, &end, 10)`. -/
def strtoimax (s : Str) : ℤ × Str :=
  let (neg, t) := sign (s.dropWhile isSpace)
  if t.head?.any (fun c => (digit 10 c).isSome) then
    let (n, rest) := digits 10 0 t
    (toSigned neg n, rest)
  else (0, s)

/-- A conversion of `sscanf` of at most `width` characters: `%lu` for base 10, `%x` for base 16,
where `0x` may stand before the digits and is read as 0 if none follows. -/
def convert (base width : ℕ) (s : Str) : Option (ℕ × Str) :=
  let t := s.dropWhile isSpace
  let behind := t.drop width
  let (neg, u) := sign (t.take width)
  let u' := if base = 16 ∧ (u.take 2).map toLower = ['0', 'x'] then u.drop 2 else u
  if u.head?.any (fun c => (digit base c).isSome) then
    let (n, rest) := digits base 0 u'
    some (toWord neg n, rest ++ behind)
  else none

/-- A character of the format that stands for itself. -/
def expect (c : Char) : Str → Option Str
  | d :: s => if d = c then some s else none
  | [] => none

/-- `sscanf(s, "%lu:%lu", &i, &j) == 2`. -/
def scanPair (s : Str) : Option (ℕ × ℕ) := do
  let (i, s) ← convert 10 s.length s
  let s ← expect ':' s
  let (j, _) ← convert 10 s.length s
  return (i, j)

/-- `sscanf(s, "%x:%02x:%02x.0", &a, &b, &c) == 3`, on 32-bit integers. -/
def scanBusId (s : Str) : Option (ℕ × ℕ × ℕ) := do
  let (a, s) ← convert 16 s.length s
  let s ← expect ':' s
  let (b, s) ← convert 16 2 s
  let s ← expect ':' s
  let (c, _) ← convert 16 2 s
  return (a % 2 ^ 32, b % 2 ^ 32, c % 2 ^ 32)

/-- `sscanf(s, "gpu%u%s %u", &a, dummy, &b) == 3`, on 32-bit integers. -/
def scanMigMinor (s : Str) : Option (ℕ × ℕ) := do
  let s ← expect 'u' =<< expect 'p' =<< expect 'g' s
  let (a, s) ← convert 10 s.length s
  let s := s.dropWhile isSpace
  guard (s ≠ [])
  let s := s.dropWhile (!isSpace ·)
  let (b, _) ← convert 10 s.length s
  return (a % 2 ^ 32, b % 2 ^ 32)

/-- `%0<width>x`. -/
def hexPad (width n : ℕ) : Str :=
  let ds := Nat.toDigits 16 n
  List.replicate (width - ds.length) '0' ++ ds

/-! ## A run of digits -/

/-- The number a run of digits stands for. -/
def number (run : Str) : ℕ := run.foldl (fun n c => n * 10 + (c.toNat - '0'.toNat)) 0

theorem range_of_isDigit {c : Char} (h : c.isDigit = true) : '0' ≤ c ∧ c ≤ '9' := by
  simp only [Char.isDigit, Bool.and_eq_true, decide_eq_true_iff] at h
  exact h

/-- A decimal digit is one. -/
theorem digit_of_isDigit {c : Char} (h : c.isDigit = true) :
    digit 10 c = some (c.toNat - '0'.toNat) := by
  have hrange := range_of_isDigit h
  have hlt : c.toNat - '0'.toNat < 10 := by
    have hle : c.toNat ≤ '9'.toNat := hrange.2
    have hnine : '9'.toNat = '0'.toNat + 9 := rfl
    omega
  simp only [digit, if_pos hrange, if_pos hlt]

/-- A run of digits is read up to its end. -/
theorem digits_append {run rest : Str} (hrun : ∀ c ∈ run, c.isDigit = true)
    (hrest : ∀ c ∈ rest.head?, c = '.') (acc : ℕ) :
    digits 10 acc (run ++ rest)
      = (run.foldl (fun n c => n * 10 + (c.toNat - '0'.toNat)) acc, rest) := by
  induction run generalizing acc with
  | nil =>
    rcases rest with _ | ⟨c, rest⟩
    · rfl
    · obtain rfl := hrest c rfl
      rfl
  | cons c run ih =>
    rw [List.cons_append, digits, digit_of_isDigit (hrun c List.mem_cons_self)]
    exact ih (fun d hd => hrun d (List.mem_cons_of_mem _ hd)) _

/-- A run of digits is read to its end. -/
theorem strtoumax_run {run rest : Str} (hne : run ≠ []) (hrun : ∀ c ∈ run, c.isDigit = true)
    (hsmall : number run < 2 ^ 64 - 1) (hrest : ∀ c ∈ rest.head?, c = '.') :
    strtoumax (run ++ rest) = (number run, rest) := by
  have hdigits := digits_append hrun hrest 0
  obtain ⟨c, run, rfl⟩ := List.exists_cons_of_ne_nil hne
  have hc := hrun c List.mem_cons_self
  have hspace : isSpace c = false := by
    refine decide_eq_false fun hmem => ?_
    have hnone : ∀ d ∈ [' ', '\t', '\n', '\x0b', '\x0c', '\r'], d.isDigit = false := by simp
    rw [hnone c hmem] at hc
    cases hc
  have hsign : sign (c :: (run ++ rest)) = (false, c :: (run ++ rest)) := by
    unfold sign
    split
    · next h =>
      obtain ⟨rfl, -⟩ := List.cons.inj h
      cases hc
    · next h =>
      obtain ⟨rfl, -⟩ := List.cons.inj h
      cases hc
    · rfl
  have hword : toWord false (number (c :: run)) = number (c :: run) := by
    rw [toWord, if_neg (by omega)]
    rfl
  have hdrop : ((c :: run) ++ rest).dropWhile isSpace = c :: (run ++ rest) := by
    rw [List.cons_append, List.dropWhile_cons_of_neg (by rw [hspace]; exact Bool.false_ne_true)]
  have hhead : (c :: (run ++ rest)).head?.any (fun c => (digit 10 c).isSome) = true := by
    rw [List.head?_cons, Option.any_some, digit_of_isDigit hc]
    rfl
  rw [strtoumax, hdrop, hsign]
  simp only [hhead, if_true]
  rw [← List.cons_append, hdigits, ← number, hword]

/-! ## One character -/

/-- The value of a digit. -/
theorem digit_eq_some_iff {base d : ℕ} {c : Char} :
    digit base c = some d ↔ d < base ∧
      d = if '0' ≤ c ∧ c ≤ '9' then c.toNat - '0'.toNat
        else if 'a' ≤ toLower c ∧ toLower c ≤ 'z' then (toLower c).toNat - 'a'.toNat + 10
        else base := by
  rw [digit]
  rw [Option.ite_none_right_eq_some, Option.some_inj]
  constructor
  · rintro ⟨hlt, rfl⟩
    exact ⟨hlt, rfl⟩
  · rintro ⟨hlt, rfl⟩
    exact ⟨hlt, rfl⟩

theorem eq_zero_of_digit {c : Char} (h : digit 10 c = some 0) : c = '0' := by
  have hvalue := (digit_eq_some_iff.mp h).2
  by_cases hrange : '0' ≤ c ∧ c ≤ '9'
  · rw [if_pos hrange] at hvalue
    have hle : '0'.toNat ≤ c.toNat := hrange.1
    exact Char.toNat_inj.mp (by omega)
  · rw [if_neg hrange] at hvalue
    split at hvalue <;> omega

/-- One digit is read. -/
theorem digits_singleton {base acc d : ℕ} {c : Char} (h : digit base c = some d) :
    digits base acc [c] = (acc * base + d, []) := by
  simp only [digits, h]

theorem sign_singleton (c : Char) : (sign [c]).2 = [] ∨ sign [c] = (false, [c]) := by
  unfold sign
  split
  · next h => exact .inl (List.cons.inj h).2.symm
  · next h => exact .inl (List.cons.inj h).2.symm
  · exact .inr rfl

/-- Nothing is left behind a number of one character. -/
theorem behind_convert {c : Char} {r : ℕ × Str} (h : convert 16 1 [c] = some r) : r.2 = [] := by
  by_cases hspace : isSpace c
  · simp [convert, hspace, sign] at h
  have hdrop : [c].dropWhile isSpace = [c] := by simp [hspace]
  rw [convert, hdrop] at h
  rcases sign_singleton c with hnil | hsign
  · simp [hnil] at h
  · simp only [List.take_succ_cons, List.take_zero, hsign] at h
    rcases hd : digit 16 c with _ | d
    · simp [hd] at h
    · simp [hd, digits_singleton hd] at h
      rw [← h]

/-- One character is no bus ID. -/
theorem scanBusId_singleton (c : Char) : scanBusId [c] = none := by
  rcases h : convert 16 1 [c] with _ | r
  · simp [scanBusId, h]
  · simp [scanBusId, h, behind_convert h, expect]

/-- The only character that is read as zero. -/
theorem eq_zero_of_strtoumax {c : Char} (h : strtoumax [c] = (0, [])) : c = '0' := by
  by_cases hspace : isSpace c
  · simp [strtoumax, hspace, sign] at h
  have hdrop : [c].dropWhile isSpace = [c] := by simp [hspace]
  rw [strtoumax, hdrop] at h
  rcases sign_singleton c with hnil | hsign
  · simp [hnil] at h
  · rw [hsign] at h
    rcases hd : digit 10 c with _ | d
    · simp [hd] at h
    · simp only [List.head?_cons, Option.any_some, hd, Option.isSome_some, if_true,
        digits_singleton hd] at h
      have hlt : d < 10 := (digit_eq_some_iff.mp hd).1
      have hzero : d = 0 := by
        have hword := (Prod.mk.inj h).1
        rw [Nat.zero_mul, Nat.zero_add, toWord, if_neg (by omega)] at hword
        exact hword
      exact eq_zero_of_digit (hzero ▸ hd)

end Scan
