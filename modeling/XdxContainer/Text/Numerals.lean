import XdxContainer.Text.Scan
import Mathlib.Data.List.TakeWhile

/-!
# Text/Numerals — numerals, what is read from one and what is printed as one

    number n ──hexPad──▸ numeral ──convert, strtoumax──▸ value 16, value 10 ──▸ n

A numeral is a non-empty string of digits.  The conversions read a numeral as its value where
nothing that could belong to it is behind; `hexPad` prints one.
-/

open Paths

namespace Scan

/-- A non-empty string of digits. -/
def IsNumeral (base : ℕ) (s : Str) : Prop := s ≠ [] ∧ ∀ c ∈ s, (digit base c).isSome = true

instance (base : ℕ) (s : Str) : Decidable (IsNumeral base s) :=
  decidable_of_iff (s ≠ [] ∧ (s.all fun c => (digit base c).isSome) = true)
    (and_congr Iff.rfl List.all_eq_true)

/-- The number a numeral stands for. -/
def value (base : ℕ) (s : Str) : ℕ := s.foldl (fun n c => n * base + (digit base c).getD 0) 0

variable {base width acc n : ℕ} {c : Char} {run rest s : Str}

/-! ## Digits -/

theorem digit_lt {d : ℕ} (h : digit base c = some d) : d < base := (digit_eq_some_iff.mp h).1

/-- What is no digit in base 16 is none in base 10. -/
theorem isSome_digit_sixteen (h : (digit 10 c).isSome = true) : (digit 16 c).isSome = true := by
  obtain ⟨d, hd⟩ := Option.isSome_iff_exists.mp h
  obtain ⟨hlt, hvalue⟩ := digit_eq_some_iff.mp hd
  refine Option.isSome_iff_exists.mpr ⟨d, digit_eq_some_iff.mpr ⟨by omega, ?_⟩⟩
  split_ifs at hvalue ⊢ with hnumber hletter
  · exact hvalue
  · exact hvalue
  · omega

theorem digit_ne {d : Char} (hd : digit base d = none) (hc : (digit base c).isSome = true) :
    c ≠ d := by
  rintro rfl
  rw [hd] at hc
  cases hc

/-- What separates the parts of a bus ID. -/
theorem digit_separator {d : Char} (hd : d = ':' ∨ d = '.') : digit 16 d = none := by
  rcases hd with rfl | rfl <;> rfl

theorem isSpace_digit (hc : (digit 16 c).isSome = true) : isSpace c = false := by
  refine decide_eq_false fun hmem => ?_
  have hnone : ∀ d ∈ [' ', '\t', '\n', '\x0b', '\x0c', '\r'], digit 16 d = none := by
    simp only [List.forall_mem_cons]
    exact ⟨rfl, rfl, rfl, rfl, rfl, rfl, nofun⟩
  exact digit_ne (hnone c hmem) hc rfl

theorem sign_digit (hc : (digit 16 c).isSome = true) (s : Str) :
    sign (c :: s) = (false, c :: s) := by
  unfold sign
  split
  · next h => exact absurd (List.cons.inj h).1 (digit_ne rfl hc)
  · next h => exact absurd (List.cons.inj h).1 (digit_ne rfl hc)
  · rfl

/-! ## Numerals that are read -/

/-- The value with one digit more. -/
theorem value_append_singleton (s : Str) (c : Char) :
    value base (s ++ [c]) = value base s * base + (digit base c).getD 0 := by
  rw [value, List.foldl_append]
  rfl

/-- A run of digits is read up to its end. -/
theorem digits_run (hrun : ∀ c ∈ run, (digit base c).isSome = true)
    (hrest : ∀ c ∈ rest.head?, digit base c = none) (acc : ℕ) :
    digits base acc (run ++ rest)
      = (run.foldl (fun n c => n * base + (digit base c).getD 0) acc, rest) := by
  induction run generalizing acc with
  | nil =>
    rcases rest with _ | ⟨c, rest⟩
    · rfl
    · rw [List.nil_append, digits, hrest c rfl]
      rfl
  | cons c run ih =>
    obtain ⟨d, hd⟩ := Option.isSome_iff_exists.mp (hrun c List.mem_cons_self)
    rw [List.cons_append, digits, hd]
    simp only
    rw [ih (fun c' hc' => hrun c' (List.mem_cons_of_mem c hc')), List.foldl_cons, hd]
    rfl

/-- What may stand behind a numeral that is read whole: the width ends there, or a separator
follows. -/
def Ends (width : ℕ) (run rest : Str) : Prop :=
  run.length = width ∨ ∀ c ∈ rest.head?, c = ':' ∨ c = '.'

theorem toLower_ne_x (hc : (digit 16 c).isSome = true) : toLower c ≠ 'x' := by
  intro hx
  obtain ⟨d, hd⟩ := Option.isSome_iff_exists.mp hc
  obtain ⟨hlt, hvalue⟩ := digit_eq_some_iff.mp hd
  split_ifs at hvalue with hnumber hletter
  · have hupper : ¬('A' ≤ c ∧ c ≤ 'Z') := by
      intro h
      have hlow : 'A'.toNat ≤ c.toNat := h.1
      have hhigh : c.toNat ≤ '9'.toNat := hnumber.2
      exact absurd (hlow.trans hhigh) (by decide)
    rw [toLower, if_neg hupper] at hx
    rw [hx] at hnumber
    exact absurd hnumber (by decide)
  · rw [hx] at hvalue
    have hx' : 'x'.toNat = 120 ∧ 'a'.toNat = 97 := ⟨rfl, rfl⟩
    omega
  · omega

/-- **A numeral of base 16 is read as its value.** -/
theorem convert_numeral (hrun : IsNumeral 16 run) (hwidth : run.length ≤ width)
    (hrest : Ends width run rest) :
    convert 16 width (run ++ rest) = some (toWord false (value 16 run), rest) := by
  obtain ⟨c, run, rfl⟩ := List.exists_cons_of_ne_nil hrun.1
  have hc := hrun.2 c List.mem_cons_self
  have hdrop : ((c :: run) ++ rest).dropWhile isSpace = (c :: run) ++ rest := by
    rw [List.cons_append, List.dropWhile_cons_of_neg (by simp [isSpace_digit hc])]
  set more := rest.take (width - (c :: run).length) with hmore
  have htake : ((c :: run) ++ rest).take width = (c :: run) ++ more := by
    rw [List.take_append, List.take_of_length_le hwidth]
  have hbehind : more ++ ((c :: run) ++ rest).drop width = rest := by
    rw [List.drop_append, List.drop_of_length_le hwidth, List.nil_append, hmore,
      List.take_append_drop]
  -- behind the numeral the width ends or a separator stands
  have hhead : ∀ d ∈ more.head?, d = ':' ∨ d = '.' := by
    intro d hd
    rcases hrest with hlen | hsep
    · rw [hmore, hlen, Nat.sub_self, List.take_zero] at hd
      cases hd
    · rw [hmore, List.head?_take] at hd
      split_ifs at hd
      · cases hd
      · exact hsep d hd
  have hprefix : (((c :: run) ++ more).take 2).map toLower ≠ ['0', 'x'] := by
    rcases run with _ | ⟨d, run⟩
    · rcases more with _ | ⟨d, more⟩
      · simp
      · rcases hhead d rfl with rfl | rfl <;> simp [toLower]
    · have hd := toLower_ne_x (hrun.2 d (by simp))
      simp [hd]
  have hdigits := digits_run hrun.2 (fun d hd => digit_separator (hhead d hd)) 0
  have hsign : sign ((c :: run) ++ more) = (false, (c :: run) ++ more) := sign_digit hc _
  have hstart : ((c :: run) ++ more).head?.any (fun c => (digit 16 c).isSome) = true := by
    simpa using hc
  simp only [convert, hdrop, htake, hsign]
  rw [if_pos hstart, if_neg fun h => hprefix h.2, hdigits]
  simp only [hbehind]
  rfl

/-- A decimal numeral is read whole. -/
theorem strtoumax_numeral (hrun : IsNumeral 10 run) :
    strtoumax run = (toWord false (value 10 run), []) := by
  obtain ⟨c, run, rfl⟩ := List.exists_cons_of_ne_nil hrun.1
  have hc := hrun.2 c List.mem_cons_self
  have hc' := isSome_digit_sixteen hc
  have hdrop : (c :: run).dropWhile isSpace = c :: run :=
    List.dropWhile_cons_of_neg (by simp [isSpace_digit hc'])
  have hend : ∀ c ∈ ([] : Str).head?, digit 10 c = none := nofun
  have hdigits := digits_run hrun.2 hend 0
  rw [List.append_nil] at hdigits
  rw [strtoumax, hdrop, sign_digit hc']
  simp only [List.head?_cons, Option.any_some, hc, if_true, hdigits]
  rfl

/-- Few digits stand for a small number. -/
theorem value_lt (hrun : ∀ c ∈ run, (digit 16 c).isSome = true) :
    value 16 run < 16 ^ run.length := by
  induction run using List.reverseRecOn with
  | nil => simp [value]
  | append_singleton run c ih =>
    have hlt := ih fun d hd => hrun d (List.mem_append_left _ hd)
    obtain ⟨d, hd⟩ := Option.isSome_iff_exists.mp (hrun c (by simp))
    have hsmall := digit_lt hd
    rw [value_append_singleton, hd, Option.getD_some, List.length_append, List.length_singleton,
      Nat.pow_succ]
    omega

theorem toWord_mod (hn : n < 2 ^ 32) : toWord false n % 2 ^ 32 = n := by
  rw [toWord, if_neg (by omega), if_neg Bool.false_ne_true, Nat.mod_eq_of_lt hn]

theorem value_two_lt (hrun : IsNumeral 16 run) (hlen : run.length ≤ 2) :
    value 16 run < 2 ^ 32 := by
  have hlt := value_lt hrun.2
  have hpow : 16 ^ run.length ≤ 16 ^ 2 := Nat.pow_le_pow_right (by decide) hlen
  omega

/-- **Numerals behind one another are read as a bus ID.** -/
theorem scanBusId_numerals {domain bus device : Str} (hdomain : IsNumeral 16 domain)
    (hbus : IsNumeral 16 bus) (hbus' : bus.length ≤ 2) (hdevice : IsNumeral 16 device)
    (hdevice' : device.length ≤ 2) (hrest : Ends 2 device rest) :
    scanBusId (domain ++ ':' :: (bus ++ ':' :: (device ++ rest)))
      = some (toWord false (value 16 domain) % 2 ^ 32, value 16 bus, value 16 device) := by
  have hsep (w : ℕ) (run more : Str) : Ends w run (':' :: more) :=
    .inr fun c hc => .inl (Option.some.inj hc).symm
  have hwide : domain.length ≤ (domain ++ ':' :: (bus ++ ':' :: (device ++ rest))).length := by
    simp
  have hfirst := convert_numeral hdomain hwide (hsep _ domain (bus ++ ':' :: (device ++ rest)))
  have hsecond := convert_numeral hbus hbus' (hsep 2 bus (device ++ rest))
  have hthird := convert_numeral hdevice hdevice' hrest
  simp only [scanBusId, hfirst, hsecond, hthird, expect, Option.bind_eq_bind, Option.bind_some,
    Option.pure_def, if_true, toWord_mod (value_two_lt hbus hbus'),
    toWord_mod (value_two_lt hdevice hdevice')]

/-- **What of an address in full is read**: of the device only two digits, and nothing where the
bus has more than two. -/
theorem scanBusId_address {domain bus device : Str} (hdomain : IsNumeral 16 domain)
    (hbus : IsNumeral 16 bus) (hdevice : IsNumeral 16 device) (rest : Str) :
    scanBusId (domain ++ ':' :: (bus ++ ':' :: (device ++ '.' :: rest)))
      = if bus.length ≤ 2 then
          some (toWord false (value 16 domain) % 2 ^ 32, value 16 bus, value 16 (device.take 2))
        else none := by
  have htake {s : Str} (hs : IsNumeral 16 s) : IsNumeral 16 (s.take 2) :=
    ⟨by simpa using hs.1, fun c hc => hs.2 c (List.mem_of_mem_take hc)⟩
  split_ifs with hlen
  · have hrest : Ends 2 (device.take 2) (device.drop 2 ++ '.' :: rest) := by
      by_cases hlong : 2 ≤ device.length
      · exact .inl (by rw [List.length_take]; omega)
      · rw [List.drop_of_length_le (by omega)]
        exact .inr fun c hc => .inr (Option.some.inj hc).symm
    have hread := scanBusId_numerals hdomain hbus hlen (htake hdevice)
      (List.length_take_le 2 device) hrest
    rwa [← List.append_assoc (device.take 2), List.take_append_drop] at hread
  · have hsep : Ends (domain ++ ':' :: (bus ++ ':' :: (device ++ '.' :: rest))).length domain
        (':' :: (bus ++ ':' :: (device ++ '.' :: rest))) :=
      .inr fun c hc => .inl (Option.some.inj hc).symm
    have hfirst := convert_numeral hdomain (by simp) hsep
    obtain ⟨x, y, z, more, rfl⟩ : ∃ x y z more, bus = x :: y :: z :: more := by
      rcases bus with _ | ⟨x, _ | ⟨y, _ | ⟨z, more⟩⟩⟩
      · exact absurd rfl hbus.1
      · simp at hlen
      · simp at hlen
      · exact ⟨x, y, z, more, rfl⟩
    have hz : z ≠ ':' := digit_ne rfl (hbus.2 z (by simp))
    have hsecond := convert_numeral (htake hbus) (List.length_take_le 2 _)
      (.inl rfl : Ends 2 [x, y] (z :: (more ++ ':' :: (device ++ '.' :: rest))))
    simp only [List.take_succ_cons, List.take_zero, List.cons_append, List.nil_append]
      at hfirst hsecond
    simp only [List.cons_append, scanBusId, hfirst, expect, Option.bind_eq_bind, Option.bind_some,
      if_true, hsecond, if_neg hz, Option.bind_none]

/-- A decimal numeral is no bus ID. -/
theorem scanBusId_decimal (hrun : IsNumeral 10 run) : scanBusId run = none := by
  have hsixteen : IsNumeral 16 run := ⟨hrun.1, fun c hc => isSome_digit_sixteen (hrun.2 c hc)⟩
  have hend : Ends run.length run [] := .inl rfl
  have hread := convert_numeral hsixteen (Nat.le_refl _) hend
  rw [List.append_nil] at hread
  simp only [scanBusId, hread, expect, Option.bind_eq_bind, Option.bind_some, Option.bind_none]

/-- What is read to its end consists of digits. -/
theorem digits_eq_nil (h : (digits base acc s).2 = []) : ∀ c ∈ s, (digit base c).isSome = true := by
  induction s generalizing acc with
  | nil => exact nofun
  | cons c s ih =>
    rw [digits] at h
    rcases hd : digit base c with _ | d
    · rw [hd] at h
      cases h
    · rw [hd] at h
      intro c' hc'
      rcases List.mem_cons.mp hc' with rfl | hc'
      · rw [hd]
        rfl
      · exact ih h c' hc'

theorem mem_sign (hc : c ∈ s) : c = '-' ∨ c = '+' ∨ c ∈ (sign s).2 := by
  unfold sign
  split
  · exact (List.mem_cons.mp hc).imp id .inr
  · exact (List.mem_cons.mp hc).elim (fun h => .inr (.inl h)) fun h => .inr (.inr h)
  · exact .inr (.inr hc)

/-- **What `strtoumax` reads to its end**: white space, a sign, digits. -/
theorem strtoumax_eq_nil (h : (strtoumax s).2 = []) (hc : c ∈ s) :
    isSpace c = true ∨ c = '-' ∨ c = '+' ∨ (digit 10 c).isSome = true := by
  by_cases hspace : isSpace c = true
  · exact .inl hspace
  refine .inr ?_
  have hdrop : c ∈ s.dropWhile isSpace := by
    rw [← List.takeWhile_append_dropWhile (p := isSpace) (l := s), List.mem_append] at hc
    exact hc.resolve_left fun hmem => hspace (List.mem_takeWhile_imp hmem)
  rw [strtoumax] at h
  split at h
  next neg t hsign =>
  split_ifs at h with hdigit
  · refine (mem_sign hdrop).imp id (Or.imp id fun hmem => ?_)
    rw [hsign] at hmem
    exact digits_eq_nil h c hmem
  · exact absurd h (List.ne_nil_of_mem hc)

/-- A sign, or none. -/
theorem sign_spec (s : Str) :
    ∃ sg, s = sg ++ (sign s).2 ∧ (sg = [] ∨ sg = ['+'] ∨ sg = ['-'])
      ∧ (sign s).1 = decide (sg = ['-']) := by
  unfold sign
  split
  · exact ⟨['-'], rfl, .inr (.inr rfl), rfl⟩
  · exact ⟨['+'], rfl, .inr (.inl rfl), rfl⟩
  · exact ⟨[], rfl, .inl rfl, rfl⟩

/-- **What a number is read from**: white space, a sign, a numeral, and whatever is behind it. -/
structure Scanned (s sp sg run rest : Str) : Prop where
  split : s = sp ++ (sg ++ (run ++ rest))
  space : ∀ c ∈ sp, isSpace c = true
  sign : sg = [] ∨ sg = ['+'] ∨ sg = ['-']
  numeral : IsNumeral 10 run
  behind : ∀ c ∈ rest.head?, digit 10 c = none

theorem scanned_of_sign {neg : Bool} {t : Str} (hsign : sign (s.dropWhile isSpace) = (neg, t))
    (hdigit : t.head?.any (fun c => (digit 10 c).isSome) = true) :
    ∃ sp sg run rest, Scanned s sp sg run rest ∧ neg = decide (sg = ['-'])
      ∧ digits 10 0 t = (value 10 run, rest) := by
  obtain ⟨sg, hsplit, hsg, hneg⟩ := sign_spec (s.dropWhile isSpace)
  rw [hsign] at hsplit hneg
  set run := t.takeWhile fun c => (digit 10 c).isSome with hrun
  set rest := t.dropWhile fun c => (digit 10 c).isSome with hrest
  have ht : t = run ++ rest := List.takeWhile_append_dropWhile.symm
  have hall : ∀ c ∈ run, (digit 10 c).isSome = true := List.all_eq_true.mp List.all_takeWhile
  have hne : run ≠ [] := by
    rcases t with _ | ⟨c, t⟩
    · cases hdigit
    · have hc : (digit 10 c).isSome = true := hdigit
      simp [hrun, hc]
  have hbehind : ∀ c ∈ rest.head?, digit 10 c = none := by
    intro c hc
    have hnot := List.head?_dropWhile_not (fun c => (digit 10 c).isSome) t
    rw [← hrest, Option.mem_def.mp hc] at hnot
    simpa using hnot
  refine ⟨s.takeWhile isSpace, sg, run, rest, ⟨?_, ?_, hsg, ⟨hne, hall⟩, hbehind⟩, hneg, ?_⟩
  · rw [← ht, ← hsplit, List.takeWhile_append_dropWhile]
  · exact List.all_eq_true.mp List.all_takeWhile
  · rw [ht]
    exact digits_run hall hbehind 0

/-- What a conversion reads that makes something of a sign and a number, where it reads anything. -/
theorem scanned_of_read {α : Type} {make : Bool → ℕ → α} {z : α} {x : α × Str}
    (hx : x = if (sign (s.dropWhile isSpace)).2.head?.any (fun c => (digit 10 c).isSome) then
        (make (sign (s.dropWhile isSpace)).1 (digits 10 0 (sign (s.dropWhile isSpace)).2).1,
          (digits 10 0 (sign (s.dropWhile isSpace)).2).2)
      else (z, s)) (h : x.2 ≠ s) :
    ∃ sp sg run, Scanned s sp sg run x.2 ∧ x.1 = make (decide (sg = ['-'])) (value 10 run) := by
  rcases hsign : sign (s.dropWhile isSpace) with ⟨neg, t⟩
  rw [hsign] at hx
  subst hx
  split_ifs at h ⊢ with hdigit
  · obtain ⟨sp, sg, run, rest, hscan, rfl, hdigits⟩ := scanned_of_sign hsign hdigit
    rw [hdigits]
    exact ⟨sp, sg, run, hscan, rfl⟩
  · exact absurd rfl h

/-- **What `strtoumax` reads**, where it reads anything. -/
theorem strtoumax_scanned (h : (strtoumax s).2 ≠ s) :
    ∃ sp sg run, Scanned s sp sg run (strtoumax s).2
      ∧ (strtoumax s).1 = toWord (decide (sg = ['-'])) (value 10 run) :=
  scanned_of_read rfl h

/-- **What `strtoimax` reads**, where it reads anything. -/
theorem strtoimax_scanned (h : (strtoimax s).2 ≠ s) :
    ∃ sp sg run, Scanned s sp sg run (strtoimax s).2
      ∧ (strtoimax s).1 = toSigned (decide (sg = ['-'])) (value 10 run) :=
  scanned_of_read rfl h

/-- Where a number starts that is read from a text. -/
theorem Scanned.sign_eq {sp sg : Str} (h : Scanned s sp sg run rest) :
    Scan.sign (s.dropWhile isSpace) = (decide (sg = ['-']), run ++ rest) := by
  obtain ⟨c, run, rfl⟩ := List.exists_cons_of_ne_nil h.numeral.1
  have hdigit := isSome_digit_sixteen (h.numeral.2 c List.mem_cons_self)
  rw [h.split, List.dropWhile_append_of_pos h.space]
  rcases h.sign with rfl | rfl | rfl
  · rw [List.nil_append, List.cons_append,
      List.dropWhile_cons_of_neg (by rw [isSpace_digit hdigit]; exact Bool.false_ne_true)]
    exact sign_digit hdigit _
  · rfl
  · rfl

/-- **`strtoimax` reads such a number.** -/
theorem Scanned.strtoimax {sp sg : Str} (h : Scanned s sp sg run rest) :
    Scan.strtoimax s = (toSigned (decide (sg = ['-'])) (value 10 run), rest) := by
  have hhead : (run ++ rest).head?.any (fun c => (digit 10 c).isSome) = true := by
    obtain ⟨c, run, rfl⟩ := List.exists_cons_of_ne_nil h.numeral.1
    exact h.numeral.2 c List.mem_cons_self
  rw [Scan.strtoimax, h.sign_eq]
  simp only [hhead, if_true, digits_run h.numeral.2 h.behind 0]
  rfl

/-- What starts with a digit has neither white space nor a sign. -/
theorem Scanned.eq_nil_of_digit {sp sg : Str} (h : Scanned s sp sg run rest)
    (hc : ∀ c ∈ (sp ++ (sg ++ run)).head?, (digit 10 c).isSome = true) : sp = [] ∧ sg = [] := by
  rcases sp with _ | ⟨c, sp⟩
  · refine ⟨rfl, ?_⟩
    rcases h.sign with rfl | rfl | rfl
    · rfl
    · exact absurd (hc '+' rfl) (by decide)
    · exact absurd (hc '-' rfl) (by decide)
  · have hspace := h.space c List.mem_cons_self
    rw [isSpace_digit (isSome_digit_sixteen (hc c rfl))] at hspace
    cases hspace

/-- What is read as a bus ID are 32-bit numbers. -/
theorem scanBusId_lt {a : ℕ × ℕ × ℕ} (h : scanBusId s = some a) :
    a.1 < 2 ^ 32 ∧ a.2.1 < 2 ^ 32 ∧ a.2.2 < 2 ^ 32 := by
  have hlt (n : ℕ) : n % 2 ^ 32 < 2 ^ 32 := Nat.mod_lt n (by decide)
  simp only [scanBusId, Option.bind_eq_bind, Option.bind_eq_some_iff, Option.pure_def,
    Option.some.injEq] at h
  obtain ⟨x, -, s₁, -, y, -, s₂, -, z, -, rfl⟩ := h
  exact ⟨hlt x.1, hlt y.1, hlt z.1⟩

/-! ## Numerals that are printed -/

theorem digit_digitChar {d : ℕ} (hd : d < 16) :
    digit 16 d.digitChar = some d ∧ toLower d.digitChar = d.digitChar := by
  have hall : ∀ d < 16, digit 16 (Nat.digitChar d) = some d
      ∧ toLower (Nat.digitChar d) = Nat.digitChar d := by decide
  exact hall d hd

/-- The hexadecimal digits of a number. -/
theorem toDigits_spec (n : ℕ) :
    value 16 (Nat.toDigits 16 n) = n ∧ (∀ c ∈ Nat.toDigits 16 n, (digit 16 c).isSome = true)
      ∧ (Nat.toDigits 16 n).map toLower = Nat.toDigits 16 n := by
  induction n using Nat.strongRecOn with
  | ind n ih =>
    by_cases hn : n < 16
    · obtain ⟨hdigit, hlower⟩ := digit_digitChar hn
      rw [Nat.toDigits_of_lt_base hn]
      exact ⟨by simp [value, hdigit], by simp [hdigit], by simp [hlower]⟩
    · obtain ⟨hvalue, hdigits, hlower⟩ := ih (n / 16) (by omega)
      obtain ⟨hdigit, hlow⟩ := digit_digitChar (Nat.mod_lt n (by decide : 0 < 16))
      rw [Nat.toDigits_of_base_le (by decide) (by omega)]
      refine ⟨?_, fun c hc => ?_, by simp [hlower, hlow]⟩
      · rw [value_append_singleton, hvalue, hdigit, Option.getD_some]
        omega
      · rcases List.mem_append.mp hc with hc | hc
        · exact hdigits c hc
        · rw [List.mem_singleton.mp hc, hdigit]
          rfl

theorem value_zeros (k : ℕ) (s : Str) : value 16 (List.replicate k '0' ++ s) = value 16 s := by
  induction k with
  | zero => rfl
  | succ k ih => exact ih

/-- **`hexPad` prints a numeral of the number, in lower case.** -/
theorem hexPad_spec (width n : ℕ) :
    IsNumeral 16 (hexPad width n) ∧ value 16 (hexPad width n) = n
      ∧ (hexPad width n).map toLower = hexPad width n := by
  obtain ⟨hvalue, hdigits, hlower⟩ := toDigits_spec n
  rw [hexPad]
  refine ⟨⟨by simp, fun c hc => ?_⟩, by rw [value_zeros, hvalue], ?_⟩
  · rcases List.mem_append.mp hc with hc | hc
    · rw [List.eq_of_mem_replicate hc]
      rfl
    · exact hdigits c hc
  · rw [List.map_append, hlower, List.map_replicate]
    rfl

/-- Different numbers are printed differently. -/
theorem hexPad_injective {m : ℕ} (h : hexPad width n = hexPad width m) : n = m := by
  have hvalue := congrArg (value 16) h
  rwa [(hexPad_spec width n).2.1, (hexPad_spec width m).2.1] at hvalue

theorem length_hexPad_le {k : ℕ} (hn : n < 16 ^ k) (hpos : 0 < k) (hwidth : width ≤ k) :
    (hexPad width n).length ≤ k := by
  have hle := (Nat.length_toDigits_le_iff (by decide) hpos).mpr hn
  rw [hexPad, List.length_append, List.length_replicate]
  omega

/-- A number of few digits is printed in the width. -/
theorem length_hexPad (hn : n < 16 ^ width) (hpos : 0 < width) :
    (hexPad width n).length = width := by
  refine Nat.le_antisymm (length_hexPad_le hn hpos (Nat.le_refl _)) ?_
  rw [hexPad, List.length_append, List.length_replicate]
  omega

/-! ## Numerals behind one another -/

/-- A separator that neither of two strings holds is found in one place. -/
theorem append_cons_inj {x x' y y' : Str} (hx : c ∉ x) (hx' : c ∉ x')
    (h : x ++ c :: y = x' ++ c :: y') : x = x' ∧ y = y' := by
  have hfirst : ∀ z w : Str, c ∉ z → (z ++ c :: w).takeWhile (· ≠ c) = z := by
    intro z w hz
    have hall : ∀ a ∈ z, decide (a ≠ c) = true :=
      fun a ha => decide_eq_true fun he => hz (he ▸ ha)
    rw [List.takeWhile_append_of_pos hall, List.takeWhile_cons_of_neg (by simp), List.append_nil]
  have hsame : x = x' := by
    rw [← hfirst x y hx, h, hfirst x' y' hx']
  subst hsame
  exact ⟨rfl, (List.cons.inj (List.append_cancel_left h)).2⟩

theorem separator_notMem (hrun : IsNumeral 16 run) (hc : c = ':' ∨ c = '.') : c ∉ run :=
  fun hmem => digit_ne (digit_separator hc) (hrun.2 c hmem) rfl

end Scan
