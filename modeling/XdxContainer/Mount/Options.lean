import XdxContainer.Mount.Code
import Mathlib.Data.List.Basic

/-!
# Mount/Options — container options as a text

    "compute" ┐
    ""        ├strJoin " "─▸ "compute utility  ngx" ─optionsParse─▸ COMPUTE | UTILITY | NGX ─▸ flags
    "utility  ngx" ┘

A front end appends words to a text, one at a time; the library cuts the text at its spaces and
joins the values of the words.  The words may be empty and may have spaces of their own.

* `strJoin_size` — `str_join` asks for exactly the room its result takes.
* `optionsParse_joined` — the text stands for the set of its words, and is refused for an unknown
  one.
-/

open Paths

namespace Mount

/-! ## The text -/

/-- `str_join`: what `*s1` is afterwards, if `realloc` has room for it. -/
def strJoin (realloc : ℕ → Bool) (s1 : Option Str) (s2 sep : Str) : Option Str :=
  let buf := s1.getD []
  let size := 1 + (if buf ≠ [] then buf.length + sep.length else 0) + s2.length
  if realloc size then some ((if buf ≠ [] then buf ++ sep else buf) ++ s2) else none

/-- **`str_join` asks for the room of its result**, and of its end. -/
theorem strJoin_size {realloc : ℕ → Bool} {s1 : Option Str} {s2 sep str : Str}
    (h : strJoin realloc s1 s2 sep = some str) : realloc (str.length + 1) = true := by
  obtain ⟨hroom, hstr⟩ := Option.ite_none_right_eq_some.mp h
  have hlen : str.length + 1
      = 1 + (if s1.getD [] ≠ [] then (s1.getD []).length + sep.length else 0) + s2.length := by
    rw [← Option.some.inj hstr, List.length_append, Nat.add_comm _ 1, ← Nat.add_assoc]
    by_cases hbuf : s1.getD [] = []
    · rw [if_neg (not_not_intro hbuf), if_neg (not_not_intro hbuf), hbuf, List.length_nil]
    · rw [if_pos hbuf, if_pos hbuf, List.length_append]
  rwa [hlen]

/-- The words of a text: what stands between its spaces. -/
def spaced (str : Str) : List Str := (str.splitOn ' ').filter (· ≠ [])

theorem spaced_nil : spaced [] = [] := rfl

theorem spaced_append_cons (s t : Str) : spaced (s ++ ' ' :: t) = spaced s ++ spaced t := by
  rw [spaced, List.splitOn_append_cons_self, List.filter_append]
  rfl

/-- A word is joined to the words there are. -/
theorem spaced_strJoin {realloc : ℕ → Bool} {s1 : Option Str} {s2 str : Str}
    (h : strJoin realloc s1 s2 [' '] = some str) :
    spaced str = spaced (s1.getD []) ++ spaced s2 := by
  obtain ⟨-, hstr⟩ := Option.ite_none_right_eq_some.mp h
  rw [← Option.some.inj hstr]
  by_cases hbuf : s1.getD [] = []
  · rw [if_neg (not_not_intro hbuf), hbuf, spaced_nil]
    rfl
  · rw [if_pos hbuf, List.append_assoc]
    exact spaced_append_cons _ s2

/-- Words appended one by one to a text that is `NULL` at first. -/
def joinAll (realloc : ℕ → Bool) (words : List Str) : Option (Option Str) :=
  words.foldlM (fun s1 word => (strJoin realloc s1 word [' ']).map some) none

/-- The words of some words. -/
def optionWords (words : List Str) : List Str := words.flatMap spaced

/-- **The text has the words that were appended to it.** -/
theorem spaced_joinAll {realloc : ℕ → Bool} {words : List Str} {str : Str}
    (h : joinAll realloc words = some (some str)) : spaced str = optionWords words := by
  have hgen : ∀ (words : List Str) (s1 : Option Str),
      words.foldlM (fun s1 word => (strJoin realloc s1 word [' ']).map some) s1 = some (some str) →
      spaced str = spaced (s1.getD []) ++ optionWords words := by
    intro words
    induction words with
    | nil =>
      intro s1 h
      obtain rfl : s1 = some str := Option.some.inj h
      exact (List.append_nil _).symm
    | cons word words ih =>
      intro s1 h
      rw [List.foldlM_cons] at h
      obtain ⟨s2, hs2, hrest⟩ := Option.bind_eq_some_iff.mp h
      obtain ⟨buf, hbuf, rfl⟩ := Option.map_eq_some_iff.mp hs2
      rw [ih _ hrest, Option.getD_some, spaced_strJoin hbuf, List.append_assoc]
      rfl
  exact hgen words none h

/-! ## The flags -/

/-- `struct option`. -/
structure Opt where
  name : Str
  value : BitVec 32

/-- `NVC_ARG_MAX`. -/
def NVC_ARG_MAX : ℕ := 256

/-- The loop of `options_parse` over what `strsep` gives: the flags, or `-1` and the error. -/
def parseWords (opts : List Opt) : BitVec 32 → List Str → BitVec 32 × Option Str
  | flags, [] => (flags, none)
  | flags, opt :: rest =>
    if opt = [] then parseWords opts flags rest
    else match opts.find? (·.name = opt) with
      | some o => parseWords opts (flags ||| o.value) rest
      | none => (-1, some ("invalid option: ".toList ++ opt))

/-- `options_parse`. -/
def optionsParse (opts : List Opt) (str : Str) : BitVec 32 × Option Str :=
  if str.length ≥ NVC_ARG_MAX then (-1, some "too many options".toList)
  else parseWords opts 0 (str.splitOn ' ')

/-- A word is the name of an option. -/
def Known (opts : List Opt) (word : Str) : Prop := ∃ o ∈ opts, o.name = word

instance (opts : List Opt) (word : Str) : Decidable (Known opts word) :=
  inferInstanceAs (Decidable (∃ o ∈ opts, o.name = word))

/-- What a word stands for. -/
def valueOf (opts : List Opt) (word : Str) : BitVec 32 :=
  ((opts.find? (·.name = word)).map Opt.value).getD 0

/-- The bitwise OR of what some words stand for. -/
def union (opts : List Opt) (words : List Str) : BitVec 32 :=
  words.foldl (fun flags word => flags ||| valueOf opts word) 0

theorem parseWords_nil_cons (opts : List Opt) (flags : BitVec 32) (words : List Str) :
    parseWords opts flags ([] :: words) = parseWords opts flags words := if_pos rfl

theorem find?_of_known {opts : List Opt} {word : Str} (h : Known opts word) :
    ∃ o, opts.find? (·.name = word) = some o := by
  rw [← Option.isSome_iff_exists, List.find?_isSome]
  simpa [Known] using h

theorem parseWords_cons_of_known {opts : List Opt} {word : Str} (hne : word ≠ [])
    (h : Known opts word) (flags : BitVec 32) (words : List Str) :
    parseWords opts flags (word :: words)
      = parseWords opts (flags ||| valueOf opts word) words := by
  obtain ⟨o, ho⟩ := find?_of_known h
  rw [parseWords, if_neg hne, valueOf, ho]
  rfl

theorem parseWords_cons_of_not_known {opts : List Opt} {word : Str} (hne : word ≠ [])
    (h : ¬Known opts word) (flags : BitVec 32) (words : List Str) :
    parseWords opts flags (word :: words) = (-1, some ("invalid option: ".toList ++ word)) := by
  have hnone : opts.find? (·.name = word) = none := by simpa [Known] using h
  rw [parseWords, if_neg hne, hnone]

/-- Words that are all known are joined. -/
theorem parseWords_of_known {opts : List Opt} {words : List Str} (flags : BitVec 32)
    (h : ∀ word ∈ words.filter (· ≠ []), Known opts word) :
    parseWords opts flags words
      = ((words.filter (· ≠ [])).foldl (fun flags word => flags ||| valueOf opts word) flags,
        none) := by
  induction words generalizing flags with
  | nil => rfl
  | cons word words ih =>
    by_cases hnil : word = []
    · subst hnil
      exact (parseWords_nil_cons opts flags words).trans (ih flags h)
    · rw [List.filter_cons_of_pos (by simpa using hnil)] at h ⊢
      obtain ⟨hword, hwords⟩ := List.forall_mem_cons.mp h
      rw [parseWords_cons_of_known hnil hword, ih _ hwords, List.foldl_cons]

/-- The first unknown word ends the search, and the error names it. -/
theorem parseWords_of_not_known {opts : List Opt} {words : List Str} (flags : BitVec 32)
    (h : ∃ word ∈ words.filter (· ≠ []), ¬Known opts word) :
    ∃ word ∈ words.filter (· ≠ []), ¬Known opts word
      ∧ parseWords opts flags words = (-1, some ("invalid option: ".toList ++ word)) := by
  induction words generalizing flags with
  | nil => obtain ⟨word, hword, -⟩ := h; cases hword
  | cons word words ih =>
    by_cases hnil : word = []
    · subst hnil
      rw [parseWords_nil_cons]
      exact ih flags h
    · rw [List.filter_cons_of_pos (by simpa using hnil)] at h ⊢
      by_cases hknown : Known opts word
      · have hwords :=
          ((List.exists_mem_cons_iff _ word _).mp h).resolve_left (not_not_intro hknown)
        obtain ⟨w, hw, hunknown, heq⟩ := ih (flags ||| valueOf opts word) hwords
        refine ⟨w, List.mem_cons_of_mem word hw, hunknown, ?_⟩
        rw [parseWords_cons_of_known hnil hknown, heq]
      · exact ⟨word, List.mem_cons_self, hknown,
          parseWords_cons_of_not_known hnil hknown flags words⟩

/-- A bit is set when a word sets it. -/
theorem getLsbD_union (opts : List Opt) (words : List Str) (i : ℕ) :
    (union opts words).getLsbD i = words.any fun word => (valueOf opts word).getLsbD i := by
  have hgen : ∀ (words : List Str) (flags : BitVec 32),
      (words.foldl (fun flags word => flags ||| valueOf opts word) flags).getLsbD i
        = (flags.getLsbD i || words.any fun word => (valueOf opts word).getLsbD i) := by
    intro words
    induction words with
    | nil => intro flags; simp
    | cons word words ih =>
      intro flags
      rw [List.foldl_cons, ih, BitVec.getLsbD_or, List.any_cons, Bool.or_assoc]
  rw [union, hgen]
  simp

/-- **The order and the repetitions of words do not matter.** -/
theorem union_congr (opts : List Opt) {words words' : List Str}
    (h : ∀ word, word ∈ words ↔ word ∈ words') : union opts words = union opts words' := by
  apply BitVec.eq_of_getLsbD_eq
  intro i _
  rw [getLsbD_union, getLsbD_union, Bool.eq_iff_iff, List.any_eq_true, List.any_eq_true]
  simp only [h]

/-! ## Container options -/

/-- The option `supervised`. -/
def OPT_SUPERVISED : BitVec 32 := 1 <<< 0

/-- The option `standalone`. -/
def OPT_STANDALONE : BitVec 32 := 1 <<< 1

/-- The option `no-cntlibs`. -/
def OPT_NO_CNTLIBS : BitVec 32 := 1 <<< 4

/-- The libraries of `ngx`. -/
def OPT_NGX_LIBS : BitVec 32 := 1 <<< 7

/-- The binaries of `compute`. -/
def OPT_COMPUTE_BINS : BitVec 32 := 1 <<< 12

/-- `container_opts`, where they are not those of `powerpc64`. -/
def containerOpts : List Opt :=
  [⟨"supervised".toList, OPT_SUPERVISED⟩, ⟨"standalone".toList, OPT_STANDALONE⟩,
   ⟨"no-cgroups".toList, OPT_NO_CGROUPS⟩, ⟨"no-devbind".toList, OPT_NO_DEVBIND⟩,
   ⟨"no-cntlibs".toList, OPT_NO_CNTLIBS⟩,
   ⟨"utility".toList, OPT_UTILITY_BINS ||| OPT_UTILITY_LIBS⟩,
   ⟨"compute".toList, OPT_COMPUTE_BINS ||| OPT_COMPUTE_LIBS⟩,
   ⟨"video".toList, OPT_VIDEO_LIBS ||| OPT_COMPUTE_LIBS⟩,
   ⟨"graphics".toList, OPT_GRAPHICS_LIBS⟩, ⟨"display".toList, OPT_DISPLAY ||| OPT_GRAPHICS_LIBS⟩,
   ⟨"ngx".toList, OPT_NGX_LIBS⟩, ⟨"compat32".toList, OPT_COMPAT32⟩]

/-- `default_container_opts`. -/
def defaultContainerOpts : Str := "standalone no-cgroups no-devbind utility".toList

/-- The options of `nvc_container_new`: the flags of the container, or the error. -/
def containerFlags (opts : Option Str) : Except Str (BitVec 32) :=
  let (flags, err) := optionsParse containerOpts (opts.getD defaultContainerOpts)
  if flags.slt 0 then .error (err.getD [])
  else if (decide (flags &&& OPT_SUPERVISED = 0) ^^ decide (flags &&& OPT_STANDALONE = 0)) = false
    then .error "invalid mode of operation".toList
  else .ok flags

/-- The options' values leave the sign free, and each mode has a bit of its own. -/
theorem value_of_mem : ∀ o ∈ containerOpts, o.value.getLsbD 31 = false
    ∧ (o.value.getLsbD 0 = true ↔ o.name = "supervised".toList)
    ∧ (o.value.getLsbD 1 = true ↔ o.name = "standalone".toList) := by decide

/-- A word that stands for something is the name of an option. -/
theorem exists_of_getLsbD_valueOf {opts : List Opt} {word : Str} {i : ℕ}
    (h : (valueOf opts word).getLsbD i = true) :
    ∃ o ∈ opts, o.name = word ∧ o.value.getLsbD i = true := by
  rw [valueOf] at h
  cases hfind : opts.find? (·.name = word) with
  | none => simp [hfind] at h
  | some o =>
    refine ⟨o, List.mem_of_find?_eq_some hfind, by simpa using List.find?_some hfind, ?_⟩
    simpa [hfind] using h

/-- **Flags are not negative**, so that `-1` says that there was an error. -/
theorem msb_union (words : List Str) : (union containerOpts words).getLsbD 31 = false := by
  by_contra h
  rw [Bool.not_eq_false, getLsbD_union, List.any_eq_true] at h
  obtain ⟨word, -, hword⟩ := h
  obtain ⟨o, ho, -, hbit⟩ := exists_of_getLsbD_valueOf hword
  exact Bool.noConfusion (hbit.symm.trans (value_of_mem o ho).1)

/-- A bit that is one word's own is set when the word is there. -/
theorem union_and_eq_zero_iff {opts : List Opt} {name : Str} {i : ℕ} (hi : i < 32)
    (hname : Known opts name)
    (hown : ∀ o ∈ opts, o.value.getLsbD i = true ↔ o.name = name) (words : List Str) :
    union opts words &&& BitVec.twoPow 32 i = 0 ↔ name ∉ words := by
  have hvalue : ∀ word, (valueOf opts word).getLsbD i = true ↔ word = name := by
    intro word
    constructor
    · intro h
      obtain ⟨o, ho, rfl, hbit⟩ := exists_of_getLsbD_valueOf h
      exact (hown o ho).mp hbit
    · rintro rfl
      obtain ⟨o, ho⟩ := find?_of_known hname
      have hmem := List.mem_of_find?_eq_some ho
      have hword : o.name = word := by simpa using List.find?_some ho
      rw [valueOf, ho]
      exact (hown o hmem).mpr hword
  have hbit : (union opts words).getLsbD i = true ↔ name ∈ words := by
    rw [getLsbD_union, List.any_eq_true]
    simp only [hvalue, exists_eq_right]
  rw [BitVec.and_twoPow, ← hbit]
  split
  · next h =>
    refine iff_of_false ?_ (not_not_intro h)
    intro hzero
    have hone := congrArg (·.getLsbD i) hzero
    simp [hi] at hone
  · next h => exact iff_of_true rfl h

/-- What is left of a text: the joined flags, or `-1`. -/
theorem optionsParse_spaced {str : Str} (hlen : str.length < NVC_ARG_MAX) :
    ((∀ word ∈ spaced str, Known containerOpts word)
        ∧ optionsParse containerOpts str = (union containerOpts (spaced str), none))
      ∨ ((∃ word ∈ spaced str, ¬Known containerOpts word)
        ∧ (optionsParse containerOpts str).1 = -1) := by
  have hparse : optionsParse containerOpts str = parseWords containerOpts 0 (str.splitOn ' ') :=
    if_neg (Nat.not_le.mpr hlen)
  rw [hparse]
  by_cases hknown : ∀ word ∈ spaced str, Known containerOpts word
  · exact .inl ⟨hknown, parseWords_of_known 0 hknown⟩
  · push Not at hknown
    obtain ⟨word, -, -, heq⟩ := parseWords_of_not_known 0 hknown
    exact .inr ⟨hknown, by rw [heq]⟩

/-- A union of values is not the error value. -/
theorem union_ne_neg_one (words : List Str) : union containerOpts words ≠ -1 := by
  intro h
  have hsign := msb_union words
  rw [h] at hsign
  exact absurd hsign (by decide)

theorem supervised_iff (words : List Str) :
    union containerOpts words &&& OPT_SUPERVISED = 0 ↔ "supervised".toList ∉ words := by
  have hbit : OPT_SUPERVISED = BitVec.twoPow 32 0 := by decide
  rw [hbit]
  exact union_and_eq_zero_iff (by omega) (by decide) (fun o ho => (value_of_mem o ho).2.1) words

theorem standalone_iff (words : List Str) :
    union containerOpts words &&& OPT_STANDALONE = 0 ↔ "standalone".toList ∉ words := by
  have hbit : OPT_STANDALONE = BitVec.twoPow 32 1 := by decide
  rw [hbit]
  exact union_and_eq_zero_iff (by omega) (by decide) (fun o ho => (value_of_mem o ho).2.2) words

/-- `nvc_container_new` takes flags that have one of the modes. -/
theorem containerFlags_eq {str : Str} {words : List Str}
    (h : optionsParse containerOpts str = (union containerOpts words, none)) :
    (∃ flags, containerFlags (some str) = .ok flags)
      ↔ Xor ("supervised".toList ∈ words) ("standalone".toList ∈ words) := by
  have hpos : (union containerOpts words).slt 0 = false := by
    have hmsb : (union containerOpts words).msb = false := by
      rw [BitVec.msb_eq_getLsbD_last]
      exact msb_union words
    exact (BitVec.slt_zero_eq_msb).trans hmsb
  have hsup : decide (union containerOpts words &&& OPT_SUPERVISED = 0)
      = decide ("supervised".toList ∉ words) :=
    decide_eq_decide.mpr (supervised_iff words)
  have hsta : decide (union containerOpts words &&& OPT_STANDALONE = 0)
      = decide ("standalone".toList ∉ words) :=
    decide_eq_decide.mpr (standalone_iff words)
  rw [containerFlags, Option.getD_some, h]
  simp only [hpos, hsup, hsta, Bool.false_eq_true, if_false]
  by_cases hs : "supervised".toList ∈ words <;> by_cases ht : "standalone".toList ∈ words
  all_goals simp only [hs, ht, not_true, not_false_eq_true, decide_true, decide_false]
  all_goals simp

/-- An error of `options_parse` is one of `nvc_container_new`. -/
theorem containerFlags_error {str : Str} (h : (optionsParse containerOpts str).1 = -1) :
    containerFlags (some str) = .error ((optionsParse containerOpts str).2.getD []) := by
  have hneg : (-1 : BitVec 32).slt 0 = true := by decide
  rw [containerFlags, Option.getD_some]
  simp only [h, hneg, if_true]

/-- **Container options survive the round trip.**  Words appended one by one to a text that stays
below `NVC_ARG_MAX`: the text is refused when one of its words is unknown, and stands for the OR of
its words otherwise, in any order and however often they are repeated; and it is accepted for a
container when it also has precisely one of the modes. -/
theorem optionsParse_joined {realloc : ℕ → Bool} {words : List Str} {str : Str}
    (hjoin : joinAll realloc words = some (some str)) (hlen : str.length < NVC_ARG_MAX) :
    ((optionsParse containerOpts str).1 = -1
        ↔ ∃ word ∈ optionWords words, ¬Known containerOpts word)
      ∧ (∀ words', (∀ word, word ∈ words' ↔ word ∈ optionWords words) →
          (∀ word ∈ words', Known containerOpts word) →
          optionsParse containerOpts str = (union containerOpts words', none))
      ∧ ((∃ flags, containerFlags (some str) = .ok flags)
          ↔ (∀ word ∈ optionWords words, Known containerOpts word)
            ∧ Xor ("supervised".toList ∈ optionWords words)
                ("standalone".toList ∈ optionWords words)) := by
  rw [← spaced_joinAll hjoin]
  obtain ⟨hknown, heq⟩ | ⟨hunknown, heq⟩ := optionsParse_spaced hlen
  · refine ⟨⟨?_, ?_⟩, ?_, ?_⟩
    · intro herr
      rw [heq] at herr
      exact absurd herr (union_ne_neg_one _)
    · rintro ⟨word, hword, hunknown⟩
      exact absurd (hknown word hword) hunknown
    · intro words' hsame _
      rw [heq, union_congr containerOpts hsame]
    · rw [containerFlags_eq heq]
      exact (and_iff_right hknown).symm
  · obtain ⟨word, hword, hnot⟩ := hunknown
    refine ⟨iff_of_true heq ⟨word, hword, hnot⟩, ?_, ?_⟩
    · intro words' hsame hknown
      exact absurd (hknown word ((hsame word).mpr hword)) hnot
    · refine iff_of_false ?_ fun hall => hnot (hall.1 word hword)
      rintro ⟨flags, hflags⟩
      rw [containerFlags_error heq] at hflags
      cases hflags

/-- Four options in three words: the second is empty, the third has two spaces. -/
theorem optionsParse_joined_standalone :
    (optionsParse containerOpts "compute  utility  standalone".toList
        = (union containerOpts ["standalone".toList, "compute".toList, "utility".toList], none))
      ∧ ∃ flags, containerFlags (some "compute  utility  standalone".toList) = .ok flags := by
  have hjoin : joinAll (fun _ => true) ["compute".toList, [], "utility  standalone".toList]
      = some (some "compute  utility  standalone".toList) := by decide
  have hwords : optionWords ["compute".toList, [], "utility  standalone".toList]
      = ["compute".toList, "utility".toList, "standalone".toList] := by decide
  have hall := optionsParse_joined hjoin (by decide)
  rw [hwords] at hall
  refine ⟨hall.2.1 _ (fun word => ?_) (by decide), hall.2.2.mpr (by decide)⟩
  simp only [List.mem_cons, List.not_mem_nil, or_false]
  exact or_comm.trans or_assoc

end Mount
