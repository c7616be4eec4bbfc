import XdxContainer.Cli.Dsl
import Mathlib.Data.List.TakeWhile

/-!
# Cli/Terms — what the term parser accepts

    term  =  NAME OP VALUE     "cuda>=11.0"  ──evaluate_rule──▸  cuda's rule, GREATER_EQUAL, "11.0"

A term is cut at its first run of operator characters.  The run is looked up as a *beginning* of an
operator, so a lone `!` is taken for `!=`; otherwise the terms accepted are those of the grammar.

* `precise_iff` — `evaluate_rule` calls a rule exactly for the terms of the grammar, unless the
  operator is a lone `!`.
-/

open Paths Scan

namespace Dsl

/-! ## The grammar -/

/-- `NAME OP VALUE`: the operator is as long as it can be. -/
structure IsTerm (expr name : Str) (op : Str × Comparator) (val : Str) : Prop where
  text : expr = name ++ (op.1 ++ val)
  name_ne : name ≠ []
  name_free : ∀ c ∈ name, isOperator c = false
  op_mem : op ∈ operators
  val_ne : val ≠ []
  maximal : ∀ c ∈ val.head?, isOperator c = false

/-- A term whose operator is a lone `!`. -/
structure IsBang (expr name val : Str) : Prop where
  text : expr = name ++ '!' :: val
  name_ne : name ≠ []
  name_free : ∀ c ∈ name, isOperator c = false
  val_ne : val ≠ []
  maximal : ∀ c ∈ val.head?, isOperator c = false

/-- The operator a run of operator characters is taken for: the first that begins with it. -/
def operatorOf (run : Str) : Option (Str × Comparator) :=
  operators.find? fun op => op.1.take run.length = run

theorem operatorOf_of_mem : ∀ op ∈ operators, operatorOf op.1 = some op := by decide

/-- A lone `!` is taken for `!=`. -/
theorem operatorOf_bang : operatorOf ['!'] = some (['!', '='], .NOT_EQUAL) := by decide

/-- What an operator begins with. -/
theorem take_operator : ∀ op ∈ operators, ∀ n < 3,
    op.1.take n = [] ∨ (∃ op' ∈ operators, op'.1 = op.1.take n) ∨ op.1.take n = ['!'] := by decide

theorem length_operator : ∀ op ∈ operators, op.1.length < 3 := by decide

/-- **The runs that are looked up**: the operators, and the lone `!`. -/
theorem operatorOf_eq_some_iff {run : Str} (hne : run ≠ []) {op : Str × Comparator} :
    operatorOf run = some op
      ↔ op ∈ operators ∧ op.1 = run ∨ run = ['!'] ∧ op = (['!', '='], .NOT_EQUAL) := by
  constructor
  · intro h
    have hmem : op ∈ operators := List.mem_of_find?_eq_some h
    have htake : op.1.take run.length = run := by simpa using List.find?_some h
    have hlen : run.length < 3 := by
      have hle := congrArg List.length htake
      rw [List.length_take] at hle
      exact Nat.lt_of_le_of_lt (by omega) (length_operator op hmem)
    have hrun := take_operator op hmem run.length hlen
    rw [htake] at hrun
    rcases hrun with hnil | ⟨op', hop', rfl⟩ | rfl
    · exact absurd hnil hne
    · rw [operatorOf_of_mem op' hop'] at h
      obtain rfl := Option.some.inj h
      exact .inl ⟨hop', rfl⟩
    · rw [operatorOf_bang] at h
      exact .inr ⟨rfl, (Option.some.inj h).symm⟩
  · rintro (⟨hmem, rfl⟩ | ⟨rfl, rfl⟩)
    · exact operatorOf_of_mem op hmem
    · exact operatorOf_bang

/-! ## The parser -/

/-- A text is cut in one way at its first run of characters of a kind. -/
theorem cut_eq {p : Char → Bool} {name run val : Str} (hname : ∀ c ∈ name, p c = false)
    (hrun : ∀ c ∈ run, p c = true) (hne : run ≠ []) (hval : ∀ c ∈ val.head?, p c = false) :
    (name ++ (run ++ val)).takeWhile (!p ·) = name
      ∧ (name ++ (run ++ val)).dropWhile (!p ·) = run ++ val
      ∧ (run ++ val).takeWhile p = run := by
  have hstop : (run ++ val).takeWhile (!p ·) = [] ∧ (run ++ val).dropWhile (!p ·) = run ++ val := by
    obtain ⟨c, run, rfl⟩ := List.exists_cons_of_ne_nil hne
    simp [hrun c List.mem_cons_self]
  have hvalStop : val.takeWhile p = [] := by
    rcases val with _ | ⟨c, val⟩
    · rfl
    · simp [hval c rfl]
  refine ⟨?_, ?_, ?_⟩
  · rw [List.takeWhile_append_of_pos (by simpa using hname), hstop.1, List.append_nil]
  · rw [List.dropWhile_append_of_pos (by simpa using hname), hstop.2]
  · rw [List.takeWhile_append_of_pos hrun, hvalStop, List.append_nil]

/-- Operators are runs of operator characters. -/
theorem isOperator_of_mem : ∀ op ∈ operators, op.1 ≠ [] ∧ ∀ c ∈ op.1, isOperator c = true := by
  simp [operators, isOperator]

/-- The parser on a text that is cut at its first run. -/
theorem parseTerm_cut {name run val : Str} (hne : name ≠ [])
    (hname : ∀ c ∈ name, isOperator c = false)
    (hrun : ∀ c ∈ run, isOperator c = true) (hrunne : run ≠ [])
    (hval : ∀ c ∈ val.head?, isOperator c = false) :
    parseTerm (name ++ (run ++ val))
      = (operatorOf run).bind fun op => if val = [] then none else some (name, op, val) := by
  obtain ⟨htake, hdrop, hmax⟩ := cut_eq hname hrun hrunne hval
  simp only [parseTerm, htake, hdrop, hmax, hne, List.length_eq_zero_iff, hrunne, or_self, if_false,
    List.take_left, List.drop_left]
  cases hop : operatorOf run with
  | none =>
    rw [operatorOf] at hop
    rw [hop]
    rfl
  | some op =>
    rw [operatorOf] at hop
    rw [hop]
    rfl

/-- Every text is cut so. -/
theorem exists_cut (expr : Str) : ∃ name run val, expr = name ++ (run ++ val)
    ∧ (∀ c ∈ name, isOperator c = false) ∧ (∀ c ∈ run, isOperator c = true)
    ∧ (∀ c ∈ val.head?, isOperator c = false)
    ∧ name = expr.takeWhile (!isOperator ·)
    ∧ run = (expr.dropWhile (!isOperator ·)).takeWhile isOperator := by
  refine ⟨_, _, (expr.dropWhile (!isOperator ·)).dropWhile isOperator, ?_, ?_, ?_, ?_, rfl, rfl⟩
  · rw [List.takeWhile_append_dropWhile, List.takeWhile_append_dropWhile]
  · exact fun c hc => by simpa using List.mem_takeWhile_imp hc
  · exact fun c hc => List.mem_takeWhile_imp hc
  · intro c hc
    rw [Option.mem_def] at hc
    have hhead := List.head?_dropWhile_not isOperator (expr.dropWhile (!isOperator ·))
    rw [hc] at hhead
    simpa using hhead

/-- A term that is parsed has a name and an operator. -/
theorem ne_nil_of_parseTerm {expr : Str} (h : parseTerm expr ≠ none) :
    expr.takeWhile (!isOperator ·) ≠ []
      ∧ (expr.dropWhile (!isOperator ·)).takeWhile isOperator ≠ [] := by
  constructor
  · intro hname
    exact h (by rw [parseTerm, if_pos (.inl hname)])
  · intro hrun
    exact h (by rw [parseTerm, if_pos (.inr (by rw [hrun, List.length_nil]))])

/-- **What the parser accepts**: the terms of the grammar, and those with a lone `!`. -/
theorem parseTerm_eq_some_iff {expr name val : Str} {op : Str × Comparator} :
    parseTerm expr = some (name, op, val)
      ↔ IsTerm expr name op val ∨ IsBang expr name val ∧ op = (['!', '='], .NOT_EQUAL) := by
  constructor
  · intro h
    have hne := ne_nil_of_parseTerm (h ▸ Option.some_ne_none _)
    obtain ⟨name', run, val', hexpr, hname, hrun, hval, hnameEq, hrunEq⟩ := exists_cut expr
    rw [← hnameEq, ← hrunEq] at hne
    rw [hexpr, parseTerm_cut hne.1 hname hrun hne.2 hval] at h
    obtain ⟨op', hop, h⟩ := Option.bind_eq_some_iff.mp h
    split_ifs at h with hvalne
    obtain ⟨rfl, rfl, rfl⟩ : name' = name ∧ op' = op ∧ val' = val := by simpa using h
    rcases (operatorOf_eq_some_iff hne.2).mp hop with ⟨hmem, rfl⟩ | ⟨rfl, hbang⟩
    · exact .inl ⟨hexpr, hne.1, hname, hmem, hvalne, hval⟩
    · exact .inr ⟨⟨hexpr, hne.1, hname, hvalne, hval⟩, hbang⟩
  · rintro (h | ⟨h, rfl⟩)
    · obtain ⟨hopne, hop⟩ := isOperator_of_mem op h.op_mem
      rw [h.text, parseTerm_cut h.name_ne h.name_free hop hopne h.maximal,
        operatorOf_of_mem op h.op_mem, Option.bind_some, if_neg h.val_ne]
    · have hcut : parseTerm (name ++ (['!'] ++ val)) = _ :=
        parseTerm_cut h.name_ne h.name_free (by simp [isOperator]) (List.cons_ne_nil _ _) h.maximal
      rw [operatorOf_bang, Option.bind_some, if_neg h.val_ne] at hcut
      rw [h.text]
      exact hcut

/-! ## The rules -/

/-- A call of a rule function: which rule, and what it is passed. -/
structure Call where
  rule : ℕ
  cmp : Comparator
  val : Str
  deriving DecidableEq, Repr

/-- A rule that records its calls. -/
def watch (i : ℕ) (r : Rule Id) : Rule (StateM (List Call)) where
  name := r.name
  func cmp val calls := (r.func cmp val, calls ++ [⟨i, cmp, val⟩])

/-- A table that keeps a record of the calls. -/
def watched (rules : List (Rule Id)) : List (Rule (StateM (List Call))) := rules.mapIdx watch

/-- The rule a name stands for. -/
def ruleOf (rules : List (Rule Id)) (name : Str) : Option ℕ :=
  rules.findIdx? fun r => strCaseEqual name r.name

/-- The call a term asks for. -/
def Asks (rules : List (Rule Id)) (expr : Str) (call : Call) : Prop :=
  ∃ name op, IsTerm expr name op call.val ∧ op.2 = call.cmp ∧ ruleOf rules name = some call.rule

/-- **A rule is called exactly for the terms of the grammar**: the one asked for, once, and none
with -1 for any other text. -/
def Precise (rules : List (Rule Id)) (expr : Str) : Prop :=
  (∀ call, Asks rules expr call → (evaluateRule (watched rules) expr []).2 = [call])
    ∧ ((∀ call, ¬Asks rules expr call) → evaluateRule (watched rules) expr [] = (none, []))

section Calls

variable {rules : List (Rule Id)} {expr : Str}

theorem map_name_watched (rules : List (Rule Id)) :
    (watched rules).map (·.name) = rules.map (·.name) := by
  refine List.ext_getElem? fun i => ?_
  rw [List.getElem?_map, List.getElem?_map, watched, List.getElem?_mapIdx, Option.map_map]
  rfl

theorem findIdx?_watched (rules : List (Rule Id)) (name : Str) :
    (watched rules).findIdx? (fun r => strCaseEqual name r.name) = ruleOf rules name := by
  have hnames := congrArg (List.findIdx? (strCaseEqual name)) (map_name_watched rules)
  rw [List.findIdx?_map, List.findIdx?_map] at hnames
  exact hnames

theorem find?_watched (rules : List (Rule Id)) (name : Str) :
    (watched rules).find? (fun r => strCaseEqual name r.name)
      = (ruleOf rules name).bind fun i => rules[i]?.map (watch i) := by
  rw [List.find?_eq_bind_findIdx?_getElem?, findIdx?_watched]
  simp only [watched, List.getElem?_mapIdx]

/-- A term whose name is a rule's: the rule is called, with the operator and the value. -/
theorem calls_of_rule {name val : Str} {op : Str × Comparator} {i : ℕ}
    (hparse : parseTerm expr = some (name, op, val)) (hrule : ruleOf rules name = some i) :
    (evaluateRule (watched rules) expr []).2 = [⟨i, op.2, val⟩] := by
  obtain ⟨hlt, -, -⟩ := List.findIdx?_eq_some_iff_getElem.mp hrule
  have hfind := find?_watched rules name
  rw [hrule, Option.bind_some, List.getElem?_eq_getElem hlt, Option.map_some] at hfind
  simp only [evaluateRule, hparse, hfind]
  rcases hval : rules[i].func op.2 val with _ | _ | _
  all_goals
    simp only [bind, StateT.bind, watch, hval]
    rfl

/-- A text that is no term, or whose name is no rule's: nothing is called. -/
theorem no_calls
    (h : ∀ name op val, parseTerm expr = some (name, op, val) → ruleOf rules name = none) :
    evaluateRule (watched rules) expr [] = (none, []) := by
  rw [evaluateRule]
  rcases hparse : parseTerm expr with _ | ⟨name, op, val⟩
  · rfl
  · simp only [find?_watched, h name op val hparse]
    rfl

/-- A lone `!` calls the rule all the same. -/
theorem not_precise_of_bang {name val : Str} (hbang : IsBang expr name val)
    (hrule : (ruleOf rules name).isSome) : ¬Precise rules expr := by
  rintro ⟨-, hnone⟩
  obtain ⟨i, hrule⟩ := Option.isSome_iff_exists.mp hrule
  have hparse : parseTerm expr = some (name, (['!', '='], .NOT_EQUAL), val) :=
    parseTerm_eq_some_iff.mpr (.inr ⟨hbang, rfl⟩)
  have hnot : ∀ call, ¬Asks rules expr call := by
    rintro call ⟨name', op, hterm, -, -⟩
    have hparse' := parseTerm_eq_some_iff.mpr (.inl hterm)
    obtain ⟨rfl, rfl, hval⟩ : name = name' ∧ (['!', '='], .NOT_EQUAL) = op ∧ val = call.val := by
      simpa using hparse.symm.trans hparse'
    have htext := List.append_cancel_left (hbang.text.symm.trans hterm.text)
    rw [← hval] at htext
    simpa using congrArg List.length htext
  have hcalls := calls_of_rule hparse hrule
  rw [hnone hnot] at hcalls
  cases hcalls

theorem precise_of_no_bang (hbang : ∀ name val, IsBang expr name val → ruleOf rules name = none) :
    Precise rules expr := by
  refine ⟨?_, fun hnot => no_calls fun name op val hparse => ?_⟩
  · rintro call ⟨name, op, hterm, hcmp, hrule⟩
    rw [calls_of_rule (parseTerm_eq_some_iff.mpr (.inl hterm)) hrule, hcmp]
  · rcases parseTerm_eq_some_iff.mp hparse with hterm | ⟨hterm, -⟩
    · by_contra hrule
      obtain ⟨i, hrule⟩ := Option.ne_none_iff_exists'.mp hrule
      exact hnot ⟨i, op.2, val⟩ ⟨name, op, hterm, rfl, hrule⟩
    · exact hbang name val hterm

/-- **When the rules are called precisely**: when the term is not `NAME!VALUE` for a rule's name. -/
theorem precise_iff (rules : List (Rule Id)) (expr : Str) :
    Precise rules expr ↔ ¬∃ name val, IsBang expr name val ∧ (ruleOf rules name).isSome := by
  constructor
  · rintro hprecise ⟨name, val, hbang, hrule⟩
    exact not_precise_of_bang hbang hrule hprecise
  · intro hbang
    refine precise_of_no_bang fun name val hterm => ?_
    by_contra hrule
    exact hbang ⟨name, val, hterm, Option.isSome_iff_ne_none.mpr hrule⟩

/-- The rule for the version of CUDA on a host with 11.0. -/
def cudaRule : Rule Id where
  name := "cuda".toList
  func := dslCompareVersion "11.0".toList

/-- **`cuda!12.0` is accepted**, as `cuda!=12.0` is. -/
theorem not_precise_bang : ¬Precise [cudaRule] "cuda!12.0".toList :=
  have hbang : IsBang "cuda!12.0".toList "cuda".toList "12.0".toList :=
    ⟨rfl, by decide, by simp [isOperator], by decide, by simp [isOperator]⟩
  not_precise_of_bang hbang rfl

end Calls

end Dsl
