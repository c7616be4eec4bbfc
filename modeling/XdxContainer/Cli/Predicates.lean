import XdxContainer.Cli.Dsl
import XdxContainer.Data.ShortCircuit

/-!
# Cli/Predicates — a requirement as a disjunction of conjunctions

    predicate ──spaces──▸ clauses ──commas──▸ terms ──evaluate_rule──▸ true, false or ill-formed
      └── some clause has all its terms true, from left to right ──┘

`reference` evaluates a predicate so, with what the rules say about each term.  `dsl_evaluate`
differs in one point: a false term that is too long for the buffer it is reported in counts as
ill-formed.

* `dslEvaluate_reference_iff` — the two agree exactly when no such term is met, or the predicate is
  ill-formed anyway.
-/

open Paths Scan ShortCircuit

namespace Dsl

/-! ## The reference -/

/-- The clauses of a predicate. -/
def clauses (predicate : Str) : List Str := (predicate.splitOn ' ').filter (· ≠ [])

/-- The terms of a clause. -/
def terms (clause : Str) : List Str := (clause.splitOn ',').filter (· ≠ [])

/-- What the rules say about a term, whatever its length: nothing if it is ill-formed. -/
def termValue (rules : List (Rule Id)) (expr : Str) : Option Bool :=
  match parseTerm expr with
  | none => none
  | some (name, op, val) =>
    (rules.find? fun r => strCaseEqual name r.name).bind fun r => r.func op.2 val

/-- All terms of a clause are true. -/
def clauseValue (value : Str → Option Bool) (clause : Str) : Option Bool :=
  shortCircuit true ((terms clause).map value)

/-- Some clause has all its terms true, or there is none. -/
def predicateValue (value : Str → Option Bool) (predicate : Str) : Option Bool :=
  if clauses predicate = [] then some true
  else shortCircuit false ((clauses predicate).map (clauseValue value))

/-- **The value of a predicate**: nothing if the evaluation comes to an ill-formed term. -/
def reference (rules : List (Rule Id)) (predicate : Str) : Option Bool :=
  predicateValue (termValue rules) predicate

/-- What `dsl_evaluate` is to return for a value. -/
def outcome (predicate : Str) : Option Bool → Except Failure Unit
  | none => .error .invalid
  | some false => .error (.unsatisfied predicate)
  | some true => .ok ()

theorem outcome_inj {predicate : Str} {a b : Option Bool}
    (h : outcome predicate a = outcome predicate b) : a = b := by
  rcases a with _ | _ | _ <;> rcases b with _ | _ | _ <;> simp_all [outcome]

/-- A false term that does not fit the buffer. -/
def Overlong (rules : List (Rule Id)) (expr : Str) : Prop :=
  termValue rules expr = some false ∧ ∃ name op val, parseTerm expr = some (name, op, val)
    ∧ EXPR_MAX ≤ name.length + op.1.length + val.length + 2

/-- The evaluation comes to such a term. -/
def Overflows (rules : List (Rule Id)) (predicate : Str) : Prop :=
  Meets false (clauseValue (termValue rules))
    (fun clause => Meets true (termValue rules) (Overlong rules) (terms clause)) (clauses predicate)

/-! ## The loops -/

section Loops

variable {rules : List (Rule Id)} {predicate : Str}

/-- What the term evaluator says about a term that is parsed. -/
theorem evaluateRule_of_parseTerm {expr name val : Str} {op : Str × Comparator}
    (hparse : parseTerm expr = some (name, op, val)) :
    evaluateRule rules expr
      = if termValue rules expr = some false
          ∧ EXPR_MAX ≤ name.length + op.1.length + val.length + 2
        then (none : Option Bool) else termValue rules expr := by
  simp only [evaluateRule, termValue, hparse]
  rcases hrule : rules.find? (fun r => strCaseEqual name r.name) with _ | rule
  · simp only [hrule]
    rfl
  · simp only [hrule, Option.bind_some]
    rcases hval : rule.func op.2 val with _ | _ | _
    · simp only [bind]
      rfl
    · simp only [bind, true_and]
      split_ifs <;> rfl
    · simp only [bind]
      rfl

theorem evaluateRule_of_overlong {expr : Str} (h : Overlong rules expr) :
    evaluateRule rules expr = (none : Option Bool) := by
  obtain ⟨hfalse, name, op, val, hparse, hlen⟩ := h
  rw [evaluateRule_of_parseTerm hparse, if_pos ⟨hfalse, hlen⟩]

/-- A term that fits the buffer has its value. -/
theorem evaluateRule_of_not_overlong {expr : Str} (h : ¬Overlong rules expr) :
    evaluateRule rules expr = termValue rules expr := by
  rcases hparse : parseTerm expr with _ | ⟨name, op, val⟩
  · simp only [evaluateRule, termValue, hparse]
    rfl
  · rw [evaluateRule_of_parseTerm hparse, if_neg]
    rintro ⟨hfalse, hlen⟩
    exact h ⟨hfalse, name, op, val, hparse, hlen⟩

/-- The inner loop is a conjunction. -/
theorem evaluateAll_eq (rules : List (Rule Id)) (ret : Bool) (exprs : List Str) :
    evaluateAll rules ret exprs
      = if exprs.filter (· ≠ []) = [] then some (ret, true)
        else (shortCircuit true ((exprs.filter (· ≠ [])).map (evaluateRule rules))).map fun b =>
          (b, b) := by
  induction exprs generalizing ret with
  | nil => rfl
  | cons expr exprs ih =>
    by_cases hexpr : expr = []
    · rw [evaluateAll, if_pos hexpr, ih, List.filter_cons_of_neg (by simpa using hexpr)]
    · rw [evaluateAll, if_neg hexpr, List.filter_cons_of_pos (by simpa using hexpr),
        if_neg (List.cons_ne_nil _ _), List.map_cons]
      rcases hval : evaluateRule rules expr with _ | _ | _
      · simp only [bind]
        rfl
      · simp only [bind]
        rfl
      · simp only [bind]
        rw [ih, shortCircuit, if_pos rfl]
        split_ifs with hnil
        · rw [hnil]
          rfl
        · rfl

/-- The outer loop is a disjunction. -/
theorem evaluateAny_eq (rules : List (Rule Id)) (ret : Bool) (exprs : List Str)
    (hterms : ∀ clause ∈ exprs, clause ≠ [] → terms clause ≠ []) :
    evaluateAny rules ret exprs
      = if exprs.filter (· ≠ []) = [] then some ret
        else shortCircuit false
          ((exprs.filter (· ≠ [])).map (clauseValue (evaluateRule rules))) := by
  induction exprs generalizing ret with
  | nil => rfl
  | cons clause clauses ih =>
    have hrest := fun c hc => hterms c (List.mem_cons_of_mem _ hc)
    by_cases hclause : clause = []
    · rw [evaluateAny, if_pos hclause, ih ret hrest,
        List.filter_cons_of_neg (by simpa using hclause)]
    · have hne := hterms clause List.mem_cons_self hclause
      have hall := evaluateAll_eq rules ret (clause.splitOn ',')
      rw [← terms, if_neg hne, ← clauseValue] at hall
      rw [evaluateAny, if_neg hclause, List.filter_cons_of_pos (by simpa using hclause),
        if_neg (List.cons_ne_nil _ _), List.map_cons]
      rcases hval : clauseValue (evaluateRule rules) clause with _ | _ | _
      · rw [hval, Option.map_none] at hall
        simp only [bind, hall]
        rfl
      · rw [hval, Option.map_some] at hall
        simp only [bind, hall]
        rw [ih false hrest, shortCircuit, if_pos rfl]
        split_ifs with hnil
        · rw [hnil]
          rfl
        · rfl
      · rw [hval, Option.map_some] at hall
        simp only [bind, hall]
        rfl

/-- **The evaluation**, with what the term evaluator says about each term. -/
theorem dslEvaluate_eq (hterms : ∀ clause ∈ clauses predicate, terms clause ≠ []) :
    dslEvaluate rules predicate
      = outcome predicate (predicateValue (evaluateRule rules) predicate) := by
  have hsplit : ∀ clause ∈ predicate.splitOn ' ', clause ≠ [] → terms clause ≠ [] :=
    fun clause hmem hne => hterms clause (List.mem_filter.mpr ⟨hmem, by simpa using hne⟩)
  have hany := evaluateAny_eq rules true (predicate.splitOn ' ') hsplit
  rw [← clauses, ← predicateValue] at hany
  simp only [dslEvaluate, bind, hany]
  rcases predicateValue (evaluateRule rules) predicate with _ | _ | _ <;> rfl

theorem predicateValue_of_overflows (h : Overflows rules predicate) :
    predicateValue (evaluateRule rules) predicate = none := by
  have hne : clauses predicate ≠ [] := by
    rintro hnil
    rw [Overflows, hnil] at h
    exact not_meets_nil h
  rw [predicateValue, if_neg hne]
  refine shortCircuit_of_meets (fun clause hmeets => ?_) (fun clause hmeets => ?_) h
  · exact shortCircuit_of_meets (fun _ => evaluateRule_of_overlong)
      (fun _ => evaluateRule_of_not_overlong) hmeets
  · exact shortCircuit_of_not_meets (fun _ => evaluateRule_of_not_overlong) hmeets

/-- A predicate whose terms fit has the value it stands for. -/
theorem predicateValue_of_not_overflows (h : ¬Overflows rules predicate) :
    predicateValue (evaluateRule rules) predicate = reference rules predicate := by
  rw [reference, predicateValue, predicateValue]
  split_ifs with hnil
  · rfl
  · refine shortCircuit_of_not_meets (fun clause hmeets => ?_) h
    exact shortCircuit_of_not_meets (fun _ => evaluateRule_of_not_overlong) hmeets

end Loops

/-! ## The requirement -/

/-- **When the requirement is its reference**: when no false term that is met is too long for the
buffer, or the evaluation comes to an ill-formed term all the same. -/
theorem dslEvaluate_reference_iff {rules : List (Rule Id)} {predicate : Str}
    (hterms : ∀ clause ∈ clauses predicate, terms clause ≠ []) :
    dslEvaluate rules predicate = outcome predicate (reference rules predicate)
      ↔ ¬Overflows rules predicate ∨ reference rules predicate = none := by
  rw [dslEvaluate_eq hterms]
  by_cases hover : Overflows rules predicate
  · rw [predicateValue_of_overflows hover]
    constructor
    · exact fun h => .inr (outcome_inj h).symm
    · rintro (h | h)
      · exact absurd hover h
      · rw [h]
  · rw [predicateValue_of_not_overflows hover]
    exact iff_of_true rfl (.inl hover)

/-- The rule for the brand of a device. -/
def brandRule : Rule Id where
  name := "brand".toList
  func := dslCompareString "xdx".toList

/-- A false clause is passed over. -/
theorem dslEvaluate_reference_brand :
    dslEvaluate [brandRule] "brand=abc brand=xdx".toList
      = outcome "brand=abc brand=xdx".toList
          (reference [brandRule] "brand=abc brand=xdx".toList) := by
  refine (dslEvaluate_reference_iff (by decide +kernel)).mpr (.inl fun hover => ?_)
  have hnone := predicateValue_of_overflows hover
  revert hnone
  decide +kernel

/-- A false clause of 136 characters, and a true one. -/
def longPredicate : Str := "brand=".toList ++ List.replicate 130 'y' ++ " brand=xdx".toList

/-- **The true clause is not come to**: the false one is reported as invalid. -/
theorem dslEvaluate_longPredicate :
    (∀ clause ∈ clauses longPredicate, terms clause ≠ [])
      ∧ reference [brandRule] longPredicate = some true
      ∧ dslEvaluate [brandRule] longPredicate = .error .invalid := by
  refine ⟨by decide +kernel, by decide +kernel, ?_⟩
  have hvalue : predicateValue (evaluateRule [brandRule]) longPredicate = none := by decide +kernel
  rw [dslEvaluate_eq (by decide +kernel), hvalue]
  rfl

end Dsl
