import XdxContainer.Text.Scan

/-!
# Cli/Dsl — the requirement language

The functions of `cli/dsl.c`.  A predicate is a disjunction, by spaces, of conjunctions, by commas,
of terms `name op value`; what a name means is up to a table of rules, which may do whatever the
monad `m` allows.

    "cuda>=11.0 driver>=450,driver<451"      cuda ≥ 11.0  ∨  (driver ≥ 450 ∧ driver < 451)
-/

open Paths Scan

namespace Dsl

/-- `enum dsl_comparator`. -/
inductive Comparator
  | EQUAL | NOT_EQUAL | LESS | LESS_EQUAL | GREATER | GREATER_EQUAL
  deriving DecidableEq, Repr

/-- The table of operators. -/
def operators : List (Str × Comparator) :=
  [(['='], .EQUAL), (['!', '='], .NOT_EQUAL), (['<'], .LESS), (['<', '='], .LESS_EQUAL),
    (['>'], .GREATER), (['>', '='], .GREATER_EQUAL)]

/-! ## Comparing -/

/-- What a comparison of numbers that differ gives. -/
def differing (cmp : Comparator) (n₁ n₂ : ℕ) : Bool :=
  match cmp with
  | .EQUAL => false
  | .NOT_EQUAL => true
  | .LESS | .LESS_EQUAL => n₁ < n₂
  | .GREATER | .GREATER_EQUAL => n₁ > n₂

/-- What the comparison gives at the end of one of the versions, trailing zeros left out. -/
def atEnd (cmp : Comparator) (v₁ v₂ : Str) : Bool :=
  let r₁ := v₁.dropWhile fun c => c = '.' ∨ c = '0'
  let r₂ := v₂.dropWhile fun c => c = '.' ∨ c = '0'
  match cmp with
  | .NOT_EQUAL => r₁ ≠ [] ∨ r₂ ≠ []
  | .EQUAL => r₁ = [] ∧ r₂ = []
  | .LESS => r₁ = [] ∧ r₂ ≠ []
  | .LESS_EQUAL => r₁ = []
  | .GREATER => r₁ ≠ [] ∧ r₂ = []
  | .GREATER_EQUAL => r₂ = []

/-- The loop of `dsl_compare_version`, for at most a number of turns: nothing for -1. -/
def compareLoop (cmp : Comparator) : ℕ → Str → Str → Option Bool
  | 0, _, _ => none
  | n + 1, v₁, v₂ =>
    if v₁ = [] ∨ v₂ = [] then some (atEnd cmp v₁ v₂)
    else
      let (n₁, ptr₁) := strtoumax v₁
      let (n₂, ptr₂) := strtoumax v₂
      if n₁ = 2 ^ 64 - 1 ∨ v₁.length = ptr₁.length then none
      else if n₂ = 2 ^ 64 - 1 ∨ v₂.length = ptr₂.length then none
      else if n₁ ≠ n₂ then some (differing cmp n₁ n₂)
      else compareLoop cmp n (ptr₁.dropWhile (· = '.')) (ptr₂.dropWhile (· = '.'))

/-- `dsl_compare_version`. -/
def dslCompareVersion (v₁ : Str) (cmp : Comparator) (v₂ : Str) : Option Bool :=
  let isVersion (v : Str) : Bool := v.all fun c => c.isDigit || c = '.'
  if !isVersion v₁ || !isVersion v₂ then none
  else compareLoop cmp (v₁.length + 1) v₁ v₂

/-- `dsl_compare_string`. -/
def dslCompareString (s₁ : Str) (cmp : Comparator) (s₂ : Str) : Option Bool :=
  match cmp with
  | .EQUAL => some (strCaseEqual s₁ s₂)
  | .NOT_EQUAL => some (!strCaseEqual s₁ s₂)
  | _ => none

/-! ## Evaluating -/

section Evaluate

variable {m : Type → Type} [Monad m]

/-- `struct dsl_rule`, with the data it is called with. -/
structure Rule (m : Type → Type) where
  name : Str
  func : Comparator → Str → m (Option Bool)

/-- The size of the buffer for a term. -/
def EXPR_MAX : ℕ := 128

/-- The characters of operators. -/
def isOperator (c : Char) : Bool := c ∈ ['<', '>', '=', '!']

/-- The name, the operator and the value of a term. -/
def parseTerm (expr : Str) : Option (Str × (Str × Comparator) × Str) :=
  let name := expr.takeWhile (!isOperator ·)
  let ptr := expr.dropWhile (!isOperator ·)
  let n := (ptr.takeWhile isOperator).length
  if name = [] ∨ n = 0 then none
  else
    -- an operator that starts with what is there will do
    match operators.find? fun op => op.1.take n = ptr.take n with
    | none => none
    | some op => if ptr.drop n = [] then none else some (name, op, ptr.drop n)

/-- `evaluate_rule`: nothing for -1.  A term that does not hold must fit the buffer it is reported
in. -/
def evaluateRule (rules : List (Rule m)) (expr : Str) : m (Option Bool) :=
  match parseTerm expr with
  | none => return none
  | some (name, op, val) =>
    match rules.find? fun r => strCaseEqual name r.name with
    | none => return none
    | some rule => do
      match ← rule.func op.2 val with
      | some false =>
        return if EXPR_MAX ≤ name.length + op.1.length + val.length + 2 then none else some false
      | ret => return ret

/-- The inner loop of `dsl_evaluate`: what was found last, and whether the conjunction was gone
through. -/
def evaluateAll (rules : List (Rule m)) : Bool → List Str → m (Option (Bool × Bool))
  | ret, [] => return some (ret, true)
  | ret, expr :: exprs =>
    if expr = [] then evaluateAll rules ret exprs
    else do
      match ← evaluateRule rules expr with
      | none => return none
      | some false => return some (false, false)
      | some true => evaluateAll rules true exprs

/-- The outer loop of `dsl_evaluate`. -/
def evaluateAny (rules : List (Rule m)) : Bool → List Str → m (Option Bool)
  | ret, [] => return some ret
  | ret, expr :: exprs =>
    if expr = [] then evaluateAny rules ret exprs
    else do
      match ← evaluateAll rules ret (expr.splitOn ',') with
      | none => return none
      | some (ret, true) => return some ret
      | some (ret, false) => evaluateAny rules ret exprs

/-- What a predicate fails with. -/
inductive Failure
  | invalid
  | unsatisfied (predicate : Str)
  deriving DecidableEq, Repr

/-- How a requirement on the CUDA version starts. -/
def CUDA_REQUIRE_GREATER : Str := "cuda>=".toList

/-- The message of a failed evaluation. -/
def Failure.msg : Failure → Str
  | .invalid => "invalid expression".toList
  | .unsatisfied predicate =>
    let shown := (predicate.splitOn ' ').headD []
    "unsatisfied condition: ".toList ++ shown
      ++ if CUDA_REQUIRE_GREATER.isPrefixOf shown then
        ", please update your driver to a newer version, or use an earlier cuda container".toList
      else []

/-- `dsl_evaluate`. -/
def dslEvaluate (rules : List (Rule m)) (predicate : Str) : m (Except Failure Unit) := do
  match ← evaluateAny rules true (predicate.splitOn ' ') with
  | none => return .error .invalid
  | some false => return .error (.unsatisfied predicate)
  | some true => return .ok ()

end Evaluate

end Dsl
