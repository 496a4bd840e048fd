import TenantAccess.Policy

/-!
# Compiled policies

A `Ruleset` is a policy whose patterns and conditions were checked and compiled. `Policy.compile`
reports the first thing wrong with a policy: its overall shape first, then statement by statement
the actions, the resources and the condition. `Ruleset.evaluate` stops at the first denial that
applies; otherwise it reports the first allowance that applies.
-/
namespace TenantAccess

variable [Pattern.Engine]

/-- The overall shape of a policy is incomplete. -/
inductive PolicyGap where
  | noVersion
  | noStatements
  | noActions (statement : Nat)
  | noResources (statement : Nat)
  deriving DecidableEq, Repr

def PolicyGap.message : PolicyGap → String
  | .noVersion => "Policy must declare a version"
  | .noStatements => "Policy must have at least one statement"
  | .noActions i => s!"Statement {i} has no actions"
  | .noResources i => s!"Statement {i} has no resources"

/-- Why a policy document is refused. -/
inductive PolicyError where
  | unreadable (problem : Wire.Problem)
  | incomplete (gap : PolicyGap)
  | badPattern (statement : Nat) (error : PatternError)
  | badCondition (statement : Nat) (error : ConditionError)

def PolicyError.message : PolicyError → String
  | .unreadable p => p.message Decimal.Layout.compact
  | .incomplete gap => gap.message
  | .badPattern i e => s!"Statement {i}: " ++ e.message
  | .badCondition i e => s!"Statement {i}: " ++ e.message

/-- A compiled statement. -/
structure Rule where
  sid : Option String
  effect : Effect
  actions : List Pattern
  resources : List Pattern
  condition : Option Condition

namespace Rule

def actionMatches (r : Rule) (action : String) : Bool := r.actions.any (·.isMatch action)

def resourceMatches (r : Rule) (resource : String) : Bool := r.resources.any (·.isMatch resource)

/-- A rule without a condition holds in every context. -/
def conditionHolds (r : Rule) (context : Context) : Bool :=
  match r.condition with
  | some c => c.holds context
  | none => true

def applies (r : Rule) (action resource : String) (context : Context) : Bool :=
  r.actionMatches action && r.resourceMatches resource && r.conditionHolds context

end Rule

structure Ruleset where
  version : String
  rules : List Rule

namespace Statement

def compilePatterns : List String → Except PatternError (List Pattern)
  | [] => .ok []
  | s :: rest => do
    let p ← Pattern.compile s
    let ps ← compilePatterns rest
    return p :: ps

def compileCondition (registry : Registry) :
    Option ConditionBlock → Except ConditionError (Option Condition)
  | none => .ok none
  | some block => (Condition.compile block registry).map some

/-- Compiles the statement that stands at `index` in its policy. -/
def compile (s : Statement) (index : Nat) (registry : Registry) : Except PolicyError Rule := do
  let actions ← (compilePatterns s.action.toList).mapError (.badPattern index)
  let resources ← (compilePatterns s.resource.toList).mapError (.badPattern index)
  let condition ← (compileCondition registry s.condition).mapError (.badCondition index)
  return ⟨s.sid, s.effect, actions, resources, condition⟩

end Statement

namespace Policy

/-- The first statement, counted from `index`, without actions or without resources. -/
def statementGap (index : Nat) : List Statement → Option PolicyGap
  | [] => none
  | s :: rest =>
    if s.action.isEmpty then some (.noActions index)
    else if s.resource.isEmpty then some (.noResources index)
    else statementGap (index + 1) rest

/-- What is missing in the overall shape of a policy. -/
def gap? (p : Policy) : Option PolicyGap :=
  if Text.isBlank p.version then some .noVersion
  else if p.statements.isEmpty then some .noStatements
  else statementGap 0 p.statements

def compileStatements (registry : Registry) (index : Nat) :
    List Statement → Except PolicyError (List Rule)
  | [] => .ok []
  | s :: rest => do
    let rule ← s.compile index registry
    let rules ← compileStatements registry (index + 1) rest
    return rule :: rules

def compile (p : Policy) (registry : Registry) : Except PolicyError Ruleset :=
  match p.gap? with
  | some gap => .error (.incomplete gap)
  | none => (compileStatements registry 0 p.statements).map (Ruleset.mk p.version)

end Policy

/-- The evaluation of a policy and the name of the statement that decided it. -/
structure Outcome where
  evaluation : Evaluation
  sid : Option String
  deriving DecidableEq, Repr

namespace Ruleset

/-- Reads and compiles a policy document. -/
def ofText (s : String) (registry : Registry) : Except PolicyError Ruleset :=
  match Policy.ofText s with
  | .error p => .error (.unreadable p)
  | .ok policy => policy.compile registry

/-- Goes through the rules with the outcome so far; a denial ends the search at once. -/
def search (action resource : String) (context : Context) : Outcome → List Rule → Outcome
  | found, [] => found
  | found, r :: rs =>
    if r.applies action resource context then
      match r.effect with
      | .deny => ⟨.deny, r.sid⟩
      | .allow =>
        search action resource context
          (if found.evaluation = .notApplicable then ⟨.allow, r.sid⟩ else found) rs
    else search action resource context found rs

def evaluate (rs : Ruleset) (action resource : String) (context : Context) : Outcome :=
  search action resource context ⟨.notApplicable, none⟩ rs.rules

end Ruleset

end TenantAccess
