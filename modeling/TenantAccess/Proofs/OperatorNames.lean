import TenantAccess.Proofs.Compilation
import TenantAccess.Proofs.Entitlement

/-!
# Which operators a policy depends on

Names of operators are looked up when a policy is compiled, and only the names that its conditions
use. So two registries that have the same operators under these names compile the policy alike, with
the same problem or to the same rules, and whatever is registered later changes nothing about rules
that were compiled before.
-/
namespace TenantAccess

/-! ## Registering -/

namespace Registry

variable {r : Registry} {op : Operator} {name : String}

theorem find?_register : (r.register op).find? name =
    if op.name = name then some op else r.find? name := by
  by_cases hname : op.name = name
  · simp [find?, register, hname]
  · rw [if_neg hname, find?, register, List.find?_cons_of_neg (by simpa using hname),
      List.find?_filter, find?]
    -- an operator of the name sought is not the one replaced
    congr 1
    funext o
    by_cases ho : o.name = name
    · simp [ho, Ne.symm hname]
    · simp [ho]

theorem find?_register_of_ne (h : op.name ≠ name) : (r.register op).find? name = r.find? name := by
  rw [find?_register, if_neg h]

end Registry

/-! ## Names in use -/

/-- One of the operators of the block has that name. -/
def ConditionBlock.UsesOperator (block : ConditionBlock) (name : String) : Prop :=
  ∃ entry ∈ block.entries, entry.1 = name

/-- A condition of the policy uses an operator of that name. -/
def Policy.UsesOperator (p : Policy) (name : String) : Prop :=
  ∃ s ∈ p.statements, ∃ block, s.condition = some block ∧ block.UsesOperator name

/-- The registries have the same operator, or both none, under each of the names. -/
def Registry.SameFor (r r' : Registry) (names : String → Prop) : Prop :=
  ∀ name, names name → r.find? name = r'.find? name

variable {r r' : Registry}

namespace Condition

theorem compileOperators_congr {operators : List (String × Keyed (Listing ConditionValue))}
    (same : ∀ entry ∈ operators, r.find? entry.1 = r'.find? entry.1) :
    compileOperators r operators = compileOperators r' operators := by
  induction operators with
  | nil => rfl
  | cons entry operators ih =>
    obtain ⟨hentry, hrest⟩ := List.forall_mem_cons.1 same
    rw [compileOperators_cons, compileOperators_cons, compileEntry, compileEntry, hentry, ih hrest]

theorem compile_congr {block : ConditionBlock} (same : r.SameFor r' block.UsesOperator) :
    compile block r = compile block r' := by
  rw [compile, compile,
    compileOperators_congr fun entry hentry => same entry.1 ⟨entry, hentry, rfl⟩]

end Condition

theorem Statement.compile_congr [Pattern.Engine] {s : Statement} (index : Nat)
    (same : ∀ block, s.condition = some block → r.SameFor r' block.UsesOperator) :
    s.compile index r = s.compile index r' := by
  have hcondition : compileCondition r s.condition = compileCondition r' s.condition := by
    cases hs : s.condition with
    | none => rfl
    | some block => rw [compileCondition, compileCondition, Condition.compile_congr (same block hs)]
  rw [compile, compile, hcondition]

namespace Policy

variable [Pattern.Engine] {p : Policy} {name : String}

theorem compileStatements_congr {statements : List Statement} (index : Nat)
    (same : ∀ s ∈ statements, ∀ block, s.condition = some block →
      r.SameFor r' block.UsesOperator) :
    compileStatements r index statements = compileStatements r' index statements := by
  induction statements generalizing index with
  | nil => rfl
  | cons s statements ih =>
    obtain ⟨hs, hrest⟩ := List.forall_mem_cons.1 same
    rw [compileStatements, compileStatements, s.compile_congr index hs, ih (index + 1) hrest]

theorem compile_congr (same : r.SameFor r' p.UsesOperator) : p.compile r = p.compile r' := by
  have hstatements : compileStatements r 0 p.statements = compileStatements r' 0 p.statements :=
    compileStatements_congr 0 fun s hs block hblock name hname =>
      same name ⟨s, hs, block, hblock, hname⟩
  rw [compile, compile, hstatements]

/-- A policy compiles only if all operators it uses are registered. -/
theorem find?_of_compile {rs : Ruleset} (compiled : p.compile r = .ok rs)
    (used : p.UsesOperator name) : ∃ op, r.find? name = some op := by
  obtain ⟨s, hs, block, hblock, entry, hentry, rfl⟩ := used
  have hwell : p.WellFormed r := exists_compile_iff.1 ⟨rs, compiled⟩
  exact ((hwell.each s hs).condition block hblock entry hentry).registered

end Policy

/-! ## What compiled rules hold on to -/

/-- Each clause has the very operator that the registry has under its name. -/
def Condition.BoundTo (c : Condition) (r : Registry) : Prop :=
  ∀ clause ∈ c.clauses, r.find? clause.operator.name = some clause.operator

def Ruleset.BoundTo (rs : Ruleset) (r : Registry) : Prop :=
  ∀ rule ∈ rs.rules, ∀ c, rule.condition = some c → c.BoundTo r

namespace Condition

variable {clauses : List Clause}

theorem operator_of_compileKeys {op : Operator} {keys : List (String × Listing ConditionValue)}
    (h : compileKeys op keys = .ok clauses) : ∀ clause ∈ clauses, clause.operator = op := by
  induction keys generalizing clauses with
  | nil =>
    cases h
    exact fun _ h => nomatch h
  | cons key keys ih =>
    simp only [compileKeys] at h
    split at h
    · cases h
    · obtain ⟨rest, hrest, rfl⟩ := map_eq_ok_iff.1 h
      exact List.forall_mem_cons.2 ⟨rfl, ih hrest⟩

theorem bound_of_compileOperators {operators : List (String × Keyed (Listing ConditionValue))}
    (h : compileOperators r operators = .ok clauses) :
    ∀ clause ∈ clauses, r.find? clause.operator.name = some clause.operator := by
  induction operators generalizing clauses with
  | nil =>
    cases h
    exact fun _ h => nomatch h
  | cons entry operators ih =>
    rw [compileOperators_cons] at h
    obtain ⟨own, hown, h⟩ := bind_eq_ok_iff.1 h
    obtain ⟨others, hothers, h⟩ := bind_eq_ok_iff.1 h
    cases h
    refine List.forall_mem_append.2 ⟨fun clause hclause => ?_, ih hothers⟩
    simp only [compileEntry] at hown
    split at hown
    · cases hown
    · rename_i op hop
      split at hown
      · cases hown
      · rw [operator_of_compileKeys hown clause hclause, Registry.name_of_find? hop, hop]

theorem boundTo_of_compile {block : ConditionBlock} {c : Condition}
    (h : compile block r = .ok c) : c.BoundTo r := by
  obtain ⟨clauses, hclauses, rfl⟩ := map_eq_ok_iff.1 h
  exact bound_of_compileOperators hclauses

end Condition

theorem Statement.boundTo_of_compile [Pattern.Engine] {s : Statement} {index : Nat} {rule : Rule}
    (h : s.compile index r = .ok rule) (c : Condition) (hc : rule.condition = some c) :
    c.BoundTo r := by
  obtain ⟨_, _, condition, -, -, hcondition, rfl⟩ := compile_eq_ok_iff.1 h
  cases hs : s.condition with
  | none =>
    rw [hs] at hcondition
    cases hcondition
    cases hc
  | some block =>
    rw [hs] at hcondition
    obtain ⟨c', hc', rfl⟩ := map_eq_ok_iff.1 hcondition
    cases hc
    exact Condition.boundTo_of_compile hc'

theorem Policy.boundTo_of_compile [Pattern.Engine] {p : Policy} {rs : Ruleset}
    (h : p.compile r = .ok rs) : rs.BoundTo r := by
  intro rule hrule
  obtain ⟨n, hn, rfl⟩ := List.getElem_of_mem hrule
  have hcompiled := forall₂_compile h
  obtain ⟨i, hs⟩ := hcompiled.get (hcompiled.length_eq ▸ hn) hn
  exact Statement.boundTo_of_compile hs

/-! ## Documents -/

/-- The text is a policy one of whose conditions uses an operator of that name. -/
def Policy.TextUses (text name : String) : Prop :=
  ∃ p, ofText text = .ok p ∧ p.UsesOperator name

/-- Nobody can tell the results apart: the same error, or rules that answer every request with the
same evaluation by the same statement. -/
inductive SameMeaning : Except PolicyError Ruleset → Except PolicyError Ruleset → Prop
  | refused (e : PolicyError) : SameMeaning (.error e) (.error e)
  | compiled {rs rs' : Ruleset} (answers : ∀ action resource context,
      rs.evaluate action resource context = rs'.evaluate action resource context) :
      SameMeaning (.ok rs) (.ok rs')

theorem SameMeaning.refl (x : Except PolicyError Ruleset) : SameMeaning x x := by
  cases x with
  | error e => exact .refused e
  | ok rs => exact .compiled fun _ _ _ => rfl

namespace Ruleset

variable [Pattern.Engine] {text : String}

theorem ofText_congr (same : r.SameFor r' (Policy.TextUses text)) :
    ofText text r = ofText text r' := by
  rw [ofText, ofText]
  cases h : Policy.ofText text with
  | error => rfl
  | ok p => exact Policy.compile_congr fun name hname => same name ⟨p, h, hname⟩

theorem ofText_register {op : Operator} (unused : ¬ Policy.TextUses text op.name) :
    ofText text (r.register op) = ofText text r :=
  ofText_congr fun name hname =>
    Registry.find?_register_of_ne fun heq => unused (by rwa [heq])

/-- A document that compiles cannot use a name that is not registered. -/
theorem not_textUses_of_ofText {rs : Ruleset} {name : String} (h : ofText text r = .ok rs)
    (unregistered : r.find? name = none) : ¬ Policy.TextUses text name := by
  rintro ⟨p, hp, hname⟩
  have hcompile : p.compile r = .ok rs := by
    rw [ofText, hp] at h
    exact h
  obtain ⟨op, hop⟩ := Policy.find?_of_compile hcompile hname
  rw [unregistered] at hop
  cases hop

/-- Statement by statement, the compiled rules ask for what the statement asks for under the
registry it was compiled with. -/
theorem forall₂_applies_of_ofText {rs : Ruleset} (h : ofText text r = .ok rs) :
    ∃ p, Policy.ofText text = .ok p ∧ List.Forall₂ (fun s rule => ∀ action resource context,
      rule.applies action resource context = true ↔ s.Applies r action resource context)
      p.statements rs.rules := by
  obtain ⟨p, hp, hcompile⟩ := StoredPolicy.ofText_eq_ok_iff.1 h
  refine ⟨p, hp, (Policy.forall₂_compile hcompile).imp fun s rule hs _ _ _ => ?_⟩
  obtain ⟨i, hi⟩ := hs
  exact Statement.applies_compile_iff hi

/-- Whether a document is refused, with which error, and how its rules answer depends on the
operators that its conditions name, and on nothing else of the registry. Rules that were compiled
keep the operators of the registry at that time. -/
theorem ofText_operators (text : String) (registry : Registry) :
    (∀ registry', registry.SameFor registry' (Policy.TextUses text) →
      SameMeaning (ofText text registry) (ofText text registry')) ∧
    (∀ op rs, registry.find? op.name = none → ofText text registry = .ok rs →
      SameMeaning (.ok rs) (ofText text (registry.register op))) ∧
    (∀ op, ¬ Policy.TextUses text op.name →
      SameMeaning (ofText text registry) (ofText text (registry.register op))) ∧
    ∀ rs, ofText text registry = .ok rs → rs.BoundTo registry ∧
      ∃ p, Policy.ofText text = .ok p ∧ List.Forall₂ (fun s rule => ∀ action resource context,
        rule.applies action resource context = true ↔
          s.Applies registry action resource context) p.statements rs.rules := by
  have hunused : ∀ op, ¬ Policy.TextUses text op.name →
      SameMeaning (ofText text registry) (ofText text (registry.register op)) := by
    intro op unused
    rw [ofText_register unused]
    exact .refl _
  refine ⟨fun registry' same => ?_, fun op rs unregistered h => ?_, hunused, fun rs h => ?_⟩
  · rw [ofText_congr same]
    exact .refl _
  · rw [← h]
    exact hunused op (not_textUses_of_ofText h unregistered)
  · obtain ⟨p, -, hcompile⟩ := StoredPolicy.ofText_eq_ok_iff.1 h
    exact ⟨Policy.boundTo_of_compile hcompile, forall₂_applies_of_ofText h⟩

end Ruleset

/-! ## A built-in operator replaced -/

namespace Replaced

/-- Lets the operators read everything. -/
def document : String :=
  "\x7b\"Version\":\"1\",\"Statement\":[" ++
    "\x7b\"Sid\":\"Read\",\"Effect\":\"Allow\",\"Action\":\"read\",\"Resource\":\"*\"," ++
      "\"Condition\":\x7b\"StringEquals\":\x7b\"team\":\"ops\"\x7d\x7d\x7d]\x7d"

def policy : Policy where
  version := "1"
  statements := [{
    sid := some "Read", effect := .allow, action := .one "read", resource := .one "*",
    condition := some ⟨[("StringEquals", ⟨[("team", .one (.string "ops"))],
      List.pairwise_singleton ..⟩)], List.pairwise_singleton ..⟩ }]

def context : Context := .ofList [("team", .string "ops")]

/-- Takes the place of the built-in operator and accepts nothing. -/
def never : Operator := ⟨"StringEquals", fun _ _ => false⟩

/-- Has a name of its own. -/
def always : Operator := ⟨"Any", fun _ _ => true⟩

theorem ofText_document : Policy.ofText document = .ok policy := by
  have hwritten : document = policy.toText := by decide +kernel
  rw [hwritten]
  refine Policy.ofText_toText ?_
  simp [Policy.NumberFree, ConditionBlock.NumberFree, ConditionValue.NumberFree, policy,
    Listing.toList, -Prod.forall]

end Replaced

/-- Compiled before the replacement, the rules still allow; compiled after it, they do not. -/
theorem Ruleset.ofText_operators_replaced : ∃ before after,
    ofText Replaced.document .builtin = .ok before ∧
      ofText Replaced.document (Registry.builtin.register Replaced.never) = .ok after ∧
      before.BoundTo .builtin ∧
      before.evaluate "read" "note" Replaced.context = ⟨.allow, some "Read"⟩ ∧
      after.evaluate "read" "note" Replaced.context = ⟨.notApplicable, none⟩ ∧
      SameMeaning (.ok before) (ofText Replaced.document
        (Registry.builtin.register Replaced.always)) := by
  have htext : ∀ registry,
      ofText Replaced.document registry = Replaced.policy.compile registry := by
    intro registry
    rw [ofText, Replaced.ofText_document]
  obtain ⟨before, hbefore, hallow⟩ : ∃ rs, Replaced.policy.compile .builtin = .ok rs ∧
      rs.evaluate "read" "note" Replaced.context = ⟨.allow, some "Read"⟩ := ⟨_, rfl, rfl⟩
  obtain ⟨after, hafter, hnone⟩ : ∃ rs,
      Replaced.policy.compile (Registry.builtin.register Replaced.never) = .ok rs ∧
        rs.evaluate "read" "note" Replaced.context = ⟨.notApplicable, none⟩ := ⟨_, rfl, rfl⟩
  rw [← htext] at hbefore hafter
  obtain ⟨-, hnew, -, hkept⟩ := ofText_operators Replaced.document .builtin
  exact ⟨before, after, hbefore, hafter, (hkept before hbefore).1, hallow, hnone,
    hnew Replaced.always before rfl hbefore⟩

end TenantAccess
