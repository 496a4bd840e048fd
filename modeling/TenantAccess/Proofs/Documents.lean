import Mathlib.Data.List.Forall2
import TenantAccess.Policy.Rules
import TenantAccess.Proofs.Conditions

/-!
# What a document grants

`Statement.Applies` reads a statement as it is written: one of its actions and one of its resources
match, and its condition, if it has one, is satisfied. Compilation keeps this meaning, and
the evaluation of a compiled policy finds a denial if any statement that applies denies, else an
allowance if any allows.
-/
namespace TenantAccess

/-! ## Lists that correspond -/

section Forall₂

variable {α β γ : Type} {related : α → β → Prop} {as : List α} {bs : List β} {cs : List γ}

theorem forall_mem_iff_of_forall₂ {holds : α → Prop} {holds' : β → Prop}
    (h : List.Forall₂ related as bs) (same : ∀ a b, related a b → (holds a ↔ holds' b)) :
    (∀ a ∈ as, holds a) ↔ ∀ b ∈ bs, holds' b := by
  induction h with
  | nil => simp
  | cons hab _ ih => rw [List.forall_mem_cons, List.forall_mem_cons, same _ _ hab, ih]

theorem exists_mem_iff_of_forall₂ {holds : α → Prop} {holds' : β → Prop}
    (h : List.Forall₂ related as bs) (same : ∀ a b, related a b → (holds a ↔ holds' b)) :
    (∃ a ∈ as, holds a) ↔ ∃ b ∈ bs, holds' b := by
  induction h with
  | nil => simp
  | cons hab _ ih =>
    simp only [List.mem_cons, or_and_right, exists_or, exists_eq_left, same _ _ hab, ih]

theorem map_eq_of_forall₂ {f : α → γ} {g : β → γ} (h : List.Forall₂ related as bs)
    (same : ∀ a b, related a b → g b = f a) : bs.map g = as.map f := by
  induction h with
  | nil => rfl
  | cons hab _ ih => rw [List.map_cons, List.map_cons, same _ _ hab, ih]

theorem forall₂_trans {related' : β → γ → Prop} {composed : α → γ → Prop}
    (h : List.Forall₂ related as bs) (h' : List.Forall₂ related' bs cs)
    (compose : ∀ a b c, related a b → related' b c → composed a c) :
    List.Forall₂ composed as cs := by
  induction h generalizing cs with
  | nil =>
    cases h'
    exact .nil
  | cons hab _ ih =>
    cases h' with
    | cons hbc h' => exact .cons (compose _ _ _ hab hbc) (ih h')

end Forall₂

/-! ## Statements -/

/-- The statement applies to an action on a resource in a context. -/
structure Statement.Applies [Pattern.Engine] (s : Statement) (registry : Registry)
    (action resource : String) (context : Context) : Prop where
  action : ∃ pattern ∈ s.action.toList, Pattern.matchesText pattern action = true
  resource : ∃ pattern ∈ s.resource.toList, Pattern.matchesText pattern resource = true
  condition : ∀ block, s.condition = some block → block.Satisfied registry context

namespace Statement

variable {s : Statement} {registry : Registry} {rule : Rule} {index : Nat}
  {action resource : String} {context : Context}

theorem conditionHolds_compileCondition {written : Option ConditionBlock} {c : Option Condition}
    (h : compileCondition registry written = .ok c) (hr : rule.condition = c) :
    rule.conditionHolds context = true ↔
      ∀ block, written = some block → block.Satisfied registry context := by
  cases written with
  | none =>
    cases h
    simp [Rule.conditionHolds, hr]
  | some block =>
    obtain ⟨condition, hc, rfl⟩ := map_eq_ok_iff.1 h
    simp [Rule.conditionHolds, hr, Condition.holds_compile_iff hc]

variable [Pattern.Engine]

/-- Every text is compiled by itself. -/
theorem forall₂_compilePatterns {texts : List String} {ps : List Pattern}
    (h : compilePatterns texts = .ok ps) :
    List.Forall₂ (fun text p => Pattern.compile text = .ok p) texts ps := by
  induction texts generalizing ps with
  | nil =>
    cases h
    exact .nil
  | cons text texts ih =>
    obtain ⟨p, hp, h⟩ := bind_eq_ok_iff.1 h
    obtain ⟨rest, hrest, h⟩ := bind_eq_ok_iff.1 h
    cases h
    exact .cons hp (ih hrest)

/-- Compiled patterns match what the texts match. -/
theorem any_isMatch_compilePatterns {texts : List String} {ps : List Pattern}
    (h : compilePatterns texts = .ok ps) (candidate : String) :
    (ps.any fun p => p.isMatch candidate) =
      texts.any fun text => Pattern.matchesText text candidate := by
  rw [Bool.eq_iff_iff, List.any_eq_true, List.any_eq_true]
  refine (exists_mem_iff_of_forall₂ (forall₂_compilePatterns h) fun text p hp => ?_).symm
  rw [Pattern.matchesText, hp]

/-- What the parts of a compiled statement are. -/
theorem compile_eq_ok_iff : s.compile index registry = .ok rule ↔
    ∃ actions resources condition, compilePatterns s.action.toList = .ok actions ∧
      compilePatterns s.resource.toList = .ok resources ∧
      compileCondition registry s.condition = .ok condition ∧
      rule = ⟨s.sid, s.effect, actions, resources, condition⟩ := by
  constructor
  · intro h
    obtain ⟨actions, hactions, h⟩ := bind_eq_ok_iff.1 h
    obtain ⟨resources, hresources, h⟩ := bind_eq_ok_iff.1 h
    obtain ⟨condition, hcondition, h⟩ := bind_eq_ok_iff.1 h
    cases h
    exact ⟨actions, resources, condition, mapError_eq_ok_iff.1 hactions,
      mapError_eq_ok_iff.1 hresources, mapError_eq_ok_iff.1 hcondition, rfl⟩
  · rintro ⟨actions, resources, condition, hactions, hresources, hcondition, rfl⟩
    simp only [compile, hactions, hresources, hcondition]
    rfl

theorem compile_effect (h : s.compile index registry = .ok rule) : rule.effect = s.effect := by
  obtain ⟨_, _, _, -, -, -, rfl⟩ := compile_eq_ok_iff.1 h
  rfl

/-- A compiled statement applies where the written one does. -/
theorem applies_compile_iff (h : s.compile index registry = .ok rule) :
    rule.applies action resource context = true ↔ s.Applies registry action resource context := by
  obtain ⟨actions, resources, condition, hactions, hresources, hcondition, hrule⟩ :=
    compile_eq_ok_iff.1 h
  have ha : rule.actionMatches action =
      s.action.toList.any fun text => Pattern.matchesText text action := by
    rw [hrule]
    exact any_isMatch_compilePatterns hactions action
  have hr : rule.resourceMatches resource =
      s.resource.toList.any fun text => Pattern.matchesText text resource := by
    rw [hrule]
    exact any_isMatch_compilePatterns hresources resource
  have hc : rule.conditionHolds context = true ↔
      ∀ block, s.condition = some block → block.Satisfied registry context :=
    conditionHolds_compileCondition hcondition (by rw [hrule])
  rw [Rule.applies, ha, hr, Bool.and_eq_true, Bool.and_eq_true, hc, List.any_eq_true,
    List.any_eq_true]
  constructor
  · rintro ⟨⟨haction, hresource⟩, hcondition⟩
    exact ⟨haction, hresource, hcondition⟩
  · intro h
    exact ⟨⟨h.action, h.resource⟩, h.condition⟩

end Statement

namespace Policy

variable [Pattern.Engine]
variable {registry : Registry} {action resource : String} {context : Context} {e : Effect}

/-- Every statement is compiled by itself. -/
theorem forall₂_compileStatements {statements : List Statement} {rules : List Rule} {index : Nat}
    (h : compileStatements registry index statements = .ok rules) :
    List.Forall₂ (fun s rule => ∃ i, s.compile i registry = .ok rule) statements rules := by
  induction statements generalizing rules index with
  | nil =>
    cases h
    exact .nil
  | cons s statements ih =>
    obtain ⟨rule, hrule, h⟩ := bind_eq_ok_iff.1 h
    obtain ⟨rest, hrest, h⟩ := bind_eq_ok_iff.1 h
    cases h
    exact .cons ⟨index, hrule⟩ (ih hrest)

theorem forall₂_compile {p : Policy} {rs : Ruleset} (h : p.compile registry = .ok rs) :
    List.Forall₂ (fun s rule => ∃ i, s.compile i registry = .ok rule) p.statements rs.rules := by
  simp only [compile] at h
  split at h
  · cases h
  · obtain ⟨rules, hrules, rfl⟩ := map_eq_ok_iff.1 h
    exact forall₂_compileStatements hrules

/-- The compiled rules that apply are the written statements that apply. -/
theorem exists_rule_compile {p : Policy} {rs : Ruleset} (h : p.compile registry = .ok rs) :
    (∃ r ∈ rs.rules, r.effect = e ∧ r.applies action resource context = true) ↔
      ∃ s ∈ p.statements, s.effect = e ∧ s.Applies registry action resource context := by
  refine (exists_mem_iff_of_forall₂ (forall₂_compile h) ?_).symm
  rintro s rule ⟨i, hi⟩
  rw [Statement.compile_effect hi, Statement.applies_compile_iff hi]

end Policy

namespace Ruleset

variable {action resource : String} {context : Context} {found : Outcome} {rules : List Rule}

theorem search_deny_iff :
    (search action resource context found rules).evaluation = .deny ↔
      found.evaluation = .deny ∨
        ∃ r ∈ rules, r.effect = .deny ∧ r.applies action resource context = true := by
  induction rules generalizing found with
  | nil => simp [search]
  | cons r rules ih =>
    simp only [search, List.mem_cons, or_and_right, exists_or, exists_eq_left]
    split
    · rename_i happlies
      cases he : r.effect with
      | deny => simp [happlies]
      | allow =>
        simp only [ih]
        split <;> simp_all
    · rename_i happlies
      simp [ih, happlies]

theorem search_allow_iff (hfound : found.evaluation ≠ .deny) :
    (search action resource context found rules).evaluation = .allow ↔
      (¬ ∃ r ∈ rules, r.effect = .deny ∧ r.applies action resource context = true) ∧
        (found.evaluation = .allow ∨
          ∃ r ∈ rules, r.effect = .allow ∧ r.applies action resource context = true) := by
  induction rules generalizing found with
  | nil => simp [search]
  | cons r rules ih =>
    simp only [search, List.mem_cons, or_and_right, exists_or, exists_eq_left]
    split
    · rename_i happlies
      cases he : r.effect with
      | deny => simp [happlies]
      | allow =>
        cases hev : found.evaluation with
        | deny => exact absurd hev hfound
        | notApplicable => simp [ih, happlies]
        | allow => simp [ih, hev, happlies]
    · rename_i happlies
      simp [ih hfound, happlies]

theorem evaluate_deny_iff (rs : Ruleset) :
    (rs.evaluate action resource context).evaluation = .deny ↔
      ∃ r ∈ rs.rules, r.effect = .deny ∧ r.applies action resource context = true := by
  rw [evaluate, search_deny_iff]
  simp

theorem evaluate_allow_iff (rs : Ruleset) :
    (rs.evaluate action resource context).evaluation = .allow ↔
      (¬ ∃ r ∈ rs.rules, r.effect = .deny ∧ r.applies action resource context = true) ∧
        ∃ r ∈ rs.rules, r.effect = .allow ∧ r.applies action resource context = true := by
  rw [evaluate, search_allow_iff (by simp)]
  simp

end Ruleset

end TenantAccess
