import TenantAccess.Condition
import TenantAccess.Proofs.Success

/-!
# What a condition block demands

`ConditionBlock.Satisfied` reads a block as it is written: each operator is the registered one of
that name, and each key under it is present in the context with a value that passes the operator
for one of the listed values. A compiled condition holds exactly where its block is satisfied.
-/
namespace TenantAccess

/-- The context has the key, and its value passes the operator for one of the listed values. -/
def Operator.Accepts (op : Operator) (context : Context) (key : String)
    (expected : List ConditionValue) : Prop :=
  ∃ actual, context.get? key = some actual ∧ ∃ e ∈ expected, op.check e actual = true

/-- Every key of every operator is accepted. -/
def ConditionBlock.Satisfied (block : ConditionBlock) (registry : Registry) (context : Context) :
    Prop :=
  ∀ entry ∈ block.entries, ∃ op, registry.find? entry.1 = some op ∧
    ∀ k ∈ entry.2.entries, op.Accepts context k.1 k.2.toList

theorem Clause.holds_iff (c : Clause) (context : Context) :
    c.holds context = true ↔ c.operator.Accepts context c.key c.expected := by
  cases h : context.get? c.key <;> simp [holds, Operator.Accepts, h]

namespace Condition

variable {registry : Registry} {context : Context} {clauses : List Clause}

theorem all_holds_compileKeys {op : Operator} {keys : List (String × Listing ConditionValue)}
    (h : compileKeys op keys = .ok clauses) :
    (∀ c ∈ clauses, c.holds context = true) ↔
      ∀ k ∈ keys, op.Accepts context k.1 k.2.toList := by
  induction keys generalizing clauses with
  | nil =>
    cases h
    simp
  | cons k keys ih =>
    simp only [compileKeys] at h
    split at h
    · cases h
    · obtain ⟨rest, hrest, rfl⟩ := map_eq_ok_iff.1 h
      simp only [List.forall_mem_cons, Clause.holds_iff, ← ih hrest]

theorem all_holds_compileOperators
    {operators : List (String × Keyed (Listing ConditionValue))}
    (h : compileOperators registry operators = .ok clauses) :
    (∀ c ∈ clauses, c.holds context = true) ↔
      ∀ entry ∈ operators, ∃ op, registry.find? entry.1 = some op ∧
        ∀ k ∈ entry.2.entries, op.Accepts context k.1 k.2.toList := by
  induction operators generalizing clauses with
  | nil =>
    cases h
    simp
  | cons entry operators ih =>
    simp only [compileOperators] at h
    split at h
    · cases h
    · rename_i op hop
      split at h
      · cases h
      · obtain ⟨own, hown, h⟩ := bind_eq_ok_iff.1 h
        obtain ⟨others, hothers, h⟩ := bind_eq_ok_iff.1 h
        cases h
        simp only [List.forall_mem_append, List.forall_mem_cons, all_holds_compileKeys hown,
          ih hothers, hop, Option.some.injEq, exists_eq_left']

/-- A compiled condition holds exactly where its block is satisfied. -/
theorem holds_compile_iff {block : ConditionBlock} {c : Condition}
    (h : compile block registry = .ok c) (context : Context) :
    c.holds context = true ↔ block.Satisfied registry context := by
  obtain ⟨clauses, hclauses, rfl⟩ := map_eq_ok_iff.1 h
  rw [holds, List.all_eq_true, all_holds_compileOperators hclauses]
  rfl

end Condition

end TenantAccess
