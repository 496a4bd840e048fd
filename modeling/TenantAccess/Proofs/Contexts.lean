import TenantAccess.Proofs.Conditions

/-!
# What a condition reads of a context

A compiled condition says what its block says and is empty exactly if the block is. A block looks
at the keys it names and at nothing else, and it asks only for what is there: further keys in a
context never make it fail.
-/
namespace TenantAccess

/-- The context has all that another one has, and perhaps more. -/
def Context.Extends (wider context : Context) : Prop :=
  ∀ key value, context.get? key = some value → wider.get? key = some value

namespace Operator

variable {op : Operator} {context context' wider : Context} {key : String}
  {expected : List ConditionValue}

theorem Accepts.extend (h : op.Accepts context key expected) (more : wider.Extends context) :
    op.Accepts wider key expected := by
  obtain ⟨actual, hactual, haccepted⟩ := h
  exact ⟨actual, more key actual hactual, haccepted⟩

theorem accepts_congr (same : context.get? key = context'.get? key) :
    op.Accepts context key expected ↔ op.Accepts context' key expected := by
  rw [Accepts, Accepts, same]

end Operator

namespace ConditionBlock

variable {block : ConditionBlock} {registry : Registry} {context context' wider : Context}

/-- An operator of the block looks at the key. -/
def Names (block : ConditionBlock) (key : String) : Prop :=
  ∃ entry ∈ block.entries, ∃ k ∈ entry.2.entries, k.1 = key

theorem Satisfied.extend (h : block.Satisfied registry context) (more : wider.Extends context) :
    block.Satisfied registry wider := by
  intro entry hentry
  obtain ⟨op, hop, hkeys⟩ := h entry hentry
  exact ⟨op, hop, fun k hk => (hkeys k hk).extend more⟩

theorem Satisfied.of_same (h : block.Satisfied registry context)
    (same : ∀ key, block.Names key → context.get? key = context'.get? key) :
    block.Satisfied registry context' := by
  intro entry hentry
  obtain ⟨op, hop, hkeys⟩ := h entry hentry
  refine ⟨op, hop, fun k hk => ?_⟩
  have hnamed : block.Names k.1 := ⟨entry, hentry, k, hk, rfl⟩
  exact (Operator.accepts_congr (same k.1 hnamed)).1 (hkeys k hk)

theorem satisfied_congr (same : ∀ key, block.Names key → context.get? key = context'.get? key) :
    block.Satisfied registry context ↔ block.Satisfied registry context' :=
  ⟨fun h => h.of_same same, fun h => h.of_same fun key hkey => (same key hkey).symm⟩

end ConditionBlock

namespace Condition

variable {registry : Registry} {clauses : List Clause} {block : ConditionBlock} {c : Condition}

theorem compileKeys_eq_nil_iff {op : Operator} {keys : List (String × Listing ConditionValue)}
    (h : compileKeys op keys = .ok clauses) : clauses = [] ↔ keys = [] := by
  cases keys with
  | nil =>
    cases h
    simp
  | cons k keys =>
    simp only [compileKeys] at h
    split at h
    · cases h
    · obtain ⟨rest, -, rfl⟩ := map_eq_ok_iff.1 h
      simp

/-- Every operator leaves a clause, for operators without keys are refused. -/
theorem compileOperators_eq_nil_iff {operators : List (String × Keyed (Listing ConditionValue))}
    (h : compileOperators registry operators = .ok clauses) : clauses = [] ↔ operators = [] := by
  cases operators with
  | nil =>
    cases h
    simp
  | cons entry operators =>
    simp only [compileOperators] at h
    split at h
    · cases h
    · split at h
      · cases h
      · rename_i hkeys
        obtain ⟨own, hown, h⟩ := bind_eq_ok_iff.1 h
        obtain ⟨others, -, h⟩ := bind_eq_ok_iff.1 h
        cases h
        have hnonempty : own ≠ [] := fun hnil =>
          hkeys (List.isEmpty_iff.2 ((compileKeys_eq_nil_iff hown).1 hnil))
        simp [hnonempty]

theorem isEmpty_compile_iff (h : compile block registry = .ok c) :
    c.isEmpty = true ↔ block.isEmpty = true := by
  obtain ⟨clauses, hclauses, rfl⟩ := map_eq_ok_iff.1 h
  rw [isEmpty, Keyed.isEmpty, List.isEmpty_iff, List.isEmpty_iff,
    compileOperators_eq_nil_iff hclauses]

theorem holds_of_isEmpty (h : c.isEmpty = true) (context : Context) : c.holds context = true := by
  rw [isEmpty, List.isEmpty_iff] at h
  rw [holds, h, List.all_nil]

/-- A compiled condition holds exactly where every key of every operator in its block is present
and accepted; it is empty exactly if the block is, and then holds everywhere. So it goes on to hold
when a context gets further keys, and only the keys it names matter. -/
theorem compile_meaning (h : compile block registry = .ok c) :
    (∀ context, c.holds context = true ↔ block.Satisfied registry context) ∧
      (c.isEmpty = true ↔ block.isEmpty = true) ∧
      (block.isEmpty = true → ∀ context, c.holds context = true) ∧
      (∀ context wider : Context, wider.Extends context →
        c.holds context = true → c.holds wider = true) ∧
      ∀ context context' : Context,
        (∀ key, block.Names key → context.get? key = context'.get? key) →
          c.holds context = c.holds context' := by
  have hholds : ∀ context, c.holds context = true ↔ block.Satisfied registry context :=
    holds_compile_iff h
  have hempty : c.isEmpty = true ↔ block.isEmpty = true := isEmpty_compile_iff h
  refine ⟨hholds, hempty, fun hblock => holds_of_isEmpty (hempty.2 hblock), ?_, ?_⟩
  · intro context wider more hheld
    exact (hholds wider).2 (((hholds context).1 hheld).extend more)
  · intro context context' same
    rw [Bool.eq_iff_iff, hholds, hholds]
    exact ConditionBlock.satisfied_congr same

end Condition

/-! ## A registered operator beside the built-in ones -/

namespace Mailing

/-- Accepts text that ends in the listed one. -/
def endsIn : Operator where
  name := "EndsIn"
  check expected actual := Comparison.both expected.text? actual.text? fun x y =>
    x.toList.isSuffixOf y.toList

def registry : Registry := Registry.builtin.register endsIn

/-- Two operators look at the address, one of them for either of two endings. -/
def block : ConditionBlock := .ofList [
  ("Bool", .ofList [("mfa", .one (.bool true))]),
  ("EndsIn", .ofList [("mail", .many [.string ".org", .string ".net"])]),
  ("StringNotEquals", .ofList [("mail", .one (.string "root@acme.net"))])]

def context : Context := .ofList [("mfa", .string "true"), ("mail", .string "ada@acme.net")]

/-- The context of a member of a team. -/
def wider : Context := context.set "team" (.string "ops")

theorem wider_extends : wider.Extends context := by
  intro key value hvalue
  have hteam : "team" ≠ key := by
    rintro rfl
    cases hvalue
  rw [wider, Table.get?_set_of_ne _ hteam]
  exact hvalue

end Mailing

theorem Condition.compile_meaning_mailing :
    ∃ c, Condition.compile Mailing.block Mailing.registry = .ok c ∧
      Mailing.block.Satisfied Mailing.registry Mailing.context ∧
      c.holds Mailing.wider = true ∧ c.isEmpty = false := by
  obtain ⟨c, hc, hholds⟩ : ∃ c, Condition.compile Mailing.block Mailing.registry = .ok c ∧
      c.holds Mailing.context = true := ⟨_, rfl, rfl⟩
  obtain ⟨hsatisfied, hempty, -, hextend, -⟩ := compile_meaning hc
  refine ⟨c, hc, (hsatisfied _).1 hholds, hextend _ _ Mailing.wider_extends hholds, ?_⟩
  rw [Bool.eq_false_iff, ne_eq, hempty]
  decide

end TenantAccess
