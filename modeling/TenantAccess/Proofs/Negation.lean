import TenantAccess.Proofs.Documents

/-!
# Equal and not equal

Several values listed for one key mean any of them, whatever the operator. So a text is equal if it
is listed, and not equal if something else is. Of the two at least one holds. They exclude each
other only if the text is not listed at all or nothing but the text is.
-/
namespace TenantAccess

/-- The operator of that name is the built-in one. -/
def Registry.Provides [Pattern.Engine] (r : Registry) (c : Comparison) : Prop :=
  r.find? c.name = some c.operator

namespace ConditionBlock

variable [Pattern.Engine] {registry : Registry} {context : Context} {c : Comparison} {key : String}
  {listed : Listing ConditionValue}

/-- One operator on one key. -/
def single (c : Comparison) (key : String) (listed : Listing ConditionValue) : ConditionBlock :=
  ⟨[(c.name, ⟨[(key, listed)], List.pairwise_singleton ..⟩)], List.pairwise_singleton ..⟩

/-- Among its conditions the block has the operator on the key with these values. -/
def Lists (block : ConditionBlock) (c : Comparison) (key : String)
    (listed : Listing ConditionValue) : Prop :=
  ∃ keys, (c.name, keys) ∈ block.entries ∧ (key, listed) ∈ keys.entries

theorem satisfied_single_iff (provided : registry.Provides c) :
    (single c key listed).Satisfied registry context ↔
      c.operator.Accepts context key listed.toList := by
  rw [Registry.Provides] at provided
  simp [Satisfied, single, provided]

theorem Satisfied.accepts {block : ConditionBlock} (h : block.Satisfied registry context)
    (provided : registry.Provides c) (lists : block.Lists c key listed) :
    c.operator.Accepts context key listed.toList := by
  obtain ⟨keys, hkeys, hkey⟩ := lists
  obtain ⟨op, hop, hall⟩ := h _ hkeys
  rw [provided, Option.some.injEq] at hop
  rw [hop]
  exact hall _ hkey

end ConditionBlock

namespace Condition

variable [Pattern.Engine] {registry : Registry} {c : Comparison} {listed : Listing ConditionValue}

/-- A single condition compiles if it lists a value. -/
theorem exists_compile_single (key : String) (provided : registry.Provides c)
    (nonempty : listed.toList ≠ []) :
    ∃ condition, compile (.single c key listed) registry = .ok condition ∧
      ∀ context, condition.holds context = true ↔
        c.operator.Accepts context key listed.toList := by
  have hlisted : listed.isEmpty = false := by
    rw [Listing.isEmpty, List.isEmpty_eq_false_iff]
    exact nonempty
  have hcompile : compile (.single c key listed) registry =
      .ok ⟨[⟨c.operator, key, listed.toList⟩]⟩ := by
    rw [Registry.Provides] at provided
    simp only [compile, ConditionBlock.single, compileOperators, provided, compileKeys, hlisted]
    rfl
  refine ⟨_, hcompile, fun context => ?_⟩
  rw [holds_compile_iff hcompile, ConditionBlock.satisfied_single_iff provided]

end Condition

namespace Comparison

variable [Pattern.Engine] {context : Context} {key actual : String} {texts : List String}

/-- The text is one of those listed. -/
theorem accepts_stringEquals_iff (present : context.get? key = some (.string actual)) :
    stringEquals.operator.Accepts context key (texts.map .string) ↔ actual ∈ texts := by
  simp [Operator.Accepts, operator, check, both, ConditionValue.text?, present]

/-- Something else is listed. -/
theorem accepts_stringNotEquals_iff (present : context.get? key = some (.string actual)) :
    stringNotEquals.operator.Accepts context key (texts.map .string) ↔
      ∃ text ∈ texts, text ≠ actual := by
  simp [Operator.Accepts, operator, check, both, ConditionValue.text?, present]

end Comparison

/-- A statement that asks, among other things, for a text not equal to any of those listed does not
apply where nothing but the actual text is listed. -/
theorem Statement.not_applies_of_stringNotEquals [Pattern.Engine] {registry : Registry}
    {context : Context} {key actual : String} {listed : Listing ConditionValue} {texts : List String}
    {s : Statement} {block : ConditionBlock} (provided : registry.Provides .stringNotEquals)
    (strings : listed.toList = texts.map .string)
    (present : context.get? key = some (.string actual)) (condition : s.condition = some block)
    (lists : block.Lists .stringNotEquals key listed) (all : ∀ text ∈ texts, text = actual)
    (action resource : String) : ¬ s.Applies registry action resource context := by
  intro happlies
  have haccepts := (happlies.condition block condition).accepts provided lists
  rw [strings, Comparison.accepts_stringNotEquals_iff present] at haccepts
  obtain ⟨text, htext, hne⟩ := haccepts
  exact hne (all text htext)

/-- Of equal and not equal, over the same key and texts, at least one holds, and exactly one exactly
if the actual text is not listed or nothing else is. So a statement that asks for not equal does not
apply where nothing but the actual text is listed. -/
theorem Condition.stringNotEquals_of_stringEquals [Pattern.Engine] {registry : Registry}
    {context : Context} {key actual : String} {listed : Listing ConditionValue} {texts : List String}
    (equals : registry.Provides .stringEquals) (notEquals : registry.Provides .stringNotEquals)
    (strings : listed.toList = texts.map .string) (nonempty : texts ≠ [])
    (present : context.get? key = some (.string actual)) :
    ∃ eq ne, compile (.single .stringEquals key listed) registry = .ok eq ∧
      compile (.single .stringNotEquals key listed) registry = .ok ne ∧
      (eq.holds context = true ∨ ne.holds context = true) ∧
      (ne.holds context = (!eq.holds context) ↔ actual ∉ texts ∨ ∀ text ∈ texts, text = actual) ∧
      ∀ (s : Statement) (index : Nat) (rule : Rule) (block : ConditionBlock),
        s.compile index registry = .ok rule → s.condition = some block →
          block.Lists .stringNotEquals key listed → (∀ text ∈ texts, text = actual) →
            ∀ action resource, rule.applies action resource context = false := by
  have hlisted : listed.toList ≠ [] := by
    rw [strings]
    simpa using nonempty
  obtain ⟨eq, hcompileEq, heq⟩ := exists_compile_single key equals hlisted
  obtain ⟨ne, hcompileNe, hne⟩ := exists_compile_single key notEquals hlisted
  obtain ⟨text, htext⟩ := List.exists_mem_of_ne_nil texts nonempty
  simp only [strings] at heq hne
  have hequal : eq.holds context = true ↔ actual ∈ texts :=
    (heq context).trans (Comparison.accepts_stringEquals_iff present)
  have hdiffers : ne.holds context = true ↔ ∃ text ∈ texts, text ≠ actual :=
    (hne context).trans (Comparison.accepts_stringNotEquals_iff present)
  refine ⟨eq, ne, hcompileEq, hcompileNe, ?_, ?_, ?_⟩
  · rw [hequal, hdiffers]
    by_cases htextEq : text = actual
    · exact .inl (htextEq ▸ htext)
    · exact .inr ⟨text, htext, htextEq⟩
  · rw [Bool.eq_iff_iff, Bool.not_eq_true', ← Bool.not_eq_true, hequal, hdiffers]
    constructor
    · intro hexclusive
      by_cases hactual : actual ∈ texts
      · refine .inr fun text htext => ?_
        by_contra htextNe
        exact hexclusive.1 ⟨text, htext, htextNe⟩ hactual
      · exact .inl hactual
    · rintro (hactual | hall)
      · exact iff_of_true ⟨text, htext, fun h => hactual (h ▸ htext)⟩ hactual
      · refine iff_of_false ?_ (not_not.2 (hall text htext ▸ htext))
        rintro ⟨text, htext, htextNe⟩
        exact htextNe (hall text htext)
  · intro s index rule block hcompile hblock hlists hall action resource
    rw [Bool.eq_false_iff, ne_eq, Statement.applies_compile_iff hcompile]
    exact s.not_applies_of_stringNotEquals notEquals strings present hblock hlists hall action
      resource

/-! ## Two users listed, and one -/

namespace Excluded

def both : Listing ConditionValue := .many [.string "alice", .string "bob"]

def alice : Listing ConditionValue := .one (.string "alice")

/-- Allows everybody but the users listed to edit, as it seems. -/
def statement (listed : Listing ConditionValue) : Statement where
  effect := .allow
  action := .one "edit"
  resource := .one "*"
  condition := some (.single .stringNotEquals "user" listed)

def context : Context := .ofList [("user", .string "alice")]

/-- The user is none of those listed. -/
def visit : Context := .ofList [("user", .string "carol")]

end Excluded

/-- With two users listed, one of them is both equal and not equal, and a statement meant to exclude
the two applies. -/
theorem Condition.stringEquals_and_stringNotEquals :
    ∃ eq ne rule, compile (.single .stringEquals "user" Excluded.both) .builtin = .ok eq ∧
      compile (.single .stringNotEquals "user" Excluded.both) .builtin = .ok ne ∧
      eq.holds Excluded.context = true ∧ ne.holds Excluded.context = true ∧
      (Excluded.statement Excluded.both).compile 0 .builtin = .ok rule ∧
      rule.applies "edit" "note" Excluded.context = true :=
  ⟨_, _, _, rfl, rfl, rfl, rfl, rfl, rfl⟩

/-- With two users listed, exactly one of the two holds for a third user. With one user listed,
exactly one holds for that user, and the statement does exclude the user. -/
theorem Condition.stringNotEquals_of_stringEquals_users :
    (∃ eq ne, compile (.single .stringEquals "user" Excluded.both) .builtin = .ok eq ∧
      compile (.single .stringNotEquals "user" Excluded.both) .builtin = .ok ne ∧
      ne.holds Excluded.visit = (!eq.holds Excluded.visit)) ∧
    ∃ eq ne rule, compile (.single .stringEquals "user" Excluded.alice) .builtin = .ok eq ∧
      compile (.single .stringNotEquals "user" Excluded.alice) .builtin = .ok ne ∧
      ne.holds Excluded.context = (!eq.holds Excluded.context) ∧
      (Excluded.statement Excluded.alice).compile 0 .builtin = .ok rule ∧
      ∀ action resource, rule.applies action resource Excluded.context = false := by
  constructor
  · obtain ⟨eq, ne, heq, hne, -, hone, -⟩ :=
      @stringNotEquals_of_stringEquals _ .builtin Excluded.visit "user" "carol" Excluded.both
        ["alice", "bob"] rfl rfl rfl (by simp) rfl
    exact ⟨eq, ne, heq, hne, hone.2 (.inl (by decide))⟩
  · obtain ⟨rule, hrule⟩ :
        ∃ rule, (Excluded.statement Excluded.alice).compile 0 .builtin = .ok rule := ⟨_, rfl⟩
    have hall : ∀ text ∈ ["alice"], text = "alice" := by simp
    obtain ⟨eq, ne, heq, hne, -, hone, hexcluded⟩ :=
      @stringNotEquals_of_stringEquals _ .builtin Excluded.context "user" "alice" Excluded.alice
        ["alice"] rfl rfl rfl (by simp) rfl
    exact ⟨eq, ne, rule, heq, hne, hone.2 (.inr hall), hrule,
      hexcluded _ 0 rule _ hrule rfl ⟨_, .head _, .head _⟩ hall⟩

end TenantAccess
