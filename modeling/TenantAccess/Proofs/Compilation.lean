import TenantAccess.Proofs.Coverage
import TenantAccess.Proofs.Documents

/-!
# Which policies compile, and what is reported of the others

`Policy.WellFormed` says which policies compile. `Policy.Refused` names the one problem that is
reported of any other policy: first the version and the number of statements, then over all
statements the first that lacks actions or resources, and only then, statement by statement, a text
that does not compile to a pattern or something wrong with the condition. Both are stated on the
policy as it is written.
-/
namespace TenantAccess

/-! ## The first problem in a list -/

/-- The problem of the first member that has one; members are counted from a given index. -/
inductive FirstProblem {α ε : Type} (problem : Nat → α → ε → Prop) : Nat → List α → ε → Prop
  | here {i : Nat} {a : α} {as : List α} {e : ε} (found : problem i a e) :
      FirstProblem problem i (a :: as) e
  | later {i : Nat} {a : α} {as : List α} {e : ε} (sound : ∀ e, ¬ problem i a e)
      (found : FirstProblem problem (i + 1) as e) : FirstProblem problem i (a :: as) e

section FirstProblem

variable {α ε : Type} {problem : Nat → α → ε → Prop} {i : Nat} {a : α} {as : List α} {e : ε}

theorem not_firstProblem_nil : ¬ FirstProblem problem i [] e := nofun

theorem firstProblem_cons_iff : FirstProblem problem i (a :: as) e ↔
    problem i a e ∨ (∀ e, ¬ problem i a e) ∧ FirstProblem problem (i + 1) as e := by
  constructor
  · rintro (found | ⟨sound, found⟩)
    · exact .inl found
    · exact .inr ⟨sound, found⟩
  · rintro (found | ⟨sound, found⟩)
    · exact .here found
    · exact .later sound found

/-- Where a computation fails for the problems of the first member, the others count only after it
succeeded. -/
theorem firstProblem_cons_iff_of_step {β : Type} {x : Except ε β}
    (step : ∀ e, x = .error e ↔ problem i a e) : FirstProblem problem i (a :: as) e ↔
      x = .error e ∨ (∃ b, x = .ok b) ∧ FirstProblem problem (i + 1) as e := by
  simp only [firstProblem_cons_iff, exists_ok_iff, ne_eq, step]

/-- A list has no first problem exactly if no member has any. -/
theorem forall_not_firstProblem_iff {good : α → Prop}
    (sound : ∀ i a, (∀ e, ¬ problem i a e) ↔ good a) :
    (∀ e, ¬ FirstProblem problem i as e) ↔ ∀ a ∈ as, good a := by
  induction as generalizing i with
  | nil => simp [not_firstProblem_nil]
  | cons a as ih =>
    rw [List.forall_mem_cons, ← sound i a, ← ih (i := i + 1)]
    constructor
    · intro h
      have hsound : ∀ e, ¬ problem i a e := fun e found => h e (.here found)
      exact ⟨hsound, fun e found => h e (.later hsound found)⟩
    · rintro ⟨hsound, hrest⟩ e found
      rcases firstProblem_cons_iff.1 found with found | ⟨-, found⟩
      · exact hsound e found
      · exact hrest e found

end FirstProblem

/-! ## Conditions -/

theorem Registry.name_of_find? {registry : Registry} {name : String} {op : Operator}
    (h : registry.find? name = some op) : op.name = name := by
  simpa using List.find?_some h

namespace ConditionBlock

variable {registry : Registry} {e : ConditionError}

/-- The operator is registered and has keys, and each of them has values. -/
structure EntryWellFormed (registry : Registry)
    (entry : String × Keyed (Listing ConditionValue)) : Prop where
  registered : ∃ op, registry.find? entry.1 = some op
  keys : entry.2.entries ≠ []
  values : ∀ key ∈ entry.2.entries, key.2.toList ≠ []

/-- What is wrong with one key of an operator. -/
inductive KeyRefused (operator : String) (key : String × Listing ConditionValue) :
    ConditionError → Prop
  | idle (values : key.2.toList = []) : KeyRefused operator key (.noValues operator key.1)

/-- What is wrong with one operator of a block. -/
inductive EntryRefused (registry : Registry) (entry : String × Keyed (Listing ConditionValue)) :
    ConditionError → Prop
  | unknown (unregistered : registry.find? entry.1 = none) :
      EntryRefused registry entry (.unknownOperator entry.1)
  | bare {op : Operator} (registered : registry.find? entry.1 = some op)
      (keys : entry.2.entries = []) : EntryRefused registry entry (.noKeys entry.1)
  | idle {op : Operator} {e : ConditionError} (registered : registry.find? entry.1 = some op)
      (values : FirstProblem (fun _ => KeyRefused entry.1) 0 entry.2.entries e) :
      EntryRefused registry entry e

def WellFormed (registry : Registry) (block : ConditionBlock) : Prop :=
  ∀ entry ∈ block.entries, EntryWellFormed registry entry

/-- The first problem of the block; operators and their keys stand in ascending order. -/
def Refused (registry : Registry) (block : ConditionBlock) (e : ConditionError) : Prop :=
  FirstProblem (fun _ => EntryRefused registry) 0 block.entries e

theorem keyRefused_iff {operator : String} {key : String × Listing ConditionValue} :
    KeyRefused operator key e ↔ key.2.toList = [] ∧ e = .noValues operator key.1 := by
  constructor
  · rintro ⟨values⟩
    exact ⟨values, rfl⟩
  · rintro ⟨values, rfl⟩
    exact .idle values

theorem forall_not_keyRefused_iff {operator : String} {key : String × Listing ConditionValue} :
    (∀ e, ¬ KeyRefused operator key e) ↔ key.2.toList ≠ [] := by
  simp [keyRefused_iff]

theorem entryWellFormed_iff {entry : String × Keyed (Listing ConditionValue)} :
    (∀ e, ¬ EntryRefused registry entry e) ↔ EntryWellFormed registry entry := by
  have hvalues : (∀ e, ¬ FirstProblem (fun _ => KeyRefused entry.1) 0 entry.2.entries e) ↔
      ∀ key ∈ entry.2.entries, key.2.toList ≠ [] :=
    forall_not_firstProblem_iff fun _ _ => forall_not_keyRefused_iff
  constructor
  · intro h
    cases hfind : registry.find? entry.1 with
    | none => exact absurd (.unknown hfind) (h _)
    | some op =>
      exact ⟨⟨op, hfind⟩, fun hkeys => h _ (.bare hfind hkeys),
        hvalues.1 fun e found => h e (.idle hfind found)⟩
  · rintro ⟨⟨op, hfind⟩, hkeys, hentries⟩ e h
    cases h with
    | unknown unregistered => simp [hfind] at unregistered
    | bare registered keys => exact hkeys keys
    | idle registered values => exact hvalues.2 hentries e values

theorem wellFormed_iff {block : ConditionBlock} :
    (∀ e, ¬ block.Refused registry e) ↔ block.WellFormed registry :=
  forall_not_firstProblem_iff fun _ _ => entryWellFormed_iff

end ConditionBlock

namespace Condition

variable {registry : Registry} {e : ConditionError} {i : Nat}
  {entry : String × Keyed (Listing ConditionValue)}

/-- The clauses of one operator of a block. -/
def compileEntry (registry : Registry) (entry : String × Keyed (Listing ConditionValue)) :
    Except ConditionError (List Clause) :=
  match registry.find? entry.1 with
  | none => .error (.unknownOperator entry.1)
  | some op => if entry.2.isEmpty then .error (.noKeys entry.1) else compileKeys op entry.2.entries

theorem compileOperators_cons {operators : List (String × Keyed (Listing ConditionValue))} :
    compileOperators registry (entry :: operators) = do
      let clauses ← compileEntry registry entry
      let others ← compileOperators registry operators
      return clauses ++ others := by
  rw [compileOperators, compileEntry]
  cases registry.find? entry.1 with
  | none => rfl
  | some op =>
    dsimp only
    split
    · rfl
    · rfl

theorem compileKeys_eq_error_iff {op : Operator} {keys : List (String × Listing ConditionValue)} :
    compileKeys op keys = .error e ↔
      FirstProblem (fun _ => ConditionBlock.KeyRefused op.name) i keys e := by
  induction keys generalizing i with
  | nil => simp [compileKeys, not_firstProblem_nil]
  | cons key keys ih =>
    simp only [compileKeys, Listing.isEmpty, List.isEmpty_iff]
    split
    · rename_i hvalues
      simp [firstProblem_cons_iff, ConditionBlock.keyRefused_iff, hvalues, eq_comm]
    · rename_i hvalues
      simp [firstProblem_cons_iff, ConditionBlock.keyRefused_iff, hvalues, map_eq_error_iff,
        ih (i := i + 1)]

theorem compileEntry_eq_error_iff :
    compileEntry registry entry = .error e ↔ ConditionBlock.EntryRefused registry entry e := by
  rw [compileEntry]
  cases hfind : registry.find? entry.1 with
  | none =>
    constructor
    · rintro ⟨⟩
      exact .unknown hfind
    · rintro (_ | ⟨registered, _⟩ | ⟨registered, _⟩)
      · rfl
      · simp [hfind] at registered
      · simp [hfind] at registered
  | some op =>
    dsimp only [Keyed.isEmpty]
    simp only [List.isEmpty_iff]
    split
    · rename_i hkeys
      constructor
      · rintro ⟨⟩
        exact .bare hfind hkeys
      · rintro (unregistered | _ | ⟨_, values⟩)
        · simp [hfind] at unregistered
        · rfl
        · rw [hkeys] at values
          cases values
    · rename_i hkeys
      rw [compileKeys_eq_error_iff (i := 0), Registry.name_of_find? hfind]
      constructor
      · intro values
        exact .idle hfind values
      · rintro (unregistered | ⟨_, keys⟩ | ⟨_, values⟩)
        · simp [hfind] at unregistered
        · exact absurd keys hkeys
        · exact values

theorem compileOperators_eq_error_iff
    {operators : List (String × Keyed (Listing ConditionValue))} :
    compileOperators registry operators = .error e ↔
      FirstProblem (fun _ => ConditionBlock.EntryRefused registry) i operators e := by
  induction operators generalizing i with
  | nil => simp [compileOperators, not_firstProblem_nil]
  | cons entry operators ih =>
    rw [firstProblem_cons_iff_of_step fun _ => compileEntry_eq_error_iff, compileOperators_cons,
      bind_eq_error_iff, ← ih]
    simp only [bind_return_eq_error_iff, exists_and_right]

theorem compile_eq_error_iff {block : ConditionBlock} :
    compile block registry = .error e ↔ block.Refused registry e := by
  rw [compile, map_eq_error_iff, compileOperators_eq_error_iff]
  rfl

end Condition

/-! ## Statements -/

namespace Statement

variable {registry : Registry} {s : Statement} {i index : Nat}

/-- What the statement at `index` lacks. -/
inductive Lacks (index : Nat) (s : Statement) : PolicyGap → Prop
  | actions (none : s.action.toList = []) : Lacks index s (.noActions index)
  | resources (some : s.action.toList ≠ []) (none : s.resource.toList = []) :
      Lacks index s (.noResources index)

theorem lacks_iff {gap : PolicyGap} : s.Lacks index gap ↔
    s.action.toList = [] ∧ gap = .noActions index ∨
      s.action.toList ≠ [] ∧ s.resource.toList = [] ∧ gap = .noResources index := by
  constructor
  · rintro (none | ⟨some, none⟩)
    · exact .inl ⟨none, rfl⟩
    · exact .inr ⟨some, none, rfl⟩
  · rintro (⟨none, rfl⟩ | ⟨some, none, rfl⟩)
    · exact .actions none
    · exact .resources some none

theorem forall_not_lacks_iff :
    (∀ gap, ¬ s.Lacks index gap) ↔ s.action.toList ≠ [] ∧ s.resource.toList ≠ [] := by
  by_cases hactions : s.action.toList = []
  · simp [lacks_iff, hactions]
  · simp [lacks_iff, hactions]

theorem compileCondition_eq_error_iff {written : Option ConditionBlock} {e : ConditionError} :
    compileCondition registry written = .error e ↔
      ∃ block, written = some block ∧ block.Refused registry e := by
  cases written with
  | none => simp [compileCondition]
  | some block => simp [compileCondition, map_eq_error_iff, Condition.compile_eq_error_iff]

theorem exists_compileCondition_iff {written : Option ConditionBlock} :
    (∃ c, compileCondition registry written = .ok c) ↔
      ∀ block, written = some block → block.WellFormed registry := by
  simp only [exists_ok_iff, ne_eq, compileCondition_eq_error_iff,
    ← ConditionBlock.wellFormed_iff, not_exists, not_and]
  exact ⟨fun h block hb e => h e block hb, fun h e block hb => h block hb e⟩

variable [Pattern.Engine]

/-- Each text compiles. -/
def Compile (texts : List String) : Prop := ∀ text ∈ texts, ∃ p, Pattern.compile text = .ok p

/-- The first text that does not compile. -/
def BadPattern (texts : List String) (e : PatternError) : Prop :=
  FirstProblem (fun _ text e => Pattern.compile text = .error e) 0 texts e

structure WellFormed (registry : Registry) (s : Statement) : Prop where
  hasActions : s.action.toList ≠ []
  hasResources : s.resource.toList ≠ []
  actions : Compile s.action.toList
  resources : Compile s.resource.toList
  condition : ∀ block, s.condition = some block → block.WellFormed registry

/-- Why the statement at `index` does not compile. -/
inductive Refused (registry : Registry) (index : Nat) (s : Statement) : PolicyError → Prop
  | action {e : PatternError} (bad : BadPattern s.action.toList e) :
      Refused registry index s (.badPattern index e)
  | resource {e : PatternError} (actions : Compile s.action.toList)
      (bad : BadPattern s.resource.toList e) : Refused registry index s (.badPattern index e)
  | condition {block : ConditionBlock} {e : ConditionError} (actions : Compile s.action.toList)
      (resources : Compile s.resource.toList) (conditioned : s.condition = some block)
      (bad : block.Refused registry e) : Refused registry index s (.badCondition index e)

theorem compile_iff {texts : List String} : (∀ e, ¬ BadPattern texts e) ↔ Compile texts :=
  forall_not_firstProblem_iff fun _ _ => exists_ok_iff.symm

theorem compilePatterns_eq_error_iff {texts : List String} {e : PatternError} :
    compilePatterns texts = .error e ↔
      FirstProblem (fun _ text e => Pattern.compile text = .error e) i texts e := by
  induction texts generalizing i with
  | nil => simp [compilePatterns, not_firstProblem_nil]
  | cons text texts ih =>
    rw [firstProblem_cons_iff_of_step fun _ => Iff.rfl, ← ih, compilePatterns, bind_eq_error_iff]
    simp only [bind_return_eq_error_iff, exists_and_right]

theorem exists_compilePatterns_iff {texts : List String} :
    (∃ ps, compilePatterns texts = .ok ps) ↔ Compile texts := by
  rw [exists_ok_iff, ← compile_iff]
  simp only [ne_eq, compilePatterns_eq_error_iff (i := 0)]
  rfl

theorem compile_eq_error_iff {e : PolicyError} :
    s.compile index registry = .error e ↔ s.Refused registry index e := by
  simp only [compile, bind_eq_error_iff, pure, Except.pure, reduceCtorEq, and_false, exists_false,
    or_false, exists_and_right, mapError_eq_ok_iff, mapError_eq_error_iff,
    exists_compilePatterns_iff, compilePatterns_eq_error_iff (i := 0),
    compileCondition_eq_error_iff]
  constructor
  · rintro (⟨_, bad, rfl⟩ | ⟨actions, ⟨_, bad, rfl⟩ | ⟨resources, _, ⟨_, conditioned, bad⟩, rfl⟩⟩)
    · exact .action bad
    · exact .resource actions bad
    · exact .condition actions resources conditioned bad
  · intro h
    cases h with
    | action bad => exact .inl ⟨_, bad, rfl⟩
    | resource actions bad => exact .inr ⟨actions, .inl ⟨_, bad, rfl⟩⟩
    | condition actions resources conditioned bad =>
      exact .inr ⟨actions, .inr ⟨resources, _, ⟨_, conditioned, bad⟩, rfl⟩⟩

theorem forall_not_refused_iff : (∀ e, ¬ s.Refused registry index e) ↔
    Compile s.action.toList ∧ Compile s.resource.toList ∧
      ∀ block, s.condition = some block → block.WellFormed registry := by
  simp only [← compile_eq_error_iff, ← ne_eq, ← exists_ok_iff, compile_eq_ok_iff,
    ← exists_compilePatterns_iff, ← exists_compileCondition_iff]
  constructor
  · rintro ⟨_, actions, resources, condition, hactions, hresources, hcondition, -⟩
    exact ⟨⟨actions, hactions⟩, ⟨resources, hresources⟩, ⟨condition, hcondition⟩⟩
  · rintro ⟨⟨actions, hactions⟩, ⟨resources, hresources⟩, ⟨condition, hcondition⟩⟩
    exact ⟨_, actions, resources, condition, hactions, hresources, hcondition, rfl⟩

end Statement

/-! ## Policies -/

namespace Policy

variable {registry : Registry} {p : Policy} {i index : Nat} {statements : List Statement}

/-- What the shape of the policy lacks, looked for before any pattern or condition. -/
inductive Lacks (p : Policy) : PolicyGap → Prop
  | version (blank : Text.isBlank p.version = true) : Lacks p .noVersion
  | statements (versioned : Text.isBlank p.version = false) (none : p.statements = []) :
      Lacks p .noStatements
  | parts {gap : PolicyGap} (versioned : Text.isBlank p.version = false)
      (found : FirstProblem Statement.Lacks 0 p.statements gap) : Lacks p gap

theorem statementGap_eq_some_iff {gap : PolicyGap} :
    statementGap index statements = some gap ↔
      FirstProblem Statement.Lacks index statements gap := by
  induction statements generalizing index with
  | nil => simp [statementGap, not_firstProblem_nil]
  | cons s statements ih =>
    simp only [statementGap, Listing.isEmpty, List.isEmpty_iff, firstProblem_cons_iff]
    split
    · rename_i hactions
      simp [Statement.lacks_iff, hactions, @eq_comm _ gap]
    · rename_i hactions
      split
      · rename_i hresources
        simp [Statement.lacks_iff, hactions, hresources, @eq_comm _ gap]
      · rename_i hresources
        simp [Statement.lacks_iff, hactions, hresources, ih]

theorem gap?_eq_some_iff {gap : PolicyGap} : p.gap? = some gap ↔ p.Lacks gap := by
  simp only [gap?, List.isEmpty_iff]
  split
  · rename_i hblank
    constructor
    · rintro ⟨⟩
      exact .version hblank
    · rintro (_ | ⟨versioned, _⟩ | ⟨versioned, _⟩)
      · rfl
      · simp [hblank] at versioned
      · simp [hblank] at versioned
  · rename_i hblank
    have hversioned : Text.isBlank p.version = false := Bool.eq_false_iff.2 hblank
    split
    · rename_i hstatements
      constructor
      · rintro ⟨⟩
        exact .statements hversioned hstatements
      · rintro (blank | _ | ⟨_, found⟩)
        · exact absurd blank hblank
        · rfl
        · rw [hstatements] at found
          cases found
    · rename_i hstatements
      rw [statementGap_eq_some_iff]
      constructor
      · intro found
        exact .parts hversioned found
      · rintro (blank | ⟨_, none⟩ | ⟨_, found⟩)
        · exact absurd blank hblank
        · exact absurd none hstatements
        · exact found

theorem forall_not_lacks_iff : (∀ gap, ¬ p.Lacks gap) ↔
    Text.isBlank p.version = false ∧ p.statements ≠ [] ∧
      ∀ s ∈ p.statements, s.action.toList ≠ [] ∧ s.resource.toList ≠ [] := by
  have hparts : (∀ gap, ¬ FirstProblem Statement.Lacks 0 p.statements gap) ↔
      ∀ s ∈ p.statements, s.action.toList ≠ [] ∧ s.resource.toList ≠ [] :=
    forall_not_firstProblem_iff fun _ _ => Statement.forall_not_lacks_iff
  constructor
  · intro h
    have hversioned : Text.isBlank p.version = false :=
      Bool.eq_false_iff.2 fun blank => h _ (.version blank)
    exact ⟨hversioned, fun none => h _ (.statements hversioned none),
      hparts.1 fun gap found => h gap (.parts hversioned found)⟩
  · rintro ⟨hversioned, hstatements, hall⟩ gap h
    cases h with
    | version blank => simp [hversioned] at blank
    | statements _ none => exact hstatements none
    | parts _ found => exact hparts.2 hall gap found

variable [Pattern.Engine]

structure WellFormed (registry : Registry) (p : Policy) : Prop where
  version : Text.isBlank p.version = false
  statements : p.statements ≠ []
  each : ∀ s ∈ p.statements, s.WellFormed registry

/-- The problem that is reported of a policy. -/
inductive Refused (registry : Registry) (p : Policy) : PolicyError → Prop
  | shape {gap : PolicyGap} (lacks : p.Lacks gap) : Refused registry p (.incomplete gap)
  | statement {e : PolicyError} (shaped : ∀ gap, ¬ p.Lacks gap)
      (found : FirstProblem (Statement.Refused registry) 0 p.statements e) : Refused registry p e

theorem compileStatements_eq_error_iff {e : PolicyError} :
    compileStatements registry index statements = .error e ↔
      FirstProblem (Statement.Refused registry) index statements e := by
  induction statements generalizing index with
  | nil => simp [compileStatements, not_firstProblem_nil]
  | cons s statements ih =>
    rw [firstProblem_cons_iff_of_step fun _ => Statement.compile_eq_error_iff, ← ih,
      compileStatements, bind_eq_error_iff]
    simp only [bind_return_eq_error_iff, exists_and_right]

theorem compile_eq_error_iff {e : PolicyError} :
    p.compile registry = .error e ↔ p.Refused registry e := by
  rw [compile]
  split
  · rename_i gap hgap
    have hlacks : p.Lacks gap := gap?_eq_some_iff.1 hgap
    constructor
    · rintro ⟨⟩
      exact .shape hlacks
    · intro h
      cases h with
      | shape lacks =>
        rw [gap?_eq_some_iff.2 lacks] at hgap
        cases hgap
        rfl
      | statement shaped _ => exact absurd hlacks (shaped gap)
  · rename_i hgap
    have hshaped : ∀ gap, ¬ p.Lacks gap := by
      simp only [← gap?_eq_some_iff, hgap, reduceCtorEq, not_false_eq_true, implies_true]
    rw [map_eq_error_iff, compileStatements_eq_error_iff]
    constructor
    · intro found
      exact .statement hshaped found
    · intro h
      cases h with
      | shape lacks => exact absurd lacks (hshaped _)
      | statement _ found => exact found

theorem exists_compile_iff : (∃ rs, p.compile registry = .ok rs) ↔ p.WellFormed registry := by
  have hstatements : (∀ e, ¬ FirstProblem (Statement.Refused registry) 0 p.statements e) ↔
      ∀ s ∈ p.statements, Statement.Compile s.action.toList ∧
        Statement.Compile s.resource.toList ∧
          ∀ block, s.condition = some block → block.WellFormed registry :=
    forall_not_firstProblem_iff fun _ _ => Statement.forall_not_refused_iff
  simp only [exists_ok_iff, ne_eq, compile_eq_error_iff]
  constructor
  · intro h
    have hshaped : ∀ gap, ¬ p.Lacks gap := fun gap lacks => h _ (.shape lacks)
    obtain ⟨version, statements, parts⟩ := forall_not_lacks_iff.1 hshaped
    have heach := hstatements.1 fun e found => h e (.statement hshaped found)
    refine ⟨version, statements, fun s hs => ?_⟩
    obtain ⟨hasActions, hasResources⟩ := parts s hs
    obtain ⟨actions, resources, condition⟩ := heach s hs
    exact ⟨hasActions, hasResources, actions, resources, condition⟩
  · rintro ⟨version, statements, each⟩ e h
    cases h with
    | shape lacks =>
      exact forall_not_lacks_iff.2 ⟨version, statements, fun s hs =>
        ⟨(each s hs).hasActions, (each s hs).hasResources⟩⟩ _ lacks
    | statement _ found =>
      exact hstatements.2 (fun s hs =>
        ⟨(each s hs).actions, (each s hs).resources, (each s hs).condition⟩) e found

end Policy

/-! ## What a compiled policy keeps -/

/-- What a statement says besides its condition. -/
def Statement.heading (s : Statement) : Option String × Effect × List String × List String :=
  (s.sid, s.effect, s.action.toList, s.resource.toList)

def Rule.heading (r : Rule) : Option String × Effect × List String × List String :=
  (r.sid, r.effect, r.actions.map Pattern.source, r.resources.map Pattern.source)

theorem Statement.source_compilePatterns [Pattern.Engine] {texts : List String} {ps : List Pattern}
    (h : compilePatterns texts = .ok ps) : ps.map Pattern.source = texts := by
  have hmap := map_eq_of_forall₂ (forall₂_compilePatterns h) fun _ _ => Pattern.source_of_compile
  rwa [List.map_id'] at hmap

theorem Statement.heading_compile [Pattern.Engine] {s : Statement} {index : Nat}
    {registry : Registry} {r : Rule} (h : s.compile index registry = .ok r) :
    r.heading = s.heading := by
  obtain ⟨actions, resources, _, hactions, hresources, -, rfl⟩ := compile_eq_ok_iff.1 h
  simp only [Rule.heading, heading, source_compilePatterns hactions,
    source_compilePatterns hresources]

namespace Policy

variable [Pattern.Engine] {registry : Registry} {p : Policy} {rs : Ruleset}

theorem headings_compile (h : p.compile registry = .ok rs) :
    rs.version = p.version ∧ rs.rules.map Rule.heading = p.statements.map Statement.heading := by
  have hheadings : rs.rules.map Rule.heading = p.statements.map Statement.heading :=
    map_eq_of_forall₂ (forall₂_compile h) fun _ _ ⟨_, hi⟩ => Statement.heading_compile hi
  refine ⟨?_, hheadings⟩
  rw [compile] at h
  split at h
  · cases h
  · obtain ⟨rules, -, rfl⟩ := map_eq_ok_iff.1 h
    rfl

/-- Exactly the well-formed policies compile; the compiled policy has the version and the
statements of the written one, and of any other policy its first problem is reported. -/
theorem compile_verdict (p : Policy) (registry : Registry) :
    ((∃ rs, p.compile registry = .ok rs) ↔ p.WellFormed registry) ∧
      (∀ rs, p.compile registry = .ok rs → rs.version = p.version ∧
        rs.rules.map Rule.heading = p.statements.map Statement.heading) ∧
      ∀ e, p.compile registry = .error e ↔ p.Refused registry e :=
  ⟨exists_compile_iff, fun _ => headings_compile, fun _ => compile_eq_error_iff⟩

end Policy

/-! ## A policy with three problems -/

namespace Policy

/-- The second statement lacks actions, which is reported before the empty pattern and the unknown
operator of the first. -/
def patchy : Policy where
  version := "2012-10-17"
  statements := [
    { effect := .allow, action := .one "", resource := .one "*",
      condition := some ⟨[("Weekday", .empty)], List.pairwise_singleton ..⟩ },
    { effect := .deny, action := .many [], resource := .one "*" }]

/-- Without its second statement only one of its three problems is gone. -/
def lone : Policy := { patchy with statements := patchy.statements.take 1 }

def sound : Policy where
  version := "2012-10-17"
  statements := [
    { sid := some "Read", effect := .allow, action := .many ["blog:*", "wiki:read"],
      resource := .one "*",
      condition := some
        ⟨[("Bool", ⟨[("mfa", .one (.bool true))], List.pairwise_singleton ..⟩)],
          List.pairwise_singleton ..⟩ },
    { effect := .deny, action := .one "*", resource := .one "vault/*" }]

theorem compile_verdict_patchy :
    patchy.Refused .builtin (.incomplete (.noActions 1)) ∧
      lone.Refused .builtin (.badPattern 0 ⟨"", .empty⟩) ∧ ¬ lone.WellFormed .builtin ∧
      ∃ rs, sound.compile .builtin = .ok rs ∧ rs.rules.map Rule.heading =
        [(some "Read", .allow, ["blog:*", "wiki:read"], ["*"]), (none, .deny, ["*"], ["vault/*"])]
        := by
  have hpatchy : patchy.compile .builtin = .error (.incomplete (.noActions 1)) := rfl
  have hlone : lone.compile .builtin = .error (.badPattern 0 ⟨"", .empty⟩) := rfl
  obtain ⟨rs, hsound⟩ : ∃ rs, sound.compile .builtin = .ok rs := ⟨_, rfl⟩
  refine ⟨((compile_verdict patchy .builtin).2.2 _).1 hpatchy,
    ((compile_verdict lone .builtin).2.2 _).1 hlone, ?_, rs, hsound,
    ((compile_verdict sound .builtin).2.1 rs hsound).2⟩
  rw [← (compile_verdict lone .builtin).1, hlone]
  simp

end Policy

end TenantAccess
