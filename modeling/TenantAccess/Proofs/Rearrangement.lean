import Mathlib.Data.List.Forall2
import TenantAccess.Proofs.Compilation
import TenantAccess.Proofs.Entitlement

/-!
# Order has no effect

The order in which the sources answer with their rows, and the order of statements, patterns and
accepted values in a document, decide which grant is reported but never whether a request is
allowed. A statement applies, and a row confers an effect, by what is among its parts, so it is
enough that every stage keeps the same parts: the first row of each id stands for all of them.
-/
namespace TenantAccess

/-! ## Rows in another order -/

theorem Effect.eq_iff_allow_iff {e e' : Effect} : e = e' ↔ (e = .allow ↔ e' = .allow) := by
  cases e <;> cases e' <;> simp

/-- Both sources failed, or both were read and answered with the same rows in some order. -/
inductive Reordered {α : Type} :
    Except AccessError (List α) → Except AccessError (List α) → Prop
  | read {xs ys : List α} (perm : xs.Perm ys) : Reordered (.ok xs) (.ok ys)
  | failed {e e' : AccessError} : Reordered (.error e) (.error e')

namespace GrantAnswers

structure Permuted (x y : GrantAnswers) : Prop where
  policies : Reordered x.policies y.policies
  permissions : Reordered x.permissions y.permissions
  shares : Reordered x.shares y.shares

/-- Policies of the organization with the same id have the same document. -/
def Consistent (x : GrantAnswers) (o : OrganizationId) : Prop :=
  ∀ rows, x.policies = .ok rows → ∀ row ∈ rows, ∀ row' ∈ rows,
    row.organization = o → row'.organization = o → row.id = row'.id → row.document = row'.document

end GrantAnswers

theorem Reordered.mem_kept_iff {α : Type} {x y : Except AccessError (List α)}
    (h : Reordered x y) {inScope : α → Bool} {a : α} :
    a ∈ Snapshot.kept inScope x ↔ a ∈ Snapshot.kept inScope y := by
  cases h with
  | read perm => exact (perm.filter inScope).mem_iff
  | failed => exact Iff.rfl

namespace GrantAnswers

variable {p : Principal} {x y : GrantAnswers}

theorem consistent_iff : x.Consistent p.organization ↔
    ∀ row ∈ Snapshot.kept p.ownsPolicy x.policies, ∀ row' ∈ Snapshot.kept p.ownsPolicy x.policies,
      row.id = row'.id → row.document = row'.document := by
  cases hx : x.policies with
  | error e => simp [Consistent, Snapshot.kept, hx]
  | ok rows =>
    simp only [Consistent, Snapshot.kept, hx, Except.ok.injEq, forall_eq', List.mem_filter,
      Principal.ownsPolicy_iff]
    constructor
    · rintro h row ⟨hrow, hown⟩ row' ⟨hrow', hown'⟩ hid
      exact h row hrow row' hrow' hown hown' hid
    · intro h row hrow row' hrow' hown hown' hid
      exact h row ⟨hrow, hown⟩ row' ⟨hrow', hown'⟩ hid

theorem Permuted.consistent (h : x.Permuted y) (consistent : x.Consistent p.organization) :
    y.Consistent p.organization := by
  rw [consistent_iff] at consistent ⊢
  simpa only [h.policies.mem_kept_iff] using consistent

end GrantAnswers

theorem StoredPolicy.carries_congr [Pattern.Engine] {row row' : StoredPolicy} {registry : Registry}
    {r : AccessRequest} {e : Effect} (same : row.document = row'.document) :
    row.Carries registry r e ↔ row'.Carries registry r e := by
  rw [Carries, Carries, same]

namespace Snapshot

variable [Pattern.Engine]
variable {p : Principal} {x y : GrantAnswers} {registry : Registry} {r : AccessRequest} {e : Effect}

/-- The policies that were dropped say nothing that the others do not say. -/
theorem exists_collected_carries_iff (consistent : x.Consistent p.organization) :
    (∃ row ∈ (collect p x).policies, row.Carries registry r e) ↔
      ∃ row ∈ kept p.ownsPolicy x.policies, row.Carries registry r e := by
  constructor
  · rintro ⟨row, hrow, hcarries⟩
    exact ⟨row, (mem_of_mem_distinctBy hrow).1, hcarries⟩
  · rintro ⟨row, hrow, hcarries⟩
    obtain ⟨row', hrow', hid⟩ : ∃ row' ∈ (collect p x).policies, row'.id = row.id :=
      exists_mem_distinctBy hrow List.not_mem_nil
    have hsame : row'.document = row.document :=
      GrantAnswers.consistent_iff.1 consistent row' (mem_of_mem_distinctBy hrow').1 row hrow hid
    exact ⟨row', hrow', (StoredPolicy.carries_congr hsame).2 hcarries⟩

theorem confers_iff {s : Snapshot} : s.Confers registry r e ↔
    (∃ row ∈ s.policies, row.Carries registry r e) ∨ (∃ row ∈ s.permissions, row.Carries r e) ∨
      ∃ row ∈ s.shares, row.Grants r.action r.resource ∧ e = .allow := by
  constructor
  · intro h
    cases h with
    | policy read carries => exact .inl ⟨_, read, carries⟩
    | permission read carries => exact .inr (.inl ⟨_, read, carries⟩)
    | share read grants allows => exact .inr (.inr ⟨_, read, grants, allows⟩)
  · rintro (⟨_, read, carries⟩ | ⟨_, read, carries⟩ | ⟨_, read, grants, allows⟩)
    · exact .policy read carries
    · exact .permission read carries
    · exact .share read grants allows

/-- The same rows in another order confer the same. -/
theorem confers_collect_iff (permuted : x.Permuted y) (consistent : x.Consistent p.organization) :
    (collect p x).Confers registry r e ↔ (collect p y).Confers registry r e := by
  rw [confers_iff, confers_iff, exists_collected_carries_iff consistent,
    exists_collected_carries_iff (permuted.consistent consistent)]
  simp only [collect, permuted.policies.mem_kept_iff, permuted.permissions.mem_kept_iff,
    permuted.shares.mem_kept_iff]

end Snapshot

/-- Answers with the same rows in another order lead to the same effect. -/
theorem Authorizer.effect_of_permuted [Pattern.Engine] {a : Authorizer} {r : AccessRequest}
    {x y : GrantAnswers} (uncached : a.cache = none) (valid : r.validate = .ok ())
    (permuted : x.Permuted y) (consistent : x.Consistent r.principal.organization)
    (is js : List Invalidation) :
    ∃ d d', (a.authorize r { fetch := .answered x, invalidations := is }).result = .ok d ∧
      (a.authorize r { fetch := .answered y, invalidations := js }).result = .ok d' ∧
      d.effect = d'.effect := by
  refine ⟨_, _, authorize_uncached uncached valid rfl rfl,
    authorize_uncached uncached valid rfl rfl, ?_⟩
  rw [Effect.eq_iff_allow_iff, Snapshot.decide_prepare_allow_iff,
    Snapshot.decide_prepare_allow_iff, Snapshot.confers_collect_iff permuted consistent,
    Snapshot.confers_collect_iff permuted consistent]

/-! ## Documents in another order -/

theorem Evaluation.eq_of_iff {x y : Evaluation} (deny : x = .deny ↔ y = .deny)
    (allow : x = .allow ↔ y = .allow) : x = y := by
  cases x <;> cases y <;> simp at deny allow ⊢

/-- The same values in some order. -/
def Listing.Rearranged {α : Type} (l l' : Listing α) : Prop := l.toList.Perm l'.toList

/-- The same keys, and related values under each of them. -/
def Keyed.Related {α : Type} (related : α → α → Prop) (m m' : Keyed α) : Prop :=
  List.Forall₂ (fun e e' => e.1 = e'.1 ∧ related e.2 e'.2) m.entries m'.entries

/-- The same operators and keys, and the same values for each key in some order. -/
def ConditionBlock.Rearranged (b b' : ConditionBlock) : Prop :=
  Keyed.Related (Keyed.Related Listing.Rearranged) b b'

structure Statement.Rearranged (s s' : Statement) : Prop where
  sid : s.sid = s'.sid
  effect : s.effect = s'.effect
  action : s.action.Rearranged s'.action
  resource : s.resource.Rearranged s'.resource
  condition : Option.Rel ConditionBlock.Rearranged s.condition s'.condition

/-- The same statements in some order, each of them rearranged. -/
structure Policy.Rearranged (p p' : Policy) : Prop where
  version : p.version = p'.version
  statements : ∃ ss, p.statements.Perm ss ∧ List.Forall₂ Statement.Rearranged ss p'.statements

namespace Listing.Rearranged

variable {α : Type} {l l' : Listing α}

theorem mem_iff (h : l.Rearranged l') {a : α} : a ∈ l.toList ↔ a ∈ l'.toList := List.Perm.mem_iff h

theorem ne_nil_iff (h : l.Rearranged l') : l.toList ≠ [] ↔ l'.toList ≠ [] := by
  rw [List.ne_nil_iff_length_pos, List.ne_nil_iff_length_pos, List.Perm.length_eq h]

end Listing.Rearranged

theorem Keyed.Related.ne_nil_iff {α : Type} {related : α → α → Prop} {m m' : Keyed α}
    (h : m.Related related m') : m.entries ≠ [] ↔ m'.entries ≠ [] := by
  rw [List.ne_nil_iff_length_pos, List.ne_nil_iff_length_pos, List.Forall₂.length_eq h]

namespace ConditionBlock.Rearranged

variable {b b' : ConditionBlock} {registry : Registry} {context : Context}

theorem satisfied_iff (h : b.Rearranged b') :
    b.Satisfied registry context ↔ b'.Satisfied registry context := by
  refine forall_mem_iff_of_forall₂ h fun entry entry' hentry => ?_
  have hkeys (op : Operator) :
      (∀ k ∈ entry.2.entries, op.Accepts context k.1 k.2.toList) ↔
        ∀ k ∈ entry'.2.entries, op.Accepts context k.1 k.2.toList :=
    forall_mem_iff_of_forall₂ hentry.2 fun k k' hk => by
      simp only [Operator.Accepts, hk.1, hk.2.mem_iff]
  simp only [hentry.1, hkeys]

theorem wellFormed_iff (h : b.Rearranged b') :
    b.WellFormed registry ↔ b'.WellFormed registry := by
  refine forall_mem_iff_of_forall₂ h fun entry entry' hentry => ?_
  have hvalues : (∀ key ∈ entry.2.entries, key.2.toList ≠ []) ↔
      ∀ key ∈ entry'.2.entries, key.2.toList ≠ [] :=
    forall_mem_iff_of_forall₂ hentry.2 fun key key' hkey => hkey.2.ne_nil_iff
  constructor
  · rintro ⟨registered, keys, values⟩
    exact ⟨hentry.1 ▸ registered, hentry.2.ne_nil_iff.1 keys, hvalues.1 values⟩
  · rintro ⟨registered, keys, values⟩
    exact ⟨hentry.1 ▸ registered, hentry.2.ne_nil_iff.2 keys, hvalues.2 values⟩

end ConditionBlock.Rearranged

namespace Statement.Rearranged

variable {s s' : Statement} {registry : Registry} {action resource : String} {context : Context}

/-- What is the same for rearranged blocks is the same for the conditions of the statements. -/
theorem forall_condition_iff (h : s.Rearranged s') {holds : ConditionBlock → Prop}
    (same : ∀ b b' : ConditionBlock, b.Rearranged b' → (holds b ↔ holds b')) :
    (∀ block, s.condition = some block → holds block) ↔
      ∀ block, s'.condition = some block → holds block := by
  have hcondition := h.condition
  cases hs : s.condition with
  | none =>
    rw [hs] at hcondition
    cases hs' : s'.condition with
    | none => exact Iff.rfl
    | some b' => rw [hs'] at hcondition; cases hcondition
  | some b =>
    rw [hs] at hcondition
    cases hs' : s'.condition with
    | none => rw [hs'] at hcondition; cases hcondition
    | some b' =>
      rw [hs'] at hcondition
      cases hcondition with
      | some hb => simp [same b b' hb]

variable [Pattern.Engine]

theorem applies_iff (h : s.Rearranged s') : s.Applies registry action resource context ↔
    s'.Applies registry action resource context := by
  have hcondition : (∀ block, s.condition = some block → block.Satisfied registry context) ↔
      ∀ block, s'.condition = some block → block.Satisfied registry context :=
    h.forall_condition_iff fun _ _ hb => hb.satisfied_iff
  constructor
  · rintro ⟨⟨text, hmem, hmatches⟩, ⟨text', hmem', hmatches'⟩, condition⟩
    exact ⟨⟨text, h.action.mem_iff.1 hmem, hmatches⟩,
      ⟨text', h.resource.mem_iff.1 hmem', hmatches'⟩, hcondition.1 condition⟩
  · rintro ⟨⟨text, hmem, hmatches⟩, ⟨text', hmem', hmatches'⟩, condition⟩
    exact ⟨⟨text, h.action.mem_iff.2 hmem, hmatches⟩,
      ⟨text', h.resource.mem_iff.2 hmem', hmatches'⟩, hcondition.2 condition⟩

theorem wellFormed_iff (h : s.Rearranged s') :
    s.WellFormed registry ↔ s'.WellFormed registry := by
  have hactions : Compile s.action.toList ↔ Compile s'.action.toList := by
    simp only [Compile, h.action.mem_iff]
  have hresources : Compile s.resource.toList ↔ Compile s'.resource.toList := by
    simp only [Compile, h.resource.mem_iff]
  have hcondition : (∀ block, s.condition = some block → block.WellFormed registry) ↔
      ∀ block, s'.condition = some block → block.WellFormed registry :=
    h.forall_condition_iff fun _ _ hb => hb.wellFormed_iff
  constructor
  · rintro ⟨hasActions, hasResources, actions, resources, condition⟩
    exact ⟨h.action.ne_nil_iff.1 hasActions, h.resource.ne_nil_iff.1 hasResources,
      hactions.1 actions, hresources.1 resources, hcondition.1 condition⟩
  · rintro ⟨hasActions, hasResources, actions, resources, condition⟩
    exact ⟨h.action.ne_nil_iff.2 hasActions, h.resource.ne_nil_iff.2 hasResources,
      hactions.2 actions, hresources.2 resources, hcondition.2 condition⟩

end Statement.Rearranged

namespace Policy.Rearranged

variable [Pattern.Engine]
variable {p p' : Policy} {registry : Registry} {action resource : String} {context : Context}

theorem wellFormed_iff (h : p.Rearranged p') :
    p.WellFormed registry ↔ p'.WellFormed registry := by
  obtain ⟨ss, hperm, hss⟩ := h.statements
  have hnil : p.statements ≠ [] ↔ p'.statements ≠ [] := by
    rw [List.ne_nil_iff_length_pos, List.ne_nil_iff_length_pos, hperm.length_eq, hss.length_eq]
  have heach : (∀ s ∈ p.statements, s.WellFormed registry) ↔
      ∀ s ∈ p'.statements, s.WellFormed registry := by
    simp only [hperm.mem_iff]
    exact forall_mem_iff_of_forall₂ hss fun _ _ hs => hs.wellFormed_iff
  constructor
  · rintro ⟨version, statements, each⟩
    exact ⟨h.version ▸ version, hnil.1 statements, heach.1 each⟩
  · rintro ⟨version, statements, each⟩
    exact ⟨h.version ▸ version, hnil.2 statements, heach.2 each⟩

theorem exists_applies_iff (h : p.Rearranged p') {e : Effect} :
    (∃ s ∈ p.statements, s.effect = e ∧ s.Applies registry action resource context) ↔
      ∃ s ∈ p'.statements, s.effect = e ∧ s.Applies registry action resource context := by
  obtain ⟨ss, hperm, hss⟩ := h.statements
  simp only [hperm.mem_iff]
  exact exists_mem_iff_of_forall₂ hss fun s s' hs => by rw [hs.effect, hs.applies_iff]

theorem compile_iff (h : p.Rearranged p') :
    (∃ rs, p.compile registry = .ok rs) ↔ ∃ rs, p'.compile registry = .ok rs := by
  rw [exists_compile_iff, exists_compile_iff, h.wellFormed_iff]

theorem evaluation_eq (h : p.Rearranged p') {rs rs' : Ruleset}
    (compiled : p.compile registry = .ok rs) (compiled' : p'.compile registry = .ok rs') :
    (rs.evaluate action resource context).evaluation =
      (rs'.evaluate action resource context).evaluation := by
  have hrules (e : Effect) :
      (∃ r ∈ rs.rules, r.effect = e ∧ r.applies action resource context = true) ↔
        ∃ r ∈ rs'.rules, r.effect = e ∧ r.applies action resource context = true := by
    rw [exists_rule_compile compiled, exists_rule_compile compiled', h.exists_applies_iff]
  apply Evaluation.eq_of_iff
  · rw [Ruleset.evaluate_deny_iff, Ruleset.evaluate_deny_iff, hrules]
  · rw [Ruleset.evaluate_allow_iff, Ruleset.evaluate_allow_iff, hrules, hrules]

end Policy.Rearranged

/-- Neither the order of the rows that the sources answer with nor the order of statements,
patterns and accepted values in a document has an influence on effects. -/
theorem Authorizer.effect_of_reordering [Pattern.Engine] :
    (∀ (a : Authorizer) (r : AccessRequest) (x y : GrantAnswers) (is js : List Invalidation),
      a.cache = none → r.validate = .ok () → x.Permuted y →
        x.Consistent r.principal.organization →
          ∃ d d', (a.authorize r { fetch := .answered x, invalidations := is }).result = .ok d ∧
            (a.authorize r { fetch := .answered y, invalidations := js }).result = .ok d' ∧
            d.effect = d'.effect) ∧
      ∀ (p p' : Policy) (registry : Registry), p.Rearranged p' →
        ((∃ rs, p.compile registry = .ok rs) ↔ ∃ rs, p'.compile registry = .ok rs) ∧
          ∀ rs rs', p.compile registry = .ok rs → p'.compile registry = .ok rs' →
            ∀ action resource context, (rs.evaluate action resource context).evaluation =
              (rs'.evaluate action resource context).evaluation := by
  refine ⟨?_, ?_⟩
  · intro a r x y is js uncached valid permuted consistent
    exact effect_of_permuted uncached valid permuted consistent is js
  · intro p p' registry h
    exact ⟨h.compile_iff, fun _ _ compiled compiled' _ _ _ => h.evaluation_eq compiled compiled'⟩

namespace Reordering

def reader : Principal := ⟨"acme", .user, "ada"⟩

def request : AccessRequest where
  principal := reader
  action := "blog:read"
  resource := "post-1"

/-- The denial of deletions came twice, and a namesake of it belongs to another organization. -/
def answers : GrantAnswers where
  policies := .ok [⟨"no-deletion", "acme", Deletion.document⟩, ⟨"no-deletion", "rival", "[]"⟩,
    ⟨"no-deletion", "acme", Deletion.document⟩]
  permissions := .ok [.ofPrincipal "first" reader "post-1" "blog:*" .allow,
    .ofPrincipal "second" reader "post-1" "blog:read" .allow]
  shares := .error (.unavailable .resourceShares "down")

def reversed : GrantAnswers where
  policies := answers.policies.map List.reverse
  permissions := answers.permissions.map List.reverse
  shares := .error (.unavailable .resourceShares "timed out")

theorem permuted : answers.Permuted reversed where
  policies := .read (List.reverse_perm _).symm
  permissions := .read (List.reverse_perm _).symm
  shares := .failed

theorem consistent : answers.Consistent "acme" := by
  intro rows hrows
  cases hrows
  decide

/-- Allows what two teams may do, except to guests and trainees. -/
def policy : Policy where
  version := "1"
  statements := [
    { sid := some "Teams", effect := .allow, action := .many ["blog:*", "wiki:read"],
      resource := .one "*" },
    { sid := some "Guests", effect := .deny, action := .one "*", resource := .one "*",
      condition := some ⟨[("StringEquals",
        ⟨[("role", .many [.string "guest", .string "trainee"])], List.pairwise_singleton ..⟩)],
          List.pairwise_singleton ..⟩ }]

def rearranged : Policy where
  version := "1"
  statements := [
    { sid := some "Guests", effect := .deny, action := .one "*", resource := .one "*",
      condition := some ⟨[("StringEquals",
        ⟨[("role", .many [.string "trainee", .string "guest"])], List.pairwise_singleton ..⟩)],
          List.pairwise_singleton ..⟩ },
    { sid := some "Teams", effect := .allow, action := .many ["wiki:read", "blog:*"],
      resource := .one "*" }]

theorem policy_rearranged : policy.Rearranged rearranged where
  version := rfl
  statements := by
    refine ⟨_, .swap .., .cons ⟨rfl, rfl, .refl _, .refl _, .some ?_⟩
      (.cons ⟨rfl, rfl, .swap .., .refl _, .none⟩ .nil)⟩
    exact .cons ⟨rfl, .cons ⟨rfl, .swap ..⟩ .nil⟩ .nil

end Reordering

theorem Authorizer.effect_of_reversal :
    (∃ d d', (({ registry := .builtin } : Authorizer).authorize Reordering.request
        { fetch := .answered Reordering.answers }).result = .ok d ∧
      (({ registry := .builtin } : Authorizer).authorize Reordering.request
        { fetch := .answered Reordering.reversed }).result = .ok d' ∧ d.effect = d'.effect) ∧
      ∃ rs rs', Reordering.policy.compile .builtin = .ok rs ∧
        Reordering.rearranged.compile .builtin = .ok rs' ∧
        (rs.evaluate "blog:read" "post-1" {}).evaluation =
          (rs'.evaluate "blog:read" "post-1" {}).evaluation := by
  refine ⟨effect_of_reordering.1 { registry := .builtin } Reordering.request _ _ [] [] rfl rfl
    Reordering.permuted Reordering.consistent, ?_⟩
  obtain ⟨rs, hrs⟩ : ∃ rs, Reordering.policy.compile .builtin = .ok rs := ⟨_, rfl⟩
  obtain ⟨hcompile, heval⟩ :=
    effect_of_reordering.2 _ _ .builtin Reordering.policy_rearranged
  obtain ⟨rs', hrs'⟩ := hcompile.1 ⟨rs, hrs⟩
  exact ⟨rs, rs', hrs, hrs', heval rs rs' hrs hrs' _ _ _⟩

end TenantAccess
