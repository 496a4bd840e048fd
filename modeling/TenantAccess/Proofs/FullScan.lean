import TenantAccess.Proofs.Documents
import TenantAccess.Proofs.Precedence

/-!
# A policy comes to the strongest of its rules

Every rule on its own denies, allows or does not apply. The evaluation of a policy stops at the
first denial, and still it is the strongest evaluation of all rules, in whatever order they are
combined. What is reported is the name of the first rule that denies, and without any denial the
name of the first rule that allows, even if that rule has no name and a later one has.
-/
namespace TenantAccess

/-! ## The strongest evaluation -/

namespace Evaluation

/-- All evaluations combined. -/
def strongest (es : List Evaluation) : Evaluation := es.foldl combine .notApplicable

theorem rank_combine (a b : Evaluation) : (a.combine b).rank = max a.rank b.rank := by
  cases a <;> cases b <;> rfl

theorem combine_eq_or (a b : Evaluation) : a.combine b = a ∨ a.combine b = b := by
  rw [combine]
  split
  · exact .inr rfl
  · exact .inl rfl

theorem combine_right_comm (a b c : Evaluation) :
    (a.combine b).combine c = (a.combine c).combine b := by
  cases a <;> cases b <;> cases c <;> rfl

theorem combine_deny (a : Evaluation) : a.combine .deny = .deny := by
  cases a <;> rfl

theorem foldl_combine_deny (es : List Evaluation) : es.foldl combine .deny = .deny := by
  induction es with
  | nil => rfl
  | cons e es ih =>
    have habsorbed : combine .deny e = .deny := by cases e <;> rfl
    rw [List.foldl_cons, habsorbed, ih]

theorem foldl_combine_mem (a : Evaluation) (es : List Evaluation) :
    es.foldl combine a = a ∨ es.foldl combine a ∈ es := by
  induction es generalizing a with
  | nil => exact .inl rfl
  | cons e es ih =>
    rw [List.foldl_cons]
    rcases ih (a.combine e) with hhead | htail
    · rw [hhead, List.mem_cons]
      exact (a.combine_eq_or e).imp_right .inl
    · exact .inr (.tail e htail)

theorem foldl_combine_dominates (a : Evaluation) (es : List Evaluation) :
    a.rank ≤ (es.foldl combine a).rank ∧ ∀ e ∈ es, e.rank ≤ (es.foldl combine a).rank := by
  induction es generalizing a with
  | nil => simp
  | cons e es ih =>
    obtain ⟨hstep, hrest⟩ := ih (a.combine e)
    rw [rank_combine] at hstep
    rw [List.foldl_cons, List.forall_mem_cons]
    exact ⟨by omega, by omega, hrest⟩

/-- The order in which evaluations are combined does not matter. -/
theorem strongest_perm {es es' : List Evaluation} (h : es.Perm es') :
    strongest es = strongest es' := by
  exact h.foldl_eq' (fun b _ c _ a => combine_right_comm a b c) .notApplicable

end Evaluation

/-! ## What a single rule says -/

namespace Rule

variable {action resource : String} {context : Context} {r : Rule} {e : Effect}

/-- The rule applies to an action on a resource in a context. -/
structure Applies (r : Rule) (action resource : String) (context : Context) : Prop where
  action : ∃ pattern ∈ r.actions, pattern.isMatch action = true
  resource : ∃ pattern ∈ r.resources, pattern.isMatch resource = true
  condition : ∀ c, r.condition = some c → c.holds context = true

theorem conditionHolds_iff :
    r.conditionHolds context = true ↔ ∀ c, r.condition = some c → c.holds context = true := by
  cases h : r.condition <;> simp [conditionHolds, h]

theorem applies_iff :
    r.applies action resource context = true ↔ r.Applies action resource context := by
  rw [applies, Bool.and_eq_true, Bool.and_eq_true, conditionHolds_iff, actionMatches,
    resourceMatches, List.any_eq_true, List.any_eq_true]
  constructor
  · rintro ⟨⟨haction, hresource⟩, hcondition⟩
    exact ⟨haction, hresource, hcondition⟩
  · intro h
    exact ⟨⟨h.action, h.resource⟩, h.condition⟩

instance (r : Rule) (action resource : String) (context : Context) :
    Decidable (r.Applies action resource context) :=
  decidable_of_iff _ applies_iff

/-- The rule applies and has that effect. -/
def Casts (r : Rule) (action resource : String) (context : Context) (e : Effect) : Prop :=
  r.effect = e ∧ r.Applies action resource context

/-- What the rule comes to on its own. -/
def evaluation (action resource : String) (context : Context) (r : Rule) : Evaluation :=
  if r.Applies action resource context then .ofEffect r.effect else .notApplicable

theorem Applies.casts_or (h : r.Applies action resource context) :
    r.Casts action resource context .deny ∨ r.Casts action resource context .allow := by
  cases he : r.effect with
  | allow => exact .inr ⟨he, h⟩
  | deny => exact .inl ⟨he, h⟩

end Rule

/-! ## Going through the rules -/

namespace Ruleset

variable {action resource : String} {context : Context} {found : Outcome} {r : Rule}
  {rules : List Rule}

theorem search_skip (skipped : ¬ r.Applies action resource context) :
    search action resource context found (r :: rules) =
      search action resource context found rules := by
  rw [search, if_neg (mt Rule.applies_iff.1 skipped)]

theorem search_denied (denies : r.Casts action resource context .deny) :
    search action resource context found (r :: rules) = ⟨.deny, r.sid⟩ := by
  obtain ⟨heffect, happlies⟩ := denies
  simp only [search, if_pos (Rule.applies_iff.2 happlies), heffect]

theorem search_allowed (allows : r.Casts action resource context .allow) :
    search action resource context found (r :: rules) =
      search action resource context
        (if found.evaluation = .notApplicable then ⟨.allow, r.sid⟩ else found) rules := by
  obtain ⟨heffect, happlies⟩ := allows
  simp only [search, if_pos (Rule.applies_iff.2 happlies), heffect]

/-- Stopping early finds what combining the evaluations of all rules does. -/
theorem evaluation_search (found : Outcome) (rules : List Rule) :
    (search action resource context found rules).evaluation =
      (rules.map (Rule.evaluation action resource context)).foldl Evaluation.combine
        found.evaluation := by
  induction rules generalizing found with
  | nil => rfl
  | cons r rules ih =>
    rw [List.map_cons, List.foldl_cons]
    by_cases happlies : r.Applies action resource context
    · rcases happlies.casts_or with hdeny | hallow
      · have hrule : r.evaluation action resource context = .deny := by
          rw [Rule.evaluation, if_pos happlies, hdeny.1, Evaluation.ofEffect]
        rw [search_denied hdeny, hrule, Evaluation.combine_deny, Evaluation.foldl_combine_deny]
      · have hrule : r.evaluation action resource context = .allow := by
          rw [Rule.evaluation, if_pos happlies, hallow.1, Evaluation.ofEffect]
        rw [search_allowed hallow, ih, hrule]
        cases he : found.evaluation <;> simp [he, Evaluation.combine, Evaluation.rank]
    · have hrule : r.evaluation action resource context = .notApplicable := by
        rw [Rule.evaluation, if_neg happlies]
      rw [search_skip happlies, ih, hrule]
      cases found.evaluation <;> rfl

theorem search_of_first_deny
    (first : IsFirst (fun r => r.Casts action resource context .deny) rules r) :
    search action resource context found rules = ⟨.deny, r.sid⟩ := by
  obtain ⟨before, after, rfl, hdenies, hbefore⟩ := first
  induction before generalizing found with
  | nil => exact search_denied hdenies
  | cons b before ih =>
    obtain ⟨hb, hrest⟩ := List.forall_mem_cons.1 hbefore
    rw [List.cons_append]
    by_cases happlies : b.Applies action resource context
    · rw [search_allowed (happlies.casts_or.resolve_left hb)]
      exact ih hrest
    · rw [search_skip happlies]
      exact ih hrest

/-- An allowance that was found stays as long as nothing denies. -/
theorem search_of_found (allowed : found.evaluation = .allow)
    (noDenial : ∀ r ∈ rules, ¬ r.Casts action resource context .deny) :
    search action resource context found rules = found := by
  induction rules with
  | nil => rfl
  | cons r rules ih =>
    obtain ⟨hr, hrest⟩ := List.forall_mem_cons.1 noDenial
    by_cases happlies : r.Applies action resource context
    · have hkept : found.evaluation ≠ .notApplicable := by simp [allowed]
      rw [search_allowed (happlies.casts_or.resolve_left hr), if_neg hkept]
      exact ih hrest
    · rw [search_skip happlies]
      exact ih hrest

theorem search_of_first_allow (fresh : found.evaluation = .notApplicable)
    (noDenial : ∀ r ∈ rules, ¬ r.Casts action resource context .deny)
    (first : IsFirst (fun r => r.Casts action resource context .allow) rules r) :
    search action resource context found rules = ⟨.allow, r.sid⟩ := by
  obtain ⟨before, after, rfl, hallows, hbefore⟩ := first
  induction before with
  | nil =>
    rw [List.nil_append, search_allowed hallows, if_pos fresh]
    exact search_of_found rfl fun b hb => noDenial b (.tail r hb)
  | cons b before ih =>
    obtain ⟨hb, hrest⟩ := List.forall_mem_cons.1 noDenial
    obtain ⟨hb', hbefore⟩ := List.forall_mem_cons.1 hbefore
    have hskipped : ¬ b.Applies action resource context := fun happlies =>
      happlies.casts_or.elim hb hb'
    rw [List.cons_append, search_skip hskipped]
    exact ih hrest hbefore

theorem search_of_none (nothing : ∀ r ∈ rules, ¬ r.Applies action resource context) :
    search action resource context found rules = found := by
  induction rules with
  | nil => rfl
  | cons r rules ih =>
    obtain ⟨hr, hrest⟩ := List.forall_mem_cons.1 nothing
    rw [search_skip hr]
    exact ih hrest

end Ruleset

/-! ## What is reported -/

/-- What rules come to, and the name of the rule that is reported. -/
inductive Reported (action resource : String) (context : Context) (rules : List Rule) :
    Outcome → Prop
  | denial {r : Rule}
      (first : IsFirst (fun r => r.Casts action resource context .deny) rules r) :
      Reported action resource context rules ⟨.deny, r.sid⟩
  | allowance {r : Rule} (noDenial : ∀ r ∈ rules, ¬ r.Casts action resource context .deny)
      (first : IsFirst (fun r => r.Casts action resource context .allow) rules r) :
      Reported action resource context rules ⟨.allow, r.sid⟩
  | nothing (silent : ∀ r ∈ rules, ¬ r.Applies action resource context) :
      Reported action resource context rules ⟨.notApplicable, none⟩

namespace Reported

variable {action resource : String} {context : Context} {rules : List Rule} {o : Outcome}

theorem search_eq (h : Reported action resource context rules o) :
    Ruleset.search action resource context ⟨.notApplicable, none⟩ rules = o := by
  cases h with
  | denial first => exact Ruleset.search_of_first_deny first
  | allowance noDenial first => exact Ruleset.search_of_first_allow rfl noDenial first
  | nothing silent => exact Ruleset.search_of_none silent

theorem total (action resource : String) (context : Context) (rules : List Rule) :
    ∃ o, Reported action resource context rules o := by
  by_cases hdeny : ∃ r ∈ rules, r.Casts action resource context .deny
  · obtain ⟨r, hr⟩ := IsFirst.exists_of_mem hdeny
    exact ⟨_, .denial hr⟩
  have noDenial : ∀ r ∈ rules, ¬ r.Casts action resource context .deny := fun r hr hd =>
    hdeny ⟨r, hr, hd⟩
  by_cases hallow : ∃ r ∈ rules, r.Casts action resource context .allow
  · obtain ⟨r, hr⟩ := IsFirst.exists_of_mem hallow
    exact ⟨_, .allowance noDenial hr⟩
  · refine ⟨_, .nothing fun r hr happlies => ?_⟩
    exact happlies.casts_or.elim (noDenial r hr) fun ha => hallow ⟨r, hr, ha⟩

end Reported

/-- A policy evaluates to the strongest evaluation of its rules, in whatever order they are
combined: none of them is stronger, and it is that of some rule unless none applies. With it the
name of the first rule that denies is reported, otherwise that of the first rule that allows. -/
theorem Ruleset.evaluate_scan (rs : Ruleset) (action resource : String) (context : Context) :
    (∀ order : List Rule, order.Perm rs.rules → (rs.evaluate action resource context).evaluation =
        Evaluation.strongest (order.map (Rule.evaluation action resource context))) ∧
      (∀ r ∈ rs.rules, (r.evaluation action resource context).rank ≤
        (rs.evaluate action resource context).evaluation.rank) ∧
      ((rs.evaluate action resource context).evaluation = .notApplicable ∨
        ∃ r ∈ rs.rules, r.evaluation action resource context =
          (rs.evaluate action resource context).evaluation) ∧
      ∀ o, rs.evaluate action resource context = o ↔
        Reported action resource context rs.rules o := by
  have hscan : (rs.evaluate action resource context).evaluation =
      Evaluation.strongest (rs.rules.map (Rule.evaluation action resource context)) :=
    evaluation_search ⟨.notApplicable, none⟩ rs.rules
  refine ⟨fun order horder => ?_, fun r hr => ?_, ?_, fun o => ⟨?_, Reported.search_eq⟩⟩
  · rw [hscan]
    exact Evaluation.strongest_perm (horder.map _).symm
  · rw [hscan]
    exact (Evaluation.foldl_combine_dominates _ _).2 _ (List.mem_map_of_mem hr)
  · rw [hscan]
    exact (Evaluation.foldl_combine_mem _ _).imp_right List.mem_map.1
  · rintro rfl
    obtain ⟨o, ho⟩ := Reported.total action resource context rs.rules
    rw [evaluate, ho.search_eq]
    exact ho

/-- The first rule that allows has no name, so none is reported. -/
example : Ruleset.evaluate
    ⟨"1", [⟨none, .allow, [⟨"*", .any⟩], [⟨"*", .any⟩], none⟩,
      ⟨some "Read", .allow, [⟨"blog:read", .literal⟩], [⟨"*", .any⟩], none⟩]⟩
    "blog:read" "post-1" {} = ⟨.allow, none⟩ := by
  decide

end TenantAccess
