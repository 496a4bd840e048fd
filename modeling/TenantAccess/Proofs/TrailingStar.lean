import TenantAccess.Proofs.Coverage
import TenantAccess.Proofs.Documents
import TenantAccess.Proofs.Precedence
import TenantAccess.Request

/-!
# Patterns that end in a star

A star at the end of a pattern covers whatever follows in the line, across segments. A pattern
with such a star goes on matching when text of the same line is appended to the candidate, and a
denial on it goes on denying. A line feed is not covered, although a resource may contain one; what
stands behind it escapes the denial.
-/
namespace TenantAccess

namespace Pattern

def EndsInStar (source : String) : Prop := ∃ cs, source.toList = cs ++ ['*']

/-- What a character stands for when other characters follow it. -/
def Step.inner (c : Char) : Step := if c = '*' then .segment else .char c

variable {source : String} {p : Pattern} {ps : List Step} {cs ts : List Char} {c t : String}

theorem Step.ofPattern_append_star (cs : List Char) :
    ofPattern (cs ++ ['*']) = cs.map inner ++ [.rest] := by
  induction cs with
  | nil => rfl
  | cons c cs ih =>
    by_cases hc : c = '*' <;> simp [ofPattern, inner, hc, ih]

theorem Step.map_inner (plain : '*' ∉ cs) : cs.map inner = cs.map .char := by
  refine List.map_congr_left fun c hc => ?_
  have hne : c ≠ '*' := fun heq => plain (heq ▸ hc)
  simp only [inner, if_neg hne]

/-! ## The end of the line -/

/-- After the other steps have covered their part, the last star covers a text without a line
feed. -/
theorem covers_rest_iff :
    Covers (ps ++ [.rest]) cs ↔ ∃ xs ys, cs = xs ++ ys ∧ Covers ps xs ∧ '\n' ∉ ys := by
  simp only [covers_append_iff, covers_line_iff]

theorem Covers.append_line (h : Covers (ps ++ [.rest]) cs) (line : '\n' ∉ ts) :
    Covers (ps ++ [.rest]) (cs ++ ts) := by
  obtain ⟨xs, ys, rfl, hxs, hys⟩ := covers_rest_iff.1 h
  have hboth : '\n' ∉ ys ++ ts := by
    rw [List.mem_append, not_or]
    exact ⟨hys, line⟩
  exact covers_rest_iff.2 ⟨xs, ys ++ ts, List.append_assoc .., hxs, hboth⟩

/-- If the only star is the last one, nothing else can cover a line feed that is appended. -/
theorem Covers.line_of_append (plain : '*' ∉ cs) (h : Covers (cs.map Step.inner ++ [.rest]) xs)
    (h' : Covers (cs.map Step.inner ++ [.rest]) (xs ++ ts)) : '\n' ∉ ts := by
  rw [Step.map_inner plain] at h h'
  obtain ⟨as, bs, rfl, has, -⟩ := covers_rest_iff.1 h
  obtain ⟨as', bs', heq, has', hbs'⟩ := covers_rest_iff.1 h'
  rw [covers_map_char_iff] at has has'
  subst has has'
  rw [List.append_assoc] at heq
  have hline : bs ++ ts = bs' := List.append_cancel_left heq
  intro hmem
  exact hbs' (hline ▸ List.mem_append_right bs hmem)

/-! ## Compiled patterns -/

theorem eq_star_iff (star : source.toList = cs ++ ['*']) : source = "*" ↔ cs = [] := by
  rw [← String.toList_inj, star]
  simp

variable [Engine]

theorem isMatch_iff_of_star (compiled : compile source = .ok p)
    (star : source.toList = cs ++ ['*']) :
    p.isMatch c = true ↔
      c.toList ≠ [] ∧ (cs = [] ∨ Covers (cs.map Step.inner ++ [.rest]) c.toList) := by
  have hkind := kind_of_compile compiled
  have hmem : '*' ∈ source.toList := by simp [star]
  have hlone : source.toList = ['*'] ↔ cs = [] := by simp [star]
  rw [if_pos hmem, star, Step.ofPattern_append_star, ← star] at hkind
  by_cases hcs : cs = []
  · rw [if_pos (hlone.2 hcs)] at hkind
    simp [isMatch, hkind, hcs]
  · rw [if_neg (mt hlone.1 hcs)] at hkind
    simp [isMatch, hkind, hcs, covers_iff]

theorem isMatch_append (compiled : compile source = .ok p) (star : EndsInStar source)
    (matched : p.isMatch c = true) (line : '\n' ∉ t.toList ∨ source = "*") :
    p.isMatch (c ++ t) = true := by
  obtain ⟨cs, star⟩ := star
  rw [eq_star_iff star] at line
  rw [isMatch_iff_of_star compiled star] at matched ⊢
  obtain ⟨hne, hcovers⟩ := matched
  rw [String.toList_append]
  refine ⟨fun h => hne (List.append_eq_nil_iff.1 h).1, ?_⟩
  rcases line with line | rfl
  · exact hcovers.imp_right fun h => h.append_line line
  · exact .inl rfl

theorem line_of_isMatch_append (compiled : compile source = .ok p) (star : EndsInStar source)
    (single : source.toList.count '*' = 1) (matched : p.isMatch c = true)
    (matched' : p.isMatch (c ++ t) = true) : '\n' ∉ t.toList ∨ source = "*" := by
  obtain ⟨cs, star⟩ := star
  have hplain : '*' ∉ cs := by
    rw [star, List.count_append] at single
    apply List.count_eq_zero.1
    simpa using single
  rw [eq_star_iff star]
  rw [isMatch_iff_of_star compiled star] at matched matched'
  rw [String.toList_append] at matched'
  rcases matched.2 with hcs | h
  · exact .inr hcs
  · rcases matched'.2 with hcs | h'
    · exact .inr hcs
    · exact .inl (h.line_of_append hplain h')

end Pattern

/-! ## Denials -/

/-- The same request for a resource with a longer name. -/
def AccessRequest.lengthen (r : AccessRequest) (t : String) : AccessRequest :=
  { r with resource := r.resource ++ t }

/-- The statement denies the request, and that pattern is one through which it matches. -/
structure Statement.DeniesThrough [Pattern.Engine] (s : Statement) (registry : Registry)
    (r : AccessRequest) (source : String) : Prop where
  effect : s.effect = .deny
  listed : source ∈ s.resource.toList
  matched : Pattern.matchesText source r.resource = true
  applies : s.Applies registry r.action r.resource r.context

variable {s : Statement} {registry : Registry} {r : AccessRequest} {source t : String}

theorem Pattern.matchesText_append [Pattern.Engine] (star : EndsInStar source) {c : String}
    (matched : matchesText source c = true) (line : '\n' ∉ t.toList ∨ source = "*") :
    matchesText source (c ++ t) = true := by
  cases h : compile source with
  | error _ => simp [matchesText, h] at matched
  | ok p =>
    simp only [matchesText, h] at matched ⊢
    exact isMatch_append h star matched line

theorem Statement.DeniesThrough.lengthen [Pattern.Engine] (h : s.DeniesThrough registry r source)
    (star : Pattern.EndsInStar source) (line : '\n' ∉ t.toList ∨ source = "*") :
    s.DeniesThrough registry (r.lengthen t) source := by
  have hmatched : Pattern.matchesText source (r.resource ++ t) = true :=
    Pattern.matchesText_append star h.matched line
  exact ⟨h.effect, h.listed, hmatched, h.applies.action, ⟨source, h.listed, hmatched⟩,
    h.applies.condition⟩

/-- Grants with a policy that holds the statement deny the request. -/
theorem Statement.DeniesThrough.decide_deny [Pattern.Engine] (h : s.DeniesThrough registry r source)
    {policy : Policy} {rules : Ruleset} (compiled : policy.compile registry = .ok rules)
    (written : s ∈ policy.statements) {g : PreparedGrants} {q : PreparedPolicy}
    (stored : q ∈ g.policies) (prepared : q.rules = .ok rules) :
    (g.decide r.action r.resource r.context).effect = .deny := by
  have hrule := (Policy.exists_rule_compile compiled).2 ⟨s, written, h.effect, h.applies⟩
  have heval := rules.evaluate_deny_iff.2 hrule
  have hcasts : q.Casts r.action r.resource r.context .deny
      (rules.evaluate r.action r.resource r.context).sid := by
    refine ⟨rules, prepared, ?_⟩
    rw [Evaluation.ofEffect, ← heval]
  have hdenies : g.Denies r.action r.resource r.context := .inl ⟨q, stored, _, hcasts⟩
  cases heffect : (g.decide r.action r.resource r.context).effect with
  | deny => rfl
  | allow => exact absurd hdenies ((g.decide_allow_iff _ _ _).1 heffect).1

/-- A pattern that ends in a star goes on matching when text without a line feed is appended to the
candidate; if it has no other star, then only with such text. The pattern that is only a star goes
on matching in any case. A denial through such a pattern goes on denying likewise, whatever else is
granted. -/
theorem Pattern.star_covers_below [Pattern.Engine] (star : EndsInStar source) (t : String) :
    (∀ p c, compile source = .ok p → p.isMatch c = true →
      (('\n' ∉ t.toList ∨ source = "*") → p.isMatch (c ++ t) = true) ∧
        (source.toList.count '*' = 1 → p.isMatch (c ++ t) = true →
          '\n' ∉ t.toList ∨ source = "*")) ∧
      ∀ (s : Statement) (registry : Registry) (r : AccessRequest),
        s.DeniesThrough registry r source → ('\n' ∉ t.toList ∨ source = "*") →
          s.DeniesThrough registry (r.lengthen t) source ∧
            ∀ (policy : Policy) (rules : Ruleset) (g : PreparedGrants), ∀ q ∈ g.policies,
              policy.compile registry = .ok rules → s ∈ policy.statements → q.rules = .ok rules →
                (g.decide r.action (r.resource ++ t) r.context).effect = .deny := by
  constructor
  · intro p c compiled matched
    exact ⟨isMatch_append compiled star matched, fun single matched' =>
      line_of_isMatch_append compiled star single matched matched'⟩
  · intro s registry r hdenies line
    have hlonger := hdenies.lengthen star line
    refine ⟨hlonger, fun policy rules g q stored compiled written prepared => ?_⟩
    exact hlonger.decide_deny compiled written stored prepared

/-! ## A denial below a folder -/

namespace Drafts

/-- Nobody reads below the drafts. -/
def denial : Statement where
  effect := .deny
  action := .one "blog:read"
  resource := .one "draft/*"

def allowance : Statement where
  effect := .allow
  action := .one "blog:*"
  resource := .one "*"

def policy : Policy := ⟨"1", [allowance, denial]⟩

def grants : PreparedGrants where
  policies := [⟨"reading", policy.compile .builtin⟩]

def request : AccessRequest where
  principal := ⟨"acme", .user, "ada"⟩
  action := "blog:read"
  resource := "draft/1"

theorem endsInStar : Pattern.EndsInStar "draft/*" := ⟨"draft/".toList, rfl⟩

theorem deniesThrough : denial.DeniesThrough .builtin request "draft/*" := by
  refine ⟨rfl, .head _, rfl, ⟨"blog:read", .head _, rfl⟩, ⟨"draft/*", .head _, rfl⟩, ?_⟩
  intro block hblock
  cases hblock

end Drafts

theorem Pattern.star_covers_comments :
    Drafts.denial.DeniesThrough .builtin (Drafts.request.lengthen "/comments") "draft/*" ∧
      ∀ p, compile "draft/*" = .ok p → p.isMatch "draft/1/comments" = true := by
  obtain ⟨hmatch, hdeny⟩ := star_covers_below Drafts.endsInStar "/comments"
  have hline : '\n' ∉ "/comments".toList ∨ "draft/*" = "*" := .inl (by decide)
  refine ⟨(hdeny _ _ _ Drafts.deniesThrough hline).1, fun p hp => ?_⟩
  have hfirst : p.isMatch "draft/1" = true := by
    cases hp
    rfl
  exact (hmatch p "draft/1" hp hfirst).1 hline

/-- Not every text that is appended is covered: a line feed escapes the pattern, and the request
behind it, which is accepted, escapes the denial. -/
theorem Pattern.lineFeed_escapes_star :
    (∃ p, compile "draft/*" = .ok p ∧ p.isMatch "draft/1" = true ∧
      p.isMatch ("draft/1" ++ "\n") = false) ∧
      Drafts.denial.DeniesThrough .builtin Drafts.request "draft/*" ∧
      Drafts.request.validate = .ok () ∧ (Drafts.request.lengthen "\n").validate = .ok () ∧
      ¬ Drafts.denial.Applies .builtin "blog:read" "draft/1\n" {} ∧
      (Drafts.grants.decide "blog:read" "draft/1" {}).effect = .deny ∧
      (Drafts.grants.decide "blog:read" "draft/1\n" {}).effect = .allow := by
  refine ⟨⟨_, rfl, rfl, rfl⟩, Drafts.deniesThrough, rfl, rfl, ?_, rfl, rfl⟩
  intro happlies
  obtain ⟨source, hsource, hmatched⟩ := happlies.resource
  rw [List.mem_singleton.1 hsource] at hmatched
  cases hmatched

end TenantAccess
