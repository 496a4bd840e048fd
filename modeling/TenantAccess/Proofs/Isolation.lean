import TenantAccess.Proofs.Calls

/-!
# Isolation of tenants

Whatever the sources answer, only the rows that name the principal's organization, and for
permissions and shares the principal itself, take part in a decision. Foreign rows are deleted
before rows of the same id are merged, so a foreign row never hides an own one.
-/
namespace TenantAccess

namespace GrantAnswers

/-- The answers without the rows of other organizations and other principals. -/
def own (p : Principal) (x : GrantAnswers) : GrantAnswers where
  policies := x.policies.map (List.filter fun row => row.organization = p.organization)
  permissions := x.permissions.map (List.filter fun row =>
    row.organization = p.organization ∧ row.principalId = p.id ∧ row.principalKind = p.kind)
  shares := x.shares.map (List.filter fun row =>
    row.organization = p.organization ∧ row.principalId = p.id ∧ row.principalKind = p.kind)

end GrantAnswers

namespace Principal

variable (p : Principal)

theorem ownsPolicy_iff (row : StoredPolicy) :
    p.ownsPolicy row = true ↔ row.organization = p.organization := by
  simp [ownsPolicy]

theorem ownsPermission_iff (row : ResourcePermission) :
    p.ownsPermission row = true ↔
      row.organization = p.organization ∧ row.principalId = p.id ∧ row.principalKind = p.kind := by
  simp only [ownsPermission, isNamed, Bool.and_eq_true, beq_iff_eq, @eq_comm _ p.id,
    @eq_comm _ p.kind]

theorem ownsShare_iff (row : ResourceShare) :
    p.ownsShare row = true ↔
      row.organization = p.organization ∧ row.principalId = p.id ∧ row.principalKind = p.kind := by
  simp only [ownsShare, isNamed, Bool.and_eq_true, beq_iff_eq, @eq_comm _ p.id, @eq_comm _ p.kind]

end Principal

namespace Snapshot

variable {α : Type} {inScope : α → Bool}

theorem kept_map_filter {own : α → Prop} [DecidablePred own] (h : ∀ a, inScope a = true ↔ own a)
    (answer : Except AccessError (List α)) :
    kept inScope (answer.map (List.filter fun a => own a)) = kept inScope answer := by
  cases answer with
  | error _ => rfl
  | ok rows =>
    simp only [Except.map, kept, List.filter_filter]
    congr 1
    funext a
    cases hs : inScope a with
    | false => rfl
    | true => simp [(h a).1 hs]

/-- Foreign rows leave no trace in what is collected but their number. -/
theorem collect_own (p : Principal) (x : GrantAnswers) :
    (collect p (x.own p)).policies = (collect p x).policies ∧
      (collect p (x.own p)).permissions = (collect p x).permissions ∧
      (collect p (x.own p)).shares = (collect p x).shares := by
  have hp := kept_map_filter p.ownsPolicy_iff x.policies
  have hq := kept_map_filter p.ownsPermission_iff x.permissions
  have hs := kept_map_filter p.ownsShare_iff x.shares
  exact ⟨congrArg (distinctBy StoredPolicy.id []) hp, hq, hs⟩

end Snapshot

/-- A decision depends on the three lists of grants only. -/
theorem PreparedGrants.decide_congr {g g' : PreparedGrants} (hp : g.policies = g'.policies)
    (hq : g.permissions = g'.permissions) (hs : g.shares = g'.shares) (action resource : String)
    (context : Context) :
    g.decide action resource context = g'.decide action resource context := by
  rw [decide, decide, votes, votes, hp, hq, hs]

/-- Answers with the same own rows lead to the same decision. -/
theorem decide_eq_of_own_eq [Pattern.Engine] {p : Principal} {x y : GrantAnswers}
    (same : x.own p = y.own p) (registry : Registry) (action resource : String) (context : Context) :
    ((Snapshot.collect p x).prepare registry).decide action resource context =
      ((Snapshot.collect p y).prepare registry).decide action resource context := by
  obtain ⟨hp, hq, hs⟩ := Snapshot.collect_own p x
  obtain ⟨hp', hq', hs'⟩ := Snapshot.collect_own p y
  rw [same] at hp hq hs
  apply PreparedGrants.decide_congr
  · exact congrArg (List.map (StoredPolicy.prepare registry)) (hp.symm.trans hp')
  · exact congrArg (List.map ResourcePermission.prepare) (hq.symm.trans hq')
  · exact hs.symm.trans hs'

/-- Two answers of the sources that differ in foreign rows only lead to the same decision for the
same reason, wherever the foreign rows stand and whatever their ids are. -/
theorem Authorizer.authorize_eq_of_own_eq [Pattern.Engine] {a : Authorizer} {r : AccessRequest}
    {x y : GrantAnswers} (uncached : a.cache = none) (valid : r.validate = .ok ())
    (same : x.own r.principal = y.own r.principal) (is js : List Invalidation) :
    ∃ d, (a.authorize r { fetch := .answered x, invalidations := is }).result = .ok d ∧
      (a.authorize r { fetch := .answered y, invalidations := js }).result = .ok d := by
  refine ⟨_, authorize_uncached uncached valid rfl rfl, ?_⟩
  rw [authorize_uncached uncached valid rfl rfl, decide_eq_of_own_eq same]

namespace Shadowing

def reader : Principal := ⟨"acme", .user, "ada"⟩

def request : AccessRequest where
  principal := reader
  action := "blog:read"
  resource := "post-1"

def denial : ResourcePermission := .ofPrincipal "row" reader "post-1" "blog:*" .deny

def own : GrantAnswers where
  policies := .ok [⟨"reading", "acme", "{}"⟩]
  permissions := .ok [denial]
  shares := .error (.unavailable .resourceShares "down")

/-- Rows of another organization and of a namesake stand before the own rows of the same ids. -/
def shadowed : GrantAnswers where
  policies := .ok [⟨"reading", "rival", "[]"⟩, ⟨"reading", "acme", "{}"⟩]
  permissions := .ok [{ denial with organization := "rival", effect := .allow },
    { denial with principalKind := .serviceAccount, effect := .allow }, denial]
  shares := .error (.unavailable .resourceShares "down")

end Shadowing

theorem Authorizer.authorize_shadowed :
    ∃ d, (({ registry := .builtin } : Authorizer).authorize Shadowing.request
        { fetch := .answered Shadowing.shadowed }).result = .ok d ∧
      (({ registry := .builtin } : Authorizer).authorize Shadowing.request
        { fetch := .answered Shadowing.own }).result = .ok d :=
  authorize_eq_of_own_eq rfl rfl rfl [] []

end TenantAccess
