import TenantAccess.Proofs.Ancestors
import TenantAccess.Proofs.Entitlement
import TenantAccess.Proofs.Transparency

/-!
# From direct to inherited membership

The groups that the walk visits begin with the memberships, so the policies read under inherited
membership begin with those read under direct membership: a membership that is repeated or a policy
that comes up again adds nothing. Policies that are added behind the others leave a denial by a
policy as it is, and they override what was allowed by a denial of their own only.
-/
namespace TenantAccess

/-! ## Policies that are added -/

/-- Some grant denies, rather than none that allows. -/
inductive Decision.Explicit : Decision → Prop
  | policy (id : String) (sid : Option String) : Explicit (.deny (.explicitPolicyDeny id sid))
  | permission (id : String) : Explicit (.deny (.resourcePermissionDeny id))

/-- What a decision may become when policies are added behind those that there were. -/
structure Decision.Evolves (d d' : Decision) : Prop where
  explicit : d.Explicit → d'.Explicit
  policyDeny : ∀ id sid, d = .deny (.explicitPolicyDeny id sid) → d' = d
  allowed : d.effect = .allow →
    d'.effect = .allow ∨ ∃ id sid, d' = .deny (.explicitPolicyDeny id sid)

/-- The second grants have further policies behind those of the first. -/
structure PreparedGrants.Extends (g g' : PreparedGrants) : Prop where
  policies : g.policies <+: g'.policies
  permissions : g.permissions = g'.permissions
  shares : g.shares = g'.shares

namespace PreparedGrants.Extends

variable {g g' : PreparedGrants} {action resource : String} {context : Context} {e : Effect}

theorem policyCasts (h : g.Extends g') (casts : g.PolicyCasts action resource context e) :
    g'.PolicyCasts action resource context e := by
  obtain ⟨p, hp, hcasts⟩ := casts
  exact ⟨p, h.policies.subset hp, hcasts⟩

theorem permissionCasts_iff (h : g.Extends g') :
    g.PermissionCasts action resource e ↔ g'.PermissionCasts action resource e := by
  rw [PermissionCasts, PermissionCasts, h.permissions]

theorem shareGrants_iff (h : g.Extends g') :
    g.ShareGrants action resource ↔ g'.ShareGrants action resource := by
  rw [ShareGrants, ShareGrants, h.shares]

theorem denies (h : g.Extends g') (denies : g.Denies action resource context) :
    g'.Denies action resource context :=
  denies.imp h.policyCasts h.permissionCasts_iff.1

/-- What denies a request does so explicitly, and nothing else does. -/
theorem explicit_decide_iff (g : PreparedGrants) :
    (g.decide action resource context).Explicit ↔ g.Denies action resource context := by
  have hsettles := g.settles_decide action resource context
  generalize g.decide action resource context = d at hsettles
  cases hsettles with
  | policyDeny first casts =>
    exact iff_of_true (.policy _ _) (.inl ⟨_, first.mem, _, casts⟩)
  | permissionDeny _ first => exact iff_of_true (.permission _) (.inr ⟨_, first.mem, first.holds⟩)
  | policyAllow noDenial => exact iff_of_false (by rintro ⟨⟩) noDenial
  | permissionAllow noDenial => exact iff_of_false (by rintro ⟨⟩) noDenial
  | shareAllow noDenial => exact iff_of_false (by rintro ⟨⟩) noDenial
  | defaultDeny noDenial => exact iff_of_false (by rintro ⟨⟩) noDenial

/-- The first policy that denies stays the first one. -/
theorem decide_policyDeny (h : g.Extends g') {id : String} {sid : Option String}
    (decided : g.decide action resource context = .deny (.explicitPolicyDeny id sid)) :
    g'.decide action resource context = .deny (.explicitPolicyDeny id sid) := by
  have hsettles := g.settles_decide action resource context
  rw [decided] at hsettles
  cases hsettles with
  | policyDeny first casts =>
    obtain ⟨more, hpolicies⟩ := h.policies
    refine Settles.decide_eq (.policyDeny ?_ casts)
    rw [← hpolicies]
    exact first.append_left

/-- Nothing but a policy can deny what was allowed before policies were added. -/
theorem decide_of_allowed (h : g.Extends g')
    (allowed : (g.decide action resource context).effect = .allow) :
    (g'.decide action resource context).effect = .allow ∨
      ∃ id sid, g'.decide action resource context = .deny (.explicitPolicyDeny id sid) := by
  obtain ⟨hdenies, hallows⟩ := (g.decide_allow_iff action resource context).1 allowed
  have hsettles := g'.settles_decide action resource context
  generalize g'.decide action resource context = d at hsettles
  cases hsettles with
  | policyDeny => exact .inr ⟨_, _, rfl⟩
  | permissionDeny _ first =>
    exact absurd (.inr (h.permissionCasts_iff.2 ⟨_, first.mem, first.holds⟩)) hdenies
  | policyAllow => exact .inl rfl
  | permissionAllow => exact .inl rfl
  | shareAllow => exact .inl rfl
  | defaultDeny _ noPolicy noPermission noShare =>
    rcases hallows with hpolicy | hpermission | hshare
    · exact absurd (h.policyCasts hpolicy) noPolicy
    · exact absurd (h.permissionCasts_iff.1 hpermission) noPermission
    · exact absurd (h.shareGrants_iff.1 hshare) noShare

theorem evolves (h : g.Extends g') (action resource : String) (context : Context) :
    (g.decide action resource context).Evolves (g'.decide action resource context) where
  explicit hexplicit := by
    rw [explicit_decide_iff] at hexplicit ⊢
    exact h.denies hexplicit
  policyDeny id sid decided := by rw [h.decide_policyDeny decided, decided]
  allowed := h.decide_of_allowed

end PreparedGrants.Extends

/-! ## What is read under inherited membership -/

namespace Store

variable (s : Store) (p : Principal)

/-- The ids attached to the principal directly come first under inherited membership too. -/
theorem prefix_distinct_policyIds :
    distinctBy id [] (s.policyIds p .direct) <+: distinctBy id [] (s.policyIds p .inherited) := by
  let own := listed s.attachments p ++
    (listed s.assignedRoles p).flatMap (s.rolePolicies p.organization)
  let ofGroups := List.flatMap (s.groupPolicies p.organization)
  -- a membership that is repeated adds nothing
  have hdirect : distinctBy id [] (s.policyIds p .direct) =
      distinctBy id [] (own ++ ofGroups (distinctBy id [] (listed s.memberships p))) := by
    have hnothing : ∀ g ∈ ([] : List String), ∀ i ∈ s.groupPolicies p.organization g,
        id i ∈ own.map id ++ [] := fun g hg => by cases hg
    rw [distinctBy_append, distinctBy_flatMap_distinctBy _ hnothing, ← distinctBy_append]
    rfl
  obtain ⟨above, habove⟩ : ∃ above, s.groupsOf p .inherited =
      distinctBy id [] (listed s.memberships p) ++ above := ⟨_, GroupTable.climb_level [] _⟩
  have hinherited : s.policyIds p .inherited =
      own ++ ofGroups (distinctBy id [] (listed s.memberships p)) ++ ofGroups above := by
    rw [policyIds, habove, List.flatMap_append, ← List.append_assoc]
  rw [hdirect, hinherited]
  exact prefix_distinctBy id [] (List.prefix_append ..)

theorem prefix_policiesOf : s.policiesOf p .direct <+: s.policiesOf p .inherited :=
  (s.prefix_distinct_policyIds p).filterMap _

end Store

theorem Sources.rows_widen (s : Sources) (p : Principal) :
    (s.rows p .direct).policies <+: (s.rows p .inherited).policies ∧
      (s.rows p .direct).permissions = (s.rows p .inherited).permissions ∧
      (s.rows p .direct).shares = (s.rows p .inherited).shares := by
  unfold rows
  cases s.fixed with
  | some rows => exact ⟨List.prefix_rfl, rfl, rfl⟩
  | none => exact ⟨s.store.prefix_policiesOf p, rfl, rfl⟩

/-! ## Two services that differ in the groups they follow -/

/-- The second service differs from the first in that it follows inherited memberships. -/
structure Service.Widened (v w : Service) : Prop where
  sources : v.sources = w.sources
  registry : v.authorizer.registry = w.authorizer.registry
  direct : v.authorizer.traversal = .direct
  inherited : w.authorizer.traversal = .inherited

namespace Service

variable [Pattern.Engine] {v w : Service} {r : AccessRequest} {c c' : Course}

theorem Widened.extends (h : v.Widened w) (p : Principal) :
    (v.current p).Extends (w.current p) := by
  obtain ⟨hpolicies, hpermissions, hshares⟩ := w.sources.rows_widen p
  simp only [current, h.sources, h.registry, h.direct, h.inherited]
  refine ⟨?_, ?_, ?_⟩
  · exact (prefix_distinctBy StoredPolicy.id [] (hpolicies.filter _)).map _
  · simp only [Snapshot.prepare, Snapshot.collect, Snapshot.kept, hpermissions]
  · simp only [Snapshot.prepare, Snapshot.collect, Snapshot.kept, hshares]

/-- A valid request is decided by the current grants if the cache has no others. -/
theorem authorize_of_current (faultless : ∀ source, v.sources.fault? source = none)
    (held : ∀ g, v.authorizer.Holds r.principal g → g = v.current r.principal)
    (valid : r.validate = .ok ()) (live : c.cancelled = false) :
    (v.authorize r c).1 = .ok ((v.current r.principal).decide r.action r.resource r.context) := by
  have hgrants := grants_of_current (c := c) faultless held
  rw [live, if_neg Bool.false_ne_true] at hgrants
  rw [authorize, Authorizer.authorize_of_valid valid, hgrants]
  rfl

/-- The policies read under direct membership are the first ones read under inherited membership.
So a service that goes over to inherited memberships, and has no outdated grants in its cache, keeps
every explicit denial, one by a policy with its reason, and of what it allowed it denies only what a
policy denies explicitly. -/
theorem authorize_widened :
    (∀ (s : Store) (p : Principal), s.policiesOf p .direct <+: s.policiesOf p .inherited) ∧
      ∀ (v w : Service) (r : AccessRequest) (c c' : Course), v.Widened w →
        (∀ source, v.sources.fault? source = none) →
        (∀ g, v.authorizer.Holds r.principal g → g = v.current r.principal) →
        (∀ g, w.authorizer.Holds r.principal g → g = w.current r.principal) →
        r.validate = .ok () → c.cancelled = false → c'.cancelled = false →
          ∃ d d', (v.authorize r c).1 = .ok d ∧ (w.authorize r c').1 = .ok d' ∧ d.Evolves d' := by
  refine ⟨Store.prefix_policiesOf, ?_⟩
  intro v w r c c' widened faultless held held' valid live live'
  have hfaultless : ∀ source, w.sources.fault? source = none := widened.sources ▸ faultless
  have hd := authorize_of_current faultless held valid live
  have hd' := authorize_of_current hfaultless held' valid live'
  have hevolves := (widened.extends r.principal).evolves r.action r.resource r.context
  exact ⟨_, _, hd, hd', hevolves⟩

end Service

namespace Deletion

/-- The service before it followed groups upwards. -/
def direct : Service := { service with authorizer := { traversal := .direct, registry := .builtin } }

theorem authorize_direct :
    (direct.authorize request).1 = .ok (.allow (.shareAllow "share-1" .owner)) := rfl

end Deletion

/-- The group above the editors comes in, and what the share allows may only be denied by it. -/
theorem Service.authorize_widened_deletion :
    ∃ d, (Deletion.service.authorize Deletion.request).1 = .ok d ∧
      (d.effect = .allow ∨ ∃ id sid, d = .deny (.explicitPolicyDeny id sid)) := by
  -- neither of the two services has a cache
  obtain ⟨d, d', hd, hd', hevolves⟩ := authorize_widened.2 Deletion.direct Deletion.service
    Deletion.request {} {} ⟨rfl, rfl, rfl, rfl⟩ (fun _ => rfl) (by rintro g ⟨_, ⟨⟩, _⟩)
    (by rintro g ⟨_, ⟨⟩, _⟩) rfl rfl rfl
  obtain rfl := Except.ok.inj (Deletion.authorize_direct.symm.trans hd)
  exact ⟨d', hd', hevolves.allowed rfl⟩

end TenantAccess
