import TenantAccess.Proofs.Documents
import TenantAccess.Proofs.Precedence
import TenantAccess.Proofs.StoreReads
import TenantAccess.Proofs.WireFormat

/-!
# When a request is allowed

`Store.Confers` says, rule by rule, which grants a store holds for a request: the statements of
the policies that the principal has, and the permissions and shares that name the principal and the
resource. An authorizer without a cache allows a request exactly if no such grant denies and some
such grant allows.
-/
namespace TenantAccess

/-! ## Single rows -/

namespace StoredPolicy

variable [Pattern.Engine]

/-- The document compiles, and one of its statements has that effect and applies. -/
def Carries (row : StoredPolicy) (registry : Registry) (r : AccessRequest) (e : Effect) : Prop :=
  ∃ policy rules, Policy.ofText row.document = .ok policy ∧ policy.compile registry = .ok rules ∧
    ∃ s ∈ policy.statements, s.effect = e ∧ s.Applies registry r.action r.resource r.context

variable {row : StoredPolicy} {registry : Registry} {r : AccessRequest} {e : Effect}

theorem ofText_eq_ok_iff {text : String} {rules : Ruleset} :
    Ruleset.ofText text registry = .ok rules ↔
      ∃ policy, Policy.ofText text = .ok policy ∧ policy.compile registry = .ok rules := by
  cases h : Policy.ofText text <;> simp [Ruleset.ofText, h]

theorem carries_iff : row.Carries registry r e ↔
    ∃ rules, Ruleset.ofText row.document registry = .ok rules ∧
      ∃ rule ∈ rules.rules, rule.effect = e ∧
        rule.applies r.action r.resource r.context = true := by
  constructor
  · rintro ⟨policy, rules, hread, hcompile, hs⟩
    exact ⟨rules, ofText_eq_ok_iff.2 ⟨policy, hread, hcompile⟩,
      (Policy.exists_rule_compile hcompile).2 hs⟩
  · rintro ⟨rules, htext, hrule⟩
    obtain ⟨policy, hread, hcompile⟩ := ofText_eq_ok_iff.1 htext
    exact ⟨policy, rules, hread, hcompile, (Policy.exists_rule_compile hcompile).1 hrule⟩

theorem exists_casts_iff :
    (∃ sid, (row.prepare registry).Casts r.action r.resource r.context e sid) ↔
      ∃ rules, Ruleset.ofText row.document registry = .ok rules ∧
        (rules.evaluate r.action r.resource r.context).evaluation = .ofEffect e := by
  constructor
  · rintro ⟨sid, rules, hrules, heval⟩
    exact ⟨rules, hrules, by rw [heval]⟩
  · rintro ⟨rules, hrules, heval⟩
    exact ⟨_, rules, hrules, by rw [← heval]⟩

/-- A policy denies exactly if one of its statements does. -/
theorem exists_casts_deny_iff :
    (∃ sid, (row.prepare registry).Casts r.action r.resource r.context .deny sid) ↔
      row.Carries registry r .deny := by
  simp only [exists_casts_iff, carries_iff, Evaluation.ofEffect, Ruleset.evaluate_deny_iff]

/-- A policy allows exactly if none of its statements denies and one allows. -/
theorem exists_casts_allow_iff :
    (∃ sid, (row.prepare registry).Casts r.action r.resource r.context .allow sid) ↔
      ¬ row.Carries registry r .deny ∧ row.Carries registry r .allow := by
  simp only [exists_casts_iff, carries_iff, Evaluation.ofEffect, Ruleset.evaluate_allow_iff]
  constructor
  · rintro ⟨rules, hrules, hdeny, hallow⟩
    refine ⟨?_, rules, hrules, hallow⟩
    rintro ⟨rules', hrules', hdeny'⟩
    rw [hrules] at hrules'
    cases hrules'
    exact hdeny hdeny'
  · rintro ⟨hdeny, rules, hrules, hallow⟩
    exact ⟨rules, hrules, fun h => hdeny ⟨rules, hrules, h⟩, hallow⟩

end StoredPolicy

/-- The permission is for the requested resource, its pattern matches, and it has that effect. -/
structure ResourcePermission.Carries [Pattern.Engine] (row : ResourcePermission) (r : AccessRequest)
    (e : Effect) : Prop where
  resource : row.resource = r.resource
  action : Pattern.matchesText row.permission r.action = true
  effect : row.effect = e

theorem ResourcePermission.casts_prepare_iff [Pattern.Engine] {row : ResourcePermission}
    {r : AccessRequest} {e : Effect} : row.prepare.Casts r.action r.resource e ↔ row.Carries r e := by
  have hm : (∃ pattern, Pattern.compile row.permission = .ok pattern ∧
      pattern.isMatch r.action = true) ↔ Pattern.matchesText row.permission r.action = true := by
    cases h : Pattern.compile row.permission <;> simp [Pattern.matchesText, h]
  constructor
  · rintro ⟨hres, heff, hp⟩
    exact ⟨hres, hm.1 hp, heff⟩
  · rintro ⟨hres, hp, heff⟩
    exact ⟨hres, heff, hm.2 hp⟩

/-! ## Collected rows -/

/-- A collected row of that effect applies to the request. -/
inductive Snapshot.Confers [Pattern.Engine] (s : Snapshot) (registry : Registry) (r : AccessRequest)
    (e : Effect) : Prop
  | policy {row : StoredPolicy} (read : row ∈ s.policies) (carries : row.Carries registry r e)
  | permission {row : ResourcePermission} (read : row ∈ s.permissions) (carries : row.Carries r e)
  | share {row : ResourceShare} (read : row ∈ s.shares) (grants : row.Grants r.action r.resource)
      (allows : e = .allow)

namespace Snapshot

variable [Pattern.Engine] {s : Snapshot} {registry : Registry} {r : AccessRequest} {e : Effect}

theorem policyCasts_prepare_iff :
    (s.prepare registry).PolicyCasts r.action r.resource r.context e ↔
      ∃ row ∈ s.policies, ∃ sid,
        (row.prepare registry).Casts r.action r.resource r.context e sid := by
  constructor
  · rintro ⟨p, hp, hcasts⟩
    obtain ⟨row, hrow, rfl⟩ := List.mem_map.1 hp
    exact ⟨row, hrow, hcasts⟩
  · rintro ⟨row, hrow, hcasts⟩
    exact ⟨_, List.mem_map_of_mem hrow, hcasts⟩

theorem permissionCasts_prepare_iff :
    (s.prepare registry).PermissionCasts r.action r.resource e ↔
      ∃ row ∈ s.permissions, row.Carries r e := by
  constructor
  · rintro ⟨p, hp, hcasts⟩
    obtain ⟨row, hrow, rfl⟩ := List.mem_map.1 hp
    exact ⟨row, hrow, ResourcePermission.casts_prepare_iff.1 hcasts⟩
  · rintro ⟨row, hrow, hcarries⟩
    exact ⟨_, List.mem_map_of_mem hrow, ResourcePermission.casts_prepare_iff.2 hcarries⟩

theorem denies_prepare_iff :
    (s.prepare registry).Denies r.action r.resource r.context ↔ s.Confers registry r .deny := by
  simp only [PreparedGrants.Denies, policyCasts_prepare_iff, StoredPolicy.exists_casts_deny_iff,
    permissionCasts_prepare_iff]
  constructor
  · rintro (⟨row, hrow, h⟩ | ⟨row, hrow, h⟩)
    · exact .policy hrow h
    · exact .permission hrow h
  · intro h
    cases h with
    | policy hrow h => exact .inl ⟨_, hrow, h⟩
    | permission hrow h => exact .inr ⟨_, hrow, h⟩
    | share _ _ allows => cases allows

/-- The grants prepared from a snapshot allow exactly if no row of it denies and some row of it
allows. -/
theorem decide_prepare_allow_iff :
    ((s.prepare registry).decide r.action r.resource r.context).effect = .allow ↔
      ¬ s.Confers registry r .deny ∧ s.Confers registry r .allow := by
  rw [PreparedGrants.decide_allow_iff, denies_prepare_iff]
  refine and_congr_right fun hdeny => ?_
  simp only [policyCasts_prepare_iff, StoredPolicy.exists_casts_allow_iff,
    permissionCasts_prepare_iff]
  constructor
  · rintro (⟨row, hrow, -, h⟩ | ⟨row, hrow, h⟩ | ⟨row, hrow, h⟩)
    · exact .policy hrow h
    · exact .permission hrow h
    · exact .share hrow h rfl
  · intro h
    cases h with
    | policy hrow h => exact .inl ⟨_, hrow, fun hd => hdeny (.policy hrow hd), h⟩
    | permission hrow h => exact .inr (.inl ⟨_, hrow, h⟩)
    | share hrow h => exact .inr (.inr ⟨_, hrow, h⟩)

end Snapshot

/-! ## Stored rows -/

/-- The store holds a grant of that effect that applies to the request. -/
inductive Store.Confers [Pattern.Engine] (s : Store) (registry : Registry)
    (traversal : GroupTraversal) (r : AccessRequest) (e : Effect) : Prop
  | policy {id : String} {row : StoredPolicy} (attached : s.Attached r.principal traversal id)
      (present : s.policies.get? (r.principal.organization, id) = some row)
      (carries : row.Carries registry r e)
  | permission {row : ResourcePermission} (stored : row ∈ s.permissions)
      (own : row.organization = r.principal.organization ∧
        row.principalId = r.principal.id ∧ row.principalKind = r.principal.kind)
      (carries : row.Carries r e)
  | share {row : ResourceShare} (stored : row ∈ s.shares)
      (own : row.organization = r.principal.organization ∧
        row.principalId = r.principal.id ∧ row.principalKind = r.principal.kind)
      (grants : row.Grants r.action r.resource) (allows : e = .allow)

namespace Store

variable [Pattern.Engine] {s : Store} {registry : Registry} {traversal : GroupTraversal}
  {r : AccessRequest} {e : Effect}

/-- What is collected from a store confers what the store does. -/
theorem Filed.confers_collect_iff (h : s.Filed) :
    (Snapshot.collect r.principal ⟨.ok (s.policiesOf r.principal traversal),
        .ok (s.permissionsOf r.principal), .ok (s.sharesOf r.principal)⟩).Confers registry r e ↔
      s.Confers registry traversal r e := by
  rw [h.collect_rowsOf]
  constructor
  · intro hc
    cases hc with
    | policy hrow hcarries =>
      obtain ⟨id, hattached, hpresent⟩ := mem_policiesOf_iff.1 hrow
      exact .policy hattached hpresent hcarries
    | permission hrow hcarries =>
      obtain ⟨hstored, hown⟩ := mem_permissionsOf_iff.1 hrow
      exact .permission hstored hown hcarries
    | share hrow hgrants hallows =>
      obtain ⟨hstored, hown⟩ := mem_sharesOf_iff.1 hrow
      exact .share hstored hown hgrants hallows
  · intro hc
    cases hc with
    | policy hattached hpresent hcarries =>
      exact .policy (mem_policiesOf_iff.2 ⟨_, hattached, hpresent⟩) hcarries
    | permission hstored hown hcarries =>
      exact .permission (mem_permissionsOf_iff.2 ⟨hstored, hown⟩) hcarries
    | share hstored hown hgrants hallows =>
      exact .share (mem_sharesOf_iff.2 ⟨hstored, hown⟩) hgrants hallows

end Store

/-- A valid request to an authorizer without a cache, over a store without faults, is decided; it
is allowed exactly if the store holds no grant that denies it and some grant that allows it. -/
theorem Service.authorize_allow_iff [Pattern.Engine] {v : Service} {r : AccessRequest} {c : Course}
    (reachable : v.sources.store.Reachable) (own : v.sources.fixed = none)
    (faultless : ∀ source, v.sources.fault? source = none) (uncached : v.authorizer.cache = none)
    (valid : r.validate = .ok ()) (live : c.cancelled = false) :
    ∃ d, (v.authorize r c).1 = .ok d ∧
      (d.effect = .allow ↔
        ¬ v.sources.store.Confers v.authorizer.registry v.authorizer.traversal r .deny ∧
          v.sources.store.Confers v.authorizer.registry v.authorizer.traversal r .allow) := by
  have hrows : v.sources.rows r.principal v.authorizer.traversal =
      v.sources.store.rowsOf r.principal v.authorizer.traversal := by
    simp only [Sources.rows, own]
  have hfetch : v.fetch r.principal c = .answered
      ⟨.ok (v.sources.store.policiesOf r.principal v.authorizer.traversal),
        .ok (v.sources.store.permissionsOf r.principal),
        .ok (v.sources.store.sharesOf r.principal)⟩ := by
    rw [fetch_of_faultless faultless, Sources.answers_of_faultless faultless, sourcesAt_zero, hrows]
    rfl
  refine ⟨_, Authorizer.authorize_uncached uncached valid live hfetch, ?_⟩
  rw [Snapshot.decide_prepare_allow_iff, reachable.filed.confers_collect_iff,
    reachable.filed.confers_collect_iff]

/-! ## A denial through the group above -/

namespace Deletion

/-- Denies deletions of every resource. -/
def document : String :=
  "\x7b\"Version\":\"1\",\"Statement\":[" ++
    "\x7b\"Effect\":\"Deny\",\"Action\":\"blog:delete\",\"Resource\":\"*\"\x7d]\x7d"

def statement : Statement where
  effect := .deny
  action := .one "blog:delete"
  resource := .one "*"

def editor : Principal := ⟨"acme", .user, "ada"⟩

/-- The editor owns the post through a share, but the group above the editors denies deletions. -/
def changes : List StoreChange := [
  .insertPolicy ⟨"no-deletion", "acme", document⟩,
  .createGroup "acme" "staff" none,
  .attachPolicyToGroup "acme" "staff" "no-deletion",
  .createGroup "acme" "editors" (some "staff"),
  .addToGroup editor "editors",
  .addShare (.ofPrincipal "share-1" editor "post-1" .owner)]

def service : Service where
  sources := { store := changes.foldl Store.change {} }
  authorizer := { traversal := .inherited, registry := .builtin }

def request : AccessRequest where
  principal := editor
  action := "blog:delete"
  resource := "post-1"

theorem ofText_document : Policy.ofText document = .ok ⟨"1", [statement]⟩ := by
  have hwritten : document = Policy.toText ⟨"1", [statement]⟩ := by decide
  rw [hwritten]
  exact Policy.ofText_toText (by simp [Policy.NumberFree, statement])

theorem carries_document :
    StoredPolicy.Carries ⟨"no-deletion", "acme", document⟩ .builtin request .deny := by
  have hcompile : Policy.compile ⟨"1", [statement]⟩ .builtin = .ok ⟨"1", [
      ⟨none, .deny, [⟨"blog:delete", .literal⟩], [⟨"*", .any⟩], none⟩]⟩ := rfl
  refine ⟨_, _, ofText_document, hcompile, statement, .head _, rfl, ?_⟩
  refine ⟨⟨"blog:delete", .head _, rfl⟩, ⟨"*", .head _, rfl⟩, ?_⟩
  intro block hblock
  cases hblock

theorem confers_denial :
    service.sources.store.Confers .builtin .inherited request .deny := by
  have hmember : service.sources.store.Member editor .inherited "staff" :=
    .above rfl (.member (.head _)) (rfl : _ = some "staff")
  exact .policy (.group hmember rfl (.head _)) rfl carries_document

end Deletion

theorem Service.authorize_deletion :
    ∃ d, (Deletion.service.authorize Deletion.request).1 = .ok d ∧ d.effect ≠ .allow := by
  obtain ⟨d, hd, hallow⟩ := authorize_allow_iff (v := Deletion.service) (r := Deletion.request)
    (c := {}) (Store.Reachable.empty.changes Deletion.changes) rfl (fun _ => rfl) rfl rfl rfl
  exact ⟨d, hd, fun h => (hallow.1 h).1 Deletion.confers_denial⟩

end TenantAccess
