import TenantAccess.Proofs.Isolation
import TenantAccess.Proofs.Membership

/-!
# What a principal reads

`Attached` names the policies that a principal has: those attached to it, those of its roles, and
those that its groups have in either way. A store that came about by changes keeps every policy
under its own organization and id, so what it returns lies within the principal's scope, no id
occurs twice, and nothing of it is discarded when it is collected.
-/
namespace TenantAccess

/-- A store that comes about by changes alone. -/
inductive Store.Reachable : Store → Prop
  | empty : Reachable {}
  | change {s : Store} (prior : Reachable s) (c : StoreChange) : Reachable (s.change c)

namespace Store

/-! ## Policies are kept under their own key -/

/-- Every policy is kept under its own organization and id. -/
def Filed (s : Store) : Prop :=
  ∀ ⦃o id row⦄, s.policies.get? (o, id) = some row → row.organization = o ∧ row.id = id

variable {s : Store} {p : Principal} {traversal : GroupTraversal} {id : String}

@[simp] theorem changeGroup_policies (s : Store) (o : OrganizationId) (g : String)
    (f : Group → Group) : (s.changeGroup o g f).policies = s.policies := by
  simp only [changeGroup]
  split <;> rfl

theorem Filed.change (h : s.Filed) (c : StoreChange) : (s.change c).Filed := by
  intro o id row hget
  cases c with
  | insertPolicy new =>
    simp only [Store.change, Table.get?_set] at hget
    split at hget
    · rename_i hkey
      cases hget
      cases hkey
      exact ⟨rfl, rfl⟩
    · exact h hget
  | removePolicy o' id' =>
    simp only [Store.change, Table.get?_erase] at hget
    split at hget
    · cases hget
    · exact h hget
  | assignRoleToGroup o' g role =>
    simp only [Store.change, changeGroup_policies] at hget
    exact h hget
  | attachPolicyToGroup o' g policy =>
    simp only [Store.change, changeGroup_policies] at hget
    exact h hget
  | _ => exact h hget

theorem Reachable.filed (h : s.Reachable) : s.Filed := by
  induction h with
  | empty =>
    intro o id row hget
    cases hget
  | change _ c ih => exact ih.change c

theorem Reachable.changes (h : s.Reachable) (cs : List StoreChange) :
    (cs.foldl Store.change s).Reachable := by
  induction cs generalizing s with
  | nil => exact h
  | cons c cs ih => exact ih (h.change c)

/-! ## Attached policies -/

/-- A role of the organization that bundles the policy. -/
def Bundles (s : Store) (o : OrganizationId) (role id : String) : Prop :=
  ∃ r, s.roles.get? (o, role) = some r ∧ id ∈ r.policies

/-- A group that counts for the principal; direct memberships always do. -/
def Member (s : Store) (p : Principal) (traversal : GroupTraversal) (g : String) : Prop :=
  s.groups.Counts p.organization (listed s.memberships p) traversal g

/-- The principal has the policy of that id. -/
inductive Attached (s : Store) (p : Principal) (traversal : GroupTraversal) (id : String) : Prop
  | direct (attached : id ∈ listed s.attachments p)
  | role {role : String} (assigned : role ∈ listed s.assignedRoles p)
      (bundles : s.Bundles p.organization role id)
  | group {g : String} {group : Group} (member : s.Member p traversal g)
      (found : s.groups.get? (p.organization, g) = some group) (attached : id ∈ group.policies)
  | groupRole {g role : String} {group : Group} (member : s.Member p traversal g)
      (found : s.groups.get? (p.organization, g) = some group) (assigned : role ∈ group.roles)
      (bundles : s.Bundles p.organization role id)

theorem mem_rolePolicies_iff {o : OrganizationId} {role : String} :
    id ∈ s.rolePolicies o role ↔ s.Bundles o role id := by
  cases h : s.roles.get? (o, role) <;> simp [rolePolicies, Bundles, h]

theorem mem_groupPolicies_iff {o : OrganizationId} {g : String} :
    id ∈ s.groupPolicies o g ↔
      ∃ group, s.groups.get? (o, g) = some group ∧
        (id ∈ group.policies ∨ ∃ role ∈ group.roles, s.Bundles o role id) := by
  cases h : s.groups.get? (o, g) <;> simp [groupPolicies, mem_rolePolicies_iff, h]

theorem mem_policyIds_iff : id ∈ s.policyIds p traversal ↔ s.Attached p traversal id := by
  simp only [policyIds, List.mem_append, List.mem_flatMap, mem_rolePolicies_iff,
    mem_groupPolicies_iff, groupsOf, GroupTable.mem_reached_iff]
  constructor
  · rintro ((hdirect | ⟨role, hrole, hb⟩) | ⟨g, hg, group, hfound, hid | ⟨role, hrole, hb⟩⟩)
    · exact .direct hdirect
    · exact .role hrole hb
    · exact .group hg hfound hid
    · exact .groupRole hg hfound hrole hb
  · intro h
    cases h with
    | direct hdirect => exact .inl (.inl hdirect)
    | role hrole hb => exact .inl (.inr ⟨_, hrole, hb⟩)
    | group hg hfound hid => exact .inr ⟨_, hg, _, hfound, .inl hid⟩
    | groupRole hg hfound hrole hb => exact .inr ⟨_, hg, _, hfound, .inr ⟨_, hrole, hb⟩⟩

/-- The policies read for a principal are those attached to it that are present. -/
theorem mem_policiesOf_iff {row : StoredPolicy} :
    row ∈ s.policiesOf p traversal ↔
      ∃ id, s.Attached p traversal id ∧ s.policies.get? (p.organization, id) = some row := by
  simp [policiesOf, List.mem_filterMap, mem_distinctBy_id, mem_policyIds_iff]

/-! ## Reads stay within the principal's scope -/

theorem mem_permissionsOf_iff {row : ResourcePermission} :
    row ∈ s.permissionsOf p ↔ row ∈ s.permissions ∧
      row.organization = p.organization ∧ row.principalId = p.id ∧ row.principalKind = p.kind :=
  List.mem_filter.trans (and_congr_right fun _ => p.ownsPermission_iff row)

theorem mem_sharesOf_iff {row : ResourceShare} :
    row ∈ s.sharesOf p ↔ row ∈ s.shares ∧
      row.organization = p.organization ∧ row.principalId = p.id ∧ row.principalKind = p.kind :=
  List.mem_filter.trans (and_congr_right fun _ => p.ownsShare_iff row)

theorem Filed.policiesOf_organization (h : s.Filed) {row : StoredPolicy}
    (hrow : row ∈ s.policiesOf p traversal) : row.organization = p.organization := by
  obtain ⟨id, -, hget⟩ := mem_policiesOf_iff.1 hrow
  exact (h hget).1

/-- The rows stand as their ids do, for the row present under an id is of that id. -/
theorem Filed.pairwise_policiesOf (h : s.Filed) {related : String → String → Prop}
    (hids : (distinctBy (fun i => i) [] (s.policyIds p traversal)).Pairwise related) :
    (s.policiesOf p traversal).Pairwise fun a b => related a.id b.id := by
  refine List.pairwise_filterMap.2 (hids.imp fun hij a ha b hb => ?_)
  rw [(h ha).2, (h hb).2]
  exact hij

theorem Filed.policiesOf_distinct (h : s.Filed) :
    (s.policiesOf p traversal).Pairwise fun a b => a.id ≠ b.id :=
  h.pairwise_policiesOf (pairwise_distinctBy _ [] (s.policyIds p traversal))

end Store

/-- What the rows read for a principal are like, whoever keeps them. -/
structure GrantRows.InScope (rows : GrantRows) (p : Principal) : Prop where
  policies : ∀ row ∈ rows.policies, row.organization = p.organization
  policies_distinct : rows.policies.Pairwise fun a b => a.id ≠ b.id
  permissions : ∀ row ∈ rows.permissions,
    row.organization = p.organization ∧ row.principalId = p.id ∧ row.principalKind = p.kind
  shares : ∀ row ∈ rows.shares,
    row.organization = p.organization ∧ row.principalId = p.id ∧ row.principalKind = p.kind

theorem Store.Filed.inScope_rowsOf {s : Store} (h : s.Filed) (p : Principal)
    (traversal : GroupTraversal) : (s.rowsOf p traversal).InScope p where
  policies _ hrow := h.policiesOf_organization hrow
  policies_distinct := h.policiesOf_distinct
  permissions _ hrow := (mem_permissionsOf_iff.1 hrow).2
  shares _ hrow := (mem_sharesOf_iff.1 hrow).2

namespace GrantRows.InScope

variable {rows : GrantRows} {p : Principal}

theorem ownsPolicies (h : rows.InScope p) : ∀ row ∈ rows.policies, p.ownsPolicy row = true :=
  fun row hrow => (p.ownsPolicy_iff row).2 (h.policies row hrow)

theorem ownsPermissions (h : rows.InScope p) :
    ∀ row ∈ rows.permissions, p.ownsPermission row = true :=
  fun row hrow => (p.ownsPermission_iff row).2 (h.permissions row hrow)

theorem ownsShares (h : rows.InScope p) : ∀ row ∈ rows.shares, p.ownsShare row = true :=
  fun row hrow => (p.ownsShare_iff row).2 (h.shares row hrow)

theorem distinctBy_policies (h : rows.InScope p) :
    distinctBy StoredPolicy.id [] rows.policies = rows.policies :=
  distinctBy_eq_self (fun _ _ => List.not_mem_nil) h.policies_distinct

end GrantRows.InScope

namespace Snapshot

variable {α : Type} {inScope : α → Bool} {rows : List α}

theorem kept_of_forall (h : ∀ row ∈ rows, inScope row = true) : kept inScope (.ok rows) = rows :=
  List.filter_eq_self.2 h

theorem discarded?_of_forall (source : GrantSource) (h : ∀ row ∈ rows, inScope row = true) :
    discarded? source inScope (.ok rows) = none := by
  have hcount : (rows.countP fun row => !inScope row) = 0 := by
    refine List.countP_eq_zero.2 fun row hrow => ?_
    simp [h row hrow]
  simp [discarded?, hcount]

end Snapshot

namespace Store

open Snapshot

/-- What is read is collected as it is. -/
theorem Filed.collect_rowsOf {s : Store} (h : s.Filed) (p : Principal) (traversal : GroupTraversal) :
    Snapshot.collect p ⟨.ok (s.policiesOf p traversal), .ok (s.permissionsOf p),
        .ok (s.sharesOf p)⟩ =
      { policies := s.policiesOf p traversal
        permissions := s.permissionsOf p
        shares := s.sharesOf p } := by
  have hscope := h.inScope_rowsOf p traversal
  have hp : ∀ row ∈ s.policiesOf p traversal, p.ownsPolicy row = true := hscope.ownsPolicies
  have hq : ∀ row ∈ s.permissionsOf p, p.ownsPermission row = true := hscope.ownsPermissions
  have hs : ∀ row ∈ s.sharesOf p, p.ownsShare row = true := hscope.ownsShares
  have hd : distinctBy StoredPolicy.id [] (s.policiesOf p traversal) = s.policiesOf p traversal :=
    hscope.distinctBy_policies
  simp only [collect, kept_of_forall hp, kept_of_forall hq, kept_of_forall hs, hd, failure?,
    discarded?_of_forall _ hp, discarded?_of_forall _ hq, discarded?_of_forall _ hs]
  rfl

end Store

end TenantAccess
