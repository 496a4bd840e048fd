import Mathlib.Data.List.Forall2
import TenantAccess.Proofs.FirstOccurrences
import TenantAccess.Proofs.StoreReads

/-!
# The policies that are read for a principal

`Lists` says in which sequence policies are attached to a principal: directly, then through its
roles, then group by group, where a group's own policies stand before those of its roles and what
does not exist contributes nothing. Of every id in this sequence the policy that is present is read
once, in the order in which the ids first occur. Who is attached to a policy does not change when it
is removed or inserted, so a removed policy is read by nobody and an inserted one by all of them.
-/
namespace TenantAccess.Store

/-! ## The sequence of attachments -/

/-- The ids that a role contributes. -/
inductive RoleLists (s : Store) (o : OrganizationId) (role : String) : List String → Prop
  | found {r : Role} (found : s.roles.get? (o, role) = some r) : RoleLists s o role r.policies
  | dangling (missing : s.roles.get? (o, role) = none) : RoleLists s o role []

/-- The ids that a group contributes: its own, then those of its roles. -/
inductive GroupLists (s : Store) (o : OrganizationId) (g : String) : List String → Prop
  | found {group : Group} {parts : List (List String)}
      (found : s.groups.get? (o, g) = some group)
      (roles : List.Forall₂ (s.RoleLists o) group.roles parts) :
      GroupLists s o g (group.policies ++ parts.flatten)
  | dangling (missing : s.groups.get? (o, g) = none) : GroupLists s o g []

/-- The ids attached to a principal in their sequence, with repetitions. -/
inductive Lists (s : Store) (p : Principal) (traversal : GroupTraversal) : List String → Prop
  | mk {roleParts groupParts : List (List String)}
      (roles : List.Forall₂ (s.RoleLists p.organization) (listed s.assignedRoles p) roleParts)
      (groups : List.Forall₂ (s.GroupLists p.organization) (s.groupsOf p traversal) groupParts) :
      Lists s p traversal (listed s.attachments p ++ roleParts.flatten ++ groupParts.flatten)

/-- The rows are the policies attached to the principal that are present, each id once, in the
order in which the ids first occur in the sequence of attachments. -/
structure ReadsPolicies (s : Store) (p : Principal) (traversal : GroupTraversal)
    (rows : List StoredPolicy) : Prop where
  mem_iff : ∀ row, row ∈ rows ↔ s.Attached p traversal row.id ∧
    s.policies.get? (p.organization, row.id) = some row
  distinct : rows.Pairwise fun a b => a.id ≠ b.id
  inOrder : ∃ ids, s.Lists p traversal ids ∧
    rows.Pairwise fun a b => ids.idxOf a.id < ids.idxOf b.id

variable {s : Store} {o : OrganizationId} {p : Principal} {traversal : GroupTraversal}

theorem forall₂_map_of_forall {α β : Type} {related : α → β → Prop} {f : α → β}
    (h : ∀ a, related a (f a)) (as : List α) : List.Forall₂ related as (as.map f) :=
  List.forall₂_map_right_iff.2 (List.forall₂_same.2 fun a _ => h a)

theorem roleLists_rolePolicies (s : Store) (o : OrganizationId) (role : String) :
    s.RoleLists o role (s.rolePolicies o role) := by
  rw [rolePolicies]
  split
  · rename_i r hfound
    exact .found hfound
  · rename_i hmissing
    exact .dangling hmissing

theorem groupLists_groupPolicies (s : Store) (o : OrganizationId) (g : String) :
    s.GroupLists o g (s.groupPolicies o g) := by
  rw [groupPolicies]
  split
  · rename_i group hfound
    exact .found hfound (forall₂_map_of_forall (s.roleLists_rolePolicies o) group.roles)
  · rename_i hmissing
    exact .dangling hmissing

theorem lists_policyIds (s : Store) (p : Principal) (traversal : GroupTraversal) :
    s.Lists p traversal (s.policyIds p traversal) :=
  .mk (forall₂_map_of_forall (s.roleLists_rolePolicies p.organization) _)
    (forall₂_map_of_forall (s.groupLists_groupPolicies p.organization) _)

/-! ## What is read -/

theorem Filed.mem_policiesOf_iff_id (h : s.Filed) {row : StoredPolicy} :
    row ∈ s.policiesOf p traversal ↔ s.Attached p traversal row.id ∧
      s.policies.get? (p.organization, row.id) = some row := by
  rw [mem_policiesOf_iff]
  constructor
  · rintro ⟨id, hattached, hpresent⟩
    obtain ⟨-, rfl⟩ := h hpresent
    exact ⟨hattached, hpresent⟩
  · rintro ⟨hattached, hpresent⟩
    exact ⟨row.id, hattached, hpresent⟩

theorem Filed.policiesOf_inOrder (h : s.Filed) :
    (s.policiesOf p traversal).Pairwise fun a b =>
      (s.policyIds p traversal).idxOf a.id < (s.policyIds p traversal).idxOf b.id := by
  have hids := ordered_distinctBy id [] (s.policyIds p traversal)
  rw [List.map_id] at hids
  exact h.pairwise_policiesOf hids

theorem Filed.readsPolicies (h : s.Filed) :
    s.ReadsPolicies p traversal (s.policiesOf p traversal) where
  mem_iff _ := h.mem_policiesOf_iff_id
  distinct := h.policiesOf_distinct
  inOrder := ⟨_, s.lists_policyIds p traversal, h.policiesOf_inOrder⟩

/-! ## Removing and inserting a policy -/

theorem attached_removePolicy_iff {id other : String} :
    (s.change (.removePolicy o id)).Attached p traversal other ↔
      s.Attached p traversal other := by
  rw [← mem_policyIds_iff, ← mem_policyIds_iff]
  rfl

theorem attached_insertPolicy_iff {new : StoredPolicy} {other : String} :
    (s.change (.insertPolicy new)).Attached p traversal other ↔
      s.Attached p traversal other := by
  rw [← mem_policyIds_iff, ← mem_policyIds_iff]
  rfl

/-- Nobody reads a policy that was removed. -/
theorem Filed.policiesOf_removePolicy (h : s.Filed) {id : String} {row : StoredPolicy}
    (hrow : row ∈ (s.change (.removePolicy o id)).policiesOf p traversal) :
    ¬ (row.organization = o ∧ row.id = id) := by
  have hfiled : (s.change (.removePolicy o id)).Filed := h.change _
  obtain ⟨-, hpresent⟩ := hfiled.mem_policiesOf_iff_id.1 hrow
  rintro ⟨rfl, rfl⟩
  rw [hfiled.policiesOf_organization hrow, Store.change, Table.get?_erase, if_pos rfl] at hpresent
  cases hpresent

/-- Whoever is attached to a policy reads the newest one inserted under its id. -/
theorem Filed.policiesOf_insertPolicy (h : s.Filed) {new : StoredPolicy}
    (own : new.organization = p.organization) (attached : s.Attached p traversal new.id)
    (row : StoredPolicy) :
    row ∈ (s.change (.insertPolicy new)).policiesOf p traversal ∧ row.id = new.id ↔
      row = new := by
  have hfiled : (s.change (.insertPolicy new)).Filed := h.change _
  have hpresent : (s.change (.insertPolicy new)).policies.get? (p.organization, new.id) =
      some new := by
    rw [← own]
    exact Table.get?_set_self ..
  rw [hfiled.mem_policiesOf_iff_id]
  constructor
  · rintro ⟨⟨-, hrow⟩, hid⟩
    rw [hid, hpresent] at hrow
    exact (Option.some.inj hrow).symm
  · rintro rfl
    exact ⟨⟨attached_insertPolicy_iff.2 attached, hpresent⟩, rfl⟩

/-- For a principal exactly the policies attached to it that are present are read, each once and in
the order of the attachments. A removed policy is read no more however it is attached; attachments
outlast it, and all who are attached read the policy that is inserted next. -/
theorem policiesOf_attached (reachable : s.Reachable) (p : Principal)
    (traversal : GroupTraversal) :
    s.ReadsPolicies p traversal (s.policiesOf p traversal) ∧
      (∀ o id, (∀ row ∈ (s.change (.removePolicy o id)).policiesOf p traversal,
          ¬ (row.organization = o ∧ row.id = id)) ∧
        ∀ other, (s.change (.removePolicy o id)).Attached p traversal other ↔
          s.Attached p traversal other) ∧
      ∀ new : StoredPolicy, new.organization = p.organization →
        s.Attached p traversal new.id → ∀ row,
          row ∈ (s.change (.insertPolicy new)).policiesOf p traversal ∧ row.id = new.id ↔
            row = new := by
  have hfiled : s.Filed := reachable.filed
  refine ⟨hfiled.readsPolicies, fun o id => ⟨?_, fun other => attached_removePolicy_iff⟩, ?_⟩
  · intro row hrow
    exact hfiled.policiesOf_removePolicy hrow
  · intro new own attached
    exact hfiled.policiesOf_insertPolicy own attached

/-! ## A newcomer -/

namespace Onboarding

def newcomer : Principal := ⟨"acme", .user, "ada"⟩

/-- The newcomer has an id and a role that do not exist, and gets two policies in several ways. -/
def changes : List StoreChange := [
  .insertPolicy ⟨"read", "acme", "1"⟩,
  .insertPolicy ⟨"write", "acme", "2"⟩,
  .insertPolicy ⟨"audit", "acme", "3"⟩,
  .attachPolicy newcomer "ghost",
  .attachPolicy newcomer "write",
  .createRole "acme" "author" ["read", "write"],
  .assignRole newcomer "missing",
  .assignRole newcomer "author",
  .createGroup "acme" "staff" none,
  .attachPolicyToGroup "acme" "staff" "audit",
  .createGroup "acme" "team" (some "staff"),
  .assignRoleToGroup "acme" "team" "author",
  .addToGroup newcomer "team"]

def store : Store := changes.foldl Store.change {}

theorem store_reachable : store.Reachable := Reachable.empty.changes changes

/-- What replaces a policy that was removed. -/
def rewritten : StoredPolicy := ⟨"write", "acme", "4"⟩

end Onboarding

open Onboarding in
theorem policiesOf_attached_newcomer :
    store.ReadsPolicies newcomer .inherited
        [⟨"write", "acme", "2"⟩, ⟨"read", "acme", "1"⟩, ⟨"audit", "acme", "3"⟩] ∧
      rewritten ∈ ((store.change (.removePolicy "acme" "write")).change
        (.insertPolicy rewritten)).policiesOf newcomer .inherited := by
  have hrows : store.policiesOf newcomer .inherited =
      [⟨"write", "acme", "2"⟩, ⟨"read", "acme", "1"⟩, ⟨"audit", "acme", "3"⟩] := by
    decide +kernel
  have hreads := (policiesOf_attached store_reachable newcomer .inherited).1
  rw [hrows] at hreads
  have hattached : (store.change (.removePolicy "acme" "write")).Attached newcomer .inherited
      rewritten.id :=
    .direct (.tail _ (.head _))
  have hnewest := (policiesOf_attached (store_reachable.change _) newcomer .inherited).2.2
    rewritten rfl hattached rewritten
  exact ⟨hreads, (hnewest.2 rfl).1⟩

end TenantAccess.Store
