import TenantAccess.Proofs.StoreReads

/-!
# Changes of one tenant do not reach another

Two stores agree on an organization if they hold the same under its keys and for its principals.
A read for a principal looks at nothing else, and a change that names another organization leaves
stores in agreement, even where the ids of policies, roles, groups, principals and rows coincide.
-/
namespace TenantAccess

/-- The organization that a change names. Shares are removed by their id alone. -/
def StoreChange.organization? : StoreChange → Option OrganizationId
  | .insertPolicy row => some row.organization
  | .removePolicy o _ => some o
  | .createRole o _ _ => some o
  | .createGroup o _ _ => some o
  | .assignRoleToGroup o _ _ => some o
  | .attachPolicyToGroup o _ _ => some o
  | .assignRole p _ => some p.organization
  | .addToGroup p _ => some p.organization
  | .attachPolicy p _ => some p.organization
  | .addPermission row => some row.organization
  | .addShare row => some row.organization
  | .removeShare _ => none

theorem GroupTable.climb_congr {groups groups' : GroupTable} {o : OrganizationId}
    (h : ∀ g, groups.parent? o g = groups'.parent? o g) (visited waiting : List String) :
    climb groups o visited waiting = climb groups' o visited waiting := by
  induction visited, waiting using turn_induction groups o with
  | nil visited => rw [climb_nil, climb_nil]
  | known visited g waiting hg ih => rw [climb_cons_of_mem hg, climb_cons_of_mem hg, ih]
  | new visited g waiting hg ih =>
    rw [climb_cons_of_not_mem hg, climb_cons_of_not_mem hg, ih, h]

namespace Store

/-- The stores hold the same for an organization. -/
structure Agrees (s t : Store) (o : OrganizationId) : Prop where
  policies : ∀ id, s.policies.get? (o, id) = t.policies.get? (o, id)
  roles : ∀ role, s.roles.get? (o, role) = t.roles.get? (o, role)
  groups : ∀ group, s.groups.get? (o, group) = t.groups.get? (o, group)
  assignedRoles : ∀ p, p.organization = o → s.assignedRoles.get? p = t.assignedRoles.get? p
  memberships : ∀ p, p.organization = o → s.memberships.get? p = t.memberships.get? p
  attachments : ∀ p, p.organization = o → s.attachments.get? p = t.attachments.get? p
  permissions : (s.permissions.filter fun row => row.organization = o) =
    t.permissions.filter fun row => row.organization = o
  shares : (s.shares.filter fun row => row.organization = o) =
    t.shares.filter fun row => row.organization = o

variable {s t u : Store} {o o' : OrganizationId} {p : Principal} {c : StoreChange}

theorem Agrees.refl (s : Store) (o : OrganizationId) : s.Agrees s o := by
  constructor <;> intros <;> rfl

theorem Agrees.trans (h : s.Agrees t o) (h' : t.Agrees u o) : s.Agrees u o where
  policies id := (h.policies id).trans (h'.policies id)
  roles role := (h.roles role).trans (h'.roles role)
  groups group := (h.groups group).trans (h'.groups group)
  assignedRoles p hp := (h.assignedRoles p hp).trans (h'.assignedRoles p hp)
  memberships p hp := (h.memberships p hp).trans (h'.memberships p hp)
  attachments p hp := (h.attachments p hp).trans (h'.attachments p hp)
  permissions := h.permissions.trans h'.permissions
  shares := h.shares.trans h'.shares

/-! ## Reads in stores that agree -/

theorem Agrees.rolePolicies_eq (h : s.Agrees t o) (role : String) :
    s.rolePolicies o role = t.rolePolicies o role := by
  rw [rolePolicies, rolePolicies, h.roles]

theorem Agrees.groupPolicies_eq (h : s.Agrees t o) (group : String) :
    s.groupPolicies o group = t.groupPolicies o group := by
  have hroles : s.rolePolicies o = t.rolePolicies o := funext h.rolePolicies_eq
  rw [groupPolicies, groupPolicies, h.groups, hroles]

theorem Agrees.groupsOf_eq (h : s.Agrees t p.organization) (traversal : GroupTraversal) :
    s.groupsOf p traversal = t.groupsOf p traversal := by
  have hmember : listed s.memberships p = listed t.memberships p := by
    rw [listed, listed, h.memberships p rfl]
  have hparent : ∀ g, s.groups.parent? p.organization g = t.groups.parent? p.organization g := by
    intro g
    rw [GroupTable.parent?, GroupTable.parent?, h.groups]
  rw [groupsOf, groupsOf, hmember]
  cases traversal with
  | direct => rfl
  | inherited => exact GroupTable.climb_congr hparent _ _

theorem Agrees.policiesOf_eq (h : s.Agrees t p.organization) (traversal : GroupTraversal) :
    s.policiesOf p traversal = t.policiesOf p traversal := by
  have hattached : listed s.attachments p = listed t.attachments p := by
    rw [listed, listed, h.attachments p rfl]
  have hassigned : listed s.assignedRoles p = listed t.assignedRoles p := by
    rw [listed, listed, h.assignedRoles p rfl]
  have hroles : s.rolePolicies p.organization = t.rolePolicies p.organization :=
    funext h.rolePolicies_eq
  have hgroups : s.groupPolicies p.organization = t.groupPolicies p.organization :=
    funext h.groupPolicies_eq
  have hids : s.policyIds p traversal = t.policyIds p traversal := by
    rw [policyIds, policyIds, hattached, hassigned, hroles, hgroups, h.groupsOf_eq]
  have hfound : (fun id => s.policies.get? (p.organization, id)) =
      fun id => t.policies.get? (p.organization, id) := funext h.policies
  rw [policiesOf, policiesOf, hids, hfound]

/-- Rows of one organization are found alike in lists with the same rows of it. -/
theorem filter_and_eq {α : Type} {organization : α → OrganizationId} {rows rows' : List α}
    (h : (rows.filter fun row => organization row = o) =
      rows'.filter fun row => organization row = o) (named : α → Bool) :
    (rows.filter fun row => organization row == o && named row) =
      rows'.filter fun row => organization row == o && named row := by
  have hown : ∀ rows : List α, (rows.filter fun row => organization row == o && named row) =
      (rows.filter fun row => organization row = o).filter named := by
    intro rows
    rw [List.filter_filter]
    congr 1
    funext row
    rw [Bool.and_comm]
    rfl
  rw [hown, hown, h]

theorem Agrees.permissionsOf_eq (h : s.Agrees t p.organization) :
    s.permissionsOf p = t.permissionsOf p :=
  filter_and_eq h.permissions _

theorem Agrees.sharesOf_eq (h : s.Agrees t p.organization) : s.sharesOf p = t.sharesOf p :=
  filter_and_eq h.shares _

theorem Agrees.rowsOf_eq (h : s.Agrees t p.organization) (traversal : GroupTraversal) :
    s.rowsOf p traversal = t.rowsOf p traversal := by
  rw [rowsOf, rowsOf, h.policiesOf_eq, h.permissionsOf_eq, h.sharesOf_eq]

/-! ## Changes -/

theorem scoped_ne (other : o' ≠ o) (x y : String) : (o', x) ≠ (o, y) := by
  intro heq
  exact other (congrArg Prod.fst heq)

theorem principal_ne {q : Principal} (other : q.organization ≠ o) (hp : p.organization = o) :
    q ≠ p := by
  rintro rfl
  exact other hp

theorem agrees_changeGroup (other : o' ≠ o) (group : String) (f : Group → Group) :
    (s.changeGroup o' group f).Agrees s o := by
  rw [changeGroup]
  split
  · exact { Agrees.refl s o with
      groups := fun g => Table.get?_set_of_ne _ (scoped_ne other group g) _ }
  · exact .refl s o

theorem get?_enlist {t : Table Principal (List String)} {q : Principal}
    (other : q.organization ≠ o) (id : String) (p : Principal) (hp : p.organization = o) :
    (enlist t q id).get? p = t.get? p :=
  Table.get?_set_of_ne t (principal_ne other hp) _

/-- A change that names another organization leaves an organization as it was. -/
theorem agrees_change (names : c.organization? = some o') (other : o' ≠ o) :
    (s.change c).Agrees s o := by
  cases c with
  | insertPolicy row =>
    cases names
    exact { Agrees.refl s o with
      policies := fun id => Table.get?_set_of_ne _ (scoped_ne other row.id id) _ }
  | removePolicy _ id =>
    cases names
    exact { Agrees.refl s o with
      policies := fun id' => Table.get?_erase_of_ne _ (scoped_ne other id id') }
  | createRole _ role _ =>
    cases names
    exact { Agrees.refl s o with
      roles := fun role' => Table.get?_set_of_ne _ (scoped_ne other role role') _ }
  | createGroup _ group _ =>
    cases names
    exact { Agrees.refl s o with
      groups := fun group' => Table.get?_set_of_ne _ (scoped_ne other group group') _ }
  | assignRoleToGroup _ group role =>
    cases names
    exact agrees_changeGroup other group _
  | attachPolicyToGroup _ group policy =>
    cases names
    exact agrees_changeGroup other group _
  | assignRole q role =>
    cases names
    exact { Agrees.refl s o with assignedRoles := get?_enlist other role }
  | addToGroup q group =>
    cases names
    exact { Agrees.refl s o with memberships := get?_enlist other group }
  | attachPolicy q policy =>
    cases names
    exact { Agrees.refl s o with attachments := get?_enlist other policy }
  | addPermission row =>
    cases names
    exact { Agrees.refl s o with permissions := by simp [change, List.filter_append, other] }
  | addShare row =>
    cases names
    exact { Agrees.refl s o with shares := by simp [change, List.filter_append, other] }
  | removeShare id => cases names

/-- However many changes other organizations make, an organization stays as it was. -/
theorem agrees_changes {cs : List StoreChange}
    (foreign : ∀ c ∈ cs, ∃ o', c.organization? = some o' ∧ o' ≠ o) :
    (cs.foldl change s).Agrees s o := by
  induction cs generalizing s with
  | nil => exact .refl s o
  | cons c cs ih =>
    obtain ⟨⟨o', hnames, hother⟩, hrest⟩ := List.forall_mem_cons.1 foreign
    exact (ih hrest).trans (agrees_change hnames hother)

end Store

namespace Sources

variable {s : Sources} {c : StoreChange} {o : OrganizationId} {p : Principal}

/-- A change that names an organization alters no read for a principal of another organization:
not the policies with either traversal, not the permissions, not the shares, and not whether a
source answers. -/
theorem read_change_of_foreign (names : c.organization? = some o) (foreign : p.organization ≠ o)
    (traversal : GroupTraversal) :
    (s.store.change c).policiesOf p traversal = s.store.policiesOf p traversal ∧
      (s.store.change c).permissionsOf p = s.store.permissionsOf p ∧
      (s.store.change c).sharesOf p = s.store.sharesOf p ∧
      ∀ source, (s.change (.store c)).read source p traversal = s.read source p traversal := by
  have hagrees : (s.store.change c).Agrees s.store p.organization :=
    Store.agrees_change names foreign.symm
  refine ⟨hagrees.policiesOf_eq traversal, hagrees.permissionsOf_eq, hagrees.sharesOf_eq, ?_⟩
  intro source
  have hrows : (s.change (.store c)).rows p traversal = s.rows p traversal := by
    cases hfixed : s.fixed with
    | some fixed => simp only [Sources.rows, Sources.change, hfixed]
    | none =>
      simp only [Sources.rows, Sources.change, hfixed]
      exact hagrees.rowsOf_eq traversal
  have hfault : (s.change (.store c)).fault? source = s.fault? source := rfl
  rw [read, read, hrows, hfault]

end Sources

/-! ## Two tenants with the same ids -/

namespace Namesakes

def writer : Principal := ⟨"acme", .user, "ada"⟩

/-- Both organizations have a policy, a group and its parent of the same ids. -/
def changes (o : OrganizationId) (document : String) : List StoreChange := [
  .insertPolicy ⟨"writing", o, document⟩,
  .createGroup o "staff" none,
  .createGroup o "writers" (some "staff"),
  .attachPolicyToGroup o "staff" "writing",
  .addToGroup ⟨o, .user, "ada"⟩ "writers"]

def sources : Sources where
  store := (changes "acme" "[]" ++ changes "rival" "null").foldl Store.change {}

theorem policiesOf_writer :
    sources.store.policiesOf writer .inherited = [⟨"writing", "acme", "[]"⟩] := by
  decide +kernel

end Namesakes

/-- The other organization turns its groups of the same ids into a circle; what the writer reads
is not empty and stays as it is. -/
theorem Sources.read_change_of_namesake :
    (Namesakes.sources.store.change (.createGroup "rival" "staff" (some "writers"))).policiesOf
        Namesakes.writer .inherited = [⟨"writing", "acme", "[]"⟩] := by
  have h := read_change_of_foreign (s := Namesakes.sources) (p := Namesakes.writer)
    (c := .createGroup "rival" "staff" (some "writers")) rfl (by decide) .inherited
  exact h.1.trans Namesakes.policiesOf_writer

end TenantAccess
