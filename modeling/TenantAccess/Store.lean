import TenantAccess.Store.Groups

/-!
# The store

Policies, roles, groups and rows of all organizations, kept in memory. Every id is looked up within
the organization of the principal that reads. Attachments, roles and groups may name things that do
not exist; those contribute nothing.
-/
namespace TenantAccess

/-- A bundle of policies. -/
structure Role where
  policies : List String := []
  deriving DecidableEq, Repr

structure Store where
  policies : Table ScopedId StoredPolicy := {}
  roles : Table ScopedId Role := {}
  groups : GroupTable := {}
  /-- what was assigned to each principal, oldest first -/
  assignedRoles : Table Principal (List String) := {}
  memberships : Table Principal (List String) := {}
  attachments : Table Principal (List String) := {}
  permissions : List ResourcePermission := []
  shares : List ResourceShare := []

namespace Store

def listed (t : Table Principal (List String)) (p : Principal) : List String := (t.get? p).getD []

/-- Adds an id at the end of a principal's list. -/
def enlist (t : Table Principal (List String)) (p : Principal) (id : String) :
    Table Principal (List String) :=
  t.set p (listed t p ++ [id])

/-! ## Reads -/

def rolePolicies (s : Store) (o : OrganizationId) (role : String) : List String :=
  match s.roles.get? (o, role) with
  | some r => r.policies
  | none => []

def groupPolicies (s : Store) (o : OrganizationId) (group : String) : List String :=
  match s.groups.get? (o, group) with
  | some g => g.policies ++ g.roles.flatMap (s.rolePolicies o)
  | none => []

/-- The groups that count for a principal, in the order in which they are visited. -/
def groupsOf (s : Store) (p : Principal) (traversal : GroupTraversal) : List String :=
  s.groups.reached p.organization (listed s.memberships p) traversal

/-- The ids of all policies attached to a principal, with repetitions: those attached directly,
then those of its roles, then those of its groups. -/
def policyIds (s : Store) (p : Principal) (traversal : GroupTraversal) : List String :=
  listed s.attachments p ++
    (listed s.assignedRoles p).flatMap (s.rolePolicies p.organization) ++
      (s.groupsOf p traversal).flatMap (s.groupPolicies p.organization)

def policiesOf (s : Store) (p : Principal) (traversal : GroupTraversal) : List StoredPolicy :=
  (distinctBy id [] (s.policyIds p traversal)).filterMap fun id =>
    s.policies.get? (p.organization, id)

def permissionsOf (s : Store) (p : Principal) : List ResourcePermission :=
  s.permissions.filter fun row =>
    row.organization == p.organization && p.isNamed row.principalId row.principalKind

def sharesOf (s : Store) (p : Principal) : List ResourceShare :=
  s.shares.filter fun row =>
    row.organization == p.organization && p.isNamed row.principalId row.principalKind

end Store

/-- A change to the store. -/
inductive StoreChange where
  | insertPolicy (row : StoredPolicy)
  | removePolicy (o : OrganizationId) (id : String)
  | createRole (o : OrganizationId) (role : String) (policies : List String)
  | createGroup (o : OrganizationId) (group : String) (parent : Option String)
  | assignRoleToGroup (o : OrganizationId) (group role : String)
  | attachPolicyToGroup (o : OrganizationId) (group policy : String)
  | assignRole (p : Principal) (role : String)
  | addToGroup (p : Principal) (group : String)
  | attachPolicy (p : Principal) (policy : String)
  | addPermission (row : ResourcePermission)
  | addShare (row : ResourceShare)
  /-- removes the shares of that id -/
  | removeShare (id : String)
  deriving DecidableEq, Repr

namespace Store

/-- Changes a group; there is nothing to change if it does not exist. -/
def changeGroup (s : Store) (o : OrganizationId) (group : String) (f : Group → Group) : Store :=
  match s.groups.get? (o, group) with
  | some g => { s with groups := s.groups.set (o, group) (f g) }
  | none => s

/-- Creating something that exists replaces it. -/
def change (s : Store) : StoreChange → Store
  | .insertPolicy row => { s with policies := s.policies.set (row.organization, row.id) row }
  | .removePolicy o id => { s with policies := s.policies.erase (o, id) }
  | .createRole o role policies => { s with roles := s.roles.set (o, role) ⟨policies⟩ }
  | .createGroup o group parent => { s with groups := s.groups.set (o, group) { parent } }
  | .assignRoleToGroup o group role =>
    s.changeGroup o group fun g => { g with roles := g.roles ++ [role] }
  | .attachPolicyToGroup o group policy =>
    s.changeGroup o group fun g => { g with policies := g.policies ++ [policy] }
  | .assignRole p role => { s with assignedRoles := enlist s.assignedRoles p role }
  | .addToGroup p group => { s with memberships := enlist s.memberships p group }
  | .attachPolicy p policy => { s with attachments := enlist s.attachments p policy }
  | .addPermission row => { s with permissions := s.permissions ++ [row] }
  | .addShare row => { s with shares := s.shares ++ [row] }
  | .removeShare id => { s with shares := s.shares.filter fun row => row.id ≠ id }

end Store

end TenantAccess
