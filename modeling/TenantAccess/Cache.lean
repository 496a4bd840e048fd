import TenantAccess.Prepared
import TenantAccess.Table

/-!
# The grant cache

Prepared grants are kept per principal until they are invalidated; when there is no room the entry
used least recently is given up. Every invalidation moves the generation of the organizations it
concerns. Grants are stored only with the generation that was current before they were read, so an
invalidation in the meantime keeps them out, and grants with a failed source are never stored.
-/
namespace TenantAccess

structure GrantCache where
  capacity : Nat
  /-- the entry used last comes first -/
  entries : List (Principal × PreparedGrants) := []
  /-- how often the whole cache was cleared -/
  epoch : Nat := 0
  /-- how often something was invalidated within an organization -/
  bumps : Table OrganizationId Nat := {}

namespace GrantCache

/-- A cache has room for one entry at least. Memory is taken as unbounded: there is a cache of any
capacity. -/
def ofCapacity (capacity : Nat) : GrantCache := { capacity := max capacity 1 }

def size (c : GrantCache) : Nat := c.entries.length

def bumpsOf (c : GrantCache) (o : OrganizationId) : Nat := (c.bumps.get? o).getD 0

/-- Only grows, and grows with every invalidation that concerns the principal's organization. -/
def generation (c : GrantCache) (p : Principal) : Nat := c.epoch + c.bumpsOf p.organization

def without (p : Principal) (entries : List (Principal × PreparedGrants)) :
    List (Principal × PreparedGrants) :=
  entries.filter fun e => e.1 ≠ p

/-- Looks up a principal's grants; an entry that is found becomes the one used last. -/
def get (c : GrantCache) (p : Principal) : Option PreparedGrants × GrantCache :=
  match Table.find p c.entries with
  | some g => (some g, { c with entries := (p, g) :: without p c.entries })
  | none => (none, c)

/-- Whether grants read at a generation may be stored now. -/
def accepts (c : GrantCache) (p : Principal) (g : PreparedGrants) (generation : Nat) : Bool :=
  g.isComplete && c.generation p == generation

def put (c : GrantCache) (p : Principal) (g : PreparedGrants) (generation : Nat) :
    Bool × GrantCache :=
  if c.accepts p g generation then
    (true, { c with entries := ((p, g) :: without p c.entries).take c.capacity })
  else (false, c)

def bump (c : GrantCache) (o : OrganizationId) : GrantCache :=
  { c with bumps := c.bumps.set o (c.bumpsOf o + 1) }

def invalidatePrincipal (c : GrantCache) (p : Principal) : GrantCache :=
  { c.bump p.organization with entries := without p c.entries }

def invalidateOrganization (c : GrantCache) (o : OrganizationId) : GrantCache :=
  { c.bump o with entries := c.entries.filter fun e => e.1.organization ≠ o }

def clear (c : GrantCache) : GrantCache := { c with epoch := c.epoch + 1, entries := [] }

end GrantCache

/-- Which cached grants have to be read again. -/
inductive Invalidation where
  | principal (p : Principal)
  | organization (o : OrganizationId)
  | all
  deriving DecidableEq, Repr

def GrantCache.invalidate (c : GrantCache) : Invalidation → GrantCache
  | .principal p => c.invalidatePrincipal p
  | .organization o => c.invalidateOrganization o
  | .all => c.clear

end TenantAccess
