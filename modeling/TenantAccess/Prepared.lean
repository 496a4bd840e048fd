import TenantAccess.Snapshot

/-!
# Prepared grants

A snapshot is prepared once: policy documents and the patterns of permissions are compiled. What
does not compile is kept with its error and later takes no part in decisions.
-/
namespace TenantAccess

variable [Pattern.Engine]

structure PreparedPolicy where
  id : String
  rules : Except PolicyError Ruleset

structure PreparedPermission where
  row : ResourcePermission
  pattern : Except PatternError Pattern

structure PreparedGrants where
  policies : List PreparedPolicy := []
  permissions : List PreparedPermission := []
  shares : List ResourceShare := []
  failures : List SourceFailure := []
  discarded : List DiscardedRows := []

namespace PreparedGrants

/-- Whether every source was read. -/
def isComplete (g : PreparedGrants) : Bool := g.failures.isEmpty

end PreparedGrants

/-- Compiles a stored document. -/
def StoredPolicy.prepare (registry : Registry) (p : StoredPolicy) : PreparedPolicy :=
  ⟨p.id, Ruleset.ofText p.document registry⟩

def ResourcePermission.prepare (p : ResourcePermission) : PreparedPermission :=
  ⟨p, Pattern.compile p.permission⟩

def Snapshot.prepare (registry : Registry) (s : Snapshot) : PreparedGrants where
  policies := s.policies.map (StoredPolicy.prepare registry)
  permissions := s.permissions.map ResourcePermission.prepare
  shares := s.shares
  failures := s.failures
  discarded := s.discarded

end TenantAccess
