import TenantAccess.Distinct
import TenantAccess.Error

/-!
# Snapshots

The three sources of grants answer one principal's read independently of each other. A snapshot
keeps the rows that lie within the principal's scope, in the order in which they came: policies of
its organization, the first of each id, and permissions and shares that name it. A source that
could not be read counts as empty and is recorded as failed; rows out of scope are counted.
-/
namespace TenantAccess

/-- What the three sources answered. -/
structure GrantAnswers where
  policies : Except AccessError (List StoredPolicy)
  permissions : Except AccessError (List ResourcePermission)
  shares : Except AccessError (List ResourceShare)

/-- A source that could not be read. -/
structure SourceFailure where
  source : GrantSource
  reason : String
  deriving DecidableEq, Repr

/-- The number of rows of a source that lay out of scope. -/
structure DiscardedRows where
  source : GrantSource
  count : Nat
  deriving DecidableEq, Repr

structure Snapshot where
  policies : List StoredPolicy := []
  permissions : List ResourcePermission := []
  shares : List ResourceShare := []
  failures : List SourceFailure := []
  discarded : List DiscardedRows := []
  deriving DecidableEq, Repr

namespace Principal

def ownsPolicy (p : Principal) (row : StoredPolicy) : Bool := row.organization == p.organization

def ownsPermission (p : Principal) (row : ResourcePermission) : Bool :=
  row.organization == p.organization && p.isNamed row.principalId row.principalKind

def ownsShare (p : Principal) (row : ResourceShare) : Bool :=
  row.organization == p.organization && p.isNamed row.principalId row.principalKind

end Principal

namespace Snapshot

variable {α : Type}

/-- The rows within scope; none if the source could not be read. -/
def kept (inScope : α → Bool) : Except AccessError (List α) → List α
  | .ok rows => rows.filter inScope
  | .error _ => []

def failure? (source : GrantSource) : Except AccessError (List α) → Option SourceFailure
  | .ok _ => none
  | .error e => some ⟨source, e.message⟩

def discarded? (source : GrantSource) (inScope : α → Bool) :
    Except AccessError (List α) → Option DiscardedRows
  | .ok rows =>
    let count := rows.countP fun row => !inScope row
    if count = 0 then none else some ⟨source, count⟩
  | .error _ => none

def collect (p : Principal) (answers : GrantAnswers) : Snapshot where
  policies := distinctBy StoredPolicy.id [] (kept p.ownsPolicy answers.policies)
  permissions := kept p.ownsPermission answers.permissions
  shares := kept p.ownsShare answers.shares
  failures := [failure? .policies answers.policies,
    failure? .resourcePermissions answers.permissions,
    failure? .resourceShares answers.shares].filterMap id
  discarded := [discarded? .policies p.ownsPolicy answers.policies,
    discarded? .resourcePermissions p.ownsPermission answers.permissions,
    discarded? .resourceShares p.ownsShare answers.shares].filterMap id

/-- Whether every source was read. -/
def isComplete (s : Snapshot) : Bool := s.failures.isEmpty

def isEmpty (s : Snapshot) : Bool :=
  s.policies.isEmpty && s.permissions.isEmpty && s.shares.isEmpty

end Snapshot

end TenantAccess
