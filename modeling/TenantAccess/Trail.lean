import TenantAccess.Audit.Record
import TenantAccess.Notice
import TenantAccess.Prepared
import TenantAccess.Request

/-!
# Trails

A call leaves a trail of notices and audit records, in this order: the sources that failed and the
rows that were discarded, the grants that did not compile, and then every decision, a denial with a
record of its own.
-/
namespace TenantAccess

inductive TrailEntry where
  | notice (n : Notice)
  | record (r : AuditRecord)

abbrev Trail := List TrailEntry

namespace Snapshot

/-- What is told about one source. -/
def noticesOf (s : Snapshot) (p : Principal) (source : GrantSource) : List Notice :=
  (s.failures.filter fun f => f.source = source).map
      (fun f => .sourceUnavailable f.source f.reason) ++
    (s.discarded.filter fun d => d.source = source).map
      (fun d => .foreignRows d.source p d.count)

def notices (s : Snapshot) (p : Principal) : List Notice :=
  GrantSource.all.flatMap (s.noticesOf p) ++
    [.collected p s.policies.length s.permissions.length s.shares.length s.failures.length]

def records (s : Snapshot) (p : Principal) : List AuditRecord :=
  s.failures.map (fun f => ⟨p, .sourceUnavailable f.source f.reason⟩) ++
    s.discarded.map (fun d => ⟨p, .foreignGrantsDiscarded d.source d.count⟩)

def trail (s : Snapshot) (p : Principal) : Trail :=
  (s.notices p).map .notice ++
    (if s.isEmpty then [.notice (.nothingFound p s.isComplete)] else []) ++
      (s.records p).map .record

end Snapshot

namespace PreparedPolicy

/-- Tells of a document that did not compile. -/
def trail (principal : Principal) (p : PreparedPolicy) : Trail :=
  match p.rules with
  | .ok _ => []
  | .error e =>
    let reason := (AccessError.invalidPolicy e).message
    [.notice (.malformedPolicy principal p.id reason),
      .record ⟨principal, .malformedPolicy p.id reason⟩]

end PreparedPolicy

namespace PreparedPermission

/-- Tells of a pattern that did not compile. -/
def trail (principal : Principal) (p : PreparedPermission) : Trail :=
  match p.pattern with
  | .ok _ => []
  | .error e =>
    let reason := (AccessError.invalidPattern e).message
    [.notice (.invalidPattern principal p.row.id reason),
      .record ⟨principal, .malformedPermission p.row.id reason⟩]

end PreparedPermission

def PreparedGrants.trail (g : PreparedGrants) (p : Principal) : Trail :=
  g.policies.flatMap (PreparedPolicy.trail p) ++ g.permissions.flatMap (PreparedPermission.trail p)

namespace Decision

def records (d : Decision) (p : Principal) (check : ResourceAction) : List AuditRecord :=
  let reason := d.reason.display
  ⟨p, .accessCheck check.action check.resource d.isAllowed reason⟩ ::
    if d.isDenied then [⟨p, .accessDenied check.action check.resource reason⟩] else []

def trail (d : Decision) (p : Principal) (check : ResourceAction) : Trail :=
  .notice (.decided p check.action check.resource d) :: (d.records p check).map .record

end Decision

end TenantAccess
