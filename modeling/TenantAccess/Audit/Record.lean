import TenantAccess.Grant
import TenantAccess.Log

/-!
# Audit records

The audit trail holds every completed check, every denial, and every grant that was read or should
have been read and took no part in a decision. A record names the principal it is about.
-/
namespace TenantAccess

/-- What happened. -/
inductive AuditEvent where
  | accessCheck (action resource : String) (allowed : Bool) (reason : String)
  | accessDenied (action resource : String) (reason : String)
  | sourceUnavailable (source : GrantSource) (reason : String)
  | malformedPolicy (policyId : String) (reason : String)
  | malformedPermission (permissionId : String) (reason : String)
  | foreignGrantsDiscarded (source : GrantSource) (count : Nat)
  deriving DecidableEq, Repr

namespace AuditEvent

def kind : AuditEvent → String
  | .accessCheck .. => "access_check"
  | .accessDenied .. => "access_denied"
  | .sourceUnavailable .. => "grant_source_unavailable"
  | .malformedPolicy .. => "malformed_policy"
  | .malformedPermission .. => "malformed_resource_permission"
  | .foreignGrantsDiscarded .. => "foreign_grants_discarded"

def fields : AuditEvent → List (String × LogValue)
  | .accessCheck action resource allowed reason =>
    [("action", .text action), ("resource", .text resource), ("allowed", .flag allowed),
      ("reason", .text reason)]
  | .accessDenied action resource reason =>
    [("action", .text action), ("resource", .text resource), ("reason", .text reason)]
  | .sourceUnavailable source reason => [("source", .text source.name), ("reason", .text reason)]
  | .malformedPolicy id reason => [("policy_id", .text id), ("reason", .text reason)]
  | .malformedPermission id reason => [("permission_id", .text id), ("reason", .text reason)]
  | .foreignGrantsDiscarded source count =>
    [("source", .text source.name), ("count", .count count)]

end AuditEvent

structure AuditRecord where
  principal : Principal
  event : AuditEvent
  deriving DecidableEq, Repr

namespace AuditRecord

def isDenial (r : AuditRecord) : Bool :=
  match r.event with
  | .accessDenied .. => true
  | _ => false

/-- The fields of the event stand beside those of the principal. -/
def toJson (r : AuditRecord) : Json :=
  .object ([("organization_id", .string r.principal.organization),
    ("principal_type", r.principal.kind.toJson), ("principal_id", .string r.principal.id),
    ("kind", .string r.event.kind)] ++ r.event.fields.map fun (name, v) => (name, v.toJson))

/-- The record as a line of the audit log. -/
def line (r : AuditRecord) : LogLine where
  level := .info
  message := r.event.kind
  fields := [("org", .text r.principal.organization),
    ("principal_type", .text r.principal.kind.name), ("principal", .text r.principal.id)] ++
      r.event.fields
  audit := true

end AuditRecord

end TenantAccess
