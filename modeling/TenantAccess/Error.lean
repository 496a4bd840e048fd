import TenantAccess.Config.File
import TenantAccess.Grant
import TenantAccess.Policy.Rules

/-!
# Errors

Everything that can go wrong, by cause, with the text shown for it. Only invalid requests,
organization mismatches and cancellation are answers to an access check; the other errors
concern stored data, configuration and documents.
-/
namespace TenantAccess

/-- What is wrong with a request. -/
inductive RequestFault where
  | blankOrganization
  | blankPrincipal
  | wildcard
  /-- the action is not a service and a verb with a colon between them -/
  | malformedAction (action : String)
  | blankResource
  | unknownPrincipalKind (name : String)
  deriving DecidableEq, Repr

def RequestFault.message : RequestFault → String
  | .blankOrganization => "organization id cannot be empty"
  | .blankPrincipal => "principal id cannot be empty"
  | .wildcard => "wildcards are only allowed in grants, not in requests"
  | .malformedAction action => "action must look like service:verb, got " ++ Text.quoted action
  | .blankResource => "resource cannot be empty"
  | .unknownPrincipalKind name => s!"unknown principal type: {name}"

inductive AccessError where
  | invalidRequest (fault : RequestFault)
  /-- the resource belongs to another organization than the principal -/
  | organizationMismatch (expected actual : OrganizationId)
  | cancelled
  | unavailable (source : GrantSource) (reason : String)
  | malformedPolicy (id : String) (reason : String)
  | invalidPolicy (error : PolicyError)
  | invalidPattern (error : PatternError)
  | config (error : ConfigError)
  | unreadable (problem : Wire.Problem)
  | file (fault : FileFault)

namespace AccessError

def message : AccessError → String
  | .invalidRequest fault => "Invalid request: " ++ fault.message
  | .organizationMismatch expected actual =>
    s!"Organization mismatch: request scoped to {expected}, resource belongs to {actual}"
  | .cancelled => "Authorization cancelled"
  | .unavailable source reason => s!"Grant source unavailable: {source.name}: {reason}"
  | .malformedPolicy id reason => s!"Malformed policy {id}: {reason}"
  | .invalidPolicy error => "Invalid policy document: " ++ error.message
  | .invalidPattern error => error.message
  | .config (.outOfRange errors) =>
    "Configuration error: " ++ "; ".intercalate (errors.map RangeError.message)
  | .config .notToml => "TOML error: not a TOML document"
  | .config (.data problem) => "TOML error: " ++ problem.message Decimal.Layout.full
  | .unreadable problem => "Serialization error: " ++ problem.message Decimal.Layout.compact
  | .file fault => "I/O error: " ++ fault.message

/-- Whether the caller's input is at fault. -/
def isInvalidRequest : AccessError → Bool
  | .invalidRequest _ | .organizationMismatch _ _ => true
  | _ => false

end AccessError

/-- Reads a JSON text. -/
def ofJsonText {α : Type} (read : Json.Reader α) (s : String) : Except AccessError α :=
  (Json.readText read s).mapError .unreadable

end TenantAccess
