import TenantAccess.Decision
import TenantAccess.Prepared

/-!
# Verdicts

Every applicable grant casts a vote: policies first, then permissions on the resource, then shares
of the resource. The first vote to deny decides; without one the first vote to allow does, and
without any vote access is denied. What did not compile casts no vote, and a share only allows.
-/
namespace TenantAccess

/-- What one grant says about a request, and the reason reported if it decides. -/
structure Vote where
  effect : Effect
  reason : DecisionReason
  deriving DecidableEq, Repr

namespace PreparedPolicy

def vote? (action resource : String) (context : Context) (p : PreparedPolicy) : Option Vote :=
  match p.rules with
  | .error _ => none
  | .ok rules =>
    let outcome := rules.evaluate action resource context
    match outcome.evaluation with
    | .deny => some ⟨.deny, .explicitPolicyDeny p.id outcome.sid⟩
    | .allow => some ⟨.allow, .policyAllow p.id outcome.sid⟩
    | .notApplicable => none

end PreparedPolicy

namespace PreparedPermission

/-- The resource has to be the very one that the permission names. -/
def applies (action resource : String) (p : PreparedPermission) : Bool :=
  p.row.resource == resource &&
    match p.pattern with
    | .ok pattern => pattern.isMatch action
    | .error _ => false

def reason (p : PreparedPermission) : DecisionReason :=
  match p.row.effect with
  | .deny => .resourcePermissionDeny p.row.id
  | .allow => .resourcePermissionAllow p.row.id

def vote? (action resource : String) (p : PreparedPermission) : Option Vote :=
  if p.applies action resource then some ⟨p.row.effect, p.reason⟩ else none

end PreparedPermission

namespace ResourceShare

def applies (action resource : String) (s : ResourceShare) : Bool :=
  s.resource == resource && s.level.permits action

def vote? (action resource : String) (s : ResourceShare) : Option Vote :=
  if s.applies action resource then some ⟨.allow, .shareAllow s.id s.level⟩ else none

end ResourceShare

namespace Decision

/-- Goes through the votes with the first reason to allow found so far. -/
def tally : Option DecisionReason → List Vote → Decision
  | none, [] => defaultDeny
  | some reason, [] => allow reason
  | found, v :: vs =>
    match v.effect with
    | .deny => deny v.reason
    | .allow => tally (found.or (some v.reason)) vs

end Decision

namespace PreparedGrants

def votes (g : PreparedGrants) (action resource : String) (context : Context) : List Vote :=
  g.policies.filterMap (PreparedPolicy.vote? action resource context) ++
    g.permissions.filterMap (PreparedPermission.vote? action resource) ++
      g.shares.filterMap (ResourceShare.vote? action resource)

def decide (g : PreparedGrants) (action resource : String) (context : Context) : Decision :=
  Decision.tally none (g.votes action resource context)

end PreparedGrants

end TenantAccess
