import TenantAccess.Decision
import TenantAccess.Error
import TenantAccess.Log

/-!
# Notices

What the authorizer and the audit logger tell their operators, by cause, and the log line of each.
-/
namespace TenantAccess

inductive Notice where
  /-- a request was invalid -/
  | rejected (p : Principal) (error : AccessError)
  | cacheHit (p : Principal)
  /-- the call was cancelled while its grants were being read -/
  | cancelledFetch (p : Principal)
  | sourceUnavailable (source : GrantSource) (reason : String)
  /-- rows out of the principal's scope were discarded -/
  | foreignRows (source : GrantSource) (p : Principal) (count : Nat)
  | collected (p : Principal) (policies permissions shares failures : Nat)
  | nothingFound (p : Principal) (complete : Bool)
  | malformedPolicy (p : Principal) (id : String) (reason : String)
  | invalidPattern (p : Principal) (permissionId : String) (reason : String)
  /-- the grants were invalidated while they were being read -/
  | notCached (p : Principal)
  | decided (p : Principal) (action resource : String) (decision : Decision)
  | auditQueueFull (p : Principal) (dropped : Nat)
  | auditStopped
  /-- records were still queued when the audit logger stopped -/
  | auditUndelivered (leftover dropped : Nat)

namespace Notice

def principalField (p : Principal) : String × LogValue := ("principal", .text p.display)

def line : Notice → LogLine
  | .rejected p error => {
      level := .warn
      message := "Rejected authorization request"
      fields := [principalField p, ("error", .text error.message)] }
  | .cacheHit p => { level := .debug, message := "Grant cache hit", fields := [principalField p] }
  | .cancelledFetch p => {
      level := .debug
      message := "Authorization cancelled during grant fetch"
      fields := [principalField p] }
  | .sourceUnavailable source reason => {
      level := .warn
      message := "Grant source unavailable, continuing without it"
      fields := [("source", .text source.name), ("error", .text reason)] }
  | .foreignRows source p count => {
      level := .error
      message := "Store returned grants outside the principal's scope; discarded"
      fields := [("source", .text source.name), principalField p, ("dropped", .count count)] }
  | .collected p policies permissions shares failures => {
      level := .debug
      message := "Collected grants"
      fields := [principalField p, ("policies", .count policies),
        ("resource_permissions", .count permissions), ("resource_shares", .count shares),
        ("failed_sources", .count failures)] }
  | .nothingFound p complete => {
      level := .debug
      message := "No grants found"
      fields := [principalField p, ("complete", .flag complete)] }
  | .malformedPolicy p id reason => {
      level := .error
      message := "Skipping malformed policy"
      fields := [principalField p, ("error", .text (AccessError.malformedPolicy id reason).message)] }
  | .invalidPattern p id reason => {
      level := .error
      message := "Skipping resource permission with invalid pattern"
      fields := [principalField p, ("permission_id", .text id), ("reason", .text reason)] }
  | .notCached p => {
      level := .debug
      message := "Grants changed during fetch, not caching"
      fields := [principalField p] }
  | .decided p action resource decision => {
      level := .debug
      message := "Authorization decided"
      fields := [principalField p, ("action", .text action), ("resource", .text resource),
        ("allowed", .flag decision.isAllowed), ("reason", .text decision.reason.display)] }
  | .auditQueueFull p dropped => {
      level := .warn
      message := "Audit queue full, dropping record"
      fields := [("organization", .text p.organization), ("principal", .text p.id),
        ("dropped_total", .count dropped)] }
  | .auditStopped => { level := .warn, message := "Audit logger stopped, dropping record" }
  | .auditUndelivered leftover dropped => {
      level := .warn
      message := "Audit logger stopped with undelivered records"
      fields := [("leftover", .count leftover), ("dropped_total", .count dropped)] }

end Notice

end TenantAccess
