import TenantAccess.Decision
import TenantAccess.Error
import TenantAccess.Proofs.WireFormat
import TenantAccess.Request

/-!
# The texts of records

Every record is read back from the text that is written for it: decisions with all kinds of reasons,
stored policies, permissions and shares, requested actions, principals and the configuration. So no
two records of a type share a text.
-/
namespace TenantAccess

open Json (Reads Plain Fills)

/-- Each value is read back from its text, and different values have different texts. -/
structure Json.Faithful {α : Type} (read : Json.Reader α) (write : α → Json) : Prop where
  readsBack : ∀ a, ofJsonText read (write a).text = .ok a
  apart : ∀ a b, a ≠ b → (write a).text ≠ (write b).text

theorem Json.faithful_of_reads {α : Type} {read : Json.Reader α} {write : α → Json}
    {n : Nat} (plain : ∀ a, Plain n (write a)) (deep : n ≤ maxNesting)
    (reads : ∀ a, Reads read (write a) a) : Faithful read write := by
  have hread (a : α) : ofJsonText read (write a).text = .ok a := by
    rw [ofJsonText, readText_eq_ok (plain a) deep (reads a)]
    rfl
  refine ⟨hread, fun a b hne hsame => hne ?_⟩
  have hok := (hread a).symm.trans ((congrArg (ofJsonText read) hsame).trans (hread b))
  cases hok
  rfl

/-! ## Names -/

theorem PrincipalKind.reads (k : PrincipalKind) : Reads read k.toJson k := by
  cases k <;> exact Json.reads_variant rfl

theorem AccessLevel.reads (level : AccessLevel) : Reads read level.toJson level := by
  cases level <;> exact Json.reads_variant rfl

theorem GroupTraversal.reads (t : GroupTraversal) : Reads read t.toJson t := by
  cases t <;> exact Json.reads_variant rfl

/-! ## Records of texts and names -/

namespace Principal

theorem reads (p : Principal) : Reads read p.toJson p := by
  have hfills : Fills record {} [("organization_id", .string p.organization),
      ("principal_type", p.kind.toJson), ("id", .string p.id)]
      ⟨some p.organization, some p.kind, some p.id⟩ := by
    refine .cons rfl rfl ((Json.reads_string p.organization).map _) ?_
    refine .cons rfl rfl (p.kind.reads.map _) ?_
    exact .cons rfl rfl ((Json.reads_string p.id).map _) .nil
  intro o ho
  rw [read, hfills.reads o ho]
  rfl

theorem plain_toJson (p : Principal) : Plain 1 p.toJson :=
  .member .string <| .member .string <| .member .string .empty

end Principal

namespace StoredPolicy

theorem reads (row : StoredPolicy) : Reads read row.toJson row := by
  have hfills : Fills record {} [("id", .string row.id),
      ("organization_id", .string row.organization), ("document", .string row.document)]
      ⟨some row.id, some row.organization, some row.document⟩ := by
    refine .cons rfl rfl ((Json.reads_string row.id).map _) ?_
    refine .cons rfl rfl ((Json.reads_string row.organization).map _) ?_
    exact .cons rfl rfl ((Json.reads_string row.document).map _) .nil
  intro o ho
  rw [read, hfills.reads o ho]
  rfl

theorem plain_toJson (row : StoredPolicy) : Plain 1 row.toJson :=
  .member .string <| .member .string <| .member .string .empty

end StoredPolicy

namespace ResourcePermission

theorem reads (row : ResourcePermission) : Reads read row.toJson row := by
  have hfills : Fills record {} [("id", .string row.id),
      ("organization_id", .string row.organization), ("principal_id", .string row.principalId),
      ("principal_type", row.principalKind.toJson), ("resource_id", .string row.resource),
      ("permission", .string row.permission), ("effect", row.effect.toJson)]
      ⟨some row.id, some row.organization, some row.principalId, some row.principalKind,
        some row.resource, some row.permission, some row.effect⟩ := by
    refine .cons rfl rfl ((Json.reads_string row.id).map _) ?_
    refine .cons rfl rfl ((Json.reads_string row.organization).map _) ?_
    refine .cons rfl rfl ((Json.reads_string row.principalId).map _) ?_
    refine .cons rfl rfl (row.principalKind.reads.map _) ?_
    refine .cons rfl rfl ((Json.reads_string row.resource).map _) ?_
    refine .cons rfl rfl ((Json.reads_string row.permission).map _) ?_
    exact .cons rfl rfl (row.effect.reads.map _) .nil
  intro o ho
  rw [read, hfills.reads o ho]
  rfl

theorem plain_toJson (row : ResourcePermission) : Plain 1 row.toJson :=
  .member .string <| .member .string <| .member .string <| .member .string <| .member .string <|
    .member .string <| .member .string .empty

end ResourcePermission

namespace ResourceShare

theorem reads (row : ResourceShare) : Reads read row.toJson row := by
  have hfills : Fills record {} [("id", .string row.id),
      ("organization_id", .string row.organization), ("principal_id", .string row.principalId),
      ("principal_type", row.principalKind.toJson), ("resource_id", .string row.resource),
      ("access_level", row.level.toJson)]
      ⟨some row.id, some row.organization, some row.principalId, some row.principalKind,
        some row.resource, some row.level⟩ := by
    refine .cons rfl rfl ((Json.reads_string row.id).map _) ?_
    refine .cons rfl rfl ((Json.reads_string row.organization).map _) ?_
    refine .cons rfl rfl ((Json.reads_string row.principalId).map _) ?_
    refine .cons rfl rfl (row.principalKind.reads.map _) ?_
    refine .cons rfl rfl ((Json.reads_string row.resource).map _) ?_
    exact .cons rfl rfl (row.level.reads.map _) .nil
  intro o ho
  rw [read, hfills.reads o ho]
  rfl

theorem plain_toJson (row : ResourceShare) : Plain 1 row.toJson :=
  .member .string <| .member .string <| .member .string <| .member .string <| .member .string <|
    .member .string .empty

end ResourceShare

namespace ResourceAction

theorem reads (r : ResourceAction) : Reads read r.toJson r := by
  have hfills : Fills record {} [("action", .string r.action), ("resource", .string r.resource)]
      ⟨some r.action, some r.resource⟩ := by
    refine .cons rfl rfl ((Json.reads_string r.action).map _) ?_
    exact .cons rfl rfl ((Json.reads_string r.resource).map _) .nil
  intro o ho
  rw [read, hfills.reads o ho]
  rfl

theorem plain_toJson (r : ResourceAction) : Plain 1 r.toJson :=
  .member .string <| .member .string .empty

end ResourceAction

/-! ## Decisions -/

namespace DecisionReason

theorem reads_of_fields {name : String} {kind : Kind} {fields : List (String × Json)}
    {r : DecisionReason} (known : Kind.variants.lookup name = some kind)
    (untagged : ∀ m ∈ fields, m.1 ≠ "kind") (read_fields : ofFields (.object fields) kind = .ok r) :
    Reads read (tagged name fields) r := by
  intro o ho
  rw [read, Json.reads_tagged known untagged o ho]
  exact read_fields

theorem reads (r : DecisionReason) : Reads read r.toJson r := by
  cases r with
  | explicitPolicyDeny id sid =>
    refine reads_of_fields rfl (by simp) ?_
    cases sid <;> rfl
  | resourcePermissionDeny id => exact reads_of_fields rfl (by simp) rfl
  | policyAllow id sid =>
    refine reads_of_fields rfl (by simp) ?_
    cases sid <;> rfl
  | resourcePermissionAllow id => exact reads_of_fields rfl (by simp) rfl
  | shareAllow id level =>
    refine reads_of_fields rfl (by simp) ?_
    cases level <;> rfl
  | defaultDeny => exact reads_of_fields rfl (by simp) rfl

theorem plain_sidJson (sid : Option String) : Plain 0 (sidJson sid) := by
  cases sid with
  | none => exact .null
  | some sid => exact .string

theorem plain_toJson (r : DecisionReason) : Plain 1 r.toJson := by
  cases r with
  | explicitPolicyDeny id sid =>
    exact .member .string <| .member .string <| .member (plain_sidJson sid) .empty
  | resourcePermissionDeny id => exact .member .string <| .member .string .empty
  | policyAllow id sid =>
    exact .member .string <| .member .string <| .member (plain_sidJson sid) .empty
  | resourcePermissionAllow id => exact .member .string <| .member .string .empty
  | shareAllow id level => exact .member .string <| .member .string <| .member .string .empty
  | defaultDeny => exact .member .string .empty

end DecisionReason

namespace Decision

theorem reads (d : Decision) : Reads read d.toJson d := by
  have hfills : Fills record {} [("effect", d.effect.toJson), ("reason", d.reason.toJson)]
      ⟨some d.effect, some d.reason⟩ := by
    refine .cons rfl rfl (d.effect.reads.map _) ?_
    exact .cons rfl rfl (d.reason.reads.map _) .nil
  intro o ho
  rw [read, hfills.reads o ho]
  rfl

theorem plain_toJson (d : Decision) : Plain 2 d.toJson :=
  .member .string <| .member d.reason.plain_toJson .empty

end Decision

/-! ## Configuration -/

namespace CacheConfig

theorem reads (c : CacheConfig) : Reads read c.toJson c := by
  have hfills : Fills (record .json) {} [("enabled", .bool c.enabled),
      ("capacity", .number (.integer c.capacity.toNat))] ⟨some c.enabled, some c.capacity⟩ := by
    refine .cons rfl rfl ((Json.reads_bool c.enabled).map _) ?_
    exact .cons rfl rfl ((Json.reads_word "usize" c.capacity).map _) .nil
  exact hfills.reads.map ofDraft

theorem plain_toJson (c : CacheConfig) : Plain 1 c.toJson :=
  .member .bool <| .member .word .empty

end CacheConfig

namespace AuditConfig

theorem reads (c : AuditConfig) : Reads read c.toJson c := by
  have hfills : Fills (record .json) {} [("queue_capacity", .number (.integer c.queueCapacity.toNat)),
      ("batch_size", .number (.integer c.batchSize.toNat))]
      ⟨some c.queueCapacity, some c.batchSize⟩ := by
    refine .cons rfl rfl ((Json.reads_word "usize" c.queueCapacity).map _) ?_
    exact .cons rfl rfl ((Json.reads_word "usize" c.batchSize).map _) .nil
  exact hfills.reads.map ofDraft

theorem plain_toJson (c : AuditConfig) : Plain 1 c.toJson :=
  .member .word <| .member .word .empty

end AuditConfig

namespace Config

theorem reads (c : Config) : Reads read c.toJson c := by
  have hfills : Fills (record .json CacheConfig.read AuditConfig.read) {}
      [("group_traversal", c.traversal.toJson),
        ("fetch_timeout_ms", .number (.integer c.fetchTimeout.toNat)),
        ("cache", c.cache.toJson), ("audit", c.audit.toJson)]
      ⟨some c.traversal, some c.fetchTimeout, some c.cache, some c.audit⟩ := by
    refine .cons rfl rfl (c.traversal.reads.map _) ?_
    refine .cons rfl rfl ((Json.reads_word "u64" c.fetchTimeout).map _) ?_
    refine .cons rfl rfl (c.cache.reads.map _) ?_
    exact .cons rfl rfl (c.audit.reads.map _) .nil
  exact hfills.reads.map ofDraft

theorem plain_toJson (c : Config) : Plain 2 c.toJson :=
  .member .string <| .member .word <| .member c.cache.plain_toJson <|
    .member c.audit.plain_toJson .empty

end Config

/-! ## All of them -/

/-- Decisions, stored rows, actions, principals and configurations are read back from their texts,
and different ones have different texts. -/
theorem Json.records_faithful :
    Faithful Decision.read Decision.toJson ∧ Faithful StoredPolicy.read StoredPolicy.toJson ∧
      Faithful ResourcePermission.read ResourcePermission.toJson ∧
      Faithful ResourceShare.read ResourceShare.toJson ∧
      Faithful ResourceAction.read ResourceAction.toJson ∧
      Faithful Principal.read Principal.toJson ∧ Faithful Config.read Config.toJson := by
  refine ⟨?_, ?_, ?_, ?_, ?_, ?_, ?_⟩
  · exact faithful_of_reads Decision.plain_toJson (by decide) Decision.reads
  · exact faithful_of_reads StoredPolicy.plain_toJson (by decide) StoredPolicy.reads
  · exact faithful_of_reads ResourcePermission.plain_toJson (by decide) ResourcePermission.reads
  · exact faithful_of_reads ResourceShare.plain_toJson (by decide) ResourceShare.reads
  · exact faithful_of_reads ResourceAction.plain_toJson (by decide) ResourceAction.reads
  · exact faithful_of_reads Principal.plain_toJson (by decide) Principal.reads
  · exact faithful_of_reads Config.plain_toJson (by decide) Config.reads

end TenantAccess
