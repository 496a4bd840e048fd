import TenantAccess.Proofs.Courses
import TenantAccess.Proofs.Errors

/-!
# What a call hands to the audit logger

The records of a call are those of its trail, in order. Grants that come from the cache leave none;
grants that are read leave those of the read. After them come the records of the checks.
-/
namespace TenantAccess

/-! ## Records of a trail -/

def TrailEntry.record? : TrailEntry → Option AuditRecord
  | .record r => some r
  | .notice _ => none

namespace Trail

def records (t : Trail) : List AuditRecord := t.filterMap TrailEntry.record?

@[simp] theorem records_nil : records [] = [] := rfl

@[simp] theorem records_append (t u : Trail) : records (t ++ u) = records t ++ records u :=
  List.filterMap_append

@[simp] theorem records_notice (n : Notice) (t : Trail) :
    records (.notice n :: t) = records t := rfl

@[simp] theorem records_record (r : AuditRecord) (t : Trail) :
    records (.record r :: t) = r :: records t := rfl

@[simp] theorem records_map_notice (ns : List Notice) : records (ns.map .notice) = [] := by
  induction ns with
  | nil => rfl
  | cons n ns ih => exact ih

@[simp] theorem records_map_record (rs : List AuditRecord) : records (rs.map .record) = rs := by
  induction rs with
  | nil => rfl
  | cons r rs ih => simp [ih]

theorem records_flatMap {α : Type} (f : α → Trail) (as : List α) :
    records (as.flatMap f) = as.flatMap fun a => records (f a) := by
  induction as with
  | nil => rfl
  | cons a as ih => simp [ih]

end Trail

/-! ## Records reach the logger -/

namespace AuditLogger

/-- Logs one record after the other. -/
def logAll (l : AuditLogger) (rs : List AuditRecord) : AuditLogger :=
  rs.foldl (fun l r => (l.log r).1) l

theorem logAll_append (l : AuditLogger) (rs rs' : List AuditRecord) :
    l.logAll (rs ++ rs') = (l.logAll rs).logAll rs' := by
  simp [logAll, List.foldl_append]

end AuditLogger

namespace Service

theorem record_audit (v : Service) (r : AuditRecord) :
    (v.record r).audit = v.audit.map fun l => (l.log r).1 := by
  cases h : v.audit <;> simp [record, h, note]

/-- A logger gets the records of a trail in their order. -/
theorem post_audit (v : Service) (t : Trail) :
    (v.post t).audit = v.audit.map fun l => l.logAll (Trail.records t) := by
  induction t generalizing v with
  | nil =>
    have hnone : v.post [] = v := rfl
    simp [hnone, AuditLogger.logAll]
  | cons e t ih =>
    cases e with
    | notice n => exact ih (v.note [n])
    | record r =>
      have hrest := ih (v.record r)
      rw [record_audit, Option.map_map] at hrest
      exact hrest

theorem settle_audit {α : Type} (v : Service) (c : Course) (h : Handled α) :
    (v.settle c h).audit = v.audit.map fun l => l.logAll (Trail.records h.trail) := by
  simp only [settle, foldl_apply_eq, post_audit]

end Service

/-! ## Calls -/

namespace Demand

def checks : Demand → List ResourceAction
  | .single r => [r.target]
  | .batch b => b.checks

def context : Demand → Context
  | .single r => r.context
  | .batch b => b.context

def trail [Pattern.Engine] (a : Authorizer) (c : Circumstances) : Demand → Trail
  | .single r => (a.authorize r c).trail
  | .batch b => (a.authorizeBatch b c).trail

/-- What a call hands to the audit logger. -/
def records [Pattern.Engine] (a : Authorizer) (c : Circumstances) (d : Demand) : List AuditRecord :=
  Trail.records (d.trail a c)

variable {d : Demand} {a : Authorizer} {c : Circumstances} {g : PreparedGrants}

theorem serve_audit [Pattern.Engine] (v : Service) (c : Course) (d : Demand) :
    (d.serve v c).2.audit = v.audit.map fun l =>
      l.logAll (d.records v.authorizer (v.circumstances d.principal c)) := by
  cases d <;> exact v.settle_audit c _

theorem decisions_eq (g : PreparedGrants) (d : Demand) :
    d.decisions g = d.checks.map fun check => g.decide check.action check.resource d.context := by
  cases d <;> rfl

/-- Every check is recorded with the decision on it. -/
def checkRecords (g : PreparedGrants) (d : Demand) : List AuditRecord :=
  d.checks.flatMap fun check =>
    (g.decide check.action check.resource d.context).records d.principal check

theorem records_trail_decision (decision : Decision) (p : Principal) (check : ResourceAction) :
    Trail.records (decision.trail p check) = decision.records p check := by
  simp [Decision.trail]

theorem records_of_grants [Pattern.Engine] (proceeds : d.Proceeds)
    (h : (a.grants d.principal c).result = .ok g) :
    d.records a c = Trail.records (a.grants d.principal c).trail ++ d.checkRecords g := by
  cases d with
  | single r =>
    simp only [principal] at h
    have hvalid : r.validate = .ok () := proceeds
    simp [records, trail, Authorizer.authorize, hvalid, h, checkRecords, checks,
      records_trail_decision, principal, context, AccessRequest.target]
  | batch b =>
    simp only [principal] at h
    obtain ⟨hvalid, hchecks⟩ := proceeds
    simp [records, trail, Authorizer.authorizeBatch, hvalid, hchecks, h, checkRecords, checks,
      Trail.records_flatMap, records_trail_decision, principal, context, List.flatMap_map]

end Demand

/-! ## Grants -/

namespace Authorizer

variable {a : Authorizer} {p : Principal} {c : Circumstances} {g : PreparedGrants}
  {answers : GrantAnswers}

theorem records_remember {generation : Option Nat} :
    Trail.records (a.remember p g generation).2 = [] := by
  simp only [remember]
  split
  · split <;> rfl
  · rfl

variable [Pattern.Engine]

theorem records_grants_of_hit (live : c.cancelled = false) (hit : (a.lookup p).1 = some g) :
    Trail.records (a.grants p c).trail = [] := by
  rw [grants_of_hit live hit]
  rfl

/-- A read is recorded with what was not available, out of scope or malformed. -/
theorem records_grants_of_miss (live : c.cancelled = false) (miss : (a.lookup p).1 = none)
    (answered : c.fetch = .answered answers) :
    Trail.records (a.grants p c).trail =
      (Snapshot.collect p answers).records p ++
        Trail.records (((Snapshot.collect p answers).prepare a.registry).trail p) := by
  have ha := lookup_of_miss miss
  rcases hl : a.lookup p with ⟨found, b⟩
  rw [hl] at miss ha
  subst miss ha
  have hempty : Trail.records (if (Snapshot.collect p answers).isEmpty = true then
      [.notice (.nothingFound p (Snapshot.collect p answers).isComplete)] else []) = [] := by
    split <;> rfl
  simp [grants, live, hl, answered, Snapshot.trail, records_remember, hempty]

end Authorizer

end TenantAccess
