import Mathlib.Data.List.Nodup
import TenantAccess.Proofs.Isolation
import TenantAccess.Proofs.Precedence
import TenantAccess.Proofs.Records

/-!
# What the audit trail tells

A read of the sources is reported once: the sources that failed, the rows that were not the
principal's, the documents and the patterns that did not compile. After the report every check is
recorded with its decision. What is reported took no part in a decision, and what was read and took
no part is reported.
-/
namespace TenantAccess

/-! ## The report of a read -/

section Answers

variable {α : Type}

def rowsOf : Except AccessError (List α) → List α
  | .ok rows => rows
  | .error _ => []

def errorOf? : Except AccessError (List α) → Option AccessError
  | .ok _ => none
  | .error e => some e

end Answers

def StoredPolicy.malformed? [Pattern.Engine] (p : Principal) (registry : Registry)
    (row : StoredPolicy) : Option AuditRecord :=
  match Ruleset.ofText row.document registry with
  | .ok _ => none
  | .error e => some ⟨p, .malformedPolicy row.id (AccessError.invalidPolicy e).message⟩

def ResourcePermission.malformed? [Pattern.Engine] (p : Principal) (row : ResourcePermission) :
    Option AuditRecord :=
  match Pattern.compile row.permission with
  | .ok _ => none
  | .error e => some ⟨p, .malformedPermission row.id (AccessError.invalidPattern e).message⟩

namespace GrantAnswers

variable [Pattern.Engine] (p : Principal) (registry : Registry) (x : GrantAnswers)

/-- Why a source could not be read. -/
def error? : GrantSource → Option AccessError
  | .policies => errorOf? x.policies
  | .resourcePermissions => errorOf? x.permissions
  | .resourceShares => errorOf? x.shares

/-- The number of rows of a source that are not the principal's. -/
def foreign : GrantSource → Nat
  | .policies => (rowsOf x.policies).countP fun row => row.organization ≠ p.organization
  | .resourcePermissions => (rowsOf x.permissions).countP fun row =>
      ¬ (row.organization = p.organization ∧ row.principalId = p.id ∧ row.principalKind = p.kind)
  | .resourceShares => (rowsOf x.shares).countP fun row =>
      ¬ (row.organization = p.organization ∧ row.principalId = p.id ∧ row.principalKind = p.kind)

def unavailable : List AuditRecord :=
  GrantSource.all.filterMap fun source =>
    (x.error? source).map fun e => ⟨p, .sourceUnavailable source e.message⟩

def discarded : List AuditRecord :=
  (GrantSource.all.filter fun source => x.foreign p source ≠ 0).map fun source =>
    ⟨p, .foreignGrantsDiscarded source (x.foreign p source)⟩

def malformedPolicies : List AuditRecord :=
  (Snapshot.collect p x).policies.filterMap (StoredPolicy.malformed? p registry)

def malformedPermissions : List AuditRecord :=
  (Snapshot.collect p x).permissions.filterMap (ResourcePermission.malformed? p)

def report : List AuditRecord :=
  x.unavailable p ++ x.discarded p ++ x.malformedPolicies p registry ++ x.malformedPermissions p

/-- The grants that can take part in a decision. -/
def usable : PreparedGrants := ((Snapshot.collect p x).prepare registry).compiled

end GrantAnswers

/-- Every check is recorded with the decision on it, a denial twice. -/
inductive Recorded (p : Principal) : List (ResourceAction × Decision) → List AuditRecord → Prop
  | nil : Recorded p [] []
  | allowed {check : ResourceAction} {d : Decision} {checked : List (ResourceAction × Decision)}
      {records : List AuditRecord} (allow : d.effect = .allow) (rest : Recorded p checked records) :
      Recorded p ((check, d) :: checked)
        (⟨p, .accessCheck check.action check.resource true d.reason.display⟩ :: records)
  | denied {check : ResourceAction} {d : Decision} {checked : List (ResourceAction × Decision)}
      {records : List AuditRecord} (deny : d.effect = .deny) (rest : Recorded p checked records) :
      Recorded p ((check, d) :: checked)
        (⟨p, .accessCheck check.action check.resource false d.reason.display⟩ ::
          ⟨p, .accessDenied check.action check.resource d.reason.display⟩ :: records)

/-! ## What the trail holds -/

namespace Snapshot

variable {α : Type} {inScope : α → Bool}

theorem failure?_eq (source : GrantSource) (answer : Except AccessError (List α)) :
    failure? source answer = (errorOf? answer).map fun e => ⟨source, e.message⟩ := by
  cases answer <;> rfl

theorem discarded?_eq {own : α → Prop} [DecidablePred own] (h : ∀ a, inScope a = true ↔ own a)
    (source : GrantSource) (answer : Except AccessError (List α)) :
    discarded? source inScope answer =
      if (rowsOf answer).countP (fun a => ¬ own a) = 0 then none
      else some ⟨source, (rowsOf answer).countP fun a => ¬ own a⟩ := by
  have hscope : (fun a => !inScope a) = fun a => decide (¬ own a) := by
    funext a
    cases hs : inScope a with
    | false =>
      have hnot : ¬ own a := fun ho => by simp [(h a).2 ho] at hs
      simp [hnot]
    | true => simp [(h a).1 hs]
  cases answer with
  | error _ => rfl
  | ok rows =>
    rw [discarded?, hscope]
    rfl

theorem filterMap_sources {β : Type} (f : GrantSource → Option β) :
    [f .policies, f .resourcePermissions, f .resourceShares].filterMap id =
      GrantSource.all.filterMap f :=
  List.filterMap_map (l := GrantSource.all) (f := f) (g := id)

/-- The failures are those of the sources that could not be read, in the order of the sources. -/
theorem failures_collect (p : Principal) (x : GrantAnswers) :
    (collect p x).failures = GrantSource.all.filterMap fun source =>
      (x.error? source).map fun e => ⟨source, e.message⟩ := by
  simp only [collect, failure?_eq]
  exact filterMap_sources fun source =>
    (x.error? source).map fun e => (⟨source, e.message⟩ : SourceFailure)

/-- Of every source with rows that are not the principal's their number is noted. -/
theorem discarded_collect (p : Principal) (x : GrantAnswers) :
    (collect p x).discarded = GrantSource.all.filterMap fun source =>
      if x.foreign p source = 0 then none else some ⟨source, x.foreign p source⟩ := by
  simp only [collect, discarded?_eq p.ownsPolicy_iff, discarded?_eq p.ownsPermission_iff,
    discarded?_eq p.ownsShare_iff]
  exact filterMap_sources fun source =>
    if x.foreign p source = 0 then none else some (⟨source, x.foreign p source⟩ : DiscardedRows)

theorem records_collect (p : Principal) (x : GrantAnswers) :
    (collect p x).records p = x.unavailable p ++ x.discarded p := by
  have hfailures : (collect p x).failures.map
      (fun f => (⟨p, .sourceUnavailable f.source f.reason⟩ : AuditRecord)) = x.unavailable p := by
    simp only [failures_collect, List.map_filterMap, Option.map_map, GrantAnswers.unavailable]
    rfl
  have hdiscarded : (collect p x).discarded.map
      (fun d => (⟨p, .foreignGrantsDiscarded d.source d.count⟩ : AuditRecord)) =
        x.discarded p := by
    rw [discarded_collect, List.map_filterMap, GrantAnswers.discarded]
    induction GrantSource.all with
    | nil => rfl
    | cons source sources ih => by_cases hnone : x.foreign p source = 0 <;> simp [hnone, ih]
  rw [records, hfailures, hdiscarded]

end Snapshot

namespace GrantAnswers

variable {p : Principal} {registry : Registry} {x : GrantAnswers}

/-- Rows are either turned into something or left out for a reason. -/
theorem length_filterMap_add_filter {α β : Type} {f : α → Option β} {usable : α → Bool}
    (h : ∀ a, usable a = (f a).isNone) (as : List α) :
    (as.filterMap f).length + (as.filter usable).length = as.length := by
  have husable : (fun a => decide ¬ (f a).isSome = true) = usable := by
    funext a
    cases hf : f a <;> simp [h, hf]
  rw [List.length_filterMap_eq_countP, ← List.countP_eq_length_filter, ← husable,
    ← List.length_eq_countP_add_countP]

/-- The rows of a source are those that are kept and those that are foreign. -/
theorem length_kept {α : Type} {inScope : α → Bool} {own : α → Prop} [DecidablePred own]
    (h : ∀ a, inScope a = true ↔ own a) (answer : Except AccessError (List α)) :
    (Snapshot.kept inScope answer).length + (rowsOf answer).countP (fun a => ¬ own a) =
      (rowsOf answer).length := by
  cases answer with
  | error _ => rfl
  | ok rows =>
    have hscope : (fun a => decide ¬ inScope a = true) = fun a => decide (¬ own a) := by
      funext a
      simp only [h a]
    have hcount := List.length_eq_countP_add_countP inScope (l := rows)
    rw [hscope, List.countP_eq_length_filter] at hcount
    exact hcount.symm

variable [Pattern.Engine]

theorem records_policy (p : Principal) (registry : Registry) (row : StoredPolicy) :
    Trail.records ((row.prepare registry).trail p) = (row.malformed? p registry).toList := by
  cases h : Ruleset.ofText row.document registry <;>
    simp [StoredPolicy.prepare, PreparedPolicy.trail, StoredPolicy.malformed?, h]

theorem records_permission (p : Principal) (row : ResourcePermission) :
    Trail.records (row.prepare.trail p) = (row.malformed? p).toList := by
  cases h : Pattern.compile row.permission <;>
    simp [ResourcePermission.prepare, PreparedPermission.trail, ResourcePermission.malformed?, h]

theorem records_prepare (p : Principal) (registry : Registry) (x : GrantAnswers) :
    Trail.records (((Snapshot.collect p x).prepare registry).trail p) =
      x.malformedPolicies p registry ++ x.malformedPermissions p := by
  simp only [PreparedGrants.trail, Snapshot.prepare, Trail.records_append, Trail.records_flatMap,
    List.flatMap_map, records_policy, records_permission, malformedPolicies, malformedPermissions,
    List.filterMap_eq_flatMap_toList]

/-- What is recorded of a read is its report. -/
theorem records_read (p : Principal) (registry : Registry) (x : GrantAnswers) :
    (Snapshot.collect p x).records p ++
        Trail.records (((Snapshot.collect p x).prepare registry).trail p) =
      x.report p registry := by
  rw [Snapshot.records_collect, records_prepare, report, List.append_assoc (_ ++ _)]

/-! ## Nothing is lost -/

theorem length_usable_policies (x : GrantAnswers) :
    (x.malformedPolicies p registry).length + (x.usable p registry).policies.length =
      (Snapshot.collect p x).policies.length := by
  have h : ∀ row : StoredPolicy,
      (row.prepare registry).rules.isOk = (row.malformed? p registry).isNone := by
    intro row
    cases hr : Ruleset.ofText row.document registry <;>
      simp [StoredPolicy.prepare, StoredPolicy.malformed?, hr, Except.isOk, Except.toBool]
  have hlength := length_filterMap_add_filter h (Snapshot.collect p x).policies
  simp only [usable, PreparedGrants.compiled, Snapshot.prepare, List.filter_map, List.length_map]
  exact hlength

theorem length_usable_permissions (x : GrantAnswers) :
    (x.malformedPermissions p).length + (x.usable p registry).permissions.length =
      (Snapshot.collect p x).permissions.length := by
  have h : ∀ row : ResourcePermission, row.prepare.pattern.isOk = (row.malformed? p).isNone := by
    intro row
    cases hr : Pattern.compile row.permission <;>
      simp [ResourcePermission.prepare, ResourcePermission.malformed?, hr, Except.isOk,
        Except.toBool]
  have hlength := length_filterMap_add_filter h (Snapshot.collect p x).permissions
  simp only [usable, PreparedGrants.compiled, Snapshot.prepare, List.filter_map, List.length_map]
  exact hlength

theorem mem_malformedPolicies_of_report {id reason : String}
    (h : ⟨p, .malformedPolicy id reason⟩ ∈ x.report p registry) :
    ∃ row ∈ (Snapshot.collect p x).policies, row.id = id ∧
      (Ruleset.ofText row.document registry).isOk = false := by
  rcases List.mem_append.1 h with h | hpermission
  · rcases List.mem_append.1 h with hsource | hpolicy
    · simp [unavailable, discarded] at hsource
    · obtain ⟨row, hrow, hrecord⟩ := List.mem_filterMap.1 hpolicy
      refine ⟨row, hrow, ?_⟩
      cases hr : Ruleset.ofText row.document registry with
      | ok _ => simp [StoredPolicy.malformed?, hr] at hrecord
      | error e =>
        simp only [StoredPolicy.malformed?, hr, Option.some.injEq, AuditRecord.mk.injEq,
          AuditEvent.malformedPolicy.injEq] at hrecord
        exact ⟨hrecord.2.1, rfl⟩
  · obtain ⟨row, -, hrecord⟩ := List.mem_filterMap.1 hpermission
    cases hr : Pattern.compile row.permission <;>
      simp [ResourcePermission.malformed?, hr] at hrecord

/-- Kept policies differ in their ids, so no id of a usable one is reported. -/
theorem policy_unreported {policy : PreparedPolicy}
    (used : policy ∈ (x.usable p registry).policies) (reason : String) :
    ⟨p, .malformedPolicy policy.id reason⟩ ∉ x.report p registry := by
  have hids : ((Snapshot.collect p x).policies.map StoredPolicy.id).Nodup :=
    List.pairwise_map.2 (pairwise_distinctBy StoredPolicy.id [] _)
  simp only [usable, PreparedGrants.compiled, Snapshot.prepare, List.mem_filter, List.mem_map]
    at used
  obtain ⟨⟨row, hrow, rfl⟩, hcompiled⟩ := used
  intro hreported
  obtain ⟨other, hother, hid, hbroken⟩ := mem_malformedPolicies_of_report hreported
  have hsame : other = row := List.inj_on_of_nodup_map hids hother hrow hid
  subst hsame
  have hrules : (other.prepare registry).rules = Ruleset.ofText other.document registry := rfl
  rw [hrules, hbroken] at hcompiled
  cases hcompiled

theorem permission_unreported {permission : PreparedPermission}
    (used : permission ∈ (x.usable p registry).permissions) :
    permission.row.malformed? p = none := by
  simp only [usable, PreparedGrants.compiled, Snapshot.prepare, List.mem_filter, List.mem_map]
    at used
  obtain ⟨⟨row, -, rfl⟩, hcompiled⟩ := used
  cases hr : Pattern.compile row.permission with
  | ok _ => simp [ResourcePermission.prepare, ResourcePermission.malformed?, hr]
  | error e => simp [ResourcePermission.prepare, hr, Except.isOk, Except.toBool] at hcompiled

variable (p registry x) in
/-- Every row that was read is the principal's own or counted as foreign. Own rows take part in
decisions or are reported, and those that take part are not reported. -/
structure Accounted : Prop where
  policies : (x.malformedPolicies p registry).length + (x.usable p registry).policies.length =
    (Snapshot.collect p x).policies.length
  permissions : (x.malformedPermissions p).length + (x.usable p registry).permissions.length +
    x.foreign p .resourcePermissions = (rowsOf x.permissions).length
  shares : (x.usable p registry).shares.length + x.foreign p .resourceShares =
    (rowsOf x.shares).length
  policy_unreported : ∀ policy ∈ (x.usable p registry).policies, ∀ reason,
    ⟨p, .malformedPolicy policy.id reason⟩ ∉ x.report p registry
  permission_unreported : ∀ permission ∈ (x.usable p registry).permissions,
    permission.row.malformed? p = none

theorem accounted (p : Principal) (registry : Registry) (x : GrantAnswers) :
    x.Accounted p registry where
  policies := x.length_usable_policies
  permissions := by
    have hpermissions : (x.malformedPermissions p).length +
        (x.usable p registry).permissions.length = (Snapshot.collect p x).permissions.length :=
      x.length_usable_permissions
    have hkept := length_kept p.ownsPermission_iff x.permissions
    simp only [Snapshot.collect] at hpermissions
    simp only [foreign]
    omega
  shares := length_kept p.ownsShare_iff x.shares
  policy_unreported := fun _ used => policy_unreported used
  permission_unreported := fun _ used => permission_unreported used

end GrantAnswers

/-! ## The records of the checks -/

namespace Recorded

variable {p : Principal} {checked : List (ResourceAction × Decision)} {records : List AuditRecord}

theorem decision (d : Decision) (check : ResourceAction) (rest : Recorded p checked records) :
    Recorded p ((check, d) :: checked) (d.records p check ++ records) := by
  cases he : d.effect with
  | allow =>
    have hrecords : d.records p check =
        [⟨p, .accessCheck check.action check.resource true d.reason.display⟩] := by
      simp [Decision.records, Decision.isAllowed, Decision.isDenied, he]
    rw [hrecords]
    exact .allowed he rest
  | deny =>
    have hrecords : d.records p check =
        [⟨p, .accessCheck check.action check.resource false d.reason.display⟩,
          ⟨p, .accessDenied check.action check.resource d.reason.display⟩] := by
      simp [Decision.records, Decision.isAllowed, Decision.isDenied, he]
    rw [hrecords]
    exact .denied he rest

theorem decisions (p : Principal) (decide : ResourceAction → Decision)
    (checks : List ResourceAction) :
    Recorded p (checks.zip (checks.map decide))
      (checks.flatMap fun check => (decide check).records p check) := by
  induction checks with
  | nil => exact .nil
  | cons check checks ih => exact ih.decision (decide check) check

end Recorded

/-! ## Calls that answer -/

namespace Demand

variable {d : Demand} {a : Authorizer} {c : Circumstances} {ds : List Decision}

theorem recorded_checkRecords (g : PreparedGrants) (d : Demand) :
    Recorded d.principal (d.checks.zip (d.decisions g)) (d.checkRecords g) := by
  rw [decisions_eq]
  exact Recorded.decisions d.principal _ d.checks

theorem checks_ne_nil_of_proceeds (proceeds : d.Proceeds) : d.checks ≠ [] := by
  cases d with
  | single r => exact List.cons_ne_nil _ _
  | batch b =>
    intro hchecks
    have hempty : b.checks.isEmpty = true := List.isEmpty_iff.2 hchecks
    rw [proceeds.2] at hempty
    cases hempty

variable [Pattern.Engine]

/-- A call that answers gets as far as the cache, or it has nothing to check. -/
theorem proceeds_or_of_answer (answered : d.answer a c = .ok ds) :
    d.Proceeds ∨ d.checks = [] ∧ ds = [] ∧ d.records a c = [] := by
  cases d with
  | single r =>
    left
    cases hvalid : r.validate with
    | ok => exact hvalid
    | error e =>
      simp only [answer, Authorizer.authorize, hvalid] at answered
      cases answered
  | batch b =>
    cases hvalid : b.validate with
    | error e =>
      simp only [answer, Authorizer.authorizeBatch, hvalid] at answered
      cases answered
    | ok =>
      cases hchecks : b.checks.isEmpty with
      | false => exact .inl ⟨hvalid, hchecks⟩
      | true =>
        simp only [answer, Authorizer.authorizeBatch, hvalid, hchecks, if_true] at answered
        cases answered
        have hrecords : (Demand.batch b).records a c = [] := by
          simp [records, trail, Authorizer.authorizeBatch, hvalid, hchecks]
        exact .inr ⟨List.isEmpty_iff.1 hchecks, rfl, hrecords⟩

theorem exists_grants_of_answer (proceeds : d.Proceeds) (answered : d.answer a c = .ok ds) :
    ∃ g, (a.grants d.principal c).result = .ok g ∧ ds = d.decisions g := by
  cases hgrants : (a.grants d.principal c).result with
  | ok g =>
    have hanswer := answer_of_grants proceeds hgrants
    rw [answered] at hanswer
    cases hanswer
    exact ⟨g, rfl, rfl⟩
  | error e =>
    cases d with
    | single r =>
      simp only [principal] at hgrants
      rw [answer, Authorizer.authorize_of_valid proceeds, hgrants] at answered
      cases answered
    | batch b =>
      obtain ⟨hvalid, hchecks⟩ := proceeds
      simp only [principal] at hgrants
      simp [answer, Authorizer.authorizeBatch, hvalid, hchecks, hgrants] at answered

/-- Grants that a call comes to are those of the cache or those of a read. -/
theorem records_grants_or {g : PreparedGrants}
    (h : (a.grants d.principal c).result = .ok g) :
    ((a.lookup d.principal).1 = some g ∧
        Trail.records (a.grants d.principal c).trail = []) ∨
      (a.lookup d.principal).1 = none ∧ ∃ x, c.fetch = .answered x ∧
        g = (Snapshot.collect d.principal x).prepare a.registry ∧
        Trail.records (a.grants d.principal c).trail = x.report d.principal a.registry := by
  cases hlive : c.cancelled with
  | true =>
    rw [Authorizer.grants_of_cancelled hlive] at h
    cases h
  | false =>
    cases hfound : (a.lookup d.principal).1 with
    | some found =>
      have hg := h
      rw [Authorizer.grants_of_hit hlive hfound] at hg
      cases hg
      exact .inl ⟨rfl, Authorizer.records_grants_of_hit hlive hfound⟩
    | none =>
      cases hfetch : c.fetch with
      | cancelled =>
        rw [Authorizer.grants_of_cancelledFetch hlive hfound hfetch] at h
        cases h
      | answered x =>
        rw [Authorizer.grants_of_miss hlive hfound hfetch] at h
        cases h
        have hread := Authorizer.records_grants_of_miss hlive hfound hfetch
        rw [GrantAnswers.records_read] at hread
        exact .inr ⟨rfl, x, rfl, rfl, hread⟩

theorem logged_of_records {records : List AuditRecord} (v : Service)
    (h : d.records a c = records) :
    (v.post (d.trail a c)).audit = v.audit.map fun l => l.logAll records := by
  rw [v.post_audit, ← h, Demand.records]

theorem served_of_records {records : List AuditRecord} (v : Service) (course : Course)
    (h : d.records v.authorizer (v.circumstances d.principal course) = records) :
    (d.serve v course).2.audit = v.audit.map fun l => l.logAll records := by
  rw [serve_audit, h]

/-- What a call that answers hands to the audit logger, whatever its sources answered: the report of
the read, unless there was nothing to check or the cache had the grants, and then every check with
the decision on it. The decisions come from the grants that the report leaves. -/
theorem records_of_answer (answered : d.answer a c = .ok ds) :
    ∃ report checks, d.records a c = report ++ checks ∧
      ds.length = d.checks.length ∧ Recorded d.principal (d.checks.zip ds) checks ∧
      (d.checks = [] ∨ (∃ g, (a.lookup d.principal).1 = some g) → report = []) ∧
      (d.checks ≠ [] → (a.lookup d.principal).1 = none → ∃ x, c.fetch = .answered x ∧
        report = x.report d.principal a.registry ∧
        ds = d.decisions (x.usable d.principal a.registry) ∧
        x.Accounted d.principal a.registry) ∧
      (∀ v : Service, (v.post (d.trail a c)).audit =
        v.audit.map fun l => l.logAll (report ++ checks)) ∧
      ∀ (v : Service) (course : Course), v.authorizer = a →
        v.circumstances d.principal course = c →
          (d.serve v course).2.audit = v.audit.map fun l => l.logAll (report ++ checks) := by
  rcases proceeds_or_of_answer answered with hproceeds | ⟨hchecks, rfl, hrecords⟩
  · obtain ⟨g, hgrants, rfl⟩ := exists_grants_of_answer hproceeds answered
    have hrecords := records_of_grants hproceeds hgrants
    have hlength : (d.decisions g).length = d.checks.length := by
      rw [decisions_eq, List.length_map]
    refine ⟨_, _, hrecords, hlength, d.recorded_checkRecords g, ?_, ?_, ?_, ?_⟩
    · rintro (hnone | ⟨found, hit⟩)
      · exact absurd hnone (checks_ne_nil_of_proceeds hproceeds)
      · rcases records_grants_or hgrants with ⟨-, hread⟩ | ⟨miss, -⟩
        · exact hread
        · rw [hit] at miss
          cases miss
    · intro _ miss
      rcases records_grants_or hgrants with ⟨hit, -⟩ | ⟨-, x, hfetch, rfl, hread⟩
      · rw [hit] at miss
        cases miss
      · refine ⟨x, hfetch, hread, ?_, x.accounted d.principal a.registry⟩
        simp only [decisions_eq, GrantAnswers.usable, PreparedGrants.decide_compiled]
    · exact fun v => logged_of_records v hrecords
    · rintro v course rfl rfl
      exact served_of_records v course hrecords
  · refine ⟨[], [], hrecords, by rw [hchecks]; rfl, by rw [hchecks]; exact .nil, fun _ => rfl,
      fun hsome => absurd hchecks hsome, fun v => logged_of_records v hrecords, ?_⟩
    rintro v course rfl rfl
    exact served_of_records v course hrecords

end Demand

namespace Mixed

def clerk : Principal := ⟨"acme", .user, "carl"⟩

/-- A row of another organization, a pattern that does not compile and a source that is down. -/
def answers : GrantAnswers where
  policies := .ok [⟨"reading", "rival", "{}"⟩]
  permissions := .ok [.ofPrincipal "granted" clerk "docs/1" "docs:read" .allow,
    .ofPrincipal "broken" clerk "docs/2" "" .allow]
  shares := .error (.unavailable .resourceShares "down")

def demand : Demand := .batch ⟨clerk, [⟨"docs:read", "docs/1"⟩, ⟨"docs:read", "docs/2"⟩], {}⟩

def report : List AuditRecord := [
  ⟨clerk, .sourceUnavailable .resourceShares "Grant source unavailable: resource_shares: down"⟩,
  ⟨clerk, .foreignGrantsDiscarded .policies 1⟩,
  ⟨clerk, .malformedPermission "broken" "Invalid pattern \"\": pattern cannot be empty"⟩]

end Mixed

theorem Demand.records_of_mixed :
    ∃ checks, Mixed.demand.records { registry := .builtin } { fetch := .answered Mixed.answers } =
        Mixed.report ++ checks ∧
      Recorded Mixed.clerk
        [(⟨"docs:read", "docs/1"⟩, .allow (.resourcePermissionAllow "granted")),
          (⟨"docs:read", "docs/2"⟩, .defaultDeny)] checks := by
  have hanswer : Mixed.demand.answer { registry := .builtin } { fetch := .answered Mixed.answers } =
      .ok [.allow (.resourcePermissionAllow "granted"), .defaultDeny] := rfl
  obtain ⟨report, checks, hrecords, -, hrecorded, -, hread, -⟩ := records_of_answer hanswer
  obtain ⟨x, hfetch, hreport, -⟩ := hread (List.cons_ne_nil _ _) rfl
  cases hfetch
  have hmixed : report = Mixed.report := hreport.trans rfl
  subst hmixed
  exact ⟨checks, hrecords, hrecorded⟩

end TenantAccess
