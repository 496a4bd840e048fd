import TenantAccess.Proofs.AuditTrail
import TenantAccess.Proofs.Transparency

/-!
# Sources fail one by one

A source that refuses to answer, or that takes longer than it is given, is the only one whose rows
are missing. The call decides as it does over a store that has no rows there and answers at once.
What such a call has read is not kept, so the next call sees a source that is back.
-/
namespace TenantAccess

/-! ## Outages -/

namespace Sources

variable (s : Sources) (later : Nat → Sources) (timeout : Nat) (p : Principal)
  (traversal : GroupTraversal) (source : GrantSource)

/-- Why a source is not there for a read that gives it so many milliseconds. -/
def outage? : Option String :=
  match s.fault? source with
  | none => none
  | some (.fail reason) => some reason
  | some (.delay time) =>
    if timeout < time then some ("timed out after " ++ durationText timeout) else none

/-- When a source reads its rows, if it does. -/
def delay : Nat :=
  match s.fault? source with
  | some (.delay time) => time
  | _ => 0

theorem answer_of_available (h : s.outage? timeout source = none) :
    s.answer later timeout p traversal source =
      .ok ((later (s.delay source)).rows p traversal) := by
  cases hf : s.fault? source with
  | none => simp [answer, arrival, delay, hf]
  | some f =>
    cases f with
    | fail reason => simp [outage?, hf] at h
    | delay time =>
      have hle : time ≤ timeout := by simpa [outage?, hf] using h
      simp [answer, arrival, delay, hf, hle]

theorem answer_of_outage {reason : String} (h : s.outage? timeout source = some reason) :
    s.answer later timeout p traversal source = .error (.unavailable source reason) := by
  cases hf : s.fault? source with
  | none => simp [outage?, hf] at h
  | some f =>
    cases f with
    | fail reason' =>
      have hreason : reason' = reason := by simpa [outage?, hf] using h
      simp [answer, arrival, hf, hreason]
    | delay time =>
      simp only [outage?, hf, Option.ite_none_right_eq_some, Option.some.injEq] at h
      obtain ⟨hlt, rfl⟩ := h
      simp [answer, arrival, hf, Nat.not_le.2 hlt]

theorem outage?_of_faultless (h : s.fault? source = none) : s.outage? timeout source = none := by
  simp [outage?, h]

end Sources

namespace Service

variable (v : Service) (c : Course) (p : Principal)

def outage? (source : GrantSource) : Option String :=
  v.sources.outage? v.authorizer.fetchTimeout source

/-- The rows that a source has for a call when it reads, none if it is not there. -/
def survivingRows (source : GrantSource) : GrantRows :=
  match v.outage? source with
  | none => (v.sourcesAt c (v.sources.delay source)).rows p v.authorizer.traversal
  | some _ => {}

/-- A store that answers at once, and without rows where a source is not there. -/
def surviving : Backend := fun source => ⟨some 0, .ok (v.survivingRows c p source)⟩

/-- The grants that a call decides on over such a store. -/
def survivors [Pattern.Engine] : PreparedGrants :=
  (Snapshot.collect p (.ofSources fun source => .ok (v.survivingRows c p source))).prepare
    v.authorizer.registry

/-- What the sources answer to a call. -/
def answer : GrantSource → Except AccessError GrantRows :=
  v.sources.answer (v.sourcesAt c) v.authorizer.fetchTimeout p v.authorizer.traversal

def read : GrantAnswers := .ofSources (v.answer c p)

def snapshot : Snapshot := .collect p (v.read c p)

/-- What is recorded of the sources that are not there. -/
def outages : List AuditRecord :=
  GrantSource.all.filterMap fun source => (v.outage? source).map fun reason =>
    ⟨p, .sourceUnavailable source (AccessError.unavailable source reason).message⟩

variable {v c p} {source : GrantSource} {r : AccessRequest}

/-! ## The rows that are left -/

theorem answer_of_available (h : v.outage? source = none) :
    v.answer c p source = .ok (v.survivingRows c p source) := by
  simp only [answer, survivingRows, Sources.answer_of_available _ _ _ _ _ _ h, h]

theorem answer_of_outage {reason : String} (h : v.outage? source = some reason) :
    v.answer c p source = .error (.unavailable source reason) :=
  Sources.answer_of_outage _ _ _ _ _ _ h

theorem yielded_surviving (timeout : Nat) :
    (v.surviving c p).yielded timeout = fun source => .ok (v.survivingRows c p source) := by
  funext source
  simp [Backend.yielded, surviving]

theorem fetchTime_surviving (timeout : Nat) : (v.surviving c p).fetchTime timeout = 0 := by
  have hdone : (v.surviving c p).doneAt timeout = fun _ => 0 := by
    funext source
    simp [Backend.doneAt, surviving]
  simp [Backend.fetchTime, hdone, GrantSource.all]

/-- A source that is not there counts as one without rows. -/
theorem kept_answer {α : Type} (inScope : α → Bool) (rows : GrantRows → List α)
    (empty : rows {} = []) (source : GrantSource) :
    Snapshot.kept inScope ((v.answer c p source).map rows) =
      (rows (v.survivingRows c p source)).filter inScope := by
  cases h : v.outage? source with
  | none =>
    rw [answer_of_available h]
    rfl
  | some reason =>
    rw [answer_of_outage h]
    simp only [survivingRows, h, empty]
    rfl

theorem decide_read [Pattern.Engine] (action resource : String) (context : Context) :
    ((v.snapshot c p).prepare v.authorizer.registry).decide action resource context =
      (v.survivors c p).decide action resource context := by
  have hpolicies := kept_answer (v := v) (c := c) (p := p) p.ownsPolicy GrantRows.policies rfl
    .policies
  have hpermissions := kept_answer (v := v) (c := c) (p := p) p.ownsPermission
    GrantRows.permissions rfl .resourcePermissions
  have hshares := kept_answer (v := v) (c := c) (p := p) p.ownsShare GrantRows.shares rfl
    .resourceShares
  apply PreparedGrants.decide_congr
  · exact congrArg (fun rows => (distinctBy StoredPolicy.id [] rows).map
      (StoredPolicy.prepare v.authorizer.registry)) hpolicies
  · exact congrArg (List.map ResourcePermission.prepare) hpermissions
  · exact hshares

/-- Nothing is missing when every source is there. -/
theorem snapshot_of_available [Pattern.Engine] (available : ∀ source, v.outage? source = none) :
    (v.snapshot c p).prepare v.authorizer.registry = v.survivors c p := by
  have hanswer : v.answer c p = fun source => .ok (v.survivingRows c p source) :=
    funext fun source => answer_of_available (available source)
  rw [snapshot, read, hanswer, survivors]

theorem errorOf?_answer {α : Type} (rows : GrantRows → List α) (source : GrantSource) :
    errorOf? ((v.answer c p source).map rows) =
      (v.outage? source).map (AccessError.unavailable source) := by
  cases h : v.outage? source with
  | none =>
    rw [answer_of_available h]
    rfl
  | some reason =>
    rw [answer_of_outage h]
    rfl

theorem error?_read (source : GrantSource) :
    (v.read c p).error? source = (v.outage? source).map (AccessError.unavailable source) := by
  cases source <;> exact errorOf?_answer _ _

theorem failures_snapshot :
    (v.snapshot c p).failures = GrantSource.all.filterMap fun source =>
      (v.outage? source).map fun reason =>
        ⟨source, (AccessError.unavailable source reason).message⟩ := by
  simp only [snapshot, Snapshot.failures_collect, error?_read, Option.map_map]
  rfl

theorem isComplete_snapshot [Pattern.Engine] :
    ((v.snapshot c p).prepare v.authorizer.registry).isComplete = true ↔
      ∀ source, v.outage? source = none := by
  have hfailures : ((v.snapshot c p).prepare v.authorizer.registry).failures =
      (v.snapshot c p).failures := rfl
  rw [PreparedGrants.isComplete, hfailures, failures_snapshot, List.isEmpty_iff,
    List.filterMap_eq_nil_iff]
  constructor
  · intro h source
    exact Option.map_eq_none_iff.1 (h source source.mem_all)
  · intro h source _
    rw [h source]
    rfl

end Service

/-! ## What one source does to a snapshot -/

namespace Snapshot

variable {p : Principal} {source : GrantSource}

/-- What a snapshot holds of one source. -/
def ofSource (s : Snapshot) (source : GrantSource) : Snapshot where
  policies := if source = .policies then s.policies else []
  permissions := if source = .resourcePermissions then s.permissions else []
  shares := if source = .resourceShares then s.shares else []
  failures := s.failures.filter fun f => f.source = source
  discarded := s.discarded.filter fun d => d.source = source

/-- Each source tells of itself only. -/
theorem filter_of_source {α : Type} (sourceOf : α → GrantSource) (x y z : Option α)
    (hx : ∀ a, x = some a → sourceOf a = .policies)
    (hy : ∀ a, y = some a → sourceOf a = .resourcePermissions)
    (hz : ∀ a, z = some a → sourceOf a = .resourceShares) (source : GrantSource) :
    ([x, y, z].filterMap id).filter (fun a => sourceOf a = source) =
      (match source with
      | .policies => x
      | .resourcePermissions => y
      | .resourceShares => z).toList := by
  cases x <;> cases y <;> cases z <;> cases source <;> simp_all

theorem source_of_failure? {α : Type} {source : GrantSource} {answer : Except AccessError (List α)}
    {f : SourceFailure} (h : failure? source answer = some f) : f.source = source := by
  cases answer with
  | ok rows => cases h
  | error e =>
    cases h
    rfl

theorem source_of_discarded? {α : Type} {inScope : α → Bool} {source : GrantSource}
    {answer : Except AccessError (List α)} {d : DiscardedRows}
    (h : discarded? source inScope answer = some d) : d.source = source := by
  cases answer with
  | error e => cases h
  | ok rows =>
    simp only [discarded?, Option.ite_none_left_eq_some, Option.some.injEq] at h
    rw [← h.2]

/-- What a snapshot holds of a source depends on the answer of that source alone. -/
theorem ofSource_congr {x y : GrantSource → Except AccessError GrantRows}
    (same : x source = y source) :
    (collect p (.ofSources x)).ofSource source = (collect p (.ofSources y)).ofSource source := by
  have hfailures (x : GrantAnswers) := filter_of_source SourceFailure.source
    (failure? .policies x.policies) (failure? .resourcePermissions x.permissions)
    (failure? .resourceShares x.shares) (fun _ => source_of_failure?)
    (fun _ => source_of_failure?) (fun _ => source_of_failure?) source
  have hdiscarded (x : GrantAnswers) := filter_of_source DiscardedRows.source
    (discarded? .policies p.ownsPolicy x.policies)
    (discarded? .resourcePermissions p.ownsPermission x.permissions)
    (discarded? .resourceShares p.ownsShare x.shares) (fun _ => source_of_discarded?)
    (fun _ => source_of_discarded?) (fun _ => source_of_discarded?) source
  simp only [ofSource, collect, hfailures, hdiscarded]
  cases source <;> simp [GrantAnswers.ofSources, same]

end Snapshot

namespace Service

variable {v : Service} {c : Course} {p : Principal} {r : AccessRequest}

/-- The same service with other faults. -/
def withFaults (v : Service) (faults : Table GrantSource Fault) : Service :=
  { v with sources := { v.sources with faults } }

/-- Rows do not depend on faults, and no change makes them. -/
theorem rows_foldl_change {s t : Sources} (store : s.store = t.store) (fixed : s.fixed = t.fixed)
    (changes : List SourceChange) (traversal : GroupTraversal) :
    (changes.foldl Sources.change s).rows p traversal =
      (changes.foldl Sources.change t).rows p traversal := by
  induction changes generalizing s t with
  | nil => simp only [List.foldl_nil, Sources.rows, store, fixed]
  | cons change changes ih =>
    cases change with
    | store change => exact ih (congrArg (Store.change · change) store) fixed
    | fault source f => exact ih store fixed
    | clearFaults => exact ih store fixed

theorem answer_withFaults {faults : Table GrantSource Fault} {source : GrantSource}
    (same : faults.get? source = v.sources.faults.get? source) :
    (v.withFaults faults).answer c p source = v.answer c p source := by
  have hfault : (v.withFaults faults).sources.fault? source = v.sources.fault? source := by
    simp only [Sources.fault?, withFaults, same]
  have hrows (time : Nat) : ((v.withFaults faults).sourcesAt c time).rows p
      v.authorizer.traversal = (v.sourcesAt c time).rows p v.authorizer.traversal :=
    rows_foldl_change (s := (v.withFaults faults).sources) (t := v.sources) rfl rfl _ _
  have hauthorizer : (v.withFaults faults).authorizer = v.authorizer := rfl
  simp only [answer, hauthorizer, Sources.answer, Sources.arrival, hfault, hrows]

/-- What a call gets from a source is the same whatever happens to the other sources. -/
theorem ofSource_withFaults {faults : Table GrantSource Fault} {source : GrantSource}
    (same : faults.get? source = v.sources.faults.get? source) :
    ((v.withFaults faults).snapshot c p).ofSource source = (v.snapshot c p).ofSource source :=
  Snapshot.ofSource_congr (answer_withFaults same)

end Service

/-! ## What is recorded of outages -/

namespace AuditRecord

/-- The record tells of a source that was not there. -/
def isOutage (r : AuditRecord) : Bool :=
  match r.event with
  | .sourceUnavailable .. => true
  | _ => false

end AuditRecord

namespace GrantAnswers

variable {p : Principal} {registry : Registry} {x : GrantAnswers}

theorem isOutage_of_unavailable {record : AuditRecord} (h : record ∈ x.unavailable p) :
    record.isOutage = true := by
  obtain ⟨source, -, hrecord⟩ := List.mem_filterMap.1 h
  obtain ⟨e, -, rfl⟩ := Option.map_eq_some_iff.1 hrecord
  rfl

theorem not_isOutage_of_discarded {record : AuditRecord} (h : record ∈ x.discarded p) :
    record.isOutage = false := by
  obtain ⟨source, -, rfl⟩ := List.mem_map.1 h
  rfl

variable [Pattern.Engine]

theorem not_isOutage_of_malformedPolicies {record : AuditRecord}
    (h : record ∈ x.malformedPolicies p registry) : record.isOutage = false := by
  obtain ⟨row, -, hrecord⟩ := List.mem_filterMap.1 h
  cases hr : Ruleset.ofText row.document registry with
  | ok rules => simp [StoredPolicy.malformed?, hr] at hrecord
  | error e =>
    simp only [StoredPolicy.malformed?, hr, Option.some.injEq] at hrecord
    rw [← hrecord]
    rfl

theorem not_isOutage_of_malformedPermissions {record : AuditRecord}
    (h : record ∈ x.malformedPermissions p) : record.isOutage = false := by
  obtain ⟨row, -, hrecord⟩ := List.mem_filterMap.1 h
  cases hr : Pattern.compile row.permission with
  | ok pattern => simp [ResourcePermission.malformed?, hr] at hrecord
  | error e =>
    simp only [ResourcePermission.malformed?, hr, Option.some.injEq] at hrecord
    rw [← hrecord]
    rfl

/-- The outages in a report are those with which it begins. -/
theorem filter_isOutage_report :
    (x.report p registry).filter AuditRecord.isOutage = x.unavailable p := by
  have hunavailable : (x.unavailable p).filter AuditRecord.isOutage = x.unavailable p :=
    List.filter_eq_self.2 fun _ => isOutage_of_unavailable
  have hdiscarded : (x.discarded p).filter AuditRecord.isOutage = [] :=
    List.filter_eq_nil_iff.2 fun _ h => by simp [not_isOutage_of_discarded h]
  have hpolicies : (x.malformedPolicies p registry).filter AuditRecord.isOutage = [] :=
    List.filter_eq_nil_iff.2 fun _ h => by simp [not_isOutage_of_malformedPolicies h]
  have hpermissions : (x.malformedPermissions p).filter AuditRecord.isOutage = [] :=
    List.filter_eq_nil_iff.2 fun _ h => by simp [not_isOutage_of_malformedPermissions h]
  simp only [report, List.filter_append, hunavailable, hdiscarded, hpolicies, hpermissions,
    List.append_nil]

end GrantAnswers

theorem Demand.filter_isOutage_checkRecords (g : PreparedGrants) (d : Demand) :
    (d.checkRecords g).filter AuditRecord.isOutage = [] := by
  refine List.filter_eq_nil_iff.2 fun record hrecord => ?_
  obtain ⟨check, -, hmem⟩ := List.mem_flatMap.1 hrecord
  simp only [Decision.records, List.mem_cons] at hmem
  rcases hmem with rfl | hdenied
  · simp [AuditRecord.isOutage]
  · split at hdenied
    · rw [List.mem_singleton.1 hdenied]
      simp [AuditRecord.isOutage]
    · cases hdenied

/-! ## A call while sources are not there -/

namespace Service

variable {v : Service} {c : Course} {p : Principal} {r : AccessRequest}

/-- The request is accepted, and the call is not cancelled before its sources have answered. -/
structure Completes (v : Service) (r : AccessRequest) (c : Course) : Prop where
  valid : r.validate = .ok ()
  live : c.cancelled = false
  inTime : ∀ t, c.cancelAt = some t → v.fetchTime ≤ t

/-- The authorizer when the sources of a call have answered. -/
def kept [Pattern.Engine] (v : Service) (r : AccessRequest) (c : Course) : Authorizer :=
  (v.authorizer.authorize r (v.circumstances r.principal c)).authorizer

/-- What a call hands to the audit logger. -/
def recordsOf [Pattern.Engine] (v : Service) (r : AccessRequest) (c : Course) : List AuditRecord :=
  (Demand.single r).records v.authorizer (v.circumstances r.principal c)

theorem unavailable_read : (v.read c p).unavailable p = v.outages p := by
  simp only [GrantAnswers.unavailable, outages, error?_read, Option.map_map]
  rfl

theorem Completes.fetch_eq (h : v.Completes r c) : v.fetch p c = .answered (v.read c p) := by
  have hnot : c.cancelAt.any (· < v.fetchTime) = false := by
    cases hc : c.cancelAt with
    | none => rfl
    | some t => simpa using h.inTime t hc
  rw [fetch, if_neg (by simp [hnot])]
  rfl

variable [Pattern.Engine]

/-- Over a store without the rows of the sources that are not there, the call decides the same. -/
theorem authorizeOver_surviving (h : v.Completes r c)
    (miss : (v.authorizer.lookup r.principal).1 = none) :
    (v.authorizeOver (v.surviving c r.principal) r c).1 =
      .ok ((v.survivors c r.principal).decide r.action r.resource r.context) := by
  have hanswered : ∀ t, c.cancelAt = some t →
      (v.surviving c r.principal).fetchTime v.authorizer.fetchTimeout ≤ t := by
    intro t _
    rw [fetchTime_surviving]
    exact Nat.zero_le t
  refine authorizeOver_eq_iff.2 ?_
  have houtcome := Outcome.fetched (AccessRequest.validate_eq_ok_iff.1 h.valid) h.live miss
    hanswered
  rw [yielded_surviving] at houtcome
  exact houtcome

section Miss

variable (h : v.Completes r c) (miss : (v.authorizer.lookup r.principal).1 = none)

include h miss

theorem authorize_of_miss :
    (v.authorize r c).1 =
      .ok ((v.survivors c r.principal).decide r.action r.resource r.context) := by
  have hgrants := Authorizer.grants_of_miss (c := v.circumstances r.principal c) h.live miss
    h.fetch_eq
  rw [← decide_read]
  simp only [authorize, Authorizer.authorize_of_valid h.valid, hgrants]
  rfl

theorem filter_isOutage_records :
    (v.recordsOf r c).filter AuditRecord.isOutage = v.outages r.principal := by
  have hgrants := Authorizer.grants_of_miss (c := v.circumstances r.principal c) h.live miss
    h.fetch_eq
  have hread := Authorizer.records_grants_of_miss (c := v.circumstances r.principal c) h.live
    miss h.fetch_eq
  rw [GrantAnswers.records_read] at hread
  rw [recordsOf, Demand.records_of_grants (d := .single r) h.valid hgrants, List.filter_append,
    Demand.filter_isOutage_checkRecords, List.append_nil]
  simp only [Demand.principal, hread, GrantAnswers.filter_isOutage_report, unavailable_read]

theorem kept_eq :
    v.kept r c = ((v.authorizer.afterEvents (c.before v.fetchTime)).remember r.principal
      ((v.snapshot c r.principal).prepare v.authorizer.registry)
      (v.authorizer.generation? r.principal)).1 := by
  have hgrants := Authorizer.grants_authorizer_of_miss (c := v.circumstances r.principal c) h.live
    miss h.fetch_eq
  rw [Authorizer.lookup_of_miss miss] at hgrants
  rw [kept, Authorizer.authorize_authorizer h.valid, hgrants]
  rfl

/-- What was read is found afterwards exactly if no source was missing. -/
theorem lookup_kept_iff (enabled : v.authorizer.cacheEnabled = true) (room : v.authorizer.HasRoom)
    (quiet : (c.before v.fetchTime).filterMap Event.invalidation? = []) (g : PreparedGrants) :
    ((v.kept r c).lookup r.principal).1 = some g ↔
      (∀ source, v.outage? source = none) ∧ g = v.survivors c r.principal := by
  -- without an invalidation the generation noted before the read is still the current one
  have hafter : v.authorizer.afterEvents (c.before v.fetchTime) = v.authorizer := by
    rw [Authorizer.afterEvents, quiet]
    rfl
  rw [kept_eq h miss, hafter]
  obtain ⟨cache, hcache⟩ := Option.isSome_iff_exists.1 enabled
  cases hcomplete : ((v.snapshot c r.principal).prepare v.authorizer.registry).isComplete with
  | true =>
    have havailable := isComplete_snapshot.1 hcomplete
    rw [Authorizer.lookup_remember hcache (room cache hcache) hcomplete,
      snapshot_of_available havailable, Option.some.injEq]
    exact ⟨fun h => ⟨havailable, h.symm⟩, fun h => h.2.symm⟩
  | false =>
    rw [Authorizer.remember_incomplete hcomplete, miss]
    constructor
    · intro h
      cases h
    · rintro ⟨available, -⟩
      rw [isComplete_snapshot.2 available] at hcomplete
      cases hcomplete

/-- A call that missed a source leaves the cache as if it had not been made. -/
theorem authorizer_of_outage {source : GrantSource} (out : v.outage? source ≠ none) :
    (v.authorize r c).2.authorizer = v.authorizer.afterEvents (c.events.map Prod.snd) := by
  have hincomplete : ((v.snapshot c r.principal).prepare v.authorizer.registry).isComplete =
      false := by
    refine Bool.eq_false_iff.2 fun hcomplete => ?_
    exact out (isComplete_snapshot.1 hcomplete source)
  have hkept := kept_eq h miss
  rw [Authorizer.remember_incomplete hincomplete] at hkept
  rw [authorize, settle_authorizer, ← c.before_append_since v.fetchTime,
    Authorizer.afterEvents_append, ← hkept]
  rfl

end Miss

end Service

/-! ## Room -/

namespace Authorizer.HasRoom

variable {a : Authorizer} {p : Principal} {c : Circumstances}

theorem invalidateAll (h : a.HasRoom) (is : List Invalidation) : (a.invalidateAll is).HasRoom := by
  induction is generalizing a with
  | nil => exact h
  | cons i is ih => exact ih h.invalidate

variable [Pattern.Engine]

theorem grants (h : a.HasRoom) : (a.grants p c).authorizer.HasRoom := by
  cases hlive : c.cancelled with
  | true =>
    rw [grants_of_cancelled hlive]
    exact h.invalidateAll _
  | false =>
    cases hfound : (a.lookup p).1 with
    | some found =>
      rw [grants_of_hit hlive hfound]
      exact h.lookup.invalidateAll _
    | none =>
      cases hfetch : c.fetch with
      | cancelled =>
        rw [grants_of_cancelledFetch hlive hfound hfetch]
        exact h.invalidateAll _
      | answered answers =>
        rw [grants_authorizer_of_miss hlive hfound hfetch]
        exact (h.lookup.invalidateAll _).remember

theorem of_left {left : Authorizer} (h : a.HasRoom)
    (eq : left = a.invalidateAll c.invalidations ∨ left = (a.grants p c).authorizer) :
    left.HasRoom := by
  rcases eq with rfl | rfl
  · exact h.invalidateAll _
  · exact h.grants

/-- A cache that has room keeps it. -/
theorem serve {v : Service} (h : v.authorizer.HasRoom) (d : Demand) (course : Course) :
    (d.serve v course).2.authorizer.HasRoom := by
  cases d with
  | single r =>
    rw [Demand.serve, Service.authorize, Service.settle_authorizer]
    exact (h.of_left (v.authorizer.authorize_authorizer_or r _)).invalidateAll _
  | batch b =>
    rw [Demand.serve, Service.authorizeBatch, Service.settle_authorizer]
    exact (h.of_left (v.authorizer.authorizeBatch_authorizer_or b _)).invalidateAll _

end Authorizer.HasRoom

namespace Service

/-! ## The next call -/

variable {v : Service} {c : Course} {p : Principal} {r : AccessRequest}

/-- Events put nothing into the cache. -/
theorem lookup_afterEvents (miss : (v.authorizer.lookup p).1 = none) (es : List Event) :
    ((v.authorizer.afterEvents es).lookup p).1 = none := by
  cases hfound : ((v.authorizer.afterEvents es).lookup p).1 with
  | none => rfl
  | some g =>
    have hheld := Authorizer.holds_of_holds_invalidateAll (Authorizer.holds_of_lookup hfound)
    exact absurd hheld (Authorizer.not_holds_of_miss miss)

/-- Sources read at once what is there when nothing changes during the call. -/
theorem survivingRows_of_quiet (quiet : c.events = []) {source : GrantSource}
    (available : v.outage? source = none) :
    v.survivingRows c p source = v.sources.rows p v.authorizer.traversal := by
  have hbefore (time : Nat) : c.before time = [] := by simp [Course.before, quiet, Course.inTurn]
  simp [survivingRows, available, sourcesAt, hbefore]

variable [Pattern.Engine]

/-- When no source has a fault, what is left is everything. -/
theorem survivors_of_faultless (faultless : ∀ source, v.sources.fault? source = none) :
    v.survivors c p = v.current p := by
  have hrows : v.survivingRows c p = fun _ => v.sources.rows p v.authorizer.traversal := by
    funext source
    have havailable : v.outage? source = none :=
      Sources.outage?_of_faultless _ _ _ (faultless source)
    have hdelay : v.sources.delay source = 0 := by simp [Sources.delay, faultless source]
    simp only [survivingRows, havailable, hdelay, sourcesAt_zero]
  rw [survivors, hrows]
  rfl

/-- A call that misses the cache decides as over a store that answers at once and has no rows for
the sources that fail or take longer than they are given. It records every such source, and keeps
what it read exactly if there is none. A fault changes nothing of what comes from another source,
and after a call with one the next call reads again, whatever is done in between. -/
theorem authorize_degraded (h : v.Completes r c)
    (miss : (v.authorizer.lookup r.principal).1 = none) :
    (∃ d, (v.authorize r c).1 = .ok d ∧
        (v.authorizeOver (v.surviving c r.principal) r c).1 = .ok d) ∧
      (c.events = [] → ∀ source, v.outage? source = none →
        v.survivingRows c r.principal source = v.sources.rows r.principal v.authorizer.traversal) ∧
      (v.recordsOf r c).filter AuditRecord.isOutage = v.outages r.principal ∧
      (v.authorize r c).2.audit = v.audit.map (fun l => l.logAll (v.recordsOf r c)) ∧
      (v.authorizer.cacheEnabled = true → v.authorizer.HasRoom →
        (c.before v.fetchTime).filterMap Event.invalidation? = [] → ∀ g,
          ((v.kept r c).lookup r.principal).1 = some g ↔
            (∀ source, v.outage? source = none) ∧ g = v.survivors c r.principal) ∧
      (v.authorize r c).2.authorizer = (v.kept r c).afterEvents (c.since v.fetchTime) ∧
      (∀ faults source, faults.get? source = v.sources.faults.get? source →
        ((v.withFaults faults).snapshot c r.principal).ofSource source =
          (v.snapshot c r.principal).ofSource source) ∧
      ∀ source, v.outage? source ≠ none → ∀ (es : List Event) (r' : AccessRequest) (c' : Course),
        let w := es.foldl apply (v.authorize r c).2
        r'.principal = r.principal → w.Completes r' c' →
          (w.authorize r' c').1 =
              .ok ((w.survivors c' r.principal).decide r'.action r'.resource r'.context) ∧
            ((∀ source, w.sources.fault? source = none) →
              w.survivors c' r.principal = w.current r.principal) := by
  refine ⟨⟨_, authorize_of_miss h miss, authorizeOver_surviving h miss⟩,
    fun quiet _ available => survivingRows_of_quiet quiet available,
    filter_isOutage_records h miss, Demand.serve_audit v c (.single r), lookup_kept_iff h miss,
    v.settle_authorizer c _, fun _ _ => ofSource_withFaults, ?_⟩
  intro source out es r' c' w hprincipal hnext
  -- the call left nothing in the cache, and events add nothing
  have hauthorizer := authorizer_of_outage h miss out
  have hmiss : (w.authorizer.lookup r'.principal).1 = none := by
    simp only [w, foldl_apply_eq, hauthorizer, hprincipal, ← Authorizer.afterEvents_append]
    exact lookup_afterEvents miss _
  have hdecision := authorize_of_miss hnext hmiss
  rw [hprincipal] at hdecision
  exact ⟨hdecision, survivors_of_faultless⟩

end Service

namespace Outage

def editor : Principal := ⟨"acme", .user, "eve"⟩

/-- Permissions come at the last moment, policies do not come. -/
def service : Service where
  sources := {
    store := { shares := [.ofPrincipal "share-1" editor "post-1" .owner] }
    faults := .ofList [(.policies, .fail "refused"), (.resourcePermissions, .delay 2000)] }
  authorizer := { registry := .builtin, cache := some (.ofCapacity 1) }
  audit := some { capacity := 8, batchSize := 1 }

def request : AccessRequest where
  principal := editor
  action := "blog:delete"
  resource := "post-1"

theorem completes (v : Service) : v.Completes request {} where
  valid := rfl
  live := rfl
  inTime := fun t h => by cases h

end Outage

theorem Service.authorize_outage :
    (Outage.service.recordsOf Outage.request {}).filter AuditRecord.isOutage = [⟨Outage.editor,
        .sourceUnavailable .policies "Grant source unavailable: policies: refused"⟩] ∧
      ((Outage.service.kept Outage.request {}).lookup Outage.editor).1 = none ∧
      (let w := [Event.change .clearFaults].foldl apply
        (Outage.service.authorize Outage.request).2
      (w.authorize Outage.request).1 = .ok (.allow (.shareAllow "share-1" .owner))) := by
  obtain ⟨-, -, hrecords, -, hkept, -, -, hnext⟩ :=
    authorize_degraded (Outage.completes Outage.service) rfl
  have hroom : Outage.service.authorizer.HasRoom := by
    intro c hc
    cases hc
    exact Nat.one_pos
  have hout : Outage.service.outage? .policies ≠ none := by decide
  refine ⟨hrecords, ?_, ?_⟩
  · cases hfound : ((Outage.service.kept Outage.request {}).lookup Outage.editor).1 with
    | none => rfl
    | some g => exact absurd (((hkept rfl hroom rfl g).1 hfound).1 .policies) hout
  · have hagain := hnext .policies hout [.change .clearFaults] Outage.request {} rfl
      (Outage.completes _)
    exact hagain.1.trans rfl

end TenantAccess
