import TenantAccess.Proofs.Degradation
import TenantAccess.Proofs.Success

/-!
# A batch is its checks one by one

A batch for one principal answers what single calls answer, in their order, with one read of the
sources at most. It is refused as a whole for the first thing that is wrong with it, and then leaves
nothing behind.
-/
namespace TenantAccess

/-! ## Which batches are refused -/

namespace BatchRequest

variable {q : BatchRequest} {e : AccessError}

/-- What is wrong with the principal counts before what is wrong with a check, and the checks count
in their order. -/
inductive Refused (q : BatchRequest) : AccessError → Prop
  | principal {f : RequestFault} (refused : q.principal.Refused f) : Refused q (.invalidRequest f)
  | check {before after : List ResourceAction} {check : ResourceAction} {f : RequestFault}
      (principal : ∀ f, ¬ q.principal.Refused f) (split : q.checks = before ++ check :: after)
      (accepted : ∀ c ∈ before, ∀ f, ¬ c.Refused f) (refused : check.Refused f) :
      Refused q (.invalidRequest f)

theorem validateAll_eq_ok_iff {checks : List ResourceAction} :
    validateAll checks = .ok () ↔ ∀ c ∈ checks, ∀ f, ¬ c.Refused f := by
  induction checks with
  | nil => simp [validateAll]
  | cons c checks ih =>
    rw [List.forall_mem_cons, ← ih, ← ResourceAction.validate_eq_ok_iff]
    cases hc : c.validate <;> simp [validateAll, hc, bind, Except.bind]

theorem validateAll_eq_error_iff {checks : List ResourceAction} :
    validateAll checks = .error e ↔ ∃ before check after f, checks = before ++ check :: after ∧
      (∀ c ∈ before, ∀ f, ¬ c.Refused f) ∧ check.Refused f ∧ e = .invalidRequest f := by
  constructor
  · intro h
    induction checks with
    | nil => cases h
    | cons c checks ih =>
      cases hc : c.validate with
      | error e' =>
        rw [validateAll, hc] at h
        cases h
        obtain ⟨f, hf, rfl⟩ := ResourceAction.validate_eq_error_iff.1 hc
        exact ⟨[], c, checks, f, rfl, List.forall_mem_nil _, hf, rfl⟩
      | ok =>
        rw [validateAll, hc] at h
        obtain ⟨before, check, after, f, rfl, haccepted, hrest⟩ := ih h
        refine ⟨c :: before, check, after, f, rfl, ?_, hrest⟩
        exact List.forall_mem_cons.2 ⟨ResourceAction.validate_eq_ok_iff.1 hc, haccepted⟩
  · rintro ⟨before, check, after, f, rfl, haccepted, hf, rfl⟩
    induction before with
    | nil =>
      have hcheck := ResourceAction.validate_eq_error_iff.2 ⟨f, hf, rfl⟩
      rw [List.nil_append, validateAll, hcheck]
      rfl
    | cons c before ih =>
      obtain ⟨hc, hbefore⟩ := List.forall_mem_cons.1 haccepted
      rw [List.cons_append, validateAll, ResourceAction.validate_eq_ok_iff.2 hc]
      exact ih hbefore

theorem validate_eq_error_iff : q.validate = .error e ↔ q.Refused e := by
  have hp := Principal.validate_eq_ok_iff (p := q.principal)
  constructor
  · intro h
    cases hprincipal : q.principal.validate with
    | error e' =>
      obtain ⟨f, hf, rfl⟩ := Principal.validate_eq_error_iff.1 hprincipal
      rw [validate, hprincipal] at h
      cases h
      exact .principal hf
    | ok =>
      rw [validate, hprincipal] at h
      obtain ⟨before, check, after, f, hsplit, haccepted, hf, rfl⟩ := validateAll_eq_error_iff.1 h
      exact .check (hp.1 hprincipal) hsplit haccepted hf
  · intro h
    cases h with
    | principal refused =>
      rw [validate, Principal.validate_eq_error_iff.2 ⟨_, refused, rfl⟩]
      rfl
    | check principal split accepted refused =>
      rw [validate, hp.2 principal]
      exact validateAll_eq_error_iff.2 ⟨_, _, _, _, split, accepted, refused, rfl⟩

theorem validate_eq_ok_iff : q.validate = .ok () ↔ ∀ e, ¬ q.Refused e := by
  simp only [← validate_eq_error_iff]
  cases q.validate <;> simp

/-- The single request for one of the checks. -/
def request (q : BatchRequest) (check : ResourceAction) : AccessRequest where
  principal := q.principal
  action := check.action
  resource := check.resource
  context := q.context

def requests (q : BatchRequest) : List AccessRequest := q.checks.map q.request

/-- The requests of an accepted batch are accepted. -/
theorem request_accepted (accepted : q.validate = .ok ()) {check : ResourceAction}
    (h : check ∈ q.checks) : (q.request check).validate = .ok () := by
  obtain ⟨⟨⟩, hprincipal, hchecks⟩ := bind_eq_ok_iff.1 accepted
  have hcheck := ResourceAction.validate_eq_ok_iff.2 (validateAll_eq_ok_iff.1 hchecks check h)
  have htarget : (q.request check).target = check := rfl
  rw [AccessRequest.validate, htarget]
  simp only [request, hprincipal, hcheck, AccessRequest.checkOwner]
  rfl

end BatchRequest

/-! ## Batches over a store -/

namespace Service

theorem circumstancesOver_quiet {v : Service} {b : Backend} : v.circumstancesOver b {} =
    { fetch := .answered (.ofSources (b.yielded v.authorizer.fetchTimeout)) } := by
  have hfetch : b.fetch v.authorizer.fetchTimeout none =
      .answered (.ofSources (b.yielded v.authorizer.fetchTimeout)) :=
    b.fetch_eq_answered _ fun t h => by cases h
  simp [circumstancesOver, hfetch, Course.before, Course.inTurn]

theorem invalidations_quiet {v : Service} {b : Backend} :
    (v.circumstancesOver b {}).invalidations = [] := by
  rw [circumstancesOver_quiet]

variable [Pattern.Engine]
variable (v : Service) (b : Backend) (q : BatchRequest) (r : AccessRequest) (c : Course)

/-- A batch of the service when the sources answer like that. -/
def authorizeBatchOver : Except AccessError (List Decision) × Service :=
  let time := b.fetchTime v.authorizer.fetchTimeout
  let h := v.authorizer.authorizeBatch q (v.circumstancesOver b c)
  (h.result, (c.since time).foldl apply
    ({ v with sources := v.sourcesAt c time, authorizer := h.authorizer }.post h.trail))

/-- A batch of the service is one over its own store. -/
theorem authorizeBatch_eq_authorizeBatchOver :
    v.authorizeBatch q c = v.authorizeBatchOver (v.backend c q.principal) q c := by
  simp only [authorizeBatchOver, circumstancesOver_backend, fetchTime_backend]
  rfl

/-- What is answered to several calls, one after the other. -/
def answersOver (v : Service) : List AccessRequest → List (Except AccessError Decision)
  | [] => []
  | r :: rs => (v.authorizeOver b r {}).1 :: answersOver (v.authorizeOver b r {}).2 rs

/-- What the calls hand to the audit logger. -/
def recordsOver (v : Service) : List AccessRequest → List AuditRecord
  | [] => []
  | r :: rs => (Demand.single r).records v.authorizer (v.circumstancesOver b {}) ++
    recordsOver (v.authorizeOver b r {}).2 rs

/-- The service after the calls. -/
def afterOver (v : Service) : List AccessRequest → Service
  | [] => v
  | r :: rs => afterOver (v.authorizeOver b r {}).2 rs

/-! ## What a call leaves -/

variable {v b q r c}

theorem authorizeOver_sources : (v.authorizeOver b r {}).2.sources = v.sources := by
  simp only [authorizeOver, foldl_apply_eq]
  rw [(post_eq _ _).1]
  simp [sourcesAt, Course.before, Course.since, Course.inTurn, Sources.afterEvents]

theorem authorizeOver_authorizer : (v.authorizeOver b r {}).2.authorizer =
    (v.authorizer.authorize r (v.circumstancesOver b {})).authorizer := by
  simp only [authorizeOver, foldl_apply_eq]
  rw [(post_eq _ _).2]
  simp [Course.since, Course.inTurn, Authorizer.afterEvents, Authorizer.invalidateAll]

theorem authorizeOver_audit : (v.authorizeOver b r {}).2.audit = v.audit.map fun l =>
    l.logAll ((Demand.single r).records v.authorizer (v.circumstancesOver b {})) := by
  simp only [authorizeOver, foldl_apply_eq, post_audit]
  rfl

theorem authorizeBatchOver_audit : (v.authorizeBatchOver b q c).2.audit = v.audit.map fun l =>
    l.logAll ((Demand.batch q).records v.authorizer (v.circumstancesOver b c)) := by
  simp only [authorizeBatchOver, foldl_apply_eq, post_audit]
  rfl

theorem afterOver_audit (v : Service) (b : Backend) (rs : List AccessRequest) :
    (v.afterOver b rs).audit = v.audit.map fun l => l.logAll (v.recordsOver b rs) := by
  induction rs generalizing v with
  | nil => cases h : v.audit <;> simp [afterOver, recordsOver, AuditLogger.logAll, h]
  | cons r rs ih =>
    rw [afterOver, ih, authorizeOver_audit, Option.map_map]
    congr 1
    funext l
    exact (l.logAll_append _ _).symm

end Service

/-! ## The same grants again -/

namespace Authorizer

variable [Pattern.Engine] {a : Authorizer} {p : Principal} {c : Circumstances} {g : PreparedGrants}

/-- A call whose grants were found or read a moment ago comes to the same grants. -/
theorem grants_again (quiet : c.invalidations = []) (h : (a.grants p c).result = .ok g) :
    ((a.grants p c).authorizer.grants p c).result = .ok g := by
  cases hlive : c.cancelled with
  | true =>
    rw [grants_of_cancelled hlive] at h
    cases h
  | false =>
    cases hfound : (a.lookup p).1 with
    | some found =>
      have hg := h
      rw [grants_of_hit hlive hfound] at hg
      cases hg
      have hafter : (a.grants p c).authorizer = (a.lookup p).2 := by
        rw [grants_of_hit hlive hfound, quiet]
        rfl
      rw [hafter, grants_of_hit hlive (lookup_lookup hfound)]
    | none =>
      cases hfetch : c.fetch with
      | cancelled =>
        rw [grants_of_cancelledFetch hlive hfound hfetch] at h
        cases h
      | answered answers =>
        cases hagain : ((a.grants p c).authorizer.lookup p).1 with
        | some found =>
          -- only what the call came to can be new in the cache
          rcases holds_of_holds_grants (holds_of_lookup hagain) with hheld | ⟨-, hresult⟩
          · exact absurd hheld (not_holds_of_miss hfound)
          · rw [grants_of_hit hlive hagain]
            exact hresult.symm.trans h
        | none =>
          have hsettings := uncached_grants (a := a) (p := p) (c := c)
          have hregistry := congrArg Authorizer.registry hsettings
          simp only [uncached] at hregistry
          rw [grants_of_miss hlive hagain hfetch, hregistry, ← grants_of_miss hlive hfound hfetch,
            h]

theorem uncached_authorize {r : AccessRequest} :
    (a.authorize r c).authorizer.uncached = a.uncached := by
  rcases a.authorize_authorizer_or r c with heq | heq
  · rw [heq, uncached_invalidateAll]
  · rw [heq, uncached_grants]

/-- What was found stays, and complete grants that were read are found from then on. -/
theorem lookup_grants (live : c.cancelled = false) (quiet : c.invalidations = [])
    (enabled : a.cacheEnabled = true) (room : a.HasRoom)
    (h : (a.grants p c).result = .ok g)
    (kept : (a.lookup p).1 = none → g.isComplete = true) :
    ((a.grants p c).authorizer.lookup p).1 = some g := by
  cases hfound : (a.lookup p).1 with
  | some found =>
    rw [grants_of_hit live hfound] at h ⊢
    cases h
    rw [quiet]
    exact lookup_lookup hfound
  | none =>
    cases hfetch : c.fetch with
    | cancelled =>
      rw [grants_of_cancelledFetch live hfound hfetch] at h
      cases h
    | answered answers =>
      have hg := h
      rw [grants_of_miss live hfound hfetch] at hg
      obtain ⟨cache, hcache⟩ := Option.isSome_iff_exists.1 enabled
      rw [grants_authorizer_of_miss live hfound hfetch, lookup_of_miss hfound, quiet]
      cases hg
      exact lookup_remember hcache (room cache hcache) (kept hfound)

end Authorizer

/-! ## Calls one after the other -/

namespace Service

variable [Pattern.Engine]
variable {v : Service} {b : Backend} {r : AccessRequest} {p : Principal} {g : PreparedGrants}
  {rs : List AccessRequest}

/-- The requests are accepted, and all are the principal's. -/
def Accepted (p : Principal) (rs : List AccessRequest) : Prop :=
  ∀ r ∈ rs, r.validate = .ok () ∧ r.principal = p

theorem authorizer_next (valid : r.validate = .ok ()) (named : r.principal = p) :
    (v.authorizeOver b r {}).2.authorizer =
      (v.authorizer.grants p (v.circumstancesOver b {})).authorizer := by
  rw [authorizeOver_authorizer, Authorizer.authorize_authorizer valid, named]

/-- After a call the same grants are there. -/
theorem grants_next (valid : r.validate = .ok ()) (named : r.principal = p)
    (h : (v.authorizer.grants p (v.circumstancesOver b {})).result = .ok g) :
    ((v.authorizeOver b r {}).2.authorizer.grants p
      ((v.authorizeOver b r {}).2.circumstancesOver b {})).result = .ok g := by
  have hsettings := v.authorizer.uncached_grants (p := p) (c := v.circumstancesOver b {})
  have htimeout := congrArg Authorizer.fetchTimeout hsettings
  simp only [Authorizer.uncached] at htimeout
  have hcircumstances : (v.authorizeOver b r {}).2.circumstancesOver b {} =
      v.circumstancesOver b {} := by
    rw [circumstancesOver_quiet, circumstancesOver_quiet, authorizer_next valid named, htimeout]
  rw [hcircumstances, authorizer_next valid named]
  exact Authorizer.grants_again invalidations_quiet h

theorem authorizeOver_of_grants (valid : r.validate = .ok ()) (named : r.principal = p)
    (h : (v.authorizer.grants p (v.circumstancesOver b {})).result = .ok g) :
    (v.authorizeOver b r {}).1 = .ok (g.decide r.action r.resource r.context) := by
  subst named
  simp only [authorizeOver, Authorizer.authorize_of_valid valid, h]
  rfl

/-- All calls are decided by the grants of the first one. -/
theorem answersOver_eq (accepted : Accepted p rs)
    (h : (v.authorizer.grants p (v.circumstancesOver b {})).result = .ok g) :
    v.answersOver b rs = rs.map fun r => .ok (g.decide r.action r.resource r.context) := by
  induction rs generalizing v with
  | nil => rfl
  | cons r rs ih =>
    obtain ⟨⟨hvalid, hnamed⟩, hrest⟩ := List.forall_mem_cons.1 accepted
    have hnext := grants_next hvalid hnamed h
    rw [answersOver, authorizeOver_of_grants hvalid hnamed h, ih hrest hnext, List.map_cons]

/-- Calls that find their grants in the cache record their checks and nothing else. -/
theorem recordsOver_of_hit (accepted : Accepted p rs) (hit : (v.authorizer.lookup p).1 = some g) :
    v.recordsOver b rs = rs.flatMap fun r => (Demand.single r).checkRecords g := by
  induction rs generalizing v with
  | nil => rfl
  | cons r rs ih =>
    obtain ⟨⟨hvalid, rfl⟩, hrest⟩ := List.forall_mem_cons.1 accepted
    have hlive : (v.circumstancesOver b {}).cancelled = false := rfl
    have hgrants := Authorizer.grants_of_hit hlive hit
    have hresult : (v.authorizer.grants r.principal (v.circumstancesOver b {})).result = .ok g := by
      rw [hgrants]
    have hagain : ((v.authorizeOver b r {}).2.authorizer.lookup r.principal).1 = some g := by
      rw [authorizer_next hvalid rfl, hgrants, invalidations_quiet]
      exact Authorizer.lookup_lookup hit
    have hrecords := Demand.records_of_grants (d := .single r) hvalid hresult
    rw [Demand.principal, Authorizer.records_grants_of_hit hlive hit, List.nil_append] at hrecords
    rw [recordsOver, hrecords, ih hrest hagain, List.flatMap_cons]

/-- If what is read is kept, the calls record one read at most, the first one's. -/
theorem recordsOver_eq (accepted : Accepted p (r :: rs))
    (h : (v.authorizer.grants p (v.circumstancesOver b {})).result = .ok g)
    (enabled : v.authorizer.cacheEnabled = true) (room : v.authorizer.HasRoom)
    (kept : (v.authorizer.lookup p).1 = none → g.isComplete = true) :
    v.recordsOver b (r :: rs) =
      Trail.records (v.authorizer.grants p (v.circumstancesOver b {})).trail ++
        (r :: rs).flatMap fun r => (Demand.single r).checkRecords g := by
  obtain ⟨⟨hvalid, rfl⟩, hrest⟩ := List.forall_mem_cons.1 accepted
  have hhit : ((v.authorizeOver b r {}).2.authorizer.lookup r.principal).1 = some g := by
    rw [authorizer_next hvalid rfl]
    exact Authorizer.lookup_grants rfl invalidations_quiet enabled room h kept
  have hrecords := Demand.records_of_grants (d := .single r) hvalid h
  rw [Demand.principal] at hrecords
  rw [recordsOver, hrecords, recordsOver_of_hit hrest hhit, List.flatMap_cons, List.append_assoc]

/-- The service's own store is the same store after the calls. -/
theorem backend_afterOver (v : Service) (b : Backend) (rs : List AccessRequest) (p : Principal) :
    (v.afterOver b rs).backend {} p = v.backend {} p := by
  induction rs generalizing v with
  | nil => rfl
  | cons r rs ih =>
    have hsources := v.authorizeOver_sources (b := b) (r := r)
    have htraversal : (v.authorizeOver b r {}).2.authorizer.traversal =
        v.authorizer.traversal := by
      rw [authorizeOver_authorizer]
      have hsettings := v.authorizer.uncached_authorize (r := r) (c := v.circumstancesOver b {})
      have htraversal := congrArg Authorizer.traversal hsettings
      simp only [Authorizer.uncached] at htraversal
      exact htraversal
    have hat (time : Nat) : (v.authorizeOver b r {}).2.sourcesAt {} time = v.sourcesAt {} time := by
      simp only [sourcesAt, hsources]
    rw [afterOver, ih]
    funext source
    simp only [backend, hat, htraversal, hsources]

end Service

/-! ## How often the sources are read -/

/-- The notice tells of a read of the sources. -/
def Notice.isRead : Notice → Bool
  | .collected .. => true
  | _ => false

namespace Trail

/-- The reads of the sources that a trail tells of. -/
def reads (t : Trail) : Nat :=
  t.countP fun
    | .notice n => n.isRead
    | .record _ => false

@[simp] theorem reads_nil : reads [] = 0 := rfl

@[simp] theorem reads_append (t u : Trail) : reads (t ++ u) = reads t + reads u :=
  List.countP_append

@[simp] theorem reads_notice (n : Notice) (t : Trail) :
    reads (.notice n :: t) = (if n.isRead then 1 else 0) + reads t := by
  simp [reads, List.countP_cons, Nat.add_comm]

@[simp] theorem reads_record (r : AuditRecord) (t : Trail) : reads (.record r :: t) = reads t := by
  simp [reads]

@[simp] theorem reads_map_record (rs : List AuditRecord) : reads (rs.map .record) = 0 := by
  induction rs with
  | nil => rfl
  | cons r rs ih => simp [ih]

theorem reads_map_notice (ns : List Notice) : reads (ns.map .notice) = ns.countP Notice.isRead := by
  induction ns with
  | nil => rfl
  | cons n ns ih => simp [ih, List.countP_cons, Nat.add_comm]

theorem reads_flatMap {α : Type} {f : α → Trail} (h : ∀ a, reads (f a) = 0) (as : List α) :
    reads (as.flatMap f) = 0 := by
  induction as with
  | nil => rfl
  | cons a as ih => simp [ih, h a]

end Trail

theorem Snapshot.reads_trail (s : Snapshot) (p : Principal) : Trail.reads (s.trail p) = 1 := by
  have hsources : (GrantSource.all.flatMap (s.noticesOf p)).countP Notice.isRead = 0 := by
    refine List.countP_eq_zero.2 fun n hn => ?_
    obtain ⟨source, -, hn⟩ := List.mem_flatMap.1 hn
    rcases List.mem_append.1 hn with hn | hn <;> obtain ⟨_, -, rfl⟩ := List.mem_map.1 hn <;>
      simp [Notice.isRead]
  have hnothing : Trail.reads (if s.isEmpty = true then
      [.notice (.nothingFound p s.isComplete)] else []) = 0 := by
    split <;> rfl
  simp only [Snapshot.trail, Snapshot.notices, Trail.reads_append, Trail.reads_map_notice,
    List.countP_append, hsources, hnothing, Trail.reads_map_record]
  rfl

theorem PreparedGrants.reads_trail (g : PreparedGrants) (p : Principal) :
    Trail.reads (g.trail p) = 0 := by
  have hpolicies : ∀ policy : PreparedPolicy, Trail.reads (policy.trail p) = 0 := by
    intro policy
    cases h : policy.rules <;> simp [PreparedPolicy.trail, h, Notice.isRead]
  have hpermissions : ∀ permission : PreparedPermission, Trail.reads (permission.trail p) = 0 := by
    intro permission
    cases h : permission.pattern <;> simp [PreparedPermission.trail, h, Notice.isRead]
  rw [PreparedGrants.trail, Trail.reads_append, Trail.reads_flatMap hpolicies,
    Trail.reads_flatMap hpermissions]

theorem Decision.reads_trail (d : Decision) (p : Principal) (check : ResourceAction) :
    Trail.reads (d.trail p check) = 0 := by
  simp [Decision.trail, Notice.isRead]

namespace Authorizer

variable (a : Authorizer) (p : Principal) (c : Circumstances) (b : BatchRequest)

theorem reads_remember (g : PreparedGrants) (generation : Option Nat) :
    Trail.reads (a.remember p g generation).2 = 0 := by
  simp only [remember]
  split
  · split <;> rfl
  · rfl

variable [Pattern.Engine]

/-- The grants of a principal take one read at most. -/
theorem reads_grants : Trail.reads (a.grants p c).trail ≤ 1 := by
  rcases hl : a.lookup p with ⟨found, a'⟩
  simp only [grants, hl]
  split
  · exact Nat.zero_le 1
  · cases found with
    | some g => simp [Notice.isRead]
    | none =>
      cases c.fetch with
      | cancelled => simp [Notice.isRead]
      | answered answers =>
        simp [Snapshot.reads_trail, PreparedGrants.reads_trail, reads_remember]

theorem reads_authorizeBatch : Trail.reads (a.authorizeBatch b c).trail ≤ 1 := by
  have hgrants := a.reads_grants b.principal c
  simp only [authorizeBatch]
  split
  · exact Nat.zero_le 1
  · split
    · exact Nat.zero_le 1
    · split
      · exact hgrants
      · rw [Trail.reads_append, Trail.reads_flatMap (fun _ => Decision.reads_trail ..)]
        exact hgrants

end Authorizer

namespace Service

variable {v : Service} {b : Backend} {q : BatchRequest} {e : AccessError} {g : PreparedGrants}

/-- How often the sources were read, as far as the notices tell. -/
def reads (v : Service) : Nat := v.notices.countP Notice.isRead

theorem reads_record (v : Service) (r : AuditRecord) : (v.record r).reads = v.reads := by
  cases h : v.audit with
  | none => simp [record, h]
  | some l =>
    have hlog : (l.log r).2.countP Notice.isRead = 0 := by
      simp only [AuditLogger.log]
      split
      · rfl
      · split <;> rfl
    simp [record, h, note, reads, hlog]

theorem reads_post (v : Service) (t : Trail) : (v.post t).reads = v.reads + Trail.reads t := by
  induction t generalizing v with
  | nil => rfl
  | cons e t ih =>
    cases e with
    | notice n =>
      have hnote : (v.note [n]).reads = v.reads + if n.isRead then 1 else 0 := by
        simp [note, reads]
      have hrest := ih (v.note [n])
      rw [hnote] at hrest
      rw [Trail.reads_notice, ← Nat.add_assoc]
      exact hrest
    | record r =>
      have hrest := ih (v.record r)
      rw [reads_record] at hrest
      rw [Trail.reads_record]
      exact hrest

variable [Pattern.Engine]

theorem reads_authorizeBatchOver (v : Service) (b : Backend) (q : BatchRequest) (c : Course) :
    (v.authorizeBatchOver b q c).2.reads ≤ v.reads + 1 := by
  have htrail := v.authorizer.reads_authorizeBatch (v.circumstancesOver b c) q
  simp only [authorizeBatchOver, foldl_apply_eq, reads]
  have hpost := reads_post { v with
    sources := v.sourcesAt c (b.fetchTime v.authorizer.fetchTimeout)
    authorizer := (v.authorizer.authorizeBatch q (v.circumstancesOver b c)).authorizer }
    (v.authorizer.authorizeBatch q (v.circumstancesOver b c)).trail
  simp only [reads] at hpost
  omega

end Service

/-! However its steps overlap with others, a call reads a source once at most. -/

/-- The call reads the source. -/
def Action.isRead (call : Nat) (source : GrantSource) : Action → Bool
  | .read c _ s _ => c == call && s == source
  | _ => false

namespace Traffic

variable [Pattern.Engine]
variable {s t : Traffic} {action : Action} {trace : List Action} {c : Nat} {source : GrantSource}

/-- The call can still read the source. -/
def Unread (s : Traffic) (c : Nat) (source : GrantSource) : Prop :=
  match s.calls.get? c with
  | none | some ⟨_, .missed⟩ => True
  | some ⟨_, .reading _ reads⟩ => reads.get? source = none
  | some ⟨_, .answered _⟩ => False

/-- A step that reads the source for the call is the last one that can. -/
theorem Step.unread (step : Step s action t) (c : Nat) (source : GrantSource) :
    (action.isRead c source = true → s.Unread c source ∧ ¬ t.Unread c source) ∧
      (t.Unread c source → s.Unread c source) := by
  cases step with
  | @lookup c' d unused _ =>
    refine ⟨fun h => (by cases h), fun h => ?_⟩
    by_cases hc : c' = c
    · subst hc
      simp [Unread, unused]
    · simpa [Unread, Table.get?_set, hc] using h
  | @note c' d missed =>
    refine ⟨fun h => (by cases h), fun h => ?_⟩
    by_cases hc : c' = c
    · subst hc
      simp [Unread, missed]
    · simpa [Unread, Table.get?_set, hc] using h
  | @read c' d generation reads source' answer reading unread _ =>
    constructor
    · intro h
      obtain ⟨rfl, rfl⟩ : c' = c ∧ source' = source := by simpa [Action.isRead] using h
      exact ⟨by simpa [Unread, reading] using unread, by simp [Unread]⟩
    · intro h
      by_cases hc : c' = c
      · subst hc
        by_cases hsource : source' = source
        · subst hsource
          simpa [Unread, reading] using unread
        · simpa [Unread, reading, Table.get?_set, hsource] using h
      · simpa [Unread, Table.get?_set, hc] using h
  | @put c' d generation reads answers reading _ =>
    refine ⟨fun h => (by cases h), fun h => ?_⟩
    by_cases hc : c' = c
    · subst hc
      simp [Unread] at h
    · simpa [Unread, Table.get?_set, hc] using h
  | change _ => exact ⟨fun h => (by cases h), id⟩
  | invalidate _ => exact ⟨fun h => (by cases h), id⟩

theorem Run.countP_isRead (run : Run s trace t) (c : Nat) (source : GrantSource) :
    trace.countP (Action.isRead c source) ≤ 1 ∧
      (¬ s.Unread c source → trace.countP (Action.isRead c source) = 0) := by
  induction run with
  | nil => exact ⟨Nat.zero_le 1, fun _ => rfl⟩
  | @cons s t _ action trace step _ ih =>
    obtain ⟨hread, hback⟩ := step.unread c source
    obtain ⟨hle, hzero⟩ := ih
    rw [List.countP_cons]
    by_cases h : action.isRead c source = true
    · obtain ⟨hbefore, hafter⟩ := hread h
      have hrest := hzero hafter
      rw [if_pos h, hrest]
      exact ⟨Nat.le_refl 1, fun hnot => absurd hbefore hnot⟩
    · rw [if_neg h, Nat.add_zero]
      exact ⟨hle, fun hnot => hzero fun hunread => hnot (hback hunread)⟩

end Traffic

/-! ## Batches and single calls -/

namespace Service

variable {v : Service} {b : Backend} {q : BatchRequest} {e : AccessError} {g : PreparedGrants}

theorem accepted_requests (valid : q.validate = .ok ()) : Accepted q.principal q.requests := by
  intro r hr
  obtain ⟨check, hcheck, rfl⟩ := List.mem_map.1 hr
  exact ⟨q.request_accepted valid hcheck, rfl⟩

theorem flatMap_checkRecords (g : PreparedGrants) (q : BatchRequest) :
    (q.requests.flatMap fun r => (Demand.single r).checkRecords g) =
      (Demand.batch q).checkRecords g := by
  simp [BatchRequest.requests, Demand.checkRecords, Demand.checks, List.flatMap_map,
    BatchRequest.request, AccessRequest.target, Demand.context, Demand.principal]

variable [Pattern.Engine]

theorem authorizeBatchOver_of_refused (refused : q.Refused e) (c : Course) :
    v.authorizeBatchOver b q c = (.error e, (c.events.map Prod.snd).foldl apply v) := by
  have hvalid := BatchRequest.validate_eq_error_iff.2 refused
  have hsplit := c.before_append_since (b.fetchTime v.authorizer.fetchTimeout)
  have hcall : v.authorizer.authorizeBatch q (v.circumstancesOver b c) =
      ⟨.error e, v.authorizer.invalidateAll (v.circumstancesOver b c).invalidations, []⟩ := by
    simp only [Authorizer.authorizeBatch, hvalid]
  refine Prod.ext (by simp only [authorizeBatchOver, hcall]) ?_
  simp only [authorizeBatchOver, hcall, foldl_apply_eq, ← hsplit, Sources.afterEvents_append,
    Authorizer.afterEvents_append]
  rfl

theorem exists_grants (v : Service) (b : Backend) (p : Principal) : ∃ g,
    (v.authorizer.grants p (v.circumstancesOver b {})).result = .ok g ∧
      ((v.authorizer.lookup p).1 = none → g = (Snapshot.collect p
        (.ofSources (b.yielded v.authorizer.fetchTimeout))).prepare v.authorizer.registry) := by
  cases hfound : (v.authorizer.lookup p).1 with
  | some g =>
    have hgrants := Authorizer.grants_of_hit (c := v.circumstancesOver b {}) rfl hfound
    exact ⟨g, by rw [hgrants], fun h => by cases h⟩
  | none =>
    refine ⟨_, Authorizer.grants_of_miss rfl hfound ?_, fun _ => rfl⟩
    rw [circumstancesOver_quiet]

theorem isComplete_of_answered {p : Principal} {registry : Registry}
    {answers : GrantSource → Except AccessError GrantRows}
    (answered : ∀ source, ∃ rows, answers source = .ok rows) :
    ((Snapshot.collect p (.ofSources answers)).prepare registry).isComplete = true := by
  obtain ⟨_, hp⟩ := answered .policies
  obtain ⟨_, hq⟩ := answered .resourcePermissions
  obtain ⟨_, hs⟩ := answered .resourceShares
  have hfailures : (Snapshot.collect p (.ofSources answers)).failures = [] := by
    simp only [Snapshot.collect, GrantAnswers.ofSources, hp, hq, hs]
    rfl
  have hprepared : ((Snapshot.collect p (.ofSources answers)).prepare registry).failures = [] :=
    hfailures
  rw [PreparedGrants.isComplete, hprepared]
  rfl

theorem authorizeBatchOver_of_grants (valid : q.validate = .ok ())
    (h : (v.authorizer.grants q.principal (v.circumstancesOver b {})).result = .ok g) :
    (v.authorizeBatchOver b q {}).1 =
      .ok (q.checks.map fun check => g.decide check.action check.resource q.context) := by
  cases hchecks : q.checks.isEmpty with
  | true =>
    simp only [authorizeBatchOver, Authorizer.authorizeBatch, valid, hchecks, if_true]
    rw [List.isEmpty_iff.1 hchecks]
    rfl
  | false => exact Demand.answer_of_grants (d := .batch q) ⟨valid, hchecks⟩ h

/-- When what is read is kept, a batch records what its single calls record. -/
theorem records_batch (valid : q.validate = .ok ()) (enabled : v.authorizer.cacheEnabled = true)
    (room : v.authorizer.HasRoom)
    (answered : ∀ source, ∃ rows, b.yielded v.authorizer.fetchTimeout source = .ok rows) :
    (Demand.batch q).records v.authorizer (v.circumstancesOver b {}) =
      v.recordsOver b q.requests := by
  cases hchecks : q.checks with
  | nil =>
    have hrequests : q.requests = [] := by simp [BatchRequest.requests, hchecks]
    rw [hrequests]
    simp [Demand.records, Demand.trail, Authorizer.authorizeBatch, valid, hchecks, recordsOver]
  | cons check checks =>
    have hproceeds : (Demand.batch q).Proceeds := ⟨valid, by simp [hchecks]⟩
    obtain ⟨g, hgrants, hread⟩ := v.exists_grants b q.principal
    have hkept : (v.authorizer.lookup q.principal).1 = none → g.isComplete = true := by
      intro miss
      rw [hread miss]
      exact isComplete_of_answered answered
    have hrequests : q.requests = q.request check :: checks.map q.request := by
      simp [BatchRequest.requests, hchecks]
    have haccepted := accepted_requests valid
    rw [Demand.records_of_grants hproceeds hgrants, ← flatMap_checkRecords, hrequests]
    rw [hrequests] at haccepted
    exact (recordsOver_eq haccepted hgrants enabled room hkept).symm

/-- A batch is refused for the first thing that is wrong with it and then reads, keeps and records
nothing. Otherwise it answers, over any store and with any cache, what its single calls answer, each
for itself and one after the other. It reads the sources once at most, also when other calls take
steps in between. With a cache and sources that answer it records what the single calls record. -/
theorem authorizeBatchOver_singles (v : Service) (b : Backend) (q : BatchRequest) :
    (∀ e, q.Refused e → ∀ c,
        v.authorizeBatchOver b q c = (.error e, (c.events.map Prod.snd).foldl apply v)) ∧
      ((∀ e, ¬ q.Refused e) →
        (∃ ds, (v.authorizeBatchOver b q {}).1 = .ok ds ∧ ds.length = q.checks.length ∧
          (q.requests.map fun r => (v.authorizeOver b r {}).1) = ds.map .ok ∧
          v.answersOver b q.requests = ds.map .ok) ∧
        (v.authorizeBatchOver b q {}).2.reads ≤ v.reads + 1 ∧
        (∀ s trace t call phase, Traffic.Run s trace t →
          t.calls.get? call = some ⟨.batch q, phase⟩ →
            ∀ source, trace.countP (Action.isRead call source) ≤ 1) ∧
        (v.authorizer.cacheEnabled = true → v.authorizer.HasRoom →
          (∀ source, ∃ rows, b.yielded v.authorizer.fetchTimeout source = .ok rows) →
          ∃ records, (Demand.batch q).records v.authorizer (v.circumstancesOver b {}) = records ∧
            v.recordsOver b q.requests = records ∧
            (v.authorizeBatchOver b q {}).2.audit = v.audit.map (fun l => l.logAll records) ∧
            (v.afterOver b q.requests).audit = v.audit.map fun l => l.logAll records)) ∧
      (∀ c, v.authorizeBatch q c = v.authorizeBatchOver (v.backend c q.principal) q c) ∧
      ∀ rs, (v.afterOver b rs).backend {} q.principal = v.backend {} q.principal := by
  refine ⟨fun e refused => authorizeBatchOver_of_refused refused, ?_,
    v.authorizeBatch_eq_authorizeBatchOver q, fun rs => v.backend_afterOver b rs q.principal⟩
  intro accepted
  have hvalid := BatchRequest.validate_eq_ok_iff.2 accepted
  have haccepted := accepted_requests hvalid
  obtain ⟨g, hgrants, -⟩ := v.exists_grants b q.principal
  refine ⟨⟨_, authorizeBatchOver_of_grants hvalid hgrants, List.length_map _, ?_, ?_⟩,
    v.reads_authorizeBatchOver b q {},
    fun _ _ _ call _ run _ source => (run.countP_isRead call source).1, ?_⟩
  · rw [BatchRequest.requests, List.map_map, List.map_map]
    refine List.map_congr_left fun check hcheck => ?_
    obtain ⟨hrequest, hnamed⟩ := haccepted _ (List.mem_map_of_mem hcheck)
    exact authorizeOver_of_grants hrequest hnamed hgrants
  · rw [answersOver_eq haccepted hgrants, BatchRequest.requests, List.map_map, List.map_map]
    rfl
  · intro enabled room answered
    have hrecords := records_batch hvalid enabled room answered
    refine ⟨_, hrecords, rfl, ?_, v.afterOver_audit b q.requests⟩
    rw [← hrecords]
    exact authorizeBatchOver_audit

end Service

namespace Rounds

def editor : Principal := ⟨"acme", .user, "eve"⟩

def service : Service where
  authorizer := { registry := .builtin, cache := some (.ofCapacity 1) }
  audit := some { capacity := 8, batchSize := 1 }

/-- A share for the editor beside one for somebody else. -/
def backend : Backend := fun _ => ⟨some 5, .ok { shares := [.ofPrincipal "share-1" editor "post-1"
  .editor, .ofPrincipal "share-2" ⟨"rival", .user, "eve"⟩ "post-1" .owner] }⟩

/-- One of the checks stands in the batch twice. -/
def batch : BatchRequest where
  principal := editor
  checks := [⟨"blog:update", "post-1"⟩, ⟨"blog:delete", "post-1"⟩, ⟨"blog:update", "post-1"⟩]

/-- The last check asks for everything. -/
def wild : BatchRequest := { batch with checks := batch.checks ++ [⟨"blog:*", "post-1"⟩] }

theorem accepted : ∀ e, ¬ batch.Refused e := BatchRequest.validate_eq_ok_iff.1 rfl

theorem refused : wild.Refused (.invalidRequest .wildcard) :=
  BatchRequest.validate_eq_error_iff.1 rfl

end Rounds

theorem Service.authorizeBatchOver_rounds :
    Rounds.service.authorizeBatchOver Rounds.backend Rounds.wild {} =
        (.error (.invalidRequest .wildcard), Rounds.service) ∧
      Rounds.service.answersOver Rounds.backend Rounds.batch.requests =
        [.ok (.allow (.shareAllow "share-1" .editor)), .ok .defaultDeny,
          .ok (.allow (.shareAllow "share-1" .editor))] ∧
      Rounds.service.recordsOver Rounds.backend Rounds.batch.requests =
        (Demand.batch Rounds.batch).records Rounds.service.authorizer
          (Rounds.service.circumstancesOver Rounds.backend {}) := by
  have hwild := authorizeBatchOver_singles Rounds.service Rounds.backend Rounds.wild
  have hbatch := authorizeBatchOver_singles Rounds.service Rounds.backend Rounds.batch
  obtain ⟨⟨ds, hanswer, -, -, hsingles⟩, -, -, hrecords⟩ := hbatch.2.1 Rounds.accepted
  have hroom : Rounds.service.authorizer.HasRoom := by
    intro c hc
    cases hc
    exact Nat.one_pos
  obtain ⟨records, hbatchRecords, hsingleRecords, -⟩ :=
    hrecords rfl hroom fun source => ⟨_, by cases source <;> rfl⟩
  refine ⟨hwild.1 _ Rounds.refused {}, ?_, hsingleRecords.trans hbatchRecords.symm⟩
  have hds : Except.ok ds = .ok [.allow (.shareAllow "share-1" .editor), .defaultDeny,
      .allow (.shareAllow "share-1" .editor)] := hanswer.symm.trans rfl
  cases hds
  exact hsingles

end TenantAccess
