import TenantAccess.Proofs.Courses
import TenantAccess.Proofs.Validation

/-!
# When a call ends with an error

A call ends with an error if its request is refused, if it was cancelled before it began, or if it
is cancelled while its sources are still being read. Whatever the sources answer, and whether they
answer at all, is no reason for an error. A call that ends with an error leaves cache and audit
logger as they were, and for a refused request the sources are not read.
-/
namespace TenantAccess

/-! ## Any store -/

/-- What comes of the read of a source. -/
structure Reply where
  /-- when it comes, in milliseconds, if it ever does -/
  time : Option Nat
  answer : Except AccessError GrantRows

/-- Any store: what comes of the reads of its sources when they begin now. -/
abbrev Backend := GrantSource → Reply

namespace Backend

variable (b : Backend) (timeout : Nat)

/-- When the source has answered or is given up. -/
def doneAt (source : GrantSource) : Nat :=
  match (b source).time with
  | some time => min time timeout
  | none => timeout

/-- What a source yields when it is given so many milliseconds. -/
def yielded (source : GrantSource) : Except AccessError GrantRows :=
  if (b source).time.any (· ≤ timeout) then (b source).answer
  else .error (.unavailable source ("timed out after " ++ durationText timeout))

def fetchTime : Nat := (GrantSource.all.map (b.doneAt timeout)).foldl max 0

/-- A call is cancelled in time if a source is still being read. -/
def fetch (cancelAt : Option Nat) : Fetch :=
  if cancelAt.any (· < b.fetchTime timeout) then .cancelled
  else .answered (.ofSources (b.yielded timeout))

theorem fetch_eq_cancelled_iff {cancelAt : Option Nat} :
    b.fetch timeout cancelAt = .cancelled ↔ ∃ t, cancelAt = some t ∧ t < b.fetchTime timeout := by
  cases cancelAt with
  | none => simp [fetch]
  | some t => by_cases h : t < b.fetchTime timeout <;> simp [fetch, h]

theorem fetch_eq_answered {cancelAt : Option Nat}
    (inTime : ∀ t, cancelAt = some t → b.fetchTime timeout ≤ t) :
    b.fetch timeout cancelAt = .answered (.ofSources (b.yielded timeout)) := by
  cases cancelAt with
  | none => simp [fetch]
  | some t => simp [fetch, inTime t rfl]

end Backend

namespace Service

variable (v : Service) (b : Backend) (r : AccessRequest) (c : Course)

/-- What happens around a call when the sources answer like that. -/
def circumstancesOver : Circumstances where
  cancelled := c.cancelled
  fetch := b.fetch v.authorizer.fetchTimeout c.cancelAt
  invalidations :=
    (c.before (b.fetchTime v.authorizer.fetchTimeout)).filterMap Event.invalidation?

/-- A call of the service when the sources answer like that. -/
def authorizeOver [Pattern.Engine] : Except AccessError Decision × Service :=
  let time := b.fetchTime v.authorizer.fetchTimeout
  let h := v.authorizer.authorize r (v.circumstancesOver b c)
  (h.result, (c.since time).foldl apply
    ({ v with sources := v.sourcesAt c time, authorizer := h.authorizer }.post h.trail))

/-- The store of the service, read for a principal in the course of a call. -/
def backend (p : Principal) : Backend := fun source =>
  let rowsAt (time : Nat) := (v.sourcesAt c time).rows p v.authorizer.traversal
  match v.sources.fault? source with
  | none => ⟨some 0, .ok (rowsAt 0)⟩
  | some (.fail reason) => ⟨some 0, .error (.unavailable source reason)⟩
  | some (.delay time) => ⟨some time, .ok (rowsAt time)⟩

theorem doneAt_backend (p : Principal) :
    (v.backend c p).doneAt v.authorizer.fetchTimeout = fun source =>
      (v.sources.arrival v.authorizer.fetchTimeout source).time := by
  funext source
  cases h : v.sources.fault? source with
  | none => simp [Backend.doneAt, backend, Sources.arrival, Arrival.time, h]
  | some f =>
    cases f with
    | fail reason => simp [Backend.doneAt, backend, Sources.arrival, Arrival.time, h]
    | delay time =>
      by_cases ht : time ≤ v.authorizer.fetchTimeout
      · simp [Backend.doneAt, backend, Sources.arrival, Arrival.time, h, ht]
      · have hle := Nat.le_of_not_le ht
        simp [Backend.doneAt, backend, Sources.arrival, Arrival.time, h, ht, hle]

theorem yielded_backend (p : Principal) :
    (v.backend c p).yielded v.authorizer.fetchTimeout =
      v.sources.answer (v.sourcesAt c) v.authorizer.fetchTimeout p v.authorizer.traversal := by
  funext source
  cases h : v.sources.fault? source with
  | none => simp [Backend.yielded, backend, Sources.answer, Sources.arrival, h]
  | some f =>
    cases f with
    | fail reason => simp [Backend.yielded, backend, Sources.answer, Sources.arrival, h]
    | delay time =>
      by_cases ht : time ≤ v.authorizer.fetchTimeout <;>
        simp [Backend.yielded, backend, Sources.answer, Sources.arrival, h, ht]

theorem fetchTime_backend (p : Principal) :
    (v.backend c p).fetchTime v.authorizer.fetchTimeout = v.fetchTime := by
  simp only [Backend.fetchTime, fetchTime, Sources.fetchTime, doneAt_backend]

theorem circumstancesOver_backend (p : Principal) :
    v.circumstancesOver (v.backend c p) c = v.circumstances p c := by
  have hfetch : (v.backend c p).fetch v.authorizer.fetchTimeout c.cancelAt = v.fetch p c := by
    rw [Backend.fetch, fetch, fetchTime_backend, yielded_backend]
    rfl
  simp only [circumstancesOver, fetchTime_backend, hfetch]
  rfl

/-- A call of the service is one over its own store. -/
theorem authorize_eq_authorizeOver [Pattern.Engine] :
    v.authorize r c = v.authorizeOver (v.backend c r.principal) r c := by
  simp only [authorizeOver, circumstancesOver_backend, fetchTime_backend]
  rfl

end Service

/-! ## The shapes of a call -/

namespace Authorizer

variable {a : Authorizer} {p : Principal} {r : AccessRequest} {c : Circumstances}
  {g : PreparedGrants} {e : AccessError} {answers : GrantAnswers}

theorem lookup_of_miss (miss : (a.lookup p).1 = none) : (a.lookup p).2 = a := by
  cases hc : a.cache with
  | none => rw [lookup_uncached hc]
  | some cache =>
    rw [lookup_cached hc] at miss ⊢
    simp only [GrantCache.get] at miss ⊢
    split at miss
    · cases miss
    · simp [← hc]

variable [Pattern.Engine]

theorem grants_of_cancelled (cancelled : c.cancelled = true) :
    a.grants p c = ⟨.error .cancelled, a.invalidateAll c.invalidations, []⟩ := by
  simp [grants, cancelled]

theorem grants_of_hit (live : c.cancelled = false) (hit : (a.lookup p).1 = some g) :
    a.grants p c =
      ⟨.ok g, (a.lookup p).2.invalidateAll c.invalidations, [.notice (.cacheHit p)]⟩ := by
  rcases hl : a.lookup p with ⟨found, b⟩
  rw [hl] at hit
  subst hit
  simp [grants, live, hl]

theorem grants_of_cancelledFetch (live : c.cancelled = false) (miss : (a.lookup p).1 = none)
    (cancelled : c.fetch = .cancelled) :
    a.grants p c =
      ⟨.error .cancelled, a.invalidateAll c.invalidations, [.notice (.cancelledFetch p)]⟩ := by
  have ha := lookup_of_miss miss
  rcases hl : a.lookup p with ⟨found, b⟩
  rw [hl] at miss ha
  subst miss ha
  simp [grants, live, hl, cancelled]

theorem authorize_of_refused (refused : r.Refused e) :
    a.authorize r c =
      ⟨.error e, a.invalidateAll c.invalidations, [.notice (.rejected r.principal e)]⟩ := by
  simp [authorize, AccessRequest.validate_eq_error_iff.2 refused]

/-- A call that ends with an error has kept nothing and recorded nothing. -/
theorem grants_of_error (h : (a.grants p c).result = .error e) :
    (a.grants p c).authorizer = a.invalidateAll c.invalidations ∧
      ∃ notices : List Notice, (a.grants p c).trail = notices.map .notice := by
  cases hlive : c.cancelled with
  | true =>
    rw [grants_of_cancelled hlive]
    exact ⟨rfl, [], rfl⟩
  | false =>
    cases hfound : (a.lookup p).1 with
    | some g =>
      rw [grants_of_hit hlive hfound] at h
      cases h
    | none =>
      cases hfetch : c.fetch with
      | cancelled =>
        rw [grants_of_cancelledFetch hlive hfound hfetch]
        exact ⟨rfl, [_], rfl⟩
      | answered answers =>
        rw [grants_of_miss hlive hfound hfetch] at h
        cases h

theorem authorize_of_error (h : (a.authorize r c).result = .error e) :
    (a.authorize r c).authorizer = a.invalidateAll c.invalidations ∧
      ∃ notices : List Notice, (a.authorize r c).trail = notices.map .notice := by
  cases hvalid : r.validate with
  | error e' =>
    rw [authorize_of_refused (AccessRequest.validate_eq_error_iff.1 hvalid)]
    exact ⟨rfl, [_], rfl⟩
  | ok =>
    cases hgrants : (a.grants r.principal c).result with
    | error e' =>
      simp only [authorize, hvalid, hgrants]
      exact grants_of_error hgrants
    | ok g =>
      rw [authorize_of_valid hvalid, hgrants] at h
      cases h

end Authorizer

/-! ## What becomes of a call -/

namespace Service

variable {v : Service} {b : Backend} {r : AccessRequest} {c : Course} {e : AccessError}
  {result : Except AccessError Decision}

theorem post_notices (v : Service) (notices : List Notice) :
    v.post (notices.map .notice) = v.note notices := by
  induction notices generalizing v with
  | nil => simp [post, note]
  | cons n notices ih =>
    have hstep : v.post (.notice n :: notices.map .notice) =
        (v.note [n]).post (notices.map .notice) := rfl
    rw [List.map_cons, hstep, ih]
    simp [note]

variable [Pattern.Engine]

/-- What a call over a store comes to. -/
inductive Outcome (v : Service) (b : Backend) (r : AccessRequest) (c : Course) :
    Except AccessError Decision → Prop
  | refused {e : AccessError} (refused : r.Refused e) : Outcome v b r c (.error e)
  | cancelledBefore (accepted : ∀ e, ¬ r.Refused e) (cancelled : c.cancelled = true) :
      Outcome v b r c (.error .cancelled)
  | cancelledMeanwhile (accepted : ∀ e, ¬ r.Refused e) (live : c.cancelled = false)
      (miss : (v.authorizer.lookup r.principal).1 = none) {t : Nat} (late : c.cancelAt = some t)
      (pending : t < b.fetchTime v.authorizer.fetchTimeout) : Outcome v b r c (.error .cancelled)
  | held (accepted : ∀ e, ¬ r.Refused e) (live : c.cancelled = false) {g : PreparedGrants}
      (hit : (v.authorizer.lookup r.principal).1 = some g) :
      Outcome v b r c (.ok (g.decide r.action r.resource r.context))
  | fetched (accepted : ∀ e, ¬ r.Refused e) (live : c.cancelled = false)
      (miss : (v.authorizer.lookup r.principal).1 = none)
      (inTime : ∀ t, c.cancelAt = some t → b.fetchTime v.authorizer.fetchTimeout ≤ t) :
      Outcome v b r c (.ok (((Snapshot.collect r.principal
        (.ofSources (b.yielded v.authorizer.fetchTimeout))).prepare v.authorizer.registry).decide
          r.action r.resource r.context))

/-- A call comes to one thing only. -/
theorem Outcome.result_eq (h : v.Outcome b r c result) : (v.authorizeOver b r c).1 = result := by
  simp only [authorizeOver]
  cases h with
  | refused refused => rw [Authorizer.authorize_of_refused refused]
  | cancelledBefore accepted cancelled =>
    rw [Authorizer.authorize_of_valid (AccessRequest.validate_eq_ok_iff.2 accepted),
      Authorizer.grants_of_cancelled cancelled]
    rfl
  | cancelledMeanwhile accepted live miss late pending =>
    have hfetch := (b.fetch_eq_cancelled_iff _).2 ⟨_, late, pending⟩
    rw [Authorizer.authorize_of_valid (AccessRequest.validate_eq_ok_iff.2 accepted),
      Authorizer.grants_of_cancelledFetch live miss hfetch]
    rfl
  | held accepted live hit =>
    rw [Authorizer.authorize_of_valid (AccessRequest.validate_eq_ok_iff.2 accepted),
      Authorizer.grants_of_hit live hit]
    rfl
  | fetched accepted live miss inTime =>
    have hfetch := b.fetch_eq_answered _ inTime
    rw [Authorizer.authorize_of_valid (AccessRequest.validate_eq_ok_iff.2 accepted),
      Authorizer.grants_of_miss live miss hfetch]
    rfl

/-- A call comes to something. -/
theorem exists_outcome (v : Service) (b : Backend) (r : AccessRequest) (c : Course) :
    ∃ result, v.Outcome b r c result := by
  cases hvalid : r.validate with
  | error e => exact ⟨_, .refused (AccessRequest.validate_eq_error_iff.1 hvalid)⟩
  | ok =>
    have haccepted := AccessRequest.validate_eq_ok_iff.1 hvalid
    cases hlive : c.cancelled with
    | true => exact ⟨_, .cancelledBefore haccepted hlive⟩
    | false =>
      cases hfound : (v.authorizer.lookup r.principal).1 with
      | some g => exact ⟨_, .held haccepted hlive hfound⟩
      | none =>
        by_cases hpending : ∃ t, c.cancelAt = some t ∧ t < b.fetchTime v.authorizer.fetchTimeout
        · obtain ⟨t, hlate, hpending⟩ := hpending
          exact ⟨_, .cancelledMeanwhile haccepted hlive hfound hlate hpending⟩
        · refine ⟨_, .fetched haccepted hlive hfound fun t hlate => ?_⟩
          exact Nat.not_lt.1 fun hlt => hpending ⟨t, hlate, hlt⟩

theorem authorizeOver_eq_iff : (v.authorizeOver b r c).1 = result ↔ v.Outcome b r c result := by
  constructor
  · rintro rfl
    obtain ⟨result, h⟩ := v.exists_outcome b r c
    rw [h.result_eq]
    exact h
  · exact Outcome.result_eq

/-! ## What an error leaves behind -/

/-- A call that kept and recorded nothing leaves what the events make of the service, with its
notices. -/
theorem authorizeOver_of_notices {notices : List Notice}
    (kept : (v.authorizer.authorize r (v.circumstancesOver b c)).authorizer =
      v.authorizer.invalidateAll (v.circumstancesOver b c).invalidations)
    (trail : (v.authorizer.authorize r (v.circumstancesOver b c)).trail =
      notices.map .notice) :
    (v.authorizeOver b r c).2 = ((c.events.map Prod.snd).foldl apply v).note notices := by
  have hsplit := c.before_append_since (b.fetchTime v.authorizer.fetchTimeout)
  simp only [authorizeOver, kept, trail, post_notices, foldl_apply_eq, note, ← hsplit,
    Sources.afterEvents_append, Authorizer.afterEvents_append]
  rfl

/-- A call over a store comes to exactly one outcome. With an error it leaves cache and audit logger
as they were, but for the invalidations that others asked for meanwhile. A refused request leaves
nothing but a notice, whatever the store would answer. -/
theorem authorizeOver_outcome (v : Service) (b : Backend) (r : AccessRequest) (c : Course) :
    (∀ result, (v.authorizeOver b r c).1 = result ↔ v.Outcome b r c result) ∧
      (∀ e, (v.authorizeOver b r c).1 = .error e →
        (e.isInvalidRequest = true ∨ e = .cancelled) ∧
          (v.authorizeOver b r c).2.authorizer =
            v.authorizer.afterEvents (c.events.map Prod.snd) ∧
          (v.authorizeOver b r c).2.audit = v.audit) ∧
      (∀ e, r.Refused e → v.authorizeOver b r c =
        (.error e, ((c.events.map Prod.snd).foldl apply v).note [.rejected r.principal e])) ∧
      v.authorize r c = v.authorizeOver (v.backend c r.principal) r c := by
  refine ⟨fun result => authorizeOver_eq_iff, ?_, ?_, v.authorize_eq_authorizeOver r c⟩
  · intro e herror
    have houtcome := authorizeOver_eq_iff.1 herror
    have hsurface : e.isInvalidRequest = true ∨ e = .cancelled := by
      cases houtcome with
      | refused refused => exact .inl refused.isInvalidRequest
      | cancelledBefore | cancelledMeanwhile => exact .inr rfl
    obtain ⟨hkept, notices, htrail⟩ := Authorizer.authorize_of_error herror
    have hleft := authorizeOver_of_notices hkept htrail
    rw [foldl_apply_eq] at hleft
    exact ⟨hsurface, by rw [hleft]; rfl, by rw [hleft]; rfl⟩
  · intro e hrefused
    have hcall : v.authorizer.authorize r (v.circumstancesOver b c) = _ :=
      Authorizer.authorize_of_refused hrefused
    refine Prod.ext (authorizeOver_eq_iff.2 (.refused hrefused)) ?_
    refine authorizeOver_of_notices ?_ ?_ <;> rw [hcall]
    rfl

end Service

/-! ## A store that never answers -/

namespace Stalled

def clerk : Principal := ⟨"acme", .user, "carl"⟩

/-- The grants of another principal are cached, and there is room for one audit record. -/
def service : Service where
  authorizer :=
    { registry := .builtin, cache := some ⟨2, [(⟨"acme", .user, "dora"⟩, {})], 0, {}⟩ }
  audit := some { capacity := 1, batchSize := 1 }

def backend : Backend := fun _ => ⟨none, .ok {}⟩

/-- The resource is that of everything, and it belongs to someone else. -/
def request : AccessRequest where
  principal := clerk
  action := "docs:read"
  resource := "*"
  resourceOrganization := some "rival"

def plain : AccessRequest := { request with resource := "docs/1", resourceOrganization := none }

theorem refused : request.Refused (.invalidRequest .wildcard) :=
  AccessRequest.validate_eq_error_iff.1 rfl

theorem accepted : ∀ e, ¬ plain.Refused e := AccessRequest.validate_eq_ok_iff.1 rfl

end Stalled

/-- The wildcard counts before the owner; a call for one resource waits until it is cancelled. -/
theorem Service.authorizeOver_stalled :
    (Stalled.service.authorizeOver Stalled.backend Stalled.request {}).1 =
        .error (.invalidRequest .wildcard) ∧
      (Stalled.service.authorizeOver Stalled.backend Stalled.plain { cancelAt := some 5 }).1 =
        .error .cancelled ∧
      (Stalled.service.authorizeOver Stalled.backend Stalled.plain
        { cancelAt := some 5 }).2.authorizer = Stalled.service.authorizer := by
  have hrefused := Stalled.service.authorizeOver_outcome Stalled.backend Stalled.request {}
  have hwaiting := Stalled.service.authorizeOver_outcome Stalled.backend Stalled.plain
    { cancelAt := some 5 }
  have hcancelled := (hwaiting.1 (.error .cancelled)).2
    (.cancelledMeanwhile Stalled.accepted rfl rfl rfl (by decide))
  refine ⟨?_, hcancelled, (hwaiting.2.1 _ hcancelled).2.1⟩
  rw [hrefused.2.2.1 _ Stalled.refused]

end TenantAccess
