import TenantAccess.Service

/-!
# What a call answers

A valid call that is not cancelled answers from grants: those of the cache if there are any, else
those prepared from what the sources answered. Without a cache only the sources count, and without
faults they answer at once with the rows of the store.
-/
namespace TenantAccess

namespace Authorizer

variable {a : Authorizer} {p : Principal} {r : AccessRequest} {c : Circumstances}
  {answers : GrantAnswers}

@[simp] theorem lookup_registry (a : Authorizer) (p : Principal) :
    (a.lookup p).2.registry = a.registry := by
  cases h : a.cache <;> simp [lookup, h]

@[simp] theorem lookup_traversal (a : Authorizer) (p : Principal) :
    (a.lookup p).2.traversal = a.traversal := by
  cases h : a.cache <;> simp [lookup, h]

@[simp] theorem invalidateAll_registry (a : Authorizer) (is : List Invalidation) :
    (a.invalidateAll is).registry = a.registry := by
  induction is generalizing a with
  | nil => rfl
  | cons i is ih => exact ih (a.invalidate i)

theorem lookup_uncached (h : a.cache = none) (p : Principal) : a.lookup p = (none, a) := by
  simp [lookup, h]

variable [Pattern.Engine]

theorem grants_of_miss (live : c.cancelled = false) (miss : (a.lookup p).1 = none)
    (answered : c.fetch = .answered answers) :
    (a.grants p c).result = .ok ((Snapshot.collect p answers).prepare a.registry) := by
  rcases hl : a.lookup p with ⟨found, b⟩
  have hreg : b.registry = a.registry := by rw [← a.lookup_registry p, hl]
  rw [hl] at miss
  subst miss
  simp [grants, live, hl, answered, hreg]

/-- What was read is offered to the cache with the generation from before the invalidations. -/
theorem grants_authorizer_of_miss (live : c.cancelled = false) (miss : (a.lookup p).1 = none)
    (answered : c.fetch = .answered answers) :
    (a.grants p c).authorizer =
      (((a.lookup p).2.invalidateAll c.invalidations).remember p
        ((Snapshot.collect p answers).prepare a.registry) ((a.lookup p).2.generation? p)).1 := by
  rcases hl : a.lookup p with ⟨found, b⟩
  have hreg : b.registry = a.registry := by rw [← a.lookup_registry p, hl]
  rw [hl] at miss
  subst miss
  simp [grants, live, hl, answered, hreg]

/-- A valid request is decided by the grants of its principal. -/
theorem authorize_of_valid (valid : r.validate = .ok ()) :
    (a.authorize r c).result =
      (a.grants r.principal c).result.map fun g => g.decide r.action r.resource r.context := by
  simp only [authorize, valid]
  cases h : (a.grants r.principal c).result <;> rfl

theorem authorize_uncached (uncached : a.cache = none) (valid : r.validate = .ok ())
    (live : c.cancelled = false) (answered : c.fetch = .answered answers) :
    (a.authorize r c).result =
      .ok (((Snapshot.collect r.principal answers).prepare a.registry).decide r.action r.resource
        r.context) := by
  have miss : (a.lookup r.principal).1 = none := by rw [lookup_uncached uncached]
  rw [authorize_of_valid valid, grants_of_miss live miss answered]
  rfl

end Authorizer

namespace Sources

variable {s : Sources} {timeout : Nat} {source : GrantSource}

theorem arrival_of_faultless (h : s.fault? source = none) :
    s.arrival timeout source = .reads 0 := by
  simp [arrival, h]

theorem fetchTime_of_faultless (h : ∀ source, s.fault? source = none) :
    s.fetchTime timeout = 0 := by
  simp [fetchTime, GrantSource.all, arrival_of_faultless (h _), Arrival.time]

/-- Sources without faults answer with the rows that are there when the call begins. -/
theorem answers_of_faultless (h : ∀ source, s.fault? source = none) (later : Nat → Sources)
    (p : Principal) (traversal : GroupTraversal) :
    s.answers later timeout p traversal =
      ⟨.ok ((later 0).rows p traversal).policies, .ok ((later 0).rows p traversal).permissions,
        .ok ((later 0).rows p traversal).shares⟩ := by
  simp [answers, answer, arrival_of_faultless (h _), Except.map]

end Sources

@[simp] theorem Course.before_zero (c : Course) : c.before 0 = [] := by
  simp [before]

namespace Service

variable {s : Service} {p : Principal} {c : Course}

@[simp] theorem sourcesAt_zero (s : Service) (c : Course) : s.sourcesAt c 0 = s.sources := by
  simp [sourcesAt]

/-- A call is over before it can be cancelled if no source has a fault. -/
theorem fetch_of_faultless (h : ∀ source, s.sources.fault? source = none) :
    s.fetch p c = .answered (s.sources.answers (s.sourcesAt c) s.authorizer.fetchTimeout p
      s.authorizer.traversal) := by
  have ht : s.fetchTime = 0 := Sources.fetchTime_of_faultless h
  simp [fetch, ht]

end Service

end TenantAccess
