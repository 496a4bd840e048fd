import TenantAccess.Proofs.CacheSteps
import TenantAccess.Proofs.Calls

/-!
# Calls that overlap

Any number of calls are under way at a time. Each looks its principal up in the cache; on a miss it
notes the generation, reads the three sources one by one and offers what it read to the cache.
Between any two of these steps other calls take theirs, the store changes and cached grants are
invalidated. A call that is cancelled takes no further step.
-/
namespace TenantAccess

/-! ## What a call wants -/

inductive Demand where
  | single (r : AccessRequest)
  | batch (b : BatchRequest)

namespace Demand

def principal : Demand → Principal
  | .single r => r.principal
  | .batch b => b.principal

/-- The call gets as far as the cache. -/
def Proceeds : Demand → Prop
  | .single r => r.validate = .ok ()
  | .batch b => b.validate = .ok () ∧ b.checks.isEmpty = false

def decisions (g : PreparedGrants) : Demand → List Decision
  | .single r => [g.decide r.action r.resource r.context]
  | .batch b => b.checks.map fun check => g.decide check.action check.resource b.context

variable [Pattern.Engine]

/-- What the authorizer answers. -/
def answer (a : Authorizer) (c : Circumstances) : Demand → Except AccessError (List Decision)
  | .single r => (a.authorize r c).result.map fun d => [d]
  | .batch b => (a.authorizeBatch b c).result

/-- The answer consists of the decisions on the grants of the principal. -/
theorem answer_of_grants {d : Demand} {a : Authorizer} {c : Circumstances} {g : PreparedGrants}
    (proceeds : d.Proceeds) (h : (a.grants d.principal c).result = .ok g) :
    d.answer a c = .ok (d.decisions g) := by
  cases d with
  | single r =>
    simp only [principal] at h
    rw [answer, Authorizer.authorize_of_valid proceeds, h]
    rfl
  | batch b =>
    obtain ⟨hvalid, hchecks⟩ := proceeds
    simp only [principal] at h
    simp [answer, Authorizer.authorizeBatch, hvalid, hchecks, h, decisions]

end Demand

/-! ## What is read -/

/-- What the calls read when each source answers so. -/
def GrantAnswers.ofSources (answers : GrantSource → Except AccessError GrantRows) : GrantAnswers where
  policies := (answers .policies).map GrantRows.policies
  permissions := (answers .resourcePermissions).map GrantRows.permissions
  shares := (answers .resourceShares).map GrantRows.shares

/-- A source that is read now answers with its rows, unless it fails. -/
inductive Sources.Yields (s : Sources) (p : Principal) (traversal : GroupTraversal)
    (source : GrantSource) : Except AccessError GrantRows → Prop
  | rows : Yields s p traversal source (.ok (s.rows p traversal))
  | failure (reason : String) : Yields s p traversal source (.error (.unavailable source reason))

/-- What the sources answer is what each of them yields at the time when it has done its part. -/
theorem Sources.answers_yielded (s : Sources) (later : Nat → Sources) (timeout : Nat)
    (p : Principal) (traversal : GroupTraversal) :
    ∃ answers, s.answers later timeout p traversal = .ofSources answers ∧ ∀ source,
      (later (s.arrival timeout source).time).Yields p traversal source (answers source) := by
  refine ⟨s.answer later timeout p traversal, rfl, fun source => ?_⟩
  cases h : s.arrival timeout source with
  | reads time =>
    simp only [answer, h]
    exact .rows
  | fails time reason =>
    simp only [answer, h]
    exact .failure reason

/-! ## Steps -/

/-- How far a call has come. -/
inductive Phase where
  | missed
  /-- the generation that was noted and what the sources have answered so far -/
  | reading (generation : Option Nat) (reads : Table GrantSource (Except AccessError GrantRows))
  /-- the call decides on these grants -/
  | answered (g : PreparedGrants)

/-- A call that finds grants in the cache is over. -/
def Phase.ofLookup : Option PreparedGrants → Phase
  | some g => .answered g
  | none => .missed

structure Call where
  demand : Demand
  phase : Phase

/-- An authorizer, its sources and the calls that are under way or over. -/
structure Traffic where
  sources : Sources
  authorizer : Authorizer
  calls : Table Nat Call := {}

inductive Action where
  | lookup (call : Nat) (d : Demand)
  | note (call : Nat)
  | read (call : Nat) (p : Principal) (source : GrantSource) (answer : Except AccessError GrantRows)
  | put (call : Nat)
  | change (c : SourceChange)
  | invalidate (i : Invalidation)

namespace Traffic

variable [Pattern.Engine]

/-- The grants that a call prepares from what it has read. -/
def prepared (s : Traffic) (p : Principal)
    (answers : GrantSource → Except AccessError GrantRows) : PreparedGrants :=
  (Snapshot.collect p (.ofSources answers)).prepare s.authorizer.registry

inductive Step (s : Traffic) : Action → Traffic → Prop
  | lookup {c : Nat} {d : Demand} (unused : s.calls.get? c = none) (proceeds : d.Proceeds) :
      Step s (.lookup c d)
        { s with
          authorizer := (s.authorizer.lookup d.principal).2
          calls := s.calls.set c ⟨d, .ofLookup (s.authorizer.lookup d.principal).1⟩ }
  | note {c : Nat} {d : Demand} (missed : s.calls.get? c = some ⟨d, .missed⟩) :
      Step s (.note c)
        { s with calls := s.calls.set c ⟨d, .reading (s.authorizer.generation? d.principal) {}⟩ }
  | read {c : Nat} {d : Demand} {generation : Option Nat}
      {reads : Table GrantSource (Except AccessError GrantRows)} {source : GrantSource}
      {answer : Except AccessError GrantRows}
      (reading : s.calls.get? c = some ⟨d, .reading generation reads⟩)
      (unread : reads.get? source = none)
      (yields : s.sources.Yields d.principal s.authorizer.traversal source answer) :
      Step s (.read c d.principal source answer)
        { s with calls := s.calls.set c ⟨d, .reading generation (reads.set source answer)⟩ }
  | put {c : Nat} {d : Demand} {generation : Option Nat}
      {reads : Table GrantSource (Except AccessError GrantRows)}
      {answers : GrantSource → Except AccessError GrantRows}
      (reading : s.calls.get? c = some ⟨d, .reading generation reads⟩)
      (complete : ∀ source, reads.get? source = some (answers source)) :
      Step s (.put c)
        { s with
          authorizer :=
            (s.authorizer.remember d.principal (s.prepared d.principal answers) generation).1
          calls := s.calls.set c ⟨d, .answered (s.prepared d.principal answers)⟩ }
  | change (c : SourceChange) : Step s (.change c) { s with sources := s.sources.change c }
  | invalidate (i : Invalidation) :
      Step s (.invalidate i) { s with authorizer := s.authorizer.invalidate i }

theorem Step.registry_eq {s t : Traffic} {action : Action} (h : Step s action t) :
    t.authorizer.registry = s.authorizer.registry := by
  cases h with
  | lookup _ _ => exact Authorizer.lookup_registry ..
  | put _ _ => exact Authorizer.remember_registry
  | _ => rfl

inductive Run : Traffic → List Action → Traffic → Prop
  | nil {s : Traffic} : Run s [] s
  | cons {s t u : Traffic} {action : Action} {trace : List Action} (step : Step s action t)
      (rest : Run t trace u) : Run s (action :: trace) u

namespace Run

variable {s t u : Traffic} {trace trace' : List Action}

theorem append (h : Run s trace t) (h' : Run t trace' u) : Run s (trace ++ trace') u := by
  induction h with
  | nil => exact h'
  | cons step _ ih => exact .cons step (ih h')

theorem split (h : Run s (trace ++ trace') u) : ∃ t, Run s trace t ∧ Run t trace' u := by
  induction trace generalizing s with
  | nil => exact ⟨s, .nil, h⟩
  | cons action trace ih =>
    cases h with
    | cons step rest =>
      obtain ⟨t, hleft, hright⟩ := ih rest
      exact ⟨t, .cons step hleft, hright⟩

theorem registry_eq (h : Run s trace t) : t.authorizer.registry = s.authorizer.registry := by
  induction h with
  | nil => rfl
  | cons step _ ih => rw [ih, step.registry_eq]

end Run

end Traffic

end TenantAccess
