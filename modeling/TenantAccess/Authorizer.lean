import TenantAccess.Cache
import TenantAccess.Trail
import TenantAccess.Verdict

/-!
# The authorizer

A request is validated before anything else. The grants of its principal then come from the cache or
from the three sources, and decide the request. Invalid requests and cancellation are the only
errors; sources that fail and grants that do not compile only leave fewer grants to decide with.
-/
namespace TenantAccess

variable [Pattern.Engine]

structure Authorizer where
  traversal : GroupTraversal := .direct
  /-- how long each source may take, in milliseconds -/
  fetchTimeout : Nat := 2000
  registry : Registry
  cache : Option GrantCache := none

/-- How the reading of the sources went. -/
inductive Fetch where
  /-- the call was cancelled before all sources had answered -/
  | cancelled
  | answered (answers : GrantAnswers)

/-- What happens around a call. -/
structure Circumstances where
  /-- whether the call was cancelled before it began -/
  cancelled : Bool := false
  /-- how the sources answer if they are read -/
  fetch : Fetch
  /-- invalidations that arrive before the sources have answered -/
  invalidations : List Invalidation := []

/-- The end of a call. -/
structure Handled (α : Type) where
  result : Except AccessError α
  authorizer : Authorizer
  trail : Trail

/-- Several checks for one principal. -/
structure BatchRequest where
  principal : Principal
  checks : List ResourceAction
  context : Context := {}

namespace BatchRequest

def validateAll : List ResourceAction → Except AccessError Unit
  | [] => .ok ()
  | c :: cs => do
    c.validate
    validateAll cs

def validate (b : BatchRequest) : Except AccessError Unit := do
  b.principal.validate
  validateAll b.checks

end BatchRequest

namespace Authorizer

def ofConfig (c : Config) : Except ConfigError Authorizer :=
  c.checked.map fun c => {
    traversal := c.traversal
    fetchTimeout := c.fetchTimeout.toNat
    registry := .builtin
    cache := if c.cache.enabled then some (.ofCapacity c.cache.capacity.toNat) else none }

/-- Whatever was compiled with the former operators is forgotten. -/
def withOperators (a : Authorizer) (registry : Registry) : Authorizer :=
  { a with registry, cache := a.cache.map GrantCache.clear }

def cacheEnabled (a : Authorizer) : Bool := a.cache.isSome

def invalidate (a : Authorizer) (i : Invalidation) : Authorizer :=
  { a with cache := a.cache.map (GrantCache.invalidate · i) }

def invalidateAll (a : Authorizer) (is : List Invalidation) : Authorizer := is.foldl invalidate a

def lookup (a : Authorizer) (p : Principal) : Option PreparedGrants × Authorizer :=
  match a.cache with
  | some c =>
    let (found, c) := c.get p
    (found, { a with cache := some c })
  | none => (none, a)

/-- The generation to remember while the sources are read. -/
def generation? (a : Authorizer) (p : Principal) : Option Nat :=
  a.cache.map fun c => c.generation p

/-- Offers grants read at a generation to the cache. Tells of complete grants that are refused. -/
def remember (a : Authorizer) (p : Principal) (g : PreparedGrants) (generation : Option Nat) :
    Authorizer × Trail :=
  match a.cache, generation with
  | some c, some n =>
    let (stored, c) := c.put p g n
    ({ a with cache := some c },
      if !stored && g.isComplete then [.notice (.notCached p)] else [])
  | _, _ => (a, [])

/-- The grants of a principal. -/
def grants (a : Authorizer) (p : Principal) (c : Circumstances) : Handled PreparedGrants :=
  if c.cancelled then ⟨.error .cancelled, a.invalidateAll c.invalidations, []⟩
  else
    match a.lookup p with
    | (some g, a) => ⟨.ok g, a.invalidateAll c.invalidations, [.notice (.cacheHit p)]⟩
    | (none, a) =>
      match c.fetch with
      | .cancelled =>
        ⟨.error .cancelled, a.invalidateAll c.invalidations, [.notice (.cancelledFetch p)]⟩
      | .answered answers =>
        let snapshot := Snapshot.collect p answers
        let g := snapshot.prepare a.registry
        let generation := a.generation? p
        let (a, kept) := (a.invalidateAll c.invalidations).remember p g generation
        ⟨.ok g, a, snapshot.trail p ++ g.trail p ++ kept⟩

def authorize (a : Authorizer) (r : AccessRequest) (c : Circumstances) : Handled Decision :=
  match r.validate with
  | .error e =>
    ⟨.error e, a.invalidateAll c.invalidations, [.notice (.rejected r.principal e)]⟩
  | .ok () =>
    let h := a.grants r.principal c
    match h.result with
    | .error e => ⟨.error e, h.authorizer, h.trail⟩
    | .ok g =>
      let d := g.decide r.action r.resource r.context
      ⟨.ok d, h.authorizer, h.trail ++ d.trail r.principal r.target⟩

/-- All checks are validated before anything is read; the sources are read once. -/
def authorizeBatch (a : Authorizer) (b : BatchRequest) (c : Circumstances) :
    Handled (List Decision) :=
  match b.validate with
  | .error e => ⟨.error e, a.invalidateAll c.invalidations, []⟩
  | .ok () =>
    if b.checks.isEmpty then ⟨.ok [], a.invalidateAll c.invalidations, []⟩
    else
      let h := a.grants b.principal c
      match h.result with
      | .error e => ⟨.error e, h.authorizer, h.trail⟩
      | .ok g =>
        let decided := b.checks.map fun check =>
          (check, g.decide check.action check.resource b.context)
        ⟨.ok (decided.map Prod.snd), h.authorizer,
          h.trail ++ decided.flatMap fun (check, d) => d.trail b.principal check⟩

end Authorizer

end TenantAccess
