import TenantAccess.Audit.Logger
import TenantAccess.Authorizer
import TenantAccess.Sources

/-!
# The service

An authorizer at work: with its sources, its audit logger and the notices it gave so far. Calls take
time when sources are slow. While one waits, the store may change and cached grants may be
invalidated: a source reads what is there when its turn comes, and grants that were invalidated
before the last source had answered are not cached.
-/
namespace TenantAccess

variable [Pattern.Engine]

/-- Something done to a service besides a call. -/
inductive Event where
  | change (c : SourceChange)
  | invalidate (i : Invalidation)
  deriving DecidableEq, Repr

/-- What happens from the start of a call on; times are in milliseconds. -/
structure Course where
  /-- whether the call was cancelled before it began -/
  cancelled : Bool := false
  /-- when the call is cancelled -/
  cancelAt : Option Nat := none
  events : List (Nat × Event) := []
  deriving DecidableEq, Repr

namespace Course

/-- An event waits for the one before it. -/
def inTurn (now : Nat) : List (Nat × Event) → List (Nat × Event)
  | [] => []
  | (time, e) :: es => (max now time, e) :: inTurn (max now time) es

/-- The events before a time. -/
def before (c : Course) (time : Nat) : List Event :=
  ((inTurn 0 c.events).filter fun e => e.1 < time).map Prod.snd

/-- The events from a time on. -/
def since (c : Course) (time : Nat) : List Event :=
  ((inTurn 0 c.events).filter fun e => time ≤ e.1).map Prod.snd

end Course

namespace Event

def sourceChange? : Event → Option SourceChange
  | .change c => some c
  | .invalidate _ => none

def invalidation? : Event → Option Invalidation
  | .change _ => none
  | .invalidate i => some i

end Event

structure Service where
  sources : Sources := {}
  authorizer : Authorizer
  audit : Option AuditLogger := none
  /-- the oldest comes first -/
  notices : List Notice := []

namespace Service

def apply (s : Service) : Event → Service
  | .change c => { s with sources := s.sources.change c }
  | .invalidate i => { s with authorizer := s.authorizer.invalidate i }

def note (s : Service) (ns : List Notice) : Service := { s with notices := s.notices ++ ns }

/-- Hands a record to the audit logger, if there is one. -/
def record (s : Service) (r : AuditRecord) : Service :=
  match s.audit with
  | some l =>
    let (l, notices) := l.log r
    { s with audit := some l }.note notices
  | none => s

def post (s : Service) (t : Trail) : Service :=
  t.foldl (fun s e =>
    match e with
    | .notice n => s.note [n]
    | .record r => s.record r) s

/-- The sources as the events before a time leave them. -/
def sourcesAt (s : Service) (c : Course) (time : Nat) : Sources :=
  ((c.before time).filterMap Event.sourceChange?).foldl Sources.change s.sources

/-- When the sources would have answered a call that starts now. -/
def fetchTime (s : Service) : Nat := s.sources.fetchTime s.authorizer.fetchTimeout

/-- A call is cancelled in time if the last source has not answered yet. -/
def fetch (s : Service) (p : Principal) (c : Course) : Fetch :=
  if c.cancelAt.any (· < s.fetchTime) then .cancelled
  else .answered (s.sources.answers (s.sourcesAt c) s.authorizer.fetchTimeout p
    s.authorizer.traversal)

def circumstances (s : Service) (p : Principal) (c : Course) : Circumstances where
  cancelled := c.cancelled
  fetch := s.fetch p c
  invalidations := (c.before s.fetchTime).filterMap Event.invalidation?

/-- Takes over the end of a call, the changes made meanwhile and the events that followed. -/
def settle {α : Type} (s : Service) (c : Course) (h : Handled α) : Service :=
  let time := s.fetchTime
  let s := { s with sources := s.sourcesAt c time, authorizer := h.authorizer }.post h.trail
  (c.since time).foldl apply s

def authorize (s : Service) (r : AccessRequest) (c : Course := {}) :
    Except AccessError Decision × Service :=
  let h := s.authorizer.authorize r (s.circumstances r.principal c)
  (h.result, s.settle c h)

def authorizeBatch (s : Service) (b : BatchRequest) (c : Course := {}) :
    Except AccessError (List Decision) × Service :=
  let h := s.authorizer.authorizeBatch b (s.circumstances b.principal c)
  (h.result, s.settle c h)

/-- Collects a principal's grants without deciding anything. -/
def collect (s : Service) (p : Principal) (traversal : GroupTraversal) (timeout : Nat) :
    Snapshot × Service :=
  let snapshot := Snapshot.collect p
    (s.sources.answers (fun _ => s.sources) timeout p traversal)
  (snapshot, s.note (snapshot.notices p))

/-- Stops the audit logger. -/
def stopAudit (s : Service) : Service :=
  match s.audit with
  | some l =>
    let stopped := l.stop
    { s with audit := some stopped.logger }.note stopped.notices
  | none => s

end Service

end TenantAccess
