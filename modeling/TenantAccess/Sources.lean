import TenantAccess.Snapshot
import TenantAccess.Store

/-!
# Sources

The three sources read their rows from the store. Each of them may have a fault of its own: it
refuses to answer at once, or it reads only after a delay. A source that needs longer than it is
given fails when its time is up; one that needs exactly that long still answers.
-/
namespace TenantAccess

inductive Fault where
  | fail (reason : String)
  /-- reads only after so many milliseconds -/
  | delay (milliseconds : Nat)
  deriving DecidableEq, Repr

/-- The rows of the three sources. -/
structure GrantRows where
  policies : List StoredPolicy := []
  permissions : List ResourcePermission := []
  shares : List ResourceShare := []
  deriving DecidableEq, Repr

def Store.rowsOf (s : Store) (p : Principal) (traversal : GroupTraversal) : GrantRows :=
  ⟨s.policiesOf p traversal, s.permissionsOf p, s.sharesOf p⟩

/-- When a source has done its part, in milliseconds from the start. -/
inductive Arrival where
  | reads (time : Nat)
  | fails (time : Nat) (reason : String)
  deriving DecidableEq, Repr

def Arrival.time : Arrival → Nat
  | .reads time => time
  | .fails time _ => time

structure Sources where
  store : Store := {}
  faults : Table GrantSource Fault := {}
  /-- rows for every caller, in place of those of the store and without faults -/
  fixed : Option GrantRows := none

namespace Sources

def fault? (s : Sources) (source : GrantSource) : Option Fault :=
  match s.fixed with
  | some _ => none
  | none => s.faults.get? source

def rows (s : Sources) (p : Principal) (traversal : GroupTraversal) : GrantRows :=
  match s.fixed with
  | some rows => rows
  | none => s.store.rowsOf p traversal

/-- Reads one source, however long it takes. -/
def read (s : Sources) (source : GrantSource) (p : Principal) (traversal : GroupTraversal) :
    Except AccessError GrantRows :=
  match s.fault? source with
  | some (.fail reason) => .error (.unavailable source reason)
  | _ => .ok (s.rows p traversal)

/-- What a source does when it is given so many milliseconds. -/
def arrival (s : Sources) (timeout : Nat) (source : GrantSource) : Arrival :=
  match s.fault? source with
  | none => .reads 0
  | some (.fail reason) => .fails 0 reason
  | some (.delay time) =>
    if time ≤ timeout then .reads time
    else .fails timeout ("timed out after " ++ durationText timeout)

/-- When the last source has done its part. -/
def fetchTime (s : Sources) (timeout : Nat) : Nat :=
  (GrantSource.all.map fun source => (s.arrival timeout source).time).foldl max 0

/-- What a source answers; `later` gives the sources as they are at a time. -/
def answer (s : Sources) (later : Nat → Sources) (timeout : Nat) (p : Principal)
    (traversal : GroupTraversal) (source : GrantSource) : Except AccessError GrantRows :=
  match s.arrival timeout source with
  | .reads time => .ok ((later time).rows p traversal)
  | .fails _ reason => .error (.unavailable source reason)

/-- What the sources answer when all reads start now. -/
def answers (s : Sources) (later : Nat → Sources) (timeout : Nat) (p : Principal)
    (traversal : GroupTraversal) : GrantAnswers :=
  let answer := s.answer later timeout p traversal
  { policies := (answer .policies).map GrantRows.policies
    permissions := (answer .resourcePermissions).map GrantRows.permissions
    shares := (answer .resourceShares).map GrantRows.shares }

end Sources

/-- A change to the store or to the faults of its sources. -/
inductive SourceChange where
  | store (c : StoreChange)
  /-- replaces the fault that the source had -/
  | fault (source : GrantSource) (f : Fault)
  | clearFaults
  deriving DecidableEq, Repr

namespace Sources

def change (s : Sources) : SourceChange → Sources
  | .store c => { s with store := s.store.change c }
  | .fault source f => { s with faults := s.faults.set source f }
  | .clearFaults => { s with faults := {} }

end Sources

end TenantAccess
