import TenantAccess.Audit.Record
import TenantAccess.Notice

/-!
# The audit logger

Records wait in a bounded queue until a worker hands them to a sink in batches. A record that finds
the queue full, or the logger stopped, is dropped and counted. Stopping delivers what is queued if
a worker runs, and otherwise counts it as dropped. A stopped logger does not start again.
-/
namespace TenantAccess

variable {α : Type}

/-- Cuts a list into pieces of the given size, or of size one if that is zero; the last piece may
be smaller. -/
def chunks (size : Nat) : List α → List (List α)
  | [] => []
  | a :: as => (a :: as.take (size - 1)) :: chunks size (as.drop (size - 1))
termination_by as => as.length
decreasing_by simp only [List.length_cons, List.length_drop]; omega

/-- Records handed to a sink at once. -/
structure Delivery where
  /-- the number of the sink -/
  sink : Nat
  records : List AuditRecord
  deriving DecidableEq, Repr

structure AuditLogger where
  capacity : Nat
  batchSize : Nat
  /-- the record that waits longest comes first -/
  queue : List AuditRecord := []
  accepting : Bool := true
  /-- the sink of the worker, while one runs -/
  worker : Option Nat := none
  dropped : Nat := 0
  deriving DecidableEq, Repr

namespace AuditLogger

/-- The queue has room for one record at least, and so has a batch. -/
def ofConfig (c : AuditConfig) : AuditLogger where
  capacity := max c.queueCapacity.toNat 1
  batchSize := max c.batchSize.toNat 1

def isRunning (l : AuditLogger) : Bool := l.worker.isSome

def log (l : AuditLogger) (r : AuditRecord) : AuditLogger × List Notice :=
  if !l.accepting then ({ l with dropped := l.dropped + 1 }, [.auditStopped])
  else if l.queue.length < l.capacity then ({ l with queue := l.queue ++ [r] }, [])
  else ({ l with dropped := l.dropped + 1 }, [.auditQueueFull r.principal (l.dropped + 1)])

/-- Starts a worker for a sink, unless one runs or the logger was stopped. Memory is taken as
unbounded: a worker has room for a batch of any size. -/
def start (l : AuditLogger) (sink : Nat) : AuditLogger :=
  if l.isRunning || !l.accepting then l else { l with worker := some sink }

/-- The worker takes the next batch from the queue. -/
def deliver (l : AuditLogger) : Option Delivery × AuditLogger :=
  match l.worker, l.queue with
  | some sink, r :: rs =>
    (some ⟨sink, (r :: rs).take l.batchSize⟩, { l with queue := (r :: rs).drop l.batchSize })
  | _, _ => (none, l)

/-- The worker empties the queue. -/
def drain (l : AuditLogger) : List Delivery × AuditLogger :=
  match l.worker with
  | some sink => ((chunks l.batchSize l.queue).map (Delivery.mk sink), { l with queue := [] })
  | none => ([], l)

/-- The last deliveries, the stopped logger and what it reports. -/
structure Stopped where
  deliveries : List Delivery
  logger : AuditLogger
  notices : List Notice

def stop (l : AuditLogger) : Stopped :=
  let (deliveries, l) := l.drain
  let leftover := l.queue.length
  let dropped := l.dropped + leftover
  ⟨deliveries, { l with accepting := false, worker := none, queue := [], dropped },
    if leftover = 0 then [] else [.auditUndelivered leftover dropped]⟩

end AuditLogger

end TenantAccess
