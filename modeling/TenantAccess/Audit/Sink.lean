import TenantAccess.Audit.Logger

/-!
# Collecting sinks

A collecting sink keeps the batches it was handed, in the order of delivery.
-/
namespace TenantAccess

structure CollectingSink where
  batches : List (List AuditRecord) := []
  deriving DecidableEq, Repr

namespace CollectingSink

def write (s : CollectingSink) (batch : List AuditRecord) : CollectingSink :=
  ⟨s.batches ++ [batch]⟩

/-- What the sink of a number got out of the deliveries to several sinks. -/
def ofDeliveries (sink : Nat) (ds : List Delivery) : CollectingSink :=
  ⟨(ds.filter fun d => d.sink = sink).map Delivery.records⟩

def records (s : CollectingSink) : List AuditRecord := s.batches.flatten

def denials (s : CollectingSink) : List AuditRecord := s.records.filter AuditRecord.isDenial

def maxBatch (s : CollectingSink) : Nat := s.batches.foldl (fun n b => max n b.length) 0

end CollectingSink

end TenantAccess
