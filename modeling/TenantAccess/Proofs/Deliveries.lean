import TenantAccess.Audit.Sink

/-!
# What becomes of audit records

Records are logged, a worker is started, delivers and is stopped, in any order and any number of
times. Whatever the order, a record that was logged is delivered, still queued or counted as
dropped, and those that were not dropped keep the order in which they were logged. `Balanced` says
so of a logger and the records it was given; `Staged` says how far its worker has come.
-/
namespace TenantAccess

/-! ## Pieces of a list -/

section Chunks

variable {α : Type}

theorem flatten_chunks (size : Nat) (as : List α) : (chunks size as).flatten = as := by
  fun_induction chunks size as with
  | case1 => rfl
  | case2 a as ih => rw [List.flatten_cons, ih, List.cons_append, List.take_append_drop]

theorem length_of_mem_chunks {size : Nat} {as piece : List α} (h : piece ∈ chunks size as) :
    1 ≤ piece.length ∧ piece.length ≤ max size 1 := by
  fun_induction chunks size as with
  | case1 => cases h
  | case2 a as ih =>
    rcases List.mem_cons.1 h with rfl | h
    · have htake : (as.take (size - 1)).length ≤ size - 1 := List.length_take_le ..
      simp only [List.length_cons]
      omega
    · exact ih h

end Chunks

/-! ## Runs of a logger -/

/-- What happens to a logger: the worker delivers, the rest is asked for from outside. -/
inductive AuditStep where
  | log (r : AuditRecord)
  | start (sink : Nat)
  | deliver
  | stop
  deriving DecidableEq, Repr

namespace AuditStep

def record? : AuditStep → Option AuditRecord
  | .log r => some r
  | _ => none

def sink? : AuditStep → Option Nat
  | .start sink => some sink
  | _ => none

/-- The records that were logged. -/
def logged (steps : List AuditStep) : List AuditRecord := steps.filterMap record?

/-- The sink that was named first. -/
def firstSink? (steps : List AuditStep) : Option Nat := steps.findSome? sink?

theorem firstSink?_concat (steps : List AuditStep) (x : AuditStep) :
    firstSink? (steps ++ [x]) = (firstSink? steps).or x.sink? := by
  simp [firstSink?, List.findSome?_append]

end AuditStep

/-- A logger and what its worker handed to a sink. -/
structure AuditLedger where
  logger : AuditLogger
  /-- the oldest comes first -/
  deliveries : List Delivery := []

namespace AuditLedger

def step (h : AuditLedger) : AuditStep → AuditLedger
  | .log r => { h with logger := (h.logger.log r).1 }
  | .start sink => { h with logger := h.logger.start sink }
  | .deliver => ⟨h.logger.deliver.2, h.deliveries ++ h.logger.deliver.1.toList⟩
  | .stop => ⟨h.logger.stop.logger, h.deliveries ++ h.logger.stop.deliveries⟩

/-- A new logger after some steps. -/
def after (c : AuditConfig) (steps : List AuditStep) : AuditLedger :=
  steps.foldl step ⟨.ofConfig c, []⟩

def delivered (h : AuditLedger) : List AuditRecord := h.deliveries.flatMap Delivery.records

/-! ## What a step can do -/

variable {c : AuditConfig} {steps : List AuditStep} {logged : List AuditRecord} {h : AuditLedger}

theorem step_log_cases (h : AuditLedger) (r : AuditRecord) :
    (h.logger.accepting = true ∧ h.logger.queue.length < h.logger.capacity ∧
        h.step (.log r) = ⟨{ h.logger with queue := h.logger.queue ++ [r] }, h.deliveries⟩) ∨
      ((h.logger.accepting = false ∨ h.logger.capacity ≤ h.logger.queue.length) ∧
        h.step (.log r) = ⟨{ h.logger with dropped := h.logger.dropped + 1 }, h.deliveries⟩) := by
  cases haccepting : h.logger.accepting with
  | false => simp [step, AuditLogger.log, haccepting]
  | true =>
    by_cases hroom : h.logger.queue.length < h.logger.capacity
    · simp [step, AuditLogger.log, haccepting, hroom]
    · have hfull : h.logger.capacity ≤ h.logger.queue.length := Nat.not_lt.1 hroom
      simp [step, AuditLogger.log, haccepting, hroom, hfull]

theorem step_start_cases (h : AuditLedger) (sink : Nat) :
    (h.logger.worker = none ∧ h.logger.accepting = true ∧
        h.step (.start sink) = ⟨{ h.logger with worker := some sink }, h.deliveries⟩) ∨
      ((h.logger.worker ≠ none ∨ h.logger.accepting = false) ∧ h.step (.start sink) = h) := by
  cases hworker : h.logger.worker with
  | some _ => simp [step, AuditLogger.start, AuditLogger.isRunning, hworker]
  | none =>
    cases haccepting : h.logger.accepting <;>
      simp [step, AuditLogger.start, AuditLogger.isRunning, hworker, haccepting]

/-- The worker takes what stands first in the queue, if there is anything. -/
theorem step_deliver_cases (h : AuditLedger) :
    (∃ sink, h.logger.worker = some sink ∧ h.logger.queue ≠ [] ∧
        h.step .deliver =
          ⟨{ h.logger with queue := h.logger.queue.drop h.logger.batchSize },
            h.deliveries ++ [⟨sink, h.logger.queue.take h.logger.batchSize⟩]⟩) ∨
      ((h.logger.worker = none ∨ h.logger.queue = []) ∧ h.step .deliver = h) := by
  cases hworker : h.logger.worker with
  | none => simp [step, AuditLogger.deliver, hworker]
  | some sink =>
    cases hqueue : h.logger.queue with
    | nil => simp [step, AuditLogger.deliver, hworker, hqueue]
    | cons r rs => simp [step, AuditLogger.deliver, hworker, hqueue]

/-- What is queued goes to the sink of the worker; without a worker it is dropped. -/
theorem step_stop_cases (h : AuditLedger) :
    (∃ sink, h.logger.worker = some sink ∧
        h.step .stop =
          ⟨{ h.logger with accepting := false, worker := none, queue := [] },
            h.deliveries ++ (chunks h.logger.batchSize h.logger.queue).map (Delivery.mk sink)⟩) ∨
      (h.logger.worker = none ∧
        h.step .stop =
          ⟨{ h.logger with
              accepting := false, queue := [],
              dropped := h.logger.dropped + h.logger.queue.length }, h.deliveries⟩) := by
  cases hworker : h.logger.worker <;>
    simp [step, AuditLogger.stop, AuditLogger.drain, hworker]

/-! ## The records -/

/-- Every record that was logged is delivered, queued or counted as dropped. -/
structure Balanced (c : AuditConfig) (logged : List AuditRecord) (h : AuditLedger) : Prop where
  capacity_eq : h.logger.capacity = max c.queueCapacity.toNat 1
  batchSize_eq : h.logger.batchSize = max c.batchSize.toNat 1
  kept : (h.delivered ++ h.logger.queue).Sublist logged
  count : h.delivered.length + h.logger.queue.length + h.logger.dropped = logged.length
  room : h.logger.queue.length ≤ h.logger.capacity
  batches : ∀ d ∈ h.deliveries, 1 ≤ d.records.length ∧ d.records.length ≤ h.logger.batchSize

@[simp] theorem delivered_mk (l : AuditLogger) (ds : List Delivery) :
    delivered ⟨l, ds⟩ = ds.flatMap Delivery.records := rfl

theorem flatMap_chunks (size sink : Nat) (queue : List AuditRecord) :
    ((chunks size queue).map (Delivery.mk sink)).flatMap Delivery.records = queue := by
  rw [List.flatMap_map, List.flatMap_id', flatten_chunks]

namespace Balanced

theorem empty (c : AuditConfig) : Balanced c [] ⟨.ofConfig c, []⟩ := by
  constructor <;> simp [AuditLogger.ofConfig, delivered]

theorem log (b : Balanced c logged h) (r : AuditRecord) :
    Balanced c (logged ++ [r]) (h.step (.log r)) := by
  have hcount := b.count
  rcases h.step_log_cases r with ⟨-, hroom, heq⟩ | ⟨-, heq⟩
  · rw [heq]
    refine ⟨b.capacity_eq, b.batchSize_eq, ?_, ?_, ?_, b.batches⟩
    · have hkept := b.kept.append (.refl [r])
      rw [List.append_assoc] at hkept
      exact hkept
    · simp only [delivered, List.length_append, List.length_singleton] at hcount ⊢
      omega
    · simp only [List.length_append, List.length_singleton]
      omega
  · rw [heq]
    refine ⟨b.capacity_eq, b.batchSize_eq, ?_, ?_, b.room, b.batches⟩
    · exact b.kept.trans (List.sublist_append_left ..)
    · simp only [delivered, List.length_append, List.length_singleton] at hcount ⊢
      omega

theorem start (b : Balanced c logged h) (sink : Nat) :
    Balanced c logged (h.step (.start sink)) := by
  rcases h.step_start_cases sink with ⟨-, -, heq⟩ | ⟨-, heq⟩
  · rw [heq]
    exact ⟨b.capacity_eq, b.batchSize_eq, b.kept, b.count, b.room, b.batches⟩
  · rw [heq]
    exact b

theorem deliver (b : Balanced c logged h) : Balanced c logged (h.step .deliver) := by
  rcases h.step_deliver_cases with ⟨sink, -, hqueue, heq⟩ | ⟨-, heq⟩
  · rw [heq]
    have hsize : 1 ≤ h.logger.batchSize := by
      have hsize := b.batchSize_eq
      omega
    have hlength : 1 ≤ h.logger.queue.length := List.length_pos_iff.2 hqueue
    have hcount := b.count
    have hroom := b.room
    refine ⟨b.capacity_eq, b.batchSize_eq, ?_, ?_, ?_, ?_⟩
    · simpa [delivered] using b.kept
    · simp only [delivered, List.flatMap_append, List.flatMap_singleton, List.length_append,
        List.length_take, List.length_drop] at hcount ⊢
      omega
    · simp only [List.length_drop]
      omega
    · intro d hd
      rcases List.mem_append.1 hd with hd | hd
      · exact b.batches d hd
      · obtain rfl := List.mem_singleton.1 hd
        simp only [List.length_take]
        omega
  · rw [heq]
    exact b

theorem stop (b : Balanced c logged h) : Balanced c logged (h.step .stop) := by
  have hcount := b.count
  rcases h.step_stop_cases with ⟨sink, -, heq⟩ | ⟨-, heq⟩
  · rw [heq]
    refine ⟨b.capacity_eq, b.batchSize_eq, ?_, ?_, ?_, ?_⟩
    · rw [delivered_mk, List.flatMap_append, flatMap_chunks, List.append_nil]
      exact b.kept
    · rw [delivered_mk, List.flatMap_append, flatMap_chunks]
      simp only [delivered, List.length_append, List.length_nil] at hcount ⊢
      omega
    · exact Nat.zero_le _
    · intro d hd
      rcases List.mem_append.1 hd with hd | hd
      · exact b.batches d hd
      · obtain ⟨piece, hpiece, rfl⟩ := List.mem_map.1 hd
        have hlength := length_of_mem_chunks hpiece
        have hsize := b.batchSize_eq
        simp only
        omega
  · rw [heq]
    refine ⟨b.capacity_eq, b.batchSize_eq, ?_, ?_, Nat.zero_le _, b.batches⟩
    · rw [List.append_nil]
      exact (List.sublist_append_left ..).trans b.kept
    · simp only [delivered, List.length_nil] at hcount ⊢
      omega

theorem step (b : Balanced c logged h) (x : AuditStep) :
    Balanced c (logged ++ x.record?.toList) (h.step x) := by
  cases x with
  | log r => exact b.log r
  | start sink => simpa [AuditStep.record?] using b.start sink
  | deliver => simpa [AuditStep.record?] using b.deliver
  | stop => simpa [AuditStep.record?] using b.stop

theorem run (b : Balanced c logged h) (steps : List AuditStep) :
    Balanced c (logged ++ AuditStep.logged steps) (steps.foldl AuditLedger.step h) := by
  induction steps generalizing logged h with
  | nil => simpa [AuditStep.logged] using b
  | cons x steps ih =>
    have hrest := ih (b.step x)
    rw [List.append_assoc] at hrest
    cases hx : x.record? <;> simpa [AuditStep.logged, List.filterMap_cons, hx] using hrest

end Balanced

/-! ## The worker -/

/-- A worker runs from the first start on until the logger is stopped. -/
structure Staged (past : List AuditStep) (h : AuditLedger) : Prop where
  accepting_iff : h.logger.accepting = true ↔ .stop ∉ past
  running : .stop ∉ past → h.logger.worker = AuditStep.firstSink? past
  stopped : .stop ∈ past → h.logger.worker = none ∧ h.logger.queue = []
  sinks : ∀ d ∈ h.deliveries, AuditStep.firstSink? past = some d.sink

namespace Staged

variable {past : List AuditStep}

theorem empty (c : AuditConfig) : Staged [] ⟨.ofConfig c, []⟩ := by
  constructor <;> simp [AuditLogger.ofConfig, AuditStep.firstSink?]

/-- A step that is neither a start nor a stop leaves the worker alone. -/
theorem concat (g : Staged past h) {x : AuditStep} {h' : AuditLedger} (hx : x.sink? = none)
    (hstop : x ≠ .stop) (accepting : h'.logger.accepting = h.logger.accepting)
    (worker : h'.logger.worker = h.logger.worker) (queue : h.logger.accepting = false →
      h.logger.queue = [] → h'.logger.queue = [])
    (sinks : ∀ d ∈ h'.deliveries, d ∈ h.deliveries ∨ h.logger.worker = some d.sink) :
    Staged (past ++ [x]) h' := by
  have hmem : .stop ∈ past ++ [x] ↔ .stop ∈ past := by simp [Ne.symm hstop]
  have hfirst : AuditStep.firstSink? (past ++ [x]) = AuditStep.firstSink? past := by
    simp [AuditStep.firstSink?_concat, hx]
  constructor
  · rw [accepting, hmem]
    exact g.accepting_iff
  · rw [worker, hmem, hfirst]
    exact g.running
  · rw [worker, hmem]
    intro hpast
    obtain ⟨hworker, hqueue⟩ := g.stopped hpast
    have haccepting : h.logger.accepting = false := by
      rw [← Bool.not_eq_true, g.accepting_iff]
      exact not_not_intro hpast
    exact ⟨hworker, queue haccepting hqueue⟩
  · intro d hd
    rw [hfirst]
    rcases sinks d hd with hold | hworker
    · exact g.sinks d hold
    · by_cases hpast : .stop ∈ past
      · simp [(g.stopped hpast).1] at hworker
      · rw [← g.running hpast, hworker]

theorem log (g : Staged past h) (r : AuditRecord) :
    Staged (past ++ [.log r]) (h.step (.log r)) := by
  rcases h.step_log_cases r with ⟨haccepting, -, heq⟩ | ⟨-, heq⟩
  · rw [heq]
    refine g.concat rfl (by simp) rfl rfl ?_ fun d hd => .inl hd
    intro hstopped
    simp [haccepting] at hstopped
  · rw [heq]
    exact g.concat rfl (by simp) rfl rfl (fun _ hqueue => hqueue) fun d hd => .inl hd

theorem deliver (g : Staged past h) : Staged (past ++ [.deliver]) (h.step .deliver) := by
  rcases h.step_deliver_cases with ⟨sink, hworker, -, heq⟩ | ⟨-, heq⟩
  · rw [heq]
    refine g.concat rfl (by simp) rfl rfl (fun _ hqueue => by simp [hqueue]) ?_
    intro d hd
    rcases List.mem_append.1 hd with hd | hd
    · exact .inl hd
    · obtain rfl := List.mem_singleton.1 hd
      exact .inr hworker
  · rw [heq]
    exact g.concat rfl (by simp) rfl rfl (fun _ hqueue => hqueue) fun d hd => .inl hd

theorem start (g : Staged past h) (sink : Nat) :
    Staged (past ++ [.start sink]) (h.step (.start sink)) := by
  have hmem : AuditStep.stop ∈ past ++ [.start sink] ↔ .stop ∈ past := by simp
  have hfirst : AuditStep.firstSink? (past ++ [.start sink]) =
      (AuditStep.firstSink? past).or (some sink) := AuditStep.firstSink?_concat ..
  -- the sink that was named first is the one that deliveries go to
  have hsinks : ∀ d ∈ h.deliveries,
      AuditStep.firstSink? (past ++ [.start sink]) = some d.sink := by
    intro d hd
    rw [hfirst, g.sinks d hd]
    rfl
  rcases h.step_start_cases sink with ⟨hworker, haccepting, heq⟩ | ⟨hbusy, heq⟩
  · rw [heq]
    have hpast : .stop ∉ past := g.accepting_iff.1 haccepting
    have hnone := (g.running hpast).symm.trans hworker
    refine ⟨?_, ?_, ?_, hsinks⟩
    · rw [hmem]
      exact g.accepting_iff
    · intro _
      rw [hfirst, hnone]
      rfl
    · intro hstop
      exact absurd (hmem.1 hstop) hpast
  · rw [heq]
    refine ⟨?_, ?_, ?_, hsinks⟩
    · rw [hmem]
      exact g.accepting_iff
    · intro hpast
      rw [hmem] at hpast
      have hrunning := g.running hpast
      have haccepting := g.accepting_iff.2 hpast
      cases hworker : h.logger.worker with
      | none => simp [hworker, haccepting] at hbusy
      | some first =>
        rw [hfirst, ← hrunning, hworker]
        rfl
    · rw [hmem]
      exact g.stopped

theorem stop (g : Staged past h) : Staged (past ++ [.stop]) (h.step .stop) := by
  have hmem : .stop ∈ past ++ [.stop] := List.mem_append_right _ (.head _)
  have hfirst : AuditStep.firstSink? (past ++ [.stop]) = AuditStep.firstSink? past := by
    simp [AuditStep.firstSink?_concat, AuditStep.sink?]
  rcases h.step_stop_cases with ⟨sink, hworker, heq⟩ | ⟨hworker, heq⟩
  · rw [heq]
    refine ⟨by simp, fun hnot => absurd hmem hnot, fun _ => ⟨rfl, rfl⟩, ?_⟩
    intro d hd
    rw [hfirst]
    rcases List.mem_append.1 hd with hd | hd
    · exact g.sinks d hd
    · obtain ⟨piece, -, rfl⟩ := List.mem_map.1 hd
      have hpast : .stop ∉ past := by
        intro hpast
        simp [(g.stopped hpast).1] at hworker
      rw [← g.running hpast, hworker]
  · rw [heq]
    refine ⟨by simp, fun hnot => absurd hmem hnot, fun _ => ⟨hworker, rfl⟩, ?_⟩
    intro d hd
    rw [hfirst]
    exact g.sinks d hd

theorem step (g : Staged past h) (x : AuditStep) : Staged (past ++ [x]) (h.step x) := by
  cases x with
  | log r => exact g.log r
  | start sink => exact g.start sink
  | deliver => exact g.deliver
  | stop => exact g.stop

theorem run (g : Staged past h) (steps : List AuditStep) :
    Staged (past ++ steps) (steps.foldl AuditLedger.step h) := by
  induction steps generalizing past h with
  | nil => simpa using g
  | cons x steps ih => simpa [List.append_assoc] using ih (g.step x)

theorem isRunning_iff (g : Staged past h) :
    h.logger.isRunning = true ↔ .stop ∉ past ∧ ∃ sink, .start sink ∈ past := by
  have hnamed : (AuditStep.firstSink? past).isSome = true ↔ ∃ sink, .start sink ∈ past := by
    rw [AuditStep.firstSink?, List.findSome?_isSome_iff]
    constructor
    · rintro ⟨x, hx, hsink⟩
      cases x with
      | start sink => exact ⟨sink, hx⟩
      | _ => cases hsink
    · rintro ⟨sink, hx⟩
      exact ⟨_, hx, rfl⟩
  by_cases hpast : .stop ∈ past
  · simp [AuditLogger.isRunning, (g.stopped hpast).1, hpast]
  · simp [AuditLogger.isRunning, g.running hpast, hpast, hnamed]

/-- Nothing but logging has an effect on a logger that was stopped. -/
theorem step_of_stopped (g : Staged past h) (stopped : .stop ∈ past) :
    (∀ r, h.step (.log r) = ⟨{ h.logger with dropped := h.logger.dropped + 1 }, h.deliveries⟩) ∧
      (∀ sink, h.step (.start sink) = h) ∧ h.step .stop = h := by
  obtain ⟨hworker, hqueue⟩ := g.stopped stopped
  have haccepting : h.logger.accepting = false := by
    rw [← Bool.not_eq_true, g.accepting_iff]
    exact not_not_intro stopped
  refine ⟨fun r => ?_, fun sink => ?_, ?_⟩
  · rcases h.step_log_cases r with ⟨htrue, -, -⟩ | ⟨-, heq⟩
    · simp [haccepting] at htrue
    · exact heq
  · rcases h.step_start_cases sink with ⟨-, htrue, -⟩ | ⟨-, heq⟩
    · simp [haccepting] at htrue
    · exact heq
  · rcases h.step_stop_cases with ⟨sink, hsome, -⟩ | ⟨-, heq⟩
    · simp [hworker] at hsome
    · rw [heq, hqueue, List.length_nil, Nat.add_zero, ← haccepting, ← hqueue]

end Staged

/-- After any steps the records that were delivered and those that are queued are, in this order,
records that were logged, each of them once; the others are counted as dropped. A record is dropped
when it is logged only if the queue is full or the logger was stopped. -/
theorem after_conserves (c : AuditConfig) (steps : List AuditStep) :
    let h := after c steps
    ((h.delivered ++ h.logger.queue).Sublist (AuditStep.logged steps) ∧
      h.delivered.length + h.logger.queue.length + h.logger.dropped =
        (AuditStep.logged steps).length ∧
      h.logger.queue.length ≤ max c.queueCapacity.toNat 1 ∧
      ∀ d ∈ h.deliveries, 1 ≤ d.records.length ∧ d.records.length ≤ max c.batchSize.toNat 1 ∧
        AuditStep.firstSink? steps = some d.sink) ∧
    (∀ r, h.step (.log r) = ⟨{ h.logger with queue := h.logger.queue ++ [r] }, h.deliveries⟩ ∨
      h.step (.log r) = ⟨{ h.logger with dropped := h.logger.dropped + 1 }, h.deliveries⟩ ∧
        (h.logger.queue.length = max c.queueCapacity.toNat 1 ∨ .stop ∈ steps)) ∧
    (h.logger.isRunning = true ↔ .stop ∉ steps ∧ ∃ sink, .start sink ∈ steps) ∧
    (h.logger.isRunning = true → (h.step .stop).delivered = h.delivered ++ h.logger.queue ∧
      (h.step .stop).logger.dropped = h.logger.dropped) ∧
    (h.logger.isRunning = false → (h.step .stop).deliveries = h.deliveries ∧
      (h.step .stop).logger.dropped = h.logger.dropped + h.logger.queue.length) ∧
    (.stop ∈ steps → h.logger.queue = [] ∧
      (∀ r, h.step (.log r) = ⟨{ h.logger with dropped := h.logger.dropped + 1 }, h.deliveries⟩) ∧
      (∀ sink, h.step (.start sink) = h) ∧ h.step .stop = h) := by
  intro h
  have hbalanced : Balanced c (AuditStep.logged steps) h := (Balanced.empty c).run steps
  have hstaged : Staged steps h := (Staged.empty c).run steps
  refine ⟨⟨hbalanced.kept, hbalanced.count, ?_, ?_⟩, ?_, hstaged.isRunning_iff, ?_, ?_, ?_⟩
  · rw [← hbalanced.capacity_eq]
    exact hbalanced.room
  · intro d hd
    obtain ⟨hpos, hle⟩ := hbalanced.batches d hd
    rw [hbalanced.batchSize_eq] at hle
    exact ⟨hpos, hle, hstaged.sinks d hd⟩
  · intro r
    rcases h.step_log_cases r with ⟨-, -, heq⟩ | ⟨hdrop, heq⟩
    · exact .inl heq
    · refine .inr ⟨heq, ?_⟩
      rcases hdrop with hstopped | hfull
      · right
        refine Decidable.byContradiction fun hnot => ?_
        simp [hstaged.accepting_iff.2 hnot] at hstopped
      · left
        have hroom := hbalanced.room
        have hcapacity := hbalanced.capacity_eq
        omega
  · intro hrunning
    rcases h.step_stop_cases with ⟨sink, -, heq⟩ | ⟨hworker, -⟩
    · rw [heq, delivered_mk, List.flatMap_append, flatMap_chunks]
      exact ⟨rfl, rfl⟩
    · simp [AuditLogger.isRunning, hworker] at hrunning
  · intro hidle
    rcases h.step_stop_cases with ⟨sink, hworker, -⟩ | ⟨-, heq⟩
    · simp [AuditLogger.isRunning, hworker] at hidle
    · rw [heq]
      exact ⟨rfl, rfl⟩
  · intro hstopped
    exact ⟨(hstaged.stopped hstopped).2, hstaged.step_of_stopped hstopped⟩

/-! ## A queue that is full for a while -/

namespace Burst

def record (n : Nat) : AuditRecord :=
  ⟨⟨"acme", .user, "ada"⟩, .foreignGrantsDiscarded .policies n⟩

/-- A batch size of zero counts as one. -/
def config : AuditConfig := ⟨2, 0⟩

/-- The third record finds the queue full. -/
def lively : List AuditStep :=
  [.log (record 1), .start 5, .log (record 2), .log (record 3), .deliver, .log (record 4)]

end Burst

theorem after_conserves_burst :
    ((after Burst.config Burst.lively).step .stop).delivered =
        [Burst.record 1, Burst.record 2, Burst.record 4] ∧
      ((after Burst.config Burst.lively).step .stop).logger.dropped = 1 ∧
      (after Burst.config (Burst.lively ++ [.stop])).step (.start 6) =
        after Burst.config (Burst.lively ++ [.stop]) := by
  have hstop := (after_conserves Burst.config Burst.lively).2.2.2.1 rfl
  have hstopped := (after_conserves Burst.config (Burst.lively ++ [.stop])).2.2.2.2.2 (by decide)
  exact ⟨hstop.1, hstop.2, hstopped.2.2.1 6⟩

end AuditLedger

end TenantAccess
