import TenantAccess.Proofs.Interleaving

/-!
# No stale grants after an invalidation

A call that looks its principal up after an invalidation that covers it decides on grants that were
read after that invalidation, whatever other calls do meanwhile. A read that began before carries an
older generation than the cache has now, so what it yields is not stored; `Fresh` keeps track of
the calls that carry a current one.
-/
namespace TenantAccess

section

variable [Pattern.Engine]

/-- The grants were prepared from reads for the principal, all by one call and all in the trace. -/
def PreparedGrants.ReadIn (g : PreparedGrants) (registry : Registry) (p : Principal)
    (trace : List Action) : Prop :=
  ∃ c answers, (∀ source, .read c p source (answers source) ∈ trace) ∧
    g = (Snapshot.collect p (.ofSources answers)).prepare registry

/-- What the call has read so far was read in the trace. -/
def Phase.ReadIn (registry : Registry) (p : Principal) (c : Nat) (trace : List Action) : Phase → Prop
  | .missed => True
  | .reading _ reads => ∀ source answer, reads.get? source = some answer →
      .read c p source answer ∈ trace
  | .answered g => g.ReadIn registry p trace

def Action.isInvalidation : Action → Bool
  | .invalidate _ => true
  | _ => false

/-- The generation that a call carries while it reads. -/
def Phase.noted? : Phase → Option Nat
  | .reading generation _ => generation
  | _ => none

def Phase.NotedFrom (n : Nat) (phase : Phase) : Prop := ∃ m, phase.noted? = some m ∧ n ≤ m

variable {registry : Registry} {p : Principal} {n c : Nat} {action : Action}
  {trace : List Action} {s t : Traffic}

theorem PreparedGrants.ReadIn.concat {g : PreparedGrants} (h : g.ReadIn registry p trace)
    (action : Action) : g.ReadIn registry p (trace ++ [action]) := by
  obtain ⟨c, answers, hreads, hg⟩ := h
  exact ⟨c, answers, fun source => List.mem_append_left _ (hreads source), hg⟩

theorem Phase.ReadIn.concat {phase : Phase} (h : phase.ReadIn registry p c trace)
    (action : Action) : phase.ReadIn registry p c (trace ++ [action]) := by
  cases phase with
  | missed => trivial
  | reading _ reads => exact fun source answer hread => List.mem_append_left _ (h source answer hread)
  | answered g => exact PreparedGrants.ReadIn.concat h action

/-- A call for the principal that looked it up in the trace, or that noted a generation from `n` on,
has read in the trace what it has read. -/
def Call.Since (call : Call) (registry : Registry) (p : Principal) (n c : Nat)
    (trace : List Action) : Prop :=
  call.demand.principal = p → .lookup c call.demand ∈ trace ∨ call.phase.NotedFrom n →
    call.phase.ReadIn registry p c trace

theorem Call.Since.concat {call : Call} (h : call.Since registry p n c trace)
    (other : action ≠ .lookup c call.demand) : call.Since registry p n c (trace ++ [action]) := by
  intro hp hcall
  refine (h hp (hcall.imp_left fun hmem => ?_)).concat action
  rcases List.mem_append.1 hmem with hmem | hmem
  · exact hmem
  · exact absurd (List.mem_singleton.1 hmem).symm other

namespace Traffic

/-- What holds since the principal's generation became `n`; the trace was run since then. -/
structure Fresh (registry : Registry) (p : Principal) (n : Nat) (trace : List Action)
    (s : Traffic) : Prop where
  registry_eq : s.authorizer.registry = registry
  current : ∀ m, s.authorizer.generation? p = some m → n ≤ m
  held : ∀ g, s.authorizer.Holds p g → g.ReadIn registry p trace
  since : ∀ c call, s.calls.get? c = some call → call.Since registry p n c trace

/-! ## Steps of a call -/

/-- After a step of one call the other calls are as before. -/
theorem Fresh.since_set (h : Fresh registry p n trace s) {call : Call}
    (own : call.Since registry p n c (trace ++ [action]))
    (others : ∀ c' d, action = .lookup c' d → c' = c) (c' : Nat) (call' : Call)
    (hget : (s.calls.set c call).get? c' = some call') :
    call'.Since registry p n c' (trace ++ [action]) := by
  rw [Table.get?_set] at hget
  split at hget
  · rename_i hc
    cases hget
    exact hc ▸ own
  · rename_i hc
    exact (h.since c' call' hget).concat fun ha => hc (others c' _ ha).symm

theorem readIn_prepared {generation : Option Nat}
    {reads : Table GrantSource (Except AccessError GrantRows)}
    {answers : GrantSource → Except AccessError GrantRows}
    (h : (Phase.reading generation reads).ReadIn registry p c trace)
    (complete : ∀ source, reads.get? source = some (answers source))
    (hr : s.authorizer.registry = registry) : (s.prepared p answers).ReadIn registry p trace :=
  ⟨c, answers, fun source => h source _ (complete source), by rw [prepared, hr]⟩

theorem Fresh.lookup (h : Fresh registry p n trace s) (d : Demand) (c : Nat) :
    Fresh registry p n (trace ++ [.lookup c d])
      { s with
        authorizer := (s.authorizer.lookup d.principal).2
        calls := s.calls.set c ⟨d, .ofLookup (s.authorizer.lookup d.principal).1⟩ } := by
  constructor
  · rw [Authorizer.lookup_registry, h.registry_eq]
  · intro m hm
    rw [Authorizer.generation?_lookup] at hm
    exact h.current m hm
  · intro g hg
    exact (h.held g (Authorizer.holds_of_holds_lookup hg)).concat _
  · refine h.since_set ?_ ?_
    · rintro rfl -
      cases hfound : (s.authorizer.lookup d.principal).1 with
      | none => trivial
      | some g => exact (h.held g (Authorizer.holds_of_lookup hfound)).concat _
    · intro c' d' hc
      cases hc
      rfl

theorem Fresh.note (h : Fresh registry p n trace s) (d : Demand) (c : Nat) :
    Fresh registry p n (trace ++ [.note c])
      { s with calls := s.calls.set c ⟨d, .reading (s.authorizer.generation? d.principal) {}⟩ } := by
  refine ⟨h.registry_eq, h.current, fun g hg => (h.held g hg).concat _, h.since_set ?_ ?_⟩
  · -- nothing has been read yet
    intro _ _ source answer hread
    cases hread
  · intro c' d' hc
    cases hc

theorem Fresh.read (h : Fresh registry p n trace s) {d : Demand} {generation : Option Nat}
    {reads : Table GrantSource (Except AccessError GrantRows)}
    (reading : s.calls.get? c = some ⟨d, .reading generation reads⟩) (source : GrantSource)
    (answer : Except AccessError GrantRows) :
    Fresh registry p n (trace ++ [.read c d.principal source answer])
      { s with calls := s.calls.set c ⟨d, .reading generation (reads.set source answer)⟩ } := by
  refine ⟨h.registry_eq, h.current, fun g hg => (h.held g hg).concat _, h.since_set ?_ ?_⟩
  · intro hp hcall source' answer' hread
    subst hp
    have hother : Action.read c d.principal source answer ≠ .lookup c d := by
      intro hc
      cases hc
    have hold := (h.since c _ reading).concat hother rfl hcall
    rw [Table.get?_set] at hread
    split at hread
    · rename_i hsource
      cases hread
      rw [← hsource]
      exact List.mem_append_right _ (.head _)
    · exact hold source' answer' hread
  · intro c' d' hc
    cases hc

/-- Grants that are stored carry the current generation, so they were read in the trace. -/
theorem Fresh.put (h : Fresh registry p n trace s) {d : Demand} {generation : Option Nat}
    {reads : Table GrantSource (Except AccessError GrantRows)}
    {answers : GrantSource → Except AccessError GrantRows}
    (reading : s.calls.get? c = some ⟨d, .reading generation reads⟩)
    (complete : ∀ source, reads.get? source = some (answers source)) :
    Fresh registry p n (trace ++ [.put c])
      { s with
        authorizer := (s.authorizer.remember d.principal (s.prepared d.principal answers)
          generation).1
        calls := s.calls.set c ⟨d, .answered (s.prepared d.principal answers)⟩ } := by
  have hsince := h.since c _ reading
  constructor
  · rw [Authorizer.remember_registry, h.registry_eq]
  · intro m hm
    rw [Authorizer.generation?_remember] at hm
    exact h.current m hm
  · intro g hg
    rcases Authorizer.holds_of_holds_remember hg with hg | ⟨hp, rfl, m, rfl, hm⟩
    · exact (h.held g hg).concat _
    · have hnoted : (Phase.reading (some m) reads).NotedFrom n  :=
        ⟨m, rfl, h.current m (hp ▸ hm)⟩
      have hread := hsince hp.symm (.inr hnoted)
      rw [← hp]
      exact (readIn_prepared hread complete h.registry_eq).concat _
  · refine h.since_set ?_ ?_
    · rintro hp (hlookup | hnoted)
      · have hlookup : .lookup c d ∈ trace := by simpa using hlookup
        have hread := hsince hp (.inl hlookup)
        subst hp
        exact (readIn_prepared hread complete h.registry_eq).concat _
      · obtain ⟨m, hm, -⟩ := hnoted
        cases hm
    · intro c' d' hc
      cases hc

theorem Fresh.invalidate (h : Fresh registry p n trace s) (i : Invalidation) :
    Fresh registry p n (trace ++ [.invalidate i])
      { s with authorizer := s.authorizer.invalidate i } := by
  refine ⟨h.registry_eq, fun m hm => ?_, fun g hg => ?_, fun c call hget => ?_⟩
  · obtain ⟨m', hm'⟩ := Authorizer.generation?_of_invalidate hm
    obtain ⟨k, hk, hle, -, -⟩ := Authorizer.generation?_invalidate (i := i) hm'
    rw [hm] at hk
    cases hk
    exact Nat.le_trans (h.current m' hm') hle
  · exact (h.held g (Authorizer.holds_invalidate_iff.1 hg).1).concat _
  · exact (h.since c call hget).concat (by intro ha; cases ha)

theorem Fresh.step (h : Fresh registry p n trace s) (step : Step s action t) :
    Fresh registry p n (trace ++ [action]) t := by
  cases step with
  | lookup _ _ => exact h.lookup _ _
  | note _ => exact h.note _ _
  | read reading _ _ => exact h.read reading _ _
  | put reading complete => exact h.put reading complete
  | change _ =>
    refine ⟨h.registry_eq, h.current, fun g hg => (h.held g hg).concat _, fun c call hget => ?_⟩
    exact (h.since c call hget).concat (by intro ha; cases ha)
  | invalidate i => exact h.invalidate i

theorem Fresh.run {trace' : List Action} (h : Fresh registry p n trace s) (run : Run s trace' t) :
    Fresh registry p n (trace ++ trace') t := by
  induction run generalizing trace with
  | nil =>
    rw [List.append_nil]
    exact h
  | cons step _ ih =>
    have hrest := ih (h.step step)
    rw [List.append_assoc] at hrest
    exact hrest

/-! ## Generations only grow -/

/-- No call carries a generation that is yet to come. -/
def Timely (s : Traffic) : Prop :=
  ∀ c call m, s.calls.get? c = some call → call.phase.noted? = some m →
    ∃ k, s.authorizer.generation? call.demand.principal = some k ∧ m ≤ k

theorem Step.generation? (step : Step s action t) {m : Nat}
    (h : s.authorizer.generation? p = some m) :
    ∃ k, t.authorizer.generation? p = some k ∧ m ≤ k ∧
      k ≤ m + [action].countP Action.isInvalidation := by
  cases step with
  | lookup _ _ =>
    exact ⟨m, by rw [Authorizer.generation?_lookup, h], Nat.le_refl m, Nat.le_refl m⟩
  | note _ => exact ⟨m, h, Nat.le_refl m, Nat.le_refl m⟩
  | read _ _ _ => exact ⟨m, h, Nat.le_refl m, Nat.le_refl m⟩
  | put _ _ =>
    exact ⟨m, by rw [Authorizer.generation?_remember, h], Nat.le_refl m, Nat.le_refl m⟩
  | change _ => exact ⟨m, h, Nat.le_refl m, Nat.le_refl m⟩
  | invalidate i =>
    obtain ⟨k, hk, hle, hbound, -⟩ := Authorizer.generation?_invalidate (i := i) h
    exact ⟨k, hk, hle, hbound⟩

/-- A generation grows by one for each invalidation at most. -/
theorem Run.generation? (run : Run s trace t) {m : Nat}
    (h : s.authorizer.generation? p = some m) :
    ∃ k, t.authorizer.generation? p = some k ∧ m ≤ k ∧
      k ≤ m + trace.countP Action.isInvalidation := by
  induction run generalizing m with
  | nil => exact ⟨m, h, Nat.le_refl m, Nat.le_refl m⟩
  | @cons _ _ _ action trace step _ ih =>
    obtain ⟨j, hj, hmj, hj'⟩ := step.generation? h
    obtain ⟨k, hk, hjk, hk'⟩ := ih hj
    have hcount : (action :: trace).countP Action.isInvalidation =
        [action].countP Action.isInvalidation + trace.countP Action.isInvalidation := by
      rw [← List.countP_append, List.singleton_append]
    exact ⟨k, hk, by omega, by omega⟩

/-- A step changes one call at most. What that call carries then it carried before, or it is the
current generation. -/
theorem Step.calls (step : Step s action t) :
    t.calls = s.calls ∨ ∃ c call, t.calls = s.calls.set c call ∧
      ∀ m, call.phase.noted? = some m →
        s.authorizer.generation? call.demand.principal = some m ∨
          ∃ old, s.calls.get? c = some old ∧ old.demand = call.demand ∧
            old.phase.noted? = some m := by
  cases step with
  | @lookup c d _ _ =>
    refine .inr ⟨c, _, rfl, fun m hm => ?_⟩
    cases hfound : (s.authorizer.lookup d.principal).1 with
    | none =>
      rw [hfound] at hm
      cases hm
    | some g =>
      rw [hfound] at hm
      cases hm
  | @note c d _ => exact .inr ⟨c, _, rfl, fun m hm => .inl hm⟩
  | @read c _ _ _ _ _ reading _ _ =>
    exact .inr ⟨c, _, rfl, fun m hm => .inr ⟨_, reading, rfl, hm⟩⟩
  | @put c _ _ _ _ _ _ =>
    refine .inr ⟨c, _, rfl, fun m hm => ?_⟩
    cases hm
  | change _ => exact .inl rfl
  | invalidate _ => exact .inl rfl

theorem Timely.step (h : s.Timely) (step : Step s action t) : t.Timely := by
  have hold : ∀ c old m, s.calls.get? c = some old → old.phase.noted? = some m →
      ∃ k, t.authorizer.generation? old.demand.principal = some k ∧ m ≤ k := by
    intro c old m hget hm
    obtain ⟨j, hj, hmj⟩ := h c old m hget hm
    obtain ⟨k, hk, hjk, -⟩ := step.generation? hj
    exact ⟨k, hk, Nat.le_trans hmj hjk⟩
  rcases step.calls with hcalls | ⟨c, call, hcalls, hcall⟩
  · rw [Timely, hcalls]
    exact hold
  · intro c' call' m hget hm
    rw [hcalls, Table.get?_set] at hget
    split at hget
    · cases hget
      rcases hcall m hm with hcurrent | ⟨old, hgetold, hdemand, hmold⟩
      · obtain ⟨k, hk, hle, -⟩ := step.generation? hcurrent
        exact ⟨k, hk, hle⟩
      · rw [← hdemand]
        exact hold c old m hgetold hmold
    · exact hold c' call' m hget hm

theorem Timely.run (h : s.Timely) (run : Run s trace t) : t.Timely := by
  induction run with
  | nil => exact h
  | cons step _ ih => exact ih (h.step step)

/-! ## After an invalidation -/

/-- Right after an invalidation nothing is held for the principal, and every call that is reading
for it carries an older generation. -/
theorem Timely.fresh (h : s.Timely) {i : Invalidation} (covers : i.Covers p) :
    ∃ n, Fresh s.authorizer.registry p n []
      { s with authorizer := s.authorizer.invalidate i } := by
  have hheld : ∀ g, ¬ (s.authorizer.invalidate i).Holds p g :=
    fun g hg => (Authorizer.holds_invalidate_iff.1 hg).2 covers
  cases hm : s.authorizer.generation? p with
  | none =>
    refine ⟨0, rfl, fun m _ => Nat.zero_le m, fun g hg => absurd hg (hheld g), ?_⟩
    rintro c call hget rfl (hlookup | ⟨k, hk, -⟩)
    · cases hlookup
    · obtain ⟨j, hj, -⟩ := h c call k hget hk
      rw [hm] at hj
      cases hj
  | some m =>
    obtain ⟨n, hn, -, -, hlt⟩ := Authorizer.generation?_invalidate (i := i) hm
    have hmn : m < n := hlt covers
    refine ⟨n, rfl, fun k hk => ?_, fun g hg => absurd hg (hheld g), ?_⟩
    · rw [hn] at hk
      cases hk
      exact Nat.le_refl n
    · rintro c call hget rfl (hlookup | ⟨k, hk, hnk⟩)
      · cases hlookup
      · obtain ⟨j, hj, hkj⟩ := h c call k hget hk
        rw [hm] at hj
        cases hj
        omega

/-- A call that looks its principal up after an invalidation that covers it decides on grants that
were read for the principal after that invalidation, by that call or by one whose grants it found in
the cache. A generation grows with every invalidation by one at most, so counters of 64 bits do not
wrap as long as there are fewer than 2 ^ 64 of them. -/
theorem answered_readIn_after {before after : List Action} {i : Invalidation} {d : Demand}
    {g : PreparedGrants} (idle : ∀ c, s.calls.get? c = none)
    (run : Run s (before ++ .invalidate i :: after) t) (covers : i.Covers d.principal)
    (looked : .lookup c d ∈ after) (answered : t.calls.get? c = some ⟨d, .answered g⟩) :
    g.ReadIn s.authorizer.registry d.principal after ∧
      ∀ q m, s.authorizer.generation? q = some m →
        ∃ k, t.authorizer.generation? q = some k ∧
          k ≤ m + (before ++ .invalidate i :: after).countP Action.isInvalidation := by
  refine ⟨?_, fun q m hm => ?_⟩
  · have htimely : s.Timely := by
      intro c call m hget
      rw [idle c] at hget
      cases hget
    obtain ⟨u, hbefore, hrest⟩ := run.split
    cases hrest with
    | cons step hafter =>
      cases step
      obtain ⟨n, hfresh⟩ := (htimely.run hbefore).fresh covers
      have hend := hfresh.run hafter
      rw [hbefore.registry_eq] at hend
      exact hend.since c _ answered rfl (.inl looked)
  · obtain ⟨k, hk, -, hbound⟩ := run.generation? hm
    exact ⟨k, hk, hbound⟩

end Traffic

end

/-! ## A share that is removed while a call reads -/

namespace Traffic

namespace Revocation

def reader : Principal := ⟨"acme", .user, "ada"⟩

def demand : Demand := .single { principal := reader, action := "blog:read", resource := "post-1" }

def share : ResourceShare := .ofPrincipal "share-1" reader "post-1" .viewer

def start : Traffic where
  sources := { store := Store.change {} (.addShare share) }
  authorizer := { registry := .builtin, cache := some (.ofCapacity 8) }

/-- What the two calls read. -/
def answers : Nat → GrantSource → Except AccessError GrantRows
  | 0, .resourceShares => .ok { shares := [share] }
  | _, _ => .ok {}

/-- The first call has read the share when it is removed. -/
def before : List Action := [
  .lookup 0 demand,
  .note 0,
  .read 0 demand.principal .resourceShares (answers 0 .resourceShares),
  .change (.store (.removeShare "share-1"))]

/-- The first call ends between the lookup of the second one and its last reads. -/
def after : List Action := [
  .lookup 1 demand,
  .read 0 demand.principal .policies (answers 0 .policies),
  .note 1,
  .read 1 demand.principal .policies (answers 1 .policies),
  .read 0 demand.principal .resourcePermissions (answers 0 .resourcePermissions),
  .put 0,
  .read 1 demand.principal .resourcePermissions (answers 1 .resourcePermissions),
  .read 1 demand.principal .resourceShares (answers 1 .resourceShares),
  .put 1]

theorem complete (answers : GrantSource → Except AccessError GrantRows)
    {reads : Table GrantSource (Except AccessError GrantRows)}
    (policies : reads.get? .policies = some (answers .policies))
    (permissions : reads.get? .resourcePermissions = some (answers .resourcePermissions))
    (shares : reads.get? .resourceShares = some (answers .resourceShares)) (source : GrantSource) :
    reads.get? source = some (answers source) := by
  cases source with
  | policies => exact policies
  | resourcePermissions => exact permissions
  | resourceShares => exact shares

theorem exists_run : ∃ t g, Run start (before ++ .invalidate (.principal reader) :: after) t ∧
    t.calls.get? 1 = some ⟨demand, .answered g⟩ := by
  have hrun : Run start (before ++ .invalidate (.principal reader) :: after) _ :=
    .cons (.lookup rfl rfl) <| .cons (.note rfl) <| .cons (.read rfl rfl .rows) <|
    .cons (.change _) <| .cons (.invalidate _) <| .cons (.lookup rfl rfl) <|
    .cons (.read rfl rfl .rows) <| .cons (.note rfl) <| .cons (.read rfl rfl .rows) <|
    .cons (.read rfl rfl .rows) <|
    .cons (.put rfl (complete (answers 0) rfl rfl rfl)) <|
    .cons (.read rfl rfl .rows) <| .cons (.read rfl rfl .rows) <|
    .cons (.put rfl (complete (answers 1) rfl rfl rfl)) .nil
  exact ⟨_, _, hrun, rfl⟩

end Revocation

theorem answered_readIn_after_revocation :
    ∃ t g, Run Revocation.start
        (Revocation.before ++ .invalidate (.principal Revocation.reader) :: Revocation.after) t ∧
      t.calls.get? 1 = some ⟨Revocation.demand, .answered g⟩ ∧
      g.ReadIn .builtin Revocation.reader Revocation.after := by
  obtain ⟨t, g, hrun, hanswered⟩ := Revocation.exists_run
  have hread := answered_readIn_after (fun _ => rfl) hrun (.inl rfl) (.head _) hanswered
  exact ⟨t, g, hrun, hanswered, hread.1⟩

end Traffic

end TenantAccess
