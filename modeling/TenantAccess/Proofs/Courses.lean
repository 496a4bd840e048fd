import TenantAccess.Proofs.Interleaving

/-!
# Calls of a service overlap with what happens meanwhile

While a call of a service waits for its sources the store changes and grants are invalidated, all
at times of their own. Such a call is a run of overlapping steps: a source is read after the events
that come before its time, and the grants are offered to the cache when the last one was read.
-/
namespace TenantAccess

/-! ## Events in the order of time -/

namespace Course

variable {es : List (Nat × Event)} {now t u : Nat}

theorem le_of_mem_inTurn {e : Nat × Event} (h : e ∈ inTurn now es) : now ≤ e.1 := by
  induction es generalizing now with
  | nil => cases h
  | cons f es ih =>
    rcases List.mem_cons.1 h with rfl | h
    · exact Nat.le_max_left now f.1
    · exact Nat.le_trans (Nat.le_max_left now f.1) (ih h)

theorem pairwise_inTurn (now : Nat) (es : List (Nat × Event)) :
    (inTurn now es).Pairwise fun e f => e.1 ≤ f.1 := by
  induction es generalizing now with
  | nil => exact .nil
  | cons e es ih => exact List.pairwise_cons.2 ⟨fun _ hf => le_of_mem_inTurn hf, ih _⟩

theorem map_inTurn (now : Nat) (es : List (Nat × Event)) :
    (inTurn now es).map Prod.snd = es.map Prod.snd := by
  induction es generalizing now with
  | nil => rfl
  | cons e es ih => rw [inTurn, List.map_cons, List.map_cons, ih]

/-- Events in the order of time are those before a time and then those from it on. -/
theorem filter_append_filter (h : es.Pairwise fun e f => e.1 ≤ f.1) (t : Nat) :
    (es.filter fun e => e.1 < t) ++ (es.filter fun e => t ≤ e.1) = es := by
  induction h with
  | nil => rfl
  | @cons e es hle _ ih =>
    by_cases he : e.1 < t
    · have hnot : ¬ t ≤ e.1 := Nat.not_le.2 he
      simp [he, hnot, ih]
    · have hlate : ∀ f ∈ e :: es, t ≤ f.1 := by
        intro f hf
        rcases List.mem_cons.1 hf with rfl | hf
        · exact Nat.not_lt.1 he
        · exact Nat.le_trans (Nat.not_lt.1 he) (hle f hf)
      have hnone : ((e :: es).filter fun f => f.1 < t) = [] := by
        refine List.filter_eq_nil_iff.2 fun f hf => ?_
        simpa using hlate f hf
      have hall : ((e :: es).filter fun f => t ≤ f.1) = e :: es := by
        refine List.filter_eq_self.2 fun f hf => ?_
        simpa using hlate f hf
      rw [hnone, hall, List.nil_append]

theorem before_append_since (c : Course) (t : Nat) :
    c.before t ++ c.since t = c.events.map Prod.snd := by
  rw [before, since, ← List.map_append, filter_append_filter (pairwise_inTurn 0 c.events),
    map_inTurn]

theorem exists_before_append (c : Course) (h : t ≤ u) : ∃ es, c.before u = c.before t ++ es := by
  have hsplit := filter_append_filter (pairwise_inTurn 0 c.events) t
  have hboth : ((inTurn 0 c.events).filter fun e => e.1 < t).filter (fun e => e.1 < u) =
      (inTurn 0 c.events).filter fun e => e.1 < t := by
    refine List.filter_eq_self.2 fun e he => ?_
    have hlt : e.1 < t := by simpa using (List.mem_filter.1 he).2
    simpa using Nat.lt_of_lt_of_le hlt h
  refine ⟨(((inTurn 0 c.events).filter fun e => t ≤ e.1).filter fun e => e.1 < u).map Prod.snd, ?_⟩
  rw [before, ← hsplit, List.filter_append, hboth, hsplit, List.map_append]
  rfl

end Course

/-! ## Three sources in the order of time -/

theorem GrantSource.exists_ordered (time : GrantSource → Nat) :
    ∃ x y z : GrantSource, x ≠ y ∧ x ≠ z ∧ y ≠ z ∧ time x ≤ time y ∧ time y ≤ time z := by
  rcases Nat.le_total (time .policies) (time .resourcePermissions) with hpq | hqp
  · rcases Nat.le_total (time .resourcePermissions) (time .resourceShares) with hqs | hsq
    · exact ⟨.policies, .resourcePermissions, .resourceShares, by decide, by decide, by decide,
        hpq, hqs⟩
    · rcases Nat.le_total (time .policies) (time .resourceShares) with hps | hsp
      · exact ⟨.policies, .resourceShares, .resourcePermissions, by decide, by decide, by decide,
          hps, hsq⟩
      · exact ⟨.resourceShares, .policies, .resourcePermissions, by decide, by decide, by decide,
          hsp, hpq⟩
  · rcases Nat.le_total (time .policies) (time .resourceShares) with hps | hsp
    · exact ⟨.resourcePermissions, .policies, .resourceShares, by decide, by decide, by decide,
        hqp, hps⟩
    · rcases Nat.le_total (time .resourcePermissions) (time .resourceShares) with hqs | hsq
      · exact ⟨.resourcePermissions, .resourceShares, .policies, by decide, by decide, by decide,
          hqs, hsp⟩
      · exact ⟨.resourceShares, .resourcePermissions, .policies, by decide, by decide, by decide,
          hsq, hqp⟩

theorem GrantSource.eq_of_ne {x y z : GrantSource} (hxy : x ≠ y) (hxz : x ≠ z) (hyz : y ≠ z)
    (source : GrantSource) : source = x ∨ source = y ∨ source = z := by
  cases x <;> cases y <;> cases z <;> cases source <;> simp_all

/-! ## Events as steps -/

namespace Sources

/-- The sources after events. -/
def afterEvents (s : Sources) (es : List Event) : Sources :=
  (es.filterMap Event.sourceChange?).foldl change s

theorem afterEvents_append (s : Sources) (es fs : List Event) :
    s.afterEvents (es ++ fs) = (s.afterEvents es).afterEvents fs := by
  rw [afterEvents, List.filterMap_append, List.foldl_append]
  rfl

end Sources

namespace Authorizer

variable (a : Authorizer) (es fs : List Event) (p : Principal)

/-- The authorizer after events. -/
def afterEvents : Authorizer := a.invalidateAll (es.filterMap Event.invalidation?)

theorem afterEvents_append : a.afterEvents (es ++ fs) = (a.afterEvents es).afterEvents fs := by
  rw [afterEvents, List.filterMap_append, invalidateAll, List.foldl_append]
  rfl

theorem invalidateAll_traversal (is : List Invalidation) :
    (a.invalidateAll is).traversal = a.traversal := by
  induction is generalizing a with
  | nil => rfl
  | cons i is ih => exact ih (a.invalidate i)

theorem afterEvents_traversal : (a.afterEvents es).traversal = a.traversal :=
  a.invalidateAll_traversal _

end Authorizer

def Action.ofEvent : Event → Action
  | .change c => .change c
  | .invalidate i => .invalidate i

namespace Traffic

variable [Pattern.Engine] {s : Traffic} {d : Demand} {c : Nat} {generation : Option Nat}
  {reads : Table GrantSource (Except AccessError GrantRows)} {source : GrantSource}
  {answer : Except AccessError GrantRows}

theorem Run.events (s : Traffic) (es : List Event) :
    Run s (es.map .ofEvent)
      { s with sources := s.sources.afterEvents es, authorizer := s.authorizer.afterEvents es } := by
  induction es generalizing s with
  | nil => exact .nil
  | cons e es ih =>
    cases e with
    | change c => exact .cons (.change c) (ih { s with sources := s.sources.change c })
    | invalidate i =>
      exact .cons (.invalidate i) (ih { s with authorizer := s.authorizer.invalidate i })

/-- A call reads a source after the events that come before the read. -/
theorem exists_run_read (reading : s.calls.get? c = some ⟨d, .reading generation reads⟩)
    (unread : reads.get? source = none) (es : List Event)
    (yields : (s.sources.afterEvents es).Yields d.principal s.authorizer.traversal source answer) :
    ∃ trace t, Run s trace t ∧ t.sources = s.sources.afterEvents es ∧
      t.authorizer = s.authorizer.afterEvents es ∧
      t.calls.get? c = some ⟨d, .reading generation (reads.set source answer)⟩ := by
  have hyields : (s.sources.afterEvents es).Yields d.principal
      (s.authorizer.afterEvents es).traversal source answer := by
    rw [Authorizer.afterEvents_traversal]
    exact yields
  exact ⟨_, _, (Run.events s es).append (.cons (.read reading unread hyields) .nil), rfl, rfl,
    Table.get?_set_self ..⟩

/-- The three reads of a call, each after the events that come before it. -/
theorem exists_run_reads {answers : GrantSource → Except AccessError GrantRows}
    {x y z : GrantSource} (hxy : x ≠ y) (hxz : x ≠ z) (hyz : y ≠ z) {es fs gs : List Event}
    (reading : s.calls.get? c = some ⟨d, .reading generation {}⟩)
    (hx : (s.sources.afterEvents es).Yields d.principal s.authorizer.traversal x (answers x))
    (hy : (s.sources.afterEvents (es ++ fs)).Yields d.principal s.authorizer.traversal y
      (answers y))
    (hz : (s.sources.afterEvents (es ++ fs ++ gs)).Yields d.principal s.authorizer.traversal z
      (answers z)) :
    ∃ trace t reads, Run s trace t ∧ t.sources = s.sources.afterEvents (es ++ fs ++ gs) ∧
      t.authorizer = s.authorizer.afterEvents (es ++ fs ++ gs) ∧
      t.calls.get? c = some ⟨d, .reading generation reads⟩ ∧
      ∀ source, reads.get? source = some (answers source) := by
  obtain ⟨_, t, hrunt, hst, hat, hct⟩ := exists_run_read reading rfl es hx
  have hyunread : (({} : Table GrantSource _).set x (answers x)).get? y = none := by
    rw [Table.get?_set, if_neg hxy]
    rfl
  rw [Sources.afterEvents_append, ← hst, ← Authorizer.afterEvents_traversal _ es, ← hat] at hy
  obtain ⟨_, u, hrunu, hsu, hau, hcu⟩ := exists_run_read hct hyunread fs hy
  have hzunread : ((({} : Table GrantSource _).set x (answers x)).set y (answers y)).get? z =
      none := by
    rw [Table.get?_set, if_neg hyz, Table.get?_set, if_neg hxz]
    rfl
  rw [Sources.afterEvents_append, Sources.afterEvents_append, ← hst, ← hsu,
    ← Authorizer.afterEvents_traversal _ es, ← hat, ← Authorizer.afterEvents_traversal _ fs,
    ← hau] at hz
  obtain ⟨_, v, hrunv, hsv, hav, hcv⟩ := exists_run_read hcu hzunread gs hz
  refine ⟨_, v, _, (hrunt.append hrunu).append hrunv, ?_, ?_, hcv, fun source => ?_⟩
  · rw [hsv, hsu, hst, Sources.afterEvents_append, Sources.afterEvents_append]
  · rw [hav, hau, hat, Authorizer.afterEvents_append, Authorizer.afterEvents_append]
  · rcases GrantSource.eq_of_ne hxy hxz hyz source with rfl | rfl | rfl
    · rw [Table.get?_set, if_neg hxz.symm, Table.get?_set, if_neg hxy.symm, Table.get?_set_self]
    · rw [Table.get?_set, if_neg hyz.symm, Table.get?_set_self]
    · rw [Table.get?_set_self]

end Traffic

/-! ## The end of a call -/

namespace Authorizer

variable [Pattern.Engine]
variable {a : Authorizer} {r : AccessRequest} {b : BatchRequest} {c : Circumstances}

theorem authorize_authorizer (valid : r.validate = .ok ()) :
    (a.authorize r c).authorizer = (a.grants r.principal c).authorizer := by
  simp only [authorize, valid]
  split <;> rfl

theorem authorizeBatch_authorizer (valid : b.validate = .ok ()) (checks : b.checks.isEmpty = false) :
    (a.authorizeBatch b c).authorizer = (a.grants b.principal c).authorizer := by
  simp only [authorizeBatch, valid, checks, Bool.false_eq_true, if_false]
  split <;> rfl

end Authorizer

namespace Service

variable {α : Type} (v : Service) (c : Course)

theorem record_sources (r : AuditRecord) : (v.record r).sources = v.sources := by
  cases h : v.audit <;> simp [record, h, note]

theorem record_authorizer (r : AuditRecord) : (v.record r).authorizer = v.authorizer := by
  cases h : v.audit <;> simp [record, h, note]

/-- A trail leaves sources and authorizer alone. -/
theorem post_eq (trail : Trail) :
    (v.post trail).sources = v.sources ∧ (v.post trail).authorizer = v.authorizer := by
  induction trail generalizing v with
  | nil => exact ⟨rfl, rfl⟩
  | cons e trail ih =>
    cases e with
    | notice n => exact ih (v.note [n])
    | record r =>
      obtain ⟨hs, ha⟩ := ih (v.record r)
      exact ⟨hs.trans (v.record_sources r), ha.trans (v.record_authorizer r)⟩

theorem foldl_apply_eq (es : List Event) :
    es.foldl apply v =
      { v with sources := v.sources.afterEvents es, authorizer := v.authorizer.afterEvents es } := by
  induction es generalizing v with
  | nil => rfl
  | cons e es ih => cases e <;> exact ih _

theorem settle_sources (h : Handled α) :
    (v.settle c h).sources = v.sources.afterEvents (c.events.map Prod.snd) := by
  simp only [settle, foldl_apply_eq]
  rw [(post_eq _ _).1, ← c.before_append_since v.fetchTime, Sources.afterEvents_append]
  rfl

theorem settle_authorizer (h : Handled α) :
    (v.settle c h).authorizer = h.authorizer.afterEvents (c.since v.fetchTime) := by
  simp only [settle, foldl_apply_eq]
  rw [(post_eq _ _).2]

end Service

/-- What a service answers and what it is afterwards. -/
def Demand.serve [Pattern.Engine] (v : Service) (c : Course) :
    Demand → Except AccessError (List Decision) × Service
  | .single r => ((v.authorize r c).1.map fun d => [d], (v.authorize r c).2)
  | .batch b => v.authorizeBatch b c

theorem Demand.serve_eq [Pattern.Engine] {d : Demand} {v : Service} {c : Course}
    (proceeds : d.Proceeds) :
    (d.serve v c).1 = d.answer v.authorizer (v.circumstances d.principal c) ∧
      (d.serve v c).2.sources = v.sources.afterEvents (c.events.map Prod.snd) ∧
      (d.serve v c).2.authorizer =
        (v.authorizer.grants d.principal (v.circumstances d.principal c)).authorizer.afterEvents
          (c.since v.fetchTime) := by
  cases d with
  | single r =>
    refine ⟨rfl, v.settle_sources c _, ?_⟩
    exact (v.settle_authorizer c _).trans (by rw [Authorizer.authorize_authorizer proceeds]; rfl)
  | batch b =>
    obtain ⟨hvalid, hchecks⟩ := proceeds
    refine ⟨rfl, v.settle_sources c _, ?_⟩
    exact (v.settle_authorizer c _).trans
      (by rw [Authorizer.authorizeBatch_authorizer hvalid hchecks]; rfl)

/-! ## A call as a run -/

/-- The call is a run of overlapping steps that decides on those grants: it answers as the service
does and ends with the same sources and the same authorizer. -/
def Demand.RunsOn [Pattern.Engine] (d : Demand) (g : PreparedGrants) (v : Service) (c : Course) :
    Prop :=
  ∃ trace t, Traffic.Run ⟨v.sources, v.authorizer, {}⟩ trace t ∧
    t.calls.get? 0 = some ⟨d, .answered g⟩ ∧ (d.serve v c).1 = .ok (d.decisions g) ∧
    (d.serve v c).2.sources = t.sources ∧ (d.serve v c).2.authorizer = t.authorizer

namespace Service

variable {v : Service} {d : Demand} {c : Course}

theorem fetchTime_eq {z : GrantSource}
    (h : ∀ source, (v.sources.arrival v.authorizer.fetchTimeout source).time ≤
      (v.sources.arrival v.authorizer.fetchTimeout z).time) :
    v.fetchTime = (v.sources.arrival v.authorizer.fetchTimeout z).time := by
  have hp := h .policies
  have hq := h .resourcePermissions
  have hs := h .resourceShares
  simp only [fetchTime, Sources.fetchTime, GrantSource.all, List.map_cons, List.map_nil,
    List.foldl_cons, List.foldl_nil]
  cases z <;> omega

/-- The sources in the order in which they are read, with the events before each of the reads. -/
theorem exists_readOrder (v : Service) (c : Course) :
    ∃ (x y z : GrantSource) (es fs gs : List Event), x ≠ y ∧ x ≠ z ∧ y ≠ z ∧
      c.before (v.sources.arrival v.authorizer.fetchTimeout x).time = es ∧
      c.before (v.sources.arrival v.authorizer.fetchTimeout y).time = es ++ fs ∧
      c.before (v.sources.arrival v.authorizer.fetchTimeout z).time = es ++ fs ++ gs ∧
      (v.sources.arrival v.authorizer.fetchTimeout z).time = v.fetchTime := by
  obtain ⟨x, y, z, hxy, hxz, hyz, hle, hle'⟩ := GrantSource.exists_ordered fun source =>
    (v.sources.arrival v.authorizer.fetchTimeout source).time
  obtain ⟨fs, hfs⟩ := c.exists_before_append hle
  obtain ⟨gs, hgs⟩ := c.exists_before_append hle'
  refine ⟨x, y, z, _, fs, gs, hxy, hxz, hyz, rfl, hfs, by rw [hgs, hfs], ?_⟩
  refine (fetchTime_eq fun source => ?_).symm
  rcases GrantSource.eq_of_ne hxy hxz hyz source with rfl | rfl | rfl
  · exact Nat.le_trans hle hle'
  · exact hle'
  · exact Nat.le_refl _

variable [Pattern.Engine]

theorem runsOn_of_hit {g : PreparedGrants} {a : Authorizer} (live : c.cancelled = false)
    (proceeds : d.Proceeds) (hl : v.authorizer.lookup d.principal = (some g, a)) :
    d.RunsOn g v c := by
  obtain ⟨hanswer, hsources, hauthorizer⟩ := Demand.serve_eq (v := v) (c := c) proceeds
  have hgrants : v.authorizer.grants d.principal (v.circumstances d.principal c) =
      ⟨.ok g, a.afterEvents (c.before v.fetchTime), [.notice (.cacheHit d.principal)]⟩ := by
    simp [Authorizer.grants, circumstances, live, hl, Authorizer.afterEvents]
  have hlookup := Traffic.Step.lookup (s := ⟨v.sources, v.authorizer, {}⟩) (c := 0) rfl proceeds
  rw [hl] at hlookup
  refine ⟨_, _, .cons hlookup (.events _ (c.events.map Prod.snd)), Table.get?_set_self .., ?_,
    hsources, ?_⟩
  · rw [hanswer]
    exact Demand.answer_of_grants proceeds (by rw [hgrants])
  · rw [hauthorizer, hgrants, ← Authorizer.afterEvents_append, c.before_append_since]

theorem exists_runsOn_of_miss {a : Authorizer} (live : c.cancelled = false) (proceeds : d.Proceeds)
    (inTime : c.cancelAt.any (· < v.fetchTime) = false)
    (hl : v.authorizer.lookup d.principal = (none, a)) : ∃ g, d.RunsOn g v c := by
  obtain ⟨hanswer, hsources, hauthorizer⟩ := Demand.serve_eq (v := v) (c := c) proceeds
  have hmiss : (v.authorizer.lookup d.principal).1 = none := by rw [hl]
  have ha : (v.authorizer.lookup d.principal).2 = a := by rw [hl]
  have hregistry : a.registry = v.authorizer.registry := by rw [← ha, Authorizer.lookup_registry]
  have htraversal : a.traversal = v.authorizer.traversal := by
    rw [← ha, Authorizer.lookup_traversal]
  -- what the sources answer, each at its time
  obtain ⟨answers, hanswers, hyields⟩ := v.sources.answers_yielded (v.sourcesAt c)
    v.authorizer.fetchTimeout d.principal v.authorizer.traversal
  obtain ⟨x, y, z, es, fs, gs, hxy, hxz, hyz, hes, hfs, hgs, htime⟩ := v.exists_readOrder c
  have hx := hyields x
  have hy := hyields y
  have hz := hyields z
  simp only [sourcesAt, hes, hfs, hgs, ← htraversal] at hx hy hz
  have hfetch : v.fetch d.principal c = .answered (.ofSources answers) := by
    rw [fetch, inTime, hanswers]
    rfl
  -- the steps of the call
  have hlookup := Traffic.Step.lookup (s := ⟨v.sources, v.authorizer, {}⟩) (c := 0) rfl proceeds
  rw [hl] at hlookup
  obtain ⟨_, t, _, hwork, hst, hat, hreading, hcomplete⟩ :=
    Traffic.exists_run_reads (s := ⟨v.sources, a, _⟩) (c := 0) hxy hxz hyz
      (Table.get?_set_self ..) hx hy hz
  have hrun := Traffic.Run.cons hlookup <| .cons (.note (Table.get?_set_self ..)) <|
    hwork.append <| .cons (.put hreading hcomplete) (.events _ (c.since v.fetchTime))
  have hprepared : t.prepared d.principal answers =
      (Snapshot.collect d.principal (.ofSources answers)).prepare v.authorizer.registry := by
    rw [Traffic.prepared, hat, Authorizer.afterEvents, Authorizer.invalidateAll_registry, hregistry]
  rw [← hgs, htime] at hst hat
  refine ⟨_, _, _, hrun, Table.get?_set_self .., ?_, ?_, ?_⟩
  · rw [hanswer, hprepared]
    exact Demand.answer_of_grants proceeds (Authorizer.grants_of_miss live hmiss hfetch)
  · rw [hsources, ← c.before_append_since v.fetchTime, Sources.afterEvents_append, hst]
  · rw [hauthorizer, Authorizer.grants_authorizer_of_miss live hmiss hfetch, hprepared, hat, ha]
    rfl

/-- Every call that is not cancelled before its sources have answered is such a run. -/
theorem exists_runsOn (live : c.cancelled = false) (proceeds : d.Proceeds)
    (inTime : c.cancelAt.any (· < v.fetchTime) = false) :
    ∃ g, d.RunsOn g v c := by
  rcases hl : v.authorizer.lookup d.principal with ⟨found, a⟩
  cases found with
  | some g => exact ⟨g, runsOn_of_hit live proceeds hl⟩
  | none => exact exists_runsOn_of_miss live proceeds inTime hl

end Service

end TenantAccess
