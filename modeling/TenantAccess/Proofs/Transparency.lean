import TenantAccess.Proofs.Errors

/-!
# A cache that cannot be seen

One thing is done to a service after the other: the store changes, grants are invalidated, the
operators are replaced, access is checked. If whatever a change does to what the store tells a
principal is followed by an invalidation before access is checked again, a service with a cache
answers like one without. The invariant of such a run is that an entry of the cache either is what
would be read now or will be invalidated before the next check.
-/
namespace TenantAccess

/-! ## Runs -/

inductive Command where
  | change (c : StoreChange)
  | invalidate (i : Invalidation)
  | withOperators (registry : Registry)
  | check (d : Demand) (cancelled : Bool) (cancelAt : Option Nat)

namespace Command

/-- The cached grants of the principal are given up. -/
def Covers (p : Principal) : Command → Prop
  | .invalidate i => i.Covers p
  | .withOperators _ => True
  | .change _ | .check .. => False

/-- The cached grants of the principal are given up before access is checked. -/
def CoverInTime (p : Principal) : List Command → Prop
  | [] => True
  | .check .. :: _ => False
  | c :: cs => c.Covers p ∨ CoverInTime p cs

/-- Before access is checked again, a change is followed by an invalidation for every principal
whose reads it changed. -/
def Attended (traversal : GroupTraversal) : Sources → List Command → Prop
  | _, [] => True
  | s, .change c :: cs =>
    (∀ p, (s.change (.store c)).rows p traversal ≠ s.rows p traversal → CoverInTime p cs) ∧
      Attended traversal (s.change (.store c)) cs
  | s, _ :: cs => Attended traversal s cs

end Command

namespace Service

variable [Pattern.Engine]

/-- What a command answers, if it checks access, and what it makes of the service. -/
def perform (v : Service) : Command → Option (Except AccessError (List Decision)) × Service
  | .change c => (none, v.apply (.change (.store c)))
  | .invalidate i => (none, v.apply (.invalidate i))
  | .withOperators registry =>
    (none, { v with authorizer := v.authorizer.withOperators registry })
  | .check d cancelled cancelAt =>
    let (answer, v) := d.serve v { cancelled, cancelAt }
    (some answer, v)

def answers (v : Service) : List Command → List (Except AccessError (List Decision))
  | [] => []
  | c :: cs => (v.perform c).1.toList ++ (v.perform c).2.answers cs

def withCache (v : Service) (cache : Option GrantCache) : Service :=
  { v with authorizer := { v.authorizer with cache } }

/-- The grants that a check without a cache would decide on. -/
def current (v : Service) (p : Principal) : PreparedGrants :=
  let rows := v.sources.rows p v.authorizer.traversal
  (Snapshot.collect p ⟨.ok rows.policies, .ok rows.permissions, .ok rows.shares⟩).prepare
    v.authorizer.registry

end Service

/-! ## The authorizer but for its cache -/

namespace Authorizer

variable {a : Authorizer} {p q : Principal} {g : PreparedGrants} {c : Circumstances}

def uncached (a : Authorizer) : Authorizer := { a with cache := none }

theorem uncached_lookup : (a.lookup p).2.uncached = a.uncached := by
  cases hc : a.cache <;> simp [lookup, hc, uncached]

theorem uncached_invalidate (i : Invalidation) : (a.invalidate i).uncached = a.uncached := rfl

theorem uncached_invalidateAll (is : List Invalidation) :
    (a.invalidateAll is).uncached = a.uncached := by
  induction is generalizing a with
  | nil => rfl
  | cons i is ih => exact ih.trans (uncached_invalidate i)

theorem uncached_remember {generation : Option Nat} :
    (a.remember p g generation).1.uncached = a.uncached := by
  cases generation with
  | none => rw [remember_none]
  | some n =>
    cases hc : a.cache with
    | none => rw [remember_uncached hc]
    | some cache =>
      rw [remember_cached hc]
      rfl

theorem holds_of_holds_invalidateAll {is : List Invalidation}
    (h : (a.invalidateAll is).Holds p g) : a.Holds p g := by
  induction is generalizing a with
  | nil => exact h
  | cons i is ih => exact (holds_invalidate_iff.1 (ih h)).1

theorem not_holds_withOperators {registry : Registry} : ¬ (a.withOperators registry).Holds p g := by
  cases hc : a.cache <;> simp [Holds, withOperators, GrantCache.clear, hc]

variable [Pattern.Engine]

/-- A call keeps the settings of the authorizer. -/
theorem uncached_grants : (a.grants p c).authorizer.uncached = a.uncached := by
  cases hlive : c.cancelled with
  | true => rw [grants_of_cancelled hlive, uncached_invalidateAll]
  | false =>
    cases hfound : (a.lookup p).1 with
    | some g => rw [grants_of_hit hlive hfound, uncached_invalidateAll, uncached_lookup]
    | none =>
      cases hfetch : c.fetch with
      | cancelled => rw [grants_of_cancelledFetch hlive hfound hfetch, uncached_invalidateAll]
      | answered answers =>
        rw [grants_authorizer_of_miss hlive hfound hfetch, uncached_remember,
          uncached_invalidateAll, uncached_lookup]

/-- After a call the cache has for a principal what it had before, or what the call came to. -/
theorem holds_of_holds_grants (h : (a.grants p c).authorizer.Holds q g) :
    a.Holds q g ∨ q = p ∧ (a.grants p c).result = .ok g := by
  cases hlive : c.cancelled with
  | true =>
    rw [grants_of_cancelled hlive] at h
    exact .inl (holds_of_holds_invalidateAll h)
  | false =>
    cases hfound : (a.lookup p).1 with
    | some found =>
      rw [grants_of_hit hlive hfound] at h
      exact .inl (holds_of_holds_lookup (holds_of_holds_invalidateAll h))
    | none =>
      cases hfetch : c.fetch with
      | cancelled =>
        rw [grants_of_cancelledFetch hlive hfound hfetch] at h
        exact .inl (holds_of_holds_invalidateAll h)
      | answered answers =>
        rw [grants_authorizer_of_miss hlive hfound hfetch] at h
        rcases holds_of_holds_remember h with h | ⟨rfl, rfl, -⟩
        · exact .inl (holds_of_holds_lookup (holds_of_holds_invalidateAll h))
        · exact .inr ⟨rfl, grants_of_miss hlive hfound hfetch⟩

theorem authorize_authorizer_or (a : Authorizer) (r : AccessRequest) (c : Circumstances) :
    (a.authorize r c).authorizer = a.invalidateAll c.invalidations ∨
      (a.authorize r c).authorizer = (a.grants r.principal c).authorizer := by
  cases hvalid : r.validate with
  | error e => exact .inl (by simp only [authorize, hvalid])
  | ok => exact .inr (authorize_authorizer hvalid)

theorem authorizeBatch_authorizer_or (a : Authorizer) (b : BatchRequest) (c : Circumstances) :
    (a.authorizeBatch b c).authorizer = a.invalidateAll c.invalidations ∨
      (a.authorizeBatch b c).authorizer = (a.grants b.principal c).authorizer := by
  cases hvalid : b.validate with
  | error e => exact .inl (by simp only [authorizeBatch, hvalid])
  | ok =>
    cases hchecks : b.checks.isEmpty with
    | true => exact .inl (by simp only [authorizeBatch, hvalid, hchecks, if_pos])
    | false => exact .inr (authorizeBatch_authorizer hvalid hchecks)

end Authorizer

/-! ## One call at a time -/

namespace Demand

variable [Pattern.Engine]
variable {d : Demand} {a b : Authorizer} {x y : Circumstances} {v : Service} {c : Course}

/-- An answer depends on nothing but the grants. -/
theorem answer_congr (h : (a.grants d.principal x).result = (b.grants d.principal y).result) :
    d.answer a x = d.answer b y := by
  cases d with
  | single r =>
    simp only [principal] at h
    cases hvalid : r.validate with
    | error e => simp only [answer, Authorizer.authorize, hvalid]
    | ok => rw [answer, answer, Authorizer.authorize_of_valid hvalid,
        Authorizer.authorize_of_valid hvalid, h]
  | batch request =>
    simp only [principal] at h
    simp only [answer, Authorizer.authorizeBatch, h]
    cases request.validate with
    | error e => rfl
    | ok =>
      cases request.checks.isEmpty with
      | true => rfl
      | false => cases (b.grants request.principal y).result <;> rfl

theorem serve_answer : (d.serve v c).1 = d.answer v.authorizer (v.circumstances d.principal c) := by
  cases d <;> rfl

/-! When nothing else happens, a call changes the cache at most. -/

section Quiet

variable (d v) (cancelled : Bool) (cancelAt : Option Nat)

theorem serve_sources : (d.serve v { cancelled, cancelAt }).2.sources = v.sources := by
  cases d <;> exact v.settle_sources { cancelled, cancelAt } _

theorem serve_authorizer_or :
    (d.serve v { cancelled, cancelAt }).2.authorizer = v.authorizer ∨
      (d.serve v { cancelled, cancelAt }).2.authorizer = (v.authorizer.grants d.principal
        (v.circumstances d.principal { cancelled, cancelAt })).authorizer := by
  cases d with
  | single r =>
    rw [serve, Service.authorize, Service.settle_authorizer]
    exact v.authorizer.authorize_authorizer_or r (v.circumstances r.principal _)
  | batch b =>
    rw [serve, Service.authorizeBatch, Service.settle_authorizer]
    exact v.authorizer.authorizeBatch_authorizer_or b (v.circumstances b.principal _)

theorem serve_uncached :
    (d.serve v { cancelled, cancelAt }).2.authorizer.uncached = v.authorizer.uncached := by
  rcases serve_authorizer_or d v cancelled cancelAt with heq | heq
  · rw [heq]
  · rw [heq, Authorizer.uncached_grants]

end Quiet

end Demand

namespace Service

variable [Pattern.Engine] {v w : Service} {p : Principal} {c : Course} {cs : List Command}

theorem current_congr (sources : v.sources = w.sources)
    (uncached : v.authorizer.uncached = w.authorizer.uncached) (p : Principal) :
    v.current p = w.current p := by
  have hregistry := congrArg Authorizer.registry uncached
  have htraversal := congrArg Authorizer.traversal uncached
  simp only [Authorizer.uncached] at hregistry htraversal
  simp only [current, sources, hregistry, htraversal]

/-- A call comes to the current grants if the cache has no others for its principal. -/
theorem grants_of_current (faultless : ∀ source, v.sources.fault? source = none)
    (held : ∀ g, v.authorizer.Holds p g → g = v.current p) :
    (v.authorizer.grants p (v.circumstances p c)).result =
      if c.cancelled then .error .cancelled else .ok (v.current p) := by
  cases hlive : c.cancelled with
  | true => rw [Authorizer.grants_of_cancelled hlive, if_pos rfl]
  | false =>
    rw [if_neg Bool.false_ne_true]
    cases hfound : (v.authorizer.lookup p).1 with
    | some g =>
      have hg := held g (Authorizer.holds_of_lookup hfound)
      rw [Authorizer.grants_of_hit hlive hfound, hg]
    | none =>
      have hfetch := fetch_of_faultless (p := p) (c := c) faultless
      rw [Sources.answers_of_faultless faultless, sourcesAt_zero] at hfetch
      rw [Authorizer.grants_of_miss hlive hfound hfetch]
      rfl

/-! ## What a run preserves -/

/-- Whatever the cache has for a principal is current, or will be given up before the commands check
access. -/
structure Faithful (v : Service) (cs : List Command) : Prop where
  faultless : ∀ source, v.sources.fault? source = none
  held : ∀ p g, v.authorizer.Holds p g → g = v.current p ∨ Command.CoverInTime p cs
  attended : Command.Attended v.authorizer.traversal v.sources cs

namespace Faithful

theorem of_empty (faultless : ∀ source, v.sources.fault? source = none)
    (empty : ∀ p g, ¬ v.authorizer.Holds p g)
    (attended : Command.Attended v.authorizer.traversal v.sources cs) : v.Faithful cs :=
  ⟨faultless, fun p g hg => absurd hg (empty p g), attended⟩

theorem change {c : StoreChange} (h : v.Faithful (.change c :: cs)) :
    (v.apply (.change (.store c))).Faithful cs := by
  obtain ⟨hcovered, hattended⟩ := h.attended
  refine ⟨h.faultless, ?_, hattended⟩
  intro p g hg
  by_cases hrows : (v.sources.change (.store c)).rows p v.authorizer.traversal =
      v.sources.rows p v.authorizer.traversal
  · have hcurrent : (v.apply (.change (.store c))).current p = v.current p := by
      simp only [current, apply, hrows]
    rw [hcurrent]
    exact (h.held p g hg).imp_right fun hcover => hcover.resolve_left id
  · exact .inr (hcovered p hrows)

theorem invalidate {i : Invalidation} (h : v.Faithful (.invalidate i :: cs)) :
    (v.apply (.invalidate i)).Faithful cs := by
  refine ⟨h.faultless, ?_, h.attended⟩
  intro p g hg
  obtain ⟨hheld, hnot⟩ := Authorizer.holds_invalidate_iff.1 hg
  exact (h.held p g hheld).imp_right fun hcover => hcover.resolve_left hnot

/-- Nothing may be waiting to be given up when access is checked. -/
theorem current_of_check {d : Demand} {cancelled : Bool} {cancelAt : Option Nat}
    (h : v.Faithful (.check d cancelled cancelAt :: cs)) {g : PreparedGrants}
    (hg : v.authorizer.Holds p g) : g = v.current p :=
  (h.held p g hg).resolve_right id

theorem check {d : Demand} {cancelled : Bool} {cancelAt : Option Nat}
    (h : v.Faithful (.check d cancelled cancelAt :: cs)) :
    (d.serve v { cancelled, cancelAt }).2.Faithful cs := by
  have hgrants := grants_of_current (c := { cancelled, cancelAt }) h.faultless
    fun g => h.current_of_check (p := d.principal) (g := g)
  have hsources := d.serve_sources v cancelled cancelAt
  have huncached := d.serve_uncached v cancelled cancelAt
  have htraversal := congrArg Authorizer.traversal huncached
  refine ⟨?_, ?_, ?_⟩
  · rw [hsources]
    exact h.faultless
  · intro p g hg
    left
    rw [current_congr hsources huncached]
    rcases d.serve_authorizer_or v cancelled cancelAt with heq | heq
    · rw [heq] at hg
      exact h.current_of_check hg
    · rw [heq] at hg
      rcases Authorizer.holds_of_holds_grants hg with hg | ⟨rfl, hresult⟩
      · exact h.current_of_check hg
      · rw [hgrants] at hresult
        split at hresult
        · cases hresult
        · cases hresult
          rfl
  · rw [hsources]
    exact htraversal ▸ h.attended

theorem perform {c : Command} (h : v.Faithful (c :: cs)) : (v.perform c).2.Faithful cs := by
  cases c with
  | change c => exact h.change
  | invalidate i => exact h.invalidate
  | withOperators registry =>
    exact of_empty h.faultless (fun p g => Authorizer.not_holds_withOperators) h.attended
  | check d cancelled cancelAt => exact h.check

end Faithful

/-! ## Two services side by side -/

/-- The services have the same sources and the same settings; their caches may differ. -/
structure Alike (v w : Service) : Prop where
  sources_eq : v.sources = w.sources
  uncached_eq : v.authorizer.uncached = w.authorizer.uncached

namespace Alike

theorem perform (h : v.Alike w) (c : Command) : (v.perform c).2.Alike (w.perform c).2 := by
  cases c with
  | change c => exact ⟨congrArg (Sources.change · (.store c)) h.sources_eq, h.uncached_eq⟩
  | invalidate i => exact ⟨h.sources_eq, h.uncached_eq⟩
  | withOperators registry =>
    have hsettings := congrArg (fun a : Authorizer => { a with registry }) h.uncached_eq
    exact ⟨h.sources_eq, hsettings⟩
  | check d cancelled cancelAt =>
    refine ⟨?_, ?_⟩
    · have hsources := h.sources_eq
      rw [← d.serve_sources v cancelled cancelAt, ← d.serve_sources w cancelled cancelAt]
        at hsources
      exact hsources
    · have huncached := h.uncached_eq
      rw [← d.serve_uncached v cancelled cancelAt, ← d.serve_uncached w cancelled cancelAt]
        at huncached
      exact huncached

theorem answer_eq {c : Command} (h : v.Alike w) (hv : v.Faithful (c :: cs))
    (hw : w.Faithful (c :: cs)) : (v.perform c).1 = (w.perform c).1 := by
  cases c with
  | change c => rfl
  | invalidate i => rfl
  | withOperators registry => rfl
  | check d cancelled cancelAt =>
    have hgrants := grants_of_current (c := { cancelled, cancelAt }) hv.faultless
      fun g => hv.current_of_check (p := d.principal) (g := g)
    have hgrants' := grants_of_current (c := { cancelled, cancelAt }) hw.faultless
      fun g => hw.current_of_check (p := d.principal) (g := g)
    have hcurrent := current_congr h.sources_eq h.uncached_eq d.principal
    rw [← hcurrent] at hgrants'
    have hanswer := Demand.answer_congr (hgrants.trans hgrants'.symm)
    rw [← Demand.serve_answer, ← Demand.serve_answer] at hanswer
    exact congrArg some hanswer

/-- Services that are alike answer alike as long as their caches are faithful. -/
theorem answers_eq (h : v.Alike w) (hv : v.Faithful cs) (hw : w.Faithful cs) :
    v.answers cs = w.answers cs := by
  induction cs generalizing v w with
  | nil => rfl
  | cons c cs ih =>
    have hanswer := h.answer_eq hv hw
    have hrest := ih (h.perform c) hv.perform hw.perform
    rw [answers, answers, hanswer, hrest]

end Alike

/-- In an attended run a service answers with a cache of any capacity as it does without one. That
is so from the replacement of the operators on, whatever the cache had before. -/
theorem answers_withCache (faultless : ∀ source, v.sources.fault? source = none)
    (attended : Command.Attended v.authorizer.traversal v.sources cs) :
    (∀ capacity, (v.withCache (some (.ofCapacity capacity))).answers cs =
        (v.withCache none).answers cs) ∧
      ∀ cache registry, (v.withCache cache).answers (.withOperators registry :: cs) =
        (v.withCache none).answers (.withOperators registry :: cs) := by
  have halike (cache : Option GrantCache) : (v.withCache cache).Alike (v.withCache none) :=
    ⟨rfl, rfl⟩
  constructor
  · intro capacity
    have hempty : (v.withCache (some (.ofCapacity capacity))).Faithful cs := by
      refine .of_empty faultless ?_ attended
      rintro p g ⟨c, hc, hmem⟩
      cases hc
      cases hmem
    have hnone : (v.withCache none).Faithful cs := by
      refine .of_empty faultless ?_ attended
      rintro p g ⟨c, hc, -⟩
      cases hc
    exact (halike _).answers_eq hempty hnone
  · intro cache registry
    -- whatever the cache has, the first command gives it up
    have hcleared (cache : Option GrantCache) :
        (v.withCache cache).Faithful (.withOperators registry :: cs) :=
      ⟨faultless, fun p g _ => .inr (.inl trivial), attended⟩
    exact (halike cache).answers_eq (hcleared cache) (hcleared none)

end Service

/-! ## A share that is withdrawn -/

namespace Withdrawal

def editor : Principal := ⟨"acme", .user, "eve"⟩

def service : Service where
  sources := { store := { shares := [.ofPrincipal "share-1" editor "post-1" .owner] } }
  authorizer := { registry := .builtin }

def request : AccessRequest where
  principal := editor
  action := "blog:delete"
  resource := "post-1"

def check : Command := .check (.single request) false none

/-- The second check finds the grants in the cache, the third one has to read them again. -/
def commands : List Command :=
  [check, check, .change (.removeShare "share-1"), .invalidate (.principal editor), check,
    .withOperators .builtin, check]

theorem attended : Command.Attended .direct service.sources commands := by
  refine ⟨?_, trivial⟩
  intro p hchanged
  by_cases hp : p = editor
  · exact .inl (.inl (congrArg Invalidation.principal hp.symm))
  · -- nobody else has a share
    have hbefore : service.sources.store.sharesOf p = [] := by
      refine List.filter_eq_nil_iff.2 fun row hrow hnamed => hp ?_
      obtain rfl := List.mem_singleton.1 hrow
      obtain ⟨o, kind, id⟩ := p
      simp only [ResourceShare.ofPrincipal, Principal.isNamed, Bool.and_eq_true, beq_iff_eq]
        at hnamed
      obtain ⟨rfl, rfl, rfl⟩ := hnamed
      rfl
    have hafter : (service.sources.store.change (.removeShare "share-1")).sharesOf p = [] := rfl
    have hsame : (service.sources.change (.store (.removeShare "share-1"))).rows p .direct =
        service.sources.rows p .direct :=
      congrArg (GrantRows.mk _ _) (hafter.trans hbefore.symm)
    exact absurd hsame hchanged

theorem answers_uncached : (service.withCache none).answers commands =
    [.ok [.allow (.shareAllow "share-1" .owner)], .ok [.allow (.shareAllow "share-1" .owner)],
      .ok [.defaultDeny], .ok [.defaultDeny]] := by
  rfl

end Withdrawal

theorem Service.answers_withdrawal :
    (Withdrawal.service.withCache (some (.ofCapacity 1))).answers Withdrawal.commands =
      [.ok [.allow (.shareAllow "share-1" .owner)], .ok [.allow (.shareAllow "share-1" .owner)],
        .ok [.defaultDeny], .ok [.defaultDeny]] := by
  have h := answers_withCache (v := Withdrawal.service) (fun _ => rfl) Withdrawal.attended
  exact (h.1 1).trans Withdrawal.answers_uncached

end TenantAccess
