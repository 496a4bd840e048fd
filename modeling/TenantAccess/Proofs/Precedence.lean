import TenantAccess.Verdict

/-!
# Which grant decides

Denials come before allowances, and within each of them policies come before permissions; shares
come last. `Settles` states this order of precedence rule by rule, each rule naming the grant that
is reported. `PreparedGrants.decide` computes it in one pass over all votes.
-/
namespace TenantAccess

/-- The first element with a property. -/
def IsFirst {α : Type} (has : α → Prop) (as : List α) (a : α) : Prop :=
  ∃ before after, as = before ++ a :: after ∧ has a ∧ ∀ b ∈ before, ¬ has b

theorem filterMap_filter_of_none {α β : Type} {f : α → Option β} {keep : α → Bool}
    (h : ∀ a, keep a = false → f a = none) (as : List α) :
    (as.filter keep).filterMap f = as.filterMap f := by
  rw [List.filterMap_filter]
  congr 1
  funext a
  cases hk : keep a with
  | false => simp [h a hk]
  | true => simp

namespace IsFirst

variable {α β : Type} {has : α → Prop} {as bs : List α} {a : α}

theorem holds (h : IsFirst has as a) : has a := by
  obtain ⟨-, -, -, ha, -⟩ := h
  exact ha

theorem mem (h : IsFirst has as a) : a ∈ as := by
  obtain ⟨before, after, rfl, -, -⟩ := h
  exact List.mem_append_right before (.head after)

theorem cons_of_not {b : α} (hb : ¬ has b) (h : IsFirst has as a) : IsFirst has (b :: as) a := by
  obtain ⟨before, after, rfl, ha, hbefore⟩ := h
  refine ⟨b :: before, after, rfl, ha, fun c hc => ?_⟩
  rcases List.mem_cons.1 hc with rfl | hc
  · exact hb
  · exact hbefore c hc

/-- Some element has the property exactly if there is a first one. -/
theorem exists_of_mem (h : ∃ a ∈ as, has a) : ∃ a, IsFirst has as a := by
  induction as with
  | nil =>
    obtain ⟨a, ha, -⟩ := h
    cases ha
  | cons b as ih =>
    by_cases hb : has b
    · exact ⟨b, [], as, rfl, hb, fun c hc => by cases hc⟩
    · obtain ⟨a, ha, hhas⟩ := h
      rcases List.mem_cons.1 ha with rfl | ha
      · exact absurd hhas hb
      · obtain ⟨c, hc⟩ := ih ⟨a, ha, hhas⟩
        exact ⟨c, hc.cons_of_not hb⟩

theorem congr {has' : α → Prop} (hiff : ∀ a, has a ↔ has' a) (h : IsFirst has as a) :
    IsFirst has' as a := by
  obtain ⟨before, after, rfl, ha, hbefore⟩ := h
  exact ⟨before, after, rfl, (hiff a).1 ha, fun b hb hb' => hbefore b hb ((hiff b).2 hb')⟩

theorem append_left (h : IsFirst has as a) : IsFirst has (as ++ bs) a := by
  obtain ⟨before, after, rfl, ha, hbefore⟩ := h
  exact ⟨before, after ++ bs, by simp, ha, hbefore⟩

theorem append_right (has' : ∀ b ∈ bs, ¬ has b) (h : IsFirst has as a) :
    IsFirst has (bs ++ as) a := by
  obtain ⟨before, after, rfl, ha, hbefore⟩ := h
  refine ⟨bs ++ before, after, by simp, ha, fun c hc => ?_⟩
  rcases List.mem_append.1 hc with hc | hc
  · exact has' c hc
  · exact hbefore c hc

/-- The first element that yields a value with the property yields the first such value. -/
theorem filterMap {f : α → Option β} {holds : β → Prop} {b : β} (hab : f a = some b)
    (h : IsFirst (fun a => ∃ b, f a = some b ∧ holds b) as a) :
    IsFirst holds (as.filterMap f) b := by
  obtain ⟨before, after, rfl, ⟨b', hb', hholds⟩, hbefore⟩ := h
  have hb : holds b := by
    rw [hab] at hb'
    cases hb'
    exact hholds
  refine ⟨before.filterMap f, after.filterMap f, by simp [hab], hb, fun c hc hholds => ?_⟩
  obtain ⟨d, hd, hdc⟩ := List.mem_filterMap.1 hc
  exact hbefore d hd ⟨c, hdc, hholds⟩

end IsFirst

/-! ## What single grants say -/

namespace PreparedPolicy

/-- The document compiled and evaluates to that effect; `sid` names the statement that decided. -/
def Casts (p : PreparedPolicy) (action resource : String) (context : Context) (e : Effect)
    (sid : Option String) : Prop :=
  ∃ rules, p.rules = .ok rules ∧ rules.evaluate action resource context = ⟨.ofEffect e, sid⟩

def reason (p : PreparedPolicy) (sid : Option String) : Effect → DecisionReason
  | .deny => .explicitPolicyDeny p.id sid
  | .allow => .policyAllow p.id sid

theorem vote?_eq_some_iff {p : PreparedPolicy} {action resource : String} {context : Context}
    {v : Vote} :
    p.vote? action resource context = some v ↔
      ∃ sid, p.Casts action resource context v.effect sid ∧ v.reason = p.reason sid v.effect := by
  obtain ⟨e, r⟩ := v
  cases hp : p.rules with
  | error _ => simp [vote?, Casts, hp]
  | ok rules =>
    cases ho : rules.evaluate action resource context with
    | mk evaluation sid =>
      cases evaluation <;> cases e <;>
        simp [vote?, Casts, hp, ho, reason, Evaluation.ofEffect, eq_comm]

end PreparedPolicy

namespace PreparedPermission

/-- The permission names the very resource, and its pattern compiled and matches the action. -/
def Casts (p : PreparedPermission) (action resource : String) (e : Effect) : Prop :=
  p.row.resource = resource ∧ p.row.effect = e ∧
    ∃ pattern, p.pattern = .ok pattern ∧ pattern.isMatch action = true

theorem vote?_eq_some_iff {p : PreparedPermission} {action resource : String} {v : Vote} :
    p.vote? action resource = some v ↔
      p.Casts action resource v.effect ∧ v.reason = p.reason := by
  obtain ⟨e, r⟩ := v
  cases hp : p.pattern with
  | error _ => simp [vote?, applies, Casts, hp]
  | ok pattern =>
    simp only [vote?, applies, Casts, hp, Bool.and_eq_true, beq_iff_eq, Option.ite_none_right_eq_some,
      Option.some.injEq, Vote.mk.injEq, Except.ok.injEq, exists_eq_left']
    constructor
    · rintro ⟨⟨hres, hm⟩, he, hr⟩
      exact ⟨⟨hres, he, hm⟩, hr.symm⟩
    · rintro ⟨⟨hres, he, hm⟩, hr⟩
      exact ⟨⟨hres, hm⟩, he, hr.symm⟩

end PreparedPermission

namespace ResourceShare

/-- The share is of the very resource, and its level permits the action. -/
def Grants (s : ResourceShare) (action resource : String) : Prop :=
  s.resource = resource ∧ s.level.permits action = true

theorem vote?_eq_some_iff {s : ResourceShare} {action resource : String} {v : Vote} :
    s.vote? action resource = some v ↔
      s.Grants action resource ∧ v = ⟨.allow, .shareAllow s.id s.level⟩ := by
  simp only [vote?, applies, Grants, Bool.and_eq_true, beq_iff_eq, Option.ite_none_right_eq_some,
    Option.some.injEq]
  exact and_congr_right fun _ => eq_comm

end ResourceShare

/-! ## Counting votes -/

namespace Decision

variable {votes : List Vote} {v : Vote} {found : Option DecisionReason}

theorem tally_of_first_deny (h : IsFirst (fun v => v.effect = .deny) votes v) :
    tally found votes = deny v.reason := by
  obtain ⟨before, after, rfl, hv, hbefore⟩ := h
  induction before generalizing found with
  | nil => cases found <;> simp [tally, hv]
  | cons b before ih =>
    have hb : b.effect ≠ .deny := hbefore b (.head _)
    have hb : b.effect = .allow := by
      cases he : b.effect with
      | allow => rfl
      | deny => exact absurd he hb
    have hrest : ∀ f, tally f (before ++ v :: after) = deny v.reason :=
      fun f => ih fun c hc => hbefore c (.tail _ hc)
    cases found <;> simp [tally, hb, hrest]

/-- A reason that was found stays the reason as long as nothing denies. -/
theorem tally_some {reason : DecisionReason} (h : ∀ v ∈ votes, v.effect ≠ .deny) :
    tally (some reason) votes = allow reason := by
  induction votes with
  | nil => rfl
  | cons v votes ih =>
    cases he : v.effect with
    | deny => exact absurd he (h v (.head _))
    | allow =>
      simp only [tally, he, Option.some_or]
      exact ih fun c hc => h c (.tail _ hc)

theorem tally_of_first_allow (hd : ∀ v ∈ votes, v.effect ≠ .deny)
    (h : IsFirst (fun v => v.effect = .allow) votes v) : tally none votes = allow v.reason := by
  obtain ⟨before, after, rfl, hv, hbefore⟩ := h
  cases before with
  | nil =>
    simp only [List.nil_append, tally, hv, Option.none_or]
    exact tally_some fun c hc => hd c (.tail _ hc)
  | cons b before =>
    -- a vote that does not allow would deny
    cases he : b.effect with
    | allow => exact absurd he (hbefore b (.head _))
    | deny => exact absurd he (hd b (.head _))

theorem tally_of_no_votes (h : ∀ v ∈ votes, v.effect ≠ .deny ∧ v.effect ≠ .allow) :
    tally none votes = defaultDeny := by
  cases votes with
  | nil => rfl
  | cons v votes =>
    obtain ⟨hd, ha⟩ := h v (.head _)
    cases he : v.effect with
    | allow => exact absurd he ha
    | deny => exact absurd he hd

end Decision

/-! ## The order of precedence -/

section

variable (g : PreparedGrants) (action resource : String) (context : Context)

namespace PreparedGrants

def PolicyCasts (e : Effect) : Prop := ∃ p ∈ g.policies, ∃ sid, p.Casts action resource context e sid

def PermissionCasts (e : Effect) : Prop := ∃ p ∈ g.permissions, p.Casts action resource e

def ShareGrants : Prop := ∃ s ∈ g.shares, s.Grants action resource

/-- Some grant denies explicitly. -/
def Denies : Prop :=
  g.PolicyCasts action resource context .deny ∨ g.PermissionCasts action resource .deny

end PreparedGrants

/-- The decision that the order of precedence prescribes. -/
inductive Settles : Decision → Prop
  | policyDeny {p : PreparedPolicy} {sid : Option String}
      (first : IsFirst (fun p => ∃ sid, p.Casts action resource context .deny sid) g.policies p)
      (casts : p.Casts action resource context .deny sid) :
      Settles (.deny (.explicitPolicyDeny p.id sid))
  | permissionDeny {p : PreparedPermission}
      (noPolicy : ¬ g.PolicyCasts action resource context .deny)
      (first : IsFirst (fun p => p.Casts action resource .deny) g.permissions p) :
      Settles (.deny (.resourcePermissionDeny p.row.id))
  | policyAllow {p : PreparedPolicy} {sid : Option String}
      (noDenial : ¬ g.Denies action resource context)
      (first : IsFirst (fun p => ∃ sid, p.Casts action resource context .allow sid) g.policies p)
      (casts : p.Casts action resource context .allow sid) :
      Settles (.allow (.policyAllow p.id sid))
  | permissionAllow {p : PreparedPermission}
      (noDenial : ¬ g.Denies action resource context)
      (noPolicy : ¬ g.PolicyCasts action resource context .allow)
      (first : IsFirst (fun p => p.Casts action resource .allow) g.permissions p) :
      Settles (.allow (.resourcePermissionAllow p.row.id))
  | shareAllow {s : ResourceShare}
      (noDenial : ¬ g.Denies action resource context)
      (noPolicy : ¬ g.PolicyCasts action resource context .allow)
      (noPermission : ¬ g.PermissionCasts action resource .allow)
      (first : IsFirst (fun s => s.Grants action resource) g.shares s) :
      Settles (.allow (.shareAllow s.id s.level))
  | defaultDeny
      (noDenial : ¬ g.Denies action resource context)
      (noPolicy : ¬ g.PolicyCasts action resource context .allow)
      (noPermission : ¬ g.PermissionCasts action resource .allow)
      (noShare : ¬ g.ShareGrants action resource) :
      Settles .defaultDeny

end

namespace PreparedGrants

variable {g : PreparedGrants} {action resource : String} {context : Context} {e : Effect}

/-! ### What the votes of the three sources say -/

theorem policyVote_iff :
    (∃ v ∈ g.policies.filterMap (PreparedPolicy.vote? action resource context), v.effect = e) ↔
      g.PolicyCasts action resource context e := by
  constructor
  · rintro ⟨v, hv, rfl⟩
    obtain ⟨p, hp, hpv⟩ := List.mem_filterMap.1 hv
    obtain ⟨sid, hcasts, -⟩ := PreparedPolicy.vote?_eq_some_iff.1 hpv
    exact ⟨p, hp, sid, hcasts⟩
  · rintro ⟨p, hp, sid, hcasts⟩
    have hv := PreparedPolicy.vote?_eq_some_iff (v := ⟨e, p.reason sid e⟩).2 ⟨sid, hcasts, rfl⟩
    exact ⟨_, List.mem_filterMap.2 ⟨p, hp, hv⟩, rfl⟩

theorem permissionVote_iff :
    (∃ v ∈ g.permissions.filterMap (PreparedPermission.vote? action resource), v.effect = e) ↔
      g.PermissionCasts action resource e := by
  constructor
  · rintro ⟨v, hv, rfl⟩
    obtain ⟨p, hp, hpv⟩ := List.mem_filterMap.1 hv
    exact ⟨p, hp, (PreparedPermission.vote?_eq_some_iff.1 hpv).1⟩
  · rintro ⟨p, hp, hcasts⟩
    have hv := PreparedPermission.vote?_eq_some_iff (v := ⟨e, p.reason⟩).2 ⟨hcasts, rfl⟩
    exact ⟨_, List.mem_filterMap.2 ⟨p, hp, hv⟩, rfl⟩

theorem shareVote_iff :
    (∃ v ∈ g.shares.filterMap (ResourceShare.vote? action resource), v.effect = e) ↔
      e = .allow ∧ g.ShareGrants action resource := by
  constructor
  · rintro ⟨v, hv, rfl⟩
    obtain ⟨s, hs, hsv⟩ := List.mem_filterMap.1 hv
    obtain ⟨hgrants, rfl⟩ := ResourceShare.vote?_eq_some_iff.1 hsv
    exact ⟨rfl, s, hs, hgrants⟩
  · rintro ⟨rfl, s, hs, hgrants⟩
    have hv := ResourceShare.vote?_eq_some_iff.2 ⟨hgrants, rfl⟩
    exact ⟨_, List.mem_filterMap.2 ⟨s, hs, hv⟩, rfl⟩

theorem vote_iff :
    (∃ v ∈ g.votes action resource context, v.effect = e) ↔
      g.PolicyCasts action resource context e ∨ g.PermissionCasts action resource e ∨
        (e = .allow ∧ g.ShareGrants action resource) := by
  simp only [votes, List.mem_append, or_and_right, exists_or, policyVote_iff, permissionVote_iff,
    shareVote_iff, or_assoc]

end PreparedGrants

namespace PreparedGrants

variable {g : PreparedGrants} {action resource : String} {context : Context} {e : Effect}

/-! ### The first votes -/

theorem firstPolicyVote {p : PreparedPolicy} {sid : Option String}
    (first : IsFirst (fun p => ∃ sid, p.Casts action resource context e sid) g.policies p)
    (casts : p.Casts action resource context e sid) :
    IsFirst (fun v => v.effect = e)
      (g.policies.filterMap (PreparedPolicy.vote? action resource context))
      ⟨e, p.reason sid e⟩ := by
  apply IsFirst.filterMap (PreparedPolicy.vote?_eq_some_iff.2 ⟨sid, casts, rfl⟩)
  refine first.congr fun q => ⟨?_, ?_⟩
  · rintro ⟨sid, hq⟩
    exact ⟨⟨e, q.reason sid e⟩, PreparedPolicy.vote?_eq_some_iff.2 ⟨sid, hq, rfl⟩, rfl⟩
  · rintro ⟨v, hv, rfl⟩
    obtain ⟨sid, hq, -⟩ := PreparedPolicy.vote?_eq_some_iff.1 hv
    exact ⟨sid, hq⟩

theorem firstPermissionVote {p : PreparedPermission}
    (first : IsFirst (fun p => p.Casts action resource e) g.permissions p) :
    IsFirst (fun v => v.effect = e)
      (g.permissions.filterMap (PreparedPermission.vote? action resource)) ⟨e, p.reason⟩ := by
  apply IsFirst.filterMap (PreparedPermission.vote?_eq_some_iff.2 ⟨first.holds, rfl⟩)
  refine first.congr fun q => ⟨fun hq => ?_, ?_⟩
  · exact ⟨⟨e, q.reason⟩, PreparedPermission.vote?_eq_some_iff.2 ⟨hq, rfl⟩, rfl⟩
  · rintro ⟨v, hv, rfl⟩
    exact (PreparedPermission.vote?_eq_some_iff.1 hv).1

theorem firstShareVote {s : ResourceShare}
    (first : IsFirst (fun s => s.Grants action resource) g.shares s) :
    IsFirst (fun v => v.effect = .allow)
      (g.shares.filterMap (ResourceShare.vote? action resource))
      ⟨.allow, .shareAllow s.id s.level⟩ := by
  apply IsFirst.filterMap (ResourceShare.vote?_eq_some_iff.2 ⟨first.holds, rfl⟩)
  refine first.congr fun t => ⟨fun ht => ?_, ?_⟩
  · exact ⟨_, ResourceShare.vote?_eq_some_iff.2 ⟨ht, rfl⟩, rfl⟩
  · rintro ⟨v, hv, -⟩
    exact (ResourceShare.vote?_eq_some_iff.1 hv).1

theorem noPolicyVote (h : ¬ g.PolicyCasts action resource context e) :
    ∀ v ∈ g.policies.filterMap (PreparedPolicy.vote? action resource context), v.effect ≠ e :=
  fun v hv he => h (policyVote_iff.1 ⟨v, hv, he⟩)

theorem noPermissionVote (h : ¬ g.PermissionCasts action resource e) :
    ∀ v ∈ g.permissions.filterMap (PreparedPermission.vote? action resource), v.effect ≠ e :=
  fun v hv he => h (permissionVote_iff.1 ⟨v, hv, he⟩)

theorem noDenyingVote (h : ¬ g.Denies action resource context) :
    ∀ v ∈ g.votes action resource context, v.effect ≠ .deny := by
  intro v hv he
  rcases vote_iff.1 ⟨v, hv, he⟩ with hp | hq | ⟨hallow, -⟩
  · exact h (.inl hp)
  · exact h (.inr hq)
  · cases hallow

end PreparedGrants

namespace Settles

open PreparedGrants

variable {g : PreparedGrants} {action resource : String} {context : Context} {d : Decision}

theorem decide_eq (h : Settles g action resource context d) :
    g.decide action resource context = d := by
  cases h with
  | policyDeny first casts =>
    exact Decision.tally_of_first_deny
      ((firstPolicyVote first casts).append_left.append_left)
  | @permissionDeny p noPolicy first =>
    obtain ⟨-, he, -⟩ := first.holds
    have hr : p.reason = .resourcePermissionDeny p.row.id := by
      simp only [PreparedPermission.reason, he]
    rw [← hr]
    exact Decision.tally_of_first_deny
      ((firstPermissionVote first).append_right (noPolicyVote noPolicy)).append_left
  | policyAllow noDenial first casts =>
    exact Decision.tally_of_first_allow (noDenyingVote noDenial)
      ((firstPolicyVote first casts).append_left.append_left)
  | @permissionAllow p noDenial noPolicy first =>
    obtain ⟨-, he, -⟩ := first.holds
    have hr : p.reason = .resourcePermissionAllow p.row.id := by
      simp only [PreparedPermission.reason, he]
    rw [← hr]
    exact Decision.tally_of_first_allow (noDenyingVote noDenial)
      ((firstPermissionVote first).append_right (noPolicyVote noPolicy)).append_left
  | shareAllow noDenial noPolicy noPermission first =>
    refine Decision.tally_of_first_allow (noDenyingVote noDenial)
      ((firstShareVote first).append_right fun v hv => ?_)
    rcases List.mem_append.1 hv with hv | hv
    · exact noPolicyVote noPolicy v hv
    · exact noPermissionVote noPermission v hv
  | defaultDeny noDenial noPolicy noPermission noShare =>
    refine Decision.tally_of_no_votes fun v hv => ⟨noDenyingVote noDenial v hv, fun he => ?_⟩
    rcases vote_iff.1 ⟨v, hv, he⟩ with hp | hq | ⟨-, hs⟩
    · exact noPolicy hp
    · exact noPermission hq
    · exact noShare hs

/-- The order of precedence prescribes a decision for all grants. -/
theorem total (g : PreparedGrants) (action resource : String) (context : Context) :
    ∃ d, Settles g action resource context d := by
  by_cases hpd : g.PolicyCasts action resource context .deny
  · obtain ⟨p, hp⟩ := IsFirst.exists_of_mem hpd
    obtain ⟨sid, hsid⟩ := hp.holds
    exact ⟨_, .policyDeny hp hsid⟩
  by_cases hqd : g.PermissionCasts action resource .deny
  · obtain ⟨q, hq⟩ := IsFirst.exists_of_mem hqd
    exact ⟨_, .permissionDeny hpd hq⟩
  have hd : ¬ g.Denies action resource context := fun h => h.elim hpd hqd
  by_cases hpa : g.PolicyCasts action resource context .allow
  · obtain ⟨p, hp⟩ := IsFirst.exists_of_mem hpa
    obtain ⟨sid, hsid⟩ := hp.holds
    exact ⟨_, .policyAllow hd hp hsid⟩
  by_cases hqa : g.PermissionCasts action resource .allow
  · obtain ⟨q, hq⟩ := IsFirst.exists_of_mem hqa
    exact ⟨_, .permissionAllow hd hpa hq⟩
  by_cases hs : g.ShareGrants action resource
  · obtain ⟨s, hs⟩ := IsFirst.exists_of_mem hs
    exact ⟨_, .shareAllow hd hpa hqa hs⟩
  · exact ⟨_, .defaultDeny hd hpa hqa hs⟩

end Settles

namespace PreparedGrants

variable (g : PreparedGrants) (action resource : String) (context : Context)

theorem settles_decide : Settles g action resource context (g.decide action resource context) := by
  obtain ⟨d, hd⟩ := Settles.total g action resource context
  rw [hd.decide_eq]
  exact hd

/-- A request is allowed exactly if no grant denies it explicitly and some grant allows it. -/
theorem decide_allow_iff :
    (g.decide action resource context).effect = .allow ↔
      ¬ g.Denies action resource context ∧
        (g.PolicyCasts action resource context .allow ∨ g.PermissionCasts action resource .allow ∨
          g.ShareGrants action resource) := by
  have h := g.settles_decide action resource context
  generalize g.decide action resource context = d at h
  cases h with
  | policyDeny first casts =>
    have hd : g.Denies action resource context := .inl ⟨_, first.mem, _, casts⟩
    simp [Decision.deny, hd]
  | permissionDeny _ first =>
    have hd : g.Denies action resource context := .inr ⟨_, first.mem, first.holds⟩
    simp [Decision.deny, hd]
  | policyAllow noDenial first casts =>
    have ha : g.PolicyCasts action resource context .allow := ⟨_, first.mem, _, casts⟩
    simp [Decision.allow, noDenial, ha]
  | permissionAllow noDenial _ first =>
    have ha : g.PermissionCasts action resource .allow := ⟨_, first.mem, first.holds⟩
    simp [Decision.allow, noDenial, ha]
  | shareAllow noDenial _ _ first =>
    have ha : g.ShareGrants action resource := ⟨_, first.mem, first.holds⟩
    simp [Decision.allow, noDenial, ha]
  | defaultDeny _ noPolicy noPermission noShare =>
    simp [Decision.defaultDeny, Decision.deny, noPolicy, noPermission, noShare]

/-! ## What has no influence -/

/-- The grants without the documents and patterns that did not compile. -/
def compiled : PreparedGrants :=
  { g with
    policies := g.policies.filter fun p => p.rules.isOk
    permissions := g.permissions.filter fun p => p.pattern.isOk }

theorem votes_compiled : g.compiled.votes action resource context =
    g.votes action resource context := by
  have hp : ∀ p : PreparedPolicy, p.rules.isOk = false →
      p.vote? action resource context = none := by
    intro p hp
    cases hr : p.rules with
    | error _ => simp [PreparedPolicy.vote?, hr]
    | ok _ => simp [hr, Except.isOk, Except.toBool] at hp
  have hq : ∀ p : PreparedPermission, p.pattern.isOk = false →
      p.vote? action resource = none := by
    intro p hp
    cases hr : p.pattern with
    | error _ => simp [PreparedPermission.vote?, PreparedPermission.applies, hr]
    | ok _ => simp [hr, Except.isOk, Except.toBool] at hp
  rw [votes, votes, compiled, filterMap_filter_of_none hp, filterMap_filter_of_none hq]

theorem decide_compiled : g.compiled.decide action resource context =
    g.decide action resource context := by
  rw [decide, decide, votes_compiled]

/-- Other shares leave an explicit denial as it is. -/
theorem decide_of_denies (shares : List ResourceShare) (h : g.Denies action resource context) :
    { g with shares }.decide action resource context = g.decide action resource context := by
  have hd := g.settles_decide action resource context
  generalize g.decide action resource context = d at hd
  apply Settles.decide_eq
  cases hd with
  | policyDeny first casts => exact .policyDeny first casts
  | permissionDeny noPolicy first => exact .permissionDeny noPolicy first
  | policyAllow noDenial => exact absurd h noDenial
  | permissionAllow noDenial => exact absurd h noDenial
  | shareAllow noDenial => exact absurd h noDenial
  | defaultDeny noDenial => exact absurd h noDenial

theorem denies_of_decide (hd : (g.decide action resource context).effect = .deny)
    (hr : (g.decide action resource context).reason ≠ .defaultDeny) :
    g.Denies action resource context := by
  have h := g.settles_decide action resource context
  generalize g.decide action resource context = d at h hd hr
  cases h with
  | policyDeny first casts => exact .inl ⟨_, first.mem, _, casts⟩
  | permissionDeny _ first => exact .inr ⟨_, first.mem, first.holds⟩
  | policyAllow => cases hd
  | permissionAllow => cases hd
  | shareAllow => cases hd
  | defaultDeny => exact absurd rfl hr

end PreparedGrants

/-- What a decision for that reason does. -/
def DecisionReason.effect : DecisionReason → Effect
  | .explicitPolicyDeny _ _ | .resourcePermissionDeny _ | .defaultDeny => .deny
  | .policyAllow _ _ | .resourcePermissionAllow _ | .shareAllow _ _ => .allow

theorem Settles.effect_eq {g : PreparedGrants} {action resource : String} {context : Context}
    {d : Decision} (h : Settles g action resource context d) : d.effect = d.reason.effect := by
  cases h <;> rfl

/-- The decision is the one that the order of precedence prescribes. So grants that did not compile
and, beside an explicit denial, shares have no influence, and effect and reason agree. -/
theorem PreparedGrants.decide_precedence (g : PreparedGrants) (action resource : String)
    (context : Context) :
    (∀ d, g.decide action resource context = d ↔ Settles g action resource context d) ∧
      g.compiled.decide action resource context = g.decide action resource context ∧
      (∀ shares, (g.decide action resource context).effect = .deny →
        (g.decide action resource context).reason ≠ .defaultDeny →
          { g with shares }.decide action resource context = g.decide action resource context) ∧
      (g.decide action resource context).effect =
        (g.decide action resource context).reason.effect := by
  have hd := g.settles_decide action resource context
  refine ⟨fun d => ⟨?_, Settles.decide_eq⟩, g.decide_compiled action resource context, ?_,
    hd.effect_eq⟩
  · rintro rfl
    exact hd
  · intro shares hdeny hreason
    exact g.decide_of_denies action resource context shares
      (g.denies_of_decide action resource context hdeny hreason)

/-- A permission that denies stands beside an owner's share. -/
def PreparedGrants.deniedOwner : PreparedGrants where
  permissions := [
    ResourcePermission.prepare ⟨"row", "acme", "ada", .user, "post-1", "blog:*", .deny⟩]
  shares := [⟨"share", "acme", "ada", .user, "post-1", .owner⟩]

theorem PreparedGrants.decide_deniedOwner :
    { deniedOwner with shares := [] }.decide "blog:delete" "post-1" {} =
      deniedOwner.decide "blog:delete" "post-1" {} := by
  have hreason : (deniedOwner.decide "blog:delete" "post-1" {}).reason =
      .resourcePermissionDeny "row" := rfl
  refine (decide_precedence deniedOwner "blog:delete" "post-1" {}).2.2.1 [] rfl fun h => ?_
  rw [hreason] at h
  cases h

end TenantAccess
