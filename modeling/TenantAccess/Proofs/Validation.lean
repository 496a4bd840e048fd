import TenantAccess.Request

/-!
# Which requests are refused

A request is refused for the first thing that is wrong with it: the organization and the id of its
principal count before action and resource, and those before the owner of the resource. The
relations say what is wrong without saying how it is looked for.
-/
namespace TenantAccess

namespace Principal

variable {p : Principal} {f : RequestFault}

inductive Refused (p : Principal) : RequestFault → Prop
  | organization (blank : Text.isBlank p.organization = true) : Refused p .blankOrganization
  | id (placed : Text.isBlank p.organization = false) (blank : Text.isBlank p.id = true) :
      Refused p .blankPrincipal

theorem fault?_eq_some_iff : p.fault? = some f ↔ p.Refused f := by
  constructor
  · intro h
    simp only [fault?] at h
    split at h
    · rename_i horganization
      cases h
      exact .organization horganization
    · rename_i horganization
      have hplaced : Text.isBlank p.organization = false := Bool.eq_false_iff.2 horganization
      split at h
      · rename_i hid
        cases h
        exact .id hplaced hid
      · cases h
  · intro h
    cases h with
    | organization blank => simp [fault?, blank]
    | id placed blank => simp [fault?, placed, blank]

theorem validate_eq_error_iff {e : AccessError} :
    p.validate = .error e ↔ ∃ f, p.Refused f ∧ e = .invalidRequest f := by
  simp only [validate, ← fault?_eq_some_iff]
  cases p.fault? <;> simp [eq_comm]

theorem validate_eq_ok_iff : p.validate = .ok () ↔ ∀ f, ¬ p.Refused f := by
  simp only [validate, ← fault?_eq_some_iff]
  cases p.fault? <;> simp

end Principal

namespace ResourceAction

variable {r : ResourceAction} {f : RequestFault} {cs service verb : List Char} {action : String}

/-- The first colon of the action stands between two texts that are not blank. -/
def NamesVerb (action : String) : Prop :=
  ∃ service verb, action.toList = service ++ ':' :: verb ∧ ':' ∉ service ∧
    service.all Text.isBlankChar = false ∧ verb.all Text.isBlankChar = false

inductive Refused (r : ResourceAction) : RequestFault → Prop
  | wildcard (starred : '*' ∈ r.action.toList ∨ '*' ∈ r.resource.toList) : Refused r .wildcard
  | malformed (plain : '*' ∉ r.action.toList ∧ '*' ∉ r.resource.toList)
      (malformed : ¬ NamesVerb r.action) : Refused r (.malformedAction r.action)
  | resource (plain : '*' ∉ r.action.toList ∧ '*' ∉ r.resource.toList)
      (wellFormed : NamesVerb r.action) (blank : Text.isBlank r.resource = true) :
      Refused r .blankResource

theorem splitColon_eq_some_iff :
    splitColon cs = some (service, verb) ↔ cs = service ++ ':' :: verb ∧ ':' ∉ service := by
  induction cs generalizing service with
  | nil => simp [splitColon]
  | cons c cs ih =>
    by_cases hc : c = ':'
    · subst hc
      cases service with
      | nil => simp [splitColon, eq_comm]
      | cons d service =>
        simp only [splitColon, if_pos, Option.some.injEq, Prod.mk.injEq, List.cons_append,
          List.cons.injEq, List.mem_cons, not_or]
        constructor
        · rintro ⟨h, -⟩
          cases h
        · rintro ⟨⟨h, -⟩, hne, -⟩
          exact absurd h hne
    · cases service with
      | nil => simp [splitColon, hc]
      | cons d service =>
        have hsplit : splitColon (c :: cs) = some (d :: service, verb) ↔
            c = d ∧ splitColon cs = some (service, verb) := by
          cases h : splitColon cs <;> simp [splitColon, hc, h, Prod.ext_iff, and_assoc]
        rw [hsplit, ih]
        simp only [List.cons_append, List.cons.injEq, List.mem_cons, not_or]
        constructor
        · rintro ⟨rfl, heq, hmem⟩
          exact ⟨⟨rfl, heq⟩, Ne.symm hc, hmem⟩
        · rintro ⟨⟨rfl, heq⟩, -, hmem⟩
          exact ⟨rfl, heq, hmem⟩

theorem isWellFormed_iff : isWellFormed action = true ↔ NamesVerb action := by
  have hsplit (service verb : List Char) : splitColon action.toList = some (service, verb) ↔
      action.toList = service ++ ':' :: verb ∧ ':' ∉ service := splitColon_eq_some_iff
  cases h : splitColon action.toList with
  | none =>
    simp only [h, reduceCtorEq, false_iff] at hsplit
    simp only [isWellFormed, h, Bool.false_eq_true, false_iff]
    rintro ⟨service, verb, heq, hfirst, -⟩
    exact hsplit service verb ⟨heq, hfirst⟩
  | some sides =>
    obtain ⟨service, verb⟩ := sides
    obtain ⟨heq, hfirst⟩ := (hsplit service verb).1 h
    simp only [isWellFormed, h, Bool.and_eq_true, Bool.not_eq_true']
    constructor
    · intro hfilled
      exact ⟨service, verb, heq, hfirst, hfilled⟩
    · rintro ⟨service', verb', heq', hfirst', hfilled⟩
      have hsame := h.symm.trans ((hsplit service' verb').2 ⟨heq', hfirst'⟩)
      cases hsame
      exact hfilled

instance : Decidable (NamesVerb action) := decidable_of_iff _ isWellFormed_iff

theorem fault?_eq_some_iff : r.fault? = some f ↔ r.Refused f := by
  have hplain : (r.action.toList.contains '*' || r.resource.toList.contains '*') = true ↔
      '*' ∈ r.action.toList ∨ '*' ∈ r.resource.toList := by simp
  have hwell : isWellFormed r.action = false ↔ ¬ NamesVerb r.action := by
    rw [← isWellFormed_iff, Bool.not_eq_true]
  simp only [fault?, hplain, hwell]
  constructor
  · intro h
    split at h
    · rename_i hstarred
      cases h
      exact .wildcard hstarred
    · rename_i hstarred
      split at h
      · rename_i hmalformed
        cases h
        exact .malformed (not_or.1 hstarred) hmalformed
      · rename_i hmalformed
        split at h
        · rename_i hblank
          cases h
          exact .resource (not_or.1 hstarred) (Decidable.not_not.1 hmalformed) hblank
        · cases h
  · intro h
    cases h with
    | wildcard starred => rw [if_pos starred]
    | malformed plain malformed => rw [if_neg (not_or.2 plain), if_pos malformed]
    | resource plain wellFormed blank =>
      rw [if_neg (not_or.2 plain), if_neg (fun hnot => hnot wellFormed), if_pos blank]

theorem validate_eq_error_iff {e : AccessError} :
    r.validate = .error e ↔ ∃ f, r.Refused f ∧ e = .invalidRequest f := by
  simp only [validate, ← fault?_eq_some_iff]
  cases r.fault? <;> simp [eq_comm]

theorem validate_eq_ok_iff : r.validate = .ok () ↔ ∀ f, ¬ r.Refused f := by
  simp only [validate, ← fault?_eq_some_iff]
  cases r.fault? <;> simp

end ResourceAction

namespace AccessRequest

variable {r : AccessRequest} {e : AccessError}

inductive Refused (r : AccessRequest) : AccessError → Prop
  | principal {f : RequestFault} (refused : r.principal.Refused f) : Refused r (.invalidRequest f)
  | target {f : RequestFault} (principal : ∀ f, ¬ r.principal.Refused f)
      (refused : r.target.Refused f) : Refused r (.invalidRequest f)
  | owner {owner : OrganizationId} (principal : ∀ f, ¬ r.principal.Refused f)
      (target : ∀ f, ¬ r.target.Refused f) (owned : r.resourceOrganization = some owner)
      (foreign : owner ≠ r.principal.organization) :
      Refused r (.organizationMismatch r.principal.organization owner)

theorem checkOwner_eq_error_iff :
    r.checkOwner = .error e ↔ ∃ owner, r.resourceOrganization = some owner ∧
      owner ≠ r.principal.organization ∧
        e = .organizationMismatch r.principal.organization owner := by
  cases h : r.resourceOrganization with
  | none => simp [checkOwner, h]
  | some owner =>
    by_cases howner : owner = r.principal.organization
    · simp [checkOwner, h, howner]
    · simp [checkOwner, h, howner, eq_comm]

theorem validate_eq_error_iff : r.validate = .error e ↔ r.Refused e := by
  have hp := Principal.validate_eq_ok_iff (p := r.principal)
  have ht := ResourceAction.validate_eq_ok_iff (r := r.target)
  constructor
  · intro h
    cases hprincipal : r.principal.validate with
    | error e' =>
      obtain ⟨f, hf, rfl⟩ := Principal.validate_eq_error_iff.1 hprincipal
      rw [validate, hprincipal] at h
      cases h
      exact .principal hf
    | ok =>
      cases htarget : r.target.validate with
      | error e' =>
        obtain ⟨f, hf, rfl⟩ := ResourceAction.validate_eq_error_iff.1 htarget
        rw [validate, hprincipal, htarget] at h
        cases h
        exact .target (hp.1 hprincipal) hf
      | ok =>
        rw [validate, hprincipal, htarget] at h
        obtain ⟨owner, howned, hforeign, rfl⟩ := checkOwner_eq_error_iff.1 h
        exact .owner (hp.1 hprincipal) (ht.1 htarget) howned hforeign
  · intro h
    cases h with
    | principal refused =>
      rw [validate, Principal.validate_eq_error_iff.2 ⟨_, refused, rfl⟩]
      rfl
    | target principal refused =>
      rw [validate, hp.2 principal, ResourceAction.validate_eq_error_iff.2 ⟨_, refused, rfl⟩]
      rfl
    | owner principal target owned foreign =>
      rw [validate, hp.2 principal, ht.2 target]
      exact checkOwner_eq_error_iff.2 ⟨_, owned, foreign, rfl⟩

theorem Refused.isInvalidRequest (h : r.Refused e) : e.isInvalidRequest = true := by
  cases h <;> rfl

/-- A request is accepted if there is nothing to refuse it for. -/
theorem validate_eq_ok_iff : r.validate = .ok () ↔ ∀ e, ¬ r.Refused e := by
  simp only [← validate_eq_error_iff]
  cases r.validate <;> simp

end AccessRequest

end TenantAccess
