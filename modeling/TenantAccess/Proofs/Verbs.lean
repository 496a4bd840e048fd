import Mathlib.Data.List.TakeWhile
import TenantAccess.Proofs.Validation
import TenantAccess.Verdict

/-!
# The verb of an accepted action

An action is accepted if its first colon stands between two texts that are not blank, and a share
looks at the text after its last colon. With one colon both mean the same text. With several the
share looks at the end of what was accepted, and that end is blank if nothing but blanks follow the
last colon: then the action counts as one that changes the resource.
-/
namespace TenantAccess

open Text (isBlankChar isBlank)

namespace ActionClass

variable {action : String} {front tail : List Char}

theorem not_mem_of_blank (blank : tail.all isBlankChar = true) : ':' ∉ tail := by
  intro hcolon
  have hblank := List.all_eq_true.1 blank ':' hcolon
  revert hblank
  decide

theorem verb_of_no_colon (plain : ':' ∉ action.toList) : verb action = action := by
  have hall : ∀ c ∈ action.toList.reverse, (c != ':') = true := by
    intro c hc
    refine bne_iff_ne.2 fun hcolon => plain ?_
    rwa [← hcolon, ← List.mem_reverse]
  rw [verb, List.takeWhile_eq_self_iff.2 hall, List.reverse_reverse, String.ofList_toList]

theorem takeWhile_append_colon (cs rest : List Char) :
    (cs ++ ':' :: rest).takeWhile (· != ':') = cs.takeWhile (· != ':') := by
  induction cs with
  | nil => rfl
  | cons c cs ih => simp only [List.cons_append, List.takeWhile_cons, ih]

/-- Only what stands behind a colon counts. -/
theorem verb_of_colon (split : action.toList = front ++ ':' :: tail) :
    verb action = verb (String.ofList tail) := by
  have hreverse : action.toList.reverse = tail.reverse ++ ':' :: front.reverse := by
    rw [split, List.reverse_append, List.reverse_cons, List.append_assoc, List.singleton_append]
  rw [verb, verb, hreverse, takeWhile_append_colon, String.toList_ofList]

theorem verb_of_last_colon (split : action.toList = front ++ ':' :: tail) (last : ':' ∉ tail) :
    verb action = String.ofList tail := by
  rw [verb_of_colon split]
  exact verb_of_no_colon (by rwa [String.toList_ofList])

theorem exists_last_colon {cs : List Char} (colon : ':' ∈ cs) :
    ∃ front tail, cs = front ++ ':' :: tail ∧ ':' ∉ tail := by
  obtain ⟨after, before, hreverse, hafter⟩ :=
    List.eq_append_cons_of_mem (List.mem_reverse.2 colon)
  refine ⟨before.reverse, after.reverse, ?_, fun h => hafter (List.mem_reverse.1 h)⟩
  rw [← List.reverse_reverse cs, hreverse]
  simp

/-- Of a text with a colon the verb is blank exactly if nothing but blanks follow some colon. -/
theorem isBlank_verb_iff (colon : ':' ∈ action.toList) :
    isBlank (verb action) = true ↔
      ∃ front tail, action.toList = front ++ ':' :: tail ∧ tail.all isBlankChar = true := by
  constructor
  · intro hblank
    obtain ⟨front, tail, hsplit, hlast⟩ := exists_last_colon colon
    rw [verb_of_last_colon hsplit hlast, isBlank, String.toList_ofList] at hblank
    exact ⟨front, tail, hsplit, hblank⟩
  · rintro ⟨front, tail, hsplit, hblank⟩
    rw [verb_of_last_colon hsplit (not_mem_of_blank hblank), isBlank, String.toList_ofList]
    exact hblank

/-- No verb that is listed is blank. -/
theorem classify_of_isBlank (blank : isBlank (verb action) = true) : classify action = .write := by
  have hne (listed : String) (filled : isBlank listed = false) : verb action ≠ listed := by
    intro heq
    rw [heq, filled] at blank
    cases blank
  rw [classify, if_neg, if_neg (hne "delete" rfl), if_neg (hne "share" rfl)]
  rintro (hread | hlist | hview)
  · exact hne "read" rfl hread
  · exact hne "list" rfl hlist
  · exact hne "view" rfl hview

end ActionClass

namespace AccessLevel

/-- Whatever changes the resource is permitted to editors and owners. -/
theorem permits_write_iff {action : String} (write : ActionClass.classify action = .write)
    (level : AccessLevel) : level.permits action = true ↔ level ≠ .viewer := by
  rw [permits, write]
  cases level <;> decide

end AccessLevel

namespace ResourceAction

open ActionClass (verb classify)

variable {r : ResourceAction}

/-- A second colon with nothing but blanks behind it. -/
def TrailsOff (action : String) : Prop :=
  ∃ front tail, action.toList = front ++ ':' :: tail ∧ ':' ∈ front ∧ tail.all isBlankChar = true

theorem namesVerb_of_validate (accepted : r.validate = .ok ()) : NamesVerb r.action := by
  refine Decidable.byContradiction fun hmalformed => ?_
  have hrefused := validate_eq_ok_iff.1 accepted
  by_cases hstarred : '*' ∈ r.action.toList ∨ '*' ∈ r.resource.toList
  · exact hrefused _ (.wildcard hstarred)
  · exact hrefused _ (.malformed (not_or.1 hstarred) hmalformed)

/-- What was accepted as a verb is not blank as a whole, so a blank end has a colon of its own. -/
theorem isBlank_verb_iff_trailsOff (named : NamesVerb r.action) :
    isBlank (verb r.action) = true ↔ TrailsOff r.action := by
  obtain ⟨service, rest, hsplit, hfirst, -, hrest⟩ := named
  have hcolon : ':' ∈ r.action.toList := by
    rw [hsplit]
    exact List.mem_append_right service (.head rest)
  rw [ActionClass.isBlank_verb_iff hcolon]
  constructor
  · rintro ⟨front, tail, hlast, hblank⟩
    refine ⟨front, tail, hlast, ?_, hblank⟩
    refine Decidable.byContradiction fun hfront => ?_
    -- a colon with none in front of it is the first one, and what follows that is not blank
    have hsame := (splitColon_eq_some_iff.2 ⟨hlast, hfront⟩).symm.trans
      (splitColon_eq_some_iff.2 ⟨hsplit, hfirst⟩)
    cases hsame
    rw [hblank] at hrest
    cases hrest
  · rintro ⟨front, tail, hlast, -, hblank⟩
    exact ⟨front, tail, hlast, hblank⟩

/-- In an accepted action the first colon is followed by a text that is not blank, and shares look at
what follows the last colon of that text, or at all of it if it has none. So the verb they look at is
blank exactly if the action trails off in a second colon. Such an action changes the resource: it is
permitted to editors and owners. -/
theorem verb_of_accepted (accepted : r.validate = .ok ()) :
    (∃ service rest, splitColon r.action.toList = some (service, rest) ∧
      rest.all isBlankChar = false ∧ verb r.action = verb (String.ofList rest) ∧
        (':' ∉ rest → verb r.action = String.ofList rest)) ∧
      (isBlank (verb r.action) = true ↔ TrailsOff r.action) ∧
      (TrailsOff r.action → classify r.action = .write ∧
        ∀ level : AccessLevel, level.permits r.action = true ↔ level ≠ .viewer) := by
  have hnamed := namesVerb_of_validate accepted
  refine ⟨?_, isBlank_verb_iff_trailsOff hnamed, fun htrails => ?_⟩
  · obtain ⟨service, rest, hsplit, hfirst, -, hrest⟩ := hnamed
    exact ⟨service, rest, splitColon_eq_some_iff.2 ⟨hsplit, hfirst⟩, hrest,
      ActionClass.verb_of_colon hsplit, ActionClass.verb_of_last_colon hsplit⟩
  · have hwrite := ActionClass.classify_of_isBlank ((isBlank_verb_iff_trailsOff hnamed).2 htrails)
    exact ⟨hwrite, AccessLevel.permits_write_iff hwrite⟩

end ResourceAction

/-! ## An editor and a colon too many -/

namespace Editing

def editor : Principal := ⟨"acme", .user, "ada"⟩

def grants : PreparedGrants where
  shares := [.ofPrincipal "share-1" editor "blog/1" .editor]

def request : AccessRequest where
  principal := editor
  action := "blog:read:"
  resource := "blog/1"

end Editing

/-- Behind several colons the verb is the end of what was accepted. -/
theorem ResourceAction.verb_of_accepted_read :
    (⟨"blog:post:read", "blog/1"⟩ : ResourceAction).validate = .ok () ∧
      ActionClass.verb "blog:post:read" = "read" ∧ ¬ TrailsOff "blog:post:read" := by
  have haccepted : (⟨"blog:post:read", "blog/1"⟩ : ResourceAction).validate = .ok () := rfl
  obtain ⟨⟨service, rest, hsplit, -, hend, -⟩, hblank, -⟩ := verb_of_accepted haccepted
  have hpost : splitColon "blog:post:read".toList = some ("blog".toList, "post:read".toList) := rfl
  rw [hpost] at hsplit
  cases hsplit
  have hverb : ActionClass.verb "blog:post:read" = "read" := hend.trans rfl
  refine ⟨haccepted, hverb, fun htrails => ?_⟩
  have hfilled := hblank.2 htrails
  rw [hverb] at hfilled
  cases hfilled

/-- An accepted action may have an empty verb, and then an editor's share allows it. -/
theorem AccessRequest.accepted_without_verb :
    Editing.request.validate = .ok () ∧
      ActionClass.verb Editing.request.action = "" ∧
      ActionClass.classify Editing.request.action = .write ∧
      AccessLevel.editor.permits Editing.request.action = true ∧
      AccessLevel.owner.permits Editing.request.action = true ∧
      Editing.grants.decide Editing.request.action Editing.request.resource {} =
        .allow (.shareAllow "share-1" .editor) :=
  ⟨rfl, rfl, rfl, rfl, rfl, rfl⟩

end TenantAccess
