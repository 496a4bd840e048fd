import Mathlib.Data.List.Permutation
import TenantAccess.Proofs.Compilation
import TenantAccess.Proofs.Entitlement
import TenantAccess.Proofs.FirstOccurrences
import TenantAccess.Proofs.ReadingBack

/-!
# Conditions as the text has them

A condition is written as an object of objects, and in each of them a name may be repeated. Of the
members of one name only the last is kept. Every member that is kept restricts its statement; one
that a later member of the same name replaces has no effect at all, and nothing is reported.
-/
namespace TenantAccess

open Json (Outline Reader FieldRead Slot)

/-! ## Of several entries the last -/

/-- The last element with a property. -/
def IsLast {α : Type} (has : α → Prop) (as : List α) (a : α) : Prop := IsFirst has as.reverse a

section First

variable {α β : Type} {has : α → Prop} {has' : β → Prop} {as : List α} {bs : List β} {a b : α}

theorem isFirst_cons_iff :
    IsFirst has (b :: as) a ↔ (has b ∧ a = b) ∨ (¬ has b ∧ IsFirst has as a) := by
  constructor
  · intro h
    rcases (IsFirst.cons_iff has h.holds).1 h with rfl | hrest
    · exact .inl ⟨h.holds, rfl⟩
    · exact .inr hrest
  · rintro (⟨hb, rfl⟩ | ⟨hb, h⟩)
    · exact ⟨[], as, rfl, hb, fun _ h => nomatch h⟩
    · exact h.cons_of_not hb

/-- In lists whose elements correspond, the first elements with a property do. -/
theorem isFirst_iff_of_forall₂ {related : α → β → Prop} (h : List.Forall₂ related as bs)
    (same : ∀ a b, related a b → (has a ↔ has' b))
    (functional : ∀ a b b', related a b → related a b' → b = b') {b : β} :
    IsFirst has' bs b ↔ ∃ a, IsFirst has as a ∧ related a b := by
  induction h with
  | nil => simp [not_isFirst_nil]
  | @cons a₀ b₀ as bs hab _ ih =>
    simp only [isFirst_cons_iff, ← same a₀ b₀ hab, ih]
    constructor
    · rintro (⟨ha, rfl⟩ | ⟨ha, a, hfirst, hrelated⟩)
      · exact ⟨a₀, .inl ⟨ha, rfl⟩, hab⟩
      · exact ⟨a, .inr ⟨ha, hfirst⟩, hrelated⟩
    · rintro ⟨a, ⟨ha, rfl⟩ | ⟨ha, hfirst⟩, hrelated⟩
      · exact .inl ⟨ha, functional a b b₀ hrelated hab⟩
      · exact .inr ⟨ha, a, hfirst, hrelated⟩

end First

namespace Keyed

variable {α : Type} {k k' : String} {v v' : α}

theorem mem_insertEntry_iff {es : List (String × α)} (ascending : es.Pairwise keyBefore) :
    (k', v') ∈ insertEntry k v es ↔
      (k = k' ∧ v' = v) ∨ (¬ k = k' ∧ (k', v') ∈ es) := by
  induction es with
  | nil => simp [insertEntry, eq_comm]
  | cons e es ih =>
    obtain ⟨he, hes⟩ := List.pairwise_cons.1 ascending
    simp only [insertEntry]
    split
    · rename_i hlt
      -- what stands after the new entry has a greater key
      have hgreater : ∀ w, (k, w) ∉ e :: es := by
        intro w hw
        rcases List.mem_cons.1 hw with rfl | hw
        · exact String.lt_irrefl k hlt
        · exact String.lt_irrefl k (String.lt_trans hlt (he (k, w) hw))
      rw [List.mem_cons, Prod.mk.injEq]
      by_cases hk : k = k'
      · subst hk
        simp [hgreater]
      · simp [hk, Ne.symm hk]
    · split
      · rename_i heq
        subst heq
        have hlater : ∀ w, (e.1, w) ∉ es := fun w hw => String.lt_irrefl e.1 (he (e.1, w) hw)
        rw [List.mem_cons, Prod.mk.injEq, List.mem_cons]
        by_cases hk : e.1 = k'
        · subst hk
          simp [hlater]
        · have hne : ¬ (k', v') = e := fun h => hk (by rw [← h])
          simp [hk, Ne.symm hk, hne]
      · rename_i hne
        rw [List.mem_cons, ih hes, List.mem_cons]
        by_cases hk : k = k'
        · subst hk
          have hother : ¬ (k, v') = e := fun h => hne (by rw [← h])
          simp [hother]
        · simp [hk]

/-- An entry is in the map exactly if it is the last one of its key. -/
theorem mem_ofList_iff {es : List (String × α)} :
    (k, v) ∈ (ofList es).entries ↔ IsLast (fun e => e.1 = k) es (k, v) := by
  induction es using List.reverseRecOn with
  | nil => simp [ofList, empty, IsLast, not_isFirst_nil]
  | append_singleton es e ih =>
    obtain ⟨k₀, v₀⟩ := e
    rw [IsLast, List.reverse_concat, isFirst_cons_iff, ← IsLast, ← ih, ofList,
      List.foldl_append, ← ofList]
    simp only [List.foldl_cons, List.foldl_nil, insert]
    rw [mem_insertEntry_iff (ofList es).ascending, Prod.mk.injEq]
    refine or_congr_left (and_congr_right fun hk => ?_)
    simp [hk]

end Keyed

/-! ## Members of objects -/

namespace Json

variable {α : Type} {read : Reader α} {o v : Outline} {es : List (String × α)} {name : String}

/-- The object's last member of that name. -/
inductive Outline.LastMember (name : String) : Outline → Outline → Prop
  | mk {members : List (Outline × Outline)} {stop : Option Fault} {k v : Outline}
      (last : IsLast (fun m => readKey m.1 = .ok name) members (k, v)) :
      LastMember name (.object members stop) v

/-- The map that was read has the last member of every name. -/
theorem mem_ofList_readMap (h : readMap read o = .ok es) {a : α} :
    (name, a) ∈ (Keyed.ofList es).entries ↔ ∃ v, o.LastMember name v ∧ read v = .ok a := by
  obtain ⟨ms, stop, rfl, hread⟩ := forall₂_readMap h
  have hreverse := List.forall₂_reverse_iff.2 hread
  have hsame : ∀ (m : Outline × Outline) (e : String × α), ReadAs read m e →
      (readKey m.1 = .ok name ↔ e.1 = name) := by
    intro m e hme
    rw [hme.1, Except.ok.injEq]
  rw [Keyed.mem_ofList_iff, IsLast,
    isFirst_iff_of_forall₂ hreverse hsame fun _ _ _ => ReadAs.functional]
  constructor
  · rintro ⟨m, hlast, -, hvalue⟩
    exact ⟨m.2, .mk hlast, hvalue⟩
  · rintro ⟨v, ⟨hlast⟩, hvalue⟩
    exact ⟨_, hlast, hlast.holds, hvalue⟩

theorem Outline.LastMember.hasMember (h : o.LastMember name v) : o.HasMember name v := by
  obtain ⟨hlast⟩ := h
  exact .mem (List.mem_reverse.1 hlast.mem) hlast.holds

end Json

/-! ## Conditions -/

namespace ConditionBlock

variable {registry : Registry} {context : Context} {o : Outline} {block : ConditionBlock}

/-- What a member of a condition asks for: an operator of that name is registered, and the context
has the key with a value that passes the operator for one of the listed values. -/
def Passes (registry : Registry) (context : Context) (operator key : String) (values : Outline) :
    Prop :=
  ∃ op listed, registry.find? operator = some op ∧
    Listing.read ConditionValue.ofJson? values = .ok listed ∧ op.Accepts context key listed.toList

theorem not_passes_of_missing {operator key : String} {values : Outline}
    (missing : context.get? key = none) : ¬ Passes registry context operator key values := by
  rintro ⟨_, _, -, -, actual, hactual, -⟩
  rw [missing] at hactual
  cases hactual

/-- The condition lists these values for a key under an operator. -/
def Writes (o : Outline) (operator key : String) (values : Outline) : Prop :=
  ∃ keys, o.HasMember operator keys ∧ keys.HasMember key values

/-- It does, and no later member of the condition or of the operator has the same name. -/
def Keeps (o : Outline) (operator key : String) (values : Outline) : Prop :=
  ∃ keys, o.LastMember operator keys ∧ keys.LastMember key values

/-- The keys of one operator. -/
def readKeys : Reader (Keyed (Listing ConditionValue)) := fun o =>
  (Json.readMap (Listing.read ConditionValue.ofJson?) o).map Keyed.ofList

theorem mem_readKeys {keys : Keyed (Listing ConditionValue)} (h : readKeys o = .ok keys)
    {key : String} {listed : Listing ConditionValue} : (key, listed) ∈ keys.entries ↔
      ∃ v, o.LastMember key v ∧ Listing.read ConditionValue.ofJson? v = .ok listed := by
  obtain ⟨es, hes, rfl⟩ := map_eq_ok_iff.1 h
  exact Json.mem_ofList_readMap hes

theorem exists_listed {keys : Keyed (Listing ConditionValue)} (h : readKeys o = .ok keys)
    {key : String} {v : Outline} (last : o.LastMember key v) :
    ∃ listed, Listing.read ConditionValue.ofJson? v = .ok listed := by
  obtain ⟨es, hes, -⟩ := map_eq_ok_iff.1 h
  exact Json.exists_read_of_hasMember hes last.hasMember

theorem read_eq_ok_iff :
    read o = .ok block ↔ ∃ es, Json.readMap readKeys o = .ok es ∧ Keyed.ofList es = block := by
  constructor
  · intro h
    obtain ⟨es, hes, h⟩ := bind_eq_ok_iff.1 h
    cases h
    exact ⟨es, hes, rfl⟩
  · rintro ⟨es, hes, rfl⟩
    exact bind_eq_ok_iff.2 ⟨es, hes, rfl⟩

/-- The block that was read is satisfied exactly where every member that was kept is passed. -/
theorem satisfied_iff_passes (h : read o = .ok block) (well : block.WellFormed registry) :
    block.Satisfied registry context ↔ ∀ operator key values, Keeps o operator key values →
      Passes registry context operator key values := by
  obtain ⟨es, hes, rfl⟩ := read_eq_ok_iff.1 h
  constructor
  · rintro hsatisfied operator key values ⟨v, hoperator, hkey⟩
    obtain ⟨keys, hkeys⟩ := Json.exists_read_of_hasMember hes hoperator.hasMember
    obtain ⟨listed, hlisted⟩ := exists_listed hkeys hkey
    obtain ⟨op, hop, hall⟩ := hsatisfied (operator, keys)
      ((Json.mem_ofList_readMap hes).2 ⟨v, hoperator, hkeys⟩)
    have haccepts : op.Accepts context key listed.toList :=
      hall (key, listed) ((mem_readKeys hkeys).2 ⟨values, hkey, hlisted⟩)
    exact ⟨op, listed, hop, hlisted, haccepts⟩
  · rintro hpasses ⟨operator, keys⟩ hentry
    obtain ⟨v, hoperator, hkeys⟩ := (Json.mem_ofList_readMap hes).1 hentry
    obtain ⟨op, hop⟩ := (well (operator, keys) hentry).registered
    refine ⟨op, hop, fun ⟨key, listed⟩ hlisted => ?_⟩
    obtain ⟨values, hkey, hread⟩ := (mem_readKeys hkeys).1 hlisted
    obtain ⟨op', listed', hop', hread', haccepts⟩ :=
      hpasses operator key values ⟨v, hoperator, hkey⟩
    rw [hop, Option.some.injEq] at hop'
    rw [hread, Except.ok.injEq] at hread'
    rwa [hop', hread']

end ConditionBlock

/-! ## Statements -/

namespace Statement

open ConditionBlock (Passes Keeps)

variable {registry : Registry} {s : Statement} {index : Nat} {rule : Rule} {item : Outline}

theorem conditionSlot :
    Slot record "Condition" 4 (Json.readOptional ConditionBlock.read) Draft.condition where
  placed := ⟨_, rfl, rfl⟩
  distinct := by decide
  present := by simp [record, Wire.Field.optional, Wire.Field.needed]
  fills := by simp [record, Wire.Field.optional, Wire.Field.needed, map_eq_ok_iff]
  others := by
    simp only [record, List.forall_mem_cons, Wire.Field.optional, Wire.Field.needed, map_eq_ok_iff]
    simp

/-- The text has a condition that lists these values for a key under an operator. -/
def Writes (item : Outline) (operator key : String) (values : Outline) : Prop :=
  ∃ c, item.HasField "Condition" 4 c ∧ ConditionBlock.Writes c operator key values

/-- It does, and no later member has the same name. -/
def Keeps (item : Outline) (operator key : String) (values : Outline) : Prop :=
  ∃ c, item.HasField "Condition" 4 c ∧ ConditionBlock.Keeps c operator key values

theorem keeps_iff_of_only {c : Outline} (only : ∀ v, item.HasField "Condition" 4 v ↔ v = c)
    (operator key : String) (values : Outline) :
    Keeps item operator key values ↔ ConditionBlock.Keeps c operator key values := by
  constructor
  · rintro ⟨v, hv, hkept⟩
    rwa [← (only v).1 hv]
  · intro hkept
    exact ⟨c, (only c).2 rfl, hkept⟩

/-- A statement without a condition keeps nothing; one with a condition keeps what the text of the
condition keeps. -/
theorem condition_cases (h : read item = .ok s) :
    (s.condition = none ∧ ∀ operator key values, ¬ Keeps item operator key values) ∨
      ∃ c block, s.condition = some block ∧ ConditionBlock.read c = .ok block ∧
        ∀ operator key values,
          Keeps item operator key values ↔ ConditionBlock.Keeps c operator key values := by
  obtain ⟨d, hd, h⟩ := bind_eq_ok_iff.1 h
  obtain ⟨effect, -, h⟩ := bind_eq_ok_iff.1 h
  obtain ⟨action, -, h⟩ := bind_eq_ok_iff.1 h
  obtain ⟨resource, -, h⟩ := bind_eq_ok_iff.1 h
  cases h
  have hfield := conditionSlot.readRecord_field hd rfl
  dsimp only
  generalize d.condition = x at hfield
  cases hfield with
  | absent unwritten => exact .inl ⟨rfl, fun _ _ _ ⟨c, hc, _⟩ => unwritten c hc⟩
  | once only reads =>
    have hkeeps := keeps_iff_of_only only
    rcases Json.readOptional_cases reads with ⟨rfl, rfl⟩ | ⟨block, hblock, rfl⟩
    · -- null has no members
      refine .inl ⟨rfl, fun operator key values hkept => ?_⟩
      obtain ⟨_, hnull, -⟩ := (hkeeps operator key values).1 hkept
      cases hnull
    · exact .inr ⟨_, block, rfl, hblock, hkeeps⟩

/-- The condition of a statement that compiled holds exactly where each member that was kept is
passed. -/
theorem conditionHolds_iff_passes [Pattern.Engine] (h : read item = .ok s)
    (compiled : s.compile index registry = .ok rule) (context : Context) :
    rule.conditionHolds context = true ↔ ∀ operator key values,
      Keeps item operator key values → Passes registry context operator key values := by
  obtain ⟨_, _, condition, -, -, hcondition, rfl⟩ := compile_eq_ok_iff.1 compiled
  have hwell := exists_compileCondition_iff.1 ⟨condition, hcondition⟩
  rw [conditionHolds_compileCondition hcondition rfl]
  rcases condition_cases h with ⟨hnone, hkeeps⟩ | ⟨c, block, hblock, hread, hkeeps⟩
  · simp [hnone, hkeeps]
  · simp only [hblock, Option.some.injEq, forall_eq', hkeeps]
    exact ConditionBlock.satisfied_iff_passes hread (hwell block hblock)

end Statement

/-! ## Documents -/

namespace Policy

theorem statementSlot :
    Slot record "Statement" 1 (Json.readList Statement.read) Draft.statements where
  placed := ⟨_, rfl, rfl⟩
  distinct := by decide
  present := by simp [record, Wire.Field.needed]
  fills := by
    simp only [record, List.forall_mem_cons, Wire.Field.needed, map_eq_ok_iff]
    simp
  others := by simp [record, Wire.Field.needed, map_eq_ok_iff]

/-- The statements of a policy are those that its text lists. -/
theorem forall₂_statements {o : Outline} {p : Policy} (h : read o = .ok p) :
    ∃ items, (∀ v, o.HasField "Statement" 1 v ↔ v = .array items none) ∧
      List.Forall₂ (fun item s => Statement.read item = .ok s) items p.statements := by
  obtain ⟨d, hd, h⟩ := bind_eq_ok_iff.1 h
  obtain ⟨version, -, h⟩ := bind_eq_ok_iff.1 h
  obtain ⟨statements, hstatements, h⟩ := bind_eq_ok_iff.1 h
  cases h
  have hfield := statementSlot.readRecord_field hd rfl
  cases hx : d.statements with
  | none =>
    rw [hx] at hstatements
    cases hstatements
  | some x =>
    rw [hx] at hstatements hfield
    cases hstatements
    cases hfield with
    | once only reads =>
      obtain ⟨items, rfl, hitems⟩ := Json.forall₂_readList reads
      exact ⟨items, only, hitems⟩

end Policy

open ConditionBlock (Passes)

/-- The condition of each statement is exactly what its text keeps, so a statement does not apply in
a context that fails one of the members kept. -/
theorem Ruleset.ofText_writtenConditions [Pattern.Engine] {text : String} {registry : Registry}
    {rs : Ruleset} (h : ofText text registry = .ok rs) :
    ∃ items, (∀ v, (Json.Document.ofText text).root.HasField "Statement" 1 v ↔
        v = .array items none) ∧
      List.Forall₂ (fun item rule =>
        (∀ context, rule.conditionHolds context = true ↔ ∀ operator key values,
          Statement.Keeps item operator key values →
            Passes registry context operator key values) ∧
        ∀ operator key values context, Statement.Keeps item operator key values →
          ¬ Passes registry context operator key values →
            ∀ action resource, rule.applies action resource context = false) items rs.rules := by
  obtain ⟨p, hread, hcompile⟩ := StoredPolicy.ofText_eq_ok_iff.1 h
  obtain ⟨items, hwritten, hitems⟩ := Policy.forall₂_statements (Json.read_root_of_readText hread)
  refine ⟨items, hwritten, forall₂_trans hitems (Policy.forall₂_compile hcompile) ?_⟩
  rintro item s rule hs ⟨i, hrule⟩
  have hholds := Statement.conditionHolds_iff_passes hs hrule
  refine ⟨hholds, fun operator key values context hkept hfails action resource => ?_⟩
  have hcondition : ¬ rule.conditionHolds context = true := fun hc =>
    hfails ((hholds context).1 hc operator key values hkept)
  simp [Rule.applies, hcondition]

/-! ## A condition with repeated names -/

namespace Repeated

/-- Both the operator `Bool` and the key `team` are written twice. -/
def written : Json := .object [("Version", .string "1"), ("Statement", .array [.object [
  ("Effect", .string "Allow"), ("Action", .string "edit"), ("Resource", .string "*"),
  ("Condition", .object [
    ("Bool", .object [("mfa", .bool true)]),
    ("StringEquals", .object [("team", .string "ops"), ("team", .string "dev")]),
    ("Bool", .object [("office", .bool true)])])]])]

def document : String := written.text

def word (s : String) : Outline := .string ⟨s.toList.map .char, none⟩

def condition : Outline := .object [
  (word "Bool", .object [(word "mfa", .bool true)] none),
  (word "StringEquals", .object [(word "team", word "ops"), (word "team", word "dev")] none),
  (word "Bool", .object [(word "office", .bool true)] none)] none

def statement : Outline := .object [
  (word "Effect", word "Allow"), (word "Action", word "edit"), (word "Resource", word "*"),
  (word "Condition", condition)] none

/-- Neither the first `Bool` nor the first `team` is left. -/
def rule : Rule where
  sid := none
  effect := .allow
  actions := [⟨"edit", .literal⟩]
  resources := [⟨"*", .any⟩]
  condition := some ⟨[
    ⟨Comparison.bool.operator, "office", [.bool true]⟩,
    ⟨Comparison.stringEquals.operator, "team", [.string "dev"]⟩]⟩

/-- The team is not the first one listed, and nothing is said about a second factor. -/
def context : Context := .ofList [("office", .bool true), ("team", .string "dev")]

def root : Outline := .object [
  (word "Version", word "1"), (word "Statement", .array [statement] none)] none

theorem ofText_document : Json.Document.ofText document = ⟨root, false⟩ := by
  rw [Json.Document.ofText, document, Json.text, String.toList_ofList]
  cbv

theorem compile_document : Ruleset.ofText document .builtin = .ok ⟨"1", [rule]⟩ := by
  have hread : Policy.ofText document = Policy.read root := by
    rw [Policy.ofText, Json.readText, ofText_document]
    rfl
  rw [Ruleset.ofText, hread]
  rfl

theorem statement_written :
    (Json.Document.ofText document).root.HasField "Statement" 1 (.array [statement] none) := by
  rw [ofText_document]
  exact .member (.mem (.tail _ (.head _)) rfl)

theorem condition_written : statement.HasField "Condition" 4 condition :=
  .member (.mem (.tail _ (.tail _ (.tail _ (.head _)))) rfl)

theorem mfa_written : Statement.Writes statement "Bool" "mfa" (.bool true) :=
  ⟨condition, condition_written, _, .mem (.head _) rfl, .mem (.head _) rfl⟩

theorem team_written : Statement.Writes statement "StringEquals" "team" (word "ops") :=
  ⟨condition, condition_written, _, .mem (.tail _ (.head _)) rfl, .mem (.head _) rfl⟩

theorem team_fails : ¬ Passes .builtin context "StringEquals" "team" (word "ops") := by
  rintro ⟨op, listed, hop, hlisted, actual, hactual, e, he, hcheck⟩
  cases hop
  cases hlisted
  cases hactual
  cases List.mem_singleton.1 he
  cases hcheck

theorem office_kept : Statement.Keeps statement "Bool" "office" (.bool true) :=
  ⟨condition, condition_written, _, .mk ⟨[], _, rfl, rfl, nofun⟩, .mk ⟨[], _, rfl, rfl, nofun⟩⟩

end Repeated

/-- A document is accepted, and a statement applies although members of its condition fail: one
whose operator is written again, one whose key is. -/
theorem Ruleset.applies_despite_written_members :
    ofText Repeated.document .builtin = .ok ⟨"1", [Repeated.rule]⟩ ∧
      (Json.Document.ofText Repeated.document).root.HasField "Statement" 1
        (.array [Repeated.statement] none) ∧
      Statement.Writes Repeated.statement "Bool" "mfa" (.bool true) ∧
      ¬ Passes .builtin Repeated.context "Bool" "mfa" (.bool true) ∧
      Statement.Writes Repeated.statement "StringEquals" "team" (Repeated.word "ops") ∧
      ¬ Passes .builtin Repeated.context "StringEquals" "team" (Repeated.word "ops") ∧
      Repeated.rule.applies "edit" "note" Repeated.context = true :=
  ⟨Repeated.compile_document, Repeated.statement_written, Repeated.mfa_written,
    ConditionBlock.not_passes_of_missing rfl, Repeated.team_written, Repeated.team_fails, by decide⟩

/-- The member that was kept does restrict the statement. -/
theorem Ruleset.ofText_writtenConditions_repeated :
    ofText Repeated.document .builtin = .ok ⟨"1", [Repeated.rule]⟩ ∧
      Statement.Keeps Repeated.statement "Bool" "office" (.bool true) ∧
      ∀ action resource, Repeated.rule.applies action resource .empty = false := by
  refine ⟨Repeated.compile_document, Repeated.office_kept, fun action resource => ?_⟩
  obtain ⟨items, hwritten, hrules⟩ := ofText_writtenConditions Repeated.compile_document
  cases (hwritten _).1 Repeated.statement_written
  cases hrules with
  | cons hrule _ =>
    exact hrule.2 "Bool" "office" (.bool true) .empty Repeated.office_kept
      (ConditionBlock.not_passes_of_missing rfl) action resource

end TenantAccess
