import TenantAccess.Policy.Rules
import TenantAccess.Proofs.Reading

/-!
# The written form of policies

A policy whose conditions list no numbers is read back as it was written: single values stay
apart from lists of one value, and a name or a condition that is absent stays apart from an empty
one. So a policy compiles to the same as its text, or is refused with the same error.
-/
namespace TenantAccess

open Json (Reads Plain Fills)

/-! ## One value or several -/

namespace Listing

variable {α : Type} {item : Json → Option α} {write : α → Json}

theorem mapM_map_eq_some {as : List α} (h : ∀ a ∈ as, item (write a) = some a) :
    (as.map write).mapM item = some as := by
  induction as with
  | nil => rfl
  | cons a as ih =>
    obtain ⟨ha, has⟩ := List.forall_mem_cons.1 h
    rw [List.map_cons, List.mapM_cons, ha, ih has]
    rfl

/-- A list is read as a list because it is not read as a single value. -/
theorem ofJson?_toJson {l : Listing α} (h : ∀ a ∈ l.toList, item (write a) = some a)
    (single : ∀ vs, item (.array vs) = none) : ofJson? item (l.toJson write) = some l := by
  cases l with
  | one a =>
    have ha : item (write a) = some a := h a (.head [])
    simp only [toJson, ofJson?, ha]
  | many as =>
    have has : (as.map write).mapM item = some as := mapM_map_eq_some h
    simp only [toJson, ofJson?, single, has, Option.map_some]

theorem plain_toJson {l : Listing α} (h : ∀ a ∈ l.toList, ∀ n, Plain n (write a)) (n : Nat) :
    Plain (n + 1) (l.toJson write) := by
  cases l with
  | one a => exact h a (.head []) (n + 1)
  | many as =>
    refine .array fun v hv => ?_
    obtain ⟨a, ha, rfl⟩ := List.mem_map.1 hv
    exact h a ha n

end Listing

/-! ## Conditions -/

/-- A truth value or a text. -/
def ConditionValue.NumberFree : ConditionValue → Prop
  | .number _ => False
  | .bool _ | .string _ => True

/-- The block lists truth values and texts only. -/
def ConditionBlock.NumberFree (b : ConditionBlock) : Prop :=
  ∀ entry ∈ b.entries, ∀ key ∈ entry.2.entries, ∀ v ∈ key.2.toList, v.NumberFree

def Policy.NumberFree (p : Policy) : Prop :=
  ∀ s ∈ p.statements, ∀ block, s.condition = some block → block.NumberFree

theorem ConditionValue.ofJson?_toJson {v : ConditionValue} (h : v.NumberFree) :
    ofJson? v.toJson = some v := by
  cases v with
  | number => cases h
  | bool => rfl
  | string => rfl

theorem ConditionValue.plain_toJson {v : ConditionValue} (h : v.NumberFree) (n : Nat) :
    Plain n v.toJson := by
  cases v with
  | number => cases h
  | bool => exact .bool
  | string => exact .string

namespace ConditionBlock

variable {b : ConditionBlock}

/-- The keys of one operator as they are written. -/
def keysToJson (keys : Keyed (Listing ConditionValue)) : Json :=
  .object (keys.entries.map fun key => (key.1, key.2.toJson ConditionValue.toJson))

theorem toJson_eq (b : ConditionBlock) :
    b.toJson = .object (b.entries.map fun entry => (entry.1, keysToJson entry.2)) := rfl

theorem reads_keysToJson {keys : Keyed (Listing ConditionValue)}
    (h : ∀ key ∈ keys.entries, ∀ v ∈ key.2.toList, v.NumberFree) :
    Reads (fun o => (Json.readMap (Listing.read ConditionValue.ofJson?) o).map Keyed.ofList)
      (keysToJson keys) keys := by
  have hvalues : ∀ key ∈ keys.entries, Reads (Listing.read ConditionValue.ofJson?)
      (key.2.toJson ConditionValue.toJson) key.2 := fun key hkey =>
    Json.reads_whole (Listing.ofJson?_toJson
      (fun v hv => ConditionValue.ofJson?_toJson (h key hkey v hv)) fun _ => rfl)
  have hmap := (Json.reads_map hvalues).map Keyed.ofList
  rwa [Keyed.ofList_entries] at hmap

theorem reads (h : b.NumberFree) : Reads read b.toJson b := by
  have hmap := (Json.reads_map fun entry hentry =>
    reads_keysToJson (h entry hentry)).map Keyed.ofList
  rw [Keyed.ofList_entries] at hmap
  exact hmap

theorem plain_toJson (h : b.NumberFree) (n : Nat) : Plain (n + 3) b.toJson := by
  rw [toJson_eq]
  refine .object fun m hm => ?_
  obtain ⟨entry, hentry, rfl⟩ := List.mem_map.1 hm
  refine .object fun m hm => ?_
  obtain ⟨key, hkey, rfl⟩ := List.mem_map.1 hm
  exact Listing.plain_toJson
    (fun v hv => ConditionValue.plain_toJson (h entry hentry key hkey v hv)) n

end ConditionBlock

/-! ## Statements -/

theorem Effect.reads (e : Effect) : Reads Effect.read e.toJson e := by
  cases e with
  | allow => exact Json.reads_variant rfl
  | deny => exact Json.reads_variant rfl

namespace Statement

variable {s : Statement}

theorem reads_patterns (l : Listing String) : Reads readPatterns (l.toJson .string) l :=
  Json.reads_whole (Listing.ofJson?_toJson (fun _ _ => rfl) fun _ => rfl)

theorem plain_patterns (l : Listing String) (n : Nat) : Plain (n + 1) (l.toJson .string) :=
  Listing.plain_toJson (fun _ _ _ => .string) n

/-- The draft that holds all that the statement says. -/
def draft (s : Statement) : Draft where
  sid := s.sid.map some
  effect := some s.effect
  action := some s.action
  resource := some s.resource
  condition := s.condition.map some

theorem fills_sid (sid : Option String) :
    Fills record {} (match sid with
      | some sid => [("Sid", .string sid)]
      | none => []) { sid := sid.map some } := by
  cases sid with
  | none => exact .nil
  | some sid =>
    have hread : Reads (Json.readOptional Json.readString) (.string sid) (some sid) :=
      Json.reads_optional nofun (Json.reads_string sid)
    exact .cons rfl rfl (hread.map _) .nil

theorem fills_condition {condition : Option ConditionBlock} {d : Draft}
    (fresh : d.condition = none) : (∀ block, condition = some block → block.NumberFree) →
    Fills record d (match condition with
      | some block => [("Condition", block.toJson)]
      | none => []) { d with condition := condition.map some } := by
  intro h
  cases condition with
  | none =>
    rw [Option.map_none, ← fresh]
    exact .nil
  | some block =>
    have hread : Reads (Json.readOptional ConditionBlock.read) block.toJson (some block) :=
      Json.reads_optional nofun (ConditionBlock.reads (h block rfl))
    have hfresh : d.condition.isSome = false := by rw [fresh]; rfl
    exact .cons rfl hfresh (hread.map _) .nil

theorem fills_toJson (h : ∀ block, s.condition = some block → block.NumberFree) :
    ∃ ms, s.toJson = .object ms ∧ Fills record {} ms s.draft := by
  have hneeded : Fills record { sid := s.sid.map some } [("Effect", s.effect.toJson),
      ("Action", s.action.toJson .string), ("Resource", s.resource.toJson .string)]
      { s.draft with condition := none } := by
    refine .cons rfl rfl (s.effect.reads.map _) ?_
    refine .cons rfl rfl ((reads_patterns s.action).map _) ?_
    exact .cons rfl rfl ((reads_patterns s.resource).map _) .nil
  exact ⟨_, rfl, ((fills_sid s.sid).append hneeded).append (fills_condition rfl h)⟩

theorem reads (h : ∀ block, s.condition = some block → block.NumberFree) :
    Reads read s.toJson s := by
  intro o ho
  obtain ⟨ms, hms, hfills⟩ := fills_toJson h
  rw [hms] at ho
  rw [read, hfills.reads o ho]
  obtain ⟨sid, effect, action, resource, condition⟩ := s
  cases sid <;> cases condition <;> rfl

theorem plain_toJson (h : ∀ block, s.condition = some block → block.NumberFree) (n : Nat) :
    Plain (n + 4) s.toJson := by
  refine .object fun m hm => ?_
  simp only [List.mem_append, List.mem_cons, List.not_mem_nil, or_false] at hm
  rcases hm with (hsid | rfl | rfl | rfl) | hcondition
  · cases hs : s.sid <;> simp [hs] at hsid
    rw [hsid]
    exact .string
  · exact .string
  · exact plain_patterns s.action (n + 2)
  · exact plain_patterns s.resource (n + 2)
  · cases hs : s.condition <;> simp [hs] at hcondition
    rw [hcondition]
    exact ConditionBlock.plain_toJson (h _ hs) n

end Statement

/-! ## Policies -/

namespace Policy

variable {p : Policy}

theorem reads (h : p.NumberFree) : Reads read p.toJson p := by
  have hfills : Fills record {} [("Version", .string p.version),
      ("Statement", .array (p.statements.map Statement.toJson))]
      ⟨some p.version, some p.statements⟩ := by
    refine .cons rfl rfl ((Json.reads_string p.version).map _) (.cons rfl rfl ?_ .nil)
    exact (Json.reads_list fun s hs => Statement.reads (h s hs)).map _
  intro o ho
  rw [read, hfills.reads o ho]
  rfl

theorem plain_toJson (h : p.NumberFree) (n : Nat) : Plain (n + 6) p.toJson := by
  refine .member .string (.member (.array fun v hv => ?_) .empty)
  obtain ⟨s, hs, rfl⟩ := List.mem_map.1 hv
  exact Statement.plain_toJson (h s hs) n

theorem ofText_toText (h : p.NumberFree) : ofText p.toText = .ok p :=
  Json.readText_eq_ok (plain_toJson h 0) (by decide) (reads h)

/-- A policy without numbers is read back from its text, and its text compiles as it does. -/
theorem text_roundTrip [Pattern.Engine] (h : p.NumberFree) :
    ofText p.toText = .ok p ∧
      ∀ registry, Ruleset.ofText p.toText registry = p.compile registry := by
  have hread := ofText_toText h
  refine ⟨hread, fun registry => ?_⟩
  rw [Ruleset.ofText, hread]

/-- Empty names and conditions stand beside absent ones, single values beside lists, and the texts
need every kind of escape. -/
def intricate : Policy where
  version := "\"\\/\x00\x1f\x7f\t\r\n"
  statements := [
    { sid := some "", effect := .allow, action := .one "blog:läse😀", resource := .many ["*"],
      condition := some .empty },
    { effect := .deny, action := .many [], resource := .one "",
      condition := some ⟨[
        ("", ⟨[("a\"b", .one (.bool true)), ("ключ", .many [.string "true", .bool false])],
          List.pairwise_pair.2 (by decide : "a\"b" < "ключ")⟩),
        ("Zoned", .empty)], List.pairwise_pair.2 (by decide : "" < "Zoned")⟩ }]

theorem text_roundTrip_intricate : intricate.NumberFree ∧
    ofText intricate.toText = .ok intricate ∧
      Ruleset.ofText intricate.toText .builtin = intricate.compile .builtin := by
  have h : intricate.NumberFree := by
    simp [NumberFree, ConditionBlock.NumberFree, ConditionValue.NumberFree, intricate,
      Listing.toList, Keyed.empty, -Prod.forall]
  exact ⟨h, (text_roundTrip h).1, (text_roundTrip h).2 .builtin⟩

end Policy

end TenantAccess
