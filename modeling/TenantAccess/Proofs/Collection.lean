import Mathlib.Data.List.Forall2
import TenantAccess.Proofs.AuditTrail
import TenantAccess.Proofs.FirstOccurrences

/-!
# What is kept of the answers of the sources

A snapshot keeps the rows within the principal's scope in the order in which they came, permissions
and shares with their repetitions and of policies the first of every id. Beside them it says which
sources failed and how many rows of the others lay out of scope, every source at most once. When
it is prepared every row stays in its place, and what becomes of its text depends on nothing else.
-/
namespace TenantAccess

/-- The snapshot keeps of the answers what is within the principal's scope, and notes the rest. -/
structure Snapshot.Keeps (s : Snapshot) (p : Principal) (x : GrantAnswers) : Prop where
  policies : KeepsFirsts StoredPolicy.id (rowsOf (x.own p).policies) s.policies
  policies_distinct : s.policies.Pairwise fun a b => a.id ≠ b.id
  policies_inOrder : s.policies.Sublist (rowsOf x.policies)
  permissions : s.permissions = rowsOf (x.own p).permissions
  shares : s.shares = rowsOf (x.own p).shares
  failures : ∀ f, f ∈ s.failures ↔ ∃ e, x.error? f.source = some e ∧ f.reason = e.message
  failures_inOrder : (s.failures.map SourceFailure.source).Sublist GrantSource.all
  discarded : ∀ d, d ∈ s.discarded ↔
    x.error? d.source = none ∧ d.count = x.foreign p d.source ∧ d.count ≠ 0
  discarded_inOrder : (s.discarded.map DiscardedRows.source).Sublist GrantSource.all

/-- The grants hold every row of the snapshot in its place with what its text compiles to. -/
structure PreparedGrants.Prepares [Pattern.Engine] (g : PreparedGrants) (s : Snapshot)
    (registry : Registry) : Prop where
  policies : List.Forall₂ (fun row policy => policy.id = row.id ∧
    policy.rules = Ruleset.ofText row.document registry) s.policies g.policies
  permissions : List.Forall₂ (fun row permission => permission.row = row ∧
    permission.pattern = Pattern.compile row.permission) s.permissions g.permissions
  shares : g.shares = s.shares
  failures : g.failures = s.failures
  discarded : g.discarded = s.discarded

/-- What was made of the elements of a list names them in their order. -/
theorem map_filterMap_sublist {α β : Type} {f : α → Option β} {g : β → α}
    (names : ∀ a b, f a = some b → g b = a) (as : List α) :
    ((as.filterMap f).map g).Sublist as := by
  induction as with
  | nil => exact .slnil
  | cons a as ih =>
    cases hf : f a with
    | none =>
      rw [List.filterMap_cons_none hf]
      exact ih.cons a
    | some b =>
      rw [List.filterMap_cons_some hf, List.map_cons, names a b hf]
      exact ih.cons_cons a

/-- Only the rows of a source that was read are counted. -/
theorem GrantAnswers.error?_of_foreign {p : Principal} {x : GrantAnswers} {source : GrantSource}
    (counted : x.foreign p source ≠ 0) : x.error? source = none := by
  have hread : ∀ {α : Type} {answer : Except AccessError (List α)} {foreign : α → Bool},
      (rowsOf answer).countP foreign ≠ 0 → errorOf? answer = none := by
    intro α answer foreign hcount
    cases answer with
    | ok rows => rfl
    | error e => exact absurd rfl hcount
  cases source with
  | policies => exact hread counted
  | resourcePermissions => exact hread counted
  | resourceShares => exact hread counted

namespace Snapshot

variable {α : Type} {inScope : α → Bool}

/-- The rows within scope are those that are left without the foreign ones. -/
theorem kept_eq {own : α → Prop} [DecidablePred own] (h : ∀ a, inScope a = true ↔ own a)
    (answer : Except AccessError (List α)) :
    kept inScope answer = rowsOf (answer.map (List.filter fun a => own a)) := by
  cases answer with
  | error _ => rfl
  | ok rows =>
    refine List.filter_congr fun a _ => ?_
    rw [Bool.eq_iff_iff, h, decide_eq_true_iff]

theorem kept_sublist (answer : Except AccessError (List α)) :
    (kept inScope answer).Sublist (rowsOf answer) := by
  cases answer with
  | error _ => exact .slnil
  | ok rows => exact List.filter_sublist

theorem mem_failures_collect {p : Principal} {x : GrantAnswers} {f : SourceFailure} :
    f ∈ (collect p x).failures ↔ ∃ e, x.error? f.source = some e ∧ f.reason = e.message := by
  rw [failures_collect, List.mem_filterMap]
  constructor
  · rintro ⟨source, -, hf⟩
    obtain ⟨e, he, rfl⟩ := Option.map_eq_some_iff.1 hf
    exact ⟨e, he, rfl⟩
  · rintro ⟨e, he, hreason⟩
    refine ⟨f.source, f.source.mem_all, Option.map_eq_some_iff.2 ⟨e, he, ?_⟩⟩
    rw [← hreason]

theorem mem_discarded_collect {p : Principal} {x : GrantAnswers} {d : DiscardedRows} :
    d ∈ (collect p x).discarded ↔
      x.error? d.source = none ∧ d.count = x.foreign p d.source ∧ d.count ≠ 0 := by
  simp only [discarded_collect, List.mem_filterMap, Option.ite_none_left_eq_some,
    Option.some.injEq]
  constructor
  · rintro ⟨source, -, hforeign, rfl⟩
    exact ⟨GrantAnswers.error?_of_foreign hforeign, rfl, hforeign⟩
  · rintro ⟨-, hcount, hsome⟩
    refine ⟨d.source, d.source.mem_all, hcount ▸ hsome, ?_⟩
    rw [← hcount]

/-- What is collected for a principal. -/
theorem keeps_collect (p : Principal) (x : GrantAnswers) : (collect p x).Keeps p x where
  policies := by
    have hkept := kept_eq p.ownsPolicy_iff x.policies
    rw [collect, hkept]
    exact keepsFirsts_distinctBy StoredPolicy.id _
  policies_distinct := pairwise_distinctBy StoredPolicy.id [] _
  policies_inOrder := (sublist_distinctBy StoredPolicy.id [] _).trans (kept_sublist x.policies)
  permissions := kept_eq p.ownsPermission_iff x.permissions
  shares := kept_eq p.ownsShare_iff x.shares
  failures _ := mem_failures_collect
  failures_inOrder := by
    rw [failures_collect]
    refine map_filterMap_sublist (fun source f hf => ?_) GrantSource.all
    obtain ⟨e, -, rfl⟩ := Option.map_eq_some_iff.1 hf
    rfl
  discarded _ := mem_discarded_collect
  discarded_inOrder := by
    rw [discarded_collect]
    refine map_filterMap_sublist (fun source d hd => ?_) GrantSource.all
    obtain ⟨-, hd⟩ := Option.ite_none_left_eq_some.1 hd
    cases hd
    rfl

variable [Pattern.Engine]

theorem prepares_prepare (s : Snapshot) (registry : Registry) :
    (s.prepare registry).Prepares s registry where
  policies := List.forall₂_map_right_iff.2 (List.forall₂_same.2 fun _ _ => ⟨rfl, rfl⟩)
  permissions := List.forall₂_map_right_iff.2 (List.forall₂_same.2 fun _ _ => ⟨rfl, rfl⟩)
  shares := rfl
  failures := rfl
  discarded := rfl

/-- A snapshot keeps exactly what is within the principal's scope, of policies the first of every
id, with every failed source and every number of discarded rows. Prepared, every row stays in its
place with what its own text compiles to. -/
theorem collect_scope (p : Principal) (x : GrantAnswers) (registry : Registry) :
    (collect p x).Keeps p x ∧ ((collect p x).prepare registry).Prepares (collect p x) registry :=
  ⟨keeps_collect p x, prepares_prepare _ registry⟩

/-- A foreign policy does not hide one's own of the same id, and a repeated one is not counted. -/
example : collect ⟨"acme", .user, "ada"⟩
    ⟨.ok [⟨"p", "rival", "1"⟩, ⟨"p", "acme", "2"⟩, ⟨"p", "acme", "3"⟩],
      .error (.unavailable .resourcePermissions "down"), .ok []⟩ =
    { policies := [⟨"p", "acme", "2"⟩]
      failures := [⟨.resourcePermissions, "Grant source unavailable: resource_permissions: down"⟩]
      discarded := [⟨.policies, 1⟩] } := by
  decide

end Snapshot

end TenantAccess
