import TenantAccess.Proofs.AuditTrail
import TenantAccess.Proofs.StoreReads

/-!
# What the sources owe their readers

The reader trusts no source: it leaves out the rows that are not the principal's and the policies
of an id that it has seen. Sources over a store that came about by changes give it no cause. Every
change keeps each policy under its own organization and id; so at any time the rows that are read
lie within the principal's scope, and they are collected as they came.
-/
namespace TenantAccess

/-! ## Rows that are collected as they came -/

/-- The rows of the sources that could be read. -/
def GrantAnswers.rows (x : GrantAnswers) : GrantRows :=
  ⟨rowsOf x.policies, rowsOf x.permissions, rowsOf x.shares⟩

/-- The snapshot has all of the rows in their order. -/
structure Snapshot.Passes (s : Snapshot) (rows : GrantRows) : Prop where
  policies : s.policies = rows.policies
  permissions : s.permissions = rows.permissions
  shares : s.shares = rows.shares
  discarded : s.discarded = []

namespace Snapshot

variable {α : Type} {inScope : α → Bool} {answer : Except AccessError (List α)}

theorem kept_rowsOf (h : ∀ row ∈ rowsOf answer, inScope row = true) :
    kept inScope answer = rowsOf answer := by
  cases answer with
  | ok rows => exact kept_of_forall h
  | error _ => rfl

theorem discarded?_rowsOf (source : GrantSource) (h : ∀ row ∈ rowsOf answer, inScope row = true) :
    discarded? source inScope answer = none := by
  cases answer with
  | ok rows => exact discarded?_of_forall source h
  | error _ => rfl

/-- The filter and the merging of the reader find nothing to do in rows that are in scope. -/
theorem passes_collect {p : Principal} {x : GrantAnswers} (h : x.rows.InScope p) :
    (collect p x).Passes x.rows := by
  have hp : ∀ row ∈ rowsOf x.policies, p.ownsPolicy row = true := h.ownsPolicies
  have hq : ∀ row ∈ rowsOf x.permissions, p.ownsPermission row = true := h.ownsPermissions
  have hs : ∀ row ∈ rowsOf x.shares, p.ownsShare row = true := h.ownsShares
  refine ⟨?_, kept_rowsOf hq, kept_rowsOf hs, ?_⟩
  · simp only [collect, kept_rowsOf hp]
    exact h.distinctBy_policies
  · simp only [collect, discarded?_rowsOf _ hp, discarded?_rowsOf _ hq, discarded?_rowsOf _ hs]
    rfl

end Snapshot

/-! ## Sources over a store -/

namespace Sources

/-- The sources read from a store in which every policy is under its own key. -/
structure Orderly (s : Sources) : Prop where
  own : s.fixed = none
  filed : s.store.Filed

variable {s : Sources} {p : Principal} {traversal : GroupTraversal}

theorem orderly_empty : Orderly {} where
  own := rfl
  filed := Store.Reachable.empty.filed

theorem Orderly.change (h : s.Orderly) (c : SourceChange) : (s.change c).Orderly := by
  cases c with
  | store c => exact ⟨h.own, h.filed.change c⟩
  | fault source f => exact ⟨h.own, h.filed⟩
  | clearFaults => exact ⟨h.own, h.filed⟩

theorem Orderly.changes (h : s.Orderly) (cs : List SourceChange) :
    (cs.foldl Sources.change s).Orderly := by
  induction cs generalizing s with
  | nil => exact h
  | cons c cs ih => exact ih (h.change c)

theorem Orderly.rows_eq (h : s.Orderly) : s.rows p traversal = s.store.rowsOf p traversal := by
  simp only [rows, h.own]

theorem Orderly.inScope_rows (h : s.Orderly) : (s.rows p traversal).InScope p := by
  rw [h.rows_eq]
  exact h.filed.inScope_rowsOf p traversal

variable {α : Type} {later : Nat → Sources}

/-- A source answers with all rows that there are when it reads, or with none. -/
theorem rowsOf_answer (holds : List α → Prop) {f : GrantRows → List α} (nothing : holds [])
    (all : ∀ time, holds (f ((later time).rows p traversal))) (s : Sources) (timeout : Nat)
    (source : GrantSource) :
    holds (rowsOf ((s.answer later timeout p traversal source).map f)) := by
  unfold answer
  cases s.arrival timeout source with
  | reads time => exact all time
  | fails time reason => exact nothing

/-- The sources may each read at a time of their own, for scope is a matter of single sources. -/
theorem inScope_answers (h : ∀ time, (later time).Orderly) (s : Sources) (timeout : Nat)
    (p : Principal) (traversal : GroupTraversal) :
    (s.answers later timeout p traversal).rows.InScope p where
  policies := s.rowsOf_answer
    (fun rows : List StoredPolicy => ∀ row ∈ rows, row.organization = p.organization)
    (List.forall_mem_nil _) (fun time => (h time).inScope_rows.policies) timeout .policies
  policies_distinct := s.rowsOf_answer (List.Pairwise fun a b : StoredPolicy => a.id ≠ b.id)
    .nil (fun time => (h time).inScope_rows.policies_distinct) timeout .policies
  permissions := s.rowsOf_answer (fun rows : List ResourcePermission => ∀ row ∈ rows,
      row.organization = p.organization ∧ row.principalId = p.id ∧ row.principalKind = p.kind)
    (List.forall_mem_nil _) (fun time => (h time).inScope_rows.permissions) timeout
    .resourcePermissions
  shares := s.rowsOf_answer (fun rows : List ResourceShare => ∀ row ∈ rows,
      row.organization = p.organization ∧ row.principalId = p.id ∧ row.principalKind = p.kind)
    (List.forall_mem_nil _) (fun time => (h time).inScope_rows.shares) timeout .resourceShares

/-- After any changes the sources read, for every principal, rows of the store within its scope and
no policy twice. So what they answer is collected as it came, and no row is discarded, even if the
store changes and time runs out while they are read. -/
theorem passes_collect_answers (cs : List SourceChange) (p : Principal)
    (traversal : GroupTraversal) :
    let s : Sources := cs.foldl change {}
    s.rows p traversal = s.store.rowsOf p traversal ∧ (s.store.rowsOf p traversal).InScope p ∧
      ∀ (later : Nat → List SourceChange) (timeout : Nat),
        let x := s.answers (fun time => (later time).foldl change s) timeout p traversal
        x.rows.InScope p ∧ (Snapshot.collect p x).Passes x.rows := by
  intro s
  have hs : s.Orderly := orderly_empty.changes cs
  refine ⟨hs.rows_eq, hs.filed.inScope_rowsOf p traversal, ?_⟩
  intro later timeout x
  have hx : x.rows.InScope p := inScope_answers (fun time => hs.changes (later time)) ..
  exact ⟨hx, Snapshot.passes_collect hx⟩

end Sources
end TenantAccess
