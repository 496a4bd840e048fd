import TenantAccess.Proofs.StoreReads

/-!
# Revoking a share

A share is removed by its id alone, whatever organization its row belongs to. So the organization
that revokes a share loses it, and the others keep what they read exactly if none of their shares
carries the same id.
-/
namespace TenantAccess

namespace Store

variable {s : Store} {row : ResourceShare} {p : Principal} {id : String}

theorem sharesOf_removeShare (s : Store) (id : String) (p : Principal) :
    (s.change (.removeShare id)).sharesOf p = (s.sharesOf p).filter fun row => row.id ≠ id := by
  simp only [sharesOf, change, List.filter_filter, Bool.and_comm]

theorem sharesOf_removeShare_eq_iff :
    (s.change (.removeShare id)).sharesOf p = s.sharesOf p ↔ ∀ row ∈ s.sharesOf p, row.id ≠ id := by
  rw [sharesOf_removeShare, List.filter_eq_self]
  simp only [decide_eq_true_eq]

/-- A share is no longer read by anybody, its own principal included. -/
theorem not_mem_sharesOf_removeShare : row ∉ (s.change (.removeShare row.id)).sharesOf p := by
  intro hrow
  rw [sharesOf_removeShare, List.mem_filter] at hrow
  exact of_decide_eq_true hrow.2 rfl

/-- The principal that a stored share names reads it. -/
theorem mem_sharesOf_named (stored : row ∈ s.shares) :
    row ∈ s.sharesOf ⟨row.organization, row.principalKind, row.principalId⟩ :=
  mem_sharesOf_iff.2 ⟨stored, rfl, rfl, rfl⟩

/-- Removing a share changes nothing for the other organizations exactly if none of them has a
share of that id. -/
theorem sharesOf_foreign_iff :
    (∀ p : Principal, p.organization ≠ row.organization →
        (s.change (.removeShare row.id)).sharesOf p = s.sharesOf p) ↔
      ∀ other ∈ s.shares, other.id = row.id → other.organization = row.organization := by
  constructor
  · intro hkept other hother hid
    refine Decidable.byContradiction fun hforeign => ?_
    exact sharesOf_removeShare_eq_iff.1 (hkept ⟨_, other.principalKind, other.principalId⟩ hforeign)
      other (mem_sharesOf_named hother) hid
  · intro hown p hforeign
    refine sharesOf_removeShare_eq_iff.2 fun other hother hid => ?_
    obtain ⟨hstored, horganization, -⟩ := mem_sharesOf_iff.1 hother
    exact hforeign (horganization.symm.trans (hown other hstored hid))

end Store

namespace Sources

variable {s : Sources} {p : Principal} {id : String}

/-- Policies and permissions do not depend on the shares, so only the shares can change. -/
theorem read_removeShare_of_ne (kept : ∀ row ∈ s.store.sharesOf p, row.id ≠ id)
    (source : GrantSource) (traversal : GroupTraversal) :
    (s.change (.store (.removeShare id))).read source p traversal = s.read source p traversal := by
  have hrows : (s.change (.store (.removeShare id))).rows p traversal = s.rows p traversal := by
    cases hfixed : s.fixed with
    | some fixed => simp only [rows, change, hfixed]
    | none =>
      have hshares := Store.sharesOf_removeShare_eq_iff.2 kept
      have hrowsOf : (s.store.change (.removeShare id)).rowsOf p traversal =
          ⟨s.store.policiesOf p traversal, s.store.permissionsOf p,
            (s.store.change (.removeShare id)).sharesOf p⟩ := rfl
      simp only [rows, change, hfixed]
      rw [hrowsOf, hshares, Store.rowsOf]
  have hfault : (s.change (.store (.removeShare id))).fault? source = s.fault? source := rfl
  rw [read, read, hrows, hfault]

/-- When a share is removed by its id, a principal of another organization reads the same shares as
before exactly if none of them carries that id, and then all its reads are as before. This is so for
all of them exactly if the id is used in the one organization only. The principals of that
organization no longer read the share and keep those of other ids. -/
theorem read_removeShare (s : Sources) (row : ResourceShare) :
    (∀ p : Principal, p.organization ≠ row.organization →
      ((s.store.change (.removeShare row.id)).sharesOf p = s.store.sharesOf p ↔
        ∀ other ∈ s.store.sharesOf p, other.id ≠ row.id) ∧
      ((∀ other ∈ s.store.sharesOf p, other.id ≠ row.id) → ∀ source traversal,
        (s.change (.store (.removeShare row.id))).read source p traversal =
          s.read source p traversal)) ∧
      ((∀ p : Principal, p.organization ≠ row.organization →
          (s.store.change (.removeShare row.id)).sharesOf p = s.store.sharesOf p) ↔
        ∀ other ∈ s.store.shares, other.id = row.id → other.organization = row.organization) ∧
      ∀ p : Principal, p.organization = row.organization →
        row ∉ (s.store.change (.removeShare row.id)).sharesOf p ∧
          (s.store.change (.removeShare row.id)).sharesOf p =
            (s.store.sharesOf p).filter fun other => other.id ≠ row.id := by
  refine ⟨fun p _ => ?_, Store.sharesOf_foreign_iff, fun p _ => ?_⟩
  · exact ⟨Store.sharesOf_removeShare_eq_iff, read_removeShare_of_ne⟩
  · exact ⟨Store.not_mem_sharesOf_removeShare, Store.sharesOf_removeShare s.store row.id p⟩

end Sources

/-! ## Two organizations with one share each -/

namespace Neighbours

def ada : Principal := ⟨"acme", .user, "ada"⟩

def bob : Principal := ⟨"rival", .user, "bob"⟩

def shareOfAda : ResourceShare := .ofPrincipal "share-1" ada "blog/1" .editor

def shareOfBob (id : String) : ResourceShare := .ofPrincipal id bob "blog/2" .viewer

def store (id : String) : Store :=
  [.addShare shareOfAda, .addShare (shareOfBob id)].foldl Store.change {}

theorem store_reachable (id : String) : (store id).Reachable :=
  Store.Reachable.empty.changes _

theorem sharesOf_ada (id : String) : (store id).sharesOf ada = [shareOfAda] := rfl

end Neighbours

/-- With ids of their own, the share of the other organization is removed and this one stays. -/
theorem Sources.read_removeShare_neighbour :
    ((Neighbours.store "share-2").change (.removeShare "share-2")).sharesOf Neighbours.ada =
        [Neighbours.shareOfAda] ∧
      ((Neighbours.store "share-2").change (.removeShare "share-2")).sharesOf Neighbours.bob =
        [] := by
  obtain ⟨hforeign, -, hown⟩ :=
    read_removeShare ⟨Neighbours.store "share-2", {}, none⟩ (Neighbours.shareOfBob "share-2")
  have hkept := (hforeign Neighbours.ada (by decide)).1.2 (by
    rw [Neighbours.sharesOf_ada]
    decide)
  exact ⟨hkept.trans (Neighbours.sharesOf_ada _), (hown Neighbours.bob rfl).2⟩

/-- With one id for both, removing the share of the other organization takes this one away too. -/
theorem Store.removeShare_across_organizations :
    (Neighbours.store "share-1").Reachable ∧
      Neighbours.shareOfBob "share-1" ∈ (Neighbours.store "share-1").shares ∧
      Neighbours.ada.organization ≠ (Neighbours.shareOfBob "share-1").organization ∧
      (Neighbours.store "share-1").sharesOf Neighbours.ada = [Neighbours.shareOfAda] ∧
      ((Neighbours.store "share-1").change
        (.removeShare (Neighbours.shareOfBob "share-1").id)).sharesOf Neighbours.ada = [] := by
  refine ⟨Neighbours.store_reachable _, ?_, by decide, Neighbours.sharesOf_ada _, rfl⟩
  exact .tail _ (.head _)

end TenantAccess
