import TenantAccess.Config
import TenantAccess.Distinct
import TenantAccess.Grant
import TenantAccess.Table

/-!
# Groups

A principal belongs to groups, and a group may have a parent. With inherited membership the groups
above count as well. Parents may form circles and may name groups that do not exist, so the walk
remembers which groups it has visited.
-/
namespace TenantAccess

/-- Ids of roles, groups and policies are unique within an organization only. -/
abbrev ScopedId := OrganizationId × String

structure Group where
  parent : Option String := none
  roles : List String := []
  policies : List String := []
  deriving DecidableEq, Repr

abbrev GroupTable := Table ScopedId Group

namespace GroupTable

def parent? (groups : GroupTable) (o : OrganizationId) (g : String) : Option String :=
  (groups.get? (o, g)).bind Group.parent

/-- The groups that exist and were not visited. -/
def unvisited (groups : GroupTable) (o : OrganizationId) (visited : List String) :
    List (ScopedId × Group) :=
  groups.entries.filter fun e => e.1.1 = o ∧ e.1.2 ∉ visited

theorem unvisited_cons (groups : GroupTable) (o : OrganizationId) (g : String)
    (visited : List String) :
    groups.unvisited o (g :: visited) = (groups.unvisited o visited).filter fun e => e.1.2 ≠ g := by
  simp only [unvisited, List.filter_filter]
  congr 1
  funext e
  simp [not_or, Bool.and_left_comm]

theorem unvisited_cons_le (groups : GroupTable) (o : OrganizationId) (g : String)
    (visited : List String) :
    (groups.unvisited o (g :: visited)).length ≤ (groups.unvisited o visited).length := by
  rw [unvisited_cons]
  exact List.length_filter_le ..

theorem unvisited_cons_lt {groups : GroupTable} {o : OrganizationId} {g p : String}
    {visited : List String} (hp : groups.parent? o g = some p) (hg : g ∉ visited) :
    (groups.unvisited o (g :: visited)).length < (groups.unvisited o visited).length := by
  obtain ⟨group, hget, -⟩ := Option.bind_eq_some_iff.1 hp
  have hmem : ((o, g), group) ∈ groups.unvisited o visited :=
    List.mem_filter.2 ⟨Table.mem_of_find hget, by simp [hg]⟩
  rw [unvisited_cons]
  refine Nat.lt_of_le_of_ne (List.length_filter_le ..) fun heq => ?_
  have := List.length_filter_eq_length_iff.1 heq _ hmem
  simp at this

/-- Visits the groups that are waiting, the first one first; the parent of a visited group waits
behind the others. -/
def climb (groups : GroupTable) (o : OrganizationId) (visited : List String) :
    List String → List String
  | [] => []
  | g :: waiting =>
    if hg : g ∈ visited then climb groups o visited waiting
    else
      match hp : groups.parent? o g with
      | some p =>
        have := unvisited_cons_lt hp hg
        g :: climb groups o (g :: visited) (waiting ++ [p])
      | none =>
        have := unvisited_cons_le groups o g visited
        g :: climb groups o (g :: visited) waiting
termination_by waiting => (groups.unvisited o visited).length + waiting.length
decreasing_by
  all_goals
    simp only [List.length_append, List.length_cons, List.length_nil]
    omega

/-- The groups to read for a principal that belongs to the given groups. -/
def reached (groups : GroupTable) (o : OrganizationId) (memberships : List String) :
    GroupTraversal → List String
  | .direct => memberships
  | .inherited => climb groups o [] memberships

end GroupTable

end TenantAccess
