import TenantAccess.Store.Groups

/-!
# Which groups count

With direct membership the groups a principal belongs to count, with inherited membership the
groups above them as well. `Counts` says so as a relation; the walk `climb` visits exactly the
groups that it names, circles and parents that do not exist included.
-/
namespace TenantAccess.GroupTable

/-- A group counts for a principal with those memberships. -/
inductive Counts (groups : GroupTable) (o : OrganizationId) (memberships : List String)
    (traversal : GroupTraversal) : String → Prop
  | member {g : String} (belongs : g ∈ memberships) : Counts groups o memberships traversal g
  | above {g p : String} (inherited : traversal = .inherited)
      (below : Counts groups o memberships traversal g) (parent : groups.parent? o g = some p) :
      Counts groups o memberships traversal p

variable {groups : GroupTable} {o : OrganizationId}

theorem Counts.of_subset {xs ys : List String} {traversal : GroupTraversal} {g : String}
    (hsub : ∀ x ∈ xs, Counts groups o ys traversal x) (h : Counts groups o xs traversal g) :
    Counts groups o ys traversal g := by
  induction h with
  | member belongs => exact hsub _ belongs
  | above inherited _ parent ih => exact .above inherited ih parent

/-! ## Turns of the walk -/

@[simp] theorem climb_nil {visited : List String} : climb groups o visited [] = [] := by
  rw [climb]

theorem climb_cons_of_mem {visited waiting : List String} {g : String} (known : g ∈ visited) :
    climb groups o visited (g :: waiting) = climb groups o visited waiting := by
  rw [climb, dif_pos known]

theorem climb_cons_of_not_mem {visited waiting : List String} {g : String} (new : g ∉ visited) :
    climb groups o visited (g :: waiting) =
      g :: climb groups o (g :: visited) (waiting ++ (groups.parent? o g).toList) := by
  rw [climb, dif_neg new]
  split
  · rename_i p hp
    simp only [hp, Option.toList_some]
  · rename_i hp
    simp only [hp, Option.toList_none, List.append_nil]

/-- What holds where nothing waits, and before a turn if it holds after it, always holds. -/
theorem turn_induction (groups : GroupTable) (o : OrganizationId)
    {motive : List String → List String → Prop} (nil : ∀ visited, motive visited [])
    (known : ∀ visited g waiting, g ∈ visited → motive visited waiting →
      motive visited (g :: waiting))
    (new : ∀ visited g waiting, g ∉ visited →
      motive (g :: visited) (waiting ++ (groups.parent? o g).toList) →
        motive visited (g :: waiting))
    (visited waiting : List String) : motive visited waiting := by
  fun_induction climb groups o visited waiting with
  | case1 visited => exact nil visited
  | case2 visited g waiting hg ih => exact known visited g waiting hg ih
  | case3 visited g waiting hg p hp _ ih =>
    refine new visited g waiting hg ?_
    rw [hp]
    exact ih
  | case4 visited g waiting hg hp _ ih =>
    refine new visited g waiting hg ?_
    rw [hp, Option.toList_none, List.append_nil]
    exact ih

/-! ## The walk visits what counts -/

theorem counts_of_mem_climb {visited waiting : List String} {x : String}
    (hx : x ∈ climb groups o visited waiting) : Counts groups o waiting .inherited x := by
  induction visited, waiting using turn_induction groups o with
  | nil visited =>
    rw [climb_nil] at hx
    cases hx
  | known visited g waiting hg ih =>
    rw [climb_cons_of_mem hg] at hx
    exact (ih hx).of_subset fun y hy => .member (.tail g hy)
  | new visited g waiting hg ih =>
    have hcounts : Counts groups o (g :: waiting) .inherited g := .member (.head waiting)
    rw [climb_cons_of_not_mem hg] at hx
    rcases List.mem_cons.1 hx with rfl | hx
    · exact hcounts
    · refine (ih hx).of_subset fun y hy => ?_
      rcases List.mem_append.1 hy with hy | hy
      · exact .member (.tail g hy)
      · exact .above rfl hcounts (Option.mem_toList.1 hy)

/-- The parents of visited groups were visited or wait. -/
def ParentsKnown (groups : GroupTable) (o : OrganizationId) (visited waiting : List String) :
    Prop :=
  ∀ g ∈ visited, ∀ p, groups.parent? o g = some p → p ∈ visited ∨ p ∈ waiting

theorem not_counts_nil {traversal : GroupTraversal} {x : String} :
    ¬ Counts groups o [] traversal x := by
  intro h
  induction h with
  | member belongs => cases belongs
  | above _ _ _ ih => exact ih

/-- Whatever counts is either done or counts because of a group that waits. -/
theorem Counts.split {done xs ys : List String} {traversal : GroupTraversal} {x : String}
    (hxs : ∀ y ∈ xs, y ∈ done ∨ y ∈ ys) (known : ParentsKnown groups o done ys)
    (h : Counts groups o xs traversal x) : x ∈ done ∨ Counts groups o ys traversal x := by
  induction h with
  | member belongs => exact (hxs _ belongs).imp_right .member
  | above inherited _ parent ih =>
    rcases ih with hdone | hcounts
    · exact (known _ hdone _ parent).imp_right .member
    · exact .inr (.above inherited hcounts parent)

theorem ParentsKnown.skip {visited waiting : List String} {g : String} (hg : g ∈ visited)
    (known : ParentsKnown groups o visited (g :: waiting)) :
    ParentsKnown groups o visited waiting := by
  intro y hy p hp
  rcases known y hy p hp with h | h
  · exact .inl h
  · rcases List.mem_cons.1 h with rfl | h
    · exact .inl hg
    · exact .inr h

/-- A turn leaves the parent of the group it visits behind those that wait. -/
theorem ParentsKnown.visit {visited waiting : List String} {g : String}
    (known : ParentsKnown groups o visited (g :: waiting)) :
    ParentsKnown groups o (g :: visited) (waiting ++ (groups.parent? o g).toList) := by
  intro y hy p hp
  rcases List.mem_cons.1 hy with rfl | hy
  · exact .inr (List.mem_append_right waiting (Option.mem_toList.2 hp))
  · rcases known y hy p hp with h | h
    · exact .inl (.tail g h)
    · rcases List.mem_cons.1 h with rfl | h
      · exact .inl (.head visited)
      · exact .inr (List.mem_append_left _ h)

theorem mem_climb_of_counts {visited waiting : List String} {x : String}
    (known : ParentsKnown groups o visited waiting)
    (h : Counts groups o waiting .inherited x) :
    x ∈ visited ∨ x ∈ climb groups o visited waiting := by
  induction visited, waiting using turn_induction groups o with
  | nil visited => exact absurd h not_counts_nil
  | known visited g waiting hg ih =>
    have hxs : ∀ y ∈ g :: waiting, y ∈ visited ∨ y ∈ waiting := by
      intro y hy
      rcases List.mem_cons.1 hy with rfl | hy
      · exact .inl hg
      · exact .inr hy
    rw [climb_cons_of_mem hg]
    exact (h.split hxs (known.skip hg)).elim .inl (ih (known.skip hg))
  | new visited g waiting hg ih =>
    have hxs : ∀ y ∈ g :: waiting,
        y ∈ g :: visited ∨ y ∈ waiting ++ (groups.parent? o g).toList := by
      intro y hy
      rcases List.mem_cons.1 hy with rfl | hy
      · exact .inl (.head visited)
      · exact .inr (List.mem_append_left _ hy)
    rw [climb_cons_of_not_mem hg, List.mem_cons, or_left_comm, ← or_assoc, ← List.mem_cons]
    exact (h.split hxs known.visit).elim .inl (ih known.visit)

/-- The groups that are read for a principal are those that count. -/
theorem mem_reached_iff {memberships : List String} {traversal : GroupTraversal} {g : String} :
    g ∈ groups.reached o memberships traversal ↔ Counts groups o memberships traversal g := by
  cases traversal with
  | direct =>
    refine ⟨.member, fun h => ?_⟩
    cases h with
    | member belongs => exact belongs
    | above inherited => cases inherited
  | inherited =>
    refine ⟨counts_of_mem_climb, fun h => ?_⟩
    have known : ParentsKnown groups o [] memberships := fun y hy => by cases hy
    exact (mem_climb_of_counts known h).resolve_left List.not_mem_nil

end TenantAccess.GroupTable
