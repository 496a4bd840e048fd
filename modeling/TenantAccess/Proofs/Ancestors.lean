import TenantAccess.Proofs.FirstOccurrences
import TenantAccess.Proofs.Membership
import TenantAccess.Store

/-!
# The groups above, the nearest first

With inherited membership the walk goes from level to level: of the groups that wait it visits those
that it has not visited, and then their parents wait in the same order. So it finds the groups that
are reached from a membership over links to a parent, each of them once and the nearest first. A
turn of the walk either visits a group that exists for the first time or leaves one less waiting,
hence the walk ends, whatever circles the links form.
-/
namespace TenantAccess

namespace GroupTable

/-- A group is reached from a membership over that many links from a group that exists to its
parent. -/
inductive ReachedIn (groups : GroupTable) (o : OrganizationId) (memberships : List String) :
    Nat → String → Prop
  | member {g : String} (belongs : g ∈ memberships) : ReachedIn groups o memberships 0 g
  | above {n : Nat} {g p : String} {group : Group} (below : ReachedIn groups o memberships n g)
      (found : groups.get? (o, g) = some group) (link : group.parent = some p) :
      ReachedIn groups o memberships (n + 1) p

/-- The groups are those reached from the memberships, each of them once. They stand in the order of
their distance from the nearest membership, the memberships themselves as they first occur. -/
structure NearestFirst (groups : GroupTable) (o : OrganizationId)
    (memberships found : List String) : Prop where
  mem_iff : ∀ g, g ∈ found ↔ ∃ n, groups.ReachedIn o memberships n g
  nodup : found.Nodup
  inOrder : found.Pairwise fun a b => ∀ n, groups.ReachedIn o memberships n b →
    ∃ m ≤ n, groups.ReachedIn o memberships m a
  members_first : ∃ own above, found = own ++ above ∧ KeepsFirsts id memberships own ∧
    ∀ g ∈ above, g ∉ memberships

variable {groups : GroupTable} {o : OrganizationId} {memberships visited waiting : List String}
  {g p : String} {n : Nat}

/-! ## Level by level -/

/-- It does not matter in which order the groups were visited. -/
theorem climb_visited_congr {visited' : List String} (h : ∀ g, g ∈ visited ↔ g ∈ visited')
    (waiting : List String) : climb groups o visited waiting = climb groups o visited' waiting := by
  induction visited, waiting using turn_induction groups o generalizing visited' with
  | nil visited => rw [climb_nil, climb_nil]
  | known visited g waiting hg ih =>
    rw [climb_cons_of_mem hg, climb_cons_of_mem ((h g).1 hg), ih h]
  | new visited g waiting hg ih =>
    have hcons : ∀ k, k ∈ g :: visited ↔ k ∈ g :: visited' := fun k => by simp [h k]
    rw [climb_cons_of_not_mem hg, climb_cons_of_not_mem fun hg' => hg ((h g).2 hg'), ih hcons]

/-- Of the groups that wait in front those that are new are visited, and their parents wait behind
all others. -/
theorem climb_append (visited xs waiting : List String) :
    climb groups o visited (xs ++ waiting) =
      distinctBy id visited xs ++ climb groups o (xs ++ visited)
        (waiting ++ (distinctBy id visited xs).filterMap (groups.parent? o)) := by
  induction xs generalizing visited waiting with
  | nil => simp [distinctBy]
  | cons x xs ih =>
    by_cases hx : x ∈ visited
    · have hvisited : ∀ g, g ∈ xs ++ visited ↔ g ∈ x :: xs ++ visited := by
        intro g
        by_cases hg : g = x <;> simp [hg, hx]
      rw [List.cons_append, climb_cons_of_mem hx, ih, distinctBy, id, if_pos hx,
        climb_visited_congr hvisited]
    · have hvisited : ∀ g, g ∈ xs ++ x :: visited ↔ g ∈ x :: xs ++ visited := by
        intro g
        simp [or_left_comm]
      have hparents : (groups.parent? o x).toList ++
          (distinctBy id (x :: visited) xs).filterMap (groups.parent? o) =
            (x :: distinctBy id (x :: visited) xs).filterMap (groups.parent? o) := by
        cases hp : groups.parent? o x <;> simp [hp]
      rw [List.cons_append, climb_cons_of_not_mem hx, List.append_assoc, ih, List.append_assoc,
        hparents, distinctBy, id, if_neg hx, climb_visited_congr hvisited, List.cons_append,
        List.cons_append]

theorem climb_level (visited waiting : List String) :
    climb groups o visited waiting =
      distinctBy id visited waiting ++ climb groups o (waiting ++ visited)
        ((distinctBy id visited waiting).filterMap (groups.parent? o)) := by
  have h : climb groups o visited (waiting ++ []) = _ := climb_append visited waiting []
  rwa [List.append_nil, List.nil_append] at h

theorem not_mem_visited_of_mem_climb (hg : g ∈ climb groups o visited waiting) : g ∉ visited := by
  induction visited, waiting using turn_induction groups o with
  | nil visited =>
    rw [climb_nil] at hg
    cases hg
  | known visited x waiting hx ih =>
    rw [climb_cons_of_mem hx] at hg
    exact ih hg
  | new visited x waiting hx ih =>
    rw [climb_cons_of_not_mem hx] at hg
    rcases List.mem_cons.1 hg with rfl | hg
    · exact hx
    · exact fun hmem => ih hg (.tail x hmem)

theorem nodup_climb (visited waiting : List String) :
    (climb groups o visited waiting).Nodup := by
  induction visited, waiting using turn_induction groups o with
  | nil visited =>
    rw [climb_nil]
    exact .nil
  | known visited x waiting hx ih =>
    rw [climb_cons_of_mem hx]
    exact ih
  | new visited x waiting hx ih =>
    rw [climb_cons_of_not_mem hx]
    exact List.nodup_cons.2 ⟨fun hmem => not_mem_visited_of_mem_climb hmem (.head visited), ih⟩

/-! ## Distances -/

theorem ReachedIn.parent (below : groups.ReachedIn o memberships n g)
    (link : groups.parent? o g = some p) : groups.ReachedIn o memberships (n + 1) p := by
  obtain ⟨group, hfound, hlink⟩ := Option.bind_eq_some_iff.1 link
  exact .above below hfound hlink

theorem reachedIn_succ_iff : groups.ReachedIn o memberships (n + 1) p ↔
    ∃ g, groups.ReachedIn o memberships n g ∧ groups.parent? o g = some p := by
  constructor
  · rintro (_ | ⟨hbelow, hfound, hlink⟩)
    exact ⟨_, hbelow, Option.bind_eq_some_iff.2 ⟨_, hfound, hlink⟩⟩
  · rintro ⟨g, hbelow, hlink⟩
    exact hbelow.parent hlink

theorem counts_inherited_iff :
    Counts groups o memberships .inherited g ↔ ∃ n, groups.ReachedIn o memberships n g := by
  constructor
  · intro h
    induction h with
    | member belongs => exact ⟨0, .member belongs⟩
    | above _ _ link ih =>
      obtain ⟨n, hn⟩ := ih
      exact ⟨n + 1, hn.parent link⟩
  · rintro ⟨n, hn⟩
    induction hn with
    | member belongs => exact .member belongs
    | above _ found link ih => exact .above rfl ih (Option.bind_eq_some_iff.2 ⟨_, found, link⟩)

/-- The walk has visited the groups at distances below `n`, and those that wait are at hand to
visit the ones at distance `n`. -/
structure Level (groups : GroupTable) (o : OrganizationId) (memberships : List String) (n : Nat)
    (visited waiting : List String) : Prop where
  visited_iff : ∀ g, g ∈ visited ↔ ∃ m < n, groups.ReachedIn o memberships m g
  reached : ∀ g ∈ waiting, groups.ReachedIn o memberships n g
  covered : ∀ g, groups.ReachedIn o memberships n g → g ∈ visited ∨ g ∈ waiting

theorem level_zero : Level groups o memberships 0 [] memberships where
  visited_iff g := by simp
  reached g hg := .member hg
  covered g hg := by
    cases hg with
    | member belongs => exact .inr belongs

theorem Level.next (h : Level groups o memberships n visited waiting) :
    Level groups o memberships (n + 1) (waiting ++ visited)
      ((distinctBy id visited waiting).filterMap (groups.parent? o)) := by
  have hvisited : ∀ g, g ∈ waiting ++ visited ↔
      ∃ m < n + 1, groups.ReachedIn o memberships m g := by
    intro g
    rw [List.mem_append]
    constructor
    · rintro (hg | hg)
      · exact ⟨n, Nat.lt_succ_self n, h.reached g hg⟩
      · obtain ⟨m, hm, hreached⟩ := (h.visited_iff g).1 hg
        exact ⟨m, Nat.lt_succ_of_lt hm, hreached⟩
    · rintro ⟨m, hm, hreached⟩
      rcases Nat.lt_succ_iff_lt_or_eq.1 hm with hm | rfl
      · exact .inr ((h.visited_iff g).2 ⟨m, hm, hreached⟩)
      · exact (h.covered g hreached).symm
  refine ⟨hvisited, fun p hp => ?_, fun p hp => ?_⟩
  · obtain ⟨g, hg, hlink⟩ := List.mem_filterMap.1 hp
    exact (h.reached g (mem_distinctBy_id.1 hg).1).parent hlink
  · obtain ⟨g, hbelow, hlink⟩ := reachedIn_succ_iff.1 hp
    by_cases hg : g ∈ visited
    · -- the group was visited at a smaller distance, so its parent is at hand already
      obtain ⟨m, hm, hreached⟩ := (h.visited_iff g).1 hg
      exact .inl ((hvisited p).2 ⟨m + 1, Nat.succ_lt_succ hm, hreached.parent hlink⟩)
    · have hwaits : g ∈ waiting := (h.covered g hbelow).resolve_left hg
      exact .inr (List.mem_filterMap.2 ⟨g, mem_distinctBy_id.2 ⟨hwaits, hg⟩, hlink⟩)

/-- What is new among the groups that wait is at distance `n`. -/
theorem Level.distance (h : Level groups o memberships n visited waiting)
    (hg : g ∈ distinctBy id visited waiting) :
    groups.ReachedIn o memberships n g ∧ ∀ m, groups.ReachedIn o memberships m g → n ≤ m := by
  obtain ⟨hwaits, hnew⟩ := mem_distinctBy_id.1 hg
  refine ⟨h.reached g hwaits, fun m hm => Nat.le_of_not_lt fun hlt => ?_⟩
  exact hnew ((h.visited_iff g).2 ⟨m, hlt, hm⟩)

/-- From a level on the walk finds groups at that distance and beyond, in the order of their
distance. -/
theorem Level.climb_inOrder (h : Level groups o memberships n visited waiting) :
    (∀ g ∈ climb groups o visited waiting, ∀ m, groups.ReachedIn o memberships m g → n ≤ m) ∧
      (climb groups o visited waiting).Pairwise fun a b =>
        ∀ k, groups.ReachedIn o memberships k b → ∃ m ≤ k, groups.ReachedIn o memberships m a := by
  -- every level with new groups leaves a shorter walk
  induction hl : (climb groups o visited waiting).length using Nat.strongRecOn
    generalizing n visited waiting with
  | _ l ih =>
    rw [climb_level] at hl ⊢
    by_cases hnew : distinctBy id visited waiting = []
    · simp [hnew]
    · have hshorter : (climb groups o (waiting ++ visited)
          ((distinctBy id visited waiting).filterMap (groups.parent? o))).length < l := by
        have hpos : 0 < (distinctBy id visited waiting).length := List.length_pos_iff.2 hnew
        rw [List.length_append] at hl
        omega
      obtain ⟨hbeyond, hordered⟩ := ih _ hshorter h.next rfl
      have hfar : ∀ g ∈ distinctBy id visited waiting ++ climb groups o (waiting ++ visited)
          ((distinctBy id visited waiting).filterMap (groups.parent? o)),
            ∀ m, groups.ReachedIn o memberships m g → n ≤ m := by
        intro g hg m hm
        rcases List.mem_append.1 hg with hg | hg
        · exact (h.distance hg).2 m hm
        · exact Nat.le_of_succ_le (hbeyond g hg m hm)
      -- no group from here on is nearer than the new ones
      have hnear : ∀ a ∈ distinctBy id visited waiting, ∀ b ∈ distinctBy id visited waiting ++
          climb groups o (waiting ++ visited)
            ((distinctBy id visited waiting).filterMap (groups.parent? o)),
          ∀ k, groups.ReachedIn o memberships k b →
            ∃ m ≤ k, groups.ReachedIn o memberships m a := by
        intro a ha b hb k hk
        exact ⟨n, hfar b hb k hk, (h.distance ha).1⟩
      refine ⟨hfar, List.pairwise_append.2 ⟨?_, hordered, ?_⟩⟩
      · refine List.Pairwise.imp_of_mem (fun ha hb _ => ?_) (pairwise_distinctBy id visited waiting)
        exact hnear _ ha _ (List.mem_append_left _ hb)
      · intro a ha b hb
        exact hnear a ha b (List.mem_append_right _ hb)

theorem nearestFirst_climb (groups : GroupTable) (o : OrganizationId) (memberships : List String) :
    groups.NearestFirst o memberships (climb groups o [] memberships) where
  mem_iff g := by
    have hreached : g ∈ groups.reached o memberships .inherited ↔ _ := mem_reached_iff
    rw [← counts_inherited_iff]
    exact hreached
  nodup := nodup_climb [] memberships
  inOrder := level_zero.climb_inOrder.2
  members_first := by
    refine ⟨_, _, climb_level [] memberships, keepsFirsts_distinctBy id memberships, ?_⟩
    intro g hg hmember
    exact not_mem_visited_of_mem_climb hg (List.mem_append_left [] hmember)

/-! ## The walk ends -/

/-- How far a walk has come: the groups that it has visited, the first one first, and those that
wait. -/
structure Walk where
  visited : List String
  waiting : List String

namespace Walk

/-- A turn takes the first group that waits. -/
inductive Turn (groups : GroupTable) (o : OrganizationId) : Walk → Walk → Prop
  | skip {visited waiting : List String} {g : String} (known : g ∈ visited) :
      Turn groups o ⟨visited, g :: waiting⟩ ⟨visited, waiting⟩
  | visit {visited waiting : List String} {g : String} (new : g ∉ visited) :
      Turn groups o ⟨visited, g :: waiting⟩
        ⟨visited ++ [g], waiting ++ (groups.parent? o g).toList⟩

/-- So many turns, one after the other. -/
inductive Turns (groups : GroupTable) (o : OrganizationId) : Nat → Walk → Walk → Prop
  | nil {w : Walk} : Turns groups o 0 w w
  | cons {n : Nat} {w w' w'' : Walk} (turn : Turn groups o w w') (rest : Turns groups o n w' w'') :
      Turns groups o (n + 1) w w''

/-- What is left to do: the groups that exist and were not visited, and those that wait. -/
def remaining (groups : GroupTable) (o : OrganizationId) (w : Walk) : Nat :=
  (groups.unvisited o w.visited).length + w.waiting.length

/-- What the walk will have visited in the end. -/
def outcome (groups : GroupTable) (o : OrganizationId) (w : Walk) : List String :=
  w.visited ++ groups.climb o w.visited w.waiting

variable {w w' : Walk}

theorem exists_turn (groups : GroupTable) (o : OrganizationId) (waits : w.waiting ≠ []) :
    ∃ w', Turn groups o w w' := by
  obtain ⟨visited, _ | ⟨g, waiting⟩⟩ := w
  · exact absurd rfl waits
  · by_cases hg : g ∈ visited
    · exact ⟨_, .skip hg⟩
    · exact ⟨_, .visit hg⟩

theorem Turn.remaining_lt (turn : Turn groups o w w') :
    w'.remaining groups o < w.remaining groups o := by
  cases turn with
  | skip known => simp [remaining]
  | @visit visited waiting g new =>
    have hunvisited : groups.unvisited o (visited ++ [g]) = groups.unvisited o (g :: visited) := by
      simp [unvisited, or_comm]
    simp only [remaining, hunvisited, List.length_append, List.length_cons]
    cases hp : groups.parent? o g with
    | some p =>
      have hlt := unvisited_cons_lt hp new
      simp only [Option.toList_some, List.length_cons, List.length_nil]
      omega
    | none =>
      have hle := unvisited_cons_le groups o g visited
      simp only [Option.toList_none, List.length_nil]
      omega

theorem Turns.le_remaining (turns : Turns groups o n w w') :
    n + w'.remaining groups o ≤ w.remaining groups o := by
  induction turns with
  | nil => omega
  | cons turn _ ih =>
    have hlt := turn.remaining_lt
    omega

theorem Turn.outcome_eq (turn : Turn groups o w w') : w'.outcome groups o = w.outcome groups o := by
  cases turn with
  | skip known => simp only [outcome, climb_cons_of_mem known]
  | @visit visited waiting g new =>
    have hvisited : ∀ k, k ∈ visited ++ [g] ↔ k ∈ g :: visited := by
      intro k
      simp [or_comm]
    simp only [outcome, climb_cons_of_not_mem new, climb_visited_congr hvisited, List.append_assoc,
      List.singleton_append]

theorem Turns.outcome_eq (turns : Turns groups o n w w') :
    w'.outcome groups o = w.outcome groups o := by
  induction turns with
  | nil => rfl
  | cons turn _ ih => exact ih.trans turn.outcome_eq

/-- Turn after turn a walk comes to the point where nothing waits any more. -/
theorem exists_turns (groups : GroupTable) (o : OrganizationId) (w : Walk) :
    ∃ n, Turns groups o n w ⟨w.outcome groups o, []⟩ := by
  induction hr : w.remaining groups o using Nat.strongRecOn generalizing w with
  | _ r ih =>
    by_cases hwaits : w.waiting = []
    · have hdone : w = ⟨w.outcome groups o, []⟩ := by
        obtain ⟨visited, waiting⟩ := w
        obtain rfl : waiting = [] := hwaits
        simp [outcome]
      exact ⟨0, by rw [← hdone]; exact .nil⟩
    · obtain ⟨w', hturn⟩ := exists_turn groups o hwaits
      obtain ⟨n, hturns⟩ := ih _ (hr ▸ hturn.remaining_lt) w' rfl
      rw [hturn.outcome_eq] at hturns
      exact ⟨n + 1, .cons hturn hturns⟩

end Walk

end GroupTable

/-- The group that the principal is added to. -/
def StoreChange.joined? (p : Principal) : StoreChange → Option String
  | .addToGroup q group => if q = p then some group else none
  | _ => none

namespace Store

open GroupTable

@[simp] theorem changeGroup_memberships (s : Store) (o : OrganizationId) (g : String)
    (f : Group → Group) : (s.changeGroup o g f).memberships = s.memberships := by
  simp only [changeGroup]
  split <;> rfl

theorem listed_enlist (t : Table Principal (List String)) (p q : Principal) (id : String) :
    listed (enlist t q id) p = listed t p ++ if q = p then [id] else [] := by
  by_cases hq : q = p
  · subst hq
    simp [listed, enlist]
  · simp [listed, enlist, Table.get?_set_of_ne _ hq, hq]

theorem listed_memberships_change (s : Store) (p : Principal) (c : StoreChange) :
    listed (s.change c).memberships p = listed s.memberships p ++ (c.joined? p).toList := by
  cases c with
  | addToGroup q group =>
    rw [change, listed_enlist, StoreChange.joined?]
    split <;> rfl
  | assignRoleToGroup o group role => simp [change, StoreChange.joined?]
  | attachPolicyToGroup o group policy => simp [change, StoreChange.joined?]
  | _ => exact (List.append_nil _).symm

/-- A principal's memberships are listed in the order in which they were added. -/
theorem listed_memberships_changes (s : Store) (p : Principal) (cs : List StoreChange) :
    listed (cs.foldl change s).memberships p =
      listed s.memberships p ++ cs.filterMap (StoreChange.joined? p) := by
  induction cs generalizing s with
  | nil => simp
  | cons c cs ih =>
    rw [List.foldl_cons, ih, listed_memberships_change, List.append_assoc]
    cases hc : c.joined? p <;> simp [hc]

/-- Under inherited membership a walk takes at most one turn for each membership of the principal and
one for each group of its organization, and from wherever it has come it goes on to its end. What it
has visited then are the groups reached from the memberships, each of them once and the nearest
first; the memberships stand as they were first added. -/
theorem groupsOf_inherited (s : Store) (p : Principal) :
    s.groups.NearestFirst p.organization (listed s.memberships p) (s.groupsOf p .inherited) ∧
      (∀ n w, Walk.Turns s.groups p.organization n ⟨[], listed s.memberships p⟩ w →
        n ≤ (s.groups.unvisited p.organization []).length + (listed s.memberships p).length ∧
          ∃ m, Walk.Turns s.groups p.organization m w ⟨s.groupsOf p .inherited, []⟩) ∧
      ∀ cs : List StoreChange, listed (cs.foldl change s).memberships p =
        listed s.memberships p ++ cs.filterMap (StoreChange.joined? p) := by
  refine ⟨nearestFirst_climb .., fun n w turns => ⟨?_, ?_⟩, s.listed_memberships_changes p⟩
  · exact Nat.le_of_add_right_le turns.le_remaining
  · obtain ⟨m, hturns⟩ := Walk.exists_turns s.groups p.organization w
    rw [turns.outcome_eq] at hturns
    exact ⟨m, hturns⟩

/-! ## A circle of groups -/

namespace Circle

def member : Principal := ⟨"acme", .user, "ada"⟩

/-- Two groups are parents of each other, and a third one names a parent that does not exist. -/
def changes : List StoreChange := [
  .createGroup "acme" "red" (some "blue"),
  .createGroup "acme" "blue" (some "red"),
  .createGroup "acme" "green" (some "ghost"),
  .addToGroup member "red",
  .addToGroup member "green",
  .addToGroup member "red"]

def store : Store := changes.foldl Store.change {}

theorem groupsOf_member :
    store.groupsOf member .inherited = ["red", "green", "blue", "ghost"] := by
  decide +kernel

end Circle

theorem groupsOf_inherited_circle :
    ∃ n, Walk.Turns Circle.store.groups "acme" n ⟨[], ["red", "green", "red"]⟩
      ⟨["red", "green", "blue", "ghost"], []⟩ := by
  have hends := ((groupsOf_inherited Circle.store Circle.member).2.1 0 _ .nil).2
  rw [Circle.groupsOf_member] at hends
  exact hends

end Store

end TenantAccess
