import TenantAccess.Authorizer

/-!
# What the operations of the cache do

Looking up keeps the entries, storing adds one of the current generation, and an invalidation
removes the entries it covers. The generation of a principal changes with invalidations only, and
grows with every one that covers it.
-/
namespace TenantAccess

/-- The invalidation concerns the principal: its own, its organization's or that of everything. -/
def Invalidation.Covers (i : Invalidation) (p : Principal) : Prop :=
  i = .principal p ∨ i = .organization p.organization ∨ i = .all

/-- The invalidation is one of everything, of the organization or of a principal in it. -/
def Invalidation.touches (o : OrganizationId) : Invalidation → Bool
  | .principal p => p.organization = o
  | .organization o' => o' = o
  | .all => true

theorem Invalidation.Covers.touches {i : Invalidation} {p : Principal} (h : i.Covers p) :
    i.touches p.organization = true := by
  rcases h with rfl | rfl | rfl <;> simp [Invalidation.touches]

namespace GrantCache

variable {c : GrantCache} {p q : Principal} {g : PreparedGrants} {n : Nat} {i : Invalidation}
  {e : Principal × PreparedGrants}

theorem mem_without_iff {entries : List (Principal × PreparedGrants)} :
    e ∈ without p entries ↔ e ∈ entries ∧ e.1 ≠ p := by
  simp [without]

/-! ## Entries -/

theorem mem_of_get (h : (c.get p).1 = some g) : (p, g) ∈ c.entries := by
  simp only [get] at h
  split at h
  · rename_i found hfound
    cases h
    exact Table.mem_of_find hfound
  · cases h

theorem mem_of_mem_get (h : e ∈ (c.get p).2.entries) : e ∈ c.entries := by
  simp only [get] at h
  split at h
  · rename_i found hfound
    rcases List.mem_cons.1 h with rfl | h
    · exact Table.mem_of_find hfound
    · exact (mem_without_iff.1 h).1
  · exact h

/-- An entry is an old one, or the grants that were stored at the current generation. -/
theorem mem_of_mem_put (h : e ∈ (c.put p g n).2.entries) :
    e ∈ c.entries ∨ e = (p, g) ∧ c.generation p = n := by
  simp only [put] at h
  split at h
  · rename_i haccepts
    simp only [accepts, Bool.and_eq_true, beq_iff_eq] at haccepts
    rcases List.mem_cons.1 (List.mem_of_mem_take h) with rfl | h
    · exact .inr ⟨rfl, haccepts.2⟩
    · exact .inl (mem_without_iff.1 h).1
  · exact .inl h

theorem mem_invalidate_iff :
    e ∈ (c.invalidate i).entries ↔ e ∈ c.entries ∧ ¬ i.Covers e.1 := by
  cases i with
  | principal p =>
    have hcovers : (Invalidation.principal p).Covers e.1 ↔ e.1 = p := by
      simp [Invalidation.Covers, eq_comm]
    rw [hcovers]
    exact mem_without_iff
  | organization o =>
    have hcovers : (Invalidation.organization o).Covers e.1 ↔ e.1.organization = o := by
      simp [Invalidation.Covers, eq_comm]
    rw [hcovers]
    simp [invalidate, invalidateOrganization]
  | all =>
    have hcovers : Invalidation.all.Covers e.1 := .inr (.inr rfl)
    simp [invalidate, clear, hcovers]

/-! ## Generations -/

@[simp] theorem generation_get : (c.get p).2.generation q = c.generation q := by
  simp only [get]
  split <;> rfl

@[simp] theorem generation_put : (c.put p g n).2.generation q = c.generation q := by
  simp only [put]
  split <;> rfl

theorem bumpsOf_bump (o o' : OrganizationId) :
    (c.bump o).bumpsOf o' = if o = o' then c.bumpsOf o + 1 else c.bumpsOf o' := by
  simp only [bumpsOf, bump, Table.get?_set]
  split <;> rfl

theorem generation_bump (o : OrganizationId) :
    (c.bump o).generation p =
      if o = p.organization then c.generation p + 1 else c.generation p := by
  have hbumps := c.bumpsOf_bump o p.organization
  simp only [generation, hbumps]
  split
  · rename_i ho
    subst ho
    rfl
  · rfl

/-- An invalidation moves the generation of the principals of one organization, or of all. -/
theorem generation_invalidate :
    (c.invalidate i).generation p =
      c.generation p + if i.touches p.organization then 1 else 0 := by
  cases i with
  | principal q =>
    have h : (c.invalidate (.principal q)).generation p = (c.bump q.organization).generation p := rfl
    rw [h, generation_bump, Invalidation.touches]
    simp only [decide_eq_true_eq]
    split <;> rfl
  | organization o =>
    have h : (c.invalidate (.organization o)).generation p = (c.bump o).generation p := rfl
    rw [h, generation_bump, Invalidation.touches]
    simp only [decide_eq_true_eq]
    split <;> rfl
  | all =>
    have h : (c.invalidate .all).generation p = c.epoch + 1 + c.bumpsOf p.organization := rfl
    rw [h, generation, Invalidation.touches, if_pos rfl]
    omega

theorem le_generation_invalidate : c.generation p ≤ (c.invalidate i).generation p := by
  rw [generation_invalidate]
  exact Nat.le_add_right ..

theorem lt_generation_invalidate (covers : i.Covers p) :
    c.generation p < (c.invalidate i).generation p := by
  rw [generation_invalidate, if_pos covers.touches]
  exact Nat.lt_succ_self _

theorem generation_invalidate_le : (c.invalidate i).generation p ≤ c.generation p + 1 := by
  rw [generation_invalidate]
  split <;> omega

/-! ## What is found -/

@[simp] theorem capacity_get : (c.get p).2.capacity = c.capacity := by
  simp only [get]
  split <;> rfl

@[simp] theorem capacity_put : (c.put p g n).2.capacity = c.capacity := by
  simp only [put]
  split <;> rfl

@[simp] theorem capacity_invalidate : (c.invalidate i).capacity = c.capacity := by
  cases i <;> rfl

theorem exists_find_of_mem {entries : List (Principal × PreparedGrants)}
    (h : (p, g) ∈ entries) : ∃ g', Table.find p entries = some g' := by
  induction entries with
  | nil => cases h
  | cons e entries ih =>
    by_cases he : e.1 = p
    · exact ⟨e.2, by simp [Table.find, he]⟩
    · rcases List.mem_cons.1 h with rfl | h
      · exact absurd rfl he
      · simpa [Table.find, he] using ih h

theorem get_put (room : 0 < c.capacity) (accepted : c.accepts p g n = true) :
    ((c.put p g n).2.get p).1 = some g := by
  obtain ⟨k, hk⟩ : ∃ k, c.capacity = k + 1 := ⟨c.capacity - 1, by omega⟩
  simp [put, accepted, get, hk, Table.find]

/-- What was found is found again. -/
theorem get_get (h : (c.get p).1 = some g) : ((c.get p).2.get p).1 = some g := by
  simp only [get] at h
  split at h
  · rename_i found hfound
    cases h
    simp [get, hfound, Table.find]
  · cases h

theorem put_of_refused (refused : c.accepts p g n = false) : (c.put p g n).2 = c := by
  simp [put, refused]

theorem exists_get_of_mem (h : (p, g) ∈ c.entries) : ∃ g', (c.get p).1 = some g' := by
  obtain ⟨g', hg'⟩ := exists_find_of_mem h
  exact ⟨g', by simp [get, hg']⟩

end GrantCache

/-! ## The cache of an authorizer -/

namespace Authorizer

/-- The cache has those grants for the principal. -/
def Holds (a : Authorizer) (p : Principal) (g : PreparedGrants) : Prop :=
  ∃ c, a.cache = some c ∧ (p, g) ∈ c.entries

variable {a : Authorizer} {p q : Principal} {g g' : PreparedGrants} {i : Invalidation}
  {m n : Nat}

theorem lookup_cached {c : GrantCache} (h : a.cache = some c) (p : Principal) :
    a.lookup p = ((c.get p).1, { a with cache := some (c.get p).2 }) := by
  simp [lookup, h]

theorem holds_of_lookup (h : (a.lookup p).1 = some g) : a.Holds p g := by
  cases hc : a.cache with
  | none => simp [lookup, hc] at h
  | some c =>
    rw [lookup_cached hc] at h
    exact ⟨c, hc, GrantCache.mem_of_get h⟩

theorem holds_of_holds_lookup (h : (a.lookup p).2.Holds q g) : a.Holds q g := by
  obtain ⟨c', hc', hmem⟩ := h
  cases hc : a.cache with
  | none => simp [lookup, hc] at hc'
  | some c =>
    rw [lookup_cached hc] at hc'
    cases hc'
    exact ⟨c, hc, GrantCache.mem_of_mem_get hmem⟩

@[simp] theorem generation?_lookup : (a.lookup p).2.generation? q = a.generation? q := by
  cases hc : a.cache with
  | none => simp [lookup, hc]
  | some c => simp [lookup_cached hc, generation?, hc]

theorem remember_cached {c : GrantCache} (h : a.cache = some c) (p : Principal)
    (g : PreparedGrants) (n : Nat) :
    (a.remember p g (some n)).1 = { a with cache := some (c.put p g n).2 } := by
  simp [remember, h]

theorem remember_none (a : Authorizer) (p : Principal) (g : PreparedGrants) :
    (a.remember p g none).1 = a := by
  cases hc : a.cache <;> simp [remember, hc]

theorem remember_uncached (h : a.cache = none) (p : Principal) (g : PreparedGrants)
    (generation : Option Nat) : (a.remember p g generation).1 = a := by
  simp [remember, h]

/-- Grants are held because they were held before, or because they were offered with the current
generation. -/
theorem holds_of_holds_remember {generation : Option Nat}
    (h : (a.remember p g generation).1.Holds q g') :
    a.Holds q g' ∨ q = p ∧ g' = g ∧ ∃ n, generation = some n ∧ a.generation? p = some n := by
  cases generation with
  | none =>
    rw [remember_none] at h
    exact .inl h
  | some n =>
    cases hc : a.cache with
    | none =>
      rw [remember_uncached hc] at h
      exact .inl h
    | some c =>
      rw [remember_cached hc] at h
      obtain ⟨c', hc', hmem⟩ := h
      cases hc'
      rcases GrantCache.mem_of_mem_put hmem with hmem | ⟨he, hn⟩
      · exact .inl ⟨c, hc, hmem⟩
      · cases he
        exact .inr ⟨rfl, rfl, n, rfl, by rw [generation?, hc, ← hn]; rfl⟩

@[simp] theorem generation?_remember {generation : Option Nat} :
    (a.remember p g generation).1.generation? q = a.generation? q := by
  cases generation with
  | none => rw [remember_none]
  | some n =>
    cases hc : a.cache with
    | none => rw [remember_uncached hc]
    | some c => simp [remember_cached hc, generation?, hc]

@[simp] theorem remember_registry {generation : Option Nat} :
    (a.remember p g generation).1.registry = a.registry := by
  cases generation with
  | none => rw [remember_none]
  | some n => cases hc : a.cache <;> simp [remember, hc]

theorem holds_invalidate_iff : (a.invalidate i).Holds p g ↔ a.Holds p g ∧ ¬ i.Covers p := by
  cases hc : a.cache <;> simp [Holds, invalidate, hc, GrantCache.mem_invalidate_iff]

theorem generation?_invalidate (h : a.generation? p = some m) :
    ∃ n, (a.invalidate i).generation? p = some n ∧ m ≤ n ∧ n ≤ m + 1 ∧ (i.Covers p → m < n) := by
  cases hc : a.cache with
  | none => simp [generation?, hc] at h
  | some c =>
    simp only [generation?, hc, Option.map_some, Option.some.injEq] at h
    subst h
    refine ⟨(c.invalidate i).generation p, by simp [generation?, invalidate, hc], ?_⟩
    exact ⟨c.le_generation_invalidate, c.generation_invalidate_le, c.lt_generation_invalidate⟩

theorem generation?_of_invalidate (h : (a.invalidate i).generation? p = some n) :
    ∃ m, a.generation? p = some m := by
  cases hc : a.cache with
  | none => simp [generation?, invalidate, hc] at h
  | some c => exact ⟨c.generation p, by simp [generation?, hc]⟩

theorem not_holds_of_miss (miss : (a.lookup p).1 = none) : ¬ a.Holds p g := by
  rintro ⟨c, hc, hmem⟩
  obtain ⟨g', hg'⟩ := GrantCache.exists_get_of_mem hmem
  rw [lookup_cached hc, hg'] at miss
  cases miss

theorem lookup_lookup (h : (a.lookup p).1 = some g) : ((a.lookup p).2.lookup p).1 = some g := by
  cases hc : a.cache with
  | none => simp [lookup, hc] at h
  | some c =>
    rw [lookup_cached hc] at h ⊢
    rw [lookup_cached rfl]
    exact GrantCache.get_get h

/-- Complete grants that were read without an invalidation meanwhile are found afterwards. -/
theorem lookup_remember {c : GrantCache} (h : a.cache = some c) (room : 0 < c.capacity)
    (complete : g.isComplete = true) :
    ((a.remember p g (a.generation? p)).1.lookup p).1 = some g := by
  have hgeneration : a.generation? p = some (c.generation p) := by simp [generation?, h]
  have haccepts : c.accepts p g (c.generation p) = true := by
    simp [GrantCache.accepts, complete]
  rw [hgeneration, remember_cached h, lookup_cached rfl]
  exact GrantCache.get_put room haccepts

theorem remember_incomplete {generation : Option Nat} (incomplete : g.isComplete = false) :
    (a.remember p g generation).1 = a := by
  cases generation with
  | none => exact a.remember_none p g
  | some n =>
    cases hc : a.cache with
    | none => exact remember_uncached hc p g (some n)
    | some c =>
      have hrefused : c.accepts p g n = false := by simp [GrantCache.accepts, incomplete]
      rw [remember_cached hc, GrantCache.put_of_refused hrefused, ← hc]

/-! ## Room -/

/-- The cache, if there is one, has room for an entry. A configured one has, and calls keep it. -/
def HasRoom (a : Authorizer) : Prop := ∀ c, a.cache = some c → 0 < c.capacity

theorem hasRoom_ofConfig [Pattern.Engine] {config : Config} (h : ofConfig config = .ok a) :
    a.HasRoom := by
  intro c hc
  simp only [ofConfig] at h
  cases hchecked : config.checked with
  | error e =>
    rw [hchecked] at h
    cases h
  | ok checked =>
    rw [hchecked] at h
    cases h
    simp only [Option.ite_none_right_eq_some] at hc
    obtain ⟨-, hc⟩ := hc
    cases hc
    exact Nat.le_max_right _ 1

theorem HasRoom.invalidate (h : a.HasRoom) : (a.invalidate i).HasRoom := by
  intro c hc
  obtain ⟨c', hc', rfl⟩ := Option.map_eq_some_iff.1 hc
  rw [GrantCache.capacity_invalidate]
  exact h c' hc'

theorem HasRoom.lookup (h : a.HasRoom) : (a.lookup p).2.HasRoom := by
  intro c hc
  cases ha : a.cache with
  | none => simp [Authorizer.lookup, ha] at hc
  | some c' =>
    rw [lookup_cached ha] at hc
    cases hc
    rw [GrantCache.capacity_get]
    exact h c' ha

theorem HasRoom.remember {generation : Option Nat} (h : a.HasRoom) :
    (a.remember p g generation).1.HasRoom := by
  cases generation with
  | none =>
    rw [remember_none]
    exact h
  | some n =>
    cases ha : a.cache with
    | none =>
      rw [remember_uncached ha]
      exact h
    | some c' =>
      rw [remember_cached ha]
      intro c hc
      cases hc
      rw [GrantCache.capacity_put]
      exact h c' ha

end Authorizer

end TenantAccess
