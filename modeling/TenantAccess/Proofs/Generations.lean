import TenantAccess.Proofs.CacheSteps

/-!
# What a generation tells

A generation is the sum of two counters, and each invalidation that touches the organization moves
one of them by one. So over any use of the cache it grows by the number of those invalidations, and
it is the same again exactly if there were none. Grants that are offered with a generation read
before are stored exactly if they are complete and their organization was not touched meanwhile.
-/
namespace TenantAccess

/-- Something done with a cache. Reading a generation or the size leaves it as it is. -/
inductive CacheUse where
  | get (p : Principal)
  | put (p : Principal) (g : PreparedGrants) (generation : Nat)
  | invalidate (i : Invalidation)

namespace CacheUse

def touches (o : OrganizationId) : CacheUse → Bool
  | .invalidate i => i.touches o
  | _ => false

def invalidates : CacheUse → Bool
  | .invalidate _ => true
  | _ => false

theorem invalidates_of_touches {o : OrganizationId} {u : CacheUse} (h : u.touches o = true) :
    u.invalidates = true := by
  cases u with
  | invalidate i => rfl
  | _ => cases h

end CacheUse

/-- The cache was not cleared, and nothing was invalidated within the organization. -/
structure Undisturbed (o : OrganizationId) (us : List CacheUse) : Prop where
  everything : .invalidate .all ∉ us
  organization : .invalidate (.organization o) ∉ us
  principals : ∀ p : Principal, p.organization = o → .invalidate (.principal p) ∉ us

theorem undisturbed_iff {o : OrganizationId} {us : List CacheUse} :
    Undisturbed o us ↔ ∀ u ∈ us, ¬ u.touches o = true := by
  constructor
  · intro h u hu htouches
    cases u with
    | get p => cases htouches
    | put p g n => cases htouches
    | invalidate i =>
      cases i with
      | principal p => exact h.principals p (of_decide_eq_true htouches) hu
      | organization o' =>
        obtain rfl : o' = o := of_decide_eq_true htouches
        exact h.organization hu
      | all => exact h.everything hu
  · intro h
    refine ⟨fun hu => h _ hu rfl, fun hu => h _ hu (decide_eq_true rfl), ?_⟩
    intro p hp hu
    exact h _ hu (decide_eq_true hp)

namespace GrantCache

/-- The cache after a use of it. -/
def use (c : GrantCache) : CacheUse → GrantCache
  | .get p => (c.get p).2
  | .put p g generation => (c.put p g generation).2
  | .invalidate i => c.invalidate i

variable {c : GrantCache} {p : Principal} {g : PreparedGrants} {n : Nat} {us : List CacheUse}

/-! ## Generations count invalidations -/

theorem generation_use (u : CacheUse) :
    (c.use u).generation p = c.generation p + if u.touches p.organization then 1 else 0 := by
  cases u with
  | get q => exact generation_get
  | put q g n => exact generation_put
  | invalidate i => exact generation_invalidate

theorem generation_uses (us : List CacheUse) :
    (us.foldl use c).generation p =
      c.generation p + us.countP (CacheUse.touches p.organization) := by
  induction us generalizing c with
  | nil => rfl
  | cons u us ih =>
    rw [List.foldl_cons, ih, generation_use, List.countP_cons]
    omega

/-- Both counters only grow, so the sum tells whether one of them moved. -/
theorem generation_uses_eq_iff :
    (us.foldl use c).generation p = c.generation p ↔ Undisturbed p.organization us := by
  rw [generation_uses, Nat.add_eq_left, List.countP_eq_zero, undisturbed_iff]

theorem generation_le_invalidations (capacity : Nat) (us : List CacheUse) (p : Principal) :
    (us.foldl use (ofCapacity capacity)).generation p ≤ us.countP CacheUse.invalidates := by
  have hnew : (ofCapacity capacity).generation p = 0 := rfl
  rw [generation_uses, hnew, Nat.zero_add]
  exact List.countP_mono_left fun _ _ => CacheUse.invalidates_of_touches

/-! ## What a cache keeps to -/

/-- There is room for an entry, and all entries were read from all sources. -/
structure Sound (c : GrantCache) : Prop where
  room : 0 < c.capacity
  complete : ∀ e ∈ c.entries, e.2.isComplete = true

theorem sound_ofCapacity (capacity : Nat) : (ofCapacity capacity).Sound where
  room := Nat.le_max_right capacity 1
  complete _ he := nomatch he

theorem Sound.put (h : c.Sound) : (c.put p g n).2.Sound := by
  cases haccepts : c.accepts p g n with
  | false =>
    rw [put_of_refused haccepts]
    exact h
  | true =>
    refine ⟨by rw [capacity_put]; exact h.room, fun e he => ?_⟩
    rcases mem_of_mem_put he with he | ⟨rfl, -⟩
    · exact h.complete e he
    · exact (Bool.and_eq_true_iff.1 haccepts).1

theorem Sound.use (h : c.Sound) (u : CacheUse) : (c.use u).Sound := by
  cases u with
  | get q =>
    refine ⟨?_, fun e he => h.complete e (mem_of_mem_get he)⟩
    rw [GrantCache.use, capacity_get]
    exact h.room
  | put q g n => exact h.put
  | invalidate i =>
    refine ⟨?_, fun e he => h.complete e (mem_invalidate_iff.1 he).1⟩
    rw [GrantCache.use, capacity_invalidate]
    exact h.room

theorem Sound.uses (h : c.Sound) (us : List CacheUse) : (us.foldl GrantCache.use c).Sound := by
  induction us generalizing c with
  | nil => exact h
  | cons u us ih => exact ih (h.use u)

/-! ## What is stored -/

theorem put_fst : (c.put p g n).1 = c.accepts p g n := by
  cases haccepts : c.accepts p g n <;> simp [put, haccepts]

theorem accepts_iff : c.accepts p g n = true ↔ g.failures = [] ∧ c.generation p = n := by
  simp [accepts, PreparedGrants.isComplete]

/-- Grants that are offered with a generation read before are stored, and found, exactly if they
are complete and neither the whole cache nor anything of the principal's organization was
invalidated meanwhile; whatever else was done does not matter. A refusal leaves the cache as it is,
no cache holds grants of which a source failed, and no generation exceeds the number of
invalidations, so fewer than `2 ^ 64` of them fit in 64 bits. -/
theorem put_of_generation (capacity : Nat) (before between : List CacheUse) (p : Principal)
    (g : PreparedGrants) :
    let read := before.foldl use (ofCapacity capacity)
    let now := between.foldl use read
    let offered := now.put p g (read.generation p)
    (offered.1 = true ↔ g.failures = [] ∧ Undisturbed p.organization between) ∧
      (offered.1 = true ∧ (offered.2.get p).1 = some g ↔
        g.failures = [] ∧ Undisturbed p.organization between) ∧
      (∀ q g' n, (now.put q g' n).1 = true ∨ (now.put q g' n).2 = now) ∧
      (∀ e ∈ now.entries, e.2.failures = []) ∧
      ∀ q, now.generation q ≤ (before ++ between).countP CacheUse.invalidates := by
  intro read now offered
  have hsound : now.Sound := ((sound_ofCapacity capacity).uses before).uses between
  have hoffered : offered.1 = true ↔ g.failures = [] ∧ Undisturbed p.organization between := by
    rw [put_fst, accepts_iff, generation_uses_eq_iff]
  have hfound : offered.1 = true → (offered.2.get p).1 = some g := by
    intro haccepted
    rw [put_fst] at haccepted
    exact get_put hsound.room haccepted
  refine ⟨hoffered, ?_, ?_, ?_, ?_⟩
  · rw [and_iff_left_of_imp hfound]
    exact hoffered
  · intro q g' n
    cases haccepts : now.accepts q g' n with
    | false => exact .inr (put_of_refused haccepts)
    | true => exact .inl (put_fst.trans haccepts)
  · intro e he
    exact List.isEmpty_iff.1 (hsound.complete e he)
  · intro q
    have hnow : now = (before ++ between).foldl use (ofCapacity capacity) :=
      (List.foldl_append ..).symm
    rw [hnow]
    exact generation_le_invalidations capacity (before ++ between) q

/-- An invalidation for a colleague is enough to keep the grants out. -/
example :
    let empty := ofCapacity 1
    let now := empty.use (.invalidate (.principal ⟨"acme", .user, "carl"⟩))
    (now.put ⟨"acme", .user, "ada"⟩ {} (empty.generation ⟨"acme", .user, "ada"⟩)).1 = false := rfl

end GrantCache

end TenantAccess
