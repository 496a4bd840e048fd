import Mathlib.Data.List.Basic
import TenantAccess.Distinct
import TenantAccess.Proofs.Precedence

/-!
# First occurrences in their order

`KeepsFirsts` says what is left of a list when only the first element of every key is kept: which
elements those are, and that they stand in the order in which the keys first occur. `distinctBy`
keeps exactly that.
-/
namespace TenantAccess

variable {α κ : Type} [DecidableEq κ]

/-- The list keeps the first element of every key, in the order of these elements. -/
structure KeepsFirsts (key : α → κ) (as kept : List α) : Prop where
  mem_iff : ∀ a, a ∈ kept ↔ IsFirst (fun b => key b = key a) as a
  ordered : kept.Pairwise fun a b => (as.map key).idxOf (key a) < (as.map key).idxOf (key b)

namespace IsFirst

variable {as : List α} {a b : α}

theorem cons_iff (has : α → Prop) (ha : has a) :
    IsFirst has (b :: as) a ↔ b = a ∨ ¬ has b ∧ IsFirst has as a := by
  constructor
  · rintro ⟨before, after, hsplit, -, hbefore⟩
    cases before with
    | nil =>
      cases hsplit
      exact .inl rfl
    | cons c before =>
      cases hsplit
      obtain ⟨hb, hrest⟩ := List.forall_mem_cons.1 hbefore
      exact .inr ⟨hb, before, after, rfl, ha, hrest⟩
  · rintro (rfl | ⟨hb, hrest⟩)
    · exact ⟨[], as, rfl, ha, fun c hc => by cases hc⟩
    · exact hrest.cons_of_not hb

end IsFirst

variable {key : α → κ} {seen : List κ} {as : List α} {a : α}

theorem not_isFirst_nil {has : α → Prop} : ¬ IsFirst has [] a := fun h => by cases h.mem

/-- What is kept are the first elements of the keys that were not seen. -/
theorem mem_distinctBy_iff : a ∈ distinctBy key seen as ↔
    key a ∉ seen ∧ IsFirst (fun b => key b = key a) as a := by
  induction as generalizing seen with
  | nil => simp [distinctBy, not_isFirst_nil]
  | cons b as ih =>
    rw [IsFirst.cons_iff (fun b => key b = key a) rfl, distinctBy]
    split
    · rename_i hseen
      rw [ih]
      constructor
      · rintro ⟨ha, hfirst⟩
        have hother : key b ≠ key a := fun heq => ha (heq ▸ hseen)
        exact ⟨ha, .inr ⟨hother, hfirst⟩⟩
      · rintro ⟨ha, rfl | ⟨-, hfirst⟩⟩
        · exact absurd hseen ha
        · exact ⟨ha, hfirst⟩
    · rename_i hnew
      rw [List.mem_cons, ih, List.mem_cons, not_or]
      constructor
      · rintro (rfl | ⟨⟨hother, ha⟩, hfirst⟩)
        · exact ⟨hnew, .inl rfl⟩
        · exact ⟨ha, .inr ⟨Ne.symm hother, hfirst⟩⟩
      · rintro ⟨ha, rfl | ⟨hother, hfirst⟩⟩
        · exact .inl rfl
        · exact .inr ⟨⟨Ne.symm hother, ha⟩, hfirst⟩

theorem sublist_distinctBy (key : α → κ) (seen : List κ) (as : List α) :
    (distinctBy key seen as).Sublist as := by
  induction as generalizing seen with
  | nil => exact .slnil
  | cons a as ih =>
    rw [distinctBy]
    split
    · exact (ih seen).cons a
    · exact (ih (key a :: seen)).cons_cons a

theorem ordered_distinctBy (key : α → κ) (seen : List κ) (as : List α) :
    (distinctBy key seen as).Pairwise fun a b =>
      (as.map key).idxOf (key a) < (as.map key).idxOf (key b) := by
  induction as generalizing seen with
  | nil => exact .nil
  | cons a as ih =>
    -- behind the head every other key stands one place later
    have hlater : ∀ seen, key a ∈ seen → (distinctBy key seen as).Pairwise fun b c =>
        ((a :: as).map key).idxOf (key b) < ((a :: as).map key).idxOf (key c) := by
      intro seen hseen
      refine (ih seen).imp_of_mem fun {b c} hb hc hlt => ?_
      have hab : key a ≠ key b := fun heq => (mem_of_mem_distinctBy hb).2 (heq ▸ hseen)
      have hac : key a ≠ key c := fun heq => (mem_of_mem_distinctBy hc).2 (heq ▸ hseen)
      rw [List.map_cons, List.idxOf_cons_ne _ hab, List.idxOf_cons_ne _ hac]
      omega
    rw [distinctBy]
    split
    · rename_i hseen
      exact hlater seen hseen
    · refine List.pairwise_cons.2 ⟨fun b hb => ?_, hlater _ (.head seen)⟩
      have hab : key a ≠ key b := fun heq => (mem_of_mem_distinctBy hb).2 (heq ▸ .head seen)
      rw [List.map_cons, List.idxOf_cons_self, List.idxOf_cons_ne _ hab]
      omega

theorem keepsFirsts_distinctBy (key : α → κ) (as : List α) :
    KeepsFirsts key as (distinctBy key [] as) where
  mem_iff a := by simp [mem_distinctBy_iff]
  ordered := ordered_distinctBy key [] as

/-! ## Lists put together -/

/-- It does not matter in which order the keys were seen. -/
theorem distinctBy_seen_congr {seen' : List κ} (h : ∀ k, k ∈ seen ↔ k ∈ seen') (as : List α) :
    distinctBy key seen as = distinctBy key seen' as := by
  induction as generalizing seen seen' with
  | nil => rfl
  | cons a as ih =>
    have hcons : ∀ k, k ∈ key a :: seen ↔ k ∈ key a :: seen' := by
      intro k
      rw [List.mem_cons, List.mem_cons, h k]
    simp only [distinctBy, h (key a), ih h, ih hcons]

theorem distinctBy_append (key : α → κ) (seen : List κ) (as bs : List α) :
    distinctBy key seen (as ++ bs) =
      distinctBy key seen as ++ distinctBy key (as.map key ++ seen) bs := by
  induction as generalizing seen with
  | nil => rfl
  | cons a as ih =>
    rw [List.cons_append, distinctBy, distinctBy]
    split
    · rename_i hseen
      have hkeys : ∀ k, k ∈ as.map key ++ seen ↔ k ∈ (a :: as).map key ++ seen := by
        intro k
        by_cases hk : k = key a <;> simp [hk, hseen]
      rw [ih, distinctBy_seen_congr hkeys]
    · have hkeys : ∀ k, k ∈ as.map key ++ key a :: seen ↔ k ∈ (a :: as).map key ++ seen := by
        intro k
        simp [or_left_comm]
      rw [ih, distinctBy_seen_congr hkeys, List.cons_append]

/-- What is appended leaves the first occurrences before it as they are. -/
theorem prefix_distinctBy (key : α → κ) (seen : List κ) {as bs : List α} (h : as <+: bs) :
    distinctBy key seen as <+: distinctBy key seen bs := by
  obtain ⟨cs, rfl⟩ := h
  rw [distinctBy_append]
  exact List.prefix_append ..

theorem distinctBy_eq_nil {key : α → κ} {seen : List κ} {as : List α}
    (h : ∀ a ∈ as, key a ∈ seen) : distinctBy key seen as = [] := by
  refine List.eq_nil_iff_forall_not_mem.2 fun a ha => ?_
  obtain ⟨hmem, hnew⟩ := mem_of_mem_distinctBy ha
  exact hnew (h a hmem)

/-- An element that occurs again contributes nothing new. -/
theorem distinctBy_flatMap_distinctBy {β : Type} [DecidableEq β] (f : β → List α)
    {done as : List β} {seen : List κ} (h : ∀ b ∈ done, ∀ a ∈ f b, key a ∈ seen) :
    distinctBy key seen ((distinctBy id done as).flatMap f) =
      distinctBy key seen (as.flatMap f) := by
  induction as generalizing done seen with
  | nil => rfl
  | cons b as ih =>
    rw [List.flatMap_cons, distinctBy_append, distinctBy]
    split
    · rename_i hb
      have hkeys : ∀ k, k ∈ seen ↔ k ∈ (f b).map key ++ seen := by
        intro k
        rw [List.mem_append, List.mem_map]
        refine ⟨.inr, fun hk => hk.elim ?_ id⟩
        rintro ⟨a, ha, rfl⟩
        exact h b hb a ha
      rw [ih h, distinctBy_eq_nil (h b hb), List.nil_append, distinctBy_seen_congr hkeys]
    · have hdone : ∀ c ∈ b :: done, ∀ a ∈ f c, key a ∈ (f b).map key ++ seen := by
        intro c hc a ha
        rcases List.mem_cons.1 hc with rfl | hc
        · exact List.mem_append_left _ (List.mem_map_of_mem ha)
        · exact List.mem_append_right _ (h c hc a ha)
      rw [List.flatMap_cons, distinctBy_append, id, ih hdone]

end TenantAccess
