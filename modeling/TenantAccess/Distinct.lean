/-!
# First occurrences

`distinctBy` keeps the first element of every key and drops the later ones.
-/
namespace TenantAccess

variable {α κ : Type} [DecidableEq κ]

/-- Drops the elements whose key was seen before. -/
def distinctBy (key : α → κ) (seen : List κ) : List α → List α
  | [] => []
  | a :: as =>
    if key a ∈ seen then distinctBy key seen as
    else a :: distinctBy key (key a :: seen) as

theorem mem_of_mem_distinctBy {key : α → κ} {seen : List κ} {as : List α} {a : α}
    (h : a ∈ distinctBy key seen as) : a ∈ as ∧ key a ∉ seen := by
  induction as generalizing seen with
  | nil => simp [distinctBy] at h
  | cons b as ih =>
    simp only [distinctBy] at h
    split at h
    · exact ⟨.tail _ (ih h).1, (ih h).2⟩
    · rename_i hb
      rcases List.mem_cons.1 h with rfl | h
      · exact ⟨.head _, hb⟩
      · exact ⟨.tail _ (ih h).1, fun hs => (ih h).2 (.tail _ hs)⟩

/-- Of every key that was not seen one element is kept. -/
theorem exists_mem_distinctBy {key : α → κ} {seen : List κ} {as : List α} {a : α} (ha : a ∈ as)
    (hseen : key a ∉ seen) : ∃ b ∈ distinctBy key seen as, key b = key a := by
  induction as generalizing seen with
  | nil => cases ha
  | cons b as ih =>
    by_cases hkey : key b = key a
    · refine ⟨b, ?_, hkey⟩
      rw [distinctBy, if_neg (hkey ▸ hseen)]
      exact .head _
    · have ha : a ∈ as := (List.mem_cons.1 ha).resolve_left fun hab => hkey (hab ▸ rfl)
      simp only [distinctBy]
      split
      · exact ih ha hseen
      · have hseen : key a ∉ key b :: seen :=
          List.not_mem_cons_of_ne_of_not_mem (Ne.symm hkey) hseen
        obtain ⟨c, hc, hca⟩ := ih ha hseen
        exact ⟨c, .tail _ hc, hca⟩

/-- If the elements are their own keys, each one that was not seen is kept. -/
theorem mem_distinctBy_id {seen as : List κ} {a : κ} :
    a ∈ distinctBy id seen as ↔ a ∈ as ∧ a ∉ seen := by
  refine ⟨mem_of_mem_distinctBy, fun h => ?_⟩
  induction as generalizing seen with
  | nil => cases h.1
  | cons b as ih =>
    obtain ⟨ha, hseen⟩ := h
    simp only [distinctBy, id]
    by_cases hab : a = b
    · subst hab
      rw [if_neg hseen]
      exact .head _
    · have ha : a ∈ as := (List.mem_cons.1 ha).resolve_left hab
      split
      · exact ih ⟨ha, hseen⟩
      · refine .tail _ (ih ⟨ha, fun h => ?_⟩)
        exact (List.mem_cons.1 h).elim hab hseen

theorem pairwise_distinctBy (key : α → κ) (seen : List κ) (as : List α) :
    (distinctBy key seen as).Pairwise fun a b => key a ≠ key b := by
  induction as generalizing seen with
  | nil => exact .nil
  | cons a as ih =>
    simp only [distinctBy]
    split
    · exact ih seen
    · refine List.pairwise_cons.2 ⟨fun b hb heq => ?_, ih _⟩
      have hb : key b ∉ key a :: seen := (mem_of_mem_distinctBy hb).2
      exact hb (heq ▸ .head seen)

/-- Nothing is dropped where no key occurs twice. -/
theorem distinctBy_eq_self {key : α → κ} {seen : List κ} {as : List α}
    (hseen : ∀ a ∈ as, key a ∉ seen) (h : as.Pairwise fun a b => key a ≠ key b) :
    distinctBy key seen as = as := by
  induction as generalizing seen with
  | nil => rfl
  | cons a as ih =>
    obtain ⟨ha, has⟩ := List.pairwise_cons.1 h
    have hrest : ∀ b ∈ as, key b ∉ key a :: seen := by
      intro b hb hmem
      rcases List.mem_cons.1 hmem with heq | hmem
      · exact ha b hb heq.symm
      · exact hseen b (.tail a hb) hmem
    rw [distinctBy, if_neg (hseen a (.head as)), ih hrest has]

end TenantAccess
