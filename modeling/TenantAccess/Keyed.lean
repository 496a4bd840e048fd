/-!
# Maps with text keys in ascending order

A `Keyed` map holds its entries in strictly ascending order of keys, so two maps with the same
contents are equal. Keys are compared by code point, which is also their order as UTF-8.
-/
namespace TenantAccess

/-- One key is placed before the other. -/
def keyBefore {α : Type} (a b : String × α) : Prop := a.1 < b.1

structure Keyed (α : Type) where
  entries : List (String × α)
  ascending : entries.Pairwise keyBefore := by exact .nil

namespace Keyed

variable {α : Type}

def empty : Keyed α := ⟨[], .nil⟩

instance : Inhabited (Keyed α) := ⟨empty⟩

instance [DecidableEq α] : DecidableEq (Keyed α) := fun a b =>
  if h : a.entries = b.entries then
    isTrue (by cases a; cases b; cases h; rfl)
  else isFalse (fun e => h (congrArg entries e))

/-- Places an entry in order; an entry of the same key is replaced. -/
def insertEntry (k : String) (v : α) : List (String × α) → List (String × α)
  | [] => [(k, v)]
  | e :: es =>
    if k < e.1 then (k, v) :: e :: es
    else if k = e.1 then (k, v) :: es
    else e :: insertEntry k v es

theorem mem_insertEntry {k : String} {v : α} {es : List (String × α)} {e : String × α}
    (h : e ∈ insertEntry k v es) : e = (k, v) ∨ e ∈ es := by
  induction es with
  | nil => exact .inl (by simpa [insertEntry] using h)
  | cons a es ih =>
    simp only [insertEntry] at h
    split at h
    · exact (List.mem_cons.1 h).imp_right id
    · split at h
      · exact (List.mem_cons.1 h).imp_right (List.mem_cons_of_mem a)
      · rcases List.mem_cons.1 h with rfl | h
        · exact .inr (List.mem_cons_self ..)
        · exact (ih h).imp_right (List.mem_cons_of_mem a)

theorem pairwise_insertEntry (k : String) (v : α) {es : List (String × α)}
    (h : es.Pairwise keyBefore) : (insertEntry k v es).Pairwise keyBefore := by
  induction es with
  | nil => exact List.pairwise_singleton ..
  | cons e es ih =>
    obtain ⟨he, hes⟩ := List.pairwise_cons.1 h
    simp only [insertEntry]
    split
    · rename_i hk
      refine List.pairwise_cons.2 ⟨fun b hb => ?_, h⟩
      rcases List.mem_cons.1 hb with rfl | hb
      · exact hk
      · exact String.lt_trans hk (he b hb)
    · rename_i hk
      split
      · rename_i heq
        subst heq
        exact List.pairwise_cons.2 ⟨fun b hb => he b hb, hes⟩
      · rename_i hne
        refine List.pairwise_cons.2 ⟨fun b hb => ?_, ih hes⟩
        rcases mem_insertEntry hb with rfl | hb
        · have hlt : e.1 < k := Decidable.byContradiction fun hn =>
            hne (String.le_antisymm (String.not_lt.1 hn) (String.not_lt.1 hk))
          exact hlt
        · exact he b hb

def insert (m : Keyed α) (k : String) (v : α) : Keyed α :=
  ⟨insertEntry k v m.entries, pairwise_insertEntry k v m.ascending⟩

/-- Of several entries with one key the last counts. -/
def ofList (es : List (String × α)) : Keyed α :=
  es.foldl (fun m e => m.insert e.1 e.2) empty

theorem insertEntry_of_last {k : String} {v : α} {es : List (String × α)}
    (last : ∀ e ∈ es, e.1 < k) : insertEntry k v es = es ++ [(k, v)] := by
  induction es with
  | nil => rfl
  | cons e es ih =>
    obtain ⟨he, hes⟩ := List.forall_mem_cons.1 last
    have hne : k ≠ e.1 := fun heq => String.lt_irrefl k (heq ▸ he)
    rw [insertEntry, if_neg (String.lt_asymm he), if_neg hne, ih hes]
    rfl

theorem entries_foldl_insert (es : List (String × α)) (m : Keyed α)
    (h : (m.entries ++ es).Pairwise keyBefore) :
    (es.foldl (fun m e => m.insert e.1 e.2) m).entries = m.entries ++ es := by
  induction es generalizing m with
  | nil => exact (List.append_nil _).symm
  | cons e es ih =>
    have hlast : ∀ a ∈ m.entries, a.1 < e.1 := fun a ha =>
      (List.pairwise_append.1 h).2.2 a ha e (.head es)
    have hinsert : (m.insert e.1 e.2).entries = m.entries ++ [e] := insertEntry_of_last hlast
    have hentries : (m.insert e.1 e.2).entries ++ es = m.entries ++ e :: es := by
      rw [hinsert, List.append_assoc, List.singleton_append]
    rw [List.foldl_cons, ih _ (hentries ▸ h), hentries]

/-- A map is made of its own entries. -/
theorem ofList_entries (m : Keyed α) : ofList m.entries = m := by
  have hentries : (ofList m.entries).entries = m.entries :=
    entries_foldl_insert m.entries empty m.ascending
  cases m
  cases hm : ofList _
  rw [hm] at hentries
  cases hentries
  rfl

def get? (m : Keyed α) (k : String) : Option α := m.entries.lookup k

def isEmpty (m : Keyed α) : Bool := m.entries.isEmpty

end Keyed

end TenantAccess
