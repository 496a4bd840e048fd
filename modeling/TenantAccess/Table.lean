/-!
# Finite tables

A `Table` maps keys to values. Setting a key replaces its entry or adds one at the end.
-/
namespace TenantAccess

structure Table (κ α : Type) where
  entries : List (κ × α) := []

namespace Table

variable {κ α : Type} [DecidableEq κ]

def empty : Table κ α := ⟨[]⟩

instance : Inhabited (Table κ α) := ⟨empty⟩

def find (k : κ) : List (κ × α) → Option α
  | [] => none
  | e :: es => if e.1 = k then some e.2 else find k es

def replace (k : κ) (a : α) : List (κ × α) → List (κ × α)
  | [] => [(k, a)]
  | e :: es => if e.1 = k then (k, a) :: es else e :: replace k a es

def get? (t : Table κ α) (k : κ) : Option α := find k t.entries

def set (t : Table κ α) (k : κ) (a : α) : Table κ α := ⟨replace k a t.entries⟩

def erase (t : Table κ α) (k : κ) : Table κ α := ⟨t.entries.filter fun e => e.1 ≠ k⟩

theorem mem_of_find {k : κ} {a : α} {es : List (κ × α)} (h : find k es = some a) :
    (k, a) ∈ es := by
  induction es with
  | nil => cases h
  | cons e es ih =>
    simp only [find] at h
    split at h
    · rename_i hk
      cases h
      exact hk ▸ .head _
    · exact .tail _ (ih h)

theorem find_replace (k j : κ) (a : α) (es : List (κ × α)) :
    find j (replace k a es) = if k = j then some a else find j es := by
  induction es with
  | nil => simp [find, replace]
  | cons e es ih =>
    by_cases hk : e.1 = k
    · by_cases hj : k = j <;> simp_all [find, replace]
    · by_cases hj : e.1 = j <;> simp_all [find, replace]
      intro h
      exact absurd h.symm hk

theorem find_filter (k j : κ) (es : List (κ × α)) :
    find j (es.filter fun e => e.1 ≠ k) = if k = j then none else find j es := by
  induction es with
  | nil => simp [find]
  | cons e es ih =>
    by_cases hk : e.1 = k
    · by_cases hj : k = j <;> simp_all [find]
    · by_cases hj : e.1 = j
      · have : ¬ k = j := fun h => hk (hj.trans h.symm)
        simp_all [find]
      · simp_all [find]

@[simp] theorem get?_empty (k : κ) : (empty : Table κ α).get? k = none := rfl

theorem get?_set (t : Table κ α) (k j : κ) (a : α) :
    (t.set k a).get? j = if k = j then some a else t.get? j := find_replace k j a t.entries

@[simp] theorem get?_set_self (t : Table κ α) (k : κ) (a : α) : (t.set k a).get? k = some a := by
  rw [get?_set, if_pos rfl]

theorem get?_set_of_ne (t : Table κ α) {k j : κ} (h : k ≠ j) (a : α) :
    (t.set k a).get? j = t.get? j := by
  rw [get?_set, if_neg h]

theorem get?_erase (t : Table κ α) (k j : κ) :
    (t.erase k).get? j = if k = j then none else t.get? j := find_filter k j t.entries

theorem get?_erase_of_ne (t : Table κ α) {k j : κ} (h : k ≠ j) :
    (t.erase k).get? j = t.get? j := by
  rw [get?_erase, if_neg h]

def ofList (es : List (κ × α)) : Table κ α := es.foldl (fun t e => t.set e.1 e.2) empty

end Table

end TenantAccess
