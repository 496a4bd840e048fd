import Mathlib.Data.List.Forall2
import TenantAccess.Json.Read
import TenantAccess.Proofs.Success

/-!
# What a value that was read says of its text

A list was read from an array, item by item, and a map from an object, member by member. A record
may be written as an object or as an array of its fields. When it was read, each of its fields was
written at most once, and what was kept is what is read from the written value. A `Slot` ties one
field of a record to the part of the draft that holds it.
-/
namespace TenantAccess.Json

open Wire (Problem Field Record)

variable {α σ : Type}

/-! ## Optional values, lists and maps -/

section Parts

variable {read : Reader α} {o v : Outline} {as : List α} {es : List (String × α)} {name : String}

theorem readOptional_cases {x : Option α} (h : readOptional read o = .ok x) :
    (o = .null ∧ x = none) ∨ ∃ a, read o = .ok a ∧ x = some a := by
  cases o with
  | null =>
    cases h
    exact .inl ⟨rfl, rfl⟩
  | _ =>
    obtain ⟨a, ha, rfl⟩ := map_eq_ok_iff.1 h
    exact .inr ⟨a, ha, rfl⟩

theorem forall₂_readItems {items : List Outline} {stop : Option Fault}
    (h : readItems read items stop = .ok as) :
    stop = none ∧ List.Forall₂ (fun o a => read o = .ok a) items as := by
  induction items generalizing as with
  | nil =>
    cases stop with
    | some f => cases h
    | none =>
      cases h
      exact ⟨rfl, .nil⟩
  | cons o items ih =>
    obtain ⟨a, ha, h⟩ := bind_eq_ok_iff.1 h
    obtain ⟨rest, hrest, h⟩ := bind_eq_ok_iff.1 h
    cases h
    obtain ⟨hstop, hitems⟩ := ih hrest
    exact ⟨hstop, .cons ha hitems⟩

theorem forall₂_readList {o : Outline} (h : readList read o = .ok as) :
    ∃ items, o = .array items none ∧ List.Forall₂ (fun o a => read o = .ok a) items as := by
  cases o with
  | array items stop =>
    obtain ⟨rfl, hitems⟩ := forall₂_readItems h
    exact ⟨items, rfl, hitems⟩
  | _ => cases h

theorem read_root_of_readText {s : String} {a : α} (h : readText read s = .ok a) :
    read (Document.ofText s).root = .ok a := by
  obtain ⟨a', ha, h⟩ := bind_eq_ok_iff.1 h
  split at h
  · cases h
  · cases h
    exact ha

/-- The object has a member of that name. -/
inductive Outline.HasMember (name : String) : Outline → Outline → Prop
  | mem {members : List (Outline × Outline)} {stop : Option Fault} {k v : Outline}
      (mem : (k, v) ∈ members) (key : readKey k = .ok name) :
      HasMember name (.object members stop) v

/-- A member and what was read of it. -/
def ReadAs (read : Reader α) (m : Outline × Outline) (e : String × α) : Prop :=
  readKey m.1 = .ok e.1 ∧ read m.2 = .ok e.2

theorem ReadAs.functional {m : Outline × Outline} {e e' : String × α} (h : ReadAs read m e)
    (h' : ReadAs read m e') : e = e' := by
  obtain ⟨hkey, hvalue⟩ := h
  rw [ReadAs, hkey, hvalue] at h'
  obtain ⟨hkey', hvalue'⟩ := h'
  cases e
  cases e'
  cases hkey'
  cases hvalue'
  rfl

theorem forall₂_readPairs {ms : List (Outline × Outline)} {stop : Option Fault}
    (h : readPairs read ms stop = .ok es) : List.Forall₂ (ReadAs read) ms es := by
  induction ms generalizing es with
  | nil =>
    cases stop with
    | some f => cases h
    | none =>
      cases h
      exact .nil
  | cons m ms ih =>
    obtain ⟨key, hkey, h⟩ := bind_eq_ok_iff.1 h
    obtain ⟨a, ha, h⟩ := bind_eq_ok_iff.1 h
    obtain ⟨rest, hrest, h⟩ := bind_eq_ok_iff.1 h
    cases h
    exact .cons ⟨hkey, ha⟩ (ih hrest)

theorem forall₂_readMap (h : readMap read o = .ok es) :
    ∃ ms stop, o = .object ms stop ∧ List.Forall₂ (ReadAs read) ms es := by
  cases o with
  | object ms stop => exact ⟨ms, stop, rfl, forall₂_readPairs h⟩
  | _ => cases h

/-- Every member of a map that was read was read. -/
theorem exists_read_of_hasMember (h : readMap read o = .ok es) (member : o.HasMember name v) :
    ∃ a, read v = .ok a := by
  obtain ⟨ms, stop, rfl, hread⟩ := forall₂_readMap h
  obtain ⟨hmem, -⟩ := member
  obtain ⟨n, hn, heq⟩ := List.getElem_of_mem hmem
  have hrelated := hread.get hn (hread.length_eq ▸ hn)
  exact ⟨_, by simpa [heq] using hrelated.2⟩

end Parts

/-! ## Fields of records -/

/-- The record has a value for its field of that name, the one at that place. -/
inductive Outline.HasField (name : String) (place : Nat) : Outline → Outline → Prop
  | member {o v : Outline} (member : o.HasMember name v) : HasField name place o v
  | item {items : List Outline} {stop : Option Fault} {v : Outline}
      (item : items[place]? = some v) : HasField name place (.array items stop) v

/-- What became of a field: it was written once and read, or not written and nothing is kept. -/
inductive FieldRead (written : Outline → Prop) (read : Reader α) : Option α → Prop
  | once {v : Outline} {a : α} (only : ∀ v', written v' ↔ v' = v) (reads : read v = .ok a) :
      FieldRead written read (some a)
  | absent (unwritten : ∀ v, ¬ written v) : FieldRead written read none

theorem FieldRead.congr {written written' : Outline → Prop} {read : Reader α} {x : Option α}
    (h : FieldRead written read x) (same : ∀ v, written' v ↔ written v) :
    FieldRead written' read x := by
  cases h with
  | once only reads => exact .once (fun v => (same v).trans (only v)) reads
  | absent unwritten => exact .absent fun v hv => unwritten v ((same v).1 hv)

/-- The field at that place fills one part of the draft, which the other fields leave alone. -/
structure Slot (r : Record Outline σ) (name : String) (place : Nat) (read : Reader α)
    (get : σ → Option α) : Prop where
  placed : ∃ f, r.fields[place]? = some f ∧ f.name = name
  distinct : (r.fields.map Field.name).Nodup
  present : ∀ f ∈ r.fields, f.name = name → ∀ draft, f.present draft = (get draft).isSome
  fills : ∀ f ∈ r.fields, f.name = name → ∀ v draft draft', f.read v draft = .ok draft' →
    ∃ a, read v = .ok a ∧ get draft' = some a
  others : ∀ f ∈ r.fields, f.name ≠ name → ∀ v draft draft', f.read v draft = .ok draft' →
    get draft' = get draft

namespace Slot

variable {r : Record Outline σ} {name : String} {place : Nat} {read : Reader α}
  {get : σ → Option α} {draft draft' : σ} {key : String} {v : Outline}

/-! ## Records written as objects -/

theorem exists_field? (slot : Slot r name place read get) : ∃ f, r.field? name = some f := by
  obtain ⟨f, hf, hname⟩ := slot.placed
  have hsome : (r.field? name).isSome := by
    rw [Record.field?, List.find?_isSome]
    exact ⟨f, List.mem_of_getElem? hf, by simpa using hname⟩
  exact Option.isSome_iff_exists.1 hsome

theorem mem_of_field? {f : Field Outline σ} (h : r.field? key = some f) :
    f ∈ r.fields ∧ f.name = key :=
  ⟨List.mem_of_find?_eq_some h, by simpa using List.find?_some h⟩

/-- A member of another name leaves the slot alone. -/
theorem readMember_other (slot : Slot r name place read get) (other : key ≠ name)
    (h : r.readMember skip key v draft = .ok draft') : get draft' = get draft := by
  simp only [Record.readMember] at h
  split at h
  · rename_i f hf
    obtain ⟨hmem, hname⟩ := mem_of_field? hf
    split at h
    · cases h
    · exact slot.others f hmem (hname ▸ other) v draft draft' h
  · split at h
    · cases h
    · obtain ⟨_, -, rfl⟩ := map_eq_ok_iff.1 h
      rfl

/-- A member of the name is read only while the slot is empty, and fills it. -/
theorem readMember_self (slot : Slot r name place read get)
    (h : r.readMember skip name v draft = .ok draft') :
    get draft = none ∧ ∃ a, read v = .ok a ∧ get draft' = some a := by
  obtain ⟨f, hf⟩ := slot.exists_field?
  obtain ⟨hmem, hname⟩ := mem_of_field? hf
  simp only [Record.readMember, hf, slot.present f hmem hname] at h
  split at h
  · cases h
  · rename_i hempty
    exact ⟨by simpa using hempty, slot.fills f hmem hname v draft draft' h⟩

theorem readMembers_cons {k : Outline} {ms : List (Outline × Outline)} {stop : Option Fault}
    (h : readMembers r ((k, v) :: ms) stop draft = .ok draft') :
    ∃ key between, readKey k = .ok key ∧ r.readMember skip key v draft = .ok between ∧
      readMembers r ms stop between = .ok draft' := by
  obtain ⟨key, hkey, h⟩ := bind_eq_ok_iff.1 h
  obtain ⟨between, hbetween, h⟩ := bind_eq_ok_iff.1 h
  exact ⟨key, between, hkey, hbetween, h⟩

/-- A slot that is filled stays as it is, and no member of the name follows. -/
theorem readMembers_filled (slot : Slot r name place read get) {ms : List (Outline × Outline)}
    {stop : Option Fault} {a : α} (h : readMembers r ms stop draft = .ok draft')
    (filled : get draft = some a) :
    get draft' = some a ∧ ∀ m ∈ ms, readKey m.1 ≠ .ok name := by
  induction ms generalizing draft with
  | nil =>
    cases stop with
    | some f => cases h
    | none =>
      cases h
      exact ⟨filled, fun _ hm => nomatch hm⟩
  | cons m ms ih =>
    obtain ⟨key, between, hkey, hbetween, h⟩ := readMembers_cons h
    have hother : key ≠ name := by
      rintro rfl
      obtain ⟨hempty, -⟩ := slot.readMember_self hbetween
      rw [hempty] at filled
      cases filled
    obtain ⟨hkept, hrest⟩ := ih h ((slot.readMember_other hother hbetween).trans filled)
    refine ⟨hkept, List.forall_mem_cons.2 ⟨?_, hrest⟩⟩
    rw [hkey]
    simpa using hother

theorem readMembers_empty (slot : Slot r name place read get) {ms : List (Outline × Outline)}
    {stop : Option Fault} (h : readMembers r ms stop draft = .ok draft')
    (empty : get draft = none) :
    FieldRead (fun v => ∃ m ∈ ms, m.2 = v ∧ readKey m.1 = .ok name) read (get draft') := by
  induction ms generalizing draft with
  | nil =>
    cases stop with
    | some f => cases h
    | none =>
      cases h
      rw [empty]
      exact .absent (by simp)
  | cons m ms ih =>
    obtain ⟨key, between, hkey, hbetween, h⟩ := readMembers_cons h
    by_cases hname : key = name
    · subst hname
      obtain ⟨-, a, ha, hfilled⟩ := slot.readMember_self hbetween
      obtain ⟨hkept, hrest⟩ := slot.readMembers_filled h hfilled
      rw [hkept]
      refine .once (fun v => ⟨?_, ?_⟩) ha
      · rintro ⟨m', hm', rfl, hkey'⟩
        rcases List.mem_cons.1 hm' with rfl | hm'
        · rfl
        · exact absurd hkey' (hrest m' hm')
      · rintro rfl
        exact ⟨m, .head _, rfl, hkey⟩
    · have hread := ih h ((slot.readMember_other hname hbetween).trans empty)
      refine hread.congr fun v => ?_
      simp [hkey, hname]

/-! ## Records written as arrays -/

variable {fs : List (Field Outline σ)} {vs rest : List Outline} {stop : Option Problem}
  {index : Nat}

theorem readList_nil (h : r.readList stop index fs [] draft = .ok (draft', rest)) :
    draft' = draft := by
  induction fs generalizing index with
  | nil =>
    cases h
    rfl
  | cons f fs ih =>
    simp only [Record.readList] at h
    split at h
    · cases h
    · split at h
      · exact ih h
      · cases h

/-- Fields of other names leave the slot alone. -/
theorem readList_others (slot : Slot r name place read get)
    (h : r.readList stop index fs vs draft = .ok (draft', rest))
    (others : ∀ f ∈ fs, f ∈ r.fields ∧ f.name ≠ name) : get draft' = get draft := by
  induction fs generalizing vs draft index with
  | nil =>
    cases h
    rfl
  | cons f fs ih =>
    obtain ⟨⟨hmem, hname⟩, hrest⟩ := List.forall_mem_cons.1 others
    cases vs with
    | nil => rw [readList_nil h]
    | cons v vs =>
      obtain ⟨between, hbetween, h⟩ := bind_eq_ok_iff.1 h
      rw [ih h hrest, slot.others f hmem hname v draft between hbetween]

theorem readList_empty (slot : Slot r name place read get) {n : Nat} {f : Field Outline σ}
    (h : r.readList stop index fs vs draft = .ok (draft', rest)) (empty : get draft = none)
    (fields : ∀ f ∈ fs, f ∈ r.fields) (distinct : (fs.map Field.name).Nodup)
    (found : fs[n]? = some f) (named : f.name = name) :
    FieldRead (fun v => vs[n]? = some v) read (get draft') := by
  induction fs generalizing vs draft index n with
  | nil => cases found
  | cons g fs ih =>
    obtain ⟨hg, hfs⟩ := List.forall_mem_cons.1 fields
    obtain ⟨hfresh, hdistinct⟩ := List.nodup_cons.1 distinct
    cases vs with
    | nil =>
      rw [readList_nil h, empty]
      exact .absent (by simp)
    | cons v vs =>
      obtain ⟨between, hbetween, htail⟩ := bind_eq_ok_iff.1 h
      cases n with
      | zero =>
        obtain rfl : g = f := by simpa using found
        obtain ⟨a, ha, hfilled⟩ := slot.fills g hg named v draft between hbetween
        have hothers : ∀ f ∈ fs, f ∈ r.fields ∧ f.name ≠ name := fun f hf =>
          ⟨hfs f hf, fun heq => hfresh (List.mem_map.2 ⟨f, hf, heq.trans named.symm⟩)⟩
        rw [slot.readList_others htail hothers, hfilled]
        exact .once (fun v' => by simp [eq_comm]) ha
      | succ n =>
        have hfound : fs[n]? = some f := by simpa using found
        have hother : g.name ≠ name := fun heq => hfresh
          (List.mem_map.2 ⟨f, List.mem_of_getElem? hfound, named.trans heq.symm⟩)
        have hkept : get between = none :=
          (slot.others g hg hother v draft between hbetween).trans empty
        exact (ih htail hkept hfs hdistinct hfound).congr fun v' => by simp

/-! ## Both forms -/

/-- What a record that was read keeps of a field, and where its text has it. -/
theorem readRecord_field (slot : Slot r name place read get) {o : Outline}
    (h : readRecord r draft o = .ok draft') (empty : get draft = none) :
    FieldRead (o.HasField name place) read (get draft') := by
  cases o with
  | object members stop =>
    refine (slot.readMembers_empty h empty).congr fun v => ⟨?_, ?_⟩
    · rintro ⟨⟨mem, key⟩⟩
      exact ⟨_, mem, rfl, key⟩
    · rintro ⟨m, hm, rfl, hkey⟩
      exact .member (.mem hm hkey)
  | array items stop =>
    obtain ⟨⟨between, rest⟩, hlist, h⟩ := bind_eq_ok_iff.1 h
    obtain ⟨f, hf, hname⟩ := slot.placed
    have hread := slot.readList_empty hlist empty (fun f hf => hf) slot.distinct hf hname
    have hlast : between = draft' := by
      dsimp only at h
      split at h
      · simpa using h
      · cases h
    rw [← hlast]
    refine hread.congr fun v => ⟨?_, .item⟩
    rintro (⟨⟨⟩⟩ | hitem)
    exact hitem
  | _ => cases h

end Slot

end TenantAccess.Json
