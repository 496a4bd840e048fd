import TenantAccess.Json.Tagged
import TenantAccess.Proofs.Success
import TenantAccess.Proofs.Written

/-!
# What readers make of a value

A reader goes through an outline, but what it gives for a complete text depends on the value of the
text only. `Reads` says so for one value. Each way of building readers has a law that gives what
the whole reader reads from what its parts read; with the scanning of written values they give what
is read of a written text.
-/
namespace TenantAccess.Json

open Wire (Problem Field Record)

variable {α β σ : Type}

/-- Every outline of the value is read as `a`. -/
def Reads (read : Reader α) (v : Json) (a : α) : Prop :=
  ∀ o : Outline, o.value = .ok v → read o = .ok a

/-! ## Outlines of a value -/

namespace Outline

/-- The outline of a text that is a complete value; the parts are given by their values. -/
inductive Complete : Outline → Json → Prop
  | null : Complete .null .null
  | bool {b : Bool} : Complete (.bool b) (.bool b)
  | number {n : Numeral} {x : Number} (numeral : n.value = .ok x) : Complete (.number n) (.number x)
  | string {t : Text} {s : String} (text : t.value = .ok s) : Complete (.string t) (.string s)
  | array {os : List Outline} {vs : List Json} (items : itemValues os = .ok vs) :
      Complete (.array os none) (.array vs)
  | object {os : List (Outline × Outline)} {ms : List (String × Json)}
      (members : memberValues os = .ok ms) : Complete (.object os none) (.object ms)

theorem complete {o : Outline} {v : Json} (h : o.value = .ok v) : Complete o v := by
  cases o with
  | null =>
    cases h
    exact .null
  | bool =>
    cases h
    exact .bool
  | number =>
    obtain ⟨x, hx, rfl⟩ := map_eq_ok_iff.1 h
    exact .number hx
  | string =>
    obtain ⟨s, hs, rfl⟩ := map_eq_ok_iff.1 h
    exact .string hs
  | array os stop =>
    obtain ⟨vs, hvs, h⟩ := bind_eq_ok_iff.1 h
    cases stop with
    | some f => cases h
    | none =>
      cases h
      exact .array hvs
  | object os stop =>
    obtain ⟨ms, hms, h⟩ := bind_eq_ok_iff.1 h
    cases stop with
    | some f => cases h
    | none =>
      cases h
      exact .object hms
  | deep => cases h
  | broken => cases h

theorem itemValues_cons {os : List Outline} {v : Json} {vs : List Json}
    (h : itemValues os = .ok (v :: vs)) :
    ∃ o os', os = o :: os' ∧ o.value = .ok v ∧ itemValues os' = .ok vs := by
  cases os with
  | nil => cases h
  | cons o os =>
    obtain ⟨v', hv, h⟩ := bind_eq_ok_iff.1 h
    obtain ⟨vs', hvs, h⟩ := bind_eq_ok_iff.1 h
    cases h
    exact ⟨o, os, rfl, hv, hvs⟩

theorem itemValues_nil {os : List Outline} (h : itemValues os = .ok []) : os = [] := by
  cases os with
  | nil => rfl
  | cons o os =>
    obtain ⟨v, -, h⟩ := bind_eq_ok_iff.1 h
    obtain ⟨vs, -, h⟩ := bind_eq_ok_iff.1 h
    cases h

/-- Whatever is complete has members with keys that are strings. -/
theorem memberValues_of_cons {m : Outline × Outline} {os : List (Outline × Outline)}
    {ms : List (String × Json)} (h : memberValues (m :: os) = .ok ms) :
    ∃ t k v ms', m.1 = .string t ∧ ms = (k, v) :: ms' ∧ t.value = .ok k ∧ m.2.value = .ok v ∧
      memberValues os = .ok ms' := by
  obtain ⟨ko, o⟩ := m
  rw [memberValues.eq_def] at h
  cases ko with
  | string t =>
    obtain ⟨k, hk, h⟩ := bind_eq_ok_iff.1 h
    obtain ⟨v, hv, h⟩ := bind_eq_ok_iff.1 h
    obtain ⟨ms', hms, h⟩ := bind_eq_ok_iff.1 h
    cases h
    exact ⟨t, k, v, ms', rfl, rfl, hk, hv, hms⟩
  | _ => cases h

theorem memberValues_cons {os : List (Outline × Outline)} {k : String} {v : Json}
    {ms : List (String × Json)} (h : memberValues os = .ok ((k, v) :: ms)) :
    ∃ t o os', os = (.string t, o) :: os' ∧ t.value = .ok k ∧ o.value = .ok v ∧
      memberValues os' = .ok ms := by
  cases os with
  | nil => cases h
  | cons m os =>
    obtain ⟨t, k', v', ms', hm, hms, hk, hv, hrest⟩ := memberValues_of_cons h
    cases hms
    exact ⟨t, m.2, os, by rw [← hm], hk, hv, hrest⟩

theorem memberValues_nil {os : List (Outline × Outline)} (h : memberValues os = .ok []) :
    os = [] := by
  cases os with
  | nil => rfl
  | cons m os =>
    obtain ⟨_, _, _, _, -, hms, -⟩ := memberValues_of_cons h
    cases hms

end Outline

/-! ## Readers of single values -/

theorem Reads.map {read : Reader α} {v : Json} {a : α} (h : Reads read v a) (f : α → β) :
    Reads (fun o => (read o).map f) v (f a) := by
  intro o ho
  simp only [h o ho, Except.map]

theorem reads_string (s : String) : Reads readString (.string s) s := by
  intro o ho
  cases Outline.complete ho with
  | string text => rw [readString, text, orFault]

theorem reads_bool (b : Bool) : Reads readBool (.bool b) b := by
  intro o ho
  cases Outline.complete ho with
  | bool => rfl

theorem reads_word (type : String) (w : UInt64) :
    Reads (readWord type) (.number (.integer w.toNat)) w := by
  intro o ho
  cases Outline.complete ho with
  | number numeral =>
    have hfits : 0 ≤ (w.toNat : Int) ∧ (w.toNat : Int) < UInt64.size :=
      ⟨Int.natCast_nonneg _, Int.ofNat_lt.2 w.toNat_lt⟩
    simp only [readWord, numeral, orFault, bind, Except.bind]
    rw [if_pos hfits, Int.toNat_natCast, UInt64.ofNat_toNat]

theorem reads_whole {type : String} {form : Json → Option α} {v : Json} {a : α}
    (h : form v = some a) : Reads (readWhole type form) v a := by
  intro o ho
  simp only [readWhole, ho, orFault]
  simp [h, bind, Except.bind]

theorem reads_variant {variants : List (String × α)} {name : String} {a : α}
    (h : variants.lookup name = some a) : Reads (readVariant variants) (.string name) a := by
  intro o ho
  cases Outline.complete ho with
  | string text => simp [readVariant, text, orFault, variantNamed, h, bind, Except.bind]

/-- A value other than null is read as what is there. -/
theorem reads_optional {read : Reader α} {v : Json} {a : α} (present : v ≠ .null)
    (h : Reads read v a) : Reads (readOptional read) v (some a) := by
  intro o ho
  have hmap := h.map some o ho
  cases Outline.complete ho with
  | null => exact absurd rfl present
  | _ => exact hmap

/-! ## Readers of several values -/

theorem readItems_eq_ok {read : Reader α} {write : α → Json} {as : List α} {os : List Outline}
    (h : ∀ a ∈ as, Reads read (write a) a)
    (values : Outline.itemValues os = .ok (as.map write)) : readItems read os none = .ok as := by
  induction as generalizing os with
  | nil =>
    rw [Outline.itemValues_nil values]
    rfl
  | cons a as ih =>
    obtain ⟨ha, has⟩ := List.forall_mem_cons.1 h
    obtain ⟨o, os, rfl, hvalue, hvalues⟩ := Outline.itemValues_cons values
    rw [readItems, ha o hvalue, ih has hvalues]
    rfl

theorem reads_list {read : Reader α} {write : α → Json} {as : List α}
    (h : ∀ a ∈ as, Reads read (write a) a) :
    Reads (readList read) (.array (as.map write)) as := by
  intro o ho
  cases Outline.complete ho with
  | array items => exact readItems_eq_ok h items

theorem readPairs_eq_ok {read : Reader α} {write : α → Json} {es : List (String × α)}
    {os : List (Outline × Outline)} (h : ∀ e ∈ es, Reads read (write e.2) e.2)
    (values : Outline.memberValues os = .ok (es.map fun e => (e.1, write e.2))) :
    readPairs read os none = .ok es := by
  induction es generalizing os with
  | nil =>
    rw [Outline.memberValues_nil values]
    rfl
  | cons e es ih =>
    obtain ⟨he, hes⟩ := List.forall_mem_cons.1 h
    obtain ⟨t, o, os, rfl, hkey, hvalue, hvalues⟩ := Outline.memberValues_cons values
    rw [readPairs, readKey, hkey, he o hvalue, ih hes hvalues]
    rfl

theorem reads_map {read : Reader α} {write : α → Json} {es : List (String × α)}
    (h : ∀ e ∈ es, Reads read (write e.2) e.2) :
    Reads (readMap read) (.object (es.map fun e => (e.1, write e.2))) es := by
  intro o ho
  cases Outline.complete ho with
  | object members => exact readPairs_eq_ok h members

/-! ## Records -/

/-- The members take the draft from one state to another, each filling a field that is empty. -/
inductive Fills (r : Record Outline σ) : σ → List (String × Json) → σ → Prop
  | nil {draft : σ} : Fills r draft [] draft
  | cons {draft draft' draft'' : σ} {k : String} {v : Json} {ms : List (String × Json)}
      {f : Field Outline σ} (found : r.field? k = some f) (fresh : f.present draft = false)
      (reads : Reads (fun o => f.read o draft) v draft') (rest : Fills r draft' ms draft'') :
      Fills r draft ((k, v) :: ms) draft''

theorem Fills.append {r : Record Outline σ} {draft draft' draft'' : σ}
    {ms ms' : List (String × Json)} (h : Fills r draft ms draft') (h' : Fills r draft' ms' draft'') :
    Fills r draft (ms ++ ms') draft'' := by
  induction h with
  | nil => exact h'
  | cons found fresh reads _ ih => exact .cons found fresh reads (ih h')

theorem Fills.readMembers_eq {r : Record Outline σ} {draft draft' : σ} {ms : List (String × Json)}
    (h : Fills r draft ms draft') {os : List (Outline × Outline)}
    (values : Outline.memberValues os = .ok ms) : readMembers r os none draft = .ok draft' := by
  induction h generalizing os with
  | nil =>
    rw [Outline.memberValues_nil values]
    rfl
  | cons found fresh reads _ ih =>
    obtain ⟨t, o, os, rfl, hkey, hvalue, hvalues⟩ := Outline.memberValues_cons values
    rw [readMembers, readKey, hkey, ← ih hvalues]
    have hmember := reads o hvalue
    simp [orFault, Record.readMember, found, fresh, hmember, bind, Except.bind]

theorem Fills.reads {r : Record Outline σ} {draft draft' : σ} {ms : List (String × Json)}
    (h : Fills r draft ms draft') : Reads (readRecord r draft) (.object ms) draft' := by
  intro o ho
  cases Outline.complete ho with
  | object members => exact h.readMembers_eq members

/-! ## Records that name their own variant -/

section

variable {variants : List (String × α)} {type tag name : String} {a : α} {ms : List (String × Json)}

/-- Once the tag was found, the other members are kept in the order of the text. -/
theorem readTaggedMembers_found {os : List (Outline × Outline)} {others : List (String × Json)}
    (values : Outline.memberValues os = .ok ms) (untagged : ∀ m ∈ ms, m.1 ≠ tag) :
    readTaggedMembers tag variants os none (some a) others =
      .ok (a, .object (others.reverse ++ ms)) := by
  induction ms generalizing os others with
  | nil =>
    rw [Outline.memberValues_nil values, List.append_nil]
    rfl
  | cons m ms ih =>
    obtain ⟨huntagged, hrest⟩ := List.forall_mem_cons.1 untagged
    obtain ⟨t, o, os, rfl, hkey, hvalue, hvalues⟩ := Outline.memberValues_cons values
    have hmembers : readTaggedMembers tag variants os none (some a) (m :: others) =
        .ok (a, .object (others.reverse ++ m :: ms)) := by
      rw [ih hvalues hrest, List.reverse_cons, List.append_assoc, List.singleton_append]
    rw [readTaggedMembers, readKey, hkey, ← hmembers]
    simp [orFault, huntagged, hvalue, bind, Except.bind]

/-- A record that begins with its tag is taken apart into its variant and its other members. -/
theorem reads_tagged (known : variants.lookup name = some a) (untagged : ∀ m ∈ ms, m.1 ≠ tag) :
    Reads (readTagged type tag variants) (.object ((tag, .string name) :: ms)) (a, .object ms) := by
  intro o ho
  cases Outline.complete ho with
  | object members =>
    obtain ⟨t, o, os, rfl, hkey, hvalue, hvalues⟩ := Outline.memberValues_cons members
    have htag : readTag variants o = .ok a := by
      cases Outline.complete hvalue with
      | string text => simp [readTag, text, orFault, variantNamed, known, bind, Except.bind]
    have hfound : readTaggedMembers tag variants os none (some a) [] = .ok (a, .object ms) :=
      readTaggedMembers_found hvalues untagged
    rw [readTagged, readTaggedMembers, readKey, hkey]
    simp [orFault, htag, hfound, bind, Except.bind]

end

/-! ## Whole texts -/

/-- What a written value is read as. -/
theorem readText_eq_ok {read : Reader α} {n : Nat} {v : Json} {a : α} (plain : Plain n v)
    (deep : n ≤ maxNesting) (h : Reads read v a) : readText read v.text = .ok a := by
  obtain ⟨o, hscan, hvalue⟩ := plain.ofText deep
  rw [readText, hscan]
  simp [h o hvalue, bind, Except.bind]

end TenantAccess.Json
