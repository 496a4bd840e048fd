import Mathlib.Data.Finset.Card
import TenantAccess.Proofs.Generations

/-!
# What a cache keeps

A lookup that finds something and an offer that is accepted renew the entry of their principal. The
entries stand in the order of their last renewal, so room is made by giving up the entry renewed
longest ago. The history of a cache lists what happened to it; it tells which grants a lookup can
find, and which entries are still there because too few others were renewed since.
-/
namespace TenantAccess

/-- Something that changed a cache. -/
inductive CacheEvent where
  | found (p : Principal)
  | stored (p : Principal) (g : PreparedGrants)
  | invalidated (i : Invalidation)

namespace CacheEvent

/-- The principal whose entry is the one used last from then on. -/
def renewed? : CacheEvent → Option Principal
  | .found p => some p
  | .stored p _ => some p
  | .invalidated _ => none

/-- The principals whose entries were renewed, one of them left out. -/
def others (p : Principal) (es : List CacheEvent) : Finset Principal :=
  (es.filterMap renewed?).toFinset.erase p

/-- No invalidation covers the principal. -/
def Spared (p : Principal) (es : List CacheEvent) : Prop :=
  ∀ i, .invalidated i ∈ es → ¬ i.Covers p

/-- Of all grants stored for the principal these came last, and they were not invalidated since. -/
def LastStored (p : Principal) (g : PreparedGrants) (past : List CacheEvent) : Prop :=
  ∃ older newer, past = older ++ .stored p g :: newer ∧ (∀ g', .stored p g' ∉ newer) ∧
    Spared p newer

/-- Since the last renewal of `q` there was one of `p`. -/
def RenewedSince (past : List CacheEvent) (p q : Principal) : Prop :=
  ∃ older newer, past = older ++ newer ∧ (∃ e ∈ newer, e.renewed? = some p) ∧
    ∀ e ∈ newer, e.renewed? ≠ some q

variable {p q : Principal} {g : PreparedGrants} {es past : List CacheEvent} {e : CacheEvent}

theorem Spared.concat_iff :
    Spared p (es ++ [e]) ↔ Spared p es ∧ ∀ i, e = .invalidated i → ¬ i.Covers p := by
  simp only [Spared, List.mem_append, List.mem_singleton, or_imp, forall_and, @eq_comm _ e]

theorem others_concat_of_none (h : e.renewed? = none) : others p (es ++ [e]) = others p es := by
  simp [others, h]

theorem others_concat_of_renewed (h : e.renewed? = some q) (hpq : q ≠ p) :
    others p (es ++ [e]) = insert q (others p es) := by
  ext r
  simp only [others, List.filterMap_append, List.filterMap_cons, h, List.filterMap_nil,
    Finset.mem_erase, Finset.mem_insert, List.mem_toFinset, List.mem_append, List.mem_singleton]
  constructor
  · rintro ⟨hne, hmem | rfl⟩
    · exact .inr ⟨hne, hmem⟩
    · exact .inl rfl
  · rintro (rfl | ⟨hne, hmem⟩)
    · exact ⟨hpq, .inr rfl⟩
    · exact ⟨hne, .inl hmem⟩

theorem others_subset_concat : others p es ⊆ others p (es ++ [e]) := by
  intro r hr
  simp only [others, List.filterMap_append, Finset.mem_erase, List.mem_toFinset,
    List.mem_append] at hr ⊢
  exact ⟨hr.1, .inl hr.2⟩

theorem LastStored.concat (h : LastStored p g past) (other : ∀ g', e ≠ .stored p g')
    (spared : ∀ i, e = .invalidated i → ¬ i.Covers p) : LastStored p g (past ++ [e]) := by
  obtain ⟨older, newer, rfl, hlast, hspared⟩ := h
  refine ⟨older, newer ++ [e], by simp, fun g' hg' => ?_, Spared.concat_iff.2 ⟨hspared, spared⟩⟩
  rcases List.mem_append.1 hg' with hg' | hg'
  · exact hlast g' hg'
  · exact other g' (List.mem_singleton.1 hg').symm

theorem LastStored.stored : LastStored p g (past ++ [.stored p g]) :=
  ⟨past, [], rfl, fun _ => List.not_mem_nil, fun _ h => nomatch h⟩

theorem RenewedSince.concat (h : RenewedSince past p q) (other : e.renewed? ≠ some q) :
    RenewedSince (past ++ [e]) p q := by
  obtain ⟨older, newer, rfl, ⟨e', he', hrenewed⟩, hnot⟩ := h
  refine ⟨older, newer ++ [e], List.append_assoc .., ⟨e', List.mem_append_left _ he', hrenewed⟩, ?_⟩
  intro f hf
  rcases List.mem_append.1 hf with hf | hf
  · exact hnot f hf
  · rw [List.mem_singleton.1 hf]
    exact other

theorem RenewedSince.renewed (h : e.renewed? = some p) (hpq : p ≠ q) :
    RenewedSince (past ++ [e]) p q := by
  refine ⟨past, [e], rfl, ⟨e, .head _, h⟩, fun f hf => ?_⟩
  rw [List.mem_singleton.1 hf, h]
  exact fun heq => hpq (Option.some.inj heq)

end CacheEvent

open CacheEvent (others Spared LastStored RenewedSince)

instance (i : Invalidation) (p : Principal) : Decidable (i.Covers p) :=
  inferInstanceAs (Decidable (_ ∨ _ ∨ _))

namespace GrantCache

/-- What a use does to the cache. A lookup counts if it finds something, an offer if it is
accepted. -/
def event? (c : GrantCache) : CacheUse → Option CacheEvent
  | .get p => (c.get p).1.map fun _ => .found p
  | .put p g generation => if (c.put p g generation).1 then some (.stored p g) else none
  | .invalidate i => some (.invalidated i)

/-- What happens to the cache when it is used, in the order of time. -/
def history (c : GrantCache) : List CacheUse → List CacheEvent
  | [] => []
  | u :: us => (c.event? u).toList ++ (c.use u).history us

variable {c c' : GrantCache} {p q : Principal} {g : PreparedGrants} {n : Nat} {i : Invalidation}
  {e? : Option CacheEvent} {e : CacheEvent} {past : List CacheEvent}

theorem history_concat (c : GrantCache) (us : List CacheUse) (u : CacheUse) :
    c.history (us ++ [u]) = c.history us ++ ((us.foldl use c).event? u).toList := by
  induction us generalizing c with
  | nil => simp [history]
  | cons v us ih => simp [history, ih, List.append_assoc]

/-! ## One step -/

/-- The cache with those grants as the entry used last. -/
def renew (c : GrantCache) (p : Principal) (g : PreparedGrants) : GrantCache :=
  { c with entries := ((p, g) :: without p c.entries).take c.capacity }

/-- What a use can do to a cache. -/
inductive Step (c : GrantCache) : Option CacheEvent → GrantCache → Prop
  | idle : Step c none c
  | found {p : Principal} {g : PreparedGrants} (held : (p, g) ∈ c.entries) :
      Step c (some (.found p)) (c.renew p g)
  | stored {p : Principal} {g : PreparedGrants} : Step c (some (.stored p g)) (c.renew p g)
  | invalidated {i : Invalidation} : Step c (some (.invalidated i)) (c.invalidate i)

/-- There is room for an entry, no more entries than there is room for, and one for each
principal. -/
structure Tidy (c : GrantCache) : Prop where
  room : 0 < c.capacity
  fits : c.size ≤ c.capacity
  distinct : (c.entries.map Prod.fst).Nodup

theorem length_without_lt (held : (p, g) ∈ c.entries) : (without p c.entries).length < c.size :=
  List.length_filter_lt_length_iff_exists.2 ⟨(p, g), held, by simp⟩

/-- A lookup that finds something pushes nothing out. -/
theorem get_of_found (fits : c.size ≤ c.capacity) (found : (c.get p).1 = some g) :
    (c.get p).2 = c.renew p g := by
  have hshorter := length_without_lt (mem_of_get found)
  have hall : ((p, g) :: without p c.entries).take c.capacity = (p, g) :: without p c.entries :=
    List.take_of_length_le (by rw [List.length_cons]; omega)
  rw [renew, hall]
  simp only [get] at found ⊢
  split at found
  · cases found
    rfl
  · cases found

theorem step_use (fits : c.size ≤ c.capacity) (u : CacheUse) : Step c (c.event? u) (c.use u) := by
  cases u with
  | get p =>
    rw [event?, use]
    cases hfound : (c.get p).1 with
    | some g =>
      rw [get_of_found fits hfound]
      exact .found (mem_of_get hfound)
    | none =>
      have hmissed : (c.get p).2 = c := by
        simp only [get] at hfound ⊢
        split at hfound
        · cases hfound
        · rfl
      rw [hmissed]
      exact .idle
  | put p g n =>
    rw [event?, use, put_fst]
    cases haccepts : c.accepts p g n with
    | false =>
      rw [put_of_refused haccepts]
      exact .idle
    | true =>
      have hstored : (c.put p g n).2 = c.renew p g := by rw [put, if_pos haccepts, renew]
      rw [hstored]
      exact .stored
  | invalidate i => exact .invalidated

/-! ## The entries after a step -/

theorem entries_invalidate (c : GrantCache) (i : Invalidation) :
    (c.invalidate i).entries = c.entries.filter fun e => ¬ i.Covers e.1 := by
  cases i with
  | principal p =>
    refine List.filter_congr fun e _ => ?_
    simp [Invalidation.Covers, eq_comm]
  | organization o =>
    refine List.filter_congr fun e _ => ?_
    simp [Invalidation.Covers, eq_comm]
  | all => simp [invalidate, clear, Invalidation.Covers]

theorem entries_renew (room : 0 < c.capacity) : ∃ rest,
    (c.renew p g).entries = (p, g) :: rest ∧ rest.Sublist (without p c.entries) := by
  obtain ⟨k, hk⟩ : ∃ k, c.capacity = k + 1 := ⟨c.capacity - 1, by omega⟩
  refine ⟨(without p c.entries).take k, ?_, List.take_sublist ..⟩
  rw [renew, hk, List.take_succ_cons]

theorem mem_renew (room : 0 < c.capacity) {x : Principal × PreparedGrants}
    (h : x ∈ (c.renew p g).entries) : x = (p, g) ∨ x ∈ c.entries ∧ x.1 ≠ p := by
  obtain ⟨rest, hentries, hrest⟩ := entries_renew (c := c) (p := p) (g := g) room
  rw [hentries, List.mem_cons] at h
  exact h.imp_right fun h => mem_without_iff.1 (hrest.subset h)

theorem Tidy.renew (h : c.Tidy) : (c.renew p g).Tidy := by
  refine ⟨h.room, List.length_take_le .., ?_⟩
  obtain ⟨rest, hentries, hrest⟩ := entries_renew (p := p) (g := g) h.room
  have hsub : (rest.map Prod.fst).Sublist (c.entries.map Prod.fst) :=
    (hrest.trans List.filter_sublist).map Prod.fst
  rw [hentries, List.map_cons, List.nodup_cons]
  refine ⟨fun hmem => ?_, h.distinct.sublist hsub⟩
  obtain ⟨x, hx, hxp⟩ := List.mem_map.1 hmem
  exact (mem_without_iff.1 (hrest.subset hx)).2 hxp

theorem Tidy.step (h : c.Tidy) (hstep : Step c e? c') : c'.Tidy := by
  cases hstep with
  | idle => exact h
  | found _ => exact h.renew
  | stored => exact h.renew
  | @invalidated i =>
    have hsub : (c.invalidate i).entries.Sublist c.entries := by
      rw [entries_invalidate]
      exact List.filter_sublist
    refine ⟨by rw [capacity_invalidate]; exact h.room, ?_, h.distinct.sublist (hsub.map _)⟩
    rw [capacity_invalidate]
    exact hsub.length_le.trans h.fits

/-! ## What the entries tell of the past -/

/-- Every entry holds the grants that were stored last for its principal, and the entries stand in
the order of their last renewal. -/
structure Reflects (c : GrantCache) (past : List CacheEvent) : Prop where
  stored : ∀ x ∈ c.entries, LastStored x.1 x.2 past
  ordered : c.entries.Pairwise fun x y => RenewedSince past x.1 y.1

theorem Reflects.renew (h : c.Reflects past) (room : 0 < c.capacity)
    (renewed : e.renewed? = some p) (own : LastStored p g (past ++ [e])) :
    (c.renew p g).Reflects (past ++ [e]) := by
  have hother : ∀ q, q ≠ p → e.renewed? ≠ some q := fun q hq heq =>
    hq (Option.some.inj (heq.symm.trans renewed))
  constructor
  · intro x hx
    rcases mem_renew room hx with rfl | ⟨hx, hne⟩
    · exact own
    · refine (h.stored x hx).concat (fun g' he => ?_) fun i he => ?_
      · exact hother x.1 hne (by rw [he]; rfl)
      · rw [he] at renewed
        cases renewed
  · obtain ⟨rest, hentries, hrest⟩ := entries_renew (p := p) (g := g) room
    rw [hentries, List.pairwise_cons]
    constructor
    · intro x hx
      exact .renewed renewed (mem_without_iff.1 (hrest.subset hx)).2.symm
    · refine (h.ordered.sublist (hrest.trans List.filter_sublist)).imp_of_mem ?_
      intro x y _ hy hxy
      exact hxy.concat (hother y.1 (mem_without_iff.1 (hrest.subset hy)).2)

theorem Reflects.step (h : c.Reflects past) (room : 0 < c.capacity) (hstep : Step c e? c') :
    c'.Reflects (past ++ e?.toList) := by
  cases hstep with
  | idle =>
    rw [Option.toList_none, List.append_nil]
    exact h
  | found held =>
    exact h.renew room rfl ((h.stored _ held).concat (fun _ h => nomatch h) fun _ h => nomatch h)
  | stored => exact h.renew room rfl .stored
  | @invalidated i =>
    constructor
    · intro x hx
      obtain ⟨hx, hspared⟩ := mem_invalidate_iff.1 hx
      refine (h.stored x hx).concat (fun _ h => nomatch h) fun j hj => ?_
      cases hj
      exact hspared
    · rw [entries_invalidate]
      exact (h.ordered.filter _).imp fun hxy => hxy.concat nofun

/-! ## What stays -/

/-- There is an entry for the principal, with only those others before it. -/
def Retains (c : GrantCache) (p : Principal) (others : Finset Principal) : Prop :=
  ∃ ahead g behind, c.entries = ahead ++ (p, g) :: behind ∧ ∀ x ∈ ahead, x.1 ∈ others

theorem retains_renew_self (room : 0 < c.capacity) (others : Finset Principal) :
    (c.renew p g).Retains p others := by
  obtain ⟨rest, hentries, -⟩ := entries_renew (p := p) (g := g) room
  exact ⟨[], g, rest, hentries, fun _ h => nomatch h⟩

theorem Step.retains_renewed (hstep : Step c (some e) c') (room : 0 < c.capacity)
    (renewed : e.renewed? = some p) (others : Finset Principal) : c'.Retains p others := by
  cases hstep with
  | found _ =>
    cases renewed
    exact retains_renew_self room others
  | stored =>
    cases renewed
    exact retains_renew_self room others
  | invalidated => cases renewed

/-- Entries for distinct principals are no more than the principals there are. -/
theorem length_le_card {xs : List (Principal × PreparedGrants)} {others : Finset Principal}
    (distinct : (xs.map Prod.fst).Nodup) (h : ∀ x ∈ xs, x.1 ∈ others) :
    xs.length ≤ others.card := by
  have hsubset : (xs.map Prod.fst).toFinset ⊆ others := by
    intro p hp
    obtain ⟨x, hx, rfl⟩ := List.mem_map.1 (List.mem_toFinset.1 hp)
    exact h x hx
  calc xs.length = (xs.map Prod.fst).toFinset.card := by
        rw [List.toFinset_card_of_nodup distinct, List.length_map]
    _ ≤ others.card := Finset.card_le_card hsubset

theorem Retains.renew {others : Finset Principal} (h : c.Retains p others) (tidy : c.Tidy)
    (hqp : q ≠ p) (few : (insert q others).card < c.capacity) :
    (c.renew q g).Retains p (insert q others) := by
  obtain ⟨ahead, gp, behind, hentries, hahead⟩ := h
  have hwithout : without q c.entries = without q ahead ++ (p, gp) :: without q behind := by
    rw [hentries]
    simp [without, hqp.symm]
  let front := (q, g) :: without q ahead
  have hfront : ∀ x ∈ front, x.1 ∈ insert q others := by
    intro x hx
    rcases List.mem_cons.1 hx with rfl | hx
    · exact Finset.mem_insert_self ..
    · exact Finset.mem_insert_of_mem (hahead x (mem_without_iff.1 hx).1)
  have hdistinct : (front.map Prod.fst).Nodup := by
    have hsub : (without q ahead).Sublist c.entries := by
      rw [hentries]
      exact List.filter_sublist.trans (List.sublist_append_left ..)
    rw [List.map_cons, List.nodup_cons]
    refine ⟨fun hmem => ?_, tidy.distinct.sublist (hsub.map _)⟩
    obtain ⟨x, hx, hxq⟩ := List.mem_map.1 hmem
    exact (mem_without_iff.1 hx).2 hxq
  -- the entries ahead are too few to push the one behind them out
  have hroom : front.length < c.capacity := (length_le_card hdistinct hfront).trans_lt few
  obtain ⟨k, hk⟩ : ∃ k, c.capacity - front.length = k + 1 :=
    ⟨c.capacity - front.length - 1, by omega⟩
  refine ⟨front, gp, (without q behind).take k, ?_, hfront⟩
  have hnew : (c.renew q g).entries = (front ++ (p, gp) :: without q behind).take c.capacity := by
    rw [GrantCache.renew, hwithout]
    rfl
  rw [hnew, List.take_append, List.take_of_length_le hroom.le, hk, List.take_succ_cons]

theorem Retains.invalidate {others : Finset Principal} (h : c.Retains p others)
    (spared : ¬ i.Covers p) : (c.invalidate i).Retains p others := by
  obtain ⟨ahead, g, behind, hentries, hahead⟩ := h
  refine ⟨ahead.filter fun e => ¬ i.Covers e.1, g, behind.filter fun e => ¬ i.Covers e.1, ?_, ?_⟩
  · rw [entries_invalidate, hentries, List.filter_append, List.filter_cons_of_pos (by simpa)]
  · intro x hx
    exact hahead x (List.mem_filter.1 hx).1

theorem Retains.step {newer : List CacheEvent} (h : c.Retains p (others p newer)) (tidy : c.Tidy)
    (hstep : Step c (some e) c') (spared : ∀ i, e = .invalidated i → ¬ i.Covers p)
    (few : (others p (newer ++ [e])).card < c.capacity) :
    c'.Retains p (others p (newer ++ [e])) := by
  by_cases hown : e.renewed? = some p
  · exact hstep.retains_renewed tidy.room hown _
  -- a renewal of another principal puts that one before it
  have hrenew : ∀ q g, e.renewed? = some q →
      (c.renew q g).Retains p (others p (newer ++ [e])) := by
    intro q g hq
    have hqp : q ≠ p := fun heq => hown (heq ▸ hq)
    rw [CacheEvent.others_concat_of_renewed hq hqp] at few ⊢
    exact h.renew tidy hqp few
  cases hstep with
  | found _ => exact hrenew _ _ rfl
  | stored => exact hrenew _ _ rfl
  | invalidated =>
    rw [CacheEvent.others_concat_of_none rfl]
    exact h.invalidate (spared _ rfl)

/-! ## Whole histories -/

theorem tidy_ofCapacity (capacity : Nat) : (ofCapacity capacity).Tidy where
  room := Nat.le_max_right capacity 1
  fits := Nat.zero_le _
  distinct := .nil

theorem Tidy.uses (h : c.Tidy) (us : List CacheUse) : (us.foldl use c).Tidy := by
  induction us generalizing c with
  | nil => exact h
  | cons u us ih => exact ih (h.step (step_use h.fits u))

theorem capacity_uses (us : List CacheUse) : (us.foldl use c).capacity = c.capacity := by
  induction us generalizing c with
  | nil => rfl
  | cons u us ih =>
    rw [List.foldl_cons, ih]
    cases u with
    | get p => exact capacity_get
    | put p g n => exact capacity_put
    | invalidate i => exact capacity_invalidate

theorem reflects_history (capacity : Nat) (us : List CacheUse) :
    (us.foldl use (ofCapacity capacity)).Reflects ((ofCapacity capacity).history us) := by
  induction us using List.reverseRecOn with
  | nil => exact ⟨(fun _ h => nomatch h), .nil⟩
  | append_singleton us u ih =>
    have htidy := (tidy_ofCapacity capacity).uses us
    rw [List.foldl_append, history_concat]
    exact ih.step htidy.room (step_use htidy.fits u)

/-- An entry that was renewed is still there unless it was invalidated or as many others were
renewed since as there is room for. -/
theorem retains_history (h : c.Tidy) (us : List CacheUse) {older newer : List CacheEvent}
    (past : c.history us = older ++ e :: newer) (renewed : e.renewed? = some p)
    (spared : Spared p newer) (few : (others p newer).card < c.capacity) :
    (us.foldl use c).Retains p (others p newer) := by
  induction us using List.reverseRecOn generalizing newer with
  | nil => simp [history] at past
  | append_singleton us u ih =>
    have htidy := h.uses us
    have hstep := step_use htidy.fits u
    rw [history_concat] at past
    rw [List.foldl_append, List.foldl_cons, List.foldl_nil]
    generalize (us.foldl use c).event? u = e? at past hstep
    generalize (us.foldl use c).use u = c' at hstep ⊢
    cases e? with
    | none =>
      cases hstep
      rw [Option.toList_none, List.append_nil] at past
      exact ih past spared few
    | some f =>
      rcases List.eq_nil_or_concat newer with rfl | ⟨newer, f', rfl⟩
      · obtain ⟨-, hlast⟩ := List.append_inj' past rfl
        cases hlast
        exact hstep.retains_renewed htidy.room renewed _
      · rw [List.concat_eq_append] at past spared few ⊢
        rw [← List.cons_append, ← List.append_assoc] at past
        obtain ⟨hpast, hlast⟩ := List.append_inj' past rfl
        cases hlast
        obtain ⟨hspared, hcovers⟩ := CacheEvent.Spared.concat_iff.1 spared
        have hfewer : (others p newer).card ≤ (others p (newer ++ [f])).card :=
          Finset.card_le_card CacheEvent.others_subset_concat
        rw [← capacity_uses us] at few
        have hkept := ih hpast hspared (by rw [← capacity_uses us]; omega)
        exact hkept.step htidy hstep hcovers few

/-- Over any use of a cache there are no more entries than there is room for. What a lookup finds
was stored last for that very principal and not invalidated since. An entry is found again if it was
renewed, no invalidation since then covers it, and fewer others were renewed since than there is
room for. The entries stand in the order of their last renewal; an invalidation of one principal or
of an organization removes its own entries and keeps the others in their order. -/
theorem entries_of_history (capacity : Nat) (us : List CacheUse) :
    let c := us.foldl use (ofCapacity capacity)
    let past := (ofCapacity capacity).history us
    c.size ≤ max capacity 1 ∧
      (∀ p g, (c.get p).1 = some g → LastStored p g past) ∧
      (∀ p older e newer, past = older ++ e :: newer → e.renewed? = some p → Spared p newer →
        (others p newer).card < max capacity 1 → ∃ g, (c.get p).1 = some g) ∧
      c.entries.Pairwise (fun x y => RenewedSince past x.1 y.1) ∧
      (∀ p, (c.invalidatePrincipal p).entries.Sublist c.entries ∧
        ∀ x, x ∈ (c.invalidatePrincipal p).entries ↔ x ∈ c.entries ∧ x.1 ≠ p) ∧
      ∀ o, (c.invalidateOrganization o).entries.Sublist c.entries ∧
        ∀ x, x ∈ (c.invalidateOrganization o).entries ↔ x ∈ c.entries ∧ x.1.organization ≠ o := by
  intro c past
  have htidy : c.Tidy := (tidy_ofCapacity capacity).uses us
  have hreflects : c.Reflects past := reflects_history capacity us
  have hcapacity : c.capacity = max capacity 1 := capacity_uses us
  refine ⟨?_, ?_, ?_, hreflects.ordered, ?_, ?_⟩
  · rw [← hcapacity]
    exact htidy.fits
  · intro p g found
    exact hreflects.stored _ (mem_of_get found)
  · intro p older e newer hpast renewed spared few
    obtain ⟨ahead, g, behind, hentries, -⟩ :=
      retains_history (tidy_ofCapacity capacity) us hpast renewed spared few
    have hmem : (p, g) ∈ c.entries := by
      rw [hentries]
      exact List.mem_append_right _ (.head _)
    exact exists_get_of_mem hmem
  · intro p
    exact ⟨List.filter_sublist, fun x => mem_without_iff⟩
  · intro o
    exact ⟨List.filter_sublist, fun x => by simp [invalidateOrganization]⟩

/-! ## A cache with room for two -/

namespace Pair

def ada : Principal := ⟨"acme", .user, "ada"⟩

def bob : Principal := ⟨"acme", .user, "bob"⟩

def cleo : Principal := ⟨"acme", .user, "cleo"⟩

def shared : PreparedGrants where
  shares := [⟨"s1", "acme", "ada", .user, "post-1", .viewer⟩]

/-- Ada's second grants are stored after Bob's. Cleo's are refused at first, because they were read
before an invalidation. -/
def uses : List CacheUse :=
  [.put ada {} 0, .put bob {} 0, .put ada shared 0, .invalidate (.principal cleo), .put cleo {} 0,
    .put cleo {} 1]

def newer : List CacheEvent := [.invalidated (.principal cleo), .stored cleo {}]

theorem history_uses : (ofCapacity 2).history uses =
    [.stored ada {}, .stored bob {}] ++ .stored ada shared :: newer := rfl

theorem spared : Spared ada newer := by
  intro i hi
  have hi : i = .principal cleo := by simpa [newer] using hi
  rw [hi]
  decide

end Pair

/-- Ada's grants are found although two others were stored before and after them. -/
theorem entries_of_history_pair : (others Pair.ada Pair.newer).card = 1 ∧
    ∃ g, ((Pair.uses.foldl use (ofCapacity 2)).get Pair.ada).1 = some g ∧
      LastStored Pair.ada g ((ofCapacity 2).history Pair.uses) ∧
      ((Pair.uses.foldl use (ofCapacity 2)).get Pair.bob).1 = none := by
  have hone : (others Pair.ada Pair.newer).card = 1 := by decide
  obtain ⟨-, hlast, hkept, -⟩ := entries_of_history 2 Pair.uses
  obtain ⟨g, hfound⟩ := hkept Pair.ada _ _ _ Pair.history_uses rfl Pair.spared
    (by rw [hone]; decide)
  exact ⟨hone, g, hfound, hlast _ g hfound, rfl⟩

end GrantCache

end TenantAccess
