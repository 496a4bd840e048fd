import TenantAccess.Pattern

/-!
# What the steps of a pattern cover

`covers` goes over the candidate once per step and keeps a row of answers, one for each suffix of
the candidate. A longer candidate only puts one more answer in front of a row, so the first answer
obeys simple equations, and with them it agrees with the relation `Covers`. Steps that follow each
other divide the candidate among them.
-/
namespace TenantAccess.Pattern

variable {p : Step} {ps qs : List Step} {c d : Char} {cs xs ys : List Char}

/-! ## Rows of answers -/

theorem exists_coverage_cons (c : Char) (cs : List Char) (ps : List Step) :
    ∃ b, coverage (c :: cs) ps = b :: coverage cs ps := by
  induction ps with
  | nil => exact ⟨false, rfl⟩
  | cons p ps ih =>
    obtain ⟨b, hb⟩ := ih
    have hrow : coverage (c :: cs) (p :: ps) = p.row (c :: cs) (b :: coverage cs ps) := by
      rw [coverage, hb]
    exact ⟨_, hrow⟩

theorem coverage_cons (c : Char) (cs : List Char) (ps : List Step) :
    coverage (c :: cs) ps = covers ps (c :: cs) :: coverage cs ps := by
  obtain ⟨b, hb⟩ := exists_coverage_cons c cs ps
  rw [covers, hb, List.headD_cons]

theorem coverage_nil (ps : List Step) : coverage [] ps = [covers ps []] := by
  have hlength : ∃ b, coverage [] ps = [b] := by
    induction ps with
    | nil => exact ⟨true, rfl⟩
    | cons p ps ih =>
      obtain ⟨b, hb⟩ := ih
      have hrow : coverage [] (p :: ps) = if p.isRun then [b] else [false] := by
        rw [coverage, hb]
        rfl
      cases hp : p.isRun with
      | true => exact ⟨b, by rw [hrow, hp, if_pos rfl]⟩
      | false => exact ⟨false, by rw [hrow, hp]; rfl⟩
  obtain ⟨b, hb⟩ := hlength
  rw [covers, hb, List.headD_cons]

/-! ## Equations for the first answer -/

@[simp] theorem covers_nil_nil : covers [] [] = true := rfl

@[simp] theorem covers_nil_cons : covers [] (c :: cs) = false := rfl

@[simp] theorem covers_cons_nil : covers (p :: ps) [] = (p.isRun && covers ps []) := by
  have hrow : covers (p :: ps) [] = (if p.isRun then [covers ps []] else [false]).headD false := by
    rw [covers, coverage, coverage_nil]
    rfl
  rw [hrow]
  cases p.isRun <;> rfl

@[simp] theorem covers_char_cons :
    covers (.char d :: ps) (c :: cs) = (c == d && covers ps cs) := by
  have hrow : covers (.char d :: ps) (c :: cs) = (c == d && (coverage cs ps).headD false) := by
    rw [covers, coverage, coverage_cons]
    rfl
  exact hrow

theorem covers_run_cons (run : p.isRun = true) :
    covers (p :: ps) (c :: cs) = (covers ps (c :: cs) || (p.allows c && covers (p :: ps) cs)) := by
  cases p with
  | char d => cases run
  | segment =>
    rw [covers, coverage, coverage_cons]
    rfl
  | rest =>
    rw [covers, coverage, coverage_cons]
    rfl

/-! ## Agreement with the relation -/

theorem Step.isRun_of_allows (h : p.allows c = true) : p.isRun = true := by
  cases p with
  | char d => cases h
  | segment => rfl
  | rest => rfl

theorem Covers.covers_eq (h : Covers ps cs) : covers ps cs = true := by
  induction h with
  | nil => rfl
  | char _ ih => simp [ih]
  | @stop p ps cs run _ ih =>
    cases cs with
    | nil => simp [run, ih]
    | cons c cs => simp [covers_run_cons run, ih]
  | more allowed _ ih => simp [covers_run_cons (Step.isRun_of_allows allowed), allowed, ih]

theorem covers_of_covers_eq (h : covers ps cs = true) : Covers ps cs := by
  induction ps generalizing cs with
  | nil =>
    cases cs with
    | nil => exact .nil
    | cons c cs => cases h
  | cons p ps ih =>
    induction cs with
    | nil =>
      rw [covers_cons_nil, Bool.and_eq_true] at h
      exact .stop h.1 (ih h.2)
    | cons c cs ih' =>
      cases hp : p.isRun with
      | false =>
        cases p with
        | char d =>
          rw [covers_char_cons, Bool.and_eq_true, beq_iff_eq] at h
          obtain ⟨rfl, h⟩ := h
          exact .char (ih h)
        | segment => cases hp
        | rest => cases hp
      | true =>
        rw [covers_run_cons hp, Bool.or_eq_true, Bool.and_eq_true] at h
        rcases h with h | ⟨hallows, h⟩
        · exact .stop hp (ih h)
        · exact .more hallows (ih' h)

theorem covers_iff : covers ps cs = true ↔ Covers ps cs :=
  ⟨covers_of_covers_eq, Covers.covers_eq⟩

/-! ## Steps that follow each other -/

theorem Covers.append (hp : Covers ps xs) (hq : Covers qs ys) : Covers (ps ++ qs) (xs ++ ys) := by
  induction hp with
  | nil => exact hq
  | char _ ih => exact .char ih
  | stop run _ ih => exact .stop run ih
  | more allowed _ ih => exact .more allowed ih

theorem Covers.exists_append (h : Covers (ps ++ qs) cs) :
    ∃ xs ys, cs = xs ++ ys ∧ Covers ps xs ∧ Covers qs ys := by
  induction ps generalizing cs with
  | nil => exact ⟨[], cs, rfl, .nil, h⟩
  | cons p ps ih =>
    -- the first step covers some characters before the others begin
    generalize hsteps : p :: ps ++ qs = steps at h
    induction h with
    | nil => cases hsteps
    | char tail _ =>
      cases hsteps
      obtain ⟨xs, ys, rfl, hxs, hys⟩ := ih tail
      exact ⟨_ :: xs, ys, rfl, .char hxs, hys⟩
    | stop run tail _ =>
      cases hsteps
      obtain ⟨xs, ys, rfl, hxs, hys⟩ := ih tail
      exact ⟨xs, ys, rfl, .stop run hxs, hys⟩
    | more allowed _ ih' =>
      cases hsteps
      obtain ⟨xs, ys, rfl, hxs, hys⟩ := ih' rfl
      exact ⟨_ :: xs, ys, rfl, .more allowed hxs, hys⟩

theorem covers_append_iff :
    Covers (ps ++ qs) cs ↔ ∃ xs ys, cs = xs ++ ys ∧ Covers ps xs ∧ Covers qs ys := by
  refine ⟨Covers.exists_append, ?_⟩
  rintro ⟨xs, ys, rfl, hxs, hys⟩
  exact hxs.append hys

/-- A run by itself covers the texts of characters that it allows. -/
theorem covers_run_iff (run : p.isRun = true) :
    Covers [p] cs ↔ ∀ c ∈ cs, p.allows c = true := by
  constructor
  · intro h
    generalize hsteps : [p] = steps at h
    induction h with
    | nil => cases hsteps
    | char _ _ =>
      cases hsteps
      cases run
    | stop _ tail _ =>
      cases hsteps
      cases tail
      exact List.forall_mem_nil _
    | more allowed _ ih =>
      cases hsteps
      exact List.forall_mem_cons.2 ⟨allowed, ih rfl⟩
  · intro h
    induction cs with
    | nil => exact .stop run .nil
    | cons c cs ih =>
      obtain ⟨hc, hcs⟩ := List.forall_mem_cons.1 h
      exact .more hc (ih hcs)

theorem covers_segment_iff : Covers [.segment] cs ↔ ':' ∉ cs ∧ '/' ∉ cs := by
  rw [covers_run_iff rfl]
  simp only [Step.allows, Bool.and_eq_true, bne_iff_ne, ne_eq]
  constructor
  · intro h
    exact ⟨fun hcolon => (h ':' hcolon).1 rfl, fun hslash => (h '/' hslash).2 rfl⟩
  · rintro ⟨hcolon, hslash⟩ c hc
    exact ⟨fun heq => hcolon (heq ▸ hc), fun heq => hslash (heq ▸ hc)⟩

theorem covers_line_iff : Covers [.rest] cs ↔ '\n' ∉ cs := by
  rw [covers_run_iff rfl]
  simp only [Step.allows, bne_iff_ne, ne_eq]
  exact ⟨fun h hline => h '\n' hline rfl, fun h c hc heq => h (heq ▸ hc)⟩

/-- Characters that are no stars cover themselves only. -/
theorem covers_map_char_iff : Covers (xs.map .char) cs ↔ cs = xs := by
  constructor
  · intro h
    induction xs generalizing cs with
    | nil =>
      cases h
      rfl
    | cons x xs ih =>
      cases h with
      | char tail => rw [ih tail]
      | stop run _ => cases run
      | more allowed _ => cases allowed
  · rintro rfl
    induction cs with
    | nil => exact .nil
    | cons c cs ih => exact .char ih

/-! ## Compiled patterns -/

variable [Engine]

/-- How a pattern is matched depends on whether it is a star and whether it has any. -/
theorem eq_of_compile {source : String} {p : Pattern} (h : compile source = .ok p) :
    p = ⟨source, if source.toList = ['*'] then .any
      else if '*' ∈ source.toList then .wildcard (Step.ofPattern source.toList)
      else .literal⟩ := by
  simp only [compile] at h
  split at h
  · cases h
  · split at h
    · cases h
    · split at h
      · rename_i hstar
        cases h
        rw [if_pos hstar]
      · rename_i hstar
        split at h
        · rename_i hplain
          cases h
          have hnot : '*' ∉ source.toList := by simpa using hplain
          rw [if_neg hstar, if_neg hnot]
        · rename_i hplain
          split at h
          · cases h
          · cases h
            have hmem : '*' ∈ source.toList := by simpa using hplain
            rw [if_neg hstar, if_pos hmem]

theorem kind_of_compile {source : String} {p : Pattern} (h : compile source = .ok p) :
    p.kind = if source.toList = ['*'] then .any
      else if '*' ∈ source.toList then .wildcard (Step.ofPattern source.toList)
      else .literal := by
  rw [eq_of_compile h]

theorem source_of_compile {source : String} {p : Pattern} (h : compile source = .ok p) :
    p.source = source := by
  rw [eq_of_compile h]

end TenantAccess.Pattern
