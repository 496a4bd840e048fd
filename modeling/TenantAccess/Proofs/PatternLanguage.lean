import TenantAccess.Proofs.Coverage

/-!
# The language of a pattern

The stars of a pattern stand between texts. A candidate matches if it consists of these texts with a
run in place of each star: `weave` puts texts and runs together, and `Fits` says which runs may stand
for the stars. The search for a cover agrees with this description.
-/
namespace TenantAccess.Pattern

/-- The texts, with the runs between them. -/
def weave : List (List Char) → List (List Char) → List Char
  | [], _ => []
  | s :: _, [] => s
  | s :: ss, w :: ws => s ++ (w ++ weave ss ws)

/-- One run for each star. A run stays inside its segment. Only where nothing but an empty text
follows it, at the very end of the pattern, it may cross segments, and then it stays in its line. -/
structure Fits (texts runs : List (List Char)) : Prop where
  count : texts.length = runs.length + 1
  allowed : ∀ i w, runs[i]? = some w →
    if texts.drop (i + 1) = [[]] then '\n' ∉ w else ':' ∉ w ∧ '/' ∉ w

/-- The candidates that a pattern stands for. Every character but the star stands for itself. -/
inductive Denotes (source : List Char) : List Char → Prop
  | any {candidate : List Char} (lone : source = ['*']) : Denotes source candidate
  | literal (plain : '*' ∉ source) : Denotes source source
  | wildcard {runs : List (List Char)} (starred : '*' ∈ source)
      (fits : Fits (source.splitOn '*') runs) : Denotes source (weave (source.splitOn '*') runs)

/-- The texts that are patterns. -/
structure IsPattern (source : String) : Prop where
  nonempty : source ≠ ""
  begins : ∀ c, source.toList.head? = some c → Text.isBlankChar c = false
  ends : ∀ c, source.toList.getLast? = some c → Text.isBlankChar c = false

/-- The engine does not find the pattern too large. The pattern `*` and patterns without wildcards
are not compiled for the engine. -/
def WithinLimit [Engine] (source : String) : Prop :=
  source.toList ≠ ['*'] → '*' ∈ source.toList →
    Engine.size (Step.ofPattern source.toList) ≤ Engine.sizeLimit

variable {source : String} {s w : List Char} {ss ws : List (List Char)} {c : Char}
  {cs xs : List Char}

/-! ## Runs between texts -/

theorem fits_singleton_iff : Fits [s] ws ↔ ws = [] := by
  constructor
  · intro h
    have hcount : 1 = ws.length + 1 := h.count
    exact List.eq_nil_of_length_eq_zero (by omega)
  · rintro rfl
    exact ⟨rfl, fun i w hw => by simp at hw⟩

theorem not_fits_nil (hss : ss ≠ []) : ¬ Fits (s :: ss) [] := by
  intro h
  have hcount : ss.length + 1 = 1 := h.count
  exact hss (List.eq_nil_of_length_eq_zero (by omega))

/-- The first run depends on whether its star ends the pattern. -/
theorem fits_cons_iff : Fits (s :: ss) (w :: ws) ↔
    (if ss = [[]] then '\n' ∉ w else ':' ∉ w ∧ '/' ∉ w) ∧ Fits ss ws := by
  constructor
  · intro h
    refine ⟨h.allowed 0 w rfl, Nat.succ.inj h.count, fun i v hv => ?_⟩
    exact h.allowed (i + 1) v hv
  · rintro ⟨hfirst, h⟩
    refine ⟨congrArg Nat.succ h.count, fun i v hv => ?_⟩
    cases i with
    | zero =>
      cases hv
      exact hfirst
    | succ i => exact h.allowed i v hv

/-- The runs that fit do not depend on the text before the first star. -/
theorem fits_head_iff (s t : List Char) : Fits (s :: ss) ws ↔ Fits (t :: ss) ws := by
  have himp : ∀ s t : List Char, Fits (s :: ss) ws → Fits (t :: ss) ws :=
    fun s t h => ⟨h.count, h.allowed⟩
  exact ⟨himp s t, himp t s⟩

theorem weave_cons_char : weave ((c :: s) :: ss) ws = c :: weave (s :: ss) ws := by
  cases ws <;> rfl

/-! ## Steps of a pattern -/

theorem splitOn_eq_singleton_nil : cs.splitOn '*' = [[]] ↔ cs = [] := by
  constructor
  · intro h
    have hjoin : ['*'].intercalate (cs.splitOn '*') = cs := List.intercalate_splitOn '*'
    rw [h] at hjoin
    exact hjoin.symm
  · rintro rfl
    exact List.splitOn_nil '*'

/-- What the step of a star covers. -/
theorem covers_star_iff : Covers [if cs.isEmpty then .rest else .segment] xs ↔
    if cs.splitOn '*' = [[]] then '\n' ∉ xs else ':' ∉ xs ∧ '/' ∉ xs := by
  simp only [splitOn_eq_singleton_nil]
  cases cs with
  | nil => exact covers_line_iff
  | cons => exact covers_segment_iff

theorem covers_char_iff {ps : List Step} :
    Covers (.char c :: ps) xs ↔ ∃ ys, xs = c :: ys ∧ Covers ps ys := by
  constructor
  · intro h
    cases h with
    | char tail => exact ⟨_, rfl, tail⟩
    | stop run => cases run
    | more allowed => cases allowed
  · rintro ⟨ys, rfl, h⟩
    exact .char h

/-- The steps of a pattern cover its texts with runs that fit between them. -/
theorem covers_ofPattern_iff : Covers (Step.ofPattern cs) xs ↔
    ∃ ws, Fits (cs.splitOn '*') ws ∧ xs = weave (cs.splitOn '*') ws := by
  induction cs generalizing xs with
  | nil =>
    rw [List.splitOn_nil]
    simp only [fits_singleton_iff, exists_eq_left]
    constructor
    · intro h
      cases h
      rfl
    · rintro rfl
      exact .nil
  | cons c cs ih =>
    by_cases hc : c = '*'
    · subst hc
      have htexts : ('*' :: cs).splitOn '*' = [] :: cs.splitOn '*' := by
        rw [List.splitOn_cons_eq_if_modifyHead, if_pos (by decide)]
      have hsteps : Step.ofPattern ('*' :: cs) =
          [if cs.isEmpty then .rest else .segment] ++ Step.ofPattern cs := by
        rw [Step.ofPattern, if_pos rfl, List.singleton_append]
      rw [hsteps, covers_append_iff, htexts]
      constructor
      · rintro ⟨w, ys, rfl, hw, hys⟩
        obtain ⟨ws, hfits, rfl⟩ := ih.1 hys
        exact ⟨w :: ws, fits_cons_iff.2 ⟨covers_star_iff.1 hw, hfits⟩, rfl⟩
      · rintro ⟨ws, hfits, rfl⟩
        cases ws with
        | nil => exact absurd hfits (not_fits_nil (List.splitOn_ne_nil '*' cs))
        | cons w ws =>
          obtain ⟨hw, hfits⟩ := fits_cons_iff.1 hfits
          exact ⟨w, _, rfl, covers_star_iff.2 hw, ih.2 ⟨ws, hfits, rfl⟩⟩
    · obtain ⟨s, ss, htail⟩ := List.exists_cons_of_ne_nil (List.splitOn_ne_nil '*' cs)
      have htexts : (c :: cs).splitOn '*' = (c :: s) :: ss := by
        rw [List.splitOn_cons_eq_if_modifyHead, if_neg (by simpa using hc), htail]
        rfl
      have hsteps : Step.ofPattern (c :: cs) = .char c :: Step.ofPattern cs := by
        rw [Step.ofPattern, if_neg hc]
      rw [hsteps, covers_char_iff, htexts]
      simp only [htail] at ih
      simp only [ih, weave_cons_char, fits_head_iff (c :: s) s]
      constructor
      · rintro ⟨ys, rfl, ws, hfits, rfl⟩
        exact ⟨ws, hfits, rfl⟩
      · rintro ⟨ws, hfits, rfl⟩
        exact ⟨_, rfl, ws, hfits, rfl⟩

/-! ## Candidates -/

theorem denotes_of_starred (lone : source.toList ≠ ['*']) (starred : '*' ∈ source.toList) :
    Denotes source.toList xs ↔
      ∃ ws, Fits (source.toList.splitOn '*') ws ∧ xs = weave (source.toList.splitOn '*') ws := by
  constructor
  · intro h
    cases h with
    | any h => exact absurd h lone
    | literal plain => exact absurd starred plain
    | wildcard _ fits => exact ⟨_, fits, rfl⟩
  · rintro ⟨ws, hfits, rfl⟩
    exact .wildcard starred hfits

theorem denotes_of_plain (plain : '*' ∉ source.toList) :
    Denotes source.toList xs ↔ xs = source.toList := by
  constructor
  · intro h
    cases h with
    | any lone =>
      rw [lone] at plain
      exact absurd (.head _) plain
    | literal => rfl
    | wildcard starred => exact absurd starred plain
  · rintro rfl
    exact .literal plain

/-! ## Compiled patterns -/

theorem isPadded_eq_false_iff : Text.isPadded cs = false ↔
    (∀ c, cs.head? = some c → Text.isBlankChar c = false) ∧
      ∀ c, cs.getLast? = some c → Text.isBlankChar c = false := by
  simp [Text.isPadded, Option.any_eq_false]

section Compiled

variable [Engine]

theorem exists_compile_iff :
    (∃ p, compile source = .ok p) ↔ IsPattern source ∧ WithinLimit source := by
  have hempty : source.toList.isEmpty = true ↔ source = "" := by
    rw [List.isEmpty_iff, String.toList_eq_nil_iff]
  constructor
  · rintro ⟨p, h⟩
    simp only [compile] at h
    split at h
    · cases h
    · rename_i hne
      split at h
      · cases h
      · rename_i hpadded
        obtain ⟨hbegins, hends⟩ := isPadded_eq_false_iff.1 (Bool.eq_false_iff.2 hpadded)
        refine ⟨⟨mt hempty.2 hne, hbegins, hends⟩, fun hlone hstar => ?_⟩
        rw [if_neg hlone, if_neg (by simpa using hstar)] at h
        split at h
        · cases h
        · rename_i hsize
          exact Nat.le_of_not_lt hsize
  · rintro ⟨h, hlimit⟩
    have hpadded := isPadded_eq_false_iff.2 ⟨h.begins, h.ends⟩
    rw [compile, if_neg (mt hempty.1 h.nonempty), hpadded, if_neg Bool.false_ne_true]
    split
    · exact ⟨_, rfl⟩
    · rename_i hlone
      split
      · exact ⟨_, rfl⟩
      · rename_i hstar
        rw [if_neg (Nat.not_lt.2 (hlimit hlone (by simpa using hstar)))]
        exact ⟨_, rfl⟩

theorem isMatch_iff {p : Pattern} (compiled : compile source = .ok p) (candidate : String) :
    p.isMatch candidate = true ↔ candidate ≠ "" ∧ Denotes source.toList candidate.toList := by
  have hkind := kind_of_compile compiled
  by_cases hempty : candidate = ""
  · subst hempty
    simp [isMatch]
  · have hne : candidate.toList.isEmpty = false := by simpa using hempty
    rw [isMatch, hne, if_neg Bool.false_ne_true, hkind, and_iff_right hempty]
    by_cases hlone : source.toList = ['*']
    · rw [if_pos hlone]
      exact ⟨fun _ => .any hlone, fun _ => rfl⟩
    · rw [if_neg hlone]
      by_cases hstar : '*' ∈ source.toList
      · rw [if_pos hstar, denotes_of_starred hlone hstar, ← covers_ofPattern_iff]
        exact covers_iff
      · rw [if_neg hstar, denotes_of_plain hstar, String.toList_inj, source_of_compile compiled]
        exact ⟨fun h => (beq_iff_eq.1 h).symm, fun h => beq_iff_eq.2 h.symm⟩

/-- A text compiles if it is not empty and neither begins nor ends with a blank, unless the engine
finds it too large. A compiled pattern matches the nonempty candidates that it stands for, and a
text that does not compile matches nothing. -/
theorem compile_language (source : String) :
    ((∃ p, compile source = .ok p) ↔ IsPattern source ∧ WithinLimit source) ∧
      (∀ p, compile source = .ok p → ∀ candidate, p.isMatch candidate = true ↔
        candidate ≠ "" ∧ Denotes source.toList candidate.toList) ∧
      ∀ candidate, matchesText source candidate = true ↔
        (IsPattern source ∧ WithinLimit source) ∧
          candidate ≠ "" ∧ Denotes source.toList candidate.toList := by
  refine ⟨exists_compile_iff, fun p compiled => isMatch_iff compiled, fun candidate => ?_⟩
  rw [← exists_compile_iff]
  cases h : compile source with
  | error e => simp [matchesText, h]
  | ok p => simp only [matchesText, h, isMatch_iff h, Except.ok.injEq, exists_eq', true_and]

end Compiled

/-- The first star stays before the slash, the last one goes on behind it. -/
theorem compile_language_twoStars :
    ∃ p, compile "post/*/draft*" = .ok p ∧ p.isMatch "post/1:2/draft/3" = false ∧
      p.isMatch "post/1/draft/2:3" = true := by
  obtain ⟨hcompile, hmatch, -⟩ := compile_language "post/*/draft*"
  obtain ⟨p, hp⟩ := hcompile.2
    ⟨⟨by decide, by rintro c ⟨⟩; decide, by rintro c ⟨⟩; decide⟩, fun _ _ => by decide⟩
  refine ⟨p, hp, ?_, (hmatch p hp _).2 ⟨by decide, ?_⟩⟩
  · cases hp
    rfl
  · have hstar : '*' ∈ "post/*/draft*".toList := by decide
    have htexts : "post/*/draft*".toList.splitOn '*' = ["post/".toList, "/draft".toList, []] := rfl
    have hfits : Fits ("post/*/draft*".toList.splitOn '*') ["1".toList, "/2:3".toList] := by
      rw [htexts, fits_cons_iff, fits_cons_iff, fits_singleton_iff]
      decide
    exact .wildcard hstar hfits

end TenantAccess.Pattern
