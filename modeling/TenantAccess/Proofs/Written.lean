import TenantAccess.Proofs.Numerals

/-!
# Written values are scanned back

The text of a value without numbers other than words of 64 bits scans to an outline that has this
value, whatever follows the text, as long as it goes on no number. Strings come back character by
character: a control comes back as the unit of its number, all other characters as they are. A value
that is nested too deep would be cut off, so the nesting is counted by `Plain`.
-/
namespace TenantAccess.Json

/-! ## Strings -/

/-- A piece that stands for a character by itself. -/
def Piece.Means (p : Piece) (c : Char) : Prop :=
  p = .char c ∨ c.toNat < 0x20 ∧ p = .unit c.toNat

theorem hexUnit?_control : ∀ n < 0x20, hexUnit? '0' '0' (hexDigit (n / 16)) (hexDigit (n % 16)) =
    some n := by
  decide

theorem scanText_quote (cs : List Char) : scanText ('"' :: cs) = (⟨[], none⟩, some cs) := by
  rw [scanText.eq_def]
  simp

theorem scanText_short {e c : Char} (escapes : shortEscape? e = some c) (cs : List Char) :
    scanText ('\\' :: e :: cs) = (Piece.char c).before (scanText cs) := by
  have he : e ≠ 'u' := by
    rintro rfl
    cases escapes
  rw [scanText.eq_def]
  simp [he, escapes]

/-- An escaped character is scanned as one piece. -/
theorem exists_piece (c : Char) : ∃ p : Piece, p.Means c ∧
    ∀ cs, scanText (escapeChar c ++ cs) = p.before (scanText cs) := by
  unfold escapeChar
  split
  · exact ⟨.char '"', .inl rfl, scanText_short rfl⟩
  · exact ⟨.char '\\', .inl rfl, scanText_short rfl⟩
  · exact ⟨.char '\x08', .inl rfl, scanText_short rfl⟩
  · exact ⟨.char '\x0c', .inl rfl, scanText_short rfl⟩
  · exact ⟨.char '\n', .inl rfl, scanText_short rfl⟩
  · exact ⟨.char '\r', .inl rfl, scanText_short rfl⟩
  · exact ⟨.char '\t', .inl rfl, scanText_short rfl⟩
  · rename_i hquote hbackslash _ _ _ _ _
    split
    · rename_i hcontrol
      refine ⟨.unit c.toNat, .inr ⟨hcontrol, rfl⟩, fun cs => ?_⟩
      rw [scanText.eq_def]
      simp [hexUnit?_control c.toNat hcontrol]
    · rename_i hplain
      refine ⟨.char c, .inl rfl, fun cs => ?_⟩
      rw [List.singleton_append, scanText.eq_def]
      dsimp only
      rw [if_neg hquote, if_neg hbackslash, if_neg hplain]

theorem decodePieces_cons {p : Piece} {c : Char} (means : p.Means c) (ps : List Piece) :
    decodePieces none (p :: ps) = (decodePieces none ps).map (c :: ·) := by
  rcases means with rfl | ⟨hcontrol, rfl⟩
  · rfl
  · have htrailing : isTrailing c.toNat = false := by simp [isTrailing]; omega
    have hleading : isLeading c.toNat = false := by simp [isLeading]; omega
    rw [decodePieces.eq_def]
    simp [htrailing, hleading]

/-- The rest of a written string, after its opening quote, is scanned up to its closing quote. -/
theorem scanText_written (s : List Char) (rest : List Char) :
    ∃ t, scanText (s.flatMap escapeChar ++ '"' :: rest) = (t, some rest) ∧
      t.value = .ok (String.ofList s) := by
  suffices h : ∃ t, scanText (s.flatMap escapeChar ++ '"' :: rest) = (t, some rest) ∧
      t.fault = none ∧ decodePieces none t.pieces = .ok s by
    obtain ⟨t, hscan, hfault, hpieces⟩ := h
    exact ⟨t, hscan, by rw [Text.value, hfault, hpieces]; rfl⟩
  induction s with
  | nil => exact ⟨⟨[], none⟩, scanText_quote rest, rfl, rfl⟩
  | cons c s ih =>
    obtain ⟨t, hscan, hfault, hpieces⟩ := ih
    obtain ⟨p, hmeans, hp⟩ := exists_piece c
    refine ⟨⟨p :: t.pieces, t.fault⟩, ?_, hfault, ?_⟩
    · rw [List.flatMap_cons, List.append_assoc, hp, hscan]
      rfl
    · rw [decodePieces_cons hmeans, hpieces]
      rfl

/-! ## Values -/

/-- A value whose numbers are words of 64 bits and in which at most so many arrays and objects
contain each other. -/
inductive Plain : Nat → Json → Prop
  | null {n : Nat} : Plain n .null
  | bool {n : Nat} {b : Bool} : Plain n (.bool b)
  | word {n : Nat} {w : UInt64} : Plain n (.number (.integer w.toNat))
  | string {n : Nat} {s : String} : Plain n (.string s)
  | array {n : Nat} {vs : List Json} (items : ∀ v ∈ vs, Plain n v) : Plain (n + 1) (.array vs)
  | object {n : Nat} {ms : List (String × Json)} (members : ∀ m ∈ ms, Plain n m.2) :
      Plain (n + 1) (.object ms)

theorem Plain.empty {n : Nat} : Plain (n + 1) (.object []) := .object nofun

/-- One more member, in front of the others. -/
theorem Plain.member {n : Nat} {k : String} {v : Json} {ms : List (String × Json)} (h : Plain n v) :
    Plain (n + 1) (.object ms) → Plain (n + 1) (.object ((k, v) :: ms))
  | .object members => .object (List.forall_mem_cons.2 ⟨h, members⟩)

/-- With so much room the written value is scanned back, whatever follows it that goes on no
number. -/
def Scans (room : Nat) (v : Json) : Prop :=
  ∀ fuel rest, EndsNumeral rest → 3 * v.write.length ≤ fuel →
    ∃ o, scanValue fuel room (v.write ++ rest) = (o, some rest) ∧ o.value = .ok v

/-- Something is written, so something is left of the fuel. -/
theorem scans_of_succ {room : Nat} {v : Json} (nonempty : v.write ≠ [])
    (scans : ∀ fuel rest, EndsNumeral rest → 3 * v.write.length ≤ fuel + 1 →
      ∃ o, scanValue (fuel + 1) room (v.write ++ rest) = (o, some rest) ∧ o.value = .ok v) :
    Scans room v := by
  intro fuel rest ends enough
  cases fuel with
  | zero =>
    have hlength := List.length_pos_iff.2 nonempty
    omega
  | succ fuel => exact scans fuel rest ends enough

theorem skipSpace_cons {c : Char} (visible : isSpace c = false) (cs : List Char) :
    skipSpace (c :: cs) = c :: cs := by
  rw [skipSpace, List.dropWhile_cons_of_neg]
  simp [visible]

theorem endsNumeral_writeItems (vs : List Json) (rest : List Char) :
    EndsNumeral (writeItems vs ++ rest) := by
  cases vs with
  | nil => exact endsNumeral_cons (by decide) (by decide) (by decide) (by decide)
  | cons v vs => exact endsNumeral_cons (by decide) (by decide) (by decide) (by decide)

theorem endsNumeral_writeMembers (ms : List (String × Json)) (rest : List Char) :
    EndsNumeral (writeMembers ms ++ rest) := by
  cases ms with
  | nil => exact endsNumeral_cons (by decide) (by decide) (by decide) (by decide)
  | cons m ms => exact endsNumeral_cons (by decide) (by decide) (by decide) (by decide)

theorem ne_of_isDigit {c d : Char} (digit : Decimal.isDigit c = true)
    (other : Decimal.isDigit d = false) : c ≠ d := by
  rintro rfl
  rw [digit] at other
  cases other

theorem isSpace_of_isDigit {c : Char} (digit : Decimal.isDigit c = true) : isSpace c = false := by
  have hne (d : Char) (other : Decimal.isDigit d = false) : c ≠ d := ne_of_isDigit digit other
  simp [isSpace, hne ' ' rfl, hne '\n' rfl, hne '\t' rfl, hne '\r' rfl]

/-- The digits of a number are its text. -/
theorem write_word (n : Nat) : (Json.number (.integer n)).write = Nat.toDigits 10 n := by
  rw [write, Number.write]
  exact Nat.toList_repr

theorem exists_write_word (n : Nat) : ∃ c cs, (Json.number (.integer n)).write = c :: cs ∧
    Decimal.isDigit c = true := by
  obtain ⟨c, cs, hdigits⟩ := exists_toDigits n
  have hmem : c ∈ Nat.toDigits 10 n := hdigits ▸ List.mem_cons_self
  exact ⟨c, cs, (write_word n).trans hdigits, isDigit_of_mem_toDigits hmem⟩

/-- A written value begins with its own first character, which closes nothing. -/
theorem Plain.exists_write_cons {n : Nat} {v : Json} (h : Plain n v) :
    ∃ c cs, v.write = c :: cs ∧ isSpace c = false ∧ c ≠ ']' := by
  cases h with
  | null => exact ⟨_, _, rfl, rfl, by decide⟩
  | @bool _ b => cases b <;> exact ⟨_, _, rfl, rfl, by decide⟩
  | @word _ w =>
    obtain ⟨c, cs, hwrite, hdigit⟩ := exists_write_word w.toNat
    exact ⟨c, cs, hwrite, isSpace_of_isDigit hdigit, ne_of_isDigit hdigit (by decide)⟩
  | string => exact ⟨_, _, rfl, rfl, by decide⟩
  | @array _ vs _ =>
    cases vs
    · exact ⟨_, _, rfl, rfl, by decide⟩
    · exact ⟨_, _, rfl, rfl, by decide⟩
  | @object _ ms _ =>
    cases ms
    · exact ⟨_, _, rfl, rfl, by decide⟩
    · exact ⟨_, _, rfl, rfl, by decide⟩

/-! ### Single steps -/

section Steps

variable {fuel room : Nat} {c : Char} {cs : List Char}

theorem scanItems_close (first : Bool) :
    scanItems (fuel + 1) room first (']' :: cs) = (([], none), some cs) := by
  rw [scanItems, skipSpace_cons rfl]
  rfl

theorem scanItems_first (visible : isSpace c = false) (opens : c ≠ ']') :
    scanItems (fuel + 1) room true (c :: cs) = scanItem fuel room (c :: cs) := by
  rw [scanItems, skipSpace_cons visible]
  simp [opens]

theorem scanItems_next (visible : isSpace c = false) (opens : c ≠ ']') :
    scanItems (fuel + 1) room false (',' :: c :: cs) = scanItem fuel room (c :: cs) := by
  rw [scanItems, skipSpace_cons rfl]
  simp [skipSpace_cons visible, opens]

theorem scanMembers_close (first : Bool) :
    scanMembers (fuel + 1) room first ('\x7d' :: cs) = (([], none), some cs) := by
  rw [scanMembers, skipSpace_cons rfl]
  rfl

theorem scanMembers_first :
    scanMembers (fuel + 1) room true ('"' :: cs) = scanMember fuel room cs := by
  rw [scanMembers, skipSpace_cons rfl]
  rfl

theorem scanMembers_next :
    scanMembers (fuel + 1) room false (',' :: '"' :: cs) = scanMember fuel room cs := by
  rw [scanMembers, skipSpace_cons rfl]
  rfl

theorem scanWord_append (meaning : Outline) (ws rest : List Char) :
    scanWord meaning ws (ws ++ rest) = (meaning, some rest) := by
  induction ws with
  | nil => rfl
  | cons w ws ih => simpa [scanWord] using ih

theorem scanValue_null :
    scanValue (fuel + 1) room ('n' :: ("ull".toList ++ cs)) = (.null, some cs) := by
  rw [scanValue, skipSpace_cons rfl]
  exact scanWord_append .null "ull".toList cs

theorem scanValue_true :
    scanValue (fuel + 1) room ('t' :: ("rue".toList ++ cs)) = (.bool true, some cs) := by
  rw [scanValue, skipSpace_cons rfl]
  exact scanWord_append (.bool true) "rue".toList cs

theorem scanValue_false :
    scanValue (fuel + 1) room ('f' :: ("alse".toList ++ cs)) = (.bool false, some cs) := by
  rw [scanValue, skipSpace_cons rfl]
  exact scanWord_append (.bool false) "alse".toList cs

theorem scanValue_digit (digit : Decimal.isDigit c = true) :
    scanValue (fuel + 1) room (c :: cs) = scanNumber false (c :: cs) := by
  have hne (d : Char) (other : Decimal.isDigit d = false) : c ≠ d := ne_of_isDigit digit other
  rw [scanValue, skipSpace_cons (isSpace_of_isDigit digit)]
  dsimp only
  rw [if_neg (hne 'n' rfl), if_neg (hne 't' rfl), if_neg (hne 'f' rfl), if_neg (hne '"' rfl),
    if_neg (hne '[' rfl), if_neg (hne '\x7b' rfl), if_neg (hne '-' rfl), if_pos digit]

theorem scanValue_string (cs : List Char) :
    scanValue (fuel + 1) room ('"' :: cs) = (.string (scanText cs).1, (scanText cs).2) := by
  rw [scanValue, skipSpace_cons rfl]
  rfl

theorem scanValue_array {os : List Outline} {rest : List Char}
    (h : scanItems fuel room true cs = ((os, none), some rest)) :
    scanValue (fuel + 1) (room + 1) ('[' :: cs) = (.array os none, some rest) := by
  rw [scanValue, skipSpace_cons rfl]
  simp [h, limited]

theorem scanValue_object {os : List (Outline × Outline)} {rest : List Char}
    (h : scanMembers fuel room true cs = ((os, none), some rest)) :
    scanValue (fuel + 1) (room + 1) ('\x7b' :: cs) = (.object os none, some rest) := by
  rw [scanValue, skipSpace_cons rfl]
  simp [h, limited]

end Steps

/-! ### Items and members -/

section

variable {n room : Nat}

theorem scanItem_written {v : Json} {vs : List Json} {fuel : Nat} {rest : List Char}
    (scans : Scans room v) (items : ∀ fuel, 3 * (writeItems vs).length ≤ fuel →
      ∃ os, scanItems fuel room false (writeItems vs ++ rest) = ((os, none), some rest) ∧
        Outline.itemValues os = .ok vs) (enough : 3 * (v.write ++ writeItems vs).length < fuel) :
    ∃ os, scanItem fuel room (v.write ++ writeItems vs ++ rest) = ((os, none), some rest) ∧
      Outline.itemValues os = .ok (v :: vs) := by
  cases fuel with
  | zero => omega
  | succ fuel =>
    rw [List.length_append] at enough
    obtain ⟨o, hscan, hvalue⟩ := scans fuel (writeItems vs ++ rest)
      (endsNumeral_writeItems vs rest) (by omega)
    obtain ⟨os, hscans, hvalues⟩ := items fuel (by omega)
    refine ⟨o :: os, ?_, ?_⟩
    · rw [List.append_assoc, scanItem, hscan]
      dsimp only
      rw [hscans]
    · rw [Outline.itemValues, hvalue, hvalues]
      rfl

theorem scanItems_written {vs : List Json} (plain : ∀ v ∈ vs, Plain n v)
    (scans : ∀ v ∈ vs, Scans room v) (rest : List Char) (fuel : Nat)
    (enough : 3 * (writeItems vs).length ≤ fuel) :
    ∃ os, scanItems fuel room false (writeItems vs ++ rest) = ((os, none), some rest) ∧
      Outline.itemValues os = .ok vs := by
  induction vs generalizing fuel with
  | nil =>
    cases fuel with
    | zero => simp [writeItems] at enough
    | succ fuel => exact ⟨[], scanItems_close false, rfl⟩
  | cons v vs ih =>
    obtain ⟨hplain, hplains⟩ := List.forall_mem_cons.1 plain
    obtain ⟨hscans, hall⟩ := List.forall_mem_cons.1 scans
    cases fuel with
    | zero => simp [writeItems] at enough
    | succ fuel =>
      have hlength : 3 * (v.write ++ writeItems vs).length < fuel := by
        simp only [writeItems, List.length_cons] at enough
        omega
      obtain ⟨os, hscan, hvalues⟩ := scanItem_written hscans (ih hplains hall) hlength
      obtain ⟨c, cs, hwrite, visible, opens⟩ := hplain.exists_write_cons
      refine ⟨os, ?_, hvalues⟩
      rw [hwrite] at hscan
      rw [writeItems, hwrite, ← hscan]
      exact scanItems_next visible opens

theorem scanMember_written {k : String} {v : Json} {ms : List (String × Json)} {fuel : Nat}
    {rest : List Char} (scans : Scans room v)
    (members : ∀ fuel, 3 * (writeMembers ms).length ≤ fuel →
      ∃ os, scanMembers fuel room false (writeMembers ms ++ rest) = ((os, none), some rest) ∧
        Outline.memberValues os = .ok ms)
    (enough : 3 * (writeString k ++ ':' :: (v.write ++ writeMembers ms)).length < fuel) :
    ∃ os, scanMember fuel room (k.toList.flatMap escapeChar ++ '"' :: ':' ::
        (v.write ++ (writeMembers ms ++ rest))) = ((os, none), some rest) ∧
      Outline.memberValues os = .ok ((k, v) :: ms) := by
  cases fuel with
  | zero => omega
  | succ fuel =>
    simp only [List.length_append, List.length_cons] at enough
    obtain ⟨t, hkey, htext⟩ := scanText_written k.toList
      (':' :: (v.write ++ (writeMembers ms ++ rest)))
    obtain ⟨o, hscan, hvalue⟩ := scans fuel (writeMembers ms ++ rest)
      (endsNumeral_writeMembers ms rest) (by omega)
    obtain ⟨os, hscans, hvalues⟩ := members fuel (by omega)
    refine ⟨(.string t, o) :: os, ?_, ?_⟩
    · simp only [scanMember, hkey, skipSpace_cons (c := ':') rfl, hscan, hscans]
    · rw [Outline.memberValues, hvalue, hvalues]
      simp [htext]
      rfl

theorem scanMembers_written {ms : List (String × Json)} (scans : ∀ m ∈ ms, Scans room m.2)
    (rest : List Char) (fuel : Nat) (enough : 3 * (writeMembers ms).length ≤ fuel) :
    ∃ os, scanMembers fuel room false (writeMembers ms ++ rest) = ((os, none), some rest) ∧
      Outline.memberValues os = .ok ms := by
  induction ms generalizing fuel with
  | nil =>
    cases fuel with
    | zero => simp [writeMembers] at enough
    | succ fuel => exact ⟨[], scanMembers_close false, rfl⟩
  | cons m ms ih =>
    obtain ⟨hscans, hall⟩ := List.forall_mem_cons.1 scans
    cases fuel with
    | zero => simp [writeMembers] at enough
    | succ fuel =>
      have hlength : 3 * (writeString m.1 ++ ':' :: (m.2.write ++ writeMembers ms)).length < fuel := by
        simp only [writeMembers, List.length_cons] at enough
        omega
      obtain ⟨os, hscan, hvalues⟩ := scanMember_written hscans (ih hall) hlength
      refine ⟨os, ?_, hvalues⟩
      rw [← hscan, ← scanMembers_next]
      simp [writeMembers, writeString]

/-! ### Whole values -/

theorem scans_null : Scans room .null := by
  refine scans_of_succ (by simp [write]) fun fuel rest _ _ => ?_
  exact ⟨.null, scanValue_null, rfl⟩

theorem scans_bool (b : Bool) : Scans room (.bool b) := by
  cases b with
  | true =>
    refine scans_of_succ (by simp [write]) fun fuel rest _ _ => ?_
    exact ⟨.bool true, scanValue_true, rfl⟩
  | false =>
    refine scans_of_succ (by simp [write]) fun fuel rest _ _ => ?_
    exact ⟨.bool false, scanValue_false, rfl⟩

theorem scans_word (w : UInt64) : Scans room (.number (.integer w.toNat)) := by
  obtain ⟨c, cs, hwrite, hdigit⟩ := exists_write_word w.toNat
  refine scans_of_succ (by simp [hwrite]) fun fuel rest ends _ => ?_
  refine ⟨.number (.ofNat w.toNat), ?_, ?_⟩
  · rw [hwrite, List.cons_append, scanValue_digit hdigit, ← List.cons_append, ← hwrite,
      write_word, scanNumber_toDigits w.toNat ends]
  · rw [Outline.value, Numeral.value_ofNat w.toNat_lt]
    rfl

theorem scans_string (s : String) : Scans room (.string s) := by
  refine scans_of_succ (by simp [write, writeString]) fun fuel rest _ _ => ?_
  obtain ⟨t, hscan, htext⟩ := scanText_written s.toList rest
  refine ⟨.string t, ?_, ?_⟩
  · have hwrite : (Json.string s).write ++ rest =
        '"' :: (s.toList.flatMap escapeChar ++ '"' :: rest) := by simp [write, writeString]
    rw [hwrite, scanValue_string, hscan]
  · rw [Outline.value, htext, String.ofList_toList]
    rfl

theorem write_array (vs : List Json) :
    (Json.array vs).write = '[' :: (Json.array vs).write.tail := by
  cases vs with
  | nil => rfl
  | cons v vs => rw [write, List.tail_cons]

theorem write_object (ms : List (String × Json)) :
    (Json.object ms).write = '\x7b' :: (Json.object ms).write.tail := by
  cases ms with
  | nil => rfl
  | cons m ms => rw [write, List.tail_cons]

/-- The items of an array are scanned from behind its opening bracket. -/
theorem scanItems_opened {vs : List Json} {fuel : Nat} (plain : ∀ v ∈ vs, Plain n v)
    (scans : ∀ v ∈ vs, Scans room v) (rest : List Char)
    (enough : 3 * (Json.array vs).write.length ≤ fuel + 1) :
    ∃ os, scanItems fuel room true ((Json.array vs).write.tail ++ rest) = ((os, none), some rest) ∧
      Outline.itemValues os = .ok vs := by
  cases fuel with
  | zero =>
    rw [write_array, List.length_cons] at enough
    omega
  | succ fuel =>
    cases vs with
    | nil => exact ⟨[], scanItems_close true, rfl⟩
    | cons v vs =>
      obtain ⟨hplain, hplains⟩ := List.forall_mem_cons.1 plain
      obtain ⟨hscans, hall⟩ := List.forall_mem_cons.1 scans
      have hlength : 3 * (v.write ++ writeItems vs).length < fuel := by
        rw [write, List.length_cons] at enough
        omega
      obtain ⟨os, hscan, hvalues⟩ := scanItem_written hscans (scanItems_written hplains hall rest)
        hlength
      obtain ⟨c, cs, hwrite, visible, opens⟩ := hplain.exists_write_cons
      refine ⟨os, ?_, hvalues⟩
      rw [hwrite] at hscan
      rw [write, hwrite, List.tail_cons, ← hscan]
      exact scanItems_first visible opens

/-- The members of an object are scanned from behind its opening brace. -/
theorem scanMembers_opened {ms : List (String × Json)} {fuel : Nat}
    (scans : ∀ m ∈ ms, Scans room m.2) (rest : List Char)
    (enough : 3 * (Json.object ms).write.length ≤ fuel + 1) :
    ∃ os, scanMembers fuel room true ((Json.object ms).write.tail ++ rest) =
        ((os, none), some rest) ∧ Outline.memberValues os = .ok ms := by
  cases fuel with
  | zero =>
    rw [write_object, List.length_cons] at enough
    omega
  | succ fuel =>
    cases ms with
    | nil => exact ⟨[], scanMembers_close true, rfl⟩
    | cons m ms =>
      obtain ⟨hscans, hall⟩ := List.forall_mem_cons.1 scans
      have hlength : 3 * (writeString m.1 ++ ':' :: (m.2.write ++ writeMembers ms)).length <
          fuel := by
        rw [write, List.length_cons] at enough
        omega
      obtain ⟨os, hscan, hvalues⟩ := scanMember_written hscans (scanMembers_written hall rest)
        hlength
      refine ⟨os, ?_, hvalues⟩
      rw [← hscan, ← scanMembers_first]
      simp [write, writeString]

theorem scans_array {vs : List Json} (plain : ∀ v ∈ vs, Plain n v)
    (scans : ∀ v ∈ vs, Scans room v) : Scans (room + 1) (.array vs) := by
  have hnonempty : (Json.array vs).write ≠ [] := by
    rw [write_array]
    exact List.cons_ne_nil _ _
  refine scans_of_succ hnonempty fun fuel rest _ enough => ?_
  obtain ⟨os, hscan, hvalues⟩ := scanItems_opened plain scans rest enough
  refine ⟨.array os none, ?_, ?_⟩
  · rw [write_array, List.cons_append, scanValue_array hscan]
  · rw [Outline.value, hvalues]
    rfl

theorem scans_object {ms : List (String × Json)} (scans : ∀ m ∈ ms, Scans room m.2) :
    Scans (room + 1) (.object ms) := by
  have hnonempty : (Json.object ms).write ≠ [] := by
    rw [write_object]
    exact List.cons_ne_nil _ _
  refine scans_of_succ hnonempty fun fuel rest _ enough => ?_
  obtain ⟨os, hscan, hvalues⟩ := scanMembers_opened scans rest enough
  refine ⟨.object os none, ?_, ?_⟩
  · rw [write_object, List.cons_append, scanValue_object hscan]
  · rw [Outline.value, hvalues]
    rfl

end

theorem Plain.scans {n room : Nat} {v : Json} (h : Plain n v) (deep : n ≤ room) :
    Scans room v := by
  induction h generalizing room with
  | null => exact scans_null
  | bool => exact scans_bool _
  | word => exact scans_word _
  | string => exact scans_string _
  | array plain ih =>
    cases room with
    | zero => omega
    | succ room => exact scans_array plain fun v hv => ih v hv (by omega)
  | object plain ih =>
    cases room with
    | zero => omega
    | succ room => exact scans_object fun m hm => ih m hm (by omega)

/-- The text of such a value that is not nested too deep is read as this value, and nothing is left
of it. -/
theorem Plain.ofText {n : Nat} {v : Json} (h : Plain n v) (deep : n ≤ maxNesting) :
    ∃ o, Document.ofText v.text = ⟨o, false⟩ ∧ o.value = .ok v := by
  have hscan := h.scans deep (3 * v.write.length + 3) []
  rw [List.append_nil] at hscan
  obtain ⟨o, hscan, hvalue⟩ := hscan endsNumeral_nil (by omega)
  refine ⟨o, ?_, hvalue⟩
  rw [Document.ofText, text, String.toList_ofList, hscan]
  rfl

end TenantAccess.Json
