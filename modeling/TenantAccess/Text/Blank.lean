/-!
# Blank characters

The blank characters are those with the Unicode property `White_Space`. An identifier made of
blanks alone names nothing, and a pattern that begins or ends with one is not accepted.
-/
namespace TenantAccess.Text

/-- The characters with the property `White_Space`. -/
def isBlankChar (c : Char) : Bool :=
  let n := c.toNat
  (0x09 ≤ n && n ≤ 0x0D) || n == 0x20 || n == 0x85 || n == 0xA0 || n == 0x1680 ||
    (0x2000 ≤ n && n ≤ 0x200A) || n == 0x2028 || n == 0x2029 || n == 0x202F ||
    n == 0x205F || n == 0x3000

/-- The empty text is blank too. -/
def isBlank (s : String) : Bool := s.toList.all isBlankChar

/-- Whether a blank stands at the beginning or at the end. -/
def isPadded (cs : List Char) : Bool :=
  cs.head?.any isBlankChar || cs.getLast?.any isBlankChar

@[simp] theorem isBlank_empty : isBlank "" = true := by simp [isBlank]

end TenantAccess.Text
