import TenantAccess.Text.Graphic
import TenantAccess.Text.Combining

/-!
# Text in double quotes

Messages show text taken from a request or a document inside double quotes. Quotes, backslashes
and the common controls have short escapes. Combining marks and characters without a glyph are
written by number, so what is shown is never ambiguous.
-/
namespace TenantAccess.Text

/-- The code point in lower-case hexadecimal digits without padding. -/
def codePoint (c : Char) : List Char :=
  ['\\', 'u', '\x7b'] ++ Nat.toDigits 16 c.toNat ++ ['\x7d']

def quoteChar (c : Char) : List Char :=
  match c with
  | '\x00' => ['\\', '0']
  | '\t' => ['\\', 't']
  | '\r' => ['\\', 'r']
  | '\n' => ['\\', 'n']
  | '"' => ['\\', '"']
  | '\\' => ['\\', '\\']
  | c => if isCombining c || !isGraphic c then codePoint c else [c]

def quoted (s : String) : String :=
  String.ofList ('"' :: (s.toList.flatMap quoteChar ++ ['"']))

end TenantAccess.Text
