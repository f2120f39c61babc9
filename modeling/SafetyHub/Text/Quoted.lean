import SafetyHub.Text.Digits
import SafetyHub.Text.Glyphless

/-!
# Quoted text

`quoted` writes a text between quotes so that every character of it can be seen: quotes and
backslashes after a backslash, tabs, line ends and the null character as letters, every other
character without a glyph of its own by its number.
-/

namespace SafetyHub.Text

/-- A character inside quotes. -/
def shown (c : Char) : List Char :=
  match c with
  | '\x00' => ['\\', '0']
  | '\t' => ['\\', 't']
  | '\r' => ['\\', 'r']
  | '\n' => ['\\', 'n']
  | '\\' => ['\\', '\\']
  | '"' => ['\\', '"']
  | c =>
    if isGlyphless c then ['\\', 'u', '\x7b'] ++ hexDigits c.toNat ++ ['\x7d']
    else [c]

/-- A text between quotes. -/
def quoted (s : String) : String :=
  String.ofList ('"' :: s.toList.flatMap shown ++ ['"'])

end SafetyHub.Text
