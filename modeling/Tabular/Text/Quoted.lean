import Tabular.Unicode.Category

/-!
# Quoted text

A text between double quotes, as messages show it: quotes and backslashes have a backslash in front
of them, and characters that do not print are written by their code points.
-/

namespace Tabular.Text

/-- Whether a character prints on its own. Marks that join the character before them do not. -/
def isPrintable (c : Char) : Bool :=
  let n := c.toNat
  c == ' ' || (0x21 ≤ n && n ≤ 0x7e) ||
    (0x7f < n && !Unicode.isUnassigned n &&
      !Unicode.isIn [.control, .format, .privateUse, .spaceSeparator, .lineSeparator,
        .paragraphSeparator, .nonspacingMark, .enclosingMark] n)

def quotedChar (c : Char) : List Char :=
  match c with
  | '\x00' => ['\\', '0']
  | '\t' => ['\\', 't']
  | '\n' => ['\\', 'n']
  | '\r' => ['\\', 'r']
  | '"' => ['\\', '"']
  | '\\' => ['\\', '\\']
  | c =>
    if isPrintable c then [c]
    else ['\\', 'u', '\x7b'] ++ Nat.toDigits 16 c.toNat ++ ['\x7d']

def quoted (s : String) : String :=
  String.ofList ('"' :: s.toList.flatMap quotedChar ++ ['"'])

end Tabular.Text
