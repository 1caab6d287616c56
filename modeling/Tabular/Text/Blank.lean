/-!
# Blank characters

The characters with the Unicode property `White_Space`, trimming, and the words between blanks.
-/

namespace Tabular.Text

/-- The `White_Space` property of Unicode. -/
def isBlank (c : Char) : Bool :=
  let n := c.toNat
  (0x09 ≤ n && n ≤ 0x0d) || n == 0x20 || n == 0x85 || n == 0xa0 || n == 0x1680 ||
    (0x2000 ≤ n && n ≤ 0x200a) || n == 0x2028 || n == 0x2029 || n == 0x202f || n == 0x205f ||
    n == 0x3000

def trimLeftChars (cs : List Char) : List Char :=
  cs.dropWhile isBlank

def trimRightChars (cs : List Char) : List Char :=
  (cs.reverse.dropWhile isBlank).reverse

def trimChars (cs : List Char) : List Char :=
  trimRightChars (trimLeftChars cs)

def trim (s : String) : String :=
  String.ofList (trimChars s.toList)

def trimRight (s : String) : String :=
  String.ofList (trimRightChars s.toList)

def isBlankText (s : String) : Bool :=
  s.toList.all isBlank

end Tabular.Text
