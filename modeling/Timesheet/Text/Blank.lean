/-!
Blank characters and the trimming of text. A blank is a character with the Unicode property
White_Space, so trimming removes the same characters whatever the script.
-/

namespace Timesheet.Text

def isBlank (c : Char) : Bool :=
  let n := c.toNat
  (0x9 ≤ n && n ≤ 0xd) || n == 0x20 || n == 0x85 || n == 0xa0 || n == 0x1680 ||
    (0x2000 ≤ n && n ≤ 0x200a) || n == 0x2028 || n == 0x2029 || n == 0x202f || n == 0x205f ||
    n == 0x3000

def trimStart (s : List Char) : List Char :=
  s.dropWhile isBlank

def trimEnd (s : List Char) : List Char :=
  (s.reverse.dropWhile isBlank).reverse

def trimmed (s : List Char) : List Char :=
  trimEnd (trimStart s)

def trim (s : String) : String :=
  String.ofList (trimmed s.toList)

def isBlankText (s : String) : Bool :=
  s.toList.all isBlank

end Timesheet.Text
