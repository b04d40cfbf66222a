/-!
# White space

The characters with the Unicode property White_Space, and the mark that may come before a text.
-/
namespace ApiCatalog.Text

/-- Whether the character has the property White_Space. -/
def isBlank (c : Char) : Bool :=
  let n := c.toNat
  (0x9 ≤ n && n ≤ 0xd) || n == 0x20 || n == 0x85 || n == 0xa0 || n == 0x1680 ||
    (0x2000 ≤ n && n ≤ 0x200a) || n == 0x2028 || n == 0x2029 || n == 0x202f || n == 0x205f ||
    n == 0x3000

/-- The characters after the leading white space. -/
def skipBlanks (text : List Char) : List Char := text.dropWhile isBlank

/-- Whether a text has nothing but white space. -/
def isAllBlank (text : String) : Bool := text.toList.all isBlank

/-- The first character of a text may mark the order of its bytes. -/
def byteOrderMark : Char := '\ufeff'

/-- The text after the mark, if it has one. -/
def withoutMark : List Char → List Char
  | [] => []
  | c :: rest => if c = byteOrderMark then rest else c :: rest

end ApiCatalog.Text
