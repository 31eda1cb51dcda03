/-! Blank characters, and a text without the blanks around it. -/
namespace ShaderBundle.Text

/-- The white space of Unicode, and the four separators U+001C to U+001F. -/
def isBlank (c : Char) : Bool :=
  let n := c.toNat
  (9 ≤ n && n ≤ 13) || (0x1c ≤ n && n ≤ 0x20) || n == 0x85 || n == 0xa0 || n == 0x1680 ||
    (0x2000 ≤ n && n ≤ 0x200a) || n == 0x2028 || n == 0x2029 || n == 0x202f || n == 0x205f ||
    n == 0x3000

def trimStart (cs : List Char) : List Char := cs.dropWhile isBlank

def trim (cs : List Char) : List Char := (trimStart (trimStart cs).reverse).reverse

def trimmed (text : String) : String := String.ofList (trim text.toList)

end ShaderBundle.Text
