/-! Line conventions. A module's text is split at line feeds after its line ends have been unified;
a compiler's log is broken at every character that ends a line on some system. -/
namespace ShaderBundle.Text

/-- The pieces between line feeds, without the empty piece behind a final one. -/
def splitLines (text : String) : List String :=
  let pieces := text.toList.splitOn '\n'
  let kept := if pieces.getLast? = some [] then pieces.dropLast else pieces
  kept.map String.ofList

def joinLines (lines : List String) : String :=
  String.ofList (List.intercalate ['\n'] (lines.map String.toList))

/-- Drops the carriage return of each pair of carriage return and line feed. -/
def dropPairedReturns : List Char → List Char
  | '\r' :: '\n' :: rest => '\n' :: dropPairedReturns rest
  | c :: rest => c :: dropPairedReturns rest
  | [] => []

/-- Line ends of the three conventions all become line feeds. -/
def unifyNewlines (text : String) : String :=
  String.ofList ((dropPairedReturns text.toList).map fun c => if c = '\r' then '\n' else c)

def isLineBreak (c : Char) : Bool :=
  let n := c.toNat
  (10 ≤ n && n ≤ 13) || (0x1c ≤ n && n ≤ 0x1e) || n == 0x85 || n == 0x2028 || n == 0x2029

def consToFirst (c : Char) : List (List Char) → List (List Char)
  | [] => [[c]]
  | line :: rest => (c :: line) :: rest

/-- The pieces between line breaks; carriage return and line feed together are one break, and a
final break opens no further line. -/
def breakChars : List Char → List (List Char)
  | [] => []
  | '\r' :: '\n' :: rest => [] :: breakChars rest
  | c :: rest =>
    if isLineBreak c then [] :: breakChars rest else consToFirst c (breakChars rest)

def breakLines (text : String) : List String := (breakChars text.toList).map String.ofList

end ShaderBundle.Text
