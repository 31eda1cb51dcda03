import ShaderBundle.Text.Printable

/-! A text as a quoted literal on one line: the form in which messages show a name. -/
namespace ShaderBundle.Text

def hexDigit (n : Nat) : Char :=
  Char.ofNat (if n < 10 then 0x30 + n else 0x61 + (n - 10))

/-- The last `width` hexadecimal digits of a number. -/
def hex : Nat → Nat → List Char
  | 0, _ => []
  | width + 1, n => hex width (n / 16) ++ [hexDigit (n % 16)]

/-- The double quote serves only where it saves an escape. -/
def quoteFor (cs : List Char) : Char :=
  if cs.contains '\x27' && !cs.contains '"' then '"' else '\x27'

/-- An unprintable character is written as the number of its code point. -/
def escape (quote c : Char) : List Char :=
  if c == '\\' || c == quote then ['\\', c]
  else if c == '\n' then ['\\', 'n']
  else if c == '\r' then ['\\', 'r']
  else if c == '\t' then ['\\', 't']
  else if isPrintable c then [c]
  else if c.toNat ≤ 0xff then ['\\', 'x'] ++ hex 2 c.toNat
  else if c.toNat ≤ 0xffff then ['\\', 'u'] ++ hex 4 c.toNat
  else ['\\', 'U'] ++ hex 8 c.toNat

def quoted (text : String) : String :=
  let cs := text.toList
  let quote := quoteFor cs
  String.ofList (quote :: cs.flatMap (escape quote) ++ [quote])

end ShaderBundle.Text
