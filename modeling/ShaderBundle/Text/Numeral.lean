import ShaderBundle.Text.Blank
import ShaderBundle.Text.Digit

/-! Decimal numerals in the digits of any script. A numeral of more digits than the limit is not
read, since reading takes time quadratic in the digits. -/
namespace ShaderBundle.Text

def digitLimit : Nat := 4300

structure TooManyDigits where
  count : Nat
  deriving DecidableEq, Repr

def TooManyDigits.message (e : TooManyDigits) : String :=
  "Exceeds the limit (" ++ toString digitLimit ++ " digits) for integer string conversion: value has "
    ++ toString e.count ++ " digits; use sys.set_int_max_str_digits() to increase the limit"

def decimalValue (digits : List Nat) : Nat := digits.foldl (fun n d => 10 * n + d) 0

def naturalOf (cs : List Char) : Except TooManyDigits Nat :=
  if digitLimit < cs.length then .error ⟨cs.length⟩ else .ok (decimalValue (cs.filterMap digit?))

/-- Around a numeral the separators U+001C to U+001F do not count as blanks. -/
def isNumeralBlank (c : Char) : Bool := isBlank c && !(0x1c ≤ c.toNat && c.toNat ≤ 0x1f)

/-- Digits, of which each two neighbours may have one underscore between them. -/
def digitsFrom : Bool → List Char → Option (List Nat)
  | afterDigit, [] => if afterDigit then some [] else none
  | afterDigit, c :: rest =>
    if c = '_' then if afterDigit then digitsFrom false rest else none
    else match digit? c with
      | some d => (digitsFrom true rest).map (d :: ·)
      | none => none

def unsignedDigits? (cs : List Char) : Option (List Nat) := digitsFrom false cs

/-- An integer with an optional sign, in blanks. -/
def integer? (text : String) : Option Int :=
  let start := text.toList.dropWhile isNumeralBlank
  let body := (start.reverse.dropWhile isNumeralBlank).reverse
  let (negative, digits) := match body with
    | '-' :: rest => (true, rest)
    | '+' :: rest => (false, rest)
    | _ => (false, body)
  match unsignedDigits? digits with
  | none => none
  | some ds =>
    if digitLimit < ds.length then none
    else if negative then some (-(decimalValue ds : Int)) else some (decimalValue ds)

end ShaderBundle.Text
