import ShaderBundle.Text.Quoted

/-! Texts as bytes. A decoder either reads all bytes or names the first run of bytes that is no
character, with the reason. -/
namespace ShaderBundle.Text

/-- The four encodings that are modelled. A byte order mark in front is no part of a marked text. -/
inductive Encoding
  | utf8
  | utf8Marked
  | ascii
  | latin1
  deriving DecidableEq, Repr

inductive DecodeReason
  | invalidStart
  | invalidContinuation
  | unexpectedEnd
  | notAscii
  deriving DecidableEq, Repr

def DecodeReason.message : DecodeReason → String
  | .invalidStart => "invalid start byte"
  | .invalidContinuation => "invalid continuation byte"
  | .unexpectedEnd => "unexpected end of data"
  | .notAscii => "ordinal not in range(128)"

/-- Bytes `start` to `stop - 1` are no character. -/
structure DecodeFault where
  codec : String
  start : Nat
  stop : Nat
  firstByte : UInt8
  reason : DecodeReason
  deriving DecidableEq, Repr

def DecodeFault.message (f : DecodeFault) : String :=
  let subject :=
    if f.stop = f.start + 1 then
      "byte 0x" ++ String.ofList (hex 2 f.firstByte.toNat) ++ " in position " ++ toString f.start
    else "bytes in position " ++ toString f.start ++ "-" ++ toString (f.stop - 1)
  Text.quoted f.codec ++ " codec can't decode " ++ subject ++ ": " ++ f.reason.message

/-- A character whose last bytes are owed: the next one must lie from `low` to `high`. -/
structure Unfinished where
  start : Nat
  firstByte : UInt8
  owed : Nat
  low : Nat
  high : Nat
  value : Nat

/-- What a first byte announces: the bytes owed, the range of the next one, the bits so far. -/
def announced (b : Nat) : Option (Nat × Nat × Nat × Nat) :=
  if b < 0x80 then some (0, 0x80, 0xbf, b)
  else if b < 0xc2 then none
  else if b < 0xe0 then some (1, 0x80, 0xbf, b - 0xc0)
  else if b = 0xe0 then some (2, 0xa0, 0xbf, 0)
  else if b = 0xed then some (2, 0x80, 0x9f, b - 0xe0)
  else if b < 0xf0 then some (2, 0x80, 0xbf, b - 0xe0)
  else if b = 0xf0 then some (3, 0x90, 0xbf, 0)
  else if b < 0xf4 then some (3, 0x80, 0xbf, b - 0xf0)
  else if b = 0xf4 then some (3, 0x80, 0x8f, 4)
  else none

def decodeUtf8From (done : List Char) :
    Option Unfinished → Nat → List UInt8 → Except DecodeFault (List Char)
  | none, _, [] => .ok done.reverse
  | some p, pos, [] => .error ⟨"utf-8", p.start, pos, p.firstByte, .unexpectedEnd⟩
  | none, pos, b :: rest =>
    match announced b.toNat with
    | none => .error ⟨"utf-8", pos, pos + 1, b, .invalidStart⟩
    | some (0, _, _, value) => decodeUtf8From (Char.ofNat value :: done) none (pos + 1) rest
    | some (owed, low, high, value) =>
      decodeUtf8From done (some ⟨pos, b, owed, low, high, value⟩) (pos + 1) rest
  | some p, pos, b :: rest =>
    if p.low ≤ b.toNat && b.toNat ≤ p.high then
      let value := 64 * p.value + b.toNat % 64
      if p.owed = 1 then decodeUtf8From (Char.ofNat value :: done) none (pos + 1) rest
      else
        decodeUtf8From done (some ⟨p.start, p.firstByte, p.owed - 1, 0x80, 0xbf, value⟩) (pos + 1) rest
    else .error ⟨"utf-8", p.start, pos, p.firstByte, .invalidContinuation⟩

def decodeAsciiFrom (done : List Char) : Nat → List UInt8 → Except DecodeFault (List Char)
  | _, [] => .ok done.reverse
  | pos, b :: rest =>
    if b.toNat < 128 then decodeAsciiFrom (Char.ofNat b.toNat :: done) (pos + 1) rest
    else .error ⟨"ascii", pos, pos + 1, b, .notAscii⟩

def byteOrderMark : List UInt8 := [0xef, 0xbb, 0xbf]

def decodeUtf8 (bytes : List UInt8) : Except DecodeFault (List Char) := decodeUtf8From [] none 0 bytes

/-- A text that ends inside its byte order mark is empty; behind the mark, positions count from
the mark's end. -/
def Encoding.decodeChars : Encoding → List UInt8 → Except DecodeFault (List Char)
  | .utf8, bytes => decodeUtf8 bytes
  | .utf8Marked, bytes =>
    if bytes.length < 3 && bytes.isPrefixOf byteOrderMark then .ok []
    else if byteOrderMark.isPrefixOf bytes then decodeUtf8 (bytes.drop 3)
    else decodeUtf8 bytes
  | .ascii, bytes => decodeAsciiFrom [] 0 bytes
  | .latin1, bytes => .ok (bytes.map fun b => Char.ofNat b.toNat)

def Encoding.decode (e : Encoding) (bytes : List UInt8) : Except DecodeFault String :=
  (e.decodeChars bytes).map String.ofList

def utf8Bytes (text : String) : List UInt8 := text.toUTF8.toList

/-- Encoding names are compared in lower case, with each run of other characters than letters,
digits and points as one underscore, and none at the ends. -/
def normalName (name : List Char) : List Char :=
  let words := name.foldr (fun c (acc : List Char × Bool) =>
    if c.isAlphanum || c == '.' then
      (if acc.2 && !acc.1.isEmpty then c.toLower :: '_' :: acc.1 else c.toLower :: acc.1, false)
    else (acc.1, true)) ([], false)
  words.1

def Encoding.name : Encoding → String
  | .utf8 => "utf_8"
  | .utf8Marked => "utf_8_sig"
  | .ascii => "ascii"
  | .latin1 => "latin_1"

def Encoding.aliases : Encoding → List String
  | .utf8 => ["u8", "utf", "utf8", "utf8_ucs2", "utf8_ucs4", "cp65001"]
  | .utf8Marked => []
  | .ascii => ["646", "ansi_x3.4_1968", "ansi_x3.4_1986", "ansi_x3_4_1968", "cp367", "csascii",
      "ibm367", "iso646_us", "iso_646.irv_1991", "iso_ir_6", "us", "us_ascii"]
  | .latin1 => ["8859", "cp819", "csisolatin1", "ibm819", "iso8859", "iso8859_1", "iso_8859_1",
      "iso_8859_1_1987", "iso_ir_100", "l1", "latin", "latin1"]

/-- An alias may be written with a point for an underscore, an encoding's own name may not. -/
def Encoding.answersTo (e : Encoding) (key : List Char) : Bool :=
  let undotted := key.map fun c => if c = '.' then '_' else c
  e.name == String.ofList key || e.aliases.contains (String.ofList key) ||
    e.aliases.contains (String.ofList undotted)

/-- UTF-8 with and without its mark, ASCII and Latin-1, by any of their names. There are more encodings
outside, such as UTF-16 or those of the code pages: here their names are unknown ones. -/
def Encoding.named? (name : String) : Option Encoding :=
  let key := normalName name.toList
  [Encoding.utf8, .utf8Marked, .ascii, .latin1].find? fun e => e.answersTo key

end ShaderBundle.Text
