import ShaderBundle.CompilerLog
import ShaderBundle.Proofs.Assembly.Result
import ShaderBundle.Proofs.Text.Blank
import ShaderBundle.Proofs.Text.Lines
import ShaderBundle.Proofs.Text.Numeral
import Mathlib.Data.List.TakeDrop

/-! Log lines as compilers print them. Each of the three shapes is read back: severity and line number
from their places, and the message without the blanks around it. -/
namespace ShaderBundle

open Text

structure VendorCode where
  letter : Char
  digits : List Char
  capital : 'A' ≤ letter ∧ letter ≤ 'Z'
  numeral : IsNumeral digits

def VendorCode.suffix : Option VendorCode → String
  | none => ""
  | some code => " " ++ String.ofList (code.letter :: code.digits)

/-- The shape of a log line, with what it shows besides severity, file, line and message. -/
inductive LogShape
  | severityFirst
  | columnInParentheses (column : Nat)
  | lineInParentheses (code : Option VendorCode)

namespace LogShape

variable {severity : Severity} {file line : Nat}

/-- What stands before the message and its colon. Lines count from one. -/
def header (severity : Severity) (file line : Nat) : LogShape → String
  | .severityFirst => severity.capitals ++ ": " ++ toString file ++ ":" ++ toString line
  | .columnInParentheses column =>
    toString file ++ ":" ++ toString line ++ "(" ++ toString column ++ "): " ++ severity.word
  | .lineInParentheses code =>
    toString file ++ "(" ++ toString line ++ ") : " ++ severity.word ++ VendorCode.suffix code

def print (shape : LogShape) (severity : Severity) (file line : Nat) (message : String) : String :=
  shape.header severity file line ++ ": " ++ message

theorem toList_severityFirst (tail : List Char) :
    (severityFirst.header severity file line).toList ++ ':' :: tail =
      severity.capitals.toList ++ ':' :: ' ' ::
        (Nat.toDigits 10 file ++ ':' :: (Nat.toDigits 10 line ++ ':' :: tail)) := by
  simp [header]

theorem toList_columnInParentheses (column : Nat) (tail : List Char) :
    ((columnInParentheses column).header severity file line).toList ++ ':' :: tail =
      Nat.toDigits 10 file ++ ':' :: (Nat.toDigits 10 line ++ '(' ::
        (Nat.toDigits 10 column ++ ')' :: ':' :: ' ' :: (severity.word.toList ++ ':' :: tail))) := by
  simp [header]

theorem toList_lineInParentheses (code : Option VendorCode) (tail : List Char) :
    ((lineInParentheses code).header severity file line).toList ++ ':' :: tail =
      Nat.toDigits 10 file ++ '(' :: (Nat.toDigits 10 line ++ ')' :: ' ' :: ':' :: ' ' ::
        (severity.word.toList ++ ((VendorCode.suffix code).toList ++ ':' :: tail))) := by
  simp [header]

theorem isBlank_first (shape : LogShape) (tail : List Char) :
    ∀ c ∈ ((shape.header severity file line).toList ++ ':' :: tail).head?, isBlank c = false := by
  cases shape with
  | severityFirst =>
    rw [toList_severityFirst]
    cases severity <;> simp [Severity.capitals, isBlank]
  | columnInParentheses column =>
    rw [toList_columnInParentheses]
    exact isBlank_head?_toDigits file _
  | lineInParentheses code =>
    rw [toList_lineInParentheses]
    exact isBlank_head?_toDigits file _

end LogShape

namespace LogEntry

variable {ds rest : List Char}

@[simp] theorem behind_cons (c : Char) (rest : List Char) : behind c (c :: rest) = some rest := by
  simp [behind]

theorem isDigit_colon : isDigit ':' = false := by decide

theorem isDigit_opening : isDigit '(' = false := by decide

theorem isDigit_closing : isDigit ')' = false := by decide

theorem digits?_numeral (numeral : IsNumeral ds) (stops : ∀ c ∈ rest.head?, isDigit c = false) :
    digits? (ds ++ rest) = some (ds, rest) := by
  obtain ⟨front, back⟩ : rest.takeWhile isDigit = [] ∧ rest.dropWhile isDigit = rest := by
    cases rest with
    | nil => exact ⟨rfl, rfl⟩
    | cons c cs => simp [stops c rfl]
  unfold digits?
  rw [List.span_eq_takeWhile_dropWhile, List.takeWhile_append_of_pos numeral.digits,
    List.dropWhile_append_of_pos numeral.digits, front, back, List.append_nil]
  obtain ⟨c, cs, rfl⟩ := List.exists_cons_of_ne_nil numeral.some
  rfl

theorem severity?_capitals (severity : Severity) (rest : List Char) :
    severity? Severity.capitals (severity.capitals.toList ++ rest) = some (severity, rest) := by
  cases severity <;> simp [severity?, Severity.capitals, List.isPrefixOf?]

theorem severity?_word (severity : Severity) (rest : List Char) :
    severity? Severity.word (severity.word.toList ++ rest) = some (severity, rest) := by
  cases severity <;> simp [severity?, Severity.word, List.isPrefixOf?]

/-- A line that begins with a number does not begin with a severity. -/
theorem severityFirst?_number (file : Nat) (rest : List Char) :
    severityFirst? (Nat.toDigits 10 file ++ rest) = none := by
  obtain ⟨c, cs, digits⟩ := List.exists_cons_of_ne_nil (isNumeral_toDigits file).some
  have digit : c.isDigit = true :=
    isDigit_of_mem_toDigits (n := file) (by rw [digits]; exact List.mem_cons_self)
  have other : c ≠ 'E' ∧ c ≠ 'W' := by
    constructor <;> rintro rfl <;> simp at digit
  have none : severity? Severity.capitals (c :: (cs ++ rest)) = none := by
    simp [severity?, Severity.capitals, List.isPrefixOf?, Ne.symm other.1, Ne.symm other.2]
  rw [digits, List.cons_append, severityFirst?, none]
  rfl

theorem digits?_number (n : Nat) (c : Char) (rest : List Char) (stops : isDigit c = false) :
    digits? (Nat.toDigits 10 n ++ c :: rest) = some (Nat.toDigits 10 n, c :: rest) :=
  digits?_numeral (isNumeral_toDigits n) (by simpa using stops)

theorem trimStart_space_number (n : Nat) (rest : List Char) :
    trimStart (' ' :: (Nat.toDigits 10 n ++ rest)) = Nat.toDigits 10 n ++ rest := by
  have blank : AllBlank [' '] := by simp [AllBlank, isBlank]
  rw [← List.singleton_append, trimStart_blanks blank]
  exact trimStart_eq_self (isBlank_head?_toDigits n rest)

theorem trimStart_space_word (severity : Severity) (rest : List Char) :
    trimStart (' ' :: (severity.word.toList ++ rest)) = severity.word.toList ++ rest := by
  cases severity <;> simp [trimStart, Severity.word, isBlank]

theorem trimStart_space_colon (rest : List Char) : trimStart (' ' :: ':' :: rest) = ':' :: rest := by
  simp [trimStart, isBlank]

theorem severityFirst?_header (severity : Severity) (file line : Nat) (tail : List Char) :
    severityFirst? ((LogShape.severityFirst.header severity file line).toList ++ ':' :: tail) =
      (message? tail).map (⟨severity, Nat.toDigits 10 line, ·⟩) := by
  rw [LogShape.toList_severityFirst]
  simp only [severityFirst?, severity?_capitals, behind_cons, trimStart_space_number,
    digits?_number _ _ _ isDigit_colon, Option.bind_eq_bind, Option.bind_some]
  cases message? tail <;> rfl

theorem columnInParentheses?_header (column : Nat) (severity : Severity) (file line : Nat)
    (tail : List Char) :
    columnInParentheses?
        (((LogShape.columnInParentheses column).header severity file line).toList ++ ':' :: tail) =
      (message? tail).map (⟨severity, Nat.toDigits 10 line, ·⟩) := by
  rw [LogShape.toList_columnInParentheses]
  simp only [columnInParentheses?, severity?_word, behind_cons, trimStart_space_word,
    digits?_number _ _ _ isDigit_colon, digits?_number _ _ _ isDigit_opening,
    digits?_number _ _ _ isDigit_closing, Option.bind_eq_bind, Option.bind_some]
  cases message? tail <;> rfl

theorem behindCode_colon (tail : List Char) : behindCode (':' :: tail) = some tail := by
  unfold behindCode
  rfl

theorem behindCode_code {letter : Char} {ds : List Char} (capital : 'A' ≤ letter ∧ letter ≤ 'Z')
    (numeral : IsNumeral ds) (tail : List Char) :
    behindCode (' ' :: letter :: (ds ++ ':' :: tail)) = some tail := by
  have blank : isBlank ' ' = true := rfl
  have low : 65 ≤ letter.toNat := capital.1
  have high : letter.toNat ≤ 90 := capital.2
  have capitalSolid : isBlank letter = false := isBlank_of_graphic (by omega) (by omega)
  have start : trimStart (' ' :: letter :: (ds ++ ':' :: tail)) = letter :: (ds ++ ':' :: tail) := by
    simp [trimStart, capitalSolid, blank]
  have run : digits? (ds ++ ':' :: tail) = some (ds, ':' :: tail) :=
    digits?_numeral numeral (by simpa using isDigit_colon)
  unfold behindCode
  simp [start, capital, run, blank]

theorem behindCode_suffix (code : Option VendorCode) (tail : List Char) :
    behindCode ((VendorCode.suffix code).toList ++ ':' :: tail) = some tail := by
  cases code with
  | none => exact behindCode_colon tail
  | some code =>
    have parts : (VendorCode.suffix (some code)).toList ++ ':' :: tail =
        ' ' :: code.letter :: (code.digits ++ ':' :: tail) := by
      simp [VendorCode.suffix]
    rw [parts]
    exact behindCode_code code.capital code.numeral tail

theorem lineInParentheses?_header (code : Option VendorCode) (severity : Severity) (file line : Nat)
    (tail : List Char) :
    lineInParentheses?
        (((LogShape.lineInParentheses code).header severity file line).toList ++ ':' :: tail) =
      (message? tail).map (⟨severity, Nat.toDigits 10 line, ·⟩) := by
  rw [LogShape.toList_lineInParentheses]
  simp only [lineInParentheses?, severity?_word, behind_cons, trimStart_space_word,
    trimStart_space_colon, behindCode_suffix, digits?_number _ _ _ isDigit_opening,
    digits?_number _ _ _ isDigit_closing, Option.bind_eq_bind, Option.bind_some]
  cases message? tail <;> rfl

/-- A line that shows its line number in parentheses shows no column. -/
theorem columnInParentheses?_number (file : Nat) (rest : List Char) :
    columnInParentheses? (Nat.toDigits 10 file ++ '(' :: rest) = none := by
  have none : behind ':' ('(' :: rest) = none := by simp [behind]
  rw [columnInParentheses?, digits?_number file '(' rest isDigit_opening]
  simp only [Option.bind_eq_bind, Option.bind_some, none, Option.bind_none]

/-- The three shapes are told apart: no earlier one reads a line of a later one. -/
theorem ofTrimmed?_header (shape : LogShape) (severity : Severity) (file line : Nat)
    {tail message : List Char} (read : message? tail = some message) :
    ofTrimmed? ((shape.header severity file line).toList ++ ':' :: tail) =
      some ⟨severity, Nat.toDigits 10 line, message⟩ := by
  unfold ofTrimmed?
  cases shape with
  | severityFirst =>
    rw [severityFirst?_header, read]
    rfl
  | columnInParentheses column =>
    have first : severityFirst?
        (((LogShape.columnInParentheses column).header severity file line).toList ++ ':' :: tail) =
        none := by
      rw [LogShape.toList_columnInParentheses]
      exact severityFirst?_number file _
    rw [first, columnInParentheses?_header, read]
    rfl
  | lineInParentheses code =>
    have first : severityFirst?
        (((LogShape.lineInParentheses code).header severity file line).toList ++ ':' :: tail) =
        none := by
      rw [LogShape.toList_lineInParentheses]
      exact severityFirst?_number file _
    have second : columnInParentheses?
        (((LogShape.lineInParentheses code).header severity file line).toList ++ ':' :: tail) =
        none := by
      rw [LogShape.toList_lineInParentheses]
      exact columnInParentheses?_number file _
    rw [first, second, lineInParentheses?_header, read]
    rfl

theorem message?_gap {gap message : List Char} (blank : AllBlank gap) (oneLine : '\n' ∉ message) :
    message? (gap ++ trim message) = some (trim message) := by
  have solid := solid_trim message
  have free : '\n' ∉ trim message := fun inside => oneLine (trim_subset message inside)
  unfold message?
  rw [trimStart_blanks blank, trimStart_eq_self solid.first]
  simp [free, trim_eq_self solid]

theorem solid_header (shape : LogShape) (severity : Severity) (file line : Nat) :
    Solid ((shape.header severity file line).toList ++ [':']) where
  first := shape.isBlank_first []
  last := by simp [isBlank]

/-- A printed line is read back, whatever blanks stand around it. -/
theorem of?_print (shape : LogShape) (severity : Severity) (file line : Nat)
    {message front back : String} (oneLine : OneLine message) (before : AllBlank front.toList)
    (behind : AllBlank back.toList) :
    of? (front ++ shape.print severity file line message ++ back) =
      some ⟨severity, Nat.toDigits 10 line, trim message.toList⟩ := by
  have solid := solid_header shape severity file line
  obtain ⟨gap, blank, split⟩ :=
    exists_trim_append before behind solid (by simp) (' ' :: message.toList)
  have rest : trim (' ' :: message.toList) = trim message.toList := rfl
  have parts : (front ++ shape.print severity file line message ++ back).toList =
      front.toList ++ ((shape.header severity file line).toList ++ [':'] ++ ' ' :: message.toList ++
        back.toList) := by
    simp [LogShape.print]
  rw [of?, parts, split, rest, List.append_assoc, List.singleton_append]
  exact ofTrimmed?_header shape severity file line (message?_gap blank oneLine)

end LogEntry

namespace CompilerLog

open LogEntry

/-- A printed line is about the line before the one it counts, as lines count from zero, and leads
where the line map leads. -/
theorem diagnostic?_print (s : Shader) (shape : LogShape) (severity : Severity) (file number : Nat)
    {message front back : String} (short : (toString number).length ≤ digitLimit)
    (oneLine : OneLine message) (before : AllBlank front.toList) (behind : AllBlank back.toList) :
    let line : Int := number - 1
    let parsed := diagnostic? s (front ++ shape.print severity file number message ++ back)
    (∀ m j, s.mapLine line = some (m, j) →
      parsed = .ok (some ⟨severity, line, trimmed message, some (m.id, j)⟩)) ∧
    (s.mapLine line = none → parsed = .ok (some ⟨severity, line, trimmed message, none⟩)) := by
  intro line parsed
  have entry := of?_print shape severity file number oneLine before behind
  have readable := naturalOf_toDigits short
  constructor
  · intro m j mapped
    simp only [parsed, diagnostic?, entry, readable]
    rw [show s.mapLine _ = some (m, j) from mapped]
    rfl
  · intro unmapped
    simp only [parsed, diagnostic?, entry, readable]
    rw [show s.mapLine _ = none from unmapped]
    rfl

/-- A message that looks like a log line itself, about the first body line of a bundle, and one about
the marker before it. -/
theorem diagnostic?_print_of_pair :
    ∃ s, (assemble MemoryStore.pair.library "m" "").result = .ok s ∧
      (toString 3).length ≤ digitLimit ∧ (toString 2).length ≤ digitLimit ∧
      OneLine " ERROR: 0:1: x " ∧ AllBlank "\t ".toList ∧ AllBlank "\r\n".toList ∧
      (∀ code, diagnostic? s ("\t " ++ (LogShape.lineInParentheses code).print .error 0 3
          " ERROR: 0:1: x " ++ "\r\n") =
        .ok (some ⟨.error, 2, "ERROR: 0:1: x", some ("a", 0)⟩)) ∧
      diagnostic? s ("\t " ++ LogShape.severityFirst.print .warning 0 2 " ERROR: 0:1: x " ++ "\r\n") =
        .ok (some ⟨.warning, 1, "ERROR: 0:1: x", none⟩) := by
  let s := Shader.ofSorted "m" MemoryStore.pairModules MemoryStore.pairModules.reverse
  have three : (toString 3).length ≤ digitLimit := by decide
  have two : (toString 2).length ≤ digitLimit := by decide
  have oneLine : OneLine " ERROR: 0:1: x " := by simp [OneLine]
  have before : AllBlank "\t ".toList := by simp [AllBlank, isBlank]
  have behind : AllBlank "\r\n".toList := by simp [AllBlank, isBlank]
  have body : s.mapLine 2 = some (⟨"a", ["y"], [], []⟩, 0) := by decide +kernel
  have marker : s.mapLine 1 = none := by decide +kernel
  refine ⟨s, assemble_pair, three, two, oneLine, before, behind, fun code => ?_, ?_⟩
  · exact (diagnostic?_print s (.lineInParentheses code) .error 0 3 three oneLine before behind).1 _ _
      body
  · exact (diagnostic?_print s .severityFirst .warning 0 2 two oneLine before behind).2 marker

end CompilerLog

end ShaderBundle
