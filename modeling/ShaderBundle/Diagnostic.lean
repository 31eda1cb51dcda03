import ShaderBundle.Text.Numeral
import ShaderBundle.Text.Quoted

/-! Messages of shader compilers. Three shapes of a log line are read:

    ERROR: 0:12: 'foo' : undeclared identifier
    0:12(5): error: foo undeclared
    0(12) : error C1008: undefined variable "foo"

In each the line number stands for a line of the compiled source and counts from one. -/
namespace ShaderBundle

inductive Severity
  | error
  | warning
  deriving DecidableEq, Repr

def Severity.word : Severity → String
  | .error => "error"
  | .warning => "warning"

def Severity.capitals : Severity → String
  | .error => "ERROR"
  | .warning => "WARNING"

/-- What a log line says, with the digits of its line number. -/
structure LogEntry where
  severity : Severity
  number : List Char
  message : List Char
  deriving DecidableEq, Repr

namespace LogEntry

open Text

/-- The text behind a character that has to stand first. -/
def behind (c : Char) : List Char → Option (List Char)
  | [] => none
  | head :: rest => if head = c then some rest else none

def digits? (cs : List Char) : Option (List Char × List Char) :=
  match cs.span isDigit with
  | ([], _) => none
  | (ds, rest) => some (ds, rest)

def severity? (word : Severity → String) (cs : List Char) : Option (Severity × List Char) :=
  match (word .error).toList.isPrefixOf? cs with
  | some rest => some (.error, rest)
  | none => ((word .warning).toList.isPrefixOf? cs).map (Severity.warning, ·)

/-- The message is what is left, on one line. -/
def message? (cs : List Char) : Option (List Char) :=
  let message := trimStart cs
  if message.contains '\n' then none else some (trim message)

/-- A vendor's code, a capital letter and digits, may stand between severity and colon. -/
def behindCode (cs : List Char) : Option (List Char) :=
  match cs with
  | ':' :: rest => some rest
  | c :: _ => do
    if !isBlank c then none
    else match trimStart cs with
      | letter :: rest =>
        if 'A' ≤ letter && letter ≤ 'Z' then do
          let (_, rest) ← digits? rest
          behind ':' rest
        else none
      | [] => none
  | [] => none

def severityFirst? (cs : List Char) : Option LogEntry := do
  let (severity, rest) ← severity? Severity.capitals cs
  let rest ← behind ':' rest
  let (_, rest) ← digits? (trimStart rest)
  let rest ← behind ':' rest
  let (number, rest) ← digits? rest
  let rest ← behind ':' rest
  let message ← message? rest
  return ⟨severity, number, message⟩

def columnInParentheses? (cs : List Char) : Option LogEntry := do
  let (_, rest) ← digits? cs
  let rest ← behind ':' rest
  let (number, rest) ← digits? rest
  let rest ← behind '(' rest
  let (_, rest) ← digits? rest
  let rest ← behind ')' rest
  let rest ← behind ':' rest
  let (severity, rest) ← severity? Severity.word (trimStart rest)
  let rest ← behind ':' rest
  let message ← message? rest
  return ⟨severity, number, message⟩

def lineInParentheses? (cs : List Char) : Option LogEntry := do
  let (_, rest) ← digits? cs
  let rest ← behind '(' rest
  let (number, rest) ← digits? rest
  let rest ← behind ')' rest
  let rest ← behind ':' (trimStart rest)
  let (severity, rest) ← severity? Severity.word (trimStart rest)
  let rest ← behindCode rest
  let message ← message? rest
  return ⟨severity, number, message⟩

/-- Reads a line without blanks around it. -/
def ofTrimmed? (cs : List Char) : Option LogEntry :=
  severityFirst? cs <|> columnInParentheses? cs <|> lineInParentheses? cs

def of? (line : String) : Option LogEntry := ofTrimmed? (trim line.toList)

end LogEntry

/-- A compiler message about a line of a bundle, and the module line it comes from. -/
structure Diagnostic where
  severity : Severity
  bundledLine : Int
  message : String
  origin : Option (String × Int)
  deriving DecidableEq, Repr

namespace Diagnostic

def place (d : Diagnostic) : String :=
  match d.origin with
  | none => "<assembled>:" ++ toString (d.bundledLine + 1)
  | some (id, line) => id ++ ":" ++ toString (line + 1)

def text (d : Diagnostic) : String := d.place ++ ": " ++ d.severity.word ++ ": " ++ d.message

def describe (d : Diagnostic) : String := "Diagnostic(" ++ Text.quoted d.text ++ ")"

end Diagnostic

end ShaderBundle
