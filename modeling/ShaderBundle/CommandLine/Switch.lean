import ShaderBundle.Text.Digit

/-! The switches of the command line and how an argument is read on its own: as a switch, perhaps
shortened or with a value attached, or as a plain word. -/
namespace ShaderBundle.CommandLine

inductive Switch
  | help
  | includeRoot
  | output
  | encoding
  | map
  | blocks
  | watch
  | verbose
  deriving DecidableEq, Repr

namespace Switch

def all : List Switch := [.help, .includeRoot, .output, .encoding, .map, .blocks, .watch, .verbose]

def spellings : Switch → List String
  | .help => ["-h", "--help"]
  | .includeRoot => ["-I", "--include-root"]
  | .output => ["-o", "--output"]
  | .encoding => ["--encoding"]
  | .map => ["--map"]
  | .blocks => ["--blocks"]
  | .watch => ["--watch"]
  | .verbose => ["-v", "--verbose"]

def takesValue : Switch → Bool
  | .includeRoot | .output | .encoding | .map => true
  | .help | .blocks | .watch | .verbose => false

def shown (s : Switch) : String := String.intercalate "/" s.spellings

/-- Every spelling, with what it stands for. -/
def dictionary : List (List Char × Switch) :=
  all.flatMap fun s => s.spellings.map fun spelling => (spelling.toList, s)

def spelled? (spelling : List Char) : Option Switch := dictionary.lookup spelling

end Switch

/-- A switch as it stands in an argument: the dashes it has and the value attached to it. -/
structure SwitchUse where
  switch : Switch
  long : Bool
  attached : Option (List Char)
  deriving DecidableEq, Repr

inductive Word
  | plain
  | use (u : SwitchUse)
  | unknown
  | ambiguous (candidates : List String)
  deriving DecidableEq, Repr

namespace Word

def atEquals (cs : List Char) : List Char × Option (List Char) :=
  match cs.span (· ≠ '=') with
  | (front, _ :: value) => (front, some value)
  | (front, []) => (front, none)

/-- A minus sign and a number with or without a decimal point; a line feed may follow. -/
def isNegativeNumber (cs : List Char) : Bool :=
  match cs with
  | '-' :: number =>
    let number := if number.getLast? = some '\n' then number.dropLast else number
    match number.span Text.isDigit with
    | (digits, []) => digits ≠ []
    | (_, '.' :: decimals) => decimals ≠ [] && decimals.all Text.isDigit
    | _ => false
  | _ => false

/-- A long switch may be shortened as long as one switch alone begins that way. -/
def ofLong (cs : List Char) : Option Word :=
  let (front, value) := atEquals cs
  match Switch.dictionary.filter fun entry => front.isPrefixOf entry.1 with
  | [] => none
  | [(_, s)] => some (.use ⟨s, true, value⟩)
  | candidates => some (.ambiguous (candidates.map fun entry => String.ofList entry.1))

/-- A value may be attached to a short switch. -/
def ofShort (cs : List Char) : Option Word :=
  (Switch.spelled? (cs.take 2)).map fun s => .use ⟨s, false, some (cs.drop 2)⟩

def isLong (cs : List Char) : Bool := ['-', '-'].isPrefixOf cs

/-- An argument that begins with a dash is a switch, unless it is a negative number or holds a
space. -/
def ofChars (cs : List Char) : Word :=
  if cs.head? ≠ some '-' || cs.length = 1 then .plain
  else match Switch.spelled? cs with
    | some s => .use ⟨s, isLong cs, none⟩
    | none =>
      let (front, value) := atEquals cs
      match value, Switch.spelled? front with
      | some value, some s => .use ⟨s, isLong front, some value⟩
      | _, _ =>
        match if isLong cs then ofLong cs else ofShort cs with
        | some word => word
        | none => if isNegativeNumber cs || cs.contains ' ' then .plain else .unknown

def of (argument : String) : Word := ofChars argument.toList

end Word

end ShaderBundle.CommandLine
