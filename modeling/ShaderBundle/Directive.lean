import ShaderBundle.Text.Blank

/-! What a line of a shader module asks for. A quoted include names its target relative to the
including module, an angled one relative to the include root. -/
namespace ShaderBundle

inductive IncludeKind
  | relative
  | absolute
  deriving DecidableEq, Repr

def IncludeKind.word : IncludeKind → String
  | .relative => "relative"
  | .absolute => "absolute"

inductive LineRole
  | inert
  | inclusion (kind : IncludeKind) (target : String)
  | emptyInclusion
  | hoisted
  deriving DecidableEq, Repr

namespace Directive

/-- Every quote stands directly behind a backslash. -/
def quotesEscaped (behindBackslash : Bool) : List Char → Bool
  | [] => true
  | c :: rest => (c != '"' || behindBackslash) && quotesEscaped (c == '\\') rest

/-- What stands before the closing delimiter at the very end. In both forms of an include it is
the quote that has to be escaped. -/
def enclosed (close : Char) (cs : List Char) : Option (List Char) :=
  if cs.getLast? = some close && quotesEscaped false cs.dropLast then some cs.dropLast else none

def behind? (keyword : String) (cs : List Char) : Option (List Char) :=
  keyword.toList.isPrefixOf? cs

def include? (line : List Char) : Option (IncludeKind × List Char) := do
  let rest ← behind? "#include" line
  match rest with
  | [] => none
  | c :: _ =>
    if !Text.isBlank c then none
    else match Text.trimStart rest with
      | '"' :: body => (enclosed '"' body).map (IncludeKind.relative, ·)
      | '<' :: body => (enclosed '>' body).map (IncludeKind.absolute, ·)
      | _ => none

def startsWith (keyword : String) (line : List Char) : Bool := keyword.toList.isPrefixOf line

end Directive

/-- The role of a line without blanks around it. Directives that must come first in a shader are
hoisted. -/
def LineRole.ofTrimmed (line : List Char) : LineRole :=
  if Directive.startsWith "//" line then .inert
  else match Directive.include? line with
    | some (_, []) => .emptyInclusion
    | some (kind, target) => .inclusion kind (String.ofList target)
    | none =>
      if Directive.startsWith "#version" line || Directive.startsWith "precision" line then .hoisted
      else .inert

def LineRole.of (line : String) : LineRole := .ofTrimmed (Text.trim line.toList)

end ShaderBundle
