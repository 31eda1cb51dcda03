/-! Paths as texts: segments between slashes, joined without a look at any disk. Empty segments and
points name nothing; two points climb one segment. -/
namespace ShaderBundle.Path

abbrev Segment := List Char

def climb : Segment := ['.', '.']

/-- The segments that move: neither empty nor a single point. -/
def steps (path : List Char) : List Segment :=
  (path.splitOn '/').filter fun s => !(s == [] || s == ['.'])

def isAbsolute (path : List Char) : Bool := path.head? == some '/'

/-- A path's text from its segments. -/
def render (absolute : Bool) (segments : List Segment) : List Char :=
  (if absolute then ['/'] else []) ++ List.intercalate ['/'] segments

/-- Walks on from a place, innermost segment first. A walk that would climb out of the start, or
over a climb that was there before, has no end. -/
def walk : List Segment → List Segment → Option (List Segment)
  | place, [] => some place
  | place, s :: rest =>
    if s = climb then
      match place with
      | [] => none
      | top :: below => if top = climb then none else walk below rest
    else walk (s :: place) rest

def joinChars (base name : List Char) : Option (List Char) :=
  (walk (steps base).reverse (steps name)).map fun place => render (isAbsolute base) place.reverse

inductive Fault
  | escapes (name base : String)
  | notDirectory (path : String)
  deriving DecidableEq, Repr

def Fault.message : Fault → String
  | .escapes name base => "Path '" ++ name ++ "' escapes above '" ++ base ++ "'"
  | .notDirectory path => "Include root '" ++ path ++ "' is not a path!"

/-- The path that `name` denotes from the directory `base`. -/
def join (base name : String) : Except Fault String :=
  match joinChars base.toList name.toList with
  | some path => .ok (String.ofList path)
  | none => .error (.escapes name base)

/-- Everything up to the last slash, the slash included. -/
def upToSlash (path : List Char) : List Char := (path.reverse.dropWhile (· ≠ '/')).reverse

/-- The directory of a module: its path without the last slash and what follows it. -/
def directoryChars (path : List Char) : List Char :=
  match upToSlash path with
  | [] => []
  | ['/'] => ['/']
  | front => front.dropLast

def directory (path : String) : String := String.ofList (directoryChars path.toList)

def dropTrailingSlashes (path : List Char) : List Char := (path.reverse.dropWhile (· = '/')).reverse

def lastSegment (path : List Char) : Segment := (path.reverse.takeWhile (· ≠ '/')).reverse

/-- A path without a file name: its last segment has no point, or is made of points alone. -/
def isBare (path : String) : Bool :=
  let last := lastSegment (dropTrailingSlashes path.toList)
  last == [] || last == ['.'] || last == climb || !last.contains '.'

end ShaderBundle.Path
