import ShaderBundle.Path.Lexical

/-! The normal form of a path on a system: no empty segment, no point, and climbs only in front of a
relative path. Exactly two slashes in front are kept, any other number counts as one. -/
namespace ShaderBundle.Path

def leadingSlashes (path : List Char) : Nat :=
  match path with
  | '/' :: '/' :: '/' :: _ => 1
  | '/' :: '/' :: _ => 2
  | '/' :: _ => 1
  | _ => 0

/-- Walks on from a place, innermost segment first. At the root a climb stays, and a relative place
keeps the climbs that leave it. -/
def settle (absolute : Bool) : List Segment → List Segment → List Segment
  | place, [] => place
  | place, s :: rest =>
    if s = climb then
      match place with
      | [] => if absolute then settle absolute [] rest else settle absolute [climb] rest
      | top :: below =>
        if top = climb then settle absolute (climb :: top :: below) rest
        else settle absolute below rest
    else settle absolute (s :: place) rest

/-- Segments behind the given number of slashes; a point stands for the empty path. -/
def spell (slashes : Nat) (segments : List Segment) : List Char :=
  match List.replicate slashes '/' ++ List.intercalate ['/'] segments with
  | [] => ['.']
  | path => path

def normalChars (path : List Char) : List Char :=
  spell (leadingSlashes path) (settle (isAbsolute path) [] (steps path)).reverse

def normal (path : String) : String := String.ofList (normalChars path.toList)

/-- A path as file operations see and report it: climbs are kept where they stand. -/
def spelled (path : String) : String :=
  String.ofList (spell (leadingSlashes path.toList) (steps path.toList))

/-- A path seen from a directory; an absolute one is seen as it is. -/
def appendChars (base name : List Char) : List Char :=
  if isAbsolute name then name
  else if base = [] || base.getLast? = some '/' then base ++ name
  else base ++ '/' :: name

/-- The normal absolute form of a path, seen from a working directory. -/
def absolute (workingDirectory path : String) : String :=
  String.ofList (normalChars (appendChars workingDirectory.toList path.toList))

def parent (path : String) : String :=
  let front := upToSlash path.toList
  String.ofList (if front.all (· = '/') then front else dropTrailingSlashes front)

/-- From a relative directory a path may climb above the working directory; from an absolute one it
stays below the root. A slash in front of the name does not lead away from the directory. -/
def joinOnDisk (base name : String) : Except Fault String :=
  if isAbsolute base.toList then join base name
  else
    let start := if base.toList = [] then ['.'] else base.toList
    .ok (String.ofList (normalChars (appendChars start (name.toList.dropWhile (· = '/')))))

end ShaderBundle.Path
