import ShaderBundle.Module
import ShaderBundle.Path.Lexical
import ShaderBundle.Text.Encoding

/-! What can go wrong on the way to a bundle, by cause, and the text that reports it. -/
namespace ShaderBundle

/-- The faults of a file operation; each but the last names the path as the operation saw it. -/
inductive FileFault
  | missing (path : String)
  | notDirectory (path : String)
  | isDirectory (path : String)
  | nameTooLong (path : String)
  | nullByte
  deriving DecidableEq, Repr

def FileFault.message : FileFault → String
  | .missing path => "[Errno 2] No such file or directory: " ++ Text.quoted path
  | .notDirectory path => "[Errno 20] Not a directory: " ++ Text.quoted path
  | .isDirectory path => "[Errno 21] Is a directory: " ++ Text.quoted path
  | .nameTooLong path => "[Errno 36] File name too long: " ++ Text.quoted path
  | .nullByte => "embedded null byte"

/-- Why a library does not hand out a module; it may refuse one for a reason of its own. -/
inductive FetchFault
  | unknownModule (id : String)
  | refused (kind message : String)
  | file (fault : FileFault)
  | decode (fault : Text.DecodeFault)
  | unknownEncoding (name : String)
  | nullInEncoding
  | encodingEmptied
  deriving DecidableEq, Repr

def FetchFault.message : FetchFault → String
  | .unknownModule id => Text.quoted id
  | .refused _ message => message
  | .file fault => fault.message
  | .decode fault => fault.message
  | .unknownEncoding name => "unknown encoding: " ++ name
  | .nullInEncoding => "embedded null character"
  | .encodingEmptied => "open() argument 'encoding' must be str or None, not list"

/-- A module that was not handed out, and the include that asked for it; none asks for the root. -/
structure LoadFault where
  moduleId : String
  cause : FetchFault
  includer : Option (String × Nat)
  deriving DecidableEq, Repr

def LoadFault.message (f : LoadFault) : String :=
  let plain := "Could not load module " ++ f.moduleId ++ ": " ++ f.cause.message
  match f.includer with
  | none => plain
  | some (owner, line) => owner ++ " line " ++ toString (line + 1) ++ ": " ++ plain

inductive AssemblyError
  | noLibrary
  | libraryRemoved
  | path (fault : Path.Fault)
  | load (fault : LoadFault)
  | malformed (fault : MalformedInclude)
  | cycle (chain : List String)
  | unresolved (key : Option String)
  | tooManyModules (capacity : Nat)
  deriving DecidableEq, Repr

def quotedOption : Option String → String
  | some text => Text.quoted text
  | none => "None"

def AssemblyError.message : AssemblyError → String
  | .noLibrary => "No module loader specified!"
  | .libraryRemoved => "Module loader cannot be None."
  | .path fault => fault.message
  | .load fault => fault.message
  | .malformed fault => fault.message
  | .cycle chain => "Dependency cycle: " ++ String.intercalate " --> " chain
  | .unresolved key => quotedOption key
  | .tooManyModules capacity => "More than " ++ toString capacity ++ " modules"

end ShaderBundle
