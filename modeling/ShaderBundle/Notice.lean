/-! What a bundling run reports about its progress when asked to. -/
namespace ShaderBundle

inductive Notice
  | loaded (modules : Nat) (root : String)
  | assembled (lines blocks : Nat)
  | compiled
  | wrote (path : String)
  | watching (modules : Nat) (root : String)
  | changed (root : String)
  deriving DecidableEq, Repr

def Notice.message : Notice → String
  | .loaded modules root =>
    "INFO: Loaded " ++ toString modules ++ " module(s) from '" ++ root ++ "'."
  | .assembled lines blocks =>
    "INFO: Assembled " ++ toString lines ++ " line(s) in " ++ toString blocks ++ " source block(s)."
  | .compiled => "INFO: Shader compiled successfully."
  | .wrote path => "INFO: Wrote '" ++ path ++ "'."
  | .watching modules root =>
    "INFO: Watching " ++ toString modules ++ " module(s) of '" ++ root ++ "' for changes..."
  | .changed root => "INFO: Change detected in '" ++ root ++ "' modules. Reloading..."

/-- The lines on standard output; nothing unless they are wanted. -/
def Notice.lines (wanted : Bool) (notices : List Notice) : List String :=
  if wanted then notices.map message else []

end ShaderBundle
