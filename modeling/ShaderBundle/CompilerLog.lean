import ShaderBundle.Diagnostic
import ShaderBundle.Shader

/-! Compiler logs about a bundle, made to point at module lines. -/
namespace ShaderBundle.CompilerLog

def diagnostic? (s : Shader) (line : String) : Except Text.TooManyDigits (Option Diagnostic) :=
  match LogEntry.of? line with
  | none => .ok none
  | some entry =>
    match Text.naturalOf entry.number with
    | .error e => .error e
    | .ok number =>
      let bundledLine : Int := number - 1
      let origin := (s.mapLine bundledLine).map fun (m, line) => (m.id, line)
      .ok (some ⟨entry.severity, bundledLine, String.ofList entry.message, origin⟩)

def diagnosticsOf (s : Shader) : List String → Except Text.TooManyDigits (List Diagnostic)
  | [] => .ok []
  | line :: rest => do
    let found ← diagnostic? s line
    let others ← diagnosticsOf s rest
    return found.toList ++ others

def diagnostics (s : Shader) (log : String) : Except Text.TooManyDigits (List Diagnostic) :=
  diagnosticsOf s (Text.breakLines log)

/-- A line stays as it is unless it leads to a module. -/
def remapLine (s : Shader) (line : String) : Except Text.TooManyDigits String :=
  match diagnostic? s line with
  | .error e => .error e
  | .ok none => .ok line
  | .ok (some d) => .ok (if d.origin.isSome then d.text else line)

def remapLines (s : Shader) : List String → Except Text.TooManyDigits (List String)
  | [] => .ok []
  | line :: rest => do
    let first ← remapLine s line
    let others ← remapLines s rest
    return first :: others

def remap (s : Shader) (log : String) : Except Text.TooManyDigits String :=
  (remapLines s (Text.breakLines log)).map Text.joinLines

end ShaderBundle.CompilerLog
