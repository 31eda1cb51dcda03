import ShaderBundle.CommandLine.Arguments

/-! The texts about the command line, laid out for eighty columns. -/
namespace ShaderBundle.CommandLine

def usageLines : List String := [
  "usage: glslassembler [-h] [-I INCLUDE_ROOT] [-o OUTPUT] [--encoding ENCODING]",
  "                     [--map LINE] [--blocks] [--watch] [-v]",
  "                     root"]

def helpLines : List String := [
  "",
  "Resolve #include directives and assemble a single GLSL source",
  "",
  "positional arguments:",
  "  root                  Path of the root module",
  "",
  "options:",
  "  -h, --help            show this help message and exit",
  "  -I INCLUDE_ROOT, --include-root INCLUDE_ROOT",
  "                        Base directory for #include <...> directives",
  "  -o OUTPUT, --output OUTPUT",
  "                        Write the assembled source to this file instead of",
  "                        stdout",
  "  --encoding ENCODING   Encoding of the module files (default: utf-8)",
  "  --map LINE            Print the module and line an assembled line (1-based)",
  "                        comes from",
  "  --blocks              Print the source block table",
  "  --watch               Keep running and reassemble when a module changes",
  "                        (requires --output)",
  "  -v, --verbose         Print progress information",
  "",
  "Examples:",
  "  glslassembler shaders/main.frag                      # Print the assembled source",
  "  glslassembler shaders/main.frag -I shaders/lib       # Resolve #include <...> in shaders/lib",
  "  glslassembler shaders/main.frag -o build/main.frag   # Write to a file",
  "  glslassembler shaders/main.frag --map 42             # Where does assembled line 42 come from?",
  "  glslassembler shaders/main.frag -o out.frag --watch  # Reassemble on every change",
  "        "]

def withLineFeeds (lines : List String) : String := String.join (lines.map (· ++ "\n"))

def helpText : String := withLineFeeds (usageLines ++ helpLines)

def UsageError.report (e : UsageError) : String :=
  withLineFeeds (usageLines ++ ["glslassembler: error: " ++ e.message])

end ShaderBundle.CommandLine
