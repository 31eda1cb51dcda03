import ShaderBundle.Text.Quoted

/-! Line ranges, and blocks that carry a range of bundled lines onto lines of one module. Lines count
from zero and ranges hold both their ends. -/
namespace ShaderBundle

structure LineRange where
  first : Int
  last : Int
  deriving DecidableEq, Repr

namespace LineRange

def contains (r : LineRange) (line : Int) : Bool := r.first ≤ line && line ≤ r.last

def single (line : Nat) : LineRange := ⟨line, line⟩

def describe (r : LineRange) : String :=
  "LineRange(" ++ toString r.first ++ ", " ++ toString r.last ++ ")"

end LineRange

structure SourceBlock where
  moduleId : String
  bundled : LineRange
  inModule : LineRange
  deriving DecidableEq, Repr

namespace SourceBlock

def contains (b : SourceBlock) (line : Int) : Bool := b.bundled.contains line

/-- The module line of a bundled line, which the block is meant to contain. -/
def mapLine (b : SourceBlock) (line : Int) : Int := line - b.bundled.first + b.inModule.first

def describe (b : SourceBlock) : String :=
  "SourceBlock(" ++ Text.quoted b.moduleId ++ ", " ++ b.bundled.describe ++ " -> "
    ++ b.inModule.describe ++ ")"

end SourceBlock

end ShaderBundle
