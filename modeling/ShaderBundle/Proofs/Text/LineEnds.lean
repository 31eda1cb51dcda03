import ShaderBundle.Text.Lines
import Mathlib.Data.List.Basic

/-! Line ends of three conventions: a line feed, a carriage return, or both. Unifying them takes two turns
over the text, pairs first, and comes to the same as one pass from left to right. -/
namespace ShaderBundle.Text

inductive LineEnd
  | feed
  | carriage
  | pair
  deriving DecidableEq, Repr

namespace LineEnd

def chars : LineEnd → List Char
  | .feed => ['\n']
  | .carriage => ['\r']
  | .pair => ['\r', '\n']

def writeChars (e : LineEnd) (cs : List Char) : List Char :=
  cs.flatMap fun c => if c = '\n' then e.chars else [c]

def write (e : LineEnd) (text : String) : String := String.ofList (e.writeChars text.toList)

theorem writeChars_feed_cons (e : LineEnd) (rest : List Char) :
    e.writeChars ('\n' :: rest) = e.chars ++ e.writeChars rest := by
  simp [writeChars]

theorem writeChars_cons (e : LineEnd) {c : Char} (other : c ≠ '\n') (rest : List Char) :
    e.writeChars (c :: rest) = c :: e.writeChars rest := by
  simp [writeChars, other]

theorem feed_not_mem_writeChars (cs : List Char) : '\n' ∉ carriage.writeChars cs := by
  intro member
  obtain ⟨c, -, written⟩ := List.mem_flatMap.mp member
  split at written
  · simp [chars] at written
  · rename_i other
    exact other (List.mem_singleton.mp written).symm

end LineEnd

/-- Each pair of carriage return and line feed, and each other carriage return, becomes one line feed. -/
def onePass : List Char → List Char
  | '\r' :: '\n' :: rest => '\n' :: onePass rest
  | '\r' :: rest => '\n' :: onePass rest
  | c :: rest => c :: onePass rest
  | [] => []

theorem onePass_pair (rest : List Char) : onePass ('\r' :: '\n' :: rest) = '\n' :: onePass rest := by
  rw [onePass]

theorem onePass_return {rest : List Char} (alone : rest.head? ≠ some '\n') :
    onePass ('\r' :: rest) = '\n' :: onePass rest := by
  rw [onePass]
  rintro rest' rfl
  exact alone rfl

theorem onePass_cons {c : Char} (other : c ≠ '\r') (rest : List Char) :
    onePass (c :: rest) = c :: onePass rest := by
  rw [onePass]
  · exact fun _ same _ => other same
  · exact other

/-- Two turns over the text come to one pass. -/
theorem toList_unifyNewlines (text : String) : (unifyNewlines text).toList = onePass text.toList := by
  rw [unifyNewlines, String.toList_ofList]
  generalize text.toList = cs
  fun_induction onePass cs with
  | case1 rest ih =>
    rw [dropPairedReturns, List.map_cons, ih]
    rfl
  | case2 rest alone ih =>
    rw [dropPairedReturns, List.map_cons, ih]
    · rfl
    · exact fun rest' _ same => alone rest' same
  | case3 c rest pair other ih =>
    rw [dropPairedReturns, List.map_cons, ih, if_neg other]
    exact pair
  | case4 => rfl

/-- One pass leaves no carriage return. -/
theorem return_not_mem_onePass (cs : List Char) : '\r' ∉ onePass cs := by
  fun_induction onePass cs with
  | case1 rest ih => simpa using ih
  | case2 rest alone ih => simpa using ih
  | case3 c rest pair other ih => simpa [Ne.symm other] using ih
  | case4 => exact List.not_mem_nil

/-- Without carriage returns there is nothing to do. -/
theorem onePass_eq_self {cs : List Char} (free : '\r' ∉ cs) : onePass cs = cs := by
  induction cs with
  | nil => rfl
  | cons c rest ih =>
    obtain ⟨head, tail⟩ := not_or.mp (mt List.mem_cons.mpr free)
    rw [onePass_cons (Ne.symm head), ih tail]

/-- In whichever convention the line feeds of a text are written, they come back. -/
theorem onePass_writeChars (e : LineEnd) {cs : List Char} (free : '\r' ∉ cs) :
    onePass (e.writeChars cs) = cs := by
  induction cs with
  | nil => rfl
  | cons c rest ih =>
    obtain ⟨head, tail⟩ := not_or.mp (mt List.mem_cons.mpr free)
    by_cases isFeed : c = '\n'
    · rw [isFeed, LineEnd.writeChars_feed_cons]
      cases e with
      | feed => exact (onePass_cons (by decide) _).trans (congrArg _ (ih tail))
      | carriage =>
        have alone : (LineEnd.carriage.writeChars rest).head? ≠ some '\n' := fun first =>
          LineEnd.feed_not_mem_writeChars rest (List.mem_of_head? first)
        exact (onePass_return alone).trans (congrArg _ (ih tail))
      | pair => exact (onePass_pair _).trans (congrArg _ (ih tail))
    · rw [LineEnd.writeChars_cons e isFeed, onePass_cons (Ne.symm head), ih tail]

theorem unifyNewlines_write (e : LineEnd) {text : String} (free : '\r' ∉ text.toList) :
    unifyNewlines (e.write text) = text := by
  refine String.toList_inj.mp ?_
  rw [toList_unifyNewlines, LineEnd.write, String.toList_ofList]
  exact onePass_writeChars e free

theorem unifyNewlines_eq_self {text : String} (free : '\r' ∉ text.toList) :
    unifyNewlines text = text := by
  refine String.toList_inj.mp ?_
  rw [toList_unifyNewlines]
  exact onePass_eq_self free

theorem return_not_mem_unifyNewlines (text : String) : '\r' ∉ (unifyNewlines text).toList := by
  rw [toList_unifyNewlines]
  exact return_not_mem_onePass text.toList

end ShaderBundle.Text
