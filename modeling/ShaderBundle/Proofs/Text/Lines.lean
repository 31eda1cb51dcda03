import ShaderBundle.Text.Lines
import Mathlib.Algebra.Ring.Nat
import Mathlib.Data.List.Basic

/-! Texts and their lines: pieces between line feeds hold none themselves, and lines that hold none are
read back from their join. -/
namespace ShaderBundle.Text

def OneLine (text : String) : Prop := '\n' ∉ text.toList

theorem OneLine.append {front back : String} (left : OneLine front) (right : OneLine back) :
    OneLine (front ++ back) := by
  rw [OneLine, String.toList_append, List.mem_append, not_or]
  exact ⟨left, right⟩

/-- The pieces between the line feeds of a text; the empty text has none. -/
def pieces (text : String) : List String :=
  if text = "" then [] else (text.toList.splitOn '\n').map String.ofList

theorem mem_splitOn {a : Char} {cs piece : List Char} (member : piece ∈ cs.splitOn a) :
    a ∉ piece ∧ piece ⊆ cs := by
  induction cs generalizing piece with
  | nil =>
    obtain rfl : piece = [] := by simpa using member
    simp
  | cons c cs ih =>
    rw [List.splitOn_cons_eq_if_modifyHead] at member
    split at member
    · rcases List.mem_cons.mp member with rfl | later
      · simp
      · exact ⟨(ih later).1, List.subset_cons_of_subset c (ih later).2⟩
    · rename_i different
      obtain ⟨first, rest, split⟩ := List.exists_cons_of_ne_nil (List.splitOn_ne_nil a cs)
      rw [split, List.modifyHead_cons] at member
      rcases List.mem_cons.mp member with rfl | later
      · obtain ⟨free, inside⟩ := ih (split ▸ List.mem_cons_self)
        refine ⟨?_, List.cons_subset_cons c inside⟩
        rw [List.mem_cons, not_or]
        exact ⟨fun same => different (by simp [same]), free⟩
      · obtain ⟨free, inside⟩ := ih (split ▸ List.mem_cons_of_mem _ later)
        exact ⟨free, List.subset_cons_of_subset c inside⟩

/-- Each occurrence of the separator ends one piece. -/
theorem length_splitOn (a : Char) (cs : List Char) : (cs.splitOn a).length = cs.count a + 1 := by
  induction cs with
  | nil => simp
  | cons c cs ih =>
    rw [List.splitOn_cons_eq_if_modifyHead]
    split
    · rename_i same
      obtain rfl : c = a := by simpa using same
      simp [ih]
    · rename_i different
      rw [List.length_modifyHead, ih, List.count_cons_of_ne (by simpa using different)]

/-- The lines of a text are made of its characters other than line feeds. -/
theorem mem_splitLines {text line : String} (member : line ∈ splitLines text) :
    OneLine line ∧ line.toList ⊆ text.toList := by
  unfold splitLines at member
  obtain ⟨piece, kept, rfl⟩ := List.mem_map.mp member
  have inPieces : piece ∈ text.toList.splitOn '\n' := by
    split at kept
    · exact List.dropLast_subset _ kept
    · exact kept
  rw [OneLine, String.toList_ofList]
  exact mem_splitOn inPieces

theorem oneLine_of_mem_splitLines {text line : String} (member : line ∈ splitLines text) :
    OneLine line :=
  (mem_splitLines member).1

theorem toList_joinLines_splitOn {lines : List String} (free : ∀ line ∈ lines, OneLine line)
    (some : lines ≠ []) : (joinLines lines).toList.splitOn '\n' = lines.map String.toList := by
  rw [joinLines, String.toList_ofList]
  refine List.splitOn_intercalate '\n' ?_ (by simpa using some)
  intro cs member
  obtain ⟨line, inLines, rfl⟩ := List.mem_map.mp member
  exact free line inLines

/-- Splitting a join drops the empty line at its end. -/
theorem splitLines_joinLines {lines : List String} (free : ∀ line ∈ lines, OneLine line)
    (ends : ∀ last ∈ lines.getLast?, last = "") : splitLines (joinLines lines) = lines.dropLast := by
  by_cases none : lines = []
  · subst none
    decide
  have split := toList_joinLines_splitOn free none
  have last : (lines.map String.toList).getLast? = some [] := by
    rw [List.getLast?_map, List.getLast?_eq_some_getLast none,
      ends _ (List.getLast?_eq_some_getLast none)]
    rfl
  unfold splitLines
  dsimp only
  rw [split, if_pos last, ← List.map_dropLast, List.map_map]
  simp [Function.comp_def]

theorem toList_joinLines_cons (line : String) {rest : List String} (more : rest ≠ []) :
    (joinLines (line :: rest)).toList = line.toList ++ '\n' :: (joinLines rest).toList := by
  have some : rest.map String.toList ≠ [] := by simpa using more
  rw [joinLines, joinLines, String.toList_ofList, String.toList_ofList, List.map_cons,
    List.intercalate_cons_of_ne_nil some, List.append_assoc]
  rfl

def endLines (lines : List String) : String := String.join (lines.map (· ++ "\n"))

theorem toList_endLines_cons (line : String) (rest : List String) :
    (endLines (line :: rest)).toList = line.toList ++ '\n' :: (endLines rest).toList := by
  simp [endLines]

theorem endLines_eq_joinLines (lines : List String) : endLines lines = joinLines (lines ++ [""]) := by
  induction lines with
  | nil => decide
  | cons line rest ih =>
    have later : (joinLines (line :: (rest ++ [""]))).toList =
        line.toList ++ '\n' :: (joinLines (rest ++ [""])).toList := toList_joinLines_cons line (by simp)
    rw [← String.toList_inj, List.cons_append, later, toList_endLines_cons, ih]

/-- Lines without line feeds are read back when each of them is ended. -/
theorem splitLines_endLines {lines : List String} (free : ∀ line ∈ lines, OneLine line) :
    splitLines (endLines lines) = lines := by
  have all : ∀ line ∈ lines ++ [""], OneLine line := by
    intro line member
    rcases List.mem_append.mp member with inside | last
    · exact free line inside
    · obtain rfl := List.mem_singleton.mp last
      exact List.not_mem_nil
  rw [endLines_eq_joinLines, splitLines_joinLines all (by simp), List.dropLast_concat]

theorem length_pieces (text : String) :
    (pieces text).length = if text.toList = [] then 0 else text.toList.count '\n' + 1 := by
  unfold pieces
  by_cases empty : text = ""
  · simp [empty]
  · have some : text.toList ≠ [] := by simpa using empty
    rw [if_neg empty, if_neg some, List.length_map, length_splitOn]

/-! ### Line feeds -/

def breaks (text : String) : Nat := text.toList.count '\n'

@[simp] theorem breaks_append (front back : String) : breaks (front ++ back) = breaks front + breaks back := by
  simp [breaks]

theorem getLast?_joinLines {front : List String} (some : front ≠ []) :
    (joinLines (front ++ [""])).toList.getLast? = Option.some '\n' := by
  induction front with
  | nil => exact absurd rfl some
  | cons line rest ih =>
    rw [List.cons_append, toList_joinLines_cons line (by simp)]
    by_cases last : rest = []
    · subst last
      simp [joinLines]
    · rw [List.getLast?_append_of_ne_nil _ (List.cons_ne_nil _ _), List.getLast?_cons,
        ih last, Option.getD_some]

end ShaderBundle.Text
