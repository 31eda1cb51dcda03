import ShaderBundle.Proofs.Shader.LineMap
import Mathlib.Algebra.Order.BigOperators.Group.List
import Mathlib.Algebra.Order.Group.Nat

/-! The rows of a source, which are the lines that a compiler counts. An id may hold line feeds and stands in
its marker as it is, so a marker can take up several rows. All other lines of a bundle are one row each,
but they stand further down than their numbers say by the line feeds of the markers before them. -/
namespace ShaderBundle.Shader

open Text

def filledModules (s : Shader) : List Module := s.sorted.filter fun m => !m.isEmpty

/-- The hoisted lines, and for each body its lines, its marker and the empty line behind it. -/
def placeCount (s : Shader) : Nat :=
  s.hoistedCount + (s.filledModules.map fun m => m.lines.length + 2).sum

/-- How much further down than its number line `k` of a bundle stands. -/
def drift (s : Shader) (k : Nat) : Nat := (((bundledLines s.sorted).take k).map breaks).sum

def NamedOnOneLine (s : Shader) : Prop := ∀ m ∈ s.sorted, m.lines ≠ [] → OneLine m.id

variable {s : Shader}

theorem mem_filledModules_iff {m : Module} : m ∈ s.filledModules ↔ m ∈ s.sorted ∧ m.lines ≠ [] := by
  simp [filledModules, Module.isEmpty]

theorem bodyLines_eq_flatMap (s : Shader) : bodyLines s.sorted = s.filledModules.flatMap Module.body := by
  rw [filledModules]
  induction s.sorted with
  | nil => rfl
  | cons m rest ih =>
    by_cases empty : m.lines = []
    · rw [bodyLines_cons_of_empty rest empty, ih, List.filter_cons_of_neg]
      simpa using isEmpty_iff.mpr empty
    · rw [bodyLines_cons rest empty, ih, List.filter_cons_of_pos, List.flatMap_cons]
      simpa [Module.isEmpty] using empty

/-- The number of a bundle's lines. -/
theorem length_bundledLines_eq (s : Shader) : (bundledLines s.sorted).length = s.placeCount := by
  rw [length_bundledLines, length_hoistedLines, bodyLines_eq_flatMap, List.length_flatMap, placeCount]
  simp only [length_body]

namespace Laid

theorem sum_breaks_body {m : Module} (read : m.IsRead) : (m.body.map breaks).sum = breaks m.id := by
  have plain : (m.lines.map breaks).sum = 0 := by
    apply List.sum_eq_zero
    intro count member
    obtain ⟨line, inLines, rfl⟩ := List.mem_map.mp member
    exact oneLine_iff.mp (read.oneLine_lines inLines)
  rw [Module.body, List.map_append, List.sum_append, List.map_cons, List.sum_cons, plain, m.breaks_marker]
  rfl

/-- The line feeds in the lines of a bundle are those of the ids in its markers. -/
theorem sum_breaks (laid : s.Laid) :
    ((bundledLines s.sorted).map breaks).sum = (s.filledModules.map fun m => breaks m.id).sum := by
  have front : (((hoistedLines s.sorted).map (·.2.text)).map breaks).sum = 0 := by
    apply List.sum_eq_zero
    intro count member
    obtain ⟨text, listed, rfl⟩ := List.mem_map.mp member
    obtain ⟨entry, inFront, rfl⟩ := List.mem_map.mp listed
    obtain ⟨m, inSorted, h, hoisted, rfl⟩ := mem_hoistedLines_iff.mp inFront
    exact oneLine_iff.mp ((laid.read m inSorted).oneLine_hoisted hoisted)
  have bodies : ∀ m ∈ s.filledModules, (m.body.map breaks).sum = breaks m.id := fun m member =>
    sum_breaks_body (laid.read m (mem_filledModules_iff.mp member).1)
  rw [bundledLines, List.map_append, List.sum_append, front, Nat.zero_add, bodyLines_eq_flatMap,
    List.map_flatMap, List.flatMap_def, List.sum_flatten, List.map_map]
  exact congrArg List.sum (List.map_congr_left bodies)

theorem sourceLines_eq_rows (laid : s.Laid) : s.sourceLines = (bundledLines s.sorted).flatMap rows := by
  rw [sourceLines, laid.source]
  exact pieces_joinLines_eq_rows laid.bundledLines_ne

theorem lineCount_eq (laid : s.Laid) :
    s.lineCount = s.placeCount + (s.filledModules.map fun m => breaks m.id).sum := by
  rw [← length_sourceLines, laid.sourceLines_eq_rows, length_flatMap_rows, length_bundledLines_eq,
    laid.sum_breaks]

theorem namedOnOneLine_iff_lineCount (laid : s.Laid) : s.NamedOnOneLine ↔ s.lineCount = s.placeCount := by
  rw [laid.lineCount_eq, Nat.add_eq_left, List.sum_eq_zero_iff]
  simp only [List.forall_mem_map, mem_filledModules_iff, and_imp, NamedOnOneLine, oneLine_iff]

theorem namedOnOneLine_iff_sourceLines (laid : s.Laid) :
    s.NamedOnOneLine ↔ s.sourceLines = bundledLines s.sorted := by
  rw [laid.sourceLines_eq_rows, flatMap_rows_eq_self_iff]
  constructor
  · intro named line member
    rcases laid.oneLine_or_marker member with free | ⟨m, inSorted, filled, rfl⟩
    · exact free
    · exact Module.oneLine_marker (named m inSorted filled)
  · intro free m inSorted filled
    have marked : m.marker ∈ bundledLines s.sorted :=
      mem_bundledLines_iff.mpr (.inr ⟨m, inSorted, filled, mem_body_iff.mpr (.inl rfl)⟩)
    rw [oneLine_iff, ← m.breaks_marker]
    exact oneLine_iff.mp (free _ marked)

/-- A number that is led back to a module line stands for the row that shows this line. -/
theorem row_of_mapLine (laid : s.Laid) {k j : Nat} {m : Module} (mapped : s.mapLine k = some (m, (j : Int))) :
    ∃ row, s.sourceLines[k + s.drift k]? = some row ∧
      (m.lines[j]? = some row ∨ k < s.hoistedCount ∧ m.lines[j]? = some ("// " ++ row)) := by
  rw [laid.sourceLines_eq_rows]
  rcases laid.mapLine_eq_some_iff.mp mapped with ⟨index, h, place, same, line⟩ |
    ⟨offset, line, place, inside, same, line'⟩
  · obtain rfl : k = index := by omega
    obtain rfl : j = h.line := by omega
    have read := laid.read m place.member
    have front := length_hoistedLines s ▸ place.lt
    exact ⟨h.text, getElem?_flatMap_rows place.getElem? (read.oneLine_hoisted place.hoisted),
      .inr ⟨front, read.line_of_hoisted place.hoisted⟩⟩
  · obtain rfl : j = line := by omega
    obtain rfl : k = (hoistedLines s.sorted).length + offset + (j + 1) := by omega
    have fits : j + 1 < m.body.length := by
      rw [length_body]
      omega
    have shown : (bundledLines s.sorted)[(hoistedLines s.sorted).length + offset + (j + 1)]? =
        m.lines[j]? := by
      rw [place.getElem?_bundledLines fits, getElem?_body_succ m inside]
    obtain ⟨text, here⟩ : ∃ text, m.lines[j]? = some text := ⟨_, List.getElem?_eq_getElem inside⟩
    have free := (laid.read m place.mem).oneLine_lines (List.mem_of_getElem? here)
    exact ⟨text, getElem?_flatMap_rows (shown.trans here) free, .inl here⟩

end Laid

/-- The rows of an assembled source are those of its lines. A line is one row, but for markers, which take up
one more for each line feed in the id; so the count of the rows is that of the lines and of the line feeds in
the ids of the modules with bodies, and a number that is led back to a module line stands further down by
the line feeds before it. Lines and rows are the same exactly if all these ids are on one line, as they are
if the root and the include root are; and without carriage returns in these two the source has none. -/
theorem assembled_rows {source : ModuleSource} {tree : FileTree} {root includeRoot : String}
    (ok : (assemble (source.library tree) root includeRoot).result = .ok s) :
    s.sourceLines.length = s.lineCount ∧ s.sourceLines = (bundledLines s.sorted).flatMap rows ∧
    (∀ line ∈ bundledLines s.sorted, rows line = [line] ∨
      ∃ m ∈ s.sorted, m.lines ≠ [] ∧ line = m.marker ∧ (rows line).length = breaks m.id + 1) ∧
    (bundledLines s.sorted).length = s.placeCount ∧
    s.lineCount = s.placeCount + (s.filledModules.map fun m => breaks m.id).sum ∧
    (∀ (k j : Nat) (m : Module), s.mapLine k = some (m, (j : Int)) →
      ∃ row, s.sourceLines[k + s.drift k]? = some row ∧
        (m.lines[j]? = some row ∨ k < s.hoistedCount ∧ m.lines[j]? = some ("// " ++ row))) ∧
    (s.NamedOnOneLine ↔ s.lineCount = s.placeCount) ∧
    (s.NamedOnOneLine ↔ s.sourceLines = bundledLines s.sorted) ∧
    (OneLine root → OneLine includeRoot → s.NamedOnOneLine) ∧
    ('\r' ∉ root.toList → '\r' ∉ includeRoot.toList → '\r' ∉ s.source.toList) := by
  have laid := laid_of_assemble ok
  refine ⟨length_sourceLines s, laid.sourceLines_eq_rows, fun line member => ?_, length_bundledLines_eq s,
    laid.lineCount_eq, fun k j m mapped => laid.row_of_mapLine mapped, laid.namedOnOneLine_iff_lineCount,
    laid.namedOnOneLine_iff_sourceLines, fun freeRoot freeIncludes => ?_, fun freeRoot freeIncludes => ?_⟩
  · rcases laid.oneLine_or_marker member with free | ⟨m, inSorted, filled, rfl⟩
    · exact .inl (rows_eq_singleton free)
    · exact .inr ⟨m, inSorted, filled, rfl, by rw [length_rows, m.breaks_marker]⟩
  · intro m inSorted _
    exact oneLine_id_of_assemble freeIncludes freeRoot ok inSorted
  · apply return_not_mem_source ok
    intro m inSorted _
    exact not_mem_id_of_assemble (by decide) (by decide) ModuleSource.targetsLack_return freeIncludes
      freeRoot ok inSorted

def splitStore : MemoryStore := ⟨[("x\ny/m", "#include \"a\"\nz"), ("x\ny/a", "y")], []⟩

/-- Behind two markers in two rows each, line 5 is row 7. -/
theorem assembled_rows_of_directory :
    ∃ s, (assemble ((ModuleSource.memory splitStore).library {}) "x\ny/m" "").result = .ok s ∧
      s.placeCount = 7 ∧ s.lineCount = 9 ∧ ¬ s.NamedOnOneLine ∧
      ∃ m, s.mapLine 5 = some (m, 1) ∧ m.lines[1]? = some "z" ∧ s.sourceLines[7]? = some "z" := by
  let a : Module := ⟨"x\ny/a", ["y"], [], []⟩
  let m : Module := ⟨"x\ny/m", ["// #include \"a\"", "z"], [⟨"a", 0, .relative, some "x\ny/a"⟩], []⟩
  let s := Shader.ofSorted "x\ny/m" [m, a] [a, m]
  have ok : (assemble ((ModuleSource.memory splitStore).library {}) "x\ny/m" "").result = .ok s :=
    assemble_eq_ok (by decide +kernel) (by cbv)
  obtain ⟨-, -, -, -, count, shown, named, -, -, -⟩ := assembled_rows ok
  have places : s.placeCount = 7 := by decide
  have fed : (s.filledModules.map fun m => breaks m.id).sum = 2 := by decide
  have mapped : s.mapLine 5 = some (m, 1) := by decide +kernel
  have drift : s.drift 5 = 2 := by decide
  obtain ⟨row, there, same | ⟨front, -⟩⟩ := shown 5 1 m mapped
  · obtain rfl : "z" = row := Option.some.inj same
    rw [drift] at there
    have lines : s.lineCount = 9 := by omega
    have broken : ¬ s.NamedOnOneLine := by
      intro all
      have same := named.mp all
      omega
    exact ⟨s, ok, places, lines, broken, m, mapped, rfl, there⟩
  · exact absurd front (by decide)

/-- An id with a line feed: the count of the rows is not that of the lines, and the number that is led back to
the one line of the module stands for the rest of the marker. -/
theorem marker_in_two_rows :
    let store : MemoryStore := ⟨[("a\nb", "void main() \x7b\x7d\n")], []⟩
    let m : Module := ⟨"a\nb", ["void main() \x7b\x7d"], [], []⟩
    ∃ s, (assemble store.library "a\nb" "").result = .ok s ∧ s.sorted = [m] ∧ s.placeCount = 3 ∧
      s.lineCount = 4 ∧ s.mapLine 1 = some (m, 0) ∧ s.sourceLines[1]? = some "b" ∧
      s.sourceLines[2]? = m.lines[0]? := by
  intro store m
  refine ⟨Shader.ofSorted "a\nb" [m] [m], assemble_eq_ok (by decide +kernel) (by cbv), rfl, ?_, ?_, ?_, ?_, ?_⟩
  all_goals decide +kernel

end ShaderBundle.Shader
