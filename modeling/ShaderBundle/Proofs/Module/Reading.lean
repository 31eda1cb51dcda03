import ShaderBundle.Module
import Mathlib.Data.List.Basic

/-! What a read module keeps of its lines: every line at its place, a record of every include and of
every hoisted line, and both kinds of records in the order of the lines. -/
namespace ShaderBundle.Module

def ofLines (id : String) (lines : List String) : Module where
  id
  lines := lines.map kept
  dependencies := lines.zipIdx.filterMap fun (line, index) => dependency? line index
  hoisted := lines.zipIdx.filterMap fun (line, index) => hoisted? line index

theorem ofSource_eq_ok_iff {id source : String} {m : Module} :
    ofSource id source = .ok m ↔
      (∀ line ∈ Text.splitLines source, LineRole.of line ≠ .emptyInclusion) ∧
      m = ofLines id (Text.splitLines source) := by
  unfold ofSource
  dsimp only
  cases found : (Text.splitLines source).findIdx? (LineRole.of · = .emptyInclusion) with
  | some index =>
    obtain ⟨inside, empty, -⟩ := List.findIdx?_eq_some_iff_getElem.mp found
    have named : LineRole.of (Text.splitLines source)[index] = .emptyInclusion := by
      simpa using empty
    constructor
    · intro read
      simp at read
    · rintro ⟨none, -⟩
      exact absurd named (none _ (List.getElem_mem inside))
  | none =>
    have all : ∀ line ∈ Text.splitLines source, LineRole.of line ≠ .emptyInclusion := by
      simpa [List.findIdx?_eq_none_iff] using found
    constructor
    · intro read
      exact ⟨all, (Except.ok.inj read).symm⟩
    · rintro ⟨-, rfl⟩
      rfl

/-- The line that a module is refused for is the first include without a path. -/
theorem ofSource_error {id source : String} {fault : MalformedInclude}
    (refused : ofSource id source = .error fault) :
    fault.moduleId = id ∧
    (∃ line, (Text.splitLines source)[fault.line]? = some line ∧
      LineRole.of line = .emptyInclusion) ∧
    ∀ index line, index < fault.line → (Text.splitLines source)[index]? = some line →
      LineRole.of line ≠ .emptyInclusion := by
  unfold ofSource at refused
  dsimp only at refused
  split at refused
  · rename_i index found
    obtain rfl := Except.error.inj refused
    obtain ⟨inside, empty, first⟩ := List.findIdx?_eq_some_iff_getElem.mp found
    refine ⟨rfl, ⟨_, List.getElem?_eq_getElem inside, by simpa using empty⟩, ?_⟩
    intro early line before atIndex
    obtain ⟨_, rfl⟩ := List.getElem?_eq_some_iff.mp atIndex
    simpa using first early before
  · simp at refused

theorem ofSource_id {id source : String} {m : Module} (read : ofSource id source = .ok m) :
    m.id = id := by
  obtain ⟨-, rfl⟩ := ofSource_eq_ok_iff.mp read
  rfl

/-- What a text includes does not depend on the id that it is read under. -/
theorem exists_ofSource {id source : String} {m : Module} (read : ofSource id source = .ok m)
    (other : String) : ∃ n, ofSource other source = .ok n ∧ n.dependencies = m.dependencies := by
  obtain ⟨complete, rfl⟩ := ofSource_eq_ok_iff.mp read
  exact ⟨_, ofSource_eq_ok_iff.mpr ⟨complete, rfl⟩, rfl⟩

theorem mem_hoisted_ofLines {id : String} {lines : List String} {h : HoistedLine} :
    h ∈ (ofLines id lines).hoisted ↔
      lines[h.line]? = some h.text ∧ LineRole.of h.text = .hoisted := by
  simp only [ofLines, hoisted?, List.mem_filterMap, Prod.exists, List.mk_mem_zipIdx_iff_getElem?]
  constructor
  · rintro ⟨line, index, atIndex, record⟩
    split at record
    · obtain rfl := Option.some.inj record
      exact ⟨atIndex, ‹_›⟩
    · simp at record
  · rintro ⟨atIndex, role⟩
    exact ⟨h.text, h.line, atIndex, by simp [role]⟩

theorem mem_dependencies_ofLines {id : String} {lines : List String} {dep : Dependency} :
    dep ∈ (ofLines id lines).dependencies ↔ ∃ line, lines[dep.line]? = some line ∧
      LineRole.of line = .inclusion dep.kind dep.target ∧ dep.resolved = none := by
  simp only [ofLines, dependency?, List.mem_filterMap, Prod.exists, List.mk_mem_zipIdx_iff_getElem?]
  constructor
  · rintro ⟨line, index, atIndex, record⟩
    split at record
    · rename_i role
      obtain rfl := Option.some.inj record
      exact ⟨line, atIndex, role, rfl⟩
    · simp at record
  · rintro ⟨line, atIndex, role, unresolved⟩
    refine ⟨line, dep.line, atIndex, ?_⟩
    simp [role, ← unresolved]

/-- Records taken line by line stand in the order of their lines. -/
theorem pairwise_filterMap_zipIdx {α : Type} {lines : List String} {record : String → Nat → Option α}
    {line : α → Nat} (named : ∀ text index a, record text index = some a → line a = index) :
    (lines.zipIdx.filterMap fun (text, index) => record text index).Pairwise
      (line · < line ·) := by
  have increasing : lines.zipIdx.Pairwise (·.2 < ·.2) := by
    rw [← List.pairwise_map (f := Prod.snd) (R := (· < ·)), List.zipIdx_map_snd]
    exact List.pairwise_lt_range'
  refine List.pairwise_filterMap.mpr (increasing.imp ?_)
  intro first second before a recordA b recordB
  rw [named _ _ a recordA, named _ _ b recordB]
  exact before

theorem line_of_dependency? (text : String) (index : Nat) (dep : Dependency)
    (record : dependency? text index = some dep) : dep.line = index := by
  unfold dependency? at record
  split at record
  · rw [← Option.some.inj record]
  · simp at record

theorem line_of_hoisted? (text : String) (index : Nat) (h : HoistedLine)
    (record : hoisted? text index = some h) : h.line = index := by
  unfold hoisted? at record
  split at record
  · rw [← Option.some.inj record]
  · simp at record

theorem hoisted_ofLines_increasing (id : String) (lines : List String) :
    (ofLines id lines).hoisted.Pairwise (·.line < ·.line) :=
  pairwise_filterMap_zipIdx line_of_hoisted?

theorem kept_of_hoisted {line : String} (role : LineRole.of line = .hoisted) :
    kept line = "// " ++ line := by
  simp [kept, role, comment]

/-- The text of a hoisted line is that of its line, which the module keeps as a comment. -/
theorem getElem?_lines_of_mem_hoisted {id : String} {lines : List String} {h : HoistedLine}
    (member : h ∈ (ofLines id lines).hoisted) :
    (ofLines id lines).lines[h.line]? = some ("// " ++ h.text) := by
  obtain ⟨atIndex, role⟩ := mem_hoisted_ofLines.mp member
  simp [ofLines, atIndex, kept_of_hoisted role]

/-- The lines and the hoisted lines are those of a text; the includes may have been followed since. -/
def IsRead (m : Module) : Prop :=
  ∃ source, m.lines = (ofLines m.id (Text.splitLines source)).lines ∧
    m.hoisted = (ofLines m.id (Text.splitLines source)).hoisted

namespace IsRead

variable {m : Module}

theorem hoisted_increasing (read : m.IsRead) : m.hoisted.Pairwise (·.line < ·.line) := by
  obtain ⟨source, -, hoisted⟩ := read
  rw [hoisted]
  exact hoisted_ofLines_increasing _ _

theorem line_of_hoisted (read : m.IsRead) {h : HoistedLine} (member : h ∈ m.hoisted) :
    m.lines[h.line]? = some ("// " ++ h.text) := by
  obtain ⟨source, lines, hoisted⟩ := read
  rw [hoisted] at member
  rw [lines]
  exact getElem?_lines_of_mem_hoisted member

/-- A module that hoists a line is not empty. -/
theorem line_lt (read : m.IsRead) {h : HoistedLine} (member : h ∈ m.hoisted) :
    h.line < m.lines.length := by
  obtain ⟨inside, -⟩ := List.getElem?_eq_some_iff.mp (read.line_of_hoisted member)
  exact inside

end IsRead

end ShaderBundle.Module
