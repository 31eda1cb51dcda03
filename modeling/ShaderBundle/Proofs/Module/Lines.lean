import ShaderBundle.Proofs.Module.Directives
import ShaderBundle.Proofs.Module.Reading
import ShaderBundle.Proofs.Text.Lines

/-! What a read module keeps of a text holds no line feed: neither its lines, nor its hoisted lines, nor
the targets of its includes. Its lines are made of the characters of the text. -/
namespace ShaderBundle

open Text

theorem LineRole.subset_of_inclusion {line target : String} {kind : IncludeKind}
    (role : LineRole.of line = .inclusion kind target) : target.toList ⊆ line.toList := by
  have asks := asks_of line
  rw [role] at asks
  cases asks with
  | inclusion _ included _ =>
    intro c member
    rw [String.toList_ofList] at member
    exact trim_subset _ (included.target_subset member)

namespace Module

/-- A kept line is made of the characters of the line and of those that make it a comment. -/
theorem mem_kept {line : String} {c : Char} (member : c ∈ (kept line).toList) :
    c ∈ "// ".toList ∨ c ∈ line.toList := by
  unfold kept at member
  split at member
  · exact List.mem_append.mp (by simpa [comment] using member)
  · exact List.mem_append.mp (by simpa [comment] using member)
  · exact .inr member
  · exact .inr member

theorem oneLine_kept {line : String} (free : OneLine line) : OneLine (kept line) := by
  intro feed
  rcases mem_kept feed with inFront | inLine
  · exact absurd inFront (by decide)
  · exact free inLine

theorem oneLine_marker {m : Module} (free : OneLine m.id) : OneLine m.marker := by
  have begins : OneLine "// MODULE BEGIN: " := by
    unfold OneLine
    decide
  exact begins.append free

theorem toList_marker (m : Module) : m.marker.toList = "// MODULE BEGIN: ".toList ++ m.id.toList :=
  String.toList_append ..

/-- A marker has the line feeds of the id in it. -/
theorem breaks_marker (m : Module) : breaks m.marker = breaks m.id := by
  have plain : breaks "// MODULE BEGIN: " = 0 := by decide
  calc breaks m.marker = breaks "// MODULE BEGIN: " + breaks m.id := breaks_append _ _
    _ = breaks m.id := by rw [plain, Nat.zero_add]

namespace IsRead

variable {m : Module}

theorem oneLine_lines (read : m.IsRead) {line : String} (member : line ∈ m.lines) : OneLine line := by
  obtain ⟨source, lines, -⟩ := read
  rw [lines] at member
  obtain ⟨raw, inSource, rfl⟩ := List.mem_map.mp member
  exact oneLine_kept (oneLine_of_mem_splitLines inSource)

theorem oneLine_hoisted (read : m.IsRead) {h : HoistedLine} (member : h ∈ m.hoisted) :
    OneLine h.text := by
  obtain ⟨source, -, hoisted⟩ := read
  rw [hoisted] at member
  obtain ⟨atIndex, -⟩ := mem_hoisted_ofLines.mp member
  exact oneLine_of_mem_splitLines (List.mem_of_getElem? atIndex)

end IsRead

section Characters

variable {id source : String} {m : Module} (read : ofSource id source = .ok m)

include read

/-- The lines of a module are made of the characters of its text and of those of a comment. -/
theorem mem_of_mem_lines {line : String} (member : line ∈ m.lines) {c : Char} (inLine : c ∈ line.toList) :
    c ∈ "// ".toList ∨ c ∈ source.toList := by
  obtain ⟨-, rfl⟩ := ofSource_eq_ok_iff.mp read
  obtain ⟨raw, inSource, rfl⟩ := List.mem_map.mp member
  exact (mem_kept inLine).imp_right fun inRaw => (mem_splitLines inSource).2 inRaw

/-- The targets of its includes are parts of its text and hold no line feed. -/
theorem target_subset {dep : Dependency} (member : dep ∈ m.dependencies) :
    OneLine dep.target ∧ dep.target.toList ⊆ source.toList := by
  obtain ⟨-, rfl⟩ := ofSource_eq_ok_iff.mp read
  obtain ⟨line, atIndex, role, -⟩ := mem_dependencies_ofLines.mp member
  obtain ⟨free, inText⟩ := mem_splitLines (List.mem_of_getElem? atIndex)
  have inLine := LineRole.subset_of_inclusion role
  exact ⟨fun feed => free (inLine feed), List.Subset.trans inLine inText⟩

theorem subset_of_mem_hoisted {h : HoistedLine} (member : h ∈ m.hoisted) :
    h.text.toList ⊆ source.toList := by
  obtain ⟨-, rfl⟩ := ofSource_eq_ok_iff.mp read
  obtain ⟨atIndex, -⟩ := mem_hoisted_ofLines.mp member
  exact (mem_splitLines (List.mem_of_getElem? atIndex)).2

end Characters

end Module

end ShaderBundle
