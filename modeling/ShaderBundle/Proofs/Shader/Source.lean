import ShaderBundle.Proofs.Shader.Rescan
import Mathlib.Algebra.Order.BigOperators.Group.List
import Mathlib.Algebra.Order.Group.Nat

/-! The text of a bundle as a whole: it ends its last line, and it has more lines than any text that only
names one of its modules. -/
namespace ShaderBundle.Shader.Laid

open Text

variable {s : Shader} {m : Module}

/-- A source is empty or ends its last line. -/
theorem source_ends (laid : s.Laid) : s.source = "" ∨ s.source.toList.getLast? = some '\n' := by
  rw [laid.source]
  by_cases bare : bodyLines s.sorted = []
  · left
    rw [s.bundledLines_eq, hoistedTexts_eq_nil laid bare, bare]
    rfl
  · right
    have last : "" ∈ (bundledLines s.sorted).getLast? := by
      rw [s.bundledLines_eq, List.getLast?_append_of_ne_nil _ bare,
        List.getLast?_eq_some_getLast bare]
      exact congrArg some (getLast?_bodyLines _ _ (List.getLast?_eq_some_getLast bare))
    have ends := List.dropLast_append_getLast? "" last
    rw [← ends]
    refine getLast?_joinLines fun none => laid.bundledLines_ne ?_
    rw [← ends, none, List.nil_append]

/-- A module with lines has its marker in the source, and at least one line behind it. -/
theorem breaks_id (laid : s.Laid) (member : m ∈ s.sorted) (filled : m.lines ≠ []) :
    breaks m.id + 2 ≤ breaks s.source := by
  obtain ⟨offset, place⟩ := exists_bodyAt member filled
  have fits := place.le_length
  have lines := List.length_pos_of_ne_nil filled
  have long : 3 ≤ (bundledLines s.sorted).length := by
    rw [length_body] at fits
    rw [length_bundledLines]
    omega
  have inside : m.marker ∈ bundledLines s.sorted := by
    rw [s.bundledLines_eq]
    exact List.mem_append_right _ (mem_bodyLines_iff.mpr ⟨m, member, filled, by simp [Module.body]⟩)
  have marked : breaks m.id ≤ ((bundledLines s.sorted).map breaks).sum := by
    rw [← m.breaks_marker]
    exact List.le_sum_of_mem (List.mem_map_of_mem inside)
  have joined := breaks_joinLines (List.ne_nil_of_mem inside)
  rw [laid.source]
  omega

/-- A block stands for lines of a module. -/
theorem exists_of_block (laid : s.Laid) {b : SourceBlock} (member : b ∈ s.blocks) :
    ∃ m ∈ s.sorted, m.lines ≠ [] ∧ m.id = b.moduleId := by
  rw [laid.blocks] at member
  rcases mem_blocksOf_iff.mp member with ⟨index, entry, atIndex, rfl⟩ | ⟨m, offset, body, rfl⟩
  · obtain ⟨m, inSorted, h, hoisted, rfl⟩ := mem_hoistedLines_iff.mp (List.mem_of_getElem? atIndex)
    have inside := (laid.read m inSorted).line_lt hoisted
    exact ⟨m, inSorted, List.ne_nil_of_length_pos (Nat.zero_lt_of_lt inside), rfl⟩
  · exact ⟨m, body.mem, body.filled, rfl⟩

/-- A text with one line feed more than the id of a block is too short for the source. -/
theorem ne_source (laid : s.Laid) {b : SourceBlock} (member : b ∈ s.blocks) {text : String}
    (short : breaks text = breaks b.moduleId + 1) : text ≠ if s.source = "" then "\n" else s.source := by
  obtain ⟨m, inSorted, filled, named⟩ := laid.exists_of_block member
  have long := laid.breaks_id inSorted filled
  have some : s.source ≠ "" := by
    intro empty
    have bare : breaks "" = 0 := rfl
    simp [empty, bare] at long
  rw [if_neg some]
  rintro rfl
  rw [named, short] at long
  omega

end ShaderBundle.Shader.Laid
