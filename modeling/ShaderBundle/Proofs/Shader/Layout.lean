import ShaderBundle.Proofs.Module.Lines
import ShaderBundle.Proofs.Shader.Origin

/-! What stands at each place of a bundle. Behind the hoisted lines the bodies fill all places and do not
overlap, so that a marker or an empty line between two bodies has no origin. -/
namespace ShaderBundle.Shader

variable {sorted : List Module} {m : Module} {offset : Nat}

theorem getElem?_body_succ (m : Module) {line : Nat} (inside : line < m.lines.length) :
    m.body[line + 1]? = m.lines[line]? := by
  rw [Module.body, List.cons_append, List.getElem?_cons_succ, List.getElem?_append_left inside]

theorem getElem?_body_last (m : Module) : m.body[m.lines.length + 1]? = some "" := by
  simp [Module.body]

/-- A body stands as a whole in the lines of all bodies. -/
theorem BodyAt.getElem? (place : BodyAt sorted m offset) {index : Nat}
    (inside : index < m.body.length) : (bodyLines sorted)[offset + index]? = m.body[index]? := by
  obtain ⟨before, after, rfl, filled, rfl⟩ := place
  rw [bodyLines_append, bodyLines_cons _ filled, List.getElem?_append_right (by omega),
    Nat.add_sub_cancel_left, List.getElem?_append_left inside]

theorem BodyAt.le_length (place : BodyAt sorted m offset) :
    offset + m.body.length ≤ (bodyLines sorted).length := by
  obtain ⟨before, after, rfl, filled, rfl⟩ := place
  rw [bodyLines_append, bodyLines_cons _ filled, List.length_append, List.length_append]
  omega

theorem length_bodyLines_singleton (filled : m.lines ≠ []) :
    (bodyLines [m]).length = m.body.length := by
  rw [bodyLines_cons [] filled]
  simp [bodyLines]

/-- Every line of the bodies stands in some body. -/
theorem exists_bodyAt_of_lt {place : Nat} (inside : place < (bodyLines sorted).length) :
    ∃ m offset index, BodyAt sorted m offset ∧ index < m.body.length ∧ place = offset + index := by
  induction sorted generalizing place with
  | nil => simp [bodyLines] at inside
  | cons first rest ih =>
    by_cases early : place < (bodyLines [first]).length
    · have filled : first.lines ≠ [] := by
        intro empty
        rw [bodyLines_cons_of_empty [] empty] at early
        exact absurd early (Nat.not_lt_zero place)
      rw [length_bodyLines_singleton filled] at early
      exact ⟨first, 0, place, bodyAt_cons.mpr (.inl ⟨rfl, filled, rfl⟩), early, by omega⟩
    · have split : (bodyLines (first :: rest)).length =
          (bodyLines [first]).length + (bodyLines rest).length := by
        rw [← List.length_append, ← bodyLines_append, List.singleton_append]
      have behind : place - (bodyLines [first]).length < (bodyLines rest).length := by omega
      obtain ⟨m, offset, index, later, within, same⟩ := ih behind
      exact ⟨m, _, index, bodyAt_cons.mpr (.inr ⟨offset, later, rfl⟩), within, by omega⟩

/-- Of two bodies one ends before the other begins, unless they are the same. -/
theorem BodyAt.apart {n : Module} {other : Nat} (left : BodyAt sorted m offset)
    (right : BodyAt sorted n other) : (m = n ∧ offset = other) ∨
      offset + m.body.length ≤ other ∨ other + n.body.length ≤ offset := by
  induction sorted generalizing offset other with
  | nil =>
    obtain ⟨before, after, split, -⟩ := left
    simp at split
  | cons first rest ih =>
    rcases bodyAt_cons.mp left with ⟨rfl, filled, rfl⟩ | ⟨later, inRest, rfl⟩
    · rcases bodyAt_cons.mp right with ⟨rfl, -, rfl⟩ | ⟨later', -, rfl⟩
      · exact .inl ⟨rfl, rfl⟩
      · rw [length_bodyLines_singleton filled]
        omega
    · rcases bodyAt_cons.mp right with ⟨rfl, filled, rfl⟩ | ⟨later', inRest', rfl⟩
      · rw [length_bodyLines_singleton filled]
        omega
      · rcases ih inRest inRest' with ⟨rfl, rfl⟩ | between
        · exact .inl ⟨rfl, rfl⟩
        · omega

theorem length_bundledLines (sorted : List Module) :
    (bundledLines sorted).length = (hoistedLines sorted).length + (bodyLines sorted).length := by
  simp [bundledLines]

theorem HoistedAt.getElem? {index : Nat} {h : HoistedLine} (place : HoistedAt sorted index m h) :
    (bundledLines sorted)[index]? = some h.text := by
  rw [bundledLines, List.getElem?_append_left (by simpa using place.lt)]
  simp [place.entry]

theorem BodyAt.getElem?_bundledLines (place : BodyAt sorted m offset) {index : Nat}
    (inside : index < m.body.length) :
    (bundledLines sorted)[(hoistedLines sorted).length + offset + index]? = m.body[index]? := by
  rw [bundledLines, List.getElem?_append_right (by simp; omega), List.length_map, Nat.add_assoc,
    Nat.add_sub_cancel_left, place.getElem? inside]

theorem mem_bundledLines_iff {line : String} : line ∈ bundledLines sorted ↔
    (∃ m ∈ sorted, ∃ h ∈ m.hoisted, h.text = line) ∨ ∃ m ∈ sorted, m.lines ≠ [] ∧ line ∈ m.body := by
  rw [bundledLines, List.mem_append, mem_bodyLines_iff]
  refine or_congr_left ⟨fun front => ?_, ?_⟩
  · obtain ⟨entry, listed, rfl⟩ := List.mem_map.mp front
    obtain ⟨m, member, h, hoisted, rfl⟩ := mem_hoistedLines_iff.mp listed
    exact ⟨m, member, h, hoisted, rfl⟩
  · rintro ⟨m, member, h, hoisted, rfl⟩
    exact List.mem_map.mpr ⟨(m.id, h), mem_hoistedLines_iff.mpr ⟨m, member, h, hoisted, rfl⟩, rfl⟩

/-- Every line of a bundle is a hoisted line or stands in some body. -/
theorem place_cases {sorted : List Module} {place : Nat}
    (inside : place < (bundledLines sorted).length) :
    (∃ m h, HoistedAt sorted place m h) ∨ ∃ m offset index, BodyAt sorted m offset ∧
      index < m.body.length ∧ place = (hoistedLines sorted).length + offset + index := by
  rw [length_bundledLines] at inside
  by_cases front : place < (hoistedLines sorted).length
  · exact .inl (hoistedAt_of_lt front)
  · have behind : place - (hoistedLines sorted).length < (bodyLines sorted).length := by omega
    obtain ⟨m, offset, index, body, within, same⟩ := exists_bodyAt_of_lt behind
    exact .inr ⟨m, offset, index, body, within, by omega⟩

namespace Laid

variable {s : Shader} {n j : Int}

theorem inside_of_mapLine (laid : s.Laid) (mapped : s.mapLine n = some (m, j)) :
    0 ≤ n ∧ n < (bundledLines s.sorted).length := by
  rw [length_bundledLines]
  rcases laid.mapLine_eq_some_iff.mp mapped with ⟨index, h, place, rfl, -⟩ |
    ⟨offset, line, place, inside, rfl, -⟩
  · have before := place.lt
    omega
  · have fits := place.le_length
    rw [length_body] at fits
    omega

/-- The origin of a line is a line that its module has. -/
theorem line_of_mapLine (laid : s.Laid) (mapped : s.mapLine n = some (m, j)) :
    m ∈ s.sorted ∧ ∃ line : Nat, j = line ∧ line < m.lines.length := by
  rcases laid.mapLine_eq_some_iff.mp mapped with ⟨index, h, place, -, rfl⟩ |
    ⟨offset, line, place, inside, -, rfl⟩
  · exact ⟨place.member, h.line, rfl, (laid.read m place.member).line_lt place.hoisted⟩
  · exact ⟨place.mem, line, rfl, inside⟩

/-- Only a marker can have line feeds in it. -/
theorem oneLine_or_marker (laid : s.Laid) {line : String} (member : line ∈ bundledLines s.sorted) :
    Text.OneLine line ∨ ∃ m ∈ s.sorted, m.lines ≠ [] ∧ line = m.marker := by
  rcases mem_bundledLines_iff.mp member with ⟨m, inSorted, h, hoisted, rfl⟩ | ⟨m, inSorted, filled, inBody⟩
  · exact .inl ((laid.read m inSorted).oneLine_hoisted hoisted)
  · rcases mem_body_iff.mp inBody with rfl | inLines | rfl
    · exact .inr ⟨m, inSorted, filled, rfl⟩
    · exact .inl ((laid.read m inSorted).oneLine_lines inLines)
    · exact .inl List.not_mem_nil

theorem mapLine_hoisted (laid : s.Laid) {place : Nat} {h : HoistedLine}
    (hoisted : HoistedAt s.sorted place m h) : s.mapLine place = some (m, (h.line : Int)) :=
  laid.mapLine_eq_some_iff.mpr (.inl ⟨place, h, hoisted, rfl, rfl⟩)

theorem mapLine_body (laid : s.Laid) (place : BodyAt s.sorted m offset) {line : Nat}
    (inside : line < m.lines.length) :
    s.mapLine ((hoistedLines s.sorted).length + offset + 1 + line) = some (m, (line : Int)) :=
  laid.mapLine_eq_some_iff.mpr (.inr ⟨offset, line, place, inside, rfl, rfl⟩)

/-- The marker of a body and the empty line behind it come from no module. -/
theorem mapLine_frame (laid : s.Laid) (place : BodyAt s.sorted m offset) {index : Nat}
    (frame : index = 0 ∨ index = m.lines.length + 1) :
    s.mapLine ((hoistedLines s.sorted).length + offset + index) = none := by
  refine Option.eq_none_iff_forall_ne_some.mpr fun ⟨o, j⟩ mapped => ?_
  rcases laid.mapLine_eq_some_iff.mp mapped with ⟨front, h, hoisted, same, -⟩ |
    ⟨other, line, place', inside, same, -⟩
  · have before := hoisted.lt
    omega
  · rcases place.apart place' with ⟨rfl, rfl⟩ | between
    · omega
    · rw [length_body, length_body] at between
      omega

/-- A bundle is not a single empty line: a hoisted line comes with the body of its module. -/
theorem bundledLines_ne (laid : s.Laid) : bundledLines s.sorted ≠ [""] := by
  intro single
  have one : (bundledLines s.sorted).length = 1 := by rw [single]; rfl
  rw [length_bundledLines] at one
  have body : ∃ m offset, BodyAt s.sorted m offset := by
    by_cases none : (bodyLines s.sorted).length = 0
    · have hoists : 0 < (hoistedLines s.sorted).length := by omega
      obtain ⟨m, h, place⟩ := hoistedAt_of_lt hoists
      have inside := (laid.read m place.member).line_lt place.hoisted
      exact ⟨m, exists_bodyAt place.member (List.ne_nil_of_length_pos (by omega))⟩
    · obtain ⟨m, offset, -, place, -, -⟩ := exists_bodyAt_of_lt (Nat.pos_of_ne_zero none)
      exact ⟨m, offset, place⟩
  obtain ⟨m, offset, place⟩ := body
  have fits := place.le_length
  rw [length_body] at fits
  omega

end Laid

end ShaderBundle.Shader
