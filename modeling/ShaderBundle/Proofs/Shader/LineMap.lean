import ShaderBundle.Proofs.Assembly.Identifiers
import ShaderBundle.Proofs.Shader.Layout
import ShaderBundle.Proofs.Text.Rows

/-! The line map against the text of a bundle: what a line is led back to is what stands there, and only
markers and the empty lines behind bodies are led back to nothing. -/
namespace ShaderBundle.Shader

/-- The lines that a reader of the source counts. -/
def sourceLines (s : Shader) : List String := Text.pieces s.source

theorem length_sourceLines (s : Shader) : s.sourceLines.length = s.lineCount :=
  Text.length_pieces s.source

/-- Line `k` is led back to line `j` of `m` and shows it: as the module keeps it, or, among the hoisted
lines, as it was before it became a comment. -/
structure Shows (s : Shader) (k : Nat) (m : Module) (j : Nat) : Prop where
  line : j < m.lines.length
  mapped : s.mapLine k = some (m, (j : Int))
  kept : s.hoistedCount ≤ k → s.sourceLines[k]? = m.lines[j]?
  hoisted : k < s.hoistedCount → ∃ text, ⟨text, j⟩ ∈ m.hoisted ∧
    s.sourceLines[k]? = some text ∧ m.lines[j]? = some ("// " ++ text)

structure Opens (s : Shader) (k : Nat) (m : Module) : Prop where
  filled : m.lines ≠ []
  behind : s.hoistedCount ≤ k
  marker : s.sourceLines[k]? = some ("// MODULE BEGIN: " ++ m.id)
  next : s.mapLine (k + 1) = some (m, 0)

structure Closes (s : Shader) (k : Nat) (m : Module) : Prop where
  filled : m.lines ≠ []
  behind : s.hoistedCount ≤ k
  empty : s.sourceLines[k]? = some ""
  previous : s.mapLine (k - 1) = some (m, (m.lines.length : Int) - 1)

namespace Laid

variable {s : Shader} {m : Module} {offset : Nat}

theorem sourceLines_eq (laid : s.Laid) (free : ∀ line ∈ bundledLines s.sorted, Text.OneLine line) :
    s.sourceLines = bundledLines s.sorted := by
  rw [sourceLines, laid.source]
  exact Text.pieces_joinLines free laid.bundledLines_ne

section Places

variable (laid : s.Laid) (lines : s.sourceLines = bundledLines s.sorted)

include laid lines

theorem shows_hoisted {k : Nat} {h : HoistedLine} (place : HoistedAt s.sorted k m h) :
    s.Shows k m h.line := by
  have read := laid.read m place.member
  have front := length_hoistedLines s ▸ place.lt
  refine ⟨read.line_lt place.hoisted, laid.mapLine_hoisted place, fun behind => ?_, fun _ => ?_⟩
  · omega
  · rw [lines]
    exact ⟨h.text, place.hoisted, place.getElem?, read.line_of_hoisted place.hoisted⟩

theorem shows_body (place : BodyAt s.sorted m offset) {line : Nat} (inside : line < m.lines.length) :
    s.Shows (s.hoistedCount + offset + (line + 1)) m line := by
  have mapped := laid.mapLine_body place inside
  have fits : line + 1 < m.body.length := by
    rw [length_body]
    omega
  have shown := place.getElem?_bundledLines fits
  rw [length_hoistedLines] at mapped shown
  refine ⟨inside, ?_, fun _ => ?_, fun front => ?_⟩
  · rw [← mapped]
    congr 1
    omega
  · rw [lines, shown, getElem?_body_succ m inside]
  · omega

theorem opens_body (place : BodyAt s.sorted m offset) : s.Opens (s.hoistedCount + offset) m := by
  have positive := List.length_pos_of_ne_nil place.filled
  have first := laid.mapLine_body place positive
  have fits : 0 < m.body.length := by simp
  have shown := place.getElem?_bundledLines fits
  rw [length_hoistedLines] at first shown
  refine ⟨place.filled, by omega, ?_, by simpa using first⟩
  rw [lines]
  exact shown

theorem closes_body (place : BodyAt s.sorted m offset) :
    s.Closes (s.hoistedCount + offset + (m.lines.length + 1)) m := by
  have positive := List.length_pos_of_ne_nil place.filled
  have last := laid.mapLine_body place (Nat.sub_lt positive Nat.one_pos)
  have fits : m.lines.length + 1 < m.body.length := by simp
  have shown := place.getElem?_bundledLines fits
  rw [length_hoistedLines] at last shown
  refine ⟨place.filled, by omega, ?_, ?_⟩
  · rw [lines, shown, getElem?_body_last]
  · have line : ((m.lines.length - 1 : Nat) : Int) = m.lines.length - 1 := by omega
    rw [← line, ← last]
    congr 1
    omega

end Places

end Laid

/-- Every line of an assembled source is led back to the module line that it shows, or to none if it is
the marker in front of a body or the empty line behind one. No other number is led back. -/
theorem mapLine_reads_source {source : ModuleSource} {tree : FileTree} {root includeRoot : String}
    {s : Shader} (freeRoot : '\n' ∉ root.toList) (freeIncludes : '\n' ∉ includeRoot.toList)
    (ok : (assemble (source.library tree) root includeRoot).result = .ok s) :
    s.sourceLines.length = s.lineCount ∧ ∀ n : Int,
      (∃ m ∈ s.sorted, ∃ k j : Nat, n = k ∧ k < s.lineCount ∧ s.Shows k m j) ∨
      (s.mapLine n = none ∧ (n < 0 ∨ s.lineCount ≤ n ∨
        ∃ m ∈ s.sorted, ∃ k : Nat, n = k ∧ (s.Opens k m ∨ s.Closes k m))) := by
  have laid := laid_of_assemble ok
  have lines := laid.sourceLines_eq (oneLine_bundledLines freeIncludes freeRoot ok)
  refine ⟨length_sourceLines s, fun n => ?_⟩
  rw [← length_sourceLines, lines]
  by_cases within : 0 ≤ n ∧ n < (bundledLines s.sorted).length
  · obtain ⟨k, rfl⟩ := Int.eq_ofNat_of_zero_le within.1
    have inside : k < (bundledLines s.sorted).length := by omega
    rcases place_cases inside with ⟨m, h, place⟩ | ⟨m, offset, index, place, fits, rfl⟩
    · exact .inl ⟨m, place.member, k, h.line, rfl, inside, laid.shows_hoisted lines place⟩
    · rw [length_body] at fits
      by_cases frame : index = 0 ∨ index = m.lines.length + 1
      · refine .inr ⟨by exact_mod_cast laid.mapLine_frame place frame, .inr (.inr
          ⟨m, place.mem, _, rfl, ?_⟩)⟩
        rw [length_hoistedLines]
        rcases frame with rfl | rfl
        · exact .inl (laid.opens_body lines place)
        · exact .inr (laid.closes_body lines place)
      · obtain ⟨line, rfl⟩ : ∃ line, index = line + 1 := ⟨index - 1, by omega⟩
        refine .inl ⟨m, place.mem, _, line, rfl, inside, ?_⟩
        rw [length_hoistedLines]
        exact laid.shows_body lines place (by omega)
  · refine .inr ⟨?_, by omega⟩
    refine Option.eq_none_iff_forall_ne_some.mpr fun ⟨m, j⟩ mapped => ?_
    exact within (laid.inside_of_mapLine mapped)

/-- The first line of this source is a hoisted line and the second one a marker. -/
theorem mapLine_reads_source_of_pair : '\n' ∉ "m".toList ∧ '\n' ∉ "".toList ∧
    ∃ s, (assemble MemoryStore.pair.library "m" "").result = .ok s ∧
      s.sourceLines.length = s.lineCount ∧ (∃ m ∈ s.sorted, ∃ j, s.Shows 0 m j) ∧
      ∃ m ∈ s.sorted, s.Opens 1 m ∨ s.Closes 1 m := by
  have freeRoot : '\n' ∉ "m".toList := by decide
  have freeIncludes : '\n' ∉ "".toList := by decide
  let s := Shader.ofSorted "m" MemoryStore.pairModules MemoryStore.pairModules.reverse
  have count : s.lineCount = 9 := by decide +kernel
  have front : s.mapLine 0 ≠ none := by decide +kernel
  have marker : s.mapLine 1 = none := by decide +kernel
  have ok : (assemble ((ModuleSource.memory MemoryStore.pair).library {}) "m" "").result = .ok s :=
    assemble_pair
  have reads := mapLine_reads_source freeRoot freeIncludes ok
  refine ⟨freeRoot, freeIncludes, s, assemble_pair, reads.1, ?_, ?_⟩
  · rcases reads.2 0 with ⟨m, member, k, j, same, -, shows⟩ | ⟨none, -⟩
    · obtain rfl : k = 0 := by omega
      exact ⟨m, member, j, shows⟩
    · exact absurd none front
  · rcases reads.2 1 with ⟨m, -, k, j, same, -, shows⟩ | ⟨-, before | after | ⟨m, member, k, same, frame⟩⟩
    · obtain rfl : k = 1 := by omega
      exact absurd (marker.symm.trans shows.mapped) (by simp)
    · omega
    · omega
    · obtain rfl : k = 1 := by omega
      exact ⟨m, member, frame⟩

end ShaderBundle.Shader
