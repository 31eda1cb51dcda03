import ShaderBundle.Proofs.Module.Roles
import ShaderBundle.Proofs.Shader.LineMap

/-! A bundle read as a module of its own. The only lines in it that still ask for something are the
hoisted ones, which stand in front of all bodies. -/
namespace ShaderBundle.Shader

variable {lib : Library} {root includeRoot : String} {s : Shader}

/-- The last line of the bodies is the empty one behind the last body. -/
theorem getLast?_bodyLines (sorted : List Module) : ∀ last ∈ (bodyLines sorted).getLast?, last = "" := by
  induction sorted with
  | nil => simp [bodyLines]
  | cons m rest ih =>
    by_cases empty : m.lines = []
    · rwa [bodyLines_cons_of_empty rest empty]
    · intro last member
      rw [bodyLines_cons rest empty, List.getLast?_append] at member
      cases behind : (bodyLines rest).getLast? with
      | none =>
        rw [behind, Option.none_or, Module.body, List.getLast?_concat] at member
        exact (Option.some.inj member).symm
      | some line =>
        obtain rfl : line = last := by simpa [behind] using member
        exact ih line behind

def hoistedTexts (s : Shader) : List String := s.sorted.flatMap fun m => m.hoisted.map (·.text)

theorem bundledLines_eq (s : Shader) :
    bundledLines s.sorted = s.hoistedTexts ++ bodyLines s.sorted := by
  simp [bundledLines, hoistedLines, hoistedTexts, List.map_flatMap, Function.comp_def]

theorem mem_hoistedTexts_iff {text : String} :
    text ∈ s.hoistedTexts ↔ ∃ m ∈ s.sorted, ∃ h ∈ m.hoisted, h.text = text := by
  simp [hoistedTexts]

namespace Laid

/-- Where there is no body there is no hoisted line either. -/
theorem hoistedTexts_eq_nil (laid : s.Laid) (bare : bodyLines s.sorted = []) :
    s.hoistedTexts = [] := by
  refine List.eq_nil_iff_forall_not_mem.mpr fun text member => ?_
  obtain ⟨m, inSorted, h, hoisted, -⟩ := mem_hoistedTexts_iff.mp member
  have filled := List.ne_nil_of_length_pos (Nat.zero_lt_of_lt ((laid.read m inSorted).line_lt hoisted))
  have marked : m.marker ∈ bodyLines s.sorted :=
    mem_bodyLines_iff.mpr ⟨m, inSorted, filled, by simp [Module.body]⟩
  simp [bare] at marked

/-- The lines of the source as a module reads them, without the empty line behind the last body. -/
theorem splitLines_source (laid : s.Laid) (free : ∀ line ∈ bundledLines s.sorted, Text.OneLine line) :
    Text.splitLines s.source = s.hoistedTexts ++ (bodyLines s.sorted).dropLast := by
  by_cases bare : bodyLines s.sorted = []
  · have none : bundledLines s.sorted = [] := by
      rw [bundledLines_eq, bare, laid.hoistedTexts_eq_nil bare, List.append_nil]
    rw [laid.source, none, bare, laid.hoistedTexts_eq_nil bare]
    decide
  · have ends : ∀ last ∈ (bundledLines s.sorted).getLast?, last = "" := by
      intro last member
      rw [bundledLines_eq, List.getLast?_append_of_ne_nil _ bare] at member
      exact getLast?_bodyLines _ last member
    rw [laid.source, Text.splitLines_joinLines free ends, bundledLines_eq,
      List.dropLast_append_of_ne_nil bare]

end Laid

section Roles

variable (ok : (assemble lib root includeRoot).result = .ok s)

include ok

theorem role_of_mem_hoistedTexts {text : String} (member : text ∈ s.hoistedTexts) :
    LineRole.of text = .hoisted := by
  obtain ⟨m, inSorted, h, hoisted, rfl⟩ := mem_hoistedTexts_iff.mp member
  obtain ⟨source, deps, -, read⟩ := exists_ofSource_of_mem_sorted ok inSorted
  exact Module.role_of_mem_hoisted read hoisted

theorem inert_of_mem_bodyLines {line : String} (member : line ∈ bodyLines s.sorted) :
    LineRole.of line = .inert := by
  obtain ⟨m, inSorted, -, inBody⟩ := mem_bodyLines_iff.mp member
  rcases mem_body_iff.mp inBody with rfl | inLines | rfl
  · exact Module.inert_marker m
  · obtain ⟨source, deps, -, read⟩ := exists_ofSource_of_mem_sorted ok inSorted
    exact Module.inert_of_mem_lines read inLines
  · exact LineRole.inert_of_empty

end Roles

/-- A second reading of the source accepts it and finds no include. It hoists the lines that the bundled
modules hoist, in their order and from the front of the source; all lines of the bodies stand behind
them and ask for nothing. -/
theorem rescan_finds_hoisted {source : ModuleSource} {tree : FileTree}
    (freeRoot : '\n' ∉ root.toList) (freeIncludes : '\n' ∉ includeRoot.toList)
    (ok : (assemble (source.library tree) root includeRoot).result = .ok s) (id : String) :
    (∃ m, Module.ofSource id s.source = .ok m ∧ m.dependencies = [] ∧
      m.hoisted = s.hoistedTexts.mapIdx fun index text => ⟨text, index⟩) ∧
    s.sourceLines = s.hoistedTexts ++ bodyLines s.sorted ∧
    ∀ line ∈ bodyLines s.sorted, LineRole.of line = .inert := by
  have laid := laid_of_assemble ok
  have free := oneLine_bundledLines freeIncludes freeRoot ok
  have lines := laid.splitLines_source free
  have front : ∀ text ∈ s.hoistedTexts, LineRole.of text = .hoisted :=
    fun _ => role_of_mem_hoistedTexts ok
  have body : ∀ line ∈ bodyLines s.sorted, LineRole.of line = .inert :=
    fun _ => inert_of_mem_bodyLines ok
  have back : ∀ line ∈ (bodyLines s.sorted).dropLast, LineRole.of line = .inert :=
    fun line member => body line (List.dropLast_subset _ member)
  have roles : ∀ line ∈ Text.splitLines s.source,
      LineRole.of line = .hoisted ∨ LineRole.of line = .inert := by
    intro line member
    rw [lines, List.mem_append] at member
    exact member.imp (front line) (back line)
  refine ⟨⟨Module.ofLines id (Text.splitLines s.source), Module.ofSource_eq_ok_iff.mpr ⟨?_, rfl⟩,
    Module.dependencies_ofLines_eq_nil roles, ?_⟩, ?_, body⟩
  · intro line member named
    rcases roles line member with other | other
    all_goals simp [named] at other
  · rw [lines]
    exact Module.hoisted_ofLines_append front back
  · rw [laid.sourceLines_eq free, bundledLines_eq]

theorem rescan_finds_hoisted_of_pair : '\n' ∉ "m".toList ∧ '\n' ∉ "".toList ∧
    ∃ s, (assemble MemoryStore.pair.library "m" "").result = .ok s ∧
      ∃ m, Module.ofSource "bundle" s.source = .ok m ∧ m.dependencies = [] ∧
        m.hoisted = [⟨"#version 330", 0⟩] := by
  have freeRoot : '\n' ∉ "m".toList := by decide
  have freeIncludes : '\n' ∉ "".toList := by decide
  have ok : (assemble ((ModuleSource.memory MemoryStore.pair).library {}) "m" "").result =
      .ok (Shader.ofSorted "m" MemoryStore.pairModules MemoryStore.pairModules.reverse) := assemble_pair
  obtain ⟨⟨m, read, none, hoisted⟩, -⟩ := rescan_finds_hoisted freeRoot freeIncludes ok "bundle"
  exact ⟨freeRoot, freeIncludes, _, ok, m, read, none, hoisted⟩

end ShaderBundle.Shader
