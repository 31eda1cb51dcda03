import ShaderBundle.Proofs.Shader.Rescan

/-! Where the first version line of a bundle stands. Hoisted lines follow the dependency order of their
modules whatever they say, so precision lines of modules before the first one with a version line
stand in front of it, and nothing else does. -/
namespace ShaderBundle

namespace Directive

def isVersion (line : String) : Bool := startsWith "#version" (Text.trim line.toList)

def isPrecision (line : String) : Bool := startsWith "precision" (Text.trim line.toList)

theorem not_isPrecision_of_isVersion {line : String} (version : isVersion line = true) :
    isPrecision line = false := by
  have hash : "#version".toList = '#' :: "version".toList := by decide
  have letter : "precision".toList = 'p' :: "recision".toList := by decide
  unfold isVersion startsWith at version
  unfold isPrecision startsWith
  cases trimmed : Text.trim line.toList with
  | nil => rw [letter, List.isPrefixOf_cons_nil]
  | cons c rest =>
    rw [trimmed, hash, List.isPrefixOf_cons_cons, Bool.and_eq_true, beq_iff_eq] at version
    obtain ⟨rfl, -⟩ := version
    rw [letter, List.isPrefixOf_cons_cons]
    rfl

end Directive

theorem LineRole.isVersion_or_isPrecision {line : String} (role : LineRole.of line = .hoisted) :
    Directive.isVersion line = true ∨ Directive.isPrecision line = true := by
  have asks := asks_of line
  rw [role] at asks
  cases asks with
  | hoisted _ _ first => exact first.imp startsWith_iff.mpr startsWith_iff.mpr

namespace Module

def hasVersion (m : Module) : Bool := m.hoisted.any fun h => Directive.isVersion h.text

/-- No precision line of the module stands before a version line of its own. -/
def VersionsFirst (m : Module) : Prop :=
  ∀ v ∈ m.hoisted, ∀ p ∈ m.hoisted, Directive.isVersion v.text = true →
    Directive.isPrecision p.text = true → v.line < p.line

/-- A module that keeps this order hoists a version line first, if it has one. -/
theorem VersionsFirst.head {m : Module} (first : m.VersionsFirst) (read : m.IsRead)
    (roles : ∀ h ∈ m.hoisted, LineRole.of h.text = .hoisted) (some : m.hasVersion = true) :
    ∃ h rest, m.hoisted = h :: rest ∧ Directive.isVersion h.text = true := by
  obtain ⟨v, member, version⟩ := List.any_eq_true.mp some
  have increasing := read.hoisted_increasing
  cases list : m.hoisted with
  | nil => simp [list] at member
  | cons h rest =>
    refine ⟨h, rest, rfl, ?_⟩
    have front : h ∈ m.hoisted := by simp [list]
    rcases LineRole.isVersion_or_isPrecision (roles h front) with version' | precision
    · exact version'
    · have before := first v member h front version precision
      rw [list] at member increasing
      rcases List.mem_cons.mp member with rfl | later
      · omega
      · have after := (List.pairwise_cons.mp increasing).1 v later
        omega

end Module

namespace Shader

variable {lib : Library} {root includeRoot : String} {s : Shader}

def textsOf (modules : List Module) : List String := modules.flatMap fun m => m.hoisted.map (·.text)

theorem mem_textsOf_iff {modules : List Module} {text : String} :
    text ∈ textsOf modules ↔ ∃ m ∈ modules, ∃ h ∈ m.hoisted, h.text = text := by
  simp [textsOf]

theorem textsOf_eq_nil_iff {modules : List Module} :
    textsOf modules = [] ↔ ∀ m ∈ modules, m.hoisted = [] := by
  simp [textsOf]

/-- The source begins with the hoisted lines, whatever the ids of its modules are. -/
theorem Laid.prefix_sourceLines (laid : s.Laid) : s.hoistedTexts <+: s.sourceLines := by
  by_cases bare : bodyLines s.sorted = []
  · rw [laid.hoistedTexts_eq_nil bare]
    exact List.nil_prefix
  · rw [sourceLines, laid.source, bundledLines_eq]
    refine Text.prefix_pieces_joinLines (fun text member => ?_) bare
    obtain ⟨m, inSorted, h, hoisted, rfl⟩ := mem_hoistedTexts_iff.mp member
    exact (laid.read m inSorted).oneLine_hoisted hoisted

/-- Where no module has a precision line before a version line of its own, the source begins with the
precision lines of the modules before the first one that has a version line; behind them stands the
first version line. So it is the first line of all exactly if none of these modules hoists a line. -/
theorem version_behind_precision_of_earlier
    (ok : (assemble lib root includeRoot).result = .ok s)
    (some : ∃ m ∈ s.sorted, m.hasVersion = true) (first : ∀ m ∈ s.sorted, m.VersionsFirst) :
    ∃ before m after h rest, s.sorted = before ++ m :: after ∧ m.hoisted.head? = .some h ∧
      (∀ o ∈ before, o.hasVersion = false) ∧
      s.sourceLines = textsOf before ++ h.text :: rest ∧
      (∀ text ∈ textsOf before, Directive.isPrecision text = true) ∧
      Directive.isVersion h.text = true ∧
      ((∃ line, s.sourceLines.head? = .some line ∧ Directive.isVersion line = true) ↔
        ∀ o ∈ before, o.hoisted = []) := by
  have laid := laid_of_assemble ok
  obtain ⟨m, found⟩ := Option.isSome_iff_exists.mp (List.find?_isSome.mpr some)
  obtain ⟨has, before, after, split, none⟩ := List.find?_eq_some_iff_append.mp found
  have role {o : Module} (member : o ∈ s.sorted) {h : HoistedLine} (hoisted : h ∈ o.hoisted) :
      LineRole.of h.text = .hoisted :=
    role_of_mem_hoistedTexts ok (mem_hoistedTexts_iff.mpr ⟨o, member, h, hoisted, rfl⟩)
  have inSorted : m ∈ s.sorted := by simp [split]
  obtain ⟨h, later, list, version⟩ :=
    (first m inSorted).head (laid.read m inSorted) (fun _ => role inSorted) has
  have without : ∀ o ∈ before, o.hasVersion = false := by simpa using none
  have precisions : ∀ text ∈ textsOf before, Directive.isPrecision text = true := by
    intro text member
    obtain ⟨o, earlier, h', hoisted, rfl⟩ := mem_textsOf_iff.mp member
    have known : o ∈ s.sorted := by simp [split, earlier]
    rcases LineRole.isVersion_or_isPrecision (role known hoisted) with other | precision
    · exact absurd other (List.any_eq_false.mp (without o earlier) h' hoisted)
    · exact precision
  have lines : ∃ rest, s.sourceLines = textsOf before ++ h.text :: rest := by
    obtain ⟨rest, same⟩ := laid.prefix_sourceLines
    refine ⟨later.map (·.text) ++ textsOf after ++ rest, ?_⟩
    rw [← same, hoistedTexts, split]
    simp [textsOf, list]
  obtain ⟨rest, lines⟩ := lines
  refine ⟨before, m, after, h, rest, split, by simp [list], without, lines, precisions, version, ?_⟩
  rw [← textsOf_eq_nil_iff, lines]
  cases front : textsOf before with
  | nil => simp [version]
  | cons text _ =>
    have precision := precisions text (by simp [front])
    simp only [List.cons_append, List.head?_cons, Option.some.injEq, exists_eq_left', reduceCtorEq,
      iff_false]
    intro other
    simp [Directive.not_isPrecision_of_isVersion other] at precision

def precise : MemoryStore :=
  ⟨[("m", "#version 330\n#include \"a\""), ("a", "precision highp float;")], []⟩

def preciseModules : List Module :=
  [⟨"m", ["// #version 330", "// #include \"a\""], [⟨"a", 1, .relative, .some "a"⟩],
    [⟨"#version 330", 0⟩]⟩,
    ⟨"a", ["// precision highp float;"], [], [⟨"precision highp float;", 0⟩]⟩]

theorem assemble_precise : (assemble precise.library "m" "").result =
    .ok (.ofSorted "m" preciseModules preciseModules.reverse) :=
  assemble_eq_ok (by decide +kernel) (by cbv)

theorem versionsFirst_of_mem_precise : ∀ m ∈ preciseModules.reverse, m.VersionsFirst := by
  simp only [Module.VersionsFirst]
  decide +kernel

theorem version_behind_precision_of_precise : ∃ s,
    (assemble precise.library "m" "").result = .ok s ∧
    (∃ m ∈ s.sorted, m.hasVersion = true) ∧ (∀ m ∈ s.sorted, m.VersionsFirst) ∧
    ∃ before m after h rest, s.sorted = before ++ m :: after ∧ m.hoisted.head? = .some h ∧
      (∀ o ∈ before, o.hasVersion = false) ∧ s.sourceLines = textsOf before ++ h.text :: rest ∧
      Directive.isVersion h.text = true := by
  have some : ∃ m ∈ preciseModules.reverse, m.hasVersion = true := by decide +kernel
  obtain ⟨before, m, after, h, rest, split, head, without, lines, -, version, -⟩ :=
    version_behind_precision_of_earlier assemble_precise some versionsFirst_of_mem_precise
  exact ⟨_, assemble_precise, some, versionsFirst_of_mem_precise, before, m, after, h, rest, split, head,
    without, lines, version⟩

/-- Each module keeps its version lines in front, and yet the source does not begin with one. -/
theorem first_line_not_version : ∃ s, (assemble precise.library "m" "").result = .ok s ∧
    (∃ m ∈ s.sorted, m.hasVersion = true) ∧ (∀ m ∈ s.sorted, m.VersionsFirst) ∧
    s.sourceLines.head? = .some "precision highp float;" ∧
    ¬ ∃ line, s.sourceLines.head? = .some line ∧ Directive.isVersion line = true := by
  have front : (ofSorted "m" preciseModules preciseModules.reverse).sourceLines.head? =
      .some "precision highp float;" := by decide +kernel
  refine ⟨_, assemble_precise, by decide +kernel, versionsFirst_of_mem_precise, front, ?_⟩
  rintro ⟨line, same, version⟩
  obtain rfl := Option.some.inj (front.symm.trans same)
  revert version
  decide +kernel

end Shader

end ShaderBundle
