import ShaderBundle.Directive
import ShaderBundle.Proofs.Text.Blank

/-! Include directives against their written form. A line is read as one exactly if it is written like one,
and it is refused exactly if nothing is written between the delimiters. -/
namespace ShaderBundle

open Text

def IncludeKind.opening : IncludeKind → Char
  | .relative => '"'
  | .absolute => '<'

def IncludeKind.closing : IncludeKind → Char
  | .relative => '"'
  | .absolute => '>'

namespace Directive

variable {kind : IncludeKind} {close : Char} {target line cs : List Char}

/-- An include directive as it is written: the keyword, blanks, and the target between its delimiters,
with a backslash in front of each quote inside. -/
structure Includes (kind : IncludeKind) (target line : List Char) : Prop where
  escaped : quotesEscaped false target = true
  written : ∃ gap, gap ≠ [] ∧ AllBlank gap ∧
    line = "#include".toList ++ (gap ++ kind.opening :: (target ++ [kind.closing]))

theorem enclosed_eq_some_iff : enclosed close cs = some target ↔
    cs = target ++ [close] ∧ quotesEscaped false target = true := by
  constructor
  · intro found
    simp only [enclosed, Bool.and_eq_true, decide_eq_true_eq, Option.ite_none_right_eq_some,
      Option.some.injEq] at found
    obtain ⟨⟨ends, escaped⟩, rfl⟩ := found
    exact ⟨(List.dropLast_append_getLast? close ends).symm, escaped⟩
  · rintro ⟨rfl, escaped⟩
    simp [enclosed, escaped]

def delimited? : List Char → Option (IncludeKind × List Char)
  | '"' :: body => (enclosed '"' body).map (IncludeKind.relative, ·)
  | '<' :: body => (enclosed '>' body).map (IncludeKind.absolute, ·)
  | _ => none

theorem delimited?_eq_some_iff : delimited? cs = some (kind, target) ↔
    cs = kind.opening :: (target ++ [kind.closing]) ∧ quotesEscaped false target = true := by
  constructor
  · intro found
    unfold delimited? at found
    split at found
    all_goals
      simp only [Option.map_eq_some_iff, Prod.mk.injEq, enclosed_eq_some_iff, reduceCtorEq] at found
    all_goals
      obtain ⟨_, ⟨rfl, escaped⟩, rfl, rfl⟩ := found
      exact ⟨rfl, escaped⟩
  · rintro ⟨rfl, escaped⟩
    have closed : enclosed kind.closing (target ++ [kind.closing]) = some target :=
      enclosed_eq_some_iff.mpr ⟨rfl, escaped⟩
    cases kind with
    | relative => exact congrArg (Option.map (IncludeKind.relative, ·)) closed
    | absolute => exact congrArg (Option.map (IncludeKind.absolute, ·)) closed

theorem include?_eq (line : List Char) : include? line =
    (behind? "#include" line).bind fun rest =>
      match rest with
      | [] => none
      | c :: _ => if !isBlank c then none else delimited? (trimStart rest) := rfl

theorem behind?_eq_some_iff {keyword : String} {rest : List Char} :
    behind? keyword line = some rest ↔ keyword.toList ++ rest = line :=
  List.isPrefixOf?_eq_some_iff_append_eq

theorem isBlank_opening (kind : IncludeKind) : isBlank kind.opening = false := by
  cases kind <;> decide

theorem include?_eq_some_iff : include? line = some (kind, target) ↔ Includes kind target line := by
  rw [include?_eq, Option.bind_eq_some_iff]
  constructor
  · rintro ⟨rest, keyword, found⟩
    rw [behind?_eq_some_iff] at keyword
    cases rest with
    | nil => simp at found
    | cons c rest =>
      simp only [Option.ite_none_left_eq_some, Bool.not_eq_true', Bool.not_eq_false] at found
      obtain ⟨blank, found⟩ := found
      obtain ⟨body, escaped⟩ := delimited?_eq_some_iff.mp found
      refine ⟨escaped, (c :: rest).takeWhile isBlank, ?_, ?_, ?_⟩
      · simp [blank]
      · exact fun c member => List.mem_takeWhile_imp member
      · rw [← body, ← keyword]
        exact congrArg _ List.takeWhile_append_dropWhile.symm
  · rintro ⟨escaped, gap, some, blank, rfl⟩
    refine ⟨_, behind?_eq_some_iff.mpr rfl, ?_⟩
    obtain ⟨c, rest, rfl⟩ := List.exists_cons_of_ne_nil some
    have first : isBlank c = true := blank c List.mem_cons_self
    have body : trimStart (c :: rest ++ kind.opening :: (target ++ [kind.closing])) =
        kind.opening :: (target ++ [kind.closing]) := by
      rw [trimStart_blanks blank, trimStart_cons _ (isBlank_opening kind)]
    rw [List.cons_append] at body ⊢
    simp only [first, body, Bool.not_true, Bool.false_eq_true, if_false]
    exact delimited?_eq_some_iff.mpr ⟨rfl, escaped⟩

/-- The target of an include is a part of its line. -/
theorem Includes.target_subset (included : Includes kind target line) : target ⊆ line := by
  obtain ⟨gap, -, -, rfl⟩ := included.written
  intro c member
  simp only [List.mem_append, List.mem_cons]
  exact .inr (.inr (.inr (.inl member)))

/-- A line names one target. -/
theorem Includes.unique {kind' : IncludeKind} {target' : List Char} (included : Includes kind target line)
    (included' : Includes kind' target' line) : target = target' := by
  have same := (include?_eq_some_iff.mpr included).symm.trans (include?_eq_some_iff.mpr included')
  exact (Prod.mk.inj (Option.some.inj same)).2

end Directive

/-! ### Roles by the way that lines are written -/

namespace LineRole

open Directive

inductive Asks : List Char → LineRole → Prop
  | comment {line : List Char} (slashes : "//".toList <+: line) : Asks line .inert
  | emptyInclusion {line : List Char} {kind : IncludeKind} (live : ¬ "//".toList <+: line)
    (included : Includes kind [] line) : Asks line .emptyInclusion
  | inclusion {line target : List Char} {kind : IncludeKind} (live : ¬ "//".toList <+: line)
    (included : Includes kind target line) (some : target ≠ []) :
    Asks line (.inclusion kind (String.ofList target))
  | hoisted {line : List Char} (live : ¬ "//".toList <+: line)
    (excluded : ∀ kind target, ¬ Includes kind target line)
    (first : "#version".toList <+: line ∨ "precision".toList <+: line) : Asks line .hoisted
  | inert {line : List Char} (live : ¬ "//".toList <+: line)
    (excluded : ∀ kind target, ¬ Includes kind target line)
    (other : ¬ ("#version".toList <+: line ∨ "precision".toList <+: line)) : Asks line .inert

theorem startsWith_iff {keyword : String} {line : List Char} :
    startsWith keyword line = true ↔ keyword.toList <+: line := List.isPrefixOf_iff_prefix

theorem asks_ofTrimmed (line : List Char) : Asks line (ofTrimmed line) := by
  by_cases slashes : "//".toList <+: line
  · rw [ofTrimmed, if_pos (startsWith_iff.mpr slashes)]
    exact .comment slashes
  · rw [ofTrimmed, if_neg (startsWith_iff.not.mpr slashes)]
    cases found : include? line with
    | some parts =>
      obtain ⟨kind, target⟩ := parts
      have included : Includes kind target line := include?_eq_some_iff.mp found
      cases target with
      | nil => exact .emptyInclusion slashes included
      | cons c rest => exact .inclusion slashes included (List.cons_ne_nil c rest)
    | none =>
      have excluded (kind : IncludeKind) (target : List Char) : ¬ Includes kind target line := by
        rw [← include?_eq_some_iff, found]
        nofun
      by_cases first : "#version".toList <+: line ∨ "precision".toList <+: line
      · simp only [Bool.or_eq_true, startsWith_iff, if_pos first]
        exact .hoisted slashes excluded first
      · simp only [Bool.or_eq_true, startsWith_iff, if_neg first]
        exact .inert slashes excluded first

theorem asks_of (line : String) : Asks (trim line.toList) (of line) := asks_ofTrimmed _

/-- Such a line is refused: an include directive with nothing between its delimiters. -/
def LacksPath (line : String) : Prop :=
  ¬ "//".toList <+: trim line.toList ∧ ∃ kind, Includes kind [] (trim line.toList)

theorem of_eq_emptyInclusion_iff {line : String} : of line = .emptyInclusion ↔ LacksPath line := by
  have asks : Asks (trim line.toList) (of line) := asks_of line
  generalize of line = role at asks ⊢
  constructor
  · rintro rfl
    cases asks with
    | emptyInclusion live included => exact ⟨live, _, included⟩
  · rintro ⟨live, kind, included⟩
    cases asks with
    | comment slashes => exact absurd slashes live
    | emptyInclusion => rfl
    | inclusion _ other some => exact absurd (included.unique other).symm some
    | hoisted _ excluded _ => exact absurd included (excluded kind [])
    | inert _ excluded _ => exact absurd included (excluded kind [])

end LineRole

end ShaderBundle
